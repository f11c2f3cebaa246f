import Sdp.Attribute.Vocabulary
import Sdp.Proofs.Attribute.Catalog
import Sdp.Proofs.Attribute.Listing

/-!
# What a text is taken for

Main statements: `Vocabulary.take?_eq_some_iff`, a text is taken for the word that it spells, and
`Kind.Expects.isOneOf`, in a value that is read such a token spells a word of its vocabulary.
-/

namespace Sdp

open Text (IsLowerSpelling IsWord matchLower words)

variable {α : Type} {t : List Char} {K : String}

/-! ## Texts -/

theorem Keyword.toOption_read (k : Keyword) (all : List α) (word : α → String) (t : List Char) :
    (k.read all word t).toOption = matchLower all word t := by
  unfold read
  cases matchLower all word t <;> rfl

theorem map_matchLower_eq_some_iff {all : List α} {word : α → String} {ws : List String}
    (h : Spelled (matchLower all word) word) (hws : all.map word = ws)
    (hplain : ∀ K ∈ ws, Text.Plain K.toList) :
    (matchLower all word t).map word = some K ↔ K ∈ ws ∧ IsLowerSpelling K.toList t := by
  subst hws
  have hword (a : α) : word a ∈ all.map word :=
    List.mem_map_of_mem (List.mem_of_find?_eq_some (h.find a))
  simp only [Option.map_eq_some_iff, matchLower_eq_some_iff h,
    Text.lower_eq_iff_isLowerSpelling (hplain _ (hword _))]
  constructor
  · rintro ⟨a, ha, rfl⟩
    exact ⟨hword a, ha⟩
  · rintro ⟨hK, ht⟩
    obtain ⟨a, -, rfl⟩ := List.mem_map.mp hK
    exact ⟨a, ht, rfl⟩

theorem Kind.ofKeyword?_eq_some_iff_isLowerSpelling {k : Kind} :
    ofKeyword? t = some k ↔ IsLowerSpelling k.keyword.toList t := by
  rw [ofKeyword?_eq_some_iff, IsLowerSpelling]
  refine and_congr_right fun hascii => ?_
  rw [Text.lower_of_isAscii hascii, eq_comm]

theorem toOption_classify (t : List Char) : (Attribute.classify t).toOption = Kind.ofKeyword? t := by
  unfold Attribute.classify
  cases Kind.ofKeyword? t <;> rfl

theorem Sctpmap.protocol_spelled :
    Spelled (matchLower [()] fun _ => protocol) (fun _ => protocol) :=
  ⟨fun _ => by decide, fun _ => rfl⟩

namespace Vocabulary

-- The Kelvin sign has a `k` for its lower-case form, and no word has one.
theorem shape {v : Vocabulary} : ∀ K ∈ v.words,
    Text.Plain K.toList ∧ IsWord K.toList ∧ 2 ≤ K.toList.length ∧ ':' ∉ K.toList := by
  cases v <;> decide +kernel

theorem plain {v : Vocabulary} : ∀ K ∈ v.words, Text.Plain K.toList :=
  fun K hK => (shape K hK).1

theorem isWord {v : Vocabulary} : ∀ K ∈ v.words, IsWord K.toList :=
  fun K hK => (shape K hK).2.1

theorem two_le_length {v : Vocabulary} : ∀ K ∈ v.words, 2 ≤ K.toList.length :=
  fun K hK => (shape K hK).2.2.1

theorem colon_not_mem {v : Vocabulary} : ∀ K ∈ v.words, ':' ∉ K.toList :=
  fun K hK => (shape K hK).2.2.2

/-- Beside the kinds no word stands in another one. -/
theorem eq_of_infix {v : Vocabulary} (hv : v ≠ .kind) :
    ∀ K ∈ v.words, ∀ L ∈ v.words, L.toList <:+: K.toList → L = K := by
  cases v with
  | kind => exact absurd rfl hv
  | _ => decide +kernel

/-- A text is taken for a word just if it is ASCII and the word up to the case of its letters. -/
theorem take?_eq_some_iff {v : Vocabulary} :
    v.take? t = some K ↔ K ∈ v.words ∧ IsLowerSpelling K.toList t := by
  cases v with
  | kind =>
      simp only [take?, toOption_classify, Option.map_eq_some_iff,
        Kind.ofKeyword?_eq_some_iff_isLowerSpelling, words, List.mem_map]
      constructor
      · rintro ⟨k, hk, rfl⟩
        exact ⟨⟨k, k.mem_all, rfl⟩, hk⟩
      · rintro ⟨⟨k, -, rfl⟩, hk⟩
        exact ⟨k, hk, rfl⟩
  | transport =>
      rw [take?, Keyword.toOption_read]
      exact map_matchLower_eq_some_iff Transport.spelled rfl plain
  | typ =>
      rw [take?, Keyword.expect, Keyword.toOption_read]
      exact map_matchLower_eq_some_iff Candidate.typ_spelled rfl plain
  | candidateType =>
      rw [take?, Keyword.toOption_read]
      exact map_matchLower_eq_some_iff CandidateType.spelled rfl plain
  | extension => exact map_matchLower_eq_some_iff Candidate.Extension.spelled rfl plain
  | tcpType =>
      rw [take?, Keyword.toOption_read]
      exact map_matchLower_eq_some_iff TcpType.spelled rfl plain
  | direction =>
      rw [take?, Keyword.toOption_read]
      exact map_matchLower_eq_some_iff Direction.spelled rfl plain
  | protocol =>
      rw [take?, Keyword.expect, Keyword.toOption_read]
      exact map_matchLower_eq_some_iff Sctpmap.protocol_spelled rfl plain
  | role =>
      rw [take?, Keyword.toOption_read]
      exact map_matchLower_eq_some_iff SetupRole.spelled rfl plain
  | side =>
      rw [take?, Keyword.toOption_read]
      exact map_matchLower_eq_some_iff Simulcast.Side.spelled rfl plain

theorem exists_take?_iff {v : Vocabulary} : (∃ K, v.take? t = some K) ↔ Candidate.IsOneOf v.words t := by
  simp only [take?_eq_some_iff, Candidate.IsOneOf]

end Vocabulary

/-! ## Tokens of a value that is read -/

section Read

variable {value u : List Char} {front back : List (List Char)} {a : Attribute}

open Candidate (IsOneOf PairKept)

namespace Candidate

theorem rule_of_read (hread : Attribute.read .candidate value = .ok a)
    (hwords : words value = front ++ u :: back) {rule : List Char → Prop}
    (hrule : mandatoryRules[front.length]? = some rule) : rule u := by
  obtain ⟨c, hc, -⟩ := read_attribute_eq_ok_iff.mp hread
  obtain ⟨-, hkept, -⟩ := exists_read_eq_ok_iff.mp ⟨c, hc⟩
  have hlength : front.length < mandatoryTokens := by
    obtain ⟨hlt, -⟩ := List.getElem?_eq_some_iff.mp hrule
    exact hlt
  refine hkept.rule hrule ?_
  rw [List.getElem?_take_of_lt hlength, hwords]
  simp

theorem pairKept_of_read (hread : Attribute.read .candidate value = .ok a) {name : List Char}
    (hwords : words value = front ++ name :: u :: back) (h : mandatoryTokens ≤ front.length)
    (heven : front.length % 2 = 0) : PairKept (name, u) := by
  obtain ⟨c, hc, -⟩ := read_attribute_eq_ok_iff.mp hread
  obtain ⟨-, -, hpairs⟩ := exists_read_eq_ok_iff.mp ⟨c, hc⟩
  have hplace : mandatoryTokens + 2 * ((front.length - mandatoryTokens) / 2) = front.length := by
    rw [mandatoryTokens] at h ⊢
    omega
  have hpair : (pairs ((words value).drop mandatoryTokens))[(front.length - mandatoryTokens) / 2]? =
      some (name, u) := by
    rw [getElem?_pairs_eq_some_iff, List.getElem?_drop, List.getElem?_drop, ← Nat.add_assoc, hplace, hwords]
    simp
  exact hpairs _ (List.mem_of_getElem? hpair)

end Candidate

theorem Sctpmap.isOneOf_of_read (hread : Attribute.read .sctpmap value = .ok a) {port : List Char}
    (hwords : words value = port :: u :: back) : IsOneOf Vocabulary.protocol.words u := by
  obtain ⟨s, hs, -⟩ := map_eq_ok_iff.mp hread
  unfold read at hs
  rw [hwords] at hs
  split at hs
  · next h =>
      cases h
      obtain ⟨_, -, hs⟩ := bind_eq_ok_iff.mp hs
      obtain ⟨_, hprotocol, -⟩ := bind_eq_ok_iff.mp hs
      exact Vocabulary.exists_take?_iff.mp ⟨Sctpmap.protocol, by rw [Vocabulary.take?, hprotocol]; rfl⟩
  · cases hs

/-- A role is the whole of its value, and so its only word. -/
theorem SetupRole.isOneOf_of_read (hread : Attribute.read .setup value = .ok a)
    (hwords : words value = u :: back) : IsOneOf Vocabulary.role.words u := by
  obtain ⟨r, hr, -⟩ := map_eq_ok_iff.mp hread
  obtain ⟨K, hK, hspelled⟩ : IsOneOf Vocabulary.role.words value :=
    Vocabulary.exists_take?_iff.mp ⟨r.word, by rw [Vocabulary.take?, hr]; rfl⟩
  rw [Text.words_of_isWord (hspelled.isWord (Vocabulary.isWord K hK))] at hwords
  cases hwords
  exact ⟨K, hK, hspelled⟩

theorem Simulcast.isOneOf_of_read (hread : Attribute.read .simulcast value = .ok a)
    (hwords : words value = front ++ u :: back) (heven : front.length % 2 = 0) :
    IsOneOf Vocabulary.side.words u := by
  obtain ⟨s, hs, -⟩ := read_attribute_eq_ok_iff.mp hread
  obtain ⟨-, hturns⟩ := isOk_read_iff.mp (isOk_iff.mpr ⟨s, hs⟩)
  refine hturns.sides (front.length / 2) u ?_
  have hplace : 2 * (front.length / 2) = front.length := by omega
  rw [hplace, hwords]
  simp

theorem Extmap.isOneOf_of_read (hread : Attribute.read .extmap value = .ok a) {id : List Char}
    (hid : '/' ∉ id) (hwords : words value = (id ++ '/' :: u) :: back) :
    IsOneOf Vocabulary.direction.words u := by
  obtain ⟨e, he, -⟩ := map_eq_ok_iff.mp hread
  unfold read at he
  rw [hwords] at he
  split at he
  · next h =>
      cases h
      simp only [Text.cut_append hid] at he
      obtain ⟨d, hd, -⟩ := bind_eq_ok_iff.mp he
      exact Vocabulary.exists_take?_iff.mp ⟨d.word, by rw [Vocabulary.take?, hd]; rfl⟩
  · cases he

/-- A token that is compared with a vocabulary spells one of its words if the value is read. Of what stands
behind the token it matters only whether there is anything. -/
theorem Kind.Expects.isOneOf {k : Kind} {behind : List (List Char)} {v : Vocabulary}
    (h : k.Expects front behind v) (hback : behind ≠ [] → back ≠ []) (hwords : words value = front ++ u :: back)
    (hread : Attribute.read k value = .ok a) : IsOneOf v.words u := by
  cases h with
  | transport h => exact Candidate.rule_of_read hread hwords (by rw [h]; rfl)
  | typ h => exact Candidate.rule_of_read hread hwords (by rw [h]; rfl)
  | candidateType h => exact Candidate.rule_of_read hread hwords (by rw [h]; rfl)
  | extension h heven hbehind =>
      obtain ⟨w, back, rfl⟩ := List.exists_cons_of_ne_nil (hback hbehind)
      obtain ⟨e, he, -⟩ := Candidate.pairKept_of_read hread hwords h heven
      exact ⟨e.word, by cases e <;> decide, he⟩
  | @tcpType front name _ h heven hname =>
      rw [List.append_assoc, List.singleton_append] at hwords
      obtain ⟨e, he, t, ht⟩ := Candidate.pairKept_of_read hread hwords h heven
      obtain rfl := he.unique hname
      exact ⟨TcpType.word t, by cases t <;> decide, ht⟩
  | protocol => exact Sctpmap.isOneOf_of_read hread hwords
  | role => exact SetupRole.isOneOf_of_read hread hwords
  | side heven => exact Simulcast.isOneOf_of_read hread hwords heven

end Read

end Sdp
