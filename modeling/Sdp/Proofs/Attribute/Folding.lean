import Sdp.Proofs.Attribute.Vocabulary

/-!
# Letter case makes no difference

Readings that differ in the text of a fault at most. Main statement: `Kind.Expects.toOption_read`, a
token that is compared with a vocabulary counts by its lower-case form only.
-/

namespace Sdp

open Text (lower matchLower words)

variable {α β : Type} {u u' : List Char}

/-! ## Readings without their faults -/

theorem toOption_bind {ε : Type} (r : Except ε α) (f : α → Except ε β) :
    (r >>= f).toOption = r.toOption.bind fun a => (f a).toOption := by
  cases r <;> rfl

theorem toOption_map {ε : Type} (r : Except ε α) (f : α → β) : (r.map f).toOption = r.toOption.map f := by
  cases r <;> rfl

theorem toOption_eq_some_iff {ε : Type} {r : Except ε α} {a : α} : r.toOption = some a ↔ r = .ok a := by
  cases r <;> simp [Except.toOption]

theorem matchLower_congr (h : lower u = lower u') (all : List α) (word : α → String) :
    matchLower all word u = matchLower all word u' := by
  rw [matchLower, matchLower, h]

theorem Keyword.toOption_read_congr (h : lower u = lower u') (k : Keyword) (all : List α)
    (word : α → String) : (k.read all word u).toOption = (k.read all word u').toOption := by
  rw [toOption_read, toOption_read, matchLower_congr h]

/-! ## Candidates -/

namespace Candidate

variable {value value' : List Char} {front back : List (List Char)}

theorem toOption_readMandatory_set {tokens : List (List Char)} (hlength : tokens.length = mandatoryTokens)
    {i : Nat} (hi : i = 2 ∨ i = 6 ∨ i = 7) (hu : tokens[i]? = some u) (hlower : lower u = lower u')
    (value value' : List Char) :
    (readMandatory value tokens).toOption = (readMandatory value' (tokens.set i u')).toOption := by
  match tokens, hlength with
  | [_, _, _, _, _, _, _, _], _ =>
      rcases hi with rfl | rfl | rfl
      all_goals
        cases hu
        simp only [readMandatory, List.set, Keyword.expect, toOption_bind, Keyword.toOption_read_congr hlower]

theorem toOption_read_of_token (hwords : words value = front ++ u :: back)
    (hwords' : words value' = front ++ u' :: back) (hlower : lower u = lower u')
    (hfront : front.length = 2 ∨ front.length = 6 ∨ front.length = 7) :
    (read value).toOption = (read value').toOption := by
  have hset : words value' = (words value).set front.length u' := by simp [hwords, hwords']
  have hlt : front.length < mandatoryTokens := by
    rw [mandatoryTokens]
    omega
  have htoken : ((words value).take mandatoryTokens)[front.length]? = some u := by
    rw [List.getElem?_take_of_lt hlt, hwords]
    simp
  rw [read_eq, read_eq, toOption_bind, toOption_bind, hset, List.take_set, List.drop_set, if_pos hlt]
  -- A value with too few tokens is refused before any of them is looked at.
  by_cases hlength : mandatoryTokens ≤ (words value).length
  · rw [toOption_readMandatory_set (List.length_take_of_le hlength) hfront htoken hlower value value']
  · have hshort : ((words value).take mandatoryTokens).length < mandatoryTokens := by
      rw [List.length_take]
      omega
    rw [readMandatory_of_short hshort, readMandatory_of_short (by rwa [List.length_set])]
    rfl

theorem toOption_readPair_name (hlower : lower u = lower u') (c : Candidate) (w : List Char) :
    (readPair c (u, w)).toOption = (readPair c (u', w)).toOption := by
  have hname : Extension.ofName? u = Extension.ofName? u' := matchLower_congr hlower _ _
  unfold readPair
  dsimp only
  rw [hname]
  cases Extension.ofName? u' <;> rfl

theorem toOption_readPair_value (hlower : lower u = lower u') (c : Candidate) {name : List Char}
    (hname : Extension.tcpType.IsNamed name) :
    (readPair c (name, u)).toOption = (readPair c (name, u')).toOption := by
  unfold readPair
  simp only [Extension.ofName?_eq_some_iff.mpr hname, Extension.apply, toOption_bind,
    Keyword.toOption_read_congr hlower]

theorem toOption_read_of_pair {p p' : Pair} (hwords : words value = front ++ p.1 :: p.2 :: back)
    (hwords' : words value' = front ++ p'.1 :: p'.2 :: back) (h : mandatoryTokens ≤ front.length)
    (heven : front.length % 2 = 0) (hpair : ∀ c, (readPair c p).toOption = (readPair c p').toOption) :
    (read value).toOption = (read value').toOption := by
  have hdrop : (front.drop mandatoryTokens).length % 2 = 0 := by
    rw [List.length_drop, mandatoryTokens]
    omega
  rw [read_eq, read_eq, hwords, hwords', List.take_append_of_le_length h, List.take_append_of_le_length h,
    List.drop_append_of_le_length h, List.drop_append_of_le_length h,
    readMandatory_congr (List.length_take_of_le h) value value']
  simp only [readExtensions_eq_foldlM, pairs_append hdrop, pairs, List.foldlM_append, List.foldlM_cons,
    toOption_bind, hpair]

end Candidate

/-! ## Other values -/

section Other

variable {value value' : List Char} {front back : List (List Char)}

theorem Sctpmap.toOption_read_congr {port : List Char} (hwords : words value = port :: u :: back)
    (hwords' : words value' = port :: u' :: back) (hlower : lower u = lower u') :
    (read value).toOption = (read value').toOption := by
  unfold read
  rw [hwords, hwords']
  match back with
  | [channels] => simp only [Keyword.expect, toOption_bind, Keyword.toOption_read_congr hlower]
  | [] => rfl
  | _ :: _ :: _ => rfl

namespace Simulcast

theorem toOption_readSides_blame (value value' : List Char) (s : Simulcast) (tokens : List (List Char)) :
    (readSides value s tokens).toOption = (readSides value' s tokens).toOption := by
  fun_induction readSides value s tokens with
  | case1 s => rfl
  | case2 s word =>
      rw [readSides, toOption_bind, toOption_bind]
      rfl
  | case3 s word list rest ih =>
      rw [readSides, toOption_bind, toOption_bind]
      simp only [ih]

theorem toOption_readSides_congr (hlower : lower u = lower u') (value value' : List Char) (s : Simulcast)
    (heven : front.length % 2 = 0) :
    (readSides value s (front ++ u :: back)).toOption =
      (readSides value' s (front ++ u' :: back)).toOption := by
  -- By induction on the sides in front of the token. Behind it the two readings differ in what they blame.
  fun_induction readSides value s front with
  | case1 s =>
      cases back with
      | nil =>
          simp only [List.nil_append, readSides, toOption_bind, Keyword.toOption_read_congr hlower]
          rfl
      | cons list rest =>
          simp only [List.nil_append, readSides, toOption_bind, Keyword.toOption_read_congr hlower,
            toOption_readSides_blame value value']
  | case2 s word => cases heven
  | case3 s word list rest ih =>
      have hrest : rest.length % 2 = 0 := by
        simp only [List.length_cons] at heven
        omega
      simp only [List.cons_append, readSides, toOption_bind, ih _ hrest]

theorem toOption_read_congr (hwords : words value = front ++ u :: back)
    (hwords' : words value' = front ++ u' :: back) (hlower : lower u = lower u')
    (heven : front.length % 2 = 0) : (read value).toOption = (read value').toOption := by
  have hread {value : List Char} (hne : words value ≠ []) :
      read value = readSides value ⟨[], []⟩ (words value) := by
    unfold read
    split
    · next h => exact absurd h hne
    · rfl
  rw [hread (by simp [hwords]), hread (by simp [hwords']), hwords, hwords']
  exact toOption_readSides_congr hlower value value' _ heven

end Simulcast

theorem Extmap.toOption_read_congr {id : List Char} (hid : '/' ∉ id)
    (hwords : words value = (id ++ '/' :: u) :: back) (hwords' : words value' = (id ++ '/' :: u') :: back)
    (hlower : lower u = lower u') :
    (read value).toOption = (read value').toOption := by
  unfold read
  rw [hwords, hwords']
  match back with
  | [url] => simp only [Text.cut_append hid, toOption_bind, Keyword.toOption_read_congr hlower]
  | [] => rfl
  | _ :: _ :: _ => rfl

end Other

/-- A token that is compared with a vocabulary counts by its lower-case form only. -/
theorem Kind.Expects.toOption_read {k : Kind} {front back : List (List Char)} {v : Vocabulary}
    (h : k.Expects front back v) {s s' : List Char} (hwords : words s = front ++ u :: back)
    (hwords' : words s' = front ++ u' :: back) (hlower : lower u = lower u') :
    (Attribute.read k (Text.trim s)).toOption = (Attribute.read k (Text.trim s')).toOption := by
  rw [← Text.words_trim] at hwords hwords'
  have hcandidate (hread : (Candidate.read (Text.trim s)).toOption = (Candidate.read (Text.trim s')).toOption) :
      (Attribute.read .candidate (Text.trim s)).toOption =
        (Attribute.read .candidate (Text.trim s')).toOption := by
    simp only [Attribute.read, toOption_map, hread]
  cases h with
  | transport h => exact hcandidate (Candidate.toOption_read_of_token hwords hwords' hlower (by simp [h]))
  | typ h => exact hcandidate (Candidate.toOption_read_of_token hwords hwords' hlower (by simp [h]))
  | candidateType h => exact hcandidate (Candidate.toOption_read_of_token hwords hwords' hlower (by simp [h]))
  | extension h heven hback =>
      obtain ⟨w, back, rfl⟩ := List.exists_cons_of_ne_nil hback
      exact hcandidate (Candidate.toOption_read_of_pair hwords hwords' h heven fun c =>
        Candidate.toOption_readPair_name hlower c w)
  | @tcpType front name _ h heven hname =>
      rw [List.append_assoc, List.singleton_append] at hwords hwords'
      exact hcandidate (Candidate.toOption_read_of_pair hwords hwords' h heven fun c =>
        Candidate.toOption_readPair_value hlower c hname)
  | protocol => simp only [Attribute.read, toOption_map, Sctpmap.toOption_read_congr hwords hwords' hlower]
  | role =>
      rw [Text.words_trim] at hwords hwords'
      simp only [Attribute.read, toOption_map, Text.trim_of_words_eq_singleton hwords,
        Text.trim_of_words_eq_singleton hwords', Keyword.toOption_read_congr hlower]
  | side heven =>
      simp only [Attribute.read, toOption_map, Simulcast.toOption_read_congr hwords hwords' hlower heven]

end Sdp
