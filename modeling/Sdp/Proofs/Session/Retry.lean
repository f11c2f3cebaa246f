import Sdp.Proofs.Attribute.Grammar
import Sdp.Proofs.Session.Lenient
import Sdp.Session.Retry

/-!
# The pair that is left out is the pair that failed

The reader of extensions compares names in lower case, and the search for the pair to leave out compares
them as they are. Main statement: `LineReading.retry_exact`.
-/

namespace Sdp

open Text (IsWord unwords words)

namespace Candidate

variable {tokens : List (List Char)} {name line : List Char} {i : Nat} {p : Pair} {e : Fault Defect}

/-! ## Places of pairs -/

theorem pairs_take (tokens : List (List Char)) (i : Nat) :
    pairs (tokens.take (2 * i)) = (pairs tokens).take i := by
  refine List.ext_getElem? fun j => Option.ext fun p => ?_
  rw [getElem?_pairs_eq_some_iff, List.getElem?_take, List.getElem?_take, List.getElem?_take]
  by_cases hj : j < i
  · rw [if_pos (by omega), if_pos (by omega), if_pos hj, getElem?_pairs_eq_some_iff]
  · simp [show ¬ 2 * j < 2 * i by omega, hj]

theorem hasName_iff :
    HasName tokens name i ↔ ∃ v, (pairs (tokens.drop mandatoryTokens))[i]? = some (name, v) := by
  simp only [HasName, place, getElem?_pairs_eq_some_iff, List.getElem?_drop, exists_and_left,
    ← Nat.add_assoc]
  refine and_congr_right fun _ => ⟨fun h => ⟨_, List.getElem?_eq_getElem h⟩, fun ⟨v, hv⟩ => ?_⟩
  exact (List.getElem?_eq_some_iff.mp hv).1

theorem dropPair?_cases (name : List Char) (tokens : List (List Char)) :
    (dropPair? name tokens = none ∧ ∀ (i : Nat) v, (pairs tokens)[i]? ≠ some (name, v)) ∨
    ∃ (i : Nat) (v : List Char),
      dropPair? name tokens = some (tokens.take (2 * i) ++ tokens.drop (2 * i + 2)) ∧
      (pairs tokens)[i]? = some (name, v) ∧ ∀ j < i, ∀ w, (pairs tokens)[j]? ≠ some (name, w) := by
  fun_induction dropPair? name tokens with
  | case1 v rest => exact Or.inr ⟨0, v, rfl, rfl, fun j hj => absurd hj (Nat.not_lt_zero j)⟩
  | case2 n v rest hn ih =>
      have hhead : ∀ w, (n, v) ≠ (name, w) := fun w h => hn (Prod.mk.inj h).1
      rcases ih with ⟨hnone, hall⟩ | ⟨i, u, hdrop, hi, hfirst⟩
      · refine Or.inl ⟨by rw [hnone]; rfl, fun i w => ?_⟩
        cases i with
        | zero => simpa [pairs] using hhead w
        | succ i => simpa [pairs] using hall i w
      · refine Or.inr ⟨i + 1, u, by rw [hdrop]; rfl, hi, fun j hj w => ?_⟩
        cases j with
        | zero => simpa [pairs] using hhead w
        | succ j => simpa [pairs] using hfirst j (Nat.lt_of_succ_lt_succ hj) w
  | case3 tokens hshort => exact Or.inl ⟨rfl, by simp [pairs.eq_2 tokens hshort]⟩

theorem take_append_withoutPair (tokens : List (List Char)) (i : Nat) :
    tokens.take mandatoryTokens ++ ((tokens.drop mandatoryTokens).take (2 * i) ++
      (tokens.drop mandatoryTokens).drop (2 * i + 2)) = withoutPair tokens i := by
  rw [withoutPair, place, List.take_add, List.append_assoc, List.drop_drop, Nat.add_assoc]

theorem isLine_iff_lower :
    IsLine line ↔ Text.lower (Attribute.splitLine line).1 = Kind.candidate.keyword.toList :=
  (Text.lower_eq_iff_isLowerSpelling (by decide) _).symm

theorem isLine_iff : IsLine line ↔ Kind.ofKeyword? (Attribute.splitLine line).1 = some .candidate := by
  rw [Kind.ofKeyword?_eq_some_iff]
  constructor
  · intro h
    exact ⟨h.1, (isLine_iff_lower.mp h).symm⟩
  · rintro ⟨-, h⟩
    exact isLine_iff_lower.mpr h.symm

theorem withoutExtension?_cases (line name : List Char) :
    (withoutExtension? line name = none ∧ (¬ IsLine line ∨ ∀ i, ¬ HasName (tokensOf line) name i)) ∨
    ∃ i, IsLine line ∧ HasNameFirst (tokensOf line) name i ∧
      withoutExtension? line name =
        some ((Attribute.splitLine line).1 ++ ':' :: unwords (withoutPair (tokensOf line) i)) := by
  rw [withoutExtension?_eq]
  split
  · next hline =>
      rcases dropPair?_cases name ((tokensOf line).drop mandatoryTokens) with
        ⟨hnone, hall⟩ | ⟨i, v, hdrop, hi, hfirst⟩
      · refine Or.inl ⟨by rw [← tokensOf, hnone]; rfl, Or.inr fun i hi => ?_⟩
        obtain ⟨v, hv⟩ := hasName_iff.mp hi
        exact hall i v hv
      · refine Or.inr
          ⟨i, isLine_iff_lower.mpr hline, ⟨hasName_iff.mpr ⟨v, hi⟩, fun j hj h => ?_⟩, ?_⟩
        · obtain ⟨w, hw⟩ := hasName_iff.mp h
          exact hfirst j hj w hw
        · rw [← tokensOf, hdrop, Option.map_some, take_append_withoutPair]
  · next hline => exact Or.inl ⟨rfl, Or.inl fun h => hline (isLine_iff_lower.mp h)⟩

theorem withoutExtension?_eq_none_iff :
    withoutExtension? line name = none ↔ ¬ IsLine line ∨ ∀ i, ¬ HasName (tokensOf line) name i := by
  rcases withoutExtension?_cases line name with ⟨hnone, h⟩ | ⟨i, hline, hi, hsome⟩
  · exact iff_of_true hnone h
  · refine iff_of_false (by simp [hsome]) ?_
    rintro (h | h)
    · exact h hline
    · exact h i hi.1

theorem isWord_of_mem_tokensOf {w : List Char} (h : w ∈ tokensOf line) : IsWord w :=
  Text.isWord_of_mem_words h

/-- The rest of a line is read as the tokens that stay. -/
theorem withoutExtension?_eq_some {shorter : List Char} (h : withoutExtension? line name = some shorter) :
    ∃ i, HasNameFirst (tokensOf line) name i ∧
      (Attribute.splitLine shorter).1 = (Attribute.splitLine line).1 ∧
      tokensOf shorter = withoutPair (tokensOf line) i := by
  rcases withoutExtension?_cases line name with ⟨hnone, -⟩ | ⟨i, -, hi, hsome⟩
  · cases hnone.symm.trans h
  · obtain rfl := Option.some.inj (hsome.symm.trans h)
    have hcolon := Attribute.not_mem_keyword line
    refine ⟨i, hi, ?_, words_splitLine_unwords hcolon fun w hw => ?_⟩
    · rw [Attribute.splitLine_append hcolon]
    · rcases List.mem_append.mp hw with hw | hw
      · exact isWord_of_mem_tokensOf (List.mem_of_mem_take hw)
      · exact isWord_of_mem_tokensOf (List.mem_of_mem_drop hw)

theorem IsLine.shorter {shorter : List Char} (hline : IsLine line)
    (h : withoutExtension? line name = some shorter) : IsLine shorter := by
  obtain ⟨i, -, hkeyword, -⟩ := withoutExtension?_eq_some h
  rw [IsLine, hkeyword]
  exact hline

theorem HasNameFirst.unique {j : Nat} (hi : HasNameFirst tokens name i) (hj : HasNameFirst tokens name j) :
    i = j := by
  rcases Nat.lt_trichotomy i j with hlt | heq | hlt
  · exact absurd hi.1 (hj.2 i hlt)
  · exact heq
  · exact absurd hj.1 (hi.2 j hlt)

/-! ## Where the reader stops -/

theorem read_take (hwords : ∀ w ∈ tokens, IsWord w) (h : MandatoryValid (tokens.take mandatoryTokens))
    (i : Nat) : ∃ c, read (unwords (tokens.take (place i))) =
      readExtensions c ((tokens.drop mandatoryTokens).take (2 * i)) := by
  have hcut : words (unwords (tokens.take (place i))) = tokens.take (place i) :=
    Text.words_unwords fun w hw => hwords w (List.mem_of_mem_take hw)
  obtain ⟨c, hc⟩ := exists_readMandatory_eq_ok h (unwords (tokens.take (place i)))
  refine ⟨c, ?_⟩
  have hfront : min mandatoryTokens (place i) = mandatoryTokens := Nat.min_eq_left (Nat.le_add_right ..)
  rw [read_eq, hcut, List.take_take, List.drop_take, hfront, hc, place, Nat.add_sub_cancel_left]
  rfl

theorem isOk_readExtensions_iff (c : Candidate) : (readExtensions c tokens).isOk ↔ stop? tokens = none := by
  rcases readExtensions_outcome c tokens with ⟨hnone, c', hc', -⟩ | ⟨p, f, hstop, hf, -⟩
  · exact iff_of_true (by rw [hc']; rfl) hnone
  · exact iff_of_false (by rw [hf]; exact Bool.false_ne_true) (by simp [hstop])

theorem isOk_read_take_iff (hwords : ∀ w ∈ tokens, IsWord w)
    (h : MandatoryValid (tokens.take mandatoryTokens)) (i : Nat) :
    (read (unwords (tokens.take (place i)))).isOk ↔
      ∀ q ∈ (pairs (tokens.drop mandatoryTokens)).take i, isAccepted q := by
  obtain ⟨c, hc⟩ := read_take hwords h i
  rw [hc, isOk_readExtensions_iff, stop?, pairs_take]
  simp

theorem readExtensions_of_isUnknown (h : stop? tokens = some p) (hp : isUnknown p) (c : Candidate) :
    readExtensions c tokens = .error (fault .unknownExtension p.1) := by
  rcases readExtensions_outcome c tokens with ⟨hnone, -⟩ | ⟨q, f, hstop, hf, hwith⟩
  · cases h.symm.trans hnone
  · obtain rfl : p = q := Option.some.inj (h.symm.trans hstop)
    rcases hwith with ⟨-, rfl⟩ | ⟨hrefused, -⟩
    · exact hf
    · cases hrefused.symm.trans (not_isRefused_of_isUnknown hp)

theorem StopsAt.unique {f : Fault Defect} {j : Nat} (hwords : ∀ w ∈ tokens, IsWord w)
    (h : MandatoryValid (tokens.take mandatoryTokens)) (hi : StopsAt tokens i e) (hj : StopsAt tokens j f) :
    i = j := by
  -- Whatever stands in front of one of the two places has no pair to stop at.
  have hle : ∀ {a b : Nat} {e f : Fault Defect}, StopsAt tokens a e → StopsAt tokens b f → b ≤ a := by
    intro a b e f ha hb
    by_contra hlt
    have hfront := (isOk_read_take_iff hwords h b).mp hb.1
    have hok := (isOk_read_take_iff hwords h (a + 1)).mpr fun q hq =>
      hfront q (List.take_subset_take_left _ (Nat.lt_of_not_le hlt) hq)
    exact Bool.false_ne_true ((congrArg Except.isOk ha.2).symm.trans hok)
  exact Nat.le_antisymm (hle hj hi) (hle hi hj)

section Stop

variable {before after : List Pair} (hpairs : pairs (tokens.drop mandatoryTokens) = before ++ p :: after)
  (hbefore : ∀ q ∈ before, isAccepted q) (hp : isUnknown p)

include hpairs hbefore hp

theorem stopsAt_length (hwords : ∀ w ∈ tokens, IsWord w)
    (h : MandatoryValid (tokens.take mandatoryTokens)) :
    StopsAt tokens before.length (fault .unknownExtension p.1) := by
  have hstop : isAccepted p = false := by
    cases ha : isAccepted p with
    | false => rfl
    | true => cases hp.symm.trans (not_isUnknown_of_isAccepted ha)
  constructor
  · rw [isOk_read_take_iff hwords h, hpairs, List.take_left]
    exact hbefore
  · obtain ⟨c, hc⟩ := read_take hwords h (before.length + 1)
    refine hc.trans (readExtensions_of_isUnknown (p := p) ?_ hp c)
    rw [stop?, pairs_take, hpairs, List.append_cons, List.take_left' (by simp)]
    refine List.find?_eq_some_iff_append.mpr ⟨by simp [hstop], before, [], rfl, fun q hq => ?_⟩
    simp [hbefore q hq]

theorem hasNameFirst_length : HasNameFirst tokens p.1 before.length := by
  refine ⟨hasName_iff.mpr ⟨p.2, by rw [hpairs]; simp⟩, fun j hj hname => ?_⟩
  -- A pair of the same name further in front would not have been accepted.
  obtain ⟨v, hv⟩ := hasName_iff.mp hname
  rw [hpairs, List.getElem?_append_left hj] at hv
  have hknown : isUnknown p = false :=
    not_isUnknown_of_isAccepted (p := (p.1, v)) (hbefore _ (List.mem_of_getElem? hv))
  cases hp.symm.trans hknown

end Stop

/-- The one pair that the reader stops at because of its name is the first one of just that name. -/
theorem exists_stopsAt (hline : IsLine line) (h : Attribute.ofLine line = .error e)
    (hunsupported : e.cause.isUnsupported) :
    ∃ i, StopsAt (tokensOf line) i e ∧ (∀ j f, StopsAt (tokensOf line) j f → j = i) ∧
      HasNameFirst (tokensOf line) e.text.toList i := by
  rcases Attribute.ofLine_unsupported_iff.mp ⟨h, hunsupported⟩ with ⟨hunknown, -⟩ | ⟨p, hp, rfl⟩
  · cases (Attribute.unknownKeyword_iff.mp hunknown).symm.trans (isLine_iff.mp hline)
  · obtain ⟨-, before, after, hpairs, hbefore⟩ := List.find?_eq_some_iff_append.mp hp.stop
    have haccepted : ∀ q ∈ before, isAccepted q := fun q hq => by simpa using hbefore q hq
    have hwords : ∀ w ∈ tokensOf line, IsWord w := fun _ => isWord_of_mem_tokensOf
    have hstop := stopsAt_length hpairs haccepted hp.unknown hwords hp.mandatory
    refine ⟨before.length, hstop, fun j f hj => hj.unique hwords hp.mandatory hstop, ?_⟩
    rw [text_fault]
    exact hasNameFirst_length hpairs haccepted hp.unknown

theorem exists_withoutExtension?_eq_some (hline : IsLine line) (h : Attribute.ofLine line = .error e)
    (hunsupported : e.cause.isUnsupported) :
    ∃ i shorter, withoutExtension? line e.text.toList = some shorter ∧
      StopsAt (tokensOf line) i e ∧ (∀ j f, StopsAt (tokensOf line) j f → j = i) ∧
      tokensOf shorter = withoutPair (tokensOf line) i := by
  obtain ⟨i, hstop, honly, hfirst⟩ := exists_stopsAt hline h hunsupported
  rcases withoutExtension?_cases line e.text.toList with ⟨-, hnone | hnone⟩ | ⟨_, -, -, hsome⟩
  · exact absurd hline hnone
  · exact absurd hfirst.1 (hnone i)
  · obtain ⟨j, hj, -, htokens⟩ := withoutExtension?_eq_some hsome
    obtain rfl : i = j := hfirst.unique hj
    exact ⟨i, _, hsome, hstop, honly, htokens⟩

theorem withoutExtension?_ne_none (hline : IsLine line) (h : Attribute.ofLine line = .error e)
    (hunsupported : e.cause.isUnsupported) : withoutExtension? line e.text.toList ≠ none := by
  obtain ⟨i, shorter, hsome, -⟩ := exists_withoutExtension?_eq_some hline h hunsupported
  simp [hsome]

end Candidate

namespace LineReading

open Candidate

/-! ## How often a line is read -/

variable {line : List Char} {n : Nat} {r : LineReading}

theorem Reads.eq_ofAttribute (h : Reads line n r) : r = ofAttribute .lenient line := by
  induction h with
  | attr ha => rw [ofAttribute, ha]
  | refused he hknown =>
      rw [ofAttribute, he]
      exact (if_neg (by simp [hknown])).symm
  | skipped he hunknown hnone =>
      rw [ofAttribute, he]
      dsimp only
      rw [if_pos ⟨rfl, hunknown⟩]
      split
      · rfl
      · next hsome => cases hnone.symm.trans hsome
  | again he hunknown hsome rest ih =>
      rw [ofAttribute, he]
      dsimp only
      rw [if_pos ⟨rfl, hunknown⟩]
      split
      · next hnone => cases hsome.symm.trans hnone
      · next hsome' =>
          obtain rfl := Option.some.inj (hsome.symm.trans hsome')
          rw [ih]

/-- A candidate is read once more than there are extensions to skip. -/
theorem Reads.count (h : Reads line n r) (hline : IsLine line) : n = r.skipped.length + 1 := by
  induction h with
  | attr _ => rfl
  | refused _ _ => rfl
  | skipped he hunknown hnone => exact absurd hnone (withoutExtension?_ne_none hline he hunknown)
  | again _ _ hsome _ ih =>
      rw [ih (hline.shorter hsome)]
      rfl

theorem exists_reads (line : List Char) : ∃ n, Reads line n (ofAttribute .lenient line) := by
  fun_induction ofAttribute .lenient line with
  | case1 line a ha => exact ⟨1, .attr ha⟩
  | case2 line e he hu hnone => exact ⟨1, .skipped he hu.2 hnone⟩
  | case3 line e he hu shorter hshorter r ih =>
      obtain ⟨n, hn⟩ := ih
      exact ⟨n + 1, .again he hu.2 hshorter hn⟩
  | case4 line e he hu => exact ⟨1, .refused he (by simpa using hu)⟩

theorem reads_iff (hline : IsLine line) :
    Reads line n r ↔ n = (unknownBeforeRefused line).length + 1 ∧ r = ofAttribute .lenient line := by
  have hcount : ∀ m, Reads line m (ofAttribute .lenient line) →
      m = (unknownBeforeRefused line).length + 1 := by
    intro m hm
    rw [hm.count hline, ofAttribute_lenient]
  constructor
  · intro h
    obtain rfl := h.eq_ofAttribute
    exact ⟨hcount n h, rfl⟩
  · rintro ⟨rfl, rfl⟩
    obtain ⟨m, hm⟩ := exists_reads line
    rwa [← hcount m hm]

theorem Reads.item_cases (h : Reads line n r) (hline : IsLine line) :
    (∃ c, r.item = .ok (.attr (.candidate c))) ∨
      ∃ f, r.item = .error f ∧ f.cause.errorClass = .malformed := by
  induction h with
  | attr ha =>
      rw [Attribute.ofLine_of_keyword (isLine_iff.mp hline)] at ha
      obtain ⟨c, -, rfl⟩ := map_eq_ok_iff.mp ha
      exact Or.inl ⟨c, rfl⟩
  | refused _ hknown => exact Or.inr ⟨_, rfl, Defect.errorClass_eq_malformed_iff.mpr hknown⟩
  | skipped he hunknown hnone => exact absurd hnone (withoutExtension?_ne_none hline he hunknown)
  | again _ _ hsome _ ih => exact ih (hline.shorter hsome)

/-- A line comes without the first pair of just that name, which is the pair that the reader stopped at
if it stopped at an unknown name; so a candidate is read once for each unknown pair in front of the first
malformed token and once more, and is a candidate or malformed in the end. -/
theorem retry_exact (line : List Char) :
    (∀ name, withoutExtension? line name = none ↔
      ¬ IsLine line ∨ ∀ i, ¬ HasName (tokensOf line) name i) ∧
    (∀ name shorter, withoutExtension? line name = some shorter →
      ∃ i, HasNameFirst (tokensOf line) name i ∧
        (Attribute.splitLine shorter).1 = (Attribute.splitLine line).1 ∧
        tokensOf shorter = withoutPair (tokensOf line) i) ∧
    (IsLine line →
      (∀ e, Attribute.ofLine line = .error e → e.cause.errorClass = .unsupported →
        ∃ i shorter, withoutExtension? line e.text.toList = some shorter ∧
          StopsAt (tokensOf line) i e ∧ (∀ j f, StopsAt (tokensOf line) j f → j = i) ∧
          tokensOf shorter = withoutPair (tokensOf line) i) ∧
      (∀ n r, Reads line n r ↔
        n = (unknownBeforeRefused line).length + 1 ∧ r = ofAttribute .lenient line) ∧
      ((∃ c, (ofAttribute .lenient line).item = .ok (.attr (.candidate c))) ∨
        ∃ f, (ofAttribute .lenient line).item = .error f ∧ f.cause.errorClass = .malformed)) := by
  refine ⟨fun name => withoutExtension?_eq_none_iff, fun name shorter => withoutExtension?_eq_some, ?_⟩
  intro hline
  refine ⟨fun e he hclass => ?_, fun n r => reads_iff hline, ?_⟩
  · exact exists_withoutExtension?_eq_some hline he (Defect.errorClass_eq_unsupported_iff.mp hclass)
  · obtain ⟨n, hn⟩ := exists_reads line
    exact hn.item_cases hline

/-- The same unknown name in two letter cases: each time only the pair that was met goes. -/
theorem retry_exact_of_two_spellings :
    let line := "CANDIDATE:1 1 udp 1 ::1 9 typ host Generation 0 rport 5 generation 1".toList
    let shorter := "CANDIDATE:1 1 udp 1 ::1 9 typ host rport 5 generation 1".toList
    withoutExtension? line "Generation".toList = some shorter ∧
      withoutExtension? line "GENERATION".toList = none ∧
      (∃ i, StopsAt (tokensOf line) i (fault .unknownExtension "Generation".toList) ∧
        tokensOf shorter = withoutPair (tokensOf line) i) ∧
      Reads line 3 (ofAttribute .lenient line) := by
  intro line shorter
  have hshorter : withoutExtension? line "Generation".toList = some shorter := by decide +kernel
  obtain ⟨hnone, -, hcandidate⟩ := retry_exact line
  obtain ⟨hstop, hreads, -⟩ := hcandidate ⟨by decide +kernel, by decide +kernel⟩
  have habsent : "GENERATION".toList ∉ tokensOf line := by decide +kernel
  have hcount : 3 = (unknownBeforeRefused line).length + 1 := by decide +kernel
  refine ⟨hshorter, (hnone _).mpr (Or.inr fun i hi => ?_), ?_, (hreads _ _).mpr ⟨hcount, rfl⟩⟩
  · exact habsent (List.mem_of_getElem? hi.1)
  · obtain ⟨i, shorter', hsome, hi, -, htokens⟩ := hstop _ (by decide +kernel :
      Attribute.ofLine line = .error (fault .unknownExtension "Generation".toList)) rfl
    rw [text_fault] at hsome
    obtain rfl : shorter = shorter' := Option.some.inj (hshorter.symm.trans hsome)
    exact ⟨i, hi, htokens⟩

end LineReading

end Sdp
