import Sdp.Proofs.Numeral.Real
import Sdp.Settings.Environment
import Sdp.Settings.Sense

/-!
# What is read from a variable is what its text stands for

Main statement: `valueOf_classified`. The four kinds are tried in their order; an integer that is written
out is read as itself, and one with too many digits becomes a real number.
-/

namespace Sdp.Settings

open Numeral

variable {s : List Char} {v : Value}

/-! ## Truth values -/

theorem plain_wordsFor (b : Bool) : ∀ w ∈ wordsFor b, Text.Plain w.toList := by
  cases b <;> decide

theorem isLetters_wordsFor (b : Bool) : ∀ w ∈ wordsFor b, IsLetters w.toList := by
  cases b <;> decide

theorem isTruth_iff (b : Bool) (s : List Char) :
    IsTruth b s ↔ Text.lower s ∈ (wordsFor b).map String.toList := by
  rw [List.mem_map]
  refine exists_congr fun w => and_congr_right fun hw => ?_
  rw [eq_comm, Text.lower_eq_iff_isLowerSpelling (plain_wordsFor b w hw)]

theorem IsTruth.unique {b b' : Bool} (h : IsTruth b s) (h' : IsTruth b' s) : b = b' := by
  have hdisjoint : ∀ b, ∀ w ∈ (wordsFor b).map String.toList, w ∉ (wordsFor !b).map String.toList := by
    decide
  by_contra hne
  obtain rfl : b' = !b := by cases b <;> cases b' <;> simp_all
  exact hdisjoint b _ ((isTruth_iff b s).mp h) ((isTruth_iff _ s).mp h')

/-- A word has no digit. -/
theorem IsTruth.digitValue? {b : Bool} (h : IsTruth b s) : ∀ c ∈ s, Text.digitValue? c = none := by
  obtain ⟨w, hw, hspelled⟩ := h
  exact fun c hc => digitValue?_of_mark (isMark_of_letter (isLetters_wordsFor b w hw) hspelled c hc)

/-! ## Classification -/

/-- Every text stands for something. -/
theorem exists_standsFor (s : List Char) : ∃ v, StandsFor s v := by
  by_cases htruth : ∃ b, IsTruth b s
  · exact htruth.elim fun b hb => ⟨.bool b, .truth hb⟩
  have htruth := not_exists.mp htruth
  by_cases hinteger : ∃ n, IsInteger n s
  · exact hinteger.elim fun n hn => ⟨.int n, .integer htruth hn⟩
  have hinteger := not_exists.mp hinteger
  by_cases hreal : ∃ x, IsReal x s
  · exact hreal.elim fun x hx => ⟨.real x, .real htruth hinteger hx⟩
  exact ⟨.text (.ofList s), .text htruth hinteger (not_exists.mp hreal)⟩

theorem valueOf_of_not_truth (htruth : ∀ b, ¬ IsTruth b s) :
    valueOf s =
      match readInteger? s, readReal? s with
      | some n, _ => .int n
      | none, some x => .real x
      | none, none => .text (.ofList s) := by
  have htrue : Text.lower s ∉ ["true".toList, "yes".toList] := fun h =>
    htruth true ((isTruth_iff true s).mpr h)
  have hfalse : Text.lower s ∉ ["false".toList, "no".toList] := fun h =>
    htruth false ((isTruth_iff false s).mpr h)
  exact (if_neg htrue).trans (if_neg hfalse)

theorem valueOf_of_standsFor (h : StandsFor s v) : valueOf s = v := by
  have hnone (hinteger : ∀ n, ¬ IsInteger n s) : readInteger? s = none :=
    Option.eq_none_iff_forall_ne_some.mpr fun n hn => hinteger n (readInteger?_eq_some_iff.mp hn)
  cases h with
  | @truth b h =>
      cases b with
      | true => exact if_pos ((isTruth_iff true s).mp h)
      | false =>
          have htrue : Text.lower s ∉ ["true".toList, "yes".toList] := fun htrue => by
            cases h.unique ((isTruth_iff true s).mpr htrue)
          rw [valueOf, if_neg htrue]
          exact if_pos ((isTruth_iff false s).mp h)
  | integer htruth h => rw [valueOf_of_not_truth htruth, readInteger?_eq_some_iff.mpr h]
  | real htruth hinteger h => rw [valueOf_of_not_truth htruth, hnone hinteger, readReal?_eq_some_iff.mpr h]
  | text htruth hinteger hreal =>
      have hreal : readReal? s = none :=
        Option.eq_none_iff_forall_ne_some.mpr fun x hx => hreal x (readReal?_eq_some_iff.mp hx)
      rw [valueOf_of_not_truth htruth, hnone hinteger, hreal]

theorem valueOf_eq_iff : valueOf s = v ↔ StandsFor s v := by
  refine ⟨?_, valueOf_of_standsFor⟩
  rintro rfl
  obtain ⟨v, hv⟩ := exists_standsFor s
  rwa [valueOf_of_standsFor hv]

/-! ## Numbers -/

section Numbers

variable {negative : Bool} {ds : List Nat} {front sign body back : List Char}

theorem not_isTruth_of_digits (hbody : IsGrouped ds body) (hs : body ⊆ s) (b : Bool) : ¬ IsTruth b s := by
  obtain ⟨c, rest, d, rfl, hc⟩ := hbody.head
  intro h
  cases hc.symm.trans (h.digitValue? c (hs (List.mem_cons_self ..)))

/-- Too many digits for an integer are those of a real number. -/
theorem standsFor_of_long (hfront : IsMargin front) (hsign : IsSign negative sign) (hbody : IsGrouped ds body)
    (hback : IsMargin back) (hlong : maxIntegerDigits < ds.length) :
    StandsFor (front ++ (sign ++ body) ++ back) (.real (.ofDecimal negative (ofDigits 10 ds) 0)) := by
  have hsubset : body ⊆ front ++ (sign ++ body) ++ back := by
    rw [List.append_assoc, List.append_assoc]
    exact List.subset_append_of_subset_right _
      (List.subset_append_of_subset_right _ (List.subset_append_left ..))
  have hmagnitude : IsMagnitude negative (.ofDecimal negative (ofDigits 10 ds) 0) body := by
    simpa using (.decimal (.whole hbody) .none : IsMagnitude negative _ (body ++ []))
  refine .real (not_isTruth_of_digits hbody hsubset) (fun n hn => ?_)
    (.intro hfront hsign hmagnitude hback)
  cases (readInteger?_of_long hfront hsign hbody hback hlong).symm.trans (readInteger?_eq_some_iff.mpr hn)

theorem standsFor_signedDecimal {n : Int} (hn : (digits 10 n.natAbs).length ≤ maxIntegerDigits) :
    StandsFor (signedDecimal n) (.int n) := by
  have hsubset : decimal n.natAbs ⊆ signedDecimal n := by
    cases n with
    | ofNat n => exact List.Subset.refl _
    | negSucc n => exact List.subset_cons_self ..
  exact .integer (not_isTruth_of_digits (isGrouped_decimal _) hsubset) (isInteger_signedDecimal hn)

end Numbers

/-- A variable stands for a truth value, else for an integer, else for a real number, else for its text. An
integer in its decimal digits is the integer as long as they are not too many, and digits that are too many
are the nearest real number. -/
theorem valueOf_classified :
    (∀ s v, valueOf s = v ↔ StandsFor s v) ∧
    (∀ n : Int, (digits 10 n.natAbs).length ≤ maxIntegerDigits → valueOf (signedDecimal n) = .int n) ∧
    (∀ front negative sign ds body back, IsMargin front → IsSign negative sign → IsGrouped ds body →
      IsMargin back → maxIntegerDigits < ds.length →
      valueOf (front ++ (sign ++ body) ++ back) = .real (.ofDecimal negative (ofDigits 10 ds) 0)) :=
  ⟨fun _ _ => valueOf_eq_iff, fun _ hn => valueOf_of_standsFor (standsFor_signedDecimal hn),
    fun _ _ _ _ _ _ hfront hsign hbody hback hlong =>
      valueOf_of_standsFor (standsFor_of_long hfront hsign hbody hback hlong)⟩

/-- Digits of another script, an integer written out, and a number with a digit too many. -/
theorem valueOf_classified_of_numbers :
    (StandsFor " +\u0661_\u0662\u3000".toList (.int 12) ∧ StandsFor "1_e3".toList (.text "1_e3")) ∧
    valueOf "-120".toList = .int (-120) ∧
    valueOf ('-' :: List.replicate 4301 '7') = .real (.ofDecimal true (ofDigits 10 (List.replicate 4301 7)) 0) := by
  have hlength : (digits 10 120).length ≤ maxIntegerDigits :=
    Nat.le_trans (length_digits_le (k := 2) (by decide)) (by decide)
  have htext : signedDecimal (-120) = "-120".toList := by
    rw [show (-120 : Int) = .negSucc 119 from rfl, signedDecimal, decimal, digits, digits, digits]
    rfl
  have hsevens (n : Nat) : IsGrouped (List.replicate (n + 1) 7) (List.replicate (n + 1) '7') := by
    induction n with
    | zero => exact .one rfl
    | succ n ih => exact .next rfl ih
  refine ⟨⟨(valueOf_classified.1 _ _).mp rfl, (valueOf_classified.1 _ _).mp rfl⟩,
    htext ▸ valueOf_classified.2.1 (-120) hlength, ?_⟩
  have hlong : maxIntegerDigits < (List.replicate 4301 7).length := by
    rw [List.length_replicate]
    decide
  have hreal := valueOf_classified.2.2 [] true ['-'] _ _ [] isMargin_nil .minus (hsevens 4300) isMargin_nil hlong
  rwa [List.nil_append, List.append_nil] at hreal

end Sdp.Settings
