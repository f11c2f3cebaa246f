import Sdp.Attribute.Token
import Sdp.Proofs.Attribute.Outcome
import Sdp.Proofs.Numeral.Width

/-!
# Numbers of attributes

Main statements: `Quantity.read_eq_ok_iff` and `Quantity.read_eq_error_iff`, what is read as a number and
what is wrong with every other text.
-/

namespace Sdp

open Numeral (IsUnsigned ofDigits significant unsignedDigits?)

/-- The text is no number, or one beyond the bound, or one within the bound that is no port. -/
def NumberDefect.Applies (q : Quantity) (s : List Char) : NumberDefect → Prop
  | notUnsigned => ∀ n, ¬ IsUnsigned n s
  | outOfRange => ∃ n, IsUnsigned n s ∧ q.bound ≤ n
  | notPort => q.isPort ∧ ∃ n, IsUnsigned n s ∧ n < q.bound ∧ 0x10000 ≤ n

namespace Quantity

variable {q : Quantity} {s : List Char} {n : Nat}

theorem bound_le (q : Quantity) : q.bound ≤ Nat.pow 10 20 := by
  cases q <;> decide

/-- A number within its bound has no more digits than are converted. -/
theorem length_significant_le {ds : List Nat} (hds : unsignedDigits? s = some ds)
    (hn : ofDigits 10 ds < q.bound) : (significant ds).length ≤ width.most :=
  Numeral.Width.length_significant_le (Numeral.lt_of_mem_unsignedDigits? hds) (Nat.lt_of_lt_of_le hn q.bound_le)

theorem read_of_isUnsigned (h : IsUnsigned n s) :
    q.read s =
      if q.bound ≤ n then .error (fault (.number q .outOfRange) s)
      else if q.isPort ∧ 0x10000 ≤ n then .error (fault (.number q .notPort) s)
      else .ok n := by
  obtain ⟨ds, hds, rfl⟩ := Numeral.isUnsigned_iff.mp h
  cases hvalue : width.value? ds with
  | some m =>
      rw [Numeral.Width.ofDigits_of_value? hvalue]
      simp only [read, hds, hvalue]
  | none =>
      -- Whatever is too wide is beyond the bound, too.
      have hbound : q.bound ≤ ofDigits 10 ds := by
        by_contra hlt
        have hsmall := Nat.lt_of_lt_of_le (Nat.not_le.mp hlt) q.bound_le
        cases hvalue.symm.trans (Numeral.Width.value?_of_lt (w := width)
          (Numeral.lt_of_mem_unsignedDigits? hds) (by decide : 19 < 20) hsmall)
      rw [if_pos hbound]
      simp only [read, hds, hvalue]

theorem read_of_not_isUnsigned (h : ∀ n, ¬ IsUnsigned n s) :
    q.read s = .error (fault (.number q .notUnsigned) s) := by
  have hds : unsignedDigits? s = none := Option.eq_none_iff_forall_ne_some.mpr fun ds hds =>
    h _ (Numeral.isUnsigned_iff.mpr ⟨ds, hds, rfl⟩)
  simp only [read, hds]

theorem read_of_holds (h : IsUnsigned n s) (hn : q.Holds n) : q.read s = .ok n := by
  have hport : ¬ (q.isPort ∧ 0x10000 ≤ n) := fun ⟨hq, hle⟩ => absurd (hn.2 hq) (Nat.not_lt.mpr hle)
  rw [read_of_isUnsigned h, if_neg (Nat.not_le.mpr hn.1), if_neg hport]

theorem read_of_applies {d : NumberDefect} (h : NumberDefect.Applies q s d) :
    q.read s = .error (fault (.number q d) s) := by
  cases d with
  | notUnsigned => exact read_of_not_isUnsigned h
  | outOfRange =>
      obtain ⟨n, hn, hbound⟩ := h
      rw [read_of_isUnsigned hn, if_pos hbound]
  | notPort =>
      obtain ⟨hq, n, hn, hbound, hport⟩ := h
      rw [read_of_isUnsigned hn, if_neg (Nat.not_le.mpr hbound), if_pos ⟨hq, hport⟩]

/-- A text is a number within its bounds, or one thing is wrong with it. -/
theorem holds_or_applies (q : Quantity) (s : List Char) :
    (∃ n, IsUnsigned n s ∧ q.Holds n) ∨ ∃ d, NumberDefect.Applies q s d := by
  by_cases hs : ∃ n, IsUnsigned n s
  · obtain ⟨n, hn⟩ := hs
    by_cases hbound : q.bound ≤ n
    · exact Or.inr ⟨.outOfRange, n, hn, hbound⟩
    · by_cases hport : q.isPort ∧ 0x10000 ≤ n
      · exact Or.inr ⟨.notPort, hport.1, n, hn, Nat.not_le.mp hbound, hport.2⟩
      · exact Or.inl ⟨n, hn, Nat.not_le.mp hbound, fun hq => Nat.not_le.mp fun hle => hport ⟨hq, hle⟩⟩
  · exact Or.inr ⟨.notUnsigned, not_exists.mp hs⟩

theorem read_eq_ok_iff : q.read s = .ok n ↔ IsUnsigned n s ∧ q.Holds n := by
  refine ⟨fun h => ?_, fun h => read_of_holds h.1 h.2⟩
  rcases holds_or_applies q s with ⟨m, hm, hholds⟩ | ⟨d, hd⟩
  · cases (read_of_holds hm hholds).symm.trans h
    exact ⟨hm, hholds⟩
  · cases (read_of_applies hd).symm.trans h

/-- Every text that is not read is blamed as a whole, for the one thing that is wrong with it. -/
theorem read_eq_error_iff {e : Fault Defect} :
    q.read s = .error e ↔ ∃ d, NumberDefect.Applies q s d ∧ e = fault (.number q d) s := by
  constructor
  · intro h
    rcases holds_or_applies q s with ⟨m, hm, hholds⟩ | ⟨d, hd⟩
    · cases (read_of_holds hm hholds).symm.trans h
    · cases (read_of_applies hd).symm.trans h
      exact ⟨d, hd, rfl⟩
  · rintro ⟨d, hd, rfl⟩
    exact read_of_applies hd

end Quantity

end Sdp
