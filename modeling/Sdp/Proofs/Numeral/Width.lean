import Sdp.Numeral.Width
import Sdp.Proofs.Numeral.Grammar

/-!
# Counting digits loses no number

Main statement: `Width.value?_of_lt`, a number that is small enough is converted, however many zeros stand
in front of it.
-/

namespace Sdp.Numeral

variable {ds : List Nat} {w : Width} {k n : Nat}

/-! ## Zeros in front -/

theorem significant_ne_nil (ds : List Nat) : significant ds ≠ [] := by
  unfold significant
  split
  · exact List.cons_ne_nil 0 []
  · exact List.cons_ne_nil _ _

theorem ofDigits_significant (base : Nat) (ds : List Nat) : ofDigits base (significant ds) = ofDigits base ds := by
  induction ds with
  | nil => simp [significant, ofDigits]
  | cons d ds ih =>
      by_cases hd : d = 0
      · subst hd
        have hdrop : significant (0 :: ds) = significant ds := rfl
        have hzero : ofDigits base (0 :: ds) = ofDigits base ds := by simp [ofDigits]
        rw [hdrop, ih, hzero]
      · simp [significant, hd]

/-- What is left are the digits of the value. -/
theorem significant_eq_digits (hlt : ∀ d ∈ ds, d < 10) : significant ds = digits 10 (ofDigits 10 ds) := by
  have hsmall : ∀ d ∈ significant ds, d < 10 := by
    intro d hd
    unfold significant at hd
    split at hd
    · obtain rfl := List.mem_singleton.mp hd
      decide
    · next c rest hrest => exact hlt d ((List.dropWhile_sublist _).subset (hrest ▸ hd))
  have hhead : (significant ds).head? = some 0 → significant ds = [0] := by
    unfold significant
    split
    · exact fun _ => rfl
    · next c rest hrest =>
        intro hc
        have hne := List.head?_dropWhile_not (· == 0) ds
        rw [hrest] at hne
        simp_all
  rw [← ofDigits_significant, digits_ofDigits (by decide) (significant_ne_nil ds) hsmall hhead]

/-! ## Conversion -/

namespace Width

theorem ofDigits_of_value? (h : w.value? ds = some n) : ofDigits 10 ds = n := by
  obtain ⟨_, hn⟩ := Option.dite_none_right_eq_some.mp h
  rw [← ofDigits_significant]
  exact Option.some.inj hn

/-- The digits of a small number are few. -/
theorem length_significant_le (hlt : ∀ d ∈ ds, d < 10) (hn : ofDigits 10 ds < Nat.pow 10 (k + 1)) :
    (significant ds).length ≤ k + 1 := by
  rw [significant_eq_digits hlt]
  exact length_digits_le hn

theorem value?_of_lt (hlt : ∀ d ∈ ds, d < 10) (hk : k < w.most) (hn : ofDigits 10 ds < Nat.pow 10 (k + 1)) :
    w.value? ds = some (ofDigits 10 ds) := by
  have hlength : (significant ds).length ≤ w.most := Nat.le_trans (length_significant_le hlt hn) hk
  rw [value?, dif_pos hlength, convert, ofDigits_significant]

end Width

end Sdp.Numeral
