import Sdp.Text.Blank
import Sdp.Text.Spelling

/-!
# Lower case and ASCII

Outside ASCII only two characters have a lower-case form that meets ASCII, and one of the two brings
a dot along. A text whose form has neither a `k` nor anything outside ASCII is ASCII itself.
-/

namespace Sdp.Text

theorem lt_of_toLower_lt {c : Char} (h : c.toLower.toNat < 0x80) : c.toNat < 0x80 := by
  change (if _ : _ then _ else _ : Char).toNat < 0x80 at h
  split at h
  · next hupper =>
      have hz : c.toNat ≤ 90 := by simpa [UInt32.le_iff_toNat_le] using hupper.2
      omega
  · exact h

theorem isAscii_of_lower {s : List Char} (h : ∀ c ∈ lower s, c.toNat < 0x80 ∧ c ≠ 'k') : isAscii s := by
  refine List.all_eq_true.mpr fun c hc => decide_eq_true ?_
  have hlower : ∀ d ∈ lowerChar c, d.toNat < 0x80 ∧ d ≠ 'k' := fun d hd =>
    h d (List.mem_flatMap.mpr ⟨c, hc, hd⟩)
  unfold lowerChar at hlower
  split at hlower
  · exact absurd rfl (hlower 'k' (by simp)).2
  · exact absurd (hlower '\u0307' (by simp)).1 (by decide)
  · exact lt_of_toLower_lt (hlower _ (by simp)).1

theorem lowerChar_of_ascii {c : Char} (h : c.toNat < 0x80) : lowerChar c = [c.toLower] := by
  unfold lowerChar
  split
  case h_3 => rfl
  all_goals exact absurd h (by decide)

theorem lower_of_isAscii {s : List Char} (h : isAscii s) : lower s = s.map Char.toLower := by
  have hchar : ∀ c ∈ s, lowerChar c = [c.toLower] := fun c hc =>
    lowerChar_of_ascii (of_decide_eq_true (List.all_eq_true.mp h c hc))
  unfold lower
  induction s with
  | nil => rfl
  | cons c s ih =>
      simp only [isAscii, List.all_cons, Bool.and_eq_true] at h
      rw [List.flatMap_cons, hchar c (List.mem_cons_self ..),
        ih h.2 fun d hd => hchar d (List.mem_cons_of_mem _ hd)]
      rfl

/-- A word that an ASCII text alone can spell. -/
def Plain (word : List Char) : Prop :=
  ∀ c ∈ word, c.toNat < 0x80 ∧ c ≠ 'k'

instance (word : List Char) : Decidable (Plain word) :=
  decidable_of_iff (word.all fun c => c.toNat < 0x80 && c != 'k') (by simp [Plain])

theorem lower_eq_iff_isLowerSpelling {word : List Char} (hword : Plain word) (s : List Char) :
    lower s = word ↔ IsLowerSpelling word s := by
  constructor
  · rintro rfl
    have hascii := isAscii_of_lower hword
    exact ⟨hascii, (lower_of_isAscii hascii).symm⟩
  · rintro ⟨hascii, rfl⟩
    exact lower_of_isAscii hascii

/-- A character that has no case stands in a text only if it stands in the word, too. -/
theorem IsLowerSpelling.not_mem {word s : List Char} (h : IsLowerSpelling word s) {m : Char}
    (hm : m.toLower = m) (hword : m ∉ word) : m ∉ s :=
  fun hs => hword (h.2 ▸ hm ▸ List.mem_map_of_mem hs)

theorem toLower_of_isBlank {c : Char} (h : isBlank c) : c.toLower = c := by
  have hcapital : ¬ (c.toNat ≥ 65 ∧ c.toNat ≤ 90) := by
    rintro ⟨hA, hZ⟩
    simp only [isBlank, Bool.or_eq_true, Bool.and_eq_true, decide_eq_true_eq, beq_iff_eq] at h
    omega
  change (if _ : _ then _ else _ : Char) = c
  exact dif_neg fun h => hcapital (by simpa [UInt32.le_iff_toNat_le] using h)

theorem IsLowerSpelling.isWord {word s : List Char} (h : IsLowerSpelling word s) (hword : IsWord word) :
    IsWord s := by
  refine ⟨?_, fun c hc => Bool.eq_false_iff.mpr fun hblank => ?_⟩
  · rintro rfl
    exact hword.1 h.2.symm
  · refine h.not_mem (toLower_of_isBlank hblank) (fun hmem => ?_) hc
    exact Bool.eq_false_iff.mp (hword.2 c hmem) hblank

end Sdp.Text
