import Mathlib.Data.List.Infix
import Sdp.Text.Spelling

/-!
# Upper case and spellings

Main statement: `upper_eq_iff_passesFor`. Whatever has a word for its upper-case form passes for the
word, as long as the word does not hold two letters that a further ligature stands for.
-/

namespace Sdp.Text

theorem lt_of_toUpper_lt {c : Char} (h : c.toUpper.toNat < 0x80) : c.toNat < 0x80 := by
  change (if _ : _ then _ else _ : Char).toNat < 0x80 at h
  split at h
  · next hlower =>
      have hz : c.toNat ≤ 122 := by simpa [UInt32.le_iff_toNat_le] using hlower.2
      omega
  · exact h

theorem isAscii_iff {s : List Char} : isAscii s ↔ ∀ c ∈ s, c.toNat < 0x80 := by
  simp [isAscii]

/-- The pairs of letters in the upper-case forms of a sharp s and of the ligatures, except that of f
and i. -/
def ligaturePairs : List (List Char) :=
  [['S', 'S'], ['F', 'F'], ['F', 'L'], ['S', 'T']]

/-- The text is ASCII, and no such pair stands in it. -/
structure Unligatured (s : List Char) : Prop where
  ascii : isAscii s
  pairs : ∀ pair ∈ ligaturePairs, ¬ pair <:+: s

instance (s : List Char) : Decidable (Unligatured s) :=
  decidable_of_iff (isAscii s ∧ ∀ pair ∈ ligaturePairs, ¬ pair <:+: s)
    ⟨fun h => ⟨h.1, h.2⟩, fun h => ⟨h.ascii, h.pairs⟩⟩

theorem Unligatured.of_infix {s t : List Char} (h : Unligatured t) (hst : s <:+: t) : Unligatured s :=
  ⟨isAscii_iff.mpr fun c hc => isAscii_iff.mp h.ascii c (hst.subset hc),
    fun pair hpair hs => h.pairs pair hpair (hs.trans hst)⟩

/-! ## One character -/

theorem upperChar_of_ascii {c : Char} (h : c.toNat < 0x80) : upperChar c = [c.toUpper] := by
  unfold upperChar
  split
  case h_18 => rfl
  all_goals exact absurd h (by decide)

theorem lookalike_of_ascii {c : Char} (h : c.toNat < 0x80) : lookalike c = [c] := by
  unfold lookalike
  split
  case h_4 => rfl
  all_goals exact absurd h (by decide)

/-- A character whose upper-case form could stand in a keyword passes for letters of that form. -/
theorem lookalike_of_unligatured {c : Char} (h : Unligatured (upperChar c)) :
    isAscii (lookalike c) ∧ (lookalike c).map Char.toUpper = upperChar c := by
  unfold upperChar at h ⊢
  split at h
  case h_2 | h_4 | h_12 => exact ⟨rfl, rfl⟩
  case h_18 =>
    have hc := lt_of_toUpper_lt (isAscii_iff.mp h.ascii _ (List.mem_singleton_self _))
    rw [lookalike_of_ascii hc]
    exact ⟨isAscii_iff.mpr (by simpa using hc), rfl⟩
  all_goals exact absurd h (by decide)

theorem upperChar_of_lookalike {c : Char} (h : isAscii (lookalike c)) :
    upperChar c = (lookalike c).map Char.toUpper := by
  unfold lookalike at h ⊢
  split at h
  case h_4 => exact upperChar_of_ascii (isAscii_iff.mp h _ (List.mem_singleton_self _))
  all_goals rfl

/-! ## Words -/

theorem upper_eq_iff_passesFor {word : List Char} (hword : Unligatured word) (s : List Char) :
    upper s = word ↔ PassesFor word s := by
  have hmap : (s.flatMap lookalike).map Char.toUpper = s.flatMap fun c => (lookalike c).map Char.toUpper :=
    List.map_flatMap
  constructor
  · rintro rfl
    have hchar : ∀ c ∈ s, isAscii (lookalike c) ∧ (lookalike c).map Char.toUpper = upperChar c :=
      fun c hc => lookalike_of_unligatured (hword.of_infix (List.infix_flatMap_of_mem hc upperChar))
    refine ⟨isAscii_iff.mpr fun d hd => ?_, ?_⟩
    · obtain ⟨c, hc, hdc⟩ := List.mem_flatMap.mp hd
      exact isAscii_iff.mp (hchar c hc).1 d hdc
    · exact hmap.trans (List.flatMap_congr fun c hc => (hchar c hc).2)
  · rintro ⟨hascii, hs⟩
    have hchar : ∀ c ∈ s, upperChar c = (lookalike c).map Char.toUpper := fun c hc =>
      upperChar_of_lookalike <| isAscii_iff.mpr fun d hd =>
        isAscii_iff.mp hascii d (List.mem_flatMap.mpr ⟨c, hc, hd⟩)
    calc upper s = s.flatMap fun c => (lookalike c).map Char.toUpper := List.flatMap_congr hchar
      _ = word := hmap.symm.trans hs

/-- An ASCII text passes for nothing but what it spells. -/
theorem passesFor_iff_of_isAscii {word s : List Char} (h : isAscii s) :
    PassesFor word s ↔ IsAsciiSpelling word s := by
  have hs : s.flatMap lookalike = s :=
    calc s.flatMap lookalike = s.flatMap fun c => [c] := List.flatMap_congr fun c hc =>
          lookalike_of_ascii (isAscii_iff.mp h c hc)
      _ = s := List.flatMap_singleton' s
  rw [PassesFor, hs]

/-! ## Words of a catalogue -/

theorem find?_word_eq_some_iff {α : Type} {all : List α} {word : α → String} (hall : ∀ a, a ∈ all)
    (hword : Function.Injective word) {s : List Char} {a : α} :
    (all.find? fun b => (word b).toList == s) = some a ↔ (word a).toList = s := by
  constructor
  · exact fun h => by simpa using List.find?_some h
  · intro ha
    cases hf : all.find? fun b => (word b).toList == s with
    | none => exact absurd ha (by simpa using List.find?_eq_none.mp hf a (hall a))
    | some b =>
        have hb : (word b).toList = s := by simpa using List.find?_some hf
        exact congrArg some (hword (String.toList_inj.mp (hb.trans ha.symm)))

/-- A text is taken for the word of a catalogue that it passes for. -/
theorem matchUpper_eq_some_iff {α : Type} {all : List α} {word : α → String} (hall : ∀ a, a ∈ all)
    (hword : Function.Injective word) (hplain : ∀ a, Unligatured (word a).toList) {s : List Char} {a : α} :
    matchUpper all word s = some a ↔ PassesFor (word a).toList s :=
  (find?_word_eq_some_iff hall hword).trans (eq_comm.trans (upper_eq_iff_passesFor (hplain a) s))

end Sdp.Text
