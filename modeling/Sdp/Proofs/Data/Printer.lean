import Sdp.Data.Json.Printer
import Sdp.Proofs.Text.Pieces
import Sdp.Proofs.Text.Quoted

/-!
# JSON on one line

Whatever is written, no character of it is below the space. Main statements: `Json.visible_layOut`, and
`Json.fits_iff` on what can be written.
-/

namespace Sdp

/-- No character is below the space. -/
def Text.Visible (s : List Char) : Prop :=
  ∀ c ∈ s, 0x20 ≤ c.toNat

instance (s : List Char) : Decidable (Text.Visible s) :=
  decidable_of_iff (s.all (0x20 ≤ ·.toNat)) (by simp [Text.Visible])

open Text (Visible)

namespace Text.Visible

variable {s t : List Char}

theorem append (hs : Visible s) (ht : Visible t) : Visible (s ++ t) :=
  List.forall_mem_append.mpr ⟨hs, ht⟩

theorem cons {c : Char} (hc : 0x20 ≤ c.toNat) (hs : Visible s) : Visible (c :: s) :=
  List.forall_mem_cons.mpr ⟨hc, hs⟩

theorem subset (hs : Visible s) (h : t ⊆ s) : Visible t :=
  fun c hc => hs c (h hc)

theorem replicate {c : Char} (hc : 0x20 ≤ c.toNat) (n : Nat) : Visible (List.replicate n c) := by
  intro d hd
  rw [List.eq_of_mem_replicate hd]
  exact hc

theorem not_mem_newline (hs : Visible s) : '\n' ∉ s :=
  fun h => absurd (hs '\n' h) (by decide)

end Text.Visible

/-! ## Numbers -/

namespace Numeral

theorem visible_digitChar : ∀ d < 16, 0x20 ≤ (digitChar d).toNat := by
  decide

theorem visible_decimal (n : Nat) : Visible (decimal n) :=
  forall_mem_decimal (by decide) n

theorem visible_signedDecimal (n : Int) : Visible (signedDecimal n) := by
  cases n with
  | ofNat n => exact visible_decimal n
  | negSucc n => exact (visible_decimal (n + 1)).cons (by decide)

namespace Binary64

theorem lt_of_withoutZeros {found : Option (Nat × Int)} {point p : Int} {ds : List Nat}
    (h : withoutZeros point found = (ds, p)) : ∀ d ∈ ds, d < 10 := by
  intro d hd
  cases found with
  | none =>
      cases h
      cases hd
  | some f =>
      cases h
      have hmem := (List.dropWhile_suffix _).subset (List.mem_reverse.mp hd)
      exact lt_of_mem_digits (by decide) (List.mem_reverse.mp hmem)

theorem lt_of_shortest {m : Nat} {q p : Int} {ds : List Nat} (h : shortest m q = (ds, p)) :
    ∀ d ∈ ds, d < 10 :=
  lt_of_withoutZeros h

theorem visible_layout {ds : List Nat} (h : ∀ d ∈ ds, d < 10) (point : Int) :
    Visible (layout ds point) := by
  have htext : Visible (ds.map digitChar) := by
    intro c hc
    obtain ⟨d, hd, rfl⟩ := List.mem_map.mp hc
    exact visible_digitChar d (Nat.lt_trans (h d hd) (by decide))
  have hzeros (n : Nat) : Visible (List.replicate n '0') := .replicate (by decide) n
  have htake (n : Nat) : Visible ((ds.map digitChar).take n) := htext.subset (List.take_subset ..)
  have hdrop (n : Nat) : Visible ('.' :: (ds.map digitChar).drop n) :=
    (htext.subset (List.drop_subset ..)).cons (by decide)
  have hexponent := visible_decimal (point - 1).natAbs
  unfold layout
  dsimp only
  split
  · split
    · exact (((hzeros _).cons (by decide)).cons (by decide)).append htext
    · split
      · exact (htext.append (hzeros _)).append (by decide)
      · exact (htake _).append (hdrop _)
  · refine ((htake 1).append ?_).append (.cons (by decide) (.cons (by split <;> decide) ?_))
    · split
      · exact hdrop 1
      · exact List.forall_mem_nil _
    · split
      · exact hexponent.cons (by decide)
      · exact hexponent

theorem visible_text (x : Binary64) : Visible x.text := by
  have hsign (negative : Bool) : Visible (if negative then ['-'] else []) := by
    cases negative <;> decide
  unfold text
  split
  · decide
  · exact (hsign _).append (by decide)
  · refine (hsign _).append ?_
    split
    · decide
    · cases hshortest : shortest _ _ with
      | mk ds point => exact visible_layout (lt_of_shortest hshortest) point

end Binary64

end Numeral

/-! ## Values -/

namespace Json

theorem visible_escape (c : Char) : Visible (escape c) := by
  unfold escape
  split
  case h_8 =>
    split
    · have hhex : Visible (Numeral.hexFixed 4 c.toNat) :=
        Numeral.forall_mem_hexFixed Numeral.visible_digitChar 4 c.toNat
      exact (hhex.cons (by decide)).cons (by decide)
    · next h => exact List.forall_mem_singleton.mpr (Nat.not_lt.mp h)
  all_goals decide

theorem visible_layOutText (s : List Char) : Visible (layOutText s) := by
  have hescaped : Visible (s.flatMap escape) := by
    intro c hc
    obtain ⟨d, -, hd⟩ := List.mem_flatMap.mp hc
    exact visible_escape d c hd
  exact (hescaped.cons (by decide)).append (by decide)

theorem visible_layOutAll {items : List (List Char)} (h : ∀ s ∈ items, Visible s) :
    Visible (layOutAll items) := by
  intro c hc
  rcases Text.mem_intercalate hc with hc | ⟨s, hs, hc⟩
  · exact (by decide : Visible [',', ' ']) c hc
  · exact h s hs c hc

mutual
theorem visible_layOut : (v : Value) → Visible (layOut v)
  | .null => by
      rw [layOut]
      decide
  | .bool b => by
      rw [layOut]
      cases b <;> decide
  | .int n => by
      rw [layOut]
      exact Numeral.visible_signedDecimal n
  | .real x => by
      rw [layOut]
      exact x.visible_text
  | .text s => by
      rw [layOut]
      exact visible_layOutText s.toList
  | .date s => by
      rw [layOut]
      exact visible_layOutText s.toList
  | .list items => by
      rw [layOut]
      exact ((visible_layOutAll (visible_layOutItems items)).cons (by decide)).append
        (by decide)
  | .record fields => by
      rw [layOut]
      exact ((visible_layOutAll (visible_layOutFields fields)).cons (by decide)).append
        (by decide)

theorem visible_layOutItems : (items : List Value) → ∀ s ∈ layOutItems items, Visible s
  | [] => nofun
  | v :: rest => by
      rw [layOutItems]
      exact List.forall_mem_cons.mpr ⟨visible_layOut v, visible_layOutItems rest⟩

theorem visible_layOutFields : (fields : List (String × Value)) → ∀ s ∈ layOutFields fields, Visible s
  | [] => nofun
  | (name, v) :: rest => by
      rw [layOutFields]
      refine List.forall_mem_cons.mpr ⟨?_, visible_layOutFields rest⟩
      exact (visible_layOutText name.toList).append (((visible_layOut v).cons (by decide)).cons (by decide))
end

/-! ## Long integers -/

mutual
theorem fits_iff : (v : Value) → (fits v ↔ v.Short)
  | .null => by simp [fits, Value.Short.null]
  | .bool b => by simp [fits, Value.Short.bool]
  | .int n => by
      have hn : fits (.int n) ↔ n.natAbs < Nat.pow 10 4300 := by
        have hmax : Numeral.maxIntegerDigits = 4300 := rfl
        rw [fits, decide_eq_true_eq, ← hmax]
      exact hn.trans ⟨.int, fun h => by cases h; assumption⟩
  | .real x => by simp [fits, Value.Short.real]
  | .text s => by simp [fits, Value.Short.text]
  | .date s => by simp [fits, Value.Short.date]
  | .list items => by
      rw [fits, fitsItems_iff items]
      exact ⟨.list, fun h => by cases h; assumption⟩
  | .record fields => by
      rw [fits, fitsFields_iff fields]
      exact ⟨.record, fun h => by cases h; assumption⟩

theorem fitsItems_iff : (items : List Value) → (fitsItems items ↔ ∀ v ∈ items, v.Short)
  | [] => by simp [fitsItems]
  | v :: rest => by
      rw [fitsItems, Bool.and_eq_true, fits_iff v, fitsItems_iff rest, List.forall_mem_cons]

theorem fitsFields_iff : (fields : List (String × Value)) → (fitsFields fields ↔ ∀ f ∈ fields, f.2.Short)
  | [] => by simp [fitsFields]
  | (name, v) :: rest => by
      rw [fitsFields, Bool.and_eq_true, fits_iff v, fitsFields_iff rest, List.forall_mem_cons]
end

end Json

end Sdp
