import Mathlib.Data.List.TakeWhile

/-!
# Pieces between separators

A text is one piece without separators, or such a piece, a separator and a shorter text. A run of
characters goes on to the first that is none of it.
-/

namespace Sdp

/-! ## Runs -/

/-- The first character, if there is one, is none of a run. -/
def Stops (p : Char → Bool) (s : List Char) : Prop := ∀ c ∈ s.head?, p c = false

theorem stops_cons {p : Char → Bool} {c : Char} (h : p c = false) (s : List Char) : Stops p (c :: s) := by
  intro d hd
  cases hd
  exact h

theorem takeWhile_append_of_stops {p : Char → Bool} {s x : List Char} (hs : ∀ c ∈ s, p c) (hx : Stops p x) :
    (s ++ x).takeWhile p = s := by
  rw [List.takeWhile_append_of_pos hs]
  cases x with
  | nil => simp
  | cons c x =>
      have hc : ¬ p c := by simp [hx c rfl]
      rw [List.takeWhile_cons_of_neg hc, List.append_nil]

theorem dropWhile_append_of_stops {p : Char → Bool} {s x : List Char} (hs : ∀ c ∈ s, p c) (hx : Stops p x) :
    (s ++ x).dropWhile p = x := by
  rw [List.dropWhile_append_of_pos hs]
  cases x with
  | nil => rfl
  | cons c x => exact List.dropWhile_cons_of_neg (by simp [hx c rfl])

end Sdp

/-! ## Pieces -/

namespace Sdp.Text

variable {α : Type} {p : α → Bool}

theorem splitOnP_induction {motive : List α → Prop}
    (last : ∀ w, (∀ c ∈ w, p c = false) → motive w)
    (more : ∀ w c s, (∀ d ∈ w, p d = false) → p c → motive s → motive (w ++ c :: s)) :
    ∀ s, motive s := by
  intro s
  induction hn : s.length using Nat.strongRecOn generalizing s with
  | ind n ih =>
      have hw : ∀ c ∈ s.takeWhile (!p ·), p c = false := fun c hc => by
        simpa using List.all_eq_true.mp List.all_takeWhile c hc
      have hs : s.takeWhile (!p ·) ++ s.dropWhile (!p ·) = s := List.takeWhile_append_dropWhile
      cases hd : s.dropWhile (!p ·) with
      | nil =>
          rw [hd, List.append_nil] at hs
          rw [hs] at hw
          exact last s hw
      | cons c t =>
          have hc : p c := by
            have := List.dropWhile_get_zero_not (!p ·) s (by rw [hd]; simp)
            simpa [hd] using this
          rw [hd] at hs
          have ht : t.length < n := by
            have := congrArg List.length hs
            simp only [List.length_append, List.length_cons] at this
            omega
          rw [← hs]
          exact more _ c t hw hc (ih t.length ht t rfl)

/-- A piece holds no separator, and stands somewhere in the text. -/
theorem mem_splitOnP {s w : List α} (hw : w ∈ s.splitOnP p) :
    (∀ c ∈ w, p c = false) ∧ w <:+: s := by
  induction s using splitOnP_induction (p := p) with
  | last v hv =>
      rw [List.splitOnP_eq_singleton hv, List.mem_singleton] at hw
      subst hw
      exact ⟨hv, List.infix_rfl⟩
  | more v c s hv hc ih =>
      rw [List.splitOnP_append_cons_of_forall_mem hv c hc] at hw
      rcases List.mem_cons.mp hw with rfl | hw
      · exact ⟨hv, (List.prefix_append _ _).isInfix⟩
      · obtain ⟨hp, hpart⟩ := ih hw
        exact ⟨hp, hpart.trans ((List.suffix_cons c s).isInfix.trans (List.suffix_append v _).isInfix)⟩

theorem not_mem_of_mem_splitOn [BEq α] [LawfulBEq α] {x : α} {s w : List α} (hw : w ∈ s.splitOn x) :
    x ∉ w := by
  intro hx
  have := (mem_splitOnP hw).1 x hx
  simp at this

theorem infix_of_mem_splitOn [BEq α] {x : α} {s w : List α} (hw : w ∈ s.splitOn x) : w <:+: s :=
  (mem_splitOnP hw).2

theorem mem_intercalate {c : α} {sep : List α} {ws : List (List α)} (h : c ∈ sep.intercalate ws) :
    c ∈ sep ∨ ∃ w ∈ ws, c ∈ w := by
  induction ws with
  | nil => exact nomatch h
  | cons v ws ih =>
      cases ws with
      | nil => exact Or.inr ⟨v, by simp, by simpa using h⟩
      | cons w ws =>
          rw [List.intercalate_cons_cons, List.mem_append, List.mem_append] at h
          rcases h with (hc | hc) | hc
          · exact Or.inr ⟨v, by simp, hc⟩
          · exact Or.inl hc
          · exact (ih hc).imp_right fun ⟨u, hu, hcu⟩ => ⟨u, List.mem_cons_of_mem _ hu, hcu⟩

theorem forall_mem_intercalate {q : α → Prop} {x : α} {ws : List (List α)} (hx : q x)
    (hws : ∀ w ∈ ws, ∀ c ∈ w, q c) : ∀ c ∈ [x].intercalate ws, q c := by
  intro c hc
  rcases mem_intercalate hc with hc | ⟨w, hw, hc⟩
  · rwa [List.mem_singleton.mp hc]
  · exact hws w hw c hc

/-- With separators nothing is left of no piece and of one empty piece only. -/
theorem intercalate_eq_nil_iff {x : α} {ws : List (List α)} :
    [x].intercalate ws = [] ↔ ws = [] ∨ ws = [[]] := by
  cases ws with
  | nil => simp
  | cons v ws => cases ws <;> simp

end Sdp.Text
