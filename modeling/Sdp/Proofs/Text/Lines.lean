import Sdp.Proofs.Text.Words
import Sdp.Text.Line

/-!
# Lines of a text

Main statement: `eq_lines_or_eq_concat`, lines joined by line feeds are read back, except for an
empty line at the very end, which no text can hold.
-/

namespace Sdp.Text

theorem lines_cons {c : Char} (hc : isLineEnd c = false) (s : List Char) :
    lines (c :: s) = match lines s with
      | [] => [[c]]
      | l :: ls => (c :: l) :: ls := by
  rw [lines.eq_def]
  split
  · next h => cases h
  · next h =>
      cases h
      exact absurd hc (by decide)
  · next h =>
      cases h
      exact if_neg (by simp [hc])

theorem lines_cons_lineEnd (s : List Char) : lines ('\n' :: s) = [] :: lines s := by
  rw [lines.eq_def]
  rfl

/-- No line holds the end of a line. -/
theorem isLineEnd_of_mem_lines {s l : List Char} (hl : l ∈ lines s) : ∀ c ∈ l, isLineEnd c = false := by
  fun_induction lines s generalizing l with
  | case1 => exact nomatch hl
  | case2 s ih =>
      rcases List.mem_cons.mp hl with rfl | hl
      · exact fun c hc => nomatch hc
      · exact ih hl
  | case3 c s _ hc ih =>
      rcases List.mem_cons.mp hl with rfl | hl
      · exact fun c hc => nomatch hc
      · exact ih hl
  | case4 c s _ hc hs ih =>
      rw [List.mem_singleton] at hl
      subst hl
      simpa using hc
  | case5 c s _ hc v vs hs ih =>
      rw [hs] at ih
      rcases List.mem_cons.mp hl with rfl | hl
      · intro d hd
        rcases List.mem_cons.mp hd with rfl | hd
        · simpa using hc
        · exact ih (List.mem_cons_self ..) d hd
      · exact ih (List.mem_cons_of_mem _ hl)

/-- A text has no more lines than characters. -/
theorem length_lines_le (s : List Char) : (lines s).length ≤ s.length := by
  fun_induction lines s with
  | case1 => exact Nat.le_refl 0
  | case2 s ih => exact Nat.le_succ_of_le (Nat.succ_le_succ ih)
  | case3 c s _ hc ih => exact Nat.succ_le_succ ih
  | case4 c s _ hc hs ih => exact Nat.succ_le_succ (Nat.zero_le _)
  | case5 c s _ hc l ls hs ih =>
      rw [hs] at ih
      exact Nat.le_succ_of_le ih

theorem isLineEnd_of_not_isBlank {c : Char} (h : isBlank c = false) : isLineEnd c = false := by
  cases hend : isLineEnd c with
  | false => rfl
  | true => cases h.symm.trans (isBlank_of_isLineEnd hend)

theorem isLineEnd_of_mem_unwords {ws : List (List Char)} (h : ∀ w ∈ ws, IsWord w) :
    ∀ c ∈ unwords ws, isLineEnd c = false := by
  intro c hc
  rcases mem_intercalate hc with hc | ⟨w, hw, hc⟩
  · rw [List.mem_singleton.mp hc]
    decide
  · exact isLineEnd_of_not_isBlank ((h w hw).2 c hc)

/-- A text is blank if every line of it is: line ends are blanks. -/
theorem forall_isBlank_iff_forall_lines {s : List Char} :
    (∀ c ∈ s, isBlank c) ↔ ∀ l ∈ lines s, ∀ c ∈ l, isBlank c := by
  fun_induction lines s with
  | case1 => simp
  | case2 s ih =>
      have hr : isBlank '\r' := by decide
      have hn : isBlank '\n' := by decide
      simp only [List.forall_mem_cons, hr, hn, ih, true_and, List.not_mem_nil, false_imp_iff,
        implies_true]
  | case3 c s _ hc ih =>
      simp only [List.forall_mem_cons, isBlank_of_isLineEnd hc, ih, true_and, List.not_mem_nil,
        false_imp_iff, implies_true]
  | case4 c s _ hc hs ih =>
      rw [hs] at ih
      simp only [List.forall_mem_cons, ih, List.not_mem_nil, false_imp_iff, implies_true, and_true]
  | case5 c s _ hc v vs hs ih =>
      rw [hs] at ih
      simp only [List.forall_mem_cons, ih, and_assoc]

/-! ## Joining lines -/

theorem lines_append_lineEnd {l : List Char} (hl : ∀ c ∈ l, isLineEnd c = false) (s : List Char) :
    lines (l ++ '\n' :: s) = l :: lines s := by
  induction l with
  | nil => exact lines_cons_lineEnd s
  | cons c l ih =>
      rw [List.cons_append, lines_cons (hl c (List.mem_cons_self ..)),
        ih fun d hd => hl d (List.mem_cons_of_mem _ hd)]

theorem lines_of_not_lineEnd {l : List Char} (hl : ∀ c ∈ l, isLineEnd c = false) (hne : l ≠ []) :
    lines l = [l] := by
  induction l with
  | nil => exact absurd rfl hne
  | cons c l ih =>
      rw [lines_cons (hl c (List.mem_cons_self ..))]
      cases l with
      | nil => rfl
      | cons d l =>
          rw [ih (fun e he => hl e (List.mem_cons_of_mem _ he)) (List.cons_ne_nil _ _)]

/-- Lines joined by line feeds, and read back. -/
theorem eq_lines_or_eq_concat {ls : List (List Char)} (h : ∀ l ∈ ls, ∀ c ∈ l, isLineEnd c = false) :
    ls = lines (['\n'].intercalate ls) ∨ ls = lines (['\n'].intercalate ls) ++ [[]] := by
  induction ls with
  | nil => exact Or.inl rfl
  | cons l ls ih =>
      have hl := h l (List.mem_cons_self ..)
      cases ls with
      | nil =>
          rw [List.intercalate_singleton]
          by_cases hne : l = []
          · subst hne
            exact Or.inr rfl
          · exact Or.inl (lines_of_not_lineEnd hl hne).symm
      | cons m ls =>
          have hjoin : lines (['\n'].intercalate (l :: m :: ls)) =
              l :: lines (['\n'].intercalate (m :: ls)) := by
            rw [List.intercalate_cons_cons, List.append_assoc]
            exact lines_append_lineEnd hl _
          rw [hjoin]
          rcases ih fun k hk => h k (List.mem_cons_of_mem _ hk) with he | he
          · exact Or.inl (congrArg _ he)
          · exact Or.inr (congrArg _ he)

end Sdp.Text
