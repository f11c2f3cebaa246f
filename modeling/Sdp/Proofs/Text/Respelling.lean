import Mathlib.Data.List.DropRight
import Sdp.Proofs.Text.Lines
import Sdp.Text.Respelling

/-!
# Lines of respelled texts

Main statements: `rows_unifyReturns` and `rows_of_respelling`, line ends and blanks at the edges of
lines make no difference to the lines without the blanks around them.
-/

namespace Sdp.Text

variable {s t before after e : List Char} {c : Char}

/-! ## Where texts meet -/

theorem not_meet_nil_left (t : List Char) : ¬ Meet [] t := nofun

theorem meet_append_left (h : s ≠ []) : Meet (before ++ s) t ↔ Meet s t := by
  rw [Meet, Meet, List.getLast?_append_of_ne_nil _ h]

theorem meet_append_right (h : s ≠ []) : Meet before (s ++ t) ↔ Meet before s := by
  cases s with
  | nil => exact absurd rfl h
  | cons c s => rfl

theorem not_meet_singleton (h : ∀ rest, c = '\r' → s = '\n' :: rest → False) : ¬ Meet [c] s := by
  rintro ⟨hr, hn⟩
  obtain ⟨rest, rfl⟩ := List.head?_eq_some_iff.mp hn
  exact h rest (Option.some.inj hr) rfl

theorem not_meet_cons_append (h : ¬ Meet (c :: s) t) (hs : ∀ rest, c = '\r' → s = '\n' :: rest → False) :
    ¬ Meet [c] (s ++ t) := by
  cases s with
  | nil => exact h
  | cons d s =>
      rintro ⟨hc, hd⟩
      exact hs s (Option.some.inj hc) (by rw [Option.some.inj hd])

theorem not_meet_of_cons (h : ¬ Meet (c :: s) t) : ¬ Meet s t := by
  cases s with
  | nil => exact not_meet_nil_left t
  | cons d s => exact h

theorem LineEnd.ne_nil (h : LineEnd e) : e ≠ [] := by
  cases h with
  | single h => exact List.cons_ne_nil _ _
  | returnFeed => exact List.cons_ne_nil _ _

/-! ## All lines -/

/-- The lines of a text, of which the last is what follows the last line end, be it empty or not. -/
def allLines : List Char → List (List Char)
  | [] => [[]]
  | '\r' :: '\n' :: rest => [] :: allLines rest
  | c :: rest =>
    if isLineEnd c then [] :: allLines rest
    else (allLines rest).modifyHead (c :: ·)

theorem allLines_cons_of_isLineEnd (hc : isLineEnd c) (h : ¬ Meet [c] s) :
    allLines (c :: s) = [] :: allLines s := by
  rw [allLines.eq_def]
  split
  · next h => cases h
  · next h' =>
      cases h'
      exact absurd ⟨rfl, rfl⟩ h
  · next h' =>
      cases h'
      rw [if_pos hc]

theorem allLines_cons (hc : isLineEnd c = false) (s : List Char) :
    allLines (c :: s) = (allLines s).modifyHead (c :: ·) := by
  rw [allLines.eq_def]
  split
  · next h => cases h
  · next h =>
      cases h
      exact absurd hc (by decide)
  · next h =>
      cases h
      rw [hc, if_neg Bool.false_ne_true]

theorem exists_allLines_eq_cons (s : List Char) : ∃ l ls, allLines s = l :: ls := by
  fun_induction allLines s with
  | case1 => exact ⟨_, _, rfl⟩
  | case2 s ih => exact ⟨_, _, rfl⟩
  | case3 c s h hc ih => exact ⟨_, _, rfl⟩
  | case4 c s h hc ih =>
      obtain ⟨l, ls, hs⟩ := ih
      exact ⟨c :: l, ls, by rw [hs, List.modifyHead_cons]⟩

theorem allLines_append_left (hs : ∀ c ∈ s, isLineEnd c = false) (t : List Char) :
    allLines (s ++ t) = (allLines t).modifyHead (s ++ ·) := by
  induction s with
  | nil =>
      obtain ⟨l, ls, ht⟩ := exists_allLines_eq_cons t
      rw [List.nil_append, ht]
      rfl
  | cons c s ih =>
      rw [List.cons_append, allLines_cons (hs c (List.mem_cons_self ..)),
        ih fun d hd => hs d (List.mem_cons_of_mem _ hd), List.modifyHead_modifyHead]
      rfl

theorem allLines_of_not_lineEnd (hs : ∀ c ∈ s, isLineEnd c = false) : allLines s = [s] := by
  have h := allLines_append_left hs []
  rw [List.append_nil] at h
  rw [h, allLines, List.modifyHead_cons, List.append_nil]

/-- The last line counts among the lines unless it is empty. -/
theorem allLines_eq (s : List Char) : allLines s = lines s ∨ allLines s = lines s ++ [[]] := by
  fun_induction lines s with
  | case1 => exact Or.inr rfl
  | case2 s ih => exact ih.imp (congrArg ([] :: ·)) (congrArg ([] :: ·))
  | case3 c s h hc ih =>
      rw [allLines_cons_of_isLineEnd hc (not_meet_singleton h)]
      exact ih.imp (congrArg ([] :: ·)) (congrArg ([] :: ·))
  | case4 c s h hc hs ih =>
      rw [allLines_cons (by simpa using hc)]
      rw [hs] at ih
      rcases ih with ih | ih
      · obtain ⟨l, ls, hcons⟩ := exists_allLines_eq_cons s
        cases ih.symm.trans hcons
      · exact Or.inl (by rw [ih]; rfl)
  | case5 c s h hc v vs hs ih =>
      rw [allLines_cons (by simpa using hc)]
      rw [hs] at ih
      exact ih.imp (congrArg _) (congrArg _)

/-- A line end separates what stands before it from what stands behind it. -/
theorem allLines_append_lineEnd (he : LineEnd e) (hbefore : ¬ Meet before e) (hafter : ¬ Meet e after) :
    allLines (before ++ (e ++ after)) = allLines before ++ allLines after := by
  have hmeet {s : List Char} (h : ¬ Meet s e) : ¬ Meet s (e ++ after) := mt (meet_append_right he.ne_nil).mp h
  -- No pair straddles the junction, so the text before it is scanned as if it stood alone.
  fun_induction allLines before with
  | case1 =>
      cases he with
      | single hc => exact allLines_cons_of_isLineEnd hc hafter
      | returnFeed => rfl
  | case2 s ih =>
      have hs : ¬ Meet s e := not_meet_of_cons (not_meet_of_cons hbefore)
      exact congrArg ([] :: ·) (ih hs)
  | case3 c s h hc ih =>
      rw [List.cons_append, allLines_cons_of_isLineEnd hc (not_meet_cons_append (hmeet hbefore) h),
        ih (not_meet_of_cons hbefore)]
      rfl
  | case4 c s h hc ih =>
      obtain ⟨l, ls, hs⟩ := exists_allLines_eq_cons s
      rw [List.cons_append, allLines_cons (by simpa using hc), ih (not_meet_of_cons hbefore), hs]
      rfl

/-- Carriage returns may be written as line feeds: the lines stay the same. -/
theorem allLines_unifyReturns (s : List Char) : allLines (unifyReturns s) = allLines s := by
  have hfeed : isLineEnd '\n' := by decide
  have hmeet (s : List Char) : ¬ Meet ['\n'] s := fun h => absurd h.1 (by decide)
  fun_induction unifyReturns s with
  | case1 => rfl
  | case2 s ih => rw [allLines_cons_of_isLineEnd hfeed (hmeet _), ih, allLines]
  | case3 c s h ih =>
      by_cases hr : c = '\r'
      · subst hr
        rw [if_pos rfl, allLines_cons_of_isLineEnd hfeed (hmeet _),
          allLines_cons_of_isLineEnd (by decide) (not_meet_singleton h), ih]
      · have hne (s : List Char) : ¬ Meet [c] s := fun hm => hr (Option.some.inj hm.1)
        rw [if_neg hr]
        cases hc : isLineEnd c with
        | true => rw [allLines_cons_of_isLineEnd hc (hne _), allLines_cons_of_isLineEnd hc (hne _), ih]
        | false => rw [allLines_cons hc, allLines_cons hc, ih]

/-! ## Lines without the blanks around them -/

/-- The lines without the blanks around them. -/
def rows (s : List Char) : List (List Char) :=
  (allLines s).map trim

theorem rows_append_lineEnd (he : LineEnd e) (hbefore : ¬ Meet before e) (hafter : ¬ Meet e after) :
    rows (before ++ (e ++ after)) = rows before ++ rows after := by
  rw [rows, allLines_append_lineEnd he hbefore hafter, List.map_append, rows, rows]

theorem rows_append_left {b : List Char} (hb : Inline b) (s : List Char) : rows (b ++ s) = rows s := by
  obtain ⟨l, ls, hs⟩ := exists_allLines_eq_cons s
  rw [rows, allLines_append_left (fun c hc => (hb c hc).2), rows, hs, List.modifyHead_cons, List.map_cons,
    trim_append_left fun c hc => (hb c hc).1, List.map_cons]

/-- A text that ends with a line end keeps its lines, whatever follows. -/
theorem exists_allLines_append (h : ∀ c ∈ before.getLast?, isLineEnd c) :
    ∃ ls, ∀ s, ¬ Meet before s → allLines (before ++ s) = ls ++ allLines s := by
  rcases List.eq_nil_or_concat' before with rfl | ⟨q, c, rfl⟩
  · exact ⟨[], fun s _ => rfl⟩
  · have hc : isLineEnd c := h c (by simp)
    -- A line feed at the end may be one half of a line end.
    by_cases hq : Meet q [c]
    · obtain ⟨q', rfl⟩ := List.getLast?_eq_some_iff.mp hq.1
      obtain rfl : c = '\n' := Option.some.inj hq.2
      refine ⟨allLines q', fun s hs => ?_⟩
      rw [List.append_assoc q'] at hs ⊢
      have hfeed := (meet_append_left (List.cons_ne_nil _ _)).not.mp hs
      rw [List.append_assoc]
      exact allLines_append_lineEnd .returnFeed (fun hm => absurd hm.2 (by decide)) hfeed
    · refine ⟨allLines q, fun s hs => ?_⟩
      have hfeed := (meet_append_left (List.cons_ne_nil _ _)).not.mp hs
      rw [List.append_assoc]
      exact allLines_append_lineEnd (.single hc) hq hfeed

theorem rows_append_right {b : List Char} (hb : Inline b) (s : List Char) : rows (s ++ b) = rows s := by
  -- `w` is what follows the last line end, and all that the blanks come to stand behind.
  let p := s.rdropWhile (!isLineEnd ·)
  let w := s.rtakeWhile (!isLineEnd ·)
  have hs : s = p ++ w := List.rdropWhile_append_rtakeWhile.symm
  have hp : ∀ c ∈ p.getLast?, isLineEnd c := fun c hc => by
    have hne : p ≠ [] := by
      rintro hnil
      simp [hnil] at hc
    rw [Option.mem_def, List.getLast?_eq_some_getLast hne] at hc
    simpa [← Option.some.inj hc] using List.rdropWhile_last_not (!isLineEnd ·) s hne
  have hw : ∀ c ∈ w, isLineEnd c = false := fun c hc => by simpa using List.mem_rtakeWhile_imp hc
  obtain ⟨ls, hls⟩ := exists_allLines_append hp
  have hrow {t : List Char} (ht : ∀ c ∈ t, isLineEnd c = false) : rows (p ++ t) = ls.map trim ++ [trim t] := by
    have hmeet : ¬ Meet p t := fun hm => by
      have hmem := ht _ (List.mem_of_mem_head? hm.2)
      exact absurd hmem (by decide)
    rw [rows, hls t hmeet, allLines_of_not_lineEnd ht, List.map_append]
    rfl
  have hwb : ∀ c ∈ w ++ b, isLineEnd c = false := fun c hc =>
    (List.mem_append.mp hc).elim (hw c) fun hc => (hb c hc).2
  rw [hs, List.append_assoc, hrow hw, hrow hwb, trim_append_right fun c hc => (hb c hc).1]

theorem exists_lineEnd_append (h : isLineEnd c) (s : List Char) :
    ∃ e t, c :: s = e ++ t ∧ LineEnd e ∧ ¬ Meet e t := by
  by_cases hm : Meet [c] s
  · obtain ⟨t, rfl⟩ := List.head?_eq_some_iff.mp hm.2
    obtain rfl : c = '\r' := Option.some.inj hm.1
    exact ⟨['\r', '\n'], t, rfl, .returnFeed, fun hm => absurd hm.1 (by decide)⟩
  · exact ⟨[c], s, rfl, .single h, hm⟩

/-- Blanks at an edge of a line leave no trace. -/
theorem exists_rows_margin
    (h : (∀ c ∈ before.getLast?, isLineEnd c) ∨ ∀ c ∈ after.head?, isLineEnd c) :
    ∃ rs, ∀ b, Inline b → ¬ Meet before (b ++ after) → rows (before ++ b ++ after) = rs := by
  rcases h with h | h
  · obtain ⟨ls, hls⟩ := exists_allLines_append h
    refine ⟨ls.map trim ++ rows after, fun b hb hmeet => ?_⟩
    rw [List.append_assoc, rows, hls _ hmeet, List.map_append, ← rows, rows_append_left hb]
  · cases after with
    | nil =>
        refine ⟨rows before, fun b hb _ => ?_⟩
        rw [List.append_nil, rows_append_right hb]
    | cons c s =>
        obtain ⟨e, t, hs, he, het⟩ := exists_lineEnd_append (h c rfl) s
        rw [hs]
        refine ⟨rows before ++ rows t, fun b hb hmeet => ?_⟩
        have hbe : ¬ Meet (before ++ b) e := by
          rcases List.eq_nil_or_concat' b with rfl | ⟨b, d, rfl⟩
          · rw [List.append_nil]
            exact mt (meet_append_right he.ne_nil).mpr hmeet
          · intro hm
            have hd : d = '\r' := by simpa [← List.append_assoc] using hm.1
            have hend := (hb d (by simp)).2
            rw [hd] at hend
            exact absurd hend (by decide)
        rw [rows_append_lineEnd he hbe het, rows_append_right hb]

theorem rows_unifyReturns (s : List Char) : rows (unifyReturns s) = rows s := by
  rw [rows, allLines_unifyReturns, rows]

/-- Respelling a text changes its lines at most in the blanks around them. -/
theorem rows_of_respelling (h : Respelling s t) : rows t = rows s := by
  cases h with
  | lineEnd old new apart apart' =>
      rw [List.append_assoc, List.append_assoc, rows_append_lineEnd new apart'.1 apart'.2,
        rows_append_lineEnd old apart.1 apart.2]
  | margin old new edge apart apart' =>
      obtain ⟨rs, hrs⟩ := exists_rows_margin edge
      rw [hrs _ new apart', hrs _ old apart]

/-- All is blank just if every row is empty. -/
theorem forall_isBlank_iff_rows (s : List Char) : (∀ c ∈ s, isBlank c) ↔ ∀ r ∈ rows s, r = [] := by
  have hall : (∀ l ∈ lines s, ∀ c ∈ l, isBlank c) ↔ ∀ l ∈ allLines s, ∀ c ∈ l, isBlank c := by
    rcases allLines_eq s with h | h
    · rw [h]
    · rw [h]
      simp [or_imp, forall_and]
  rw [forall_isBlank_iff_forall_lines, hall, rows, List.forall_mem_map]
  simp only [trim_eq_nil_iff]

end Sdp.Text
