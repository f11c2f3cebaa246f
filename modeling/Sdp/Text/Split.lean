/-!
# Cutting at a mark

`cut` divides a text at the first occurrence of a character, `cutPair` at the first occurrence of
the same character twice in a row.
-/

namespace Sdp.Text

/-- What stands before and after the first `mark`, if there is one. -/
def cut (mark : Char) : List Char → Option (List Char × List Char)
  | [] => none
  | c :: rest =>
    if c = mark then some ([], rest)
    else (cut mark rest).map fun (before, after) => (c :: before, after)

/-- What stands before and after the first two `mark`s in a row, if there are any. -/
def cutPair (mark : Char) : List Char → Option (List Char × List Char)
  | c :: d :: rest =>
    if c = mark ∧ d = mark then some ([], rest)
    else (cutPair mark (d :: rest)).map fun (before, after) => (c :: before, after)
  | _ => none

theorem cut_eq_none_iff {mark : Char} {s : List Char} : cut mark s = none ↔ mark ∉ s := by
  induction s with
  | nil => simp [cut]
  | cons c rest ih =>
    by_cases h : c = mark
    · simp [cut, h]
    · simp [cut, h, ih, Ne.symm h]

/-- Nothing but the mark is lost, and the first part does not hold it. -/
theorem eq_of_cut_eq_some {mark : Char} {s before after : List Char}
    (h : cut mark s = some (before, after)) : s = before ++ mark :: after ∧ mark ∉ before := by
  induction s generalizing before after with
  | nil => simp [cut] at h
  | cons c rest ih =>
    by_cases hc : c = mark
    · simp only [cut, hc, ↓reduceIte, Option.some.injEq, Prod.mk.injEq] at h
      obtain ⟨rfl, rfl⟩ := h
      simp [hc]
    · simp only [cut, hc, ↓reduceIte, Option.map_eq_some_iff, Prod.exists, Prod.mk.injEq] at h
      obtain ⟨b, a, hba, rfl, rfl⟩ := h
      obtain ⟨rfl, hb⟩ := ih hba
      simp [Ne.symm hc, hb]

/-- Both parts stand in the text. -/
theorem infix_of_cut_eq_some {mark : Char} {s before after : List Char}
    (h : cut mark s = some (before, after)) : before <:+: s ∧ after <:+: s := by
  obtain ⟨rfl, _⟩ := eq_of_cut_eq_some h
  exact ⟨(List.prefix_append _ _).isInfix,
    ((List.suffix_cons mark after).trans (List.suffix_append before _)).isInfix⟩

theorem cut_append {mark : Char} {before : List Char} (h : mark ∉ before) (after : List Char) :
    cut mark (before ++ mark :: after) = some (before, after) := by
  induction before with
  | nil => simp [cut]
  | cons c rest ih =>
    simp only [List.mem_cons, not_or] at h
    simp [cut, Ne.symm h.1, ih h.2]

end Sdp.Text
