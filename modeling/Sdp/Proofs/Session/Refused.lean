import Sdp.Proofs.Session.Run
import Sdp.Proofs.Text.Lines

/-!
# The line that is refused

Whether a line is refused does not depend on what stands around it. Main statement:
`Session.read_refused`, a description is refused for the first of its lines that is refused alone.
-/

namespace Sdp

open Text (isBlank isLineEnd)

/-- A blank line says nothing. -/
theorem LineReading.ofLine_of_isBlank {line : List Char} (h : ∀ c ∈ line, isBlank c) (mode : Mode) :
    ofLine mode line = { item := .ok .nothing } := by
  unfold ofLine
  rw [Text.trim_eq_nil_iff.mpr h]
  rfl

namespace Session

variable {policy : Policy} {text line : List Char}

theorem read_of_isBlank (h : ∀ c ∈ text, isBlank c) (policy : Policy) :
    read policy text = ([], .error ⟨⟨.blank, ""⟩, none⟩) := by
  rw [read, Text.trim_eq_nil_iff.mpr h]
  rfl

theorem read_of_not_isBlank (h : ¬ ∀ c ∈ text, isBlank c) (policy : Policy) :
    read policy text = readLines policy {} 1 (Text.lines text) := by
  have hne : (Text.trim text).isEmpty = false := by
    rw [List.isEmpty_eq_false_iff, ne_eq, Text.trim_eq_nil_iff]
    exact h
  rw [read, hne, if_neg Bool.false_ne_true]

/-! ## One line alone -/

/-- The line is not blank, and a description of this line alone is refused. -/
def RefusedAlone (policy : Policy) (line : List Char) : Prop :=
  (¬ ∀ c ∈ line, isBlank c) ∧ ∃ f, (read policy line).2 = .error f

/-- A line that is all there is, is refused as the first line. -/
theorem read_line_eq_error_iff (hline : ∀ c ∈ line, isLineEnd c = false) (h : ¬ ∀ c ∈ line, isBlank c)
    {f : Failure} :
    (read policy line).2 = .error f ↔
      ∃ e, (LineReading.ofLine policy.mode line).item = .error e ∧ f = ⟨e, some 1⟩ := by
  have hne : line ≠ [] := by
    rintro rfl
    exact h (List.forall_mem_nil _)
  rw [read_of_not_isBlank h, Text.lines_of_not_lineEnd hline hne, readLines]
  cases (LineReading.ofLine policy.mode line).item with
  | error e => simp [eq_comm]
  | ok item => simp [readLines]

theorem refusedAlone_iff (hline : ∀ c ∈ line, isLineEnd c = false) :
    RefusedAlone policy line ↔ ∃ e, (LineReading.ofLine policy.mode line).item = .error e := by
  constructor
  · rintro ⟨hblank, f, hf⟩
    obtain ⟨e, he, -⟩ := (read_line_eq_error_iff hline hblank).mp hf
    exact ⟨e, he⟩
  · rintro ⟨e, he⟩
    have hblank : ¬ ∀ c ∈ line, isBlank c := by
      intro hb
      rw [LineReading.ofLine_of_isBlank hb] at he
      cases he
    exact ⟨hblank, _, (read_line_eq_error_iff hline hblank).mpr ⟨e, he, rfl⟩⟩

/-! ## Among other lines -/

/-- A description is refused just if a line of it is refused alone, and then for the first such line:
the fault is that of the line alone, and the number counts all lines before it. -/
theorem read_refused (policy : Policy) (text : List Char) (h : ¬ ∀ c ∈ text, isBlank c) :
    ((∃ f, (read policy text).2 = .error f) ↔ ∃ line ∈ Text.lines text, RefusedAlone policy line) ∧
    ∀ f, (read policy text).2 = .error f →
      ∃ before line after, Text.lines text = before ++ line :: after ∧
        (∀ l ∈ before, ¬ RefusedAlone policy l) ∧ RefusedAlone policy line ∧
        (read policy line).2 = .error ⟨f.fault, some 1⟩ ∧ f.line = some (before.length + 1) := by
  have hlines : ∀ line ∈ Text.lines text, ∀ c ∈ line, isLineEnd c = false :=
    fun line hline => Text.isLineEnd_of_mem_lines hline
  have hfirst : ∀ f, (read policy text).2 = .error f →
      ∃ before line after, Text.lines text = before ++ line :: after ∧
        (∀ l ∈ before, ¬ RefusedAlone policy l) ∧ RefusedAlone policy line ∧
        (read policy line).2 = .error ⟨f.fault, some 1⟩ ∧ f.line = some (before.length + 1) := by
    intro f hf
    rw [read_of_not_isBlank h] at hf
    obtain ⟨before, line, after, e, hsplit, hbefore, hitem, rfl, -⟩ :=
      readLines_error (Prod.ext rfl hf)
    rw [hsplit] at hlines
    obtain ⟨hends, hend⟩ := List.forall_mem_append.mp hlines
    have hrefused := (refusedAlone_iff (hend line (List.mem_cons_self ..))).mpr ⟨e, hitem⟩
    refine ⟨before, line, after, hsplit, fun l hl hrefused => ?_, hrefused, ?_, ?_⟩
    · obtain ⟨e', he'⟩ := (refusedAlone_iff (hends l hl)).mp hrefused
      obtain ⟨item, hitem'⟩ := hbefore l hl
      cases hitem'.symm.trans he'
    · exact (read_line_eq_error_iff (hend line (List.mem_cons_self ..)) hrefused.1).mpr ⟨e, hitem, rfl⟩
    · rw [Nat.add_comm]
  refine ⟨⟨?_, ?_⟩, hfirst⟩
  · rintro ⟨f, hf⟩
    obtain ⟨before, line, after, hsplit, -, hrefused, -⟩ := hfirst f hf
    exact ⟨line, by simp [hsplit], hrefused⟩
  · rintro ⟨line, hmem, hrefused⟩
    obtain ⟨e, he⟩ := (refusedAlone_iff (hlines line hmem)).mp hrefused
    cases hread : (read policy text).2 with
    | error f => exact ⟨f, rfl⟩
    | ok s =>
        rw [read_of_not_isBlank h] at hread
        obtain ⟨hitems, -⟩ := readLines_ok (Prod.ext rfl hread)
        obtain ⟨item, hitem⟩ := hitems line hmem
        cases hitem.symm.trans he

/-- Of two lines that are refused alone the first counts, and lines that say nothing are lines, too. -/
theorem read_refused_of_two_lines :
    let text := "\r\nm=audio 9 RTP/AVP 0\rx\u2028 m=audio\nc=IN IP4".toList
    (¬ ∀ c ∈ text, isBlank c) ∧ RefusedAlone {} " m=audio".toList ∧ RefusedAlone {} "c=IN IP4".toList ∧
      (∃ f, (read {} text).2 = .error f) ∧
      ∃ before line after, Text.lines text = before ++ line :: after ∧
        (∀ l ∈ before, ¬ RefusedAlone {} l) ∧ RefusedAlone {} line ∧
        (read {} line).2 = .error ⟨fault .media "audio".toList, some 1⟩ ∧
        some 4 = some (before.length + 1) := by
  intro text
  have hblank : ¬ ∀ c ∈ text, isBlank c := fun h => absurd (h 'm' (by decide)) (by decide)
  have hmedia : RefusedAlone {} " m=audio".toList :=
    ⟨fun h => absurd (h 'm' (by decide)) (by decide), _, rfl⟩
  have hconnection : RefusedAlone {} "c=IN IP4".toList :=
    ⟨fun h => absurd (h 'c' (by decide)) (by decide), _, rfl⟩
  have hmem : " m=audio".toList ∈ Text.lines text := by decide
  have hread : (read {} text).2 = .error ⟨fault .media "audio".toList, some 4⟩ := rfl
  obtain ⟨hiff, hfirst⟩ := read_refused {} text hblank
  exact ⟨hblank, hmedia, hconnection, hiff.mpr ⟨_, hmem, hmedia⟩, hfirst _ hread⟩

end Session

end Sdp
