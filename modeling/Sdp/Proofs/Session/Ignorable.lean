import Sdp.Proofs.Session.Refused
import Sdp.Session.Renumber

/-!
# Lines to pass over

Main statement: `Session.read_insert`, a line to pass over changes nothing of a reading but the numbers
of the lines after it.
-/

namespace Sdp

open Text (cut trim)

theorem LineReading.ofLine_of_ignorable {line : List Char} (h : Ignorable line) (mode : Mode) :
    ofLine mode line = { item := .ok .nothing } := by
  unfold ofLine
  cases h with
  | blank h => rw [h, cut]
  | plain h => rw [Text.cut_eq_none_iff.mpr h]
  | @other field value h first other =>
      simp only [h, Text.cut_append first]
      split
      -- A field is none of those that a line is read by.
      case h_8 => rfl
      all_goals exact absurd rfl (other _ (by decide))

theorem shiftFrom_of_lt {k n : Nat} (h : n < k) : shiftFrom k n = n := if_pos h

theorem shiftFrom_of_le {k n : Nat} (h : k ≤ n) : shiftFrom k n = n + 1 := if_neg (Nat.not_lt.mpr h)

namespace Session

variable {policy : Policy} {f : Nat → Nat} {s : Session} {n m : Nat} {line : List Char}
  {ls ls' : List (List Char)}

/-! ## One line -/

theorem renumber_warn (f : Nat → Nat) (s : Session) (limit n : Nat) (faults : List (Fault Defect)) :
    (s.warn limit n faults).renumber f = (s.renumber f).warn limit (f n) faults := by
  simp [warn, renumber, List.map_take, Function.comp_def, Warning.renumber]

theorem renumber_add (f : Nat → Nat) (s : Session) (item : Item) :
    (s.add item).renumber f = (s.renumber f).add item := by
  cases item with
  | connection address => cases hm : s.media.isEmpty <;> simp [add, renumber, hm]
  | attr a => cases hm : s.media.isEmpty <;> simp [add, renumber, hm]
  | _ => rfl

theorem renumber_summary (f : Nat → Nat) (s : Session) :
    s.summary.renumber f = (s.renumber f).summary := by
  simp [summary, renumber, Event.renumber]

theorem renumber_rejection (f : Nat → Nat) (n : Nat) (e : Fault Problem) :
    (rejection n e).map (Event.renumber f) = rejection (f n) e := by
  obtain ⟨cause, text⟩ := e
  cases cause <;> rfl

theorem renumberReading_append (events events' : List Event) (r : Except Failure Session) :
    renumberReading f (events ++ events', r) =
      (events.map (Event.renumber f) ++ (renumberReading f (events', r)).1,
        (renumberReading f (events', r)).2) := by
  cases r <;> simp [renumberReading]

/-- A line that has another number says the same of that number, if the lines after it do. -/
theorem readLines_cons_renumber (hn : f n = m)
    (h : ∀ s : Session, readLines policy (s.renumber f) (m + 1) ls' =
      renumberReading f (readLines policy s (n + 1) ls)) (s : Session) (line : List Char) :
    readLines policy (s.renumber f) m (line :: ls') =
      renumberReading f (readLines policy s n (line :: ls)) := by
  subst hn
  have hskipped (faults : List (Fault Defect)) :
      (faults.map (Event.skipped n)).map (Event.renumber f) = faults.map (Event.skipped (f n)) := by
    rw [List.map_map]
    rfl
  simp only [readLines]
  cases (LineReading.ofLine policy.mode line).item with
  | error e => simp only [renumberReading, List.map_append, hskipped, renumber_rejection]; rfl
  | ok item =>
      simp only [renumberReading_append, hskipped]
      rw [← renumber_warn, ← renumber_add, h]

theorem readLines_cons_ignorable (hline : Ignorable line) (policy : Policy) (s : Session) (n : Nat)
    (ls : List (List Char)) :
    readLines policy s n (line :: ls) = readLines policy s (n + 1) ls := by
  simp [readLines, LineReading.ofLine_of_ignorable hline, add]

/-! ## All lines -/

/-- The lines after the one that is put in. -/
theorem readLines_shift (policy : Policy) {k n : Nat} (h : k ≤ n) (s : Session)
    (ls : List (List Char)) :
    readLines policy (s.renumber (shiftFrom k)) (n + 1) ls =
      renumberReading (shiftFrom k) (readLines policy s n ls) := by
  induction ls generalizing s n with
  | nil => simp [readLines, renumberReading, renumber_summary]
  | cons line ls ih =>
      have hrest := fun s => ih (Nat.le_succ_of_le h) s
      exact readLines_cons_renumber (shiftFrom_of_le h) hrest s line

/-- All lines, by induction on those before the one that is put in. -/
theorem readLines_insert (hline : Ignorable line) (policy : Policy) (s : Session) (n : Nat)
    (before after : List (List Char)) :
    readLines policy (s.renumber (shiftFrom (n + before.length))) n (before ++ line :: after) =
      renumberReading (shiftFrom (n + before.length)) (readLines policy s n (before ++ after)) := by
  induction before generalizing s n with
  | nil =>
      rw [List.nil_append, List.nil_append, readLines_cons_ignorable hline]
      exact readLines_shift policy (Nat.le_refl n) s after
  | cons l before ih =>
      have hlength : n + (l :: before).length = n + 1 + before.length := by
        rw [List.length_cons]
        omega
      have hlt : n < n + 1 + before.length := by omega
      rw [hlength]
      exact readLines_cons_renumber (shiftFrom_of_lt hlt) (fun s => ih s (n + 1)) s l

/-- A description that has a line to pass over in addition is read as the one without it, and only the
lines after it have other numbers. -/
theorem read_insert (policy : Policy) {text text' line : List Char} {before after : List (List Char)}
    (htext : Text.lines text = before ++ after) (htext' : Text.lines text' = before ++ line :: after)
    (hline : Ignorable line) (hblank : ¬ ∀ c ∈ text, Text.isBlank c) :
    read policy text' = renumberReading (shiftFrom (before.length + 1)) (read policy text) := by
  have hblank' : ¬ ∀ c ∈ text', Text.isBlank c := by
    rw [Text.forall_isBlank_iff_forall_lines, htext] at hblank
    rw [Text.forall_isBlank_iff_forall_lines, htext']
    intro h
    have hsub : (before ++ after).Sublist (before ++ line :: after) :=
      (List.sublist_cons_self line after).append_left before
    exact hblank fun l hl => h l (hsub.subset hl)
  rw [read_of_not_isBlank hblank, read_of_not_isBlank hblank', htext, htext', Nat.add_comm]
  exact readLines_insert hline policy {} 1 before after

/-- What looks like a field of its own is none if its letter is written large. -/
theorem read_insert_between_fields :
    let text := "v=0\nm=audio".toList
    let text' := "v=0\r\n A=inactive\nm=audio".toList
    Text.lines text = ["v=0".toList] ++ ["m=audio".toList] ∧
      Text.lines text' = ["v=0".toList] ++ " A=inactive".toList :: ["m=audio".toList] ∧
      Ignorable " A=inactive".toList ∧ (¬ ∀ c ∈ text, Text.isBlank c) ∧
      read {} text = ([], .error ⟨fault .media "audio".toList, some 2⟩) ∧
      read {} text' = renumberReading (shiftFrom 2) (read {} text) := by
  intro text text'
  have htext : Text.lines text = ["v=0".toList] ++ ["m=audio".toList] := by decide
  have htext' : Text.lines text' = ["v=0".toList] ++ " A=inactive".toList :: ["m=audio".toList] := by
    decide
  have hline : Ignorable " A=inactive".toList :=
    .other (show _ = ['A'] ++ '=' :: "inactive".toList by decide) (by decide) (by simp [fieldLetters])
  have hblank : ¬ ∀ c ∈ text, Text.isBlank c := fun h => absurd (h 'v' (by decide)) (by decide)
  exact ⟨htext, htext', hline, hblank, rfl, read_insert {} htext htext' hline hblank⟩

end Session

end Sdp
