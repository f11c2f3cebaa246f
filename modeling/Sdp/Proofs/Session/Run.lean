import Sdp.Session.Parser

/-!
# Runs over the lines of a description

Main statements: `readLines_ok` and `readLines_error`. A run that gives a session has gone through
all lines; any other run has ended at the first line that is refused.
-/

namespace Sdp

open Session (Event)

/-- The event of something that was skipped. -/
def Warning.event (w : Warning) : Event :=
  .skipped w.line w.fault

/-- All that is skipped on lines from number `n` on, each read for itself. -/
def skippedFrom (mode : Mode) (n : Nat) : List (List Char) → List Warning
  | [] => []
  | line :: rest => (LineReading.ofLine mode line).skipped.map (Warning.mk n) ++ skippedFrom mode (n + 1) rest

theorem map_event_skippedFrom_cons (mode : Mode) (n : Nat) (line : List Char) (rest : List (List Char)) :
    (skippedFrom mode n (line :: rest)).map Warning.event =
      (LineReading.ofLine mode line).skipped.map (Event.skipped n) ++
        (skippedFrom mode (n + 1) rest).map Warning.event := by
  simp only [skippedFrom, List.map_append, List.map_map]
  rfl

theorem skippedFrom_append (mode : Mode) (n : Nat) (before after : List (List Char)) :
    skippedFrom mode n (before ++ after) =
      skippedFrom mode n before ++ skippedFrom mode (n + before.length) after := by
  induction before generalizing n with
  | nil => rfl
  | cons l before ih =>
      simp only [List.cons_append, skippedFrom, ih, List.append_assoc, List.length_cons]
      rw [Nat.add_right_comm, Nat.add_assoc]

theorem skippedFrom_concat (mode : Mode) (n : Nat) (before : List (List Char)) (line : List Char) :
    skippedFrom mode n (before ++ [line]) = skippedFrom mode n before ++
      (LineReading.ofLine mode line).skipped.map (Warning.mk (n + before.length)) := by
  rw [skippedFrom_append, skippedFrom, skippedFrom, List.append_nil]

namespace Session

/-! ## One step -/

@[simp]
theorem warn_nil (s : Session) (limit n : Nat) : s.warn limit n [] = s := by
  simp [warn]

@[simp]
theorem warnings_add (s : Session) (item : Item) : (s.add item).warnings = s.warnings := by
  cases item with
  | connection address => cases hm : s.media.isEmpty <;> simp [add, hm]
  | attr a => cases hm : s.media.isEmpty <;> simp [add, hm]
  | _ => rfl

/-- Two steps that record as far as there is room are one such step. -/
theorem take_append_take {α : Type} (ws us vs : List α) (limit : Nat) :
    ws ++ us.take (limit - ws.length) ++ vs.take (limit - (ws ++ us.take (limit - ws.length)).length) =
      ws ++ (us ++ vs).take (limit - ws.length) := by
  have hroom : limit - (ws ++ us.take (limit - ws.length)).length = limit - ws.length - us.length := by
    rw [List.length_append, List.length_take]
    omega
  rw [hroom, List.append_assoc, List.take_append]

/-! ## Whole runs -/

variable {policy : Policy} {s s' : Session} {n : Nat} {ls : List (List Char)} {events : List Event}

/-- What a line does to a run: it ends it, or the run goes on with the session that the line adds to. -/
theorem readLines_cons_cases (policy : Policy) (s : Session) (n : Nat) (line : List Char)
    (rest : List (List Char)) :
    (∃ e, (LineReading.ofLine policy.mode line).item = .error e ∧
      readLines policy s n (line :: rest) =
        ((LineReading.ofLine policy.mode line).skipped.map (Event.skipped n) ++ rejection n e,
          .error ⟨e, some n⟩)) ∨
    ∃ item events result, (LineReading.ofLine policy.mode line).item = .ok item ∧
      readLines policy ((s.warn policy.maxWarnings n (LineReading.ofLine policy.mode line).skipped).add item)
        (n + 1) rest = (events, result) ∧
      readLines policy s n (line :: rest) =
        ((LineReading.ofLine policy.mode line).skipped.map (Event.skipped n) ++ events, result) := by
  cases hitem : (LineReading.ofLine policy.mode line).item with
  | error e => exact Or.inl ⟨e, rfl, by simp only [readLines, hitem]⟩
  | ok item => exact Or.inr ⟨item, _, _, rfl, rfl, by simp only [readLines, hitem]⟩

/-- No line is refused, and all that is skipped is told and recorded as far as there is room. -/
theorem readLines_ok (h : readLines policy s n ls = (events, .ok s')) :
    (∀ line ∈ ls, ∃ item, (LineReading.ofLine policy.mode line).item = .ok item) ∧
    events = (skippedFrom policy.mode n ls).map Warning.event ++ [s'.summary] ∧
    s'.warnings =
      s.warnings ++ (skippedFrom policy.mode n ls).take (policy.maxWarnings - s.warnings.length) := by
  induction ls generalizing s n events with
  | nil =>
      obtain ⟨rfl, hs⟩ := Prod.mk.inj h
      obtain rfl : s = s' := Except.ok.inj hs
      simp [skippedFrom]
  | cons line rest ih =>
      rcases readLines_cons_cases policy s n line rest with
        ⟨e, -, hline⟩ | ⟨item, tail, result, hitem, hrest, hline⟩
      · cases (Prod.mk.inj (hline.symm.trans h)).2
      · obtain ⟨rfl, rfl⟩ := Prod.mk.inj (hline.symm.trans h)
        obtain ⟨hitems, hevents, hwarnings⟩ := ih hrest
        refine ⟨List.forall_mem_cons.mpr ⟨⟨item, hitem⟩, hitems⟩, ?_, ?_⟩
        · rw [hevents, map_event_skippedFrom_cons, List.append_assoc]
        · rw [hwarnings, warnings_add, warn, take_append_take]
          rfl

/-- The lines before the one that is refused are not, and nothing is told from there on but that. -/
theorem readLines_error {f : Failure} (h : readLines policy s n ls = (events, .error f)) :
    ∃ before line after e, ls = before ++ line :: after ∧
      (∀ l ∈ before, ∃ item, (LineReading.ofLine policy.mode l).item = .ok item) ∧
      (LineReading.ofLine policy.mode line).item = .error e ∧
      f = ⟨e, some (n + before.length)⟩ ∧
      events = (skippedFrom policy.mode n (before ++ [line])).map Warning.event ++
        rejection (n + before.length) e := by
  induction ls generalizing s n events with
  | nil => cases (Prod.mk.inj h).2
  | cons line rest ih =>
      rcases readLines_cons_cases policy s n line rest with
        ⟨e, hitem, hline⟩ | ⟨item, tail, result, hitem, hrest, hline⟩
      · obtain ⟨rfl, hf⟩ := Prod.mk.inj (hline.symm.trans h)
        refine ⟨[], line, rest, e, rfl, nofun, hitem, (Except.error.inj hf).symm, ?_⟩
        rw [List.nil_append, map_event_skippedFrom_cons]
        simp [skippedFrom]
      · obtain ⟨rfl, rfl⟩ := Prod.mk.inj (hline.symm.trans h)
        obtain ⟨before, l, after, e, rfl, hbefore, hl, rfl, hevents⟩ := ih hrest
        have hnumber : n + (line :: before).length = n + 1 + before.length := by
          rw [List.length_cons, Nat.add_right_comm, Nat.add_assoc]
        have hitems := List.forall_mem_cons.mpr ⟨⟨item, hitem⟩, hbefore⟩
        refine ⟨line :: before, l, after, e, rfl, hitems, hl, ?_, ?_⟩
        · rw [hnumber]
        · rw [hevents, hnumber, List.cons_append, map_event_skippedFrom_cons, List.append_assoc]

/-- An empty line at the end says nothing. -/
theorem readLines_concat_nil (policy : Policy) (s : Session) (n : Nat) (ls : List (List Char)) :
    readLines policy s n (ls ++ [[]]) = readLines policy s n ls := by
  induction ls generalizing s n with
  | nil =>
      have hline : LineReading.ofLine policy.mode [] = { item := .ok .nothing } := rfl
      simp [readLines, hline, add]
  | cons line ls ih => simp only [List.cons_append, readLines, ih]

end Session

end Sdp
