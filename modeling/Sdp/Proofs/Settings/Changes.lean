import Sdp.Proofs.Settings.Precedence
import Sdp.Settings.Valid

/-!
# Settings stay valid

Main statement: `Settings.after_of_load`, on what holds of loaded settings after any steps, and on what
one more step does to them.
-/

namespace Sdp

/-! ## Rules -/

theorem Mode.mem_all (m : Mode) : m ∈ all := by
  cases m <;> decide

theorem Log.Level.mem_all (l : Level) : l ∈ all := by
  cases l <;> decide

theorem Log.Format.mem_all (f : Format) : f ∈ all := by
  cases f <;> decide

theorem Log.Output.mem_all (o : Output) : o ∈ all := by
  cases o <;> decide

namespace Setting

theorem checkWarnings_int {n : Nat} (h : n ≤ Policy.warningLimit) : Settings.checkWarnings (.int n) = .ok n := by
  have hnegative : ¬ (n : Int) < 0 := by omega
  have hlarge : ¬ (Policy.warningLimit : Int) < n := by omega
  simp [Settings.checkWarnings, Settings.checkInt, Except.bind, hnegative, hlarge]

theorem le_of_checkWarnings {v : Value} {n : Nat} (h : Settings.checkWarnings v = .ok n) :
    n ≤ Policy.warningLimit := by
  obtain ⟨i, -, h⟩ := bind_eq_ok_iff.mp h
  split at h
  · cases h
  · next hnegative =>
      split at h
      · cases h
      · next hlarge =>
          cases h
          omega

/-- What a setting may be is what its rule makes of some value. -/
theorem allows_iff_exists_check {x : Setting} {a : x.Meaning} : x.Allows a ↔ ∃ v, x.check v = .ok a := by
  constructor
  · intro h
    cases x with
    | mode => exact ⟨.text (Mode.word a), by cases a <;> rfl⟩
    | maxWarnings => exact ⟨.int (a : Nat), checkWarnings_int h⟩
    | level => exact ⟨.text (Log.Level.keyword a), by cases a <;> rfl⟩
    | format => exact ⟨.text (Log.Format.word a), by cases a <;> rfl⟩
    | output => exact ⟨.text (Log.Output.word a), by cases a <;> rfl⟩
    | filePath =>
        cases a with
        | none => exact ⟨.null, rfl⟩
        | some path => exact ⟨.text path, rfl⟩
  · rintro ⟨v, hv⟩
    cases x with
    | mode => exact Mode.mem_all a
    | maxWarnings => exact le_of_checkWarnings hv
    | level => exact Log.Level.mem_all a
    | format => exact Log.Format.mem_all a
    | output => exact Log.Output.mem_all a
    | filePath => trivial

theorem allows_default (x : Setting) : x.Allows x.default := by
  cases x <;> decide

theorem Takes.allows {x : Setting} {raw : Option Value} {a : x.Meaning} (h : x.Takes raw a) : x.Allows a := by
  cases raw with
  | none =>
      obtain rfl : a = x.default := h
      exact allows_default x
  | some v => exact allows_iff_exists_check.mpr ⟨v, h⟩

end Setting

namespace Settings

variable {s s' : Settings} {name : String} {v : Assigned}

/-! ## Sections -/

theorem parser_eq_of_get (h : ∀ x : Setting, x.home = "parser" → s'.get x = s.get x) :
    s'.parser = s.parser := by
  have hmode : s'.parser.mode = s.parser.mode := h .mode rfl
  have hwarnings : s'.parser.maxWarnings = s.parser.maxWarnings := h .maxWarnings rfl
  calc s'.parser = ⟨s'.parser.mode, s'.parser.maxWarnings⟩ := rfl
    _ = s.parser := by rw [hmode, hwarnings]

theorem logging_eq_of_get (h : ∀ x : Setting, x.home = "logging" → s'.get x = s.get x) :
    s'.logging = s.logging := by
  have hlevel : s'.logging.level = s.logging.level := h .level rfl
  have hformat : s'.logging.format = s.logging.format := h .format rfl
  have houtput : s'.logging.output = s.logging.output := h .output rfl
  have hpath : s'.logging.filePath = s.logging.filePath := h .filePath rfl
  calc s'.logging = ⟨s'.logging.level, s'.logging.format, s'.logging.output, s'.logging.filePath⟩ := rfl
    _ = s.logging := by rw [hlevel, hformat, houtput, hpath]

theorem replaced_parser_iff {fields : Fields} :
    s.Replaced "parser" fields s' ↔ readPolicy fields = .ok s'.parser ∧ s'.logging = s.logging := by
  rw [readPolicy_eq_ok_iff]
  constructor
  · rintro ⟨-, h⟩
    refine ⟨⟨(h .mode).1 rfl, (h .maxWarnings).1 rfl⟩, logging_eq_of_get fun x hx => (h x).2 ?_⟩
    rw [hx]
    decide
  · rintro ⟨⟨hmode, hwarnings⟩, hlogging⟩
    refine ⟨by decide, fun x => ?_⟩
    cases x with
    | mode => exact ⟨fun _ => hmode, fun hhome => absurd rfl hhome⟩
    | maxWarnings => exact ⟨fun _ => hwarnings, fun hhome => absurd rfl hhome⟩
    | _ => exact ⟨fun hhome => absurd hhome (by decide), fun _ => by rw [get, get, hlogging]⟩

theorem replaced_logging_iff {fields : Fields} :
    s.Replaced "logging" fields s' ↔ readLogging fields = .ok s'.logging ∧ s'.parser = s.parser := by
  rw [readLogging_eq_ok_iff]
  constructor
  · rintro ⟨-, h⟩
    refine ⟨⟨(h .level).1 rfl, (h .format).1 rfl, (h .output).1 rfl, (h .filePath).1 rfl⟩,
      parser_eq_of_get fun x hx => (h x).2 ?_⟩
    rw [hx]
    decide
  · rintro ⟨⟨hlevel, hformat, houtput, hpath⟩, hparser⟩
    refine ⟨by decide, fun x => ?_⟩
    cases x with
    | level => exact ⟨fun _ => hlevel, fun hhome => absurd rfl hhome⟩
    | format => exact ⟨fun _ => hformat, fun hhome => absurd rfl hhome⟩
    | output => exact ⟨fun _ => houtput, fun hhome => absurd rfl hhome⟩
    | filePath => exact ⟨fun _ => hpath, fun hhome => absurd rfl hhome⟩
    | _ => exact ⟨fun hhome => absurd hhome (by decide), fun _ => by rw [get, get, hparser]⟩

/-! ## One step -/

theorem ofRecord_eq_ok_iff {α : Type} {read : Fields → Validated α} {v : Value} {a : α} :
    ofRecord read v = .ok a ↔ ∃ fields, v = .record fields ∧ read fields = .ok a := by
  cases v <;> simp [ofRecord]

theorem map_eq_ok_iff {ε α β : Type} {f : α → β} {r : Except ε α} {b : β} :
    r.map f = .ok b ↔ ∃ a, r = .ok a ∧ f a = b := by
  cases r <;> simp [Except.map]

theorem Assigned.readPolicy_eq_ok_iff {p : Policy} : v.readPolicy = .ok p ↔
    (∃ fields, v = .data (.record fields) ∧ Settings.readPolicy fields = .ok p) ∨ v = .policy p := by
  cases v with
  | data v => simp [readPolicy, ofRecord_eq_ok_iff]
  | policy q => simp [readPolicy]
  | logging l => simp [readPolicy]

theorem Assigned.readLogging_eq_ok_iff {l : LogSettings} : v.readLogging = .ok l ↔
    (∃ fields, v = .data (.record fields) ∧ Settings.readLogging fields = .ok l) ∨ v = .logging l := by
  cases v with
  | data v => simp [readLogging, ofRecord_eq_ok_iff]
  | policy p => simp [readLogging]
  | logging l => simp [readLogging]

theorem assign_parser_eq_ok_iff : s.assign "parser" v = .ok s' ↔ s.Accepts "parser" v s' := by
  rw [assign, if_pos rfl, map_eq_ok_iff]
  simp only [under_eq_ok_iff, Assigned.readPolicy_eq_ok_iff]
  constructor
  · rintro ⟨p, ⟨fields, rfl, hp⟩ | rfl, rfl⟩
    · exact .data (replaced_parser_iff.mpr ⟨hp, rfl⟩)
    · exact .policy p
  · intro hs
    generalize hname : "parser" = name at hs
    rcases hs with hreplaced | p | _ | ⟨-, hprivate⟩
    · subst hname
      obtain ⟨hp, hlogging⟩ := replaced_parser_iff.mp hreplaced
      exact ⟨s'.parser, Or.inl ⟨_, rfl, hp⟩, by rw [← hlogging]⟩
    · exact ⟨p, Or.inr rfl, rfl⟩
    · exact absurd hname (by decide)
    · exact absurd (hname ▸ hprivate) (by decide)

theorem assign_logging_eq_ok_iff : s.assign "logging" v = .ok s' ↔ s.Accepts "logging" v s' := by
  rw [assign, if_neg (by decide), if_pos rfl, map_eq_ok_iff]
  simp only [under_eq_ok_iff, Assigned.readLogging_eq_ok_iff]
  constructor
  · rintro ⟨l, ⟨fields, rfl, hl⟩ | rfl, rfl⟩
    · exact .data (replaced_logging_iff.mpr ⟨hl, rfl⟩)
    · exact .logging l
  · intro hs
    generalize hname : "logging" = name at hs
    rcases hs with hreplaced | _ | l | ⟨-, hprivate⟩
    · subst hname
      obtain ⟨hl, hparser⟩ := replaced_logging_iff.mp hreplaced
      exact ⟨s'.logging, Or.inl ⟨_, rfl, hl⟩, by rw [← hparser]⟩
    · exact absurd hname (by decide)
    · exact ⟨l, Or.inr rfl, rfl⟩
    · exact absurd (hname ▸ hprivate) (by decide)

theorem assign_of_not_mem (h : name ∉ sectionNames) (s : Settings) (v : Assigned) :
    s.assign name v = if isPrivate name then .ok s else .error [⟨[name], .unknownSection⟩] := by
  simp only [sectionNames, List.mem_cons, List.not_mem_nil, or_false, not_or] at h
  rw [assign, if_neg h.1, if_neg h.2]

/-- An assignment to a section is accepted just if it is one of a record, and the rules of all settings there
take what the record has for them, or one of such a section. Elsewhere just private names can be assigned to. -/
theorem assign_eq_ok_iff : s.assign name v = .ok s' ↔ s.Accepts name v s' := by
  by_cases hname : name ∈ sectionNames
  · simp only [sectionNames, List.mem_cons, List.not_mem_nil, or_false] at hname
    rcases hname with rfl | rfl
    · exact assign_parser_eq_ok_iff
    · exact assign_logging_eq_ok_iff
  · rw [assign_of_not_mem hname]
    constructor
    · intro h
      split at h
      · next hprivate =>
          cases h
          exact .note v hprivate
      · cases h
    · rintro (⟨hsection, -⟩ | p | l | ⟨-, hprivate⟩)
      · exact absurd hsection hname
      · exact absurd (by decide) hname
      · exact absurd (by decide) hname
      · rw [if_pos hprivate]

theorem after_assign_of_ok (h : s.assign name v = .ok s') : s.after (.assign name v) = s' := by
  rw [after, h]
  rfl

theorem after_assign_of_error {issues : List Issue} (h : s.assign name v = .error issues) :
    s.after (.assign name v) = s := by
  rw [after, h]
  rfl

theorem overridden?_eq_none_iff {α : Type} {all : List α} {word : α → String} {current : α}
    {given : Option String} :
    overridden? all word current given = none ↔ ∃ w, given = some w ∧ w ≠ "" ∧ ∀ a ∈ all, word a ≠ w := by
  cases given with
  | none => simp [overridden?]
  | some w =>
      by_cases hw : w = ""
      · simp [overridden?, hw]
      · simp [overridden?, hw]

/-- An override is over at the first word that is unknown. -/
theorem after_override_cases (s : Settings) (mode level : Option String) :
    s.after (.override mode level) = s ∨
    ∃ m, s.after (.override mode level) = { s with parser := { s.parser with mode := m } } ∨
      ∃ l, overridden? Log.Level.all Log.Level.keyword s.logging.level level = some l ∧
        s.after (.override mode level) =
          { parser := { s.parser with mode := m }, logging := { s.logging with level := l } } := by
  cases hmode : overridden? Mode.all Mode.word s.parser.mode mode with
  | none => exact Or.inl (by simp only [after, overrideWords, hmode])
  | some m =>
      refine Or.inr ⟨m, ?_⟩
      cases hlevel : overridden? Log.Level.all Log.Level.keyword s.logging.level level with
      | none => exact Or.inl (by simp only [after, overrideWords, hmode, hlevel])
      | some l => exact Or.inr ⟨l, rfl, by simp only [after, overrideWords, hmode, hlevel]⟩

/-- No setting but the mode changes, and the level only if its word is known. -/
theorem get_after_override {x : Setting} {mode level : Option String} (hmode : x ≠ .mode)
    (hlevel : x ≠ .level ∨ ∃ w, level = some w ∧ w ≠ "" ∧ ∀ l ∈ Log.Level.all, l.keyword ≠ w)
    (s : Settings) : (s.after (.override mode level)).get x = s.get x := by
  rcases after_override_cases s mode level with h | ⟨m, h | ⟨l, hl, h⟩⟩
  · rw [h]
  · rw [h]
    cases x <;> first | contradiction | rfl
  · rcases hlevel with hlevel | hunknown
    · rw [h]
      cases x <;> first | contradiction | rfl
    · cases (overridden?_eq_none_iff.mpr hunknown).symm.trans hl

/-! ## Any steps -/

theorem Accepts.valid (h : s.Valid) (hv : v.Sound) (hs : s.Accepts name v s') : s'.Valid := by
  cases hs with
  | data hreplaced =>
      intro x
      by_cases hx : x.home = name
      · exact ((hreplaced.2 x).1 hx).allows
      · rw [(hreplaced.2 x).2 hx]
        exact h x
  | policy p =>
      intro x
      cases x with
      | mode => exact hv .mode
      | maxWarnings => exact hv .maxWarnings
      | level => exact h .level
      | format => exact h .format
      | output => exact h .output
      | filePath => exact h .filePath
  | logging l =>
      intro x
      cases x with
      | mode => exact h .mode
      | maxWarnings => exact h .maxWarnings
      | level => exact hv .level
      | format => exact hv .format
      | output => exact hv .output
      | filePath => exact hv .filePath
  | note => exact h

theorem Valid.after (h : s.Valid) {change : Change} (hchange : change.Sound) : (s.after change).Valid := by
  cases change with
  | assign name v =>
      cases hassign : s.assign name v with
      | error issues =>
          rw [after_assign_of_error hassign]
          exact h
      | ok s' =>
          rw [after_assign_of_ok hassign]
          exact (assign_eq_ok_iff.mp hassign).valid h hchange.2
  | override mode level =>
      intro x
      by_cases hx : x = .mode ∨ x = .level
      · rcases hx with rfl | rfl
        · exact Mode.mem_all _
        · exact Log.Level.mem_all _
      · obtain ⟨hmode, hlevel⟩ := not_or.mp hx
        rw [get_after_override hmode (Or.inl hlevel)]
        exact h x

theorem Valid.foldl_after (h : s.Valid) {changes : List Change} (hchanges : ∀ c ∈ changes, c.Sound) :
    (changes.foldl Settings.after s).Valid := by
  induction changes generalizing s with
  | nil => exact h
  | cons change changes ih =>
      obtain ⟨hchange, hrest⟩ := List.forall_mem_cons.mp hchanges
      exact ih (h.after hchange) hrest

theorem valid_of_load {markup : Markup} {path : String} {entry : Entry} {env : Environment}
    (h : (load markup path entry env).2 = .ok s) : s.Valid := by
  cases hsections : readSections markup path entry with
  | error e => simp [load, hsections] at h
  | ok d =>
      cases hmerged : ofSections (override d env).fields with
      | error issues => simp [load, hsections, hmerged] at h
      | ok s' =>
          obtain rfl : s' = s := by simpa [load, hsections, hmerged] using h
          exact fun x => ((ofSections_eq_ok_iff.mp hmerged).2 x).allows

/-- Settings that have been loaded are valid after any steps, as long as what is assigned is data or a valid
section, and to no name of the runtime. One more step that is a refused assignment leaves all as it is, and an
accepted one replaces its section, or changes nothing if its name is private; an override leaves all but the
mode and the level, and if its word for the level is unknown, all but the mode. -/
theorem after_of_load {markup : Markup} {path : String} {entry : Entry} {env : Environment}
    (h : (load markup path entry env).2 = .ok s) {changes : List Change} (hchanges : ∀ c ∈ changes, c.Sound) :
    let now := changes.foldl after s
    now.Valid ∧
    (∀ name v, ¬ IsReserved name →
      (∀ next, now.assign name v = .ok next ↔ now.Accepts name v next) ∧
      (∀ next, now.assign name v = .ok next → now.after (.assign name v) = next) ∧
      ∀ issues, now.assign name v = .error issues → now.after (.assign name v) = now) ∧
    ∀ mode level (x : Setting), x ≠ .mode →
      (x ≠ .level ∨ ∃ w, level = some w ∧ w ≠ "" ∧ ∀ l ∈ Log.Level.all, l.keyword ≠ w) →
        (now.after (.override mode level)).get x = now.get x := by
  intro now
  refine ⟨(valid_of_load h).foldl_after hchanges, fun name v _ => ⟨fun next => assign_eq_ok_iff,
    fun next => after_assign_of_ok, fun issues => after_assign_of_error⟩, ?_⟩
  exact fun mode level x hmode hlevel => get_after_override hmode hlevel now

/-- A policy with more warnings than may be asked for is taken as it is, and a note is no section. -/
theorem not_valid_of_any :
    let Loads (s : Settings) : Prop := ∃ markup path entry env, (load markup path entry env).2 = .ok s
    (¬ ∀ s, Loads s → ∀ changes : List Change, (changes.foldl after s).Valid) ∧
    ¬ ∀ s, Loads s → ∀ name v, name ∉ sectionNames → ∃ issues, s.assign name v = .error issues := by
  intro Loads
  have hloads : Loads {} := ⟨Yaml.read, "config.yaml", .file "".toUTF8, [], rfl⟩
  refine ⟨fun hvalid => ?_, fun hrefused => ?_⟩
  · have hwarnings := hvalid {} hloads [.assign "parser" (.policy { maxWarnings := 20000 })] .maxWarnings
    exact absurd (show 20000 ≤ Policy.warningLimit from hwarnings) (by decide)
  · obtain ⟨issues, hissues⟩ := hrefused {} hloads "_x" (.data (.int 1)) (by decide)
    have haccepted : assign {} "_x" (.data (.int 1)) = .ok {} := rfl
    cases haccepted.symm.trans hissues

/-- An override with an unknown level has changed the mode, and an assignment that is refused after it has
changed nothing, nor has a note. -/
theorem after_of_load_halfway :
    let entry := Entry.file "parser:\n  mode: strict\n  max_warnings: 7\n".toUTF8
    let s : Settings := { parser := { mode := .strict, maxWarnings := 7 } }
    let changes : List Change := [.override (some "lenient") (some "TRACE"),
      .assign "parser" (.data (.record [("max_warnings", .int 10001)])), .assign "_seen" (.data .null),
      .assign "logging" (.logging { level := .error })]
    let now : Settings := { parser := { mode := .lenient, maxWarnings := 7 }, logging := { level := .error } }
    (load Yaml.read "config.yaml" entry []).2 = .ok s ∧ (∀ c ∈ changes, c.Sound) ∧
      changes.foldl after s = now ∧ now.Valid ∧
      ("TRACE" ≠ "" ∧ ∀ l ∈ Log.Level.all, l.keyword ≠ "TRACE") ∧ ¬ IsReserved "parser" ∧
      now.Accepts "parser" (.data (.record [("mode", .text "strict")])) { now with parser := { mode := .strict } } := by
  intro entry s changes now
  have hload : (load Yaml.read "config.yaml" entry []).2 = .ok s := rfl
  have hlogging : Valid { logging := { level := .error } } := by
    intro x
    cases x <;> decide
  have hfree : ¬ IsReserved "parser" := by
    unfold IsReserved
    decide
  have hchanges : ∀ c ∈ changes, c.Sound := by
    simp only [changes, List.forall_mem_cons]
    exact ⟨trivial, ⟨hfree, trivial⟩, ⟨by unfold IsReserved; decide, trivial⟩,
      ⟨by unfold IsReserved; decide, hlogging⟩, List.forall_mem_nil _⟩
  have hnow : changes.foldl after s = now := rfl
  have hunknown : "TRACE" ≠ "" ∧ ∀ l ∈ Log.Level.all, l.keyword ≠ "TRACE" := by decide
  have hassign : now.assign "parser" (.data (.record [("mode", .text "strict")])) =
      .ok { now with parser := { mode := .strict } } := rfl
  obtain ⟨hvalid, hsteps, -⟩ := after_of_load hload hchanges
  exact ⟨hload, hchanges, hnow, hvalid, hunknown, hfree, ((hsteps _ _ hfree).1 _).mp hassign⟩

end Settings

end Sdp
