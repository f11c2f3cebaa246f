import Sdp.Command.Run
import Sdp.Proofs.Attribute.Outcome
import Sdp.Proofs.Settings.Override

/-!
# Which value a setting takes

The command line comes before the environment, the environment before the file, and the file before
the default. Main statement: `load_precedence`.
-/

namespace Sdp

/-- The value that the command line asks for, if it asks for one. -/
def Setting.asked? (o : Command.Options) : (x : Setting) → Option x.Meaning
  | .mode => o.mode
  | .level => o.level
  | _ => none

namespace Settings

variable {sections : Fields} {name : String} {env : Environment}

/-! ## Sections -/

theorem not_misshapen_of_none (h : sections.get? name = none) : ¬ Misshapen sections name := by
  rintro ⟨v, hv, -⟩
  cases h.symm.trans hv

theorem not_misshapen_of_record {fields : Fields} (h : sections.get? name = some (.record fields)) :
    ¬ Misshapen sections name := by
  rintro ⟨v, hv, hrecord⟩
  exact hrecord fields (Option.some.inj (hv.symm.trans h))

section Section

variable {α : Type} {default a : α} {read : Fields → Validated α}

theorem under_eq_ok_iff {v : Validated α} : under name v = .ok a ↔ v = .ok a := by
  cases v with
  | ok b => simp [under, Except.mapError]
  | error issues => simp [under, Except.mapError]

theorem readSection_of_misshapen (h : Misshapen sections name) :
    readSection sections name default read = .error [⟨[name], .notRecord⟩] := by
  obtain ⟨v, hv, hrecord⟩ := h
  rw [readSection, hv]
  cases v with
  | record fields => exact absurd rfl (hrecord fields)
  | _ => rfl

theorem readSection_of_not_misshapen (h : ¬ Misshapen sections name) (hdefault : read [] = .ok default) :
    readSection sections name default read = under name (read (fieldsOf sections name)) := by
  unfold readSection fieldsOf
  cases hsection : sections.get? name with
  | none => simp only [hdefault]; rfl
  | some v =>
      cases v with
      | record fields => rfl
      | _ => exact absurd ⟨_, hsection, nofun⟩ h

theorem readSection_eq_ok_iff (hdefault : read [] = .ok default) :
    readSection sections name default read = .ok a ↔
      ¬ Misshapen sections name ∧ read (fieldsOf sections name) = .ok a := by
  by_cases h : Misshapen sections name
  · rw [readSection_of_misshapen h]
    exact iff_of_false nofun fun hok => hok.1 h
  · rw [readSection_of_not_misshapen h hdefault, under_eq_ok_iff]
    exact (and_iff_right h).symm

theorem readSection_congr {sections' : Fields} (hdefault : read [] = .ok default)
    (hshape : Misshapen sections' name ↔ Misshapen sections name)
    (hread : ¬ Misshapen sections name → read (fieldsOf sections' name) = read (fieldsOf sections name)) :
    readSection sections' name default read = readSection sections name default read := by
  by_cases h : Misshapen sections name
  · rw [readSection_of_misshapen h, readSection_of_misshapen (hshape.mpr h)]
  · rw [readSection_of_not_misshapen h hdefault, readSection_of_not_misshapen (mt hshape.mp h) hdefault,
      hread h]

end Section

/-! ## Rules -/

theorem setting_eq_ok_iff {fields : Fields} {x : Setting} {a : x.Meaning} :
    setting fields x.key x.default x.check = .ok a ↔ x.Takes (fields.get? x.key) a := by
  unfold setting Setting.Takes
  cases fields.get? x.key with
  | none => simp [eq_comm]
  | some v => rfl

theorem readPolicy_eq_ok_iff {fields : Fields} {p : Policy} :
    readPolicy fields = .ok p ↔
      Setting.mode.Takes (fields.get? Setting.mode.key) p.mode ∧
      Setting.maxWarnings.Takes (fields.get? Setting.maxWarnings.key) p.maxWarnings := by
  rw [← setting_eq_ok_iff, ← setting_eq_ok_iff]
  constructor
  · intro h
    unfold readPolicy at h
    dsimp only at h
    split at h
    · next hmode hwarnings =>
        cases h
        exact ⟨hmode, hwarnings⟩
    · cases h
  · rintro ⟨hmode, hwarnings⟩
    have hmode' : setting fields "mode" .lenient (checkWord Mode.all Mode.word) = .ok p.mode := hmode
    have hwarnings' : setting fields "max_warnings" 100 checkWarnings = .ok p.maxWarnings := hwarnings
    simp only [readPolicy, hmode', hwarnings']

theorem readLogging_eq_ok_iff {fields : Fields} {l : LogSettings} :
    readLogging fields = .ok l ↔
      Setting.level.Takes (fields.get? Setting.level.key) l.level ∧
      Setting.format.Takes (fields.get? Setting.format.key) l.format ∧
      Setting.output.Takes (fields.get? Setting.output.key) l.output ∧
      Setting.filePath.Takes (fields.get? Setting.filePath.key) l.filePath := by
  rw [← setting_eq_ok_iff, ← setting_eq_ok_iff, ← setting_eq_ok_iff, ← setting_eq_ok_iff]
  constructor
  · intro h
    unfold readLogging at h
    dsimp only at h
    split at h
    · next hlevel hformat houtput hpath =>
        cases h
        exact ⟨hlevel, hformat, houtput, hpath⟩
    · cases h
  · rintro ⟨hlevel, hformat, houtput, hpath⟩
    have hlevel' : setting fields "level" .info (checkWord Log.Level.all Log.Level.keyword) = .ok l.level :=
      hlevel
    have hformat' : setting fields "format" .json (checkWord Log.Format.all Log.Format.word) = .ok l.format :=
      hformat
    have houtput' : setting fields "output" .stdout checkOutput = .ok l.output := houtput
    have hpath' : setting fields "file_path" none checkPath = .ok l.filePath := hpath
    simp only [readLogging, hlevel', hformat', houtput', hpath']

theorem readPolicy_congr {fields fields' : Fields}
    (h : ∀ x : Setting, x.home = "parser" → fields'.get? x.key = fields.get? x.key) :
    readPolicy fields' = readPolicy fields := by
  have hmode := h .mode rfl
  have hwarnings := h .maxWarnings rfl
  simp only [Setting.key] at hmode hwarnings
  simp only [readPolicy, setting, hmode, hwarnings]

theorem readLogging_congr {fields fields' : Fields}
    (h : ∀ x : Setting, x.home = "logging" → fields'.get? x.key = fields.get? x.key) :
    readLogging fields' = readLogging fields := by
  have hlevel := h .level rfl
  have hformat := h .format rfl
  have houtput := h .output rfl
  have hpath := h .filePath rfl
  simp only [Setting.key] at hlevel hformat houtput hpath
  simp only [readLogging, setting, hlevel, hformat, houtput, hpath]

/-! ## All settings -/

theorem forall_sectionNames {P : String → Prop} :
    (∀ name ∈ sectionNames, P name) ↔ P "parser" ∧ P "logging" := by
  simp [sectionNames]

/-- Settings are read just if both sections are records, and then each by its rule. -/
theorem ofSections_eq_ok_iff {s : Settings} :
    ofSections sections = .ok s ↔ (∀ name ∈ sectionNames, ¬ Misshapen sections name) ∧
      ∀ x : Setting, x.Takes ((fieldsOf sections x.home).get? x.key) (s.get x) := by
  have hboth : ofSections sections = .ok s ↔
      readSection sections "parser" {} readPolicy = .ok s.parser ∧
      readSection sections "logging" {} readLogging = .ok s.logging := by
    unfold ofSections
    cases readSection sections "parser" {} readPolicy with
    | error issues => simp
    | ok parser =>
        cases readSection sections "logging" {} readLogging with
        | error issues => simp
        | ok logging =>
            obtain ⟨p, l⟩ := s
            simp
  have hpolicy : readPolicy [] = .ok {} := rfl
  have hlog : readLogging [] = .ok {} := rfl
  rw [hboth, readSection_eq_ok_iff hpolicy, readSection_eq_ok_iff hlog, readPolicy_eq_ok_iff,
    readLogging_eq_ok_iff, forall_sectionNames]
  constructor
  · rintro ⟨⟨hparser, hmode, hwarnings⟩, hlogging, hlevel, hformat, houtput, hpath⟩
    refine ⟨⟨hparser, hlogging⟩, fun x => ?_⟩
    cases x with
    | mode => exact hmode
    | maxWarnings => exact hwarnings
    | level => exact hlevel
    | format => exact hformat
    | output => exact houtput
    | filePath => exact hpath
  · rintro ⟨⟨hparser, hlogging⟩, h⟩
    exact ⟨⟨hparser, h .mode, h .maxWarnings⟩, hlogging, h .level, h .format, h .output, h .filePath⟩

theorem ofSections_of_misshapen : ∀ name ∈ sectionNames, Misshapen sections name →
    ∃ issues, ofSections sections = .error issues ∧ ⟨[name], .notRecord⟩ ∈ issues := by
  refine forall_sectionNames.mpr ⟨fun h => ?_, fun h => ?_⟩
  · rw [ofSections, readSection_of_misshapen h]
    exact ⟨_, rfl, List.mem_append_left _ (List.mem_singleton_self _)⟩
  · rw [ofSections, readSection_of_misshapen h]
    cases readSection sections "parser" {} readPolicy with
    | ok parser => exact ⟨_, rfl, List.mem_append_right _ (List.mem_singleton_self _)⟩
    | error issues => exact ⟨_, rfl, List.mem_append_right _ (List.mem_singleton_self _)⟩

theorem ofSections_congr {sections' : Fields}
    (hshape : ∀ name ∈ sectionNames, (Misshapen sections' name ↔ Misshapen sections name))
    (hfields : ∀ x : Setting, ¬ Misshapen sections x.home →
      (fieldsOf sections' x.home).get? x.key = (fieldsOf sections x.home).get? x.key) :
    ofSections sections' = ofSections sections := by
  obtain ⟨hparser, hlogging⟩ := forall_sectionNames.mp hshape
  have hpolicy : readSection sections' "parser" {} readPolicy = readSection sections "parser" {} readPolicy :=
    readSection_congr rfl hparser fun h => readPolicy_congr fun x hx => by
      simpa only [hx] using hfields x (hx ▸ h)
  have hlog : readSection sections' "logging" {} readLogging = readSection sections "logging" {} readLogging :=
    readSection_congr rfl hlogging fun h => readLogging_congr fun x hx => by
      simpa only [hx] using hfields x (hx ▸ h)
  rw [ofSections, hpolicy, hlog, ofSections]

/-! ## Variables for no setting -/

theorem given?_set {x : Setting} (h : ¬ x.IsNamedBy name) (env : Environment) (value : String) :
    x.given? (env.set name value) = x.given? env := by
  have hfilter : (env.set name value).filter (fun assigned => x.IsNamedBy assigned.1) =
      env.filter fun assigned => x.IsNamedBy assigned.1 := by
    induction env with
    | nil => simp [Environment.set, h]
    | cons assigned rest ih =>
        obtain ⟨n, v⟩ := assigned
        by_cases hn : n = name
        · simp [Environment.set, hn, h]
        · simp only [Environment.set, hn, if_false, List.filter_cons, ih]
  rw [Setting.given?, hfilter, Setting.given?]

/-! ## Loading -/

section Loading

variable {markup : Markup} {path : String} {entry : Entry} {d : Document}

theorem load_of_readSections (h : readSections markup path entry = .ok d) (env : Environment) :
    (load markup path entry env).2 = (ofSections (override d env).fields).mapError .invalid := by
  cases hsections : ofSections (override d env).fields with
  | error issues => simp only [load, h, hsections, Except.mapError]
  | ok s => simp only [load, h, hsections, Except.mapError]

theorem ofSections_override_eq_ok_iff (hd : d.Apart sectionNames) {s : Settings} :
    ofSections (override d env).fields = .ok s ↔ (∀ name ∈ sectionNames, ¬ Misshapen d.fields name) ∧
      ∀ x : Setting, x.Takes (x.raw? d.fields env) (s.get x) := by
  have hshape : (∀ name ∈ sectionNames, ¬ Misshapen (override d env).fields name) ↔
      ∀ name ∈ sectionNames, ¬ Misshapen d.fields name :=
    forall₂_congr fun name hname => not_congr (misshapen_override_iff hd env hname)
  rw [ofSections_eq_ok_iff, hshape]
  refine and_congr_right fun h => forall_congr' fun x => ?_
  rw [get?_fieldsOf_override hd (h x.home (home_mem_sectionNames x))]

theorem load_eq_ok_iff (h : readSections markup path entry = .ok d) (hd : d.Apart sectionNames) {s : Settings} :
    (load markup path entry env).2 = .ok s ↔ (∀ name ∈ sectionNames, ¬ Misshapen d.fields name) ∧
      ∀ x : Setting, x.Takes (x.raw? d.fields env) (s.get x) := by
  rw [load_of_readSections h, ← ofSections_override_eq_ok_iff hd]
  cases ofSections (override d env).fields with
  | error issues => simp [Except.mapError]
  | ok s' => simp [Except.mapError]

theorem exists_takes {x : Setting} {raw : Option Value}
    (h : ∀ v, raw = some v → (x.check v).isOk) : ∃ a, x.Takes raw a := by
  cases raw with
  | none => exact ⟨x.default, rfl⟩
  | some v => exact isOk_iff.mp (h v rfl)

/-- Each setting has a value just if its rule takes what it is given. -/
theorem exists_takes_iff {raw : Setting → Option Value} :
    (∃ s : Settings, ∀ x : Setting, x.Takes (raw x) (s.get x)) ↔
      ∀ x v, raw x = some v → (x.check v).isOk := by
  constructor
  · rintro ⟨s, hs⟩ x v hv
    have hx := hs x
    rw [hv] at hx
    rw [show x.check v = .ok (s.get x) from hx]
    rfl
  · intro h
    choose a ha using fun x => exists_takes (h x)
    refine ⟨⟨⟨a .mode, a .maxWarnings⟩, ⟨a .level, a .format, a .output, a .filePath⟩⟩, fun x => ?_⟩
    cases x <;> exact ha _

/-- Two runs that are given the same load the same. -/
theorem load_congr {markup' : Markup} {entry' : Entry} {d' : Document} {env' : Environment}
    (h : readSections markup path entry = .ok d) (h' : readSections markup' path entry' = .ok d')
    (hd : d.Apart sectionNames) (hd' : d'.Apart sectionNames)
    (hshape : ∀ name ∈ sectionNames, (Misshapen d'.fields name ↔ Misshapen d.fields name))
    (hraw : ∀ x : Setting, ¬ Misshapen d.fields x.home → x.raw? d'.fields env' = x.raw? d.fields env) :
    load markup' path entry' env' = load markup path entry env := by
  have hsections : ofSections (override d' env').fields = ofSections (override d env).fields := by
    refine ofSections_congr (fun name hname => ?_) fun x hx => ?_
    · rw [misshapen_override_iff hd' env' hname, misshapen_override_iff hd env hname]
      exact hshape name hname
    · have hhome := home_mem_sectionNames x
      have hmiss := mt (misshapen_override_iff hd env hhome).mpr hx
      have hmiss' := mt (hshape x.home hhome).mp hmiss
      rw [get?_fieldsOf_override hd' hmiss', get?_fieldsOf_override hd hmiss]
      exact hraw x hmiss
  simp only [load, h, h', hsections]

theorem load_congr_env {env' : Environment}
    (hd : ∀ d, readSections markup path entry = .ok d → d.Apart sectionNames)
    (h : ∀ x : Setting, x.given? env' = x.given? env) :
    load markup path entry env' = load markup path entry env := by
  cases hsections : readSections markup path entry with
  | error e => simp only [load, hsections]
  | ok d =>
      exact load_congr hsections hsections (hd d hsections) (hd d hsections) (fun _ _ => Iff.rfl) fun x _ => by
        rw [Setting.raw?, h, Setting.raw?]

end Loading

/-- The sections that a run reads, if it comes to read any, are apart from each other. -/
def ReadsApart (around : Command.Surroundings) (arguments : List String) : Prop :=
  ∀ o d, Command.read arguments = .ok (.run o) →
    let path := filePath o.config around.environment around.defaultConfig
    readSections around.markup path (around.look (.ofString path)) = .ok d → d.Apart sectionNames

/-- Variables beyond what they give to settings, and beyond the name of the file, change no run. -/
theorem run_congr_env {around : Command.Surroundings} {env' : Environment} {arguments : List String}
    (hapart : ReadsApart around arguments)
    (hpath : env'.lookup pathVariable = around.environment.lookup pathVariable)
    (hgiven : ∀ x : Setting, x.given? env' = x.given? around.environment) :
    Command.run { around with environment := env' } arguments = Command.run around arguments := by
  unfold Command.run
  cases hread : Command.read arguments with
  | error e => rfl
  | ok request =>
      cases request with
      | help => rfl
      | version => rfl
      | run o =>
          have hfile : filePath o.config env' around.defaultConfig =
              filePath o.config around.environment around.defaultConfig := by
            rw [filePath, hpath, filePath]
          simp only [hfile, load_congr_env (fun d => hapart o d hread) hgiven]
          rfl

theorem get_override (s : Settings) (o : Command.Options) (x : Setting) :
    (Command.override s o).get x = (x.asked? o).getD (s.get x) := by
  cases x <;> rfl

/-- A section that is no record is refused, whatever the environment says. Otherwise, and if no mapping stands
in both sections, settings are loaded just if the rule of each takes what it is given, and have these values
until the command line overrides them. Nothing else counts: runs that are given the same load the same, a
variable for no setting changes nothing, and the one that names the file counts for that alone. -/
theorem load_precedence {markup : Markup} {path : String} {entry : Entry} {d : Document}
    (h : readSections markup path entry = .ok d) (env : Environment) :
    (∀ name ∈ sectionNames, Misshapen d.fields name →
      ∃ issues, (load markup path entry env).2 = .error (.invalid issues) ∧ ⟨[name], .notRecord⟩ ∈ issues) ∧
    (∀ e, (load markup path entry env).2 = .error e → ∃ issues, e = .invalid issues) ∧
    (d.Apart sectionNames →
      ((∀ name ∈ sectionNames, ¬ Misshapen d.fields name) →
        ((∃ s, (load markup path entry env).2 = .ok s) ↔
          ∀ (x : Setting) v, x.raw? d.fields env = some v → (x.check v).isOk) ∧
        ∀ s, (load markup path entry env).2 = .ok s → ∀ x : Setting, x.Takes (x.raw? d.fields env) (s.get x) ∧
          ∀ o, (Command.override s o).get x = (x.asked? o).getD (s.get x)) ∧
      (∀ markup' entry' d' env', readSections markup' path entry' = .ok d' → d'.Apart sectionNames →
        (∀ name ∈ sectionNames, (Misshapen d'.fields name ↔ Misshapen d.fields name)) →
        (∀ x : Setting, ¬ Misshapen d.fields x.home → x.raw? d'.fields env' = x.raw? d.fields env) →
        load markup' path entry' env' = load markup path entry env) ∧
      ∀ name value, (∀ x : Setting, ¬ x.IsNamedBy name) →
        load markup path entry (env.set name value) = load markup path entry env) ∧
    ∀ around env' arguments, around.environment = env → ReadsApart around arguments →
      (∀ x : Setting, x.given? env' = x.given? env) → env'.lookup pathVariable = env.lookup pathVariable →
      Command.run { around with environment := env' } arguments = Command.run around arguments := by
  refine ⟨fun name hname hmiss => ?_, fun e he => ?_, fun hd => ⟨fun hshape => ⟨?_, ?_⟩, ?_, ?_⟩, ?_⟩
  · obtain ⟨issues, hissues, hmem⟩ := ofSections_of_misshapen name hname (misshapen_override hmiss env)
    exact ⟨issues, by rw [load_of_readSections h, hissues]; rfl, hmem⟩
  · rw [load_of_readSections h] at he
    cases hsections : ofSections (override d env).fields with
    | error issues => exact ⟨issues, by simpa [hsections, Except.mapError] using he.symm⟩
    | ok s => simp [hsections, Except.mapError] at he
  · rw [← exists_takes_iff]
    exact exists_congr fun s => (load_eq_ok_iff h hd).trans (and_iff_right hshape)
  · exact fun s hs x => ⟨((load_eq_ok_iff h hd).mp hs).2 x, fun o => get_override s o x⟩
  · exact fun markup' entry' d' env' h' hd' hshape hraw => load_congr h h' hd hd' hshape hraw
  · refine fun name value hname => load_congr_env (fun d' h' => ?_) fun x => given?_set (hname x) env value
    obtain rfl := Except.ok.inj (h.symm.trans h')
    exact hd
  · rintro around env' arguments rfl hapart hgiven hpath
    exact run_congr_env hapart hpath hgiven

/-- With one mapping for both sections, a variable of the one sets what stands in the other. -/
theorem not_precedence_of_shared :
    ¬ ∀ markup path entry d env s, readSections markup path entry = .ok d →
      (∀ name ∈ sectionNames, ¬ Misshapen d.fields name) → (load markup path entry env).2 = .ok s →
      ∀ x : Setting, x.Takes (x.raw? d.fields env) (s.get x) := by
  intro hprecedence
  let entry := Entry.file "parser: &s\n  mode: strict\nlogging: *s\n".toUTF8
  obtain ⟨d, hd, hrecord⟩ : ∃ d, readSections Yaml.read "config.yaml" entry = .ok d ∧
      d.fields = [("parser", .record [("mode", .text "strict")]), ("logging", .record [("mode", .text "strict")])] :=
    ⟨_, rfl, rfl⟩
  have hload : (load Yaml.read "config.yaml" entry [("SDPATTR_PARSER_LEVEL", "CRITICAL")]).2 =
      .ok { parser := { mode := .strict }, logging := { level := .critical } } := rfl
  have hshape : ∀ name ∈ sectionNames, ¬ Misshapen d.fields name := by
    rw [hrecord]
    exact forall_sectionNames.mpr ⟨not_misshapen_of_record rfl, not_misshapen_of_record rfl⟩
  have hlevel := hprecedence _ _ _ d _ _ hd hshape hload .level
  have hraw : Setting.level.raw? d.fields [("SDPATTR_PARSER_LEVEL", "CRITICAL")] = none := by
    rw [hrecord]
    decide +kernel
  rw [hraw] at hlevel
  exact absurd (show Log.Level.critical = .info from hlevel) (by decide)

/-- Of two variables for the mode the last one counts, also against the file; the number of warnings is
that of the file, and all else has its default. -/
theorem load_precedence_of_two_variables :
    let entry := Entry.file "parser:\n  mode: strict\n  max_warnings: 7\n".toUTF8
    let d : Document := .ofFields [("parser", .record [("mode", .text "strict"), ("max_warnings", .int 7)])]
    let env := [("SDPATTR_PARSER_MODE", "strict"), ("SDPATTR_Parser_mode", "lenient"), ("SDPATTR_LOGGING", "7")]
    let s : Settings := { parser := { mode := .lenient, maxWarnings := 7 } }
    readSections Yaml.read "config.yaml" entry = .ok d ∧ d.Apart sectionNames ∧
      (∀ name ∈ sectionNames, ¬ Misshapen d.fields name) ∧
      (load Yaml.read "config.yaml" entry env).2 = .ok s ∧
      (∀ x : Setting, x.Takes (x.raw? d.fields env) (s.get x)) ∧
      (∀ (x : Setting) v, x.raw? d.fields env = some v → (x.check v).isOk) ∧
      load Yaml.read "config.yaml" entry (Environment.set env "SDPATTR_CONFIG_PATH" "other.yaml") =
        load Yaml.read "config.yaml" entry env := by
  intro entry d env s
  have hsections : readSections Yaml.read "config.yaml" entry = .ok d := rfl
  have hapart : d.Apart sectionNames := apart_ofFields _
  have hshape : ∀ name ∈ sectionNames, ¬ Misshapen d.fields name :=
    forall_sectionNames.mpr ⟨not_misshapen_of_record rfl, not_misshapen_of_none rfl⟩
  have hload : (load Yaml.read "config.yaml" entry env).2 = .ok s := rfl
  obtain ⟨-, -, hsettings, -⟩ := load_precedence hsections env
  obtain ⟨hrecords, -, hset⟩ := hsettings hapart
  obtain ⟨hiff, hvalues⟩ := hrecords hshape
  exact ⟨hsections, hapart, hshape, hload, fun x => (hvalues s hload x).1, hiff.mp ⟨s, hload⟩,
    hset "SDPATTR_CONFIG_PATH" "other.yaml" fun x hx => hx.1 rfl⟩

end Settings

end Sdp
