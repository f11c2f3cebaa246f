import Sdp.Proofs.Settings.Precedence
import Sdp.Settings.Place

/-!
# All that is wrong is reported

Main statements: `issues_ofSections`, the issues of some sections are those of their places, one after the
other, and `load_reports`, every place that is invalid is named once, in the error and in the log.
-/

namespace Sdp

namespace Settings

variable {sections fields : Fields} {name : String}

/-! ## Single places -/

/-- The issue of a setting among the fields of its section, if it has one. -/
def settingIssues (fields : Fields) (x : Setting) : List Issue :=
  issue x.key (setting fields x.key x.default x.check)

/-- The issue of a place, if it has one. -/
def Place.issues (sections : Fields) : Place → List Issue
  | whole name => if Misshapen sections name then [⟨[name], .notRecord⟩] else []
  | single x =>
    (settingIssues (fieldsOf sections x.home) x).map fun i => { i with location := x.home :: i.location }

theorem map_location_settingIssues (fields : Fields) (x : Setting) :
    (settingIssues fields x).map Issue.location =
      if ∃ v, v ∈ fields.get? x.key ∧ ¬ x.Accepts v then [[x.key]] else [] := by
  unfold settingIssues setting
  cases hv : fields.get? x.key with
  | none => simp [issue]
  | some v =>
      have haccepts := x.isOk_check_iff v
      cases hcheck : x.check v with
      | ok a =>
          have : x.Accepts v := haccepts.mp (by rw [hcheck]; rfl)
          simp [issue, hcheck, this]
      | error violation =>
          have : ¬ x.Accepts v := fun h => by
            have hok := haccepts.mpr h
            rw [hcheck] at hok
            cases hok
          simp [issue, hcheck, this]

theorem settingIssues_of_takes {x : Setting} {a : x.Meaning} (h : x.Takes (fields.get? x.key) a) :
    settingIssues fields x = [] :=
  congrArg (issue x.key) (setting_eq_ok_iff.mpr h)

/-- A place that is invalid has one issue, which names it, and no other place has any. -/
theorem map_location_issues (sections : Fields) (p : Place) :
    (p.issues sections).map Issue.location = if p.IsInvalid sections then [p.location] else [] := by
  cases p with
  | whole name =>
      by_cases h : Misshapen sections name
      · rw [Place.issues, if_pos h, if_pos (show Place.IsInvalid sections (.whole name) from h)]
        rfl
      · rw [Place.issues, if_neg h, if_neg (show ¬ Place.IsInvalid sections (.whole name) from h)]
        rfl
  | single x =>
      have hlocation : Issue.location ∘ (fun i : Issue => { i with location := x.home :: i.location }) =
          (x.home :: ·) ∘ Issue.location := rfl
      rw [Place.issues, List.map_map, hlocation, ← List.map_map, map_location_settingIssues]
      by_cases h : Place.IsInvalid sections (.single x)
      · rw [if_pos h, if_pos (show ∃ v, v ∈ (fieldsOf sections x.home).get? x.key ∧ ¬ x.Accepts v from h)]
        rfl
      · rw [if_neg h, if_neg (show ¬ ∃ v, v ∈ (fieldsOf sections x.home).get? x.key ∧ ¬ x.Accepts v from h)]
        rfl

theorem map_location_flatMap_issues (sections : Fields) (places : List Place) :
    (places.flatMap (Place.issues sections)).map Issue.location =
      (places.filter fun p => p.IsInvalid sections).map Place.location := by
  induction places with
  | nil => rfl
  | cons p places ih =>
      rw [List.flatMap_cons, List.map_append, ih, map_location_issues]
      by_cases h : p.IsInvalid sections <;> simp [h]

/-! ## Sections -/

theorem issues_readPolicy (fields : Fields) :
    issues (readPolicy fields) = [Setting.mode, .maxWarnings].flatMap (settingIssues fields) := by
  unfold readPolicy
  dsimp only
  split
  · next hmode hwarnings =>
      have hmode' : settingIssues fields .mode = [] := congrArg (issue "mode") hmode
      have hwarnings' : settingIssues fields .maxWarnings = [] := congrArg (issue "max_warnings") hwarnings
      simp [issues, hmode', hwarnings']
  · simp only [issues, List.flatMap_cons, List.flatMap_nil, List.append_nil]
    rfl

theorem issues_readLogging (fields : Fields) :
    issues (readLogging fields) =
      [Setting.level, .format, .output, .filePath].flatMap (settingIssues fields) := by
  unfold readLogging
  dsimp only
  split
  · next hlevel hformat houtput hpath =>
      have hlevel' : settingIssues fields .level = [] := congrArg (issue "level") hlevel
      have hformat' : settingIssues fields .format = [] := congrArg (issue "format") hformat
      have houtput' : settingIssues fields .output = [] := congrArg (issue "output") houtput
      have hpath' : settingIssues fields .filePath = [] := congrArg (issue "file_path") hpath
      simp [issues, hlevel', hformat', houtput', hpath']
  · simp only [issues, List.flatMap_cons, List.flatMap_nil, List.append_nil, List.append_assoc]
    rfl

/-- The issues of a section and of the settings in it. -/
theorem issues_readSection {α : Type} {default : α} {read : Fields → Validated α} {settings : List Setting}
    (hdefault : read [] = .ok default) (hread : ∀ fields, issues (read fields) = settings.flatMap (settingIssues fields))
    (hhome : ∀ x ∈ settings, x.home = name) :
    issues (readSection sections name default read) =
      (Place.whole name :: settings.map .single).flatMap (Place.issues sections) := by
  have hunder (v : Validated α) :
      issues (under name v) = (issues v).map fun i => { i with location := name :: i.location } := by
    cases v <;> rfl
  have hsingle : (settings.map Place.single).flatMap (Place.issues sections) =
      (settings.flatMap (settingIssues (fieldsOf sections name))).map fun i =>
        { i with location := name :: i.location } := by
    rw [List.flatMap_map, List.map_flatMap]
    refine List.flatMap_congr fun x hx => ?_
    rw [Place.issues, hhome x hx]
  rw [List.flatMap_cons, hsingle, ← hread, ← hunder, Place.issues]
  by_cases h : Misshapen sections name
  · have hnone : fieldsOf sections name = [] := by
      obtain ⟨v, hv, hrecord⟩ := h
      unfold fieldsOf
      rw [hv]
      cases v with
      | record fields => exact absurd rfl (hrecord fields)
      | _ => rfl
    rw [readSection_of_misshapen h, if_pos h, hnone, hdefault]
    rfl
  · rw [readSection_of_not_misshapen h hdefault, if_neg h, List.nil_append]

/-- All places are looked at, whatever is wrong with others. -/
theorem issues_ofSections (sections : Fields) :
    issues (ofSections sections) = Place.all.flatMap (Place.issues sections) := by
  have hparser : issues (readSection sections "parser" {} readPolicy) =
      (Place.whole "parser" :: [Setting.mode, .maxWarnings].map .single).flatMap (Place.issues sections) :=
    issues_readSection rfl issues_readPolicy (by decide)
  have hlogging : issues (readSection sections "logging" {} readLogging) =
      (Place.whole "logging" :: [Setting.level, .format, .output, .filePath].map .single).flatMap
        (Place.issues sections) :=
    issues_readSection rfl issues_readLogging (by decide)
  have hall : Place.all =
      (Place.whole "parser" :: [Setting.mode, .maxWarnings].map .single) ++
        (Place.whole "logging" :: [Setting.level, .format, .output, .filePath].map .single) := rfl
  have hboth : issues (ofSections sections) = issues (readSection sections "parser" {} readPolicy) ++
      issues (readSection sections "logging" {} readLogging) := by
    unfold ofSections
    cases readSection sections "parser" {} readPolicy with
    | error parser => rfl
    | ok parser =>
        cases readSection sections "logging" {} readLogging with
        | error logging => rfl
        | ok logging => rfl
  rw [hboth, hparser, hlogging, hall, List.flatMap_append]

/-- Some issue means that nothing is read. -/
theorem ofSections_of_issues {i : Issue} {rest : List Issue} (h : issues (ofSections sections) = i :: rest) :
    ofSections sections = .error (i :: rest) := by
  cases hsections : ofSections sections with
  | ok s =>
      rw [hsections] at h
      cases h
  | error is =>
      rw [hsections] at h
      exact congrArg Except.error h

theorem forall_mem_all {P : Place → Prop} :
    (∀ p ∈ Place.all, P p) ↔ (∀ name ∈ sectionNames, P (.whole name)) ∧ ∀ x, P (.single x) := by
  constructor
  · intro h
    refine ⟨forall_sectionNames.mpr ⟨h _ (by decide), h _ (by decide)⟩, fun x => h _ ?_⟩
    cases x <;> decide
  · rintro ⟨hsections, hsettings⟩ p hp
    cases p with
    | single x => exact hsettings x
    | whole name =>
        refine hsections name ?_
        simp [Place.all] at hp
        simpa [sectionNames] using hp

/-- Settings are read just if no place is invalid. -/
theorem exists_ofSections_iff :
    (∃ s, ofSections sections = .ok s) ↔ ∀ p ∈ Place.all, ¬ p.IsInvalid sections := by
  simp only [ofSections_eq_ok_iff, exists_and_left, exists_takes_iff, forall_mem_all]
  refine and_congr_right fun _ => forall_congr' fun x => ?_
  simp only [x.isOk_check_iff]
  exact ⟨fun h ⟨v, hv, hno⟩ => hno (h v hv), fun h v hv => by_contra fun hno => h ⟨v, hv, hno⟩⟩

theorem locations_ofSections (sections : Fields) :
    (issues (ofSections sections)).map Issue.location =
      (Place.all.filter fun p => p.IsInvalid sections).map Place.location := by
  rw [issues_ofSections, map_location_flatMap_issues]

theorem exists_error_iff :
    (∃ is, ofSections sections = .error is) ↔ ∃ p ∈ Place.all, p.IsInvalid sections := by
  have hok : (∃ s, ofSections sections = .ok s) ↔ _ := exists_ofSections_iff
  constructor
  · rintro ⟨is, his⟩
    by_contra hno
    obtain ⟨s, hs⟩ := hok.mpr fun p hp hinvalid => hno ⟨p, hp, hinvalid⟩
    cases his.symm.trans hs
  · rintro ⟨p, hp, hinvalid⟩
    cases hsections : ofSections sections with
    | error is => exact ⟨is, rfl⟩
    | ok s => exact absurd hinvalid (hok.mp ⟨s, hsections⟩ p hp)

theorem nodup_locations : (Place.all.map Place.location).Nodup := by
  decide

/-! ## Loading -/

section Loading

variable {markup : Markup} {path : String} {entry : Entry} {env : Environment} {d : Document}

theorem load_of_ok {s : Settings} (h : readSections markup path entry = .ok d)
    (hs : ofSections (override d env).fields = .ok s) :
    load markup path entry env = ([loadedEvent path s], .ok s) := by
  simp only [load, h, hs]

theorem load_of_error {is : List Issue} (h : readSections markup path entry = .ok d)
    (his : ofSections (override d env).fields = .error is) :
    load markup path entry env = ([failedEvent path is], .error (.invalid is)) := by
  simp only [load, h, his]

theorem failedEvent_of_locations {is : List Issue} {places : List Place}
    (h : is.map Issue.location = places.map Place.location) (path : String) :
    failedEvent path is = ⟨.error, "config_validation_failed",
      [("path", .text path), ("fields", .list (places.map fun p => .text (".".intercalate p.location)))]⟩ := by
  have hpaths : is.map (fun i => Value.text i.path) = places.map fun p => .text (".".intercalate p.location) := by
    have htexts := congrArg (List.map fun location => Value.text (".".intercalate location)) h
    rwa [List.map_map, List.map_map] at htexts
  rw [failedEvent, hpaths]

/-- Settings are refused just if some place is invalid. Then each place that is invalid is named once, in
order, in the error and in the one event that is logged; otherwise the one event tells the policy. -/
theorem load_reports (h : readSections markup path entry = .ok d) (env : Environment) :
    let merged := (override d env).fields
    let invalid := Place.all.filter fun p => p.IsInvalid merged
    ((∃ e, (load markup path entry env).2 = .error e) ↔ ∃ p ∈ Place.all, p.IsInvalid merged) ∧
    (∀ e, (load markup path entry env).2 = .error e →
      (∃ issues, e = .invalid issues ∧ issues.map Issue.location = invalid.map Place.location ∧
        (issues.map Issue.location).Nodup) ∧
      (load markup path entry env).1 = [⟨.error, "config_validation_failed",
        [("path", .text path), ("fields", .list (invalid.map fun p => .text (".".intercalate p.location)))]⟩]) ∧
    (∀ s, (load markup path entry env).2 = .ok s →
      (load markup path entry env).1 = [⟨.debug, "config_loaded",
        [("path", .text path), ("mode", .text s.parser.mode.word),
          ("max_warnings", .int s.parser.maxWarnings)]⟩]) := by
  intro merged invalid
  have hnames : (issues (ofSections merged)).map Issue.location = invalid.map Place.location :=
    locations_ofSections merged
  rw [← exists_error_iff]
  cases hmerged : ofSections merged with
  | ok s =>
      rw [load_of_ok h hmerged]
      refine ⟨iff_of_false nofun nofun, nofun, fun s' hs' => ?_⟩
      cases hs'
      rfl
  | error is =>
      rw [hmerged] at hnames
      rw [load_of_error h hmerged]
      refine ⟨iff_of_true ⟨_, rfl⟩ ⟨_, rfl⟩, fun e he => ?_, nofun⟩
      cases he
      have honce : (is.map Issue.location).Nodup :=
        hnames ▸ nodup_locations.sublist (List.filter_sublist.map Place.location)
      exact ⟨⟨is, rfl, hnames, honce⟩, congrArg (fun event => [event]) (failedEvent_of_locations hnames path)⟩

/-- A section that is a text is named alone, whatever a variable says; two settings of the other one are, and
neither the names that are unknown nor a path that may be null. -/
theorem load_reports_of_two_sections :
    let entry := Entry.file
      "parser: strict\nlogging:\n  output: stderr\n  colour: 7\n  level: 10\n  file_path: ~\nextra: 1\n".toUTF8
    let logging : Fields := [("output", .text "stderr"), ("colour", .int 7), ("level", .int 10), ("file_path", .null)]
    let d : Document := .ofFields [("parser", .text "strict"), ("logging", .record logging), ("extra", .int 1)]
    let env := [("SDPATTR_PARSER_MAX_WARNINGS", "-1")]
    readSections Yaml.read "c" entry = .ok d ∧
      (∃ e, (load Yaml.read "c" entry env).2 = .error e) ∧
      (load Yaml.read "c" entry env).1 = [⟨.error, "config_validation_failed", [("path", .text "c"),
        ("fields", .list [.text "parser", .text "logging.level", .text "logging.output"])]⟩] := by
  intro entry logging d env
  have hsections : readSections Yaml.read "c" entry = .ok d := rfl
  have hinvalid : (Place.all.filter fun p => p.IsInvalid (override d env).fields) =
      [.whole "parser", .single .level, .single .output] := by
    decide +kernel
  have hparser : Place.IsInvalid (override d env).fields (.whole "parser") :=
    misshapen_override ⟨.text "strict", rfl, nofun⟩ env
  obtain ⟨hrefused, hreport, -⟩ := load_reports hsections env
  obtain ⟨e, he⟩ := hrefused.mpr ⟨.whole "parser", by decide, hparser⟩
  rw [hinvalid] at hreport
  exact ⟨hsections, ⟨e, he⟩, (hreport e he).2⟩

end Loading

end Settings

end Sdp
