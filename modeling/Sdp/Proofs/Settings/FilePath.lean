import Sdp.Proofs.Settings.Issues
import Sdp.Proofs.Settings.Sense
import Sdp.Settings.Given

/-!
# The path of the log file

A path is given by a variable or in the settings file. Main statement: `load_filePath`, it makes no
difference which of the two, unless the path can be taken for something else than a text.
-/

namespace Sdp

open Settings (Environment)

variable {env : Environment} {p : String} {sections : Fields} {d d' : Document}

namespace Setting

variable {x y : Setting}

/-! ## Variables -/

theorem eq_of_place (hhome : x.home = y.home) (hkey : x.key = y.key) : x = y := by
  cases x <;> cases y <;> first | rfl | exact absurd hkey (by decide)

/-- A variable is named for one setting only. -/
theorem IsNamedBy.unique {name : String} (hx : x.IsNamedBy name) (hy : y.IsNamedBy name) : x = y := by
  have hplace := (Settings.settingOf?_eq_some_iff.mpr hx).symm.trans (Settings.settingOf?_eq_some_iff.mpr hy)
  obtain ⟨hhome, hkey⟩ := Prod.mk.inj (Option.some.inj hplace)
  exact eq_of_place hhome hkey

theorem given?_of_isGiven (h : x.IsGiven env p) : x.given? env = some (Settings.valueOf p.toList) := by
  obtain ⟨front, name, back, rfl, hname, hback⟩ := h
  have hnone : back.filter (fun assigned => x.IsNamedBy assigned.1) = [] :=
    List.filter_eq_nil_iff.mpr fun later hlater => by simpa using hback later hlater
  simp [given?, hname, hnone]

theorem given?_withoutVariables_self (x : Setting) (env : Environment) :
    x.given? (x.withoutVariables env) = none := by
  have hnone : (x.withoutVariables env).filter (fun assigned => x.IsNamedBy assigned.1) = [] := by
    rw [withoutVariables, List.filter_filter, List.filter_eq_nil_iff]
    simp
  rw [given?, hnone]
  rfl

theorem given?_withoutVariables_of_ne (h : y ≠ x) (env : Environment) :
    y.given? (x.withoutVariables env) = y.given? env := by
  have hfilter : (x.withoutVariables env).filter (fun assigned => y.IsNamedBy assigned.1) =
      env.filter fun assigned => y.IsNamedBy assigned.1 := by
    rw [withoutVariables, List.filter_filter]
    refine List.filter_congr fun assigned _ => ?_
    by_cases hy : y.IsNamedBy assigned.1
    · simpa [hy] using fun hx => h (hy.unique hx)
    · simp [hy]
  rw [given?, hfilter, given?]

theorem given?_of_named (h : ∀ assigned ∈ env, x.IsNamedBy assigned.1) (hy : y ≠ x) : y.given? env = none := by
  have hnone : env.filter (fun assigned => y.IsNamedBy assigned.1) = [] :=
    List.filter_eq_nil_iff.mpr fun assigned hmem => by simpa using fun hnamed => hy (hnamed.unique (h _ hmem))
  rw [given?, hnone]
  rfl

theorem raw?_of_isGiven (h : x.IsGiven env p) (sections : Fields) :
    x.raw? sections env = some (Settings.valueOf p.toList) := by
  rw [raw?, given?_of_isGiven h]
  rfl

end Setting

namespace Settings

variable {x : Setting} {v : Value}

theorem Restated.raw?_self (h : Restated x v d d') (env : Environment) :
    x.raw? d'.fields (x.withoutVariables env) = some v := by
  rw [Setting.raw?, Setting.given?_withoutVariables_self, h.self]
  rfl

theorem Restated.raw?_of_ne {y : Setting} (h : Restated x v d d') (hy : y ≠ x) (env : Environment) :
    y.raw? d'.fields (x.withoutVariables env) = y.raw? d.fields env := by
  rw [Setting.raw?, Setting.given?_withoutVariables_of_ne hy, h.others y hy, Setting.raw?]

/-! ## Texts -/

theorem not_isTruth_iff :
    (∀ b, ¬ IsTruth b p.toList) ↔ ∀ w ∈ truthWords, ¬ Text.IsLowerSpelling w.toList p.toList := by
  have hwords : truthWords = wordsFor true ++ wordsFor false := rfl
  simp only [hwords, List.forall_mem_append, Bool.forall_bool, IsTruth, not_exists, not_and]
  exact and_comm

theorem standsForItself_iff : StandsForItself p ↔ StandsFor p.toList (.text (.ofList p.toList)) := by
  constructor
  · intro h
    refine .text (not_isTruth_iff.mpr h.word) (fun n hn => ?_) fun x hx => ?_
    · cases h.integer.symm.trans (Numeral.readInteger?_eq_some_iff.mpr hn)
    · cases h.real.symm.trans (Numeral.readReal?_eq_some_iff.mpr hx)
  · rintro (_ | _ | _ | ⟨htruth, hinteger, hreal⟩)
    exact {
      word := not_isTruth_iff.mp htruth
      integer := Option.eq_none_iff_forall_ne_some.mpr fun n hn =>
        hinteger n (Numeral.readInteger?_eq_some_iff.mp hn)
      real := Option.eq_none_iff_forall_ne_some.mpr fun x hx =>
        hreal x (Numeral.readReal?_eq_some_iff.mp hx) }

theorem valueOf_of_standsForItself (h : StandsForItself p) : valueOf p.toList = .text p := by
  rw [valueOf_of_standsFor (standsForItself_iff.mp h), String.ofList_toList]

/-- What a variable stands for is its text, or something that no path can be. -/
theorem checkPath_valueOf (p : String) :
    (StandsForItself p ∧ valueOf p.toList = .text p) ∨
    (¬ StandsForItself p ∧ checkPath (valueOf p.toList) = .error .notText) := by
  by_cases h : StandsForItself p
  · exact Or.inl ⟨h, valueOf_of_standsForItself h⟩
  · refine Or.inr ⟨h, ?_⟩
    obtain ⟨v, hv⟩ := exists_standsFor p.toList
    rw [valueOf_of_standsFor hv]
    cases hv with
    | truth => rfl
    | integer => rfl
    | real => rfl
    | text htruth hinteger hreal => exact absurd (standsForItself_iff.mpr (.text htruth hinteger hreal)) h

/-! ## Loading -/

/-- If nothing but the path is wrong, that is all that is said. -/
theorem ofSections_of_notText (hrecords : ∀ name ∈ sectionNames, ¬ Misshapen sections name)
    (hothers : ∀ x ≠ Setting.filePath, ∃ a, x.Takes ((fieldsOf sections x.home).get? x.key) a)
    (hv : (fieldsOf sections Setting.filePath.home).get? Setting.filePath.key = some v)
    (hcheck : checkPath v = .error .notText) :
    ofSections sections = .error [⟨["logging", "file_path"], .notText⟩] := by
  have hwhole : ∀ name ∈ sectionNames, Place.issues sections (.whole name) = [] := fun name hname =>
    if_neg (hrecords name hname)
  have hsingle : ∀ x ≠ Setting.filePath, Place.issues sections (.single x) = [] := fun x hx => by
    obtain ⟨a, ha⟩ := hothers x hx
    rw [Place.issues, settingIssues_of_takes ha, List.map_nil]
  have hpath : Place.issues sections (.single .filePath) = [⟨["logging", "file_path"], .notText⟩] := by
    have hsetting : setting (fieldsOf sections "logging") "file_path" none checkPath = .error .notText := by
      rw [setting, show (fieldsOf sections "logging").get? "file_path" = some v from hv]
      exact hcheck
    exact congrArg (fun r => (issue "file_path" r).map fun i => { i with location := "logging" :: i.location })
      hsetting
  obtain ⟨hparser, hlogging⟩ := forall_sectionNames.mp hwhole
  have hissues : issues (ofSections sections) = [⟨["logging", "file_path"], .notText⟩] := by
    rw [issues_ofSections, Place.all]
    simp [hparser, hlogging, hsingle, hpath]
  exact ofSections_of_issues hissues

section Loading

variable {markup markup' : Markup} {path : String} {entry entry' : Entry} {x : Setting}

theorem ValidBut.exists_load_iff (hvalid : ValidBut x d env) (h : readSections markup path entry = .ok d) :
    (∃ s, (load markup path entry env).2 = .ok s) ↔
      ∀ v, x.raw? d.fields env = some v → (x.check v).isOk := by
  simp only [load_eq_ok_iff h hvalid.apart, and_iff_right hvalid.records, exists_takes_iff]
  refine ⟨fun hall => hall x, fun hx y v hv => ?_⟩
  by_cases hy : y = x
  · subst hy
    exact hx v hv
  · exact hvalid.others y hy v hv

theorem validBut_of_named (hapart : d.Apart sectionNames)
    (hrecords : ∀ name ∈ sectionNames, ¬ Misshapen d.fields name)
    (henv : ∀ assigned ∈ env, x.IsNamedBy assigned.1)
    (hothers : ∀ y ≠ x, (fieldsOf d.fields y.home).get? y.key = none) : ValidBut x d env where
  apart := hapart
  records := hrecords
  others y hy v hv := by
    rw [Setting.raw?, Setting.given?_of_named henv hy, hothers y hy] at hv
    cases hv

/-- Settings that are given anew in the file are as valid as they were. -/
theorem ValidBut.of_restated (hvalid : ValidBut x d env) (h : Restated x v d d') :
    ValidBut x d' (x.withoutVariables env) where
  apart := h.apart
  records := h.records
  others y hy w hw := hvalid.others y hy w (h.raw?_of_ne hy env ▸ hw)

theorem load_of_not_standsForItself (h : readSections markup path entry = .ok d)
    (hgiven : Setting.filePath.IsGiven env p) (hvalid : ValidBut .filePath d env)
    (hp : ¬ StandsForItself p) :
    load markup path entry env =
      ([failedEvent path [⟨["logging", "file_path"], .notText⟩]],
        .error (.invalid [⟨["logging", "file_path"], .notText⟩])) := by
  have hcheck : checkPath (valueOf p.toList) = .error .notText :=
    (checkPath_valueOf p).elim (fun hok => absurd hok.1 hp) And.right
  have hrecords : ∀ name ∈ sectionNames, ¬ Misshapen (override d env).fields name := fun name hname hmiss =>
    hvalid.records name hname ((misshapen_override_iff hvalid.apart env hname).mp hmiss)
  have hraw (x : Setting) : (fieldsOf (override d env).fields x.home).get? x.key = x.raw? d.fields env :=
    get?_fieldsOf_override hvalid.apart (hvalid.records _ (home_mem_sectionNames x)) env
  have hsections : ofSections (override d env).fields = .error [⟨["logging", "file_path"], .notText⟩] := by
    refine ofSections_of_notText hrecords (fun x hx => ?_)
      ((hraw _).trans (Setting.raw?_of_isGiven hgiven d.fields)) hcheck
    rw [hraw]
    exact exists_takes (hvalid.others x hx)
  simp only [load, h, hsections]

/-- A path that a variable gives goes the way of every variable: with a valid rest the settings are loaded
just if it stands for nothing but its text, and then it is the path, just as if it stood in the file as a
text. Otherwise the path is refused and nothing else is, though the file could name it. -/
theorem load_filePath (h : readSections markup path entry = .ok d)
    (hgiven : Setting.filePath.IsGiven env p) (hvalid : ValidBut .filePath d env) :
    ((∃ s, (load markup path entry env).2 = .ok s) ↔ StandsForItself p) ∧
    (∀ s, (load markup path entry env).2 = .ok s → s.get .filePath = some p) ∧
    (∀ markup' entry' d', readSections markup' path entry' = .ok d' →
      Restated .filePath (.text p) d d' →
      (∃ s, (load markup' path entry' (Setting.filePath.withoutVariables env)).2 = .ok s ∧
        s.get .filePath = some p) ∧
      (load markup path entry env = load markup' path entry' (Setting.filePath.withoutVariables env) ↔
        StandsForItself p)) ∧
    (¬ StandsForItself p → load markup path entry env =
      ([failedEvent path [⟨["logging", "file_path"], .notText⟩]],
        .error (.invalid [⟨["logging", "file_path"], .notText⟩]))) := by
  have hraw := Setting.raw?_of_isGiven hgiven d.fields
  have hrefused := load_of_not_standsForItself h hgiven hvalid
  have hloaded : (∃ s, (load markup path entry env).2 = .ok s) ↔ StandsForItself p := by
    constructor
    · rintro ⟨s, hs⟩
      by_contra hp
      rw [hrefused hp] at hs
      cases hs
    · intro hp
      refine (hvalid.exists_load_iff h).mpr fun v hv => ?_
      rw [hraw, valueOf_of_standsForItself hp] at hv
      cases hv
      rfl
  refine ⟨hloaded, fun s hs => ?_, fun markup' entry' d' h' hrestated => ?_, hrefused⟩
  · have hp := hloaded.mp ⟨s, hs⟩
    have htakes := ((load_eq_ok_iff h hvalid.apart).mp hs).2 .filePath
    rw [hraw, valueOf_of_standsForItself hp] at htakes
    exact (Except.ok.inj htakes).symm
  · have hraw' := hrestated.raw?_self env
    obtain ⟨s, hs⟩ := ((hvalid.of_restated hrestated).exists_load_iff h').mpr fun v hv => by
      rw [hraw'] at hv
      cases hv
      rfl
    have htakes := ((load_eq_ok_iff h' hrestated.apart).mp hs).2 .filePath
    rw [hraw'] at htakes
    refine ⟨⟨s, hs, (Except.ok.inj htakes).symm⟩, fun heq => hloaded.mp ⟨s, heq ▸ hs⟩, fun hp => ?_⟩
    refine load_congr h' h hrestated.apart hvalid.apart (fun name hname => ?_) fun x _ => ?_
    · exact iff_of_false (hvalid.records name hname) (hrestated.records name hname)
    · by_cases hx : x = .filePath
      · subst hx
        rw [hraw, hraw', valueOf_of_standsForItself hp]
      · exact (hrestated.raw?_of_ne hx env).symm

/-- A path that reads as a number is refused, whatever else is set. -/
theorem filePath_not_kept :
    ¬ ∀ markup path entry d env p, p ≠ "" → '\x00' ∉ p.toList →
      readSections markup path entry = .ok d → Setting.filePath.IsGiven env p →
      ValidBut .filePath d env → ∃ s, (load markup path entry env).2 = .ok s ∧ s.get .filePath = some p := by
  intro hkept
  let env : Environment := [("SDPATTR_LOGGING_FILE_PATH", "2024")]
  have hempty : ∀ name ∈ sectionNames, ¬ Misshapen [] name := fun _ _ => not_misshapen_of_none rfl
  have hnamed : ∀ assigned ∈ env, Setting.filePath.IsNamedBy assigned.1 := by decide +kernel
  have hgiven : Setting.filePath.IsGiven env "2024" := ⟨[], _, [], rfl, hnamed _ (.head _), nofun⟩
  have hvalid : ValidBut .filePath {} env :=
    validBut_of_named (apart_ofFields []) hempty hnamed fun _ _ => rfl
  have hload : (load Yaml.read "config.yaml" (.file "".toUTF8) env).2 =
      .error (.invalid [⟨["logging", "file_path"], .notText⟩]) := rfl
  obtain ⟨s, hs, -⟩ := hkept Yaml.read "config.yaml" (.file "".toUTF8) {} env "2024" (by decide) (by decide) rfl
    hgiven hvalid
  cases hload.symm.trans hs

/-- A path with a blank is taken as it stands, and against the file; a year is refused. -/
theorem load_filePath_of_two_paths :
    let entry := Entry.file "logging:\n  file_path: a.log\n".toUTF8
    let entry' := Entry.file "logging:\n  file_path: b 1.log\n".toUTF8
    let d : Document := .ofFields [("logging", .record [("file_path", .text "a.log")])]
    let d' : Document := .ofFields [("logging", .record [("file_path", .text "b 1.log")])]
    let env := [("SDPATTR_logging_file_path", "2024"), ("SDPATTR_LOGGING_FILE_PATH", "b 1.log")]
    let issues : List Issue := [⟨["logging", "file_path"], .notText⟩]
    (readSections Yaml.read "c" entry = .ok d ∧ Setting.filePath.IsGiven env "b 1.log" ∧
      ValidBut .filePath d env ∧ StandsForItself "b 1.log" ∧
      readSections Yaml.read "c" entry' = .ok d' ∧
      Restated .filePath (.text "b 1.log") d d' ∧
      load Yaml.read "c" entry env =
        load Yaml.read "c" entry' (Setting.filePath.withoutVariables env)) ∧
    (¬ StandsForItself "2024" ∧
      load Yaml.read "c" entry env.dropLast = ([failedEvent "c" issues], .error (.invalid issues))) := by
  intro entry entry' d d' env issues
  have hsections : readSections Yaml.read "c" entry = .ok d := rfl
  have hsections' : readSections Yaml.read "c" entry' = .ok d' := rfl
  have hnamed : ∀ assigned ∈ env, Setting.filePath.IsNamedBy assigned.1 := by decide +kernel
  have hrecord {fields : Fields} : ∀ name ∈ sectionNames,
      ¬ Misshapen (Document.ofFields [("logging", .record fields)]).fields name :=
    forall_sectionNames.mpr ⟨not_misshapen_of_none rfl, not_misshapen_of_record rfl⟩
  have hothers : ∀ y ≠ Setting.filePath, (fieldsOf d.fields y.home).get? y.key = none := by
    intro y hy
    cases y <;> first | rfl | exact absurd rfl hy
  have hgiven : Setting.filePath.IsGiven env "b 1.log" := ⟨[_], _, [], rfl, hnamed _ (.tail _ (.head _)), nofun⟩
  have hgiven' : Setting.filePath.IsGiven env.dropLast "2024" := ⟨[], _, [], rfl, hnamed _ (.head _), nofun⟩
  have hvalid : ValidBut .filePath d env := validBut_of_named (apart_ofFields _) hrecord hnamed hothers
  have hvalid' : ValidBut .filePath d env.dropLast :=
    validBut_of_named (apart_ofFields _) hrecord (fun _ hmem => hnamed _ (List.dropLast_subset _ hmem)) hothers
  have hrestated : Restated .filePath (.text "b 1.log") d d' :=
    ⟨apart_ofFields _, hrecord, rfl, fun y hy => by cases y <;> first | rfl | exact absurd rfl hy⟩
  have hplain : StandsForItself "b 1.log" := ⟨by decide +kernel, by decide +kernel, by decide +kernel⟩
  have hyear : ¬ StandsForItself "2024" := fun h => absurd h.integer (by decide +kernel)
  obtain ⟨-, -, hsame, -⟩ := load_filePath hsections hgiven hvalid
  obtain ⟨-, -, -, hrefused⟩ := load_filePath hsections hgiven' hvalid'
  exact ⟨⟨hsections, hgiven, hvalid, hplain, hsections', hrestated,
    (hsame _ _ _ hsections' hrestated).2.mpr hplain⟩, hyear, hrefused hyear⟩

end Loading

end Settings

end Sdp
