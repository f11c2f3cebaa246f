import Sdp.Command.Run

/-!
# How runs end

Main statement: `run_ending`. As long as lines are logged to the standard output, a run ends with a
status that says how far it came, unless the bytes of the description are no text: that breaks it off.
-/

namespace Sdp.Command

/-- The settings that a run loads, before the command line overrides them. -/
def Surroundings.loaded (around : Surroundings) (o : Options) : Except Settings.Failure Settings :=
  let path := Settings.filePath o.config around.environment around.defaultConfig
  (Settings.load around.markup path (around.look (.ofString path)) around.environment).2

/-- What a run tells before logging is set up. -/
def Surroundings.early (around : Surroundings) (o : Options) : List Log.Event :=
  let path := Settings.filePath o.config around.environment around.defaultConfig
  (Settings.load around.markup path (around.look (.ofString path)) around.environment).1

/-- The description is in a file whose bytes are no text. -/
def Surroundings.Undecodable (around : Surroundings) (file : String) : Prop :=
  file ≠ "-" ∧ ∃ bytes, around.look (.ofString file) = .file bytes ∧ ¬ bytes.IsValidUTF8

variable {around : Surroundings} {file : String}

theorem fromUTF8?_eq_none_iff {bytes : ByteArray} : String.fromUTF8? bytes = none ↔ ¬ bytes.IsValidUTF8 := by
  unfold String.fromUTF8?
  split <;> simp_all

theorem after_none (look : Path → Entry) (p : Path) : Entry.after look none p = look p := rfl

/-- Nothing but the bytes of a file can be in the way of a text. -/
theorem source_cases (hnul : '\x00' ∉ file.toList) :
    (around.Undecodable file ∧ source around none file = .error .encoding) ∨
    (¬ around.Undecodable file ∧ ∃ r, source around none file = .ok r) := by
  by_cases hdash : file = "-"
  · exact Or.inr ⟨fun h => h.1 hdash, _, if_pos hdash⟩
  · have hother (hlook : ∀ bytes, around.look (.ofString file) ≠ .file bytes) : ¬ around.Undecodable file :=
      fun ⟨_, bytes, hfile, _⟩ => hlook bytes hfile
    rw [source, if_neg hdash, if_neg hnul, after_none]
    cases hlook : around.look (.ofString file) with
    | missing => exact Or.inr ⟨hother (by simp [hlook]), .error .missing, rfl⟩
    | directory => exact Or.inr ⟨hother (by simp [hlook]), .error .directory, rfl⟩
    | blocked => exact Or.inr ⟨hother (by simp [hlook]), .error .blocked, rfl⟩
    | file bytes =>
        cases htext : String.fromUTF8? bytes with
        | none =>
            have hinvalid := fromUTF8?_eq_none_iff.mp htext
            exact Or.inl ⟨⟨hdash, bytes, hlook, hinvalid⟩, by simp only [htext]⟩
        | some text =>
            refine Or.inr ⟨fun ⟨_, bytes', hlook', hinvalid⟩ => ?_, .ok (Text.unifyReturns text.toList), ?_⟩
            · cases hlook.symm.trans hlook'
              cases htext.symm.trans (fromUTF8?_eq_none_iff.mpr hinvalid)
            · simp only [htext]

theorem digest_of_ok {r : Log.Router} {policy : Policy} {text : List Char} {events : List Session.Event}
    {session : Session} (h : Session.read policy text = (events, .ok session)) :
    digest around r policy file text =
      let written := r.writeAll around.layout (events.map Session.Event.entry)
      { stdout := written.2 ++ session.overview.map .ofList, files := written.1.files, ending := .status 0 } := by
  simp only [digest, Session.parse, h, Except.map]

theorem digest_of_error {r : Log.Router} {policy : Policy} {text : List Char} {events : List Session.Event}
    {f : Failure} (h : Session.read policy text = (events, .error f)) :
    digest around r policy file text =
      let written := r.writeAll around.layout (events.map Session.Event.entry ++ [parseFailed file f])
      { stdout := written.2, stderr := [.ofList ("error: ".toList ++ f.report)], files := written.1.files,
        ending := .status 2 } := by
  simp only [digest, Session.parse, h, Except.map]

/-- What is read counts, and not how it was spelled. -/
theorem digest_congr {r : Log.Router} {policy : Policy} {text text' : List Char}
    (h : Session.read policy text' = Session.read policy text) :
    digest around r policy file text' = digest around r policy file text := by
  cases hread : Session.read policy text with
  | mk events result =>
      cases result with
      | ok s => rw [digest_of_ok (h.trans hread), digest_of_ok hread]
      | error f => rw [digest_of_error (h.trans hread), digest_of_error hread]

/-- Whether a description is refused or not, the run ends in order. -/
theorem ending_digest (r : Log.Router) (policy : Policy) (text : List Char) :
    (digest around r policy file text).ending =
      .status (if (Session.read policy text).2.isOk then 0 else 2) := by
  cases hread : Session.read policy text with
  | mk events result =>
      cases result with
      | ok s =>
          rw [digest_of_ok hread]
          rfl
      | error f =>
          rw [digest_of_error hread]
          rfl

/-- A run that has loaded its settings ends in order just if there is a text or no file. -/
theorem ending_proceed {s : Settings} (hstdout : s.logging.setup.sink = .stdout)
    (hnul : '\x00' ∉ file.toList) :
    (around.Undecodable file ∧ (proceed around s file).ending = .breakdown .encoding) ∨
    (¬ around.Undecodable file ∧
      ∃ code, (code = 0 ∨ code = 2) ∧ (proceed around s file).ending = .status code) := by
  have hrouter : ({} : Log.Router).configure around.look s.logging.setup =
      .ok { setup := s.logging.setup } := by
    rw [Log.Router.configure, hstdout]
  unfold proceed
  rw [hrouter, hstdout, Log.Sink.path?]
  rcases source_cases hnul with ⟨hbytes, hsource⟩ | ⟨hbytes, r, hsource⟩
  · refine Or.inl ⟨hbytes, ?_⟩
    simp only [hsource]
  · refine Or.inr ⟨hbytes, ?_⟩
    cases r with
    | error u => exact ⟨2, Or.inr rfl, by simp only [hsource]⟩
    | ok text =>
        simp only [hsource, ending_digest]
        exact ⟨_, by split <;> simp, rfl⟩

/-- A run goes on as far as its settings can be loaded. -/
theorem run_of_accepted {arguments : List String} {o : Options} (h : read arguments = .ok (.run o)) :
    run around arguments =
      match around.loaded o with
      | .error e =>
        { early := around.early o, stderr := ["설정 로드 실패: " ++ e.message], ending := .status 1 }
      | .ok s => { proceed around (override s o) o.file with early := around.early o } := by
  let path := Settings.filePath o.config around.environment around.defaultConfig
  have hload : Settings.load around.markup path (around.look (.ofString path)) around.environment =
      (around.early o, around.loaded o) := rfl
  simp only [path] at hload
  unfold run
  cases hloaded : around.loaded o with
  | error e => simp only [h, hload, hloaded]
  | ok s => simp only [h, hload, hloaded]

theorem ending_run {arguments : List String} {o : Options} (h : read arguments = .ok (.run o)) :
    (run around arguments).ending =
      match around.loaded o with
      | .error _ => .status 1
      | .ok s => (proceed around (override s o) o.file).ending := by
  rw [run_of_accepted h]
  cases around.loaded o <;> rfl

/-- A run ends with 1 if the settings cannot be loaded, and otherwise with 0 or 2, but not in order if
the description is in a file whose bytes are no text. -/
theorem run_ending (around : Surroundings) (arguments : List String) (o : Options)
    (haccepted : read arguments = .ok (.run o)) (hnul : '\x00' ∉ o.file.toList)
    (hstdout : ∀ s, around.loaded o = .ok s → s.logging.setup.sink = .stdout) :
    ((∃ e, around.loaded o = .error e) ∧ (run around arguments).ending = .status 1) ∨
    ((∃ s, around.loaded o = .ok s) ∧ around.Undecodable o.file ∧
      (run around arguments).ending = .breakdown .encoding) ∨
    ((∃ s, around.loaded o = .ok s) ∧ ¬ around.Undecodable o.file ∧
      ∃ code, (code = 0 ∨ code = 2) ∧ (run around arguments).ending = .status code) := by
  rw [ending_run haccepted]
  cases hloaded : around.loaded o with
  | error e => exact Or.inl ⟨⟨e, rfl⟩, rfl⟩
  | ok s =>
      have hsink : (override s o).logging.setup.sink = .stdout := hstdout s hloaded
      rcases ending_proceed hsink hnul with ⟨hbytes, hending⟩ | ⟨hbytes, hending⟩
      · exact Or.inr (Or.inl ⟨⟨s, rfl⟩, hbytes, hending⟩)
      · exact Or.inr (Or.inr ⟨⟨s, rfl⟩, hbytes, hending⟩)

/-- All files are empty, but for a description whose bytes are no text. -/
def undecodableOffer : Surroundings where
  environment := []
  look := fun p => .file (if p = .ofString "offer.sdp" then ⟨#[0xFF, 0x61]⟩ else .empty)
  input := []
  layout := ⟨"", fun _ => ""⟩

/-- Such bytes leave the run without a status. -/
theorem ending_undecodableOffer :
    ¬ ∃ code, (run undecodableOffer ["offer.sdp"]).ending = .status code := by
  have hending : (run undecodableOffer ["offer.sdp"]).ending = .breakdown .encoding := rfl
  rintro ⟨code, hcode⟩
  cases hending.symm.trans hcode

theorem run_ending_of_undecodableOffer :
    let around := undecodableOffer
    let o : Options := { file := "offer.sdp" }
    read ["offer.sdp"] = .ok (.run o) ∧ '\x00' ∉ o.file.toList ∧ around.loaded o = .ok {} ∧
      (((∃ e, around.loaded o = .error e) ∧ (run around ["offer.sdp"]).ending = .status 1) ∨
      ((∃ s, around.loaded o = .ok s) ∧ around.Undecodable o.file ∧
        (run around ["offer.sdp"]).ending = .breakdown .encoding) ∨
      ((∃ s, around.loaded o = .ok s) ∧ ¬ around.Undecodable o.file ∧
        ∃ code, (code = 0 ∨ code = 2) ∧ (run around ["offer.sdp"]).ending = .status code)) := by
  have hloaded : undecodableOffer.loaded { file := "offer.sdp" } = .ok {} := rfl
  refine ⟨rfl, by decide, hloaded, run_ending undecodableOffer ["offer.sdp"] _ rfl (by decide) fun s hs => ?_⟩
  obtain rfl := Except.ok.inj (hs.symm.trans hloaded)
  rfl

end Sdp.Command
