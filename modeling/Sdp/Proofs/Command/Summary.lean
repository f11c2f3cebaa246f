import Sdp.Proofs.Command.Outcome
import Sdp.Proofs.Session.Shown

/-!
# What a run prints

Main statement: `summary_unbroken`. A run prints its summary, or the one line that says why there is none,
on just as many lines as there are things to say.
-/

namespace Sdp.Command

open Text (IsUnbroken printed)

variable {around : Surroundings} {s : Settings} {file : String} {text : List Char}

/-- The line that says why a description is refused. -/
def errorLine (f : Failure) : List Char :=
  "error: ".toList ++ f.report

theorem isUnbroken_errorLine (f : Failure) : IsUnbroken (errorLine f) :=
  Text.isUnbroken_append.mpr ⟨Text.isUnbroken_of_printable (Text.forall_isPrintable_of_ascii (by decide)),
    Text.isUnbroken_of_printable f.isPrintable_of_mem_report⟩

/-- A run that finds a text digests it, and writes what it has to tell by its setup. -/
theorem proceed_of_holds (hnul : '\x00' ∉ file.toList) (hwritable : s.logging.setup.Writable around.look)
    (hholds : around.Holds s.logging.setup file text) :
    ∃ r text', proceed around s file = digest around r s.parser file text' ∧
      (∀ policy, Session.read policy text' = Session.read policy text) ∧
      ∀ events, (r.writeAll around.layout events).2 = s.logging.setup.shown around.layout events := by
  obtain ⟨r, hr⟩ := Log.Router.exists_configure hwritable
  obtain ⟨text', hsource, hread⟩ := source_of_holds hnul hholds
  exact ⟨r, text', by simp only [proceed, hr, hsource], hread, fun events =>
    (Log.Router.writeAll_of_configure hr around.layout events).2⟩

/-- A summary has one line for the session, one for each media description and one for each warning, in this
order, and written out it still has, whatever characters are in the description. A warning is printable and
gives its text back. The line about a refused description stays one line, too. A run writes just these: the
summary behind its log lines, or that line apart from them. -/
theorem summary_unbroken :
    (∀ policy text session, (Session.read policy text).2 = .ok session →
      session.IsShown session.overview ∧ Text.lines (printed session.overview) = session.overview) ∧
    (∀ policy text f, (Session.read policy text).2 = .error f →
      IsUnbroken (errorLine f) ∧ Text.lines (printed [errorLine f]) = [errorLine f]) ∧
    ∀ around arguments o s text, read arguments = .ok (.run o) → '\x00' ∉ o.file.toList →
      around.loaded o = .ok s → (override s o).logging.setup.Writable around.look →
      around.Holds (override s o).logging.setup o.file text →
      let shown := (override s o).logging.setup.shown around.layout
      (∀ events session, Session.read (override s o).parser text = (events, .ok session) →
        (run around arguments).stdout =
          shown (events.map Session.Event.entry) ++ session.overview.map .ofList ∧
        (run around arguments).stderr = []) ∧
      ∀ events f, Session.read (override s o).parser text = (events, .error f) →
        (run around arguments).stdout = shown (events.map Session.Event.entry ++ [refusalEvent o.file f]) ∧
        (run around arguments).stderr = [.ofList (errorLine f)] := by
  refine ⟨fun policy text session h => ?_, fun policy text f _ => ?_, ?_⟩
  · exact ⟨Session.isShown_overview h, Text.lines_printed (Session.isUnbroken_of_mem_overview h)⟩
  · exact ⟨isUnbroken_errorLine f, Text.lines_printed (List.forall_mem_singleton.mpr (isUnbroken_errorLine f))⟩
  · intro around arguments o s text haccepted hnul hloaded hwritable hholds
    obtain ⟨r, text', hproceed, hread, hwritten⟩ := proceed_of_holds hnul hwritable hholds
    have hrun : run around arguments =
        { digest around r (override s o).parser o.file text' with early := around.early o } := by
      rw [run_of_accepted haccepted, hloaded]
      simp only [hproceed]
    rw [hrun, ← hread]
    refine ⟨fun events session h => ?_, fun events f h => ?_⟩
    · rw [digest_of_ok h, ← hwritten]
      exact ⟨rfl, rfl⟩
    · rw [digest_of_error h, ← hwritten, parseFailed_eq]
      exact ⟨rfl, rfl⟩

/-- A name with a quote and a control character in it is shown on one line, and read back from there. -/
theorem summary_unbroken_of_quote :
    let text := "a=it's\u007F:1\nm=audio\u20039 RTP/AVP 0".toList
    let session : Session :=
      { media := [{ type := "audio", port := 9, protocol := "RTP/AVP", formats := ["0"] }]
        warnings := [⟨1, fault .unknownAttribute "it's\u007F".toList⟩] }
    let events : List Session.Event := [.skipped 1 (fault .unknownAttribute "it's\u007F".toList), .parsed 1 0 1]
    let around : Surroundings :=
      { environment := [], look := fun _ => .file .empty, input := text, layout := ⟨"now", fun _ => ""⟩ }
    Session.read {} text = (events, .ok session) ∧ session.IsShown session.overview ∧
      Text.lines (printed session.overview) =
        ["session: -", "m=audio 9 RTP/AVP: -",
          "warning: line 1: unsupported attribute value: \"it's\\x7f\""].map String.toList ∧
      IsUnbroken (errorLine ⟨fault .blank [], none⟩) ∧
      (run around ["-"]).stdout = Log.Setup.shown ⟨.info, .json, .stdout⟩ around.layout
        (events.map Session.Event.entry) ++ session.overview.map .ofList ∧
      (run around ["-"]).stderr = [] := by
  intro text session events around
  have hunknown : LineReading.ofLine .lenient "a=it's\u007F:1".toList =
      { skipped := [fault .unknownAttribute "it's\u007F".toList], item := .ok .nothing } := by
    change LineReading.ofAttribute .lenient _ = _
    rw [LineReading.ofAttribute]
    rfl
  have hlines : Text.lines text = ["a=it's\u007F:1", "m=audio\u20039 RTP/AVP 0"].map String.toList := by
    decide
  have hread : Session.read {} text = (events, .ok session) := by
    rw [Session.read, if_neg (by decide), hlines]
    simp only [List.map_cons, Session.readLines, hunknown]
    rfl
  have hoverview : session.overview = ["session: -", "m=audio 9 RTP/AVP: -",
      "warning: line 1: unsupported attribute value: \"it's\\x7f\""].map String.toList := by
    decide +kernel
  have hloaded : around.loaded { file := "-" } = .ok {} := by
    change (Settings.load Yaml.read "config/config.yaml" (.file .empty) []).2 = _
    rfl
  have hwritable : (override {} { file := "-" }).logging.setup.Writable around.look :=
    Log.Setup.writable_of_stdout rfl
  obtain ⟨hshown, hprinted⟩ := summary_unbroken.1 {} text session (by rw [hread])
  have hrun := summary_unbroken.2.2 around ["-"] { file := "-" } {} text rfl (by decide) hloaded hwritable
    (.input rfl)
  exact ⟨hread, hshown, hprinted.trans hoverview, (summary_unbroken.2.1 {} [] _ rfl).1, hrun.1 events session hread⟩

end Sdp.Command
