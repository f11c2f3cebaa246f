import Sdp.Command.Outcome
import Sdp.Proofs.Command.Respelled
import Sdp.Proofs.Log.Faithful
import Sdp.Proofs.Log.Written
import Sdp.Proofs.Session.Counts

/-!
# What comes of a run

Main statement: `run_outcome`. The status of a run, its results and its log lines agree on how far it
came, wherever the log lines go.
-/

namespace Sdp.Command

variable {around : Surroundings} {setup : Log.Setup} {s : Settings} {file : String} {text text' : List Char}
  {code : Nat} {events : List Log.Event} {results : List String}

/-! ## The text of a description -/

theorem Surroundings.Holds.unique (h : around.Holds setup file text) (h' : around.Holds setup file text') :
    text = text' := by
  cases h with
  | input hfile =>
      cases h' with
      | input => rfl
      | file hfile' => exact absurd hfile hfile'
  | file hfile found decoded =>
      cases h' with
      | input hfile' => exact absurd hfile' hfile
      | file _ found' decoded' =>
          cases found.symm.trans found'
          cases decoded.symm.trans decoded'
          rfl

/-- What is read differs from the text by the spelling of line ends at most. -/
theorem source_of_holds (hnul : '\x00' ∉ file.toList) (h : around.Holds setup file text) :
    ∃ text', source around setup.sink.path? file = .ok (.ok text') ∧
      ∀ policy, Session.read policy text' = Session.read policy text := by
  cases h with
  | input hfile => exact ⟨around.input, if_pos hfile, fun _ => rfl⟩
  | @file bytes text hfile found decoded =>
      rw [Surroundings.found] at found
      refine ⟨Text.unifyReturns text.toList, ?_, Session.read_of_rows_eq (Text.rows_unifyReturns _)⟩
      simp only [source, if_neg hfile, if_neg hnul, found, decoded]

theorem source_of_unreadable {u : Unreadable} (hnul : '\x00' ∉ file.toList) (hfile : file ≠ "-")
    (h : unreadable? (around.found setup file) = some u) :
    source around setup.sink.path? file = .ok (.error u) := by
  rw [Surroundings.found] at h
  rw [source, if_neg hfile, if_neg hnul]
  cases hfound : Entry.after around.look setup.sink.path? (.ofString file) with
  | file bytes => simp [hfound, unreadable?] at h
  | _ =>
      simp only [hfound, unreadable?, Option.some.injEq] at h
      rw [← h]

/-- There is a text, or something else than a file of text. -/
theorem holds_or_unreadable
    (hdecodable : ∀ bytes, file ≠ "-" → around.found setup file = .file bytes → bytes.IsValidUTF8) :
    (∃ text, around.Holds setup file text) ∨
      (file ≠ "-" ∧ ∃ u, unreadable? (around.found setup file) = some u) := by
  by_cases hfile : file = "-"
  · exact Or.inl ⟨_, .input hfile⟩
  · cases hfound : around.found setup file with
    | file bytes =>
        cases hdecoded : String.fromUTF8? bytes with
        | none => exact absurd (hdecodable bytes hfile hfound) (fromUTF8?_eq_none_iff.mp hdecoded)
        | some text => exact Or.inl ⟨_, .file hfile hfound hdecoded⟩
    | _ => exact Or.inr ⟨hfile, _, rfl⟩

theorem not_holds_of_unreadable {u : Unreadable} (hfile : file ≠ "-")
    (h : unreadable? (around.found setup file) = some u) : ¬ around.Holds setup file text := by
  intro hholds
  cases hholds with
  | input hfile' => exact hfile hfile'
  | file _ found =>
      rw [found] at h
      cases h

/-! ## From the settings on -/

theorem parseFailed_eq (file : String) (f : Failure) : parseFailed file f = refusalEvent file f := by
  unfold parseFailed refusalEvent
  cases f.line <;> rfl

theorem readFailed_eq (file : String) (u : Unreadable) : readFailed file u = unreadableEvent file u := rfl

theorem outcome_proceed (hnul : '\x00' ∉ file.toList) (hwritable : s.logging.setup.Writable around.look)
    (hdecodable : ∀ bytes, file ≠ "-" → around.found s.logging.setup file = .file bytes → bytes.IsValidUTF8) :
    ∃ code events results, Outcome around s file code events results ∧
      (proceed around s file).ending = .status code ∧
      (proceed around s file).stdout = s.logging.setup.shown around.layout events ++ results ∧
      (proceed around s file).files = s.logging.setup.filed around.layout events := by
  obtain ⟨r, hr⟩ := Log.Router.exists_configure hwritable
  have hwritten := Log.Router.writeAll_of_configure hr around.layout
  rcases holds_or_unreadable hdecodable with ⟨text, hholds⟩ | ⟨hfile, u, hu⟩
  · obtain ⟨text', hsource, hread⟩ := source_of_holds hnul hholds
    have hproceed : proceed around s file = digest around r s.parser file text' := by
      simp only [proceed, hr, hsource]
    rw [hproceed]
    cases hresult : Session.read s.parser text with
    | mk told result =>
        have hdigested := (hread s.parser).trans hresult
        cases result with
        | ok session =>
            obtain ⟨hfiles, hstdout⟩ := hwritten (told.map Session.Event.entry)
            rw [digest_of_ok hdigested]
            exact ⟨0, _, _, .summarised hholds hresult, rfl, by rw [← hstdout], hfiles⟩
        | error f =>
            obtain ⟨hfiles, hstdout⟩ := hwritten (told.map Session.Event.entry ++ [refusalEvent file f])
            rw [digest_of_error hdigested, parseFailed_eq]
            exact ⟨2, _, _, .refused hholds hresult, rfl, by rw [← hstdout, List.append_nil], hfiles⟩
  · obtain ⟨hfiles, hstdout⟩ := hwritten [unreadableEvent file u]
    have hsource := source_of_unreadable hnul hfile hu
    refine ⟨2, _, _, .unreadable hfile hu, ?_, ?_, ?_⟩
    · simp only [proceed, hr, hsource]
    · simp only [proceed, hr, hsource, readFailed_eq, hstdout, List.append_nil]
    · simp only [proceed, hr, hsource, readFailed_eq, hfiles]

/-! ## Outcomes -/

namespace Outcome

/-- All runs with a session have the one status, and all without have the other. -/
theorem status (h : Outcome around s file code events results) :
    (code = 2 ↔ ¬ ∃ text session, around.Holds s.logging.setup file text ∧
      (Session.read s.parser text).2 = .ok session) ∧ (code ≠ 2 → code = 0) := by
  cases h with
  | @summarised text told session hholds hread =>
      refine ⟨iff_of_false (by decide) fun h => h ⟨text, session, hholds, by rw [hread]⟩, fun _ => rfl⟩
  | @refused text told f hholds hread =>
      refine ⟨iff_of_true rfl ?_, fun h => absurd rfl h⟩
      rintro ⟨text', session, hholds', hread'⟩
      rw [← hholds.unique hholds', hread] at hread'
      cases hread'
  | unreadable hfile hu =>
      refine ⟨iff_of_true rfl ?_, fun h => absurd rfl h⟩
      rintro ⟨text, session, hholds, -⟩
      exact not_holds_of_unreadable hfile hu hholds

theorem not_isFailure_entry (e : Session.Event) : ¬ IsFailure e.entry := by
  cases e <;> simp [IsFailure, Session.Event.entry]

/-- Where there is no session there are no results, and one event says why. -/
theorem failure (h : Outcome around s file 2 events results) :
    results = [] ∧ ∃ failed, events.filter (IsFailure ·) = [failed] ∧ failed.level = .error ∧
      (∀ text f, around.Holds s.logging.setup file text → (Session.read s.parser text).2 = .error f →
        failed = refusalEvent file f) ∧
      ((∀ text, ¬ around.Holds s.logging.setup file text) →
        ∃ u, unreadable? (around.found s.logging.setup file) = some u ∧ failed = unreadableEvent file u) := by
  cases h with
  | @refused text told f hholds hread =>
      refine ⟨rfl, refusalEvent file f, ?_, rfl, ?_, fun hnone => absurd hholds (hnone text)⟩
      · have hnone : (told.map Session.Event.entry).filter (IsFailure ·) = [] := by
          simp [List.filter_eq_nil_iff, not_isFailure_entry]
        rw [List.filter_append, hnone]
        rfl
      · intro text' f' hholds' hread'
        rw [← hholds.unique hholds', hread] at hread'
        cases hread'
        rfl
  | @unreadable u hfile hu =>
      refine ⟨rfl, unreadableEvent file u, rfl, rfl, ?_, fun _ => ⟨u, hu, rfl⟩⟩
      intro text f hholds
      exact absurd hholds (not_holds_of_unreadable hfile hu)

/-- What a run logs can be written, unless its description is longer than any. -/
theorem line?_eq (h : Outcome around s file code events results) (hlimit : s.parser.maxWarnings < Nat.pow 10 4300)
    (htext : ∀ text, around.Holds s.logging.setup file text → text.length < Nat.pow 10 4300) (layout : Log.Layout)
    (format : Log.Format) : ∀ e ∈ events, Log.line? layout format [] e = some (Log.line layout format [] e) := by
  have hline (e : Log.Event) (hdistinct : e.fields.Distinct) (hshort : ∀ field ∈ e.fields, field.2.Short) :
      Log.line? layout format [] e = some (Log.line layout format [] e) :=
    Log.line?_of_short (.record ((Log.tells_record (by decide) hdistinct).forall_mem .text (by simp) hshort)) format
  have htold {text : List Char} (hholds : around.Holds s.logging.setup file text) :
      ∀ e ∈ (Session.read s.parser text).1.map Session.Event.entry,
        Log.line? layout format [] e = some (Log.line layout format [] e) := by
    refine List.forall_mem_map.mpr fun e he => hline _ ?_ (Session.short_of_mem_read (htext text hholds) hlimit e he)
    cases e <;> simp [Session.Event.entry, Session.faultFields, Named.Distinct, Named.names]
  cases h with
  | @summarised text told session hholds hread =>
      have htold := htold hholds
      rwa [hread] at htold
  | @refused text told f hholds hread =>
      have htold := htold hholds
      rw [hread] at htold
      refine List.forall_mem_append.mpr ⟨htold, List.forall_mem_singleton.mpr (hline _ ?_ ?_)⟩
      · simp [refusalEvent, Named.Distinct, Named.names]
      have hnumber : (f.line.elim Value.null fun n => .int n).Short := by
        cases hn : f.line with
        | none => exact .null
        | some n =>
            exact Value.short_natCast (Session.line_le_of_refused (by rw [hread]) hn) (htext text hholds)
      simp only [refusalEvent, List.forall_mem_cons]
      exact ⟨.text _, hnumber, .text _, .text _, List.forall_mem_nil _⟩
  | @unreadable u hfile hu =>
      refine List.forall_mem_singleton.mpr (hline _ (by simp [unreadableEvent, Named.Distinct, Named.names]) ?_)
      simp only [unreadableEvent, List.forall_mem_cons]
      exact ⟨.text _, .text _, List.forall_mem_nil _⟩

end Outcome

theorem mem_written_iff {failed : Log.Event} (h : events.filter (IsFailure ·) = [failed])
    (hlevel : failed.level = .error) : failed ∈ setup.written events ↔ setup.threshold ≠ .critical := by
  have hmem : failed ∈ events.filter (IsFailure ·) := h ▸ List.mem_singleton_self failed
  have hevents : failed ∈ events := (List.mem_filter.mp hmem).1
  rw [Log.Setup.written, List.mem_filter, hlevel]
  cases setup.threshold <;> simp [hevents, Log.Level.severity]

/-! ## Whole runs -/

/-- A directory with settings that send log lines to a file, and a description that is refused. -/
def filedOffer : Surroundings where
  environment := []
  look := fun p =>
    if p.names = [] then .directory
    else if p = .ofString "config/config.yaml" then .file "logging:\n  output: file\n".toUTF8
    else if p = .ofString "offer.sdp" then .file "m=audio".toUTF8
    else .missing
  input := []
  layout := ⟨"", fun _ => ""⟩

theorem found_filedOffer :
    filedOffer.found ⟨.info, .json, .file "logs/sdpattr.log"⟩ "logs/../offer.sdp" = .file "m=audio".toUTF8 := by
  have hmissing : filedOffer.look (.ofString "logs/../offer.sdp") = .missing := rfl
  have hstages : (Path.ofString "logs/../offer.sdp").stages =
      [⟨false, ["logs"]⟩, ⟨false, []⟩, ⟨false, ["offer.sdp"]⟩] := rfl
  have hmade : Entry.beside filedOffer.look (.ofString "logs/sdpattr.log") ⟨false, ["logs"]⟩ = .directory := rfl
  have hhere : Entry.beside filedOffer.look (.ofString "logs/sdpattr.log") ⟨false, []⟩ = .directory := rfl
  have hoffer : Entry.beside filedOffer.look (.ofString "logs/sdpattr.log") ⟨false, ["offer.sdp"]⟩ =
      .file "m=audio".toUTF8 := rfl
  simp only [Surroundings.found, Log.Sink.path?, Entry.after, hmissing, hstages, Entry.follow, hmade, hhere,
    hoffer]

end Sdp.Command
