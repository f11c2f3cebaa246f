import Mathlib.Logic.Relation
import Sdp.Proofs.Command.Ending
import Sdp.Proofs.Session.Refused
import Sdp.Proofs.Text.Respelling

/-!
# Reading respelled descriptions

Main statement: `Command.run_respelled`. A description says the same whatever ends its lines and
whatever blanks stand at their edges, and so the summary of a file is that of the text in it.
-/

namespace Sdp

open Text (Respelling isBlank rows)

theorem LineReading.ofLine_trim (mode : Mode) (line : List Char) :
    ofLine mode (Text.trim line) = ofLine mode line := by
  rw [ofLine, Text.trim_trim, ofLine]

namespace Session

theorem readLines_map_trim (policy : Policy) (s : Session) (n : Nat) (ls : List (List Char)) :
    readLines policy s n (ls.map Text.trim) = readLines policy s n ls := by
  induction ls generalizing s n with
  | nil => rfl
  | cons line ls ih => simp only [List.map_cons, readLines, LineReading.ofLine_trim, ih]

theorem readLines_rows (policy : Policy) (s : Session) (n : Nat) (text : List Char) :
    readLines policy s n (rows text) = readLines policy s n (Text.lines text) := by
  rw [rows, readLines_map_trim]
  rcases Text.allLines_eq text with h | h
  · rw [h]
  · rw [h, readLines_concat_nil]

/-- A reader looks at the rows of a description only. -/
theorem read_of_rows_eq {text text' : List Char} (h : rows text' = rows text) (policy : Policy) :
    read policy text' = read policy text := by
  have hblank : (∀ c ∈ text', isBlank c) ↔ ∀ c ∈ text, isBlank c := by
    rw [Text.forall_isBlank_iff_rows, Text.forall_isBlank_iff_rows, h]
  by_cases hb : ∀ c ∈ text, isBlank c
  · rw [read_of_isBlank hb, read_of_isBlank (hblank.mpr hb)]
  · rw [read_of_not_isBlank hb, read_of_not_isBlank (mt hblank.mp hb), ← readLines_rows, h, readLines_rows]

end Session

namespace Command

/-- A run comes to read a file, with settings `s` of which it sets up logging as `r`. The file holds
the text. -/
structure Comes (around : Surroundings) (arguments : List String) (o : Options) (s : Settings)
    (r : Log.Router) (text : List Char) : Prop where
  accepted : read arguments = .ok (.run o)
  loaded : around.loaded o = .ok s
  configured : ({} : Log.Router).configure around.look (override s o).logging.setup = .ok r
  named : o.file ≠ "-" ∧ '\x00' ∉ o.file.toList
  decoded : ∃ bytes, around.look (.ofString o.file) = .file bytes ∧
    String.fromUTF8? bytes = some (.ofList text)

variable {around : Surroundings} {arguments : List String} {o : Options} {s : Settings} {r : Log.Router}
  {text : List Char}

/-- Such a run reads the text with its carriage returns written as line feeds. -/
theorem run_of_comes (h : Comes around arguments o s r text) :
    run around arguments =
      { digest around r (override s o).parser o.file (Text.unifyReturns text) with
        early := around.early o } := by
  obtain ⟨bytes, hlook, htext⟩ := h.decoded
  have hafter (opened : Option Path) : Entry.after around.look opened (.ofString o.file) = .file bytes := by
    cases opened <;> simp only [Entry.after, hlook]
  have hsource (opened : Option Path) :
      source around opened o.file = .ok (.ok (Text.unifyReturns text)) := by
    simp only [source, if_neg h.named.1, if_neg h.named.2, hafter, htext, String.toList_ofList]
  have hproceed : proceed around (override s o) o.file =
      digest around r (override s o).parser o.file (Text.unifyReturns text) := by
    simp only [proceed, h.configured, hsource]
  rw [run_of_accepted h.accepted, h.loaded, ← hproceed]

/-- A description says the same whether or not its carriage returns are written as line feeds, and
however its line ends and the blanks at the edges of its lines are spelled. So a run makes of a file
what is to be made of the text in it, as it stands there or respelled. -/
theorem run_respelled {text text' : List Char} (h : Relation.ReflTransGen Respelling text text') :
    (∀ policy, Session.read policy (Text.unifyReturns text) = Session.read policy text) ∧
    (∀ policy, Session.read policy text' = Session.read policy text) ∧
    ∀ around arguments o s r, Comes around arguments o s r text →
      run around arguments =
        { digest around r (override s o).parser o.file text with early := around.early o } ∧
      run around arguments =
        { digest around r (override s o).parser o.file text' with early := around.early o } := by
  have hunify : ∀ policy, Session.read policy (Text.unifyReturns text) = Session.read policy text :=
    Session.read_of_rows_eq (Text.rows_unifyReturns text)
  have hread : ∀ policy, Session.read policy text' = Session.read policy text := by
    induction h with
    | refl => exact fun _ => rfl
    | tail _ hstep ih =>
        exact fun policy => (Session.read_of_rows_eq (Text.rows_of_respelling hstep) policy).trans (ih policy)
  refine ⟨hunify, hread, fun around arguments o s r hcomes => ?_⟩
  have hrun := run_of_comes hcomes
  rw [digest_congr (hunify _)] at hrun
  exact ⟨hrun, by rw [digest_congr (hread _)]; exact hrun⟩

/-- A file with two lines, of which the first ends with carriage return and line feed. -/
def windowsOffer : Surroundings where
  environment := []
  look := fun p => .file (if p = .ofString "offer.sdp" then "v=1\r\na=mid:x\r\n".toUTF8 else .empty)
  input := []
  layout := ⟨"", fun _ => ""⟩

/-- One of the line ends is written as another, and then the first line is indented. -/
theorem run_respelled_of_windowsOffer :
    let text := "v=1\r\na=mid:x\r\n".toList
    let text' := " v=1\u2028a=mid:x\r\n".toList
    Relation.ReflTransGen Respelling text text' ∧
    Comes windowsOffer ["offer.sdp"] { file := "offer.sdp" } {} { setup := LogSettings.setup {} } text ∧
    run windowsOffer ["offer.sdp"] =
      { digest windowsOffer { setup := LogSettings.setup {} } {} "offer.sdp" text' with
        early := windowsOffer.early { file := "offer.sdp" } } := by
  intro text text'
  have hend : Respelling text "v=1\u2028a=mid:x\r\n".toList :=
    @Respelling.lineEnd "v=1".toList "a=mid:x\r\n".toList "\r\n".toList "\u2028".toList .returnFeed
      (.single rfl) (by decide) (by decide)
  have hmargin : Respelling "v=1\u2028a=mid:x\r\n".toList text' :=
    @Respelling.margin [] "v=1\u2028a=mid:x\r\n".toList [] [' '] nofun
      (List.forall_mem_singleton.mpr (by decide)) (Or.inl nofun) (by decide) (by decide)
  have hcomes : Comes windowsOffer ["offer.sdp"] { file := "offer.sdp" } {} { setup := LogSettings.setup {} }
      text :=
    ⟨rfl, rfl, rfl, by decide, _, rfl, rfl⟩
  have hsteps := (Relation.ReflTransGen.single hend).tail hmargin
  exact ⟨hsteps, hcomes, ((run_respelled hsteps).2.2 _ _ _ _ _ hcomes).2⟩

end Command

end Sdp
