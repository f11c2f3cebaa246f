import Sdp.Proofs.Attribute.Offending
import Sdp.Proofs.Session.Accounting
import Sdp.Proofs.Session.Refused
import Sdp.Proofs.Session.Sanitised

/-!
# Diagnostics point into the description

Faults, warnings and events name a line of the description and show a piece of it. Main statement:
`Session.read_diagnostics`.
-/

namespace Sdp

open Session (Event)
open Text (isBlank)

variable {text line : List Char}

/-! ## Connections and media descriptions -/

theorem Network.pointsInto_readType (s : List Char) : PointsInto s (readType s) := by
  unfold readType
  split
  · exact .ok s ()
  · exact .refuse _ List.infix_rfl

theorem Network.pointsInto_readFamily (s : List Char) : PointsInto s (readFamily s) := by
  unfold readFamily
  split
  · exact .ok s _
  · exact .refuse _ List.infix_rfl

theorem Item.pointsInto_readConnection (value : List Char) : PointsInto value (readConnection value) := by
  unfold readConnection
  split
  · next network family address hwords =>
      have hword {w : List Char} (hw : w ∈ [network, family, address]) : w <:+: value :=
        Text.infix_of_mem_words (hwords ▸ hw)
      refine .bind (((Network.pointsInto_readType network).widen _).mono (hword (by simp))) fun _ => ?_
      refine .bind (((Network.pointsInto_readFamily family).widen _).mono (hword (by simp))) fun _ => ?_
      exact .ok value _
  · exact .refuse _ List.infix_rfl

theorem Item.pointsInto_readMedia (value : List Char) : PointsInto value (readMedia value) := by
  unfold readMedia
  split
  · next type port protocol format formats hwords =>
      split
      · exact .refuse _ (Text.infix_of_mem_words (hwords ▸ by simp))
      · exact .ok value _
  · exact .refuse _ List.infix_rfl

/-! ## Attributes of a description -/

namespace LineReading

theorem pointsInto_toItem {s : List Char} {r : Reading Attribute} (h : PointsInto s r) :
    PointsInto s (toItem r) := by
  cases r with
  | ok a => exact .ok s _
  | error d =>
      rintro _ ⟨⟩
      exact h d rfl

/-- What is left of the text when unknown extensions are cut out is blamed on the text all the same. -/
theorem pointsInto_knownItem (text : List Char) : PointsInto text (knownItem text) := by
  have hvalue := (Attribute.splitLine_infix text).2
  unfold knownItem
  dsimp only
  split
  · exact .ok text _
  · refine pointsInto_toItem (PointsInto.map (.mono ?_ hvalue) _)
    rw [Candidate.readKnown_eq]
    refine Candidate.pointsInto_readMandatory_bind ?_
    exact List.Subset.trans (Candidate.dropUnknown_subset _) (List.drop_subset _ _)
  · exact pointsInto_toItem ((Attribute.pointsInto_read _ _).mono hvalue)

theorem mem_of_mem_namesBeforeRefused {tokens : List (List Char)} {name : List Char}
    (h : name ∈ Candidate.namesBeforeRefused tokens) : name ∈ tokens := by
  obtain ⟨p, hp, rfl⟩ := List.mem_map.mp h
  have hpair := (List.takeWhile_prefix _).subset (List.mem_of_mem_filter hp)
  exact (Candidate.mem_of_mem_pairs hpair).1

theorem liesIn_unknownBeforeRefused {e : Fault Defect} (h : e ∈ unknownBeforeRefused text) : e.LiesIn text := by
  obtain ⟨hkeyword, hvalue⟩ := Attribute.splitLine_infix text
  unfold unknownBeforeRefused at h
  dsimp only at h
  split at h
  · rw [List.mem_singleton.mp h]
    exact liesIn_fault _ hkeyword
  · split at h
    · obtain ⟨name, hname, rfl⟩ := List.mem_map.mp h
      have hmem := List.mem_of_mem_drop (mem_of_mem_namesBeforeRefused hname)
      exact liesIn_fault _ ((Text.infix_of_mem_words hmem).trans hvalue)
    · cases h
  · cases h

/-- What a line is refused for is shown as it stands on the line. -/
theorem pointsInto_item (mode : Mode) (line : List Char) : PointsInto line (ofLine mode line).item := by
  cases htext : attributeText? line with
  | some text =>
      refine PointsInto.mono ?_ (infix_of_attributeText htext)
      rw [ofLine_of_attributeText htext]
      cases mode with
      | strict =>
          rw [ofAttribute_strict]
          exact pointsInto_toItem (Attribute.pointsInto_ofLine text)
      | lenient =>
          rw [ofAttribute_lenient]
          exact pointsInto_knownItem text
  | none =>
      unfold attributeText? at htext
      unfold ofLine
      split
      · exact .ok line _
      · next field value hcut =>
          have hvalue := (Text.infix_of_cut_eq_some hcut).2.trans (Text.trim_infix line)
          split
          -- Of the other fields only connections and media descriptions can be refused.
          case h_4 => exact (Item.pointsInto_readConnection value).mono hvalue
          case h_6 => exact (Item.pointsInto_readMedia value).mono hvalue
          case h_7 => simp [hcut] at htext
          all_goals exact .ok line _

/-- So is what is skipped on a line. -/
theorem liesIn_skipped {mode : Mode} {e : Fault Defect} (h : e ∈ (ofLine mode line).skipped) :
    e.LiesIn line := by
  cases htext : attributeText? line with
  | some text =>
      rw [ofLine_of_attributeText htext] at h
      cases mode with
      | strict =>
          rw [ofAttribute_strict] at h
          cases h
      | lenient =>
          rw [ofAttribute_lenient] at h
          exact List.IsInfix.trans (liesIn_unknownBeforeRefused h) (infix_of_attributeText htext)
  | none =>
      rw [ofLine_of_attributeText_none htext] at h
      cases h

end LineReading

/-! ## Descriptions -/

/-- The piece stands on line `n` of the text. -/
def StandsOn (piece : String) (text : List Char) (n : Nat) : Prop :=
  ∃ before line after, Text.lines text = before ++ line :: after ∧ n = before.length + 1 ∧
    piece.toList <:+: line

theorem mem_skippedFrom_iff {mode : Mode} {n : Nat} {ls : List (List Char)} {w : Warning} :
    w ∈ skippedFrom mode n ls ↔ ∃ before line after, ls = before ++ line :: after ∧
      w.line = n + before.length ∧ w.fault ∈ (LineReading.ofLine mode line).skipped := by
  induction ls generalizing n with
  | nil => simp [skippedFrom]
  | cons l ls ih =>
      rw [skippedFrom, List.mem_append, List.mem_map, ih]
      constructor
      · rintro (⟨e, he, rfl⟩ | ⟨before, line, after, rfl, hline, hmem⟩)
        · exact ⟨[], l, ls, rfl, rfl, he⟩
        · exact ⟨l :: before, line, after, rfl, by rw [hline, List.length_cons]; omega, hmem⟩
      · rintro ⟨before, line, after, hls, hline, hmem⟩
        cases before with
        | nil =>
            obtain ⟨rfl, rfl⟩ := List.cons.inj hls
            exact Or.inl ⟨w.fault, hmem, congrArg (Warning.mk · w.fault) hline.symm⟩
        | cons l' before =>
            obtain ⟨rfl, rfl⟩ := List.cons.inj hls
            exact Or.inr ⟨before, line, after, rfl, by rw [hline, List.length_cons]; omega, hmem⟩

/-- What is skipped is listed in the order of the lines. -/
theorem pairwise_skippedFrom (mode : Mode) (n : Nat) (ls : List (List Char)) :
    (skippedFrom mode n ls).Pairwise fun v w => v.line ≤ w.line := by
  induction ls generalizing n with
  | nil => exact List.Pairwise.nil
  | cons line ls ih =>
      rw [skippedFrom, List.pairwise_append, List.pairwise_map]
      refine ⟨List.pairwise_of_forall fun _ _ => Nat.le_refl n, ih (n + 1), fun v hv w hw => ?_⟩
      obtain ⟨e, -, rfl⟩ := List.mem_map.mp hv
      obtain ⟨before, -, -, -, hline, -⟩ := mem_skippedFrom_iff.mp hw
      exact hline ▸ Nat.le_add_right_of_le (Nat.le_succ n)

theorem standsOn_skippedFrom {mode : Mode} {w : Warning} (h : w ∈ skippedFrom mode 1 (Text.lines text)) :
    StandsOn w.fault.text text w.line := by
  obtain ⟨before, line, after, hlines, hline, hmem⟩ := mem_skippedFrom_iff.mp h
  exact ⟨before, line, after, hlines, by rw [hline, Nat.add_comm], LineReading.liesIn_skipped hmem⟩

namespace Session

theorem text_of_mem_rejection {m n : Nat} {e : Fault Problem} {d : Fault Defect}
    (h : Event.rejected m d ∈ rejection n e) : m = n ∧ d.text = e.text := by
  unfold rejection at h
  split at h
  · cases List.mem_singleton.mp h
    exact ⟨rfl, rfl⟩
  · cases h

theorem skipped_not_mem_rejection (m n : Nat) (d : Fault Defect) (e : Fault Problem) :
    Event.skipped m d ∉ rejection n e := by
  unfold rejection
  split <;> simp

theorem skipped_mem_map_event_iff {ws : List Warning} {n : Nat} {e : Fault Defect} :
    Event.skipped n e ∈ ws.map Warning.event ↔ ⟨n, e⟩ ∈ ws := by
  constructor
  · intro h
    obtain ⟨w, hw, hevent⟩ := List.mem_map.mp h
    cases hevent
    exact hw
  · exact fun h => List.mem_map_of_mem h

theorem rejected_not_mem_map_event (ws : List Warning) (n : Nat) (e : Fault Defect) :
    Event.rejected n e ∉ ws.map Warning.event := by
  intro h
  obtain ⟨w, -, hevent⟩ := List.mem_map.mp h
  cases hevent

theorem standsOn_event {policy : Policy} {events : List Event} {result : Except Failure Session}
    (h : readLines policy {} 1 (Text.lines text) = (events, result)) {n : Nat} {e : Fault Defect}
    (he : Event.skipped n e ∈ events ∨ Event.rejected n e ∈ events) : StandsOn e.text text n := by
  cases result with
  | ok s =>
      obtain ⟨-, rfl, -⟩ := readLines_ok h
      simp only [List.mem_append, skipped_mem_map_event_iff, rejected_not_mem_map_event, List.mem_singleton,
        summary, reduceCtorEq, or_false] at he
      exact standsOn_skippedFrom he
  | error f =>
      obtain ⟨before, line, after, e', hlines, -, hitem, rfl, rfl⟩ := readLines_error h
      have hlines' : Text.lines text = (before ++ [line]) ++ after := by rw [hlines, List.append_cons]
      simp only [List.mem_append, skipped_mem_map_event_iff, rejected_not_mem_map_event,
        skipped_not_mem_rejection, or_false, false_or] at he
      rcases he with hskipped | hrejected
      · have hmem : ⟨n, e⟩ ∈ skippedFrom policy.mode 1 (Text.lines text) := by
          rw [hlines', skippedFrom_append]
          exact List.mem_append_left _ hskipped
        exact standsOn_skippedFrom hmem
      · obtain ⟨rfl, htext⟩ := text_of_mem_rejection hrejected
        refine ⟨before, line, after, hlines, Nat.add_comm .., ?_⟩
        rw [htext]
        exact LineReading.pointsInto_item policy.mode line e' hitem

/-- A description is refused for being blank, or for a piece of one of its lines; every warning shows a
piece of its line, and warnings stand in the order of the lines. The same holds of every event about an
attribute, and of attributes that are read for themselves. -/
theorem read_diagnostics (policy : Policy) (text : List Char) :
    (∀ f, (read policy text).2 = .error f →
      ((∀ c ∈ text, isBlank c) ∧
        f.fault.cause.message = "Empty SDP string" ∧ f.fault.text = "" ∧ f.line = none) ∨
      ∃ n, f.line = some n ∧ StandsOn f.fault.text text n) ∧
    (∀ s, (read policy text).2 = .ok s →
      (∀ w ∈ s.warnings, StandsOn w.fault.text text w.line) ∧
      s.warnings.Pairwise fun v w => v.line ≤ w.line) ∧
    (∀ n e, Event.skipped n e ∈ (read policy text).1 ∨ Event.rejected n e ∈ (read policy text).1 →
      StandsOn e.text text n) ∧
    ∀ line e, Attribute.ofLine line = .error e → e.text.toList <:+: line := by
  refine ⟨?_, ?_, ?_, Attribute.pointsInto_ofLine⟩
  · intro f hf
    by_cases hblank : ∀ c ∈ text, isBlank c
    · rw [read_of_isBlank hblank] at hf
      obtain rfl := Except.error.inj hf
      exact Or.inl ⟨hblank, rfl, rfl, rfl⟩
    · rw [read_of_not_isBlank hblank] at hf
      obtain ⟨before, line, after, e, hlines, -, hitem, rfl, -⟩ := readLines_error (Prod.ext rfl hf)
      exact Or.inr ⟨1 + before.length, rfl, before, line, after, hlines, Nat.add_comm ..,
        LineReading.pointsInto_item _ line e hitem⟩
  · intro s hs
    by_cases hblank : ∀ c ∈ text, isBlank c
    · rw [read_of_isBlank hblank] at hs
      cases hs
    · rw [read_of_not_isBlank hblank] at hs
      obtain ⟨-, -, hwarnings⟩ := readLines_ok (Prod.ext rfl hs)
      rw [List.nil_append] at hwarnings
      rw [hwarnings]
      exact ⟨fun w hw => standsOn_skippedFrom (List.mem_of_mem_take hw),
        (pairwise_skippedFrom policy.mode 1 (Text.lines text)).sublist (List.take_sublist _ _)⟩
  · intro n e he
    by_cases hblank : ∀ c ∈ text, isBlank c
    · rw [read_of_isBlank hblank] at he
      rcases he with he | he <;> cases he
    · rw [read_of_not_isBlank hblank] at he
      exact standsOn_event rfl he

end Session

end Sdp
