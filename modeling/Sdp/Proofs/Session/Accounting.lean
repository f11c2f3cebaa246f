import Sdp.Proofs.Session.Lenient
import Sdp.Proofs.Session.Run

/-!
# What a lenient reader skips

A lenient reader has to account for all that it does not know. Main statement:
`Session.read_accounting`, all of that is told in the order it stands there, up to the end of the
description or to the token that ends the reading.
-/

namespace Sdp

open Text (words)

/-- The entry of the log about something that was skipped. -/
def Warning.entry (w : Warning) : Log.Event :=
  ⟨.warning, "sdp_attribute_skipped",
    [("line_number", .int w.line), ("offending_text", .text w.fault.text),
      ("error", .text w.fault.cause.message)]⟩

/-! ## Lines that are not refused -/

namespace Candidate

/-- A pair of a known name is read and the reading goes on, or its value ends the reading. -/
theorem readExtensions_cons_cases {name value : List Char} (h : isUnknown (name, value) = false)
    (rest : List (List Char)) (c : Candidate) :
    (isAccepted (name, value) ∧ ∃ c', readExtensions c (name :: value :: rest) = readExtensions c' rest) ∨
    (isRefused (name, value) ∧
      ∃ f, readExtensions c (name :: value :: rest) = .error f ∧ Blames value f) := by
  rw [readExtensions]
  split
  · next hname => simp [isUnknown, hname] at h
  · next e he =>
      rcases e.apply_cases value c with ⟨haccepts, c', hc', -⟩ | ⟨haccepts, f, hf, hblames⟩
      · exact Or.inl ⟨by rw [isAccepted_eq he, haccepts], c', by rw [hc']; rfl⟩
      · exact Or.inr ⟨by rw [isRefused_eq he, haccepts]; rfl, f, by rw [hf]; rfl, hblames⟩

/-- If no value of a known name is refused, all unknown names are met. -/
theorem namesBeforeRefused_of_eq_ok {tokens : List (List Char)} {c c' : Candidate}
    (h : readExtensions c (dropUnknown tokens) = .ok c') :
    namesBeforeRefused tokens = unknownNames (pairs tokens) := by
  induction tokens using pairs.induct generalizing c with
  | case1 name value rest ih =>
      cases hunknown : isUnknown (name, value) with
      | true =>
          rw [dropUnknown, if_pos hunknown] at h
          rw [namesBeforeRefused_of_isUnknown hunknown, ih h]
          simp [unknownNames, pairs, hunknown]
      | false =>
          rw [dropUnknown, hunknown, if_neg (by decide)] at h
          rcases readExtensions_cons_cases hunknown (dropUnknown rest) c with
            ⟨haccepted, c'', hc''⟩ | ⟨-, f, hf, -⟩
          · rw [namesBeforeRefused_of_isAccepted haccepted, ih (hc''.symm.trans h)]
            simp [unknownNames, pairs, hunknown]
          · cases hf.symm.trans h
  | case2 tokens hshort => simp [namesBeforeRefused, unknownNames, pairs.eq_2 tokens hshort]

/-- Otherwise the first value that is refused is to blame. -/
theorem exists_isRefused_of_eq_error {tokens : List (List Char)} {c : Candidate} {d : Fault Defect}
    (h : readExtensions c (dropUnknown tokens) = .error d) :
    ∃ front p back, pairs tokens = front ++ p :: back ∧ (∀ q ∈ front, isRefused q = false) ∧
      isRefused p ∧ Blames p.2 d := by
  induction tokens using pairs.induct generalizing c with
  | case1 name value rest ih =>
      cases hunknown : isUnknown (name, value) with
      | true =>
          rw [dropUnknown, if_pos hunknown] at h
          obtain ⟨front, p, back, hpairs, hfront, hp⟩ := ih h
          refine ⟨(name, value) :: front, p, back, by rw [pairs, hpairs, List.cons_append], ?_, hp⟩
          exact List.forall_mem_cons.mpr ⟨not_isRefused_of_isUnknown hunknown, hfront⟩
      | false =>
          rw [dropUnknown, hunknown, if_neg (by decide)] at h
          rcases readExtensions_cons_cases hunknown (dropUnknown rest) c with
            ⟨haccepted, c', hc'⟩ | ⟨hrefused, f, hf, hblames⟩
          · obtain ⟨front, p, back, hpairs, hfront, hp⟩ := ih (hc'.symm.trans h)
            refine ⟨(name, value) :: front, p, back, by rw [pairs, hpairs, List.cons_append], ?_, hp⟩
            exact List.forall_mem_cons.mpr ⟨not_isRefused_of_isAccepted haccepted, hfront⟩
          · obtain rfl : f = d := Except.error.inj (hf.symm.trans h)
            exact ⟨[], (name, value), pairs rest, rfl, List.forall_mem_nil _, hrefused, hblames⟩
  | case2 tokens hshort =>
      rw [dropUnknown.eq_2 tokens hshort, readExtensions.eq_2 c tokens hshort] at h
      cases h

theorem namesBeforeRefused_of_pairs {tokens : List (List Char)} {front back : List Pair} {p : Pair}
    (h : pairs tokens = front ++ p :: back) (hfront : ∀ q ∈ front, isRefused q = false)
    (hp : isRefused p) : namesBeforeRefused tokens = unknownNames front := by
  have htake : (front ++ p :: back).takeWhile (!isRefused ·) = front := by
    rw [List.takeWhile_append_of_pos fun q hq => by simp [hfront q hq],
      List.takeWhile_cons_of_neg (by simp [hp]), List.append_nil]
  rw [namesBeforeRefused, h, htake]

theorem readKnown_eq_ok {value : List Char} {c' : Candidate} (h : readKnown value = .ok c') :
    ∃ c, readMandatory value ((words value).take mandatoryTokens) = .ok c ∧
      readExtensions c (dropUnknown ((words value).drop mandatoryTokens)) = .ok c' := by
  rw [readKnown_eq] at h
  exact bind_eq_ok_iff.mp h

end Candidate

namespace LineReading

theorem toItem_eq_error {r : Reading Attribute} {e : Fault Problem} (h : toItem r = .error e) :
    ∃ d, e = Fault.map .defect d := by
  cases r with
  | ok a => cases h
  | error d => exact ⟨d, (Except.error.inj h).symm⟩

theorem knownItem_eq_error {text : List Char} {e : Fault Problem} (h : knownItem text = .error e) :
    ∃ d, e = Fault.map .defect d := by
  unfold knownItem at h
  dsimp only at h
  split at h
  · cases h
  · exact toItem_eq_error h
  · exact toItem_eq_error h

/-- A lenient reader skips all that is unknown on a line that it does not refuse. -/
theorem unknownBeforeRefused_of_knownItem {text : List Char} {item : Item} (h : knownItem text = .ok item) :
    unknownBeforeRefused text = unknownParts text := by
  unfold knownItem at h
  cases hk : Kind.ofKeyword? (Attribute.splitLine text).1 with
  | none => simp only [unknownBeforeRefused, unknownParts, hk]
  | some k =>
      by_cases hc : k = .candidate
      · subst hc
        simp only [hk] at h
        cases hread : Candidate.readKnown (Attribute.splitLine text).2 with
        | error e =>
            rw [hread] at h
            cases h
        | ok c' =>
            obtain ⟨c, hmandatory, hextensions⟩ := Candidate.readKnown_eq_ok hread
            simp only [unknownBeforeRefused, unknownParts, hk, hmandatory,
              Candidate.namesBeforeRefused_of_eq_ok hextensions]
            rfl
      · simp only [unknownBeforeRefused, unknownParts, hk]

/-- The same of whole lines, of which most have nothing unknown. -/
theorem skipped_eq_unknownOn {line : List Char} {item : Item}
    (h : (ofLine .lenient line).item = .ok item) : (ofLine .lenient line).skipped = unknownOn line := by
  cases htext : attributeText? line with
  | none =>
      rw [ofLine_of_attributeText_none htext, unknownOn, htext]
      rfl
  | some text =>
      rw [ofLine_of_attributeText htext, ofAttribute_lenient] at h ⊢
      rw [unknownOn, htext]
      exact unknownBeforeRefused_of_knownItem h

end LineReading

theorem unknownFrom_cons (n : Nat) (line : List Char) (rest : List (List Char)) :
    unknownFrom n (line :: rest) = (unknownOn line).map (Warning.mk n) ++ unknownFrom (n + 1) rest := rfl

theorem skippedFrom_eq_unknownFrom {n : Nat} {ls : List (List Char)}
    (h : ∀ line ∈ ls, ∃ item, (LineReading.ofLine .lenient line).item = .ok item) :
    skippedFrom .lenient n ls = unknownFrom n ls := by
  induction ls generalizing n with
  | nil => rfl
  | cons line rest ih =>
      obtain ⟨⟨item, hitem⟩, hrest⟩ := List.forall_mem_cons.mp h
      rw [skippedFrom, unknownFrom_cons, LineReading.skipped_eq_unknownOn hitem, ih hrest]

theorem errorClass_of_mem_unknownParts {text : List Char} {e : Fault Defect} (h : e ∈ unknownParts text) :
    e.cause.errorClass = .unsupported := by
  unfold unknownParts at h
  dsimp only at h
  split at h
  · rw [List.mem_singleton.mp h]
    rfl
  · obtain ⟨name, -, rfl⟩ := List.mem_map.mp h
    rfl
  · cases h

theorem errorClass_of_mem_unknownFrom {n : Nat} {ls : List (List Char)} {w : Warning}
    (h : w ∈ unknownFrom n ls) : w.fault.cause.errorClass = .unsupported := by
  obtain ⟨⟨line, i⟩, -, hw⟩ := List.mem_flatMap.mp h
  obtain ⟨e, he, rfl⟩ := List.mem_map.mp hw
  unfold unknownOn at he
  cases htext : attributeText? line with
  | none =>
      rw [htext] at he
      cases he
  | some text =>
      rw [htext] at he
      exact errorClass_of_mem_unknownParts he

/-! ## The line that is refused -/

/-- The text behind `a=` is refused because of `d`, and the list tells what is unknown to the left of
that: a candidate may fail inside a pair, and nothing else has anything unknown before it fails. -/
inductive RefusedBehind (text : List Char) (d : Fault Defect) : List (Fault Defect) → Prop where
  | pair {front back : List Candidate.Pair} {p : Candidate.Pair}
      (keyword : Kind.ofKeyword? (Attribute.splitLine text).1 = some .candidate)
      (mandatory : Candidate.MandatoryValid
        ((words (Attribute.splitLine text).2).take Candidate.mandatoryTokens))
      (pairs : Candidate.pairs ((words (Attribute.splitLine text).2).drop Candidate.mandatoryTokens) =
        front ++ p :: back)
      (before : ∀ q ∈ front, Candidate.isRefused q = false)
      (refused : Candidate.isRefused p)
      (blames : Blames p.2 d) :
      RefusedBehind text d ((Candidate.unknownNames front).map (fault .unknownExtension))
  | other (h : ¬ (Kind.ofKeyword? (Attribute.splitLine text).1 = some .candidate ∧
      Candidate.MandatoryValid ((words (Attribute.splitLine text).2).take Candidate.mandatoryTokens))) :
      RefusedBehind text d []

theorem Fault.map_defect_injective {d d' : Fault Defect}
    (h : Fault.map Problem.defect d = Fault.map Problem.defect d') : d = d' := by
  cases d
  cases d'
  simpa [Fault.map] using h

theorem refusedBehind_of_knownItem {text : List Char} {d : Fault Defect}
    (h : LineReading.knownItem text = .error (Fault.map .defect d)) :
    RefusedBehind text d (unknownBeforeRefused text) := by
  cases hk : Kind.ofKeyword? (Attribute.splitLine text).1 with
  | none => simp [LineReading.knownItem, hk] at h
  | some k =>
      by_cases hc : k = .candidate
      · subst hc
        by_cases hvalid : Candidate.MandatoryValid
            ((words (Attribute.splitLine text).2).take Candidate.mandatoryTokens)
        · obtain ⟨c, hmandatory⟩ :=
            Candidate.exists_readMandatory_eq_ok hvalid (Attribute.splitLine text).2
          obtain ⟨hitem, hskipped⟩ := LineReading.knownItem_of_candidate hk
            (List.take_append_drop _ _).symm (Candidate.length_of_mandatoryValid hvalid) hmandatory
          rw [hitem] at h
          cases hread : Candidate.readExtensions c (Candidate.dropUnknown
              ((words (Attribute.splitLine text).2).drop Candidate.mandatoryTokens)) with
          | ok c' =>
              rw [hread] at h
              cases h
          | error d' =>
              rw [hread] at h
              obtain rfl : d' = d := Fault.map_defect_injective (Except.error.inj h)
              obtain ⟨front, p, back, hpairs, hfront, hp, hblames⟩ :=
                Candidate.exists_isRefused_of_eq_error hread
              rw [hskipped, Candidate.namesBeforeRefused_of_pairs hpairs hfront hp]
              exact .pair hk hvalid hpairs hfront hp hblames
        · have hnone : unknownBeforeRefused text = [] := by
            simp only [unknownBeforeRefused, hk]
            exact if_neg (mt (Candidate.isOk_readMandatory_iff _).mp hvalid)
          rw [hnone]
          exact .other fun hpair => hvalid hpair.2
      · have hnone : unknownBeforeRefused text = [] := by simp only [unknownBeforeRefused, hk]
        rw [hnone]
        exact .other fun hpair => hc (Option.some.inj (hk.symm.trans hpair.1))

namespace Session

theorem rejection_of_readConnection {value : List Char} {e : Fault Problem}
    (h : Item.readConnection value = .error e) (n : Nat) : rejection n e = [] := by
  unfold Item.readConnection at h
  split at h
  · next network family address _ =>
      cases htype : Network.readType network with
      | error r =>
          rw [htype] at h
          cases h
          rfl
      | ok u =>
          cases hfamily : Network.readFamily family with
          | error r =>
              rw [htype, hfamily] at h
              cases h
              rfl
          | ok f =>
              rw [htype, hfamily] at h
              cases h
  · cases h
    rfl

theorem rejection_of_readMedia {value : List Char} {e : Fault Problem}
    (h : Item.readMedia value = .error e) (n : Nat) : rejection n e = [] := by
  unfold Item.readMedia at h
  split at h
  · split at h
    · cases h
      rfl
    · cases h
  · cases h
    rfl

/-- A line that is not about an attribute is refused without a word to the log. -/
theorem rejection_of_attributeText_none {line : List Char} {e : Fault Problem}
    (htext : attributeText? line = none) (h : (LineReading.ofLine .lenient line).item = .error e) (n : Nat) :
    rejection n e = [] := by
  unfold LineReading.ofLine at h
  unfold attributeText? at htext
  split at h
  · cases h
  · next hcut =>
      split at h
      all_goals first
        | cases h
        | exact rejection_of_readConnection h n
        | exact rejection_of_readMedia h n
        | simp [hcut] at htext

/-- What is told of a line that is refused. -/
theorem refused_cases {line : List Char} {e : Fault Problem}
    (h : (LineReading.ofLine .lenient line).item = .error e) :
    (attributeText? line = none ∧ (LineReading.ofLine .lenient line).skipped = [] ∧
      ∀ n, rejection n e = []) ∨
    ∃ text d, attributeText? line = some text ∧ e = Fault.map .defect d ∧
      RefusedBehind text d (LineReading.ofLine .lenient line).skipped := by
  cases htext : attributeText? line with
  | none =>
      refine Or.inl ⟨rfl, ?_, rejection_of_attributeText_none htext h⟩
      rw [LineReading.ofLine_of_attributeText_none htext]
  | some text =>
      rw [LineReading.ofLine_of_attributeText htext, LineReading.ofAttribute_lenient] at h ⊢
      obtain ⟨d, rfl⟩ := LineReading.knownItem_eq_error h
      exact Or.inr ⟨text, d, rfl, rfl, refusedBehind_of_knownItem h⟩

/-! ## Descriptions -/

/-- A lenient reader tells of all that is unknown, in the order it stands there and beyond what it has
room to record, and sums up at the end. If it refuses a line, it tells of what is unknown before, on
this line only to the left of what it refuses, and of the attribute that it refuses if it is one. -/
theorem read_accounting (limit : Nat) (text : List Char) :
    match read ⟨.lenient, limit⟩ text with
    | (events, .ok s) =>
        s.warnings = (unknownFrom 1 (Text.lines text)).take limit ∧
        (∀ w ∈ s.warnings, w.fault.cause.errorClass = .unsupported) ∧
        events.map Event.entry = (unknownFrom 1 (Text.lines text)).map Warning.entry ++
          [⟨.debug, "sdp_parsed",
            [("media_count", .int s.media.length), ("session_attributes", .int s.attributes.length),
              ("warnings", .int s.warnings.length)]⟩]
    | (events, .error f) =>
        (f.line = none ∧ (∀ c ∈ text, Text.isBlank c) ∧ events = []) ∨
        ∃ before line after, Text.lines text = before ++ line :: after ∧
          f.line = some (before.length + 1) ∧
          match attributeText? line with
          | none => events.map Event.entry = (unknownFrom 1 before).map Warning.entry
          | some value => ∃ d left, f.fault = Fault.map .defect d ∧ RefusedBehind value d left ∧
              events.map Event.entry = (unknownFrom 1 before).map Warning.entry ++
                (left.map (Warning.mk (before.length + 1))).map Warning.entry ++
                [⟨.debug, "sdp_attribute_rejected",
                  [("line_number", .int (before.length + 1 : Nat)), ("offending_text", .text d.text),
                    ("error", .text d.cause.message)]⟩] := by
  rcases hread : read ⟨.lenient, limit⟩ text with ⟨events, result⟩
  unfold read at hread
  cases result with
  | ok s =>
      split at hread
      · cases (Prod.mk.inj hread).2
      · obtain ⟨hitems, rfl, hwarnings⟩ := readLines_ok hread
        rw [skippedFrom_eq_unknownFrom hitems] at hwarnings ⊢
        refine ⟨hwarnings, fun w hw => ?_, ?_⟩
        · rw [hwarnings] at hw
          exact errorClass_of_mem_unknownFrom (List.mem_of_mem_take hw)
        · rw [List.map_append, List.map_map]
          rfl
  | error f =>
      split at hread
      · next hblank =>
          obtain ⟨rfl, hf⟩ := Prod.mk.inj hread
          obtain rfl := Except.error.inj hf
          exact Or.inl ⟨rfl, Text.trim_eq_nil_iff.mp (List.isEmpty_iff.mp hblank), rfl⟩
      · obtain ⟨before, line, after, e, hlines, hbefore, hitem, rfl, rfl⟩ := readLines_error hread
        refine Or.inr ⟨before, line, after, hlines, by rw [Nat.add_comm], ?_⟩
        rw [skippedFrom_concat, skippedFrom_eq_unknownFrom hbefore, Nat.add_comm 1]
        rcases refused_cases hitem with ⟨htext, hskipped, hrejection⟩ | ⟨value, d, htext, rfl, hrefused⟩
        · rw [htext, hskipped, hrejection, List.map_nil, List.append_nil, List.append_nil, List.map_map]
          rfl
        · rw [htext]
          refine ⟨d, _, rfl, hrefused, ?_⟩
          simp only [List.map_append, List.map_map]
          rfl

end Session

end Sdp
