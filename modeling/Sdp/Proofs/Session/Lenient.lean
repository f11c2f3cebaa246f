import Sdp.Proofs.Attribute.Unsupported
import Sdp.Proofs.Text.Ascii
import Sdp.Session.Line
import Sdp.Session.Sanitise

/-!
# Lenient reading of a line

A lenient reader leaves out one unknown extension after another and reads the rest again each time.
Main statement: `LineReading.ofAttribute_lenient`, that comes to the same as one pass over the pairs.
-/

namespace Sdp

open Text (IsWord cut words unwords)

namespace Candidate

theorem exists_readMandatory_eq_ok {tokens : List (List Char)} (h : MandatoryValid tokens)
    (value : List Char) : ∃ c, readMandatory value tokens = .ok c := by
  have hok := (isOk_readMandatory_iff value).mpr h
  cases hr : readMandatory value tokens with
  | ok c => exact ⟨c, rfl⟩
  | error e =>
      rw [hr] at hok
      cases hok

theorem length_of_mandatoryValid {tokens : List (List Char)} (h : MandatoryValid tokens) :
    tokens.length = mandatoryTokens := by
  unfold MandatoryValid at h
  split at h
  · rfl
  · exact h.elim

theorem withoutExtension?_eq (line name : List Char) :
    withoutExtension? line name =
      if Text.lower (Attribute.splitLine line).1 = Kind.candidate.keyword.toList then
        (dropPair? name ((words (Attribute.splitLine line).2).drop mandatoryTokens)).map fun rest =>
          (Attribute.splitLine line).1 ++
            ':' :: unwords ((words (Attribute.splitLine line).2).take mandatoryTokens ++ rest)
      else none := rfl

/-- A token that is left out is no token of what stays. -/
theorem subset_of_dropPair {name : List Char} {tokens rest : List (List Char)}
    (h : dropPair? name tokens = some rest) : rest ⊆ tokens := by
  fun_induction dropPair? name tokens generalizing rest with
  | case1 value tokens =>
      obtain rfl : tokens = rest := Option.some.inj h
      exact fun w hw => by simp [hw]
  | case2 n value tokens hn ih =>
      obtain ⟨r, hr, rfl⟩ := Option.map_eq_some_iff.mp h
      exact List.cons_subset_cons _ (List.cons_subset_cons _ (ih hr))
  | case3 => cases h

/-- A line written from tokens is read as these tokens. -/
theorem words_splitLine_unwords {keyword : List Char} (hk : ':' ∉ keyword) {tokens : List (List Char)}
    (h : ∀ w ∈ tokens, IsWord w) :
    words (Attribute.splitLine (keyword ++ ':' :: unwords tokens)).2 = tokens := by
  rw [Attribute.splitLine_append hk, Text.words_trim, Text.words_unwords h]

end Candidate

/-- A keyword that is that of a candidate in lower case is ASCII: `k` is not among its letters. -/
theorem lower_ne_candidate {keyword : List Char} (h : Kind.ofKeyword? keyword = none) :
    Text.lower keyword ≠ Kind.candidate.keyword.toList := by
  intro hlower
  have hascii : Text.isAscii keyword := Text.isAscii_of_lower (by rw [hlower]; simp [Kind.keyword])
  cases h.symm.trans (Kind.ofKeyword?_eq_some_iff.mpr ⟨hascii, hlower.symm⟩)

namespace LineReading

/-- What a reading says as an item of a description. -/
def toItem : Reading Attribute → Except (Fault Problem) Item
  | .ok a => .ok (.attr a)
  | .error e => .error (e.map .defect)

/-- What the text behind `a=` says without what is unknown in it. -/
def knownItem (text : List Char) : Except (Fault Problem) Item :=
  let (keyword, value) := Attribute.splitLine text
  match Kind.ofKeyword? keyword with
  | none => .ok .nothing
  | some .candidate => toItem ((Candidate.readKnown value).map .candidate)
  | some k => toItem (Attribute.read k value)

/-- Where nothing unknown is met, a line is read as it is. -/
theorem knownItem_of_supported {text : List Char}
    (h : ∀ e, Attribute.ofLine text = .error e → e.cause.isUnsupported = false) :
    knownItem text = toItem (Attribute.ofLine text) ∧ unknownBeforeRefused text = [] := by
  cases hk : Kind.ofKeyword? (Attribute.splitLine text).1 with
  | none => cases h _ (Attribute.ofLine_of_unknown hk)
  | some k =>
      rw [Attribute.ofLine_of_keyword hk] at h ⊢
      cases k with
      | candidate =>
          rcases Candidate.read_cases (Attribute.splitLine text).2 with
            ⟨-, e, hmandatory, hread, -⟩ | ⟨hvalid, c, hmandatory, hread⟩
          · simp only [knownItem, unknownBeforeRefused, hk, Attribute.read, Candidate.readKnown_eq,
              hmandatory, hread]
            exact ⟨rfl, rfl⟩
          · have hstop : ∀ p, Candidate.stop? ((words (Attribute.splitLine text).2).drop
                Candidate.mandatoryTokens) = some p → Candidate.isUnknown p = false := by
              intro p hp
              cases hunknown : Candidate.isUnknown p with
              | false => rfl
              | true =>
                  have herror := (Attribute.candidate_read_unsupported_iff.mpr
                    ⟨p, hvalid, hp, hunknown, rfl⟩).1
                  cases h _ (Attribute.read_candidate_eq_error_iff.mpr herror)
            have hnames := Candidate.namesBeforeRefused_eq_nil hstop
            have hdrop := Candidate.readExtensions_dropUnknown hstop c
            simp only [knownItem, unknownBeforeRefused, hk, Attribute.read, Candidate.readKnown_eq,
              hmandatory, hread, hnames, List.map_nil, ite_self, and_true]
            exact congrArg (fun r => toItem (Except.map Attribute.candidate r)) hdrop
      | _ => simp only [knownItem, unknownBeforeRefused, hk, and_self]

/-- What a candidate line says and skips, by its tokens. -/
theorem knownItem_of_candidate {text : List Char} {before after : List (List Char)} {c : Candidate}
    (hk : Kind.ofKeyword? (Attribute.splitLine text).1 = some .candidate)
    (htokens : words (Attribute.splitLine text).2 = before ++ after)
    (hlength : before.length = Candidate.mandatoryTokens)
    (hc : Candidate.readMandatory (Attribute.splitLine text).2 before = .ok c) :
    knownItem text =
        toItem ((Candidate.readExtensions c (Candidate.dropUnknown after)).map .candidate) ∧
      unknownBeforeRefused text = (Candidate.namesBeforeRefused after).map (fault .unknownExtension) := by
  constructor
  · simp only [knownItem, hk, Candidate.readKnown_eq, htokens, List.take_left' hlength,
      List.drop_left' hlength, hc]
    rfl
  · simp only [unknownBeforeRefused, hk, htokens, List.take_left' hlength, List.drop_left' hlength, hc]
    rfl

/-- Where something unknown is met, it is all that the line says, or the line without it says the
same and has one unknown pair less. -/
theorem knownItem_of_unsupported {text : List Char} {e : Fault Defect}
    (he : Attribute.ofLine text = .error e) (hu : e.cause.isUnsupported) :
    (Candidate.withoutExtension? text e.text.toList = none ∧
      knownItem text = .ok .nothing ∧ unknownBeforeRefused text = [e]) ∨
    ∃ shorter, Candidate.withoutExtension? text e.text.toList = some shorter ∧
      knownItem text = knownItem shorter ∧
      unknownBeforeRefused text = e :: unknownBeforeRefused shorter := by
  rcases Attribute.ofLine_unsupported_iff.mp ⟨he, hu⟩ with ⟨hunknown, rfl⟩ | ⟨p, hp, rfl⟩
  · have hk := Attribute.unknownKeyword_iff.mp hunknown
    refine Or.inl ⟨?_, ?_, ?_⟩
    · rw [Candidate.withoutExtension?_eq, if_neg (lower_ne_candidate hk)]
    · simp only [knownItem, hk]
    · simp only [unknownBeforeRefused, hk]
  · have hk := Kind.ofKeyword?_eq_some_iff.mpr ⟨hp.ascii, hp.keyword⟩
    obtain ⟨rest, hdrop, hknown, hnames⟩ := Candidate.exists_dropPair_eq_some hp.stop hp.unknown
    obtain ⟨c, hc⟩ := Candidate.exists_readMandatory_eq_ok hp.mandatory (Attribute.splitLine text).2
    have hlength := Candidate.length_of_mandatoryValid hp.mandatory
    have hcolon := Attribute.not_mem_keyword text
    -- The tokens of the shorter line are the mandatory ones and what stays of the others.
    have hwords : ∀ w ∈ (words (Attribute.splitLine text).2).take Candidate.mandatoryTokens ++ rest,
        IsWord w := by
      intro w hw
      refine Text.isWord_of_mem_words (s := (Attribute.splitLine text).2) ?_
      rcases List.mem_append.mp hw with hw | hw
      · exact List.mem_of_mem_take hw
      · exact List.mem_of_mem_drop (Candidate.subset_of_dropPair hdrop hw)
    have hsplit := Attribute.splitLine_append hcolon
      (unwords ((words (Attribute.splitLine text).2).take Candidate.mandatoryTokens ++ rest))
    obtain ⟨hitem, hskipped⟩ :=
      knownItem_of_candidate hk (List.take_append_drop _ _).symm hlength hc
    obtain ⟨hitem', hskipped'⟩ := knownItem_of_candidate (by rw [hsplit]; exact hk)
      (Candidate.words_splitLine_unwords hcolon hwords) hlength
      ((Candidate.readMandatory_congr hlength _ _).trans hc)
    have hshorter : Candidate.withoutExtension? text (fault Defect.unknownExtension p.1).text.toList =
        some ((Attribute.splitLine text).1 ++ ':' :: unwords
          ((words (Attribute.splitLine text).2).take Candidate.mandatoryTokens ++ rest)) := by
      rw [Candidate.withoutExtension?_eq, if_pos hp.keyword.symm, fault, String.toList_ofList, hdrop,
        Option.map_some]
    refine Or.inr ⟨_, hshorter, ?_, ?_⟩
    · rw [hitem, hitem', hknown]
    · rw [hskipped, hskipped', hnames, List.map_cons]

/-- A lenient reader says what the line says without its unknown parts, and skips these up to the
first malformed token. -/
theorem ofAttribute_lenient (text : List Char) :
    ofAttribute .lenient text = { skipped := unknownBeforeRefused text, item := knownItem text } := by
  fun_induction ofAttribute .lenient text with
  | case1 text a ha =>
      obtain ⟨hitem, hskipped⟩ := knownItem_of_supported fun e he => nomatch ha.symm.trans he
      rw [hitem, hskipped, ha]
      rfl
  | case2 text e he hu hnone =>
      rcases knownItem_of_unsupported he hu.2 with ⟨-, hitem, hskipped⟩ | ⟨shorter, hsome, -⟩
      · rw [hitem, hskipped]
      · cases hnone.symm.trans hsome
  | case3 text e he hu shorter hshorter r ih =>
      rcases knownItem_of_unsupported he hu.2 with ⟨hnone, -⟩ | ⟨shorter', hsome, hitem, hskipped⟩
      · cases hshorter.symm.trans hnone
      · obtain rfl : shorter = shorter' := Option.some.inj (hshorter.symm.trans hsome)
        simp only [r, ih, hitem, hskipped]
  | case4 text e he hu =>
      have hsupported : e.cause.isUnsupported = false := by simpa using hu
      obtain ⟨hitem, hskipped⟩ := knownItem_of_supported fun f hf => by
        obtain rfl : e = f := Except.error.inj (he.symm.trans hf)
        exact hsupported
      rw [hitem, hskipped, he]
      rfl

/-- A strict reader skips nothing. -/
theorem ofAttribute_strict (text : List Char) :
    ofAttribute .strict text = { item := toItem (Attribute.ofLine text) } := by
  rw [ofAttribute]
  cases Attribute.ofLine text with
  | ok a => rfl
  | error e => rfl

/-! ## Lines with and without an attribute -/

theorem ofLine_of_attributeText {line text : List Char} (h : attributeText? line = some text) (mode : Mode) :
    ofLine mode line = ofAttribute mode text := by
  unfold attributeText? at h
  unfold ofLine
  split at h
  · next hcut =>
      cases h
      rw [hcut]
      rfl
  · cases h

/-- The mode matters to attributes only. -/
theorem ofLine_of_attributeText_none {line : List Char} (h : attributeText? line = none) (mode : Mode) :
    ofLine mode line = { item := (ofLine .lenient line).item } := by
  unfold attributeText? at h
  unfold ofLine
  cases hcut : cut '=' (Text.trim line) with
  | none => rfl
  | some parts =>
      obtain ⟨field, value⟩ := parts
      dsimp only
      split
      -- An attribute is the one field that has a text behind `a=`.
      case h_7 => simp [hcut] at h
      all_goals rfl

end LineReading

end Sdp
