import Sdp.Proofs.Session.Meaning
import Sdp.Proofs.Text.Spelling

/-!
# Keywords in upper case

Networks, address families and groups are named in any letter case, and what passes for their names
is accepted as well. Main statement: `LineReading.keyword_passes`.
-/

namespace Sdp

open Text (IsAsciiSpelling PassesFor isAscii words)

/-! ## Words -/

theorem Family.mem_all (f : Family) : f ∈ all := by
  cases f <;> decide

theorem Semantics.mem_all (s : Semantics) : s ∈ all := by
  cases s <;> decide

theorem Family.word_injective : Function.Injective word := by
  rintro ⟨⟩ ⟨⟩ h <;> first | rfl | simp [word] at h

theorem Semantics.word_injective : Function.Injective word := by
  rintro ⟨⟩ ⟨⟩ h <;> first | rfl | simp [word] at h

theorem Network.unligatured_internet : Text.Unligatured internet.toList := by
  decide

theorem Family.unligatured_word (f : Family) : Text.Unligatured f.word.toList := by
  cases f <;> decide

theorem Semantics.unligatured_word (s : Semantics) : Text.Unligatured s.word.toList := by
  cases s <;> decide

theorem Network.isOk_readType_iff {s : List Char} :
    (readType s).isOk ↔ PassesFor internet.toList s := by
  rw [← Text.upper_eq_iff_passesFor unligatured_internet, readType]
  split
  · next h => exact iff_of_true rfl h
  · next h => exact iff_of_false Bool.false_ne_true h

theorem Network.readFamily_eq_ok_iff {s : List Char} {f : Family} :
    readFamily s = .ok f ↔ PassesFor f.word.toList s := by
  rw [← Text.matchUpper_eq_some_iff Family.mem_all Family.word_injective Family.unligatured_word, readFamily]
  cases Text.matchUpper Family.all Family.word s <;> simp

theorem Group.read_eq_ok_iff {value : List Char} {g : Group} :
    read value = .ok g ↔ ∃ word tags, words value = word :: tags ∧
      PassesFor g.semantics.word.toList word ∧ g.tags = tags.map .ofList := by
  have hmatch {s : Semantics} {word : List Char} :
      Text.matchUpper Semantics.all Semantics.word word = some s ↔ PassesFor s.word.toList word :=
    Text.matchUpper_eq_some_iff Semantics.mem_all Semantics.word_injective Semantics.unligatured_word
  obtain ⟨semantics, names⟩ := g
  unfold read
  cases hwords : words value with
  | nil => simp
  | cons word tags =>
      cases hm : Text.matchUpper Semantics.all Semantics.word word with
      | none =>
          have hno : ¬ PassesFor semantics.word.toList word := fun h => by
            cases hm.symm.trans (hmatch.mpr h)
          simp [hm, hno]
      | some s =>
          have hs : s = semantics ↔ PassesFor semantics.word.toList word := by
            rw [← hmatch, hm, Option.some.injEq]
          simp [hm, ← hs, eq_comm]

/-- Port and address apart, an attribute about control packets has two words that pass. -/
theorem Rtcp.words_of_read {value : List Char} {r : Rtcp} (h : read value = .ok r) :
    ∃ port network family address, words value = [port, network, family, address] ∧
      PassesFor Network.internet.toList network ∧ PassesFor r.family.word.toList family := by
  unfold read at h
  split at h
  · next port network family address hwords =>
      obtain ⟨n, -, h⟩ := bind_eq_ok_iff.mp h
      obtain ⟨u, htype, h⟩ := bind_eq_ok_iff.mp h
      obtain ⟨f, hfamily, h⟩ := bind_eq_ok_iff.mp h
      obtain ⟨a, -, hr⟩ := bind_eq_ok_iff.mp h
      obtain rfl : Rtcp.mk n f a = r := Except.ok.inj hr
      refine ⟨port, network, family, address, hwords, ?_, ?_⟩
      · exact Network.isOk_readType_iff.mp (isOk_iff.mpr ⟨u, widen_eq_ok_iff.mp htype⟩)
      · exact Network.readFamily_eq_ok_iff.mp (widen_eq_ok_iff.mp hfamily)
  · cases h

/-! ## Lines -/

namespace LineReading

variable {line : List Char} {item : Item}

/-- What is neither nothing nor a candidate is said by the line as it stands, in any mode: a lenient
reader leaves something out of these only. -/
theorem says_of_item {mode : Mode} (h : (ofLine mode line).item = .ok item) (hne : item ≠ .nothing)
    (hcandidate : ∀ c, item ≠ .attr (.candidate c)) : Says line item := by
  refine ofLine_eq_ok_iff.mp ?_
  cases mode with
  | strict => exact h
  | lenient =>
      cases htext : attributeText? line with
      | none => rw [ofLine_of_attributeText_none htext, h]
      | some text =>
          rw [ofLine_of_attributeText htext, ofAttribute_lenient] at h
          rw [ofLine_of_attributeText htext, ofAttribute_strict]
          cases hk : Kind.ofKeyword? (Attribute.splitLine text).1 with
          | none => simp [knownItem, hk, hne.symm] at h
          | some k =>
              rw [Attribute.ofLine_of_keyword hk]
              cases k with
              | candidate =>
                  simp only [knownItem, hk] at h
                  cases hread : Candidate.readKnown (Attribute.splitLine text).2 with
                  | error e => simp [hread, Except.map, toItem] at h
                  | ok c => exact absurd (by simpa [hread, Except.map, toItem] using h.symm) (hcandidate c)
              | _ => simpa only [knownItem, hk] using h

theorem exists_of_says_attr {a : Attribute} (h : Says line (.attr a)) :
    ∃ text, IsField line 'a' text ∧ Attribute.read a.kind (Attribute.splitLine text).2 = .ok a := by
  cases h with
  | @attr text _ field read =>
      refine ⟨text, field, ?_⟩
      cases hk : Kind.ofKeyword? (Attribute.splitLine text).1 with
      | none => cases (Attribute.ofLine_of_unknown hk).symm.trans read
      | some k =>
          rw [Attribute.ofLine_of_keyword hk] at read
          rwa [(Attribute.fits_of_read read).1]

/-- A text is taken for the name of a network, a family or a group just if it passes for it, which
ASCII texts do only if they spell it; and no line about these is accepted unless its keywords pass. -/
theorem keyword_passes (s : List Char) :
    ((Network.readType s).isOk ↔ PassesFor Network.internet.toList s) ∧
    (∀ f, Network.readFamily s = .ok f ↔ PassesFor f.word.toList s) ∧
    (∀ g, Group.read s = .ok g ↔ ∃ word tags, words s = word :: tags ∧
      PassesFor g.semantics.word.toList word ∧ g.tags = tags.map .ofList) ∧
    (isAscii s → ∀ word, PassesFor word s ↔ IsAsciiSpelling word s) ∧
    (∀ mode address, (ofLine mode s).item = .ok (.connection address) →
      ∃ value network family f, IsField s 'c' value ∧ words value = [network, family, address.toList] ∧
        PassesFor Network.internet.toList network ∧ PassesFor (Family.word f).toList family) ∧
    (∀ mode r, (ofLine mode s).item = .ok (.attr (.rtcp r)) →
      ∃ text port network family address, IsField s 'a' text ∧
        words (Attribute.splitLine text).2 = [port, network, family, address] ∧
        PassesFor Network.internet.toList network ∧ PassesFor r.family.word.toList family) ∧
    ∀ mode g, (ofLine mode s).item = .ok (.attr (.group g)) →
      ∃ text word tags, IsField s 'a' text ∧ words (Attribute.splitLine text).2 = word :: tags ∧
        PassesFor g.semantics.word.toList word := by
  refine ⟨Network.isOk_readType_iff, fun f => Network.readFamily_eq_ok_iff, fun g => Group.read_eq_ok_iff,
    fun h word => Text.passesFor_iff_of_isAscii h, fun mode address h => ?_, fun mode r h => ?_,
    fun mode g h => ?_⟩
  · have hsays := says_of_item h (by simp) (by simp)
    generalize hitem : Item.connection address = item at hsays
    cases hsays with
    | @connection value network family word field tokens internet known =>
        cases hitem
        obtain ⟨f, hf⟩ := isOk_iff.mp known
        refine ⟨value, network, family, f, field, ?_, Network.isOk_readType_iff.mp internet,
          Network.readFamily_eq_ok_iff.mp hf⟩
        rw [tokens, String.toList_ofList]
    | _ => cases hitem
  · obtain ⟨text, field, hread⟩ := exists_of_says_attr (says_of_item h (by simp) (by simp))
    obtain ⟨r', hr, he⟩ := map_eq_ok_iff.mp hread
    obtain rfl : r' = r := Attribute.rtcp.inj he
    obtain ⟨port, network, family, address, hwords, hpass⟩ := Rtcp.words_of_read hr
    exact ⟨text, port, network, family, address, field, hwords, hpass⟩
  · obtain ⟨text, field, hread⟩ := exists_of_says_attr (says_of_item h (by simp) (by simp))
    obtain ⟨g', hg, he⟩ := map_eq_ok_iff.mp hread
    obtain rfl : g' = g := Attribute.group.inj he
    obtain ⟨word, tags, hwords, hpass, -⟩ := Group.read_eq_ok_iff.mp hg
    exact ⟨text, word, tags, field, hwords, hpass⟩

/-- In a line about an address a dotless i passes for an i. -/
theorem keyword_passes_of_dotless :
    (ofLine .strict "c=ıN iP6 ::1".toList).item = .ok (.connection "::1") ∧
      ∃ value network family f, IsField "c=ıN iP6 ::1".toList 'c' value ∧
        words value = [network, family, "::1".toList] ∧
        PassesFor Network.internet.toList network ∧ PassesFor (Family.word f).toList family := by
  have hline : (ofLine .strict "c=ıN iP6 ::1".toList).item = .ok (.connection "::1") := rfl
  exact ⟨hline, (keyword_passes _).2.2.2.2.1 _ _ hline⟩

/-- To pass is not to spell: not for a network, a family or a group, nor on a line about them. -/
theorem keyword_not_spelled :
    ¬ ((Network.readType "ıN".toList).isOk ↔ IsAsciiSpelling Network.internet.toList "ıN".toList) ∧
    ¬ ((Network.readFamily "ıP6".toList).isOk ↔ ∃ f, IsAsciiSpelling (Family.word f).toList "ıP6".toList) ∧
    ¬ ((Group.read "ﬁd a".toList).isOk →
      ∃ word tags, words "ﬁd a".toList = word :: tags ∧
        ∃ g, IsAsciiSpelling (Semantics.word g).toList word) ∧
    ¬ ((ofLine .strict "c=ıN IP4 ::1".toList).item.isOk → isAscii "ıN".toList) := by
  refine ⟨fun h => ?_, fun h => ?_, fun h => ?_, fun h => ?_⟩
  · exact absurd (h.mp rfl).1 (by decide)
  · obtain ⟨f, hascii, -⟩ := h.mp rfl
    exact absurd hascii (by decide)
  · obtain ⟨word, tags, hwords, g, hascii, -⟩ := h rfl
    have hwords' : words "ﬁd a".toList = ["ﬁd".toList, "a".toList] := rfl
    obtain ⟨rfl, -⟩ := List.cons.inj (hwords.symm.trans hwords')
    exact absurd hascii (by decide)
  · exact absurd (h rfl) (by decide)

end LineReading

end Sdp
