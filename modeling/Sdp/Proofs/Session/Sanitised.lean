import Sdp.Proofs.Session.Lenient
import Sdp.Proofs.Session.Run
import Sdp.Proofs.Text.Lines

/-!
# Reading a sanitised description

Main statement: `Session.read_sanitise`, a lenient reader says of a description what a strict one
says of it without what is unknown, whether that is a session or a refusal.
-/

namespace Sdp

open Text (IsWord isBlank isLineEnd words unwords)

namespace Candidate

/-- The tokens that stay of a candidate. -/
def knownTokens (value : List Char) : List (List Char) :=
  (words value).take mandatoryTokens ++ dropUnknown ((words value).drop mandatoryTokens)

theorem dropUnknown_subset (tokens : List (List Char)) : dropUnknown tokens ⊆ tokens := by
  fun_induction dropUnknown tokens with
  | case1 name value rest h ih =>
      exact List.subset_cons_of_subset _ (List.subset_cons_of_subset _ ih)
  | case2 name value rest h ih => exact List.cons_subset_cons _ (List.cons_subset_cons _ ih)
  | case3 rest => exact List.Subset.refl _

theorem knownTokens_subset (value : List Char) : knownTokens value ⊆ words value := by
  intro w hw
  rcases List.mem_append.mp hw with hw | hw
  · exact List.mem_of_mem_take hw
  · exact List.mem_of_mem_drop (dropUnknown_subset _ hw)

theorem isWord_of_mem_knownTokens {value w : List Char} (hw : w ∈ knownTokens value) : IsWord w :=
  Text.isWord_of_mem_words (knownTokens_subset value hw)

theorem knownTokens_ne_nil {value : List Char} (h : mandatoryTokens ≤ (words value).length) :
    knownTokens value ≠ [] := by
  have hbefore : ((words value).take mandatoryTokens).length = mandatoryTokens :=
    List.length_take_of_le h
  intro hnil
  rw [(List.append_eq_nil_iff.mp hnil).1] at hbefore
  cases hbefore

/-- The tokens that stay are read as the known part of the candidate. -/
theorem read_of_words_eq_knownTokens {value shorter : List Char}
    (hlength : mandatoryTokens ≤ (words value).length) (h : words shorter = knownTokens value) :
    read shorter = readKnown value := by
  have hbefore : ((words value).take mandatoryTokens).length = mandatoryTokens :=
    List.length_take_of_le hlength
  rw [read_eq, readKnown_eq, h, knownTokens, List.take_left' hbefore, List.drop_left' hbefore,
    readMandatory_congr hbefore shorter value]

end Candidate

/-- Only a candidate with all of its mandatory tokens can have something unsupported in it. -/
theorem Attribute.isUnsupported_eq_false {text : List Char} {k : Kind} {e : Fault Defect}
    (hk : Kind.ofKeyword? (splitLine text).1 = some k)
    (hshort : k = .candidate → (words (splitLine text).2).length < Candidate.mandatoryTokens)
    (he : ofLine text = .error e) : e.cause.isUnsupported = false := by
  cases hu : e.cause.isUnsupported with
  | false => rfl
  | true =>
      rcases ofLine_unsupported_iff.mp ⟨he, hu⟩ with ⟨hunknown, -⟩ | ⟨p, hp, -⟩
      · cases hk.symm.trans (unknownKeyword_iff.mp hunknown)
      · have hc := Option.some.inj (hk.symm.trans (Kind.ofKeyword?_eq_some_iff.mpr ⟨hp.ascii, hp.keyword⟩))
        have hlength := Candidate.length_of_mandatoryValid hp.mandatory
        rw [List.length_take] at hlength
        have := hshort hc
        omega

/-! ## A sanitised line -/

/-- A line that is written from tokens is trimmed, and its text is what stands behind `a=`. -/
theorem attributeText?_of_tokens (keyword : List Char) {tokens : List (List Char)}
    (h : ∀ w ∈ tokens, IsWord w) (hne : tokens ≠ []) :
    attributeText? ('a' :: '=' :: keyword ++ ':' :: unwords tokens) =
      some (keyword ++ ':' :: unwords tokens) := by
  obtain ⟨s, hs⟩ := Text.exists_unwords_eq_append hne
  have hend := Text.trimEnd_append_of_isWord (h _ (List.getLast_mem hne)) ('a' :: '=' :: keyword ++ ':' :: s)
  have htrim : Text.trim ('a' :: '=' :: keyword ++ ':' :: unwords tokens) =
      ['a'] ++ '=' :: (keyword ++ ':' :: unwords tokens) := by
    rw [hs]
    rw [List.append_assoc] at hend
    exact (Text.trim_cons_of_not_isBlank (by decide) _).trans hend
  rw [attributeText?, htrim, Text.cut_append (by decide)]
  rfl

theorem infix_of_attributeText {line text : List Char} (h : attributeText? line = some text) :
    text <:+: line := by
  unfold attributeText? at h
  split at h
  · next hcut =>
      cases h
      exact (Text.infix_of_cut_eq_some hcut).2.trans (Text.trim_infix line)
  · cases h

/-- A line stays as it is, with nothing unsupported in it. -/
structure Kept (line : List Char) : Prop where
  unchanged : sanitiseLine line = line
  supported : ∀ text, attributeText? line = some text →
    ∀ e, Attribute.ofLine text = .error e → e.cause.isUnsupported = false

/-- Any other line is about an unknown attribute, or a candidate with all of its mandatory tokens. -/
theorem sanitiseLine_cases (line : List Char) :
    Kept line ∨
    ∃ text, attributeText? line = some text ∧
      ((Kind.ofKeyword? (Attribute.splitLine text).1 = none ∧ sanitiseLine line = ['-']) ∨
      (Kind.ofKeyword? (Attribute.splitLine text).1 = some .candidate ∧
        Candidate.mandatoryTokens ≤ (words (Attribute.splitLine text).2).length ∧
        sanitiseLine line = 'a' :: '=' :: (Attribute.splitLine text).1 ++
          ':' :: unwords (Candidate.knownTokens (Attribute.splitLine text).2))) := by
  cases htext : attributeText? line with
  | none =>
      refine Or.inl ⟨?_, fun text h => nomatch htext.symm.trans h⟩
      simp only [sanitiseLine, htext]
  | some text =>
      cases hk : Kind.ofKeyword? (Attribute.splitLine text).1 with
      | none =>
          refine Or.inr ⟨text, rfl, Or.inl ⟨hk, ?_⟩⟩
          simp only [sanitiseLine, htext, hk]
      | some k =>
          by_cases hlong : k = .candidate ∧
              Candidate.mandatoryTokens ≤ (words (Attribute.splitLine text).2).length
          · obtain ⟨rfl, hlength⟩ := hlong
            refine Or.inr ⟨text, rfl, Or.inr ⟨hk, hlength, ?_⟩⟩
            simp only [sanitiseLine, htext, hk, if_neg (Nat.not_lt.mpr hlength)]
            rfl
          · have hshort : k = .candidate →
                (words (Attribute.splitLine text).2).length < Candidate.mandatoryTokens :=
              fun hc => Nat.lt_of_not_le fun hlength => hlong ⟨hc, hlength⟩
            refine Or.inl ⟨?_, ?_⟩
            · by_cases hc : k = .candidate
              · subst hc
                simp only [sanitiseLine, htext, hk, if_pos (hshort rfl)]
              · simp only [sanitiseLine, htext, hk]
            · intro t ht e he
              obtain rfl : text = t := Option.some.inj (htext.symm.trans ht)
              exact Attribute.isUnsupported_eq_false hk hshort he

/-- A sanitised line is a line, too. -/
theorem isLineEnd_of_mem_sanitiseLine {line : List Char} (h : ∀ c ∈ line, isLineEnd c = false) :
    ∀ c ∈ sanitiseLine line, isLineEnd c = false := by
  rcases sanitiseLine_cases line with ⟨hkept, -⟩ | ⟨text, htext, ⟨-, hline⟩ | ⟨-, -, hline⟩⟩
  · rw [hkept]
    exact h
  · rw [hline]
    intro c hc
    rw [List.mem_singleton.mp hc]
    decide
  · rw [hline]
    intro c hc
    simp only [List.cons_append, List.mem_cons, List.mem_append] at hc
    rcases hc with rfl | rfl | hc | rfl | hc
    · decide
    · decide
    · exact h c ((infix_of_attributeText htext).subset (Attribute.keyword_subset text hc))
    · decide
    · exact Text.isLineEnd_of_mem_unwords (fun w hw => Candidate.isWord_of_mem_knownTokens hw) c hc

/-- A line with an attribute is not blank, and neither is what it becomes. -/
theorem forall_isBlank_sanitiseLine_iff (line : List Char) :
    (∀ c ∈ sanitiseLine line, isBlank c) ↔ ∀ c ∈ line, isBlank c := by
  rcases sanitiseLine_cases line with ⟨hkept, -⟩ | ⟨text, htext, hline⟩
  · rw [hkept]
  · have hnot : ¬ ∀ c ∈ line, isBlank c := by
      intro h
      rw [attributeText?, Text.trim_eq_nil_iff.mpr h] at htext
      cases htext
    refine iff_of_false (fun h => ?_) hnot
    rcases hline with ⟨-, hline⟩ | ⟨-, -, hline⟩
    · rw [hline] at h
      exact absurd (h '-' (List.mem_cons_self ..)) (by decide)
    · rw [hline] at h
      exact absurd (h 'a' (List.mem_cons_self ..)) (by decide)

/-- A strict reader says of a sanitised line what a lenient one says of the line. -/
theorem LineReading.ofLine_sanitiseLine (line : List Char) :
    ofLine .strict (sanitiseLine line) = { item := (ofLine .lenient line).item } := by
  rcases sanitiseLine_cases line with
    ⟨hkept, hsupported⟩ | ⟨text, htext, ⟨hk, hline⟩ | ⟨hk, hlength, hline⟩⟩
  · rw [hkept]
    cases htext : attributeText? line with
    | none => exact ofLine_of_attributeText_none htext .strict
    | some text =>
        rw [ofLine_of_attributeText htext, ofLine_of_attributeText htext, ofAttribute_strict,
          ofAttribute_lenient, (knownItem_of_supported (hsupported text htext)).1]
  · rw [hline, ofLine_of_attributeText htext, ofAttribute_lenient]
    simp only [knownItem, hk]
    rfl
  · have hwords : ∀ w ∈ Candidate.knownTokens (Attribute.splitLine text).2, IsWord w :=
      fun w hw => Candidate.isWord_of_mem_knownTokens hw
    have htext' := attributeText?_of_tokens (Attribute.splitLine text).1 hwords
      (Candidate.knownTokens_ne_nil hlength)
    have hcolon := Attribute.not_mem_keyword text
    have htokens := Candidate.words_splitLine_unwords hcolon hwords
    rw [hline, ofLine_of_attributeText htext, ofLine_of_attributeText htext', ofAttribute_strict,
      ofAttribute_lenient, Attribute.ofLine_of_keyword (by rw [Attribute.splitLine_append hcolon]; exact hk)]
    simp only [knownItem, hk, Attribute.read, Candidate.read_of_words_eq_knownTokens hlength htokens]

/-! ## A sanitised description -/

/-- The lines of a sanitised description are the sanitised lines, but for an empty one at the end. -/
theorem lines_sanitise (text : List Char) :
    (Text.lines text).map sanitiseLine = Text.lines (sanitise text) ∨
    (Text.lines text).map sanitiseLine = Text.lines (sanitise text) ++ [[]] := by
  refine Text.eq_lines_or_eq_concat fun l hl => ?_
  obtain ⟨line, hline, rfl⟩ := List.mem_map.mp hl
  exact isLineEnd_of_mem_sanitiseLine (Text.isLineEnd_of_mem_lines hline)

theorem forall_isBlank_sanitise_iff (text : List Char) :
    (∀ c ∈ sanitise text, isBlank c) ↔ ∀ c ∈ text, isBlank c := by
  have hlines : (∀ l ∈ Text.lines (sanitise text), ∀ c ∈ l, isBlank c) ↔
      ∀ l ∈ (Text.lines text).map sanitiseLine, ∀ c ∈ l, isBlank c := by
    rcases lines_sanitise text with h | h
    · rw [h]
    · rw [h]
      simp [or_imp, forall_and]
  rw [Text.forall_isBlank_iff_forall_lines, Text.forall_isBlank_iff_forall_lines, hlines]
  simp only [List.forall_mem_map, forall_isBlank_sanitiseLine_iff]

namespace Session

/-! ## Reading line by line -/

@[simp]
theorem withoutWarnings_warn (s : Session) (limit n : Nat) (faults : List (Fault Defect)) :
    (s.warn limit n faults).withoutWarnings = s.withoutWarnings := rfl

/-- What a line says is added without regard to the warnings. -/
theorem withoutWarnings_add (s : Session) (item : Item) :
    (s.add item).withoutWarnings = s.withoutWarnings.add item := by
  cases item with
  | connection address => cases hm : s.media.isEmpty <;> simp [add, withoutWarnings, hm]
  | attr a => cases hm : s.media.isEmpty <;> simp [add, withoutWarnings, hm]
  | _ => rfl

/-- Line by line, a lenient reader and a strict one that reads sanitised lines go the same way. -/
theorem readLines_sanitiseLine (limit limit' : Nat) (s : Session) (n : Nat) (ls : List (List Char)) :
    (readLines ⟨.strict, limit'⟩ s.withoutWarnings n (ls.map sanitiseLine)).2 =
      (readLines ⟨.lenient, limit⟩ s n ls).2.map withoutWarnings := by
  induction ls generalizing s n with
  | nil => rfl
  | cons line ls ih =>
      simp only [List.map_cons, readLines, LineReading.ofLine_sanitiseLine]
      cases (LineReading.ofLine .lenient line).item with
      | error e => rfl
      | ok item =>
          simp only [warn_nil]
          rw [← ih, withoutWarnings_add, withoutWarnings_warn]

/-- Whatever a lenient reader makes of a description, a strict one makes it of the description
without what is unknown. -/
theorem read_sanitise (text : List Char) (limit limit' : Nat) :
    (read ⟨.lenient, limit⟩ text).2.map withoutWarnings =
      (read ⟨.strict, limit'⟩ (sanitise text)).2 := by
  have hblank : (Text.trim (sanitise text)).isEmpty = (Text.trim text).isEmpty := by
    rw [Bool.eq_iff_iff, List.isEmpty_iff, List.isEmpty_iff, Text.trim_eq_nil_iff, Text.trim_eq_nil_iff]
    exact forall_isBlank_sanitise_iff text
  have hlines : readLines ⟨.strict, limit'⟩ {} 1 (Text.lines (sanitise text)) =
      readLines ⟨.strict, limit'⟩ {} 1 ((Text.lines text).map sanitiseLine) := by
    rcases lines_sanitise text with h | h
    · rw [h]
    · rw [h, readLines_concat_nil]
  unfold read
  rw [hblank, hlines]
  split
  · rfl
  · exact (readLines_sanitiseLine limit limit' {} 1 (Text.lines text)).symm

end Session

end Sdp
