import Sdp.Proofs.Attribute.Catalog
import Sdp.Proofs.Attribute.WellFormed

/-!
# What is unsupported

Of all that can be wrong with an attribute only two things are unsupported, a keyword and the name
of an extension that is reached without a malformed token before it. Main statement:
`Attribute.errorClass_exact`.
-/

namespace Sdp

open Text (words)

theorem Defect.errorClass_eq_unsupported_iff {d : Defect} :
    d.errorClass = .unsupported ↔ d.isUnsupported := by
  cases d <;> simp [errorClass, isUnsupported]

theorem Defect.errorClass_eq_malformed_iff {d : Defect} :
    d.errorClass = .malformed ↔ d.isUnsupported = false := by
  cases d <;> simp [errorClass, isUnsupported]

namespace Candidate

/-- The tokens before the extensions are all there, and each of them is valid for itself. -/
def MandatoryValid : List (List Char) → Prop
  | [_, component, transport, priority, address, port, typ, type] =>
    (Quantity.candidateComponent.read component).isOk ∧
    (Keyword.transport.read Transport.all Transport.word transport).isOk ∧
    (Quantity.candidatePriority.read priority).isOk ∧
    (readAddress address).isOk ∧
    (Quantity.candidatePort.read port).isOk ∧
    (Keyword.candidateTyp.expect "typ" typ).isOk ∧
    (Keyword.candidateType.read CandidateType.all CandidateType.word type).isOk
  | _ => False

theorem isOk_bind {α β : Type} {r : Reading α} {f : α → Reading β} {P : Prop}
    (hf : ∀ a, (f a).isOk ↔ P) : (r >>= f).isOk ↔ r.isOk ∧ P := by
  cases r with
  | ok a => exact ⟨fun h => ⟨rfl, (hf a).mp h⟩, fun h => (hf a).mpr h.2⟩
  | error e => exact ⟨nofun, fun h => nomatch h.1⟩

theorem isOk_bind_pure {α β : Type} {r : Reading α} {f : α → β} :
    (r >>= fun a => pure (f a)).isOk ↔ r.isOk := by
  cases r <;> exact Iff.rfl

theorem isOk_readMandatory_iff (value : List Char) {tokens : List (List Char)} :
    (readMandatory value tokens).isOk ↔ MandatoryValid tokens := by
  unfold readMandatory
  split
  · refine isOk_bind fun _ => isOk_bind fun _ => isOk_bind fun _ => isOk_bind fun _ => ?_
    exact isOk_bind fun _ => isOk_bind fun _ => isOk_bind_pure
  · next hshape =>
      rw [MandatoryValid.eq_2 tokens hshape]
      exact iff_of_false Bool.false_ne_true id

/-- A candidate is read up to the first malformed mandatory token, or else up to the first pair that
is not accepted. -/
theorem read_cases (value : List Char) :
    (¬ MandatoryValid ((words value).take mandatoryTokens) ∧
      ∃ e, readMandatory value ((words value).take mandatoryTokens) = .error e ∧
        read value = .error e ∧ Blames value e) ∨
    (MandatoryValid ((words value).take mandatoryTokens) ∧
      ∃ c, readMandatory value ((words value).take mandatoryTokens) = .ok c ∧
        read value = readExtensions c ((words value).drop mandatoryTokens)) := by
  have hmeets := meets_readMandatory_words value
  rw [← isOk_readMandatory_iff value, read_eq]
  cases hr : readMandatory value ((words value).take mandatoryTokens) with
  | ok c => exact Or.inr ⟨rfl, c, rfl, rfl⟩
  | error e => exact Or.inl ⟨nofun, e, rfl, rfl, hmeets.of_eq_error hr⟩

end Candidate

namespace Attribute

/-- No kind has the keyword. -/
def UnknownKeyword (keyword : List Char) : Prop :=
  Text.isAscii keyword = false ∨ ∀ k : Kind, k.keyword.toList ≠ Text.lower keyword

/-- The keyword is that of a candidate, the mandatory tokens are valid, and the first pair that is not
a known name with a valid value is `p`, whose name is unknown. -/
structure StopsAtUnknown (keyword value : List Char) (p : Candidate.Pair) : Prop where
  ascii : Text.isAscii keyword
  keyword : Kind.candidate.keyword.toList = Text.lower keyword
  mandatory : Candidate.MandatoryValid ((words value).take Candidate.mandatoryTokens)
  stop : Candidate.stop? ((words value).drop Candidate.mandatoryTokens) = some p
  unknown : Candidate.isUnknown p

theorem candidate_read_unsupported_iff {value : List Char} {e : Fault Defect} :
    (Candidate.read value = .error e ∧ e.cause.isUnsupported) ↔
      ∃ p, Candidate.MandatoryValid ((words value).take Candidate.mandatoryTokens) ∧
        Candidate.stop? ((words value).drop Candidate.mandatoryTokens) = some p ∧
        Candidate.isUnknown p ∧ e = fault .unknownExtension p.1 := by
  rcases Candidate.read_cases value with ⟨hinvalid, f, -, hf, hblames⟩ | ⟨hvalid, c, -, hread⟩
  · constructor
    · rintro ⟨he, hunsupported⟩
      obtain rfl : f = e := Except.error.inj (hf.symm.trans he)
      exact absurd hunsupported (by simp [hblames.malformed])
    · rintro ⟨p, hvalid, -⟩
      exact absurd hvalid hinvalid
  · rw [hread]
    rcases Candidate.readExtensions_outcome c ((words value).drop Candidate.mandatoryTokens) with
      ⟨hnone, c', hc', -⟩ | ⟨p, f, hstop, hf, hwith⟩
    · simp [hc', hnone]
    · rw [hf, hstop]
      constructor
      · rintro ⟨he, hunsupported⟩
        obtain rfl : f = e := Except.error.inj he
        rcases hwith with ⟨hunknown, rfl⟩ | ⟨-, hblames⟩
        · exact ⟨p, hvalid, rfl, hunknown, rfl⟩
        · exact absurd hunsupported (by simp [hblames.malformed])
      · rintro ⟨q, -, hq, hunknown, rfl⟩
        obtain rfl : p = q := Option.some.inj hq
        rcases hwith with ⟨-, rfl⟩ | ⟨hrefused, -⟩
        · exact ⟨rfl, rfl⟩
        · exact absurd hrefused (by simp [Candidate.not_isRefused_of_isUnknown hunknown])

theorem unknownKeyword_iff {keyword : List Char} :
    UnknownKeyword keyword ↔ Kind.ofKeyword? keyword = none :=
  Kind.ofKeyword?_eq_none_iff.symm

/-- The kinds other than candidates have malformed text only. -/
theorem read_errorClass (k : Kind) (value : List Char) (e : Fault Defect) (h : read k value = .error e) :
    e.cause.errorClass = .malformed ∨ (k = .candidate ∧ e.cause.errorClass = .unsupported) := by
  by_cases hk : k = .candidate
  · rcases hu : e.cause.isUnsupported with _ | _
    · exact Or.inl (Defect.errorClass_eq_malformed_iff.mpr hu)
    · exact Or.inr ⟨hk, Defect.errorClass_eq_unsupported_iff.mpr hu⟩
  · exact Or.inl (Defect.errorClass_eq_malformed_iff.mpr ((meets_read hk value).of_eq_error h).malformed)

theorem read_candidate_eq_error_iff {value : List Char} {e : Fault Defect} :
    read .candidate value = .error e ↔ Candidate.read value = .error e := by
  change (Candidate.read value).map Attribute.candidate = .error e ↔ _
  cases Candidate.read value <;> simp [Except.map]

theorem ofLine_unsupported_iff {line : List Char} {e : Fault Defect} :
    (ofLine line = .error e ∧ e.cause.isUnsupported) ↔
      (UnknownKeyword (splitLine line).1 ∧ e = fault .unknownAttribute (splitLine line).1) ∨
      ∃ p, StopsAtUnknown (splitLine line).1 (splitLine line).2 p ∧ e = fault .unknownExtension p.1 := by
  cases hk : Kind.ofKeyword? (splitLine line).1 with
  | none =>
      have hunknown := unknownKeyword_iff.mpr hk
      rw [ofLine_of_unknown hk]
      constructor
      · rintro ⟨he, -⟩
        exact Or.inl ⟨hunknown, (Except.error.inj he).symm⟩
      · rintro (⟨-, rfl⟩ | ⟨p, hp, -⟩)
        · exact ⟨rfl, rfl⟩
        · cases hk.symm.trans (Kind.ofKeyword?_eq_some_iff.mpr ⟨hp.ascii, hp.keyword⟩)
  | some k =>
      have hknown : ¬ UnknownKeyword (splitLine line).1 := by simp [unknownKeyword_iff, hk]
      rw [ofLine_of_keyword hk]
      constructor
      · rintro ⟨he, hunsupported⟩
        by_cases hc : k = .candidate
        · subst hc
          obtain ⟨hascii, hkeyword⟩ := Kind.ofKeyword?_eq_some_iff.mp hk
          obtain ⟨p, hvalid, hstop, hunknown, rfl⟩ :=
            candidate_read_unsupported_iff.mp ⟨read_candidate_eq_error_iff.mp he, hunsupported⟩
          exact Or.inr ⟨p, ⟨hascii, hkeyword, hvalid, hstop, hunknown⟩, rfl⟩
        · exact absurd hunsupported (by simp [((meets_read hc _).of_eq_error he).malformed])
      · rintro (⟨hunknown, -⟩ | ⟨p, hp, rfl⟩)
        · exact absurd hunknown hknown
        · obtain rfl : k = .candidate :=
            Option.some.inj (hk.symm.trans (Kind.ofKeyword?_eq_some_iff.mpr ⟨hp.ascii, hp.keyword⟩))
          rw [read_candidate_eq_error_iff]
          exact candidate_read_unsupported_iff.mpr ⟨p, hp.mandatory, hp.stop, hp.unknown, rfl⟩

/-- An error is unsupported just if the keyword is unknown, or an unknown extension is reached; every
other error is of malformed text, and all but candidates have no other. A fault holds no number of a
line: only the reader of a description adds one. -/
theorem errorClass_exact (line : List Char) :
    (∀ e, (ofLine line = .error e ∧ e.cause.errorClass = .unsupported) ↔
      (UnknownKeyword (splitLine line).1 ∧ e = fault .unknownAttribute (splitLine line).1) ∨
      ∃ p, StopsAtUnknown (splitLine line).1 (splitLine line).2 p ∧ e = fault .unknownExtension p.1) ∧
    (∀ e, ofLine line = .error e → e.cause.errorClass = .unsupported ∨ e.cause.errorClass = .malformed) ∧
    ∀ k value e, read k value = .error e →
      e.cause.errorClass = .malformed ∨ (k = .candidate ∧ e.cause.errorClass = .unsupported) := by
  refine ⟨fun e => ?_, fun e _ => ?_, read_errorClass⟩
  · rw [Defect.errorClass_eq_unsupported_iff]
    exact ofLine_unsupported_iff
  · rw [Defect.errorClass_eq_unsupported_iff, Defect.errorClass_eq_malformed_iff]
    cases e.cause.isUnsupported <;> simp

/-- A malformed value before an unknown name is to blame, and one behind it is not. -/
theorem errorClass_exact_of_two_defects :
    ofLine "candidate:1 1 udp 1 ::1 9 typ host generation 0 rport x".toList =
      .error (fault .unknownExtension "generation".toList) ∧
    read .candidate "1 1 udp 1 ::1 9 typ host rport x generation 0".toList =
      .error (fault (.number .candidateRemotePort .notUnsigned) "x".toList) ∧
    Defect.errorClass (.number .candidateRemotePort .notUnsigned) = .malformed := by
  have hunknown := ((errorClass_exact "candidate:1 1 udp 1 ::1 9 typ host generation 0 rport x".toList).1
    (fault .unknownExtension "generation".toList)).mpr
    (Or.inr ⟨("generation".toList, "0".toList),
      ⟨rfl, rfl, (Candidate.isOk_readMandatory_iff []).mp rfl, rfl, rfl⟩, rfl⟩)
  have hrefused : read .candidate "1 1 udp 1 ::1 9 typ host rport x generation 0".toList =
      .error (fault (.number .candidateRemotePort .notUnsigned) "x".toList) := rfl
  refine ⟨hunknown.1, hrefused, ?_⟩
  exact ((errorClass_exact []).2.2 _ _ _ hrefused).resolve_right (by decide)

end Attribute

end Sdp
