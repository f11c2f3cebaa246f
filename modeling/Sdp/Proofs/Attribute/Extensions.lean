import Sdp.Attribute.Pair
import Sdp.Proofs.Attribute.Outcome
import Sdp.Session.Extension

/-!
# Reading extensions

The reader of extensions goes by the first pair that is not accepted. Main statements:
`readExtensions_outcome`, what it gives or blames, and `exists_dropPair_eq_some`, the pair that it
stops at because of its name is the one that is left out.
-/

namespace Sdp.Candidate

/-! ## Pairs -/

theorem not_isUnknown_of_isAccepted {p : Pair} (h : isAccepted p) : isUnknown p = false := by
  unfold isAccepted at h
  unfold isUnknown
  cases hn : Extension.ofName? p.1 with
  | none => simp [hn] at h
  | some e => rfl

theorem not_isRefused_of_isAccepted {p : Pair} (h : isAccepted p) : isRefused p = false := by
  unfold isAccepted at h
  unfold isRefused
  cases hn : Extension.ofName? p.1 with
  | none => rfl
  | some e => simpa [hn] using h

theorem not_isRefused_of_isUnknown {p : Pair} (h : isUnknown p) : isRefused p = false := by
  unfold isUnknown at h
  unfold isRefused
  rw [Option.isNone_iff_eq_none.mp h]
  rfl

/-- The first pair that is not accepted, if there is one. -/
def stop? (tokens : List (List Char)) : Option Pair :=
  (pairs tokens).find? (!isAccepted ·)

theorem stop?_of_isAccepted {name value : List Char} (h : isAccepted (name, value))
    (rest : List (List Char)) : stop? (name :: value :: rest) = stop? rest := by
  simp [stop?, pairs, h]

theorem stop?_of_not_isAccepted {name value : List Char} (h : isAccepted (name, value) = false)
    (rest : List (List Char)) : stop? (name :: value :: rest) = some (name, value) := by
  simp [stop?, pairs, h]

/-! ## The value of an extension -/

theorem meets_apply {α : Type} {s : List Char} {P : α → Prop} {Q : Candidate → Prop}
    {r : Reading α} {f : α → Candidate} (h : Meets s P r) (hf : ∀ a, P a → Q (f a)) :
    (r.isOk ∧ ∃ c, (r >>= fun a => pure (f a)) = .ok c ∧ Q c) ∨
    (r.isOk = false ∧ ∃ e, (r >>= fun a => pure (f a)) = .error e ∧ Blames s e) := by
  cases r with
  | ok a => exact Or.inl ⟨rfl, f a, rfl, hf a h⟩
  | error e => exact Or.inr ⟨rfl, e, rfl, h⟩

/-- Whether the value of an extension can be read does not depend on the candidate. -/
theorem Extension.apply_cases (e : Extension) (value : List Char) (c : Candidate) :
    (e.accepts value ∧ ∃ c', e.apply value c = .ok c' ∧ (c.WellFormed → c'.WellFormed)) ∨
    (e.accepts value = false ∧ ∃ f, e.apply value c = .error f ∧ Blames value f) := by
  cases e with
  | remoteAddress =>
      exact meets_apply (meets_readAddress value) fun a _ h =>
        { h with remoteAddress := by rintro b ⟨⟩; exact a.noZone }
  | remotePort =>
      exact meets_apply (Quantity.meets_read _ value) fun p hp h =>
        { h with remotePort := by rintro q ⟨⟩; exact hp.2 rfl }
  | tcpType =>
      exact meets_apply (Keyword.meets_read _ _ _ value) fun t _ h => { h with }

/-! ## Reading from left to right -/

theorem read_eq (value : List Char) :
    read value = readMandatory value ((Text.words value).take mandatoryTokens) >>= fun c =>
      readExtensions c ((Text.words value).drop mandatoryTokens) := rfl

theorem readKnown_eq (value : List Char) :
    readKnown value = readMandatory value ((Text.words value).take mandatoryTokens) >>= fun c =>
      readExtensions c (dropUnknown ((Text.words value).drop mandatoryTokens)) := rfl

theorem readMandatory_congr {tokens : List (List Char)} (h : tokens.length = mandatoryTokens)
    (v w : List Char) : readMandatory v tokens = readMandatory w tokens := by
  unfold readMandatory
  split
  · rfl
  · next hshape =>
      match tokens, h with
      | [_, _, _, _, _, _, _, _], _ => exact (hshape _ _ _ _ _ _ _ _ rfl).elim

theorem isAccepted_eq {name value : List Char} {e : Extension} (he : Extension.ofName? name = some e) :
    isAccepted (name, value) = e.accepts value := by
  simp [isAccepted, he]

theorem isRefused_eq {name value : List Char} {e : Extension} (he : Extension.ofName? name = some e) :
    isRefused (name, value) = !e.accepts value := by
  simp [isRefused, he]

/-- What is wrong with a pair that is not accepted: its name, or else its value. -/
def StopsWith (p : Pair) (f : Fault Defect) : Prop :=
  (isUnknown p ∧ f = fault .unknownExtension p.1) ∨ (isRefused p ∧ Blames p.2 f)

/-- Without a pair to stop at the reader gives a candidate; else it blames the first such pair. -/
theorem readExtensions_outcome (c : Candidate) (tokens : List (List Char)) :
    (stop? tokens = none ∧ ∃ c', readExtensions c tokens = .ok c' ∧ (c.WellFormed → c'.WellFormed)) ∨
    ∃ p f, stop? tokens = some p ∧ readExtensions c tokens = .error f ∧ StopsWith p f := by
  fun_induction readExtensions c tokens with
  | case1 c name value rest he =>
      have hunknown : isUnknown (name, value) := by simp [isUnknown, he]
      have hstop : isAccepted (name, value) = false := by simp [isAccepted, he]
      exact Or.inr ⟨(name, value), _, stop?_of_not_isAccepted hstop rest, rfl, Or.inl ⟨hunknown, rfl⟩⟩
  | case2 c name value rest e he ih =>
      rcases e.apply_cases value c with ⟨haccepts, c', hc', hwf⟩ | ⟨haccepts, f, hf, hblames⟩
      · rw [stop?_of_isAccepted (by rw [isAccepted_eq he, haccepts]), hc']
        rcases ih c' with ⟨hnone, c'', hc'', hwf'⟩ | hstop
        · exact Or.inl ⟨hnone, c'', hc'', hwf' ∘ hwf⟩
        · exact Or.inr hstop
      · refine Or.inr ⟨(name, value), f, ?_, by rw [hf]; rfl, Or.inr ⟨?_, hblames⟩⟩
        · exact stop?_of_not_isAccepted (by rw [isAccepted_eq he, haccepts]) rest
        · rw [isRefused_eq he, haccepts]
          rfl
  | case3 tokens c hshort =>
      refine Or.inl ⟨?_, c, rfl, id⟩
      rw [stop?, pairs.eq_2 tokens hshort, List.find?_nil]

/-- Unknown pairs behind the stop, and those that never come to be read, make no difference. -/
theorem readExtensions_dropUnknown {tokens : List (List Char)}
    (h : ∀ p, stop? tokens = some p → isUnknown p = false) (c : Candidate) :
    readExtensions c (dropUnknown tokens) = readExtensions c tokens := by
  fun_induction readExtensions c tokens with
  | case1 c name value rest he =>
      have hstop : isAccepted (name, value) = false := by simp [isAccepted, he]
      have hunknown := h _ (stop?_of_not_isAccepted hstop rest)
      simp [isUnknown, he] at hunknown
  | case2 c name value rest e he ih =>
      have hknown : isUnknown (name, value) = false := by simp [isUnknown, he]
      rw [dropUnknown, hknown, if_neg (by decide), readExtensions, he]
      rcases e.apply_cases value c with ⟨haccepts, c', hc', -⟩ | ⟨haccepts, f, hf, -⟩
      · have hskip := stop?_of_isAccepted (by rw [isAccepted_eq he, haccepts] : isAccepted (name, value)) rest
        rw [hskip] at h
        simp only [hc']
        exact ih c' h
      · simp only [hf]
        rfl
  | case3 tokens c hshort =>
      rw [dropUnknown.eq_2 tokens hshort, readExtensions.eq_2 c tokens hshort]

/-! ## Leaving out the stop -/

theorem namesBeforeRefused_of_isAccepted {name value : List Char} (h : isAccepted (name, value))
    (rest : List (List Char)) :
    namesBeforeRefused (name :: value :: rest) = namesBeforeRefused rest := by
  simp [namesBeforeRefused, unknownNames, pairs, not_isRefused_of_isAccepted h,
    not_isUnknown_of_isAccepted h]

theorem namesBeforeRefused_of_isUnknown {name value : List Char} (h : isUnknown (name, value))
    (rest : List (List Char)) :
    namesBeforeRefused (name :: value :: rest) = name :: namesBeforeRefused rest := by
  simp [namesBeforeRefused, unknownNames, pairs, not_isRefused_of_isUnknown h, h]

theorem not_isAccepted_cases {p : Pair} (h : isAccepted p = false) : isUnknown p ∨ isRefused p := by
  unfold isAccepted at h
  unfold isUnknown isRefused
  cases hn : Extension.ofName? p.1 with
  | none => exact Or.inl rfl
  | some e => exact Or.inr (by simpa [hn] using h)

theorem namesBeforeRefused_eq_nil {tokens : List (List Char)}
    (h : ∀ p, stop? tokens = some p → isUnknown p = false) : namesBeforeRefused tokens = [] := by
  induction tokens using pairs.induct with
  | case1 name value rest ih =>
      cases ha : isAccepted (name, value) with
      | true =>
          rw [namesBeforeRefused_of_isAccepted ha]
          rw [stop?_of_isAccepted ha] at h
          exact ih h
      | false =>
          have hunknown := h _ (stop?_of_not_isAccepted ha rest)
          have hrefused : isRefused (name, value) :=
            (not_isAccepted_cases ha).resolve_left (by simp [hunknown])
          simp [namesBeforeRefused, unknownNames, pairs, hrefused]
  | case2 tokens hshort => simp [namesBeforeRefused, unknownNames, pairs.eq_2 tokens hshort]

/-- When the reader stops at an unknown name, the first pair of just that name is the pair that it
stopped at: all pairs before it have known names. -/
theorem exists_dropPair_eq_some {tokens : List (List Char)} {p : Pair} (h : stop? tokens = some p)
    (hp : isUnknown p) :
    ∃ rest, dropPair? p.1 tokens = some rest ∧ dropUnknown rest = dropUnknown tokens ∧
      namesBeforeRefused tokens = p.1 :: namesBeforeRefused rest := by
  induction tokens using pairs.induct with
  | case1 name value tokens ih =>
      cases ha : isAccepted (name, value) with
      | true =>
          rw [stop?_of_isAccepted ha] at h
          obtain ⟨rest, hdrop, hknown, hnames⟩ := ih h
          have hname := not_isUnknown_of_isAccepted ha
          have hne : name ≠ p.1 := by
            rintro rfl
            exact absurd (hp.symm.trans hname) (by decide)
          refine ⟨name :: value :: rest, ?_, ?_, ?_⟩
          · rw [dropPair?, if_neg hne, hdrop, Option.map_some]
          · simp only [dropUnknown, hname, hknown]
          · rw [namesBeforeRefused_of_isAccepted ha, namesBeforeRefused_of_isAccepted ha, hnames]
      | false =>
          rw [stop?_of_not_isAccepted ha, Option.some.injEq] at h
          subst h
          refine ⟨tokens, ?_, ?_, namesBeforeRefused_of_isUnknown hp tokens⟩
          · rw [dropPair?, if_pos rfl]
          · rw [dropUnknown, if_pos hp]
  | case2 tokens hshort => simp [stop?, pairs.eq_2 tokens hshort] at h

end Sdp.Candidate
