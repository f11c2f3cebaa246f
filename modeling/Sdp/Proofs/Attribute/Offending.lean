import Sdp.Proofs.Attribute.Catalog
import Sdp.Proofs.Attribute.WellFormed

/-!
# Where offending text comes from

What is wrong with an attribute is shown as it was written. Main statement: `Attribute.pointsInto_ofLine`,
the text of a fault is a piece of the text that was read.
-/

namespace Sdp

open Text (words)

section PointsInto

variable {κ μ α β : Type} {s t : List Char}

/-- The text of a fault is a piece of `s`. -/
def Fault.LiesIn (e : Fault κ) (s : List Char) : Prop :=
  e.text.toList <:+: s

theorem liesIn_fault (cause : κ) (h : t <:+: s) : (fault cause t).LiesIn s := by
  rw [Fault.LiesIn, fault, String.toList_ofList]
  exact h

/-- If a reading fails, it blames a piece of `s`. -/
def PointsInto (s : List Char) (r : Except (Fault κ) α) : Prop :=
  ∀ e, r = .error e → e.LiesIn s

namespace PointsInto

theorem ok (s : List Char) (a : α) : PointsInto s (.ok a : Except (Fault κ) α) := nofun

theorem refuse (cause : κ) (h : t <:+: s) : PointsInto s (.error (fault cause t) : Except (Fault κ) α) := by
  rintro _ ⟨⟩
  exact liesIn_fault cause h

theorem mono {r : Except (Fault κ) α} (h : PointsInto t r) (hts : t <:+: s) : PointsInto s r :=
  fun e he => List.IsInfix.trans (h e he) hts

theorem bind {r : Except (Fault κ) α} {f : α → Except (Fault κ) β} (h : PointsInto s r)
    (hf : ∀ a, PointsInto s (f a)) : PointsInto s (r >>= f) := by
  cases r with
  | ok a => exact hf a
  | error e =>
      rintro _ ⟨⟩
      exact h e rfl

theorem map {r : Except (Fault κ) α} (h : PointsInto s r) (f : α → β) : PointsInto s (r.map f) := by
  cases r with
  | ok a => exact ok s (f a)
  | error e =>
      rintro _ ⟨⟩
      exact h e rfl

theorem widen {r : Except (Fault κ) α} (h : PointsInto s r) (f : κ → μ) : PointsInto s (widen f r) := by
  cases r with
  | ok a => exact ok s a
  | error e =>
      rintro _ ⟨⟩
      exact h e rfl

end PointsInto

theorem Meets.pointsInto {P : α → Prop} {r : Reading α} (h : Meets s P r) : PointsInto s r :=
  fun _ he => (h.of_eq_error he).isInfix

end PointsInto

variable {value : List Char}

/-! ## Candidates -/

namespace Candidate

theorem mem_of_mem_pairs {tokens : List (List Char)} {p : Pair} (h : p ∈ pairs tokens) :
    p.1 ∈ tokens ∧ p.2 ∈ tokens := by
  induction tokens using pairs.induct with
  | case1 name value rest ih =>
      rw [pairs] at h
      rcases List.mem_cons.mp h with rfl | h
      · simp
      · obtain ⟨hname, hvalue⟩ := ih h
        exact ⟨by simp [hname], by simp [hvalue]⟩
  | case2 tokens hshort =>
      rw [pairs.eq_2 tokens hshort] at h
      cases h

theorem pointsInto_readExtensions {tokens : List (List Char)} (htokens : tokens ⊆ words value) (c : Candidate) :
    PointsInto value (readExtensions c tokens) := by
  intro e he
  rcases readExtensions_outcome c tokens with ⟨-, c', hc', -⟩ | ⟨p, f, hp, hf, hstops⟩
  · cases he.symm.trans hc'
  · obtain rfl : e = f := Except.error.inj (he.symm.trans hf)
    obtain ⟨hname, hvalue⟩ := mem_of_mem_pairs (List.mem_of_find?_eq_some hp)
    rcases hstops with ⟨-, rfl⟩ | ⟨-, hblames⟩
    · exact liesIn_fault _ (Text.infix_of_mem_words (htokens hname))
    · exact (hblames.mono (Text.infix_of_mem_words (htokens hvalue))).isInfix

/-- Whichever extensions are left out, a fault among the tokens that stay is a piece of the value. -/
theorem pointsInto_readMandatory_bind {tokens : List (List Char)} (htokens : tokens ⊆ words value) :
    PointsInto value (readMandatory value ((words value).take mandatoryTokens) >>= fun c =>
      readExtensions c tokens) :=
  .bind (meets_readMandatory_words value).pointsInto fun c => pointsInto_readExtensions htokens c

end Candidate

/-! ## Attributes -/

namespace Attribute

theorem splitLine_infix (line : List Char) :
    (splitLine line).1 <:+: line ∧ (splitLine line).2 <:+: line := by
  unfold splitLine
  split
  · exact ⟨List.infix_rfl, List.nil_infix⟩
  · next keyword value h =>
      obtain ⟨hkeyword, hvalue⟩ := Text.infix_of_cut_eq_some h
      exact ⟨hkeyword, (Text.trim_infix value).trans hvalue⟩

theorem pointsInto_read (k : Kind) (value : List Char) : PointsInto value (read k value) := by
  by_cases hk : k = .candidate
  · subst hk
    refine PointsInto.map ?_ Attribute.candidate
    rw [Candidate.read_eq]
    exact Candidate.pointsInto_readMandatory_bind (List.drop_subset _ _)
  · exact (meets_read hk value).pointsInto

/-- Whatever is wrong with an attribute, the text that is shown stands on its line. -/
theorem pointsInto_ofLine (line : List Char) : PointsInto line (ofLine line) := by
  obtain ⟨hkeyword, hvalue⟩ := splitLine_infix line
  cases hk : Kind.ofKeyword? (splitLine line).1 with
  | none =>
      rw [ofLine_of_unknown hk]
      exact .refuse _ hkeyword
  | some k =>
      rw [ofLine_of_keyword hk]
      exact (pointsInto_read k _).mono hvalue

end Attribute

end Sdp
