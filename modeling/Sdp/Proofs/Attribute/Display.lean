import Sdp.Attribute.WellFormed
import Sdp.Proofs.Address.Canonical
import Sdp.Proofs.Attribute.Catalog
import Sdp.Proofs.Attribute.Term

/-!
# Attributes are told apart by how they are shown

Main statement: `Attribute.display_injective_and_printable`.
-/

namespace Sdp

open Term (optional WellNamed WellNamedItems WellNamedFields)

/-! ## Parts of values -/

section Parts

variable {α : Type} {f : α → Term}

theorem optional_inj (h : ∀ a b, f a = f b ↔ a = b) (hne : ∀ a, f a ≠ .none) {o p : Option α} :
    optional f o = optional f p ↔ o = p := by
  cases o with
  | none =>
      cases p with
      | none => simp
      | some b => simpa [Term.optional] using (hne b).symm
  | some a =>
      cases p with
      | none => simpa [Term.optional] using hne a
      | some b => simpa [Term.optional] using h a b

theorem map_term_inj (h : ∀ a b, f a = f b ↔ a = b) {as bs : List α} : as.map f = bs.map f ↔ as = bs :=
  (List.map_injective_iff.mpr fun a b hab => (h a b).mp hab).eq_iff

theorem wellNamed_optional (h : ∀ a, (f a).WellNamed) (o : Option α) : (optional f o).WellNamed := by
  cases o with
  | none => trivial
  | some a => exact h a

theorem wellNamedItems_map (h : ∀ a, (f a).WellNamed) (as : List α) : WellNamedItems (as.map f) := by
  induction as with
  | nil => trivial
  | cons a as ih => exact ⟨h a, ih⟩

end Parts

@[simp]
theorem Family.term_inj {a b : Family} : a.term = b.term ↔ a = b := by
  cases a <;> cases b <;> simp [Family.term, Family.word]

@[simp]
theorem Family.wellNamed_term (a : Family) : a.term.WellNamed := by
  cases a <;> exact ⟨by decide, by decide⟩

@[simp]
theorem Transport.term_inj {a b : Transport} : a.term = b.term ↔ a = b := by
  cases a <;> cases b <;> simp [Transport.term, Transport.word]

@[simp]
theorem Transport.wellNamed_term (a : Transport) : a.term.WellNamed := by
  cases a <;> exact ⟨by decide, by decide⟩

@[simp]
theorem CandidateType.term_inj {a b : CandidateType} : a.term = b.term ↔ a = b := by
  cases a <;> cases b <;> simp [CandidateType.term, CandidateType.word]

@[simp]
theorem CandidateType.wellNamed_term (a : CandidateType) : a.term.WellNamed := by
  cases a <;> exact ⟨by decide, by decide⟩

@[simp]
theorem TcpType.term_inj {a b : TcpType} : a.term = b.term ↔ a = b := by
  cases a <;> cases b <;> simp [TcpType.term, TcpType.word]

@[simp]
theorem TcpType.wellNamed_term (a : TcpType) : a.term.WellNamed := by
  cases a <;> exact ⟨by decide, by decide⟩

@[simp]
theorem Direction.term_inj {a b : Direction} : a.term = b.term ↔ a = b := by
  cases a <;> cases b <;> simp [Direction.term, Direction.word]

@[simp]
theorem Direction.wellNamed_term (a : Direction) : a.term.WellNamed := by
  cases a <;> exact ⟨by decide, by decide⟩

@[simp]
theorem Semantics.term_inj {a b : Semantics} : a.term = b.term ↔ a = b := by
  cases a <;> cases b <;> simp [Semantics.term, Semantics.word]

@[simp]
theorem Semantics.wellNamed_term (a : Semantics) : a.term.WellNamed := by
  cases a <;> exact ⟨by decide, by decide⟩

@[simp]
theorem SetupRole.term_inj {a b : SetupRole} : a.term = b.term ↔ a = b := by
  cases a <;> cases b <;> simp [SetupRole.term, SetupRole.word]

@[simp]
theorem SetupRole.wellNamed_term (a : SetupRole) : a.term.WellNamed := by
  cases a <;> exact ⟨by decide, by decide⟩

@[simp]
theorem Address.term_inj {a b : Address} : a.term = b.term ↔ a = b := by
  constructor
  · intro h
    simp only [term, Term.literal.injEq, String.ofList_inj] at h
    exact canonical_injective h.2
  · rintro rfl
    rfl

@[simp]
theorem Address.wellNamed_term (a : Address) : a.term.WellNamed := by
  unfold Address.term
  split
  · exact show IsName "IPv4Address" by decide
  · exact show IsName "IPv6Address" by decide

@[simp]
theorem StreamId.term_inj {a b : StreamId} : a.term = b.term ↔ a = b := by
  cases a
  cases b
  simp [term]

@[simp]
theorem StreamId.wellNamed_term (a : StreamId) : a.term.WellNamed := by
  simp +decide [term, WellNamed, WellNamedFields]

namespace Attribute

theorem exists_eq_ofValue_of_kind {a : Attribute} {k : Kind} (h : a.kind = k) :
    ∃ value : k.Value, a = ofValue k value := by
  subst h
  exact a.exists_eq_ofValue

/-- What an attribute of a kind carries is told by its term. -/
theorem eq_of_valueTerm_ofValue {k : Kind} {v w : k.Value}
    (h : (ofValue k v).valueTerm = (ofValue k w).valueTerm) : ofValue k v = ofValue k w := by
  have haddress {o p : Option Address} : optional Address.term o = optional Address.term p ↔ o = p :=
    optional_inj (fun _ _ => Address.term_inj) nofun
  have htcp {o p : Option TcpType} : optional TcpType.term o = optional TcpType.term p ↔ o = p :=
    optional_inj (fun _ _ => TcpType.term_inj) nofun
  have hdirection {o p : Option Direction} : optional Direction.term o = optional Direction.term p ↔ o = p :=
    optional_inj (fun _ _ => Direction.term_inj) nofun
  cases k with
  | flag f => rfl
  | label l => exact congrArg (label l) (Term.text.inj h)
  | iceOptions => exact congrArg iceOptions ((map_term_inj fun s t => by simp).mp (Term.list.inj h))
  | sctpPort => exact congrArg sctpPort (Term.number.inj h)
  | setup => exact congrArg setup (SetupRole.term_inj.mp h)
  | candidate =>
      cases v
      cases w
      simpa [ofValue, valueTerm, Candidate.term, optional_inj, haddress, htcp, and_assoc] using h
  | simulcast =>
      cases v
      cases w
      simpa [ofValue, valueTerm, Simulcast.streamsTerm, map_term_inj] using h
  | _ =>
      cases v
      cases w
      simpa [ofValue, valueTerm, optional_inj, map_term_inj, hdirection] using h

theorem wellNamed_valueTerm (a : Attribute) : a.valueTerm.WellNamed := by
  have hnumber := wellNamed_optional (f := Term.number) fun n => trivial
  have htext := wellNamed_optional (f := Term.text) fun s => trivial
  have htexts := wellNamedItems_map (f := Term.text) fun s => trivial
  cases a with
  | flag f => trivial
  | candidate c =>
      simp +decide [valueTerm, Candidate.term, WellNamed, WellNamedFields, wellNamed_optional, hnumber]
  | simulcast s =>
      have hstreams (streams : List (List StreamId)) : (Simulcast.streamsTerm streams).WellNamed := by
        refine wellNamedItems_map (fun ids => ?_) streams
        have hids := wellNamedItems_map StreamId.wellNamed_term ids
        simp +decide [WellNamed, WellNamedFields, hids]
      simp +decide [valueTerm, WellNamed, WellNamedFields, hstreams]
  | _ => simp +decide [valueTerm, WellNamed, WellNamedFields, wellNamed_optional, hnumber, htext, htexts]

end Attribute

/-! ## Titles -/

namespace Kind

theorem nodup_titles : (all.map title).Nodup := by decide +kernel

theorem title_injective {k l : Kind} (h : k.title = l.title) : k = l :=
  List.inj_on_of_nodup_map nodup_titles (mem_all k) (mem_all l) h

theorem char_of_mem_title (k : Kind) : ∀ c ∈ k.title.toList, c ≠ ',' ∧ 0x20 ≤ c.toNat ∧ c.toNat ≤ 0x7E := by
  have h : ∀ k ∈ all, k.title.toList.all fun c => c ≠ ',' && 0x20 ≤ c.toNat && c.toNat ≤ 0x7E := by
    decide +kernel
  intro c hc
  simpa [and_assoc] using List.all_eq_true.mp (h k (mem_all k)) c hc

end Kind

/-! ## Attributes -/

namespace Attribute

theorem display_injective : Function.Injective display := by
  intro a b h
  have hclose : Term.Closes [')'] := by
    rintro c hc
    cases hc
    exact Or.inr rfl
  have hcomma : ", value=".toList = ',' :: " value=".toList := by decide
  have htitle (k : Kind) : ∀ c ∈ k.title.toList, decide (c ≠ ',') := fun c hc =>
    decide_eq_true (k.char_of_mem_title c hc).1
  unfold display at h
  simp only [hcomma, List.append_assoc, List.cons_append] at h
  obtain ⟨hkind, hrest⟩ := append_inj_of_run (htitle a.kind) (htitle b.kind) (stops_cons rfl _) (stops_cons rfl _)
    (List.append_cancel_left h)
  have hsame : b.kind = a.kind := (Kind.title_injective (String.toList_inj.mp hkind)).symm
  obtain ⟨hterm, -⟩ := Term.render_append_inj a.wellNamed_valueTerm b.wellNamed_valueTerm hclose hclose
    (List.append_cancel_left (List.cons.inj hrest).2)
  obtain ⟨v, hv⟩ := a.exists_eq_ofValue
  obtain ⟨w, hw⟩ := exists_eq_ofValue_of_kind hsame
  rw [hv, hw] at hterm
  rw [hv, hw]
  exact eq_of_valueTerm_ofValue hterm

theorem isPrintable_of_mem_display (a : Attribute) : ∀ c ∈ a.display, Text.isPrintable c := by
  unfold display
  simp only [List.forall_mem_append]
  refine ⟨⟨⟨⟨?_, fun c hc => ?_⟩, ?_⟩, Term.forall_mem_render a.wellNamed_valueTerm⟩, ?_⟩
  · exact Text.forall_isPrintable_of_ascii (by decide)
  · obtain ⟨-, hlow, hhigh⟩ := a.kind.char_of_mem_title c hc
    exact Text.isPrintable_of_ascii hlow hhigh
  · exact Text.forall_isPrintable_of_ascii (by decide)
  · exact Text.forall_isPrintable_of_ascii (by decide)

/-- No two attributes are shown alike, whatever texts they carry, and none is shown with a character that
is not printable. -/
theorem display_injective_and_printable :
    (∀ a b : Attribute, a.display = b.display → a.kind = b.kind ∧ a = b) ∧
    ∀ a : Attribute, ∀ c ∈ a.display, Text.isPrintable c := by
  refine ⟨fun a b h => ?_, isPrintable_of_mem_display⟩
  have hab := display_injective h
  exact ⟨congrArg kind hab, hab⟩

/-- A text that imitates what stands around it does not pass for that. -/
example : (Attribute.simulcast ⟨[[⟨"a', paused=True), SimulcastId(id='b", false⟩]], []⟩).display ≠
    (Attribute.simulcast ⟨[[⟨"a", true⟩, ⟨"b", false⟩]], []⟩).display :=
  fun h => absurd (display_injective h) (by decide)

end Attribute

end Sdp
