import Sdp.Attribute.Token
import Sdp.Attribute.WellFormed
import Sdp.Proofs.Address.Canonical
import Sdp.Proofs.Text.Words

/-!
# Outcomes of readings

A reading of a text ends in a value or blames a piece of the text. `Meets s P r` says what the value
is like and that the blame, if any, is for a malformed piece of `s`. Every reader has one lemma of
this form, and whoever calls it uses the lemma and not the reader.
-/

namespace Sdp

open Text (IsWord words)

/-- A malformed piece of `s` is at fault. -/
structure Blames (s : List Char) (e : Fault Defect) : Prop where
  malformed : e.cause.isUnsupported = false
  isInfix : e.text.toList <:+: s

/-- The value has the property `P`, or a malformed piece of `s` is at fault. -/
def Meets {α : Type} (s : List Char) (P : α → Prop) (r : Reading α) : Prop :=
  match r with
  | .ok a => P a
  | .error e => Blames s e

variable {α β : Type} {s t : List Char}

theorem Blames.mono {e : Fault Defect} (h : Blames t e) (hts : t <:+: s) : Blames s e :=
  ⟨h.malformed, h.isInfix.trans hts⟩

theorem blames_fault {d : Defect} (hd : d.isUnsupported = false) (hts : t <:+: s) :
    Blames s (fault d t) :=
  ⟨hd, by simpa [fault] using hts⟩

namespace Meets

theorem ok {P : α → Prop} {a : α} (h : P a) : Meets s P (.ok a) := h

theorem refuse {P : α → Prop} {d : Defect} (hd : d.isUnsupported = false) (hts : t <:+: s) :
    Meets s P (.error (fault d t)) :=
  blames_fault hd hts

theorem bind {P : α → Prop} {Q : β → Prop} {r : Reading α} {f : α → Reading β} (h : Meets t P r)
    (hts : t <:+: s) (hf : ∀ a, P a → Meets s Q (f a)) : Meets s Q (r >>= f) := by
  cases r with
  | ok a => exact hf a h
  | error e => exact Blames.mono h hts

theorem map {P : α → Prop} {Q : β → Prop} {r : Reading α} {f : α → β} (h : Meets s P r)
    (hf : ∀ a, P a → Q (f a)) : Meets s Q (r.map f) := by
  cases r with
  | ok a => exact hf a h
  | error e => exact h

/-- What a reader says of its value is true of the value that it gives. -/
theorem of_eq_ok {P : α → Prop} {r : Reading α} {a : α} (h : Meets s P r) (hr : r = .ok a) : P a := by
  subst hr
  exact h

theorem of_eq_error {P : α → Prop} {r : Reading α} {e : Fault Defect} (h : Meets s P r)
    (hr : r = .error e) : Blames s e := by
  subst hr
  exact h

end Meets

/-! ## Successful readings -/

section Success

variable {ε κ μ : Type}

theorem bind_eq_ok_iff {r : Except ε α} {f : α → Except ε β} {b : β} :
    r >>= f = .ok b ↔ ∃ a, r = .ok a ∧ f a = .ok b := by
  cases r with
  | ok a => simp [bind, Except.bind]
  | error e => simp [bind, Except.bind]

theorem map_eq_ok_iff {r : Except ε α} {f : α → β} {b : β} :
    r.map f = .ok b ↔ ∃ a, r = .ok a ∧ f a = b := by
  cases r with
  | ok a => simp [Except.map]
  | error e => simp [Except.map]

theorem exists_map_eq_ok_iff {r : Except ε α} {f : α → β} : (∃ b, r.map f = .ok b) ↔ ∃ a, r = .ok a := by
  cases r with
  | ok a => simp [Except.map]
  | error e => simp [Except.map]

theorem widen_eq_ok_iff {r : Except (Fault κ) α} {f : κ → μ} {a : α} :
    widen f r = .ok a ↔ r = .ok a := by
  cases r with
  | ok b => simp [widen]
  | error e => simp [widen]

theorem isOk_iff {r : Except ε α} : r.isOk ↔ ∃ a, r = .ok a := by
  cases r with
  | ok a => exact iff_of_true rfl ⟨a, rfl⟩
  | error e => exact iff_of_false Bool.false_ne_true nofun

end Success

/-! ## Tokens -/

theorem oneWord_ofList {w : List Char} : OneWord (.ofList w) ↔ IsWord w := by
  rw [OneWord, String.toList_ofList]

/-- A number is within its bounds. -/
def Quantity.Holds (q : Quantity) (n : Nat) : Prop :=
  n < q.bound ∧ (q.isPort → n < 0x10000)

theorem Quantity.meets_read (q : Quantity) (s : List Char) : Meets s q.Holds (q.read s) := by
  unfold Quantity.read
  split
  · exact .refuse rfl List.infix_rfl
  · split
    · exact .refuse rfl List.infix_rfl
    · next n hn =>
        split
        · exact .refuse rfl List.infix_rfl
        · split
          · exact .refuse rfl List.infix_rfl
          · next hbound hport => exact .ok ⟨Nat.lt_of_not_le hbound, fun hq => by
              rw [not_and] at hport
              exact Nat.lt_of_not_le (hport hq)⟩

theorem Keyword.meets_read (k : Keyword) (all : List α) (word : α → String) (s : List Char) :
    Meets s (fun a => (word a).toList = Text.lower s) (k.read all word s) := by
  unfold Keyword.read
  split
  · next a ha => exact .ok (by simpa using List.find?_some ha)
  · exact .refuse rfl List.infix_rfl

theorem Keyword.meets_expect (k : Keyword) (word : String) (s : List Char) :
    Meets s (fun _ => word.toList = Text.lower s) (k.expect word s) :=
  k.meets_read [()] (fun _ => word) s

/-! ## Network words -/

theorem Address.noZone (a : Address) : a.NoZone := fun h =>
  forall_mem_canonical (p := (· ≠ '%')) (by decide) (by decide) (by decide) a '%' h rfl

theorem Network.meets_readType (s : List Char) :
    Meets s (fun _ => Text.upper s = internet.toList) (widen .network (readType s)) := by
  unfold readType
  split
  · next h => exact .ok h
  · exact .refuse rfl List.infix_rfl

theorem Network.meets_readFamily (s : List Char) :
    Meets s (fun f => f.word.toList = Text.upper s) (widen .network (readFamily s)) := by
  unfold readFamily
  split
  · next f hf => exact .ok (by simpa using List.find?_some hf)
  · exact .refuse rfl List.infix_rfl

theorem Network.meets_readAddress (f : Family) (s : List Char) :
    Meets s (fun a => a.family = f) (widen .network (readAddress f s)) := by
  unfold readAddress
  split
  · exact .refuse rfl List.infix_rfl
  · split
    · next h => exact .ok h
    · exact .refuse rfl List.infix_rfl

theorem meets_readAddress (s : List Char) :
    Meets s (fun a => a.family = if '.' ∈ s then .ip4 else .ip6) (readAddress s) :=
  Network.meets_readAddress _ s

end Sdp
