import Sdp.Attribute.Parser
import Sdp.Proofs.Attribute.Number

/-!
# Tokens are read as they are spelled

Main statements: `Keyword.read_word`, `Quantity.read_decimal` and `readAddress_canonical`.
-/

namespace Sdp

open Text (IsWord)
open Numeral (decimal)

/-! ## Catalogues -/

/-- Every word of a catalogue is one word, and is found by itself. -/
structure Spelled {α : Type} (find? : List Char → Option α) (word : α → String) : Prop where
  isWord : ∀ a, IsWord (word a).toList
  find : ∀ a, find? (word a).toList = some a

theorem Transport.spelled : Spelled (Text.matchLower all word) word :=
  ⟨by rintro ⟨⟩ <;> decide, by rintro ⟨⟩ <;> rfl⟩

theorem CandidateType.spelled : Spelled (Text.matchLower all word) word :=
  ⟨by rintro ⟨⟩ <;> decide, by rintro ⟨⟩ <;> rfl⟩

theorem TcpType.spelled : Spelled (Text.matchLower all word) word :=
  ⟨by rintro ⟨⟩ <;> decide, by rintro ⟨⟩ <;> rfl⟩

theorem Direction.spelled : Spelled (Text.matchLower all word) word :=
  ⟨by rintro ⟨⟩ <;> decide, by rintro ⟨⟩ <;> rfl⟩

theorem SetupRole.spelled : Spelled (Text.matchLower all word) word :=
  ⟨by rintro ⟨⟩ <;> decide, by rintro ⟨⟩ <;> rfl⟩

theorem Simulcast.Side.spelled : Spelled (Text.matchLower all word) word :=
  ⟨by rintro ⟨⟩ <;> decide, by rintro ⟨⟩ <;> rfl⟩

theorem Candidate.Extension.spelled : Spelled ofName? word :=
  ⟨by rintro ⟨⟩ <;> decide, by rintro ⟨⟩ <;> rfl⟩

theorem Semantics.spelled : Spelled (Text.matchUpper all word) word :=
  ⟨by rintro ⟨⟩ <;> decide, by rintro ⟨⟩ <;> rfl⟩

theorem Family.spelled : Spelled (Text.matchUpper all word) word :=
  ⟨by rintro ⟨⟩ <;> decide, by rintro ⟨⟩ <;> rfl⟩

theorem Keyword.read_word {α : Type} {all : List α} {word : α → String}
    (h : Spelled (Text.matchLower all word) word) (k : Keyword) (a : α) :
    k.read all word (word a).toList = .ok a := by
  rw [read, h.find]

/-! ## Numbers and addresses -/

theorem Quantity.read_decimal {q : Quantity} {n : Nat} (h : q.Holds n) : q.read (decimal n) = .ok n :=
  read_eq_ok_iff.mpr ⟨Or.inl (Numeral.denotes_digits (by decide) n), h⟩

/-- What a port can be, every number can be. -/
theorem Quantity.holds_of_port (q : Quantity) {n : Nat} (h : n < 0x10000) : q.Holds n :=
  ⟨Nat.lt_of_lt_of_le h (by cases q <;> decide), fun _ => h⟩

theorem readAddress_canonical (a : Address) : readAddress a.canonical = .ok a := by
  rw [readAddress, Network.readAnyAddress_canonical, widen]

end Sdp
