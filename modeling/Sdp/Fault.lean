import Sdp.Text.Quoted
import Sdp.Numeral.Digits

/-!
# Faults

A fault is a cause and the piece of text it was found in. Every kind of cause has its own type and
its own wording; what all share is how a fault is reported.
-/

namespace Sdp

/-- The classes of errors that a caller tells apart: a description that cannot be read, a network word
or address, malformed text of an attribute, and text that is only unknown. -/
inductive ErrorClass where
  | description
  | network
  | malformed
  | unsupported
deriving DecidableEq, Repr

/-- A cause, and the offending piece of text as it was written. -/
structure Fault (κ : Type) where
  cause : κ
  text : String
deriving DecidableEq, Repr

/-- The fault of `cause` in the text `s`. -/
def fault {κ : Type} (cause : κ) (s : List Char) : Fault κ :=
  ⟨cause, .ofList s⟩

/-- The same text blamed on a cause of a wider type. -/
def Fault.map {κ μ : Type} (f : κ → μ) (e : Fault κ) : Fault μ :=
  ⟨f e.cause, e.text⟩

/-- Widens the cause of a failure. -/
def widen {κ μ α : Type} (f : κ → μ) : Except (Fault κ) α → Except (Fault μ) α
  | .ok a => .ok a
  | .error e => .error (e.map f)

/-- One line about a fault: the number of the line it is on, if any, the wording of its cause, and
the quoted text, if any. -/
def report (line : Option Nat) (message text : String) : List Char :=
  (match line with
    | some n => "line ".toList ++ Numeral.decimal n ++ [':', ' ']
    | none => []) ++
  message.toList ++
  (if text.isEmpty then [] else ':' :: ' ' :: Text.quote text.toList)

end Sdp
