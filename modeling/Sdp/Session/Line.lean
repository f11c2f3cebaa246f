import Sdp.Numeral.Width
import Sdp.Session.Basic
import Sdp.Session.Extension

/-!
# Lines of a description

What one line says, whatever stands around it. A line is a letter, an equals sign and a value;
every other line says nothing.
-/

namespace Sdp

open Text (cut trim words)

/-- What a line says. -/
inductive Item where
  | nothing
  | version (value : String)
  | origin (value : String)
  | name (value : String)
  | timing (value : String)
  | connection (address : String)
  | media (m : Media)
  | attr (a : Attribute)
deriving DecidableEq, Repr

namespace Item

/-- Reads `IN <family> <address>`, of which the address is kept as it is. -/
def readConnection (value : List Char) : Except (Fault Problem) Item :=
  match words value with
  | [network, family, address] => do
    widen .network (Network.readType network)
    let _ ← widen .network (Network.readFamily family)
    return .connection (.ofList address)
  | _ => .error (fault .connection value)

/-- No port has more digits. -/
def portWidth : Numeral.Width where
  most := 5

/-- A port without a sign, before a slash if there is one. -/
def readPort? (s : List Char) : Option Nat :=
  let digits := match cut '/' s with
    | none => s
    | some (before, _) => before
  ((Numeral.decimalDigits? digits).bind portWidth.value?).bind fun n =>
    if n < 0x10000 then some n else none

/-- Reads `<type> <port>[/<ports>] <protocol> 1*<format>`. -/
def readMedia (value : List Char) : Except (Fault Problem) Item :=
  match words value with
  | type :: port :: protocol :: format :: formats =>
    match readPort? port with
    | none => .error (fault .port port)
    | some n =>
      .ok <| .media
        { type := .ofList type, port := n, protocol := .ofList protocol,
          formats := (format :: formats).map .ofList }
  | _ => .error (fault .media value)

end Item

/-- What was skipped on a line, and what it says without that. -/
structure LineReading where
  skipped : List (Fault Defect) := []
  item : Except (Fault Problem) Item

/-- Reads an attribute. A lenient reader skips an unknown attribute, and an unknown extension of a
candidate, after which it reads the rest of the line again. -/
def LineReading.ofAttribute (mode : Mode) (line : List Char) : LineReading :=
  match Attribute.ofLine line with
  | .ok a => { item := .ok (.attr a) }
  | .error e =>
    if mode = .lenient ∧ e.cause.isUnsupported then
      match _h : Candidate.withoutExtension? line e.text.toList with
      | none => { skipped := [e], item := .ok .nothing }
      | some shorter =>
        let r := ofAttribute mode shorter
        { r with skipped := e :: r.skipped }
    else { item := .error (e.map .defect) }
termination_by line.length
decreasing_by exact Candidate.length_withoutExtension _h

/-- Reads a line of a description. -/
def LineReading.ofLine (mode : Mode) (line : List Char) : LineReading :=
  match cut '=' (trim line) with
  | none => { item := .ok .nothing }
  | some (field, value) =>
    match field with
    | ['v'] => { item := .ok (.version (.ofList value)) }
    | ['o'] => { item := .ok (.origin (.ofList value)) }
    | ['s'] => { item := .ok (.name (.ofList value)) }
    | ['c'] => { item := Item.readConnection value }
    | ['t'] => { item := .ok (.timing (.ofList value)) }
    | ['m'] => { item := Item.readMedia value }
    | ['a'] => ofAttribute mode value
    | _ => { item := .ok .nothing }

end Sdp
