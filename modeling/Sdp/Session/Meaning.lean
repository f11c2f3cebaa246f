import Sdp.Session.Line
import Sdp.Session.Sanitise

/-!
# What a line says

The meaning of a line, whatever way it is read in: a line with a letter of its own in front of its
equals sign is a field and says what stands behind that, and any other line says nothing.
-/

namespace Sdp

open Text (words)

/-- The letters of the fields. -/
def fieldLetters : List Char := ['v', 'o', 's', 'c', 't', 'm', 'a']

/-- Without the blanks around it the line is the letter, an equals sign and the value. -/
def IsField (line : List Char) (letter : Char) (value : List Char) : Prop :=
  Text.trim line = letter :: '=' :: value

/-- What a line says. Lines that say something else are refused. -/
inductive Says (line : List Char) : Item → Prop where
  | version {value : List Char} (field : IsField line 'v' value) : Says line (.version (.ofList value))
  | origin {value : List Char} (field : IsField line 'o' value) : Says line (.origin (.ofList value))
  | name {value : List Char} (field : IsField line 's' value) : Says line (.name (.ofList value))
  | timing {value : List Char} (field : IsField line 't' value) : Says line (.timing (.ofList value))
  | connection {value network family address : List Char} (field : IsField line 'c' value)
      (tokens : words value = [network, family, address]) (internet : (Network.readType network).isOk)
      (known : (Network.readFamily family).isOk) : Says line (.connection (.ofList address))
  | media {value type port protocol : List Char} {formats : List (List Char)} {n : Nat}
      (field : IsField line 'm' value) (tokens : words value = type :: port :: protocol :: formats)
      (formats_ne_nil : formats ≠ [])
      (digits : Numeral.readDecimal? (port.takeWhile (· ≠ '/')) = some n) (bound : n < 0x10000) :
      Says line <| .media
        { type := .ofList type, port := n, protocol := .ofList protocol, formats := formats.map .ofList }
  | attr {text : List Char} {a : Attribute} (field : IsField line 'a' text)
      (read : Attribute.ofLine text = .ok a) : Says line (.attr a)
  | nothing (h : ∀ letter ∈ fieldLetters, ∀ value, ¬ IsField line letter value) : Says line .nothing

/-- What is heard of a line: a lenient reader passes over all that is unknown on it. -/
def heard : Mode → List Char → List Char
  | .strict, line => line
  | .lenient, line => sanitiseLine line

end Sdp
