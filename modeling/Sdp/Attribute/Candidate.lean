import Sdp.Attribute.Basic
import Sdp.Attribute.Token
import Sdp.Text.Blank

/-!
# Candidates

    <foundation> <component> <transport> <priority> <address> <port> typ <type> *(<name> <value>)

Behind the eight tokens of a candidate stand extensions, each a name and a value. The last value of
a name counts, but every one of them is read. A name without a value at the end is passed over.
-/

namespace Sdp.Candidate

open Text (words)

/-- The extensions of a candidate. -/
inductive Extension where
  | remoteAddress
  | remotePort
  | tcpType
deriving DecidableEq, Repr

namespace Extension

def all : List Extension := [.remoteAddress, .remotePort, .tcpType]

def word : Extension → String
  | remoteAddress => "raddr"
  | remotePort => "rport"
  | tcpType => "tcptype"

/-- The extension that `s` names in any letter case. -/
def ofName? (s : List Char) : Option Extension :=
  Text.matchLower all word s

/-- Reads the value of an extension into a candidate. -/
def apply (e : Extension) (value : List Char) (c : Candidate) : Reading Candidate :=
  match e with
  | remoteAddress => do
    let a ← readAddress value
    return { c with remoteAddress := some a }
  | remotePort => do
    let p ← Quantity.candidateRemotePort.read value
    return { c with remotePort := some p }
  | tcpType => do
    let t ← Keyword.tcpType.read TcpType.all TcpType.word value
    return { c with tcpType := some t }

end Extension

/-- Reads the pairs of extension name and value from left to right. -/
def readExtensions (c : Candidate) : List (List Char) → Reading Candidate
  | name :: value :: rest =>
    match Extension.ofName? name with
    | none => .error (fault .unknownExtension name)
    | some e => do readExtensions (← e.apply value c) rest
  | _ => .ok c

/-- The number of tokens before the extensions. -/
def mandatoryTokens : Nat := 8

/-- Reads the tokens before the extensions; `value` is what a missing token is blamed on. -/
def readMandatory (value : List Char) : List (List Char) → Reading Candidate
  | [foundation, component, transport, priority, address, port, typ, type] => do
    let component ← Quantity.candidateComponent.read component
    let transport ← Keyword.transport.read Transport.all Transport.word transport
    let priority ← Quantity.candidatePriority.read priority
    let address ← readAddress address
    let port ← Quantity.candidatePort.read port
    Keyword.candidateTyp.expect "typ" typ
    let type ← Keyword.candidateType.read CandidateType.all CandidateType.word type
    return { foundation := .ofList foundation, component, transport, priority, address, port, type }
  | _ => .error (fault (.tokens .candidate) value)

def read (value : List Char) : Reading Candidate := do
  let tokens := words value
  readExtensions (← readMandatory value (tokens.take mandatoryTokens)) (tokens.drop mandatoryTokens)

end Sdp.Candidate
