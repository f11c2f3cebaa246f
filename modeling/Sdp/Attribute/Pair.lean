import Sdp.Attribute.Candidate

/-!
# Extensions as pairs

What stands behind the mandatory tokens of a candidate, seen as pairs of a name and a value. A name
without a value at the end belongs to no pair.
-/

namespace Sdp.Candidate

/-- The name and the value of an extension. -/
abbrev Pair := List Char × List Char

/-- The complete pairs among some tokens. -/
def pairs : List (List Char) → List Pair
  | name :: value :: rest => (name, value) :: pairs rest
  | _ => []

/-- Whether a value can be read, whatever the candidate. -/
def Extension.accepts (e : Extension) (value : List Char) : Bool :=
  match e with
  | remoteAddress => (readAddress value).isOk
  | remotePort => (Quantity.candidateRemotePort.read value).isOk
  | tcpType => (Keyword.tcpType.read TcpType.all TcpType.word value).isOk

/-- No extension has the name. -/
def isUnknown (p : Pair) : Bool :=
  (Extension.ofName? p.1).isNone

/-- The name is known, and the value can be read. -/
def isAccepted (p : Pair) : Bool :=
  (Extension.ofName? p.1).any fun e => e.accepts p.2

/-- The name is known, and the value cannot be read. -/
def isRefused (p : Pair) : Bool :=
  (Extension.ofName? p.1).any fun e => !e.accepts p.2

/-- The names of some pairs that are unknown, in order. -/
def unknownNames (ps : List Pair) : List (List Char) :=
  (ps.filter isUnknown).map Prod.fst

/-- The names of the unknown pairs before the first known name whose value is refused. -/
def namesBeforeRefused (tokens : List (List Char)) : List (List Char) :=
  unknownNames ((pairs tokens).takeWhile (!isRefused ·))

/-- The tokens without the pairs whose name is unknown. A name without a value stays. -/
def dropUnknown : List (List Char) → List (List Char)
  | name :: value :: rest =>
    if isUnknown (name, value) then dropUnknown rest else name :: value :: dropUnknown rest
  | rest => rest

/-- Reads a candidate as if its unknown pairs were not there. -/
def readKnown (value : List Char) : Reading Candidate := do
  let tokens := Text.words value
  readExtensions (← readMandatory value (tokens.take mandatoryTokens))
    (dropUnknown (tokens.drop mandatoryTokens))

end Sdp.Candidate
