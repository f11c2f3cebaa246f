import Sdp.Attribute.Pair
import Sdp.Attribute.Parser
import Sdp.Session.Basic
import Sdp.Text.Line

/-!
# Leaving out what is unknown

A description without all that a lenient reader skips on its lines, and the list of what it skips.
-/

namespace Sdp

open Text (cut trim words unwords)

/-- The text behind `a=`, if the line has one. -/
def attributeText? (line : List Char) : Option (List Char) :=
  match cut '=' (trim line) with
  | some (['a'], value) => some value
  | _ => none

/-- A candidate line without its unknown pairs; any other line as it is. A line with an unknown
keyword becomes one that says nothing and is not blank. -/
def sanitiseLine (line : List Char) : List Char :=
  match attributeText? line with
  | none => line
  | some text =>
    let (keyword, value) := Attribute.splitLine text
    match Kind.ofKeyword? keyword with
    | none => ['-']
    | some .candidate =>
      let tokens := words value
      if tokens.length < Candidate.mandatoryTokens then line
      else
        'a' :: '=' :: keyword ++ ':' :: unwords
          (tokens.take Candidate.mandatoryTokens ++
            Candidate.dropUnknown (tokens.drop Candidate.mandatoryTokens))
    | some _ => line

/-- The lines without what is unknown on them, with a line feed between neighbours. -/
def sanitise (text : List Char) : List Char :=
  ['\n'].intercalate ((Text.lines text).map sanitiseLine)

/-- What a description says, without what was skipped on the way. -/
def Session.withoutWarnings (s : Session) : Session :=
  { s with warnings := [] }

/-- All that is unknown in the text behind `a=`, from left to right. -/
def unknownParts (text : List Char) : List (Fault Defect) :=
  let (keyword, value) := Attribute.splitLine text
  match Kind.ofKeyword? keyword with
  | none => [fault .unknownAttribute keyword]
  | some .candidate =>
    (Candidate.unknownNames
      (Candidate.pairs ((words value).drop Candidate.mandatoryTokens))).map
      (fault .unknownExtension)
  | some _ => []

/-- What is unknown in the text behind `a=` to the left of the first malformed token: nothing if a
mandatory token of a candidate is malformed, or else the unknown pairs before the first known name
whose value is. -/
def unknownBeforeRefused (text : List Char) : List (Fault Defect) :=
  let (keyword, value) := Attribute.splitLine text
  match Kind.ofKeyword? keyword with
  | none => [fault .unknownAttribute keyword]
  | some .candidate =>
    let tokens := words value
    if (Candidate.readMandatory value (tokens.take Candidate.mandatoryTokens)).isOk then
      (Candidate.namesBeforeRefused (tokens.drop Candidate.mandatoryTokens)).map
        (fault .unknownExtension)
    else []
  | some _ => []

/-- All that is unknown on a line. -/
def unknownOn (line : List Char) : List (Fault Defect) :=
  (attributeText? line).elim [] unknownParts

/-- All that is unknown on lines from number `n` on, with the lines it is on. -/
def unknownFrom (n : Nat) (lines : List (List Char)) : List Warning :=
  (lines.zipIdx n).flatMap fun (line, i) => (unknownOn line).map (Warning.mk i)

end Sdp
