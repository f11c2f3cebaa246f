import Sdp.Attribute.Basic
import Sdp.Attribute.Defect
import Sdp.Log.Event

/-!
# Sessions

A session description: fields of the session as a whole, and media descriptions that each have
attributes and maybe an address of their own.
-/

namespace Sdp

/-- Whether unsupported attributes end the reading of a description. -/
inductive Mode where
  | strict
  | lenient
deriving DecidableEq, Repr

/-- How a description is read. -/
structure Policy where
  mode : Mode := .lenient
  maxWarnings : Nat := 100
deriving DecidableEq, Repr

structure Media where
  type : String
  port : Nat
  protocol : String
  formats : List String
  attributes : List Attribute := []
  connection : Option String := none
deriving DecidableEq, Repr

/-- An attribute, or an extension of one, that was skipped on a line. -/
structure Warning where
  line : Nat
  fault : Fault Defect
deriving DecidableEq, Repr

structure Session where
  version : String := "0"
  origin : Option String := none
  name : String := "-"
  connection : Option String := none
  timing : String := "0 0"
  attributes : List Attribute := []
  media : List Media := []
  warnings : List Warning := []
deriving DecidableEq, Repr

/-- Why a description is refused. -/
inductive Problem where
  | blank
  | connection
  | media
  | port
  | network (r : Network.Refusal)
  | defect (d : Defect)
deriving DecidableEq, Repr

def Problem.message : Problem → String
  | blank => "Empty SDP string"
  | connection => "Invalid connection line"
  | media => "Invalid media line"
  | port => "Invalid port in media line"
  | network r => r.message
  | defect d => d.message

/-- Network words of a description are part of it. -/
def Problem.errorClass : Problem → ErrorClass
  | blank | connection | media | port | network _ => .description
  | defect d => d.errorClass

/-- The end of a reading: a fault, and the line it is on unless the description is blank. -/
structure Failure where
  fault : Fault Problem
  line : Option Nat
deriving DecidableEq, Repr

def Warning.report (w : Warning) : List Char :=
  Sdp.report (some w.line) w.fault.cause.message w.fault.text

def Failure.report (f : Failure) : List Char :=
  Sdp.report f.line f.fault.cause.message f.fault.text

/-- The attributes of kind `k`, in order. -/
def attributesOf (attributes : List Attribute) (k : Kind) : List Attribute :=
  attributes.filter (·.kind = k)

/-- The first attribute of kind `k`. -/
def firstOf? (attributes : List Attribute) (k : Kind) : Option Attribute :=
  (attributesOf attributes k).head?

namespace Session

/-- The first media description of a type. -/
def mediaOfType? (s : Session) (type : String) : Option Media :=
  s.media.find? (·.type = type)

def hasAudio (s : Session) : Bool :=
  (s.mediaOfType? "audio").isSome

def hasVideo (s : Session) : Bool :=
  (s.mediaOfType? "video").isSome

/-- The address of a media description: its own unless that is empty, or else that of the session. -/
def connectionOf (s : Session) (m : Media) : Option String :=
  m.connection.filter (!·.isEmpty) <|> s.connection

end Session

end Sdp
