import Sdp.Session.Line

/-!
# Sections

The items of a description fall into sections: what stands before the first media description, and
every media description with what stands behind it.
-/

namespace Sdp

/-- A media description and the items behind it, up to the next one. -/
structure Section where
  media : Media
  items : List Item
deriving DecidableEq, Repr

/-- The items before the first media description, and the sections that follow. -/
def sections : List Item → List Item × List Section
  | [] => ([], [])
  | .media m :: rest =>
    let (items, others) := sections rest
    ([], ⟨m, items⟩ :: others)
  | item :: rest =>
    let (items, others) := sections rest
    (item :: items, others)

namespace Item

def attribute? : Item → Option Attribute
  | .attr a => some a
  | _ => none

def connection? : Item → Option String
  | .connection address => some address
  | _ => none

def version? : Item → Option String
  | .version value => some value
  | _ => none

def origin? : Item → Option String
  | .origin value => some value
  | _ => none

def name? : Item → Option String
  | .name value => some value
  | _ => none

def timing? : Item → Option String
  | .timing value => some value
  | _ => none

end Item

/-- The attributes among some items. -/
def attributesAmong (items : List Item) : List Attribute :=
  items.filterMap Item.attribute?

/-- The last address among some items. -/
def lastConnection? (items : List Item) : Option String :=
  (items.filterMap Item.connection?).getLast?

/-- The media description of a section, with all that the section says. -/
def Section.read (s : Section) : Media :=
  { s.media with
    attributes := attributesAmong s.items, connection := lastConnection? s.items }

/-- The session has all that some items say, and has it in place: the fields of the session as they
were said last, anywhere, and everything else by sections. The address of a media description is the
last one in its section, or else the last one before the first section. -/
structure Session.Collects (s : Session) (items : List Item) : Prop where
  version : s.version = (items.filterMap Item.version?).getLast?.getD "0"
  origin : s.origin = (items.filterMap Item.origin?).getLast?
  name : s.name = (items.filterMap Item.name?).getLast?.getD "-"
  timing : s.timing = (items.filterMap Item.timing?).getLast?.getD "0 0"
  attributes : s.attributes = attributesAmong (sections items).1
  connection : s.connection = lastConnection? (sections items).1
  media : s.media = (sections items).2.map Section.read
  connectionOf : ∀ part ∈ (sections items).2,
    s.connectionOf part.read = (lastConnection? part.items <|> lastConnection? (sections items).1)

end Sdp
