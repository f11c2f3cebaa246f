import Sdp.Attribute.Display
import Sdp.Session.Basic

/-!
# Summaries

A session in a few lines, and a media description in one.
-/

namespace Sdp

/-- Texts with a comma and a space between neighbours. -/
def commaSeparated (ts : List (List Char)) : List Char :=
  [',', ' '].intercalate ts

/-- The titles of attributes, or a dash if there are none. -/
def titles (attributes : List Attribute) : List Char :=
  if attributes.isEmpty then ['-']
  else commaSeparated (attributes.map fun a => a.kind.title.toList)

namespace Media

/-- The line of a summary: type, port and protocol, and the titles of the attributes. -/
def headline (m : Media) : List Char :=
  "m=".toList ++ m.type.toList ++ ' ' :: Numeral.decimal m.port ++ ' ' :: m.protocol.toList ++
    ':' :: ' ' :: titles m.attributes

/-- The media description on one line, with the number of its attributes. -/
def display (m : Media) : List Char :=
  "MediaDescription(type=".toList ++ m.type.toList ++
    ", port=".toList ++ Numeral.decimal m.port ++
    ", formats=[".toList ++ commaSeparated (m.formats.map fun f => Text.quote f.toList) ++
    "], attributes=".toList ++ Numeral.decimal m.attributes.length ++ [')']

end Media

/-- The session, its media descriptions and its warnings, each on one line. -/
def Session.overview (s : Session) : List (List Char) :=
  ("session: ".toList ++ titles s.attributes) ::
    s.media.map Media.headline ++
    s.warnings.map fun w => "warning: ".toList ++ w.report

end Sdp
