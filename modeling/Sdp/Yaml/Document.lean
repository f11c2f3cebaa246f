import Sdp.Data.Document
import Sdp.Yaml.Scalar
import Sdp.Text.Line

/-!
# Reading documents

A document is empty, a scalar, a list of scalars, or a mapping whose values are scalars, lists of
scalars and mappings of scalars. Mappings and lists stand one entry a line, and what belongs to an
entry stands deeper than the entry; a mapping may stand between braces, too. A value with an anchor can be
named where it is to stand again.
-/

namespace Sdp.Yaml

/-- Why a text is no document: it breaks the rules of the format, or the key of a section is not a
text. -/
inductive Flaw where
  | grammar
  | key
deriving DecidableEq, Repr

/-- The depth of a line, and what stands on it. -/
abbrev Row := Nat × List Char

/-- Whether nothing is left on a line but a comment, which is set off by a blank. -/
def isRemark (s : List Char) : Bool :=
  match s with
  | [] => true
  | c :: _ => (c = ' ' || c = '\t') &&
    match s.dropWhile fun c => c = ' ' || c = '\t' with
    | [] => true
    | c :: _ => c = '#'

/-- What a character behind a backslash stands for, and how many hexadecimal digits follow it. -/
def escapes : List (Char × Char) :=
  [('0', '\x00'), ('a', '\x07'), ('b', '\x08'), ('t', '\x09'), ('\t', '\x09'), ('n', '\x0A'),
    ('v', '\x0B'), ('f', '\x0C'), ('r', '\x0D'), ('e', '\x1B'), (' ', ' '), ('"', '"'),
    ('\\', '\\'), ('/', '/'), ('N', '\u0085'), ('_', '\u00A0'), ('L', '\u2028'), ('P', '\u2029')]

/-- The character with the code point in the first `width` digits, and the rest. -/
def readCodePoint? (width : Nat) (s : List Char) : Option (Char × List Char) :=
  if s.length < width then none
  else
    (Numeral.readHex? (s.take width)).bind fun n =>
      if n.isValidChar then some (.ofNat n, s.drop width) else none

theorem length_readCodePoint {width : Nat} {s rest : List Char} {c : Char}
    (h : readCodePoint? width s = some (c, rest)) : rest.length ≤ s.length := by
  simp only [readCodePoint?] at h
  split at h
  · simp at h
  · obtain ⟨n, _, hn⟩ := Option.bind_eq_some_iff.1 h
    split at hn
    · obtain ⟨_, rfl⟩ : _ ∧ s.drop width = rest := by simpa using hn
      simp
    · simp at hn

/-- The text up to the closing double quote, and the rest. -/
def readDoubleQuoted? : List Char → Option (List Char × List Char)
  | [] => none
  | '"' :: rest => some ([], rest)
  | '\\' :: c :: rest =>
    let width := if c = 'x' then 2 else if c = 'u' then 4 else if c = 'U' then 8 else 0
    if width = 0 then do
      let c ← escapes.lookup c
      (readDoubleQuoted? rest).map fun (s, rest) => (c :: s, rest)
    else
      match _h : readCodePoint? width rest with
      | none => none
      | some (c, rest) => (readDoubleQuoted? rest).map fun (s, rest) => (c :: s, rest)
  | c :: rest => (readDoubleQuoted? rest).map fun (s, rest) => (c :: s, rest)
termination_by s => s.length
decreasing_by
  all_goals try have := length_readCodePoint _h
  all_goals simp only [List.length_cons]; omega

/-- The text up to the closing single quote, and the rest; two quotes stand for one. -/
def readSingleQuoted? : List Char → Option (List Char × List Char)
  | [] => none
  | '\'' :: '\'' :: rest => (readSingleQuoted? rest).map fun (s, rest) => ('\'' :: s, rest)
  | '\'' :: rest => some ([], rest)
  | c :: rest => (readSingleQuoted? rest).map fun (s, rest) => (c :: s, rest)

/-- A quoted text, and the rest; none if the text does not start with a quote. -/
def readQuoted? : List Char → Option (List Char × List Char)
  | '"' :: rest => readDoubleQuoted? rest
  | '\'' :: rest => readSingleQuoted? rest
  | _ => none

/-- A scalar without quotes, up to a comment or to a colon that ends a key, and the rest. -/
def cutPlain : List Char → List Char × List Char
  | [] => ([], [])
  | [c] => if c = ':' then ([], [c]) else ([c], [])
  | c :: d :: rest =>
    let isGap := fun c => c = ' ' || c = '\t'
    if (c = ':' && isGap d) || (isGap c && d = '#') then ([], c :: d :: rest)
    else
      let (s, rest) := cutPlain (d :: rest)
      (c :: s, rest)

/-- The characters that cannot start a scalar without quotes. -/
def indicators : List Char :=
  [',', '[', ']', '{', '}', '#', '&', '*', '!', '|', '>', '\'', '"', '%', '@', '\x60']

/-- Whether a scalar without quotes can start here. A dash, a question mark or a colon has to be
followed by something. -/
def startsPlain : List Char → Bool
  | [] => false
  | c :: rest =>
    if c = '-' ∨ c = '?' ∨ c = ':' then rest.head?.any fun d => d ≠ ' ' ∧ d ≠ '\t'
    else c ∉ indicators

/-- A scalar, and what follows it on its line. -/
def readScalar (s : List Char) : Except Flaw (Value × List Char) :=
  match s with
  | [] => .ok (.null, [])
  | c :: _ =>
    if c = '"' ∨ c = '\'' then
      match readQuoted? s with
      | some (text, rest) => .ok (.text (.ofList text), rest)
      | none => .error .grammar
    else if !startsPlain s then .error .grammar
    else
      let (text, rest) := cutPlain s
      .ok (resolve (Text.trimEnd text), rest)

/-- A scalar that ends its line. -/
def readValue (s : List Char) : Except Flaw Value := do
  let s := Text.trimStart s
  if s.head? = some '#' then return .null
  let (v, rest) ← readScalar s
  if isRemark rest then return v else throw .grammar

/-- The key that opens a line, and what stands behind its colon; none if there is no key. -/
def cutKey? (s : List Char) : Option (Value × List Char) :=
  match readScalar s with
  | .ok (key, rest) =>
    match Text.trimStart rest with
    | [':'] => some (key, [])
    | ':' :: c :: rest => if c = ' ' || c = '\t' then some (key, rest) else none
    | _ => none
  | .error _ => none

/-- What stands behind the dash of a list item. -/
def cutDash? : List Char → Option (List Char)
  | ['-'] => some []
  | '-' :: c :: rest => if c = ' ' || c = '\t' then some rest else none
  | _ => none

/-- The lines that say something. -/
def rows (s : List Char) : List Row :=
  ((Text.unifyReturns s).splitOn '\n').filterMap fun line =>
    let content := line.dropWhile (· = ' ')
    if isRemark content || content.head? = some '#' then none
    else some (line.length - content.length, content)

/-- The rows without the mark that opens a document. -/
def skipMark : List Row → List Row
  | (0, ['-', '-', '-']) :: rest => rest
  | (0, '-' :: '-' :: '-' :: ' ' :: remark) :: rest =>
    if isRemark (' ' :: remark) then rest else (0, remark) :: rest
  | rows => rows

/-- A key that is a text. -/
def nameOf? : Value → Option String
  | .text s => some s
  | _ => none

/-- Rows of one depth, each a key and a scalar. Keys that are no texts are passed over. -/
def readFlat (depth : Nat) (fields : Fields) : List Row → Except Flaw Fields
  | [] => .ok fields
  | (d, s) :: rest =>
    match cutKey? s with
    | some (key, value) => do
      if d ≠ depth then throw .grammar
      let v ← readValue value
      readFlat depth (((nameOf? key).map fun name => fields.put name v).getD fields) rest
    | none => .error .grammar

/-- Rows of one depth, each a dash and a scalar. -/
def readList (depth : Nat) : List Row → Except Flaw (List Value)
  | [] => .ok []
  | (d, s) :: rest =>
    match cutDash? s with
    | some item => do
      if d ≠ depth then throw .grammar
      return (← readValue item) :: (← readList depth rest)
    | none => .error .grammar

/-- Entries between braces. Nothing has to stand behind the last comma. -/
def readEntries (fields : Fields) : List (List Char) → Except Flaw Fields
  | [] => .ok fields
  | piece :: rest =>
    if rest.isEmpty && (Text.trim piece).isEmpty then .ok fields
    else
      match cutKey? (Text.trim piece) with
      | some (key, value) => do
        let v ← readValue value
        readEntries (((nameOf? key).map fun name => fields.put name v).getD fields) rest
      | none => .error .grammar

/-- A mapping up to the closing brace that ends its line. No quotes and brackets stand in it. -/
def readBraces (s : List Char) : Except Flaw Value :=
  let body := s.takeWhile (· ≠ '}')
  match s.drop body.length with
  | '}' :: rest =>
    if isRemark rest && body.all fun c => c ∉ ['"', '\'', '[', ']', '{'] then
      (readEntries [] (body.splitOn ',')).map .record
    else .error .grammar
  | _ => .error .grammar

/-- What belongs to a key: the rows below it, or else the value on its line. -/
def readBody (value : List Char) (below : List Row) : Except Flaw Value :=
  match below with
  | [] =>
    match Text.trimStart value with
    | '{' :: inner => readBraces inner
    | _ => readValue value
  | (depth, first) :: _ => do
    unless (← readValue value) matches .null do throw .grammar
    if (cutDash? first).isSome then return .list (← readList depth below)
    else return .record (← readFlat depth [] below)

/-- What the anchors so far are the names of. -/
abbrev Anchors := List (List Char × Node)

/-- A name right behind a mark, and the rest; a blank ends the name. -/
def cutName? (mark : Char) (s : List Char) : Option (List Char × List Char) :=
  match s with
  | [] => none
  | c :: rest =>
    let name := rest.takeWhile fun c => c.isAlphanum || c = '-' || c = '_'
    let rest := rest.drop name.length
    if c = mark && !name.isEmpty && rest.head?.all fun c => c = ' ' || c = '\t' then some (name, rest) else none

/-- What stands under a key: what an anchor is the name of, or what belongs to the key, which may be given an
anchor. A mapping with an anchor can stand in several places. -/
def readNode (d : Document) (anchors : Anchors) (value : List Char) (below : List Row) :
    Except Flaw (Node × Document × Anchors) :=
  match cutName? '*' (Text.trimStart value), cutName? '&' (Text.trimStart value) with
  | some (name, rest), _ =>
    match anchors.lookup name with
    | some node => if below.isEmpty && isRemark rest then .ok (node, d, anchors) else .error .grammar
    | none => .error .grammar
  | none, some (name, rest) => do
    if (anchors.lookup name).isSome then throw .grammar
    match ← readBody rest below with
    | .record fields =>
      let node := Node.shared anchors.length
      let shared := fun i => if i = anchors.length then fields else d.shared i
      return (node, { d with shared }, (name, node) :: anchors)
    | v => return (.own v, d, (name, .own v) :: anchors)
  | none, none => return (.own (← readBody value below), d, anchors)

/-- Gathers the rows deeper than `depth` below the rows at that depth. -/
def gather (depth : Nat) : List Row → List (Row × List Row)
  | [] => []
  | (d, s) :: rest =>
    match gather depth rest with
    | ((d', s'), below) :: groups =>
      if d' > depth then ((d, s), (d', s') :: below) :: groups
      else ((d, s), []) :: ((d', s'), below) :: groups
    | [] => [((d, s), [])]

/-- The sections of a mapping. -/
def readSections (depth : Nat) (d : Document) (anchors : Anchors) :
    List (Row × List Row) → Except Flaw Document
  | [] => .ok d
  | ((n, s), below) :: rest =>
    match cutKey? s with
    | some (key, value) => do
      if n ≠ depth then throw .grammar
      let (node, d, anchors) ← readNode d anchors value below
      match nameOf? key with
      | some name => readSections depth { d with nodes := d.nodes.put name node } anchors rest
      | none => throw .key
    | none => .error .grammar

/-- Reads a document. -/
def read (s : List Char) : Except Flaw Content :=
  match skipMark (rows s) with
  | [] => .ok .nothing
  | rows@((depth, first) :: rest) =>
    if (cutDash? first).isSome then (readList depth rows).map fun _ => .other
    else if (cutKey? first).isSome then (readSections depth {} [] (gather depth rows)).map .mapping
    else if rest.isEmpty then (readBody first []).map .ofValue
    else .error .grammar

end Sdp.Yaml
