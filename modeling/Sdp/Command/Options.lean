import Sdp.Settings.Basic
import Sdp.Text.Digit
import Sdp.Text.Split

/-!
# Command line

    [-h] [-c CONFIG] [--mode MODE] [--log-level LEVEL] [--version] FILE

Options may stand anywhere. A long option may be shortened as long as only one begins that way, and
takes its value behind an equals sign or from the next argument; a short option takes it also from
the rest of its own argument. Behind `--` no argument is an option.
-/

namespace Sdp.Command

open Text (cut)

inductive Switch where
  | help
  | config
  | mode
  | logLevel
  | version
deriving DecidableEq, Repr

namespace Switch

def all : List Switch := [.help, .config, .mode, .logLevel, .version]

def long : Switch → List Char
  | help => "--help".toList
  | config => "--config".toList
  | mode => "--mode".toList
  | logLevel => "--log-level".toList
  | version => "--version".toList

/-- Whether the option stands for a value. -/
def takesValue : Switch → Bool
  | config | mode | logLevel => true
  | help | version => false

/-- The options with a letter of their own. -/
def ofLetter? : Char → Option Switch
  | 'h' => some .help
  | 'c' => some .config
  | _ => none

end Switch

/-- What an argument is, before it is known which values options take from the next argument. -/
inductive Argument where
  /-- An operand, or the value of the option before it. -/
  | operand (text : String)
  /-- The mark behind which no argument is an option. -/
  | separator
  /-- An option, and its value if that is part of the argument. -/
  | option (s : Switch) (value : Option String)
  /-- A cluster of letters that starts with a request for help and ends with `last`. -/
  | cluster (last : Option Switch)
  /-- A request for help with a value that it cannot have. -/
  | badCluster
  /-- Something that looks like an option. -/
  | unknown
deriving DecidableEq, Repr

/-- Why a command line is refused. -/
inductive Misuse where
  | ambiguous
  | missingValue
  | needlessValue
  | badChoice
  | unknown
  | missingFile
deriving DecidableEq, Repr

/-- Whether an argument is a negative number, which is no option. -/
def isNegativeNumber (s : List Char) : Bool :=
  match s with
  | '-' :: rest =>
    let isDigit := fun c => (Text.digitValue? c).isSome
    let rest := if rest.getLast? = some '\n' then rest.dropLast else rest
    match rest.dropWhile isDigit with
    | [] => !rest.isEmpty
    | '.' :: fraction => !fraction.isEmpty && fraction.all isDigit
    | _ => false
  | _ => false

/-- The rest of a cluster of letters behind a request for help. -/
def ofCluster : List Char → Argument
  | [] => .cluster none
  | '-' :: _ => .badCluster
  | c :: rest =>
    match Switch.ofLetter? c with
    | none => .cluster none
    | some s =>
      if s.takesValue then (if rest.isEmpty then .cluster (some s) else .cluster none)
      else if rest.head? = some '=' then .badCluster
      else ofCluster rest

/-- What an argument that is no known option is. -/
def ofStranger (s : List Char) : Argument :=
  if isNegativeNumber s ∨ ' ' ∈ s then .operand (.ofList s) else .unknown

/-- A long option, maybe shortened, and maybe with a value. -/
def ofLong (s : List Char) : Except Misuse Argument :=
  let (name, value) := match cut '=' s with
    | none => (s, none)
    | some (name, value) => (name, some (String.ofList value))
  match Switch.all.find? (·.long = name) with
  | some o => .ok (.option o value)
  | none =>
    match Switch.all.filter fun o => name.isPrefixOf o.long with
    | [] => .ok (ofStranger s)
    | [o] => .ok (.option o value)
    | _ => .error .ambiguous

/-- A short option, and what follows its letter. -/
def ofShort (s : List Char) (letter : Char) (rest : List Char) : Argument :=
  match Switch.ofLetter? letter, rest with
  | none, _ => ofStranger s
  | some o, [] => .option o none
  | some o, '=' :: value =>
    if o.takesValue then .option o (some (.ofList value)) else .badCluster
  | some o, rest => if o.takesValue then .option o (some (.ofList rest)) else ofCluster rest

/-- What an argument is, as long as no separator stands before it. -/
def Argument.of (s : List Char) : Except Misuse Argument :=
  match s with
  | ['-', '-'] => .ok .separator
  | '-' :: '-' :: _ => ofLong s
  | ['-'] => .ok (.operand "-")
  | '-' :: letter :: rest => .ok (ofShort s letter rest)
  | _ => .ok (.operand (.ofList s))

/-- What the arguments are. -/
def classify : List String → Except Misuse (List Argument)
  | [] => .ok []
  | s :: rest => do
    match ← Argument.of s.toList with
    | .separator => return .separator :: rest.map .operand
    | a => return a :: (← classify rest)

/-- What the command line asks for. -/
structure Options where
  file : String
  config : Option String := none
  mode : Option Mode := none
  level : Option Log.Level := none
deriving DecidableEq, Repr

/-- What has been read of a command line so far. -/
structure Draft where
  file : Option String := none
  config : Option String := none
  mode : Option Mode := none
  level : Option Log.Level := none
  strangers : Bool := false

/-- What is done about a command line. -/
inductive Request where
  | help
  | version
  | run (o : Options)
deriving DecidableEq, Repr

/-- Takes the value of an option. -/
def Draft.take (p : Draft) (s : Switch) (value : String) : Except Misuse Draft :=
  match s with
  | .mode =>
    match Mode.all.find? (·.word = value) with
    | some m => .ok { p with mode := some m }
    | none => .error .badChoice
  | .logLevel =>
    match Log.Level.all.find? (·.keyword = value) with
    | some l => .ok { p with level := some l }
    | none => .error .badChoice
  | .config => .ok { p with config := some value }
  | .help | .version => .error .needlessValue

/-- The end of a command line: it has to name one file, and nothing that is not understood. -/
def Draft.finish (p : Draft) : Except Misuse Request :=
  match p.file with
  | none => .error .missingFile
  | some file =>
    if p.strangers then .error .unknown
    else .ok (.run { file, config := p.config, mode := p.mode, level := p.level })

/-- Takes the arguments in order. A request for help or for the version is met at once. -/
def gather (p : Draft) : List Argument → Except Misuse Request
  | [] => p.finish
  | .operand text :: .separator :: rest =>
    if p.file.isNone then gather { p with file := some text } rest
    else gather { p with strangers := true } rest
  | .operand text :: rest =>
    if p.file.isNone then gather { p with file := some text } rest
    else gather { p with strangers := true } rest
  | .separator :: .operand text :: rest =>
    if p.file.isNone then gather { p with file := some text } rest
    else gather { p with strangers := true } rest
  | .separator :: rest => gather { p with strangers := true } rest
  | .option s (some value) :: rest => do gather (← p.take s value) rest
  | .option .help none :: _ => .ok .help
  | .option .version none :: _ => .ok .version
  | .option s none :: .operand value :: rest => do gather (← p.take s value) rest
  | .option _ none :: _ => .error .missingValue
  | .cluster none :: _ => .ok .help
  | .cluster (some _) :: .operand _ :: _ => .ok .help
  | .cluster (some _) :: _ => .error .missingValue
  | .badCluster :: _ => .error .needlessValue
  | .unknown :: rest => gather { p with strangers := true } rest

/-- Reads a command line. -/
def read (arguments : List String) : Except Misuse Request := do
  gather {} (← classify arguments)

end Sdp.Command
