/-!
# Paths

A path is a list of names, from the root or from where one stands. What is found at a path is all
that the program knows of a file system.
-/

namespace Sdp

structure Path where
  absolute : Bool
  names : List String
deriving DecidableEq, Repr

namespace Path

/-- The names between slashes; empty names and single dots say nothing. -/
def ofString (s : String) : Path where
  absolute := s.toList.head? = some '/'
  names := ((s.toList.splitOn '/').filter fun n => !n.isEmpty && n != ['.']).map .ofList

/-- The names with slashes between them; a dot for the place where one stands. -/
def text (p : Path) : String :=
  let joined := "/".intercalate p.names
  if p.absolute then "/" ++ joined else if p.names.isEmpty then "." else joined

/-- The directory that holds the path. -/
def parent (p : Path) : Path :=
  { p with names := p.names.dropLast }

/-- The path without two dots behind a name, which lead back to where the name stands. -/
def resolve (p : Path) : Path :=
  let step := fun (names : List String) (name : String) =>
    if name = ".." ∧ names.getLast?.any (· ≠ "..") then names.dropLast else names ++ [name]
  { p with names := p.names.foldl step [] }

/-- The places on the way to a path, and that of the path itself at the end. -/
def stages (p : Path) : List Path :=
  (List.range p.names.length).map fun n => ({ p with names := p.names.take (n + 1) } : Path).resolve

/-- Whether a text ends in a slash, or in a slash and a dot, as only that of a directory may. -/
def endsInSlash (s : String) : Bool :=
  match (s.toList.splitOn '/').reverse with
  | last :: _ :: _ => last.isEmpty || last == ['.']
  | _ => false

end Path

/-- What stands at a path. A path is blocked if one of its directories is a file. -/
inductive Entry where
  | missing
  | blocked
  | directory
  | file (bytes : ByteArray)

namespace Entry

/-- What stands at `here`, if `files` are all the files there are. -/
def at? (files : List (Path × ByteArray)) (here : List String) : Entry :=
  match files.lookup ⟨false, here⟩ with
  | some bytes => .file bytes
  | none => if files.any fun (p, _) => here.isPrefixOf p.names then .directory else .missing

/-- What stands at the end of a way that goes on from the directory `here`. Two dots lead back, but
never out of the directory that holds all files. -/
def along (files : List (Path × ByteArray)) (here : List String) : List String → Entry
  | [] => if here.isEmpty then .directory else at? files here
  | ".." :: rest => if here.isEmpty then .missing else along files here.dropLast rest
  | name :: rest =>
    if rest.isEmpty then at? files (here ++ [name])
    else
      match at? files (here ++ [name]) with
      | .directory => along files (here ++ [name]) rest
      | .file _ => .blocked
      | e => e

/-- What stands at a path, if `files` are all the files there are. -/
def among (files : List (Path × ByteArray)) (p : Path) : Entry :=
  if p.absolute then .missing else along files [] p.names

/-- What stands at a place after a new file has been opened at `p`, and the directories that it needs
have been made. -/
def beside (look : Path → Entry) (p here : Path) : Entry :=
  match look here with
  | .missing =>
    if here = p.resolve then .file .empty else if here ∈ p.parent.stages then .directory else .missing
  | e => e

/-- What stands at the end of a way over some places. -/
def follow (find : Path → Entry) : List Path → Entry
  | [] => .missing
  | [here] => find here
  | here :: rest =>
    match find here with
    | .directory => follow find rest
    | .file _ => .blocked
    | e => e

/-- What stands at a path after a file has been opened for more lines, if one has. -/
def after (look : Path → Entry) (opened : Option Path) (p : Path) : Entry :=
  match opened, look p with
  | some q, .missing => follow (beside look q) p.stages
  | _, e => e

end Entry

end Sdp
