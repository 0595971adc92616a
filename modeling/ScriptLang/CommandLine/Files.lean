import ScriptLang.Bindings

/-!
# Files

The files that a command line can reach, by their paths from the working directory, and the paths
that name them. A path is read step by step: empty steps and single dots stay where they are, and
two dots go up from a directory that exists.
-/

namespace ScriptLang.CommandLine

/-- What a path names. -/
inductive Entry where
  | file (text : String)
  | directory
  deriving DecidableEq, Repr

/-- The files below the working directory, by their paths. -/
abbrev Files := Bindings String

/-- The parts of a path between its slashes. -/
def pathParts (path : List Char) : List (List Char) :=
  path.foldr (fun c parts =>
    if c = '/' then [] :: parts
    else match parts with
      | [] => [[c]]
      | part :: rest => (c :: part) :: rest) [[]]

/-- A path from its parts. -/
def joinPath (parts : List (List Char)) : List Char := ['/'].intercalate parts

/-- Whether a part of a path stays where it is. -/
def isStay (part : List Char) : Bool := part.isEmpty || part == ['.']

/-- Whether a part of a path goes up. -/
def isUp (part : List Char) : Bool := part == ['.', '.']

/-- Whether a part of a path leads from the root, or from a directory above the working directory,
to such a directory again. -/
def staysOutside (part : List Char) : Bool := isStay part || isUp part

/-- The parts of a path that say something. -/
def plainParts (path : List Char) : List (List Char) := (pathParts path).filter (!isStay ·)

namespace Files

/-- What a plain path names: a file, or a directory above one. -/
def named? (files : Files) (path : List (List Char)) : Option Entry :=
  match files.get? (String.ofList (joinPath path)) with
  | some text => some (.file text)
  | none =>
    if path.isEmpty || files.names.any fun name => path.isPrefixOf (pathParts name.toList) then
      some .directory
    else none

/-- What is reached from a place by the parts of a path. The place is named by its own parts, the
last first. Of what lies outside the working directory only the directories above it are known. -/
def walk? (files : Files) (place : List (List Char)) : List (List Char) → Option Entry
  | [] => files.named? place.reverse
  | part :: rest =>
    if files.named? place.reverse ≠ some .directory then none
    else if isStay part then walk? files place rest
    else if isUp part then
      match place with
      | [] => if rest.all staysOutside then some .directory else none
      | _ :: above => walk? files above rest
    else walk? files (part :: place) rest

/-- What a path names: the file that has just this path, or what its parts lead to. Of the paths
from the root only those that stay there lead anywhere. -/
def entry? (files : Files) (path : String) : Option Entry :=
  match files.get? path with
  | some text => some (.file text)
  | none =>
    match path.toList with
    | [] => none
    | '/' :: rest => if (pathParts rest).all staysOutside then some .directory else none
    | cs => files.walk? [] (pathParts cs)

/-- The text of the file that a path names. -/
def read? (files : Files) (path : String) : Option String :=
  match files.entry? path with
  | some (.file text) => some text
  | _ => none

end Files

/-- A path without the parts that say nothing. The empty path is a dot. -/
def normalPath (path : String) : String :=
  let parts := plainParts path.toList
  match path.toList with
  | '/' :: '/' :: '/' :: _ => String.ofList ('/' :: joinPath parts)
  | '/' :: '/' :: _ => String.ofList ('/' :: '/' :: joinPath parts)
  | '/' :: _ => String.ofList ('/' :: joinPath parts)
  | _ => if parts.isEmpty then "." else String.ofList (joinPath parts)

/-- The ending of the last part of a path, from its last dot on. A dot at either end of the part
starts no ending. -/
def suffix (path : String) : String :=
  let name := (plainParts path.toList).getLast?.getD []
  let ending := name.reverse.takeWhile (· ≠ '.')
  let rest := name.reverse.drop ending.length
  match ending, rest with
  | _ :: _, '.' :: _ :: _ => String.ofList ('.' :: ending.reverse)
  | _, _ => ""

end ScriptLang.CommandLine
