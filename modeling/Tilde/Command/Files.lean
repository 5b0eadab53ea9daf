import Tilde.Command.Path
import Tilde.Command.Trouble

/-!
What stands at the end of a way through directories, and a tree of files held in
memory in which ways can be followed. Every file and directory of the tree stands in
a directory, that is, the steps of its name but the last lead to directories.
Outside the tree nothing is known to exist but directories above it.
-/

namespace Tilde.Command

/-- What a name leads to. -/
inductive Found where
  | nothing
  | directory
  | file (bytes : List UInt8)
  | unreadable (error : SystemError)
  deriving DecidableEq, Repr

/-- A tree of files by the names under which they stand in its root. -/
structure Files where
  files : List (String × List UInt8)
  directories : List String
  deriving Repr

namespace Files

inductive Position where
  /-- Out of the tree to a directory above its root. -/
  | above
  /-- To a place in the tree, by the steps from the root. -/
  | inside (place : List String)
  | nowhere
  deriving DecidableEq, Repr

/-- Every place of the tree with something in or under it. -/
def places (tree : Files) : List (List String) :=
  (tree.files.map fun file => Path.way file.1) ++ tree.directories.map Path.way

def fileAt? (tree : Files) (spot : List String) : Option (List UInt8) :=
  (tree.files.find? fun file => Path.way file.1 == spot).map (·.2)

/-- Whether a place is a directory: the root, one of the directories, or a place
that has something under it. -/
def isDirectory (tree : Files) (spot : List String) : Bool :=
  (tree.fileAt? spot).isNone && (spot.isEmpty || tree.places.any fun p => spot.isPrefixOf p)

/-- One step of a way. Only a directory can be left, or stayed in. -/
def follow (tree : Files) (position : Position) (step : String) : Position :=
  match position with
  | .nowhere => .nowhere
  | .above => if !Path.leads step || step = ".." then .above else .nowhere
  | .inside here =>
      if !tree.isDirectory here then .nowhere
      else if !Path.leads step then .inside here
      else if step = ".." then if here.isEmpty then .above else .inside here.dropLast
      else
        let next := here ++ [step]
        if tree.isDirectory next || (tree.fileAt? next).isSome then .inside next else .nowhere

def look (tree : Files) (name : String) : Found :=
  if name.isEmpty then .nothing
  else
    let start := if (Path.root name).isEmpty then .inside [] else .above
    match (Path.steps name).foldl tree.follow start with
    | .nowhere => .nothing
    | .above => .directory
    | .inside here =>
        match tree.fileAt? here with
        | some bytes => .file bytes
        | none => .directory

end Files

end Tilde.Command
