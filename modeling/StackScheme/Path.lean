/-! Paths, and the places they lead to. Slashes separate the names; several in a row count as one,
and one at the end asks for a folder. -/
namespace StackScheme

/-- A place in the tree of folders: the names from the root down to it, the last one first. -/
abbrev Location := List String

inductive PathStep
  | stay
  | up
  | down (name : String)
deriving DecidableEq

/-- The root is above itself. -/
def PathStep.follow (location : Location) : PathStep → Location
  | .stay => location
  | .up => location.tail
  | .down name => name :: location

/-- A path as a walk, from the root or from the working folder. -/
structure Path where
  fromRoot : Bool
  steps : List PathStep
  endsInSlash : Bool

namespace Path

def stepOfName : String → PathStep
  | "." => .stay
  | ".." => .up
  | name => .down name

def names (text : String) : List String :=
  ((text.toList.splitOn '/').filter (· ≠ [])).map String.ofList

def ofString (text : String) : Path where
  fromRoot := text.toList.head? = some '/'
  steps := (names text).map stepOfName
  endsInSlash := text.toList.getLast? = some '/'

def start (path : Path) (here : Location) : Location :=
  if path.fromRoot then [] else here

/-- Where the walk ends if every folder on the way is there. -/
def location (path : Path) (here : Location) : Location :=
  path.steps.foldl PathStep.follow (path.start here)

end Path
end StackScheme
