import AtomicStyle.Text.Split

/-!
# Paths

A path is a sequence of steps from the root or from the working directory.  Empty steps and single
dots are dropped when a path is read; a double dot stays, since what it leads to depends on the
directories.

* `Path.ofText`, `Path.text` - reading and writing;
* `Path.join` - a path taken from another one;
* `Path.stem` - the last step without its suffix.
-/

namespace AtomicStyle.Build

/-- A path. -/
structure Path where
  absolute : Bool := false
  steps : List String := []
deriving DecidableEq, Repr

namespace Path

/-- The path that a text denotes. -/
def ofText (s : String) : Path :=
  { absolute := s.toList.head? == some '/'
    steps := ((Text.splitOn '/' s.toList).map String.ofList).filter fun step =>
      step != "" && step != "." }

/-- The text of a path. -/
def text (p : Path) : String :=
  let steps := String.intercalate "/" p.steps
  if p.absolute then "/" ++ steps
  else if p.steps.isEmpty then "."
  else steps

/-- The second path taken from the first; an absolute path stands for itself. -/
def join (p q : Path) : Path :=
  if q.absolute then q else { p with steps := p.steps ++ q.steps }

/-- The path of an entry of a directory. -/
def child (p : Path) (name : String) : Path :=
  { p with steps := p.steps ++ [name] }

/-- The last step. -/
def name (p : Path) : String :=
  p.steps.getLast?.getD ""

/-- The steps with each double dot taken back against the step before it. -/
def walked : List String → List String
  | steps =>
    (steps.foldl (fun back step => if step = ".." then back.drop 1 else step :: back) []).reverse

/-- The steps that lead from a directory down to a path, if the path lies inside. -/
def below? (directory p : Path) : Option (List String) :=
  let base := walked directory.steps
  let steps := walked p.steps
  if directory.absolute == p.absolute && base.isPrefixOf steps then some (steps.drop base.length)
  else none

/-- The part of a name in front of its last dot, unless that dot is the first or the last
character. -/
def stemOf (name : List Char) : List Char :=
  match (Text.splitOn '.' name).reverse with
  | suffix :: front :: rest =>
    let stem := Text.joinWith '.' (front :: rest).reverse
    if suffix = [] || stem = [] then name else stem
  | _ => name

/-- The last step of a path without its suffix. -/
def stem (p : Path) : String :=
  String.ofList (stemOf p.name.toList)

end Path

end AtomicStyle.Build
