/-!
# Shorthand properties

A shorthand stands for several longhands.  The components of its value are dealt out to them by
position: a box shorthand takes one to four components for its four sides or corners, a pair
shorthand one or two for its start and its end.  A value with any other number of components cannot
be dealt out.

* `Shorthand` - the longhands in component order;
* `shorthand?` - the shorthand of a property;
* `Shorthand.layout?` - which component each longhand takes.
-/

namespace AtomicStyle.Property

/-- How the components of a shorthand are dealt out. -/
inductive ShorthandKind where
  /-- Four sides or corners: top, right, bottom, left. -/
  | box
  /-- Start and end. -/
  | pair
deriving DecidableEq, Repr

/-- A shorthand with the longhands it stands for. -/
structure Shorthand where
  kind : ShorthandKind
  longhands : List String
deriving DecidableEq, Repr

/-- The box shorthand over the four sides. -/
def boxSides (before after : String) : Shorthand where
  kind := .box
  longhands := ["top", "right", "bottom", "left"].map fun side => before ++ side ++ after

/-- The pair shorthand over two longhands. -/
def pairOf (start finish : String) : Shorthand where
  kind := .pair
  longhands := [start, finish]

/-- The shorthand properties. -/
def shorthands : List (String × Shorthand) := [
  ("margin", boxSides "margin-" ""),
  ("padding", boxSides "padding-" ""),
  ("inset", boxSides "" ""),
  ("border-width", boxSides "border-" "-width"),
  ("border-style", boxSides "border-" "-style"),
  ("border-color", boxSides "border-" "-color"),
  ("border-radius",
    { kind := .box
      longhands := ["border-top-left-radius", "border-top-right-radius",
        "border-bottom-right-radius", "border-bottom-left-radius"] }),
  ("margin-inline", pairOf "margin-inline-start" "margin-inline-end"),
  ("margin-block", pairOf "margin-block-start" "margin-block-end"),
  ("margin-horizontal", pairOf "margin-inline-start" "margin-inline-end"),
  ("margin-vertical", pairOf "margin-block-start" "margin-block-end"),
  ("padding-inline", pairOf "padding-inline-start" "padding-inline-end"),
  ("padding-block", pairOf "padding-block-start" "padding-block-end"),
  ("padding-horizontal", pairOf "padding-inline-start" "padding-inline-end"),
  ("padding-vertical", pairOf "padding-block-start" "padding-block-end"),
  ("inset-inline", pairOf "inset-inline-start" "inset-inline-end"),
  ("inset-block", pairOf "inset-block-start" "inset-block-end"),
  ("gap", pairOf "row-gap" "column-gap"),
  ("overflow", pairOf "overflow-x" "overflow-y")]

/-- The shorthand of a property, if it is one. -/
def shorthand? (property : String) : Option Shorthand :=
  shorthands.lookup property

/-- For each longhand, the position of the component it takes when `count` components are given, or
nothing when that many cannot be dealt out. -/
def Shorthand.layout? (s : Shorthand) (count : Nat) : Option (List Nat) :=
  match s.kind, count with
  | .box, 1 => some [0, 0, 0, 0]
  | .box, 2 => some [0, 1, 0, 1]
  | .box, 3 => some [0, 1, 2, 1]
  | .box, 4 => some [0, 1, 2, 3]
  | .pair, 1 => some [0, 0]
  | .pair, 2 => some [0, 1]
  | _, _ => none

/-- A layout refers to the given components only. -/
theorem Shorthand.lt_of_mem_layout? {s : Shorthand} {count : Nat} {layout : List Nat}
    (h : s.layout? count = some layout) : ∀ i ∈ layout, i < count := by
  unfold layout? at h
  split at h <;> simp at h <;> subst h <;> decide

end AtomicStyle.Property
