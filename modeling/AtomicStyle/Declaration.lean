/-!
# Declarations

A declaration is a physical property with its canonical text.  It remembers the longhand it came
from and the text before a direction-relative keyword was mapped, so that it can be resolved again
for the other direction.

A declaration set keeps its declarations in the order in which their properties first came.  A set
that *merges* holds one declaration for each property: a later one takes the place of the earlier
one.  A set that does not merge keeps them all, so that it can be matched entry by entry with the
set it was made from.

* `Declaration`, `Declaration.sourceValue`;
* `DeclarationSet`, `DeclarationSet.add`, `DeclarationSet.extend`;
* `DeclarationSet.items` - the view by property and value, on which sets are compared.
-/

namespace AtomicStyle

/-- A physical property with its canonical text. -/
structure Declaration where
  property : String
  value : String
  /-- The longhand that the declaration was resolved from. -/
  origin : String
  /-- The canonical text before a direction-relative keyword was mapped, when one was. -/
  originValue : Option String := none
deriving DecidableEq, Repr

/-- The canonical text before any keyword was mapped. -/
def Declaration.sourceValue (d : Declaration) : String :=
  d.originValue.getD d.value

/-- Puts a declaration in the place of the one with the same property, or else at the end. -/
def place (d : Declaration) : List Declaration → List Declaration
  | [] => [d]
  | e :: es => if e.property = d.property then d :: es else e :: place d es

/-- An ordered collection of declarations. -/
structure DeclarationSet where
  /-- Whether a later declaration takes the place of an earlier one for the same property. -/
  merging : Bool := true
  declarations : List Declaration := []
deriving DecidableEq, Repr

namespace DeclarationSet

/-- Adds a declaration: in the place of the one with the same property in a merging set, and
otherwise at the end. -/
def add (s : DeclarationSet) (d : Declaration) : DeclarationSet :=
  { s with
    declarations := if s.merging then place d s.declarations else s.declarations ++ [d] }

/-- Adds the declarations of a list in order. -/
def addAll (s : DeclarationSet) (ds : List Declaration) : DeclarationSet :=
  ds.foldl add s

/-- Adds the declarations of another set in order. -/
def extend (s other : DeclarationSet) : DeclarationSet :=
  s.addAll other.declarations

/-- The set of the given declarations. -/
def ofList (ds : List Declaration) (merging : Bool := true) : DeclarationSet :=
  ({ merging := merging } : DeclarationSet).addAll ds

/-- The properties in order. -/
def properties (s : DeclarationSet) : List String :=
  s.declarations.map Declaration.property

/-- The pairs of property and value in order. -/
def items (s : DeclarationSet) : List (String × String) :=
  s.declarations.map fun d => (d.property, d.value)

/-- The number of declarations. -/
def size (s : DeclarationSet) : Nat :=
  s.declarations.length

/-- Whether two sets hold the same properties with the same values in the same order. -/
def sameItems (s t : DeclarationSet) : Bool :=
  s.items == t.items

/-- One line that shows the properties and values of a set. -/
def describe (s : DeclarationSet) : String :=
  let parts := s.items.map fun (property, value) => property ++ ": " ++ value
  "DeclarationSet(" ++ String.intercalate "; " parts ++ ")"

/-! ## First facts -/

/-- Without merging a declaration comes last. -/
theorem declarations_add_of_not_merging {s : DeclarationSet} (h : s.merging = false)
    (d : Declaration) : (s.add d).declarations = s.declarations ++ [d] := by
  simp [add, h]

/-- The placed declaration is held. -/
theorem mem_place (d : Declaration) (ds : List Declaration) : d ∈ place d ds := by
  induction ds with
  | nil => simp [place]
  | cons e es ih =>
    rw [place]
    split
    · exact List.mem_cons_self
    · exact List.mem_cons_of_mem _ ih

end DeclarationSet

end AtomicStyle
