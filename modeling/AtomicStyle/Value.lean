import AtomicStyle.Number.Binary64

/-!
# Style values

A style document is a tree of scalars, lists and mappings.  Mappings keep the order in which their
entries were written, because that order decides which declaration comes first and which one
wins.  A key is nearly always a text; a document format that allows numbers as keys may deliver
one, and then the key is rejected where a text is needed.

* `Key`, `Value` - the tree;
* `Value.kind` - the shape of a value, by which messages refer to it;
* `Value.tree_induction` - what holds of leaves and passes on to mappings holds of all values;
* `Value.isEmptyLike` - the values that stand for "nothing given".
-/

namespace AtomicStyle

/-- The key of a mapping entry. -/
inductive Key where
  | text (s : String)
  | number (n : Int)
deriving DecidableEq, Repr

/-- A value of a style document. -/
inductive Value where
  | null
  | bool (b : Bool)
  | int (n : Int)
  | float (x : Binary64)
  | text (s : String)
  | list (items : List Value)
  | map (entries : List (Key × Value))
deriving Repr

/-- The shapes of values. -/
inductive ValueKind where
  | null
  | bool
  | int
  | float
  | text
  | list
  | map
deriving DecidableEq, Repr

namespace Value

/-- The shape of a value. -/
def kind : Value → ValueKind
  | null => .null
  | bool _ => .bool
  | int _ => .int
  | float _ => .float
  | text _ => .text
  | list _ => .list
  | map _ => .map

mutual

/-- A value is a leaf, or a mapping of values. -/
theorem tree_induction {motive : Value → Prop}
    (leaf : ∀ value : Value, value.kind ≠ .map → motive value)
    (map : ∀ entries : List (Key × Value), (∀ e ∈ entries, motive e.2) → motive (.map entries)) :
    ∀ value, motive value
  | .map entries => map entries (entries_induction leaf map entries)
  | .null => leaf .null (by simp [kind])
  | .bool b => leaf (.bool b) (by simp [kind])
  | .int n => leaf (.int n) (by simp [kind])
  | .float x => leaf (.float x) (by simp [kind])
  | .text s => leaf (.text s) (by simp [kind])
  | .list items => leaf (.list items) (by simp [kind])

theorem entries_induction {motive : Value → Prop}
    (leaf : ∀ value : Value, value.kind ≠ .map → motive value)
    (map : ∀ entries : List (Key × Value), (∀ e ∈ entries, motive e.2) → motive (.map entries)) :
    ∀ entries : List (Key × Value), ∀ e ∈ entries, motive e.2
  | [] => fun _ he => absurd he List.not_mem_nil
  | (_, value) :: rest => List.forall_mem_cons.mpr
      ⟨tree_induction leaf map value, entries_induction leaf map rest⟩

end

/-- Whether a value counts as absent where an optional section or argument is expected: nothing,
false, zero, and the empty text, list and mapping. -/
def isEmptyLike : Value → Bool
  | null => true
  | bool b => !b
  | int n => n == 0
  | float x => x.isZero
  | text s => s.isEmpty
  | list items => items.isEmpty
  | map entries => entries.isEmpty

end Value

end AtomicStyle
