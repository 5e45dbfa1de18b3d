import AtomicStyle.Rule

/-!
# Style sheets

A sheet collects compiled rules.  It holds the first rule that comes under each identifier, and
emits its rules by ascending priority, those of equal priority in the order in which they came.

* `Sheet.add`, `Sheet.addAll` - adding rules;
* `Sheet.insert`, `Sheet.insertAll` - adding rules, with a report of what was new;
* `Sheet.sorted` - the rules in the order of emission;
* `Sheet.ltrText`, `Sheet.rtlText` - the sheet for either direction, one rule a line.
-/

namespace AtomicStyle

/-- The rules collected, each under its identifier, in the order in which they came. -/
structure Sheet where
  entries : List (String × Rule) := []
deriving Repr

namespace Sheet

/-- The identifiers held, in order. -/
def identifiers (s : Sheet) : List String :=
  s.entries.map Prod.fst

/-- Whether a rule is held under the identifier. -/
def holds (s : Sheet) (name : String) : Bool :=
  s.identifiers.contains name

/-- Adds a rule unless one is held under the identifier. -/
def add (s : Sheet) (name : String) (rule : Rule) : Sheet :=
  if s.holds name then s else { entries := s.entries ++ [(name, rule)] }

/-- Adds rules in order. -/
def addAll (s : Sheet) (rules : List (String × Rule)) : Sheet :=
  rules.foldl (fun s entry => s.add entry.1 entry.2) s

/-- Adds a rule unless one is held under the identifier, and tells whether it was added. -/
def insert (s : Sheet) (name : String) (rule : Rule) : Sheet × Bool :=
  if s.holds name then (s, false) else ({ entries := s.entries ++ [(name, rule)] }, true)

/-- Adds rules in order, and counts those that were added. -/
def insertAll (s : Sheet) : List (String × Rule) → Sheet × Nat
  | [] => (s, 0)
  | (name, rule) :: rest =>
    let (s, added) := s.insert name rule
    let (s, count) := s.insertAll rest
    (s, added.toNat + count)

/-- The number of rules held. -/
def size (s : Sheet) : Nat :=
  s.entries.length

/-- The rules by ascending priority; equal priorities keep their order. -/
def sorted (s : Sheet) : List Rule :=
  (s.entries.map Prod.snd).mergeSort fun a b => decide (a.priority ≤ b.priority)

/-- The texts on lines of their own. -/
def lines (texts : List String) : String :=
  String.intercalate "\n" texts

/-- The sheet for left-to-right documents. -/
def ltrText (s : Sheet) : String :=
  lines (s.sorted.map Rule.ltr)

/-- The sheet for right-to-left documents: a rule without a variant of its own is the same. -/
def rtlText (s : Sheet) : String :=
  lines (s.sorted.map Rule.rtlText)

/-! ## First facts -/

/-- Adding under a held identifier changes nothing. -/
theorem add_of_holds {s : Sheet} {name : String} (h : s.holds name = true) (rule : Rule) :
    s.add name rule = s := by
  simp [add, h]

/-- A rule under a new identifier comes last. -/
theorem entries_add_of_not_holds {s : Sheet} {name : String} (h : s.holds name = false)
    (rule : Rule) : (s.add name rule).entries = s.entries ++ [(name, rule)] := by
  simp [add, h]

@[simp] theorem fst_insert (s : Sheet) (name : String) (rule : Rule) :
    (s.insert name rule).1 = s.add name rule := by
  unfold insert add
  split <;> rfl

@[simp] theorem fst_insertAll (s : Sheet) (rules : List (String × Rule)) :
    (s.insertAll rules).1 = s.addAll rules := by
  induction rules generalizing s with
  | nil => rfl
  | cons entry rest ih =>
    rw [insertAll]
    dsimp only
    rw [ih, fst_insert]
    rfl

/-- The rules emitted are the rules held. -/
theorem sorted_perm (s : Sheet) : s.sorted.Perm (s.entries.map Prod.snd) :=
  List.mergeSort_perm _ _

end Sheet

end AtomicStyle
