/-!
# Sets of code points

A character class of the Unicode standard is a set of code points that falls into long unbroken
runs.  `Runs` lists those runs in ascending order, and `Runs.contains` looks a code point up; every
class table of this library is a value of this type.
-/

namespace AtomicStyle.Text

/-- A set of code points as the first and the last point of each unbroken run, in ascending
order. -/
abbrev Runs := List (Nat × Nat)

/-- Whether a code point lies in one of the runs.  The search stops at the first run that begins
beyond it. -/
def Runs.contains : Runs → Nat → Bool
  | [], _ => false
  | (first, last) :: rest, n =>
    if n < first then false else n ≤ last || Runs.contains rest n

end AtomicStyle.Text
