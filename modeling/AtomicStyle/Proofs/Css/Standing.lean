import AtomicStyle.Css.Terminator
import Mathlib.Data.List.Induction
import Mathlib.Tactic.Lemma
import Mathlib.Tactic.SplitIfs

/-!
# What is open at a point of a text

The scan for a terminator carries positions, so that it can report one.  Whether a text is safe does
not depend on them: it depends on how many parentheses are open, on the quote that is open and on
whether a backslash stands in front.  `Standing` keeps just that, and `read` runs it over a text.

**The two views agree.**  `step_stands` relates one step of the scan to one step of the reading, and
`terminator?_eq_none_iff` a whole scan: a text is safe exactly when reading it comes to an end with
nothing open.

**Inert characters.**  Most characters only use up an escape (`read_inert`).  All rewriting of
values takes place among these.

**Open escapes.**  The scan does not ask what stands behind a final backslash, so a safe text may
end in an open escape (`escaped_read`).  A text that leaves nothing open at all, not even an
escape, is *settled*, and behind it the scan starts afresh (`terminator?_append`).
-/

namespace AtomicStyle.Css

/-! ## Standings -/

/-- Whether the character ends a declaration where nothing is open. -/
def isTerminator (c : Char) : Bool :=
  c == ';' || c == '\x7b' || c == '\x7d'

lemma isTerminator_iff {c : Char} :
    isTerminator c = true ↔ c = ';' ∨ c = '\x7b' ∨ c = '\x7d' := by
  simp [isTerminator, or_assoc]

/-- The two quotation marks. -/
inductive QuoteMark where
  | double
  | single
deriving DecidableEq, Repr

/-- The character of a quotation mark. -/
def QuoteMark.char : QuoteMark → Char
  | .double => '"'
  | .single => '\''

/-- What is open at a point of a text, and whether the next character stands behind a backslash: a
`Scan` without its positions. -/
structure Standing where
  depth : Nat := 0
  quote : Option QuoteMark := none
  escaped : Bool := false
deriving DecidableEq, Repr

namespace Standing

/-- The standing behind one more character, or nothing when it ends the declaration. -/
def next? (s : Standing) (c : Char) : Option Standing :=
  if s.escaped then some { s with escaped := false }
  else if c = '\\' then some { s with escaped := true }
  else
    match s.quote with
    | some q => some (if c = q.char then { s with quote := none } else s)
    | none =>
      if c = '"' then some { s with quote := some .double }
      else if c = '\'' then some { s with quote := some .single }
      else if c = '(' then some { s with depth := s.depth + 1 }
      else if c = ')' then some { s with depth := s.depth - 1 }
      else if s.depth == 0 && isTerminator c then none
      else some s

/-- The standing behind a text, or nothing when a character of it ends the declaration. -/
def read (s : Standing) : List Char → Option Standing
  | [] => some s
  | c :: cs => (s.next? c).bind fun t => t.read cs

@[simp] lemma read_nil (s : Standing) : s.read [] = some s := rfl

lemma read_cons (s : Standing) (c : Char) (cs : List Char) :
    s.read (c :: cs) = (s.next? c).bind fun t => t.read cs := rfl

@[simp] lemma read_singleton (s : Standing) (c : Char) : s.read [c] = s.next? c := by
  simp [read_cons]

/-- Reading may be cut at any point. -/
theorem read_append (s : Standing) (a b : List Char) :
    s.read (a ++ b) = (s.read a).bind fun t => t.read b := by
  induction a generalizing s with
  | nil => rfl
  | cons c cs ih =>
      rw [List.cons_append, read_cons, read_cons, Option.bind_assoc]
      congr 1
      funext t
      exact ih t

/-- Nothing is open, except perhaps an escape. -/
def Closed (s : Standing) : Prop :=
  s.depth = 0 ∧ s.quote = none

end Standing

/-! ## The scan is a reading with positions -/

/-- The scan has the standing `t`. -/
structure Scan.Stands (s : Scan) (t : Standing) : Prop where
  depth : s.openings.length = t.depth
  quote : s.quote.map Prod.fst = t.quote.map QuoteMark.char
  escaped : s.escaped = t.escaped

lemma Scan.stands_start : Scan.Stands {} {} := ⟨rfl, rfl, rfl⟩

/-- **One step of the scan is one step of the reading.**  Either both fail or both go on, to the
same standing. -/
theorem Scan.step_stands {s : Scan} {t : Standing} (h : s.Stands t) (i : Nat) (c : Char) :
    Option.Rel Scan.Stands (s.step i c) (t.next? c) := by
  obtain ⟨openings, quote, escaped⟩ := s
  obtain ⟨depth, mark, _⟩ := t
  obtain ⟨hdepth, hquote, rfl⟩ := h
  simp only at hdepth hquote
  cases escaped with
  | true => exact .some ⟨hdepth, hquote, rfl⟩
  | false =>
      by_cases hb : c = '\\'
      · subst hb
        exact .some ⟨hdepth, hquote, rfl⟩
      cases mark with
      | some m =>
          obtain ⟨⟨_, at_⟩, rfl, rfl⟩ := Option.map_eq_some_iff.mp hquote
          by_cases hm : c = m.char
          · subst hm
            simpa [Scan.step, Standing.next?, hb] using ⟨hdepth, rfl, rfl⟩
          · simpa [Scan.step, Standing.next?, hb, hm] using ⟨hdepth, rfl, rfl⟩
      | none =>
          obtain rfl : quote = none := by simpa using hquote
          subst hdepth
          by_cases hd : c = '"'
          · subst hd; exact .some ⟨rfl, rfl, rfl⟩
          by_cases hs : c = '\''
          · subst hs; exact .some ⟨rfl, rfl, rfl⟩
          by_cases ho : c = '('
          · subst ho; exact .some ⟨rfl, rfl, rfl⟩
          by_cases hc : c = ')'
          · subst hc; exact .some ⟨by simp, rfl, rfl⟩
          cases openings with
          | cons first rest =>
              simpa [Scan.step, Standing.next?, hb, hd, hs, ho, hc] using ⟨rfl, rfl, rfl⟩
          | nil =>
              by_cases ht : isTerminator c = true
              · rcases isTerminator_iff.mp ht with rfl | rfl | rfl <;> exact .none
              · obtain ⟨h₁, h₂, h₃⟩ : c ≠ ';' ∧ c ≠ '\x7b' ∧ c ≠ '\x7d' := by
                  simpa [isTerminator_iff] using ht
                simpa [Scan.step, Standing.next?, hb, hd, hs, ho, hc, ht, h₁, h₂, h₃]
                  using ⟨rfl, rfl, rfl⟩

/-- A scan goes on as long as the reading does, and stands where the reading stands. -/
lemma Scan.run_append {s : Scan} {t u : Standing} {a : List Char} (hst : s.Stands t) (i : Nat)
    (h : t.read a = some u) :
    ∃ s' : Scan, s'.Stands u ∧ ∀ b, s.run i (a ++ b) = s'.run (i + a.length) b := by
  induction a generalizing s t i with
  | nil =>
      obtain rfl : t = u := by simpa using h
      exact ⟨s, hst, fun b => rfl⟩
  | cons c cs ih =>
      rw [Standing.read_cons] at h
      obtain ⟨t₁, ht₁, hread⟩ := Option.bind_eq_some_iff.mp h
      have hrel := Scan.step_stands hst i c
      rw [ht₁] at hrel
      cases hs : s.step i c with
      | none => rw [hs] at hrel; cases hrel
      | some s₁ =>
          rw [hs] at hrel
          cases hrel with
          | some hst₁ =>
              obtain ⟨s', hs', hrun⟩ := ih hst₁ (i + 1) hread
              refine ⟨s', hs', fun b => ?_⟩
              have hstep : s.run i (c :: (cs ++ b)) = s₁.run (i + 1) (cs ++ b) := by
                simp [Scan.run, hs]
              rw [List.cons_append, hstep, hrun b, List.length_cons, Nat.add_assoc, Nat.add_comm 1]

/-- A scan reports a position where the reading fails. -/
lemma Scan.run_isSome_of_read {s : Scan} {t : Standing} {text : List Char} (hst : s.Stands t)
    (i : Nat) (h : t.read text = none) : (s.run i text).isSome = true := by
  induction text generalizing s t i with
  | nil => simp at h
  | cons c cs ih =>
      rw [Standing.read_cons] at h
      have hrel := Scan.step_stands hst i c
      cases hs : s.step i c with
      | none => simp [Scan.run, hs]
      | some s₁ =>
          rw [hs] at hrel
          cases ht : t.next? c with
          | none => rw [ht] at hrel; cases hrel
          | some t₁ =>
              rw [ht] at hrel h
              cases hrel with
              | some hst₁ => simpa [Scan.run, hs] using ih hst₁ (i + 1) h

/-- Nothing is reported at the end exactly when nothing is open. -/
lemma Scan.unclosed?_eq_none_iff {s : Scan} {t : Standing} (hst : s.Stands t) :
    s.unclosed? = none ↔ t.Closed := by
  obtain ⟨openings, quote, escaped⟩ := s
  obtain ⟨depth, mark, _⟩ := t
  obtain ⟨rfl, hquote, rfl⟩ := hst
  cases quote <;> cases mark <;> simp_all [Scan.unclosed?, Standing.Closed]

/-- **A text is safe exactly when reading it leaves nothing open.**  An open escape is not asked
about. -/
theorem terminator?_eq_none_iff {text : List Char} :
    terminator? text = none ↔ ∃ t, Standing.read {} text = some t ∧ t.Closed := by
  cases hr : Standing.read {} text with
  | none =>
      have hsome : (terminator? text).isSome = true :=
        Scan.run_isSome_of_read Scan.stands_start 0 hr
      simp only [reduceCtorEq, false_and, exists_false, iff_false]
      intro hnone
      simp [hnone] at hsome
  | some t =>
      obtain ⟨s, hst, hrun⟩ := Scan.run_append Scan.stands_start 0 hr
      have hend : terminator? text = s.unclosed? := by
        simpa [Scan.run, terminator?] using hrun []
      rw [hend, Scan.unclosed?_eq_none_iff hst]
      simp

/-! ## Inert characters -/

/-- Whether the scan gives the character no meaning of its own. -/
def isInert (c : Char) : Bool :=
  !(c == '\\' || c == '"' || c == '\'' || c == '(' || c == ')' || isTerminator c)

/-- The characters that the scan gives a meaning to. -/
def markers : List Char :=
  ['\\', '"', '\'', '(', ')', ';', '\x7b', '\x7d']

/-- What holds of no marker holds of inert characters only. -/
lemma isInert_of_any_markers {p : Char → Bool} (hp : markers.any p = false) {c : Char}
    (h : p c = true) : isInert c = true := by
  by_contra hc
  have hmarker : c ∈ markers := by
    simp only [isInert, isTerminator, Bool.not_eq_true', Bool.not_eq_false, Bool.or_eq_true,
      beq_iff_eq] at hc
    simpa [markers, or_assoc] using hc
  exact List.any_eq_false.mp hp c hmarker h

/-- A text of inert characters. -/
def Inert (text : List Char) : Prop :=
  ∀ c ∈ text, isInert c = true

instance (text : List Char) : Decidable (Inert text) :=
  List.decidableBAll _ text

@[simp] lemma inert_nil : Inert [] := by simp [Inert]

@[simp] lemma inert_cons {c : Char} {text : List Char} :
    Inert (c :: text) ↔ isInert c = true ∧ Inert text := by simp [Inert]

@[simp] lemma inert_append {a b : List Char} : Inert (a ++ b) ↔ Inert a ∧ Inert b := by
  simp [Inert, or_imp, forall_and]

namespace Standing

/-- An inert character uses up an escape and does nothing else. -/
lemma next?_inert {c : Char} (h : isInert c = true) (s : Standing) :
    s.next? c = some { s with escaped := false } := by
  obtain ⟨depth, quote, escaped⟩ := s
  simp only [isInert, Bool.not_eq_true', Bool.or_eq_false_iff, beq_eq_false_iff_ne] at h
  obtain ⟨⟨⟨⟨⟨hb, hd⟩, hs⟩, ho⟩, hc⟩, ht⟩ := h
  cases escaped with
  | true => rfl
  | false =>
      cases quote with
      | none => simp [next?, hb, hd, hs, ho, hc, ht]
      | some q => cases q <;> simp [next?, QuoteMark.char, hb, hd, hs]

lemma next?_inert_of_not_escaped {c : Char} (h : isInert c = true) {s : Standing}
    (hs : s.escaped = false) : s.next? c = some s := by
  obtain ⟨depth, quote, escaped⟩ := s
  obtain rfl : escaped = false := hs
  exact next?_inert h _

/-- Behind an inert text that is not empty no escape is open, and all else is as before. -/
theorem read_inert {text : List Char} (h : Inert text) (hne : text ≠ []) (s : Standing) :
    s.read text = some { s with escaped := false } := by
  induction text generalizing s with
  | nil => exact absurd rfl hne
  | cons c cs ih =>
      obtain ⟨hc, hcs⟩ := inert_cons.mp h
      rw [read_cons, next?_inert hc, Option.bind_some]
      cases cs with
      | nil => rfl
      | cons d ds => exact ih hcs (by simp) _

/-- Where no escape is open an inert text changes nothing. -/
theorem read_inert_of_not_escaped {text : List Char} (h : Inert text) {s : Standing}
    (hs : s.escaped = false) : s.read text = some s := by
  induction text with
  | nil => rfl
  | cons c cs ih =>
      obtain ⟨hc, hcs⟩ := inert_cons.mp h
      rw [read_cons, next?_inert_of_not_escaped hc hs, Option.bind_some]
      exact ih hcs

end Standing

/-! ## Open escapes -/

/-- The number of backslashes at the end of a text. -/
def trailingBackslashes (text : List Char) : Nat :=
  (text.reverse.takeWhile (· == '\\')).length

/-- Whether a text ends in an open escape.  Two backslashes are an escaped backslash, so an odd
number of them at the end leaves one that escapes what follows. -/
def endsInEscape (text : List Char) : Bool :=
  trailingBackslashes text % 2 == 1

lemma endsInEscape_append_backslash (text : List Char) :
    endsInEscape (text ++ ['\\']) = !endsInEscape text := by
  simp only [endsInEscape, trailingBackslashes, List.reverse_append, List.reverse_singleton,
    List.singleton_append, List.takeWhile_cons, beq_self_eq_true, if_true, List.length_cons]
  rcases Nat.mod_two_eq_zero_or_one (text.reverse.takeWhile (· == '\\')).length with h | h <;>
    simp [Nat.add_mod, h]

lemma endsInEscape_append_of_ne (text : List Char) {c : Char} (h : c ≠ '\\') :
    endsInEscape (text ++ [c]) = false := by
  simp [endsInEscape, trailingBackslashes, h]

/-- What stands in front of a character that is no backslash has no part in it. -/
lemma endsInEscape_append_cons_of_ne {c : Char} (h : c ≠ '\\') (a b : List Char) :
    endsInEscape (a ++ c :: b) = endsInEscape b := by
  induction b using List.reverseRecOn with
  | nil => exact endsInEscape_append_of_ne a h
  | append_singleton b d ih =>
      rw [← List.cons_append, ← List.append_assoc]
      by_cases hd : d = '\\'
      · subst hd
        rw [endsInEscape_append_backslash, endsInEscape_append_backslash, ih]
      · rw [endsInEscape_append_of_ne _ hd, endsInEscape_append_of_ne _ hd]

namespace Standing

lemma escaped_next? {s t : Standing} {c : Char} (h : s.next? c = some t) :
    t.escaped = (!s.escaped && c == '\\') := by
  obtain ⟨depth, quote, escaped⟩ := s
  cases escaped with
  | true =>
      obtain rfl : _ = t := by simpa [next?] using h
      rfl
  | false =>
      by_cases hb : c = '\\'
      · obtain rfl : _ = t := by simpa [next?, hb] using h
        simp [hb]
      · have hkeep : t.escaped = false := by
          cases quote with
          | some q =>
              simp only [next?, hb, Bool.false_eq_true, if_false, Option.some.injEq] at h
              split_ifs at h <;> subst h <;> rfl
          | none =>
              simp only [next?, hb, Bool.false_eq_true, if_false] at h
              split_ifs at h <;> obtain rfl := Option.some.inj h <;> rfl
        simp [hkeep, hb]

/-- **The escape of a reading is that of the text.**  Read from where no escape is open, a text
leaves one open exactly when it ends in an odd number of backslashes. -/
theorem escaped_read {s t : Standing} {text : List Char} (hs : s.escaped = false)
    (h : s.read text = some t) : t.escaped = endsInEscape text := by
  -- from the right: the last character decides, and the number of backslashes in front of it
  induction text using List.reverseRecOn generalizing t with
  | nil =>
      obtain rfl : s = t := by simpa using h
      exact hs
  | append_singleton text c ih =>
      rw [read_append] at h
      obtain ⟨u, hu, ht⟩ := Option.bind_eq_some_iff.mp h
      rw [read_singleton] at ht
      rw [escaped_next? ht, ih hu]
      by_cases hc : c = '\\'
      · subst hc
        rw [endsInEscape_append_backslash]
        simp
      · rw [endsInEscape_append_of_ne text hc]
        simp [hc]

end Standing

/-! ## Settled texts -/

/-- The text leaves nothing open, not even an escape. -/
def Settled (text : List Char) : Prop :=
  Standing.read {} text = some {}

instance (text : List Char) : Decidable (Settled text) :=
  inferInstanceAs (Decidable (Standing.read {} text = some {}))

lemma Inert.settled {text : List Char} (h : Inert text) : Settled text :=
  Standing.read_inert_of_not_escaped h rfl

/-- **A text is settled exactly when it is safe and ends in no open escape.** -/
theorem settled_iff {text : List Char} :
    Settled text ↔ terminator? text = none ∧ endsInEscape text = false := by
  rw [terminator?_eq_none_iff]
  constructor
  · intro h
    exact ⟨⟨{}, h, rfl, rfl⟩, (Standing.escaped_read rfl h).symm⟩
  · rintro ⟨⟨⟨depth, quote, escaped⟩, hread, hdepth, hquote⟩, hend⟩
    obtain rfl : depth = 0 := hdepth
    obtain rfl : quote = none := hquote
    obtain rfl : escaped = false := (Standing.escaped_read rfl hread).trans hend
    exact hread

lemma Inert.terminator?_eq_none {text : List Char} (h : Inert text) : terminator? text = none :=
  (settled_iff.mp h.settled).1

/-! ## Moving a scan along -/

/-- A scan whose positions all lie `k` further on. -/
def Scan.shift (k : Nat) (s : Scan) : Scan where
  openings := s.openings.map (· + k)
  quote := s.quote.map fun (q, i) => (q, i + k)
  escaped := s.escaped

lemma Scan.step_shift (k i : Nat) (s : Scan) (c : Char) :
    (s.shift k).step (i + k) c = (s.step i c).map (Scan.shift k) := by
  obtain ⟨openings, quote, escaped⟩ := s
  cases escaped with
  | true => rfl
  | false =>
      by_cases hb : c = '\\'
      · simp [Scan.step, Scan.shift, hb]
      cases quote with
      | some opened =>
          obtain ⟨q, at_⟩ := opened
          by_cases hq : c = q
          · subst hq; simp [Scan.step, Scan.shift, hb]
          · simp [Scan.step, Scan.shift, hb, hq]
      | none =>
          simp only [Scan.step, Scan.shift, hb, Option.map_none, List.isEmpty_map]
          split_ifs <;> simp [Scan.shift]

/-- The scan of a text further on reports its positions further on. -/
lemma Scan.run_shift (k i : Nat) (s : Scan) (text : List Char) :
    (s.shift k).run (i + k) text = (s.run i text).map (· + k) := by
  induction text generalizing s i with
  | nil =>
      obtain ⟨openings, quote, escaped⟩ := s
      cases quote <;> simp [Scan.run, Scan.unclosed?, Scan.shift, List.getLast?_map]
  | cons c cs ih =>
      simp only [Scan.run, Scan.step_shift]
      cases s.step i c with
      | none => rfl
      | some s₁ =>
          have h := ih (i + 1) s₁
          rw [Nat.add_right_comm] at h
          exact h

/-- **The scan composes.**  Behind a settled text the report is the one on the rest, moved along
by the length of the text. -/
theorem terminator?_append {a : List Char} (h : Settled a) (b : List Char) :
    terminator? (a ++ b) = (terminator? b).map (· + a.length) := by
  obtain ⟨s', hs', hrun⟩ := Scan.run_append Scan.stands_start 0 h
  have hbare : s' = {} := by
    obtain ⟨openings, quote, escaped⟩ := s'
    obtain ⟨hdepth, hquote, hescaped⟩ := hs'
    simp_all
  calc terminator? (a ++ b) = Scan.run {} (0 + a.length) b := by
        rw [← hbare]; exact hrun b
    _ = (terminator? b).map (· + a.length) := Scan.run_shift a.length 0 {} b

/-- A semicolon behind a settled text is reported where it stands. -/
theorem terminator?_append_semicolon {a : List Char} (h : Settled a) (b : List Char) :
    terminator? (a ++ ';' :: b) = some a.length := by
  have hfirst : terminator? (';' :: b) = some 0 := by simp [terminator?, Scan.run, Scan.step]
  rw [terminator?_append h, hfirst]
  simp

end AtomicStyle.Css
