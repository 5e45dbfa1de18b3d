import AtomicStyle.Proofs.Css.Standing

/-!
# What the scan for a terminator reports

The scan reports one position of a text, and for one of two reasons: the character there ends the
declaration, or it opened something that is still open behind the last character.

**Openers.**  The positions that a scan keeps are those of quotes and opening parentheses, and each
step keeps it so (`Scan.PointsInto.step`).  Hence the report on a text that is read to its end is
the position of an opener (`opensAt_of_read`).

**Terminators.**  A terminator is reported exactly where reading fails (`reportsTerminator_iff`).
The text in front of it has then been read without looking at what follows, so neither another
continuation nor a shorter text can show a terminator elsewhere.

**Composition.**  `terminator?_composes` puts both together with the scan behind a settled text: how
the report on a text follows from the reports on its parts.
-/

namespace AtomicStyle.Css

/-! ## Openers -/

/-- Whether the character opens something: a quote or an opening parenthesis. -/
def isOpener (c : Char) : Bool :=
  c == '"' || c == '\'' || c == '('

/-- A quote or an opening parenthesis stands at the position. -/
def OpensAt (text : List Char) (i : Nat) : Prop :=
  ∃ c, text[i]? = some c ∧ isOpener c = true

/-- A semicolon or a brace stands at the position. -/
def TerminatesAt (text : List Char) (i : Nat) : Prop :=
  ∃ c, text[i]? = some c ∧ isTerminator c = true

lemma OpensAt.append {text : List Char} {i : Nat} (h : OpensAt text i) (rest : List Char) :
    OpensAt (text ++ rest) i := by
  obtain ⟨c, hc, hopener⟩ := h
  obtain ⟨hlt, _⟩ := List.getElem?_eq_some_iff.mp hc
  exact ⟨c, by rw [List.getElem?_append_left hlt, hc], hopener⟩

lemma opensAt_concat (text : List Char) {c : Char} (h : isOpener c = true) :
    OpensAt (text ++ [c]) text.length :=
  ⟨c, by simp, h⟩

lemma OpensAt.not_terminatesAt {text : List Char} {i : Nat} (h : OpensAt text i) :
    ¬TerminatesAt text i := by
  rintro ⟨c, hc, hterminator⟩
  obtain ⟨d, hd, hopener⟩ := h
  obtain rfl : c = d := Option.some.inj (hc.symm.trans hd)
  rcases isTerminator_iff.mp hterminator with rfl | rfl | rfl <;> exact absurd hopener (by decide)

namespace Scan

variable {s t : Scan} {front : List Char} {c : Char}

/-- All that a scan holds open was opened in the text that it has passed. -/
structure PointsInto (s : Scan) (front : List Char) : Prop where
  openings : ∀ i ∈ s.openings, OpensAt front i
  quote : ∀ q i, s.quote = some (q, i) → OpensAt front i

lemma pointsInto_start : PointsInto {} [] :=
  ⟨fun _ hi => absurd hi List.not_mem_nil, fun _ _ hq => nomatch hq⟩

lemma PointsInto.append (h : s.PointsInto front) (rest : List Char) :
    s.PointsInto (front ++ rest) :=
  ⟨fun i hi => (h.openings i hi).append rest, fun q i hq => (h.quote q i hq).append rest⟩

/-- **A step opens where it stands**, and what was open before stays where it is. -/
theorem PointsInto.step (h : s.PointsInto front) (ht : s.step front.length c = some t) :
    t.PointsInto (front ++ [c]) := by
  obtain ⟨hopenings, hquote⟩ := h.append [c]
  obtain ⟨openings, quote, escaped⟩ := s
  cases escaped with
  | true =>
      obtain rfl := Option.some.inj ht
      exact ⟨hopenings, hquote⟩
  | false =>
      by_cases hbackslash : c = '\\'
      · subst hbackslash
        obtain rfl := Option.some.inj ht
        exact ⟨hopenings, hquote⟩
      cases quote with
      | some opened =>
          simp only [Scan.step, hbackslash, Bool.false_eq_true, if_false, Option.some.injEq] at ht
          subst ht
          split_ifs
          · refine ⟨hopenings, fun _ _ hnone => ?_⟩
            cases hnone
          · exact ⟨hopenings, hquote⟩
      | none =>
          simp only [Scan.step, hbackslash, Bool.false_eq_true, if_false] at ht
          split_ifs at ht with hmark hopen hclose
          all_goals obtain rfl := Option.some.inj ht
          · refine ⟨hopenings, fun q i hopened => ?_⟩
            obtain ⟨_, rfl⟩ := Prod.mk.inj (Option.some.inj hopened)
            exact opensAt_concat front (by rw [isOpener, Bool.or_eq_true]; exact Or.inl hmark)
          · refine ⟨List.forall_mem_cons.mpr ⟨?_, hopenings⟩, hquote⟩
            exact opensAt_concat front (by rw [hopen]; rfl)
          · exact ⟨fun i hi => hopenings i (List.mem_of_mem_drop hi), hquote⟩
          · exact ⟨hopenings, hquote⟩

/-- What is open at the end is reported where it was opened. -/
lemma PointsInto.opensAt_of_unclosed? (h : s.PointsInto front) {i : Nat}
    (hi : s.unclosed? = some i) : OpensAt front i := by
  unfold unclosed? at hi
  split at hi
  case h_1 q j hq =>
      obtain rfl := Option.some.inj hi
      exact h.quote q j hq
  case h_2 => exact h.openings i (List.mem_of_getLast? hi)

/-- A scan whose text is read to its end reports an opener, if anything. -/
lemma PointsInto.opensAt_of_run {u v : Standing} {rest : List Char} (h : s.PointsInto front)
    (hstands : s.Stands u) (hread : u.read rest = some v) {i : Nat}
    (hi : s.run front.length rest = some i) : OpensAt (front ++ rest) i := by
  induction rest generalizing s u front with
  | nil =>
      rw [List.append_nil]
      exact h.opensAt_of_unclosed? hi
  | cons c cs ih =>
      obtain ⟨w, hw, hread⟩ := Option.bind_eq_some_iff.mp hread
      have hrel := step_stands hstands front.length c
      rw [hw] at hrel
      cases hs : s.step front.length c with
      | none =>
          rw [hs] at hrel
          cases hrel
      | some t =>
          rw [hs] at hrel
          cases hrel with
          | some ht =>
              rw [run, hs] at hi
              have hlength : (front ++ [c]).length = front.length + 1 := List.length_append
              rw [← hlength] at hi
              have hopens := ih (h.step hs) ht hread hi
              rwa [List.append_assoc] at hopens

end Scan

/-- **The report on a text that is read to its end is the position of an opener.** -/
theorem opensAt_of_read {text : List Char} {t : Standing} (h : Standing.read {} text = some t)
    {i : Nat} (hi : terminator? text = some i) : OpensAt text i :=
  Scan.pointsInto_start.opensAt_of_run Scan.stands_start h hi

/-! ## Terminators -/

namespace Standing

/-- Only a terminator cannot be read. -/
lemma isTerminator_of_next? {s : Standing} {c : Char} (h : s.next? c = none) :
    isTerminator c = true := by
  obtain ⟨depth, quote, escaped⟩ := s
  cases escaped with
  | true => cases h
  | false =>
      by_cases hbackslash : c = '\\'
      · subst hbackslash
        cases h
      cases quote with
      | some q => simp [next?, hbackslash] at h
      | none =>
          simp only [next?, hbackslash, Bool.false_eq_true, if_false] at h
          split_ifs at h with _ _ _ _ hterminator
          exact (Bool.and_eq_true_iff.mp hterminator).2

/-- Where reading fails, it fails at a character behind a text that is read. -/
lemma exists_of_read_eq_none {s : Standing} {text : List Char} (h : s.read text = none) :
    ∃ front c back t, text = front ++ c :: back ∧ s.read front = some t ∧ t.next? c = none := by
  induction text generalizing s with
  | nil => cases h
  | cons c cs ih =>
      cases hc : s.next? c with
      | none => exact ⟨[], c, cs, s, rfl, rfl, hc⟩
      | some u =>
          rw [read_cons, hc] at h
          obtain ⟨front, d, back, t, rfl, hfront, hd⟩ := ih h
          refine ⟨c :: front, d, back, t, rfl, ?_, hd⟩
          rw [read_cons, hc]
          exact hfront

end Standing

/-- The character behind a text that is read is reported if it cannot be read itself, whatever
follows. -/
lemma terminator?_of_next? {front : List Char} {t : Standing} {c : Char}
    (hfront : Standing.read {} front = some t) (hc : t.next? c = none) (back : List Char) :
    terminator? (front ++ c :: back) = some front.length := by
  obtain ⟨s, hs, hrun⟩ := Scan.run_append Scan.stands_start 0 hfront
  have hrel := Scan.step_stands hs (0 + front.length) c
  rw [hc] at hrel
  cases hstep : s.step (0 + front.length) c with
  | some s' =>
      rw [hstep] at hrel
      cases hrel
  | none =>
      rw [terminator?, hrun, Scan.run, hstep, Nat.zero_add]

/-- The first terminator of the text is reported: the text in front of it is read, and the
terminator is not. -/
def ReportsTerminator (text : List Char) (i : Nat) : Prop :=
  terminator? text = some i ∧ TerminatesAt text i

/-- **A terminator is reported exactly where reading fails.** -/
theorem reportsTerminator_iff {text : List Char} {i : Nat} :
    ReportsTerminator text i ↔
      ∃ front c back t, text = front ++ c :: back ∧ front.length = i ∧
        Standing.read {} front = some t ∧ t.next? c = none := by
  constructor
  · rintro ⟨hi, hterminates⟩
    cases hread : Standing.read {} text with
    | some t => exact absurd hterminates (opensAt_of_read hread hi).not_terminatesAt
    | none =>
        obtain ⟨front, c, back, t, rfl, hfront, hc⟩ := Standing.exists_of_read_eq_none hread
        rw [terminator?_of_next? hfront hc] at hi
        exact ⟨front, c, back, t, rfl, Option.some.inj hi, hfront, hc⟩
  · rintro ⟨front, c, back, t, rfl, rfl, hfront, hc⟩
    exact ⟨terminator?_of_next? hfront hc back, c, by simp, Standing.isTerminator_of_next? hc⟩

/-- A terminator that is reported stays the report, whatever follows it. -/
lemma ReportsTerminator.continue {text : List Char} {i : Nat} (h : ReportsTerminator text i)
    (behind : List Char) : terminator? (text.take (i + 1) ++ behind) = some i := by
  obtain ⟨front, c, back, t, rfl, rfl, hfront, hc⟩ := reportsTerminator_iff.mp h
  rw [List.take_length_add_append, List.take_succ_cons, List.take_zero, List.append_assoc]
  exact terminator?_of_next? hfront hc behind

/-- In front of a terminator that is reported there is nothing but openers to report. -/
lemma ReportsTerminator.opensAt {text : List Char} {i : Nat} (h : ReportsTerminator text i)
    {j : Nat} (hj : j ≤ i) {k : Nat} (hk : terminator? (text.take j) = some k) :
    OpensAt (text.take j) k := by
  obtain ⟨front, c, back, t, rfl, rfl, hfront, _⟩ := reportsTerminator_iff.mp h
  rw [List.take_append_of_le_length hj] at hk ⊢
  rw [← List.take_append_drop j front, Standing.read_append] at hfront
  obtain ⟨u, hu, _⟩ := Option.bind_eq_some_iff.mp hfront
  exact opensAt_of_read hu hk

/-! ## Composition -/

/-- **The scan composes.**  Behind a safe text that ends in no open escape, the report is the one on
the rest, moved along.  A terminator that is reported in a text is reported whatever follows it, and
up to it the report on a front part is nothing, or the position of an opener. -/
theorem terminator?_composes :
    (∀ a b, terminator? a = none → endsInEscape a = false →
        terminator? (a ++ b) = (terminator? b).map (a.length + ·)) ∧
      ∀ text i, terminator? text = some i → TerminatesAt text i →
        (∀ behind, terminator? (text.take (i + 1) ++ behind) = some i) ∧
          ∀ j ≤ i, ∀ k, terminator? (text.take j) = some k → OpensAt (text.take j) k := by
  refine ⟨fun a b ha hescape => ?_, fun text i hi hterminates => ?_⟩
  · rw [terminator?_append (settled_iff.mpr ⟨ha, hescape⟩)]
    exact congrArg (Option.map · _) (funext fun i => Nat.add_comm i a.length)
  · have hreport : ReportsTerminator text i := ⟨hi, hterminates⟩
    exact ⟨hreport.continue, fun j hj k hk => hreport.opensAt hj hk⟩

/-- A stray closing parenthesis, an escaped quote and a parenthesis inside quotes, nested
parentheses, and an escaped backslash at the end. -/
def busyText : List Char :=
  "a) \"b\\\" (\" ((c)) \\\\".toList

/-- Behind the text the scan goes on as if it began there: past an escaped semicolon, up to the next
one.  Cut inside the quotes, it reports where they begin. -/
theorem terminator?_composes_behind_busyText :
    (terminator? busyText = none ∧ endsInEscape busyText = false ∧
        terminator? (busyText ++ "d\\;(e) f;g".toList) = some 27) ∧
      TerminatesAt (busyText ++ "d\\;(e) f;g".toList) 27 ∧
      (∀ behind, terminator? ((busyText ++ "d\\;(e) f;g".toList).take 28 ++ behind) = some 27) ∧
      terminator? ((busyText ++ "d\\;(e) f;g".toList).take 9) = some 3 ∧
      OpensAt ((busyText ++ "d\\;(e) f;g".toList).take 9) 3 := by
  have hsafe : terminator? busyText = none := by decide +kernel
  have hescape : endsInEscape busyText = false := by decide +kernel
  have hrest : terminator? "d\\;(e) f;g".toList = some 8 := by decide +kernel
  have hreport := terminator?_composes.1 busyText "d\\;(e) f;g".toList hsafe hescape
  rw [hrest] at hreport
  have hterminates : TerminatesAt (busyText ++ "d\\;(e) f;g".toList) 27 :=
    ⟨';', by decide +kernel, by decide⟩
  obtain ⟨hbehind, hfront⟩ := terminator?_composes.2 _ 27 hreport hterminates
  have hcut : terminator? ((busyText ++ "d\\;(e) f;g".toList).take 9) = some 3 := by
    decide +kernel
  exact ⟨⟨hsafe, hescape, hreport⟩, hterminates, hbehind, hcut, hfront 9 (by decide) 3 hcut⟩

end AtomicStyle.Css
