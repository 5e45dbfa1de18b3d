import AtomicStyle.Proofs.Css.Joining
import AtomicStyle.Proofs.Rule.Importance
import AtomicStyle.Proofs.Rule.Parts

/-!
# The rank of a selector

A selector may be given in several ways: `:hover::before` is one condition or two.  The identifier of
a rule and its texts show the selector only.  The rank is taken from the conditions one by one.

**Levels.**  Besides its pseudo selectors a rule has features that outrank all of them, or none at
all (`priority_of_no_pseudos`).  So two cuts of one selector give one rank if there is such a feature,
or if both have a condition that is found to name an element (`priority_eq_iff`).

**Cuts.**  A pseudo element is found at the front of a condition only, so a condition that holds a
pseudo class and a pseudo element hides the element.  A condition that is a single pseudo selector
hides nothing, and there is only one way to cut a selector into such conditions
(`eq_of_join_eq_of_single`).
-/

namespace AtomicStyle

open Css

/-! ## Levels -/

/-- The pseudo selectors of a rule and its other features. -/
lemma priority_pseudos (context : Context) (ds : List Declaration) :
    priority .block context ds =
      max (pseudoLevel context.pseudos) (priority .block { context with pseudos := [] } ds) := by
  have hnone : pseudoLevel [] = 0 := rfl
  simp only [priority, hnone, Nat.zero_max, Nat.max_assoc]

lemma pseudoLevel_lt (pseudos : List String) : pseudoLevel pseudos < Rank.atRule.level := by
  unfold pseudoLevel
  split_ifs <;> decide

/-- **Without pseudo selectors a rule is plain or outranks all pseudo selectors.** -/
theorem priority_of_no_pseudos (atRules : List String) (ds : List Declaration) :
    priority .block { atRules := atRules } ds = Rank.plain.level ∨
      Rank.atRule.level ≤ priority .block { atRules := atRules } ds := by
  refine or_iff_not_imp_right.mpr fun hlow => Nat.le_zero.mp ?_
  have hle : priority .block { atRules := atRules } ds ≤ Rank.pseudoElement.level :=
    Nat.le_of_lt_succ (Nat.lt_of_not_le hlow)
  obtain ⟨_, hrules, hdeclarations⟩ := priority_le_iff.mp hle
  refine priority_le_iff.mpr ⟨Nat.le_refl _, ?_, fun d hd => ?_⟩
  · unfold atRuleLevel at hrules ⊢
    split_ifs at hrules ⊢ with hempty
    · exact Nat.le_refl _
    · exact absurd hrules (by decide)
  · have hd := hdeclarations d hd
    unfold declarationLevel at hd ⊢
    split_ifs at hd ⊢
    · exact absurd hd (by decide)
    · exact absurd hd (by decide)
    · exact Nat.le_refl _

lemma pseudoLevel_eq_iff {as bs : List String} (h : as = [] ↔ bs = []) :
    pseudoLevel as = pseudoLevel bs ↔ as.any isPseudoElement = bs.any isPseudoElement := by
  by_cases ha : as = []
  · rw [ha, h.mp ha]
    exact iff_of_true rfl rfl
  · have hb : bs ≠ [] := mt h.mpr ha
    simp only [pseudoLevel, List.isEmpty_iff, ha, hb, if_false]
    cases as.any isPseudoElement <;> cases bs.any isPseudoElement <;> decide

/-- **When two lists of pseudo selectors give one rank.**  Either something outranks them, or both
hold an element or neither does. -/
theorem priority_eq_iff {as bs : List String} (h : as = [] ↔ bs = []) (atRules : List String)
    (ds : List Declaration) :
    priority .block ⟨bs, atRules⟩ ds = priority .block ⟨as, atRules⟩ ds ↔
      Rank.atRule.level ≤ priority .block ⟨as, atRules⟩ ds ∨
        as.any isPseudoElement = bs.any isPseudoElement := by
  rw [priority_pseudos ⟨as, atRules⟩, priority_pseudos ⟨bs, atRules⟩, eq_comm (a := max _ _),
    ← pseudoLevel_eq_iff h]
  dsimp only
  have ha := pseudoLevel_lt as
  have hb := pseudoLevel_lt bs
  rcases priority_of_no_pseudos atRules ds with hplain | hhigh
  · rw [hplain]
    simp only [Rank.level, Nat.max_zero] at ha ⊢
    omega
  · rw [Nat.max_eq_right (ha.le.trans hhigh), Nat.max_eq_right (hb.le.trans hhigh)]
    exact iff_of_true rfl (.inl hhigh)

/-! ## Cuts -/

/-- Cut at its colons, the text is one name behind one colon or two; colons inside parentheses and
quotes belong to the name. -/
structure IsSinglePseudo (pseudo : String) : Prop where
  balanced : Balanced pseudo.toList
  cut : ∃ name, name ≠ [] ∧
    (pieces [':'] {} pseudo.toList = [[], name] ∨ pieces [':'] {} pseudo.toList = [[], [], name])

/-- No single pseudo selector goes on with a colon behind another one. -/
lemma IsSinglePseudo.ne_append {p q : String} (hp : IsSinglePseudo p) (hq : IsSinglePseudo q)
    (rest : List Char) : q.toList ≠ p.toList ++ ':' :: rest := by
  intro h
  obtain ⟨name, hname, hcut⟩ := hp.cut
  obtain ⟨_, _, hcut'⟩ := hq.cut
  have hcolon : Nesting.separates {} [':'] ':' = true := by decide
  have hpieces : pieces [':'] {} q.toList = pieces [':'] {} p.toList ++ pieces [':'] {} rest := by
    rw [h, pieces_append_cons (by rwa [hp.balanced])]
  obtain ⟨w, ws, hrest⟩ := List.exists_cons_of_ne_nil (pieces_ne_nil [':'] {} rest)
  rw [hrest] at hpieces
  -- the name of the one would stand between two colons of the other
  rcases hcut with hcut | hcut <;> rcases hcut' with hcut' | hcut' <;>
    rw [hcut, hcut'] at hpieces <;> simp at hpieces
  exact hname hpieces.1

/-- What is joined from texts that begin with a mark is empty or begins with it. -/
lemma head?_join {mark : Char} {texts : List String}
    (h : ∀ t ∈ texts, t.toList.head? = some mark) :
    texts = [] ∧ (String.join texts).toList = [] ∨
      texts ≠ [] ∧ ∃ rest, (String.join texts).toList = mark :: rest := by
  cases texts with
  | nil => exact .inl ⟨rfl, rfl⟩
  | cons t texts =>
      obtain ⟨cs, hcs⟩ := List.head?_eq_some_iff.mp (h t List.mem_cons_self)
      refine .inr ⟨List.cons_ne_nil _ _, cs ++ (String.join texts).toList, ?_⟩
      rw [String.toList_join, List.flatMap_cons, hcs, List.cons_append, String.toList_join]

/-- What a text is longer by than another one begins with a mark if the text behind it does. -/
lemma eq_or_append_mark {mark : Char} {a b x y z : List Char} (hb : b = a ++ z) (hx : x = z ++ y)
    (h : x = [] ∨ ∃ rest, x = mark :: rest) : a = b ∨ ∃ rest, b = a ++ mark :: rest := by
  cases z with
  | nil => exact .inl (hb.trans (List.append_nil a)).symm
  | cons c cs =>
      rw [hx] at h
      rcases h with h | ⟨rest, h⟩
      · cases h
      · obtain rfl : c = mark := (List.cons.inj h).1
        exact .inr ⟨cs, hb⟩

/-- A selector has conditions or none, however it is cut. -/
lemma eq_nil_iff_of_join_eq {as bs : List String} (ha : ∀ a ∈ as, a.toList.head? = some ':')
    (hb : ∀ b ∈ bs, b.toList.head? = some ':') (h : String.join as = String.join bs) :
    as = [] ↔ bs = [] := by
  rcases head?_join ha with ⟨has, ha⟩ | ⟨has, _, ha⟩ <;>
    rcases head?_join hb with ⟨hbs, hb⟩ | ⟨hbs, _, hb⟩ <;> simp only [has, hbs]
  · rw [h, hb] at ha
    cases ha
  · rw [h, hb] at ha
    cases ha

/-- **There is one way to cut a selector into single pseudo selectors.** -/
theorem eq_of_join_eq_of_single {as bs : List String}
    (ha : ∀ a ∈ as, a.toList.head? = some ':' ∧ IsSinglePseudo a)
    (hb : ∀ b ∈ bs, b.toList.head? = some ':' ∧ IsSinglePseudo b)
    (h : String.join as = String.join bs) : as = bs := by
  induction as generalizing bs with
  | nil => exact ((eq_nil_iff_of_join_eq (by simp) (fun b hb' => (hb b hb').1) h).mp rfl).symm
  | cons a as ih =>
      cases bs with
      | nil =>
          have hnil := eq_nil_iff_of_join_eq (fun a ha' => (ha a ha').1) (by simp) h
          exact hnil.mpr rfl
      | cons b bs =>
          obtain ⟨⟨_, hasingle⟩, has⟩ := List.forall_mem_cons.mp ha
          obtain ⟨⟨_, hbsingle⟩, hbs⟩ := List.forall_mem_cons.mp hb
          have htext := congrArg String.toList h
          simp only [String.toList_join, List.flatMap_cons] at htext
          rw [← String.toList_join, ← String.toList_join] at htext
          have hjoin := (head?_join fun a ha => (has a ha).1).imp And.right And.right
          have hjoin' := (head?_join fun b hb => (hbs b hb).1).imp And.right And.right
          have hfirst : a.toList = b.toList := by
            rcases List.append_eq_append_iff.mp htext with ⟨z, hz, hrest⟩ | ⟨z, hz, hrest⟩
            · rcases eq_or_append_mark hz hrest hjoin with hsame | ⟨rest, hlonger⟩
              · exact hsame
              · exact absurd hlonger (hasingle.ne_append hbsingle rest)
            · rcases eq_or_append_mark hz hrest hjoin' with hsame | ⟨rest, hlonger⟩
              · exact hsame.symm
              · exact absurd hlonger (hbsingle.ne_append hasingle rest)
          rw [hfirst] at htext
          have hrest : as = bs :=
            ih has hbs (String.toList_inj.mp (List.append_cancel_left htext))
          rw [String.toList_inj.mp hfirst, hrest]

/-! ## Rules -/

/-- A rule shows of its context the selector and the at-rules; only its rank is taken from the
conditions. -/
lemma ruleOf_of_join_eq (settings : Settings) {c d : Context} (hrules : c.atRules = d.atRules)
    (hselector : String.join c.pseudos = String.join d.pseudos) (s : DeclarationSet)
    (other : Option DeclarationSet) :
    ruleOf settings s other d =
      { ruleOf settings s other c with priority := priority .block d s.declarations } := by
  simp only [ruleOf, canonicalText, emitRule, emitSelector, hrules, hselector]

/-- **What rules of one selector have in common.**  However a selector is cut into conditions, it
gives one identifier and the same texts.  The cuts give one rank exactly if something outranks pseudo
selectors, or both or neither have a condition that begins with a pseudo element.  If all conditions
are single pseudo selectors, the rules are the same. -/
theorem priority_eq_iff_of_one_selector {settings : Settings} {c d c' d' : Context}
    {style : Value} {r : Rule}
    (hc : c.tidy = .ok c') (hd : d.tidy = .ok d') (hrules : c'.atRules = d'.atRules)
    (hselector : String.join c'.pseudos = String.join d'.pseudos)
    (h : compileBlock settings c style = .ok r) :
    ∃ r', compileBlock settings d style = .ok r' ∧
      r'.identifier = r.identifier ∧ r'.ltr = r.ltr ∧ r'.rtl = r.rtl ∧
        (r'.priority = r.priority ↔ (Rank.atRule.level : Int) ≤ r.priority ∨
          c'.pseudos.any isPseudoElement = d'.pseudos.any isPseudoElement) ∧
        ((∀ p ∈ c'.pseudos ++ d'.pseudos, IsSinglePseudo p) → r' = r) := by
  obtain ⟨entries, hentries, h⟩ := bind_eq_ok.mp h
  obtain ⟨_, hscalars, h⟩ := bind_eq_ok.mp h
  obtain ⟨tidied, htidied, h⟩ := bind_eq_ok.mp h
  obtain ⟨s, hs, h⟩ := bind_eq_ok.mp h
  obtain ⟨⟨u, other⟩, hother, h⟩ := bind_eq_ok.mp h
  obtain rfl := pure_eq_ok.mp h
  obtain rfl := Except.ok.inj (hc.symm.trans htidied)
  obtain ⟨_, hcolon, _⟩ := Context.tidy_eq_ok.mp hc
  obtain ⟨_, hcolon', _⟩ := Context.tidy_eq_ok.mp hd
  have hempty := eq_nil_iff_of_join_eq hcolon hcolon' hselector
  have hrule := ruleOf_of_join_eq settings hrules hselector s other
  obtain ⟨pseudos, rules⟩ := c'
  obtain ⟨pseudos', rules'⟩ := d'
  obtain rfl : rules = rules' := hrules
  have hcompile : compileBlock settings d style =
      .ok (ruleOf settings s other ⟨pseudos', rules⟩) :=
    bind_eq_ok.mpr ⟨entries, hentries, bind_eq_ok.mpr ⟨(), hscalars,
      bind_eq_ok.mpr ⟨_, hd, bind_eq_ok.mpr ⟨s, hs, bind_eq_ok.mpr ⟨(u, other), hother, rfl⟩⟩⟩⟩⟩
  refine ⟨_, hcompile, by rw [hrule], by rw [hrule], by rw [hrule], ?_, fun hsingle => ?_⟩
  · have hpriority := priority_eq_iff hempty rules s.declarations
    simpa only [ruleOf, Int.ofNat_inj, Int.ofNat_le] using hpriority
  · have hsame : pseudos = pseudos' :=
      eq_of_join_eq_of_single
        (fun p hp => ⟨hcolon p hp, hsingle p (List.mem_append_left _ hp)⟩)
        (fun p hp => ⟨hcolon' p hp, hsingle p (List.mem_append_right _ hp)⟩) hselector
    rw [hsame]

/-- A pseudo class and a pseudo element, as two conditions and as one: the rules share name and text,
and the second is ranked as if it named no element. -/
theorem priority_ne_of_joined_pseudos :
    ∃ r r' : Rule,
      compileBlock {} { pseudos := [":hover", "::before"] }
          (.map [(.text "color", .text "red")]) = .ok r ∧
        compileBlock {} { pseudos := [" :hover::before"] }
          (.map [(.text "color", .text "red")]) = .ok r' ∧
        r'.identifier = r.identifier ∧ r'.ltr = r.ltr ∧
        r.priority = Rank.pseudoElement.level ∧ r'.priority = Rank.pseudoClass.level ∧
        r'.priority ≠ r.priority := by
  have hc : Context.tidy { pseudos := [":hover", "::before"] } =
      .ok { pseudos := [":hover", "::before"] } := eq_ok_of_toOption (by decide +kernel)
  have hd : Context.tidy { pseudos := [" :hover::before"] } =
      .ok { pseudos := [":hover::before"] } := eq_ok_of_toOption (by decide +kernel)
  have hranks : (do
      let r ← compileBlock {} { pseudos := [":hover", "::before"] }
        (.map [(.text "color", .text "red")])
      let r' ← compileBlock {} { pseudos := [" :hover::before"] }
        (.map [(.text "color", .text "red")])
      pure (r.priority, r'.priority) : Outcome (Int × Int)) = .ok (3, 2) :=
    eq_ok_of_toOption (by decide +kernel)
  simp only [bind_eq_ok, pure_eq_ok, Prod.mk.injEq] at hranks
  obtain ⟨r, hr, r₂, hr₂, hrank, hrank₂⟩ := hranks
  obtain ⟨r', hr', hname, hltr, _, hiff, _⟩ :=
    priority_eq_iff_of_one_selector hc hd rfl (by decide +kernel) hr
  obtain rfl := Except.ok.inj (hr₂.symm.trans hr')
  refine ⟨r, r₂, hr, hr', hname, hltr, hrank, hrank₂, fun h => ?_⟩
  rcases hiff.mp h with hhigh | hany
  · rw [hrank] at hhigh
    exact absurd hhigh (by decide)
  · exact absurd hany (by decide +kernel)

end AtomicStyle
