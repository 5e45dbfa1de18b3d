import AtomicStyle.Proofs.Namespace.Routes
import AtomicStyle.Proofs.Rule.Importance
import AtomicStyle.Proofs.Sheet.Run

/-!
# Priority and place

A rule is emitted behind those of lower priority, so that it wins over them.  Its priority is that
of its highest feature.

**Features.**  Each pseudo selector, each at-rule and each declaration is a feature with a level of
its own.  A bound on the priority is a bound on each level (`priority_le_iff_forall`), and from this
the rest follows: with the features of two rules together a rule has the higher one of the two
priorities (`priority_append`), more features never lower it (`priority_mono`), and their order
makes no difference (`priority_eq_of_perm`).

**Places.**  A rule is inserted into the emitted rules of a sheet without changing the order of the
others (`sorted_eq_insertIdx`).  Ahead of it are the earlier rules of its own priority and all of
lower priority, so a higher priority never puts it further to the front (`size_ahead_le`).
-/

namespace AtomicStyle

/-! ## Features -/

/-- The level of one pseudo selector. -/
def selectorLevel (pseudo : String) : Nat :=
  if isPseudoElement pseudo then Rank.pseudoElement.level else Rank.pseudoClass.level

/-- One pseudo-element is enough for its level, and without any the selectors are classes. -/
lemma pseudoLevel_le_iff {pseudos : List String} {bound : Nat} :
    pseudoLevel pseudos ≤ bound ↔ ∀ p ∈ pseudos, selectorLevel p ≤ bound := by
  have hclass : Rank.pseudoClass.level ≤ Rank.pseudoElement.level := by decide
  have hlevel : ∀ p, selectorLevel p ≤ Rank.pseudoElement.level := by
    intro p
    unfold selectorLevel
    split_ifs
    · exact Nat.le_refl _
    · exact hclass
  unfold pseudoLevel
  split_ifs with hempty hany
  · rw [List.isEmpty_iff.mp hempty]
    exact iff_of_true (Nat.zero_le _) fun p hp => absurd hp List.not_mem_nil
  · obtain ⟨q, hq, helement⟩ := List.any_eq_true.mp hany
    refine ⟨fun h p _ => (hlevel p).trans h, fun h => ?_⟩
    have hbound := h q hq
    rwa [selectorLevel, if_pos helement] at hbound
  · have hall : ∀ p ∈ pseudos, selectorLevel p = Rank.pseudoClass.level := by
      intro p hp
      rw [selectorLevel, if_neg fun helement => hany (List.any_eq_true.mpr ⟨p, hp, helement⟩)]
    obtain ⟨q, hq⟩ := List.exists_mem_of_ne_nil pseudos fun h => hempty (List.isEmpty_iff.mpr h)
    exact ⟨fun h p hp => (hall p hp).le.trans h, fun h => (hall q hq) ▸ h q hq⟩

lemma atRuleLevel_le_iff {atRules : List String} {bound : Nat} :
    atRuleLevel atRules ≤ bound ↔ ∀ _ ∈ atRules, Rank.atRule.level ≤ bound := by
  cases atRules with
  | nil => exact iff_of_true (Nat.zero_le _) fun a ha => absurd ha List.not_mem_nil
  | cons a as => exact ⟨fun h _ _ => h, fun h => h a List.mem_cons_self⟩

/-- **A bound on the priority is a bound on the level of each feature.** -/
theorem priority_le_iff_forall {context : Context} {ds : List Declaration} {bound : Nat} :
    priority .block context ds ≤ bound ↔
      (∀ p ∈ context.pseudos, selectorLevel p ≤ bound) ∧
        (∀ _ ∈ context.atRules, Rank.atRule.level ≤ bound) ∧
        ∀ d ∈ ds, declarationLevel d ≤ bound := by
  rw [priority_le_iff, pseudoLevel_le_iff, atRuleLevel_le_iff]

section

variable {x y : Context} {d e : List Declaration}

/-- **The priority of all features together is the higher one of the two priorities.** -/
theorem priority_append (x y : Context) (d e : List Declaration) :
    priority .block (x ++ y) (d ++ e) = max (priority .block x d) (priority .block y e) := by
  refine eq_of_forall_ge_iff fun bound => ?_
  rw [Nat.max_le, priority_le_iff_forall, priority_le_iff_forall, priority_le_iff_forall,
    Context.append_def]
  simp only [List.forall_mem_append]
  constructor
  · rintro ⟨⟨hpx, hpy⟩, ⟨hax, hay⟩, hd, he⟩
    exact ⟨⟨hpx, hax, hd⟩, hpy, hay, he⟩
  · rintro ⟨⟨hpx, hax, hd⟩, hpy, hay, he⟩
    exact ⟨⟨hpx, hpy⟩, ⟨hax, hay⟩, hd, he⟩

/-- **More features never lower the priority.** -/
theorem priority_mono (hpseudos : x.pseudos ⊆ y.pseudos) (hatRules : x.atRules ⊆ y.atRules)
    (hde : d ⊆ e) : priority .block x d ≤ priority .block y e := by
  obtain ⟨hp, ha, hd⟩ := priority_le_iff_forall.mp (Nat.le_refl (priority .block y e))
  exact priority_le_iff_forall.mpr
    ⟨fun p h => hp p (hpseudos h), fun a h => ha a (hatRules h), fun d h => hd d (hde h)⟩

/-- **The order of the features makes no difference.** -/
theorem priority_eq_of_perm (hpseudos : x.pseudos.Perm y.pseudos)
    (hatRules : x.atRules.Perm y.atRules) (hde : d.Perm e) :
    priority .block x d = priority .block y e :=
  Nat.le_antisymm (priority_mono hpseudos.subset hatRules.subset hde.subset)
    (priority_mono hpseudos.symm.subset hatRules.symm.subset hde.symm.subset)

end

/-! ## Places -/

namespace Sheet

variable {front back : List (String × Rule)} {p : Int}

/-- What is emitted ahead of a rule of the priority that comes between the two parts: of the rules
in front also those of the same priority. -/
def ahead (front back : List (String × Rule)) (p : Int) : Sheet where
  entries := (front.filter fun entry => decide (entry.2.priority ≤ p)) ++
    back.filter fun entry => decide (entry.2.priority < p)

/-- What is emitted behind a rule of the priority that comes between the two parts. -/
def behind (front back : List (String × Rule)) (p : Int) : Sheet where
  entries := (front.filter fun entry => decide (p < entry.2.priority)) ++
    back.filter fun entry => decide (p ≤ entry.2.priority)

/-- Among rules that are picked by their priority, those of one priority are all of them or none. -/
lemma filter_filter_priority (pick : Int → Bool) (rules : List Rule) (k : Int) :
    (rules.filter fun r => pick r.priority).filter (·.priority = k) =
      if pick k then rules.filter (·.priority = k) else [] := by
  rw [List.filter_filter]
  split_ifs with hk
  · refine List.filter_congr fun r _ => ?_
    by_cases hr : r.priority = k
    · simp [hr, hk]
    · simp [hr]
  · refine List.filter_eq_nil_iff.mpr fun r _ h => hk ?_
    obtain ⟨hr, hpick⟩ := Bool.and_eq_true_iff.mp h
    rwa [of_decide_eq_true hr] at hpick

/-- The rules of one priority among those that are picked from two parts. -/
lemma filter_sorted (inFront inBack : Int → Bool) (k : Int) :
    (Sheet.mk ((front.filter fun entry => inFront entry.2.priority) ++
      back.filter fun entry => inBack entry.2.priority)).sorted.filter (·.priority = k) =
        (if inFront k then (front.map Prod.snd).filter (·.priority = k) else []) ++
          if inBack k then (back.map Prod.snd).filter (·.priority = k) else [] := by
  have hmap : ∀ (pick : Int → Bool) (entries : List (String × Rule)),
      (entries.filter fun entry => pick entry.2.priority).map Prod.snd =
        (entries.map Prod.snd).filter fun r => pick r.priority := by
    intro pick entries
    rw [List.filter_map]
    rfl
  rw [(isStableSorting_sorted _).stable, List.map_append, List.filter_append, hmap, hmap,
    filter_filter_priority, filter_filter_priority]

lemma priority_le_of_mem_ahead {r : Rule} (h : r ∈ (ahead front back p).sorted) :
    r.priority ≤ p := by
  obtain ⟨entry, hentry, rfl⟩ := List.mem_map.mp ((sorted_perm _).mem_iff.mp h)
  rcases List.mem_append.mp hentry with hentry | hentry
  · exact of_decide_eq_true (List.mem_filter.mp hentry).2
  · exact Int.le_of_lt (of_decide_eq_true (List.mem_filter.mp hentry).2)

lemma le_priority_of_mem_behind {r : Rule} (h : r ∈ (behind front back p).sorted) :
    p ≤ r.priority := by
  obtain ⟨entry, hentry, rfl⟩ := List.mem_map.mp ((sorted_perm _).mem_iff.mp h)
  rcases List.mem_append.mp hentry with hentry | hentry
  · exact Int.le_of_lt (of_decide_eq_true (List.mem_filter.mp hentry).2)
  · exact of_decide_eq_true (List.mem_filter.mp hentry).2

/-- **Rules of one priority part the others.**  They are emitted between those ahead of them and
those behind. -/
theorem sorted_eq_append (front back : List (String × Rule)) {middle : List (String × Rule)}
    (h : ∀ entry ∈ middle, entry.2.priority = p) :
    (Sheet.mk (front ++ middle ++ back)).sorted =
      (ahead front back p).sorted ++ middle.map Prod.snd ++ (behind front back p).sorted := by
  have hmiddle : ∀ r ∈ middle.map Prod.snd, r.priority = p := List.forall_mem_map.mpr h
  refine eq_of_filter_key_eq (isStableSorting_sorted _).ascending ?ascending fun k => ?parts
  case ascending =>
    rw [List.pairwise_append, List.pairwise_append]
    refine ⟨⟨(isStableSorting_sorted _).ascending, ?_, fun r hr t ht => ?_⟩,
      (isStableSorting_sorted _).ascending, fun r hr t ht => ?_⟩
    · exact List.pairwise_of_forall_mem_list fun r hr t ht =>
        ((hmiddle r hr).trans (hmiddle t ht).symm).le
    · exact (hmiddle t ht) ▸ priority_le_of_mem_ahead hr
    · refine Int.le_trans ?_ (le_priority_of_mem_behind ht)
      rcases List.mem_append.mp hr with hr | hr
      · exact priority_le_of_mem_ahead hr
      · exact (hmiddle r hr).le
  case parts =>
    have hahead : (ahead front back p).sorted.filter (·.priority = k) = _ :=
      filter_sorted (fun k => decide (k ≤ p)) (fun k => decide (k < p)) k
    have hbehind : (behind front back p).sorted.filter (·.priority = k) = _ :=
      filter_sorted (fun k => decide (p < k)) (fun k => decide (p ≤ k)) k
    rw [(isStableSorting_sorted _).stable, List.filter_append, List.filter_append, hahead, hbehind,
      List.map_append, List.map_append, List.filter_append, List.filter_append]
    have hnone : p ≠ k → (middle.map Prod.snd).filter (·.priority = k) = [] := fun hne =>
      List.filter_eq_nil_iff.mpr fun r hr hrk =>
        hne ((hmiddle r hr).symm.trans (of_decide_eq_true hrk))
    -- below and above, both parts of the key are on one side; at the key, the rules are between
    rcases Int.lt_trichotomy k p with hk | rfl | hk
    · simp [hk, hk.le, hk.not_gt, hk.not_ge, hnone hk.ne']
    · simp
    · simp [hk, hk.le, hk.not_gt, hk.not_ge, hnone hk.ne]

/-- **A rule takes its place without moving the others.** -/
theorem sorted_eq_insertIdx (front back : List (String × Rule)) (name : String) (r : Rule) :
    (Sheet.mk (front ++ (name, r) :: back)).sorted =
      (Sheet.mk (front ++ back)).sorted.insertIdx (ahead front back r.priority).size r := by
  have hwith : (Sheet.mk (front ++ (name, r) :: back)).sorted =
      (ahead front back r.priority).sorted ++ r :: (behind front back r.priority).sorted := by
    have hparts := sorted_eq_append front back
      (List.forall_mem_singleton.mpr rfl : ∀ entry ∈ [(name, r)], entry.2.priority = r.priority)
    rwa [List.append_assoc, List.append_assoc] at hparts
  have hwithout : (Sheet.mk (front ++ back)).sorted =
      (ahead front back r.priority).sorted ++ (behind front back r.priority).sorted := by
    have hparts := sorted_eq_append (p := r.priority) front back (List.forall_mem_nil _)
    rwa [List.append_nil, List.map_nil, List.append_nil] at hparts
  have hsize : (ahead front back r.priority).size =
      (ahead front back r.priority).sorted.length := by
    rw [(sorted_perm _).length_eq, List.length_map]
    rfl
  rw [hwith, hwithout, hsize]
  exact (List.modifyTailIdx_add (List.cons r) 0 _ _).symm

/-- **A higher priority never puts a rule further to the front.** -/
theorem size_ahead_le {q : Int} (h : p ≤ q) :
    (ahead front back p).size ≤ (ahead front back q).size := by
  have hsub : (ahead front back p).entries.Sublist (ahead front back q).entries := by
    refine List.Sublist.append ?_ ?_
    · exact List.monotone_filter_right _ fun entry hle =>
        decide_eq_true (Int.le_trans (of_decide_eq_true hle) h)
    · exact List.monotone_filter_right _ fun entry hlt =>
        decide_eq_true (Int.lt_of_lt_of_le (of_decide_eq_true hlt) h)
  exact hsub.length_le

end Sheet

/-- **Priority is a join.**  The priority of a rule is the least upper bound of the levels of its
features, and with the features of two rules together, the declarations kept without merging, a rule
has the higher one of their priorities.  So the order of the features makes no difference, and more
of them never lower the priority; and as the place of a rule among the other rules of a sheet
depends on its priority alone and ascends with it, they never put the rule further to the front. -/
theorem priority_append_eq_max :
    (∀ x y d e, priority .block (x ++ y) (DeclarationSet.ofList (d ++ e) false).declarations =
        max (priority .block x d) (priority .block y e)) ∧
      (∀ context ds bound, priority .block context ds ≤ bound ↔
        (∀ p ∈ context.pseudos, selectorLevel p ≤ bound) ∧
          (∀ _ ∈ context.atRules, Rank.atRule.level ≤ bound) ∧
          ∀ d ∈ ds, declarationLevel d ≤ bound) ∧
      (∀ x y d e, x.pseudos.Perm y.pseudos → x.atRules.Perm y.atRules → d.Perm e →
        priority .block x d = priority .block y e) ∧
      (∀ x y d e, x.pseudos ⊆ y.pseudos → x.atRules ⊆ y.atRules → d ⊆ e →
        priority .block x d ≤ priority .block y e) ∧
      ∀ front back, ∃ place : Nat → Nat, Monotone place ∧ ∀ settings s other context name,
        (Sheet.mk (front ++ (name, ruleOf settings s other context) :: back)).sorted =
          (Sheet.mk (front ++ back)).sorted.insertIdx
            (place (priority .block context s.declarations))
            (ruleOf settings s other context) := by
  refine ⟨fun x y d e => ?join, fun context ds bound => priority_le_iff_forall,
    fun x y d e => priority_eq_of_perm, fun x y d e => priority_mono, fun front back => ?place⟩
  case join =>
    rw [DeclarationSet.declarations_ofList_false]
    exact priority_append x y d e
  case place =>
    refine ⟨fun level => (Sheet.ahead front back level).size, fun k l hkl => ?_,
      fun settings s other context name => ?_⟩
    · exact Sheet.size_ahead_le (Int.ofNat_le.mpr hkl)
    · exact Sheet.sorted_eq_insertIdx front back name _

/-- A rule for hovering, under an at-rule, with a pseudo-element in front, and with an important
declaration next to its own. -/
theorem priority_append_eq_max_of_hover :
    priority .block ({ pseudos := [":hover"] } ++ { atRules := ["@media print"] })
        (DeclarationSet.ofList ([⟨"color", "red", "color", none⟩] ++
          [⟨"color", "blue", "color", none⟩]) false).declarations = Rank.atRule.level ∧
      selectorLevel "::before" ≤
        priority .block { pseudos := [":hover", "::before"] } [⟨"color", "red", "color", none⟩] ∧
      priority .block { pseudos := [":hover", "::before"] } [⟨"color", "red", "color", none⟩] =
        priority .block { pseudos := ["::before", ":hover"] } [⟨"color", "red", "color", none⟩] ∧
      priority .block { pseudos := [":hover"] } [⟨"color", "red", "color", none⟩] ≤
        priority .block { pseudos := ["::before", ":hover"] }
          [⟨"top", "0 !important", "top", none⟩, ⟨"color", "red", "color", none⟩] ∧
      ∃ place : Nat → Nat, place Rank.pseudoClass.level ≤ place Rank.important.level ∧
        (Sheet.mk [("x", ⟨"x", "x", none, 1⟩), ("r", ruleOf {}
            (.ofList [⟨"color", "red", "color", none⟩]) none { pseudos := [":hover"] }),
            ("y", ⟨"y", "y", none, 5⟩)]).sorted =
          (Sheet.mk [("x", ⟨"x", "x", none, 1⟩), ("y", ⟨"y", "y", none, 5⟩)]).sorted.insertIdx
            (place Rank.pseudoClass.level) (ruleOf {}
              (.ofList [⟨"color", "red", "color", none⟩]) none { pseudos := [":hover"] }) := by
  obtain ⟨hjoin, hbound, horder, hmono, hplace⟩ := priority_append_eq_max
  obtain ⟨place, hmonotone, hsorted⟩ :=
    hplace [("x", ⟨"x", "x", none, 1⟩)] [("y", ⟨"y", "y", none, 5⟩)]
  refine ⟨(hjoin _ _ _ _).trans (by decide), ?_, ?_, ?_, place, hmonotone (by decide),
    hsorted {} (.ofList [⟨"color", "red", "color", none⟩]) none { pseudos := [":hover"] } "r"⟩
  · exact ((hbound _ _ _).mp (Nat.le_refl _)).1 "::before" (by decide)
  · exact horder _ _ _ _ (List.Perm.swap _ _ _) (List.Perm.refl _) (List.Perm.refl _)
  · exact hmono _ _ _ _ (by decide) (by decide) (by decide)

end AtomicStyle
