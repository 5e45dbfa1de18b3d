import AtomicStyle.Proofs.Fault.Document

/-!
# The routes through a conditional value

A conditional value is a tree of mappings with conditions for keys.  A walk gives its leaves, each
under the conditions that were met on the way.  Which leaves are these, in which order, and which
conditions stand in front of them?

**Routes.**  A route to a leaf is told by the turns that are taken and the keys that are read
(`IsRoute`).  `routes` lists all of them (`mem_routes_iff`), from left to right (`pairwise_routes`).

**Walks.**  The leaves that a walk meets are those at the end of the first routes, and all of them
are met if nothing stops the walk (`meets_walk`).  Each comes with the pseudo selectors among the
keys of its route and with the at-rules among them, behind the context that the walk began with
(`Route.met`).  A walk is stopped by the first key that is no condition (`stopped_walk_eq`), and the
context may be put in front afterwards (`walk_append`).

**Flattening.**  `walk_follows_routes` puts these together for trees whose keys are conditions, and
for those that have some other key.
-/

namespace AtomicStyle

/-! ## Trees -/

/-- The tree holds a mapping of the entries. -/
inductive Value.Holds : Value → List (Key × Value) → Prop
  | self {entries : List (Key × Value)} : (Value.map entries).Holds entries
  | under {entries inner : List (Key × Value)} {key : Key} {value : Value}
      (hentry : (key, value) ∈ entries) (h : value.Holds inner) : (Value.map entries).Holds inner

/-- The key is `default`, a pseudo selector or an at-rule. -/
def Key.IsCondition : Key → Prop
  | .text s => s = "default" ∨ Context.beginsWith ':' s = true ∨ Context.beginsWith '@' s = true
  | .number _ => False

instance : DecidablePred Key.IsCondition
  | .text _ => inferInstanceAs (Decidable (_ ∨ _ ∨ _))
  | .number _ => inferInstanceAs (Decidable False)

/-- All keys of all mappings in the tree are conditions. -/
def Value.IsConditional (value : Value) : Prop :=
  ∀ entries, value.Holds entries → ∀ e ∈ entries, e.1.IsCondition

/-! ## Routes -/

/-- A way to a leaf: the turns that are taken, the keys that are read, and the leaf. -/
structure Route where
  turns : List Nat := []
  keys : List Key := []
  leaf : Value

/-- The route behind a turn. -/
def Route.under (turn : Nat) (key : Key) (r : Route) : Route where
  turns := turn :: r.turns
  keys := key :: r.keys
  leaf := r.leaf

/-- The route leads through the tree to one of its leaves. -/
inductive IsRoute : Value → Route → Prop
  | leaf {value : Value} (h : value.kind ≠ .map) : IsRoute value { leaf := value }
  | under {entries : List (Key × Value)} {turn : Nat} {key : Key} {value : Value} {r : Route}
      (hentry : entries[turn]? = some (key, value)) (h : IsRoute value r) :
      IsRoute (.map entries) (r.under turn key)

mutual

/-- The routes through a tree. -/
def routes : Value → List Route
  | .map entries => entryRoutes 0 entries
  | value => [{ leaf := value }]

/-- The routes through the entries of a mapping, of which the first is taken with `turn`. -/
def entryRoutes (turn : Nat) : List (Key × Value) → List Route
  | [] => []
  | (key, value) :: rest => (routes value).map (Route.under turn key) ++ entryRoutes (turn + 1) rest

end

lemma routes_of_leaf {value : Value} (h : value.kind ≠ .map) :
    routes value = [{ leaf := value }] := by
  cases value with
  | map entries => exact absurd rfl h
  | _ => rfl

lemma mem_entryRoutes_iff {turn : Nat} {entries : List (Key × Value)} {r : Route} :
    r ∈ entryRoutes turn entries ↔ ∃ i key value, entries[i]? = some (key, value) ∧
      ∃ s ∈ routes value, s.under (turn + i) key = r := by
  induction entries generalizing turn with
  | nil => simp [entryRoutes]
  | cons entry rest ih =>
      obtain ⟨key, value⟩ := entry
      rw [entryRoutes, List.mem_append, List.mem_map, ih]
      constructor
      · rintro (⟨s, hs, rfl⟩ | ⟨i, key', value', hentry, s, hs, rfl⟩)
        · exact ⟨0, key, value, rfl, s, hs, rfl⟩
        · exact ⟨i + 1, key', value', hentry, s, hs, by rw [Nat.add_right_comm, Nat.add_assoc]⟩
      · rintro ⟨_ | i, key', value', hentry, s, hs, rfl⟩
        · obtain ⟨rfl, rfl⟩ := Prod.mk.inj (Option.some.inj hentry)
          exact Or.inl ⟨s, hs, rfl⟩
        · exact Or.inr ⟨i, key', value', hentry, s, hs, by rw [Nat.add_right_comm, Nat.add_assoc]⟩

/-- **All routes are listed.** -/
theorem mem_routes_iff {value : Value} {r : Route} : r ∈ routes value ↔ IsRoute value r := by
  induction value using Value.tree_induction generalizing r with
  | leaf value h =>
      rw [routes_of_leaf h, List.mem_singleton]
      constructor
      · rintro rfl
        exact .leaf h
      · rintro (_ | _)
        · rfl
        · exact absurd rfl h
  | map entries ih =>
      rw [routes, mem_entryRoutes_iff]
      constructor
      · rintro ⟨i, key, value, hentry, s, hs, rfl⟩
        rw [Nat.zero_add]
        exact .under hentry ((ih _ (List.mem_of_getElem? hentry)).mp hs)
      · rintro (h | ⟨hentry, h⟩)
        · exact absurd rfl h
        · refine ⟨_, _, _, hentry, _, (ih _ (List.mem_of_getElem? hentry)).mpr h, ?_⟩
          rw [Nat.zero_add]

/-- **The routes are listed from left to right**, each of them once. -/
theorem pairwise_routes (value : Value) : (routes value).Pairwise fun r s => r.turns < s.turns := by
  induction value using Value.tree_induction with
  | leaf value h =>
      rw [routes_of_leaf h]
      exact List.pairwise_singleton _ _
  | map entries ih =>
      rw [routes]
      generalize 0 = turn
      induction entries generalizing turn with
      | nil => exact .nil
      | cons entry rest ihrest =>
          obtain ⟨key, value⟩ := entry
          obtain ⟨hvalue, hrest⟩ := List.forall_mem_cons.mp ih
          rw [entryRoutes, List.pairwise_append, List.pairwise_map]
          refine ⟨hvalue.imp fun h => List.cons_lt_cons_iff.mpr (Or.inr ⟨rfl, h⟩),
            ihrest hrest (turn + 1), ?_⟩
          intro r hr s hs
          obtain ⟨r, _, rfl⟩ := List.mem_map.mp hr
          obtain ⟨i, _, _, _, s, _, rfl⟩ := mem_entryRoutes_iff.mp hs
          exact List.cons_lt_cons_iff.mpr (Or.inl (by omega))

/-! ## Contexts -/

namespace Context

instance : Append Context where
  append c d := { pseudos := c.pseudos ++ d.pseudos, atRules := c.atRules ++ d.atRules }

lemma append_def (c d : Context) :
    c ++ d = { pseudos := c.pseudos ++ d.pseudos, atRules := c.atRules ++ d.atRules } := rfl

@[simp] lemma append_empty (c : Context) : c ++ ({} : Context) = c := by
  rw [append_def, List.append_nil, List.append_nil]

lemma append_assoc (c d e : Context) : c ++ d ++ e = c ++ (d ++ e) := by
  simp only [append_def, List.append_assoc]

/-- The texts among the keys that begin with the character, in their order. -/
def marked (mark : Char) (keys : List Key) : List String :=
  keys.filterMap fun
    | .text s => if beginsWith mark s then some s else none
    | .number _ => none

/-- The pseudo selectors and the at-rules among the keys. -/
def ofKeys (keys : List Key) : Context where
  pseudos := marked ':' keys
  atRules := marked '@' keys

lemma ofKeys_append (front back : List Key) :
    ofKeys (front ++ back) = ofKeys front ++ ofKeys back := by
  simp only [ofKeys, marked, List.filterMap_append, append_def]

end Context

/-- What stands for the leaf at the end of a route on a walk from a context. -/
def Route.met (context : Context) (r : Route) : Context × Value :=
  (context ++ Context.ofKeys r.keys, r.leaf)

lemma Route.met_under (context : Context) (turn : Nat) (key : Key) (r : Route) :
    (r.under turn key).met context = r.met (context ++ Context.ofKeys [key]) := by
  have hkeys : (r.under turn key).keys = [key] ++ r.keys := rfl
  rw [met, met, hkeys, Context.ofKeys_append, Context.append_assoc]
  rfl

/-! ## Keys -/

mutual

/-- The keys that are read in a tree, each with the mapping that holds it. -/
def keysIn : Value → List (Key × Value)
  | .map entries => entryKeys (.map entries) entries
  | _ => []

/-- The keys that are read in the entries of the mapping `whole`. -/
def entryKeys (whole : Value) : List (Key × Value) → List (Key × Value)
  | [] => []
  | (key, value) :: rest => (key, whole) :: (keysIn value ++ entryKeys whole rest)

end

/-- The failure of a walk at a key that is no condition. -/
def refusal (property : Key) : Key × Value → Failure
  | (.text s, whole) =>
    .rejected { reason := .unknownCondition s, property := property.plain, fragment := whole }
  | (.number _, _) => .fault .numericKey

lemma enterKey_eq (property : Key) (whole : Value) (context : Context) (key : Key) :
    enterKey property whole context key =
      if key.IsCondition then .ok (context ++ Context.ofKeys [key])
      else .error (refusal property (key, whole)) := by
  cases key with
  | number n => rfl
  | text s =>
      simp only [enterKey, Condition.ofText?, Key.IsCondition]
      by_cases hdefault : s = "default"
      · subst hdefault
        exact congrArg Except.ok (Context.append_empty context).symm
      by_cases hcolon : Context.beginsWith ':' s = true
      · have hat : Context.beginsWith '@' s = false := by
          rw [Context.beginsWith, beq_iff_eq] at hcolon
          rw [Context.beginsWith, hcolon]
          rfl
        simp [hdefault, hcolon, hat, Context.ofKeys, Context.marked, Context.append_def,
          Condition.enter, Context.pushPseudo]
      by_cases hat : Context.beginsWith '@' s = true
      · simp [hdefault, hcolon, hat, Context.ofKeys, Context.marked, Context.append_def,
          Condition.enter, Context.pushAtRule]
      · simp [hdefault, hcolon, hat, refusal, reject]

lemma keysIn_of_leaf {value : Value} (h : value.kind ≠ .map) : keysIn value = [] := by
  cases value with
  | map entries => exact absurd rfl h
  | _ => rfl

lemma mem_entryKeys_iff {whole : Value} {entries : List (Key × Value)} {p : Key × Value} :
    p ∈ entryKeys whole entries ↔
      ∃ e ∈ entries, (e.1, whole) = p ∨ p ∈ keysIn e.2 := by
  induction entries with
  | nil => simp [entryKeys]
  | cons entry rest ih =>
      obtain ⟨key, value⟩ := entry
      rw [entryKeys, List.mem_cons, List.mem_append, ih, List.exists_mem_cons_iff, ← or_assoc,
        eq_comm]

/-- The keys that are read are those of the mappings that the tree holds. -/
theorem mem_keysIn_iff {value : Value} {p : Key × Value} :
    p ∈ keysIn value ↔ ∃ entries, value.Holds entries ∧ ∃ e ∈ entries, (e.1, .map entries) = p := by
  induction value using Value.tree_induction generalizing p with
  | leaf value h =>
      rw [keysIn_of_leaf h]
      refine iff_of_false List.not_mem_nil ?_
      rintro ⟨entries, hholds, _⟩
      cases hholds <;> exact h rfl
  | map entries ih =>
      rw [keysIn, mem_entryKeys_iff]
      constructor
      · rintro ⟨e, he, rfl | hp⟩
        · exact ⟨entries, .self, e, he, rfl⟩
        · obtain ⟨inner, hinner, hp⟩ := (ih e he).mp hp
          exact ⟨inner, .under he hinner, hp⟩
      · rintro ⟨inner, _ | ⟨hentry, hinner⟩, e, he, hp⟩
        · exact ⟨e, he, Or.inl hp⟩
        · exact ⟨_, hentry, Or.inr ((ih _ hentry).mpr ⟨inner, hinner, e, he, hp⟩)⟩

/-! ## Walks -/

section

variable {property : Key} {context : Context} {value : Value}

/-- **The first key that is no condition stops the walk**, and nothing else does. -/
theorem stopped_walk_eq :
    (walk property context value).stopped =
      ((keysIn value).find? fun p => ¬p.1.IsCondition).map (refusal property) := by
  induction value using Value.tree_induction generalizing context with
  | leaf value h => rw [walk_of_leaf h, keysIn_of_leaf h]; rfl
  | map entries ih =>
      rw [walk, keysIn]
      generalize Value.map entries = whole
      induction entries with
      | nil => rfl
      | cons entry rest ihrest =>
          obtain ⟨key, value⟩ := entry
          obtain ⟨hvalue, hrest⟩ := List.forall_mem_cons.mp ih
          rw [walkEntries, enterKey_eq, entryKeys, List.find?_cons]
          by_cases hkey : key.IsCondition
          · simp [hkey, stopped_append, hvalue, ihrest hrest, Option.map_or]
          · simp [hkey]

/-- The walk meets the first of the leaves, and all of them if nothing stops it. -/
structure Walk.Meets (w : Walk) (all : List (Context × Value)) : Prop where
  isPrefix : w.leaves <+: all
  eq_of_not_stopped : w.stopped = none → w.leaves = all

lemma Walk.Meets.append {a b : Walk} {as bs : List (Context × Value)} (ha : a.Meets as)
    (hb : b.Meets bs) : (a.append b).Meets (as ++ bs) := by
  cases h : a.stopped with
  | some failure =>
      rw [append_stopped h]
      refine ⟨ha.isPrefix.trans (List.prefix_append as bs), fun hnot => ?_⟩
      rw [h] at hnot
      cases hnot
  | none =>
      have happend : a.append b = { leaves := as ++ b.leaves, stopped := b.stopped } := by
        rw [Walk.append, h, ha.eq_of_not_stopped h]
      rw [happend]
      exact ⟨(List.prefix_append_right_inj as).mpr hb.isPrefix,
        fun hnot => congrArg (as ++ ·) (hb.eq_of_not_stopped hnot)⟩

/-- **A walk meets the leaves at the end of the routes**, from left to right. -/
theorem meets_walk :
    (walk property context value).Meets ((routes value).map (Route.met context)) := by
  induction value using Value.tree_induction generalizing context with
  | leaf value h =>
      rw [walk_of_leaf h, routes_of_leaf h, List.map_singleton]
      have hmet : Route.met context { leaf := value } = (context, value) :=
        congrArg (·, value) (Context.append_empty context)
      rw [hmet]
      exact ⟨List.prefix_rfl, fun _ => rfl⟩
  | map entries ih =>
      rw [walk, routes]
      generalize Value.map entries = whole
      generalize 0 = turn
      induction entries generalizing turn with
      | nil => exact ⟨List.prefix_rfl, fun _ => rfl⟩
      | cons entry rest ihrest =>
          obtain ⟨key, value⟩ := entry
          obtain ⟨hvalue, hrest⟩ := List.forall_mem_cons.mp ih
          rw [walkEntries, enterKey_eq, entryRoutes, List.map_append, List.map_map]
          by_cases hkey : key.IsCondition
          · have hmet : Route.met context ∘ Route.under turn key =
                Route.met (context ++ Context.ofKeys [key]) :=
              funext fun r => r.met_under context turn key
            rw [if_pos hkey, hmet]
            exact hvalue.append (ihrest hrest (turn + 1))
          · rw [if_neg hkey]
            refine ⟨List.nil_prefix, fun hnot => ?_⟩
            cases hnot

/-- The walk with a context in front of the contexts that were met. -/
def Walk.within (context : Context) (w : Walk) : Walk where
  leaves := w.leaves.map fun (inner, leaf) => (context ++ inner, leaf)
  stopped := w.stopped

lemma Walk.within_append (context : Context) (a b : Walk) :
    (a.append b).within context = (a.within context).append (b.within context) := by
  cases h : a.stopped <;> simp [Walk.append, within, h]

/-- **A walk from a context puts the context in front.** -/
theorem walk_append (inner : Context) :
    walk property (context ++ inner) value = (walk property inner value).within context := by
  induction value using Value.tree_induction generalizing inner with
  | leaf value h => rw [walk_of_leaf h, walk_of_leaf h]; rfl
  | map entries ih =>
      rw [walk, walk]
      generalize Value.map entries = whole
      induction entries with
      | nil => rfl
      | cons entry rest ihrest =>
          obtain ⟨key, value⟩ := entry
          obtain ⟨hvalue, hrest⟩ := List.forall_mem_cons.mp ih
          rw [walkEntries, walkEntries, enterKey_eq, enterKey_eq]
          by_cases hkey : key.IsCondition
          · rw [if_pos hkey, if_pos hkey, Walk.within_append, Context.append_assoc]
            exact congrArg₂ Walk.append (hvalue _) (ihrest hrest)
          · rw [if_neg hkey, if_neg hkey]
            rfl

/-! ## Conditional values -/

lemma isConditional_iff : value.IsConditional ↔ ∀ p ∈ keysIn value, p.1.IsCondition := by
  constructor
  · intro h p hp
    obtain ⟨entries, hholds, e, he, rfl⟩ := mem_keysIn_iff.mp hp
    exact h entries hholds e he
  · intro h entries hholds e he
    exact h (e.1, .map entries) (mem_keysIn_iff.mpr ⟨entries, hholds, e, he, rfl⟩)

lemma stopped_walk_eq_none_iff :
    (walk property context value).stopped = none ↔ value.IsConditional := by
  rw [stopped_walk_eq, Option.map_eq_none_iff, List.find?_eq_none, isConditional_iff]
  simp

/-- A walk through a tree with conditions for keys meets all leaves. -/
lemma walk_of_isConditional (h : value.IsConditional) :
    walk property context value = { leaves := (routes value).map (Route.met context) } := by
  have hstopped : (walk property context value).stopped = none := stopped_walk_eq_none_iff.mpr h
  have hleaves := meets_walk.eq_of_not_stopped hstopped
  generalize walk property context value = w at hstopped hleaves
  obtain ⟨leaves, stopped⟩ := w
  dsimp only at hstopped hleaves
  rw [hstopped, hleaves]

/-- Where keys are texts, a walk that is stopped ends in a rejection of an unknown condition. -/
lemma toOutcome_walk_of_not_isConditional (hkeys : value.HasTextKeys) (h : ¬value.IsConditional) :
    ∃ s whole, (walk property context value).toOutcome = reject
      { reason := .unknownCondition s, property := property.plain, fragment := whole } := by
  have hne : (walk property context value).stopped ≠ none := mt stopped_walk_eq_none_iff.mp h
  obtain ⟨failure, hstopped⟩ := Option.ne_none_iff_exists'.mp hne
  have hfirst := stopped_walk_eq.symm.trans hstopped
  obtain ⟨⟨key, whole⟩, -, rfl⟩ := Option.map_eq_some_iff.mp hfirst
  cases key with
  | text s => exact ⟨s, whole, by rw [Walk.toOutcome, Walk.finish, hstopped]; rfl⟩
  | number n => exact absurd hstopped (stopped_walk hkeys)

/-- The leaves and the conditions on the way are the same, but for which pseudo selectors stand in
front of which at-rules. -/
structure Route.Alike (r s : Route) : Prop where
  leaf : r.leaf = s.leaf
  pseudos : Context.marked ':' r.keys = Context.marked ':' s.keys
  atRules : Context.marked '@' r.keys = Context.marked '@' s.keys

lemma Route.Alike.met_eq {r s : Route} (h : r.Alike s) : r.met context = s.met context := by
  rw [met, met, Context.ofKeys, Context.ofKeys, h.leaf, h.pseudos, h.atRules]

end

/-- **Conditional values are flattened by their routes.**  Each route gives one leaf, from left to
right, with its conditions behind the context; how pseudo selectors and at-rules are nested in each
other is lost; the context may be put in front afterwards; and a tree with texts for keys is refused
exactly when a key is no condition. -/
theorem walk_follows_routes (property : Key) (context : Context) (value : Value) :
    (∀ r, r ∈ routes value ↔ IsRoute value r) ∧
      ((routes value).Pairwise fun r s => r.turns < s.turns) ∧
      (value.IsConditional →
        (walk property context value).toOutcome =
            .ok ((routes value).map fun r => (context ++ Context.ofKeys r.keys, r.leaf)) ∧
          ∀ other : Value, other.IsConditional →
            List.Forall₂ Route.Alike (routes value) (routes other) →
              walk property context other = walk property context value) ∧
      walk property context value = (walk property {} value).within context ∧
      (value.HasTextKeys →
        ((∃ r, (walk property context value).toOutcome = reject r ∧ r.kind = .unsupportedValue) ↔
          ∃ entries, value.Holds entries ∧ ∃ e ∈ entries, ¬e.1.IsCondition)) := by
  refine ⟨fun r => mem_routes_iff, pairwise_routes value, fun h => ⟨?_, ?_⟩, ?_, fun hkeys => ?_⟩
  · rw [walk_of_isConditional h]
    rfl
  · intro other hother halike
    have hmet :
        (routes value).map (Route.met context) = (routes other).map (Route.met context) := by
      rw [← List.forall₂_eq_eq_eq, List.forall₂_map_left_iff, List.forall₂_map_right_iff]
      exact halike.imp fun r s hrs => hrs.met_eq
    rw [walk_of_isConditional h, walk_of_isConditional hother, hmet]
  · rw [← walk_append, Context.append_empty]
  · have hnot : (∃ entries, value.Holds entries ∧ ∃ e ∈ entries, ¬e.1.IsCondition) ↔
        ¬value.IsConditional := by
      simp only [Value.IsConditional, not_forall, exists_prop]
    rw [hnot]
    constructor
    · rintro ⟨r, hr, _⟩ h
      rw [walk_of_isConditional h] at hr
      exact absurd hr.symm (reject_ne_ok r _)
    · intro h
      obtain ⟨s, whole, hreject⟩ := toOutcome_walk_of_not_isConditional hkeys h
      exact ⟨_, hreject, rfl⟩

/-- A media query inside a pseudo selector. -/
def hoverFirst : Value :=
  .map [(.text ":hover", .map [(.text "@media print", .int 1), (.text "default", .text "x")])]

/-- The pseudo selector inside the media query. -/
def printFirst : Value :=
  .map [(.text "@media print", .map [(.text ":hover", .int 1)]),
    (.text "default", .map [(.text ":hover", .text "x")])]

/-- A tree with a stray key behind its first leaf. -/
def strayKey : Value :=
  .map [(.text "default", .int 1), (.text "@media print", .map [(.text "hover", .int 2)])]

/-- Two trees with the same leaves, and one that is refused after a leaf was met. -/
theorem walk_follows_routes_of_hoverFirst :
    hoverFirst.IsConditional ∧ printFirst.IsConditional ∧ strayKey.HasTextKeys ∧
      (walk (.text "color") { pseudos := [":focus"] } hoverFirst).toOutcome =
        .ok [({ pseudos := [":focus", ":hover"], atRules := ["@media print"] }, .int 1),
          ({ pseudos := [":focus", ":hover"] }, .text "x")] ∧
      walk (.text "color") { pseudos := [":focus"] } printFirst =
        walk (.text "color") { pseudos := [":focus"] } hoverFirst ∧
      ∃ r, (walk (.text "color") { pseudos := [":focus"] } strayKey).toOutcome = reject r ∧
        r.kind = .unsupportedValue := by
  have hhover : hoverFirst.IsConditional := isConditional_iff.mpr (by decide)
  have hprint : printFirst.IsConditional := isConditional_iff.mpr (by decide)
  have hkeys : strayKey.HasTextKeys := by simp [strayKey, Value.HasTextKeys, HaveTextKeys]
  have halike : List.Forall₂ Route.Alike (routes hoverFirst) (routes printFirst) :=
    .cons ⟨rfl, rfl, rfl⟩ (.cons ⟨rfl, rfl, rfl⟩ .nil)
  have hstray : ∃ entries, strayKey.Holds entries ∧ ∃ e ∈ entries, ¬e.1.IsCondition :=
    ⟨[(.text "hover", .int 2)], .under (List.mem_cons_of_mem _ List.mem_cons_self) .self,
      (.text "hover", .int 2), List.mem_cons_self, by decide⟩
  obtain ⟨-, -, hwalk, -, -⟩ :=
    walk_follows_routes (.text "color") { pseudos := [":focus"] } hoverFirst
  obtain ⟨hleaves, hnesting⟩ := hwalk hhover
  obtain ⟨-, -, -, -, hrefused⟩ :=
    walk_follows_routes (.text "color") { pseudos := [":focus"] } strayKey
  exact ⟨hhover, hprint, hkeys, hleaves, hnesting printFirst hprint halike,
    (hrefused hkeys).mpr hstray⟩

end AtomicStyle
