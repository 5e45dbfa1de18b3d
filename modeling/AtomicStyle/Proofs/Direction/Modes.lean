import AtomicStyle.Proofs.Direction.Mirror

/-!
# The modes of a resolution

An entry of a style can be resolved in four modes: by logical or by physical names, for the one
direction or the other.  This file shows that the mode has a say in names only.

**Values.**  A longhand is emitted under another name in each mode, and its value is made canonical,
and checked, for that name.  But the names are treated alike (`treatedAlike_physicalName`), so what
one mode accepts all modes accept, with the same source value (`exists_resolvesTo`).

**Names.**  No mode gives one name to two longhands of a shorthand (`nodup_names_expand`), so nothing
is merged within one entry, and its declarations match its longhands one by one.

**The mirror.**  So the counterparts of what an entry resolves to are the flipped declarations of the
other direction, also where a flip fails (`items_counterpart_of_resolve`).  Whole styles are another
matter: there a later entry may take the place of an earlier one in one mode only.
-/

namespace AtomicStyle

open Css Property

variable {settings settings' : Settings} {direction direction' : Direction}

/-- The settings, with logical names emitted in the given way. -/
def Settings.within (settings : Settings) (resolution : Resolution) : Settings :=
  { settings with resolution := resolution }

/-! ## Values -/

/-- The names of a longhand in two modes are treated alike. -/
lemma treatedAlike_physicalName (settings settings' : Settings) (direction direction' : Direction)
    (longhand : String) : TreatedAlike (physicalName settings direction longhand)
      (physicalName settings' direction' longhand) := by
  cases h : logical? longhand with
  | some l =>
      rw [physicalName_eq_render h, physicalName_eq_render h]
      exact treatedAlike_of_logical? h _ (render_mem_renderings settings direction l) _
        (render_mem_renderings settings' direction' l)
  | none =>
      rw [physicalName_eq_self h, physicalName_eq_self h]
      exact .refl longhand

/-- The declarations come from one longhand and one source value. -/
def SameSource (d e : Declaration) : Prop :=
  d.origin = e.origin ∧ d.sourceValue = e.sourceValue

/-- **A longhand that is resolved in one mode is resolved in each, from the same source.** -/
theorem exists_resolvesTo (hstrict : settings.strictValues = settings'.strictValues)
    {l : String × Value} {d : Declaration} (hd : ResolvesTo settings direction l d) :
    ∃ e, ResolvesTo settings' direction' l e ∧ SameSource d e := by
  obtain ⟨text, htext, horigin, _, hsource, _⟩ := exists_text_of_resolvesTo hd
  have hname := treatedAlike_physicalName settings settings' direction direction' l.1
  have htext' := valueText_of_treatedAlike hname htext
  rw [hstrict] at htext'
  have he : ∃ e, ResolvesTo settings' direction' l e := ⟨_, bind_eq_ok.mpr ⟨text, htext', rfl⟩⟩
  obtain ⟨e, he⟩ := he
  obtain ⟨text', hagain, horigin', _, hsource', _⟩ := exists_text_of_resolvesTo he
  obtain rfl : text = text' := Except.ok.inj (htext'.symm.trans hagain)
  exact ⟨e, he, horigin.trans horigin'.symm, hsource.trans hsource'.symm⟩

/-! ## Names -/

/-- An entry stands for itself, or for all longhands of its shorthand in order. -/
lemma map_fst_expand (property : String) (value : Value) :
    (expand property value).map Prod.fst = [property] ∨
      ∃ s, shorthand? property = some s ∧ (expand property value).map Prod.fst = s.longhands := by
  have hlength : ∀ {s count layout}, shorthand? property = some s →
      s.layout? count = some layout → layout.length = s.longhands.length := by
    have hall : ∀ e ∈ shorthands, e.2.longhands.length = if e.2.kind = .box then 4 else 2 := by
      decide
    intro s count layout hs h
    rw [hall _ (mem_of_lookup_eq_some hs)]
    unfold Shorthand.layout? at h
    split at h <;> simp_all <;> subst h <;> rfl
  unfold expand
  split
  case h_1 => exact Or.inl rfl
  case h_2 s text hs =>
      cases hdeal : dealOut? s text with
      | none => exact Or.inl rfl
      | some dealt =>
          refine Or.inr ⟨s, hs, ?_⟩
          unfold dealOut? at hdeal
          dsimp only at hdeal
          split at hdeal
          case h_1 => cases hdeal
          case h_2 layout hlayout =>
              split_ifs at hdeal
              obtain rfl := Option.some.inj hdeal
              rw [Option.getD_some, List.map_map]
              exact List.map_fst_zip (hlength hs hlayout).ge
  case h_3 s hs _ =>
      refine Or.inr ⟨s, hs, ?_⟩
      rw [List.map_map]
      exact List.map_id _

/-- No mode gives one name to two longhands of a shorthand. -/
lemma nodup_names_of_shorthand? {property : String} {s : Shorthand}
    (h : shorthand? property = some s) :
    (s.longhands.map (physicalName settings direction)).Nodup := by
  -- the name depends on the settings by the way of naming only, so four modes are looked at
  have hall : ∀ e ∈ shorthands, ∀ resolution ∈ [Resolution.logical, .physical],
      ∀ direction ∈ [Direction.ltr, .rtl],
        (e.2.longhands.map (physicalName { resolution := resolution } direction)).Nodup := by
    decide +kernel
  refine hall _ (mem_of_lookup_eq_some h) settings.resolution ?_ direction ?_
  · cases settings.resolution <;> simp
  · cases direction <;> simp

/-- **No mode gives one name to two longhands of an entry.** -/
theorem nodup_names_expand (property : String) (value : Value) :
    (((expand property value).map Prod.fst).map (physicalName settings direction)).Nodup := by
  rcases map_fst_expand property value with hself | ⟨s, hs, hlonghands⟩
  · rw [hself]
    exact List.nodup_singleton _
  · rw [hlonghands]
    exact nodup_names_of_shorthand? hs

/-! ## One entry -/

/-- Declarations are named by what the mode gives their origins, which are the longhands. -/
lemma map_property_of_forall₂ {longhands : List (String × Value)} {ds : List Declaration}
    (h : List.Forall₂ (ResolvesTo settings direction) longhands ds) :
    ds.map Declaration.origin = longhands.map Prod.fst ∧
      ds.map Declaration.property =
        (longhands.map Prod.fst).map (physicalName settings direction) := by
  induction h with
  | nil => exact ⟨rfl, rfl⟩
  | cons hd _ ih =>
      obtain ⟨_, _, horigin, hproperty, _, _⟩ := exists_text_of_resolvesTo hd
      simp only [List.map_cons, horigin, hproperty, ih.1, ih.2]
      exact ⟨trivial, trivial⟩

/-- Nothing is merged within one entry. -/
lemma declarations_ofList_of_forall₂ {property : String} {value : Value} {ds : List Declaration}
    (h : List.Forall₂ (ResolvesTo settings direction) (expand property value) ds) :
    (DeclarationSet.ofList ds).declarations = ds := by
  have hnodup : (([] ++ ds).map Declaration.property).Nodup := by
    rw [List.nil_append, (map_property_of_forall₂ h).2]
    exact nodup_names_expand property value
  rw [DeclarationSet.declarations_ofList, placeAll_of_nodup hnodup, List.nil_append]

/-- What an entry resolves to matches its longhands one by one. -/
theorem forall₂_of_resolve {name : String} {value : Value} {s : DeclarationSet}
    (h : resolve settings direction name value = .ok s) :
    checkKnown settings name value = .ok () ∧
      List.Forall₂ (ResolvesTo settings direction) (expand (dashed name) value) s.declarations := by
  obtain ⟨hknown, ds, hmatch, rfl⟩ := resolve_eq_ok.mp h
  rw [declarations_ofList_of_forall₂ hmatch]
  exact ⟨hknown, hmatch⟩

/-- **An entry that is resolved in one mode is resolved in each**, from the same sources in the same
order. -/
theorem exists_resolve {resolution : Resolution} {name : String} {value : Value}
    {s : DeclarationSet} (h : resolve (settings.within resolution) direction name value = .ok s)
    (resolution' : Resolution) (direction' : Direction) :
    ∃ s', resolve (settings.within resolution') direction' name value = .ok s' ∧
      List.Forall₂ SameSource s.declarations s'.declarations := by
  obtain ⟨hknown, hmatch⟩ := forall₂_of_resolve h
  have hstrict : (settings.within resolution).strictValues =
      (settings.within resolution').strictValues := rfl
  obtain ⟨es, hes, hsame⟩ := exists_forall₂_of_forall₂ (fun _ _ hd => exists_resolvesTo hstrict hd)
    hmatch
  refine ⟨.ofList es, resolve_eq_ok.mpr ⟨hknown, es, hes, rfl⟩, ?_⟩
  rw [declarations_ofList_of_forall₂ hes]
  exact hsame

/-! ## The mirror -/

/-- The property and the value of a declaration. -/
def Declaration.item (d : Declaration) : String × String :=
  (d.property, d.value)

/-- A declaration with its value flipped as far as the settings ask for it. -/
def flipDeclaration (settings : Settings) (d : Declaration) : Outcome Declaration := do
  let value ← settings.flip d.property d.value.toList
  pure { d with value := String.ofList value }

/-- A counterpart reads like what reads like the turned declaration, flipped. -/
lemma item_counterpartDeclaration {d e : Declaration}
    (hproperty : (turned settings d).property = e.property)
    (hvalue : (turned settings d).value = e.value) :
    Declaration.item <$> counterpartDeclaration settings d =
      Declaration.item <$> flipDeclaration settings e := by
  have hrun : counterpartDeclaration settings d = flipDeclaration settings (turned settings d) :=
    counterpartDeclaration_eq d
  rw [hrun, flipDeclaration, flipDeclaration, hproperty, hvalue]
  cases settings.flip e.property e.value.toList <;> rfl

/-- **The counterparts of what an entry resolves to are what it resolves to for the other direction,
with each value flipped**, and they fail where a flip fails. -/
theorem items_counterpart_of_resolve {name : String} {value : Value} {s r : DeclarationSet}
    (hs : resolve settings .ltr name value = .ok s)
    (hr : resolve settings .rtl name value = .ok r) :
    DeclarationSet.items <$> counterpart settings s =
      List.map Declaration.item <$> flipAll settings r := by
  have hturned : List.Forall₂ (fun d e => Declaration.item <$> counterpartDeclaration settings d =
      Declaration.item <$> flipDeclaration settings e) s.declarations r.declarations := by
    refine forall₂_of_common (fun _ d e hd he => ?_) (forall₂_of_resolve hs).2
      (forall₂_of_resolve hr).2
    obtain ⟨hproperty, hvalue⟩ := turned_of_resolvesTo hd he
    exact item_counterpartDeclaration hproperty hvalue
  have hitems : DeclarationSet.items <$> counterpart settings s =
      List.map Declaration.item <$> s.declarations.mapM (counterpartDeclaration settings) := by
    unfold counterpart
    cases s.declarations.mapM (counterpartDeclaration settings) with
    | error e => rfl
    | ok ds =>
        refine congrArg Except.ok ?_
        rw [DeclarationSet.items, DeclarationSet.declarations_ofList_false]
        rfl
  rw [hitems]
  exact map_mapM_of_forall₂ hturned

/-! ## All modes -/

lemma map_origin_of_sameSource {ds es : List Declaration} (h : List.Forall₂ SameSource ds es) :
    es.map Declaration.origin = ds.map Declaration.origin ∧
      es.map Declaration.sourceValue = ds.map Declaration.sourceValue := by
  induction h with
  | nil => exact ⟨rfl, rfl⟩
  | cons hde _ ih =>
      simp only [List.map_cons, hde.1, hde.2, ih.1, ih.2]
      exact ⟨trivial, trivial⟩

/-- **The mode of a resolution has a say in names only.**  An entry is refused in all four modes, or
it is resolved in all of them to as many declarations, from the same origins and the same source
values in the same order, and each is named by what the mode gives its origin.  The counterparts of
what it resolves to from left to right are the flipped declarations from right to left. -/
theorem resolve_modes (settings : Settings) (name : String) (value : Value) :
    (∀ resolution direction s,
        resolve (settings.within resolution) direction name value ≠ .ok s) ∨
      ∃ (fragment : Resolution → Direction → DeclarationSet) (origins sources : List String),
        (∀ resolution direction,
          resolve (settings.within resolution) direction name value =
              .ok (fragment resolution direction) ∧
            (fragment resolution direction).size = origins.length ∧
            (fragment resolution direction).declarations.map Declaration.origin = origins ∧
            (fragment resolution direction).declarations.map Declaration.sourceValue = sources ∧
            (fragment resolution direction).properties =
              origins.map (physicalName (settings.within resolution) direction)) ∧
        ∀ resolution,
          DeclarationSet.items <$>
              counterpart (settings.within resolution) (fragment resolution .ltr) =
            List.map Declaration.item <$>
              flipAll (settings.within resolution) (fragment resolution .rtl) := by
  by_cases h : ∃ resolution direction s,
      resolve (settings.within resolution) direction name value = .ok s
  · obtain ⟨resolution, direction, s, hs⟩ := h
    choose fragment hfragment hsame using exists_resolve hs
    refine Or.inr ⟨fragment, s.declarations.map Declaration.origin,
      s.declarations.map Declaration.sourceValue, fun resolution direction => ?_, fun resolution => ?_⟩
    · obtain ⟨horigins, hsources⟩ := map_origin_of_sameSource (hsame resolution direction)
      have hnames := map_property_of_forall₂ (forall₂_of_resolve (hfragment resolution direction)).2
      refine ⟨hfragment resolution direction, ?_, horigins, hsources, ?_⟩
      · rw [DeclarationSet.size, ← horigins, List.length_map]
      · rw [DeclarationSet.properties, hnames.2, ← hnames.1, horigins]
    · exact items_counterpart_of_resolve (hfragment resolution .ltr) (hfragment resolution .rtl)
  · exact Or.inl fun resolution direction s hs => h ⟨resolution, direction, s, hs⟩

end AtomicStyle
