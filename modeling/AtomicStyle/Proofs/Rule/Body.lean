import AtomicStyle.Proofs.Direction.Modes
import AtomicStyle.Proofs.Property.Body

/-!
# Declarations without a value

Nothing is left of some values, and their declarations are emitted with an importance mark only, or
with nothing at all.  Which are they?  The canonical text of a value tells (`body_valueText`), and
rendering it for a direction changes nothing about it: a keyword takes the place of a keyword
(`body_physicalValue`).  So it is for each longhand of an entry as for its value
(`body_of_resolve`).
-/

namespace AtomicStyle

open Css Property

variable {settings : Settings} {direction : Direction}

/-- The value of a declaration without its importance mark. -/
def Declaration.body (d : Declaration) : List Char :=
  (splitImportance d.value.toList).1

/-- A rendered keyword is a word, and no mark. -/
lemma body_of_logicalKeyword? {keyword : String} {l : Logical}
    (h : logicalKeyword? keyword = some l) (important : Bool) :
    ∀ name ∈ l.renderings, name.toList ≠ [] ∧ (∀ c ∈ name.toList, Text.isBlank c = false) ∧
      (splitImportance (attachImportance name.toList important)).1 = name.toList := by
  -- the blanks are asked for by `List.all`: deciding `∀ c ∈ _` may go through all characters
  have hall : ∀ e ∈ logicalKeywords, ∀ name ∈ e.2.renderings, ∀ important,
      name.toList ≠ [] ∧ (name.toList.all fun c => !Text.isBlank c) = true ∧
        (splitImportance (attachImportance name.toList important)).1 = name.toList := by
    decide +kernel
  intro name hname
  obtain ⟨hne, hblank, hbody⟩ := hall _ (mem_of_lookup_eq_some h) name hname important
  exact ⟨hne, fun c hc => by simpa using List.all_eq_true.mp hblank c hc, hbody⟩

/-- **Rendering empties no body and fills none.** -/
theorem body_physicalValue (settings : Settings) (direction : Direction) (property : String)
    {value : List Char} (h : Text.IsTrimmed (splitImportance value).1) :
    Text.IsTrimmed (splitImportance (physicalValue settings direction property value)).1 ∧
      ((splitImportance (physicalValue settings direction property value)).1 = [] ↔
        (splitImportance value).1 = []) := by
  by_cases hkeyword : ∃ l, takesLogicalKeyword property = true ∧
      logicalKeyword? (String.ofList (Text.lower (splitImportance value).1)) = some l
  · obtain ⟨l, htakes, hl⟩ := hkeyword
    obtain ⟨hne, hblank, hbody⟩ := body_of_logicalKeyword? hl (splitImportance value).2 _
      (render_mem_renderings settings direction l)
    rw [physicalValue_eq_render htakes hl, hbody]
    refine ⟨Text.isTrimmed_of_forall hblank, iff_of_false hne fun hnil => ?_⟩
    -- no keyword is empty
    have hnone : logicalKeyword? (String.ofList (Text.lower [])) = none := by decide +kernel
    rw [hnil, hnone] at hl
    cases hl
  · rw [physicalValue_eq_self fun htakes => Option.eq_none_iff_forall_ne_some.mpr fun l hl =>
      hkeyword ⟨l, htakes, hl⟩]
    exact ⟨h, Iff.rfl⟩

lemma body_of_resolvesTo {l : String × Value} {d : Declaration}
    (h : ResolvesTo settings direction l d) :
    Text.IsTrimmed d.body ∧ (d.body = [] ↔ LeavesNothing d.property l.2) := by
  obtain ⟨text, htext, -, hproperty, -, hvalue⟩ := exists_text_of_resolvesTo h
  obtain ⟨htrimmed, hleaves⟩ := body_valueText htext
  obtain ⟨hrendered, hempty⟩ :=
    body_physicalValue settings direction d.property htrimmed
  rw [Declaration.body, hvalue, String.toList_ofList, hempty, hleaves, hproperty]
  rw [hproperty] at hrendered
  exact ⟨hrendered, Iff.rfl⟩

/-- **What an entry leaves in its declarations.**  The body of each declaration is trimmed, and it is
empty exactly when the value of its longhand leaves nothing. -/
theorem body_of_resolve {name : String} {value : Value} {s : DeclarationSet}
    (h : resolve settings direction name value = .ok s) :
    (∀ d ∈ s.declarations, Text.IsTrimmed d.body) ∧
      List.Forall₂ (fun l d => d.body = [] ↔ LeavesNothing d.property l.2)
        (expand (dashed name) value) s.declarations := by
  obtain ⟨-, hds⟩ := forall₂_of_resolve h
  refine ⟨fun d hd => ?_, hds.imp fun l d hld => (body_of_resolvesTo hld).2⟩
  obtain ⟨l, -, hld⟩ := exists_of_mem_forall₂ hds hd
  exact (body_of_resolvesTo hld).1

/-- A mark alone leaves nothing, and its declaration has no value. -/
theorem body_of_resolve_mark :
    ∃ d : Declaration, resolve {} .ltr "width" (.text "! important") = .ok { declarations := [d] } ∧
      d.value = " !important" ∧ Text.IsTrimmed d.body ∧ d.body = [] ∧
        LeavesNothing "width" (.text "! important") := by
  have hresolve : resolve {} .ltr "width" (.text "! important") =
      .ok { declarations := [⟨"width", " !important", "width", none⟩] } :=
    eq_ok_of_toOption (by decide +kernel)
  obtain ⟨htrimmed, hleaves⟩ := body_of_resolve hresolve
  have hempty : Declaration.body ⟨"width", " !important", "width", none⟩ = [] := by decide +kernel
  obtain ⟨hiff, -⟩ := List.forall₂_cons.mp hleaves
  exact ⟨_, hresolve, rfl, htrimmed _ List.mem_cons_self, hempty, hiff.mp hempty⟩

/-- So does a mark among the components of a margin, and a comma among names. -/
example : (resolve {} .ltr "margin" (.text "!important 1px")).toOption.map
      (fun s => s.declarations.map Declaration.body) =
        some [[], ['1', 'p', 'x'], [], ['1', 'p', 'x']] ∧
    (resolve {} .ltr "willChange" (.text ",")).toOption.map
      (fun s => s.declarations.map Declaration.value) = some [""] := by
  decide +kernel

end AtomicStyle
