import AtomicStyle.Proofs.Css.Cutting
import AtomicStyle.Proofs.Direction.Safety
import AtomicStyle.Proofs.PlainName
import AtomicStyle.Rule.Emit

/-!
# Separating emitted declarations

Declarations are emitted one behind the other.  Can they be told apart again?  A reader who looks
for the semicolon that ends a declaration skips what is quoted, parenthesised or escaped, as the
scan for a terminator does.

**Names.**  A plain name in front of a value leaves nothing open, so all depends on the value
(`terminator?_piece`, `endsInEscape_piece`).

**Values.**  Every emitted value is safe, but the check lets a value pass that ends in an open
escape, and that escapes the semicolon.  `cutAll?_emitDeclarations` says that nothing else can go
wrong.
-/

namespace AtomicStyle

open Css Property

/-! ## Pieces -/

/-- A declaration as it is emitted, without the semicolon behind it. -/
def Declaration.piece (d : Declaration) : List Char :=
  d.property.toList ++ ':' :: d.value.toList

/-- What is emitted is the pieces with a semicolon behind each. -/
lemma toList_emitDeclarations (s : DeclarationSet) :
    (emitDeclarations s).toList = terminated (s.declarations.map Declaration.piece) := by
  rw [emitDeclarations, DeclarationSet.items, String.toList_join, List.map_map, terminated,
    List.flatMap_map, List.flatMap_map]
  congr 1
  funext d
  simp [emitPair, Declaration.piece]

/-- A value is as safe with a plain name in front of it. -/
lemma terminator?_piece {d : Declaration} (h : isPlainName d.property.toList = true) :
    terminator? d.piece = none ↔ terminator? d.value.toList = none := by
  have hfront : Settled (d.property.toList ++ [':']) :=
    (inert_append.mpr ⟨inert_of_isPlainName h, by decide⟩).settled
  have hpiece : d.piece = d.property.toList ++ [':'] ++ d.value.toList := by
    simp [Declaration.piece]
  rw [hpiece, terminator?_append hfront, Option.map_eq_none_iff]

lemma endsInEscape_piece (d : Declaration) :
    endsInEscape d.piece = endsInEscape d.value.toList :=
  endsInEscape_append_cons_of_ne (by decide) _ _

/-! ## Declarations told apart by their text -/

/-- The text tells the declarations apart, as far as they differ: where their names differ both are
plain, and their values hold equally many semicolons. -/
structure ToldApart (d e : Declaration) : Prop where
  name : d.property = e.property ∨
    isPlainName d.property.toList = true ∧ isPlainName e.property.toList = true
  value : d.value.toList.count ';' = e.value.toList.count ';'

/-- Texts without a mark are told apart in front of what begins with it. -/
lemma eq_of_append_of_begins {mark : Char} {a b x y : List Char} (ha : mark ∉ a) (hb : mark ∉ b)
    (hx : ∀ c ∈ x.head?, c = mark) (hy : ∀ c ∈ y.head?, c = mark) (h : a ++ x = b ++ y) :
    a = b ∧ x = y := by
  induction a generalizing b with
  | nil =>
      cases b with
      | nil => exact ⟨rfl, h⟩
      | cons d ds =>
          have hfirst : x.head? = some d := congrArg List.head? h
          exact absurd (hx d hfirst ▸ List.mem_cons_self) hb
  | cons c cs ih =>
      cases b with
      | nil =>
          have hfirst : y.head? = some c := congrArg List.head? h.symm
          exact absurd (hy c hfirst ▸ List.mem_cons_self) ha
      | cons d ds =>
          obtain ⟨rfl, hrest⟩ := List.cons.inj h
          obtain ⟨rfl, hxy⟩ := ih (fun hc => ha (List.mem_cons_of_mem _ hc))
            (fun hc => hb (List.mem_cons_of_mem _ hc)) hrest
          exact ⟨rfl, hxy⟩

/-- Texts in front of their first colon are told apart. -/
lemma eq_of_append_colon {a b x y : List Char} (ha : ':' ∉ a) (hb : ':' ∉ b)
    (h : a ++ ':' :: x = b ++ ':' :: y) : a = b ∧ x = y := by
  obtain ⟨hab, hrest⟩ := eq_of_append_of_begins ha hb (by simp) (by simp) h
  exact ⟨hab, (List.cons.inj hrest).2⟩

/-- Texts with equally many semicolons are told apart in front of one more. -/
lemma eq_of_append_semicolon {a b x y : List Char} (hcount : a.count ';' = b.count ';')
    (h : a ++ ';' :: x = b ++ ';' :: y) : a = b ∧ x = y := by
  induction a generalizing b with
  | nil =>
      cases b with
      | nil => exact ⟨rfl, (List.cons.inj h).2⟩
      | cons c cs =>
          obtain ⟨rfl, _⟩ := List.cons.inj h
          simp at hcount
  | cons c cs ih =>
      cases b with
      | nil =>
          obtain ⟨rfl, _⟩ := List.cons.inj h
          simp at hcount
      | cons d ds =>
          obtain ⟨rfl, htail⟩ := List.cons.inj h
          rw [List.count_cons, List.count_cons, Nat.add_right_cancel_iff] at hcount
          obtain ⟨rfl, hrest⟩ := ih hcount htail
          exact ⟨rfl, hrest⟩

lemma count_semicolon_of_isPlainName {name : List Char} (h : isPlainName name = true) :
    name.count ';' = 0 := by
  refine List.count_eq_zero.mpr fun hmem => ?_
  exact absurd (inert_of_isPlainName h ';' hmem) (by decide)

/-- A declaration is told by the text that it begins. -/
lemma ToldApart.eq_of_piece_append {d e : Declaration} (h : ToldApart d e) {x y : List Char}
    (htext : d.piece ++ ';' :: x = e.piece ++ ';' :: y) :
    (d.property = e.property ∧ d.value = e.value) ∧ x = y := by
  have hname : d.property.toList.count ';' = e.property.toList.count ';' := by
    rcases h.name with hname | ⟨hd, he⟩
    · rw [hname]
    · rw [count_semicolon_of_isPlainName hd, count_semicolon_of_isPlainName he]
  have hcount : d.piece.count ';' = e.piece.count ';' := by
    simp [Declaration.piece, hname, h.value]
  obtain ⟨hpiece, hrest⟩ := eq_of_append_semicolon hcount htext
  refine ⟨?_, hrest⟩
  rcases h.name with hname | ⟨hd, he⟩
  · rw [Declaration.piece, Declaration.piece, hname] at hpiece
    have hvalue := (List.cons.inj (List.append_cancel_left hpiece)).2
    exact ⟨hname, String.toList_inj.mp hvalue⟩
  · obtain ⟨hname, hvalue⟩ := eq_of_append_colon (colon_not_mem_of_isPlainName hd)
      (colon_not_mem_of_isPlainName he) hpiece
    exact ⟨String.toList_inj.mp hname, String.toList_inj.mp hvalue⟩

/-- **Declarations told apart by their text, one by one, are the same if their texts are**, whatever
stands behind the texts. -/
theorem forall₂_eq_of_terminated {ds es : List Declaration} (h : List.Forall₂ ToldApart ds es)
    {x y : List Char} (htext : terminated (ds.map Declaration.piece) ++ x =
      terminated (es.map Declaration.piece) ++ y) :
    List.Forall₂ (fun d e => d.property = e.property ∧ d.value = e.value) ds es ∧ x = y := by
  induction h with
  | nil => exact ⟨.nil, htext⟩
  | @cons d e ds es hde _ ih =>
      simp only [List.map_cons, terminated_cons, List.append_assoc, List.cons_append] at htext
      obtain ⟨heq, htext⟩ := hde.eq_of_piece_append htext
      obtain ⟨hrest, hxy⟩ := ih htext
      exact ⟨.cons heq hrest, hxy⟩

/-- Sets with the same properties and values, declaration by declaration, have the same items. -/
lemma items_eq_iff {s t : DeclarationSet} :
    s.items = t.items ↔ List.Forall₂ (fun d e => d.property = e.property ∧ d.value = e.value)
      s.declarations t.declarations := by
  simp only [DeclarationSet.items, map_eq_map_iff_forall₂, Prod.mk.injEq]

lemma emitDeclarations_eq_of_items_eq {s t : DeclarationSet} (h : s.items = t.items) :
    emitDeclarations s = emitDeclarations t := by
  rw [emitDeclarations, emitDeclarations, h]

/-- Sets told apart by their text are the same if their texts are, whatever stands behind these. -/
lemma items_eq_of_emitDeclarations_append {s t : DeclarationSet}
    (h : List.Forall₂ ToldApart s.declarations t.declarations) {x y : List Char}
    (htext : (emitDeclarations s).toList ++ x = (emitDeclarations t).toList ++ y) :
    s.items = t.items ∧ x = y := by
  rw [toList_emitDeclarations, toList_emitDeclarations] at htext
  obtain ⟨hsame, hrest⟩ := forall₂_eq_of_terminated h htext
  exact ⟨items_eq_iff.mpr hsame, hrest⟩

/-- **Sets told apart by their text have the same items exactly when their texts are the same.** -/
theorem emitDeclarations_eq_iff {s t : DeclarationSet}
    (h : List.Forall₂ ToldApart s.declarations t.declarations) :
    emitDeclarations s = emitDeclarations t ↔ s.items = t.items := by
  refine ⟨fun htext => ?_, emitDeclarations_eq_of_items_eq⟩
  exact (items_eq_of_emitDeclarations_append (x := []) (y := []) h (by rw [htext])).1

/-! ## Emitted declarations -/

/-- **Emitted declarations can be cut apart again exactly when no value ends in an open escape.**
Cutting at each terminator then finds a semicolon every time, gives the declarations in order and
leaves nothing over. -/
theorem cutAll?_emitDeclarations {settings : Settings} {direction : Direction}
    {entries : List (Key × Value)} {s : DeclarationSet}
    (hnames : ∀ name value, (Key.text name, value) ∈ entries → isSimpleName name.toList = true)
    (h : resolveStyle settings direction (.map entries) = .ok s) :
    cutAll? (emitDeclarations s).toList = some (s.declarations.map Declaration.piece) ↔
      ∀ d ∈ s.declarations, endsInEscape d.value.toList = false := by
  have hsafe : ∀ text ∈ s.declarations.map Declaration.piece, terminator? text = none := by
    intro text htext
    obtain ⟨d, hd, rfl⟩ := List.mem_map.mp htext
    rw [terminator?_piece (isPlainName_of_mem hnames h hd)]
    exact (resolved_of_mem h hd).terminator?_value
  rw [toList_emitDeclarations, cutAll?_terminated_iff hsafe, List.forall_mem_map]
  simp only [endsInEscape_piece]

/-- A quoted semicolon does not end its declaration.  A trailing backslash is accepted and carries
the next declaration into the value. -/
theorem cutAll?_emitDeclarations_backslash :
    ∃ s t : DeclarationSet,
      resolveStyle {} .ltr (.map [(.text "quotes", .text "';'"), (.text "width", .text "1px")]) =
          .ok s ∧
        cutAll? (emitDeclarations s).toList = some ["quotes:';'".toList, "width:1px".toList] ∧
        resolveStyle {} .ltr (.map [(.text "color", .text "red\\"), (.text "width", .text "1px")]) =
          .ok t ∧
        cutAll? (emitDeclarations t).toList ≠ some ["color:red\\".toList, "width:1px".toList] := by
  have hnames : ∀ (a b : String) (v w : Value), isSimpleName a.toList = true →
      isSimpleName b.toList = true → ∀ name value,
        (Key.text name, value) ∈ [(Key.text a, v), (Key.text b, w)] →
          isSimpleName name.toList = true := by
    intro a b v w ha hb name value hmem
    simp only [List.mem_cons, Prod.mk.injEq, Key.text.injEq, List.not_mem_nil, or_false] at hmem
    rcases hmem with ⟨rfl, _⟩ | ⟨rfl, _⟩
    · exact ha
    · exact hb
  have hs := eq_ok_of_toOption (x := resolveStyle {} .ltr
      (.map [(.text "quotes", .text "';'"), (.text "width", .text "1px")]))
    (a := .ofList [⟨"quotes", "';'", "quotes", none⟩, ⟨"width", "1px", "width", none⟩])
    (by decide +kernel)
  have ht := eq_ok_of_toOption (x := resolveStyle {} .ltr
      (.map [(.text "color", .text "red\\"), (.text "width", .text "1px")]))
    (a := .ofList [⟨"color", "red\\", "color", none⟩, ⟨"width", "1px", "width", none⟩])
    (by decide +kernel)
  refine ⟨_, _, hs, ?_, ht, ?_⟩
  · have hcut := cutAll?_emitDeclarations (hnames "quotes" "width" _ _ (by decide) (by decide)) hs
    exact hcut.mpr (by decide)
  · intro h
    have hcut := cutAll?_emitDeclarations (hnames "color" "width" _ _ (by decide) (by decide)) ht
    exact absurd (hcut.mp h) (by decide)

end AtomicStyle
