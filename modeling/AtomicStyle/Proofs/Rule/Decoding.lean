import AtomicStyle.Proofs.Number.Numeral
import AtomicStyle.Proofs.Rule.Parts
import AtomicStyle.Proofs.Rule.Recompilation
import Mathlib.Data.List.Basic

/-!
# Decoding the hashed text

The text that an identifier is derived from is a bare concatenation: declarations, pseudo selectors,
at-rules, with nothing between them.  How much of the rule can be told from it?

**Cuts.**  Values may hold semicolons and at signs, and a property name may hold anything, so no
declaration can be cut off from the front.  But the last semicolon of the text ends the declarations
if the context has none, and the first at sign behind it begins the at-rules if the pseudo selectors
have none.  `Context.Legible` asks for both, and that each at-rule has one at sign.

**Decoding.**  What the cuts leave is all that the left-to-right text of a rule is made of besides
its name (`parts_eq_of_canonicalText_eq`, `ltr_eq_of_canonicalText_eq`): neither the declarations one
by one nor the pseudo selectors one by one are needed.

**Collisions.**  A name is the digest of that text in base 36, and a numeral is read back.  So rules
of one name and different texts are a collision of the digest on two sequences of bytes.
-/

namespace AtomicStyle

open Css Property

/-! ## Cuts -/

/-- Texts are told apart at the last mark in them. -/
lemma eq_of_append_last {mark : Char} {a b x y : List Char} (hx : mark ∉ x) (hy : mark ∉ y)
    (h : a ++ mark :: x = b ++ mark :: y) : a = b ∧ x = y := by
  have hreverse := congrArg List.reverse h
  simp only [List.reverse_append, List.reverse_cons, List.append_assoc, List.singleton_append]
    at hreverse
  have hx : mark ∉ x.reverse := by simpa using hx
  have hy : mark ∉ y.reverse := by simpa using hy
  obtain ⟨hxy, hab⟩ := eq_of_append_of_begins hx hy (by simp) (by simp) hreverse
  exact ⟨List.reverse_inj.mp (List.cons.inj hab).2, List.reverse_inj.mp hxy⟩

/-- What is joined from texts that begin with a mark begins with it. -/
lemma begins_of_join {mark : Char} {texts : List String}
    (h : ∀ t ∈ texts, t.toList.head? = some mark ∧ mark ∉ t.toList.tail) :
    ∀ c ∈ (String.join texts).toList.head?, c = mark := by
  intro c hc
  cases texts with
  | nil => simp at hc
  | cons t texts =>
      rw [String.toList_join, List.flatMap_cons, List.head?_append,
        (h t List.mem_cons_self).1] at hc
      exact (Option.some.inj hc).symm

/-- Texts that each begin with the only mark in them are told apart one by one. -/
lemma eq_of_join_eq {mark : Char} {as bs : List String}
    (ha : ∀ a ∈ as, a.toList.head? = some mark ∧ mark ∉ a.toList.tail)
    (hb : ∀ b ∈ bs, b.toList.head? = some mark ∧ mark ∉ b.toList.tail)
    (h : (String.join as).toList = (String.join bs).toList) : as = bs := by
  have hcons : ∀ {t : String}, t.toList.head? = some mark → t.toList = mark :: t.toList.tail :=
    fun ht => List.eq_cons_of_mem_head? ht
  induction as generalizing bs with
  | nil =>
      cases bs with
      | nil => rfl
      | cons b bs =>
          rw [String.toList_join, String.toList_join, List.flatMap_cons,
            hcons (hb b List.mem_cons_self).1] at h
          cases h
  | cons a as ih =>
      cases bs with
      | nil =>
          rw [String.toList_join, String.toList_join, List.flatMap_cons,
            hcons (ha a List.mem_cons_self).1] at h
          cases h
      | cons b bs =>
          obtain ⟨⟨hafirst, hatail⟩, ha⟩ := List.forall_mem_cons.mp ha
          obtain ⟨⟨hbfirst, hbtail⟩, hb⟩ := List.forall_mem_cons.mp hb
          simp only [String.toList_join, List.flatMap_cons] at h
          rw [hcons hafirst, hcons hbfirst, ← String.toList_join, ← String.toList_join] at h
          obtain ⟨hab, hrest⟩ := eq_of_append_of_begins hatail hbtail (begins_of_join ha)
            (begins_of_join hb)
            (List.cons.inj h).2
          rw [ih ha hb hrest, String.toList_inj.mp ((hcons hafirst).trans
            ((congrArg (mark :: ·) hab).trans (hcons hbfirst).symm))]

/-! ## Legible contexts -/

/-- No semicolon is in the context, and an at sign only where an at-rule begins. -/
structure Context.Legible (context : Context) : Prop where
  pseudos : ∀ p ∈ context.pseudos, ';' ∉ p.toList ∧ '@' ∉ p.toList
  atRules : ∀ a ∈ context.atRules, ';' ∉ a.toList ∧ '@' ∉ a.toList.tail

instance (context : Context) : Decidable context.Legible :=
  decidable_of_iff ((∀ p ∈ context.pseudos, ';' ∉ p.toList ∧ '@' ∉ p.toList) ∧
      ∀ a ∈ context.atRules, ';' ∉ a.toList ∧ '@' ∉ a.toList.tail)
    ⟨fun h => ⟨h.1, h.2⟩, fun h => ⟨h.pseudos, h.atRules⟩⟩

/-- An at-rule in its canonical spelling begins with its mark. -/
lemma Context.head?_of_mem_atRules {context tidied : Context} (h : context.tidy = .ok tidied)
    {a : String} (ha : a ∈ tidied.atRules) : a.toList.head? = some '@' :=
  (tidy_eq_ok.mp h).2.2 a ha

lemma Context.Legible.semicolon_not_mem {context : Context} (h : context.Legible) :
    ';' ∉ (String.join context.pseudos).toList ++ (String.join context.atRules).toList := by
  intro hmem
  rcases List.mem_append.mp hmem with hmem | hmem
  · obtain ⟨p, hp, hc⟩ := Text.mem_toList_join hmem
    exact (h.pseudos p hp).1 hc
  · obtain ⟨a, ha, hc⟩ := Text.mem_toList_join hmem
    exact (h.atRules a ha).1 hc

/-! ## Decoding -/

lemma exists_emitDeclarations_eq {s : DeclarationSet} (h : s.declarations ≠ []) :
    ∃ front, (emitDeclarations s).toList = front ++ [';'] := by
  obtain ⟨ds, d, hds⟩ := (List.eq_nil_or_concat' s.declarations).resolve_left h
  refine ⟨terminated (ds.map Declaration.piece) ++ d.piece, ?_⟩
  rw [toList_emitDeclarations, hds, terminated, terminated]
  simp

section

variable {settings : Settings} {context₁ context₂ tidied₁ tidied₂ : Context}
  {style₁ style₂ : Value} {s₁ s₂ : DeclarationSet} {r₁ r₂ : Rule}

/-- The hashed texts of sets with declarations are cut into the three parts that they were joined
from, and the last part into its at-rules. -/
theorem parts_eq_of_canonicalText_eq (hs₁ : s₁.declarations ≠ []) (hs₂ : s₂.declarations ≠ [])
    (htidied₁ : context₁.tidy = .ok tidied₁) (htidied₂ : context₂.tidy = .ok tidied₂)
    (hlegible₁ : tidied₁.Legible) (hlegible₂ : tidied₂.Legible)
    (h : canonicalText s₁ tidied₁ = canonicalText s₂ tidied₂) :
    emitDeclarations s₁ = emitDeclarations s₂ ∧
      String.join tidied₁.pseudos = String.join tidied₂.pseudos ∧
        tidied₁.atRules = tidied₂.atRules := by
  have hat : ∀ {context tidied : Context}, context.tidy = .ok tidied → tidied.Legible →
      ∀ a ∈ tidied.atRules, a.toList.head? = some '@' ∧ '@' ∉ a.toList.tail :=
    fun htidied hlegible a ha => ⟨Context.head?_of_mem_atRules htidied ha, (hlegible.atRules a ha).2⟩
  have hpseudos : ∀ {tidied : Context}, tidied.Legible → '@' ∉ (String.join tidied.pseudos).toList := by
    intro tidied hlegible hmem
    obtain ⟨p, hp, hc⟩ := Text.mem_toList_join hmem
    exact (hlegible.pseudos p hp).2 hc
  obtain ⟨front₁, hfront₁⟩ := exists_emitDeclarations_eq hs₁
  obtain ⟨front₂, hfront₂⟩ := exists_emitDeclarations_eq hs₂
  have htext := congrArg String.toList h
  simp only [canonicalText, String.toList_append, hfront₁, hfront₂, List.append_assoc,
    List.singleton_append] at htext
  obtain ⟨hfront, hrest⟩ := eq_of_append_last hlegible₁.semicolon_not_mem
    hlegible₂.semicolon_not_mem htext
  obtain ⟨hjoined, hrules⟩ := eq_of_append_of_begins (hpseudos hlegible₁) (hpseudos hlegible₂)
    (begins_of_join (hat htidied₁ hlegible₁)) (begins_of_join (hat htidied₂ hlegible₂)) hrest
  refine ⟨?_, String.toList_inj.mp hjoined, ?_⟩
  · rw [← String.toList_inj, hfront₁, hfront₂, hfront]
  · exact eq_of_join_eq (hat htidied₁ hlegible₁) (hat htidied₂ hlegible₂) hrules

/-! ## Collisions -/

/-- The bytes that the digest of a text is taken of. -/
def hashedBytes (text : String) : List UInt8 :=
  (digestTag ++ text).toUTF8.toList

/-- Two sequences of bytes that the digest does not tell apart. -/
def Collide (a b : List UInt8) : Prop :=
  a ≠ b ∧ Murmur.murmur digestSeed a = Murmur.murmur digestSeed b

/-- The bytes of an array are listed in order. -/
lemma toList_eq_data_toList (bytes : ByteArray) : bytes.toList = bytes.data.toList := by
  have hloop : ∀ i read, ByteArray.toList.loop bytes i read =
      read.reverse ++ bytes.data.toList.drop i := by
    intro i read
    fun_induction ByteArray.toList.loop bytes i read with
    | case1 i read hi ih =>
        have hi : i < bytes.data.toList.length := hi
        rw [ih, List.reverse_cons, List.append_assoc, List.singleton_append,
          List.drop_eq_getElem_cons hi]
        congr 2
        simp [ByteArray.get!, getElem!_pos bytes.data i hi]
    | case2 i read hi =>
        have hi : bytes.data.toList.length ≤ i := Nat.not_lt.mp hi
        rw [List.drop_eq_nil_of_le hi, List.append_nil]
  exact hloop 0 []

/-- Different texts are hashed from different bytes. -/
lemma hashedBytes_injective : Function.Injective hashedBytes := by
  intro a b h
  rw [hashedBytes, hashedBytes, toList_eq_data_toList, toList_eq_data_toList] at h
  have htexts : digestTag ++ a = digestTag ++ b :=
    String.toByteArray_inj.mp (ByteArray.ext (Array.toList_inj.mp h))
  have hchars := congrArg String.toList htexts
  rw [String.toList_append, String.toList_append] at hchars
  exact String.toList_inj.mp (List.append_cancel_left hchars)

/-- One name is one digest. -/
lemma murmur_eq_of_identifier_eq {category : Category} {a b front : String}
    (h : identifier category a front = identifier category b front) :
    Murmur.murmur digestSeed (hashedBytes a) = Murmur.murmur digestSeed (hashedBytes b) := by
  have hdigest : digestText (digestTag ++ a) = digestText (digestTag ++ b) :=
    List.append_cancel_left (List.append_cancel_right (String.ofList_injective h))
  have hnumber := Numeral.encode_injective (by decide) (by decide) hdigest
  exact UInt32.toNat_inj.mp hnumber

/-- **The hashed text determines the left-to-right text of a rule**, as far as semicolons and at
signs of the context do not blur it.  So two such rules of one name have one text, or the digest
takes two sequences of bytes for one. -/
theorem ltr_eq_of_canonicalText_eq (h₁ : compileBlock settings context₁ style₁ = .ok r₁)
    (h₂ : compileBlock settings context₂ style₂ = .ok r₂)
    (htidied₁ : context₁.tidy = .ok tidied₁) (htidied₂ : context₂.tidy = .ok tidied₂)
    (hs₁ : resolveStyle settings .ltr style₁ = .ok s₁)
    (hs₂ : resolveStyle settings .ltr style₂ = .ok s₂)
    (hlegible₁ : tidied₁.Legible) (hlegible₂ : tidied₂.Legible) :
    (canonicalText s₁ tidied₁ = canonicalText s₂ tidied₂ → r₁.ltr = r₂.ltr) ∧
      (r₁.identifier = r₂.identifier → r₁.ltr ≠ r₂.ltr →
        Collide (hashedBytes (canonicalText s₁ tidied₁))
          (hashedBytes (canonicalText s₂ tidied₂))) := by
  have hne : ∀ {context style r s}, compileBlock settings context style = .ok r →
      resolveStyle settings .ltr style = .ok s → s.declarations ≠ [] := by
    intro context style r s h hs
    cases style with
    | map entries =>
        obtain ⟨entry, rest, rfl⟩ := exists_cons_of_compileBlock h
        exact declarations_ne_nil_of_resolveStyle hs
    | _ => exact absurd h (reject_ne_ok _ _)
  obtain ⟨_, _, other₁, hc₁, hr₁, _, rfl⟩ := exists_of_compileBlock h₁
  obtain ⟨_, _, other₂, hc₂, hr₂, _, rfl⟩ := exists_of_compileBlock h₂
  obtain rfl := Except.ok.inj (htidied₁.symm.trans hc₁)
  obtain rfl := Except.ok.inj (htidied₂.symm.trans hc₂)
  obtain rfl := Except.ok.inj (hs₁.symm.trans hr₁)
  obtain rfl := Except.ok.inj (hs₂.symm.trans hr₂)
  have hltr : canonicalText s₁ tidied₁ = canonicalText s₂ tidied₂ →
      emitRule (identifier .block (canonicalText s₁ tidied₁) settings.classPrefix.text) s₁ tidied₁ =
        emitRule (identifier .block (canonicalText s₂ tidied₂) settings.classPrefix.text) s₂
          tidied₂ := by
    intro htext
    obtain ⟨hdeclarations, hpseudos, hrules⟩ := parts_eq_of_canonicalText_eq (hne h₁ hs₁) (hne h₂ hs₂)
      htidied₁ htidied₂ hlegible₁ hlegible₂ htext
    rw [htext, emitRule, emitRule, emitSelector, emitSelector, hdeclarations, hpseudos, hrules]
  refine ⟨hltr, fun hname hdiffer => ⟨fun hbytes => ?_, murmur_eq_of_identifier_eq hname⟩⟩
  exact hdiffer (hltr (hashedBytes_injective hbytes))

/-- A name that holds a colon and a semicolon reads like two declarations, and two pseudo selectors
like one; the value holds all that the context may not hold. -/
theorem ltr_eq_of_two_readings :
    ∃ (r₁ r₂ : Rule) (tidied₁ tidied₂ : Context) (s₁ s₂ : DeclarationSet),
      compileBlock {} { pseudos := [" :hover", ":focus"], atRules := ["@media  print"] }
          (.map [(.text "a", .text "b"), (.text "quotes", .text "'@;:'")]) = .ok r₁ ∧
        compileBlock {} { pseudos := [":hover:focus"], atRules := ["@media print "] }
          (.map [(.text "a:b;quotes", .text "'@;:' ")]) = .ok r₂ ∧
        tidied₁ ≠ tidied₂ ∧ s₁.items ≠ s₂.items ∧ tidied₁.Legible ∧ tidied₂.Legible ∧
        canonicalText s₁ tidied₁ = canonicalText s₂ tidied₂ ∧ r₁.ltr = r₂.ltr := by
  have hrun : (do
      let r₁ ← compileBlock {} { pseudos := [" :hover", ":focus"], atRules := ["@media  print"] }
        (.map [(.text "a", .text "b"), (.text "quotes", .text "'@;:'")])
      let r₂ ← compileBlock {} { pseudos := [":hover:focus"], atRules := ["@media print "] }
        (.map [(.text "a:b;quotes", .text "'@;:' ")])
      let tidied₁ ← Context.tidy { pseudos := [" :hover", ":focus"], atRules := ["@media  print"] }
      let tidied₂ ← Context.tidy { pseudos := [":hover:focus"], atRules := ["@media print "] }
      let s₁ ← resolveStyle {} .ltr
        (.map [(.text "a", .text "b"), (.text "quotes", .text "'@;:'")])
      let s₂ ← resolveStyle {} .ltr (.map [(.text "a:b;quotes", .text "'@;:' ")])
      pure (decide (tidied₁ ≠ tidied₂), decide (s₁.items ≠ s₂.items), decide tidied₁.Legible,
        decide tidied₂.Legible, decide (canonicalText s₁ tidied₁ = canonicalText s₂ tidied₂))
      : Outcome _) = .ok (true, true, true, true, true) := eq_ok_of_toOption (by decide +kernel)
  simp only [bind_eq_ok, pure_eq_ok, Prod.mk.injEq, decide_eq_true_eq] at hrun
  obtain ⟨r₁, hr₁, r₂, hr₂, tidied₁, ht₁, tidied₂, ht₂, s₁, hs₁, s₂, hs₂, hcontexts, hitems, hl₁, hl₂,
    htext⟩ := hrun
  exact ⟨r₁, r₂, tidied₁, tidied₂, s₁, s₂, hr₁, hr₂, hcontexts, hitems, hl₁, hl₂, htext,
    (ltr_eq_of_canonicalText_eq hr₁ hr₂ ht₁ ht₂ hs₁ hs₂ hl₁ hl₂).1 htext⟩

end

end AtomicStyle
