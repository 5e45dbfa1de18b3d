import Mathlib.Data.List.Forall2
import Mathlib.Tactic.Lemma

/-!
# Lists matched entry by entry

Rendering, turning and flipping treat the declarations of a list one by one.  What holds between
the lists is then what holds between entry and entry, and this file carries it along: from a list
to its entries, past the point where two lists meet, and around the four sides of a square of
matched lists.
-/

namespace AtomicStyle

variable {α β γ δ : Type}

/-! ## Lists -/

/-- Each entry of the one list is matched by an entry of the other. -/
lemma exists_of_mem_forall₂ {R : α → β → Prop} {as : List α} {bs : List β}
    (h : List.Forall₂ R as bs) {b : β} (hb : b ∈ bs) : ∃ a ∈ as, R a b := by
  induction h with
  | nil => simp at hb
  | @cons a b' as bs hab _ ih =>
      rcases List.mem_cons.mp hb with rfl | hb
      · exact ⟨a, List.mem_cons_self, hab⟩
      · obtain ⟨a', ha', hr⟩ := ih hb
        exact ⟨a', List.mem_cons_of_mem a ha', hr⟩

/-- What matches two lists behind each other falls into what matches each. -/
lemma exists_append_of_forall₂ {R : α → β → Prop} {as bs : List α} {cs : List β}
    (h : List.Forall₂ R (as ++ bs) cs) :
    ∃ xs ys, cs = xs ++ ys ∧ List.Forall₂ R as xs ∧ List.Forall₂ R bs ys := by
  induction as generalizing cs with
  | nil => exact ⟨[], cs, rfl, .nil, h⟩
  | cons a as ih =>
      cases h with
      | cons hac hrest =>
          obtain ⟨xs, ys, rfl, hxs, hys⟩ := ih hrest
          exact ⟨_ :: xs, ys, rfl, .cons hac hxs, hys⟩

/-- Matching entries have what all entries of their lists have. -/
lemma forall₂_and_of_forall {R : α → β → Prop} {p : α → Prop} {q : β → Prop} {as : List α}
    {bs : List β} (hp : ∀ a ∈ as, p a) (hq : ∀ b ∈ bs, q b) (h : List.Forall₂ R as bs) :
    List.Forall₂ (fun a b => p a ∧ q b ∧ R a b) as bs := by
  have hright : List.Forall₂ (fun b a => q b ∧ R a b) bs as :=
    (List.forall₂_and_left _ _).mpr ⟨hq, List.Forall₂.flip h⟩
  exact (List.forall₂_and_left _ _).mpr ⟨hp, List.Forall₂.flip hright⟩

/-- Lists look alike exactly if their entries do, one by one. -/
lemma map_eq_map_iff_forall₂ {f : α → γ} {g : β → γ} {as : List α} {bs : List β} :
    as.map f = bs.map g ↔ List.Forall₂ (fun a b => f a = g b) as bs := by
  rw [← List.forall₂_eq_eq_eq, List.forall₂_map_left_iff, List.forall₂_map_right_iff]

/-- What one list is matched with, in two ways, matches. -/
lemma forall₂_of_common {R : α → β → Prop} {S : α → γ → Prop} {T : β → γ → Prop}
    (hT : ∀ a b c, R a b → S a c → T b c) {as : List α} {bs : List β} {cs : List γ}
    (h : List.Forall₂ R as bs) (k : List.Forall₂ S as cs) : List.Forall₂ T bs cs := by
  induction h generalizing cs with
  | nil =>
      cases k
      exact .nil
  | cons hab _ ih =>
      cases k with
      | cons hac k => exact .cons (hT _ _ _ hab hac) (ih k)

/-- What can be found entry by entry, for both sides of a match, can be found for the lists. -/
lemma exists_forall₂_of_forall₂ {R : α → β → Prop} {S : α → γ → Prop} {T : β → γ → Prop}
    (hfind : ∀ a b, R a b → ∃ c, S a c ∧ T b c) {as : List α} {bs : List β}
    (h : List.Forall₂ R as bs) : ∃ cs, List.Forall₂ S as cs ∧ List.Forall₂ T bs cs := by
  induction h with
  | nil => exact ⟨[], .nil, .nil⟩
  | cons hab _ ih =>
      obtain ⟨c, hac, hbc⟩ := hfind _ _ hab
      obtain ⟨cs, has, hbs⟩ := ih
      exact ⟨c :: cs, .cons hac has, .cons hbc hbs⟩

section

variable {R : α → β → Prop} {S : α → γ → Prop} {T : β → δ → Prop} {P : γ → δ → Prop}
  {as : List α} {bs : List β} {cs : List γ} {ds : List δ}

/-- Between lists matched on either side, what corresponds between entries corresponds between the
lists. -/
lemma forall₂_iff_of_square {Q : α → β → Prop}
    (hPQ : ∀ a b c d, R a b → S a c → T b d → (P c d ↔ Q a b)) (h : List.Forall₂ R as bs)
    (hS : List.Forall₂ S as cs) (hT : List.Forall₂ T bs ds) :
    List.Forall₂ P cs ds ↔ List.Forall₂ Q as bs := by
  induction h generalizing cs ds with
  | nil =>
      cases hS
      cases hT
      exact ⟨fun _ => .nil, fun _ => .nil⟩
  | cons hab _ ih =>
      cases hS with
      | cons hac hS =>
          cases hT with
          | cons hbd hT =>
              rw [List.forall₂_cons, List.forall₂_cons, hPQ _ _ _ _ hab hac hbd, ih hS hT]

/-- Three sides of a square match, and so does the fourth. -/
lemma forall₂_of_square (hP : ∀ a b c d, R a b → S a c → T b d → P c d)
    (h : List.Forall₂ R as bs) (hS : List.Forall₂ S as cs) (hT : List.Forall₂ T bs ds) :
    List.Forall₂ P cs ds := by
  refine (forall₂_iff_of_square (fun a b c d hab hac hbd => ?_) h hS hT).mpr h
  exact iff_of_true (hP a b c d hab hac hbd) hab

/-- Two sides of a square match, and a third can be found. -/
lemma exists_forall₂_of_corner (hT : ∀ a b c, R a b → S a c → ∃ d, T b d)
    (h : List.Forall₂ R as bs) (hS : List.Forall₂ S as cs) : ∃ ds, List.Forall₂ T bs ds := by
  induction h generalizing cs with
  | nil => exact ⟨[], .nil⟩
  | cons hab _ ih =>
      cases hS with
      | cons hac hS =>
          obtain ⟨d, hd⟩ := hT _ _ _ hab hac
          obtain ⟨ds, hds⟩ := ih hS
          exact ⟨d :: ds, .cons hd hds⟩

end

/-! ## What is found in them -/

/-- What is found agrees where matching entries do. -/
lemma map_eq_bind_of_rel {R : α → β → Prop} {f : α → Option γ} {g : β → γ}
    (hfg : ∀ a b, R a b → f a = some (g b)) {x : Option α} {y : Option β}
    (h : Option.Rel R x y) : y.map g = x.bind f := by
  cases h with
  | none => rfl
  | some hab => exact (hfg _ _ hab).symm

/-- Entries that match one after the other match. -/
lemma rel_comp {R : α → β → Prop} {S : β → γ → Prop} {T : α → γ → Prop}
    (hT : ∀ a b c, R a b → S b c → T a c) {x : Option α} {y : Option β} {z : Option γ}
    (h : Option.Rel R x y) (k : Option.Rel S y z) : Option.Rel T x z := by
  cases h with
  | none =>
      cases k with
      | none => exact .none
  | some hab =>
      cases k with
      | some hbc => exact .some (hT _ _ _ hab hbc)

end AtomicStyle
