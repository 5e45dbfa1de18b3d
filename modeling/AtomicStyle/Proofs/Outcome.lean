import AtomicStyle.Failure
import Mathlib.Data.List.Forall2
import Mathlib.Logic.Unique
import Mathlib.Tactic.Lemma
import Mathlib.Tactic.SplitIfs

/-!
# Outcomes

A computation that gives a result is taken apart from the front: its first step gives a result,
and so does what follows on it (`bind_eq_ok`).  A list is run through successfully when every step
is, and then input and output match entry by entry (`mapM_eq_ok`).

One computation *refines* another when every result of the one is a result of the other, and it
refines it *up to* a relation when every result of the one is related to a result of the other.  Two
runs *coincide* when they fail alike or give related results.  A computation *rejects nothing* when
it ends in no rejection, and *faults in* a family when it ends in no fault outside it.  All five pass
from the steps of a computation to the whole (`Refines.bind`, `RefinesUpTo.bind`, `Coincide.bind`,
`RejectsNothing.bind`, `FaultsIn.bind`).
-/

namespace AtomicStyle

variable {α β : Type}

@[simp] lemma reject_ne_ok (r : Rejection) (a : α) : reject r ≠ .ok a := by
  simp [reject]

@[simp] lemma fault_ne_ok (f : Fault) (a : α) : (fault f : Outcome α) ≠ .ok a := by
  simp [fault]

@[simp] lemma pure_eq_ok {a b : α} : (pure a : Outcome α) = .ok b ↔ a = b := by
  simp [pure, Except.pure]

/-- The result of an outcome, where results can be compared and failures cannot. -/
lemma eq_ok_of_toOption {x : Outcome α} {a : α} (h : x.toOption = some a) : x = .ok a := by
  cases x with
  | error e => cases h
  | ok b => exact congrArg Except.ok (Option.some.inj h)

/-- A run that is seen to end well has a result. -/
lemma exists_eq_ok_of_isOk {x : Outcome α} (h : x.isOk = true) : ∃ a, x = .ok a := by
  cases x with
  | error e => cases h
  | ok a => exact ⟨a, rfl⟩

/-- Nothing follows on a rejection. -/
@[simp] lemma reject_bind (r : Rejection) (f : α → Outcome β) : reject r >>= f = reject r := rfl

/-- A check that is passed gives what follows on it. -/
@[simp] lemma ite_reject_eq_ok {p : Prop} [Decidable p] {r : Rejection} {x : Outcome α} {a : α} :
    (if p then reject r else x) = .ok a ↔ ¬p ∧ x = .ok a := by
  by_cases hp : p <;> simp [hp]

/-- A step and what follows give a result exactly when both do. -/
theorem bind_eq_ok {x : Outcome α} {f : α → Outcome β} {b : β} :
    x >>= f = .ok b ↔ ∃ a, x = .ok a ∧ f a = .ok b := by
  cases x with
  | error e => simp [bind, Except.bind]
  | ok a => simp [bind, Except.bind]

/-- A computation is rejected by a step of it, where a step counts if those in front of it give
results. -/
theorem bind_eq_reject {x : Outcome α} {f : α → Outcome β} {r : Rejection} :
    x >>= f = reject r ↔ x = reject r ∨ ∃ a, x = .ok a ∧ f a = reject r := by
  cases x with
  | error e => simp [bind, Except.bind, reject]
  | ok a => simp [bind, Except.bind, reject]

/-- A check that is passed has nothing to say but that. -/
lemma exists_unit {p : Unit → Prop} : (∃ a, p a) ↔ p () :=
  Unique.exists_iff

/-- A list is run through exactly when input and output match entry by entry. -/
theorem mapM_eq_ok {f : α → Outcome β} {as : List α} {bs : List β} :
    as.mapM f = .ok bs ↔ List.Forall₂ (fun a b => f a = .ok b) as bs := by
  induction as generalizing bs with
  | nil => rw [List.mapM_nil, pure_eq_ok, List.forall₂_nil_left_iff, eq_comm]
  | cons a as ih =>
      simp only [List.mapM_cons, bind_eq_ok, pure_eq_ok]
      constructor
      · rintro ⟨b, hb, rest, hrest, rfl⟩
        exact .cons hb (ih.mp hrest)
      · rintro (_ | ⟨hb, hrest⟩)
        exact ⟨_, hb, _, ih.mpr hrest, rfl⟩

/-- Reading the results of a run is reading each result. -/
lemma map_mapM {γ : Type} (f : α → Outcome β) (p : β → γ) (as : List α) :
    List.map p <$> as.mapM f = as.mapM fun a => p <$> f a := by
  induction as with
  | nil => rfl
  | cons a as ih =>
      rw [List.mapM_cons, List.mapM_cons, ← ih]
      cases f a with
      | error e => rfl
      | ok b => cases as.mapM f <;> rfl

/-- Lists are run alike, as far as what is read of the results goes, when their entries are. -/
theorem map_mapM_of_forall₂ {γ δ ε : Type} {f : α → Outcome γ} {g : β → Outcome δ} {p : γ → ε}
    {q : δ → ε} {as : List α} {bs : List β}
    (h : List.Forall₂ (fun a b => p <$> f a = q <$> g b) as bs) :
    List.map p <$> as.mapM f = List.map q <$> bs.mapM g := by
  rw [map_mapM, map_mapM]
  induction h with
  | nil => rfl
  | cons hab _ ih => rw [List.mapM_cons, List.mapM_cons, hab, ih]

/-! ## Refinement -/

/-- Every result of `x` is a result of `y`. -/
def Refines (x y : Outcome α) : Prop :=
  ∀ a, x = .ok a → y = .ok a

lemma Refines.refl (x : Outcome α) : Refines x x := fun _ h => h

/-- A computation is refined step by step. -/
theorem Refines.bind {x y : Outcome α} {f g : α → Outcome β} (h : Refines x y)
    (hfg : ∀ a, Refines (f a) (g a)) : Refines (x >>= f) (y >>= g) := by
  intro b hb
  obtain ⟨a, ha, hb⟩ := bind_eq_ok.mp hb
  exact bind_eq_ok.mpr ⟨a, h a ha, hfg a b hb⟩

/-- A list is run through in a refined way if each entry is. -/
lemma Refines.mapM {f g : α → Outcome β} (h : ∀ a, Refines (f a) (g a)) (as : List α) :
    Refines (as.mapM f) (as.mapM g) := by
  induction as with
  | nil => exact .refl _
  | cons a as ih =>
      rw [List.mapM_cons, List.mapM_cons]
      exact (h a).bind fun b => ih.bind fun bs => .refl _

/-- Every result of `x` is related to a result of `y`. -/
def RefinesUpTo (R : α → β → Prop) (x : Outcome α) (y : Outcome β) : Prop :=
  ∀ a, x = .ok a → ∃ b, y = .ok b ∧ R a b

lemma RefinesUpTo.of_ok {R : α → β → Prop} {a : α} {b : β} (h : R a b) :
    RefinesUpTo R (.ok a) (.ok b) := by
  intro a' ha
  obtain rfl := Except.ok.inj ha
  exact ⟨b, rfl, h⟩

/-- A failure has no result. -/
lemma RefinesUpTo.of_error {R : α → β → Prop} (e : Failure) (y : Outcome β) :
    RefinesUpTo R (.error e) y := fun _ h => nomatch h

/-- **A computation is refined step by step, up to what relates the results of its steps.** -/
theorem RefinesUpTo.bind {γ δ : Type} {R : α → β → Prop} {S : γ → δ → Prop} {x : Outcome α}
    {y : Outcome β} {f : α → Outcome γ} {g : β → Outcome δ} (h : RefinesUpTo R x y)
    (hfg : ∀ a b, R a b → RefinesUpTo S (f a) (g b)) : RefinesUpTo S (x >>= f) (y >>= g) := by
  intro c hc
  obtain ⟨a, ha, hc⟩ := bind_eq_ok.mp hc
  obtain ⟨b, hb, hab⟩ := h a ha
  obtain ⟨d, hd, hcd⟩ := hfg a b hab c hc
  exact ⟨d, bind_eq_ok.mpr ⟨b, hb, hd⟩, hcd⟩

/-- What follows on one step is refined if it is for each result. -/
lemma RefinesUpTo.bind_same {γ δ : Type} {S : γ → δ → Prop} (x : Outcome α) {f : α → Outcome γ}
    {g : α → Outcome δ} (hfg : ∀ a, RefinesUpTo S (f a) (g a)) :
    RefinesUpTo S (x >>= f) (x >>= g) := by
  have hsame : RefinesUpTo Eq x x := fun a ha => ⟨a, ha, rfl⟩
  exact hsame.bind fun a _ hab => hab ▸ hfg a

lemma refinesUpTo_eq_iff {x y : Outcome α} : RefinesUpTo Eq x y ↔ Refines x y := by
  constructor
  · intro h a ha
    obtain ⟨b, hb, rfl⟩ := h a ha
    exact hb
  · exact fun h a ha => ⟨a, h a ha, rfl⟩

/-! ## Two runs compared -/

/-- The failures are one, but for the fragment that a rejection shows. -/
def Failure.Alike : Failure → Failure → Prop
  | .rejected r, .rejected r' =>
    r.reason = r'.reason ∧ r.property = r'.property ∧ r.selector = r'.selector
  | .fault f, .fault f' => f = f'
  | _, _ => False

lemma Failure.Alike.refl (e : Failure) : e.Alike e := by
  cases e with
  | rejected r => exact ⟨rfl, rfl, rfl⟩
  | fault f => rfl

/-- Both runs fail alike, or both give results, which are related. -/
inductive Coincide (R : α → β → Prop) : Outcome α → Outcome β → Prop
  | ok {a : α} {b : β} (h : R a b) : Coincide R (.ok a) (.ok b)
  | error {e e' : Failure} (h : e.Alike e') : Coincide R (.error e) (.error e')

lemma Coincide.refl (x : Outcome α) : Coincide Eq x x := by
  cases x with
  | error e => exact .error (.refl e)
  | ok a => exact .ok rfl

lemma Coincide.eq_ok {x y : Outcome α} (h : Coincide Eq x y) {a : α} (hx : x = .ok a) :
    y = .ok a := by
  subst hx
  cases h with
  | ok hab => rw [hab]

/-- **Runs that coincide step by step coincide.** -/
theorem Coincide.bind {γ δ : Type} {R : α → β → Prop} {S : γ → δ → Prop} {x : Outcome α}
    {y : Outcome β} {f : α → Outcome γ} {g : β → Outcome δ} (h : Coincide R x y)
    (hfg : ∀ a b, R a b → Coincide S (f a) (g b)) : Coincide S (x >>= f) (y >>= g) := by
  cases h with
  | ok hab => exact hfg _ _ hab
  | error he => exact .error he

/-- What follows on one result coincides if it coincides for each. -/
lemma Coincide.bind_eq {S : β → β → Prop} {x y : Outcome α} {f g : α → Outcome β}
    (h : Coincide Eq x y) (hfg : ∀ a, Coincide S (f a) (g a)) : Coincide S (x >>= f) (y >>= g) :=
  h.bind fun a _ hab => hab ▸ hfg a

/-- Lists are run through alike if their entries are. -/
lemma Coincide.mapM {γ : Type} {f : α → Outcome γ} {g : β → Outcome γ} {as : List α}
    {bs : List β} (h : List.Forall₂ (fun a b => Coincide Eq (f a) (g b)) as bs) :
    Coincide Eq (as.mapM f) (bs.mapM g) := by
  induction h with
  | nil => exact .refl _
  | cons hab _ ih =>
      rw [List.mapM_cons, List.mapM_cons]
      exact hab.bind_eq fun c => ih.bind_eq fun cs => .refl _

/-- A check is made by both runs or by neither. -/
lemma Coincide.ite_reject {R : α → β → Prop} {p : Prop} [Decidable p] {r r' : Rejection}
    (hr : Failure.Alike (.rejected r) (.rejected r')) {x : Outcome α} {y : Outcome β}
    (h : Coincide R x y) :
    Coincide R (if p then reject r else x) (if p then reject r' else y) := by
  split_ifs
  · exact .error hr
  · exact h

/-! ## Rejections -/

/-- The rejection that a computation ends in, if it does. -/
def rejection? : Outcome α → Option Rejection
  | .error (.rejected r) => some r
  | _ => none

lemma eq_reject_of_rejection? {x : Outcome α} {r : Rejection} (h : rejection? x = some r) :
    x = reject r := by
  unfold rejection? at h
  split at h
  · exact congrArg reject (Option.some.inj h)
  · cases h

/-- The computation ends in no rejection. -/
def RejectsNothing (x : Outcome α) : Prop :=
  ∀ r, x ≠ reject r

lemma RejectsNothing.of_ok (a : α) : RejectsNothing (.ok a : Outcome α) := fun _ h => nomatch h

lemma RejectsNothing.of_fault (f : Fault) : RejectsNothing (fault f : Outcome α) :=
  fun _ h => nomatch h

/-- What is made of steps that reject nothing rejects nothing. -/
theorem RejectsNothing.bind {x : Outcome α} {f : α → Outcome β} (h : RejectsNothing x)
    (hf : ∀ a, RejectsNothing (f a)) : RejectsNothing (x >>= f) := by
  intro r hr
  rcases bind_eq_reject.mp hr with hx | ⟨a, _, ha⟩
  · exact h r hx
  · exact hf a r ha

lemma RejectsNothing.bind_pure {x : Outcome α} (h : RejectsNothing x) (f : α → β) :
    RejectsNothing (x >>= fun a => pure (f a)) :=
  h.bind fun a => .of_ok (f a)

lemma RejectsNothing.mapM {f : α → Outcome β} (h : ∀ a, RejectsNothing (f a)) (as : List α) :
    RejectsNothing (as.mapM f) := by
  induction as with
  | nil => exact .of_ok []
  | cons a as ih =>
      rw [List.mapM_cons]
      exact (h a).bind fun b => ih.bind_pure (b :: ·)

/-! ## Faults -/

/-- The fault that a computation ends in, if it does. -/
def fault? : Outcome α → Option Fault
  | .error (.fault f) => some f
  | _ => none

/-- Faults can be compared, where results cannot. -/
lemma eq_fault_of_fault? {x : Outcome α} {f : Fault} (h : fault? x = some f) : x = fault f := by
  unfold fault? at h
  split at h
  · exact congrArg fault (Option.some.inj h)
  · cases h

/-- The computation ends in no fault but those of the family. -/
def FaultsIn (P : Fault → Prop) (x : Outcome α) : Prop :=
  ∀ f, x = fault f → P f

section

variable {P Q : Fault → Prop}

lemma FaultsIn.of_ok (a : α) : FaultsIn P (.ok a : Outcome α) := fun _ h => nomatch h

lemma FaultsIn.of_reject (r : Rejection) : FaultsIn P (reject r : Outcome α) :=
  fun _ h => nomatch h

lemma FaultsIn.of_fault {f : Fault} (h : P f) : FaultsIn P (fault f : Outcome α) := by
  intro g hg
  obtain rfl := Failure.fault.inj (Except.error.inj hg)
  exact h

lemma FaultsIn.mono {x : Outcome α} (h : FaultsIn P x) (hPQ : ∀ f, P f → Q f) : FaultsIn Q x :=
  fun f hf => hPQ f (h f hf)

/-- **The faults of a computation are those of its steps**, where a step counts if those in front of
it give results. -/
theorem FaultsIn.bind {x : Outcome α} {f : α → Outcome β} (h : FaultsIn P x)
    (hf : ∀ a, x = .ok a → FaultsIn P (f a)) : FaultsIn P (x >>= f) := by
  cases x with
  | error e => exact fun g hg => h g (congrArg Except.error (Except.error.inj hg))
  | ok a => exact hf a rfl

/-- What is made of a result adds no fault. -/
lemma FaultsIn.bind_pure {x : Outcome α} (h : FaultsIn P x) (f : α → β) :
    FaultsIn P (x >>= fun a => pure (f a)) :=
  h.bind fun a _ => .of_ok (f a)

/-- A check is no fault. -/
lemma FaultsIn.ite_reject {p : Prop} [Decidable p] {r : Rejection} {x : Outcome α}
    (h : FaultsIn P x) : FaultsIn P (if p then reject r else x) := by
  split_ifs
  · exact .of_reject r
  · exact h

lemma FaultsIn.mapM {f : α → Outcome β} {as : List α} (h : ∀ a ∈ as, FaultsIn P (f a)) :
    FaultsIn P (as.mapM f) := by
  induction as with
  | nil => exact .of_ok []
  | cons a as ih =>
      obtain ⟨ha, has⟩ := List.forall_mem_cons.mp h
      rw [List.mapM_cons]
      exact ha.bind fun b _ => (ih has).bind_pure (b :: ·)

/-- A computation gives a result, or is rejected, or ends in a fault of the family. -/
lemma FaultsIn.cases {x : Outcome α} (h : FaultsIn P x) :
    (∃ a, x = .ok a) ∨ (∃ r, x = reject r) ∨ ∃ f, x = fault f ∧ P f := by
  cases x with
  | ok a => exact Or.inl ⟨a, rfl⟩
  | error e =>
      cases e with
      | rejected r => exact Or.inr (Or.inl ⟨r, rfl⟩)
      | fault f => exact Or.inr (Or.inr ⟨f, rfl, h f rfl⟩)

end

end AtomicStyle
