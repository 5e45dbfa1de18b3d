import AtomicStyle.Document

/-!
# Notes do not decide

Whatever is compiled with its notes has the result that it has without them; the main statement is
`result_compileDocumentIn`.
-/

namespace AtomicStyle

open Compiling Traced

variable {α : Type} {settings : Settings}

/-! ## What a trace does -/

@[simp] theorem result_step (x : Outcome α) : (step x : Trace α).result = x := rfl

@[simp] theorem result_leave (notes : List Note) :
    (leave notes : Trace Unit).result = .ok () := rfl

@[simp] theorem result_note (level : Nat) (text : String) :
    (Compiling.note level text : Trace Unit).result = .ok () := rfl

@[simp] theorem result_noteIf (condition : Bool) (level : Nat) (text : String) :
    (noteIf condition level text : Trace Unit).result = .ok () := rfl

@[simp] theorem result_locate (selector : String) (x : Trace α) :
    (locate selector x).result = atSelector selector x.result :=
  (atSelector_eq_mapError selector x.result).symm

/-! ## Styles -/

theorem result_resolveLonghandsIn (direction : Direction) (name : String)
    (longhands : List (String × Value)) :
    (resolveLonghandsIn settings direction name longhands : Trace _).result =
      resolveLonghandsIn settings direction name longhands := by
  induction longhands with
  | nil => rfl
  | cons longhand rest ih =>
    simp only [resolveLonghandsIn, result_bind, result_step, result_leave, result_pure, ih]
    rfl

theorem result_resolveIn (direction : Direction) (name : String) (value : Value) :
    (resolveIn settings direction name value : Trace _).result =
      resolveIn settings direction name value := by
  simp only [resolveIn, result_bind, result_step, result_noteIf, result_resolveLonghandsIn,
    result_pure]
  rfl

theorem result_resolveEntriesIn (direction : Direction) (before : DeclarationSet)
    (entries : List (Key × Value)) :
    (resolveEntriesIn settings direction before entries : Trace _).result =
      resolveEntriesIn settings direction before entries := by
  induction entries generalizing before with
  | nil => rfl
  | cons entry rest ih =>
    simp only [resolveEntriesIn, result_bind, result_step, result_resolveIn, ih]
    rfl

theorem result_withCounterpartIn (s : DeclarationSet) :
    (withCounterpartIn settings s : Trace _).result = withCounterpartIn settings s := by
  simp only [withCounterpartIn, result_bind, result_step]
  refine bind_congr fun sensitive => ?_
  cases sensitive with
  | none => rfl
  | some d =>
    simp only [result_bind, result_note, result_step, result_pure]
    rfl

/-! ## Rules -/

theorem result_compileBlockIn (context : Context) (style : Value) :
    (compileBlockIn settings context style : Trace _).result =
      compileBlock settings context style := by
  simp only [compileBlockIn, result_bind, result_step, result_resolveEntriesIn,
    result_withCounterpartIn, result_note, result_pure]
  rfl

theorem result_resolveFrameIn (selector : String) (frame : Value) :
    (resolveFrameIn settings selector frame : Trace _).result =
      resolveFrameIn settings selector frame := by
  cases frame with
  | map entries =>
    simp only [resolveFrameIn, result_locate, result_bind, result_step, result_resolveEntriesIn]
    rfl
  | _ => rfl

theorem result_compileFrameIn (seen : List String) (key : Key) (frame : Value) :
    (compileFrameIn settings seen key frame : Trace _).result =
      compileFrameIn settings seen key frame := by
  simp only [compileFrameIn, result_bind, result_step, result_resolveFrameIn,
    result_withCounterpartIn, result_pure]
  rfl

theorem result_compileFramesIn (seen : List String) (entries : List (Key × Value)) :
    (compileFramesIn settings seen entries : Trace _).result =
      compileFramesIn settings seen entries := by
  induction entries generalizing seen with
  | nil => rfl
  | cons entry rest ih =>
    simp only [compileFramesIn, result_bind, result_compileFrameIn, ih, result_pure]
    rfl

theorem result_compileKeyframesIn (definition : Value) :
    (compileKeyframesIn settings definition : Trace _).result =
      compileKeyframes settings definition := by
  simp only [compileKeyframesIn, result_bind, result_step, result_compileFramesIn, result_note,
    result_pure]
  rfl

/-! ## Namespaces -/

theorem result_compileLeavesIn (property : Key) (leaves : List (Context × Value)) :
    (compileLeavesIn settings property leaves : Trace _).result =
      compileLeavesIn settings property leaves := by
  induction leaves with
  | nil => rfl
  | cons leaf rest ih =>
    obtain ⟨context, value⟩ := leaf
    cases value with
    | null => exact ih
    | _ =>
      simp only [compileLeavesIn, result_bind, result_compileBlockIn, ih, result_pure]
      rfl

theorem result_compilePropertyIn (property : Key) (value : Value) :
    (compilePropertyIn settings property value : Trace _).result =
      compilePropertyIn settings property value := by
  simp only [compilePropertyIn, result_bind, result_compileLeavesIn, result_step]
  rfl

theorem result_compilePropertiesIn (entries : List (Key × Value)) :
    (compilePropertiesIn settings entries : Trace _).result =
      compilePropertiesIn settings entries := by
  induction entries with
  | nil => rfl
  | cons entry rest ih =>
    simp only [compilePropertiesIn, result_bind, result_compilePropertyIn, ih, result_pure]
    rfl

theorem result_compileNamespaceIn (name : Key) (style : Value) :
    (compileNamespaceIn settings name style : Trace _).result =
      compileNamespaceIn settings name style := by
  cases style with
  | map entries =>
    simp only [compileNamespaceIn, result_bind, result_compilePropertiesIn, result_note,
      result_pure]
    rfl
  | _ => rfl

theorem result_compileNamespaceEntriesIn (entries : List (Key × Value)) :
    (compileNamespaceEntriesIn settings entries : Trace _).result =
      compileNamespaceEntriesIn settings entries := by
  induction entries with
  | nil => rfl
  | cons entry rest ih =>
    simp only [compileNamespaceEntriesIn, result_bind, result_compileNamespaceIn, ih, result_pure]
    rfl

/-! ## Documents -/

theorem result_compileAnimationEntriesIn (sheet : Sheet) (entries : List (Key × Value)) :
    (compileAnimationEntriesIn settings sheet entries : Trace _).result =
      compileAnimationEntriesIn settings sheet entries := by
  induction entries generalizing sheet with
  | nil => rfl
  | cons entry rest ih =>
    simp only [compileAnimationEntriesIn, result_bind, result_compileKeyframesIn, result_leave,
      ih, result_pure]
    rfl

/-- **Notes do not decide.**  Compiling a document with its notes gives the bundle, or the failure,
of compiling it without. -/
theorem result_compileDocumentIn (document : List (Key × Value)) :
    (compileDocumentIn settings document : Trace _).result = compileDocument settings document := by
  simp only [compileDocumentIn, compileAnimationsIn, compileNamespacesIn, result_bind, result_step,
    result_compileAnimationEntriesIn, result_compileNamespaceEntriesIn, result_leave, result_note,
    result_pure]
  rfl

end AtomicStyle
