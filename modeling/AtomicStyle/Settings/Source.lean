import AtomicStyle.Settings
import AtomicStyle.Text.LowerCase
import AtomicStyle.Value

/-!
# Where settings come from

Settings are given as named arguments; those that are not given come from environment variables
whose names carry the prefix `ATOMCSS_`.  The case of a name does not matter in either place.  Every
setting is checked, and all problems are reported together: those of the settings in their fixed
order, then the arguments that name no setting.

* `Problem` - what is wrong with one setting;
* `settingName?` - the setting that a name stands for;
* `argumentSettings`, `environmentSettings` - the settings among arguments and among environment
  variables;
* `Settings.ofSources` - the settings, or the problems with them.
-/

namespace AtomicStyle

/-- What is wrong with the value of a setting. -/
inductive ProblemKind where
  /-- A text is wanted. -/
  | notText
  /-- The text is no class prefix. -/
  | badPrefix
  /-- The value is not one of those to choose from. -/
  | notAChoice
  /-- The value could be a boolean but is not one of its words or numbers. -/
  | notBooleanWord
  /-- The value is of a shape that no boolean has. -/
  | notBoolean
  /-- No setting has the name. -/
  | unknownName
deriving DecidableEq, Repr

/-- A problem with one setting. -/
structure Problem where
  setting : String
  kind : ProblemKind
deriving DecidableEq, Repr

/-- The result of reading one setting. -/
abbrev Reading (α : Type) := Except ProblemKind α

/-- The class prefix that a value stands for. -/
def readPrefix : Value → Reading ClassPrefix
  | .text s => if h : isClassPrefix s.toList = true then .ok ⟨s, h⟩ else .error .badPrefix
  | _ => .error .notText

/-- The resolution that a value stands for. -/
def readResolution : Value → Reading Resolution
  | .text s =>
    if s = "logical" then .ok .logical
    else if s = "physical" then .ok .physical
    else .error .notAChoice
  | _ => .error .notAChoice

/-- The words for true. -/
def trueWords : List String := ["1", "true", "t", "yes", "y", "on"]

/-- The words for false. -/
def falseWords : List String := ["0", "false", "f", "no", "n", "off"]

/-- The boolean that a number stands for. -/
def booleanOfInt (n : Int) : Reading Bool :=
  if n = 0 then .ok false else if n = 1 then .ok true else .error .notBooleanWord

/-- The boolean that a value stands for: a boolean, one of its words in any case, or one of its
numbers. -/
def readBoolean : Value → Reading Bool
  | .bool b => .ok b
  | .text s =>
    let word := String.ofList (s.toList.map Char.toLower)
    if trueWords.contains word then .ok true
    else if falseWords.contains word then .ok false
    else .error .notBooleanWord
  | .int n => booleanOfInt n
  | .float x =>
    match x.toInt? with
    | some n => booleanOfInt n
    | none => .error .notBoolean
  | _ => .error .notBoolean

/-- The names of all settings. -/
def settingNames : List String :=
  ["class_name_prefix", "style_resolution", "value_flipping", "strict_values",
   "strict_properties", "debug_mode"]

/-- The setting that a name stands for, whatever the case of the name. -/
def settingName? (name : String) : Option String :=
  let name := String.ofList (Text.lower name.toList)
  if settingNames.contains name then some name else none

/-- The settings among named arguments, under their own names.  Of several spellings of one name the
last counts. -/
def argumentSettings (arguments : List (String × Value)) : List (String × Value) :=
  arguments.reverse.filterMap fun (name, value) =>
    (settingName? name).map fun setting => (setting, value)

/-- What the names of environment variables begin with, in lower case. -/
def environmentFront : List Char := "atomcss_".toList

/-- The settings among environment variables, under their own names.  Of several variables for one
setting the last counts. -/
def environmentSettings (env : List (String × String)) : List (String × Value) :=
  env.reverse.filterMap fun (name, value) =>
    let name := Text.lower name.toList
    if environmentFront.isPrefixOf name then
      some (String.ofList (name.drop environmentFront.length), .text value)
    else none

/-- A setting as read from its sources, or its default when no source has it, with the problem that
came up. -/
def readSetting {α : Type} (sources : List (String × Value)) (name : String)
    (read : Value → Reading α) (default : α) : α × List Problem :=
  match sources.lookup name with
  | none => (default, [])
  | some v =>
    match read v with
    | .ok a => (a, [])
    | .error kind => (default, [⟨name, kind⟩])

/-- The settings given by named arguments, and by environment variables for the rest. -/
def Settings.ofSources (arguments : List (String × Value)) (env : List (String × String)) :
    Except (List Problem) Settings :=
  let sources := argumentSettings arguments ++ environmentSettings env
  let (front, p₁) := readSetting sources "class_name_prefix" readPrefix .default
  let (resolution, p₂) := readSetting sources "style_resolution" readResolution .logical
  let (flips, p₃) := readSetting sources "value_flipping" readBoolean true
  let (strictValues, p₄) := readSetting sources "strict_values" readBoolean false
  let (strictProperties, p₅) := readSetting sources "strict_properties" readBoolean false
  let (debug, p₆) := readSetting sources "debug_mode" readBoolean false
  let unknown := (arguments.filter fun a => (settingName? a.1).isNone).map fun a =>
    (⟨a.1, .unknownName⟩ : Problem)
  let problems := p₁ ++ p₂ ++ p₃ ++ p₄ ++ p₅ ++ p₆ ++ unknown
  if problems.isEmpty then
    .ok
      { classPrefix := front
        resolution := resolution
        flipsValues := flips
        strictValues := strictValues
        strictProperties := strictProperties
        debug := debug }
  else .error problems

end AtomicStyle
