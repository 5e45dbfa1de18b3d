import AtomicStyle.Build.Path
import AtomicStyle.Text.Split
import AtomicStyle.Value

/-!
# Command-line arguments

The command takes an input directory, an output directory and options.  An option with a value takes
the next argument or the text behind an equals sign; a long name may be cut short as long as one
option is meant; short options without a value may be written together.

* `Options` - what was asked for, and the settings that follow from it;
* `Token`, `classify` - what an argument is by itself;
* `Request`, `parse` - what a whole command line asks for.
-/

namespace AtomicStyle.Build

/-- The options of a run. -/
structure Options where
  /-- The document, relative to the input directory. -/
  inputFile : String := ""
  /-- Where the sheets go, relative to the output directory. -/
  outputSubdir : String := "."
  /-- How logical properties are emitted, when the command line says so. -/
  resolution : Option String := none
  /-- Whether values and properties are checked strictly, when the command line says so. -/
  strict : Option Bool := none
  verbosity : Nat := 1
deriving DecidableEq, Repr

/-- The settings that the options give.  Options that are not given leave theirs to other
sources. -/
def Options.settings (o : Options) : List (String × Value) :=
  (o.resolution.map fun r => ("style_resolution", Value.text r)).toList ++
    match o.strict with
    | some b => [("strict_values", .bool b), ("strict_properties", .bool b)]
    | none => []

/-- The flags of the command. -/
inductive Flag where
  | inputFile
  | outputSubdir
  | styleResolution
  | strict
  | verbosity
  | version
  | help
  /-- A request for a record of the arguments or of the output, which plugin hosts make of every
  command.  It is accepted and changes nothing. -/
  | record
deriving DecidableEq, Repr

/-- Whether a flag takes a value. -/
def Flag.takesValue : Flag → Bool
  | .inputFile | .outputSubdir | .styleResolution => true
  | _ => false

/-- The spellings of the flags. -/
def flagNames : List (String × Flag) := [
  ("-h", .help), ("--help", .help),
  ("--inputFile", .inputFile), ("--outputSubdir", .outputSubdir),
  ("--styleResolution", .styleResolution), ("--strict", .strict),
  ("-v", .verbosity), ("--verbosity", .verbosity),
  ("-V", .version), ("--version", .version),
  ("--saveinputmeta", .record), ("--saveoutputmeta", .record)]

/-- What an argument is by itself. -/
inductive Token where
  /-- A value or a directory. -/
  | plain (text : String)
  /-- A flag, perhaps with a text attached to it; `short` tells the spelling with one dash. -/
  | flag (f : Flag) (short : Bool) (attached : Option (List Char))
  /-- The mark behind which every argument is plain. -/
  | rest
  /-- A flag that does not exist. -/
  | unknown
  /-- A name cut so short that several flags are meant. -/
  | ambiguous
deriving DecidableEq, Repr

/-- The text in front of the first equals sign, and the text behind it if there is one. -/
def cutAtEquals (text : List Char) : List Char × Option (List Char) :=
  match text.dropWhile (· != '=') with
  | [] => (text, none)
  | _ :: value => (text.takeWhile (· != '='), some value)

/-- The flags that an argument with a dash may mean, each with the text attached to it.  Behind two
dashes a name may be cut short; behind one dash a single letter may have a text behind it. -/
def candidates (text : List Char) : List (Flag × Option (List Char)) :=
  if text.take 2 = ['-', '-'] then
    let (front, value) := cutAtEquals text
    flagNames.filterMap fun (name, f) =>
      if front.isPrefixOf name.toList then some (f, value) else none
  else
    flagNames.filterMap fun (name, f) =>
      if name.toList = text.take 2 then some (f, some (text.drop 2))
      else if text.isPrefixOf name.toList then some (f, none)
      else none

/-- Whether the text is a negative number, which is no flag. -/
def isNegativeNumber (text : List Char) : Bool :=
  match text with
  | '-' :: digits =>
    match digits.dropWhile Char.isDigit with
    | [] => !digits.isEmpty
    | '.' :: fraction => !fraction.isEmpty && fraction.all Char.isDigit
    | _ => false
  | _ => false

/-- What an argument is by itself. -/
def classify (argument : String) : Token :=
  let text := argument.toList
  if text.head? ≠ some '-' then .plain argument
  else if argument = "--" then .rest
  else
    let short := text.take 2 ≠ ['-', '-']
    match flagNames.lookup argument with
    | some f => .flag f short none
    | none =>
      if text.length = 1 then .plain argument
      else
        let (front, value) := cutAtEquals text
        match value, flagNames.lookup (String.ofList front) with
        | some value, some f => .flag f short (some value)
        | _, _ =>
          match candidates text with
          | [(f, attached)] => .flag f short attached
          | _ :: _ :: _ => .ambiguous
          | [] =>
            if isNegativeNumber text || text.contains ' ' then .plain argument else .unknown

/-- The tokens of the arguments.  Behind the first `--` every argument is plain. -/
def classifyAll : List String → List Token
  | [] => []
  | argument :: rest =>
    match classify argument with
    | .rest => .rest :: rest.map .plain
    | token => token :: classifyAll rest

/-- What a command line asks for. -/
inductive Request where
  /-- A run with two directories and options. -/
  | run (input output : Path) (options : Options)
  /-- The version. -/
  | version
  /-- A word about the usage. -/
  | help
  /-- Nothing that the command knows. -/
  | misuse
deriving DecidableEq, Repr

/-- What has been read of a command line. -/
structure Progress where
  options : Options := {}
  hasInput : Bool := false
  directories : List String := []
  hasUnknown : Bool := false

/-- The flags written together behind one dash: the flag read and those of the letters behind it, as
long as all of them are flags without a value. -/
def cluster? (f : Flag) : List Char → Option (List Flag)
  | [] => some [f]
  | c :: cs =>
    if f.takesValue then none
    else
      match flagNames.lookup (String.ofList ['-', c]) with
      | some g => (cluster? g cs).map (f :: ·)
      | none => none

/-- The choices for the resolution. -/
def resolutionNames : List String := ["logical", "physical"]

/-- The progress behind a flag with its value, if the value is allowed. -/
def Progress.setValue? (p : Progress) (f : Flag) (value : String) : Option Progress :=
  match f with
  | .inputFile =>
    some { p with options := { p.options with inputFile := value }, hasInput := true }
  | .outputSubdir => some { p with options := { p.options with outputSubdir := value } }
  | .styleResolution =>
    if resolutionNames.contains value then
      some { p with options := { p.options with resolution := some value } }
    else none
  | _ => none

/-- The progress behind flags without a value, or the request that one of them settles at once. -/
def Progress.raise (p : Progress) : List Flag → Progress ⊕ Request
  | [] => .inl p
  | .strict :: fs => raise { p with options := { p.options with strict := some true } } fs
  | .verbosity :: fs =>
    raise { p with options := { p.options with verbosity := p.options.verbosity + 1 } } fs
  | .record :: fs => raise p fs
  | .version :: _ => .inr .version
  | .help :: _ => .inr .help
  | _ :: _ => .inr .misuse

/-- The request of a command line that has been read to its end: a run needs an input file and
exactly two directories. -/
def Progress.finish (p : Progress) : Request :=
  match p.directories with
  | [input, output] =>
    if p.hasInput && !p.hasUnknown then
      .run (Path.ofText input) (Path.ofText output) p.options
    else .misuse
  | _ => .misuse

/-- The request that the remaining tokens lead to. -/
def consume (p : Progress) : List Token → Request
  | [] => p.finish
  | .plain text :: rest => consume { p with directories := p.directories ++ [text] } rest
  | .rest :: rest => consume p rest
  | .unknown :: rest => consume { p with hasUnknown := true } rest
  | .ambiguous :: _ => .misuse
  | .flag f short attached :: rest =>
    if f.takesValue then
      match attached, rest with
      | some value, rest =>
        match p.setValue? f (String.ofList value) with
        | some p => consume p rest
        | none => .misuse
      | none, .plain value :: rest =>
        match p.setValue? f value with
        | some p => consume p rest
        | none => .misuse
      | none, _ => .misuse
    else
      let flags :=
        match attached with
        | none => some [f]
        | some [] => none
        | some text => if short then cluster? f text else none
      match flags with
      | none => .misuse
      | some flags =>
        match p.raise flags with
        | .inl p => consume p rest
        | .inr request => request

/-- What the arguments ask for.  An ambiguous name is refused before anything else. -/
def parse (arguments : List String) : Request :=
  let tokens := classifyAll arguments
  if tokens.contains .ambiguous then .misuse else consume {} tokens

end AtomicStyle.Build
