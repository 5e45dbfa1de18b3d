import AtomicStyle.Build.Arguments
import AtomicStyle.Build.Manifest
import AtomicStyle.Settings.Source
import AtomicStyle.Document

/-!
# A build

A build takes one document from the input directory and gives two sheets and a manifest for the
output directory.  It runs in stages, each of which may end it: the document must be there, be
readable and be a mapping, the settings must be sound, and every style must compile.  The build
itself only computes; reading the document and writing the files is left to the command.

* `Job`, `Source` - what is to be built, and what was found as the document;
* `Stop`, `Ending` - why a build ended early, with the text for the user;
* `build` - the files of a job, with the notes taken.
-/

namespace AtomicStyle.Build

open Traced

/-- What is to be built. -/
structure Job where
  inputDirectory : Path
  outputDirectory : Path
  options : Options

namespace Job

/-- The path of the document. -/
def inputPath (j : Job) : Path :=
  j.inputDirectory.join (Path.ofText j.options.inputFile)

/-- The directory of the files built. -/
def outputPath (j : Job) : Path :=
  j.outputDirectory.join (Path.ofText j.options.outputSubdir)

end Job

/-- What was found at the path of the document. -/
inductive Source where
  | missing
  | directory
  /-- A text that is no document, with a word about why. -/
  | malformed (detail : String)
  | value (v : Value)

/-- Why a build stopped. -/
inductive Stop where
  | inputMissing (path : Path)
  | inputIsDirectory (path : Path)
  | malformedDocument (detail : String)
  | documentNotMapping
  | noDocument
  | rejected (rejection : Rejection)
  | noResult

/-- The text for the user. -/
def Stop.message : Stop → String
  | inputMissing path => "Error: Input file not found: " ++ path.text
  | inputIsDirectory path =>
    "Error reading input file: [Errno 21] Is a directory: " ++
      String.ofList (Text.quoted path.text.toList)
  | malformedDocument detail => "Parse error: " ++ detail
  | documentNotMapping => "Parse error: style document must be a mapping"
  | noDocument => "Error: No parsed source available"
  | rejected rejection => "Compilation error: " ++ rejection.message
  | noResult => "Error: Compilation failed"

/-- How a build ends without a result: it stops with a text for the user, its settings have
problems, or it meets a fault. -/
inductive Ending where
  | stop (stop : Stop)
  | badSettings (problems : List Problem)
  | fault (f : Fault)

/-- The ending that a failed compilation leads to. -/
def Ending.ofFailure : Failure → Ending
  | .rejected r => .stop (.rejected r)
  | .fault f => .fault f

/-- A stage of a build, with its notes. -/
abbrev Stage (α : Type) := Traced Ending α

/-- A stage that ends the build. -/
def stopWith {α : Type} (s : Stop) : Stage α :=
  lift (.error (.stop s))

/-- The lines of the banner. -/
def banner : String :=
  String.intercalate "\n"
  ["",
   "        _",
   "   __ _| |_ ___  _ __ ___   ___ ___ ___",
   "  / _` | __/ _ \\| '_ ` _ \\ / __/ __/ __|",
   " | (_| | || (_) | | | | | | (__\\__ \\__ \\",
   "  \\__,_|\\__\\___/|_| |_| |_|\\___|___/___/",
   "",
   "  Atomic CSS compiler",
   ""]

/-- The text of a count. -/
def countText (n : Nat) : String :=
  String.ofList (Numeral.decimal n)

/-! ## The stages -/

/-- The first stage: the document must be there. -/
def checkInput (j : Job) (source : Source) : Stage Unit := do
  note 2 banner
  note 2 "Checking environment..."
  if let .missing := source then stopWith (.inputMissing j.inputPath)
  note 2 ("Input file: " ++ j.inputPath.text)
  note 2 ("Output directory: " ++ j.outputPath.text)

/-- The number of entries of a section.  A value without a size is a fault. -/
def sectionSize (document : List (Key × Value)) (name : String) : Outcome Nat :=
  match sectionValue document name with
  | .map entries => .ok entries.length
  | .list items => .ok items.length
  | .text s => .ok s.length
  | v => AtomicStyle.fault (.noSize v.kind)

/-- The second stage: the document must be readable and a mapping.  An empty file is an empty
document. -/
def readDocument (j : Job) (source : Source) : Stage (List (Key × Value)) := do
  note 1 "Reading style document..."
  let document ←
    match source with
    | .missing => stopWith (.inputMissing j.inputPath)
    | .directory => stopWith (.inputIsDirectory j.inputPath)
    | .malformed detail => stopWith (.malformedDocument detail)
    | .value .null => pure []
    | .value (.map entries) => pure entries
    | .value _ => stopWith .documentNotMapping
  let animations ← mapError Ending.ofFailure (lift (sectionSize document "keyframes"))
  let namespaces ← mapError Ending.ofFailure (lift (sectionSize document "styles"))
  note 2 ("Loaded " ++ countText animations ++ " keyframes, " ++ countText namespaces ++
    " style namespaces")
  pure document

/-- What a build leaves: the files, and the number of rules in them. -/
structure Product where
  ltrPath : Path
  rtlPath : Path
  manifestPath : Path
  ltrText : String
  rtlText : String
  manifestText : String
  ruleCount : Nat

/-- The files with their contents. -/
def Product.files (p : Product) : List (Path × String) :=
  [(p.ltrPath, p.ltrText), (p.rtlPath, p.rtlText), (p.manifestPath, p.manifestText)]

/-- The files of a bundle.  Their names are those of the document with another suffix, and each text
ends in a line break. -/
def productOf (j : Job) (b : Bundle) : Product :=
  let stem := j.inputPath.stem
  { ltrPath := j.outputPath.child (stem ++ ".css")
    rtlPath := j.outputPath.child (stem ++ ".rtl.css")
    manifestPath := j.outputPath.child (stem ++ ".json")
    ltrText := b.sheet.ltrText ++ "\n"
    rtlText := b.sheet.rtlText ++ "\n"
    manifestText := (manifest b).render ++ "\n"
    ruleCount := b.ruleCount }

/-- The third stage: the settings must be sound and the document must compile. -/
def compile (j : Job) (env : List (String × String))
    (document : Option (List (Key × Value))) : Stage Product := do
  note 1 "Compiling style definitions..."
  let document ←
    match document with
    | some document => pure document
    | none => stopWith .noDocument
  let settings ←
    match Settings.ofSources j.options.settings env with
    | .ok settings => pure settings
    | .error problems => lift (.error (.badSettings problems))
  let b ← mapError Ending.ofFailure (compileDocumentIn settings document)
  let product := productOf j b
  note 2 ("Wrote " ++ product.ltrPath.text ++ ", " ++ product.rtlPath.text ++ ", " ++
    product.manifestPath.text)
  pure product

/-- The last stage: what was built is reported. -/
def report (product : Option Product) : Stage Unit :=
  match product with
  | none => stopWith .noResult
  | some p => do
    note 1 "\n✓ Compilation successful!"
    note 1 ("  Rules: " ++ countText p.ruleCount)
    note 1 ("  LTR:   " ++ p.ltrPath.text)
    note 1 ("  RTL:   " ++ p.rtlPath.text)
    note 1 ("  Map:   " ++ p.manifestPath.text)

/-- All stages of a build. -/
def build (j : Job) (env : List (String × String)) (source : Source) : Stage Product := do
  checkInput j source
  let document ← readDocument j source
  let product ← compile j env (some document)
  report (some product)
  pure product

/-- What the version option prints. -/
def versionText : String := "atomcss 1.0.0"

end AtomicStyle.Build
