import AtomicStyle.Build.Run
import AtomicStyle.Document.Reader

/-!
# The command

`atomcss inputdir outputdir --inputFile styles.json` compiles a document of the input directory into
two sheets and a manifest in the output directory.  The document is read as JSON.  This module only
reads, writes and prints; what is read, written and printed is decided by the build.
-/

namespace AtomicStyle.Command

open Build

/-- The names of the environment variables that are settings. -/
def variableNames : List String :=
  settingNames.map fun name => "ATOMCSS_" ++ name.toUpper

/-- The environment variables that are set. -/
def readVariables : IO (List (String × String)) := do
  let mut env := []
  for name in variableNames do
    if let some value ← IO.getEnv name then
      env := env ++ [(name, value)]
  pure env

/-- What is found at the path of a document. -/
def readSource (path : String) : IO Source := do
  try
    let text ← IO.FS.readFile path
    match Reader.readDocument? text with
    | .ok value => pure (.value value)
    | .error detail => pure (.malformed detail)
  catch error =>
    match error with
    | .noFileOrDirectory .. => pure .missing
    | _ => pure .directory

/-- The options of a run that is traced in full when the settings ask for it. -/
def traced (env : List (String × String)) (options : Options) : Options :=
  match Settings.ofSources [] env with
  | .ok settings =>
    if settings.debug then { options with verbosity := max options.verbosity 3 } else options
  | .error _ => options

/-- Runs a job and gives the exit status. -/
def run (job : Job) : IO UInt32 := do
  let env ← readVariables
  let job := { job with options := traced env job.options }
  let source ← readSource job.inputPath.text
  let outcome := build job env source
  let log ← IO.getStderr
  for text in notesUpTo job.options.verbosity outcome.notes do
    log.putStrLn text
  match outcome.result with
  | .ok product =>
    IO.FS.createDirAll job.outputPath.text
    for (path, content) in product.files do
      IO.FS.writeFile path.text content
    pure 0
  | .error (.stop stop) =>
    log.putStrLn stop.message
    pure 1
  | .error (.badSettings problems) =>
    for problem in problems do
      log.putStrLn ("Bad setting: " ++ problem.setting)
    pure 1
  | .error (.fault f) =>
    log.putStrLn f.message
    pure 1

/-- How the command is called. -/
def usage : String :=
  "usage: atomcss inputdir outputdir --inputFile F [--outputSubdir D] " ++
    "[--styleResolution logical|physical] [--strict] [-v] [-V]"

end AtomicStyle.Command

open AtomicStyle AtomicStyle.Build in
/-- The command line. -/
def main (arguments : List String) : IO UInt32 := do
  match parse arguments with
  | .run input output options =>
    Command.run { inputDirectory := input, outputDirectory := output, options := options }
  | .version =>
    IO.println versionText
    pure 0
  | .help =>
    IO.println Command.usage
    pure 0
  | .misuse =>
    IO.eprintln Command.usage
    pure 2
