/-
The program on a real machine: it reads and writes files, asks for the time,
and prints. What it does with them is decided elsewhere.
-/
import Bundler.CommandLine

namespace Bundler.Main

open CommandLine

/-! ## Files -/

/-- What the system tells about a file. -/
def fileError (e : IO.Error) : FileError :=
  match e with
  | .noFileOrDirectory .. => .notFound
  | .alreadyExists .. => .alreadyExists
  | .inappropriateType .. => .notADirectory
  | e => .other (toString e)

def isDirectory (p : Path) : IO Bool := do ((← IO.currentDir) / p.display).isDir

def isFile (p : Path) : IO Bool := do
  return (← ((← IO.currentDir) / p.display).pathExists) && !(← isDirectory p)

def readFile (p : Path) : IO (Except FileError String) := do
  if p.bytes.isEmpty then return .error .notFound
  if ← isDirectory p then return .error .isADirectory
  try
    let bytes ← IO.FS.readBinFile p.display
    match Utf8.decode? bytes.data.toList with
    | some text => return .ok text
    | none => return .error .notText
  catch e => return .error (fileError e)

def writeFile (p : Path) (text : String) : IO (Except FileError Unit) := do
  try
    match p.parent? with
    | some parent => if !parent.bytes.isEmpty then IO.FS.createDirAll parent.display
    | none => pure ()
    if ← isDirectory p then return .error .isADirectory
    IO.FS.writeFile p.display text
    return .ok ()
  catch e => return .error (fileError e)

/-! ## Runs -/

/-- Builds one module after the other until nothing is left to build. -/
partial def explore {τ : Type} (s : Session τ) (d : Discovery) : IO (Except DiscoveryError ModuleTable) := do
  let d := d.dispatch s.config.jobs
  match d.inFlight with
  | [] => return d.finish.result
  | id :: _ =>
    let begun ← IO.monoMsNow
    let source ← readFile id.path
    match d.receive id (s.builder.buildSource id source) with
    | .error e => return .error e
    | .ok next =>
      if (← IO.monoMsNow) - begun ≥ s.config.timeoutMs then
        return .error (d.expire s.config.timeoutMs id)
      else explore s next

/-- Makes the artifact, and tells what goes on. -/
def build {τ : Type} (s : Session τ) (filter : LogFilter) : IO (Except BundleError BundleOutput) := do
  match s.prepare with
  | .error e => return .error e
  | .ok entry =>
    IO.eprint (filter.eventLines [.bundling entry])
    match ← explore s (.start entry) with
    | .error e => return .error (.discovery e)
    | .ok table =>
      IO.eprint (filter.eventLines (Session.foundEvents table))
      return s.complete entry table

/-- Makes the artifact and writes it. -/
def bundle {τ : Type} (s : Session τ) (filter : LogFilter) : IO (Except BundleError BundleSummary) := do
  match ← build s filter with
  | .error e => return .error e
  | .ok output =>
    match ← writeFile s.outputPath output.bundle.text with
    | .error e => return .error (.io s.outputPath e.message)
    | .ok () =>
      IO.eprint (filter.eventLines [.wrote output.bundle.moduleCount s.outputPath])
      return .ok (s.summary output)

/-- The variables that the program looks at. -/
def variableNames : List String :=
  ["HOME", "XDG_CONFIG_HOME", "RUST_LOG", "JSPACK_ENTRY", "JSPACK_OUTPUT_DIRECTORY",
    "JSPACK_OUTPUT_FILENAME", "JSPACK_TARGET", "JSPACK_JOBS", "JSPACK_TIMEOUT_MS",
    "JSPACK_LOADER"]

def environment : IO Environment := do
  let values ← variableNames.filterMapM fun name => do
    return (← IO.getEnv name).map fun value => (name, value)
  return .ofList values

/-- Modules are built one after the other, whatever the machine has. -/
def processors : Nat := 1

def source (p : Path) : IO ConfigSource := do return ⟨p, ← readFile p⟩

def sourceIfThere (p : Path) : IO (List ConfigSource) := do
  if ← isFile p then return [← source p] else return []

/-- Leaves what a run leaves behind. -/
def leave (o : Outcome) : IO UInt32 := do
  IO.print o.stdout
  IO.eprint o.stderr
  return o.code.toUInt32

def run (a : Arguments) : IO UInt32 := do
  let env ← environment
  let (filter, faults) := LogFilter.ofRun env a.verbose
  IO.eprint (faultLines faults)
  let here := Path.ofString (← IO.currentDir).toString
  let user ← sourceIfThere (userConfigFile env (.ofString "/"))
  let above ← match a.config with
    | some p => do pure [← source p]
    | none => sourceIfThere (here.join configFileName)
  match Config.ofSources processors (user ++ above) env with
  | .error e => leave (loadFailure e)
  | .ok c =>
    let session : Session Script.Module := ⟨c.apply a.layer, here, scriptTransform⟩
    if a.stdout then leave (outputOutcome (← build session filter))
    else leave (summaryOutcome filter (← bundle session filter))

end Bundler.Main

def main (arguments : List String) : IO UInt32 := do
  match Bundler.CommandLine.Request.ofList arguments with
  | .showVersion => Bundler.Main.leave { code := 0, stdout := Bundler.CommandLine.versionText }
  | .showHelp => Bundler.Main.leave { code := 0, stdout := Bundler.CommandLine.helpText }
  | .refuse cause => Bundler.Main.leave (Bundler.CommandLine.refusal cause)
  | .run a => Bundler.Main.run a
