/-
A run from settings to artifact: the settings are checked, all modules the
entry needs are found, import cycles are told, and the artifact is made and
written. Nothing is written unless all before it went well.
-/
import Bundler.Artifact
import Bundler.Builder
import Bundler.Config
import Bundler.Discovery
import Bundler.ImportGraph

namespace Bundler

/-- Settings, the directory that relative paths are seen from, and the language
of the modules. -/
structure Session (τ : Type) where
  config : Config
  workingDirectory : Path
  language : Transform τ

/-- What a run makes before anything is written. -/
structure BundleOutput where
  entry : ModuleId
  table : ModuleTable
  cycles : CycleReport
  bundle : Bundle

/-- What a run has written. -/
structure BundleSummary where
  entry : ModuleId
  outputPath : Path
  moduleCount : Nat
  hash : String
  cycles : List ModuleCycle
deriving DecidableEq, Repr

/-- What a run tells while it goes on. -/
inductive SessionEvent where
  | bundling (entry : ModuleId)
  | discovered (count : Nat)
  | cycle (cycle : ModuleCycle)
  | wrote (count : Nat) (path : Path)
deriving DecidableEq, Repr

namespace SessionEvent

def text : SessionEvent → String
  | bundling entry => "Bundling " ++ entry.text
  | discovered count => "Discovered " ++ toString count ++ " module(s)"
  | cycle c =>
    (if c.isSelfImport then "Module imports itself: " else "Circular import: ") ++ c.text
  | wrote count path => "Wrote " ++ toString count ++ " module(s) to " ++ path.display

/-- Whether it is told as a warning. -/
def isWarning : SessionEvent → Bool
  | cycle _ => true
  | _ => false

end SessionEvent

namespace Session

variable {τ : Type}

/-- Where the artifact goes. -/
def outputPath (s : Session τ) : Path := s.config.outputPath.absolutize s.workingDirectory

/-- The module that the settings name as the entry. -/
def entry (s : Session τ) : Except BundleError ModuleId :=
  match s.config.entry with
  | none => .error (.config "no entry module configured")
  | some p =>
    match ModuleId.ofPath (p.absolutize s.workingDirectory) with
    | .ok id => .ok id
    | .error e => .error (.config ("invalid entry: " ++ e.message))

/-- Checks the settings, and finds the entry. -/
def prepare (s : Session τ) : Except BundleError ModuleId := do
  s.config.validate
  s.entry

def builder (s : Session τ) : Builder τ := ⟨s.language, s.config.target⟩

/-- How modules are found. -/
def plan {σ : Type} [Storage σ] (s : Session τ) (storage : σ) : Discovery.Plan where
  build := s.builder.build storage
  capacity := s.config.jobs
  timeoutMs := s.config.timeoutMs

/-- Makes the artifact of the modules that were found. -/
def complete (s : Session τ) (entry : ModuleId) (table : ModuleTable) :
    Except BundleError BundleOutput :=
  match emit entry table s.config.loader with
  | .ok bundle => .ok { entry, table, cycles := .ofTable table, bundle }
  | .error e => .error (.emit e)

/-- What is told of the modules that were found. -/
def foundEvents (table : ModuleTable) : List SessionEvent :=
  .discovered table.records.length :: (CycleReport.ofTable table).cycles.map .cycle

/-- A schedule in which every build reports. Each module that is built is a
file of its own, but for an entry that is not in plain form and the one that
fails. -/
def fullSchedule {σ : Type} [Storage σ] (storage : σ) : List Discovery.Turn :=
  Discovery.inOrder (Storage.size storage + 2)

/-- Makes the artifact, with the builds reporting as a schedule has it. -/
def build {σ : Type} [Storage σ] (s : Session τ) (storage : σ) (turns : List Discovery.Turn) :
    Except BundleError BundleOutput × List SessionEvent :=
  match s.prepare with
  | .error e => (.error e, [])
  | .ok entry =>
    match (discover (s.plan storage) turns entry).result with
    | .error e => (.error (.discovery e), [.bundling entry])
    | .ok table => (s.complete entry table, .bundling entry :: foundEvents table)

def summary (s : Session τ) (o : BundleOutput) : BundleSummary where
  entry := o.entry
  outputPath := s.outputPath
  moduleCount := o.bundle.moduleCount
  hash := o.bundle.hash
  cycles := o.cycles.cycles

/-- Makes the artifact and writes it. -/
def bundle {σ : Type} [Storage σ] (s : Session τ) (storage : σ) (turns : List Discovery.Turn) :
    (Except BundleError BundleSummary × List SessionEvent) × σ :=
  match s.build storage turns with
  | (.error e, events) => ((.error e, events), storage)
  | (.ok output, events) =>
    match Storage.write storage s.outputPath output.bundle.text with
    | (.error e, storage) => ((.error (.io s.outputPath e.message), events), storage)
    | (.ok (), storage) =>
      ((.ok (s.summary output), events ++ [.wrote output.bundle.moduleCount s.outputPath]), storage)

end Session

end Bundler
