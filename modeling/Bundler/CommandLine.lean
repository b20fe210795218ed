/-
The program as it is called: what it prints, what it writes and with which
code it ends, given its arguments, its environment and the files there are.
-/
import Bundler.CommandLine.Arguments
import Bundler.CommandLine.Log
import Bundler.Config.Load
import Bundler.Session

namespace Bundler.CommandLine

/-- How the program is called. -/
structure Invocation where
  arguments : List String
  environment : Environment
  /-- The home of the account, for an environment without one. -/
  accountHome : Path
  /-- How many processors the machine has. -/
  processors : Nat

/-- What the program leaves behind besides files. -/
structure Outcome where
  code : Nat
  stdout : String := ""
  stderr : String := ""
deriving DecidableEq, Repr

/-! ## Texts -/

def versionText : String := "jspack 0.3.0\n"

def usageText : String := "Usage: jspack [OPTIONS]\n"

def helpText : String :=
  "Bundle an ES module entry point and everything it imports into one script\n\n" ++ usageText ++ "
Options:
  -e, --entry <ENTRY>              Entry module
  -o, --output-dir <OUTPUT_DIR>    Directory the bundle is written to
      --output-file <OUTPUT_FILE>  File name of the bundle inside the output directory
  -c, --config <CONFIG>            Config file to use instead of ./jspack.toml
      --target <TARGET>            Language level of generated module code (es5, es2015)
  -j, --jobs <JOBS>                Number of discovery worker threads
      --timeout-ms <TIMEOUT_MS>    Per-module build deadline in milliseconds
      --loader <LOADER>            How module code is stored in the bundle (eval, factory)
      --stdout                     Print the bundle to stdout instead of writing it
  -v, --verbose...                 Increase log verbosity (-v info, -vv debug, -vvv trace)
  -h, --help                       Print help
  -V, --version                    Print version
"

/-- An error with what lies behind it, as a line. -/
def errorLine (message : String) (causes : List String) : String :=
  "error: " ++ ": ".intercalate (message :: causes) ++ "\n"

def refusal (cause : String) : Outcome :=
  { code := 2, stderr := "error: " ++ cause ++ "\n\n" ++ usageText ++
      "\nFor more information, try '--help'.\n" }

def loadFailure (e : ConfigLoadError) : Outcome :=
  { code := 1, stderr := errorLine e.message e.causes }

def runFailure (e : BundleError) : Outcome :=
  { code := 1, stderr := errorLine e.message e.causes }

/-- What is told when the artifact has been written. -/
def summaryText (s : BundleSummary) : String :=
  "Bundled " ++ toString s.moduleCount ++ " module(s) from " ++ s.entry.text ++ " into " ++
    s.outputPath.display ++ " (sha256 " ++ s.hash ++ ")"

/-! ## Runs -/

/-- Puts a text before what a run has told. -/
def Outcome.after (o : Outcome) (told : String) : Outcome := { o with stderr := told ++ o.stderr }

def outputOutcome (r : Except BundleError BundleOutput) : Outcome :=
  match r with
  | .ok output => { code := 0, stdout := output.bundle.text }
  | .error e => runFailure e

def summaryOutcome (filter : LogFilter) (r : Except BundleError BundleSummary) : Outcome :=
  match r with
  | .ok s => { code := 0, stderr := filter.line .info "jspack" (summaryText s) }
  | .error e => runFailure e

/-- A run with settings. -/
def runSession {τ : Type} (a : Arguments) (filter : LogFilter) (session : Session τ)
    (t : FileTree) : Outcome × FileTree :=
  let turns := Session.fullSchedule t
  if a.stdout then
    let (result, events) := session.build t turns
    ((outputOutcome result).after (filter.eventLines events), t)
  else
    let ((result, events), t) := session.bundle t turns
    ((summaryOutcome filter result).after (filter.eventLines events), t)

/-- The path of the working directory. -/
def workingPath (t : FileTree) : Path := ⟨Path.slash :: Path.joinSlashes t.workingDirectory⟩

/-- Runs the program. -/
def run (i : Invocation) (t : FileTree) : Outcome × FileTree :=
  match Request.ofList i.arguments with
  | .showVersion => ({ code := 0, stdout := versionText }, t)
  | .showHelp => ({ code := 0, stdout := helpText }, t)
  | .refuse cause => (refusal cause, t)
  | .run a =>
    let (filter, faults) := LogFilter.ofRun i.environment a.verbose
    let told := faultLines faults
    let user := userConfigFile i.environment i.accountHome
    match Config.load i.processors t (some user) (workingPath t) a.config i.environment with
    | .error e => ((loadFailure e).after told, t)
    | .ok c =>
      let session : Session Script.Module := ⟨c.apply a.layer, workingPath t, scriptTransform⟩
      let (outcome, t) := runSession a filter session t
      (outcome.after told, t)

end Bundler.CommandLine
