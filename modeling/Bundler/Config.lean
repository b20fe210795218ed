/-
The settings of a run. Each has a default; layers from files, the environment
and the command line replace some of them. A layer that sets nothing changes
nothing.
-/
import Bundler.Error
import Bundler.Options

namespace Bundler

/-- All settings. -/
structure Config where
  entry : Option Path
  outputDirectory : Path
  outputFilename : String
  target : Target
  /-- How many modules are built at a time. -/
  jobs : Nat
  /-- The time that the build of one module may take. -/
  timeoutMs : Nat
  loader : LoaderStyle
deriving DecidableEq, Inhabited, Repr

/-- Some settings. -/
structure ConfigLayer where
  entry : Option Path := none
  outputDirectory : Option Path := none
  outputFilename : Option String := none
  target : Option Target := none
  jobs : Option Nat := none
  timeoutMs : Option Nat := none
  loader : Option LoaderStyle := none
deriving DecidableEq, Inhabited, Repr

namespace ConfigLayer

/-- The layer with its paths seen from a directory. -/
def seenFrom (l : ConfigLayer) (directory : Path) : ConfigLayer :=
  { l with
    entry := l.entry.map directory.join
    outputDirectory := l.outputDirectory.map directory.join }

end ConfigLayer

namespace Config

/-- The settings of a run without layers. As many modules are built at a time as
the machine has processors, and at least one. -/
def defaults (processors : Nat) : Config where
  entry := none
  outputDirectory := .ofString "dist"
  outputFilename := "main.js"
  target := .es5
  jobs := max processors 1
  timeoutMs := 30000
  loader := .eval

/-- The settings with those of a layer in their place. -/
def apply (c : Config) (l : ConfigLayer) : Config where
  entry := l.entry <|> c.entry
  outputDirectory := l.outputDirectory.getD c.outputDirectory
  outputFilename := l.outputFilename.getD c.outputFilename
  target := l.target.getD c.target
  jobs := l.jobs.getD c.jobs
  timeoutMs := l.timeoutMs.getD c.timeoutMs
  loader := l.loader.getD c.loader

/-- Where the artifact goes, as seen from the working directory. -/
def outputPath (c : Config) : Path := c.outputDirectory.join (.ofString c.outputFilename)

/-! ## What a run can work with -/

/-- Why the settings cannot be worked with. -/
inductive Fault where
  | noEntry
  | badFilename (name : String)
  | noJobs
  | noTime
deriving DecidableEq, Repr

def Fault.text : Fault → String
  | noEntry => "no entry module configured (set `entry` or pass --entry)"
  | badFilename name => "output filename '" ++ name ++ "' must be a plain file name"
  | noJobs => "jobs must be at least 1"
  | noTime => "timeout_ms must be greater than 0"

/-- A name that stands for a file in the directory it is joined to. -/
def isPlainName (name : String) : Bool :=
  name ≠ "" && name ≠ "." && name ≠ ".." && name.toList.all fun c => c ≠ '/' && c ≠ '\\'

/-- The first thing wrong with the settings. -/
def fault? (c : Config) : Option Fault :=
  if c.entry.isNone then some .noEntry
  else if !isPlainName c.outputFilename then some (.badFilename c.outputFilename)
  else if c.jobs = 0 then some .noJobs
  else if c.timeoutMs = 0 then some .noTime
  else none

def validate (c : Config) : Except BundleError Unit :=
  match c.fault? with
  | some f => .error (.config f.text)
  | none => .ok ()

end Config

end Bundler
