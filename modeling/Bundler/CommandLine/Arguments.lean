/-
Command line arguments. An option is long, after two dashes, or short, after
one, where several may be put together. A value follows an option as the next
argument or after an equals sign; after a short option it may follow at once.
-/
import Bundler.Config.Environment

namespace Bundler.CommandLine

/-- What the arguments ask for. -/
structure Arguments where
  entry : Option Path := none
  outputDirectory : Option Path := none
  outputFile : Option String := none
  config : Option Path := none
  target : Option Target := none
  jobs : Option Nat := none
  timeoutMs : Option Nat := none
  loader : Option LoaderStyle := none
  /-- Print the artifact and write nothing. -/
  stdout : Bool := false
  /-- How often more is asked to be told. -/
  verbose : Nat := 0
deriving DecidableEq, Inhabited, Repr

/-- The settings among the arguments. -/
def Arguments.layer (a : Arguments) : ConfigLayer :=
  { entry := a.entry, outputDirectory := a.outputDirectory, outputFilename := a.outputFile,
    target := a.target, jobs := a.jobs, timeoutMs := a.timeoutMs, loader := a.loader }

/-- What to do, as far as the arguments say. -/
inductive Request where
  | run (arguments : Arguments)
  | showVersion
  | showHelp
  /-- The arguments make no sense. -/
  | refuse (cause : String)
deriving DecidableEq, Repr

/-! ## Options -/

inductive Flag where
  | stdout
  | verbose
  | help
  | version
deriving DecidableEq, Repr

inductive ValueOption where
  | entry
  | outputDirectory
  | outputFile
  | config
  | target
  | jobs
  | timeoutMs
  | loader
deriving DecidableEq, Repr

inductive OptionKind where
  | flag (f : Flag)
  | value (o : ValueOption)
deriving DecidableEq, Repr

def longOption? : String → Option OptionKind
  | "entry" => some (.value .entry)
  | "output-dir" => some (.value .outputDirectory)
  | "output-file" => some (.value .outputFile)
  | "config" => some (.value .config)
  | "target" => some (.value .target)
  | "jobs" => some (.value .jobs)
  | "timeout-ms" => some (.value .timeoutMs)
  | "loader" => some (.value .loader)
  | "stdout" => some (.flag .stdout)
  | "verbose" => some (.flag .verbose)
  | "help" => some (.flag .help)
  | "version" => some (.flag .version)
  | _ => none

def shortOption? : Char → Option OptionKind
  | 'e' => some (.value .entry)
  | 'o' => some (.value .outputDirectory)
  | 'c' => some (.value .config)
  | 'j' => some (.value .jobs)
  | 'v' => some (.flag .verbose)
  | 'h' => some (.flag .help)
  | 'V' => some (.flag .version)
  | _ => none

/-! ## Values -/

/-- Sets what is not set yet. -/
def once {α : Type} (name : String) (old : Option α) (new : Except String α) :
    Except String (Option α) :=
  match old, new with
  | some _, _ => .error ("the argument '" ++ name ++ "' cannot be used multiple times")
  | none, .error e => .error ("invalid value for '" ++ name ++ "': " ++ e)
  | none, .ok a => .ok (some a)

def readPathArgument (s : String) : Except String Path :=
  if s = "" then .error "a value is required" else .ok (.ofString s)

/-- Gives an option its value. -/
def Arguments.set (a : Arguments) (o : ValueOption) (s : String) : Except String Arguments :=
  match o with
  | .entry => do return { a with entry := ← once "--entry" a.entry (readPathArgument s) }
  | .outputDirectory => do
    return { a with
      outputDirectory := ← once "--output-dir" a.outputDirectory (readPathArgument s) }
  | .outputFile => do return { a with outputFile := ← once "--output-file" a.outputFile (.ok s) }
  | .config => do return { a with config := ← once "--config" a.config (readPathArgument s) }
  | .target => do
    return { a with target := ← once "--target" a.target (ConfigLayer.readTarget s) }
  | .jobs => do return { a with jobs := ← once "--jobs" a.jobs (ConfigLayer.readCount s) }
  | .timeoutMs => do
    return { a with timeoutMs := ← once "--timeout-ms" a.timeoutMs (ConfigLayer.readCount s) }
  | .loader => do
    return { a with loader := ← once "--loader" a.loader (ConfigLayer.readLoader s) }

/-- What a flag does. Some end the reading at once. -/
def Arguments.raise (a : Arguments) : Flag → Except Request Arguments
  | .stdout =>
    if a.stdout then .error (.refuse "the argument '--stdout' cannot be used multiple times")
    else .ok { a with stdout := true }
  | .verbose => .ok { a with verbose := a.verbose + 1 }
  | .help => .error .showHelp
  | .version => .error .showVersion

/-! ## Reading -/

def asRefusal {α : Type} (r : Except String α) : Except Request α := r.mapError .refuse

/-- What options put together come to: the arguments, and an option that
wants the next argument as its value. -/
def readCluster (a : Arguments) : List Char → Except Request (Arguments × Option ValueOption)
  | [] => .ok (a, none)
  | c :: cs =>
    match shortOption? c, cs with
    | none, _ => .error (.refuse ("unexpected argument '-" ++ String.singleton c ++ "' found"))
    | some (.flag _), '=' :: _ => .error (.refuse "unexpected value for a flag")
    | some (.flag f), cs => do readCluster (← a.raise f) cs
    | some (.value o), [] => .ok (a, some o)
    | some (.value o), '=' :: cs => do
      return (← asRefusal (a.set o (String.ofList cs)), none)
    | some (.value o), cs => do return (← asRefusal (a.set o (String.ofList cs)), none)

/-- What a long option comes to. -/
def readLong (a : Arguments) (text : List Char) : Except Request (Arguments × Option ValueOption) :=
  let name := String.ofList (text.takeWhile (· ≠ '='))
  match longOption? name, text.dropWhile (· ≠ '=') with
  | none, _ => .error (.refuse ("unexpected argument '--" ++ name ++ "' found"))
  | some (.flag _), _ :: _ => .error (.refuse ("unexpected value for '--" ++ name ++ "'"))
  | some (.flag f), [] => do return (← a.raise f, none)
  | some (.value o), [] => .ok (a, some o)
  | some (.value o), _ :: value => do return (← asRefusal (a.set o (String.ofList value)), none)

/-- Whether an argument is taken for an option. -/
def looksLikeOption (s : String) : Bool :=
  match s.toList with
  | '-' :: _ :: _ => true
  | _ => false

/-- Reads arguments one after the other. `pending` is an option that wants a
value. -/
def readArguments (a : Arguments) (pending : Option ValueOption) :
    List String → Except Request Arguments
  | [] =>
    match pending with
    | some _ => .error (.refuse "a value is required")
    | none => .ok a
  | s :: rest =>
    match pending with
    | some o =>
      if looksLikeOption s then .error (.refuse "a value is required")
      else do readArguments (← asRefusal (a.set o s)) none rest
    | none =>
      match s.toList with
      | ['-', '-'] =>
        match rest with
        | [] => .ok a
        | s :: _ => .error (.refuse ("unexpected argument '" ++ s ++ "' found"))
      | '-' :: '-' :: text => do
        let (a, pending) ← readLong a text
        readArguments a pending rest
      | '-' :: c :: text => do
        let (a, pending) ← readCluster a (c :: text)
        readArguments a pending rest
      | _ => .error (.refuse ("unexpected argument '" ++ s ++ "' found"))

/-- What a list of arguments asks for. -/
def Request.ofList (arguments : List String) : Request :=
  match readArguments {} none arguments with
  | .ok a => .run a
  | .error r => r

end Bundler.CommandLine
