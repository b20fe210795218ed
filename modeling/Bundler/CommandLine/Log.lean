/-
What a run tells on the way, and which of it is shown. A filter has
directives for the parts of the program; the one with the longest name that a
part starts with decides.
-/
import Bundler.Config.Environment
import Bundler.Session

namespace Bundler.CommandLine

inductive LogLevel where
  | error
  | warn
  | info
  | debug
  | trace
deriving DecidableEq, Repr

namespace LogLevel

def all : List LogLevel := [error, warn, info, debug, trace]

def name : LogLevel → String
  | error => "ERROR"
  | warn => "WARN"
  | info => "INFO"
  | debug => "DEBUG"
  | trace => "TRACE"

/-- The more there is of it, the greater the rank. -/
def rank : LogLevel → Nat
  | error => 1
  | warn => 2
  | info => 3
  | debug => 4
  | trace => 5

end LogLevel

/-- The greatest rank that is shown; none is zero. -/
abbrev Verbosity := Nat

def verbosity? (s : String) : Option Verbosity :=
  if s.toLower = "off" then some 0
  else (LogLevel.all.find? fun l => l.name.toLower = s.toLower).map (·.rank)

/-! ## Filters -/

structure Directive where
  /-- A beginning of names of parts; all parts if there is none. -/
  part : Option String
  shown : Verbosity
deriving DecidableEq, Repr

structure LogFilter where
  directives : List Directive
  /-- A text that messages must have in them. -/
  needle : Option String := none
deriving Repr

/-- Adds a directive, in place of one for the same parts. -/
def addDirective (ds : List Directive) (d : Directive) : List Directive :=
  if ds.any fun e => e.part = d.part then ds.map fun e => if e.part = d.part then d else e
  else ds ++ [d]

/-- Reads a directive: a level, a part, or both with an equals sign between. -/
def readDirective (s : String) : Except String Directive :=
  match s.splitOn "=" with
  | [a] =>
    match verbosity? a with
    | some v => .ok ⟨none, v⟩
    | none => .ok ⟨some a, LogLevel.trace.rank⟩
  | [a, b] =>
    let b := trimmed b
    if b = "" then .ok ⟨some a, LogLevel.trace.rank⟩
    else
      match verbosity? b with
      | some v => .ok ⟨some a, v⟩
      | none => .error ("invalid logging spec '" ++ b ++ "'")
  | _ => .error ("invalid logging spec '" ++ s ++ "'")

/-- Reads directives with commas between them. Those that mean nothing are
left out and told. -/
def readDirectives (s : String) : List Directive × List String :=
  ((s.splitOn ",").map trimmed).foldl (fun (ds, faults) part =>
    if part = "" then (ds, faults)
    else
      match readDirective part with
      | .ok d => (addDirective ds d, faults)
      | .error e => (ds, faults ++ [e])) ([], [])

/-- Reads a filter: directives, and a text after a slash. Without directives
only errors are shown. -/
def LogFilter.ofString (s : String) : LogFilter × List String :=
  let (directives, needle, faults) : List Directive × Option String × List String :=
    match s.splitOn "/" with
    | [a] => ((readDirectives a).1, none, (readDirectives a).2)
    | [a, b] => ((readDirectives a).1, some b, (readDirectives a).2)
    | _ => ([], none, ["invalid logging spec '" ++ s ++ "' (too many '/'s)"])
  (⟨if directives.isEmpty then [⟨none, LogLevel.error.rank⟩] else directives, needle⟩, faults)

/-- Whether a text is within another. -/
def isWithin (needle : List Char) : List Char → Bool
  | [] => needle.isEmpty
  | c :: cs => needle.isPrefixOf (c :: cs) || isWithin needle cs

def Directive.length (d : Directive) : Nat := (d.part.map String.utf8ByteSize).getD 0

/-- Whether a message of a part is shown. -/
def LogFilter.shows (f : LogFilter) (level : LogLevel) (part message : String) : Bool :=
  let fits := f.directives.filter fun d => ((d.part.map (part.startsWith ·)).getD true)
  let longest := fits.foldl (fun (best : Option Directive) d =>
    match best with
    | some b => if b.length ≤ d.length then some d else best
    | none => some d) none
  (match longest with
    | some d => decide (level.rank ≤ d.shown)
    | none => false) &&
  (match f.needle with
    | some n => isWithin n.toList message.toList
    | none => true)

/-! ## Lines -/

/-- A message as a line. -/
def logLine (level : LogLevel) (part message : String) : String :=
  let name := level.name ++ String.ofList (List.replicate (5 - level.name.length) ' ')
  "[" ++ name ++ " " ++ part ++ "] " ++ message ++ "\n"

def LogFilter.line (f : LogFilter) (level : LogLevel) (part message : String) : String :=
  if f.shows level part message then logLine level part message else ""

/-- What a run tells, as far as it is shown. -/
def LogFilter.eventLines (f : LogFilter) (events : List SessionEvent) : String :=
  String.join (events.map fun e =>
    f.line (if e.isWarning then .warn else .info) "jspack::orchestrator" e.text)

/-- What was wrong with a filter, as lines. -/
def faultLines (faults : List String) : String :=
  String.join (faults.map fun m => "warning: " ++ m ++ ", ignoring it\n")

/-- The filter that the number of requests for more gives, unless the
environment has one. -/
def LogFilter.ofRun (env : Environment) (requests : Nat) : LogFilter × List String :=
  let byDefault := match requests with
    | 0 => "warn"
    | 1 => "info"
    | 2 => "debug"
    | _ => "trace"
  LogFilter.ofString ((env "RUST_LOG").getD byDefault)

end Bundler.CommandLine
