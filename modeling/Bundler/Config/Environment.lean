/-
Settings from environment variables. An empty variable is as good as none.
-/
import Bundler.Config
import Bundler.Text.CharClass
import Bundler.Text.Count

namespace Bundler

/-- The values of variables. -/
abbrev Environment := String → Option String

namespace Environment

/-- The environment that a list of variables is. -/
def ofList (values : List (String × String)) : Environment := fun name =>
  (values.find? fun v => v.1 = name).map (·.2)

/-- A variable that is not empty. -/
def nonEmpty? (env : Environment) (name : String) : Option String :=
  (env name).filter (· ≠ "")

end Environment

/-- A variable with a value that means nothing. -/
structure VariableFault where
  variableName : String
  value : String
  cause : String
deriving DecidableEq, Repr

def VariableFault.message (f : VariableFault) : String :=
  "Invalid value '" ++ f.value ++ "' for " ++ f.variableName ++ ": " ++ f.cause

/-- A text without the white space at its ends. -/
def trimmed (s : String) : String :=
  String.ofList ((s.toList.dropWhile isWhiteSpace).reverse.dropWhile isWhiteSpace).reverse

namespace ConfigLayer

/-- Reads a variable, if it has a value. -/
def readVariable {α : Type} (env : Environment) (name : String)
    (read : String → Except String α) : Except VariableFault (Option α) :=
  match env.nonEmpty? name with
  | none => .ok none
  | some value =>
    match read (trimmed value) with
    | .ok a => .ok (some a)
    | .error cause => .error ⟨name, value, cause⟩

def readTarget (s : String) : Except String Target := (Target.ofName s).mapError (·.message)
def readLoader (s : String) : Except String LoaderStyle :=
  (LoaderStyle.ofName s).mapError (·.message)
def readCount (s : String) : Except String Nat := (Count.ofString s).mapError (·.message)

/-- The settings of an environment, up to the first variable that means
nothing. -/
def ofEnvironment (env : Environment) : ConfigLayer × Option VariableFault :=
  let l : ConfigLayer :=
    { entry := (env.nonEmpty? "JSPACK_ENTRY").map .ofString
      outputDirectory := (env.nonEmpty? "JSPACK_OUTPUT_DIRECTORY").map .ofString
      outputFilename := env.nonEmpty? "JSPACK_OUTPUT_FILENAME" }
  match readVariable env "JSPACK_TARGET" readTarget with
  | .error f => (l, some f)
  | .ok target =>
    let l := { l with target }
    match readVariable env "JSPACK_JOBS" readCount with
    | .error f => (l, some f)
    | .ok jobs =>
      let l := { l with jobs }
      match readVariable env "JSPACK_TIMEOUT_MS" readCount with
      | .error f => (l, some f)
      | .ok timeoutMs =>
        let l := { l with timeoutMs }
        match readVariable env "JSPACK_LOADER" readLoader with
        | .error f => (l, some f)
        | .ok loader => ({ l with loader }, none)

end ConfigLayer

/-- The settings with those of an environment in their place, up to the first
variable that means nothing. -/
def Config.applyEnvironment (c : Config) (env : Environment) : Config × Option VariableFault :=
  let (l, fault) := ConfigLayer.ofEnvironment env
  (c.apply l, fault)

end Bundler
