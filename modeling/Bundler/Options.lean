/-
The choices a build leaves open: the language level of generated code, and
how the artifact holds it. Both have names that are read without regard to
the case of ASCII letters.
-/

namespace Bundler

/-- The language level of generated code. -/
inductive Target where
  /-- Newer syntax is lowered, and generated variables are declared by
  `var`. -/
  | es5
  /-- Syntax is kept, and generated variables are declared by `const`. -/
  | es2015
deriving BEq, DecidableEq, Repr, Inhabited

/-- How the artifact holds the code of a module. -/
inductive LoaderStyle where
  /-- As a string, which the loader compiles. -/
  | eval
  /-- As a function. -/
  | factory
deriving BEq, DecidableEq, Repr, Inhabited

/-- A name that is none of those asked for, in lower case. -/
inductive UnknownName where
  | target (name : String)
  | loader (name : String)
deriving BEq, DecidableEq, Repr

def UnknownName.message : UnknownName → String
  | .target name => s!"unknown target '{name}' (expected es5 or es2015)"
  | .loader name => s!"unknown loader '{name}' (expected eval or factory)"

def Target.name : Target → String
  | .es5 => "es5"
  | .es2015 => "es2015"

def Target.ofName (s : String) : Except UnknownName Target :=
  match s.toLower with
  | "es5" => .ok .es5
  | "es2015" | "es6" => .ok .es2015
  | other => .error (.target other)

def LoaderStyle.name : LoaderStyle → String
  | .eval => "eval"
  | .factory => "factory"

def LoaderStyle.ofName (s : String) : Except UnknownName LoaderStyle :=
  match s.toLower with
  | "eval" => .ok .eval
  | "factory" => .ok .factory
  | other => .error (.loader other)

end Bundler
