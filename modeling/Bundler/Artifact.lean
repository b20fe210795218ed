/-
The artifact: one script that holds all modules of a table, and a loader that
runs them. A banner says what it is; the digest in it is that of all that
follows.
-/
import Bundler.Error
import Bundler.ModuleTable
import Bundler.Options
import Bundler.Sha256
import Bundler.Text.Json
import Bundler.Text.Utf8

namespace Bundler

/-- A finished artifact. -/
structure Bundle where
  text : String
  /-- The digest of what follows the banner. -/
  hash : String
  moduleCount : Nat
deriving DecidableEq, Repr

namespace Artifact

/-! ## The loader -/

/-- Writes lines, with `«` and `»` for braces. -/
def lines (ls : List String) : String :=
  String.ofList ((ls.flatMap fun l => l.toList ++ ['\n']).map fun c =>
    if c = '«' then '\x7b' else if c = '»' then '\x7d' else c)

/-- The loader up to where it runs a module. -/
def loaderHead : String := lines [
  "(function (modules) «",
  "  var cache = «»;",
  "  var hasOwn = Object.prototype.hasOwnProperty;",
  "  function require(id) «",
  "    if (hasOwn.call(cache, id)) «",
  "      return cache[id];",
  "    »",
  "    if (!hasOwn.call(modules, id)) «",
  "      throw new Error(\"Cannot find module '\" + id + \"' in bundle\");",
  "    »",
  "    var record = modules[id];",
  "    var exports = «»;",
  "    cache[id] = exports;",
  "    function localRequire(specifier) «",
  "      if (!hasOwn.call(record.deps, specifier)) «",
  "        throw new Error(\"Cannot resolve '\" + specifier + \"' from module '\" + id + \"'\");",
  "      »",
  "      return require(record.deps[specifier]);",
  "    »"]

/-- Runs a module. -/
def loaderInvoke : LoaderStyle → String
  | .eval => lines ["    new Function(\"require\", \"exports\", record.code)(localRequire, exports);"]
  | .factory => lines ["    record.factory(localRequire, exports);"]

def loaderTail : String := lines ["    return exports;", "  »"]

/-- Starts the entry, and opens what the loader is called with. -/
def entryCall (entry : ModuleId) : String :=
  "  require(" ++ Json.quote entry.text ++ ");\n\x7d)("

/-! ## The modules -/

def depsText (deps : DependencyMap) : String :=
  Json.object (deps.map fun (s, t) => (s, Json.quote t.text))

/-- The modules as one JSON object. -/
def evalTable (records : List ModuleRecord) : String :=
  Json.object (records.map fun r =>
    (r.id.text, Json.object [("code", Json.quote r.code), ("deps", depsText r.deps)]))

/-- The code of a module on lines of its own. -/
def codeLines (code : String) : String :=
  if code.toList.getLast? = some '\n' then code else code ++ "\n"

/-- A module as a member that holds a function. -/
def factoryUnit (r : ModuleRecord) : String :=
  Json.quote r.id.text ++ ": \x7b\ndeps: " ++ depsText r.deps ++
    ",\nfactory: function (require, exports) \x7b\n" ++ codeLines r.code ++ "\x7d\n\x7d"

/-- The modules as one object with functions. -/
def factoryTable (records : List ModuleRecord) : String :=
  "\x7b\n" ++ ",\n".intercalate (records.map factoryUnit) ++
    (if records.isEmpty then "" else "\n") ++ "\x7d"

def tableText (style : LoaderStyle) (records : List ModuleRecord) : String :=
  match style with
  | .eval => evalTable records
  | .factory => factoryTable records

/-! ## The whole -/

/-- All of the artifact but the banner. -/
def body (entry : ModuleId) (table : ModuleTable) (style : LoaderStyle) : String :=
  loaderHead ++ loaderInvoke style ++ loaderTail ++ entryCall entry ++
    tableText style table.sort.records ++ ");\n"

/-- A text in a comment: it must not end the comment. -/
def inComment : List Char → List Char
  | '*' :: '/' :: rest => '*' :: '\\' :: '/' :: inComment rest
  | c :: rest => c :: inComment rest
  | [] => []

def banner (entry : ModuleId) (count : Nat) (style : LoaderStyle) (hash : String) : String :=
  "/* jspack 0.3.0 | entry " ++ String.ofList (inComment entry.text.toList) ++ " | " ++
    toString count ++ " modules | loader " ++ style.name ++ " | sha256 " ++ shortHash hash 16 ++
    " */\n"

end Artifact

/-- The artifact for an entry. It takes a record for the entry, and for each
import. -/
def emit (entry : ModuleId) (table : ModuleTable) (style : LoaderStyle) : Except EmitError Bundle :=
  if !table.contains entry then .error (.missingEntry entry)
  else
    match table.missingDependencies with
    | d :: _ => .error (.danglingDependency d.importer d.specifier d.target)
    | [] =>
      let body := Artifact.body entry table style
      let hash := sha256 (Utf8.encode body)
      let count := table.records.length
      .ok ⟨Artifact.banner entry count style hash ++ body, hash, count⟩

end Bundler
