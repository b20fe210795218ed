/-
The functions that generated code brings along. Each is written here as
JavaScript, and read by the parser when a module needs it; braces are written
as `«` and `»`.
-/
import Bundler.Script.Parser.Module
import Bundler.Script.Scope

namespace Bundler.Script

/-- Turns the two marks that stand for braces into braces. -/
def withBraces (text : String) : String :=
  String.ofList (text.toList.map fun c => if c == '«' then '\x7b' else if c == '»' then '\x7d' else c)

/-- The helpers, in the order in which a module holds them. The functions of
one helper stand together. -/
def helperSources : List (List String) := [
  ["function _array_like_to_array(arr, len) «
    if (len == null || len > arr.length) len = arr.length;
    for(var i = 0, arr2 = new Array(len); i < len; i++)arr2[i] = arr[i];
    return arr2;
    »"],
  ["function _array_with_holes(arr) «
    if (Array.isArray(arr)) return arr;
    »"],
  ["function _array_without_holes(arr) «
    if (Array.isArray(arr)) return _array_like_to_array(arr);
    »"],
  ["function _class_call_check(instance, Constructor) «
    if (!(instance instanceof Constructor)) «
    throw new TypeError(\"Cannot call a class as a function\");
    »
    »"],
  ["function _defineProperties(target, props) «
    for(var i = 0; i < props.length; i++)«
    var descriptor = props[i];
    descriptor.enumerable = descriptor.enumerable || false;
    descriptor.configurable = true;
    if (\"value\" in descriptor) descriptor.writable = true;
    Object.defineProperty(target, descriptor.key, descriptor);
    »
    »",
   "function _create_class(Constructor, protoProps, staticProps) «
    if (protoProps) _defineProperties(Constructor.prototype, protoProps);
    if (staticProps) _defineProperties(Constructor, staticProps);
    return Constructor;
    »"],
  ["function _define_property(obj, key, value) «
    if (key in obj) «
    Object.defineProperty(obj, key, «
    value: value,
    enumerable: true,
    configurable: true,
    writable: true
    »);
    » else «
    obj[key] = value;
    »
    return obj;
    »"],
  ["function _export_star(from, to) «
    Object.keys(from).forEach(function(k) «
    if (k !== \"default\" && !Object.prototype.hasOwnProperty.call(to, k)) «
    Object.defineProperty(to, k, «
    enumerable: true,
    get: function() «
    return from[k];
    »
    »);
    »
    »);
    return from;
    »"],
  ["function _instanceof(left, right) «
    if (right != null && typeof Symbol !== \"undefined\" && right[Symbol.hasInstance]) «
    return !!right[Symbol.hasInstance](left);
    » else «
    return left instanceof right;
    »
    »"],
  ["function _interop_require_default(obj) «
    return obj && obj.__esModule ? obj : «
    default: obj
    »;
    »"],
  ["function _getRequireWildcardCache(nodeInterop) «
    if (typeof WeakMap !== \"function\") return null;
    var cacheBabelInterop = new WeakMap();
    var cacheNodeInterop = new WeakMap();
    return (_getRequireWildcardCache = function(nodeInterop) «
    return nodeInterop ? cacheNodeInterop : cacheBabelInterop;
    »)(nodeInterop);
    »",
   "function _interop_require_wildcard(obj, nodeInterop) «
    if (!nodeInterop && obj && obj.__esModule) «
    return obj;
    »
    if (obj === null || typeof obj !== \"object\" && typeof obj !== \"function\") «
    return «
    default: obj
    »;
    »
    var cache = _getRequireWildcardCache(nodeInterop);
    if (cache && cache.has(obj)) «
    return cache.get(obj);
    »
    var newObj = «
    __proto__: null
    »;
    var hasPropertyDescriptor = Object.defineProperty && Object.getOwnPropertyDescriptor;
    for(var key in obj)«
    if (key !== \"default\" && Object.prototype.hasOwnProperty.call(obj, key)) «
    var desc = hasPropertyDescriptor ? Object.getOwnPropertyDescriptor(obj, key) : null;
    if (desc && (desc.get || desc.set)) «
    Object.defineProperty(newObj, key, desc);
    » else «
    newObj[key] = obj[key];
    »
    »
    »
    newObj.default = obj;
    if (cache) «
    cache.set(obj, newObj);
    »
    return newObj;
    »"],
  ["function _iterable_to_array(iter) «
    if (typeof Symbol !== \"undefined\" && iter[Symbol.iterator] != null || iter[\"@@iterator\"] != null) return Array.from(iter);
    »"],
  ["function _iterable_to_array_limit(arr, i) «
    var _i = arr == null ? null : typeof Symbol !== \"undefined\" && arr[Symbol.iterator] || arr[\"@@iterator\"];
    if (_i == null) return;
    var _arr = [];
    var _n = true;
    var _d = false;
    var _s, _e;
    try «
    for(_i = _i.call(arr); !(_n = (_s = _i.next()).done); _n = true)«
    _arr.push(_s.value);
    if (i && _arr.length === i) break;
    »
    » catch (err) «
    _d = true;
    _e = err;
    » finally«
    try «
    if (!_n && _i[\"return\"] != null) _i[\"return\"]();
    » finally«
    if (_d) throw _e;
    »
    »
    return _arr;
    »"],
  ["function _non_iterable_rest() «
    throw new TypeError(\"Invalid attempt to destructure non-iterable instance.\\\\nIn order to be iterable, non-array objects must have a [Symbol.iterator]() method.\");
    »"],
  ["function _non_iterable_spread() «
    throw new TypeError(\"Invalid attempt to spread non-iterable instance.\\\\nIn order to be iterable, non-array objects must have a [Symbol.iterator]() method.\");
    »"],
  ["function _sliced_to_array(arr, i) «
    return _array_with_holes(arr) || _iterable_to_array_limit(arr, i) || _unsupported_iterable_to_array(arr, i) || _non_iterable_rest();
    »"],
  ["function _tagged_template_literal(strings, raw) «
    if (!raw) «
    raw = strings.slice(0);
    »
    return Object.freeze(Object.defineProperties(strings, «
    raw: «
    value: Object.freeze(raw)
    »
    »));
    »"],
  ["function _to_consumable_array(arr) «
    return _array_without_holes(arr) || _iterable_to_array(arr) || _unsupported_iterable_to_array(arr) || _non_iterable_spread();
    »"],
  ["function _type_of(obj) «
    \"@swc/helpers - typeof\";
    return obj && typeof Symbol !== \"undefined\" && obj.constructor === Symbol ? \"symbol\" : typeof obj;
    »"],
  ["function _unsupported_iterable_to_array(o, minLen) «
    if (!o) return;
    if (typeof o === \"string\") return _array_like_to_array(o, minLen);
    var n = Object.prototype.toString.call(o).slice(8, -1);
    if (n === \"Object\" && o.constructor) n = o.constructor.name;
    if (n === \"Map\" || n === \"Set\") return Array.from(n);
    if (n === \"Arguments\" || /^(?:Ui|I)nt(?:8|16|32)(?:Clamped)?Array$/.test(n)) return _array_like_to_array(o, minLen);
    »"]]

/-- Publishes several exports at once. A module that does so holds this
function under a name of its own. -/
def exportSource : String :=
  "function _export(target, all) «
    for(var name in all)Object.defineProperty(target, name, «
    enumerable: true,
    get: all[name]
    »);
    »"

/-! ## Reading helpers -/

/-- The statements of a source that is known to be well formed. -/
def readStmts (source : String) : List Stmt :=
  match Module.parse (withBraces source) with
  | .ok m => m.items.filterMap fun
      | .stmt s => some s
      | _ => none
  | .error _ => []

/-- The name of the function that a source defines. -/
def functionName (source : String) : String :=
  String.ofList ((source.toList.drop "function ".length).takeWhile isNamePart)

def helperNames : List String := helperSources.flatten.map functionName

/-- A reference to a helper. -/
def helperIdent (name : String) : Ident := ⟨name, helperScope⟩

/-- A call of a helper. -/
def callHelper (name : String) (args : List Expr) (isPure : Bool := false) : Expr :=
  .call (.ident (helperIdent name)) args isPure

/-! ## Which helpers a program needs -/

/-- Collects the helpers that a node names. -/
def collectHelpers (r : Rewrite (StateM (List String))) : Rewrite (StateM (List String))
  | .expr, .ident id => do
    if id.scope == helperScope then modify fun names => names.insert id.name
    return .ident id
  | k, x => r.mapChildren k x

/-- The helpers that statements name. -/
def helpersIn (body : List Stmt) : List String :=
  ((Rewrite.run collectHelpers (stmtsDepthBound body)).stmts body []).2

/-- A helper function and the helper it belongs to. -/
structure HelperFunction where
  group : Nat
  name : String
  body : List Stmt

/-- All helper functions, in the order in which a module holds them. -/
def helperFunctions : Fresh (List HelperFunction) := do
  let sources := helperSources.zipIdx.flatMap fun (group, i) => group.map fun s => (i, s)
  sources.mapM fun (group, source) => do
    let body ← Resolver.stmts [(helperScope, helperNames)] (readStmts source)
    return { group, name := functionName source, body }

/-- The helper functions that these names need. A helper comes with all its
functions, and with the helpers they name; each round adds at least one. -/
def neededHelpers (all : List HelperFunction) : Nat → List String → List HelperFunction
  | 0, _ => []
  | fuel + 1, names =>
    let groups := (all.filter fun h => names.contains h.name).map (·.group)
    let chosen := all.filter fun h => groups.contains h.group
    let more := (chosen.flatMap fun h => h.name :: helpersIn h.body).filter (!names.contains ·)
    if more.isEmpty then chosen else neededHelpers all fuel (names ++ more.eraseDups)

/-- The definitions of the helpers that statements need. -/
def helperStmts (body : List Stmt) : Fresh (List Stmt) := do
  let names := helpersIn body
  if names.isEmpty then return []
  let all ← helperFunctions
  return (neededHelpers all (all.length + 1) names).flatMap (·.body)

end Bundler.Script
