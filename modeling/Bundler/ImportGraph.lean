/-
The graph of imports in a table of modules. It also has a node for each
module that is imported but has no record. Components group the modules of
one cycle, and come with imported modules first.
-/
import Bundler.Graph.Tarjan
import Bundler.ModuleTable

namespace Bundler

/-- An import, seen from the module imported. -/
structure ImportEdge where
  imported : ModuleId
  importer : ModuleId
deriving DecidableEq, Repr

/-- Modules and the imports between them. -/
structure ImportGraph where
  nodes : List ModuleId := []
  /-- The imports, the one found last first. -/
  edges : List ImportEdge := []

namespace ImportGraph

def addNode (g : ImportGraph) (id : ModuleId) : ImportGraph :=
  if id ∈ g.nodes then g else { g with nodes := g.nodes ++ [id] }

def addEdge (g : ImportGraph) (e : ImportEdge) : ImportGraph :=
  let g := (g.addNode e.importer).addNode e.imported
  if e ∈ g.edges then g else { g with edges := e :: g.edges }

/-- The imports of a table, in the order of records and of imports. -/
def importsOf (t : ModuleTable) : List ImportEdge :=
  t.records.flatMap fun r => r.deps.targets.map fun target => ⟨target, r.id⟩

def ofTable (t : ModuleTable) : ImportGraph :=
  (importsOf t).foldl addEdge (t.ids.foldl addNode {})

/-- The modules that import a module, the one found last first. -/
def importers (g : ImportGraph) (id : ModuleId) : List ModuleId :=
  (g.edges.filter fun e => e.imported = id).map (·.importer)

/-- The modules that a module imports. -/
def imported (g : ImportGraph) (id : ModuleId) : List ModuleId :=
  (g.edges.filter fun e => e.importer = id).map (·.imported)

def sortIds (ids : List ModuleId) : List ModuleId := ids.mergeSort ModuleId.le

/-- The modules that import a module, in order. -/
def dependents (g : ImportGraph) (id : ModuleId) : List ModuleId := sortIds (g.importers id)

/-- The modules that a module imports, in order. -/
def dependencies (g : ImportGraph) (id : ModuleId) : List ModuleId := sortIds (g.imported id)

/-- The modules that import each other, in groups. A group comes after those
it imports from: edges lead to importers, so these are found first. -/
def components (g : ImportGraph) : List (List ModuleId) :=
  (Graph.components g.nodes g.importers).reverse.map sortIds

/-- All modules, each after those it imports, as far as cycles allow. -/
def dependencyOrder (g : ImportGraph) : List ModuleId := g.components.flatten

def importsItself (g : ImportGraph) (id : ModuleId) : Bool := decide (⟨id, id⟩ ∈ g.edges)

/-- Whether a component is a cycle: more than one module, or one that imports
itself. -/
def isCycle (g : ImportGraph) : List ModuleId → Bool
  | [id] => g.importsItself id
  | _ => true

/-- The order of lists of identities, by the first one that differs. -/
def lexLe : List ModuleId → List ModuleId → Bool
  | [], _ => true
  | _ :: _, [] => false
  | a :: as, b :: bs => if a = b then lexLe as bs else a.le b

/-- The cycles, in order. -/
def cycles (g : ImportGraph) : List (List ModuleId) :=
  (g.components.filter g.isCycle).mergeSort lexLe

end ImportGraph

/-! ## The report -/

/-- Modules that import each other, in the order of their identities. -/
structure ModuleCycle where
  modules : List ModuleId
deriving DecidableEq, Repr

namespace ModuleCycle

def isSelfImport (c : ModuleCycle) : Bool := c.modules.length == 1

/-- The modules with arrows between them, back to the first. -/
def text (c : ModuleCycle) : String :=
  " -> ".intercalate ((c.modules ++ c.modules.take 1).map (·.text))

end ModuleCycle

/-- The cycles in a table. -/
structure CycleReport where
  cycles : List ModuleCycle := []
deriving DecidableEq, Repr

namespace CycleReport

def ofTable (t : ModuleTable) : CycleReport :=
  ⟨(ImportGraph.ofTable t).cycles.map .mk⟩

def hasCycles (r : CycleReport) : Bool := !r.cycles.isEmpty

def largestSize (r : CycleReport) : Nat :=
  r.cycles.foldl (fun n c => max n c.modules.length) 0

/-- Whether a module is in a cycle. -/
def involves (r : CycleReport) (id : ModuleId) : Bool :=
  r.cycles.any fun c => c.modules.contains id

end CycleReport

end Bundler
