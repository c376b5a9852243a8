import Declarations.Resolution.Backlog
import Declarations.Resolution.Budget
import Declarations.Resolution.Progress
import Declarations.Resolution.Registration

/-!
# The state of a resolution

A resolution works on a store and a list of modules. It keeps what is still open in the current
pass, the log of what it reported, and whether anything was found that no further pass can mend.
-/

namespace Declarations

/-- A resolution between two steps. -/
structure Resolution where
  store : Store
  names : NameTable
  /-- The modules to resolve, in order. -/
  modules : List NodeId
  /-- The modules that can be imported, by the names they had at the start, newest first. -/
  importable : List (Name × NodeId)
  budget : Budget := .standard
  log : Log := .ofPolicy .unlimited
  /-- What the current pass left open. -/
  backlog : Backlog := .empty
  failed : Bool := false
  passes : Nat := 0

namespace Resolution

/-- The modules of a list by name. A name that occurs again stands for the module listed last,
which comes first. -/
def importableModules (store : Store) (modules : List NodeId) : List (Name × NodeId) :=
  (modules.filterMap fun id => (store.module? id).map fun scope => (scope.name, id)).reverse

/-- A resolution that has not begun. -/
def ofModules (store : Store) (names : NameTable) (modules : List NodeId) : Resolution where
  store := store
  names := names
  modules := modules
  importable := importableModules store modules

def withBudget (resolution : Resolution) (budget : Budget) : Resolution :=
  { resolution with budget := budget }

/-- Continue an existing log. Errors in it count as a failure of the resolution. -/
def withLog (resolution : Resolution) (log : Log) : Resolution :=
  { resolution with log := log, failed := log.hasErrors?.isSome }

/-- What the current pass left open, in the order in which it was first deferred. -/
def deferrals (resolution : Resolution) : List Deferral := resolution.backlog.toList

/-- Record that a node is still open. A node that is recorded already keeps its place and gets the
new reason. -/
def defer (resolution : Resolution) (id : NodeId) (reason : String) : Resolution :=
  { resolution with backlog := resolution.backlog.defer id (resolution.store.span id) reason }

/-- Report what no further pass can mend. -/
def reportFatal (resolution : Resolution) (diagnostic : Diagnostic) : Resolution :=
  { resolution with log := (resolution.log.emitError diagnostic).2, failed := true }

/-- Change the content of a node. -/
def modify (resolution : Resolution) (id : NodeId) (f : Content → Content) : Resolution :=
  { resolution with store := resolution.store.modify id f }

/-- Mark a declaration as resolved. -/
def finish (resolution : Resolution) (id : NodeId) : Resolution :=
  { resolution with store := resolution.store.markResolved id }

/-- Register an element; a refusal is a failure of the resolution. -/
def addElement (resolution : Resolution) (enumId elementId : NodeId) :
    Except ErrorToken Unit × Resolution :=
  let (result, store, log) :=
    resolution.store.addElement resolution.names resolution.log enumId elementId
  let failed :=
    match result with
    | .ok () => resolution.failed
    | .error _ => true
  (result, { resolution with store := store, log := log, failed := failed })

end Resolution

end Declarations
