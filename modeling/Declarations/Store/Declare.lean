import Declarations.Store.Edit

/-!
# Declaring and importing

A declaration enters a module under its own name, which must be new there. Importing a module a
second time changes nothing.
-/

namespace Declarations

/-- Why a module refuses a declaration or an import. -/
inductive DeclareError where
  | notAModule (id : NodeId)
  | notADeclaration (id : NodeId)
  | duplicate (existing : NodeId)
  deriving DecidableEq, Repr

def DeclareError.message : DeclareError → String
  | .notAModule id => "node " ++ id.text ++ " is not a module"
  | .notADeclaration id => "node " ++ id.text ++ " is not a declaration"
  | .duplicate existing =>
    "a declaration with this name already exists (" ++ existing.text ++ ")"

namespace Store

/-- Change the data of a module; other nodes stay as they are. -/
def modifyModule (store : Store) (id : NodeId) (f : Module → Module) : Store :=
  store.modify id fun
    | .module data => .module (f data)
    | other => other

/-- Put a declaration at the end of a module. -/
def declare (moduleId declId : NodeId) : Edit DeclareError Unit := do
  let store ← get
  let some header := store.header? declId | throw (.notADeclaration declId)
  let some scope := store.module? moduleId | throw (.notAModule moduleId)
  match scope.find? header.name with
  | some existing => throw (.duplicate existing)
  | none => set (store.modifyModule moduleId (·.declare header.name declId))

/-- Let a module import the module with a name. -/
def addImport (moduleId : NodeId) (imported : Name) : Edit DeclareError Unit := do
  let store ← get
  if (store.module? moduleId).isNone then throw (.notAModule moduleId)
  set (store.modifyModule moduleId (·.addImport imported))

end Store

end Declarations
