import Declarations.Store.Edit

/-!
# Replacing a child

One child of a node is exchanged for another node. In a module the first such declaration is
exchanged, and every symbol that stood for the old node stands for the new one. The children of an
enumeration are tied to its values and cannot be exchanged.
-/

namespace Declarations

/-- Why a child cannot be replaced. -/
inductive ReplaceError where
  | notReplaceable (kind : Kind)
  | childNotFound (parent child : NodeId)
  deriving DecidableEq, Repr

def ReplaceError.message : ReplaceError → String
  | .notReplaceable kind => "cannot replace children of a " ++ kind.text
  | .childNotFound parent child => child.text ++ " is not a child of " ++ parent.text

/-- Exchange a declaration and retarget its symbols, if the module has it. -/
def Module.replace? (scope : Module) (old new : NodeId) : Option Module :=
  if old ∈ scope.declarations then
    some { scope with
      declarations := scope.declarations.replace old new
      symbols := scope.symbols.map fun symbol =>
        if symbol.2 = old then (symbol.1, new) else symbol }
  else none

/-- Exchange a child in the first place that holds it. -/
def Content.replace? (old new : NodeId) : Content → Option Content
  | .module data => (data.replace? old new).map .module
  | .cover data =>
    if data.fromType = some old then some (.cover { data with fromType := some new }) else none
  | .element data =>
    if data.value = some old then some (.element { data with value := some new }) else none
  | .variable data =>
    if data.type = some old then some (.variable { data with type := some new })
    else if data.value = some old then some (.variable { data with value := some new })
    else none
  | .enum _ | .literal _ | .typeRef _ | .nameRef _ => none

/-- Exchange the child `old` of a node for `new`. -/
def Store.replaceChild (parent old new : NodeId) : Edit ReplaceError Unit := do
  let store ← get
  match store.content? parent with
  | none => throw (.childNotFound parent old)
  | some (.enum _) => throw (.notReplaceable .enum)
  | some content =>
    match content.replace? old new with
    | some replaced => set (store.setContent parent replaced)
    | none => throw (.childNotFound parent old)

end Declarations
