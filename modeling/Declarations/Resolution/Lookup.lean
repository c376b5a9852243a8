import Declarations.Resolution.Basic
import Declarations.Resolution.Path

/-!
# Looking up a name

A name is looked up in the innermost module around the place of use, then in the modules which
that module imports, in the order of the imports, and last among the builtin types.
-/

namespace Declarations

/-- What a name stands for. -/
inductive Symbol where
  | decl (id : NodeId)
  | builtin (builtin : Builtin)
  deriving DecidableEq, Repr

namespace Resolution

/-- The module that an import names. -/
def importedModule? (resolution : Resolution) (imported : Name) : Option Module := do
  let entry ← resolution.importable.find? fun entry => entry.1 == imported
  resolution.store.module? entry.2

/-- The declaration that a name stands for in a module or in what it imports. -/
def declared? (resolution : Resolution) (scope : Module) (name : Name) : Option NodeId :=
  match scope.find? name with
  | some id => some id
  | none =>
    scope.imports.findSome? fun imported =>
      (resolution.importedModule? imported).bind (·.find? name)

/-- The module around the end of a path. -/
def scope? (resolution : Resolution) (path : Path) : Option Module :=
  (path.enclosingModule? resolution.store).bind resolution.store.module?

/-- What a name stands for at the end of a path. -/
def lookup (resolution : Resolution) (path : Path) (name : Name) : Option Symbol :=
  match (resolution.scope? path).bind fun scope => resolution.declared? scope name with
  | some id => some (.decl id)
  | none => (Builtin.ofText? (resolution.names.text name)).map .builtin

end Resolution

end Declarations
