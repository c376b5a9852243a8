import Declarations.Library.Address

/-!
# Loading libraries

A loader opens libraries by path through a backend. A path that cannot be opened as it stands is
tried once more with a suffix, which is that of the platform's library files; if that fails as well,
the error is about the path that was asked for.
-/

namespace Declarations

/-- The platforms, as far as they name library files differently. -/
inductive Platform where
  | windows
  | apple
  | other
  deriving DecidableEq, Repr

/-- The suffix of library files. -/
def Platform.suffix : Platform → String
  | .windows => ".dll"
  | .apple => ".dylib"
  | .other => ".so"

/-- The operations on libraries that a platform offers. A refusal is a text. -/
class Backend (β : Type) (Library : outParam Type) where
  openLibrary : String → StateM β (Except String Library)
  symbol : β → Library → String → Except String Address
  closeLibrary : Library → StateM β (Except String Unit)

/-- An open library and the path under which it was opened. -/
structure Handle (Library : Type) where
  library : Library
  path : String
  deriving DecidableEq, Repr

/-- The refusal to open a path. -/
structure LoadError where
  path : String
  reason : String
  deriving DecidableEq, Repr

def LoadError.message (error : LoadError) : String :=
  "cannot load library `" ++ error.path ++ "`: " ++ error.reason

/-- The refusal to find a symbol. -/
structure SymbolError where
  name : String
  reason : String
  deriving DecidableEq, Repr

def SymbolError.message (error : SymbolError) : String :=
  "symbol `" ++ error.name ++ "` not found: " ++ error.reason

namespace Loader

variable {β Library : Type} [Backend β Library]

/-- Open a path, or else the path with the suffix. -/
def openPath (suffix path : String) : StateM β (Except LoadError (Handle Library)) := do
  match ← Backend.openLibrary path with
  | .ok library => return .ok ⟨library, path⟩
  | .error reason =>
    match ← Backend.openLibrary (path ++ suffix) with
    | .ok library => return .ok ⟨library, path ++ suffix⟩
    | .error _ => return .error ⟨path, reason⟩

/-- The address of a symbol in an open library. -/
def findSymbol (backend : β) (handle : Handle Library) (name : String) :
    Except SymbolError Address :=
  (Backend.symbol backend handle.library name).mapError fun reason => ⟨name, reason⟩

/-- Close a library, and say whether the backend could. -/
def close (handle : Handle Library) : StateM β Bool := do
  let closed : Except String Unit ← Backend.closeLibrary handle.library
  return closed.isOk

end Loader

end Declarations
