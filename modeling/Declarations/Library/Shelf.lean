import Declarations.Library.Loader

/-!
# Libraries in memory

A shelf is a backend whose libraries are known in advance. It keeps a record of what it was asked
to open and close. A library on the shelf is known by its path.
-/

namespace Declarations

/-- Libraries by path with the addresses of their symbols, the reasons for which other paths are
refused, the libraries that cannot be closed, and the record of requests, oldest first. -/
structure Shelf where
  libraries : List (String × List (String × Address))
  reasons : List (String × String) := []
  busy : List String := []
  record : List String := []
  deriving DecidableEq, Repr

namespace Shelf

/-- The symbols of the library with exactly this path. -/
def symbols? (shelf : Shelf) (path : String) : Option (List (String × Address)) :=
  shelf.libraries.lookup path

/-- Why a path is refused. -/
def refusal (shelf : Shelf) (path : String) : String :=
  (shelf.reasons.lookup path).getD (path ++ ": not found")

/-- Add a request to the record. -/
def note (shelf : Shelf) (request : String) : Shelf :=
  { shelf with record := shelf.record ++ [request] }

def openLibrary (path : String) : StateM Shelf (Except String String) := do
  modify (·.note ("open " ++ path))
  let shelf ← get
  match shelf.symbols? path with
  | some _ => return .ok path
  | none => return .error (shelf.refusal path)

def symbol (shelf : Shelf) (path name : String) : Except String Address :=
  match (shelf.symbols? path).bind (·.lookup name) with
  | some address => .ok address
  | none => .error ("undefined symbol: " ++ name)

def closeLibrary (path : String) : StateM Shelf (Except String Unit) := do
  modify (·.note ("close " ++ path))
  if path ∈ (← get).busy then return .error "busy" else return .ok ()

instance : Backend Shelf String where
  openLibrary := openLibrary
  symbol := symbol
  closeLibrary := closeLibrary

end Shelf

end Declarations
