import Declarations.Store.Basic

/-!
# Paths into a tree

A path is the chain of nodes from the root of a walk down to the node at hand. It tells what the
node is enclosed by.
-/

namespace Declarations

/-- The nodes of a path, innermost first. -/
structure Path where
  nodes : List NodeId := []
  deriving DecidableEq, Repr

namespace Path

def empty : Path := {}

/-- The path with these nodes, outermost first. -/
def ofOutermost (nodes : List NodeId) : Path := ⟨nodes.reverse⟩

def length (path : Path) : Nat := path.nodes.length

def isEmpty (path : Path) : Bool := path.nodes.isEmpty

/-- Go down to a node. -/
def push (path : Path) (id : NodeId) : Path := ⟨id :: path.nodes⟩

/-- The innermost node. -/
def innermost? (path : Path) : Option NodeId := path.nodes.head?

/-- Go up by one node; an empty path stays as it is. -/
def pop (path : Path) : Path := ⟨path.nodes.tail⟩

/-- The place of a node, counted from the outermost; of several places the outermost. -/
def indexOf? (path : Path) (id : NodeId) : Option Nat := path.nodes.reverse.idxOf? id

/-- The innermost node whose kind has a property. -/
def enclosing? (path : Path) (store : Store) (holds : Kind → Bool) : Option NodeId :=
  path.nodes.find? fun id => (store.kind? id).any holds

def enclosingModule? (path : Path) (store : Store) : Option NodeId :=
  path.enclosing? store (· == .module)

def enclosingTypeDecl? (path : Path) (store : Store) : Option NodeId :=
  path.enclosing? store Kind.isTypeDecl

/-- Do something one node further down, then go up from wherever that left the path. -/
def within {α : Type} (path : Path) (id : NodeId) (body : Path → α × Path) : α × Path :=
  let (result, left) := body (path.push id)
  (result, left.pop)

end Path

end Declarations
