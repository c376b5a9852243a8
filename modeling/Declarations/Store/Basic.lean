import Declarations.Node.Basic

/-!
# The store of nodes

All nodes of a program live in one store and are found by their number. A new node is put at the
end, so numbers never change their meaning. The lemmas say what a node reads as after a node is
added or changed; nothing else needs the representation.
-/

namespace Declarations

/-- The nodes in order of allocation. -/
structure Store where
  nodes : Array Node

namespace Store

def empty : Store := ⟨#[]⟩

instance : Inhabited Store := ⟨empty⟩

def size (store : Store) : Nat := store.nodes.size

def isEmpty (store : Store) : Bool := store.nodes.isEmpty

/-- The node with a number. -/
def get? (store : Store) (id : NodeId) : Option Node := store.nodes[id.index]?

/-- The content of a node. -/
def content? (store : Store) (id : NodeId) : Option Content :=
  (store.get? id).map Node.content

/-- Where a node stands; an unknown node stands nowhere. -/
def span (store : Store) (id : NodeId) : Span :=
  ((store.get? id).map Node.span).getD Span.nowhere

def kind? (store : Store) (id : NodeId) : Option Kind :=
  (store.content? id).map Content.kind

/-- The header of a declaration. -/
def header? (store : Store) (id : NodeId) : Option Header :=
  (store.content? id).bind Content.header?

/-- Whether a node is a declaration that is marked as resolved. -/
def isResolved (store : Store) (id : NodeId) : Bool :=
  (store.content? id).any Content.isResolved

/-- The members of a type declaration. -/
def members? (store : Store) (id : NodeId) : Option Members :=
  (store.content? id).bind Content.members?

/-- The node's data, if it is a module. -/
def module? (store : Store) (id : NodeId) : Option Module :=
  match store.content? id with
  | some (.module data) => some data
  | _ => none

/-- The node's data, if it is a cover. -/
def cover? (store : Store) (id : NodeId) : Option Cover :=
  match store.content? id with
  | some (.cover data) => some data
  | _ => none

/-- The node's data, if it is an enumeration. -/
def enum? (store : Store) (id : NodeId) : Option Enumeration :=
  match store.content? id with
  | some (.enum data) => some data
  | _ => none

/-- The node's data, if it is an element of an enumeration. -/
def element? (store : Store) (id : NodeId) : Option Element :=
  match store.content? id with
  | some (.element data) => some data
  | _ => none

/-- The node's data, if it is a variable. -/
def var? (store : Store) (id : NodeId) : Option Variable :=
  match store.content? id with
  | some (.variable data) => some data
  | _ => none

/-- The node's value, if it is a literal. -/
def literal? (store : Store) (id : NodeId) : Option Literal :=
  match store.content? id with
  | some (.literal value) => some value
  | _ => none

/-- The node's data, if it is a type reference. -/
def typeRef? (store : Store) (id : NodeId) : Option TypeReference :=
  match store.content? id with
  | some (.typeRef data) => some data
  | _ => none

/-- The node's data, if it is a name reference. -/
def nameRef? (store : Store) (id : NodeId) : Option NameReference :=
  match store.content? id with
  | some (.nameRef data) => some data
  | _ => none

/-- Put a node at the end. -/
def alloc (store : Store) (content : Content) (span : Span) : NodeId × Store :=
  (⟨store.size⟩, ⟨store.nodes.push ⟨content, span⟩⟩)

/-- Put an enumeration at the end, after the literal zero that its values start from. -/
def allocEnum (store : Store) (header : Header) (span : Span) : NodeId × Store :=
  let (zero, store) := store.alloc (.literal (.int 0)) span
  store.alloc (.enum { header := header, lastValue := zero }) span

/-- Change the content of a node; an unknown node changes nothing. -/
def modify (store : Store) (id : NodeId) (f : Content → Content) : Store :=
  ⟨store.nodes.modify id.index fun node => { node with content := f node.content }⟩

/-- Replace the content of a node. -/
def setContent (store : Store) (id : NodeId) (content : Content) : Store :=
  store.modify id fun _ => content

/-- Mark a declaration as resolved. -/
def markResolved (store : Store) (id : NodeId) : Store :=
  store.modify id (Content.mapHeader Header.markResolved)

/-- The name of the type that an enumeration's values have. -/
def underlyingName (store : Store) (decl : Enumeration) : Name :=
  match decl.underlying.explicit?.bind store.typeRef? with
  | some reference => reference.name
  | none => decl.header.name

/-- The nodes that a node holds. -/
def children (store : Store) (id : NodeId) : List NodeId :=
  ((store.content? id).map Content.children).getD []

@[simp] theorem size_alloc (store : Store) (content : Content) (span : Span) :
    (store.alloc content span).2.size = store.size + 1 := by
  simp [alloc, size]

@[simp] theorem size_modify (store : Store) (id : NodeId) (f : Content → Content) :
    (store.modify id f).size = store.size := by
  simp [modify, size]

theorem get?_eq_none_iff (store : Store) (id : NodeId) :
    store.get? id = none ↔ store.size ≤ id.index := by
  simp [get?, size]

theorem get?_alloc (store : Store) (content : Content) (span : Span) (id : NodeId) :
    (store.alloc content span).2.get? id =
      if id = (store.alloc content span).1 then some ⟨content, span⟩ else store.get? id := by
  cases id with
  | mk index => simp [alloc, get?, size, Array.getElem?_push]

theorem get?_modify (store : Store) (changed id : NodeId) (f : Content → Content) :
    (store.modify changed f).get? id =
      if changed = id then (store.get? id).map fun node => { node with content := f node.content }
      else store.get? id := by
  cases changed with
  | mk index =>
    cases id with
    | mk other => simp [modify, get?, Array.getElem?_modify]

/-- Changing content moves no node. -/
@[simp] theorem span_modify (store : Store) (changed id : NodeId) (f : Content → Content) :
    (store.modify changed f).span id = store.span id := by
  simp only [span, get?_modify]
  split <;> simp [Option.map_map, Function.comp_def]

end Store

end Declarations
