import Declarations.Store.Basic

/-!
# Traversal of a tree

A traversal meets the nodes below a node in source order, and reports when it enters a node and
when it leaves one that may hold others. An element is met as a member of its enumeration and
nowhere else, and nothing else is met as a member.

The depth of the recursion is bounded by a count of levels. A tree never has more levels than its
store has nodes, so the bound is never felt on a tree.
-/

namespace Declarations

/-- The place in which a node is held: as a member of an enumeration, or otherwise. -/
inductive Slot where
  | child
  | member
  deriving DecidableEq, Repr

/-- Elements are met as members only, and only elements are. -/
def Slot.admits (slot : Slot) (kind : Kind) : Bool := (slot == .member) == (kind == .element)

/-- The nodes that a traversal meets in a node, in source order. -/
def Content.slots : Content → List (Slot × NodeId)
  | .module data => data.declarations.map (.child, ·)
  | .cover data => data.fromType.toList.map (.child, ·)
  | .enum data =>
    data.underlying.explicit?.toList.map (.child, ·) ++ data.members.ids.map (.member, ·)
  | .element data => data.value.toList.map (.child, ·)
  | .variable data => data.type.toList.map (.child, ·) ++ data.value.toList.map (.child, ·)
  | .literal _ | .typeRef _ | .nameRef _ => []

/-- A step of a traversal. -/
inductive Event where
  | enter (kind : Kind) (id : NodeId)
  | leave (id : NodeId)
  deriving DecidableEq, Repr

namespace Store

/-- Add the events at and below a node, to a depth of so many levels. A node of a kind that is
not descended into is entered and left at once; leaves are not left. -/
def traverseWithin (store : Store) (descends : Kind → Bool) :
    Nat → Slot → NodeId → Array Event → Option (Array Event)
  | 0, _, _, _ => none
  | levels + 1, slot, id, events =>
    match store.content? id with
    | none => some events
    | some content =>
      if slot.admits content.kind then do
        let entered := events.push (.enter content.kind id)
        let below ←
          if descends content.kind then
            content.slots.foldlM
              (fun events held => traverseWithin store descends levels held.1 held.2 events)
              entered
          else some entered
        return if content.kind.isLeaf then below else below.push (.leave id)
      else some events

/-- The events of a traversal that descends into the given kinds. -/
def traverse (store : Store) (descends : Kind → Bool) (id : NodeId) : List Event :=
  ((store.traverseWithin descends (store.size + 1) .child id #[]).getD #[]).toList

/-- All events at and below a node. -/
def events (store : Store) (id : NodeId) : List Event :=
  store.traverse (fun _ => true) id

/-- The literals and references at and below a node. -/
def leaves (store : Store) (id : NodeId) : List (Kind × NodeId) :=
  (store.events id).filterMap fun
    | .enter kind leaf => if kind.isLeaf then some (kind, leaf) else none
    | .leave _ => none

/-- The enumerations at and below a node that are not within another. -/
def outermostEnums (store : Store) (id : NodeId) : List NodeId :=
  (store.traverse (· != .enum) id).filterMap fun
    | .enter .enum found => some found
    | _ => none

end Store

end Declarations
