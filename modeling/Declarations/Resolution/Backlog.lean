import Std.Data.TreeMap
import Declarations.Node.Id
import Declarations.Span

/-!
# The backlog of a pass

What a pass leaves open is kept in the order in which it was first deferred, with an index from each
node to its position. A node that is deferred again is found through the index and keeps its place.

The list and its index are in step by construction: the index gives a position for a node exactly if
the node stands there. So a position that it gives is one of the list, and no node is listed twice.
-/

namespace Declarations

/-- A node that could not be settled in a pass, and why. -/
structure Deferral where
  node : NodeId
  span : Span
  reason : String
  deriving DecidableEq, Repr

namespace Backlog

/-- An index gives a position for a node exactly if the node stands there. -/
def InStep (entries : Array Deferral) (index : Std.TreeMap Nat Nat) : Prop :=
  ∀ (id : NodeId) (position : Nat),
    index[id.index]? = some position ↔ entries[position]?.map Deferral.node = some id

namespace InStep

variable {entries : Array Deferral} {index : Std.TreeMap Nat Nat}

theorem empty : InStep #[] Std.TreeMap.empty := by
  intro id position
  simp

/-- A change of the reasons leaves every node where it stands. -/
theorem modify (inStep : InStep entries index) (position : Nat) (reason : String) :
    InStep (entries.modify position fun deferral => { deferral with reason := reason }) index := by
  intro id other
  rw [inStep, Array.getElem?_modify]
  split
  · cases entries[other]? <;> rfl
  · rfl

/-- A node that is not listed can be put at the end. -/
theorem push (inStep : InStep entries index) {deferral : Deferral}
    (new : index[deferral.node.index]? = none) :
    InStep (entries.push deferral) (index.insert deferral.node.index entries.size) := by
  intro id position
  have same_iff : compare deferral.node.index id.index = .eq ↔ deferral.node = id := by
    rw [Nat.compare_eq_eq, NodeId.mk.injEq]
  rw [Std.TreeMap.getElem?_insert, Array.getElem?_push]
  by_cases same : deferral.node = id
  · have unlisted : ¬ entries[position]?.map Deferral.node = some id := by
      rw [← inStep, ← same, new]
      simp
    rw [if_pos (same_iff.mpr same)]
    by_cases last : position = entries.size
    · simp [last, same]
    · simp [last, unlisted, Ne.symm last]
  · rw [if_neg fun equal => same (same_iff.mp equal), inStep]
    by_cases last : position = entries.size
    · simp [last, same]
    · simp [last]

end InStep

end Backlog

/-- Deferrals in order, and the position of each node. -/
structure Backlog where
  entries : Array Deferral
  index : Std.TreeMap Nat Nat
  inStep : Backlog.InStep entries index

namespace Backlog

/-- The backlog at the start of a pass. -/
def empty : Backlog := ⟨#[], Std.TreeMap.empty, .empty⟩

/-- The deferrals as a list, in order. -/
def toList (backlog : Backlog) : List Deferral := backlog.entries.toList

/-- The position of a node. -/
def position? (backlog : Backlog) (id : NodeId) : Option Nat := backlog.index[id.index]?

/-- Give the deferral at a position another reason. -/
def revise (backlog : Backlog) (position : Nat) (reason : String) : Backlog where
  entries := backlog.entries.modify position fun deferral => { deferral with reason := reason }
  index := backlog.index
  inStep := backlog.inStep.modify position reason

/-- Enter a deferral at the end, of a node that has none. -/
def append (backlog : Backlog) (deferral : Deferral)
    (new : backlog.position? deferral.node = none) : Backlog where
  entries := backlog.entries.push deferral
  index := backlog.index.insert deferral.node.index backlog.entries.size
  inStep := backlog.inStep.push new

/-- Record why a node is open. A node that is recorded already keeps its place and its span. -/
def defer (backlog : Backlog) (id : NodeId) (span : Span) (reason : String) : Backlog :=
  match known : backlog.position? id with
  | some position => backlog.revise position reason
  | none => backlog.append ⟨id, span, reason⟩ known

end Backlog

end Declarations
