import Std.Data.TreeMap
import Declarations.Name
import Declarations.Node.Id

/-!
# Members of a type declaration

The members of a type are kept in the order in which they were entered, with an index from each
name to its position. A name is entered once: entering it again answers with the member that has
it and changes nothing.
-/

namespace Declarations

/-- Members in order of entry, and the position of each name. -/
structure Members where
  order : Array (Name × NodeId)
  index : Std.TreeMap Nat Nat

namespace Members

def empty : Members := ⟨#[], Std.TreeMap.empty⟩

instance : Inhabited Members := ⟨empty⟩

def size (members : Members) : Nat := members.order.size

def isEmpty (members : Members) : Bool := members.order.isEmpty

/-- The members as a list of names and nodes, in order of entry. -/
def toList (members : Members) : List (Name × NodeId) := members.order.toList

/-- The nodes of the members, in order of entry. -/
def ids (members : Members) : List NodeId := members.toList.map Prod.snd

/-- The position of a name. -/
def position? (members : Members) (name : Name) : Option Nat := members.index[name.raw]?

def contains (members : Members) (name : Name) : Bool := members.index.contains name.raw

/-- The member with a name. -/
def get? (members : Members) (name : Name) : Option NodeId := do
  let position ← members.position? name
  let entry ← members.order[position]?
  return entry.2

/-- Enter a member under a new name at the end; a name in use answers with its member. -/
def insert (members : Members) (name : Name) (id : NodeId) : Except NodeId Members :=
  match members.get? name with
  | some existing => .error existing
  | none => .ok ⟨members.order.push (name, id), members.index.insert name.raw members.size⟩

end Members

end Declarations
