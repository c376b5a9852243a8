import Declarations.Literal.Render
import Declarations.Output.Writer
import Declarations.Store.Traversal

/-!
# Listing a declaration tree

The listing of a tree writes its declarations as an author would have written them: a line for a
module and for each of its imports, a line for each cover and variable, and for an enumeration
its elements between braces, one level deeper. Elements are written by their enumeration and show
the values they were registered with.

What a node holds is written in its place, whatever it is. The depth of the recursion is bounded
by a count of levels, as for a traversal.
-/

namespace Declarations

namespace Listing

/-- Write a name. -/
def emitName (names : NameTable) (name : Name) (writer : Writer) : Writer :=
  writer.emit (names.text name)

/-- Write the mark of a foreign declaration, with the foreign name if it has one. -/
def emitForeign (names : NameTable) (header : Header) (writer : Writer) : Writer :=
  if header.isForeign then
    match header.foreignName with
    | some foreign => (emitName names foreign (writer.emit "extern(")).emit ")" |>.emitSpace
    | none => (writer.emit "extern").emitSpace
  else writer

/-- Start the line of a declaration: indentation, foreign mark, keyword and name. -/
def emitHead (names : NameTable) (depth : Nat) (header : Header) (keyword : String)
    (writer : Writer) : Writer :=
  emitName names header.name
    ((emitForeign names header (writer.emitIndent depth)).emit keyword)

/-- The increment of an enumeration, which is written if it is not the standard one. -/
def incrementText (increment : Increment) : String :=
  if increment = .standard then ""
  else " (" ++ increment.op.symbol.toString ++ toString increment.step.toInt ++ ")"

/-- Write the line of an import. -/
def emitImport (names : NameTable) (depth : Nat) (imported : Name) (writer : Writer) : Writer :=
  (emitName names imported ((writer.emitIndent depth).emit "import ")).emitNewline

/-- Write the names of a path, with points between them. -/
def emitPath (names : NameTable) : List Name → Writer → Writer
  | [], writer => writer
  | [name], writer => emitName names name writer
  | name :: rest, writer => emitPath names rest ((emitName names name writer).emit ".")

/-- Write what a node holds in one place, after a lead. -/
@[inline] def emitHeld (visit : Slot → Nat → NodeId → Writer → Option Writer) (depth : Nat)
    (lead : String) (held : Option NodeId) (writer : Writer) : Option Writer :=
  match held with
  | some id => visit .child depth id (writer.emit lead)
  | none => some writer

/-- Write the content of a node, given how to write the nodes it holds. -/
@[inline] def emitContent (names : NameTable)
    (visit : Slot → Nat → NodeId → Writer → Option Writer) (depth : Nat) (content : Content)
    (writer : Writer) : Option Writer :=
  match content with
  | .module data =>
    let headed := (emitName names data.name ((writer.emitIndent depth).emit "module ")).emitNewline
    let imported := data.imports.foldl
      (fun writer imported => emitImport names depth imported writer) headed
    data.declarations.foldlM (fun writer id => visit .child depth id writer) imported
  | .cover data => do
    let headed := emitHead names depth data.header "cover " writer
    let typed ← emitHeld visit depth " from " data.fromType headed
    return typed.emitNewline
  | .enum data => do
    let headed := emitHead names depth data.header "enum " writer
    let typed ← emitHeld visit depth " from " data.underlying.explicit? headed
    let opened := ((typed.emit (incrementText data.increment)).emit " \x7b").emitNewline
    let listed ← data.members.ids.foldlM
      (fun writer id => visit .member (depth + 1) id writer) opened
    return ((listed.emitIndent depth).emit "\x7d").emitNewline
  | .element data => do
    let headed := emitHead names depth data.header "" writer
    let valued ← emitHeld visit depth " = " data.value headed
    return valued.emitNewline
  | .variable data => do
    let headed := emitHead names depth data.header "var " writer
    let typed ← emitHeld visit depth ": " data.type headed
    let valued ← emitHeld visit depth " = " data.value typed
    return valued.emitNewline
  | .literal value => some (writer.emit (value.render names))
  | .typeRef data => some (emitName names data.name writer)
  | .nameRef data => some (emitPath names data.path writer)

/-- Write a node that is held in a slot, to a depth of so many levels. -/
def emitWithin (store : Store) (names : NameTable) :
    Nat → Slot → Nat → NodeId → Writer → Option Writer
  | 0, _, _, _, _ => none
  | levels + 1, slot, depth, id, writer =>
    match store.content? id with
    | none => some writer
    | some content =>
      if slot.admits content.kind then
        emitContent names (emitWithin store names levels) depth content writer
      else some writer

end Listing

namespace Store

/-- Write the listing of a node. -/
def emitListing (store : Store) (names : NameTable) (id : NodeId) (writer : Writer) : Writer :=
  (Listing.emitWithin store names (store.size + 1) .child 0 id writer).getD writer

/-- The listing of a node. -/
def listing (store : Store) (names : NameTable) (id : NodeId) : String :=
  (store.emitListing names id .new).text

end Store

end Declarations
