import Declarations.Builtin
import Declarations.Literal.Basic
import Declarations.Node.Members
import Declarations.Span

/-!
# Nodes of a declaration tree

A tree is made of modules, of the declarations in them (covers, enumerations with their elements,
variables) and of the literals and references that declarations hold. A node refers to other
nodes by number only.

Every node lists its children in stages. The children of a stage do not wait for each other, and
a stage is entered only when nothing in the stages before it is open.
-/

namespace Declarations

/-- What an author or the resolution has marked a declaration with. -/
structure Flags where
  isPublic : Bool := false
  isForeign : Bool := false
  isResolved : Bool := false
  deriving DecidableEq, Repr

/-- What all declarations have in common. A foreign declaration is defined elsewhere, possibly
under another name. -/
structure Header where
  name : Name
  flags : Flags := {}
  foreignName : Option Name := none
  deriving DecidableEq, Repr

namespace Header

/-- The header of a declaration that is defined elsewhere. -/
def foreign (name : Name) (foreignName : Option Name) : Header :=
  { name := name, flags := { isForeign := true }, foreignName := foreignName }

def isForeign (header : Header) : Bool := header.flags.isForeign

def isResolved (header : Header) : Bool := header.flags.isResolved

def markResolved (header : Header) : Header :=
  { header with flags := { header.flags with isResolved := true } }

/-- Mark as foreign; without a foreign name of its own the declaration keeps its name. -/
def markForeign (header : Header) : Header :=
  { header with
    flags := { header.flags with isForeign := true }
    foreignName := some (header.foreignName.getD header.name) }

/-- The name used in generated code. -/
def outputName (header : Header) : Name := header.foreignName.getD header.name

end Header

/-- A module: its declarations in order, the names of the modules it imports, and its symbols,
newest last, by which declarations are found. -/
structure Module where
  name : Name
  declarations : List NodeId := []
  imports : List Name := []
  symbols : List (Name × NodeId) := []
  deriving DecidableEq, Repr

namespace Module

/-- The declaration that a name stands for in the module. -/
def find? (scope : Module) (name : Name) : Option NodeId :=
  (scope.symbols.find? fun symbol => symbol.1 == name).map Prod.snd

/-- Append a declaration and its symbol. -/
def declare (scope : Module) (name : Name) (decl : NodeId) : Module :=
  { scope with
    declarations := scope.declarations ++ [decl]
    symbols := scope.symbols ++ [(name, decl)] }

/-- Append the name of an imported module, unless it is imported already. -/
def addImport (scope : Module) (imported : Name) : Module :=
  if imported ∈ scope.imports then scope
  else { scope with imports := scope.imports ++ [imported] }

end Module

/-- A new name for an existing type. -/
structure Cover where
  header : Header
  members : Members := .empty
  fromType : Option NodeId := none

/-- The type that the values of an enumeration have: the enumeration itself, or a type that the
author named. -/
inductive Underlying where
  | nominal
  | explicit (type : NodeId)
  deriving DecidableEq, Repr

/-- The node that names the type, if the author named one. -/
def Underlying.explicit? : Underlying → Option NodeId
  | .nominal => none
  | .explicit type => some type

/-- An enumeration, with the node of the value that its latest element has. -/
structure Enumeration where
  header : Header
  members : Members := .empty
  underlying : Underlying := .nominal
  lastValue : NodeId
  increment : Increment := .standard

/-- An element of an enumeration. A value counts as the author's only if `valueSet` says so; the
type is known once the element is registered. -/
structure Element where
  header : Header
  value : Option NodeId := none
  valueSet : Bool := false
  type : Option Underlying := none
  doc : Option Name := none
  deriving DecidableEq, Repr

/-- The value that the author gave. -/
def Element.explicitValue? (element : Element) : Option NodeId :=
  if element.valueSet then element.value else none

/-- A variable with an optional type and an optional value. -/
structure Variable where
  header : Header
  type : Option NodeId := none
  value : Option NodeId := none
  deriving DecidableEq, Repr

/-- What a type reference is bound to. -/
inductive TypeTarget where
  | builtin (builtin : Builtin)
  | decl (id : NodeId)
  deriving DecidableEq, Repr

/-- A reference to a type by name. -/
structure TypeReference where
  name : Name
  target : Option TypeTarget := none
  failed : Bool := false
  deriving DecidableEq, Repr

/-- Bound, or known never to be. -/
def TypeReference.isSettled (reference : TypeReference) : Bool :=
  reference.target.isSome || reference.failed

/-- A reference to a value by a path of names. -/
structure NameReference where
  path : List Name
  target : Option NodeId := none
  failed : Bool := false
  deriving DecidableEq, Repr

/-- Bound, or known never to be. -/
def NameReference.isSettled (reference : NameReference) : Bool :=
  reference.target.isSome || reference.failed

/-- What a node is and holds. -/
inductive Content where
  | module (data : Module)
  | cover (data : Cover)
  | enum (data : Enumeration)
  | element (data : Element)
  | variable (data : Variable)
  | literal (value : Literal)
  | typeRef (data : TypeReference)
  | nameRef (data : NameReference)

/-- The eight kinds of nodes. -/
inductive Kind where
  | module
  | cover
  | enum
  | element
  | variable
  | literal
  | typeRef
  | nameRef
  deriving DecidableEq, Repr

namespace Kind

/-- The words for a kind in messages. -/
def text : Kind → String
  | .module => "module"
  | .cover => "cover"
  | .enum => "enum"
  | .element => "enum element"
  | .variable => "variable"
  | .literal => "literal"
  | .typeRef => "type reference"
  | .nameRef => "name reference"

/-- All kinds. -/
def all : List Kind :=
  [.module, .cover, .enum, .element, .variable, .literal, .typeRef, .nameRef]

/-- The kind with exactly these words. -/
def ofText? (text : String) : Option Kind := all.find? fun kind => kind.text == text

def isTypeDecl (kind : Kind) : Bool := kind == .cover || kind == .enum

def isValueDecl (kind : Kind) : Bool := kind == .variable || kind == .element

def isDeclaration (kind : Kind) : Bool := kind.isTypeDecl || kind.isValueDecl

/-- Literals and references hold no other nodes. -/
def isLeaf (kind : Kind) : Bool := kind == .literal || kind == .typeRef || kind == .nameRef

end Kind

namespace Content

def kind : Content → Kind
  | .module _ => .module
  | .cover _ => .cover
  | .enum _ => .enum
  | .element _ => .element
  | .variable _ => .variable
  | .literal _ => .literal
  | .typeRef _ => .typeRef
  | .nameRef _ => .nameRef

/-- The header of a declaration. -/
def header? : Content → Option Header
  | .cover data => some data.header
  | .enum data => some data.header
  | .element data => some data.header
  | .variable data => some data.header
  | _ => none

/-- Change the header of a declaration; other nodes stay as they are. -/
def mapHeader (f : Header → Header) : Content → Content
  | .cover data => .cover { data with header := f data.header }
  | .enum data => .enum { data with header := f data.header }
  | .element data => .element { data with header := f data.header }
  | .variable data => .variable { data with header := f data.header }
  | other => other

/-- Whether the node is a declaration that is marked as resolved. -/
def isResolved (content : Content) : Bool := content.header?.any Header.isResolved

/-- The members of a type declaration. -/
def members? : Content → Option Members
  | .cover data => some data.members
  | .enum data => some data.members
  | _ => none

/-- The children in stages: an enumeration has its elements before its type, and a variable its
type before its value. -/
def stages : Content → List (List NodeId)
  | .module data => [data.declarations]
  | .cover data => [data.fromType.toList]
  | .enum data => [data.members.ids, data.underlying.explicit?.toList]
  | .element data => [data.value.toList]
  | .variable data => [data.type.toList, data.value.toList]
  | .literal _ | .typeRef _ | .nameRef _ => []

/-- The nodes that a node holds. -/
def children (content : Content) : List NodeId := content.stages.flatten

end Content

/-- A node: its content and where it stands in the source. -/
structure Node where
  content : Content
  span : Span

end Declarations
