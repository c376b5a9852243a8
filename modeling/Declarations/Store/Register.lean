import Declarations.Literal.Successor
import Declarations.Store.Edit

/-!
# Registering the elements of an enumeration

An element is registered with its enumeration under its own name, which must be new there. It
then has a value: the author's, or else the increment of the latest value, or the starting value
for the first element. A foreign element, and every element of a foreign enumeration, is given no
value and leaves the latest value alone.
-/

namespace Declarations

/-- Why an element cannot be registered. The kind is that of the value that has no successor, or
none when that value is not a literal. -/
inductive RegistrationError where
  | notAnEnum (id : NodeId)
  | notAnElement (id : NodeId)
  | duplicate (element existing : NodeId)
  | impossibleIncrement (element : NodeId) (kind : Option LiteralKind) (underlying : Name)
  | overflow (element : NodeId) (underlying : Name)
  deriving DecidableEq, Repr

def RegistrationError.message : RegistrationError → String
  | .notAnEnum id => "node " ++ id.text ++ " is not an enum"
  | .notAnElement id => "node " ++ id.text ++ " is not an enum element"
  | .duplicate element existing => "element " ++ element.text ++ " duplicates " ++ existing.text
  | .impossibleIncrement element (some kind) _ =>
    "cannot increment a " ++ kind.text ++ " value for element " ++ element.text
  | .impossibleIncrement element none _ =>
    "cannot increment a non-literal value for element " ++ element.text
  | .overflow element _ => "implicit value for element " ++ element.text ++ " overflows"

namespace Store

/-- Change the data of an element; any other node is refused. -/
def modifyElement (id : NodeId) (f : Element → Element) : Edit RegistrationError Unit := do
  let store ← get
  match store.element? id with
  | some data => set (store.setContent id (.element (f data)))
  | none => throw (.notAnElement id)

/-- The literal that follows the latest value of an enumeration. -/
def nextLiteral (store : Store) (decl : Enumeration) (elementId : NodeId) :
    Except RegistrationError Literal :=
  match store.literal? decl.lastValue with
  | none => .error (.impossibleIncrement elementId none (store.underlyingName decl))
  | some previous =>
    if decl.members.isEmpty then .ok previous
    else
      match previous.increment decl.increment with
      | .ok next => .ok next
      | .error (.unsupported kind) =>
        .error (.impossibleIncrement elementId (some kind) (store.underlyingName decl))
      | .error .overflow => .error (.overflow elementId (store.underlyingName decl))

/-- The node of an element's value: the author's, or a new literal where the latest value
stands. -/
def assignValue (decl : Enumeration) (elementId : NodeId) (element : Element) :
    Edit RegistrationError NodeId := do
  match element.explicitValue? with
  | some value => return value
  | none =>
    let store ← get
    match store.nextLiteral decl elementId with
    | .error error => throw error
    | .ok next =>
      let (computed, grown) := store.alloc (.literal next) (store.span decl.lastValue)
      set grown
      modifyElement elementId fun data => { data with value := some computed }
      return computed

/-- Enter an element as the newest member, with its value as the latest if it has one. -/
def enterMember (enumId elementId : NodeId) (name : Name) (value : Option NodeId) :
    Edit RegistrationError Unit := do
  let store ← get
  let some decl := store.enum? enumId | throw (.notAnEnum enumId)
  match decl.members.insert name elementId with
  | .error existing => throw (.duplicate elementId existing)
  | .ok members =>
    set (store.setContent enumId (.enum
      { decl with members := members, lastValue := value.getD decl.lastValue }))

/-- Register an element with an enumeration. -/
def register (enumId elementId : NodeId) : Edit RegistrationError Unit := do
  let store ← get
  let some decl := store.enum? enumId | throw (.notAnEnum enumId)
  let some element := store.element? elementId | throw (.notAnElement elementId)
  if let some existing := decl.members.get? element.header.name then
    throw (.duplicate elementId existing)
  if decl.header.isForeign || element.header.isForeign then
    modifyElement elementId fun data =>
      { data with header := data.header.markForeign, type := some decl.underlying }
    enterMember enumId elementId element.header.name none
  else
    let value ← assignValue decl elementId element
    modifyElement elementId fun data => { data with type := some decl.underlying }
    enterMember enumId elementId element.header.name (some value)

/-- Change the rule of an enumeration for the values still to be computed; other nodes stay as
they are. -/
def setIncrement (store : Store) (id : NodeId) (increment : Increment) : Store :=
  match store.enum? id with
  | some decl => store.setContent id (.enum { decl with increment := increment })
  | none => store

end Store

end Declarations
