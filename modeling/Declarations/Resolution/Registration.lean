import Declarations.Diagnostic.Log
import Declarations.NameTable
import Declarations.Store.Register

/-!
# Registration with a report

Registering an element reports a refusal to the log, at the place of the element.
-/

namespace Declarations

namespace Store

/-- The text of a declaration's name. -/
def nameText (store : Store) (names : NameTable) (id : NodeId) : String :=
  match store.header? id with
  | some header => names.text header.name
  | none => "<unnamed>"

/-- The report on a refused registration with an enumeration. -/
def registrationReport (store : Store) (names : NameTable) (enumId : NodeId) :
    RegistrationError → Diagnostic
  | .duplicate element existing =>
    .duplicateMember (store.span element) (store.nameText names element)
      (store.nameText names enumId) (store.span existing)
  | .impossibleIncrement element kind underlying =>
    (Diagnostic.impossibleIncrement (store.span element) (store.nameText names element)
      (names.text underlying)).withNote
        (match kind with
        | some kind => "the previous value is a " ++ kind.text ++ " literal"
        | none => "the previous value is not a literal")
  | .overflow element underlying =>
    .incrementOverflow (store.span element) (store.nameText names element)
      (names.text underlying)
  | error@(.notAnEnum _) | error@(.notAnElement _) =>
    .internalError (store.span enumId) ("cannot register element: " ++ error.message)

/-- Register an element; a refusal is reported and answered with a token. -/
def addElement (store : Store) (names : NameTable) (log : Log) (enumId elementId : NodeId) :
    Except ErrorToken Unit × Store × Log :=
  match (register enumId elementId).apply store with
  | (.ok (), store) => (.ok (), store, log)
  | (.error error, store) =>
    let (token, log) := log.emitError (store.registrationReport names enumId error)
    (.error token, store, log)

end Store

end Declarations
