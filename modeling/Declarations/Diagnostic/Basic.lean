import Declarations.Diagnostic.Code
import Declarations.Span

/-!
# Diagnostics

A diagnostic has a code, a severity and a message, labels that point at places in the source, and
further notes and suggestions. The constructors at the end are the ones that declaring and
resolving report.
-/

namespace Declarations

/-- How grave a diagnostic is. -/
inductive Severity where
  | error
  | warning
  | note
  deriving DecidableEq, Repr

def Severity.text : Severity → String
  | .error => "error"
  | .warning => "warning"
  | .note => "note"

/-- A remark on a place in the source. -/
structure Label where
  span : Span
  message : String
  isPrimary : Bool
  deriving DecidableEq, Repr

/-- A label as a line of a report: an arrow marks a primary label. -/
def Label.line (label : Label) : String :=
  "\n  " ++ (if label.isPrimary then "-->" else "   ") ++ " " ++ label.span.text ++ ": " ++
    label.message

/-- A report on the input. -/
structure Diagnostic where
  code : Code
  severity : Severity
  message : String := ""
  labels : List Label := []
  notes : List String := []
  suggestions : List String := []
  deriving DecidableEq, Repr

namespace Diagnostic

def error (code : Code) : Diagnostic := { code := code, severity := .error }

def warning (code : Code) : Diagnostic := { code := code, severity := .warning }

def withMessage (diagnostic : Diagnostic) (message : String) : Diagnostic :=
  { diagnostic with message := message }

/-- Add a primary label. -/
def withLabel (diagnostic : Diagnostic) (span : Span) (message : String) : Diagnostic :=
  { diagnostic with labels := diagnostic.labels ++ [⟨span, message, true⟩] }

/-- Add a label that is not primary. -/
def withSecondaryLabel (diagnostic : Diagnostic) (span : Span) (message : String) : Diagnostic :=
  { diagnostic with labels := diagnostic.labels ++ [⟨span, message, false⟩] }

def withNote (diagnostic : Diagnostic) (note : String) : Diagnostic :=
  { diagnostic with notes := diagnostic.notes ++ [note] }

def withSuggestion (diagnostic : Diagnostic) (suggestion : String) : Diagnostic :=
  { diagnostic with suggestions := diagnostic.suggestions ++ [suggestion] }

def isError (diagnostic : Diagnostic) : Bool := diagnostic.severity == .error

/-- The place of the first primary label. -/
def primarySpan? (diagnostic : Diagnostic) : Option Span :=
  (diagnostic.labels.find? Label.isPrimary).map Label.span

/-- The report as text: a headline, then a line for each label, note and suggestion. -/
def render (diagnostic : Diagnostic) : String :=
  let headline := diagnostic.severity.text ++ " [" ++ diagnostic.code.text ++ "]: " ++
    diagnostic.message
  let labels := diagnostic.labels.map Label.line
  let notes := diagnostic.notes.map ("\n  = note: " ++ ·)
  let suggestions := diagnostic.suggestions.map ("\n  = help: " ++ ·)
  String.join (headline :: (labels ++ notes ++ suggestions))

/-- A name between the marks that messages put around names. -/
def marked (name : String) : String := "`" ++ name ++ "`"

/-- A reference that is still open when the passes are over. -/
def unresolvedReference (span : Span) (reason : String) : Diagnostic :=
  (error .unresolvedReference)
    |>.withMessage ("unresolved reference: " ++ reason)
    |>.withLabel span "could not be resolved"

/-- An element whose value would have to follow a value without a successor. -/
def impossibleIncrement (span : Span) (element underlying : String) : Diagnostic :=
  (error .impossibleIncrement)
    |>.withMessage ("cannot compute a value for " ++ marked element ++ ": type " ++
      marked underlying ++ " has no increment rule")
    |>.withLabel span "implicit value here"
    |>.withSuggestion ("give " ++ marked element ++ " an explicit value")

/-- A name in the place of a type that stands for something else. -/
def notAType (span : Span) (name found : String) : Diagnostic :=
  (error .notAType)
    |>.withMessage (marked name ++ " is not a type")
    |>.withLabel span (marked name ++ " is a " ++ found)

/-- A name in the place of a value that stands for something else. -/
def notAValue (span : Span) (name found : String) : Diagnostic :=
  (error .notAValue)
    |>.withMessage (marked name ++ " is not a value")
    |>.withLabel span (marked name ++ " is a " ++ found)

/-- A second member of one name. -/
def duplicateMember (span : Span) (name owner : String) (previous : Span) : Diagnostic :=
  (error .duplicateMember)
    |>.withMessage (marked name ++ " is declared more than once in " ++ marked owner)
    |>.withLabel span "duplicate declaration"
    |>.withSecondaryLabel previous "first declared here"

/-- An element whose computed value does not fit. -/
def incrementOverflow (span : Span) (element underlying : String) : Diagnostic :=
  (error .incrementOverflow)
    |>.withMessage ("implicit value of " ++ marked element ++ " overflows " ++ marked underlying)
    |>.withLabel span "value out of range"

/-- A fault of the compiler itself. -/
def internalError (span : Span) (message : String) : Diagnostic :=
  (error .internalError)
    |>.withMessage message
    |>.withLabel span "while resolving this"
    |>.withNote "this is a compiler bug"

end Diagnostic

end Declarations
