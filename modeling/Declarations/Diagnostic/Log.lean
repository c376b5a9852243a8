import Declarations.Diagnostic.Basic

/-!
# The log of diagnostics

A log keeps diagnostics in the order in which they were reported. It may leave out a diagnostic
with the key of an earlier one, and errors past a limit. A forced error is kept in any case.
-/

namespace Declarations

/-- What a caller holds after reporting an error. -/
structure ErrorToken where
  deriving DecidableEq, Repr

namespace ErrorToken

def text (_ : ErrorToken) : String := "error(s) emitted"

/-- A token for a positive number of errors. -/
def ofCount? (count : Nat) : Option ErrorToken := if 0 < count then some {} else none

end ErrorToken

/-- What a log leaves out. A limit of zero means none. -/
structure LogPolicy where
  errorLimit : Nat := 100
  deduplicate : Bool := true
  deriving DecidableEq, Repr

/-- Keep everything. -/
def LogPolicy.unlimited : LogPolicy := { errorLimit := 0, deduplicate := false }

/-- What makes two diagnostics the same report. -/
structure DiagnosticKey where
  code : Code
  span : Option Span
  message : String
  deriving DecidableEq, Repr

def Diagnostic.key (diagnostic : Diagnostic) : DiagnosticKey :=
  ⟨diagnostic.code, diagnostic.primarySpan?, diagnostic.message⟩

/-- The diagnostics kept, oldest first, the keys seen, newest first, and the number of errors. -/
structure Log where
  policy : LogPolicy := {}
  diagnostics : List Diagnostic := []
  seen : List DiagnosticKey := []
  errorCount : Nat := 0
  deriving DecidableEq, Repr

namespace Log

/-- An empty log. -/
def ofPolicy (policy : LogPolicy) : Log := { policy := policy }

instance : Inhabited Log := ⟨ofPolicy {}⟩

def size (log : Log) : Nat := log.diagnostics.length

def isEmpty (log : Log) : Bool := log.diagnostics.isEmpty

/-- Whether no further error is kept. -/
def limitReached (log : Log) : Bool :=
  0 < log.policy.errorLimit && log.policy.errorLimit ≤ log.errorCount

def hasErrors? (log : Log) : Option ErrorToken := ErrorToken.ofCount? log.errorCount

/-- Put a diagnostic at the end and count it if it is an error. -/
def push (log : Log) (diagnostic : Diagnostic) : Log :=
  { log with
    diagnostics := log.diagnostics ++ [diagnostic]
    errorCount := if diagnostic.isError then log.errorCount + 1 else log.errorCount }

/-- Remember a key, if keys matter and it is new. -/
def remember (log : Log) (key : DiagnosticKey) : Log :=
  if log.policy.deduplicate && !log.seen.contains key then { log with seen := key :: log.seen }
  else log

/-- Whether a diagnostic is left out: an error past the limit, or a key seen before. -/
def leavesOut (log : Log) (diagnostic : Diagnostic) : Bool :=
  (diagnostic.isError && log.limitReached) ||
    (log.policy.deduplicate && log.seen.contains diagnostic.key)

/-- Report a diagnostic, and say whether it was kept. -/
def add (log : Log) (diagnostic : Diagnostic) : Bool × Log :=
  if log.leavesOut diagnostic then (false, log)
  else (true, (log.remember diagnostic.key).push diagnostic)

/-- Report a diagnostic that the caller takes for an error. -/
def emitError (log : Log) (diagnostic : Diagnostic) : ErrorToken × Log :=
  ({}, (log.add diagnostic).2)

/-- Keep a diagnostic whatever the policy says. -/
def forceError (log : Log) (diagnostic : Diagnostic) : ErrorToken × Log :=
  ({}, (log.remember diagnostic.key).push diagnostic)

end Log

end Declarations
