/-!
# A writer of indented text

The writer collects text. The first thing written on a line is preceded by one tab for each level
of the current depth; a line on which nothing is written has none.
-/

namespace Declarations

/-- The text written so far, the depth of indentation, and whether the current line is empty. -/
structure Writer where
  text : String := ""
  depth : Nat := 0
  atLineStart : Bool := true
  deriving DecidableEq, Repr

namespace Writer

def new : Writer := {}

instance : Inhabited Writer := ⟨new⟩

/-- The length of the text in bytes. -/
def byteSize (writer : Writer) : Nat := writer.text.utf8ByteSize

def isEmpty (writer : Writer) : Bool := writer.text.isEmpty

def indent (writer : Writer) : Writer := { writer with depth := writer.depth + 1 }

/-- One level less; the outermost level stays. -/
def dedent (writer : Writer) : Writer := { writer with depth := writer.depth - 1 }

/-- A text of so many tabs. -/
def tabs (count : Nat) : String := String.ofList (List.replicate count '\t')

/-- Write tabs. This does not start the line. -/
def emitIndent (writer : Writer) (count : Nat) : Writer :=
  { writer with text := writer.text ++ tabs count }

/-- Write the indentation of the current line, unless it is written already. -/
def startLine (writer : Writer) : Writer :=
  if writer.atLineStart then { writer with atLineStart := false }.emitIndent writer.depth
  else writer

/-- Write a text on the current line; the empty text does not start the line. -/
def emit (writer : Writer) (text : String) : Writer :=
  if text.isEmpty then writer
  else
    let started := writer.startLine
    { started with text := started.text ++ text }

def emitSpace (writer : Writer) : Writer :=
  let started := writer.startLine
  { started with text := started.text ++ " " }

/-- End the current line. -/
def emitNewline (writer : Writer) : Writer :=
  { writer with text := writer.text ++ "\n", atLineStart := true }

def endsLine (writer : Writer) : Bool := writer.text.toList.getLast? == some '\n'

/-- End the last line, unless nothing is written or it is ended. -/
def ensureTrailingNewline (writer : Writer) : Writer :=
  if writer.isEmpty || writer.endsLine then writer else writer.emitNewline

end Writer

end Declarations
