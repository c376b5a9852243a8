import Std.Data.TreeMap
import Declarations.Name

/-!
# The table of names

Texts are numbered in the order of their first use and never move. The table keeps the texts in
that order and, beside them, an index from each text to its number, so that a text is found
without a scan. The empty text is number zero from the start.
-/

namespace Declarations

/-- The texts in the order of their numbers, and the number of each text. -/
structure NameTable where
  texts : Array String
  index : Std.TreeMap String Nat

namespace NameTable

/-- The table that holds the empty text alone. -/
def initial : NameTable where
  texts := #[""]
  index := Std.TreeMap.empty.insert "" 0

instance : Inhabited NameTable := ⟨initial⟩

def size (table : NameTable) : Nat := table.texts.size

def isEmpty (table : NameTable) : Bool := table.size == 0

/-- The text of a name; a name that the table has not given out reads as the empty text. -/
def text (table : NameTable) (name : Name) : String :=
  table.texts[name.raw]?.getD ""

/-- The name that a text already has. -/
def find? (table : NameTable) (text : String) : Option Name :=
  table.index[text]?.map Name.mk

/-- Give a text the next number. -/
def append (table : NameTable) (text : String) : Name × NameTable :=
  (⟨table.size⟩, ⟨table.texts.push text, table.index.insert text table.size⟩)

/-- The name of a text, which is entered at the end if the table does not hold it. -/
def intern (table : NameTable) (text : String) : Name × NameTable :=
  match table.find? text with
  | some name => (name, table)
  | none => table.append text

/-- The table that interning some texts makes, the first of the list first. -/
def ofTexts (texts : List String) : NameTable :=
  texts.foldl (fun table text => (table.intern text).2) initial

/-- The largest number that a name may have. -/
def maxNumber : Nat := 4294967295

/-- The refusal of a new text when every number is taken. -/
structure Full where
  count : Nat
  deriving DecidableEq, Repr

def Full.message (full : Full) : String :=
  "interner exceeded capacity: " ++ toString full.count ++ " strings, max is " ++
    toString maxNumber

/-- Like `intern`, but a new text is refused when its number would pass `maxNumber`. -/
def tryIntern (table : NameTable) (text : String) : Except Full (Name × NameTable) :=
  match table.find? text with
  | some name => .ok (name, table)
  | none => if table.size ≤ maxNumber then .ok (table.append text) else .error ⟨table.size⟩

end NameTable

end Declarations
