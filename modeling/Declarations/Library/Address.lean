/-!
# Addresses

The address of a symbol in an open library, a machine word written in hexadecimal.
-/

namespace Declarations

/-- A place in memory. -/
structure Address where
  raw : UInt64
  deriving DecidableEq, Repr

namespace Address

def isNull (address : Address) : Bool := address.raw == 0

/-- The address in lower-case hexadecimal, marked as such and without padding. -/
def text (address : Address) : String :=
  "0x" ++ String.ofList (Nat.toDigits 16 address.raw.toNat)

end Address

end Declarations
