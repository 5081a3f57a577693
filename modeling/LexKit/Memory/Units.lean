import LexKit.Real.Binary

/-!
# Units of memory
-/

set_option autoImplicit false

namespace LexKit.Units

def megabyte : Nat :=
  1024 * 1024

def gigabyte : Nat :=
  1024 * 1024 * 1024

/-- A number of bytes in megabytes, rounded to the nearest binary64 pattern, or `none` if it is too
large for one. -/
def bytesToMegabytes? (size : Int) : Option UInt64 :=
  Real.ofQuotient? size megabyte

def bytesToGigabytes? (size : Int) : Option UInt64 :=
  Real.ofQuotient? size gigabyte

end LexKit.Units
