import KlyroDB.MapUpdates
import Mathlib.Algebra.Group.Nat.Defs

/-!
# Identifiers and statuses shared by every KlyroDB component

The strong identifiers of `core/ids.hpp` reserve the largest value as the
invalid one.  Page, transaction and log sequence numbers come from 64-bit
counters and are kept as natural numbers; narrower integers keep their width
wherever the code stores them.
-/

namespace KlyroDB

/-- The statuses of `core/status.hpp`. -/
inductive Status
  | ok
  | invalidArgument
  | notFound
  | alreadyExists
  | invalidState
  | ioError
  | corruption
  | busy
  | timeout
  | transactionAborted
  | unsupported
  | internalError
  deriving DecidableEq, Repr

namespace PageID

/-- The default-constructed identifier, `std::numeric_limits::max()`. -/
def invalid : Nat := 2 ^ 64 - 1

def isValid (pageId : Nat) : Bool := pageId != invalid

end PageID

structure RecordID where
  pageId : Nat := PageID.invalid
  slotId : Nat := 2 ^ 32 - 1
  deriving DecidableEq, Repr, Inhabited

namespace RecordID

def invalidSlot : Nat := 2 ^ 32 - 1

def isValid (record : RecordID) : Bool :=
  PageID.isValid record.pageId && record.slotId != invalidSlot

end RecordID

def invalidTransactionID : Nat := 0

def initialTransactionID : Nat := 1

namespace LSN

/-- Zero is the invalid log sequence number. -/
def invalid : Nat := 0

def isValid (lsn : Nat) : Bool := lsn != 0

theorem isValid_iff (lsn : Nat) : isValid lsn = true ↔ lsn ≠ invalid := by
  simp [isValid, invalid]

end LSN

/-- An order in which unordered containers are iterated. -/
structure Enumeration where
  order : List Nat → List Nat
  perm : ∀ items, (order items).Perm items

namespace Enumeration

def stored : Enumeration where
  order := id
  perm items := List.Perm.refl items

end Enumeration

end KlyroDB
