import PodRules.Object.Key
import PodRules.Text.Decimal
import PodRules.Time.Duration

/-!
The table of pending writes. After a write its key is armed at the version that the write started
from, and a view of the object is trusted again once it is newer than that, or once the entry has
been pending for too long. Clock readings are nanoseconds of a clock that never goes back.
-/

namespace PodRules

/-- Whether an observed version is newer than a base version: as 64-bit numbers if both are, else
any other version counts as newer. -/
def isNewer (base observed : String) : Bool :=
  match Decimal.word? base, Decimal.word? observed with
  | some b, some o => decide (b < o)
  | _, _ => decide (base ≠ observed)

structure Pending where
  base : String
  armedAt : Nat
  deriving DecidableEq, Repr, Inhabited

structure Expectations where
  ttl : Duration
  pending : SortedMap ObjectKey Pending
  deriving DecidableEq

namespace Expectations

def fresh (ttl : Duration) : Expectations := ⟨ttl, ∅⟩

def size (t : Expectations) : Nat := t.pending.size

def hasExpired (ttl : Duration) (now : Nat) (p : Pending) : Bool :=
  decide (ttl.nanos ≤ now - p.armedAt)

/-- Whether a view of an object at a version may be trusted. An entry that has expired or that
the version has overtaken is consumed. -/
def trust (t : Expectations) (now : Nat) (key : ObjectKey) (observed : String) :
    Bool × Expectations :=
  match t.pending.get? key with
  | none => (true, t)
  | some p =>
    if hasExpired t.ttl now p || isNewer p.base observed then
      (true, { t with pending := t.pending.erase key })
    else (false, t)

def arm (t : Expectations) (now : Nat) (key : ObjectKey) (base : String) :
    Expectations :=
  { t with pending := (t.pending.filter fun _ p => !hasExpired t.ttl now p).insert key ⟨base, now⟩ }

def disarm (t : Expectations) (key : ObjectKey) : Expectations :=
  { t with pending := t.pending.erase key }

end Expectations

end PodRules
