import WalletBudget.Store.Basic
import WalletBudget.Store.Outage

/-!
The service between two steps of its operations: its store, the time, the supply of new identifiers,
the order in which its tables hand out their rows, and the outages its store is in for.
-/

namespace WalletBudget

/-- What the clock reads. It counts the seconds since 1970 and so never reads a leap second, which
an instant that is read from a text may lie in. -/
structure Reading where
  clock : Instant
  plain : clock.isLeap = false

/-- The identifier issued next is the one at `issued`. -/
structure Service extends Reading where
  store : Store
  ids : Nat → Uuid
  issued : Nat
  scan : Scan
  outages : List Outage

namespace Service

def start (reading : Reading) (ids : Nat → Uuid) (scan : Scan) : Service :=
  ⟨reading, .empty, ids, 0, scan, []⟩

end Service

end WalletBudget
