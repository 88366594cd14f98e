import Dialogue.Ledger.Basic

set_option autoImplicit false

namespace Dialogue

/-- The trackers of a host, each of which is the number of a ledger. -/
structure Trackers where
  ledgers : List Ledger
  handles : List Nat

namespace Trackers

/-- One tracker, on a ledger of its own. -/
def single (l : Ledger) : Trackers :=
  ⟨[l], [0]⟩

/-- The ledger of a tracker. -/
def ledger (t : Trackers) (tracker : Nat) : Ledger :=
  ((t.handles[tracker]?).bind fun cell => t.ledgers[cell]?).getD .empty

/-- Changes the ledger of a tracker, for all trackers that share it. -/
def update (t : Trackers) (tracker : Nat) (f : Ledger → Ledger) : Trackers :=
  match t.handles[tracker]? with
  | some cell => { t with ledgers := t.ledgers.modify cell f }
  | none => t

/-- Adds a tracker that shares the ledger of another. -/
def copy (t : Trackers) (tracker : Nat) : Trackers :=
  { t with handles := t.handles ++ [(t.handles[tracker]?).getD 0] }

/-- Adds a tracker on a copy of the ledger of another. -/
def restore (t : Trackers) (tracker : Nat) : Trackers :=
  ⟨t.ledgers ++ [t.ledger tracker], t.handles ++ [t.ledgers.length]⟩

def shares (t : Trackers) (left right : Nat) : Bool :=
  t.handles[left]? == t.handles[right]?

end Trackers

end Dialogue
