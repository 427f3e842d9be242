import Mathlib.Data.Nat.Init

/-! A watch channel, reduced to what its receivers can wait for. The version
counts the values sent; a receiver remembers the version it has seen, and its
`changed` completes when the version has moved on or when no sender is left.
The value itself is not kept: no receiver here ever reads it. -/
namespace VetisTokio.SignalChannel

structure Watch where
  version : Nat
  senders : Nat
  deriving DecidableEq, Repr

structure Receiver where
  seen : Nat
  deriving DecidableEq, Repr

def channel : Watch := ⟨0, 1⟩

def Watch.cloneSender (w : Watch) : Watch := { w with senders := w.senders + 1 }
def Watch.dropSender (w : Watch) : Watch := { w with senders := w.senders - 1 }
def Watch.send (w : Watch) : Watch := { w with version := w.version + 1 }
def Watch.subscribe (w : Watch) : Receiver := ⟨w.version⟩

def Watch.changed (w : Watch) (r : Receiver) : Bool := r.seen < w.version || w.senders == 0

theorem changedSource {w : Watch} {r : Receiver} :
    w.changed r = true ↔ r.seen < w.version ∨ w.senders = 0 := by
  simp [Watch.changed]

theorem closedIsSeen {w : Watch} (r : Receiver) (closed : w.senders = 0) : w.changed r = true :=
  changedSource.mpr (Or.inr closed)

end VetisTokio.SignalChannel
