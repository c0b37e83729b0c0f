import Mathlib.Data.List.Basic
import Mathlib.Tactic.Common

/-!
# A bounded channel between one sender and one receiver

The channel has `cap` slots. Sending fails when the receiver is gone and blocks while all
slots are taken; receiving fails when the channel is empty and the sender is gone. Messages
the receiver has not taken are dropped with it.
-/
namespace Mpsc

variable {cap : Nat} {μ : Type*}

structure SyncChannel (cap : Nat) (μ : Type*) where
  items : List μ
  sender : Bool
  receiver : Bool
  bounded : items.length ≤ cap

namespace SyncChannel

def new : SyncChannel cap μ where
  items := []
  sender := true
  receiver := true
  bounded := Nat.zero_le cap

/-- A message enters the channel, if there is a slot for it. -/
def push (m : μ) (ch : SyncChannel cap μ) : Option (SyncChannel cap μ) :=
  if h : ch.items.length < cap then
    some
      { ch with
        items := ch.items ++ [m]
        bounded := by simpa using Nat.succ_le_of_lt h }
  else none

/-- The oldest message leaves the channel. -/
def pop (ch : SyncChannel cap μ) : Option (μ × SyncChannel cap μ) :=
  match h : ch.items with
  | [] => none
  | m :: rest =>
    some (m,
      { ch with
        items := rest
        bounded := Nat.le_of_succ_le (h ▸ ch.bounded : (m :: rest).length ≤ cap) })

def dropSender (ch : SyncChannel cap μ) : SyncChannel cap μ := { ch with sender := false }

def dropReceiver (ch : SyncChannel cap μ) : SyncChannel cap μ where
  items := []
  sender := ch.sender
  receiver := false
  bounded := Nat.zero_le cap

theorem push_eq_some {m : μ} {ch ch' : SyncChannel cap μ} (h : ch.push m = some ch') :
    ch'.items = ch.items ++ [m] ∧ ch'.sender = ch.sender ∧ ch'.receiver = ch.receiver := by
  obtain ⟨_, h⟩ := Option.dite_none_right_eq_some.mp h
  obtain rfl := Option.some.inj h
  exact ⟨rfl, rfl, rfl⟩

theorem pop_eq_some {m : μ} {ch ch' : SyncChannel cap μ} (h : ch.pop = some (m, ch')) :
    ch.items = m :: ch'.items ∧ ch'.sender = ch.sender ∧ ch'.receiver = ch.receiver := by
  unfold pop at h
  split at h
  · cases h
  · rename_i items
    cases h
    exact ⟨items, rfl, rfl⟩

end SyncChannel

end Mpsc
