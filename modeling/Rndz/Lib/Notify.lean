import Mathlib.Tactic.Common

/-!
# Notifications without memory

A notification wakes the waiters that exist when it is given and leaves nothing behind for
later ones, as `notify_all` of a condition variable does. A waiter remembers how many
notifications had been given when it was made; it is woken once there are more.
-/
namespace Notification

/-- What is waited on, with the number of notifications given so far. -/
structure Notify where
  calls : Nat
  deriving DecidableEq, Repr

structure Waiter where
  since : Nat
  deriving DecidableEq, Repr

namespace Notify

def new : Notify := ⟨0⟩

/-- A waiter that is made now. -/
def wait (n : Notify) : Waiter := ⟨n.calls⟩

def notifyAll (n : Notify) : Notify := ⟨n.calls + 1⟩

/-- The waiter exists by now. -/
def Made (n : Notify) (w : Waiter) : Prop := w.since ≤ n.calls

/-- A notification was given since the waiter was made. -/
def Woken (n : Notify) (w : Waiter) : Prop := w.since < n.calls

instance (n : Notify) (w : Waiter) : Decidable (n.Woken w) :=
  inferInstanceAs (Decidable (_ < _))

variable {n : Notify} {w : Waiter}

@[simp] theorem made_wait : n.Made n.wait := Nat.le_refl _

@[simp] theorem not_woken_wait : ¬n.Woken n.wait := Nat.lt_irrefl _

/-- A notification wakes exactly the waiters made before it. -/
@[simp] theorem woken_notifyAll : n.notifyAll.Woken w ↔ n.Made w := Nat.lt_succ_iff

theorem Made.notifyAll (h : n.Made w) : n.notifyAll.Made w := Nat.le_succ_of_le h

theorem Woken.made (h : n.Woken w) : n.Made w := Nat.le_of_lt h

@[simp] theorem not_woken_new : ¬new.Woken w := Nat.not_lt_zero _

end Notify

end Notification
