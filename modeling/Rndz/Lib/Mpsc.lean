import Mathlib.Data.List.Basic
import Mathlib.Tactic.Common

/-!
# A bounded multi-producer channel

The channel has `cap` slots. A sender first acquires a slot: it is granted one at once when
a slot is free and nobody waits, and otherwise queues up; a slot that the receiver frees is
granted to the sender that has waited longest. A sender with a grant pushes its message
later, in a step of its own, and a sender that is cancelled gives its grant or its place in
the queue back. Closing drops everything: messages, grants and waiting senders.

The two capacity laws are fields of `Channel`, so that no operation can break them.
-/
namespace Mpsc

variable {cap : Nat} {τ μ : Type*}

/-- A channel between senders of type `τ` and one receiver, for messages of type `μ`. -/
structure Channel (cap : Nat) (τ μ : Type*) where
  items : List μ
  granted : List τ
  waiting : List τ
  closed : Bool
  bounded : items.length + granted.length ≤ cap
  full_of_waiting : waiting ≠ [] → items.length + granted.length = cap

namespace Channel

/-- Every slot holds a message or is granted to a sender. -/
def Full (ch : Channel cap τ μ) : Prop := ch.items.length + ch.granted.length = cap

instance (ch : Channel cap τ μ) : Decidable ch.Full :=
  inferInstanceAs (Decidable (_ = _))

/-- A sender that cannot be served at once finds the channel full. -/
theorem full_of_no_room {ch : Channel cap τ μ}
    (h : ¬(ch.waiting = [] ∧ ch.items.length + ch.granted.length < cap)) : ch.Full := by
  by_cases hw : ch.waiting = []
  · have := ch.bounded
    have : ¬ch.items.length + ch.granted.length < cap := fun hlt => h ⟨hw, hlt⟩
    unfold Full
    omega
  · exact ch.full_of_waiting hw

theorem full_of_mem_waiting {ch : Channel cap τ μ} {t : τ} (h : t ∈ ch.waiting) : ch.Full :=
  ch.full_of_waiting (List.ne_nil_of_mem h)

def empty : Channel cap τ μ where
  items := []
  granted := []
  waiting := []
  closed := false
  bounded := Nat.zero_le cap
  full_of_waiting := absurd rfl

/-- The receiver is dropped. -/
def close (_ : Channel cap τ μ) : Channel cap τ μ := { empty with closed := true }

/-- Sender `t` asks for a slot. -/
def acquire (t : τ) (ch : Channel cap τ μ) : Channel cap τ μ :=
  if h : ch.waiting = [] ∧ ch.items.length + ch.granted.length < cap then
    { ch with
      granted := ch.granted ++ [t]
      bounded := by simp; omega
      full_of_waiting := by simp [h.1] }
  else
    { ch with
      waiting := ch.waiting ++ [t]
      full_of_waiting := fun _ => full_of_no_room h }

/-- Sender `t` puts its message into the slot it was granted. -/
def push [DecidableEq τ] (t : τ) (m : μ) (ch : Channel cap τ μ) : Option (Channel cap τ μ) :=
  if h : t ∈ ch.granted then
    some
      { ch with
        items := ch.items ++ [m]
        granted := ch.granted.erase t
        bounded := by
          have := ch.bounded
          have := List.length_pos_of_mem h
          simp [List.length_erase_of_mem h]
          omega
        full_of_waiting := by
          intro hw
          have := ch.full_of_waiting hw
          have := List.length_pos_of_mem h
          simp [List.length_erase_of_mem h]
          omega }
  else none

/-- A free slot goes to the first waiting sender. -/
def release (items : List μ) (granted waiting : List τ) (closed : Bool)
    (h : items.length + granted.length + 1 ≤ cap)
    (hw : waiting ≠ [] → items.length + granted.length + 1 = cap) : Channel cap τ μ :=
  match waiting with
  | [] =>
    { items, granted, waiting := [], closed
      bounded := by omega
      full_of_waiting := by simp }
  | t :: ts =>
    { items, granted := granted ++ [t], waiting := ts, closed
      bounded := by simp; omega
      full_of_waiting := by
        have := hw (by simp)
        intro _
        simp
        omega }

/-- The receiver takes the oldest message. -/
def recv (ch : Channel cap τ μ) : Option (μ × Channel cap τ μ) :=
  match h : ch.items with
  | [] => none
  | m :: rest =>
    some (m, release rest ch.granted ch.waiting ch.closed
      (by have := ch.bounded; simp [h] at this; omega)
      (by intro hw; have := ch.full_of_waiting hw; simp [h] at this; omega))

/-- Sender `t` is dropped while it waits for a slot or holds one. -/
def cancel [DecidableEq τ] (t : τ) (ch : Channel cap τ μ) : Channel cap τ μ :=
  if h : t ∈ ch.granted then
    have hlen : (ch.granted.erase t).length + 1 = ch.granted.length := by
      have := List.length_pos_of_mem h
      rw [List.length_erase_of_mem h]
      omega
    release ch.items (ch.granted.erase t) ch.waiting ch.closed
      (by have := ch.bounded; omega)
      (by intro hw; have := ch.full_of_waiting hw; omega)
  else
    { ch with
      waiting := ch.waiting.erase t
      full_of_waiting := by
        intro hw
        exact ch.full_of_waiting fun h0 => hw (by simp [h0]) }

/-! ## What the operations do -/

@[simp, grind =] theorem items_empty : (empty : Channel cap τ μ).items = [] := rfl
@[simp] theorem waiting_empty : (empty : Channel cap τ μ).waiting = [] := rfl
@[simp] theorem closed_empty : (empty : Channel cap τ μ).closed = false := rfl

@[simp, grind =] theorem items_close (ch : Channel cap τ μ) : ch.close.items = [] := rfl
@[simp] theorem granted_close (ch : Channel cap τ μ) : ch.close.granted = [] := rfl
@[simp] theorem waiting_close (ch : Channel cap τ μ) : ch.close.waiting = [] := rfl
@[simp] theorem closed_close (ch : Channel cap τ μ) : ch.close.closed = true := rfl

@[simp, grind =] theorem items_acquire (t : τ) (ch : Channel cap τ μ) :
    (ch.acquire t).items = ch.items := by
  unfold acquire; split <;> rfl

@[simp, grind =] theorem closed_acquire (t : τ) (ch : Channel cap τ μ) :
    (ch.acquire t).closed = ch.closed := by
  unfold acquire; split <;> rfl

/-- Only the sender that asks can join the queue, and it does exactly when the channel is
full. -/
theorem mem_waiting_acquire {t u : τ} {ch : Channel cap τ μ} :
    u ∈ (ch.acquire t).waiting ↔ u ∈ ch.waiting ∨ u = t ∧ ch.Full := by
  unfold acquire
  split
  · rename_i h
    simp [h.1, Full, Nat.ne_of_lt h.2]
  · rename_i h
    simp [full_of_no_room h]

@[simp] theorem items_release (items : List μ) (granted waiting : List τ) (closed : Bool)
    (h : items.length + granted.length + 1 ≤ cap)
    (hw : waiting ≠ [] → items.length + granted.length + 1 = cap) :
    (release items granted waiting closed h hw).items = items := by
  unfold release; split <;> rfl

@[simp] theorem closed_release (items : List μ) (granted waiting : List τ) (closed : Bool)
    (h : items.length + granted.length + 1 ≤ cap)
    (hw : waiting ≠ [] → items.length + granted.length + 1 = cap) :
    (release items granted waiting closed h hw).closed = closed := by
  unfold release; split <;> rfl

theorem mem_of_mem_waiting_release {items : List μ} {granted waiting : List τ} {closed : Bool}
    {h : items.length + granted.length + 1 ≤ cap}
    {hw : waiting ≠ [] → items.length + granted.length + 1 = cap} {u : τ}
    (hu : u ∈ (release items granted waiting closed h hw).waiting) : u ∈ waiting := by
  unfold release at hu
  split at hu
  · simp at hu
  · exact List.mem_cons_of_mem _ hu

/-- A message is pushed exactly by a sender with a grant, behind all others. -/
theorem push_eq_some [DecidableEq τ] {t : τ} {m : μ} {ch ch' : Channel cap τ μ}
    (h : ch.push t m = some ch') :
    t ∈ ch.granted ∧ ch'.items = ch.items ++ [m] ∧ ch'.waiting = ch.waiting ∧
      ch'.closed = ch.closed := by
  unfold push at h
  split at h
  · rename_i ht
    obtain rfl := Option.some.inj h
    exact ⟨ht, rfl, rfl, rfl⟩
  · cases h

theorem recv_eq_some {ch ch' : Channel cap τ μ} {m : μ} (h : ch.recv = some (m, ch')) :
    ch.items = m :: ch'.items ∧ ch'.closed = ch.closed ∧
      ∀ u, u ∈ ch'.waiting → u ∈ ch.waiting := by
  unfold recv at h
  split at h
  · cases h
  · rename_i m' rest hi
    obtain ⟨rfl, rfl⟩ := Prod.mk.inj (Option.some.inj h)
    exact ⟨by simp [hi], by simp, fun u hu => mem_of_mem_waiting_release hu⟩

@[simp, grind =] theorem items_cancel [DecidableEq τ] (t : τ) (ch : Channel cap τ μ) :
    (ch.cancel t).items = ch.items := by
  unfold cancel; split <;> simp

@[simp, grind =] theorem closed_cancel [DecidableEq τ] (t : τ) (ch : Channel cap τ μ) :
    (ch.cancel t).closed = ch.closed := by
  unfold cancel; split <;> simp

theorem mem_of_mem_waiting_cancel [DecidableEq τ] {t u : τ} {ch : Channel cap τ μ}
    (h : u ∈ (ch.cancel t).waiting) : u ∈ ch.waiting := by
  unfold cancel at h
  split at h
  · exact mem_of_mem_waiting_release h
  · exact List.mem_of_mem_erase h

end Channel

end Mpsc
