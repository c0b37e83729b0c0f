import Mathlib.Algebra.Order.Group.Basic
import Mathlib.Tactic.Common

/-!
# A watchdog at the end of a stream

A source sends beats into a stream, no two further apart than a gap, and a beat is there within a
delay. A watchdog takes them out one by one and is armed anew for each. As long as the source runs,
it never has to wait longer than the gap and the delay.
-/
namespace Watchdog

variable {T : Type*} {start t : T} {beats : List T} {n : Nat}

/-- The latest beat, or the start. -/
def latest (start : T) (beats : List T) : T := beats.getLast?.getD start

/-- The beat taken last when `n` have been taken, or the start. -/
def taken (start : T) (beats : List T) (n : Nat) : T := latest start (beats.take n)

@[simp] theorem latest_nil : latest start [] = start := rfl

@[simp] theorem latest_concat : latest start (beats ++ [t]) = t := by simp [latest]

@[simp] theorem taken_zero : taken start beats 0 = start := rfl

theorem taken_of_length_le (h : beats.length ≤ n) : taken start beats n = latest start beats := by
  rw [taken, List.take_of_length_le h]

theorem taken_append (h : n ≤ beats.length) (more : List T) :
    taken start (beats ++ more) n = taken start beats n := by
  rw [taken, List.take_append_of_le_length h, taken]

/-- A beat that has been taken is among the beats. -/
theorem taken_mem (start : T) (beats : List T) (n : Nat) :
    taken start beats n ∈ start :: beats := by
  unfold taken latest
  cases h : (beats.take n).getLast? with
  | none => exact List.mem_cons_self
  | some b => exact List.mem_cons_of_mem _ (List.mem_of_mem_take (List.mem_of_getLast? h))

variable [AddCommGroup T] [LinearOrder T] {gap delay now armed : T}

/-- Beats, the first one first, that are at most `gap` apart, from `start` on. -/
def Paced (gap start : T) (beats : List T) : Prop :=
  ∀ n t, beats[n]? = some t → t ≤ taken start beats n + gap

theorem paced_nil : Paced gap start [] := by simp [Paced]

theorem Paced.concat (paced : Paced gap start beats) (h : t ≤ latest start beats + gap) :
    Paced gap start (beats ++ [t]) := by
  intro n u hu
  rcases Nat.lt_trichotomy n beats.length with hlt | rfl | hgt
  · rw [taken_append hlt.le]
    rw [List.getElem?_append_left hlt] at hu
    exact paced n u hu
  · obtain rfl : t = u := by simpa using hu
    rwa [taken_append (Nat.le_refl _), taken_of_length_le (Nat.le_refl _)]
  · have hlen := (List.getElem?_eq_some_iff.mp hu).1
    rw [List.length_append, List.length_singleton] at hlen
    omega

variable [IsOrderedAddMonoid T]

/-- The watchdog is armed after `n` beats have been taken. If no other beat has arrived and the
source runs, it has not waited long. -/
theorem Paced.waits_le (paced : Paced gap start beats) (hdelay : 0 ≤ delay)
    (after : taken start beats n ≤ armed) (runs : now ≤ latest start beats + gap)
    (prompt : ∀ t, beats[n]? = some t → now ≤ t + delay) : now ≤ armed + gap + delay := by
  cases next : beats[n]? with
  | none =>
    rw [taken_of_length_le (List.getElem?_eq_none_iff.mp next)] at after
    calc now ≤ latest start beats + gap := runs
      _ ≤ armed + gap := by gcongr
      _ ≤ armed + gap + delay := le_add_of_nonneg_right hdelay
  | some t =>
    calc now ≤ t + delay := prompt t next
      _ ≤ taken start beats n + gap + delay := by
        gcongr
        exact paced n t next
      _ ≤ armed + gap + delay := by gcongr

end Watchdog
