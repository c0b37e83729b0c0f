import Mathlib.Logic.Function.Basic

/-!
# What the two clients share

Both clients number their connections to the server and their calls of `listen`, and a step
replaces one connection at most. What is known of each of them stays known if it is kept by the
connection that comes in.
-/
namespace Rndz.Tcp.Listening

open Function (update update_apply)

variable {α π : Type} {conns : Nat → α} {j : Nat} {d : α}

theorem forall_update {P : α → Prop} (all : ∀ k, P (conns k)) (new : P d) :
    ∀ k, P (update conns j d k) := by
  intro k
  rw [update_apply]
  split
  · exact new
  · exact all k

/-- A connection that is replaced by one for the same call changes nothing. -/
theorem listener_update {listener : α → Nat} (same : listener d = listener (conns j)) (k : Nat) :
    listener (update conns j d k) = listener (conns k) := by
  rw [update_apply]
  split
  · rename_i hk
    rw [hk, same]
  · rfl

/-- `conn` is the connection that each call of `listen` has opened last. -/
theorem current_update {listener : α → Nat} {conn : Nat → Option Nat} {count : Nat}
    (current : ∀ l k, conn l = some k → k < count ∧ listener (conns k) = l)
    (same : listener d = listener (conns j)) :
    ∀ l k, conn l = some k → k < count ∧ listener (update conns j d k) = l := by
  intro l k hk
  rw [listener_update same]
  exact current l k hk

/-- `At l first p` says that call `l` is setting up its connection and has come to point `p`. -/
theorem start_update {At : Nat → Bool → π → Prop} {conn : Nat → Option Nat}
    {connOf : π → Option Nat} {Fits : π → α → Prop}
    (start : ∀ l first p k, At l first p → connOf p = some k → conn l = some k ∧ Fits p (conns k))
    (keeps : ∀ p, Fits p (conns j) → Fits p d) :
    ∀ l first p k, At l first p → connOf p = some k →
      conn l = some k ∧ Fits p (update conns j d k) := by
  intro l first p k stands hp
  obtain ⟨hconn, fits⟩ := start l first p k stands hp
  refine ⟨hconn, ?_⟩
  rw [update_apply]
  split
  · rename_i hk
    exact keeps p (hk ▸ fits)
  · exact fits

end Rndz.Tcp.Listening
