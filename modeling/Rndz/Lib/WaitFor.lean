import Mathlib.Data.Set.Basic
import Mathlib.Logic.Relation

/-!
# Wait-for relations

A set of parties is deadlocked when it is not empty and each of them waits for one of the
set. Parties that stop waiting cannot cause a deadlock; a party that starts to wait causes
one exactly when whom it waits for waits, through others perhaps, for the party itself.
-/
namespace WaitFor

open Relation

variable {α : Type*} {W W' : α → α → Prop} {a b : α}

structure Deadlocked (W : α → α → Prop) (D : Set α) : Prop where
  nonempty : D.Nonempty
  closed : ∀ x ∈ D, ∃ y ∈ D, W x y

theorem Deadlocked.mono {D : Set α} (h : Deadlocked W D) (sub : ∀ x y, W x y → W' x y) :
    Deadlocked W' D :=
  ⟨h.nonempty, fun x hx => let ⟨y, hy, hw⟩ := h.closed x hx; ⟨y, hy, sub x y hw⟩⟩

/-- A deadlock that one new wait brings about closes a cycle. -/
theorem Deadlocked.reaches {D : Set α} (h : Deadlocked W' D) (free : ∀ D, ¬Deadlocked W D)
    (new : ∀ x y, W' x y → W x y ∨ x = a ∧ y = b) : ReflTransGen W b a := by
  by_contra unreached
  -- what `b` reaches within `D` does not contain `a`, so it was deadlocked before
  have old : ∀ x ∈ D, x ≠ a → ∃ y ∈ D, W x y := fun x hx hne => by
    obtain ⟨y, hy, hw⟩ := h.closed x hx
    exact ⟨y, hy, (new x y hw).resolve_right fun h => hne h.1⟩
  by_cases hb : b ∈ D
  · refine free {x | x ∈ D ∧ ReflTransGen W b x} ⟨⟨b, hb, .refl⟩, ?_⟩
    rintro x ⟨hx, hbx⟩
    obtain ⟨y, hy, hw⟩ := old x hx fun hxa => unreached (hxa ▸ hbx)
    exact ⟨y, ⟨hy, hbx.tail hw⟩, hw⟩
  · refine free D ⟨h.nonempty, fun x hx => ?_⟩
    obtain ⟨y, hy, hw⟩ := h.closed x hx
    exact ⟨y, hy, (new x y hw).resolve_right fun h => hb (h.2 ▸ hy)⟩

/-- A wait that closes a cycle deadlocks the parties on it. -/
theorem deadlocked_of_reaches (sub : ∀ x y, W x y → W' x y) (wait : W' a b)
    (reaches : ReflTransGen W b a) :
    Deadlocked W' {x | ReflTransGen W b x ∧ ReflTransGen W x a} := by
  refine ⟨⟨b, .refl, reaches⟩, ?_⟩
  rintro x ⟨hbx, hxa⟩
  rcases hxa.cases_head with rfl | ⟨y, hxy, hya⟩
  · exact ⟨b, ⟨.refl, reaches⟩, wait⟩
  · exact ⟨y, ⟨hbx.tail hxy, hya⟩, sub x y hxy⟩

/-- Nothing is reached from a party that does not wait but the party itself. -/
theorem eq_of_reaches (idle : ∀ y, ¬W b y) (reaches : ReflTransGen W b a) : b = a := by
  rcases reaches.cases_head with h | ⟨y, hw, -⟩
  · exact h
  · exact absurd hw (idle y)

end WaitFor
