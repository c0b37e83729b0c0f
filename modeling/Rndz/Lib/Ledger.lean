import Mathlib.Data.List.Forall2
import Rndz.Lib.Transition

/-!
# A ledger of things begun and things settled

Along a run, parties begin things and settle them, each party in order and with what it has
settled or has in hand fitting what it has begun. A step moves the ledger of a party along,
or loses something of it. The ledger of all parties balances at the end of a run exactly if no
step has lost anything.
-/
namespace Transition

/-- What a step begins and settles for a party, what the party has in hand, and what fits. -/
structure Ledger (σ α κ ι ο : Type*) where
  begun : κ → σ → α → List ι
  settled : κ → σ → α → List ο
  hand : κ → σ → List ο
  Fits : ι → ο → Prop

namespace Ledger

variable {σ α κ ι ο : Type*} {step : σ → α → Option σ} {init : σ} {C : σ → α → Prop}
  {Q : σ → Prop} {tr : List (σ × α)} {s t : σ} {a : α} {c : κ}

def Balanced (L : Ledger σ α κ ι ο) (c : κ) (tr : List (σ × α)) (s : σ) : Prop :=
  List.Forall₂ L.Fits (tr.flatMap fun p => L.begun c p.1 p.2)
    ((tr.flatMap fun p => L.settled c p.1 p.2) ++ L.hand c s)

/-- What is begun by the step is added to what is in hand, and what is settled taken out. -/
def Moves (L : Ledger σ α κ ι ο) (c : κ) (s : σ) (a : α) (t : σ) : Prop :=
  ∃ os, List.Forall₂ L.Fits (L.begun c s a) os ∧ L.settled c s a ++ L.hand c t = L.hand c s ++ os

/-- Less is settled or in hand than was in hand or is begun. -/
def Loses (L : Ledger σ α κ ι ο) (c : κ) (s : σ) (a : α) (t : σ) : Prop :=
  (L.settled c s a).length + (L.hand c t).length < (L.hand c s).length + (L.begun c s a).length

variable {L : Ledger σ α κ ι ο}

theorem moves_of_none (begun : L.begun c s a = [])
    (same : L.settled c s a ++ L.hand c t = L.hand c s) : L.Moves c s a t :=
  ⟨[], begun ▸ .nil, by rw [same, List.append_nil]⟩

theorem Moves.length (moves : L.Moves c s a t) :
    (L.settled c s a).length + (L.hand c t).length =
      (L.hand c s).length + (L.begun c s a).length := by
  obtain ⟨os, fits, heq⟩ := moves
  rw [← List.length_append, heq, List.length_append, fits.length_eq]

theorem Moves.balanced_iff (moves : L.Moves c s a t) :
    L.Balanced c (tr ++ [(s, a)]) t ↔ L.Balanced c tr s := by
  obtain ⟨os, fits, heq⟩ := moves
  have happend : ((tr ++ [(s, a)]).flatMap fun p => L.settled c p.1 p.2) ++ L.hand c t =
      ((tr.flatMap fun p => L.settled c p.1 p.2) ++ L.hand c s) ++ os := by
    simp [heq]
  unfold Balanced
  rw [happend, List.flatMap_append, List.flatMap_singleton]
  constructor
  · intro h
    have hlen := h.length_eq
    have hfits := fits.length_eq
    have before := List.forall₂_take_append _ _ _ h
    rwa [List.take_append_of_le_length (by simp at hlen ⊢; omega), List.take_of_length_le
      (by simp at hlen ⊢; omega)] at before
  · exact fun h => List.rel_append h fits

/-- Along every run no more is settled or in hand than has been begun. -/
theorem length_le (run : Run step init tr s) (hinit : L.hand c init = [])
    (moves : ∀ s a t, step s a = some t → Q s → L.Moves c s a t ∨ L.Loses c s a t)
    (hQ : ∀ tr s, Run step init tr s → Q s) :
    (tr.flatMap fun p => L.settled c p.1 p.2).length + (L.hand c s).length ≤
      (tr.flatMap fun p => L.begun c p.1 p.2).length := by
  induction run with
  | start => simp [hinit]
  | next run h ih =>
    simp only [List.flatMap_append, List.flatMap_singleton, List.length_append]
    rcases moves _ _ _ h (hQ _ _ run) with moved | lost
    · have := moved.length
      omega
    · unfold Loses at lost
      omega

/-- A loss shows in the lengths at once. -/
theorem not_balanced_of_loses (run : Run step init tr s) (hinit : L.hand c init = [])
    (moves : ∀ s a t, step s a = some t → Q s → L.Moves c s a t ∨ L.Loses c s a t)
    (hQ : ∀ tr s, Run step init tr s → Q s) (lost : L.Loses c s a t) :
    ¬L.Balanced c (tr ++ [(s, a)]) t := by
  intro balanced
  have hlen := balanced.length_eq
  have hle := length_le run hinit moves hQ
  simp only [List.flatMap_append, List.flatMap_singleton, List.length_append] at hlen
  unfold Loses at lost
  omega

/-- The ledger of every party balances if and only if all steps meet `C`, when these are the
steps that lose nothing. -/
theorem balanced_iff_steps (run : Run step init tr s) (hinit : ∀ c, L.hand c init = [])
    (hQ : ∀ tr s, Run step init tr s → Q s)
    (keeps : ∀ s a t c, step s a = some t → Q s → C s a → L.Moves c s a t)
    (moves : ∀ s a t c, step s a = some t → Q s → L.Moves c s a t ∨ L.Loses c s a t)
    (loses : ∀ s a t, step s a = some t → Q s → ¬C s a → ∃ c, L.Loses c s a t) :
    (∀ c, L.Balanced c tr s) ↔ Steps C tr := by
  induction run with
  | start => simp [Balanced, hinit]
  | @next tr s t a run h ih =>
    rw [steps_concat, ← ih]
    constructor
    · intro balanced
      have none_lost : ∀ c, ¬L.Loses c s a t := fun c lost =>
        not_balanced_of_loses run (hinit c) (fun s a t => moves s a t c) hQ lost (balanced c)
      refine ⟨fun c => ?_, ?_⟩
      · have moved := (moves s a t c h (hQ _ _ run)).resolve_right (none_lost c)
        exact moved.balanced_iff.mp (balanced c)
      · by_contra hC
        obtain ⟨c, lost⟩ := loses s a t h (hQ _ _ run) hC
        exact none_lost c lost
    · rintro ⟨balanced, hC⟩ c
      exact (keeps s a t c h (hQ _ _ run) hC).balanced_iff.mpr (balanced c)

end Ledger

end Transition
