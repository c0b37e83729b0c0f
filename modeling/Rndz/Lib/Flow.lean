import Mathlib.Data.List.Count

/-!
# What flows through a network

A history of events, each of which may take something out of a node of a network and bring
something into a node. As long as nothing comes out of a node that has not gone in, the network as
a whole gives out no more than it takes in.
-/
namespace Flow

variable {ε κ : Type*} {into outOf : ε → Option κ} {log : List ε} {e : ε}
  {load load' : κ → Nat}

/-- What leaves the network at an event, or enters it. -/
def crosses (f g : ε → Option κ) (e : ε) : Bool := (f e).isSome && (g e).isNone

theorem countP_crosses (f g : ε → Option κ) (log : List ε) :
    log.countP (crosses f g) + (log.filterMap g).length =
      log.countP (crosses g f) + (log.filterMap f).length := by
  induction log with
  | nil => rfl
  | cons e log ih =>
    cases hf : f e <;> cases hg : g e <;> simp [crosses, hf, hg] at ih ⊢ <;> omega

variable [DecidableEq κ]

/-- What has come into a node has left it, or makes up its load, or is lost. -/
def Bounded (into outOf : ε → Option κ) (load : κ → Nat) (log : List ε) : Prop :=
  ∀ c, load c + (log.filterMap outOf).count c ≤ (log.filterMap into).count c

theorem Bounded.mono (h : Bounded into outOf load log) (less : ∀ c, load' c ≤ load c) :
    Bounded into outOf load' log :=
  fun c => Nat.le_trans (Nat.add_le_add_right (less c) _) (h c)

theorem count_filterMap_concat (f : ε → Option κ) (log : List ε) (e : ε) (c : κ) :
    ((log ++ [e]).filterMap f).count c =
      (log.filterMap f).count c + if f e = some c then 1 else 0 := by
  cases h : f e with
  | none => simp [List.filterMap_append, h]
  | some d => by_cases hd : d = c <;> simp [List.filterMap_append, h, hd]

/-- One more event. -/
theorem Bounded.concat (h : Bounded into outOf load log)
    (moves : ∀ c, load' c + (if outOf e = some c then 1 else 0) ≤
      load c + if into e = some c then 1 else 0) : Bounded into outOf load' (log ++ [e]) := by
  intro c
  have before := h c
  have step := moves c
  rw [count_filterMap_concat, count_filterMap_concat]
  omega

/-- No more leaves the network than enters it. -/
theorem Bounded.countP_le (h : Bounded into outOf load log) :
    log.countP (crosses outOf into) ≤ log.countP (crosses into outOf) := by
  have subperm : (log.filterMap outOf).Subperm (log.filterMap into) :=
    List.subperm_ext_iff.mpr fun c _ => Nat.le_trans (Nat.le_add_left _ _) (h c)
  have balance := countP_crosses outOf into log
  have := subperm.length_le
  omega

end Flow
