import Mathlib.Data.List.Basic
import Mathlib.Tactic.Common

/-!
# Runs of a labelled step function

A system is a step function `σ → α → Option σ`; the action of a step resolves all its
nondeterminism, and `none` says that the action is not enabled. A `Run` records the state
and the action of every step it has taken, so that a condition on steps, a property of
all states passed through, and the connection between the two can be stated about it.
-/
namespace Transition

variable {σ α : Type*}

/-- The runs from `init`, each with its steps so far (oldest first) and the state reached. -/
inductive Run (step : σ → α → Option σ) (init : σ) : List (σ × α) → σ → Prop where
  | start : Run step init [] init
  | next {tr : List (σ × α)} {s t : σ} {a : α} :
      Run step init tr s → step s a = some t → Run step init (tr ++ [(s, a)]) t

/-- `P` holds in every state the run has passed through and in the state it has reached. -/
def Always (P : σ → Prop) (tr : List (σ × α)) (s : σ) : Prop :=
  (∀ p ∈ tr, P p.1) ∧ P s

/-- Every step of the run meets `C`, a condition on its action and the state before it. -/
def Steps (C : σ → α → Prop) (tr : List (σ × α)) : Prop :=
  ∀ p ∈ tr, C p.1 p.2

variable {step : σ → α → Option σ} {init : σ} {P Q : σ → Prop} {C : σ → α → Prop}
  {tr : List (σ × α)} {s t : σ} {a : α}

@[simp] theorem steps_nil : Steps C ([] : List (σ × α)) := by simp [Steps]

@[simp] theorem steps_concat : Steps C (tr ++ [(s, a)]) ↔ Steps C tr ∧ C s a := by
  simp [Steps, or_imp, forall_and]

@[simp] theorem always_nil : Always P ([] : List (σ × α)) s ↔ P s := by simp [Always]

@[simp] theorem always_concat : Always P (tr ++ [(s, a)]) t ↔ Always P tr s ∧ P t := by
  simp [Always, or_imp, forall_and]

theorem Steps.mono {D : σ → α → Prop} (h : Steps C tr) (hCD : ∀ s a, C s a → D s a) :
    Steps D tr := fun p hp => hCD _ _ (h p hp)

theorem Always.and (hP : Always P tr s) (hQ : Always Q tr s) :
    Always (fun s => P s ∧ Q s) tr s :=
  ⟨fun p hp => ⟨hP.1 p hp, hQ.1 p hp⟩, hP.2, hQ.2⟩

theorem Always.mono (h : Always P tr s) (hPQ : ∀ s, P s → Q s) : Always Q tr s :=
  ⟨fun p hp => hPQ _ (h.1 p hp), hPQ _ h.2⟩

/-- The invariant rule. -/
theorem Run.invariant (run : Run step init tr s) (hinit : P init)
    (hstep : ∀ s a t, P s → step s a = some t → P t) : P s := by
  induction run with
  | start => exact hinit
  | next _ h ih => exact hstep _ _ _ ih h

/-- The invariant rule for runs whose steps all meet a condition, on top of an invariant
`Q` that is already known to hold everywhere. -/
theorem Run.invariant_of_steps (run : Run step init tr s) (hC : Steps C tr)
    (hQ : ∀ tr s, Run step init tr s → Q s) (hinit : P init)
    (hstep : ∀ s a t, Q s → P s → C s a → step s a = some t → P t) : P s := by
  induction run with
  | start => exact hinit
  | next run h ih =>
    obtain ⟨hC, hc⟩ := steps_concat.mp hC
    exact hstep _ _ _ (hQ _ _ run) (ih hC) hc h

/-- The state before any step of a run is itself reached by a run. -/
theorem Run.of_mem (run : Run step init tr s) {p : σ × α} (hp : p ∈ tr) :
    ∃ tr', Run step init tr' p.1 ∧ ∃ t, step p.1 p.2 = some t := by
  induction run with
  | start => simp at hp
  | next run h ih =>
    rcases List.mem_append.mp hp with hp | hp
    · exact ih hp
    · obtain rfl := List.mem_singleton.mp hp
      exact ⟨_, run, _, h⟩

/-- A run is a run up to any of its steps, that step, and a run from there. -/
theorem Run.split {tr tr' : List (σ × α)} (run : Run step init (tr ++ (s, a) :: tr') t) :
    Run step init tr s ∧ ∃ u, step s a = some u ∧ Run step u tr' t := by
  generalize htr : tr ++ (s, a) :: tr' = full at run
  induction run generalizing tr' with
  | start => simp at htr
  | @next tr₁ s₁ t₁ a₁ run h ih =>
    rcases List.eq_nil_or_concat tr' with rfl | ⟨tr'', p, rfl⟩
    · obtain ⟨rfl, hp⟩ := List.append_inj' htr rfl
      obtain ⟨rfl, rfl⟩ := Prod.mk.inj (List.cons.inj hp).1
      exact ⟨run, t₁, h, .start⟩
    · rw [List.concat_eq_append, ← List.cons_append, ← List.append_assoc] at htr
      obtain ⟨rfl, hp⟩ := List.append_inj' htr rfl
      obtain rfl := (List.cons.inj hp).1
      obtain ⟨before, u, hu, rest⟩ := ih rfl
      rw [List.concat_eq_append]
      exact ⟨before, u, hu, rest.next h⟩

/-- A part of a system that each step leaves alone or takes through a step of its own, which meets
a condition, goes through a run of its own. -/
theorem Run.project_steps {τ β : Type*} {step' : τ → β → Option τ} {D : τ → β → Prop}
    (run : Run step init tr s) (part : σ → τ)
    (h : ∀ tr s a t, Run step init tr s → step s a = some t →
      part t = part s ∨ ∃ b, D (part s) b ∧ step' (part s) b = some (part t)) :
    ∃ tr', Run step' (part init) tr' (part s) ∧ Steps D tr' := by
  induction run with
  | start => exact ⟨[], .start, steps_nil⟩
  | next run hs ih =>
    obtain ⟨tr', run', hD⟩ := ih
    rcases h _ _ _ _ run hs with same | ⟨b, hb, hstep⟩
    · exact ⟨tr', same ▸ run', hD⟩
    · exact ⟨_, run'.next hstep, steps_concat.mpr ⟨hD, hb⟩⟩

theorem Run.project {τ β : Type*} {step' : τ → β → Option τ}
    (run : Run step init tr s) (part : σ → τ)
    (h : ∀ s a t, step s a = some t → part t = part s ∨ ∃ b, step' (part s) b = some (part t)) :
    ∃ tr', Run step' (part init) tr' (part s) := by
  obtain ⟨tr', run', -⟩ := run.project_steps (D := fun _ _ => True) part fun _ s a t _ hs =>
    (h s a t hs).imp_right fun ⟨b, hb⟩ => ⟨b, trivial, hb⟩
  exact ⟨tr', run'⟩

/-- What every run's last state satisfies holds all along every run. -/
theorem Run.always (run : Run step init tr s) (h : ∀ tr s, Run step init tr s → P s) :
    Always P tr s :=
  ⟨fun _ hp => let ⟨_, run', _⟩ := run.of_mem hp; h _ _ run', h _ _ run⟩

/-- The same for runs whose steps all meet a condition. -/
theorem Run.always_of_steps (run : Run step init tr s) (hC : Steps C tr)
    (h : ∀ tr s, Run step init tr s → Steps C tr → P s) : Always P tr s := by
  induction run with
  | start => exact always_nil.mpr (h _ _ .start steps_nil)
  | next run hs ih =>
    exact always_concat.mpr ⟨ih (steps_concat.mp hC).1, h _ _ (run.next hs) hC⟩

/-- What cannot come to hold by a step holds all along a run at whose end it holds. -/
theorem Run.always_of_last (run : Run step init tr s) (h : P s)
    (back : ∀ s a t, step s a = some t → P t → P s) : Always P tr s := by
  induction run with
  | start => exact always_nil.mpr h
  | next run hs ih => exact always_concat.mpr ⟨ih (back _ _ _ hs h), h⟩

/-- A step that keeps to the states that satisfy `P` meets every condition whose violation
leaves them. -/
theorem Run.steps_of_always (run : Run step init tr s) (h : Always P tr s)
    (breaks : ∀ s a t, P s → step s a = some t → P t → C s a) : Steps C tr := by
  induction run with
  | start => exact steps_nil
  | next run hs ih =>
    obtain ⟨before, ht⟩ := always_concat.mp h
    exact steps_concat.mpr ⟨ih before, breaks _ _ _ before.2 hs ht⟩

/-- What holds at first, and is kept by the steps that meet a condition, holds all along a
run of such steps, on top of what is known to hold along it. -/
theorem Run.always_of_keeps (run : Run step init tr s) (hQ : Always Q tr s) (hinit : P init)
    (keeps : ∀ s a t, Q s → P s → C s a → step s a = some t → P t) (hC : Steps C tr) :
    Always P tr s := by
  induction run with
  | start => exact always_nil.mpr hinit
  | next run h ih =>
    have before := (always_concat.mp hQ).1
    obtain ⟨hC, hc⟩ := steps_concat.mp hC
    have ih := ih before hC
    exact always_concat.mpr ⟨ih, keeps _ _ _ before.2 ih.2 hc h⟩

/-- A condition on steps is exact for a property of states when steps that meet it keep
the property, and a step that does not destroys it at once. -/
theorem Run.always_iff_steps (run : Run step init tr s) (hQ : Always Q tr s) (hinit : P init)
    (keeps : ∀ s a t, Q s → P s → C s a → step s a = some t → P t)
    (breaks : ∀ s a t, Q s → P s → step s a = some t → P t → C s a) :
    Always P tr s ↔ Steps C tr := by
  constructor
  · intro h
    refine run.steps_of_always (hQ.and h) fun s a t hs step ht => ?_
    exact breaks s a t hs.1 hs.2 step ht.2
  · exact run.always_of_keeps hQ hinit keeps

/-- Perform a list of actions, if each is enabled in its turn and meets `C`. -/
def exec (step : σ → α → Option σ) (C : σ → α → Prop) [∀ s a, Decidable (C s a)] :
    σ → List α → Option σ
  | s, [] => some s
  | s, a :: as =>
    if C s a then
      match step s a with
      | some t => exec step C t as
      | none => none
    else none

theorem Run.exec [∀ s a, Decidable (C s a)] (run : Run step init tr s) (hC : Steps C tr)
    {as : List α} (h : exec step C s as = some t) :
    ∃ tr', Run step init tr' t ∧ Steps C tr' := by
  induction as generalizing tr s with
  | nil =>
    obtain rfl : s = t := by simpa [Transition.exec] using h
    exact ⟨tr, run, hC⟩
  | cons a as ih =>
    unfold Transition.exec at h
    split at h
    · rename_i hc
      split at h
      · rename_i u hu
        exact ih (run.next hu) (steps_concat.mpr ⟨hC, hc⟩) h
      · cases h
    · cases h

/-- The form in which a concrete run is checked: perform the actions, and test the state
they lead to. -/
theorem run_of_exec [∀ s a, Decidable (C s a)] {as : List α} {test : σ → Bool}
    (h : (exec step C init as).any test = true) :
    ∃ tr s, Run step init tr s ∧ Steps C tr ∧ test s = true := by
  cases hs : exec step C init as with
  | none => simp [hs] at h
  | some s =>
    obtain ⟨tr, run, hC⟩ := Run.start.exec steps_nil hs
    exact ⟨tr, s, run, hC, by simpa [hs] using h⟩

end Transition
