import Rndz.Tcp.Report

/-!
# The assertion after the outer wait

A reconnect thread that is woken with `exit` unset asserts `broken` and resets it. All
reconnect threads share the flag, and the first to wake resets it for the others; a thread that
wakes without a notification may find it unset as well. The failed assertion poisons the mutex,
which `shutdown` unwraps.
-/
namespace Rndz.Tcp.Client

open Net Proto Mpsc Notification Transition
open Function (update update_apply)

namespace State

variable {s t : State} {k l : Nat} {w : Waiter} {a : Action} {tr : List (State × Action)}
  {id : String}

/-- The reconnect thread of `l` is in its outer wait, with the waiter `w`. -/
abbrev AtOuterWait (s : State) (l : Nat) (w : Waiter) : Prop :=
  (s.listeners l).phase = .outerWait w

/-- A reconnect thread that gets past the exit check after its outer wait finds `broken`
set. -/
def Asserted (s : State) (a : Action) : Prop :=
  ∀ l w, s.AtOuterWait l w → a = .lock l ∨ a = .wake l → s.poisoned = false → s.exit = false →
    s.broken = true

/-- The mutex is sound, and no reconnect thread and no call of `shutdown` has panicked. -/
structure Sound (s : State) : Prop where
  mutex : s.poisoned = false
  user : s.userPanicked = false
  threads : ∀ l, (s.listeners l).phase ≠ .panicked

/-- At most one reconnect thread is in its outer wait. -/
def OneWaits (s : State) : Prop :=
  ∀ l l' w w', s.AtOuterWait l w → s.AtOuterWait l' w' → l = l'

/-- Before `exit` is set, a monitor reports while at most one reconnect thread is in its outer
wait, and an outer wait ends without a notification only when `broken` is set and no other
reconnect thread has a notification pending. -/
def OneIsWoken (s : State) (a : Action) : Prop :=
  s.exit = false →
    match a with
    | .report _ => s.OneWaits
    | .wake l => ∀ w, s.AtOuterWait l w →
        s.broken = true ∧ ∀ l' w', s.AtOuterWait l' w' → s.cvar.Woken w' → l' = l
    | _ => True

/-- `broken` is set as long as a reconnect thread has a notification pending, and at most one
has. -/
structure Promised (s : State) : Prop where
  broken : ∀ l w, s.AtOuterWait l w → s.cvar.Woken w → s.broken = true
  one : ∀ l l' w w', s.AtOuterWait l w → s.AtOuterWait l' w' → s.cvar.Woken w →
    s.cvar.Woken w' → l = l'

theorem asserted_of_promised (promised : s.exit = false → s.Promised) (one : s.OneIsWoken a)
    (ends : s.EndsWait l w a) (waits : s.AtOuterWait l w) (running : s.exit = false) :
    s.broken = true ∧ ∀ l' w', s.AtOuterWait l' w' → s.cvar.Woken w' → l' = l := by
  obtain ⟨rfl, woken⟩ | rfl := ends
  · refine ⟨(promised running).broken l w waits woken, ?_⟩
    intro l' w' waits' woken'
    exact (promised running).one l' l w' w waits' waits woken' woken
  · exact one running w waits

theorem promised_step (rule : Rule s a t) (promised : s.exit = false → s.Promised)
    (one : s.OneIsWoken a) (running : t.exit = false) : t.Promised := by
  cases rule with
  | shutdown => cases running
  | report at_report sound =>
    refine ⟨fun _ _ _ _ => rfl, ?_⟩
    intro l l' w w' waits waits' _ _
    exact one running l l' w w' waits waits'
  | @waitOuter l at_outer sound =>
    obtain ⟨broken, unique⟩ := promised running
    constructor <;> simp only [AtOuterWait, setPhase, setListener, update_apply] <;>
      grind [Notify.not_woken_wait]
  | @endOuter l w a waits ends sound running =>
    obtain ⟨-, others⟩ := asserted_of_promised promised one ends waits running
    constructor <;> simp only [AtOuterWait, setPhase, setListener, update_apply] <;> grind
  | endAssert waits ends sound running intact =>
    have := asserted_of_promised promised one ends waits running
    grind
  | _ =>
    simp only [openConn, startFailed_exit, setPhase, setListener, setConn] at running
    obtain ⟨broken, unique⟩ := promised running
    constructor <;>
      simp only [AtOuterWait, openConn, startFailed_listeners, startFailed_cvar,
        startFailed_broken, setPhase, setListener, setConn, update_apply] <;>
      grind

theorem sound_step (rule : Rule s a t) (sound : s.Sound)
    (promised : s.exit = false → s.Promised) (one : s.OneIsWoken a) : t.Sound := by
  obtain ⟨mutex, user, threads⟩ := sound
  cases rule with
  | endAssert waits ends sound running intact =>
    have := asserted_of_promised promised one ends waits running
    grind
  | _ =>
    constructor <;>
      simp only [openConn, startFailed_listeners, startFailed_poisoned, startFailed_userPanicked,
        setPhase, setListener, setConn, update_apply] <;>
      grind

/-- A step that takes a reconnect thread out of its outer wait ends the wait. -/
theorem endsWait_of_step (h : s.step a = some t) (waits : s.AtOuterWait l w)
    (acts : a = .lock l ∨ a = .wake l) : s.EndsWait l w a := by
  obtain rfl | rfl := acts
  · have h : s.lockStep l = some t := h
    simp only [lockStep, waits, Option.ite_none_right_eq_some] at h
    exact .inl ⟨rfl, h.1⟩
  · exact .inr rfl

/-- Where at most one reconnect thread is woken at a time every assertion holds, no thread
panics inside a critical section and neither does `shutdown`. -/
theorem assertion_holds (run : Run id tr s) (one : Steps OneIsWoken tr) :
    Steps Asserted tr ∧ Always Sound tr s := by
  have promised : Always (fun s => s.exit = false → s.Promised) tr s := by
    have every : Always (fun _ => True) tr s := ⟨fun _ _ => trivial, trivial⟩
    refine run.always_of_keeps every ?_ ?_ one
    · intro _
      constructor <;> simp [init]
    · intro s a t _ promised one h
      exact promised_step (rule_of_step h) promised one
  have sound : Always Sound tr s := by
    refine run.always_of_keeps promised ?_ ?_ one
    · constructor <;> simp [init]
    · intro s a t promised sound one h
      exact sound_step (rule_of_step h) sound promised one
  refine ⟨?_, sound⟩
  intro p hp l w waits acts mutex running
  obtain ⟨-, -, t, h⟩ := run.of_mem hp
  have ends := endsWait_of_step h waits acts
  exact (asserted_of_promised (promised.1 p hp) (one p hp) ends waits running).1

/-! ## Concrete runs -/

/-- Two calls of `listen` and a break: both reconnect threads are woken, the first resets
`broken`, the assertion of the second fails, and `shutdown` panics on the poisoned mutex. -/
theorem second_listener_panics : ∃ tr s, Run "c1" tr s ∧ s.userPanicked = true ∧ ¬s.Sound := by
  have script : (exec step (fun _ _ => True) (init "c1")
      (listenOnce 0 ++ listenOnce 1 ++ breakConn 1 ++
        [Action.lock 0, .lock 1, .shutdown])).any
      (fun s => s.poisoned = true ∧ s.userPanicked = true) = true := by decide
  obtain ⟨tr, s, run, -, h⟩ := run_of_exec script
  obtain ⟨poisoned, panicked⟩ := of_decide_eq_true h
  refine ⟨tr, s, run, panicked, ?_⟩
  intro sound
  simp [sound.mutex] at poisoned

/-- One call of `listen`, and no wait of its reconnect thread ends without a notification. -/
def Plain (s : State) (a : Action) : Prop := s.listens ≤ 1 ∧ a ≠ .wake 0

instance (s : State) (a : Action) : Decidable (s.Plain a) := inferInstanceAs (Decidable (_ ∧ _))

theorem oneIsWoken_of_plain (uncalled : s.Uncalled) (plain : s.Plain a) : s.OneIsWoken a := by
  obtain ⟨single, quiet⟩ := plain
  have first (l w) (waits : s.AtOuterWait l w) : l = 0 :=
    uncalled.eq_zero single (by simp [waits])
  intro _
  cases a with
  | report k =>
    intro l l' w w' waits waits'
    rw [first l w waits, first l' w' waits']
  | wake l =>
    intro w waits
    obtain rfl := first l w waits
    exact absurd rfl quiet
  | _ => trivial

/-- A plain run with a break, a reconnect and a shutdown. -/
theorem plain_run_sound :
    ∃ tr s, Run "c1" tr s ∧ (s.listeners 0).phase = .returned ∧ (s.listeners 0).conn = some 1 ∧
      Steps Asserted tr ∧ Always Sound tr s := by
  have script : (exec step Plain (init "c1")
      (listenOnce 0 ++ breakConn 0 ++
        [Action.lock 0, .connect 0 true, .clone 0 true, .clone 0 true, .spawn 0, .spawn 0,
          .lock 0, .shutdown, .lock 0])).any
      (fun s => (s.listeners 0).phase = .returned ∧ (s.listeners 0).conn = some 1) = true := by
    decide
  obtain ⟨tr, s, run, plain, h⟩ := run_of_exec script
  obtain ⟨returned, conn⟩ := of_decide_eq_true h
  have one : Steps OneIsWoken tr := by
    intro p hp
    obtain ⟨_, before, -⟩ := run.of_mem hp
    exact oneIsWoken_of_plain (fresh_of_run before).uncalled (plain p hp)
  exact ⟨tr, s, run, returned, conn, assertion_holds run one⟩

end State

end Rndz.Tcp.Client
