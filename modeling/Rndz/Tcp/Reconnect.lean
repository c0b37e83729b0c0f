import Rndz.Tcp.Report

/-!
# A broken connection is replaced

The reconnect thread waits to be told that its connection is broken. It does not look at
`broken` before it waits, so the report of a monitor is lost on it unless it waits already. With
a single call of `listen` no other report follows, and nothing wakes the thread again.
-/
namespace Rndz.Tcp.Client

open Net Proto Mpsc Notification Transition
open Function (update update_apply)

/-- The reconnect thread, which may not be spawned yet, is about to enter its outer wait. -/
def Phase.OnItsWay : Phase → Prop
  | .start _ (.watcher _) | .outer => True
  | _ => False

instance : DecidablePred Phase.OnItsWay
  | .start _ (.watcher _) | .outer => .isTrue trivial
  | .absent | .start _ .connect | .start _ (.writer _) | .start _ (.reader _)
  | .start _ (.monitor _) | .outerWait _ | .retry | .retryWait _ | .returned | .panicked =>
    .isFalse id

/-- The reconnect thread, or its call of `listen`, is yet to give a connection its monitor. -/
def Phase.quiet : Phase → Bool
  | .start _ (.watcher _) | .outer | .outerWait _ | .returned | .panicked => false
  | _ => true

/-- The connection whose monitor reports. -/
def Action.reporter : Action → Option Nat
  | .report k => some k
  | _ => none

namespace State

variable {s t : State} {k l : Nat} {w : Waiter} {a : Action} {tr : List (State × Action)}
  {id : String}

/-- The reconnect thread of `l` is in its outer wait, or about to enter it, and has no
notification pending. -/
def HeadsForWait (s : State) (l : Nat) : Prop :=
  (s.listeners l).phase.OnItsWay ∨ ∃ w, (s.listeners l).phase = .outerWait w ∧ ¬s.cvar.Woken w

/-- The connection of `l` is over and reported, the reconnect thread waits for the report, and
no monitor is left to wake it. -/
structure Lost (s : State) (l k : Nat) : Prop where
  current : (s.listeners l).conn = some k
  isOver : (s.conns k).Over
  reported : (s.conns k).monitor = .done
  running : s.exit = false
  waits : s.HeadsForWait l
  alone : ∀ j, ¬s.Pending j

def NoneLost (s : State) : Prop := ∀ l k, ¬s.Lost l k

/-- The monitor of a current connection does not report while the reconnect thread is on its
way to the wait. -/
def ReportHeard (s : State) (a : Action) : Prop :=
  ∀ k ∈ a.reporter, s.exit = true ∨ s.poisoned = true ∨
    (s.listeners (s.conns k).listener).conn ≠ some k ∨
    ¬(s.listeners (s.conns k).listener).phase.OnItsWay

instance (s : State) (a : Action) : Decidable (s.ReportHeard a) :=
  inferInstanceAs (Decidable (∀ k ∈ a.reporter, _ ∨ _ ∨ _ ∨ _))

/-- A reconnect thread that heads for its wait has a connection that is not reported yet. -/
def Heard (s : State) : Prop :=
  s.exit = false → ∀ l k, (s.listeners l).conn = some k → s.HeadsForWait l →
    (s.conns k).monitor ≠ .done

theorem heard_step (rule : Rule s a t) (made : s.WaitersMade) (fresh : s.Fresh)
    (heard : s.Heard) (hears : s.ReportHeard a) : t.Heard := by
  intro running l k conn waits
  cases rule with
  | shutdown => cases running
  | @report j at_report sound =>
    rcases waits with way | ⟨w, waits, asleep⟩
    · by_cases hk : k = j
      · subst hk
        obtain ⟨-, listener⟩ := fresh.current l k conn
        obtain exit | poisoned | other | waiting := hears k rfl
        · exact absurd (exit.symm.trans running) (by decide)
        · exact absurd (poisoned.symm.trans sound) (by decide)
        · exact absurd (listener ▸ conn) other
        · exact absurd (listener ▸ way) waiting
      · simpa [hk] using heard running l k conn (.inl way)
    · exact absurd (Notify.woken_notifyAll.mpr (made l w waits)) asleep
  | @loop j a d moves =>
    have := heard running l k conn waits
    have := moves.monitor
    simp only [setConn, update_apply]
    grind
  | @spawnMonitor i j first at_monitor =>
    obtain ⟨current, -⟩ := fresh.start i first _ j at_monitor rfl
    have before := heard running l k
    simp only [HeadsForWait, setPhase, setListener, setConn, update_apply] at before conn waits ⊢
    grind [Phase.OnItsWay]
  | _ =>
    have before := heard
    simp only [Heard, HeadsForWait, openConn, startFailed_listeners, startFailed_conns,
      startFailed_cvar, startFailed_exit, setPhase, setListener, setConn, update_apply,
      Conn.opened] at before running conn waits ⊢
    grind [Phase.OnItsWay]

/-! ## A single call of `listen` -/

/-- With a single call of `listen` the monitors finish one after the other, and none is left
when `broken` is set. -/
structure Solo (s : State) : Prop where
  current : ∀ j, s.Pending j → (s.listeners 0).conn = some j
  quiet : (s.listeners 0).phase.quiet = true → s.broken = false ∧ ∀ j, ¬s.Pending j
  broken : s.broken = true → ∀ j, ¬s.Pending j

/-- A monitor gets to its report when both loops are over. -/
def Joined (s : State) : Prop :=
  ∀ k, ((s.conns k).monitor = .joinReader → (s.conns k).writer = .ended) ∧
    ((s.conns k).monitor = .report ∨ (s.conns k).monitor = .done → (s.conns k).Over)

theorem joined_step (rule : Rule s a t) (fresh : s.Fresh) (joined : s.Joined) : t.Joined := by
  have before := joined
  cases rule with
  | @loop k a d moves =>
    have := moves.monitor
    have := moves.isOver
    have := moves.writer_ended
    simp only [Joined, setConn, update_apply] at before ⊢
    grind [Conn.Over]
  | @spawnWriter l k first at_writer | @spawnReader l k first at_reader =>
    obtain ⟨-, fits⟩ := fresh.start _ _ _ k ‹_› rfl
    simp only [Joined, setPhase, setListener, setConn, update_apply] at before ⊢
    grind [Start.Fits]
  | _ =>
    simp only [Joined, openConn, startFailed_conns, setPhase, setListener, setConn, update_apply,
      Conn.opened] at before ⊢
    grind [Conn.Over]

theorem listens_le (rule : Rule s a t) : s.listens ≤ t.listens := by
  cases rule <;> simp

/-- A monitor becomes pending when it is spawned. -/
theorem pending_step (rule : Rule s a t) (pending : t.Pending k) :
    s.Pending k ∨ ∃ l first, a = .spawn l ∧
      (s.listeners l).phase = .start first (.monitor k) ∧
      (t.listeners l).phase = .start first (.watcher k) := by
  unfold Pending at *
  cases rule with
  | @loop j a d moves =>
    have := moves.monitor
    simp only [setConn, update_apply] at pending
    grind [Monitor.pending]
  | @spawnMonitor l j first at_monitor =>
    by_cases hk : k = j
    · subst hk
      exact .inr ⟨l, first, rfl, at_monitor, by simp⟩
    · exact .inl (by simpa [hk] using pending)
  | _ =>
    refine .inl ?_
    simp only [openConn, startFailed_conns, setPhase, setListener, setConn, update_apply,
      Conn.opened] at pending
    grind [Monitor.pending]

/-- A reconnect thread goes on to connect when it finds `broken` set. -/
theorem quiet_step (rule : Rule s a t) (uncalled : s.Uncalled)
    (quiet : (t.listeners l).phase.quiet = true) :
    (s.listeners l).phase.quiet = true ∨
      (∃ w, (s.listeners l).phase = .outerWait w) ∧ s.broken = true ∧ t.broken = false := by
  cases rule with
  | listen =>
    have absent := uncalled s.listens (Nat.le_refl _)
    by_cases hl : l = s.listens
    · simp [hl, absent, Phase.quiet]
    · exact .inl (by simpa [hl] using quiet)
  | _ =>
    simp only [openConn, startFailed_listeners, setPhase, setListener, setConn, update_apply]
      at quiet ⊢
    grind [Phase.quiet]

/-- A call of `listen` gets a new connection when it connects. -/
theorem conn_step (rule : Rule s a t) (uncalled : s.Uncalled) :
    (t.listeners l).conn = (s.listeners l).conn ∨ (s.listeners l).phase = .absent ∨
      ∃ first, (s.listeners l).phase = .start first .connect := by
  have absent := uncalled s.listens (Nat.le_refl _)
  cases rule <;>
    simp only [openConn, startFailed_listeners, setPhase, setListener, setConn, update_apply] <;>
    grind

/-- `broken` is set by the report of a monitor. -/
theorem broken_step (rule : Rule s a t) (broken : t.broken = true) :
    s.broken = true ∨ ∃ k, a = .report k ∧ s.Pending k ∧ ¬t.Pending k := by
  cases rule with
  | @report k at_report =>
    exact .inr ⟨k, rfl, by simp [Pending, at_report, Monitor.pending],
      by simp [Pending, Monitor.pending]⟩
  | endOuter => cases broken
  | _ => exact .inl (by simpa using broken)

theorem solo_step (rule : Rule s a t) (fresh : s.Fresh) (single : t.listens ≤ 1)
    (solo : s.Solo) : t.Solo := by
  obtain ⟨current, quiet, broken⟩ := solo
  have uncalled := fresh.uncalled
  have single : s.listens ≤ 1 := Nat.le_trans (listens_le rule) single
  have pending (j : Nat) (hj : t.Pending j) : s.Pending j ∨
      a = .spawn 0 ∧ (∃ first, (s.listeners 0).phase = .start first (.monitor j)) ∧
        (t.listeners 0).phase.quiet = false := by
    obtain old | ⟨l, first, ha, before, after⟩ := pending_step rule hj
    · exact .inl old
    · have called : (s.listeners l).phase ≠ .absent := by simp [before]
      obtain rfl := uncalled.eq_zero single called
      exact .inr ⟨ha, ⟨first, before⟩, by simp [after, Phase.quiet]⟩
  constructor
  · intro j hj
    have conn := @conn_step s t 0 a rule uncalled
    obtain old | ⟨-, ⟨first, before⟩, -⟩ := pending j hj
    · have busy : (s.listeners 0).phase.quiet ≠ true := fun idle => (quiet idle).2 j old
      obtain same | absent | ⟨first, connects⟩ := conn
      · exact same.trans (current j old)
      · exact absurd (by simp [absent, Phase.quiet]) busy
      · exact absurd (by simp [connects, Phase.quiet]) busy
    · obtain ⟨owned, -⟩ := fresh.start 0 first _ j before rfl
      obtain same | absent | ⟨first, connects⟩ := conn
      · exact same.trans owned
      · simp [before] at absent
      · simp [before] at connects
  · intro after
    have idle : ∀ j, ¬t.Pending j := by
      intro j hj
      obtain old | ⟨-, -, busy⟩ := pending j hj
      · obtain before | ⟨-, found, -⟩ := quiet_step rule uncalled after
        · exact (quiet before).2 j old
        · exact broken found j old
      · simp [after] at busy
    refine ⟨?_, idle⟩
    obtain before | ⟨-, -, reset⟩ := quiet_step rule uncalled after
    · by_contra set
      obtain old | ⟨k, -, reporter, -⟩ := broken_step rule (by simpa using set)
      · simp [(quiet before).1] at old
      · exact (quiet before).2 k reporter
    · exact reset
  · intro after j hj
    obtain found | ⟨k, rfl, reporter, gone⟩ := broken_step rule after
    · obtain old | ⟨-, ⟨first, before⟩, -⟩ := pending j hj
      · exact broken found j old
      · have intact := (quiet (by simp [before, Phase.quiet])).1
        simp [intact] at found
    · obtain old | ⟨ha, -⟩ := pending j hj
      · obtain rfl : j = k := by simpa [current j old] using current k reporter
        exact gone hj
      · cases ha

theorem solo_of_run (run : Run id tr s) (single : s.listens ≤ 1) : s.Solo := by
  induction run with
  | start => constructor <;> simp [init, Pending, Conn.opened, Monitor.pending]
  | next run h ih =>
    have rule := rule_of_step h
    have before := ih (Nat.le_trans (listens_le rule) single)
    exact solo_step rule (fresh_of_run run) single before

theorem joined_of_run (run : Run id tr s) : s.Joined := by
  induction run with
  | start => simp [Joined, init, Conn.opened]
  | next run h ih => exact joined_step (rule_of_step h) (fresh_of_run run) ih

theorem heard_of_run (run : Run id tr s) (hears : Steps ReportHeard tr) : s.Heard := by
  induction run with
  | start => simp [Heard, init]
  | next run h ih =>
    obtain ⟨before, now⟩ := steps_concat.mp hears
    exact heard_step (rule_of_step h) (waitersMade_of_run run) (fresh_of_run run) (ih before) now

/-- A report that nobody hears leaves its call of `listen` lost. -/
theorem lost_of_unheard (joined : s.Joined) (solo : t.Solo)
    (h : s.step a = some t) (unheard : ¬s.ReportHeard a) : ∃ l k, t.Lost l k := by
  cases a with
  | report k =>
    have missed : s.exit = false ∧ s.poisoned = false ∧
        (s.listeners (s.conns k).listener).conn = some k ∧
        (s.listeners (s.conns k).listener).phase.OnItsWay := by
      simpa [ReportHeard, Action.reporter] using unheard
    obtain ⟨running, sound, current, way⟩ := missed
    cases rule_of_step h with
    | reportPoisoned at_report poisoned => simp [sound] at poisoned
    | report at_report =>
      have isOver := (joined k).2 (.inl at_report)
      have alone := solo.broken rfl
      refine ⟨(s.conns k).listener, k, ?_⟩
      exact ⟨current, by simpa [Conn.Over] using isOver, by simp, running, .inl way, alone⟩
    | endPoisoned waits ends | endExit waits ends | endOuter waits ends | endAssert waits ends
    | endRetry waits ends => simp [EndsWait] at ends
    | watchPoisoned ends | watchExit ends | watchEnd waits ends => simp [EndsWatch] at ends
  | _ => exact absurd (by simp [ReportHeard, Action.reporter]) unheard

/-- A failure is never missed when every report is heard, for any number of calls of `listen`;
with a single one it is never missed only then. -/
theorem failure_never_missed (run : Run id tr s) :
    (Steps ReportHeard tr → Always NoneLost tr s) ∧
      (s.listens ≤ 1 → Always NoneLost tr s → Steps ReportHeard tr) := by
  constructor
  · intro hears
    refine run.always_of_steps hears ?_
    intro tr s run hears l k lost
    exact heard_of_run run hears lost.running l k lost.current lost.waits lost.reported
  · intro single safe
    have single : Always (fun s => s.listens ≤ 1) tr s :=
      run.always_of_last single fun s a t h => Nat.le_trans (listens_le (rule_of_step h))
    have known : Always (fun s => s.Joined ∧ (s.listens ≤ 1 → s.Solo)) tr s :=
      run.always fun _ _ run => ⟨joined_of_run run, solo_of_run run⟩
    refine run.steps_of_always ((known.and single).and safe) ?_
    intro s a t before h after
    by_contra unheard
    obtain ⟨⟨⟨joined, -⟩, -⟩, -⟩ := before
    obtain ⟨⟨⟨-, solo⟩, single⟩, safe⟩ := after
    obtain ⟨l, k, lost⟩ := lost_of_unheard joined (solo single) h unheard
    exact safe l k lost

/-! ## Concrete runs -/

/-- The connection breaks, and its monitor reports, before the reconnect thread waits. -/
theorem early_break_missed :
    ∃ tr s, Run "c1" tr s ∧ s.listens = 1 ∧ s.poisoned = false ∧ ¬s.NoneLost := by
  have script : (exec step (fun _ _ => True) (init "c1")
      ([Action.listen, .connect 0 true, .clone 0 true, .clone 0 true, .spawn 0, .spawn 0] ++
        breakConn 0 ++ [Action.lock 0])).any
      (fun s => (s.listens = 1 ∧ s.poisoned = false ∧ s.exit = false ∧ s.broken = true) ∧
        (s.listeners 0).conn = some 0 ∧ (s.conns 0).Over ∧ (s.conns 0).monitor = .done ∧
        (s.listeners 0).phase = .outerWait s.cvar.wait) = true := by decide
  obtain ⟨tr, s, run, -, h⟩ := run_of_exec script
  obtain ⟨⟨single, sound, running, broken⟩, current, isOver, done, waits⟩ := of_decide_eq_true h
  refine ⟨tr, s, run, single, sound, ?_⟩
  intro safe
  have solo := solo_of_run run (Nat.le_of_eq single)
  have asleep : s.HeadsForWait 0 := .inr ⟨_, waits, Notify.not_woken_wait⟩
  exact safe 0 0 ⟨current, isOver, done, running, asleep, solo.broken broken⟩

/-- The reconnect thread waits when the report comes, and connects again. -/
theorem late_break_heard :
    ∃ tr s, Run "c1" tr s ∧ (s.conns 0).Over ∧ (s.listeners 0).conn = some 1 ∧
      Always NoneLost tr s := by
  have script : (exec step ReportHeard (init "c1")
      (listenOnce 0 ++ breakConn 0 ++
        [Action.lock 0, .connect 0 false, .lock 0, .wake 0, .connect 0 true])).any
      (fun s => (s.conns 0).Over ∧ (s.listeners 0).conn = some 1) = true := by decide
  obtain ⟨tr, s, run, hears, h⟩ := run_of_exec script
  obtain ⟨isOver, current⟩ := of_decide_eq_true h
  exact ⟨tr, s, run, isOver, current, (failure_never_missed run).1 hears⟩

end State

end Rndz.Tcp.Client
