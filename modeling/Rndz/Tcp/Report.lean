import Rndz.Tcp.ClientStep

/-!
# The end of a connection is reported

When both loops of a connection are over its monitor joins them, sets `broken` and notifies.
It gets there unless it or `read_loop` panics: on an `Fsync` whose address does not parse, on
a send after `write_loop` has ended, or on a poisoned mutex.
-/
namespace Rndz.Tcp.Client

open Net Proto Mpsc Notification Transition
open Function (update)

/-- The monitor has been spawned and has not finished. -/
def Monitor.pending : Monitor → Bool
  | .joinWriter | .joinReader | .report => true
  | .absent | .done | .panicked => false

/-- Neither the read loop nor the monitor has panicked. -/
def Conn.Sane (c : Conn) : Prop := c.reader ≠ .panicked ∧ c.monitor ≠ .panicked

namespace State

variable {s t : State} {k l : Nat} {a : Action} {tr : List (State × Action)} {id : String}

/-- What the monitor of `k` has left to do. -/
def monitorSteps (k : Nat) : Monitor → List Action
  | .joinWriter => [.loop k .join, .loop k .join, .report k]
  | .joinReader => [.loop k .join, .report k]
  | .report => [.report k]
  | _ => []

def Pending (s : State) (k : Nat) : Prop := (s.conns k).monitor.pending = true

/-- By its own steps alone the monitor of `k` sets `broken` and wakes every thread that waits;
a reconnect thread at its outer wait then goes on to connect. -/
def MonitorReports (s : State) (k : Nat) : Prop :=
  ∃ t, (monitorSteps k (s.conns k).monitor).foldlM step s = some t ∧
    (t.conns k).monitor = .done ∧ t.broken = true ∧
    ∀ l w, (s.listeners l).phase = .outerWait w → s.exit = false →
      ∃ u, t.step (.lock l) = some u ∧ (u.listeners l).phase = .start false .connect

/-- No thread that `start_background` has spawned for a connection has panicked before its
report, and once both loops are over the monitor reports it, if the mutex is sound. -/
def EndReported (s : State) : Prop :=
  ∀ k, (s.conns k).reader ≠ .panicked ∧ (s.conns k).monitor ≠ .panicked ∧
    ((s.conns k).Over → s.Pending k → s.poisoned = false → s.MonitorReports k)

/-- The step is no cause of a panic: an `Fsync` that is read has an address that parses,
`read_loop` sends while its channel still has a receiver, and no monitor reports on a poisoned
mutex. -/
def Harmless (s : State) (a : Action) : Prop :=
  (match a with
    | .loop _ (.read resp) => !unparseable resp
    | .loop k .send => (s.conns k).chan.receiver
    | .report _ => !s.poisoned
    | _ => true) = true

instance (s : State) (a : Action) : Decidable (s.Harmless a) :=
  inferInstanceAs (Decidable (_ = true))

def NoPanic (s : State) : Prop := ∀ k, (s.conns k).Sane

/-! ## The report -/

/-- The report of a monitor on a sound mutex wakes the reconnect threads that wait. -/
theorem report_wakes (made : s.WaitersMade) (at_report : (s.conns k).monitor = .report)
    (sound : s.poisoned = false) :
    ∃ t, s.step (.report k) = some t ∧ (t.conns k).monitor = .done ∧ t.broken = true ∧
      ∀ l w, (s.listeners l).phase = .outerWait w → s.exit = false →
        ∃ u, t.step (.lock l) = some u ∧ (u.listeners l).phase = .start false .connect := by
  refine ⟨_, by simp [step, reportStep, at_report, sound]; rfl, by simp, rfl, ?_⟩
  intro l w waits running
  have woken : s.cvar.notifyAll.Woken w := Notify.woken_notifyAll.mpr (made l w waits)
  simp [step, lockStep, waits, woken, resume, running]

theorem monitorReports_of_report (made : s.WaitersMade)
    (at_report : (s.conns k).monitor = .report) (sound : s.poisoned = false) :
    s.MonitorReports k := by
  obtain ⟨t, h, done, broken, wakes⟩ := report_wakes made at_report sound
  exact ⟨t, by simp [at_report, monitorSteps, h], done, broken, wakes⟩

/-- A join that goes through leaves the rest to be done. -/
theorem monitorReports_of_join (m : Monitor)
    (joins : (s.conns k).step s.id .join = some { s.conns k with monitor := m })
    (left : monitorSteps k (s.conns k).monitor = .loop k .join :: monitorSteps k m)
    (reports : (s.setConn k { s.conns k with monitor := m }).MonitorReports k) :
    s.MonitorReports k := by
  obtain ⟨t, steps, ended⟩ := reports
  refine ⟨t, ?_, ended⟩
  have first : s.step (.loop k .join) = some (s.setConn k { s.conns k with monitor := m }) := by
    simp [step, joins]
  rw [left, List.foldlM_cons, first]
  simpa using steps

theorem monitorReports_of_over (made : s.WaitersMade) (isOver : (s.conns k).Over)
    (reader : (s.conns k).reader ≠ .panicked) (pending : s.Pending k)
    (sound : s.poisoned = false) : s.MonitorReports k := by
  have reader : (s.conns k).reader = .ended := isOver.1.resolve_right reader
  have fromReport (u : State) (hu : u.WaitersMade) (hp : u.poisoned = false)
      (hm : (u.conns k).monitor = .report) : u.MonitorReports k :=
    monitorReports_of_report hu hm hp
  have fromReader (u : State) (hu : u.WaitersMade) (hp : u.poisoned = false)
      (hr : (u.conns k).reader = .ended) (hm : (u.conns k).monitor = .joinReader) :
      u.MonitorReports k := by
    refine monitorReports_of_join .report (by simp [Conn.step, hm, hr])
      (by simp [hm, monitorSteps]) ?_
    exact fromReport _ hu hp (by simp)
  cases hm : (s.conns k).monitor with
  | joinWriter =>
    refine monitorReports_of_join .joinReader (by simp [Conn.step, hm, isOver.2])
      (by simp [hm, monitorSteps]) ?_
    exact fromReader _ made sound (by simpa using reader) (by simp)
  | joinReader => exact fromReader s made sound reader hm
  | report => exact fromReport s made sound hm
  | absent | done | panicked => exact absurd pending (by simp [Pending, hm, Monitor.pending])

/-- What the monitor needs is that no loop and no monitor panics. -/
theorem endReported_iff (made : s.WaitersMade) : s.EndReported ↔ s.NoPanic := by
  constructor
  · intro reported k
    exact ⟨(reported k).1, (reported k).2.1⟩
  · intro sane k
    refine ⟨(sane k).1, (sane k).2, ?_⟩
    intro isOver pending sound
    exact monitorReports_of_over made isOver (sane k).1 pending sound

/-! ## The panics -/

theorem conn_sane_step {c d : Conn} {a : LoopAction} (rule : c.Rule id a d) (sane : c.Sane) :
    d.Sane ↔
      (∀ resp, a = .read resp → unparseable resp = false) ∧
        (a = .send → c.chan.receiver = true) := by
  unfold Conn.Sane at *
  cases rule with
  | @ignore resp at_read other =>
    have : unparseable resp = false := by
      unfold unparseable
      split
      · rename_i fsync cmd
        exact absurd cmd (other fsync)
      · rfl
    simp_all
  | fsync at_read cmd parses => simp_all [unparseable]
  | _ => simp_all

/-- Where one connection changes and the others are sane, that one decides. -/
theorem noPanic_setConn {d : Conn} (sane : s.NoPanic) :
    (∀ j, (update s.conns k d j).Sane) ↔ d.Sane := by
  rw [Function.forall_update_iff s.conns fun _ c => c.Sane]
  exact and_iff_left fun j _ => sane j

theorem harmless_of_endsWait {w : Waiter} (ends : s.EndsWait l w a) : s.Harmless a := by
  obtain ⟨rfl, -⟩ | rfl := ends
  · rfl
  · rfl

theorem harmless_of_endsWatch (ends : s.EndsWatch k a) : s.Harmless a := by
  obtain ⟨-, rfl⟩ | ⟨w, -, ⟨rfl, -⟩ | rfl⟩ := ends
  · rfl
  · rfl
  · rfl

/-- A step without a panic so far leads to one exactly when it is harmful. -/
theorem noPanic_step (rule : Rule s a t) (sane : s.NoPanic) : t.NoPanic ↔ s.Harmless a := by
  cases rule with
  | @loop k a d moves =>
    refine (noPanic_setConn sane).trans ((conn_sane_step moves (sane k)).trans ?_)
    cases a <;> simp [Harmless]
  | opened => exact (noPanic_setConn sane).trans (by simp [Conn.Sane, Conn.opened, Harmless])
  | @spawnWriter l k | @spawnReader l k | @spawnMonitor l k | @spawnWatcher l k | @watchWait k =>
    have := sane k
    exact (noPanic_setConn sane).trans (by simp_all [Conn.Sane, Harmless])
  | @readerFailed l k first =>
    have := sane k
    simp only [NoPanic, startFailed_conns, setConn]
    exact (noPanic_setConn sane).trans (by simp_all [Conn.Sane, Harmless])
  | @watchPoisoned k a ends | @watchExit k a ends | @watchEnd k w a waits ends =>
    have := sane k
    have harmless := harmless_of_endsWatch ends
    exact (noPanic_setConn sane).trans (by simp_all [Conn.Sane])
  | @report k at_report sound | @reportPoisoned k at_report poisoned =>
    have := sane k
    exact (noPanic_setConn sane).trans (by simp_all [Conn.Sane, Harmless])
  | endPoisoned waits ends | endExit waits ends | endOuter waits ends | endAssert waits ends
  | endRetry waits ends => exact iff_of_true sane (harmless_of_endsWait ends)
  | refused | cloneFailed => simpa [NoPanic, Harmless] using sane
  | _ => exact iff_of_true sane rfl

/-- The end of every connection is reported, at every point of a run, exactly when no step of
the run causes a panic. -/
theorem end_always_reported (run : Run id tr s) : Always EndReported tr s ↔ Steps Harmless tr := by
  have made : Always WaitersMade tr s := run.always fun _ _ => waitersMade_of_run
  refine run.always_iff_steps made ?_ ?_ ?_
  · exact (endReported_iff (waitersMade_of_run .start)).mpr
      (by simp [NoPanic, Conn.Sane, init, Conn.opened])
  · intro s a t made reported harmless h
    have rule := rule_of_step h
    rw [endReported_iff (waitersMade_step rule made)]
    exact (noPanic_step rule ((endReported_iff made).mp reported)).mpr harmless
  · intro s a t made reported h after
    have rule := rule_of_step h
    rw [endReported_iff (waitersMade_step rule made)] at after
    exact (noPanic_step rule ((endReported_iff made).mp reported)).mp after

/-! ## Concrete runs -/

/-- A call of `listen` whose connection goes through, up to the wait of its reconnect thread. -/
def listenOnce (l : Nat) : List Action :=
  [.listen, .connect l true, .clone l true, .clone l true, .spawn l, .spawn l, .lock l]

/-- A connection ends on a failed write, its monitor joins the loops and reports. -/
def breakConn (k : Nat) : List Action :=
  [.loop k .recv, .loop k (.write false), .loop k .readErr, .loop k .join, .loop k .join,
    .report k]

/-- An `Fsync` with an unparseable address ends both loops of the connection; its monitor
panics and sets nothing, and the reconnect thread goes on waiting. -/
theorem unparseable_fsync_unreported :
    ∃ tr s, Run "c1" tr s ∧ (s.conns 0).Over ∧ s.broken = false ∧ s.poisoned = false ∧
      ¬s.EndReported := by
  have script : (exec step (fun _ _ => True) (init "c1")
      (listenOnce 0 ++
        [Action.loop 0 (.read ⟨"", some (.fsync { id := "c2", addr := "c2.example" })⟩),
          .loop 0 .recv, .loop 0 (.write true), .loop 0 .recv, .loop 0 .join, .loop 0 .join])).any
      (fun s => (s.conns 0).Over ∧ s.broken = false ∧ s.poisoned = false ∧
        (s.conns 0).monitor = .panicked) = true := by decide
  obtain ⟨tr, s, run, -, h⟩ := run_of_exec script
  obtain ⟨isOver, broken, sound, panicked⟩ := of_decide_eq_true h
  refine ⟨tr, s, run, isOver, broken, sound, ?_⟩
  intro reported
  exact (reported 0).2.1 panicked

/-- A connection that fails on both sides is reported. -/
theorem lost_connection_reported :
    ∃ tr s, Run "c1" tr s ∧ (s.conns 0).Over ∧ s.broken = true ∧ Always EndReported tr s := by
  have script : (exec step Harmless (init "c1")
      (listenOnce 0 ++ breakConn 0)).any
      (fun s => (s.conns 0).Over ∧ s.broken = true) = true := by decide
  obtain ⟨tr, s, run, harmless, h⟩ := run_of_exec script
  obtain ⟨isOver, broken⟩ := of_decide_eq_true h
  exact ⟨tr, s, run, isOver, broken, (end_always_reported run).mpr harmless⟩

end State

end Rndz.Tcp.Client
