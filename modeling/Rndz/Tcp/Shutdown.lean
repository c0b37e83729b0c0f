import Rndz.Tcp.Report

/-!
# Shutdown closes the connections

The watcher of a connection shuts its socket down when it finds `exit` set. It looks for it
twice, before and after a single wait on a condition variable that is notified for other
reasons as well, so it may be gone when `exit` is set. That does no harm to a connection whose
loops are over by then.
-/
namespace Rndz.Tcp.Client

open Net Proto Mpsc Notification Transition
open Function (update forall_update_iff)

/-- The watcher is gone and has not shut the socket down, and a loop still runs on it. -/
structure Conn.Abandoned (c : Conn) : Prop where
  runs : ¬c.Over
  gone : c.watcher = .done ∨ c.watcher = .panicked
  intact : c.shut = false

namespace State

variable {s t : State} {k l : Nat} {a : Action} {tr : List (State × Action)} {id : String}

/-- Once `exit` is set no connection is abandoned. -/
def ShutdownReaches (s : State) : Prop := s.exit = true → ∀ k, ¬(s.conns k).Abandoned

/-- The watcher whose wait the action ends. -/
def endsWatchOf (s : State) : Action → Option Nat
  | .watch k => match (s.conns k).watcher with
    | .wait _ => some k
    | _ => none
  | .wakeWatcher k => some k
  | _ => none

/-- Before `exit` is set, the wait of a watcher ends only when the loops of its connection are
over. -/
def WatchesOn (s : State) (a : Action) : Prop :=
  ∀ k ∈ s.endsWatchOf a, s.poisoned = true ∨ s.exit = true ∨ (s.conns k).Over

instance (s : State) (a : Action) : Decidable (s.WatchesOn a) :=
  inferInstanceAs (Decidable (∀ k ∈ s.endsWatchOf a, _ ∨ _ ∨ _))

/-- A watcher that has gone has shut the socket down, or the loops are over, or it has found
the mutex poisoned, after which `exit` cannot be set. -/
structure Watched (s : State) : Prop where
  done : ∀ k, (s.conns k).watcher = .done → (s.conns k).shut = true ∨ (s.conns k).Over
  panicked : ∀ k, (s.conns k).watcher = .panicked → s.poisoned = true
  poisoned : s.poisoned = true → s.exit = false

theorem Watched.shutdownReaches (watched : s.Watched) : s.ShutdownReaches := by
  intro exit k abandoned
  obtain ⟨runs, gone | gone, intact⟩ := abandoned
  · rcases watched.done k gone with shut | isOver
    · simp [shut] at intact
    · exact runs isOver
  · have poisoned := watched.panicked k gone
    simp [watched.poisoned poisoned] at exit

theorem endsWatchOf_of_wait {w : Waiter} (waits : (s.conns k).watcher = .wait w)
    (ends : s.EndsWatch k a) : k ∈ s.endsWatchOf a := by
  obtain ⟨start, -⟩ | ⟨w', -, ⟨rfl, -⟩ | rfl⟩ := ends
  · simp [start] at waits
  · simp [endsWatchOf, waits]
  · simp [endsWatchOf]

/-- Where one connection changes, and neither `exit` nor the mutex, that one decides. -/
theorem watched_of_update {d : Conn} (watched : s.Watched) (conns : t.conns = update s.conns k d)
    (mutex : t.poisoned = s.poisoned) (exit : t.exit = s.exit)
    (done : d.watcher = .done → d.shut = true ∨ d.Over)
    (panicked : d.watcher = .panicked → s.poisoned = true) : t.Watched := by
  constructor
  · rw [conns]
    exact (forall_update_iff s.conns fun _ c => c.watcher = .done → c.shut = true ∨ c.Over).mpr
      ⟨done, fun j _ => watched.done j⟩
  · rw [conns, mutex]
    exact (forall_update_iff s.conns fun _ c => c.watcher = .panicked → s.poisoned = true).mpr
      ⟨panicked, fun j _ => watched.panicked j⟩
  · rw [mutex, exit]
    exact watched.poisoned

/-- A connection whose watcher is absent may change its loops. -/
theorem watched_of_unwatched {d : Conn} (watched : s.Watched)
    (conns : t.conns = update s.conns k d) (mutex : t.poisoned = s.poisoned)
    (exit : t.exit = s.exit) (unwatched : d.watcher = .absent) : t.Watched :=
  watched_of_update watched conns mutex exit (by simp [unwatched]) (by simp [unwatched])

theorem watched_step (rule : Rule s a t) (fresh : s.Fresh) (watched : s.Watched)
    (on : s.WatchesOn a) : t.Watched := by
  cases rule with
  | @loop k a d moves =>
    obtain ⟨-, shut, watcher⟩ := moves.frame
    refine watched_of_update watched rfl rfl rfl ?_ ?_
    · rw [watcher, shut]
      exact fun done => (watched.done k done).imp_right moves.isOver
    · rw [watcher]
      exact watched.panicked k
  | opened => exact watched_of_unwatched watched rfl rfl rfl rfl
  | @spawnWriter l k first at_writer =>
    obtain ⟨-, -, -, -, unwatched⟩ := fresh.start l first _ k at_writer rfl
    exact watched_of_unwatched watched rfl rfl rfl unwatched
  | @spawnReader l k first at_reader =>
    obtain ⟨-, -, -, unwatched⟩ := fresh.start l first _ k at_reader rfl
    exact watched_of_unwatched watched rfl rfl rfl unwatched
  | @spawnMonitor l k first at_monitor =>
    obtain ⟨-, -, unwatched⟩ := fresh.start l first _ k at_monitor rfl
    exact watched_of_unwatched watched rfl rfl rfl unwatched
  | @readerFailed l k first at_reader =>
    obtain ⟨-, -, -, unwatched⟩ := fresh.start l first _ k at_reader rfl
    exact watched_of_unwatched watched (startFailed_conns first) (startFailed_poisoned first)
      (startFailed_exit first) unwatched
  | refused | cloneFailed =>
    exact ⟨by simpa using watched.done, by simpa using watched.panicked,
      by simpa using watched.poisoned⟩
  | spawnWatcher | watchWait =>
    exact watched_of_update watched rfl rfl rfl (fun h => nomatch h) (fun h => nomatch h)
  | @reportPoisoned k | @report k =>
    exact watched_of_update watched rfl rfl rfl (watched.done k) (watched.panicked k)
  | watchPoisoned ends poisoned =>
    exact watched_of_update watched rfl rfl rfl (fun h => nomatch h) fun _ => poisoned
  | watchExit =>
    exact watched_of_update watched rfl rfl rfl (fun _ => .inl rfl) (fun h => nomatch h)
  | @watchEnd k w a waits ends sound running =>
    have isOver : (s.conns k).Over := by
      simpa [sound, running] using on k (endsWatchOf_of_wait waits ends)
    exact watched_of_update watched rfl rfl rfl (fun _ => .inr isOver) (fun h => nomatch h)
  | shutdown idle alive sound =>
    refine ⟨watched.done, watched.panicked, ?_⟩
    intro poisoned
    exact absurd (poisoned.symm.trans sound) (by decide)
  | endAssert waits ends sound running =>
    exact ⟨watched.done, fun _ _ => rfl, fun _ => running⟩
  | _ => exact ⟨watched.done, watched.panicked, watched.poisoned⟩

/-- As long as no watcher goes early, shutdown reaches every connection. -/
theorem shutdown_closes (run : Run id tr s) (on : Steps WatchesOn tr) :
    Always ShutdownReaches tr s := by
  have fresh : Always Fresh tr s := run.always fun _ _ => fresh_of_run
  have initial : (init id).Watched := by constructor <;> simp [init, Conn.opened]
  refine (run.always_of_keeps fresh initial ?_ on).mono fun _ => Watched.shutdownReaches
  intro s a t fresh watched on h
  exact watched_step (rule_of_step h) fresh watched on

/-- Two calls of `listen`; the second connection breaks and its monitor's notification sends
the watcher of the first one home. The first connection outlives the shutdown. -/
theorem watcher_goes_early :
    ∃ tr s, Run "c1" tr s ∧ (s.conns 0).reader = .read ∧ (s.conns 0).writer = .recv ∧
      ¬s.ShutdownReaches := by
  have script : (exec step (fun _ _ => True) (init "c1")
      (listenOnce 0 ++ [Action.watch 0] ++ listenOnce 1 ++ breakConn 1 ++
        [Action.watch 0, .shutdown])).any
      (fun s => (s.conns 0).reader = .read ∧ (s.conns 0).writer = .recv ∧ s.exit = true ∧
        (s.conns 0).watcher = .done ∧ (s.conns 0).shut = false) = true := by decide
  obtain ⟨tr, s, run, -, h⟩ := run_of_exec script
  obtain ⟨reader, writer, exit, gone, intact⟩ := of_decide_eq_true h
  refine ⟨tr, s, run, reader, writer, ?_⟩
  intro reaches
  refine reaches exit 0 ⟨?_, .inl gone, intact⟩
  simp [Conn.Over, writer]

/-- A connection breaks and is replaced, and the shutdown reaches the second one. -/
theorem shutdown_after_reconnect :
    ∃ tr s, Run "c1" tr s ∧ s.exit = true ∧ (s.conns 0).watcher = .done ∧
      (s.conns 1).shut = true ∧ Always ShutdownReaches tr s := by
  have script : (exec step WatchesOn (init "c1")
      (listenOnce 0 ++ [Action.watch 0] ++ breakConn 0 ++
        [Action.watch 0, .lock 0, .connect 0 true, .clone 0 true, .clone 0 true, .spawn 0,
          .spawn 0, .lock 0, .watch 1, .shutdown, .watch 1])).any
      (fun s => s.exit = true ∧ (s.conns 0).watcher = .done ∧ (s.conns 1).shut = true) = true := by
    decide
  obtain ⟨tr, s, run, on, h⟩ := run_of_exec script
  obtain ⟨exit, done, shut⟩ := of_decide_eq_true h
  exact ⟨tr, s, run, exit, done, shut, shutdown_closes run on⟩

end State

end Rndz.Tcp.Client
