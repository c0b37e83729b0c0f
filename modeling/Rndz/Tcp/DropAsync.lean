import Rndz.Tcp.ClientAsyncStep

/-!
# What a drop stops

The drop of the client notifies the waiters for the exit that exist. A task that makes a waiter
after that waits for an exit that does not come any more: a loop that gets back to its
`select!`, or to its first one, and a reconnect task. That no task does is settled by where the
tasks are at the drop, and by which branches they take and what their calls return after it.
-/
namespace Rndz.Tcp.ClientAsync

open Net Proto Mpsc Notification Transition
open Function (update update_apply)

/-- The waiter for the exit that a reconnect task holds. -/
def Phase.waiter : Phase → Option Waiter
  | .enter w | .select w _ | .retrySelect w => some w
  | _ => none

/-- The reconnect task is on its way to a `select!`. -/
def Phase.entering : Phase → Bool
  | .start _ _ | .loop | .retry => true
  | _ => false

namespace Conn

/-- The step takes `read_loop` to a new wait: it is polled for the first time, reads a response
that it ignores, or sends with the receiver still there. -/
def readerEnters (c : Conn) : LoopAction → Bool
  | .startReader => true
  | .read resp => ignored resp
  | .send => c.chan.receiver
  | _ => false

/-- The step takes `write_loop` to a new wait: it is polled for the first time, or a write
succeeds. -/
def writerEnters : LoopAction → Bool
  | .startWriter => true
  | .write ok => ok
  | _ => false

/-- A loop of the connection holds the waiter `w` for the exit. -/
def Waits (c : Conn) (w : Waiter) : Prop :=
  c.reader.waiter = some w ∨ c.writer.waiter = some w

variable {c d : Conn} {a : LoopAction} {id : String} {exit : Notify}

theorem ReaderRule.waits (rule : ReaderRule exit c a d) :
    (c.readerEnters a = true → d.Waits exit.wait) ∧
      ∀ w, d.Waits w → c.Waits w ∨ c.readerEnters a = true ∧ w = exit.wait := by
  unfold Waits
  cases rule <;> simp_all [readerEnters, Reader.waiter, ignored] <;> grind

theorem WriterRule.waits (rule : WriterRule id exit c a d) :
    (writerEnters a = true → d.Waits exit.wait) ∧
      ∀ w, d.Waits w → c.Waits w ∨ writerEnters a = true ∧ w = exit.wait := by
  unfold Waits
  cases rule <;> simp_all [writerEnters, Writer.waiter] <;> grind

end Conn

namespace State

variable {s t : State} {k l : Nat} {w : Waiter} {a : Action} {tr : List (State × Action)}
  {id : String}

/-- Some task holds the waiter `w` for the exit. -/
inductive Holds (s : State) (w : Waiter) : Prop where
  | loop (k : Nat) (waits : (s.conns k).Waits w)
  | reconnect (l : Nat) (waits : (s.listeners l).phase.waiter = some w)

/-- After the drop, every task that waits for the exit has been notified of it, and no loop of a
connection that was opened after the drop waits for more to do. -/
structure Stopped (s : State) : Prop where
  notified : s.dropped = true → ∀ w, s.Holds w → s.exit.Woken w
  closed : ∀ k, (s.conns k).late = true → ∀ w, ¬(s.conns k).Waits w

/-- The step takes a task to a new wait for the exit. -/
def enters (s : State) : Action → Bool
  | .reader k a => (s.conns k).readerEnters a
  | .writer _ a => Conn.writerEnters a
  | .poll l => match (s.listeners l).phase with
    | .loop | .retry => true
    | _ => false
  | _ => false

/-- After the drop no step takes a task to a new wait. -/
def Leaves (s : State) (a : Action) : Prop := s.dropped = true → s.enters a = false

instance (s : State) (a : Action) : Decidable (s.Leaves a) :=
  inferInstanceAs (Decidable (_ → _))

/-! ## The waiters of a state -/

/-- What holds of the waiters of a connection before and after it moves holds of the client. -/
theorem holds_setConn {d : Conn} {enters : Bool}
    (waits : (enters = true → d.Waits s.exit.wait) ∧
      ∀ w, d.Waits w → (s.conns k).Waits w ∨ enters = true ∧ w = s.exit.wait) :
    (enters = true → (s.setConn k d).Holds s.exit.wait) ∧
      ∀ w, (s.setConn k d).Holds w → s.Holds w ∨ enters = true ∧ w = s.exit.wait := by
  obtain ⟨enter, waits⟩ := waits
  constructor
  · intro enters
    exact .loop k (by simpa using enter enters)
  · intro w holds
    cases holds with
    | loop j held =>
      by_cases hj : j = k
      · subst hj
        exact (waits w (by simpa using held)).imp_left (.loop j)
      · exact .inl (.loop j (by simpa [hj] using held))
    | reconnect l held => exact .inl (.reconnect l held)

/-- A step that enters a wait makes a waiter now, and no step makes any other. -/
theorem holds_step (rule : Rule s a t) :
    (s.enters a = true → t.Holds s.exit.wait) ∧
      ∀ w, t.Holds w → s.Holds w ∨ s.enters a = true ∧ w = s.exit.wait := by
  cases rule with
  | reader moves => exact holds_setConn moves.waits
  | writer moves => exact holds_setConn moves.waits
  | @enter l at_loop | @retry l at_retry =>
    refine ⟨fun _ => .reconnect l (by simp [Phase.waiter]), ?_⟩
    intro w holds
    cases holds with
    | loop k held => exact .inl (.loop k held)
    | reconnect j held =>
      by_cases hj : j = l
      · subst hj
        obtain rfl : s.exit.wait = w := by simpa [Phase.waiter] using held
        exact .inr ⟨by simp [enters, *], rfl⟩
      · exact .inl (.reconnect j (by simpa [hj] using held))
  | _ =>
    refine ⟨by simp_all [enters], ?_⟩
    intro w holds
    refine .inl ?_
    cases holds with
    | loop k held =>
      refine .loop k ?_
      simp only [openConn, startFailed_conns, setPhase, setConn, update_apply, Conn.opened] at held
      grind [Conn.Waits, Reader.waiter, Writer.waiter]
    | reconnect l held =>
      refine .reconnect l ?_
      simp only [openConn, startFailed_listeners, setPhase, setConn, update_apply] at held
      grind [Phase.waiter]

/-- A client that has been dropped is not notified again. -/
theorem exit_step (rule : Rule s a t) :
    t.exit = s.exit ∧ t.dropped = s.dropped ∨
      t.exit = s.exit.notifyAll ∧ s.dropped = false ∧ t.dropped = true := by
  cases rule <;> simp_all

/-- The waiters that tasks hold have been made. -/
def ExitMade (s : State) : Prop := ∀ w, s.Holds w → s.exit.Made w

/-- The waiters held after a step were made before it or by it. -/
theorem made_of_holds (rule : Rule s a t) (made : s.ExitMade) (holds : t.Holds w) :
    s.exit.Made w := by
  obtain held | ⟨-, rfl⟩ := (holds_step rule).2 w holds
  · exact made w held
  · exact Notify.made_wait

theorem exitMade_step (rule : Rule s a t) (made : s.ExitMade) : t.ExitMade := by
  intro w holds
  have now := made_of_holds rule made holds
  obtain ⟨same, -⟩ | ⟨notified, -⟩ := exit_step rule
  · rwa [same]
  · rw [notified]
    exact now.notifyAll

/-- A connection opened after the drop waits with waiters that are not woken. -/
structure LateAsleep (s : State) : Prop where
  dropped : ∀ k, (s.conns k).late = true → s.dropped = true
  asleep : ∀ k, (s.conns k).late = true → ∀ w, (s.conns k).Waits w → ¬s.exit.Woken w

theorem lateAsleep_setConn {d : Conn} {enters : Bool} (late : s.LateAsleep)
    (same : d.late = (s.conns k).late)
    (waits : ∀ w, d.Waits w → (s.conns k).Waits w ∨ enters = true ∧ w = s.exit.wait) :
    (s.setConn k d).LateAsleep := by
  obtain ⟨dropped, asleep⟩ := late
  constructor
  · intro j opened
    simp only [setConn, update_apply] at opened ⊢
    grind
  · intro j opened w held
    by_cases hj : j = k
    · subst hj
      obtain held | ⟨-, rfl⟩ := waits w (by simpa using held)
      · exact asleep j (by simpa [same] using opened) w held
      · exact Notify.not_woken_wait
    · exact asleep j (by simpa [hj] using opened) w (by simpa [hj] using held)

theorem lateAsleep_step (rule : Rule s a t) (late : s.LateAsleep) : t.LateAsleep := by
  cases rule with
  | reader moves => exact lateAsleep_setConn late moves.frame.2.2.2.2 moves.waits.2
  | writer moves => exact lateAsleep_setConn late moves.frame.2.2.2.2 moves.waits.2
  | drop idle kept =>
    refine ⟨fun _ _ => rfl, ?_⟩
    intro k opened
    exact absurd ((late.dropped k opened).symm.trans kept) (by decide)
  | _ =>
    obtain ⟨dropped, asleep⟩ := late
    constructor <;>
      simp only [openConn, startFailed_conns, startFailed_exit, startFailed_dropped, setPhase,
        setConn, update_apply, Conn.opened] <;>
      grind [Conn.Waits, Reader.waiter, Writer.waiter]

theorem stopped_iff (late : s.LateAsleep) :
    s.Stopped ↔ (s.dropped = true → ∀ w, s.Holds w → s.exit.Woken w) := by
  constructor
  · exact Stopped.notified
  · intro notified
    refine ⟨notified, ?_⟩
    intro k opened w waits
    exact late.asleep k opened w waits (notified (late.dropped k opened) w (.loop k waits))

/-- Every task that is alive at the drop stops, at every point of a run, exactly when no step
after the drop takes a task to a new wait. -/
theorem stopped_iff_leaves (run : Run id tr s) : Always Stopped tr s ↔ Steps Leaves tr := by
  have initial : (init id).LateAsleep := by constructor <;> simp [init, Conn.opened]
  have known : Always (fun s => s.ExitMade ∧ s.LateAsleep) tr s := by
    refine run.always fun tr s run => ⟨?_, ?_⟩
    · refine run.invariant ?_ fun _ _ _ made h => exitMade_step (rule_of_step h) made
      intro w holds
      cases holds <;>
        simp_all [init, Conn.opened, Conn.Waits, Reader.waiter, Writer.waiter, Phase.waiter]
    · exact run.invariant initial fun _ _ _ late h => lateAsleep_step (rule_of_step h) late
  refine run.always_iff_steps known ?_ ?_ ?_
  · rw [stopped_iff initial]
    intro dropped
    cases dropped
  · intro s a t known stopped leaves h
    have rule := rule_of_step h
    rw [stopped_iff (lateAsleep_step rule known.2)]
    intro dropped w holds
    obtain ⟨exit, same⟩ | ⟨exit, kept, -⟩ := exit_step rule
    · have before : s.dropped = true := same.symm.trans dropped
      obtain held | ⟨enters, -⟩ := (holds_step rule).2 w holds
      · exact exit ▸ stopped.notified before w held
      · exact absurd (enters.symm.trans (leaves before)) (by decide)
    · rw [exit]
      exact Notify.woken_notifyAll.mpr (made_of_holds rule known.1 holds)
  · intro s a t _ _ h after dropped
    have rule := rule_of_step h
    by_contra enters
    have holds := (holds_step rule).1 (by simpa using enters)
    obtain ⟨exit, same⟩ | ⟨-, kept, -⟩ := exit_step rule
    · have woken := after.notified (same.trans dropped) _ holds
      rw [exit] at woken
      exact Notify.not_woken_wait woken
    · exact absurd (dropped.symm.trans kept) (by decide)

/-! ## Tasks that are under way -/

/-- Some loop has been spawned and not been polled yet, or some reconnect task is on its way to a
`select!`. -/
def UnderWay (s : State) : Prop :=
  (∃ k < s.count, (s.conns k).reader = .spawned ∨ (s.conns k).writer = .spawned) ∨
    ∃ l < s.listens, (s.listeners l).phase.entering = true

instance (s : State) : Decidable s.UnderWay := inferInstanceAs (Decidable (_ ∨ _))

/-- No task is under way at the drop. After it `read_loop` reads no response that it ignores, and
its `tx.send` finds the receiver gone; the writes of `write_loop` fail; and the `select!`s of the
reconnect tasks do not take the branches that lead to a new connection. -/
def Orderly (s : State) : Action → Prop
  | .drop => ¬s.UnderWay
  | .reader _ (.read resp) => s.dropped = true → ignored resp = false
  | .reader k .send => s.dropped = true → (s.conns k).chan.receiver = false
  | .writer _ (.write ok) => s.dropped = true → ok = false
  | .broken _ | .timeout _ => s.dropped = false
  | _ => True

instance (s : State) (a : Action) : Decidable (s.Orderly a) := by
  unfold Orderly
  split <;> infer_instance

/-- Connections that have not been opened have no loops. -/
def Unopened (s : State) : Prop :=
  ∀ k, s.count ≤ k → (s.conns k).reader = .absent ∧ (s.conns k).writer = .absent

theorem unopened_setConn {d : Conn} (unopened : s.Unopened) (hk : k < s.count) :
    (s.setConn k d).Unopened := by
  intro j hj
  have other : j ≠ k := by
    rintro rfl
    exact absurd hk (Nat.not_lt.mpr hj)
  simpa [other] using unopened j hj

/-- A connection with a loop has been opened. -/
theorem Unopened.lt (unopened : s.Unopened)
    (h : (s.conns k).reader ≠ .absent ∨ (s.conns k).writer ≠ .absent) : k < s.count := by
  by_contra hk
  obtain ⟨reader, writer⟩ := unopened k (Nat.not_lt.mp hk)
  exact h.elim (· reader) (· writer)

theorem unopened_step (rule : Rule s a t) (fresh : s.Fresh) (unopened : s.Unopened) :
    t.Unopened := by
  have current := fresh.current
  have start := fresh.start
  cases rule with
  | reader moves => exact unopened_setConn unopened (unopened.lt (.inl moves.live.1))
  | writer moves => exact unopened_setConn unopened (unopened.lt (.inr moves.live.1))
  | notify joins isOver =>
    refine unopened_setConn unopened (unopened.lt (.inl ?_))
    simp [isOver.1]
  | _ =>
    unfold Unopened at *
    simp only [openConn, startFailed_conns, startFailed_count, setPhase, setConn, update_apply,
      Conn.opened]
    grind [Start.conn]

/-- A client in which a call of `listen` connects is busy, with no other call. -/
structure Calls (s : State) : Prop where
  busy : ∀ l p, (s.listeners l).phase = .start true p → s.busy = true
  alone : ∀ l m p q, (s.listeners l).phase = .start true p →
    (s.listeners m).phase = .start true q → l = m
  idle : s.dropped = true → s.busy = false

theorem calls_step (rule : Rule s a t) (calls : s.Calls) : t.Calls := by
  obtain ⟨busy, alone, idle⟩ := calls
  cases rule with
  | @refused l first at_connect =>
    cases first <;> constructor <;> simp only [startFailed, setPhase] <;> grind
  | _ =>
    constructor <;> simp only [openConn, setPhase, setConn, update_apply] <;> grind

/-- What is known of the tasks in every state. -/
structure Tasks (s : State) : Prop where
  fresh : s.Fresh
  unopened : s.Unopened
  calls : s.Calls

theorem tasks_of_run (run : Run id tr s) : s.Tasks := by
  refine run.invariant (P := Tasks) ?_ fun s a t tasks h => ?_
  · refine ⟨⟨?_, ?_, ?_⟩, ?_, ⟨?_, ?_, ?_⟩⟩
    all_goals simp [init, Uncalled, Unopened, Conn.opened]
  · have rule := rule_of_step h
    exact ⟨fresh_step rule tasks.fresh, unopened_step rule tasks.fresh tasks.unopened,
      calls_step rule tasks.calls⟩

/-- A call of `listen` that is somewhere has been made. -/
theorem Tasks.called (tasks : s.Tasks) (h : (s.listeners l).phase ≠ .absent) : l < s.listens := by
  by_contra hl
  exact h (by rw [tasks.fresh.uncalled l (Nat.not_lt.mp hl)])

/-- After the drop no task is under way. -/
def Quiet (s : State) : Prop := s.dropped = true → ¬s.UnderWay

/-- In a client at rest an orderly step takes no task to a new wait. -/
theorem leaves_of_orderly (tasks : s.Tasks) (quiet : s.Quiet) (orderly : s.Orderly a)
    (rule : Rule s a t) : s.Leaves a := by
  intro dropped
  have rest := quiet dropped
  cases rule with
  | @reader k a d moves =>
    have opened := tasks.unopened.lt (.inl moves.live.1)
    cases moves with
    | start spawned => exact absurd (.inl ⟨k, opened, .inl spawned⟩) rest
    | ignore | fsync | invalid => exact orderly dropped
    | send | sendErr => exact orderly dropped
    | _ => rfl
  | @writer k a d moves =>
    have opened := tasks.unopened.lt (.inr moves.live.1)
    cases moves with
    | start spawned => exact absurd (.inl ⟨k, opened, .inr spawned⟩) rest
    | write | writeErr => exact orderly dropped
    | _ => rfl
  | @enter l at_loop | @retry l at_retry =>
    have called := tasks.called (l := l) (by simp [*])
    exact absurd (.inr ⟨l, called, by simp [*, Phase.entering]⟩) rest
  | select at_enter => simp [enters, at_enter]
  | _ => rfl

theorem underWay_setConn {d : Conn} (opened : k < s.count)
    (reader : d.reader = .spawned → (s.conns k).reader = .spawned)
    (writer : d.writer = .spawned → (s.conns k).writer = .spawned)
    (under : (s.setConn k d).UnderWay) : s.UnderWay := by
  obtain ⟨j, hj, spawned⟩ | entering := under
  · by_cases same : j = k
    · subst same
      have running := spawned.imp (by simpa using reader) (by simpa using writer)
      exact .inl ⟨j, opened, by simpa using running⟩
    · exact .inl ⟨j, hj, by simpa [same] using spawned⟩
  · exact .inr entering

/-- Only a call of `listen` and a reconnect set out. -/
theorem underWay_step (tasks : s.Tasks) (rule : Rule s a t) (under : t.UnderWay) :
    s.UnderWay ∨ a = .listen ∨ ∃ l, a = .broken l ∨ a = .timeout l := by
  cases rule with
  | listen => simp
  | drop => exact .inl under
  | @opened l first at_phase | @refused l first at_phase | @spawnReader l k first at_phase
  | @spawnWriter l k first at_phase | @spawnJoiner l k first at_phase | @enter l at_phase
  | @retry l at_phase =>
    have called := tasks.called (l := l) (by simp [*])
    exact .inl (.inr ⟨l, called, by simp [at_phase, Phase.entering]⟩)
  | @select l w at_phase | @exit l w at_phase =>
    obtain spawned | ⟨m, hm, entering⟩ := under
    · exact .inl (.inl spawned)
    · by_cases same : m = l
      · subst same
        simp [Phase.entering] at entering
      · exact .inl (.inr ⟨m, hm, by simpa [same] using entering⟩)
  | @broken l => exact .inr (.inr ⟨l, .inl rfl⟩)
  | @timeout l => exact .inr (.inr ⟨l, .inr rfl⟩)
  | @reader k a d moves =>
    refine .inl (underWay_setConn (tasks.unopened.lt (.inl moves.live.1)) ?_ ?_ under)
    · intro spawned
      cases moves <;> simp at spawned
    · rw [moves.frame.2.1]
      exact fun spawned => spawned
  | @writer k a d moves =>
    refine .inl (underWay_setConn (tasks.unopened.lt (.inr moves.live.1)) ?_ ?_ under)
    · rw [moves.frame.2.1]
      exact fun spawned => spawned
    · intro spawned
      cases moves <;> simp at spawned
  | @notify k joins isOver =>
    have opened := tasks.unopened.lt (k := k) (.inl (by simp [isOver.1]))
    refine .inl (underWay_setConn opened ?_ ?_ under) <;> exact fun spawned => spawned

theorem quiet_step (tasks : s.Tasks) (quiet : s.Quiet) (orderly : s.Orderly a)
    (rule : Rule s a t) : t.Quiet := by
  intro dropped under
  obtain before | rfl | ⟨l, rfl | rfl⟩ := underWay_step tasks rule under
  · obtain ⟨-, same⟩ | ⟨-, kept, -⟩ := exit_step rule
    · exact quiet (same.symm.trans dropped) before
    · cases rule <;> simp_all [Orderly]
  all_goals cases rule; simp_all [Orderly]

/-- A loop that has not been polled is polled first, which takes it to a new wait. -/
theorem unpolled_keeps (leaves : s.enters a = false) (rule : Rule s a t) (opened : k < s.count)
    (spawned : (s.conns k).reader = .spawned ∨ (s.conns k).writer = .spawned) :
    k < t.count ∧ ((t.conns k).reader = .spawned ∨ (t.conns k).writer = .spawned) := by
  cases rule with
  | @reader j _ d moves =>
    refine ⟨opened, ?_⟩
    by_cases same : k = j
    · subst same
      cases moves <;> simp only [setConn, update_apply] <;>
        grind [enters, Conn.readerEnters, Conn.endReader, Reader.waiter]
    · simpa [same] using spawned
  | @writer j _ d moves =>
    refine ⟨opened, ?_⟩
    by_cases same : k = j
    · subst same
      cases moves <;> simp_all [enters, Conn.writerEnters]
    · simpa [same] using spawned
  | _ =>
    simp only [openConn, startFailed_conns, startFailed_count, setPhase, setConn, update_apply]
    grind

/-- A reconnect task on its way to a `select!` gets there by a step that makes its waiter, once
no call of `listen` is going on. -/
theorem entering_keeps (leaves : s.enters a = false) (rule : Rule s a t)
    (calls : ∀ l p, (s.listeners l).phase ≠ .start true p) (called : l < s.listens)
    (entering : (s.listeners l).phase.entering = true) :
    l < t.listens ∧ (t.listeners l).phase.entering = true := by
  cases rule with
  | @refused j first at_connect =>
    cases first with
    | true => exact absurd at_connect (calls j _)
    | false =>
      simp only [startFailed_listeners, startFailed_listens, update_apply]
      grind [Phase.entering]
  | @enter j at_loop | @retry j at_retry =>
    simp [enters, *] at leaves
  | _ =>
    simp only [openConn, setPhase, setConn, update_apply]
    grind [Phase.entering]

/-- After the drop some task stays under way until it waits. -/
theorem underWay_keeps (tasks : s.Tasks) (dropped : s.dropped = true) (leaves : s.Leaves a)
    (rule : Rule s a t) (under : s.UnderWay) : t.UnderWay := by
  obtain ⟨k, opened, spawned⟩ | ⟨l, called, entering⟩ := under
  · exact .inl ⟨k, unpolled_keeps (leaves dropped) rule opened spawned⟩
  · refine .inr ⟨l, entering_keeps (leaves dropped) rule ?_ called entering⟩
    intro m p connects
    have busy := tasks.calls.busy m p connects
    exact absurd (busy.symm.trans (tasks.calls.idle dropped)) (by decide)

/-- A step that takes no task to a new wait, and after which no task is under way, is orderly. -/
theorem orderly_of_leaves (tasks : s.Tasks) (leaves : s.Leaves a) (rule : Rule s a t)
    (quiet : t.Quiet) : s.Orderly a := by
  cases rule with
  | drop => exact quiet rfl
  | @broken l | @timeout l =>
    by_contra dropped
    have dropped : s.dropped = true := by simpa [Orderly] using dropped
    have called := tasks.called (l := l) (by simp [*])
    exact quiet dropped (.inr ⟨l, called, by simp [Phase.entering]⟩)
  | reader moves =>
    cases moves with
    | ignore | fsync | invalid | send | sendErr => exact leaves
    | _ => trivial
  | writer moves =>
    cases moves with
    | write | writeErr => exact leaves
    | _ => trivial
  | _ => trivial

theorem quiet_back (tasks : s.Tasks) (leaves : s.Leaves a) (rule : Rule s a t) (quiet : t.Quiet) :
    s.Quiet := by
  intro dropped under
  refine quiet ?_ (underWay_keeps tasks dropped leaves rule under)
  obtain ⟨-, same⟩ | ⟨-, kept, -⟩ := exit_step rule
  · exact same.trans dropped
  · exact absurd (dropped.symm.trans kept) (by decide)

theorem quiet_of_orderly (run : Run id tr s) (orderly : Steps Orderly tr) : Always Quiet tr s := by
  refine run.always_of_steps orderly fun tr s run orderly => ?_
  refine run.invariant_of_steps orderly (fun _ _ run => tasks_of_run run) ?_ ?_
  · intro dropped
    cases dropped
  · intro s a t tasks quiet orderly h
    exact quiet_step tasks quiet orderly (rule_of_step h)

/-- The steps of an orderly run take no task to a new wait. -/
theorem steps_leaves (run : Run id tr s) (orderly : Steps Orderly tr) : Steps Leaves tr := by
  have quiet := quiet_of_orderly run orderly
  induction run with
  | start => exact steps_nil
  | next run h ih =>
    obtain ⟨orderly, last⟩ := steps_concat.mp orderly
    obtain ⟨before, -⟩ := always_concat.mp quiet
    refine steps_concat.mpr ⟨ih orderly before, ?_⟩
    exact leaves_of_orderly (tasks_of_run run) before.2 last (rule_of_step h)

/-- A run that takes no task to a new wait, and at whose end no task is under way, is orderly. -/
theorem steps_orderly (run : Run id tr s) (leaves : Steps Leaves tr) (quiet : s.Quiet) :
    Steps Orderly tr := by
  induction run with
  | start => exact steps_nil
  | next run h ih =>
    obtain ⟨leaves, last⟩ := steps_concat.mp leaves
    have tasks := tasks_of_run run
    have rule := rule_of_step h
    refine steps_concat.mpr ⟨ih leaves (quiet_back tasks last rule quiet), ?_⟩
    exact orderly_of_leaves tasks last rule quiet

/-- Every task that is alive at the drop stops, at every point of a run that is orderly; and a run
at whose end no task is under way any more is so only if it is orderly. -/
theorem drop_stops (run : Run id tr s) :
    (Steps Orderly tr → Always Stopped tr s) ∧
      ((s.dropped = true → ¬s.UnderWay) → Always Stopped tr s → Steps Orderly tr) := by
  constructor
  · intro orderly
    exact (stopped_iff_leaves run).mpr (steps_leaves run orderly)
  · intro quiet stopped
    exact steps_orderly run ((stopped_iff_leaves run).mp stopped) quiet

/-! ## Concrete runs -/

/-- The drop comes while the reconnect task connects. The connection goes through, registers the
id, and its loops and the reconnect task wait for an exit that has been notified before. -/
theorem dropped_client_lives_on :
    ∃ tr s, Run "c1" tr s ∧ s.dropped = true ∧ (s.conns 1).written = [⟨"c1", some .ping⟩] ∧
      ¬s.Stopped := by
  have script : (exec step (fun _ _ => True) (init "c1")
      (listenOnce 0 ++ startLoops 0 ++ enterSelect 0 ++ breakConn 0 ++
        [Action.broken 0, .drop, .connect 0 true, .spawn 0, .spawn 0, .spawn 0] ++
        startLoops 1 ++ enterSelect 0 ++ [Action.writer 1 .recv, .writer 1 (.write true)])).any
      (fun s => s.dropped = true ∧ (s.conns 1).written = [⟨"c1", some .ping⟩] ∧
        (s.conns 1).late = true ∧ (s.conns 1).reader = .select s.exit.wait) = true := by decide
  obtain ⟨tr, s, run, -, h⟩ := run_of_exec script
  obtain ⟨dropped, written, late, waits⟩ := of_decide_eq_true h
  refine ⟨tr, s, run, dropped, written, ?_⟩
  intro stopped
  exact stopped.closed 1 late s.exit.wait (.inl (by simp [waits, Reader.waiter]))

/-- Everything waits when the client is dropped, and takes the branch that breaks. -/
theorem idle_client_stops :
    ∃ tr s, Run "c1" tr s ∧ s.dropped = true ∧ (s.conns 0).Over ∧
      (s.listeners 0).phase = .ended ∧ Always Stopped tr s ∧ Steps Orderly tr := by
  have script : (exec step Orderly (init "c1")
      (listenOnce 0 ++ startLoops 0 ++ enterSelect 0 ++
        [Action.drop, .reader 0 .exitReader, .writer 0 .exitWriter, .exit 0, .notify 0])).any
      (fun s => s.dropped = true ∧ (s.conns 0).Over ∧ (s.listeners 0).phase = .ended ∧
        ¬s.UnderWay) = true := by
    decide
  obtain ⟨tr, s, run, orderly, h⟩ := run_of_exec script
  obtain ⟨dropped, isOver, ended, rest⟩ := of_decide_eq_true h
  have stopped := (drop_stops run).1 orderly
  exact ⟨tr, s, run, dropped, isOver, ended, stopped, (drop_stops run).2 (fun _ => rest) stopped⟩

end State

end Rndz.Tcp.ClientAsync
