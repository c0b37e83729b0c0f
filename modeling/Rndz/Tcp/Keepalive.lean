import Mathlib.Tactic.Linarith
import Rndz.Lib.Watchdog
import Rndz.Tcp.Rendezvous
import Rndz.Udp.Server

/-!
# A TCP listener is not timed out

The server and its clients under one clock. A client's `write_loop` waits ten seconds for a request
and then writes a ping; the server's `read_reqs` waits thirty seconds for a frame. Threads and
tasks may be late by a slack, frames by a delay.
-/
namespace Rndz.Tcp

open Net Proto Mpsc Transition Notification
open Function (update update_apply)
open Rendezvous (delivered)
open Udp (Instant fromSecs)
open Watchdog

/-! ## What a `write_loop` does -/

/-- Where a `write_loop` stands: before it is spawned, at its wait for a request, with a request to
write, or at its end. -/
inductive Turn where
  | absent
  | recv
  | write
  | ended
  deriving DecidableEq, Repr

/-- A `write_loop` goes on, or does not. -/
inductive Turns (w : List Request) : Turn → Turn → List Request → Prop
  | stays {u : Turn} : Turns w u u w
  | spawned : Turns w .absent .recv w
  | takes : Turns w .recv .write w
  | writes {req : Request} : Turns w .write .recv (w ++ [req])
  | ends {u : Turn} : Turns w u .ended w

/-- The `write_loop`s of a client's connections, and what they have written. -/
structure Writers where
  count : Nat
  turn : Nat → Turn
  written : Nat → List Request

/-- A client goes on. -/
structure Writers.Go (x y : Writers) : Prop where
  turns : ∀ k < x.count, Turns (x.written k) (x.turn k) (y.turn k) (y.written k)
  opened : ∀ k, x.count ≤ k → k < y.count → y.turn k = .absent ∧ y.written k = []

theorem Writers.Go.refl {x : Writers} : x.Go x :=
  ⟨fun _ _ => .stays, fun _ h h' => absurd h' (Nat.not_lt.mpr h)⟩

section

variable {α : Type} {conns : Nat → α} {count j : Nat} {d : α}

/-- `f` is where the `write_loop` of a connection stands, `g` what has been written on it, and one
connection is replaced by another that has gone on from it. -/
theorem Writers.Go.of_conns (f : α → Turn) (g : α → List Request)
    (turns : Turns (g (conns j)) (f (conns j)) (f d) (g d)) :
    Writers.Go ⟨count, fun k => f (conns k), fun k => g (conns k)⟩
      ⟨count, fun k => f (update conns j d k), fun k => g (update conns j d k)⟩ := by
  refine ⟨fun k _ => ?_, fun _ h h' => absurd h' (Nat.not_lt.mpr h)⟩
  by_cases hk : k = j
  · subst hk
    simpa
  · simpa [hk] using Turns.stays

/-- A connection is opened, whose `write_loop` is yet to be spawned. -/
theorem Writers.Go.of_opened (f : α → Turn) (g : α → List Request) (absent : f d = .absent)
    (unwritten : g d = []) : Writers.Go ⟨count, fun k => f (conns k), fun k => g (conns k)⟩
      ⟨count + 1, fun k => f (update conns count d k), fun k => g (update conns count d k)⟩ := by
  refine ⟨fun k hk => ?_, fun k h h' => ?_⟩
  · simpa [Nat.ne_of_lt hk] using Turns.stays
  · obtain rfl : k = count := Nat.le_antisymm (Nat.le_of_lt_succ h') h
    simp [absent, unwritten]

end

namespace Client

variable {id : String} {s t : State} {a : Action} {d : Conn}

def Writer.turn : Writer → Turn
  | .absent => .absent
  | .recv => .recv
  | .write _ => .write
  | .ended => .ended

theorem Conn.Rule.turns {c : Conn} {b : LoopAction} (rule : Conn.Rule id c b d) :
    Turns c.written c.writer.turn d.writer.turn d.written := by
  cases rule with
  | recv at_recv | timeout at_recv =>
    simp only [at_recv]
    exact .takes
  | recvErr at_recv => exact .ends
  | write at_write =>
    simp only [at_write]
    exact .writes
  | writeErr at_write => exact .ends
  | _ => exact .stays

namespace State

def writers (s : State) : Writers where
  count := s.count
  turn k := (s.conns k).writer.turn
  written k := (s.conns k).written

@[simp] theorem count_streams (s : State) : s.streams.count = s.writers.count := rfl

@[simp] theorem written_streams (s : State) : s.streams.written = s.writers.written := rfl

theorem writers_step (fresh : s.Fresh) (rule : Rule s a t) : s.writers.Go t.writers := by
  cases rule with
  | opened at_connect =>
    refine .of_opened (fun c => c.writer.turn) Conn.written ?_ ?_ <;> rfl
  | loop moves => exact .of_conns (fun c => c.writer.turn) Conn.written moves.turns
  | @spawnWriter l k first at_writer =>
    obtain ⟨-, absent, -⟩ := fresh.start l first (.writer k) k at_writer rfl
    refine .of_conns (fun c => c.writer.turn) Conn.written ?_
    rw [absent]
    exact .spawned
  | spawnReader | spawnMonitor | spawnWatcher | reportPoisoned | report | watchWait
  | watchPoisoned | watchExit | watchEnd =>
    refine .of_conns (fun c => c.writer.turn) Conn.written ?_
    exact .stays
  | readerFailed =>
    unfold writers
    rw [startFailed_conns, startFailed_count]
    refine .of_conns (fun c => c.writer.turn) Conn.written ?_
    exact .stays
  | refused | cloneFailed =>
    unfold writers
    rw [startFailed_conns, startFailed_count]
    exact .refl
  | _ => exact .refl

end State

end Client

namespace ClientAsync

variable {id : String} {exit : Notify} {s t : State} {a : Action} {d : Conn}

def Writer.turn : Writer → Turn
  | .absent | .spawned => .absent
  | .select _ => .recv
  | .write _ => .write
  | .ended => .ended

theorem Conn.WriterRule.turns {c : Conn} {b : LoopAction} (rule : Conn.WriterRule id exit c b d) :
    Turns c.written c.writer.turn d.writer.turn d.written := by
  cases rule with
  | start spawned =>
    simp only [spawned]
    exact .spawned
  | recv waits | timeout waits =>
    simp only [waits]
    exact .takes
  | write at_write =>
    simp only [at_write]
    exact .writes
  | exit | recvNone | writeErr => exact .ends

theorem Conn.ReaderRule.writer {c : Conn} {b : LoopAction} (rule : Conn.ReaderRule exit c b d) :
    d.writer = c.writer ∧ d.written = c.written := by
  cases rule with
  | _ => exact ⟨rfl, rfl⟩

namespace State

def writers (s : State) : Writers where
  count := s.count
  turn k := (s.conns k).writer.turn
  written k := (s.conns k).written

@[simp] theorem count_streams (s : State) : s.streams.count = s.writers.count := rfl

@[simp] theorem written_streams (s : State) : s.streams.written = s.writers.written := rfl

theorem writers_step (fresh : s.Fresh) (rule : Rule s a t) : s.writers.Go t.writers := by
  cases rule with
  | opened at_connect =>
    refine .of_opened (fun c => c.writer.turn) Conn.written ?_ ?_ <;> rfl
  | reader moves =>
    refine .of_conns (fun c => c.writer.turn) Conn.written ?_
    rw [moves.writer.1, moves.writer.2]
    exact .stays
  | writer moves => exact .of_conns (fun c => c.writer.turn) Conn.written moves.turns
  | @spawnWriter l k first at_writer =>
    obtain ⟨-, absent, -⟩ := fresh.start l first (.writer k) k at_writer rfl
    refine .of_conns (fun c => c.writer.turn) Conn.written ?_
    rw [absent]
    exact .stays
  | spawnReader | spawnJoiner | notify =>
    refine .of_conns (fun c => c.writer.turn) Conn.written ?_
    exact .stays
  | refused =>
    unfold writers
    rw [startFailed_conns, startFailed_count]
    exact .refl
  | _ => exact .refl

end State

end ClientAsync

/-! ## What `read_reqs` does -/

namespace State

variable {s t : State} {a : Action} {c : Nat} {tr : List (State × Action)}

/-- `read_reqs` waits for a frame. -/
def Reading (s : State) (c : Nat) : Prop := s.status c = .running ∧ s.reader c = .read

instance (s : State) (c : Nat) : Decidable (s.Reading c) := inferInstanceAs (Decidable (_ ∧ _))

/-- Until it has read one, it goes on waiting. -/
theorem frames_of_reading (rule : Rule s a t) (fresh : Fresh s) (before : s.Reading c)
    (after : t.Reading c) : t.frames c = s.frames c := by
  cases rule with
  | @read d req rest runs at_read frame =>
    have hd : c ≠ d := by
      rintro rfl
      simp [Reading] at after
    simp [hd]
  | accept addr =>
    have hc : c ≠ s.count + 1 := by
      rintro rfl
      have := fresh (s.count + 1) (Nat.lt_succ_self _)
      simp [before.1] at this
    simp [hc]
  | _ => rfl

/-- No frames have come in on a connection that is yet to be accepted. -/
theorem delivered_of_absent (run : Run tr s) (absent : s.status c = .absent) :
    delivered s.log c = [] := by
  refine List.eq_nil_iff_forall_not_mem.mpr fun req hreq => ?_
  exact (provenance run).accepted _ (Rendezvous.State.mem_delivered.mp hreq) absent

/-- The frames that the server has been given have been read or are in the inbox. -/
theorem delivered_eq (run : Run tr s) :
    (delivered s.log c).length = s.frames c + (s.inbox c).length := by
  induction run with
  | start => simp [init, delivered]
  | @next tr s t a run h ih =>
    have kept := Rendezvous.State.delivered_step h
    cases rule_of_step h with
    | @client d req accepted =>
      simp only [record, Rendezvous.State.delivered_sent, update_apply]
      by_cases hd : d = c
      · subst hd
        simp [ih, Nat.add_assoc]
      · simp [hd, Ne.symm hd, ih]
    | @read d req rest runs at_read frame =>
      by_cases hd : c = d
      · subst hd
        simp only [frame, List.length_cons] at ih
        simp [ih]
        omega
      · simp [hd, ih]
    | accept addr =>
      by_cases hc : c = s.count + 1
      · subst hc
        have absent := delivered_of_absent run (fresh run (s.count + 1) (Nat.lt_succ_self _))
        simp [absent]
      · simp [hc, ih]
    | _ =>
      rw [kept (fun _ _ h => by cases h)]
      exact ih

end State

namespace Rendezvous

/-! ## The system with a clock -/

/-- The `write_loop` at the end `e`; a call of `connect` has none. -/
def State.turn (s : State) (e : End) : Turn :=
  match e.party with
  | .sync i => (s.sync i).writers.turn e.conn
  | .async i => (s.async i).writers.turn e.conn
  | .call _ => .ended

/-- The system with the times at which an end was opened, at which its frames were written and at
which its `write_loop` has gone on last, and at which `read_reqs` has begun to wait for a frame. -/
structure Timed where
  now : Instant
  sys : State
  openedAt : End → Instant
  writtenAt : End → List Instant
  turnedAt : End → Instant
  armedAt : Nat → Instant

namespace Timed

inductive Action where
  | tick (time : Nat)
  | sys (a : Rendezvous.Action)
  deriving DecidableEq, Repr

def init (p : Parties) : Timed where
  now := 0
  sys := .init p
  openedAt _ := 0
  writtenAt _ := []
  turnedAt _ := 0
  armedAt _ := 0

/-- The system goes on, and the times are taken. -/
def record (s : Timed) (sys : State) : Timed where
  now := s.now
  sys := sys
  openedAt e := if s.sys.Opened e then s.openedAt e else s.now
  writtenAt e :=
    if s.sys.Opened e then
      s.writtenAt e ++ List.replicate ((sys.written e).length - (s.sys.written e).length) s.now
    else []
  turnedAt e := if s.sys.turn e = sys.turn e then s.turnedAt e else s.now
  armedAt c := if s.sys.server.Reading c then s.armedAt c else s.now

/-- A timer does not run out early, and `read_reqs` does not time out when there is a frame. -/
def due (s : Timed) : Rendezvous.Action → Bool
  | .server (.readTimeout c) => s.armedAt c + fromSecs 30 ≤ s.now ∧ s.sys.server.inbox c = []
  | .sync i (.loop k .timeout) => s.turnedAt ⟨.sync i, k⟩ + fromSecs 10 ≤ s.now
  | .async i (.writer k .timeout) => s.turnedAt ⟨.async i, k⟩ + fromSecs 10 ≤ s.now
  | _ => true

def step (p : Parties) (s : Timed) : Action → Option Timed
  | .tick time => some { s with now := s.now + time }
  | .sys a => if s.due a then (s.sys.step p a).map s.record else none

/-- How late threads and tasks may be, and how long a frame may be under way. -/
structure Bounds where
  slack : Nat
  delay : Nat

/-- The longest time between two frames. -/
def Bounds.gap (b : Bounds) : Int := fromSecs 10 + 3 * b.slack

/-- A frame comes in before `read_reqs` times out. -/
def Bounds.Fast (b : Bounds) : Prop := b.gap + b.delay < fromSecs 30

instance (b : Bounds) : Decidable b.Fast := inferInstanceAs (Decidable (_ < _))

/-- The `write_loop` at `e` is spawned, takes up a request or its timer, and writes it, without much
delay, and so do its frames come in. -/
structure Timely (b : Bounds) (e : End) (s : Timed) : Prop where
  spawned : s.sys.Opened e → s.sys.turn e = .absent → s.now ≤ s.openedAt e + b.slack
  recv : s.sys.turn e = .recv → s.now ≤ s.turnedAt e + fromSecs 10 + b.slack
  write : s.sys.turn e = .write → s.now ≤ s.turnedAt e + b.slack
  delay : ∀ c ≤ s.sys.server.count, s.sys.peer c = some e →
    ∀ t ∈ (s.writtenAt e)[(delivered s.sys.server.log c).length]?, s.now ≤ t + b.delay

instance (b : Bounds) (e : End) (s : Timed) : Decidable (Timely b e s) :=
  decidable_of_iff (_ ∧ _ ∧ _ ∧ _)
    ⟨fun h => ⟨h.1, h.2.1, h.2.2.1, h.2.2.2⟩, fun h => ⟨h.spawned, h.recv, h.write, h.delay⟩⟩

end Timed

/-- The runs of the system with a clock. -/
abbrev TimedRun (p : Parties) := Transition.Run (Timed.step p) (Timed.init p)

namespace State

variable {p : Parties} {s t : State} {a : Action} {e : End} {tr : List (State × Action)}

/-- A listener's `write_loop` goes on, or does not, and a new one is absent at first. -/
structure Turning (e : End) (s t : State) : Prop where
  turns : s.Opened e → Turns (s.written e) (s.turn e) (t.turn e) (t.written e)
  opened : ¬s.Opened e → t.Opened e →
    t.turn e = .absent ∧ t.written e = [] ∧ t.peer = s.peer

theorem turning_of_same (streams : t.streams e.party = s.streams e.party)
    (turn : t.turn e = s.turn e) : Turning e s t := by
  refine ⟨fun _ => ?_, fun closed opened => absurd ?_ closed⟩
  · rw [turn, State.written, State.written, streams]
    exact .stays
  · rwa [Opened, streams] at opened

theorem turning_step (run : Run p tr s) (h : s.step p a = some t) (listens : e.party.Listens) :
    Turning e s t := by
  obtain ⟨q, k⟩ := e
  cases rule_of_step h with
  | @sync i b x _ step =>
    by_cases hq : q = .sync i
    · subst hq
      obtain ⟨tr', run'⟩ := sync_run run i
      have go := Client.State.writers_step (Client.State.fresh_of_run run')
        (Client.State.rule_of_step step)
      refine ⟨fun opened => ?_, fun closed opened => ?_⟩
      · simpa [State.written, State.turn, streams] using go.turns k opened
      · have new := go.opened k (not_lt.mp closed) (by simpa [Opened, streams] using opened)
        simpa [State.written, State.turn, streams] using new
    · refine turning_of_same ((grows_setSync step).others q hq) ?_
      cases q with
      | sync j =>
        have hj : j ≠ i := fun h => hq (h ▸ rfl)
        simp [State.turn, hj]
      | _ => rfl
  | @async i b x _ step =>
    by_cases hq : q = .async i
    · subst hq
      obtain ⟨tr', run'⟩ := async_run run i
      have go := ClientAsync.State.writers_step (ClientAsync.State.fresh_of_run run')
        (ClientAsync.State.rule_of_step step)
      refine ⟨fun opened => ?_, fun closed opened => ?_⟩
      · simpa [State.written, State.turn, streams] using go.turns k opened
      · have new := go.opened k (not_lt.mp closed) (by simpa [Opened, streams] using opened)
        simpa [State.written, State.turn, streams] using new
    · refine turning_of_same ((grows_setAsync step).others q hq) ?_
      cases q with
      | async j =>
        have hj : j ≠ i := fun h => hq (h ▸ rfl)
        simp [State.turn, hj]
      | _ => rfl
  | write | answer =>
    cases q with
    | call j => exact listens.elim
    | _ => exact turning_of_same rfl rfl
  | _ => exact turning_of_same rfl rfl

end State

/-! ## The frames follow each other -/

namespace Timed

variable {p : Parties} {b : Bounds} {e : End} {s t : Timed} {sys : State} {a : Action} {c : Nat}
  {tr : List (Timed × Action)}

/-- The latest frame written at `e`, or the opening of the connection. -/
def lastAt (s : Timed) (e : End) : Instant := latest (s.openedAt e) (s.writtenAt e)

/-- The frames are not far apart, nor is the `write_loop` from the latest. -/
structure Beating (b : Bounds) (e : End) (s : Timed) : Prop where
  length : (s.writtenAt e).length = (s.sys.written e).length
  paced : Paced b.gap (s.openedAt e) (s.writtenAt e)
  past : ∀ t ∈ s.openedAt e :: s.writtenAt e, t ≤ s.now
  absent : s.sys.turn e = .absent → s.writtenAt e = []
  recv : s.sys.turn e = .recv → s.turnedAt e ≤ s.lastAt e + b.slack
  write : s.sys.turn e = .write → s.turnedAt e ≤ s.lastAt e + fromSecs 10 + 2 * b.slack

/-- `read_reqs` waits since the frame it has read last was written, or since later. -/
def Armed (e : End) (s : Timed) : Prop :=
  ∀ c, s.sys.peer c = some e → s.sys.server.Reading c →
    taken (s.openedAt e) (s.writtenAt e) (s.sys.server.frames c) ≤ s.armedAt c

theorem sys_run (run : TimedRun p tr s) : ∃ tr', Run p tr' s.sys := by
  refine run.project sys fun s a t h => ?_
  cases a with
  | tick time =>
    obtain rfl := Option.some.inj h
    exact .inl rfl
  | sys a =>
    obtain ⟨-, h⟩ := Option.ite_none_right_eq_some.mp h
    obtain ⟨sys, hsys, rfl⟩ := Option.map_eq_some_iff.mp h
    exact .inr ⟨a, hsys⟩

theorem writtenAt_same (opened : s.sys.Opened e) (same : sys.written e = s.sys.written e) :
    (s.record sys).writtenAt e = s.writtenAt e := by
  simp [record, opened, same]

theorem writtenAt_concat (opened : s.sys.Opened e) {req : Request}
    (more : sys.written e = s.sys.written e ++ [req]) :
    (s.record sys).writtenAt e = s.writtenAt e ++ [s.now] := by
  simp [record, opened, more]

theorem openedAt_same (sys : State) (opened : s.sys.Opened e) :
    (s.record sys).openedAt e = s.openedAt e :=
  if_pos opened

/-- A `write_loop` that has not ended writes its next frame in time. -/
theorem Beating.runs (beating : Beating b e s) (opened : s.sys.Opened e) (timely : Timely b e s)
    (goesOn : s.sys.turn e ≠ .ended) : s.now ≤ s.lastAt e + b.gap := by
  have pos : (0 : Int) ≤ fromSecs 10 := by decide
  unfold Bounds.gap
  cases turn : s.sys.turn e with
  | absent =>
    have := timely.spawned opened turn
    rw [lastAt, beating.absent turn, latest_nil]
    linarith
  | recv => linarith [timely.recv turn, beating.recv turn]
  | write => linarith [timely.write turn, beating.write turn]
  | ended => exact absurd turn goesOn

theorem turnedAt_same (same : sys.turn e = s.sys.turn e) :
    (s.record sys).turnedAt e = s.turnedAt e :=
  if_pos same.symm

theorem turnedAt_changed (changed : s.sys.turn e ≠ sys.turn e) :
    (s.record sys).turnedAt e = s.now :=
  if_neg changed

/-- The `write_loop` of an open connection writes nothing, and goes from `recv` to `write`,
or ends, or stays where it is. -/
theorem Beating.quiet (beating : Beating b e s) (opened : s.sys.Opened e)
    (same : sys.written e = s.sys.written e)
    (absent : sys.turn e = .absent → s.sys.turn e = .absent)
    (recv : sys.turn e = .recv → (s.record sys).turnedAt e ≤ s.lastAt e + b.slack)
    (write : sys.turn e = .write →
      (s.record sys).turnedAt e ≤ s.lastAt e + fromSecs 10 + 2 * b.slack) :
    Beating b e (s.record sys) := by
  have hwritten := writtenAt_same opened same
  have hopened := openedAt_same sys opened
  constructor
  all_goals simp only [lastAt, hwritten, hopened]
  · exact beating.length.trans (congrArg List.length same.symm)
  · exact beating.paced
  · exact beating.past
  · exact fun turn => beating.absent (absent turn)
  · exact recv
  · exact write

/-- The next frame is written. -/
theorem Beating.writes (beating : Beating b e s) (opened : s.sys.Opened e) (timely : Timely b e s)
    {req : Request} (at_write : s.sys.turn e = .write) (at_recv : sys.turn e = .recv)
    (more : sys.written e = s.sys.written e ++ [req]) : Beating b e (s.record sys) := by
  have hwritten := writtenAt_concat opened more
  have hopened := openedAt_same sys opened
  have hturned : (s.record sys).turnedAt e = s.now :=
    turnedAt_changed (by simp [at_write, at_recv])
  have runs := beating.runs opened timely (by simp [at_write])
  constructor
  all_goals simp only [lastAt, hwritten, hopened, hturned]
  · simp [record, more, beating.length]
  · exact beating.paced.concat runs
  · intro t ht
    rw [← List.cons_append] at ht
    rcases List.mem_append.mp ht with old | new
    · exact beating.past t old
    · exact (List.mem_singleton.mp new).le
  · simp [record, at_recv]
  · simp [record]
  · simp [record, at_recv]

/-- A connection has just been opened. -/
theorem beating_opened (closed : ¬s.sys.Opened e) (absent : sys.turn e = .absent)
    (unwritten : sys.written e = []) : Beating b e (s.record sys) := by
  have hwritten : (s.record sys).writtenAt e = [] := if_neg closed
  have hopened : (s.record sys).openedAt e = s.now := if_neg closed
  constructor
  all_goals simp only [lastAt, hwritten, hopened]
  · simp [record, unwritten]
  · exact paced_nil
  · simp [record]
  · simp
  · simp [record, absent]
  · simp [record, absent]

theorem Beating.step (beating : Beating b e s) (opened : s.sys.Opened e) (timely : Timely b e s)
    (turns : Turns (s.sys.written e) (s.sys.turn e) (sys.turn e) (sys.written e)) :
    Beating b e (s.record sys) := by
  generalize hu : s.sys.turn e = u at turns
  generalize hu' : sys.turn e = u' at turns
  generalize hw' : sys.written e = w' at turns
  cases turns with
  | stays =>
    have same := turnedAt_same (hu'.trans hu.symm)
    refine beating.quiet opened hw' (fun h => hu.trans (hu'.symm.trans h)) (fun h => ?_)
      fun h => ?_
    · rw [same]
      exact beating.recv (hu.trans (hu'.symm.trans h))
    · rw [same]
      exact beating.write (hu.trans (hu'.symm.trans h))
  | spawned =>
    have moved : (s.record sys).turnedAt e = s.now := turnedAt_changed (by simp [hu, hu'])
    have spawned := timely.spawned opened hu
    refine beating.quiet opened hw' (by simp [hu']) (fun _ => ?_) (by simp [hu'])
    rwa [moved, lastAt, beating.absent hu, latest_nil]
  | takes =>
    have moved : (s.record sys).turnedAt e = s.now := turnedAt_changed (by simp [hu, hu'])
    have waited := timely.recv hu
    have recv := beating.recv hu
    refine beating.quiet opened hw' (by simp [hu']) (by simp [hu']) (fun _ => ?_)
    rw [moved]
    linarith
  | writes => exact beating.writes opened timely hu hu' hw'
  | ends => exact beating.quiet opened hw' (by simp [hu']) (by simp [hu']) (by simp [hu'])

/-- `read_reqs` goes on waiting, or begins to. -/
theorem Armed.step {log : List (State × Rendezvous.Action)} {x : Rendezvous.Action}
    (armed : Armed e s) (beating : Beating b e s) (after : Beating b e (s.record sys))
    (run : Run p log s.sys) (opened : s.sys.Opened e) (h : s.sys.step p x = some sys) :
    Armed e (s.record sys) := by
  intro c peer reading
  by_cases before : s.sys.server.Reading c
  · obtain ⟨_, server⟩ := State.server_run run
    have fresh := Tcp.State.fresh server
    have linked := State.linked_of_run run
    have peer : s.sys.peer c = some e := by
      rcases State.peer_step h peer with old | ⟨rfl, -⟩
      · exact old
      · have absent := fresh _ (Nat.lt_succ_self _)
        simp [Tcp.State.Reading, absent] at before
    have frames : sys.server.frames c = s.sys.server.frames c := by
      rcases State.server_step h with same | ⟨y, step, -⟩
      · rw [same]
      · exact Tcp.State.frames_of_reading (Tcp.State.rule_of_step step) fresh before reading
    have read : s.sys.server.frames c ≤ (s.writtenAt e).length := by
      calc s.sys.server.frames c
          ≤ (delivered s.sys.server.log c).length := by
            rw [Tcp.State.delivered_eq server]
            exact Nat.le_add_right _ _
        _ ≤ (s.sys.written e).length := (linked.frames c e peer).length_le
        _ = (s.writtenAt e).length := beating.length.symm
    have hopened := openedAt_same sys opened
    simp only [record, frames, opened, before, if_true]
    rw [taken_append read]
    exact armed c peer before
  · have rearmed : (s.record sys).armedAt c = s.now := if_neg before
    rw [rearmed]
    exact after.past _ (taken_mem _ _ _)

/-- What is true of a client end once it is open. -/
structure Inv (b : Bounds) (e : End) (s : Timed) : Prop where
  beating : Beating b e s
  armed : Armed e s

theorem inv_step (run : TimedRun p tr s) (listens : e.party.Listens) (timely : Timely b e s)
    (inv : s.sys.Opened e → Inv b e s) (h : s.step p a = some t) :
    t.sys.Opened e → Inv b e t := by
  cases a with
  | tick time =>
    obtain rfl := Option.some.inj h
    intro opened
    obtain ⟨beating, armed⟩ := inv opened
    refine ⟨⟨beating.length, beating.paced, fun t ht => ?_, beating.absent, beating.recv,
      beating.write⟩, armed⟩
    exact (beating.past t ht).trans (Int.le_add_of_nonneg_right (Int.natCast_nonneg time))
  | sys x =>
    obtain ⟨-, h⟩ := Option.ite_none_right_eq_some.mp h
    obtain ⟨sys, step, rfl⟩ := Option.map_eq_some_iff.mp h
    obtain ⟨log, sysRun⟩ := sys_run run
    have turning := State.turning_step sysRun step listens
    intro opened'
    by_cases opened : s.sys.Opened e
    · obtain ⟨beating, armed⟩ := inv opened
      have after := beating.step opened timely (turning.turns opened)
      exact ⟨after, armed.step beating after sysRun opened step⟩
    · obtain ⟨absent, unwritten, peers⟩ := turning.opened opened opened'
      refine ⟨beating_opened opened absent unwritten, fun c peer => ?_⟩
      have linked := State.linked_of_run sysRun
      exact absurd (linked.opened c e (peers ▸ peer)) opened

theorem not_opened_init (listens : e.party.Listens) : ¬(init p).sys.Opened e := by
  obtain ⟨q, k⟩ := e
  cases q with
  | call j => exact listens.elim
  | _ => exact Nat.not_lt_zero k

/-- In a run in which nothing is late. -/
theorem inv_of_run (run : TimedRun p tr s) (listens : e.party.Listens)
    (timely : Always (Timely b e) tr s) : s.sys.Opened e → Inv b e s := by
  induction run with
  | start => exact fun opened => absurd opened (not_opened_init listens)
  | next run h ih =>
    obtain ⟨before, -⟩ := always_concat.mp timely
    exact inv_step run listens before.2 (ih before) h

/-- The wait of `read_reqs` does not run out as long as the `write_loop` goes on. -/
theorem readTimeout_disabled (run : TimedRun p tr s) (timely : Always (Timely b e) tr s)
    (fast : b.Fast) (listens : e.party.Listens) (peer : s.sys.peer c = some e)
    (goesOn : s.sys.turn e ≠ .ended) : s.step p (.sys (.server (.readTimeout c))) = none := by
  rw [Option.eq_none_iff_forall_ne_some]
  intro t h
  obtain ⟨due, h⟩ := Option.ite_none_right_eq_some.mp h
  obtain ⟨sys, step, -⟩ := Option.map_eq_some_iff.mp h
  obtain ⟨expired, empty⟩ := of_decide_eq_true due
  -- `read_reqs` waits, and has read all there is
  obtain ⟨server, step, -⟩ := Option.map_eq_some_iff.mp step
  obtain ⟨⟨runs, at_read⟩, -⟩ := Option.ite_none_right_eq_some.mp step
  obtain ⟨log, sysRun⟩ := sys_run run
  obtain ⟨_, serverRun⟩ := State.server_run sysRun
  have linked := State.linked_of_run sysRun
  have opened := linked.opened c e peer
  obtain ⟨beating, armed⟩ := inv_of_run run listens timely opened
  have read := Tcp.State.delivered_eq serverRun (c := c)
  rw [empty, List.length_nil, Nat.add_zero] at read
  have prompt := timely.2.delay c (linked.accepted c e peer) peer
  rw [read] at prompt
  have waits := beating.paced.waits_le (Int.natCast_nonneg b.delay)
    (armed c peer ⟨runs.1, at_read⟩) (beating.runs opened timely.2 goesOn) prompt
  unfold Bounds.Fast at fast
  linarith

/-- In a run in which nothing is late, the wait of `read_reqs` for a frame from a listener does not
run out unless the listener's `write_loop` has ended. -/
theorem listener_not_timed_out (run : TimedRun p tr s) (timely : Always (Timely b e) tr s)
    (fast : b.Fast) (listens : e.party.Listens) :
    Steps (fun s a => ∀ c, s.sys.peer c = some e → a = .sys (.server (.readTimeout c)) →
      s.sys.turn e = .ended) tr := by
  induction run with
  | start => exact steps_nil
  | next run h ih =>
    obtain ⟨before, -⟩ := always_concat.mp timely
    refine steps_concat.mpr ⟨ih before, ?_⟩
    rintro c peer rfl
    by_contra goesOn
    rw [readTimeout_disabled run before fast listens peer goesOn] at h
    cases h

/-- The listener of `meeting` comes in, and then writes a ping every ten seconds. -/
def pinging (n : Nat) : List Action :=
  (State.meeting.take 7 ++ State.serve 1 3).map .sys ++
    (List.replicate n ([.tick 10000000000, .sys (.sync 0 (.loop 0 .timeout)),
      .sys (.sync 0 (.loop 0 (.write true)))] ++ (State.serve 1 3).map .sys)).flatten

/-- Nothing is later than a second. -/
def Bounds.second : Bounds := ⟨1000000000, 1000000000⟩

/-- For forty seconds, the server waits for one ping after the other. -/
theorem not_timed_out_pinging : ∃ tr s, TimedRun State.twoParties tr s ∧ s.now = fromSecs 40 ∧
    s.sys.server.Reading 1 ∧
    Steps (fun s a => ∀ c, s.sys.peer c = some ⟨.sync 0, 0⟩ →
      a = .sys (.server (.readTimeout c)) → s.sys.turn ⟨.sync 0, 0⟩ = .ended) tr := by
  have script : (exec (step State.twoParties) (fun s _ => Timely .second ⟨.sync 0, 0⟩ s)
      (init State.twoParties) (pinging 4)).any
      (fun s => Timely .second ⟨.sync 0, 0⟩ s ∧ s.now = fromSecs 40 ∧ s.sys.server.Reading 1) =
      true := by decide +kernel
  obtain ⟨tr, s, run, before, h⟩ := run_of_exec script
  obtain ⟨after, now, reading⟩ := of_decide_eq_true h
  have fast : Bounds.second.Fast := by decide
  exact ⟨tr, s, run, now, reading, listener_not_timed_out run ⟨before, after⟩ fast trivial⟩

end Timed

end Rendezvous

end Rndz.Tcp
