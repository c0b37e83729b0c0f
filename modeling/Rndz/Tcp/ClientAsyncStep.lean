import Rndz.Tcp.ClientAsync
import Rndz.Tcp.Listening

/-!
# What a step of the async TCP client can do

The rules by which the loops of a connection and the client go on, as for the blocking client,
and what holds in every state: a connection belongs to one call of `listen`, and a waiter has
been made by the time it is held.
-/
namespace Rndz.Tcp.ClientAsync

open Net Proto Mpsc Notification Listening
open Function (update update_apply)

/-! ## The loops of a connection -/

/-- The waiter for the exit that `read_loop` holds. -/
def Reader.waiter : Reader → Option Waiter
  | .select w | .punch w _ => some w
  | _ => none

/-- The waiter for the exit that `write_loop` holds. -/
def Writer.waiter : Writer → Option Waiter
  | .select w => some w
  | _ => none

/-- A response on which `read_loop` does nothing. -/
def ignored (resp : Response) : Bool :=
  match resp.cmd with
  | some (.fsync _) => false
  | _ => true

namespace Conn

variable {c d : Conn} {a : LoopAction} {id : String} {exit : Notify}

/-- The ways `read_loop` can go on. -/
inductive ReaderRule (exit : Notify) (c : Conn) : LoopAction → Conn → Prop where
  | start (spawned : c.reader = .spawned) :
      ReaderRule exit c .startReader { c with reader := .select exit.wait }
  | exit {w : Waiter} (waits : c.reader.waiter = some w) (woken : exit.Woken w) :
      ReaderRule exit c .exitReader c.endReader
  | ignore {w : Waiter} {resp : Response} (waits : c.reader = .select w)
      (ignores : ignored resp = true) :
      ReaderRule exit c (.read resp)
        { c with reader := .select exit.wait, received := c.received ++ [resp] }
  | fsync {w : Waiter} {resp : Response} {fsync : Fsync} {addr : SocketAddr}
      (waits : c.reader = .select w) (cmd : resp.cmd = some (.fsync fsync))
      (parses : SocketAddr.parse fsync.addr = some addr) :
      ReaderRule exit c (.read resp)
        { c with
          reader := .punch w (.rsync { id := fsync.id })
          received := c.received ++ [resp] }
  | invalid {w : Waiter} {resp : Response} {fsync : Fsync} (waits : c.reader = .select w)
      (cmd : resp.cmd = some (.fsync fsync)) (bad : SocketAddr.parse fsync.addr = none) :
      ReaderRule exit c (.read resp) { c.endReader with received := c.received ++ [resp] }
  | readErr {w : Waiter} (waits : c.reader = .select w) : ReaderRule exit c .readErr c.endReader
  | punched {w : Waiter} {req : ReqCmd} (punches : c.reader = .punch w req) :
      ReaderRule exit c .punched { c with reader := .send req }
  | send {req : ReqCmd} {chan : SyncChannel 10 ReqCmd} (at_send : c.reader = .send req)
      (receiver : c.chan.receiver = true) (push : c.chan.push req = some chan) :
      ReaderRule exit c .send { c with reader := .select exit.wait, chan := chan }
  | sendErr {req : ReqCmd} (at_send : c.reader = .send req) (gone : c.chan.receiver = false) :
      ReaderRule exit c .send c.endReader

/-- The ways `write_loop` can go on. -/
inductive WriterRule (id : String) (exit : Notify) (c : Conn) : LoopAction → Conn → Prop where
  | start (spawned : c.writer = .spawned) :
      WriterRule id exit c .startWriter { c with writer := .select exit.wait }
  | exit {w : Waiter} (waits : c.writer = .select w) (woken : exit.Woken w) :
      WriterRule id exit c .exitWriter c.endWriter
  | recv {w : Waiter} {req : ReqCmd} {chan : SyncChannel 10 ReqCmd}
      (waits : c.writer = .select w) (pop : c.chan.pop = some (req, chan)) :
      WriterRule id exit c .recv { c with writer := .write req, chan := chan }
  | recvNone {w : Waiter} (waits : c.writer = .select w) (empty : c.chan.pop = none)
      (gone : c.chan.sender = false) : WriterRule id exit c .recv c.endWriter
  | timeout {w : Waiter} (waits : c.writer = .select w) :
      WriterRule id exit c .timeout { c with writer := .write .ping }
  | write {req : ReqCmd} (at_write : c.writer = .write req) :
      WriterRule id exit c (.write true)
        { c with writer := .select exit.wait, written := c.written ++ [⟨id, some req⟩] }
  | writeErr {req : ReqCmd} (at_write : c.writer = .write req) :
      WriterRule id exit c (.write false) c.endWriter

theorem read_rule {w : Waiter} (waits : c.reader = .select w) (resp : Response) :
    ReaderRule exit c (.read resp)
      { c.handleResp exit w resp with received := c.received ++ [resp] } := by
  unfold handleResp
  split
  · rename_i fsync cmd
    split
    · rename_i addr parses
      exact .fsync waits cmd parses
    · rename_i bad
      exact .invalid waits cmd bad
  · rename_i other
    refine .ignore waits ?_
    unfold ignored
    split
    · rename_i fsync cmd
      exact absurd cmd (other fsync)
    · rfl

theorem readerRule_of_step (h : c.stepReader exit a = some d) : ReaderRule exit c a d := by
  cases a with
  | startReader =>
    obtain ⟨spawned, h⟩ := Option.ite_none_right_eq_some.mp h
    obtain rfl := Option.some.inj h
    exact .start spawned
  | exitReader =>
    unfold stepReader at h
    dsimp only at h
    split at h
    · rename_i w waits
      obtain ⟨woken, h⟩ := Option.ite_none_right_eq_some.mp h
      obtain rfl := Option.some.inj h
      exact .exit (by simp [waits, Reader.waiter]) woken
    · rename_i w req waits
      obtain ⟨woken, h⟩ := Option.ite_none_right_eq_some.mp h
      obtain rfl := Option.some.inj h
      exact .exit (by simp [waits, Reader.waiter]) woken
    · cases h
  | read resp =>
    unfold stepReader at h
    dsimp only at h
    split at h
    · rename_i w waits
      obtain rfl := Option.some.inj h
      exact read_rule waits resp
    · cases h
  | readErr =>
    unfold stepReader at h
    dsimp only at h
    split at h
    · rename_i w waits
      obtain rfl := Option.some.inj h
      exact .readErr waits
    · cases h
  | punched =>
    unfold stepReader at h
    dsimp only at h
    split at h
    · rename_i w req punches
      obtain rfl := Option.some.inj h
      exact .punched punches
    · cases h
  | send =>
    unfold stepReader at h
    dsimp only at h
    split at h
    · rename_i req at_send
      split at h
      · rename_i receiver
        obtain ⟨chan, push, rfl⟩ := Option.map_eq_some_iff.mp h
        exact .send at_send receiver push
      · rename_i gone
        obtain rfl := Option.some.inj h
        exact .sendErr at_send (by simpa using gone)
    · cases h
  | startWriter | exitWriter | recv | timeout | write => cases h

theorem writerRule_of_step (h : c.stepWriter id exit a = some d) : WriterRule id exit c a d := by
  cases a with
  | startWriter =>
    obtain ⟨spawned, h⟩ := Option.ite_none_right_eq_some.mp h
    obtain rfl := Option.some.inj h
    exact .start spawned
  | exitWriter =>
    unfold stepWriter at h
    dsimp only at h
    split at h
    · rename_i w waits
      obtain ⟨woken, h⟩ := Option.ite_none_right_eq_some.mp h
      obtain rfl := Option.some.inj h
      exact .exit waits woken
    · cases h
  | recv =>
    unfold stepWriter at h
    dsimp only at h
    split at h
    · rename_i w waits
      split at h
      · rename_i req chan pop
        obtain rfl := Option.some.inj h
        exact .recv waits pop
      · rename_i empty
        obtain ⟨gone, h⟩ := Option.ite_none_left_eq_some.mp h
        obtain rfl := Option.some.inj h
        exact .recvNone waits empty (by simpa using gone)
    · cases h
  | timeout =>
    unfold stepWriter at h
    dsimp only at h
    split at h
    · rename_i w waits
      obtain rfl := Option.some.inj h
      exact .timeout waits
    · cases h
  | write ok =>
    unfold stepWriter at h
    dsimp only at h
    split at h
    · rename_i req at_write
      cases ok with
      | true =>
        obtain rfl := Option.some.inj h
        exact .write at_write
      | false =>
        obtain rfl := Option.some.inj h
        exact .writeErr at_write
    · cases h
  | startReader | exitReader | read | readErr | punched | send => cases h

/-- `read_loop` touches nothing that is not its own. -/
theorem ReaderRule.frame (rule : ReaderRule exit c a d) :
    d.listener = c.listener ∧ d.writer = c.writer ∧ d.joiner = c.joiner ∧
      d.broken = c.broken ∧ d.late = c.late := by
  cases rule <;> simp

/-- A reader that is not there, or has ended, does not go on. -/
theorem ReaderRule.live (rule : ReaderRule exit c a d) :
    c.reader ≠ .absent ∧ c.reader ≠ .ended := by
  cases rule with
  | exit waits => constructor <;> intro h <;> simp [h, Reader.waiter] at waits
  | _ => simp_all

/-- `write_loop` touches nothing that is not its own. -/
theorem WriterRule.frame (rule : WriterRule id exit c a d) :
    d.listener = c.listener ∧ d.reader = c.reader ∧ d.joiner = c.joiner ∧
      d.broken = c.broken ∧ d.late = c.late := by
  cases rule <;> simp

/-- A writer that is not there, or has ended, does not go on. -/
theorem WriterRule.live (rule : WriterRule id exit c a d) :
    c.writer ≠ .absent ∧ c.writer ≠ .ended := by
  cases rule <;> simp_all

end Conn

/-! ## The client -/

/-- The connection that `start_background` is busy with. -/
def Start.conn : Start → Option Nat
  | .connect => none
  | .reader k | .writer k | .joiner k => some k

/-- The tasks of the connection that are spawned later are absent. -/
def Start.Fits : Start → Conn → Prop
  | .connect, _ => True
  | .reader _, c => c.reader = .absent ∧ c.writer = .absent ∧ c.joiner = .absent
  | .writer _, c => c.writer = .absent ∧ c.joiner = .absent
  | .joiner _, c => c.joiner = .absent

namespace State

variable {s t : State} {l k : Nat} {a : Action}

/-! ### `startFailed` -/

@[simp] theorem startFailed_listeners (first : Bool) : (s.startFailed l first).listeners =
    update s.listeners l { s.listeners l with phase := if first then .ended else .retry } := by
  cases first <;> rfl

@[simp] theorem startFailed_conns (first : Bool) : (s.startFailed l first).conns = s.conns := by
  cases first <;> rfl

@[simp] theorem startFailed_count (first : Bool) : (s.startFailed l first).count = s.count := by
  cases first <;> rfl

@[simp] theorem startFailed_exit (first : Bool) : (s.startFailed l first).exit = s.exit := by
  cases first <;> rfl

@[simp] theorem startFailed_listens (first : Bool) :
    (s.startFailed l first).listens = s.listens := by
  cases first <;> rfl

@[simp] theorem startFailed_dropped (first : Bool) :
    (s.startFailed l first).dropped = s.dropped := by
  cases first <;> rfl

/-! ### The rules -/

/-- The ways a step can go. -/
inductive Rule (s : State) : Action → State → Prop where
  | listen (idle : s.busy = false) (kept : s.dropped = false) :
      Rule s .listen
        { s with
          busy := true
          listens := s.listens + 1
          listeners := update s.listeners s.listens ⟨.start true .connect, none⟩ }
  | drop (idle : s.busy = false) (kept : s.dropped = false) :
      Rule s .drop { s with dropped := true, exit := s.exit.notifyAll }
  | opened {l : Nat} {first : Bool}
      (at_connect : (s.listeners l).phase = .start first .connect) :
      Rule s (.connect l true) (s.openConn l first)
  | refused {l : Nat} {first : Bool}
      (at_connect : (s.listeners l).phase = .start first .connect) :
      Rule s (.connect l false) (s.startFailed l first)
  | spawnReader {l k : Nat} {first : Bool}
      (at_reader : (s.listeners l).phase = .start first (.reader k)) :
      Rule s (.spawn l)
        ((s.setConn k { s.conns k with reader := .spawned }).setPhase l (.start first (.writer k)))
  | spawnWriter {l k : Nat} {first : Bool}
      (at_writer : (s.listeners l).phase = .start first (.writer k)) :
      Rule s (.spawn l)
        ((s.setConn k { s.conns k with writer := .spawned }).setPhase l (.start first (.joiner k)))
  | spawnJoiner {l k : Nat} {first : Bool}
      (at_joiner : (s.listeners l).phase = .start first (.joiner k)) :
      Rule s (.spawn l)
        { (s.setConn k { s.conns k with joiner := .join }).setPhase l .loop with
          busy := if first then false else s.busy }
  | enter {l : Nat} (at_loop : (s.listeners l).phase = .loop) :
      Rule s (.poll l) (s.setPhase l (.enter s.exit.wait))
  | select {l : Nat} {w : Waiter} (at_enter : (s.listeners l).phase = .enter w) :
      Rule s (.poll l) (s.setPhase l (.select w (s.brokenOf l).wait))
  | retry {l : Nat} (at_retry : (s.listeners l).phase = .retry) :
      Rule s (.poll l) (s.setPhase l (.retrySelect s.exit.wait))
  | exit {l : Nat} {w : Waiter}
      (waits : (∃ b, (s.listeners l).phase = .select w b) ∨
        (s.listeners l).phase = .retrySelect w)
      (woken : s.exit.Woken w) : Rule s (.exit l) (s.setPhase l .ended)
  | broken {l : Nat} {w b : Waiter} (waits : (s.listeners l).phase = .select w b)
      (woken : (s.brokenOf l).Woken b) : Rule s (.broken l) (s.setPhase l (.start false .connect))
  | timeout {l : Nat} {w : Waiter} (waits : (s.listeners l).phase = .retrySelect w) :
      Rule s (.timeout l) (s.setPhase l (.start false .connect))
  | reader {k : Nat} {a : LoopAction} {d : Conn} (moves : (s.conns k).ReaderRule s.exit a d) :
      Rule s (.reader k a) (s.setConn k d)
  | writer {k : Nat} {a : LoopAction} {d : Conn}
      (moves : (s.conns k).WriterRule s.id s.exit a d) : Rule s (.writer k a) (s.setConn k d)
  | notify {k : Nat} (joins : (s.conns k).joiner = .join) (isOver : (s.conns k).Over) :
      Rule s (.notify k)
        (s.setConn k { s.conns k with joiner := .done, broken := (s.conns k).broken.notifyAll })

theorem connectStep_rule {ok : Bool} (h : s.connectStep l ok = some t) :
    Rule s (.connect l ok) t := by
  unfold connectStep at h
  split at h
  · rename_i first at_connect
    obtain rfl := Option.some.inj h
    cases ok with
    | true => exact .opened at_connect
    | false => exact .refused at_connect
  · cases h

theorem spawnStep_rule (h : s.spawnStep l = some t) : Rule s (.spawn l) t := by
  unfold spawnStep at h
  split at h
  · rename_i first k at_reader
    obtain rfl := Option.some.inj h
    exact .spawnReader at_reader
  · rename_i first k at_writer
    obtain rfl := Option.some.inj h
    exact .spawnWriter at_writer
  · rename_i first k at_joiner
    obtain rfl := Option.some.inj h
    exact .spawnJoiner at_joiner
  · cases h

theorem pollStep_rule (h : s.pollStep l = some t) : Rule s (.poll l) t := by
  unfold pollStep at h
  split at h
  · rename_i at_loop
    obtain rfl := Option.some.inj h
    exact .enter at_loop
  · rename_i w at_enter
    obtain rfl := Option.some.inj h
    exact .select at_enter
  · rename_i at_retry
    obtain rfl := Option.some.inj h
    exact .retry at_retry
  · cases h

theorem exitStep_rule (h : s.exitStep l = some t) : Rule s (.exit l) t := by
  unfold exitStep at h
  split at h
  · rename_i w b waits
    obtain ⟨woken, h⟩ := Option.ite_none_right_eq_some.mp h
    obtain rfl := Option.some.inj h
    exact .exit (.inl ⟨b, waits⟩) woken
  · rename_i w waits
    obtain ⟨woken, h⟩ := Option.ite_none_right_eq_some.mp h
    obtain rfl := Option.some.inj h
    exact .exit (.inr waits) woken
  · cases h

theorem brokenStep_rule (h : s.brokenStep l = some t) : Rule s (.broken l) t := by
  unfold brokenStep at h
  split at h
  · rename_i w b waits
    obtain ⟨woken, h⟩ := Option.ite_none_right_eq_some.mp h
    obtain rfl := Option.some.inj h
    exact .broken waits woken
  · cases h

/-- Every step goes by one of the rules. -/
theorem rule_of_step (h : s.step a = some t) : Rule s a t := by
  cases a with
  | listen =>
    obtain ⟨⟨idle, kept⟩, h⟩ := Option.ite_none_right_eq_some.mp h
    obtain rfl := Option.some.inj h
    exact .listen idle kept
  | drop =>
    obtain ⟨⟨idle, kept⟩, h⟩ := Option.ite_none_right_eq_some.mp h
    obtain rfl := Option.some.inj h
    exact .drop idle kept
  | connect l ok => exact connectStep_rule h
  | spawn l => exact spawnStep_rule h
  | poll l => exact pollStep_rule h
  | exit l => exact exitStep_rule h
  | broken l => exact brokenStep_rule h
  | timeout l =>
    unfold step at h
    dsimp only at h
    split at h
    · rename_i w waits
      obtain rfl := Option.some.inj h
      exact .timeout waits
    · cases h
  | reader k a =>
    obtain ⟨d, hd, rfl⟩ := Option.map_eq_some_iff.mp h
    exact .reader (Conn.readerRule_of_step hd)
  | writer k a =>
    obtain ⟨d, hd, rfl⟩ := Option.map_eq_some_iff.mp h
    exact .writer (Conn.writerRule_of_step hd)
  | notify k =>
    obtain ⟨⟨joins, isOver⟩, h⟩ := Option.ite_none_right_eq_some.mp h
    obtain rfl := Option.some.inj h
    exact .notify joins isOver

/-! ## Calls of `listen` and their connections -/

/-- Calls of `listen` that have not been made have done nothing. -/
def Uncalled (s : State) : Prop := ∀ l, s.listens ≤ l → s.listeners l = ⟨.absent, none⟩

theorem uncalled_step (rule : Rule s a t) (uncalled : s.Uncalled) : t.Uncalled := by
  unfold Uncalled at *
  cases rule <;>
    simp only [openConn, startFailed_listeners, startFailed_listens, setPhase, setConn,
      update_apply] <;>
    grind

/-- A connection belongs to the call of `listen` that opened it, and while it is set up the
tasks it does not have yet are absent. -/
structure Fresh (s : State) : Prop where
  current : ∀ l k, (s.listeners l).conn = some k → k < s.count ∧ (s.conns k).listener = l
  start : ∀ l first p k, (s.listeners l).phase = .start first p → p.conn = some k →
    (s.listeners l).conn = some k ∧ p.Fits (s.conns k)
  uncalled : s.Uncalled

theorem fresh_step (rule : Rule s a t) (fresh : s.Fresh) : t.Fresh := by
  obtain ⟨current, start, uncalled⟩ := fresh
  have uncalled := uncalled_step rule uncalled
  cases rule with
  | reader moves =>
    obtain ⟨listener, writer, joiner, -⟩ := moves.frame
    have live := moves.live.1
    refine ⟨current_update current listener, start_update start fun p fits => ?_, uncalled⟩
    cases p <;> simp_all [Start.Fits]
  | writer moves =>
    obtain ⟨listener, reader, joiner, -⟩ := moves.frame
    have live := moves.live.1
    refine ⟨current_update current listener, start_update start fun p fits => ?_, uncalled⟩
    cases p <;> simp_all [Start.Fits]
  | notify joins isOver =>
    refine ⟨current_update current rfl, start_update start fun p fits => ?_, uncalled⟩
    cases p <;> simp_all [Start.Fits]
  | _ =>
    refine ⟨?_, ?_, uncalled⟩
    · simp only [openConn, startFailed_listeners, startFailed_conns, startFailed_count, setPhase,
        setConn, update_apply, Conn.opened]
      grind [Start.conn]
    · simp only [openConn, startFailed_listeners, startFailed_conns, setPhase, setConn,
        update_apply, Conn.opened]
      grind [Start.conn, Start.Fits]

theorem fresh_of_run {id : String} {tr : List (State × Action)} (run : Run id tr s) : s.Fresh :=
  run.invariant ⟨by simp [init], by simp [init], by simp [Uncalled, init]⟩ fun _ _ _ fresh h =>
    fresh_step (rule_of_step h) fresh

/-- The exit is notified by the drop only. -/
theorem exit_of_run {id : String} {tr : List (State × Action)} (run : Run id tr s)
    (kept : s.dropped = false) : s.exit = .new := by
  induction run with
  | start => rfl
  | next run h ih =>
    cases rule_of_step h with
    | drop => cases kept
    | _ => simp_all

end State

/-! ## Scripts of concrete runs -/

/-- A call of `listen` whose connection goes through. -/
def listenOnce (l : Nat) : List Action :=
  [.listen, .connect l true, .spawn l, .spawn l, .spawn l]

/-- The reconnect task gets to its `select!`. -/
def enterSelect (l : Nat) : List Action := [.poll l, .poll l]

/-- Both loops get to their `select!`. -/
def startLoops (k : Nat) : List Action := [.reader k .startReader, .writer k .startWriter]

/-- A connection fails on both sides, and the end of its loops is notified. -/
def breakConn (k : Nat) : List Action :=
  [.reader k .readErr, .writer k .recv, .writer k (.write false), .notify k]

end Rndz.Tcp.ClientAsync
