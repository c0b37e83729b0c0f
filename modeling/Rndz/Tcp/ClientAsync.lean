import Mathlib.Logic.Function.Basic
import Rndz.Lib.Notify
import Rndz.Lib.SyncChannel
import Rndz.Lib.Transition
import Rndz.Net.SocketAddr
import Rndz.Proto.Message

/-!
# The async TCP client

The tasks of `tcp/client_async.rs` behind `Client::listen`: the caller's task, one reconnect
task for each call of `listen`, and for each connection to the server `read_loop`, `write_loop`
and the task that joins them. A `notified()` is a waiter from the moment it is made. A `select!`
may take any branch that is ready.

`Conn.received`, `Conn.written` and `Conn.late` are history. Reading from the server and writing
to it may succeed or fail at any time, and a timer may fire at any time; a call of `listen` that
is cancelled has failed.
-/
namespace Rndz.Tcp.ClientAsync

open Net Proto Mpsc Notification
open Function (update)

/-! ## The loops of a connection -/

/-- Where `read_loop` stands. In `punch` an `Fsync` is being handled inside the `select!`. -/
inductive Reader where
  | absent
  | spawned
  | select (exit : Waiter)
  | punch (exit : Waiter) (req : ReqCmd)
  | send (req : ReqCmd)
  | ended
  deriving DecidableEq, Repr

/-- Where `write_loop` stands. -/
inductive Writer where
  | absent
  | spawned
  | select (exit : Waiter)
  | write (req : ReqCmd)
  | ended
  deriving DecidableEq, Repr

/-- Where the task that joins the loops stands. -/
inductive Joiner where
  | absent
  | join
  | done
  deriving DecidableEq, Repr

/-- A connection to the server, opened for the given call of `listen`; `late` if the client had
been dropped by then. -/
structure Conn where
  listener : Nat
  reader : Reader
  writer : Writer
  joiner : Joiner
  broken : Notify
  chan : SyncChannel 10 ReqCmd
  received : List Response
  written : List Request
  late : Bool

/-- What a loop may do next. `start` is its first poll, `exit` the branch of its `select!` that
breaks. -/
inductive LoopAction where
  | startReader
  | exitReader
  | read (resp : Response)
  | readErr
  | punched
  | send
  | startWriter
  | exitWriter
  | recv
  | timeout
  | write (ok : Bool)
  deriving DecidableEq, Repr

namespace Conn

theorem ping_fits : [ReqCmd.ping].length ≤ 10 := Nat.le_of_ble_eq_true rfl

/-- A connection as `start_background` makes it, before the tasks are spawned. -/
def opened (listener : Nat) (late : Bool) : Conn where
  listener := listener
  reader := .absent
  writer := .absent
  joiner := .absent
  broken := .new
  chan := ⟨[.ping], true, true, ping_fits⟩
  received := []
  written := []
  late := late

/-- Both loops have ended. -/
def Over (c : Conn) : Prop := c.reader = .ended ∧ c.writer = .ended

instance (c : Conn) : Decidable c.Over := inferInstanceAs (Decidable (_ ∧ _))

@[simp] def endReader (c : Conn) : Conn :=
  { c with reader := .ended, chan := c.chan.dropSender }

@[simp] def endWriter (c : Conn) : Conn :=
  { c with writer := .ended, chan := c.chan.dropReceiver }

/-- `handle_resp` on a response, up to its attempt to connect, and the loop after it. -/
def handleResp (exit : Notify) (w : Waiter) (c : Conn) (resp : Response) : Conn :=
  match resp.cmd with
  | some (.fsync fsync) =>
    match SocketAddr.parse fsync.addr with
    | some _ => { c with reader := .punch w (.rsync { id := fsync.id }) }
    | none => c.endReader
  | _ => { c with reader := .select exit.wait }

def stepReader (exit : Notify) (c : Conn) : LoopAction → Option Conn
  | .startReader =>
    if c.reader = .spawned then some { c with reader := .select exit.wait } else none
  | .exitReader =>
    match c.reader with
    | .select w | .punch w _ => if exit.Woken w then some c.endReader else none
    | _ => none
  | .read resp =>
    match c.reader with
    | .select w => some { c.handleResp exit w resp with received := c.received ++ [resp] }
    | _ => none
  | .readErr =>
    match c.reader with
    | .select _ => some c.endReader
    | _ => none
  | .punched =>
    match c.reader with
    | .punch _ req => some { c with reader := .send req }
    | _ => none
  | .send =>
    match c.reader with
    | .send req =>
      if c.chan.receiver then
        (c.chan.push req).map fun chan => { c with reader := .select exit.wait, chan := chan }
      else some c.endReader
    | _ => none
  | _ => none

def stepWriter (id : String) (exit : Notify) (c : Conn) : LoopAction → Option Conn
  | .startWriter =>
    if c.writer = .spawned then some { c with writer := .select exit.wait } else none
  | .exitWriter =>
    match c.writer with
    | .select w => if exit.Woken w then some c.endWriter else none
    | _ => none
  | .recv =>
    match c.writer with
    | .select _ =>
      match c.chan.pop with
      | some (req, chan) => some { c with writer := .write req, chan := chan }
      | none => if c.chan.sender then none else some c.endWriter
    | _ => none
  | .timeout =>
    match c.writer with
    | .select _ => some { c with writer := .write .ping }
    | _ => none
  | .write ok =>
    match c.writer with
    | .write req =>
      if ok then
        some { c with writer := .select exit.wait, written := c.written ++ [⟨id, some req⟩] }
      else some c.endWriter
    | _ => none
  | _ => none

end Conn

/-! ## The client -/

/-- The points of `start_background`: before the connection to the server is made, and before
each of the three tasks is spawned. -/
inductive Start where
  | connect
  | reader (k : Nat)
  | writer (k : Nat)
  | joiner (k : Nat)
  deriving DecidableEq, Repr

/-- Where a reconnect task stands. Its call of `listen` makes the first connection itself,
before it spawns the task. At `loop` the task is about to enter its `select!`, at `enter` it has
made the first of the two waiters there. -/
inductive Phase where
  | absent
  | start (first : Bool) (point : Start)
  | loop
  | enter (exit : Waiter)
  | select (exit broken : Waiter)
  | retry
  | retrySelect (exit : Waiter)
  | ended
  deriving DecidableEq, Repr

/-- A call of `listen`, with the connection it has opened last. -/
structure Listener where
  phase : Phase
  conn : Option Nat
  deriving DecidableEq, Repr

structure State where
  id : String
  dropped : Bool
  exit : Notify
  busy : Bool
  count : Nat
  conns : Nat → Conn
  listens : Nat
  listeners : Nat → Listener

/-- What may happen next. `spawn`, `poll`, `exit`, `broken` and `timeout` are steps of a
reconnect task. -/
inductive Action where
  | listen
  | drop
  | connect (l : Nat) (ok : Bool)
  | spawn (l : Nat)
  | poll (l : Nat)
  | exit (l : Nat)
  | broken (l : Nat)
  | timeout (l : Nat)
  | reader (k : Nat) (a : LoopAction)
  | writer (k : Nat) (a : LoopAction)
  | notify (k : Nat)
  deriving DecidableEq, Repr

namespace State

def init (id : String) : State where
  id := id
  dropped := false
  exit := .new
  busy := false
  count := 0
  conns _ := .opened 0 false
  listens := 0
  listeners _ := ⟨.absent, none⟩

@[simp] def setConn (s : State) (k : Nat) (c : Conn) : State :=
  { s with conns := update s.conns k c }

@[simp] def setPhase (s : State) (l : Nat) (phase : Phase) : State :=
  { s with listeners := update s.listeners l { s.listeners l with phase := phase } }

/-- `start_background` returns an error: `listen` returns it, a reconnect task goes on to
wait. -/
def startFailed (s : State) (l : Nat) (first : Bool) : State :=
  if first then { s.setPhase l .ended with busy := false } else s.setPhase l .retry

/-- `connect_server`, the channel and its first message. -/
@[simp] def openConn (s : State) (l : Nat) (first : Bool) : State :=
  { s.setConn s.count (.opened l s.dropped) with
    count := s.count + 1
    listeners := update s.listeners l ⟨.start first (.reader s.count), some s.count⟩ }

def connectStep (s : State) (l : Nat) (ok : Bool) : Option State :=
  match (s.listeners l).phase with
  | .start first .connect => some (if ok then s.openConn l first else s.startFailed l first)
  | _ => none

def spawnStep (s : State) (l : Nat) : Option State :=
  match (s.listeners l).phase with
  | .start first (.reader k) =>
    some ((s.setConn k { s.conns k with reader := .spawned }).setPhase l (.start first (.writer k)))
  | .start first (.writer k) =>
    some ((s.setConn k { s.conns k with writer := .spawned }).setPhase l (.start first (.joiner k)))
  | .start first (.joiner k) =>
    some { (s.setConn k { s.conns k with joiner := .join }).setPhase l .loop with
      busy := if first then false else s.busy }
  | _ => none

/-- The broken signal that the reconnect task of `l` holds. -/
def brokenOf (s : State) (l : Nat) : Notify :=
  match (s.listeners l).conn with
  | some k => (s.conns k).broken
  | none => .new

def pollStep (s : State) (l : Nat) : Option State :=
  match (s.listeners l).phase with
  | .loop => some (s.setPhase l (.enter s.exit.wait))
  | .enter w => some (s.setPhase l (.select w (s.brokenOf l).wait))
  | .retry => some (s.setPhase l (.retrySelect s.exit.wait))
  | _ => none

def exitStep (s : State) (l : Nat) : Option State :=
  match (s.listeners l).phase with
  | .select w _ | .retrySelect w => if s.exit.Woken w then some (s.setPhase l .ended) else none
  | _ => none

def brokenStep (s : State) (l : Nat) : Option State :=
  match (s.listeners l).phase with
  | .select _ b =>
    if (s.brokenOf l).Woken b then some (s.setPhase l (.start false .connect)) else none
  | _ => none

/-- The two loops have been joined. -/
def notifyStep (s : State) (k : Nat) : Option State :=
  if (s.conns k).joiner = .join ∧ (s.conns k).Over then
    some (s.setConn k
      { s.conns k with joiner := .done, broken := (s.conns k).broken.notifyAll })
  else none

def step (s : State) : Action → Option State
  | .listen =>
    if s.busy = false ∧ s.dropped = false then
      some
        { s with
          busy := true
          listens := s.listens + 1
          listeners := update s.listeners s.listens ⟨.start true .connect, none⟩ }
    else none
  | .drop =>
    if s.busy = false ∧ s.dropped = false then
      some { s with dropped := true, exit := s.exit.notifyAll }
    else none
  | .connect l ok => s.connectStep l ok
  | .spawn l => s.spawnStep l
  | .poll l => s.pollStep l
  | .exit l => s.exitStep l
  | .broken l => s.brokenStep l
  | .timeout l =>
    match (s.listeners l).phase with
    | .retrySelect _ => some (s.setPhase l (.start false .connect))
    | _ => none
  | .reader k a => ((s.conns k).stepReader s.exit a).map (s.setConn k)
  | .writer k a => ((s.conns k).stepWriter s.id s.exit a).map (s.setConn k)
  | .notify k => s.notifyStep k

end State

/-- The runs of an async client. -/
abbrev Run (id : String) := Transition.Run State.step (State.init id)

end Rndz.Tcp.ClientAsync
