import Mathlib.Logic.Function.Basic
import Rndz.Lib.Notify
import Rndz.Lib.SyncChannel
import Rndz.Lib.Transition
import Rndz.Net.SocketAddr
import Rndz.Proto.Message

/-!
# The blocking TCP client

The threads of `tcp/client.rs` behind `Client::listen`: the user's thread, one reconnect thread
for each call of `listen`, and for each connection to the server `write_loop`, `read_loop`,
the monitor that joins them and the watcher that shuts the socket down. The critical sections on
`signal` are single steps. A wait on the condition variable ends because of a notification
given since it began, or for no reason; the mutex is poisoned by a panic inside a section.

`Conn.received` and `Conn.written` are history. Reading from the server and writing to it may
succeed or fail at any time; what the two loops do with the socket otherwise, and the
connection attempt on an `Fsync`, whose result is ignored, is left out.
-/
namespace Rndz.Tcp.Client

open Net Proto Mpsc Notification
open Function (update)

/-! ## The loops of a connection -/

/-- Where `read_loop` stands. -/
inductive Reader where
  | absent
  | read
  | send (req : ReqCmd)
  | ended
  | panicked
  deriving DecidableEq, Repr

/-- Where `write_loop` stands. -/
inductive Writer where
  | absent
  | recv
  | write (req : ReqCmd)
  | ended
  deriving DecidableEq, Repr

/-- Where the monitor of the two loops stands. -/
inductive Monitor where
  | absent
  | joinWriter
  | joinReader
  | report
  | done
  | panicked
  deriving DecidableEq, Repr

/-- Where the thread that waits for `exit` stands. -/
inductive Watcher where
  | absent
  | start
  | wait (w : Waiter)
  | done
  | panicked
  deriving DecidableEq, Repr

/-- A connection to the server, opened for the given call of `listen`. -/
structure Conn where
  listener : Nat
  shut : Bool
  reader : Reader
  writer : Writer
  monitor : Monitor
  watcher : Watcher
  chan : SyncChannel 10 ReqCmd
  received : List Response
  written : List Request

/-- What a loop, or the monitor before its report, may do next. -/
inductive LoopAction where
  | read (resp : Response)
  | readErr
  | send
  | recv
  | timeout
  | write (ok : Bool)
  | join
  deriving DecidableEq, Repr

namespace Conn

/-- A connection as `start_background` makes it, before the threads are spawned. -/
def opened (listener : Nat) : Conn where
  listener := listener
  shut := false
  reader := .absent
  writer := .absent
  monitor := .absent
  watcher := .absent
  chan := ⟨[.ping], true, true, Nat.le_of_ble_eq_true rfl⟩
  received := []
  written := []

/-- Both loops are over. -/
def Over (c : Conn) : Prop := (c.reader = .ended ∨ c.reader = .panicked) ∧ c.writer = .ended

instance (c : Conn) : Decidable c.Over := inferInstanceAs (Decidable (_ ∧ _))

@[simp] def panicReader (c : Conn) : Conn :=
  { c with reader := .panicked, chan := c.chan.dropSender }

@[simp] def endWriter (c : Conn) : Conn :=
  { c with writer := .ended, chan := c.chan.dropReceiver }

/-- The body of `read_loop` up to the send. Its error is unwrapped by its thread. -/
def handleResp (c : Conn) (resp : Response) : Conn :=
  match resp.cmd with
  | some (.fsync fsync) =>
    match SocketAddr.parse fsync.addr with
    | some _ => { c with reader := .send (.rsync { id := fsync.id }) }
    | none => c.panicReader
  | _ => c

def step (id : String) (c : Conn) : LoopAction → Option Conn
  | .read resp =>
    if c.reader = .read then
      some { c.handleResp resp with received := c.received ++ [resp] }
    else none
  | .readErr =>
    if c.reader = .read then
      some { c with reader := .ended, chan := c.chan.dropSender }
    else none
  | .send =>
    match c.reader with
    | .send req =>
      if c.chan.receiver then
        (c.chan.push req).map fun chan => { c with reader := .read, chan := chan }
      else some c.panicReader
    | _ => none
  | .recv =>
    if c.writer = .recv then
      match c.chan.pop with
      | some (req, chan) => some { c with writer := .write req, chan := chan }
      | none => if c.chan.sender then none else some c.endWriter
    else none
  | .timeout =>
    if c.writer = .recv ∧ c.chan.items = [] ∧ c.chan.sender then
      some { c with writer := .write .ping }
    else none
  | .write ok =>
    match c.writer with
    | .write req =>
      if ok then
        some { c with writer := .recv, written := c.written ++ [⟨id, some req⟩] }
      else some c.endWriter
    | _ => none
  | .join =>
    match c.monitor with
    | .joinWriter => if c.writer = .ended then some { c with monitor := .joinReader } else none
    | .joinReader =>
      match c.reader with
      | .ended => some { c with monitor := .report }
      | .panicked => some { c with monitor := .panicked }
      | _ => none
    | _ => none

end Conn

/-! ## The client -/

/-- The points of `start_background`: before the connection to the server is made, and before
each of the four threads is spawned. -/
inductive Start where
  | connect
  | writer (k : Nat)
  | reader (k : Nat)
  | monitor (k : Nat)
  | watcher (k : Nat)
  deriving DecidableEq, Repr

/-- Where a reconnect thread stands. Its call of `listen` makes the first connection itself,
before it spawns the thread. -/
inductive Phase where
  | absent
  | start (first : Bool) (point : Start)
  | outer
  | outerWait (w : Waiter)
  | retry
  | retryWait (w : Waiter)
  | returned
  | panicked
  deriving DecidableEq, Repr

/-- A call of `listen`, with the connection it has opened last. -/
structure Listener where
  phase : Phase
  conn : Option Nat
  deriving DecidableEq, Repr

/-- `signal`, with the poison flag of its mutex; the call of `listen` that is under way, if
any, and whether a call of `shutdown` has panicked; the connections and the calls of
`listen`. -/
structure State where
  id : String
  exit : Bool
  broken : Bool
  poisoned : Bool
  cvar : Notify
  busy : Bool
  userPanicked : Bool
  count : Nat
  conns : Nat → Conn
  listens : Nat
  listeners : Nat → Listener

/-- What may happen next. `lock` is the next critical section of a reconnect thread, `wake` the
end of its wait without a notification, which may be its timeout; likewise for a watcher. -/
inductive Action where
  | listen
  | shutdown
  | connect (l : Nat) (ok : Bool)
  | clone (l : Nat) (ok : Bool)
  | spawn (l : Nat)
  | lock (l : Nat)
  | wake (l : Nat)
  | loop (k : Nat) (a : LoopAction)
  | report (k : Nat)
  | watch (k : Nat)
  | wakeWatcher (k : Nat)
  deriving DecidableEq, Repr

namespace State

def init (id : String) : State where
  id := id
  exit := false
  broken := false
  poisoned := false
  cvar := .new
  busy := false
  userPanicked := false
  count := 0
  conns _ := .opened 0
  listens := 0
  listeners _ := ⟨.absent, none⟩

@[simp] def setConn (s : State) (k : Nat) (c : Conn) : State :=
  { s with conns := update s.conns k c }

@[simp] def setListener (s : State) (l : Nat) (x : Listener) : State :=
  { s with listeners := update s.listeners l x }

@[simp] def setPhase (s : State) (l : Nat) (phase : Phase) : State :=
  s.setListener l { s.listeners l with phase := phase }

/-- `start_background` returns an error: `listen` returns it, a reconnect thread goes on to
wait. -/
def startFailed (s : State) (l : Nat) (first : Bool) : State :=
  if first then { s.setPhase l .returned with busy := false } else s.setPhase l .retry

/-- A reconnect thread's wait at the top of its loop is over. -/
def resume (s : State) (l : Nat) : State :=
  if s.poisoned then s.setPhase l .panicked
  else if s.exit then s.setPhase l .returned
  else if s.broken then { s.setPhase l (.start false .connect) with broken := false }
  else { s.setPhase l .panicked with poisoned := true }

/-- Its wait before the next attempt is over. -/
def resumeRetry (s : State) (l : Nat) : State :=
  if s.poisoned then s.setPhase l .panicked
  else if s.exit then s.setPhase l .returned
  else s.setPhase l (.start false .connect)

/-- A watcher's wait is over. -/
def resumeWatcher (s : State) (k : Nat) : State :=
  if s.poisoned then s.setConn k { s.conns k with watcher := .panicked }
  else if s.exit then s.setConn k { s.conns k with watcher := .done, shut := true }
  else s.setConn k { s.conns k with watcher := .done }

/-- `connect_server`, the channel and its first message. -/
@[simp] def openConn (s : State) (l : Nat) (first : Bool) : State :=
  { s.setConn s.count (.opened l) with
    count := s.count + 1
    listeners := update s.listeners l ⟨.start first (.writer s.count), some s.count⟩ }

def connectStep (s : State) (l : Nat) (ok : Bool) : Option State :=
  match (s.listeners l).phase with
  | .start first .connect => some (if ok then s.openConn l first else s.startFailed l first)
  | _ => none

/-- `try_clone` and the spawning of a loop. -/
def cloneStep (s : State) (l : Nat) (ok : Bool) : Option State :=
  match (s.listeners l).phase with
  | .start first (.writer k) =>
    if ok then
      some ((s.setConn k { s.conns k with writer := .recv }).setPhase l (.start first (.reader k)))
    else some (s.startFailed l first)
  | .start first (.reader k) =>
    if ok then
      some ((s.setConn k { s.conns k with reader := .read }).setPhase l (.start first (.monitor k)))
    else
      -- the writer is left behind with a channel that nobody sends on
      let c := { s.conns k with chan := (s.conns k).chan.dropSender }
      some ((s.setConn k c).startFailed l first)
  | _ => none

def spawnStep (s : State) (l : Nat) : Option State :=
  match (s.listeners l).phase with
  | .start first (.monitor k) =>
    some ((s.setConn k { s.conns k with monitor := .joinWriter }).setPhase l
      (.start first (.watcher k)))
  | .start first (.watcher k) =>
    some { (s.setConn k { s.conns k with watcher := .start }).setPhase l .outer with
      busy := if first then false else s.busy }
  | _ => none

def lockStep (s : State) (l : Nat) : Option State :=
  match (s.listeners l).phase with
  | .outer =>
    some (s.setPhase l
      (if s.poisoned then .panicked else if s.exit then .returned else .outerWait s.cvar.wait))
  | .outerWait w => if s.cvar.Woken w then some (s.resume l) else none
  | .retry =>
    some (s.setPhase l
      (if s.poisoned then .panicked else if s.exit then .returned else .retryWait s.cvar.wait))
  | .retryWait w => if s.cvar.Woken w then some (s.resumeRetry l) else none
  | _ => none

def wakeStep (s : State) (l : Nat) : Option State :=
  match (s.listeners l).phase with
  | .outerWait _ => some (s.resume l)
  | .retryWait _ => some (s.resumeRetry l)
  | _ => none

/-- The report of the monitor. -/
def reportStep (s : State) (k : Nat) : Option State :=
  if (s.conns k).monitor = .report then
    if s.poisoned then some (s.setConn k { s.conns k with monitor := .panicked })
    else
      some
        { s.setConn k { s.conns k with monitor := .done } with
          broken := true
          cvar := s.cvar.notifyAll }
  else none

def watchStep (s : State) (k : Nat) : Option State :=
  match (s.conns k).watcher with
  | .start =>
    if s.poisoned ∨ s.exit then some (s.resumeWatcher k)
    else some (s.setConn k { s.conns k with watcher := .wait s.cvar.wait })
  | .wait w => if s.cvar.Woken w then some (s.resumeWatcher k) else none
  | _ => none

def step (s : State) : Action → Option State
  | .listen =>
    if s.busy = false ∧ s.userPanicked = false then
      some
        { s with
          busy := true
          listens := s.listens + 1
          listeners := update s.listeners s.listens ⟨.start true .connect, none⟩ }
    else none
  | .shutdown =>
    if s.busy = false ∧ s.userPanicked = false then
      if s.poisoned then some { s with userPanicked := true }
      else some { s with exit := true, cvar := s.cvar.notifyAll }
    else none
  | .connect l ok => s.connectStep l ok
  | .clone l ok => s.cloneStep l ok
  | .spawn l => s.spawnStep l
  | .lock l => s.lockStep l
  | .wake l => s.wakeStep l
  | .loop k a => ((s.conns k).step s.id a).map (s.setConn k)
  | .report k => s.reportStep k
  | .watch k => s.watchStep k
  | .wakeWatcher k =>
    match (s.conns k).watcher with
    | .wait _ => some (s.resumeWatcher k)
    | _ => none

end State

/-- The runs of a client. -/
abbrev Run (id : String) := Transition.Run State.step (State.init id)

end Rndz.Tcp.Client
