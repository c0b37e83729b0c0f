import Mathlib.Logic.Function.Basic
import Rndz.Lib.Mpsc
import Rndz.Lib.Transition
import Rndz.Net.SocketAddr
import Rndz.Proto.Message

/-!
# The TCP rendezvous server

`tcp/server.rs` as a transition system. Every accepted connection is one task that runs
`read_reqs` and `handle_cmds` under one `select!`; a step of the system runs one of these
from one shared access to the next, so steps of different connections interleave at every
lock, channel operation and socket operation. The two futures of a connection share its
task, so one runs, and may be cancelled, only while the other awaits.

A connection is known by the number `next_id` gave it; the sender half `req_tx` of a
request channel is known by the connection that created the channel. `last_ping` is written
by this server but never read, and is left out. `Item.origin`, `Item.hops`, `Conn.frames`
and `State.log` are history: the steps fill them in and never look at them.
-/
namespace Rndz.Tcp

open Net Proto Mpsc Transition

/-! ## Registry -/

structure PeerState where
  id : Nat
  reqTx : Nat
  addr : SocketAddr
  deriving DecidableEq, Repr

/-- `Arc<Mutex<HashMap<String, PeerState>>>`, with the poison flag of the mutex. -/
structure PeerMap where
  entries : String → Option PeerState
  poisoned : Bool

namespace PeerMap

def empty : PeerMap := ⟨fun _ => none, false⟩

def get (m : PeerMap) (id : String) : Option PeerState := m.entries id

def insert (m : PeerMap) (id : String) (p : PeerState) : PeerMap :=
  { m with entries := Function.update m.entries id (some p) }

def remove (m : PeerMap) (id : String) : PeerMap :=
  { m with entries := Function.update m.entries id none }

def poison (m : PeerMap) : PeerMap := { m with poisoned := true }

@[simp] theorem get_empty (id : String) : empty.get id = none := rfl

@[simp] theorem poisoned_empty : empty.poisoned = false := rfl

@[simp] theorem get_insert (m : PeerMap) (id k : String) (p : PeerState) :
    (m.insert id p).get k = if k = id then some p else m.get k := by
  simp [get, insert, Function.update_apply]

@[simp] theorem get_remove (m : PeerMap) (id k : String) :
    (m.remove id).get k = if k = id then none else m.get k := by
  simp [get, remove, Function.update_apply]

@[simp] theorem get_poison (m : PeerMap) (k : String) : m.poison.get k = m.get k := rfl

@[simp] theorem insert_remove (m : PeerMap) (id : String) (p : PeerState) :
    (m.remove id).insert id p = m.insert id p := by
  simp [insert, remove]

theorem remove_eq_self {m : PeerMap} {id : String} (h : m.get id = none) : m.remove id = m := by
  unfold remove
  rw [← h]
  simp [get]

@[simp] theorem poisoned_insert (m : PeerMap) (id : String) (p : PeerState) :
    (m.insert id p).poisoned = m.poisoned := rfl

@[simp] theorem poisoned_remove (m : PeerMap) (id : String) :
    (m.remove id).poisoned = m.poisoned := rfl

@[simp] theorem poisoned_poison (m : PeerMap) : m.poison.poisoned = true := rfl

end PeerMap

/-! ## Tasks -/

/-- A request on its way through the server. `origin` is the connection whose client sent
the frame it stems from and that frame's number there, `hops` the number of times a
handler has forwarded it. -/
structure Item where
  req : Request
  origin : Option (Nat × Nat)
  hops : Nat
  deriving DecidableEq, Repr

/-- What `read_reqs` queues when it cannot read a request. -/
def Item.bye : Item := ⟨⟨"", some .bye⟩, none, 0⟩

/-- The senders on request channels. -/
inductive Task where
  | reader (c : Nat)
  | handler (c : Nat)
  deriving DecidableEq, Repr

abbrev Queue := Channel 10 Task Item

/-- Where `read_reqs` stands. With `last` the request is the `Bye` after which it returns. -/
inductive Reader where
  | read
  | send (it : Item) (last : Bool)
  | sending (it : Item) (last : Bool)
  | done
  deriving DecidableEq, Repr

/-- Where `handle_cmds` stands: at `recv`, with a request in hand, before or inside the
`send` of `it` to the queue of connection `dst`, before `insert_peerstate` at the end of
`handle_isync`, or inside `send_response`. A send for `handle_isync` goes on to register
the source `src`, one for `handle_rsync` has none. -/
inductive Handler where
  | recv
  | handle (it : Item)
  | send (dst : Nat) (it : Item) (src : Option String)
  | sending (dst : Nat) (it : Item) (src : Option String)
  | insert (src : String)
  | write (cmd : RespCmd)
  | stopped
  deriving DecidableEq, Repr

/-- The points at which `read_reqs` awaits. -/
def Reader.Awaits : Reader → Bool
  | .read | .sending _ _ => true
  | _ => false

/-- The points at which `handle_cmds` awaits. -/
def Handler.Awaits : Handler → Bool
  | .recv | .sending _ _ _ | .write _ => true
  | _ => false

/-- The connection whose queue a reader awaits a slot of: its own. -/
def Reader.awaited (c : Nat) : Reader → Option Nat
  | .sending _ _ => some c
  | _ => none

/-- The connection whose queue a handler awaits a slot of. -/
def Handler.awaited : Handler → Option Nat
  | .sending dst _ _ => some dst
  | _ => none

/-- The life of `handle_stream`: inside `select!`, past it, past the clean-up of the
registry, and over, with the `PeerHandler` dropped. -/
inductive Status where
  | absent
  | running
  | leaving
  | cleaned
  | ended
  deriving DecidableEq, Repr

/-! ## State -/

/-- What happens at the connections: a client sends a frame, a handler enters the locked
region of `insert_peerstate(id)`, puts a request it forwards into the queue of `dst`,
writes a response frame. -/
inductive Event where
  | sent (c : Nat) (req : Request)
  | inserted (c : Nat) (id : String)
  | placed (c : Nat) (it : Item) (dst : Nat)
  | wrote (c : Nat) (cmd : RespCmd)
  deriving DecidableEq, Repr

/-- The server: its counter and registry, and for each connection its socket, the fields of
its `PeerHandler`, the two futures and the frames its client has sent but the server has
not read. -/
structure State where
  count : Nat
  peers : PeerMap
  log : List Event
  status : Nat → Status
  addr : Nat → SocketAddr
  sockOk : Nat → Bool
  peerId : Nat → String
  reader : Nat → Reader
  handler : Nat → Handler
  queue : Nat → Queue
  inbox : Nat → List Request
  frames : Nat → Nat

open Function (update)

namespace State

def init : State where
  count := 0
  peers := .empty
  log := []
  status _ := .absent
  addr _ := .unspecified
  sockOk _ := true
  peerId _ := ""
  reader _ := .read
  handler _ := .recv
  queue _ := .empty
  inbox _ := []
  frames _ := 0

/-- `peer_addr()` fails once the socket has failed. -/
def peerAddr (s : State) (c : Nat) : Option SocketAddr :=
  if s.sockOk c then some (s.addr c) else none

/-- `read_reqs` may run on. -/
def ReaderRuns (s : State) (c : Nat) : Prop := s.status c = .running ∧ (s.handler c).Awaits

/-- `handle_cmds` may run on. -/
def HandlerRuns (s : State) (c : Nat) : Prop := s.status c = .running ∧ (s.reader c).Awaits

/-- The handler's clean-up of the registry is over, or its task has panicked. -/
def Ended (s : State) (c : Nat) : Prop := s.status c = .cleaned ∨ s.status c = .ended

/-- The registry's entry for `id` was made by connection `c`. -/
def Owns (s : State) (c : Nat) (id : String) : Prop :=
  (s.peers.get id).map PeerState.id = some c

instance (s : State) (c : Nat) : Decidable (s.ReaderRuns c) :=
  inferInstanceAs (Decidable (_ ∧ _))
instance (s : State) (c : Nat) : Decidable (s.HandlerRuns c) :=
  inferInstanceAs (Decidable (_ ∧ _))
instance (s : State) (c : Nat) : Decidable (s.Ended c) := inferInstanceAs (Decidable (_ ∨ _))
instance (s : State) (c : Nat) (id : String) : Decidable (s.Owns c id) :=
  inferInstanceAs (Decidable (_ = _))

theorem owns_iff {s : State} {c : Nat} {id : String} :
    s.Owns c id ↔ ∃ p, s.peers.get id = some p ∧ p.id = c := Option.map_eq_some_iff

@[simp] def record (s : State) (e : Event) : State := { s with log := s.log ++ [e] }

@[simp] def setPeers (s : State) (m : PeerMap) : State := { s with peers := m }

@[simp] def setPeerId (s : State) (c : Nat) (id : String) : State :=
  { s with peerId := update s.peerId c id }

@[simp] def setStatus (s : State) (c : Nat) (st : Status) : State :=
  { s with status := update s.status c st }

@[simp] def setReader (s : State) (c : Nat) (r : Reader) : State :=
  { s with reader := update s.reader c r }

@[simp] def setHandler (s : State) (c : Nat) (h : Handler) : State :=
  { s with handler := update s.handler c h }

@[simp] def setQueue (s : State) (c : Nat) (q : Queue) : State :=
  { s with queue := update s.queue c q }

/-- A task is dropped while it awaits a slot of the queue of `dst`, if it does: it gives its
place in line, or the slot, back. -/
def withdraw (queue : Nat → Queue) (t : Task) : Option Nat → Nat → Queue
  | some dst => update queue dst ((queue dst).cancel t)
  | none => queue

@[simp] def dropHandleCmds (s : State) (c : Nat) : State :=
  { s with
    queue := withdraw s.queue (.handler c) (s.handler c).awaited
    handler := update s.handler c .stopped }

@[simp] def dropReadReqs (s : State) (c : Nat) : State :=
  { s with
    queue := withdraw s.queue (.reader c) ((s.reader c).awaited c)
    reader := update s.reader c .done }

/-- Both futures of a connection are dropped. -/
@[simp] def dropFutures (s : State) (c : Nat) : State := (s.dropHandleCmds c).dropReadReqs c

/-- `select!` is over. -/
@[simp] def leave (s : State) (c : Nat) : State := (s.dropFutures c).setStatus c .leaving

/-- The `PeerHandler` is dropped, and with it the receiver of its queue. -/
@[simp] def dropHandler (s : State) (c : Nat) : State :=
  (s.setQueue c (s.queue c).close).setStatus c .ended

/-- The task of `c` unwinds; a lock that it holds has to be poisoned by the caller. -/
@[simp] def panic (s : State) (c : Nat) : State := (s.dropFutures c).dropHandler c

/-- `next_id` and the body of `Server::run`'s loop. -/
@[simp] def accept (s : State) (addr : SocketAddr) : State :=
  let id := s.count + 1
  { s with
    count := id
    status := update s.status id .running
    addr := update s.addr id addr
    sockOk := update s.sockOk id true
    peerId := update s.peerId id ""
    reader := update s.reader id .read
    handler := update s.handler id .recv
    queue := update s.queue id .empty
    inbox := update s.inbox id []
    frames := update s.frames id 0 }

/-! ## The functions of `PeerHandler` -/

/-- `insert_peerstate(id)`, after which the handler goes on at `next`. -/
def insertPeerstate (s : State) (c : Nat) (id : String) (next : Handler) : State :=
  let s := s.setPeerId c id
  if s.peers.poisoned then
    s.panic c
  else
    let s := s.record (.inserted c id)
    match s.peers.get id with
    | some p =>
      if p.id = c then
        s.setHandler c next
      else
        -- the entry of another connection is removed before `peer_addr` may panic
        match s.peerAddr c with
        | some addr => (s.setPeers ((s.peers.remove id).insert id ⟨c, c, addr⟩)).setHandler c next
        | none => (s.setPeers (s.peers.remove id).poison).panic c
    | none =>
      match s.peerAddr c with
      | some addr => (s.setPeers (s.peers.insert id ⟨c, c, addr⟩)).setHandler c next
      | none => (s.setPeers s.peers.poison).panic c

def handlePing (s : State) (c : Nat) (src : String) : State :=
  s.insertPeerstate c src (.write .pong)

/-- `handle_isync` up to the send. -/
def handleIsync (s : State) (c : Nat) (it : Item) (isync : Isync) : State :=
  if s.peers.poisoned then
    s.panic c
  else
    match s.peers.get isync.id with
    | some peer =>
      match s.peerAddr c with
      | some addr =>
        let fsync : Fsync := { id := it.req.id, addr := addr.toString }
        s.setHandler c (.send peer.reqTx ⟨⟨"", some (.fsync fsync)⟩, it.origin, it.hops + 1⟩
          (some it.req.id))
      | none => s.panic c
    | none => s.setHandler c (.write (.redirect ⟨isync.id, ""⟩))

def handleFsync (s : State) (c : Nat) (fsync : Fsync) : State :=
  s.setHandler c (.write (.fsync fsync))

/-- `handle_rsync` up to the send. -/
def handleRsync (s : State) (c : Nat) (it : Item) (rsync : Rsync) : State :=
  if s.peers.poisoned then
    s.panic c
  else if rsync.id = s.peerId c then
    match s.peers.get it.req.id with
    | some peer => s.setHandler c (.write (.redirect ⟨it.req.id, peer.addr.toString⟩))
    | none => s.setHandler c .recv
  else
    match s.peers.get rsync.id with
    | some peer =>
      s.setHandler c (.send peer.reqTx ⟨⟨it.req.id, some (.rsync rsync)⟩, it.origin, it.hops + 1⟩
        none)
    | none => s.setHandler c .recv

/-- The `match` of `handle_cmds` on a request it has received. -/
def handleCmd (s : State) (c : Nat) (it : Item) : State :=
  match it.req.cmd with
  | some .ping => s.handlePing c it.req.id
  | some (.isync isync) => s.handleIsync c it isync
  | some (.fsync fsync) => s.handleFsync c fsync
  | some (.rsync rsync) => s.handleRsync c it rsync
  | some .bye => s.leave c
  | none => s.leave c

/-- Where a handler goes on after its send, whose result it ignores. -/
def afterSend : Option String → Handler
  | some src => .insert src
  | none => .recv

/-- The next step of `handle_cmds`. -/
def handlerStep (s : State) (c : Nat) : Option State :=
  match s.handler c with
  | .recv =>
    (s.queue c).recv.map fun (it, q) => (s.setQueue c q).setHandler c (.handle it)
  | .handle it => some (s.handleCmd c it)
  | .send dst it src =>
    if (s.queue dst).closed then
      some (s.setHandler c (afterSend src))
    else
      some ((s.setQueue dst ((s.queue dst).acquire (.handler c))).setHandler c
        (.sending dst it src))
  | .sending dst it src =>
    if (s.queue dst).closed then
      some (s.setHandler c (afterSend src))
    else
      ((s.queue dst).push (.handler c) it).map fun q =>
        ((s.setQueue dst q).setHandler c (afterSend src)).record (.placed c it dst)
  | .insert src => some (s.insertPeerstate c src .recv)
  | .write cmd => some ((s.setHandler c .recv).record (.wrote c cmd))
  | .stopped => none

/-- The next step of a send of `read_reqs` to its own queue. -/
def readerStep (s : State) (c : Nat) : Option State :=
  match s.reader c with
  | .send it last =>
    if (s.queue c).closed then
      some (s.setReader c .done)
    else
      some ((s.setQueue c ((s.queue c).acquire (.reader c))).setReader c (.sending it last))
  | .sending it last =>
    if (s.queue c).closed then
      some (s.setReader c .done)
    else
      ((s.queue c).push (.reader c) it).map fun q =>
        (s.setQueue c q).setReader c (if last then .done else .read)
  | _ => none

/-- `read_req` returns the next frame. -/
def readReq (s : State) (c : Nat) : Option State :=
  match s.inbox c with
  | req :: rest =>
    some
      { s with
        reader := update s.reader c (.send ⟨req, some (c, s.frames c), 0⟩ false)
        inbox := update s.inbox c rest
        frames := update s.frames c (s.frames c + 1) }
  | [] => none

/-- The end of `handle_stream`. -/
def cleanup (s : State) (c : Nat) : State :=
  if s.peers.poisoned then
    s.panic c
  else
    let s' := match s.peers.get (s.peerId c) with
      | some p => if p.id = c then s.setPeers (s.peers.remove (s.peerId c)) else s
      | none => s
    s'.setStatus c .cleaned

end State

/-! ## Steps -/

/-- What may happen next. `read`, `readErr` and `readTimeout` are the outcomes of
`read_reqs`' wait for a request, `reader` and `handler` the next step of the two futures,
`writeErr` a failing `send_response`, `select` the end of `select!` because `read_reqs` has
returned. -/
inductive Action where
  | accept (addr : SocketAddr)
  | client (c : Nat) (req : Request)
  | sockFail (c : Nat)
  | read (c : Nat)
  | readErr (c : Nat)
  | readTimeout (c : Nat)
  | reader (c : Nat)
  | handler (c : Nat)
  | writeErr (c : Nat)
  | select (c : Nat)
  | cleanup (c : Nat)
  | drop (c : Nat)
  deriving DecidableEq, Repr

namespace State

def step (s : State) : Action → Option State
  | .accept addr => some (s.accept addr)
  | .client c req =>
    if s.status c ≠ .absent then
      some ({ s with inbox := update s.inbox c (s.inbox c ++ [req]) }.record (.sent c req))
    else none
  | .sockFail c =>
    if s.status c ≠ .absent then
      some { s with sockOk := update s.sockOk c false }
    else none
  | .read c =>
    if s.ReaderRuns c ∧ s.reader c = .read then s.readReq c else none
  | .readErr c =>
    if s.ReaderRuns c ∧ s.reader c = .read then
      some (s.setReader c (.send .bye true))
    else none
  | .readTimeout c =>
    if s.ReaderRuns c ∧ s.reader c = .read then
      some (s.setReader c .done)
    else none
  | .reader c => if s.ReaderRuns c then s.readerStep c else none
  | .handler c => if s.HandlerRuns c then s.handlerStep c else none
  | .writeErr c =>
    match s.handler c with
    | .write _ => if s.HandlerRuns c then some (s.leave c) else none
    | _ => none
  | .select c =>
    if s.ReaderRuns c ∧ s.reader c = .done then some (s.leave c) else none
  | .cleanup c => if s.status c = .leaving then some (s.cleanup c) else none
  | .drop c => if s.status c = .cleaned then some (s.dropHandler c) else none

end State

/-- The runs of the server. -/
abbrev Run := Transition.Run State.step State.init

end Rndz.Tcp
