import Mathlib.Logic.Function.Basic
import Rndz.Net.SocketAddr
import Rndz.Proto.Message

/-!
# The UDP rendezvous server

`udp/server.rs`: one thread handles one datagram after another. A handler takes the clock
value it reads as an argument and returns the datagrams it sends; sending never fails as far
as the server can tell. A `HashMap` is the function from its keys to its values.
-/
namespace Rndz.Udp

open Net Proto
open Function (update)

/-- A clock value, in nanoseconds. -/
abbrev Instant := Int

/-- `Duration::from_secs` -/
def fromSecs (secs : Nat) : Int := secs * 1000000000

structure Client where
  addr : SocketAddr
  lastPing : Instant
  deriving DecidableEq, Repr

/-- A response with the address it is sent to. -/
structure Datagram where
  addr : SocketAddr
  resp : Response
  deriving DecidableEq, Repr

structure Server where
  clients : String → Option Client
  nextGc : Instant

namespace Server

/-- `next_gc` -/
def nextGcAfter (now : Instant) : Instant := now + fromSecs 60

/-- `Server::new` -/
def new (now : Instant) : Server := ⟨fun _ => none, nextGcAfter now⟩

def sendResponse (cmd : RespCmd) (id : String) (addr : SocketAddr) : Datagram :=
  ⟨addr, ⟨id, some cmd⟩⟩

/-- The entry of `id`, made if need be, is set to `addr` and the current time. -/
def touch (s : Server) (now : Instant) (id : String) (addr : SocketAddr) : Server :=
  { s with clients := update s.clients id (some ⟨addr, now⟩) }

def handlePing (s : Server) (now : Instant) (id : String) (addr : SocketAddr) :
    Server × List Datagram :=
  (s.touch now id addr, [sendResponse .pong id addr])

def handleIsync (s : Server) (now : Instant) (id : String) (isync : Isync) (addr : SocketAddr) :
    Server × List Datagram :=
  match s.clients isync.id with
  | some t =>
    let fsync : Fsync := { id := id, addr := addr.toString }
    -- `t` is the entry as it was before the source's is set, also when they are the same
    (s.touch now id addr, [sendResponse (.fsync fsync) isync.id t.addr])
  | none => (s, [sendResponse (.redirect ⟨isync.id, ""⟩) id addr])

def handleRsync (s : Server) (id : String) (rsync : Rsync) (addr : SocketAddr) :
    Server × List Datagram :=
  match s.clients rsync.id with
  | some c => (s, [sendResponse (.redirect ⟨id, addr.toString⟩) rsync.id c.addr])
  | none => (s, [])

def handleBye (s : Server) (id : String) : Server × List Datagram :=
  ({ s with clients := update s.clients id none }, [])

/-- `handle_request`, which ignores an `Fsync` and a request without a known command. -/
def handleRequest (s : Server) (now : Instant) (req : Request) (addr : SocketAddr) :
    Server × List Datagram :=
  match req.cmd with
  | some .ping => s.handlePing now req.id addr
  | some (.isync isync) => s.handleIsync now req.id isync addr
  | some (.rsync rsync) => s.handleRsync req.id rsync addr
  | some .bye => s.handleBye req.id
  | some (.fsync _) => (s, [])
  | none => (s, [])

/-- `gc`, which reads the clock for the limit and once more for the next run. -/
def gc (s : Server) (now next : Instant) : Server where
  clients k := (s.clients k).filter fun c => now - fromSecs 60 < c.lastPing
  nextGc := nextGcAfter next

/-- One turn of the loop of `Server::run`: the request `recv_from` returns, if it returns one
that can be parsed, and the values of the clock at each point that reads it. -/
structure Turn where
  received : Option (Request × SocketAddr)
  handledAt : Instant
  checkedAt : Instant
  gcAt : Instant
  gcDoneAt : Instant
  deriving DecidableEq, Repr

def turn (s : Server) (t : Turn) : Server × List Datagram :=
  let (s, out) := match t.received with
    | some (req, addr) => s.handleRequest t.handledAt req addr
    | none => (s, [])
  if s.nextGc < t.checkedAt then (s.gc t.gcAt t.gcDoneAt, out) else (s, out)

/-- What a turn sends are the responses to the request it has received. -/
theorem out_turn (s : Server) (t : Turn) : (s.turn t).2 =
    t.received.elim [] fun p => (s.handleRequest t.handledAt p.1 p.2).2 := by
  unfold turn
  cases t.received <;> dsimp only [Option.elim] <;> split <;> rfl

/-- The server after the turns, and the datagrams it has sent. -/
def run (s : Server) : List Turn → Server × List Datagram
  | [] => (s, [])
  | t :: ts => (((s.turn t).1.run ts).1, (s.turn t).2 ++ ((s.turn t).1.run ts).2)

theorem run_concat (s : Server) (ts : List Turn) (t : Turn) :
    s.run (ts ++ [t]) = (((s.run ts).1.turn t).1, (s.run ts).2 ++ ((s.run ts).1.turn t).2) := by
  induction ts generalizing s with
  | nil => simp [run]
  | cons t' ts ih => simp [run, ih]

end Server

end Rndz.Udp
