import Rndz.Udp.Connector
import Rndz.Udp.Listener
import Rndz.Udp.Setup

/-!
# All of `Connector::connect` over UDP

From the request to the result, as a function of what the system calls return. The loops are
followed one poll at a time; the clock values read at the start of a round and at its first
check are taken as one.
-/
namespace Rndz.Udp

open Net Proto

/-- One poll of `connect`: the clock at the check before it, the events it reports unless it
fails, what `recv` returns on each socket, and whether a socket made after that can be
connected to the peer. -/
structure Tick where
  checkedAt : Instant
  events : Option (Nat → PollFlags)
  recv : Nat → Received
  connects : Nat → Bool

/-- `round_timeout` -/
def roundTimeout : Int := fromSecs 5

namespace Connector

/-- What is done after `recv` on socket `i`. -/
def receive (c : Connector) (i : Nat) (connects : Bool) : Received → Connector
  | .datagram (some resp) => c.handleResponse i resp connects
  | .datagram none => c
  | .wouldBlock => { c with lastError := some .io }
  | .err => { c with lastError := some .io }

/-- The loop over the sockets that reads those that are ready, up to a `return`. -/
def scan (t : Tick) : Connector → List (Bool × Nat) → Connector
  | c, [] => c
  | c, (ready, i) :: rest =>
    if ready then
      let c := c.receive i (t.connects i) (t.recv i)
      match c.phase with
      | .done _ => c
      | _ => scan t c rest
    else
      scan t c rest

end Connector

/-- The variables of `connect` with the start of the round. -/
structure Syncing where
  conn : Connector
  roundStart : Instant

namespace Syncing

def init (id target : String) (servers : Nat) : Syncing := ⟨.new id target servers, 0⟩

/-- The checks before a poll: of the loop over polls, and if this one is over, of the loop over
rounds. -/
def check (s : Syncing) (now : Instant) : Syncing :=
  let conn := match s.conn.phase with
    | .poll r =>
      if elapsed s.roundStart now < roundTimeout ∧ ¬s.conn.allFailed then s.conn
      else { s.conn with phase := .round (r + 1) }
    | _ => s.conn
  match conn.phase with
  | .round r => ⟨conn.beginRound r, now⟩
  | _ => ⟨conn, s.roundStart⟩

/-- The poll, and what is done with the sockets that are ready. -/
def poll (s : Syncing) (t : Tick) : Syncing :=
  match s.conn.phase with
  | .poll r =>
    match pollSockets (kernelPoll t.events) s.conn.failedServers with
    | .ok ready => { s with conn := s.conn.scan t ready.zipIdx }
    | .error _ => { s with conn := { s.conn with phase := .round (r + 1), lastError := some .io } }
  | _ => s

def tick (s : Syncing) (t : Tick) : Syncing := (s.check t.checkedAt).poll t

/-- The result once the polls are over: nothing is received any more. -/
def result (s : Syncing) : Except ConnectError SocketAddr :=
  match s.conn.phase with
  | .done result => result
  | _ => .error (s.conn.lastError.getD .noResponse)

end Syncing

inductive ConnectFailure where
  | encode
  | setup (e : SetupError)
  | setNonblocking
  | sync (e : ConnectError)
  deriving DecidableEq, Repr

/-- What the system does during a call of `connect`. -/
structure ConnectEnv where
  net : Nat → Site
  setNonblocking : Nat → Bool
  ticks : List Tick

/-- `connect`; `encodes` tells which requests can be written. -/
def connect (encodes : Request → Bool) (cfg : CommonConfig) (targetId : String)
    (env : ConnectEnv) : Except ConnectFailure SocketAddr :=
  if encodes ⟨cfg.id, some (.isync ⟨targetId⟩)⟩ then
    match connectMultipleServers env.net cfg.serverAddrs cfg.localAddr with
    | .error e => .error (.setup e)
    | .ok (svrSks, _) =>
      if (List.range svrSks.length).all env.setNonblocking then
        (env.ticks.foldl Syncing.tick (.init cfg.id targetId svrSks.length)).result.mapError .sync
      else
        .error .setNonblocking
  else
    .error .encode

end Rndz.Udp
