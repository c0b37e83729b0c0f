import Rndz.Udp.Setup

/-!
# The sockets of a TCP client

`choose_bind_addr`, `bind` and `connect_server` of both clients, the listening socket, the socket
with which `connect` goes on to its peer, and those that an `Fsync` makes a listener open. What the
system calls return is an argument of each function, so any of them may fail at any time.
-/
namespace Rndz.Tcp.Setup

open Net
open Udp (bind_eq_ok ioResult ioResult_eq_ok unspecifiedV6)

inductive SetupError where
  | io
  | nameResolveFail
  deriving DecidableEq, Repr

/-- What the system does for a new socket: the addresses of a name, whether the options are set,
the address the socket is bound to by `bind`, if it is, whether it may listen, and the address it
has once it is connected. -/
structure Site where
  toSocketAddrs : String → Option (List SocketAddr)
  setReuseAddress : Bool
  setReusePort : Bool
  bindTo : SocketAddr → Option SocketAddr
  listens : Bool
  connectTo : SocketAddr → SocketAddr → Option SocketAddr

structure Config where
  serverAddr : String
  localAddr : Option SocketAddr
  deriving DecidableEq, Repr

/-- A socket on its way to a peer. -/
structure Stream where
  localAddr : SocketAddr
  peerAddr : SocketAddr
  deriving DecidableEq, Repr

/-- The first address of the server's name. -/
def resolve (site : Site) (serverAddr : String) : Except SetupError SocketAddr := do
  match ← ioResult .io (site.toSocketAddrs serverAddr) with
  | [] => .error .nameResolveFail
  | addr :: _ => return addr

/-- `choose_bind_addr` -/
def chooseBindAddr (site : Site) (cfg : Config) : Except SetupError SocketAddr :=
  match cfg.localAddr with
  | some addr => .ok addr
  | none => do
    match ← resolve site cfg.serverAddr with
    | .v4 _ => return .unspecified
    | .v6 _ => return unspecifiedV6

/-- `bind`, which returns the address the socket is bound to. -/
def bind (site : Site) (localAddr : SocketAddr) : Except SetupError SocketAddr :=
  if site.setReuseAddress && site.setReusePort then ioResult .io (site.bindTo localAddr)
  else .error .io

/-- The listening socket, and the address that is used from then on. -/
def listen (site : Site) (cfg : Config) : Except SetupError SocketAddr := do
  let bound ← bind site (← chooseBindAddr site cfg)
  if site.listens then return bound else .error .io

/-- `connect_server` -/
def connectServer (site : Site) (localAddr : SocketAddr) (serverAddr : String) :
    Except SetupError Stream := do
  let bound ← bind site localAddr
  let addr ← resolve site serverAddr
  let localAddr ← ioResult .io (site.connectTo bound addr)
  return ⟨localAddr, addr⟩

/-- The connection of `connect` to the server; the name is looked up twice. -/
def dial (first second : Site) (cfg : Config) : Except SetupError Stream := do
  let localAddr ← chooseBindAddr first cfg
  connectServer second localAddr cfg.serverAddr

/-- The connection of `connect` to the peer, from the address of the one to the server. -/
def connectPeer (site : Site) (localAddr target : SocketAddr) : Except SetupError Stream := do
  let bound ← bind site localAddr
  let localAddr ← ioResult .io (site.connectTo bound target)
  return ⟨localAddr, target⟩

/-- The socket that a listener opens for an `Fsync`, and whither it sends a first packet. It is not
opened if it cannot be bound, and what becomes of it is ignored. -/
def knock (site : Site) (localAddr dst : SocketAddr) : Option Stream :=
  match bind site localAddr with
  | .ok bound => some ⟨bound, dst⟩
  | .error _ => none

/-! ## Ports -/

/-- Binding to a port yields that port, binding to port 0 some other one, and connecting leaves the
port alone. -/
structure Site.KeepsPorts (site : Site) : Prop where
  binds : ∀ addr bound, site.bindTo addr = some bound →
    bound.port ≠ 0 ∧ (addr.port ≠ 0 → bound.port = addr.port)
  connects : ∀ bound addr localAddr, site.connectTo bound addr = some localAddr →
    localAddr.port = bound.port

/-- A port that is in use can be bound to once more. -/
structure Site.Reuses (site : Site) : Prop where
  setReuseAddress : site.setReuseAddress = true
  setReusePort : site.setReusePort = true
  binds : ∀ addr, addr.port ≠ 0 → site.bindTo addr ≠ none

variable {site first second : Site} {cfg : Config} {addr bound dst : SocketAddr} {stream : Stream}

theorem chooseBindAddr_given (h : chooseBindAddr site cfg = .ok addr) :
    ∀ a, cfg.localAddr = some a → addr = a := by
  intro a given
  rw [chooseBindAddr, given] at h
  exact (Except.ok.inj h).symm

theorem port_bind (keeps : site.KeepsPorts) (h : bind site addr = .ok bound) :
    bound.port ≠ 0 ∧ (addr.port ≠ 0 → bound.port = addr.port) := by
  unfold bind at h
  split at h
  · exact keeps.binds addr bound (ioResult_eq_ok.mp h)
  · cases h

theorem port_listen (keeps : site.KeepsPorts) (h : listen site cfg = .ok bound) :
    bound.port ≠ 0 ∧ ∀ a, cfg.localAddr = some a → a.port ≠ 0 → bound.port = a.port := by
  obtain ⟨addr, chosen, h⟩ := bind_eq_ok.mp h
  obtain ⟨bound', bound_eq, h⟩ := bind_eq_ok.mp h
  split at h
  · obtain rfl := Except.ok.inj h
    obtain ⟨positive, kept⟩ := port_bind keeps bound_eq
    refine ⟨positive, fun a given port => ?_⟩
    obtain rfl := chooseBindAddr_given chosen a given
    exact kept port
  · cases h

theorem port_connectServer {serverAddr : String} (keeps : site.KeepsPorts)
    (h : connectServer site addr serverAddr = .ok stream) :
    stream.localAddr.port ≠ 0 ∧ (addr.port ≠ 0 → stream.localAddr.port = addr.port) := by
  obtain ⟨bound, hbound, h⟩ := bind_eq_ok.mp h
  obtain ⟨peer, -, h⟩ := bind_eq_ok.mp h
  obtain ⟨localAddr, hlocal, h⟩ := bind_eq_ok.mp h
  obtain rfl := Except.ok.inj h
  rw [keeps.connects _ _ _ (ioResult_eq_ok.mp hlocal)]
  exact port_bind keeps hbound

theorem port_dial (keeps : second.KeepsPorts) (h : dial first second cfg = .ok stream) :
    stream.localAddr.port ≠ 0 := by
  obtain ⟨addr, -, h⟩ := bind_eq_ok.mp h
  exact (port_connectServer keeps h).1

theorem port_connectPeer (keeps : site.KeepsPorts) (h : connectPeer site addr dst = .ok stream) :
    stream.peerAddr = dst ∧ (addr.port ≠ 0 → stream.localAddr.port = addr.port) := by
  obtain ⟨bound, hbound, h⟩ := bind_eq_ok.mp h
  obtain ⟨localAddr, hlocal, h⟩ := bind_eq_ok.mp h
  obtain rfl := Except.ok.inj h
  refine ⟨rfl, fun port => ?_⟩
  rw [keeps.connects _ _ _ (ioResult_eq_ok.mp hlocal)]
  exact (port_bind keeps hbound).2 port

theorem knock_eq_some (h : knock site addr dst = some stream) :
    bind site addr = .ok stream.localAddr ∧ stream.peerAddr = dst := by
  unfold knock at h
  split at h
  · rename_i bound hbound
    obtain rfl := Option.some.inj h
    exact ⟨hbound, rfl⟩
  · cases h

theorem knock_of_reuses (dst : SocketAddr) (reuses : site.Reuses) (port : addr.port ≠ 0) :
    ∃ stream, knock site addr dst = some stream := by
  obtain ⟨bound, hbound⟩ := Option.ne_none_iff_exists'.mp (reuses.binds addr port)
  refine ⟨⟨bound, dst⟩, ?_⟩
  simp [knock, bind, reuses.setReuseAddress, reuses.setReusePort, hbound, ioResult]

end Rndz.Tcp.Setup
