import Rndz.Net.SocketAddr

/-!
# The sockets of a UDP client

`CommonConfig`, `create_socket`, `connect_server` and `connect_multiple_servers`. What the
system calls return is an argument of each function, so any of them may fail at any server.
-/
namespace Rndz.Net.SocketAddr

def isIpv6 : SocketAddr → Bool
  | .v4 _ => false
  | .v6 _ => true

def port : SocketAddr → UInt16
  | .v4 a => a.port
  | .v6 a => a.port

def withPort (port : UInt16) : SocketAddr → SocketAddr
  | .v4 a => .v4 { a with port := port }
  | .v6 a => .v6 { a with port := port }

end Rndz.Net.SocketAddr

namespace Rndz.Udp

open Net

/-- `unwrapped` is the panic of `local_addr.unwrap()` without any server. -/
inductive SetupError where
  | io
  | noAddressFound
  | unwrapped
  deriving DecidableEq, Repr

/-- What the system does with a new socket: whether `config_socket` and `set_reuse_address`
succeed, and to which address a socket is bound by `bind`, if it is. -/
structure SocketEnv where
  configSocket : Bool
  setReuseAddress : Bool
  bind : SocketAddr → Option SocketAddr

/-- What it does for the socket of a server: the addresses of a name, whether
`set_nonblocking` succeeds, and the address a bound socket has once connected to a server. -/
structure Site extends SocketEnv where
  toSocketAddrs : String → Option (List SocketAddr)
  setNonblocking : Bool
  connect : SocketAddr → SocketAddr → Option SocketAddr

/-- A server at which everything succeeds, for concrete runs. -/
def goodSite : Site where
  configSocket := true
  setReuseAddress := true
  bind _ := some (host 9)
  toSocketAddrs _ := some [host 1]
  setNonblocking := true
  connect bound _ := some bound

/-- A socket connected to a server. -/
structure ServerSocket where
  localAddr : SocketAddr
  peerAddr : SocketAddr
  deriving DecidableEq, Repr

/-- The configuration of a client, whose list of servers is not empty. -/
structure CommonConfig where
  id : String
  localAddr : Option SocketAddr
  serverAddrs : List String
  nonempty : serverAddrs ≠ []
  deriving DecidableEq, Repr

/-- `CommonConfig::new` -/
def CommonConfig.new (serverAddrs : List String) (id : String) (localAddr : Option SocketAddr) :
    Option CommonConfig :=
  if h : serverAddrs = [] then none else some ⟨id, localAddr, serverAddrs, h⟩

/-- `to_ipv6_mapped` -/
def toIpv6Mapped (ip : Ipv4Addr) : Ipv6Addr :=
  ⟨[0, 0, 0, 0, 0, 0xffff, group ip.a ip.b, group ip.c ip.d], rfl⟩

/-- `[::]:0` -/
def unspecifiedV6 : SocketAddr := .v6 ⟨⟨[0, 0, 0, 0, 0, 0, 0, 0], rfl⟩, 0, 0, 0⟩

/-- A system call that fails is the error `e`. -/
def ioResult {ε α : Type} (e : ε) : Option α → Except ε α
  | some a => .ok a
  | none => .error e

theorem ioResult_eq_ok {ε α : Type} {e : ε} {x : Option α} {a : α} :
    ioResult e x = .ok a ↔ x = some a := by
  cases x <;> simp [ioResult]

/-- `create_socket`, which returns the address the socket is bound to. -/
def createSocket (env : SocketEnv) (addr : SocketAddr) : Except SetupError SocketAddr :=
  if env.configSocket && env.setReuseAddress then ioResult .io (env.bind addr) else .error .io

/-- An IPv4 address is converted if the socket is an IPv6 one. -/
def convertAddr (localAddr : Option SocketAddr) : SocketAddr → SocketAddr
  | .v4 a =>
    if localAddr.any SocketAddr.isIpv6 then .v6 ⟨toIpv6Mapped a.ip, a.port, 0, 0⟩ else .v4 a
  | .v6 a => .v6 a

/-- The address to bind to if none is given. -/
def anyAddrFor : SocketAddr → SocketAddr
  | .v4 _ => .unspecified
  | .v6 _ => unspecifiedV6

/-- `connect_server` -/
def connectServer (site : Site) (serverAddr : String) (localAddr : Option SocketAddr) :
    Except SetupError ServerSocket := do
  match ← ioResult .io (site.toSocketAddrs serverAddr) with
  | [] => .error .noAddressFound
  | addr :: _ =>
    let addr := convertAddr localAddr addr
    let bound ← createSocket site.toSocketEnv (localAddr.getD (anyAddrFor addr))
    if site.setNonblocking then
      let localAddr ← ioResult .io (site.connect bound addr)
      return ⟨localAddr, addr⟩
    else
      .error .io

/-- The address for the sockets after the first: that of the configuration with the port of
the first socket, or the address of the first socket. -/
def sharedAddr (initialAddr : Option SocketAddr) (first : SocketAddr) : SocketAddr :=
  match initialAddr with
  | some addr => addr.withPort first.port
  | none => first

/-- The loop of `connect_multiple_servers`, at server `i`. -/
def connectServers (net : Nat → Site) (initialAddr : Option SocketAddr) :
    Nat → Option SocketAddr → List String →
      Except SetupError (List ServerSocket × Option SocketAddr)
  | _, localAddr, [] => .ok ([], localAddr)
  | i, localAddr, serverAddr :: rest => do
    let sk ← connectServer (net i) serverAddr (localAddr.or initialAddr)
    let localAddr := localAddr.or (some (sharedAddr initialAddr sk.localAddr))
    let (sks, localAddr) ← connectServers net initialAddr (i + 1) localAddr rest
    return (sk :: sks, localAddr)

/-- `connect_multiple_servers` -/
def connectMultipleServers (net : Nat → Site) (serverAddrs : List String)
    (initialAddr : Option SocketAddr) : Except SetupError (List ServerSocket × SocketAddr) := do
  match ← connectServers net initialAddr 0 none serverAddrs with
  | (sks, some localAddr) => return (sks, localAddr)
  | (_, none) => .error .unwrapped

/-! ## What it takes for all servers -/

theorem bind_eq_ok {ε α β : Type} {x : Except ε α} {f : α → Except ε β} {b : β} :
    (x >>= f) = .ok b ↔ ∃ a, x = .ok a ∧ f a = .ok b := by
  cases x with
  | error e => exact iff_of_false nofun nofun
  | ok a => exact ⟨fun h => ⟨a, rfl, h⟩, fun ⟨_, ha, h⟩ => Except.ok.inj ha ▸ h⟩

variable {net : Nat → Site} {initialAddr : Option SocketAddr} {serverAddrs : List String}
  {sks : List ServerSocket} {localAddr : SocketAddr}

/-- The sockets are those of the servers from `i` on, each bound to the same address. -/
def SocketsFrom (net : Nat → Site) (localAddr : Option SocketAddr) (i : Nat)
    (serverAddrs : List String) (sks : List ServerSocket) : Prop :=
  sks.length = serverAddrs.length ∧ ∀ k serverAddr, serverAddrs[k]? = some serverAddr →
    ∃ sk, sks[k]? = some sk ∧ connectServer (net (i + k)) serverAddr localAddr = .ok sk

theorem socketsFrom_nil {i : Nat} {localAddr : Option SocketAddr} :
    SocketsFrom net localAddr i [] sks ↔ sks = [] := by
  simp [SocketsFrom]

theorem socketsFrom_cons {i : Nat} {localAddr : Option SocketAddr} {serverAddr : String} :
    SocketsFrom net localAddr i (serverAddr :: serverAddrs) sks ↔
      ∃ sk rest, sks = sk :: rest ∧ connectServer (net i) serverAddr localAddr = .ok sk ∧
        SocketsFrom net localAddr (i + 1) serverAddrs rest := by
  constructor
  · rintro ⟨hlen, hsk⟩
    cases sks with
    | nil => simp at hlen
    | cons sk rest =>
      obtain ⟨sk', hsk', hconnect⟩ := hsk 0 serverAddr rfl
      obtain rfl : sk = sk' := by simpa using hsk'
      refine ⟨sk, rest, rfl, hconnect, by simpa using hlen, fun k addr hk => ?_⟩
      simpa [Nat.add_assoc, Nat.add_comm 1] using hsk (k + 1) addr (by simpa using hk)
  · rintro ⟨sk, rest, rfl, hconnect, hlen, hrest⟩
    refine ⟨by simpa using hlen, fun k addr hk => ?_⟩
    cases k with
    | zero =>
      obtain rfl : serverAddr = addr := by simpa using hk
      exact ⟨sk, rfl, hconnect⟩
    | succ k => simpa [Nat.add_assoc, Nat.add_comm 1] using hrest k addr (by simpa using hk)

/-- Once the first socket has fixed the address, all others are bound to it. -/
theorem connectServers_eq_ok {i : Nat} {last : Option SocketAddr} :
    connectServers net initialAddr i (some localAddr) serverAddrs = .ok (sks, last) ↔
      last = some localAddr ∧ SocketsFrom net (some localAddr) i serverAddrs sks := by
  induction serverAddrs generalizing i sks last with
  | nil => simp [connectServers, socketsFrom_nil, and_comm, eq_comm]
  | cons serverAddr serverAddrs ih =>
    simp only [connectServers, bind_eq_ok, Option.some_or, socketsFrom_cons, Prod.exists, ih]
    constructor
    · rintro ⟨sk, hconnect, rest, last', ⟨rfl, hrest⟩, hpure⟩
      cases hpure
      exact ⟨rfl, sk, rest, rfl, hconnect, hrest⟩
    · rintro ⟨rfl, sk, rest, rfl, hconnect, hrest⟩
      exact ⟨sk, hconnect, rest, _, ⟨rfl, hrest⟩, rfl⟩

/-- All servers are set up: the first one from the configured address, the others from the
one that the first has led to. -/
theorem connectMultipleServers_eq_ok (nonempty : serverAddrs ≠ []) :
    connectMultipleServers net serverAddrs initialAddr = .ok (sks, localAddr) ↔
      ∃ first rest, sks = first :: rest ∧ localAddr = sharedAddr initialAddr first.localAddr ∧
        connectServer (net 0) (serverAddrs.head nonempty) initialAddr = .ok first ∧
          SocketsFrom net (some localAddr) 1 serverAddrs.tail rest := by
  cases serverAddrs with
  | nil => exact absurd rfl nonempty
  | cons serverAddr serverAddrs =>
    simp only [connectMultipleServers, connectServers, bind_eq_ok, Option.none_or, Prod.exists,
      connectServers_eq_ok, List.head_cons, List.tail_cons]
    constructor
    · rintro ⟨sks', last, ⟨first, hfirst, rest, last', ⟨rfl, hrest⟩, hpure⟩, hresult⟩
      cases hpure
      cases hresult
      exact ⟨first, rest, rfl, rfl, hfirst, hrest⟩
    · rintro ⟨first, rest, rfl, rfl, hfirst, hrest⟩
      exact ⟨_, _, ⟨first, hfirst, rest, _, ⟨rfl, hrest⟩, rfl⟩, rfl⟩

theorem length_servers (nonempty : serverAddrs ≠ [])
    (h : connectMultipleServers net serverAddrs initialAddr = .ok (sks, localAddr)) :
    sks.length = serverAddrs.length := by
  obtain ⟨first, rest, rfl, -, -, hrest⟩ := (connectMultipleServers_eq_ok nonempty).mp h
  rw [List.length_cons, hrest.1, List.length_tail]
  have := List.length_pos_of_ne_nil nonempty
  omega

end Rndz.Udp
