import Rndz.Udp.Drop
import Rndz.Udp.Sync

/-!
# One port for all sockets of a UDP client

The sockets that `connect_multiple_servers` returns, and the sockets for the peers that
`listen` and `connect` make after it, all have the same port, also if `listen` is called again.
What is assumed of the system is that binding keeps a port that is given and chooses one if
none is, and that connecting a bound socket leaves its port alone.
-/
namespace Rndz.Net

inductive IpAddr where
  | v4 (ip : Ipv4Addr)
  | v6 (ip : Ipv6Addr)
  deriving DecidableEq, Repr

namespace SocketAddr

def ip : SocketAddr → IpAddr
  | .v4 a => .v4 a.ip
  | .v6 a => .v6 a.ip

@[simp] theorem port_withPort (a : SocketAddr) (port : UInt16) : (a.withPort port).port = port := by
  cases a <;> rfl

@[simp] theorem ip_withPort (a : SocketAddr) (port : UInt16) : (a.withPort port).ip = a.ip := by
  cases a <;> rfl

end SocketAddr

end Rndz.Net

namespace Rndz.Udp

open Net Proto Transition

/-- Binding to a port yields that port, binding to port 0 some other one. -/
def SocketEnv.Binds (env : SocketEnv) : Prop := ∀ addr bound, env.bind addr = some bound →
  bound.port ≠ 0 ∧ (addr.port ≠ 0 → bound.port = addr.port)

/-- Connecting does not change the port of a bound socket. -/
structure Site.KeepsPorts (site : Site) : Prop where
  binds : site.Binds
  connects : ∀ bound addr localAddr, site.connect bound addr = some localAddr →
    localAddr.port = bound.port

/-- A call of `listen` during which the system keeps to this. -/
structure Call.KeepsPorts (call : Call) : Prop where
  sites : ∀ i, (call.net i).KeepsPorts
  peer : call.peer.Binds

/-- The socket is connected to the first address of the server's name. -/
def ConnectedTo (site : Site) (serverAddr : String) (sk : ServerSocket) : Prop :=
  ∃ addr rest, site.toSocketAddrs serverAddr = some (addr :: rest) ∧
    ∃ localAddr, sk.peerAddr = convertAddr localAddr addr

/-- There is one socket for each server, in the order of the servers, and all have the port. -/
structure Aligned (net : Nat → Site) (serverAddrs : List String) (port : UInt16)
    (sks : List ServerSocket) : Prop where
  length : sks.length = serverAddrs.length
  order : ∀ i serverAddr sk, serverAddrs[i]? = some serverAddr → sks[i]? = some sk →
    ConnectedTo (net i) serverAddr sk
  port : ∀ sk ∈ sks, sk.localAddr.port = port

/-! ## Setting up the sockets -/

variable {env : SocketEnv} {site : Site} {net : Nat → Site} {addr bound : SocketAddr}
  {serverAddr : String} {serverAddrs : List String} {initialAddr : Option SocketAddr}
  {localAddr : SocketAddr} {sk : ServerSocket} {sks : List ServerSocket}

theorem bind_of_createSocket (h : createSocket env addr = .ok bound) :
    env.bind addr = some bound := by
  unfold createSocket at h
  split at h
  · exact ioResult_eq_ok.mp h
  · cases h

/-- A socket made for an address with a port has that port. -/
theorem port_createSocket (binds : env.Binds) (h : createSocket env addr = .ok bound)
    (hport : addr.port ≠ 0) : bound.port = addr.port :=
  (binds addr bound (bind_of_createSocket h)).2 hport

/-- The steps of `connect_server`. -/
theorem connectServer_eq_ok {localAddr : Option SocketAddr}
    (h : connectServer site serverAddr localAddr = .ok sk) :
    ∃ addr rest bound, site.toSocketAddrs serverAddr = some (addr :: rest) ∧
      sk.peerAddr = convertAddr localAddr addr ∧
        site.bind (localAddr.getD (anyAddrFor sk.peerAddr)) = some bound ∧
          site.connect bound sk.peerAddr = some sk.localAddr := by
  obtain ⟨addrs, haddrs, h⟩ := bind_eq_ok.mp h
  have haddrs := ioResult_eq_ok.mp haddrs
  cases addrs with
  | nil => cases h
  | cons addr rest =>
    obtain ⟨bound, hbound, h⟩ := bind_eq_ok.mp h
    split at h
    · obtain ⟨sockAddr, hsock, h⟩ := bind_eq_ok.mp h
      cases h
      exact ⟨addr, rest, bound, haddrs, rfl, bind_of_createSocket hbound, ioResult_eq_ok.mp hsock⟩
    · cases h

theorem port_connectServer {localAddr : Option SocketAddr} (keeps : site.KeepsPorts)
    (h : connectServer site serverAddr localAddr = .ok sk) :
    sk.localAddr.port ≠ 0 ∧
      ∀ a, localAddr = some a → a.port ≠ 0 → sk.localAddr.port = a.port := by
  obtain ⟨addr, rest, bound, -, -, hbind, hconnect⟩ := connectServer_eq_ok h
  obtain ⟨positive, given⟩ := keeps.binds _ _ hbind
  rw [keeps.connects _ _ _ hconnect]
  refine ⟨positive, ?_⟩
  rintro a rfl hport
  exact given hport

theorem connectedTo_connectServer {localAddr : Option SocketAddr}
    (h : connectServer site serverAddr localAddr = .ok sk) : ConnectedTo site serverAddr sk := by
  obtain ⟨addr, rest, -, haddrs, hpeer, -⟩ := connectServer_eq_ok h
  exact ⟨addr, rest, haddrs, localAddr, hpeer⟩

/-- The shared address has the port of the first socket, and the IP address that is given. -/
theorem port_sharedAddr (initialAddr : Option SocketAddr) (first : SocketAddr) :
    (sharedAddr initialAddr first).port = first.port := by
  cases initialAddr <;> simp [sharedAddr]

theorem ip_sharedAddr (a first : SocketAddr) : (sharedAddr (some a) first).ip = a.ip := by
  simp [sharedAddr]

theorem SocketsFrom.aligned {i : Nat} {a : SocketAddr} {sks : List ServerSocket}
    (keeps : ∀ i, (net i).KeepsPorts) (hport : a.port ≠ 0)
    (h : SocketsFrom net (some a) i serverAddrs sks) :
    Aligned (fun k => net (i + k)) serverAddrs a.port sks := by
  obtain ⟨hlen, hsk⟩ := h
  refine ⟨hlen, ?_, ?_⟩
  · intro k serverAddr sk hk hkth
    obtain ⟨sk', hk', hconnect⟩ := hsk k serverAddr hk
    obtain rfl : sk = sk' := Option.some.inj (hkth.symm.trans hk')
    exact connectedTo_connectServer hconnect
  · intro sk hmem
    obtain ⟨k, hk, rfl⟩ := List.mem_iff_getElem.mp hmem
    obtain ⟨sk', hk', hconnect⟩ := hsk k _ (List.getElem?_eq_getElem (hlen ▸ hk))
    obtain rfl : sks[k] = sk' := Option.some.inj ((List.getElem?_eq_getElem hk).symm.trans hk')
    exact (port_connectServer (keeps _) hconnect).2 a rfl hport

/-- The port of the first socket is the port of all. -/
theorem aligned_connectMultipleServers (keeps : ∀ i, (net i).KeepsPorts)
    (nonempty : serverAddrs ≠ [])
    (h : connectMultipleServers net serverAddrs initialAddr = .ok (sks, localAddr)) :
    localAddr.port ≠ 0 ∧ Aligned net serverAddrs localAddr.port sks ∧
      ∀ a, initialAddr = some a →
        localAddr.ip = a.ip ∧ (a.port ≠ 0 → localAddr.port = a.port) := by
  obtain ⟨first, rest, rfl, rfl, hfirst, hrest⟩ := (connectMultipleServers_eq_ok nonempty).mp h
  obtain ⟨positive, given⟩ := port_connectServer (keeps 0) hfirst
  have hport := port_sharedAddr initialAddr first.localAddr
  have aligned := hrest.aligned keeps (by rwa [hport])
  refine ⟨by rwa [hport], ⟨length_servers nonempty h, ?_, ?_⟩, ?_⟩
  · intro k serverAddr sk hk hkth
    cases k with
    | zero =>
      obtain rfl : first = sk := by simpa using hkth
      have hhead : serverAddrs.head nonempty = serverAddr := by
        rw [List.head_eq_getElem, ← Option.some_inj, ← List.getElem?_eq_getElem]
        exact hk
      exact hhead ▸ connectedTo_connectServer hfirst
    | succ k =>
      rw [Nat.add_comm]
      exact aligned.order k serverAddr sk (by simpa using hk) (by simpa using hkth)
  · intro sk hmem
    rcases List.mem_cons.mp hmem with rfl | hmem
    · exact hport.symm
    · exact aligned.port sk hmem
  · rintro a rfl
    exact ⟨ip_sharedAddr a _, fun ha => hport.trans (given a rfl ha)⟩

/-! ## Calling `listen` again and again -/

namespace Drop.State

/-- If the servers are connected to, their sockets and the returned address have the port, and
the IP address is the configured one; the socket for the peers has the port, too. -/
structure OnPort (encodes : Request → Bool) (cfg : CommonConfig) (port : UInt16) (l : Listener)
    (call : Call) : Prop where
  servers : ∀ sks localAddr,
    connectMultipleServers call.net l.cfg.serverAddrs l.cfg.localAddr = .ok (sks, localAddr) →
      Aligned call.net cfg.serverAddrs port sks ∧ localAddr.port = port ∧
        ∀ a, cfg.localAddr = some a → localAddr.ip = a.ip
  peers : ∀ addr c, (l.listen encodes call).2 = .ok (addr, c) → addr.port = port

/-- The calls of `listen` in a run are `OnPort`. -/
abbrev ListensOnPort (encodes : Request → Bool) (cfg : CommonConfig) (port : UInt16) (s : State)
    (a : Action) : Prop := ∀ call, a = .listen call → OnPort encodes cfg port s.listener call

/-- The system keeps ports during the calls of `listen`. -/
abbrev KeepsPorts (_ : State) (a : Action) : Prop := ∀ call, a = .listen call → call.KeepsPorts

/-- Each server has its place among the sockets, and in each list that is indexed by them. -/
structure InRange (servers : Nat) (s : State) : Prop where
  serverAddrs : s.listener.cfg.serverAddrs.length = servers
  lastPong : s.listener.lastPong.length = servers
  svrSks : ∀ sks, s.listener.svrSks = some sks → sks.length = servers
  threads : ∀ p ∈ s.threads, p.1.svrSks.length = servers ∧ p.2.pingTimes.length = servers ∧
    p.2.failedServers.length = servers

/-- No call has connected to the servers. -/
structure Unbound (cfg : CommonConfig) (l : Listener) : Prop where
  cfg : l.cfg = cfg
  svrSks : l.svrSks = none

/-- A call has connected to the servers from the port. -/
structure Bound (cfg : CommonConfig) (port : UInt16) (l : Listener) : Prop where
  serverAddrs : l.cfg.serverAddrs = cfg.serverAddrs
  localAddr : ∃ a, l.cfg.localAddr = some a ∧ a.port = port ∧
    ∀ a', cfg.localAddr = some a' → a.ip = a'.ip

variable {encodes : Request → Bool} {cfg : CommonConfig} {port : UInt16} {l l' : Listener}
  {call : Call} {s t : State} {a : Action} {tr : List (State × Action)}

/-- Once a call has connected to the servers, all others connect from the same port. -/
theorem Bound.servers (bound : Bound cfg port l) (hport : port ≠ 0) (keeps : call.KeepsPorts)
    {sks : List ServerSocket} {localAddr : SocketAddr}
    (h : connectMultipleServers call.net l.cfg.serverAddrs l.cfg.localAddr = .ok (sks, localAddr)) :
    Aligned call.net cfg.serverAddrs port sks ∧ localAddr.port = port ∧
      ∀ a, cfg.localAddr = some a → localAddr.ip = a.ip := by
  obtain ⟨a, ha, rfl, hip⟩ := bound.localAddr
  obtain ⟨-, aligned, given⟩ := aligned_connectMultipleServers keeps.sites l.cfg.nonempty h
  obtain ⟨hsame, hsamePort⟩ := given a ha
  rw [hsamePort hport, bound.serverAddrs] at aligned
  exact ⟨aligned, hsamePort hport, fun a' ha' => hsame.trans (hip a' ha')⟩

/-- The first call that connects to the servers decides on the port. -/
theorem Unbound.servers (unbound : Unbound cfg l) (keeps : call.KeepsPorts)
    {sks : List ServerSocket} {localAddr : SocketAddr}
    (h : connectMultipleServers call.net l.cfg.serverAddrs l.cfg.localAddr = .ok (sks, localAddr)) :
    localAddr.port ≠ 0 ∧ Aligned call.net cfg.serverAddrs localAddr.port sks ∧
      ∀ a, cfg.localAddr = some a →
        localAddr.ip = a.ip ∧ (a.port ≠ 0 → localAddr.port = a.port) := by
  rw [unbound.cfg] at h
  exact aligned_connectMultipleServers keeps.sites cfg.nonempty h

theorem connectServers_of_error (encodes : Request → Bool) {e : SetupError}
    (hconnect : l.connectServers call = .error e) :
    l.listen encodes call = (l, .error (.setup e)) := by
  simp [Listener.listen, hconnect]

/-- What `connect_multiple_servers` returns is kept if there are no sockets yet. -/
theorem connectServers_cases (hconnect : l.connectServers call = .ok l') :
    l' = l ∧ l.svrSks ≠ none ∨ ∃ sks localAddr,
      connectMultipleServers call.net l.cfg.serverAddrs l.cfg.localAddr = .ok (sks, localAddr) ∧
        l' = { l with svrSks := some sks, cfg := { l.cfg with localAddr := some localAddr } } := by
  unfold Listener.connectServers at hconnect
  split at hconnect
  · rename_i hsks
    cases hconnect
    exact .inl ⟨rfl, by simp [hsks]⟩
  · obtain ⟨⟨sks, localAddr⟩, hsks, hl⟩ := bind_eq_ok.mp hconnect
    cases hl
    exact .inr ⟨sks, localAddr, hsks, rfl⟩

theorem Bound.connectServers (bound : Bound cfg port l) (hport : port ≠ 0)
    (keeps : call.KeepsPorts) (hconnect : l.connectServers call = .ok l') :
    Bound cfg port l' := by
  obtain ⟨rfl, -⟩ | ⟨sks, localAddr, hsks, rfl⟩ := connectServers_cases hconnect
  · exact bound
  · obtain ⟨-, hsame, hip⟩ := bound.servers hport keeps hsks
    exact ⟨bound.serverAddrs, localAddr, rfl, hsame, hip⟩

theorem Unbound.connectServers (unbound : Unbound cfg l) (keeps : call.KeepsPorts)
    (hconnect : l.connectServers call = .ok l') : ∃ port, port ≠ 0 ∧
      (∀ a, cfg.localAddr = some a → a.port ≠ 0 → port = a.port) ∧ Bound cfg port l' ∧
        ∀ sks localAddr, connectMultipleServers call.net l.cfg.serverAddrs l.cfg.localAddr =
          .ok (sks, localAddr) → Aligned call.net cfg.serverAddrs port sks ∧
            localAddr.port = port ∧ ∀ a, cfg.localAddr = some a → localAddr.ip = a.ip := by
  obtain ⟨-, hne⟩ | ⟨sks, localAddr, hsks, rfl⟩ := connectServers_cases hconnect
  · exact absurd unbound.svrSks hne
  · obtain ⟨positive, aligned, given⟩ := unbound.servers keeps hsks
    refine ⟨localAddr.port, positive, fun a ha => (given a ha).2, ⟨?_, ?_⟩, ?_⟩
    · simp [unbound.cfg]
    · exact ⟨localAddr, rfl, rfl, fun a ha => (given a ha).1⟩
    · intro sks' localAddr' hsks'
      cases hsks.symm.trans hsks'
      exact ⟨aligned, rfl, fun a ha => (given a ha).1⟩

/-- The address that the socket for the peers is made for, and the sockets of the thread. -/
theorem createSocket_of_listen {addr : SocketAddr} {c : Thread}
    (hconnect : l.connectServers call = .ok l')
    (h : (l.listen encodes call).2 = .ok (addr, c)) :
    c = l'.thread (l'.svrSks.getD []) ∧
      ∃ a, l'.cfg.localAddr = some a ∧ createSocket call.peer a = .ok addr := by
  simp only [Listener.listen, hconnect] at h
  split at h
  · split at h
    · split at h
      · rename_i addr' hcreate
        cases h
        obtain ⟨a, ha, hcreate⟩ := bind_eq_ok.mp hcreate
        exact ⟨rfl, a, ioResult_eq_ok.mp ha, hcreate⟩
      · cases h
    · cases h
  · cases h

/-- The listener keeps the sockets only if the ping cannot be written. -/
theorem listen_of_connectServers (encodes : Request → Bool)
    (hconnect : l.connectServers call = .ok l') :
    (l.listen encodes call).1 = l' ∨ (l.listen encodes call).1 = { l' with svrSks := none } := by
  simp only [Listener.listen, hconnect]
  split
  · right
    split
    · split <;> rfl
    · rfl
  · exact .inl rfl

theorem Bound.listen (bound : Bound cfg port l') (hconnect : l.connectServers call = .ok l') :
    Bound cfg port (l.listen encodes call).1 := by
  rcases listen_of_connectServers encodes hconnect with h | h <;> rw [h]
  · exact bound
  · exact ⟨bound.serverAddrs, bound.localAddr⟩

/-- The sockets for the peers have the port of the others. -/
theorem Bound.peers (bound : Bound cfg port l') (hport : port ≠ 0) (keeps : call.KeepsPorts)
    (hconnect : l.connectServers call = .ok l') {addr : SocketAddr} {c : Thread}
    (h : (l.listen encodes call).2 = .ok (addr, c)) : addr.port = port := by
  obtain ⟨-, a, ha, hcreate⟩ := createSocket_of_listen hconnect h
  obtain ⟨a', ha', rfl, -⟩ := bound.localAddr
  obtain rfl : a = a' := Option.some.inj (ha.symm.trans ha')
  exact port_createSocket keeps.peer hcreate hport

theorem lastPong_connectServers (hconnect : l.connectServers call = .ok l') :
    l'.lastPong = l.lastPong := by
  obtain ⟨rfl, -⟩ | ⟨sks, localAddr, -, rfl⟩ := connectServers_cases hconnect <;> rfl

theorem lastPong_listen : (l.listen encodes call).1.lastPong = l.lastPong := by
  cases hconnect : l.connectServers call with
  | error e => rw [connectServers_of_error encodes hconnect]
  | ok l' =>
    rw [← lastPong_connectServers hconnect]
    rcases listen_of_connectServers encodes hconnect with h | h <;> rw [h]

/-! ## Along a run -/

theorem listen_of_step (h : s.step encodes (.listen call) = some t) :
    t.listener = (s.listener.listen encodes call).1 ∧ (t.threads = s.threads ∨
      ∃ addr c, (s.listener.listen encodes call).2 = .ok (addr, c) ∧
        t.threads = s.threads ++ [(c, c.start t.listener.lastPong)]) := by
  simp only [step] at h
  split at h
  · cases h
  · cases hlisten : s.listener.listen encodes call with
    | mk l r =>
      cases r with
      | error e =>
        simp only [hlisten] at h
        cases h
        exact ⟨rfl, .inl rfl⟩
      | ok r =>
        obtain ⟨addr, c⟩ := r
        simp only [hlisten] at h
        cases h
        exact ⟨rfl, .inr ⟨addr, c, rfl, rfl⟩⟩

theorem iterate_of_step {k : Nat} {it : Iteration} (h : s.step encodes (.iterate k it) = some t) :
    ∃ c loop, s.threads[k]? = some (c, loop) ∧
      let r := c.iterate { loop with lastPong := s.listener.lastPong } it
      t.threads = s.threads.set k (c, r.1) ∧
        t.listener = { s.listener with lastPong := r.1.lastPong } := by
  simp only [step] at h
  split at h
  · cases h
  · split at h
    · rename_i c loop hk
      cases h
      exact ⟨c, loop, hk, rfl, rfl⟩
    · cases h

/-- Only `listen` changes the configuration. -/
theorem cfg_of_step (h : s.step encodes a = some t) (hne : ∀ call, a ≠ .listen call) :
    t.listener.cfg = s.listener.cfg ∧ t.listener.svrSks = s.listener.svrSks := by
  cases a with
  | listen call => exact absurd rfl (hne call)
  | iterate k it =>
    obtain ⟨c, loop, -, -, hl⟩ := iterate_of_step h
    rw [hl]
    exact ⟨rfl, rfl⟩
  | drop =>
    simp only [step] at h
    split at h
    · cases h
    · cases h
      exact ⟨rfl, rfl⟩

/-- What a run has come to: connected from a port, or not connected to the servers at all. -/
inductive Placed (encodes : Request → Bool) (cfg : CommonConfig) (tr : List (State × Action))
    (s : State) : Prop
  | unbound (unbound : Unbound cfg s.listener)
      (steps : ∀ port, Steps (ListensOnPort encodes cfg port) tr)
  | bound (port : UInt16) (positive : port ≠ 0)
      (given : ∀ a, cfg.localAddr = some a → a.port ≠ 0 → port = a.port)
      (bound : Bound cfg port s.listener) (steps : Steps (ListensOnPort encodes cfg port) tr)

theorem Placed.listen (placed : Placed encodes cfg tr s) (keeps : call.KeepsPorts)
    (h : s.step encodes (.listen call) = some t) :
    Placed encodes cfg (tr ++ [(s, .listen call)]) t := by
  have hl := (listen_of_step h).1
  cases placed with
  | unbound unbound steps =>
    cases hconnect : s.listener.connectServers call with
    | error e =>
      have hlisten := connectServers_of_error encodes hconnect
      refine .unbound (by rwa [hl, hlisten]) fun port => steps_concat.mpr ⟨steps port, ?_⟩
      rintro call' ⟨⟩
      refine ⟨fun sks localAddr hsks => ?_, by simp [hlisten]⟩
      simp [Listener.connectServers, unbound.svrSks, hsks, bind, Except.bind, pure,
        Except.pure] at hconnect
    | ok l' =>
      obtain ⟨port, positive, given, bound, servers⟩ := unbound.connectServers keeps hconnect
      refine .bound port positive given (hl ▸ bound.listen hconnect)
        (steps_concat.mpr ⟨steps port, ?_⟩)
      rintro call' ⟨⟩
      exact ⟨servers, fun addr c hpeer => bound.peers positive keeps hconnect hpeer⟩
  | bound port positive given bound steps =>
    refine .bound port positive given ?_ (steps_concat.mpr ⟨steps, ?_⟩)
    · cases hconnect : s.listener.connectServers call with
      | error e => rwa [hl, connectServers_of_error encodes hconnect]
      | ok l' => exact hl ▸ (bound.connectServers positive keeps hconnect).listen hconnect
    · rintro call' ⟨⟩
      refine ⟨fun sks localAddr => bound.servers positive keeps, fun addr c hpeer => ?_⟩
      cases hconnect : s.listener.connectServers call with
      | error e => simp [connectServers_of_error encodes hconnect] at hpeer
      | ok l' =>
        have bound' := bound.connectServers positive keeps hconnect
        exact bound'.peers positive keeps hconnect hpeer

theorem Placed.other (placed : Placed encodes cfg tr s) (hne : ∀ call, a ≠ .listen call)
    (h : s.step encodes a = some t) : Placed encodes cfg (tr ++ [(s, a)]) t := by
  obtain ⟨hcfg, hsks⟩ := cfg_of_step h hne
  have other : ∀ port, ListensOnPort encodes cfg port s a :=
    fun port call heq => absurd heq (hne call)
  cases placed with
  | unbound unbound steps =>
    exact .unbound ⟨hcfg.trans unbound.cfg, hsks.trans unbound.svrSks⟩
      fun port => steps_concat.mpr ⟨steps port, other port⟩
  | bound port positive given bound steps =>
    refine .bound port positive given ⟨?_, ?_⟩ (steps_concat.mpr ⟨steps, other port⟩)
    · rw [hcfg]
      exact bound.serverAddrs
    · rw [hcfg]
      exact bound.localAddr

theorem placed_run (run : Transition.Run (step encodes) (init cfg) tr s)
    (keeps : Steps KeepsPorts tr) : Placed encodes cfg tr s := by
  induction run with
  | start => exact .unbound ⟨rfl, rfl⟩ fun port => steps_nil
  | @next tr s t a run h ih =>
    obtain ⟨before, keep⟩ := steps_concat.mp keeps
    cases a with
    | listen call => exact (ih before).listen (keep call rfl) h
    | iterate k it => exact (ih before).other nofun h
    | drop => exact (ih before).other nofun h

/-! ## The lists that are indexed by the sockets -/

theorem length_connectServers (hconnect : l.connectServers call = .ok l')
    (hsks : ∀ sks, l.svrSks = some sks → sks.length = l.cfg.serverAddrs.length) :
    l'.cfg.serverAddrs = l.cfg.serverAddrs ∧
      ∃ sks, l'.svrSks = some sks ∧ sks.length = l.cfg.serverAddrs.length := by
  obtain ⟨rfl, hne⟩ | ⟨sks, localAddr, h, rfl⟩ := connectServers_cases hconnect
  · obtain ⟨sks, hsome⟩ := Option.ne_none_iff_exists'.mp hne
    exact ⟨rfl, sks, hsome, hsks sks hsome⟩
  · exact ⟨rfl, sks, rfl, length_servers l.cfg.nonempty h⟩

variable {servers : Nat}

theorem InRange.listen (inv : InRange servers s) (h : s.step encodes (.listen call) = some t) :
    InRange servers t := by
  obtain ⟨hl, hthreads⟩ := listen_of_step h
  have lastPong : t.listener.lastPong.length = servers := by
    rw [hl, lastPong_listen]
    exact inv.lastPong
  cases hconnect : s.listener.connectServers call with
  | error e =>
    have hlisten := connectServers_of_error encodes hconnect
    obtain hthreads | ⟨addr, c, hok, -⟩ := hthreads
    · rw [hlisten] at hl
      exact ⟨hl ▸ inv.serverAddrs, lastPong, hl ▸ inv.svrSks, hthreads ▸ inv.threads⟩
    · simp [hlisten] at hok
  | ok l' =>
    have hsks := inv.svrSks
    rw [← inv.serverAddrs] at hsks
    obtain ⟨haddrs, sks, hsome, hlen⟩ := length_connectServers hconnect hsks
    rw [inv.serverAddrs] at hlen
    refine ⟨?_, lastPong, ?_, ?_⟩
    · have hcfg : t.listener.cfg = l'.cfg := by
        rcases listen_of_connectServers encodes hconnect with hsame | hsame <;>
          rw [hl, hsame]
      rw [hcfg, haddrs]
      exact inv.serverAddrs
    · intro sks' hsks'
      rcases listen_of_connectServers encodes hconnect with hsame | hsame <;>
        rw [hl, hsame] at hsks'
      · exact Option.some.inj (hsome.symm.trans hsks') ▸ hlen
      · cases hsks'
    · obtain hthreads | ⟨addr, c, hok, hthreads⟩ := hthreads <;> rw [hthreads]
      · exact inv.threads
      · obtain ⟨rfl, -⟩ := createSocket_of_listen hconnect hok
        intro p hp
        rcases List.mem_append.mp hp with hp | hp
        · exact inv.threads p hp
        · obtain rfl := List.mem_singleton.mp hp
          simp [Listener.thread, Thread.start, hsome, hlen]

theorem InRange.iterate {k : Nat} {it : Iteration} (inv : InRange servers s)
    (h : s.step encodes (.iterate k it) = some t) : InRange servers t := by
  obtain ⟨c, loop, hk, hthreads, hl⟩ := iterate_of_step h
  obtain ⟨hsks, htimes, hfailed⟩ := inv.threads _ (List.mem_of_getElem? hk)
  refine ⟨?_, ?_, ?_, ?_⟩
  · rw [hl]
    exact inv.serverAddrs
  · rw [hl]
    exact Thread.length_lastPong_iterate.trans inv.lastPong
  · rw [hl]
    exact inv.svrSks
  · intro p hp
    rw [hthreads] at hp
    rcases List.mem_or_eq_of_mem_set hp with hp | rfl
    · exact inv.threads p hp
    · refine ⟨hsks, ?_, Thread.length_failed_iterate.trans hfailed⟩
      simpa [Thread.pingTimes_iterate] using htimes

theorem inRange_run (run : Transition.Run (step encodes) (init cfg) tr s) :
    InRange cfg.serverAddrs.length s := by
  refine run.invariant ⟨rfl, by simp [init, Listener.new], nofun, nofun⟩ fun s a t inv h => ?_
  cases a with
  | listen call => exact inv.listen h
  | iterate k it => exact inv.iterate h
  | drop =>
    simp only [step] at h
    split at h
    · cases h
    · cases h
      exact ⟨inv.serverAddrs, inv.lastPong, inv.svrSks, inv.threads⟩

/-! ## One port -/

/-- All sockets of a client have one port, and one place for each server. For a connector, these
are the sockets of the servers and the one for a peer, which is made for the address of any of
them; for a listener, those of every call of `listen`, however often it is called. -/
theorem one_port (cfg : CommonConfig) :
    (∀ net sks localAddr, (∀ i, (net i).KeepsPorts) →
      connectMultipleServers net cfg.serverAddrs cfg.localAddr = .ok (sks, localAddr) →
        localAddr.port ≠ 0 ∧ Aligned net cfg.serverAddrs localAddr.port sks ∧
          (∀ a, cfg.localAddr = some a →
            localAddr.ip = a.ip ∧ (a.port ≠ 0 → localAddr.port = a.port)) ∧
          ∀ env : SocketEnv, env.Binds → ∀ sk ∈ sks, ∀ addr,
            createSocket env sk.localAddr = .ok addr → addr.port = localAddr.port) ∧
    ∀ encodes tr s, Transition.Run (step encodes) (init cfg) tr s → Steps KeepsPorts tr →
      InRange cfg.serverAddrs.length s ∧ ∃ port, port ≠ 0 ∧
        (∀ a, cfg.localAddr = some a → a.port ≠ 0 → port = a.port) ∧
          Steps (ListensOnPort encodes cfg port) tr := by
  constructor
  · intro net sks localAddr keeps h
    obtain ⟨positive, aligned, given⟩ := aligned_connectMultipleServers keeps cfg.nonempty h
    refine ⟨positive, aligned, given, fun env binds sk hsk addr hcreate => ?_⟩
    have hport := aligned.port sk hsk
    rw [← hport]
    exact port_createSocket binds hcreate (hport ▸ positive)
  · intro encodes tr s run keeps
    refine ⟨inRange_run run, ?_⟩
    cases placed_run run keeps with
    | bound port positive given bound steps => exact ⟨port, positive, given, steps⟩
    | unbound unbound steps =>
      -- nothing has been bound, so any port will do
      by_cases hgiven : ∃ a, cfg.localAddr = some a ∧ a.port ≠ 0
      · obtain ⟨a, ha, hport⟩ := hgiven
        refine ⟨a.port, hport, fun a' ha' _ => ?_, steps a.port⟩
        rw [Option.some.inj (ha.symm.trans ha')]
      · exact ⟨1, by decide, fun a ha hport => absurd ⟨a, ha, hport⟩ hgiven, steps 1⟩

/-- A system that chooses port 9 at the first server and port 10 at any other if none is given. -/
def keepingSite (i : Nat) : Site where
  configSocket := true
  setReuseAddress := true
  bind addr := some (if addr.port = 0 then addr.withPort (if i = 0 then 9 else 10) else addr)
  toSocketAddrs _ := some [host (if i = 0 then 1 else 2)]
  setNonblocking := true
  connect bound _ := some bound

theorem keepsPorts_keepingSite (i : Nat) : (keepingSite i).KeepsPorts where
  binds addr bound h := by
    obtain rfl := Option.some.inj h
    split
    · rename_i hzero
      refine ⟨?_, fun hne => absurd hzero hne⟩
      rw [SocketAddr.port_withPort]
      split <;> decide
    · rename_i hne
      exact ⟨hne, fun _ => rfl⟩
  connects bound addr localAddr h := by
    obtain rfl := Option.some.inj h
    rfl

def keepingCall : Call := ⟨keepingSite, fun _ => true, (keepingSite 1).toSocketEnv⟩

def twoServers : CommonConfig := ⟨"u", none, ["first", "second"], List.cons_ne_nil _ _⟩

/-- A connector makes its sockets for two servers, and one for a peer from the second of them; and
a listener calls `listen` twice. -/
theorem listen_twice :
    (∃ sks localAddr sk addr,
      connectMultipleServers keepingSite twoServers.serverAddrs twoServers.localAddr =
        .ok (sks, localAddr) ∧
      sks.map ServerSocket.peerAddr = [host 1, host 2] ∧
      Aligned keepingSite twoServers.serverAddrs localAddr.port sks ∧ sks[1]? = some sk ∧
      createSocket (keepingSite 1).toSocketEnv sk.localAddr = .ok addr ∧
      addr.port = localAddr.port ∧ addr.port = 9) ∧
    ∃ tr s, Transition.Run (step fun _ => true) (init twoServers) tr s ∧
      s.threads.length = 2 ∧ InRange 2 s ∧
        ∃ port, port ≠ 0 ∧ Steps (ListensOnPort (fun _ => true) twoServers port) tr := by
  obtain ⟨connector, listener⟩ := one_port twoServers
  constructor
  · have connected : ∃ sks localAddr sk addr,
        connectMultipleServers keepingSite twoServers.serverAddrs twoServers.localAddr =
          .ok (sks, localAddr) ∧ sks.map ServerSocket.peerAddr = [host 1, host 2] ∧
        sks[1]? = some sk ∧ createSocket (keepingSite 1).toSocketEnv sk.localAddr = .ok addr ∧
          addr.port = 9 := ⟨_, _, _, _, rfl, rfl, rfl, rfl, rfl⟩
    obtain ⟨sks, localAddr, sk, addr, hsks, peers, second, hcreate, nine⟩ := connected
    obtain ⟨-, aligned, -, peerPort⟩ :=
      connector keepingSite sks localAddr keepsPorts_keepingSite hsks
    have shared := peerPort _ (keepsPorts_keepingSite 1).binds sk (List.mem_of_getElem? second)
      addr hcreate
    exact ⟨sks, localAddr, sk, addr, hsks, peers, aligned, second, hcreate, shared, nine⟩
  · have initial : Transition.Run (step fun _ => true) (init twoServers) [] (init twoServers) :=
      .start
    have run := initial.next (a := .listen keepingCall) rfl
    have run := run.next (a := .listen keepingCall) rfl
    have keeps : keepingCall.KeepsPorts :=
      ⟨keepsPorts_keepingSite, (keepsPorts_keepingSite 1).binds⟩
    obtain ⟨inRange, port, positive, -, steps⟩ := listener _ _ _ run (by
      simp only [steps_concat, steps_nil, true_and]
      exact ⟨fun call heq => Action.listen.inj heq ▸ keeps,
        fun call heq => Action.listen.inj heq ▸ keeps⟩)
    exact ⟨_, _, run, by decide, inRange, port, positive, steps⟩

end Drop.State

end Rndz.Udp
