import Rndz.Lib.Transition
import Rndz.Udp.Listener
import Rndz.Udp.Registry
import Rndz.Udp.Setup

/-!
# Dropping a listener over UDP

A listener with the background loops that its calls of `listen` have started. `listen` takes
the sockets of the servers out of the listener before it starts the loop, so the drop finds
none of them there to send a `Bye` on.
-/
namespace Rndz.Udp

open Net Proto Transition

inductive ListenError where
  | setup (e : SetupError)
  | encode
  | setNonblocking
  deriving DecidableEq, Repr

structure Listener where
  cfg : CommonConfig
  svrSks : Option (List ServerSocket)
  lastPong : List (Option Instant)
  deriving DecidableEq, Repr

/-- What the system does during a call of `listen`: for the socket of each server, when it is
set to non-blocking, and for the socket for the peers. -/
structure Call where
  net : Nat → Site
  setNonblocking : Nat → Bool
  peer : SocketEnv

namespace Listener

def new (cfg : CommonConfig) : Listener := ⟨cfg, none, List.replicate cfg.serverAddrs.length none⟩

/-- The first part of `listen`: connect to the servers if not already connected. -/
def connectServers (l : Listener) (call : Call) : Except SetupError Listener :=
  match l.svrSks with
  | some _ => .ok l
  | none => do
    let (newSks, localAddr) ←
      connectMultipleServers call.net l.cfg.serverAddrs l.cfg.localAddr
    return { l with svrSks := some newSks, cfg := { l.cfg with localAddr := some localAddr } }

def thread (l : Listener) (sks : List ServerSocket) : Thread :=
  ⟨l.cfg.id, sks.map ServerSocket.peerAddr⟩

/-- `listen`, which returns the address of the socket for the peers, and the thread that it
starts. `encodes` tells which requests can be written; on an error after `take` the sockets
are closed. -/
def listen (encodes : Request → Bool) (l : Listener) (call : Call) :
    Listener × Except ListenError (SocketAddr × Thread) :=
  match l.connectServers call with
  | .error e => (l, .error (.setup e))
  | .ok l =>
    if encodes ⟨l.cfg.id, some .ping⟩ then
      let sks := l.svrSks.getD []
      let taken := { l with svrSks := none }
      if (List.range sks.length).all call.setNonblocking then
        match (ioResult .io l.cfg.localAddr).bind (createSocket call.peer) with
        | .ok addr => (taken, .ok (addr, l.thread sks))
        | .error e => (taken, .error (.setup e))
      else
        (taken, .error .setNonblocking)
    else
      (l, .error .encode)

/-- `drop`, as far as its requests are concerned. -/
def drop (l : Listener) : List Sent :=
  (l.svrSks.getD []).zipIdx.map fun p => ⟨p.2, p.1.peerAddr, ⟨l.cfg.id, some .bye⟩⟩

end Listener

namespace Drop

/-- `dropped` is the flag `exit`, `sent` is what the loops have sent, and `byes` what the drop
has. -/
structure State where
  listener : Listener
  dropped : Bool
  threads : List (Thread × Loop)
  sent : List Sent
  byes : List Sent

/-- `listen` is called, a loop goes through an iteration, or the listener is dropped. -/
inductive Action where
  | listen (call : Call)
  | iterate (k : Nat) (it : Iteration)
  | drop

/-- A loop goes through an iteration. -/
def Action.iterates : Action → Bool
  | .iterate _ _ => true
  | _ => false

namespace State

def init (cfg : CommonConfig) : State := ⟨.new cfg, false, [], [], []⟩

def step (encodes : Request → Bool) (s : State) : Action → Option State
  | .listen call =>
    if s.dropped then none
    else
      match s.listener.listen encodes call with
      | (listener, .ok (_, thread)) =>
        some
          { s with
            listener := listener
            threads := s.threads ++ [(thread, thread.start listener.lastPong)] }
      | (listener, .error _) => some { s with listener := listener }
  | .iterate k it =>
    if s.dropped then none
    else
      match s.threads[k]? with
      | some (thread, loop) =>
        -- all loops share `last_pong` with the listener
        let (loop, out) := thread.iterate { loop with lastPong := s.listener.lastPong } it
        some
          { s with
            listener := { s.listener with lastPong := loop.lastPong }
            threads := s.threads.set k (thread, loop)
            sent := s.sent ++ out }
      | none => none
  | .drop => if s.dropped then none else some { s with dropped := true, byes := s.listener.drop }

/-- The requests sent to a server, the `Bye`s last. -/
def sentTo (s : State) (server : SocketAddr) : List Sent :=
  (s.sent ++ s.byes).filter (·.addr = server)

/-- A server that starts at `start` and has received all requests sent to it, `stamp` tells when
and from where. -/
def registry (s : State) (server : SocketAddr) (start : Instant)
    (stamp : Sent → Instant × SocketAddr) : Server :=
  (Server.new start).replay ((s.sentTo server).map fun d => .request (stamp d).1 d.req (stamp d).2)

/-- A loop has sent a ping to a server. -/
def Pinged (s : State) (id : String) (server : SocketAddr) : Prop :=
  ∃ d ∈ s.sent, d.addr = server ∧ d.req = ⟨id, some .ping⟩

/-- The drop has sent a `Bye` to each server that was pinged, and none has the id any more. -/
structure Unregistered (s : State) (id : String) : Prop where
  bye : ∀ server, s.Pinged id server → ∃ d ∈ s.byes, d.addr = server ∧ d.req = ⟨id, some .bye⟩
  gone : ∀ server start stamp, (s.registry server start stamp).clients id = none

end State

end Drop

/-! ## Where the sockets are -/

namespace Listener

variable {encodes : Request → Bool} {l l' : Listener} {call : Call}

theorem id_connectServers (h : l.connectServers call = .ok l') : l'.cfg.id = l.cfg.id := by
  unfold connectServers at h
  split at h
  · cases h
    rfl
  · obtain ⟨⟨sks, addr⟩, -, hl⟩ := bind_eq_ok.mp h
    cases hl
    rfl

/-- After connecting anew there is a socket for each server. -/
theorem svrSks_connectServers (hnone : l.svrSks = none) (h : l.connectServers call = .ok l') :
    l'.svrSks.getD [] ≠ [] := by
  simp only [connectServers, hnone] at h
  obtain ⟨⟨sks, addr⟩, hsks, hl⟩ := bind_eq_ok.mp h
  obtain ⟨first, rest, rfl, -⟩ := (connectMultipleServers_eq_ok l.cfg.nonempty).mp hsks
  cases hl
  simp

/-- The ways in which `listen` ends: before the sockets exist, before they are taken, before
the thread is started, or well. -/
inductive Effect (encodes : Request → Bool) (l : Listener) (call : Call) :
    Listener × Except ListenError (SocketAddr × Thread) → Prop
  | unconnected (e : SetupError) : Effect encodes l call (l, .error (.setup e))
  | unwritten {l' : Listener} (hconnect : l.connectServers call = .ok l')
      (fails : encodes ⟨l.cfg.id, some .ping⟩ = false) :
      Effect encodes l call (l', .error .encode)
  | closed {l' : Listener} (hconnect : l.connectServers call = .ok l') (e : ListenError)
      (writes : encodes ⟨l.cfg.id, some .ping⟩ = true) :
      Effect encodes l call ({ l' with svrSks := none }, .error e)
  | started {l' : Listener} (hconnect : l.connectServers call = .ok l') (addr : SocketAddr)
      (writes : encodes ⟨l.cfg.id, some .ping⟩ = true) :
      Effect encodes l call
        ({ l' with svrSks := none }, .ok (addr, l'.thread (l'.svrSks.getD [])))

theorem effect_listen (encodes : Request → Bool) (l : Listener) (call : Call) :
    Effect encodes l call (l.listen encodes call) := by
  unfold listen
  cases hconnect : l.connectServers call with
  | error e => exact .unconnected e
  | ok l' =>
    have hid := id_connectServers hconnect
    simp only [hid]
    split
    · rename_i writes
      split
      · split
        · exact .started hconnect _ writes
        · exact .closed hconnect _ writes
      · exact .closed hconnect _ writes
    · rename_i fails
      exact .unwritten hconnect (by simpa using fails)

end Listener

namespace Drop.State

variable {encodes : Request → Bool} {id : String} {s t : State} {a : Action}
  {tr : List (State × Action)}

/-- The sockets are with the threads. A thread that has not sent a ping will do so in its next
iteration. -/
structure Inv (encodes : Request → Bool) (id : String) (s : State) : Prop where
  named : s.listener.cfg.id = id
  taken : encodes ⟨id, some .ping⟩ = true → s.listener.svrSks = none
  writes : s.threads ≠ [] → encodes ⟨id, some .ping⟩ = true
  threads : ∀ p ∈ s.threads, p.1.myid = id ∧ p.1.svrSks ≠ [] ∧
    ((∃ server, s.Pinged id server) ∨ p.2.pingTimes = List.replicate p.1.svrSks.length none)
  byes : s.byes = if s.dropped then s.listener.drop else []

theorem Pinged.mono {server : SocketAddr} (h : s.Pinged id server) (sub : s.sent ⊆ t.sent) :
    t.Pinged id server := by
  obtain ⟨d, hd, hrest⟩ := h
  exact ⟨d, sub hd, hrest⟩

/-- The first iteration of a thread pings every server. -/
theorem pinged_first {c : Thread} {l : Loop} (it : Iteration) (hsks : c.svrSks ≠ [])
    (htimes : l.pingTimes = List.replicate c.svrSks.length none) :
    ∃ d ∈ (c.iterate l it).2, d.req = c.ping := by
  have hpos : 0 < c.svrSks.length := List.length_pos_of_ne_nil hsks
  exact ⟨_, Thread.ping_sent (List.getElem?_eq_getElem hpos) (t := none)
    (by simp [htimes, hpos]) rfl, rfl⟩

theorem inv_init (cfg : CommonConfig) : Inv encodes cfg.id (init cfg) where
  named := rfl
  taken _ := rfl
  writes h := absurd rfl h
  threads := by simp [init]
  byes := rfl

/-- What a step does. -/
inductive Rule (encodes : Request → Bool) (s : State) : Action → State → Prop
  | failed {call : Call} {l : Listener} {e : ListenError} (running : s.dropped = false)
      (effect : Listener.Effect encodes s.listener call (l, .error e)) :
      Rule encodes s (.listen call) { s with listener := l }
  | started {call : Call} {l : Listener} {addr : SocketAddr} {c : Thread}
      (running : s.dropped = false)
      (effect : Listener.Effect encodes s.listener call (l, .ok (addr, c))) :
      Rule encodes s (.listen call)
        { s with listener := l, threads := s.threads ++ [(c, c.start l.lastPong)] }
  | iterated {k : Nat} {it : Iteration} {c : Thread} {l : Loop} {lastPong : List (Option Instant)}
      (running : s.dropped = false) (hk : ∃ l', s.threads[k]? = some (c, l') ∧
        l.pingTimes = l'.pingTimes) :
      Rule encodes s (.iterate k it)
        { s with
          listener := { s.listener with lastPong := lastPong }
          threads := s.threads.set k (c, (c.iterate l it).1)
          sent := s.sent ++ (c.iterate l it).2 }
  | dropped (running : s.dropped = false) :
      Rule encodes s .drop { s with dropped := true, byes := s.listener.drop }

theorem rule_of_step (h : s.step encodes a = some t) : Rule encodes s a t := by
  unfold step at h
  split at h
  · rename_i call
    split at h
    · cases h
    · rename_i running
      have effect := Listener.effect_listen encodes s.listener call
      split at h
      · rename_i l addr c heq
        cases h
        exact .started (by simpa using running) (heq ▸ effect)
      · rename_i l e heq
        cases h
        exact .failed (by simpa using running) (heq ▸ effect)
  · rename_i k it
    split at h
    · cases h
    · rename_i running
      split at h
      · rename_i c l hk
        cases h
        exact .iterated (by simpa using running) ⟨l, hk, rfl⟩
      · cases h
  · split at h
    · cases h
    · rename_i running
      cases h
      exact .dropped (by simpa using running)

/-- No call of `listen` leaves sockets in the listener if the ping can be written. -/
theorem taken_listen {call : Call} {l : Listener}
    {r : Except ListenError (SocketAddr × Thread)} (inv : Inv encodes id s)
    (effect : Listener.Effect encodes s.listener call (l, r)) :
    l.cfg.id = id ∧ (encodes ⟨id, some .ping⟩ = true → l.svrSks = none) := by
  have named := inv.named
  cases effect with
  | unconnected e => exact ⟨named, inv.taken⟩
  | unwritten hconnect fails =>
    rw [named] at fails
    exact ⟨(Listener.id_connectServers hconnect).trans named, by simp [fails]⟩
  | closed hconnect e writes =>
    exact ⟨(Listener.id_connectServers hconnect).trans named, fun _ => rfl⟩
  | started hconnect addr writes =>
    exact ⟨(Listener.id_connectServers hconnect).trans named, fun _ => rfl⟩

/-- The thread that is started has the id of the listener, and a server to ping. -/
theorem thread_of_listen {call : Call} {l : Listener} {addr : SocketAddr} {c : Thread}
    (inv : Inv encodes id s)
    (effect : Listener.Effect encodes s.listener call (l, .ok (addr, c))) :
    encodes ⟨id, some .ping⟩ = true ∧ c.myid = id ∧ c.svrSks ≠ [] := by
  have named := inv.named
  cases effect with
  | started hconnect addr writes =>
    rw [named] at writes
    have nonempty := Listener.svrSks_connectServers (inv.taken writes) hconnect
    refine ⟨writes, (Listener.id_connectServers hconnect).trans named, ?_⟩
    simpa [Listener.thread] using nonempty

/-- An iteration of a thread makes it certain that a server has been pinged. -/
theorem pinged_of_iterate {k : Nat} {it : Iteration} (inv : Inv encodes id s)
    (rule : Rule encodes s (.iterate k it) t) : ∃ server, t.Pinged id server := by
  cases rule with
  | @iterated _ _ c l lastPong running hk =>
    obtain ⟨l', hk, htimes⟩ := hk
    obtain ⟨hid, hsks, pinged | first⟩ := inv.threads _ (List.mem_of_getElem? hk)
    · obtain ⟨server, pinged⟩ := pinged
      exact ⟨server, pinged.mono (List.subset_append_left _ _)⟩
    · obtain ⟨d, hd, hreq⟩ := pinged_first it hsks (htimes.trans first)
      exact ⟨d.addr, d, List.mem_append_right _ hd, rfl, by rw [hreq, Thread.ping, hid]⟩

theorem inv_step (inv : Inv encodes id s) (rule : Rule encodes s a t) : Inv encodes id t := by
  have rule' := rule
  cases rule with
  | failed running effect =>
    obtain ⟨named, taken⟩ := taken_listen inv effect
    refine ⟨named, taken, inv.writes, inv.threads, ?_⟩
    simpa [running] using inv.byes
  | started running effect =>
    obtain ⟨named, taken⟩ := taken_listen inv effect
    obtain ⟨writes, hid, hsks⟩ := thread_of_listen inv effect
    refine ⟨named, taken, fun _ => writes, ?_, ?_⟩
    · intro p hp
      rcases List.mem_append.mp hp with hp | hp
      · exact inv.threads p hp
      · obtain rfl := List.mem_singleton.mp hp
        exact ⟨hid, hsks, .inr rfl⟩
    · simpa [running] using inv.byes
  | @iterated k it c l lastPong running hk =>
    have pinged := pinged_of_iterate inv rule'
    obtain ⟨l', hk, -⟩ := hk
    have hmem := List.mem_of_getElem? hk
    refine ⟨inv.named, inv.taken, fun _ => inv.writes (List.ne_nil_of_mem hmem), ?_, ?_⟩
    · intro p hp
      rcases List.mem_or_eq_of_mem_set hp with hp | rfl
      · exact ⟨(inv.threads p hp).1, (inv.threads p hp).2.1, .inl pinged⟩
      · exact ⟨(inv.threads _ hmem).1, (inv.threads _ hmem).2.1, .inl pinged⟩
    · simpa [running] using inv.byes
  | dropped running => exact ⟨inv.named, inv.taken, inv.writes, inv.threads, rfl⟩

variable {cfg : CommonConfig}

theorem inv_run (run : Transition.Run (step encodes) (init cfg) tr s) : Inv encodes cfg.id s :=
  run.invariant (inv_init cfg) fun _ _ _ inv h => inv_step inv (rule_of_step h)

/-- No loop has gone through an iteration. -/
abbrev NoIteration (_ : State) (a : Action) : Prop := a.iterates = false

/-- Nothing is sent before the first iteration of a loop. -/
theorem sent_of_idle (run : Transition.Run (step encodes) (init cfg) tr s)
    (idle : Steps NoIteration tr) : s.sent = [] := by
  induction run with
  | start => rfl
  | next run h ih =>
    obtain ⟨before, last⟩ := steps_concat.mp idle
    cases rule_of_step h with
    | iterated running hk => cases last
    | _ => exact ih before

/-- After an iteration of a loop some server has been pinged, and the ping can be written. -/
theorem pinged_of_not_idle (run : Transition.Run (step encodes) (init cfg) tr s)
    (busy : ¬Steps NoIteration tr) :
    (∃ server, s.Pinged cfg.id server) ∧ encodes ⟨cfg.id, some .ping⟩ = true := by
  induction run with
  | start => exact absurd steps_nil busy
  | @next tr s t a run h ih =>
    have rule := rule_of_step h
    have inv := inv_run run
    have rule' := rule
    cases rule with
    | @iterated k it c l lastPong running hk =>
      obtain ⟨l', hk, -⟩ := hk
      have hne := List.ne_nil_of_mem (List.mem_of_getElem? hk)
      exact ⟨pinged_of_iterate inv rule', inv.writes hne⟩
    | _ => exact ih fun idle => busy (steps_concat.mpr ⟨idle, rfl⟩)

/-! ## What the drop sends -/

theorem clients_replay_bye {events : List Event} {id : String}
    (h : ∀ e ∈ events, ∃ now addr, e = .request now ⟨id, some .bye⟩ addr) (server : Server)
    (unknown : server.clients id = none) : (server.replay events).clients id = none := by
  induction events generalizing server with
  | nil => exact unknown
  | cons e events ih =>
    obtain ⟨now, addr, rfl⟩ := h e List.mem_cons_self
    refine ih (fun e' he' => h e' (List.mem_cons_of_mem _ he')) _ ?_
    simp [Server.apply, Server.handleRequest, Server.handleBye]

/-- The drop reaches every server that was pinged, and leaves the id nowhere, if and only if
no loop has gone through an iteration: then no server has been pinged. -/
theorem unregistered_iff (run : Transition.Run (step encodes) (init cfg) tr s)
    (dropped : s.dropped = true) : s.Unregistered cfg.id ↔ Steps NoIteration tr := by
  have inv := inv_run run
  constructor
  · intro unregistered
    by_contra busy
    obtain ⟨⟨server, pinged⟩, writes⟩ := pinged_of_not_idle run busy
    obtain ⟨d, hd, -⟩ := unregistered.bye server pinged
    rw [inv.byes, if_pos dropped, Listener.drop, inv.taken writes] at hd
    cases hd
  · intro idle
    have sent := sent_of_idle run idle
    refine ⟨?_, fun server start stamp => ?_⟩
    · rintro server ⟨d, hd, -⟩
      rw [sent] at hd
      cases hd
    · refine clients_replay_bye (fun e he => ?_) _ rfl
      obtain ⟨d, hd, rfl⟩ := List.mem_map.mp he
      rw [sentTo, sent, inv.byes, if_pos dropped, List.nil_append] at hd
      obtain ⟨p, -, rfl⟩ := List.mem_map.mp (List.mem_filter.mp hd).1
      exact ⟨_, _, by rw [inv.named]⟩

def goodCall : Call := ⟨fun _ => goodSite, fun _ => true, goodSite.toSocketEnv⟩

def oneServer : CommonConfig := ⟨"u", none, ["server"], List.cons_ne_nil _ _⟩

/-- An iteration whose poll fails. -/
def pingIteration : Iteration where
  readings _ := ⟨0, 0, noVariation⟩
  events := none
  recv _ := .wouldBlock
  pongAt _ := 0

/-- `listen` succeeds, its loop goes through one iteration, and the listener is dropped. -/
def listenAndDrop : List Action := [.listen goodCall, .iterate 0 pingIteration, .drop]

/-- The drop sends no `Bye`, and the server keeps the id. -/
theorem dropped_without_bye : ¬∀ encodes cfg tr s,
    Transition.Run (step encodes) (init cfg) tr s → s.dropped = true →
      s.Unregistered cfg.id := by
  have script : (exec (step fun _ => true) (fun _ _ => True) (init oneServer) listenAndDrop).any
      (fun s => s.dropped = true ∧ s.byes = [] ∧
        ⟨0, host 1, ⟨"u", some .ping⟩⟩ ∈ s.sent) = true := by decide
  obtain ⟨tr, s, run, -, h⟩ := run_of_exec script
  obtain ⟨dropped, byes, sent⟩ := of_decide_eq_true h
  intro all
  obtain ⟨d, hd, -⟩ := (all _ oneServer tr s run dropped).bye (host 1) ⟨_, sent, rfl, rfl⟩
  rw [byes] at hd
  cases hd

/-- A listener dropped before its loop starts has left no trace. -/
theorem dropped_at_once : ∃ tr s, Transition.Run (step fun _ => true) (init oneServer) tr s ∧
    s.threads.length = 1 ∧ s.Unregistered "u" := by
  have script : (exec (step fun _ => true) NoIteration (init oneServer)
      [.listen goodCall, .drop]).any
      (fun s => s.dropped = true ∧ s.threads.length = 1) = true := by decide
  obtain ⟨tr, s, run, hC, h⟩ := run_of_exec script
  obtain ⟨dropped, threads⟩ := of_decide_eq_true h
  exact ⟨tr, s, run, threads, (unregistered_iff run dropped).mpr hC⟩

end Drop.State

end Rndz.Udp
