import Rndz.Udp.Connector
import Rndz.Udp.Listener
import Rndz.Udp.Provenance

/-!
# The UDP rendezvous as a whole

Servers, listeners and one connector, over a network that loses, repeats, delays and reorders
datagrams but makes none up. The listeners are their background loops and the connector is
followed as in `Rndz.Udp.Connector`; others may send the servers requests as they like.

A listener answers an `Fsync` with two `Rsync`s: one to the server, which tells the connector where
the listener is, and one to the connector itself, which lets its packets through to the listener.
-/
namespace Rndz.Udp

open Net Proto Transition
open Function (update update_apply)

/-! ## What an iteration of a listener sends -/

namespace Thread

variable {c : Thread} {l : Loop} {it : Iteration} {i : Nat} {addr : SocketAddr} {d : Sent}

/-- Only an `Fsync` for the listener is answered. -/
theorem answer_of_receive {pongAt : Instant} {r : Received}
    (hd : d ∈ (c.receive l i addr pongAt r).2) :
    ∃ fsync, r = .datagram (some ⟨c.myid, some (.fsync fsync)⟩) ∧
      ∀ l', (c.receive l' i addr pongAt r).2 = c.answer i addr fsync := by
  unfold receive at hd
  split at hd
  · rename_i resp
    split at hd
    · cases hd
    · rename_i own
      have own : resp.id = c.myid := not_not.mp own
      split at hd
      · cases hd
      · rename_i fsync cmd
        refine ⟨fsync, ?_, fun l' => ?_⟩
        · rw [← own, ← cmd]
        · simp [receive, own, cmd]
      · cases hd
  all_goals cases hd

theorem answer_of_serve {ready : List Bool} {sks : List (SocketAddr × Nat)}
    (hd : d ∈ (c.serve it ready l sks).2) : ∃ i addr fsync, (addr, i) ∈ sks ∧
      it.recv i = .datagram (some ⟨c.myid, some (.fsync fsync)⟩) ∧ d ∈ c.answer i addr fsync ∧
        c.answer i addr fsync ⊆ (c.serve it ready l sks).2 := by
  induction sks generalizing l with
  | nil => cases hd
  | cons sk sks ih =>
    obtain ⟨addr, i⟩ := sk
    by_cases hready : ready[i]? = some true
    · simp only [serve, if_pos hready] at hd ⊢
      rcases List.mem_append.mp hd with here | later
      · obtain ⟨fsync, hrecv, answer⟩ := answer_of_receive here
        rw [answer] at here ⊢
        exact ⟨i, addr, fsync, List.mem_cons_self, hrecv, here, List.subset_append_left _ _⟩
      · obtain ⟨i', addr', fsync, hmem, hrecv, hanswer, sub⟩ := ih later
        exact ⟨i', addr', fsync, List.mem_cons_of_mem _ hmem, hrecv, hanswer,
          List.Subset.trans sub (List.subset_append_right _ _)⟩
    · simp only [serve, if_neg hready] at hd ⊢
      obtain ⟨i', addr', fsync, hmem, hrest⟩ := ih hd
      exact ⟨i', addr', fsync, List.mem_cons_of_mem _ hmem, hrest⟩

/-- An iteration sends pings to the servers, and all of the answer to an `Fsync` it receives. -/
theorem ping_or_answer (hd : d ∈ (c.iterate l it).2) :
    (c.svrSks[d.socket]? = some d.addr ∧ d.req = c.ping) ∨
      ∃ i addr fsync, c.svrSks[i]? = some addr ∧
        it.recv i = .datagram (some ⟨c.myid, some (.fsync fsync)⟩) ∧ d ∈ c.answer i addr fsync ∧
          c.answer i addr fsync ⊆ (c.iterate l it).2 := by
  obtain ⟨ready, -, heq⟩ | ⟨-, heq⟩ := iterate_cases c l it <;> rw [heq] at hd ⊢
  · rcases List.mem_append.mp hd with ping | answer
    · obtain ⟨hsk, hreq, -⟩ := mem_sendPings.mp ping
      exact .inl ⟨hsk, hreq⟩
    · obtain ⟨i, addr, fsync, hmem, hrecv, hanswer, sub⟩ := answer_of_serve answer
      exact .inr ⟨i, addr, fsync, List.mem_zipIdx_iff_getElem?.mp hmem, hrecv, hanswer,
        List.Subset.trans sub (List.subset_append_right _ _)⟩
  · obtain ⟨hsk, hreq, -⟩ := mem_sendPings.mp hd
    exact .inl ⟨hsk, hreq⟩

/-- The answer goes out on the socket of the `Fsync`, to the server and to the address in it. -/
theorem mem_answer {fsync : Fsync} : d ∈ c.answer i addr fsync ↔
    d.socket = i ∧ d.req = c.rsync fsync.id ∧
      (d.addr = addr ∨ SocketAddr.parse fsync.addr = some d.addr) := by
  obtain ⟨socket, addr', req⟩ := d
  unfold answer
  cases SocketAddr.parse fsync.addr <;> simp <;> grind

end Thread

namespace Rendezvous

/-! ## The system -/

/-- Who takes part, and the addresses of their sockets as all others see them: of socket `i` of
listener `k`, and of the connector's socket for server `j`. The connector has an id of its own. -/
structure Parties where
  serverAddr : Nat → SocketAddr
  listeners : Nat → Thread
  listenerAddr : Nat → Nat → SocketAddr
  id : String
  target : String
  servers : Nat
  connAddr : Nat → SocketAddr
  own : ∀ k, (listeners k).myid ≠ id

/-- The request the connector sends to each of its servers. -/
def Parties.isync (p : Parties) : Request := ⟨p.id, some (.isync ⟨p.target⟩)⟩

/-- The servers with the connector, the variables of the listeners' loops, and what the listeners
have sent. -/
structure State where
  core : Udp.State
  loops : Nat → Loop
  posted : List (Nat × Sent)

/-- A step of the connector, or a garbage collection; a server receives the request of the
connector, one of a listener, or any other; a listener goes through an iteration. -/
inductive Action where
  | core (a : Udp.Action)
  | isync (j : Nat) (now : Instant)
  | listener (j : Nat) (now : Instant) (k : Nat) (d : Sent)
  | other (j : Nat) (now : Instant) (req : Request) (addr : SocketAddr)
  | iterate (k : Nat) (it : Iteration)

def Action.isOther : Action → Bool
  | .other .. => true
  | _ => false

namespace State

def init (p : Parties) (start : Instant) (lastPong : Nat → List (Option Instant)) : State where
  core := .init start p.id p.target p.servers
  loops k := (p.listeners k).start (lastPong k)
  posted := []

/-- What socket `i` of listener `k` receives is a datagram that a server has sent to it. -/
def delivers (p : Parties) (s : State) (k i : Nat) : Received → Bool
  | .datagram (some resp) => s.core.sent.any fun m =>
    (p.listeners k).svrSks[i]? = some (p.serverAddr m.1) ∧ m.2 = ⟨p.listenerAddr k i, resp⟩
  | _ => true

def request (p : Parties) (s : State) (j : Nat) (now : Instant) (req : Request)
    (addr : SocketAddr) : Option State :=
  (s.core.step p.connAddr (.request j now req addr)).map fun core => { s with core }

def step (p : Parties) (s : State) : Action → Option State
  | .core a =>
    match a with
    | .request .. => none
    | a => (s.core.step p.connAddr a).map fun core => { s with core }
  | .isync j now =>
    -- it is sent at the start of a round
    if s.core.conn.phase ≠ .round 0 then s.request p j now p.isync (p.connAddr j) else none
  | .listener j now k d =>
    if (k, d) ∈ s.posted ∧ d.addr = p.serverAddr j then
      s.request p j now d.req (p.listenerAddr k d.socket)
    else none
  | .other j now req addr => s.request p j now req addr
  | .iterate k it =>
    if (List.range (p.listeners k).svrSks.length).all fun i => s.delivers p k i (it.recv i) then
      let (l, out) := (p.listeners k).iterate (s.loops k) it
      some { s with loops := update s.loops k l, posted := s.posted ++ out.map (k, ·) }
    else none

/-- A server has sent an `Fsync` that names the connector to `id`. -/
def Told (p : Parties) (s : State) (id : String) : Prop :=
  ∃ m ∈ s.core.sent, ∃ fsync : Fsync, m.2.resp = ⟨id, some (.fsync fsync)⟩ ∧ fsync.id = p.id

/-- The others use ids of their own, and send an `Rsync` to the connector only when told to. -/
def Fair (p : Parties) (s : State) (a : Action) : Prop :=
  ∀ j now req addr, a = .other j now req addr →
    req.id ≠ p.id ∧ (∀ k, req.id ≠ (p.listeners k).myid) ∧
      ∀ rsync, req.cmd = some (.rsync rsync) → rsync.id = p.id → s.Told p req.id

/-! ## Steps -/

variable {p : Parties} {s t : State} {a : Action} {k : Nat} {d : Sent} {id : String}

/-- Where the request comes from that a server receives in the step. -/
inductive Comes (p : Parties) (s : State) (j : Nat) : Action → Request → SocketAddr → Prop where
  | isync {now : Instant} : Comes p s j (.isync j now) p.isync (p.connAddr j)
  | listener {now : Instant} {k : Nat} {d : Sent} (posted : (k, d) ∈ s.posted)
      (server : d.addr = p.serverAddr j) :
      Comes p s j (.listener j now k d) d.req (p.listenerAddr k d.socket)
  | other {now : Instant} {req : Request} {addr : SocketAddr} :
      Comes p s j (.other j now req addr) req addr

/-- What a step does. -/
inductive Rule (p : Parties) (s : State) (a : Action) : State → Prop where
  | core {core : Udp.State} {a' : Udp.Action} (step : s.core.step p.connAddr a' = some core)
      (received : core.received = s.core.received) (sent : core.sent = s.core.sent) :
      Rule p s a { s with core }
  | request {core : Udp.State} {j : Nat} {now : Instant} {req : Request} {addr : SocketAddr}
      (comes : Comes p s j a req addr)
      (step : s.core.step p.connAddr (.request j now req addr) = some core) :
      Rule p s a { s with core }
  | iterate {it : Iteration} {k : Nat} {l : Loop} {out : List Sent}
      (iterated : (p.listeners k).iterate (s.loops k) it = (l, out))
      (delivered : ∀ i < (p.listeners k).svrSks.length, s.delivers p k i (it.recv i) = true) :
      Rule p s a { s with loops := update s.loops k l, posted := s.posted ++ out.map (k, ·) }

theorem rule_of_request {j : Nat} {now : Instant} {req : Request} {addr : SocketAddr}
    (comes : Comes p s j a req addr) (h : s.request p j now req addr = some t) : Rule p s a t := by
  obtain ⟨core, hcore, rfl⟩ := Option.map_eq_some_iff.mp h
  exact .request comes hcore

theorem rule_of_step (h : s.step p a = some t) : Rule p s a t := by
  cases a with
  | core a =>
    simp only [step] at h
    split at h
    · cases h
    · rename_i quiet
      obtain ⟨core, hcore, rfl⟩ := Option.map_eq_some_iff.mp h
      have same : core.received = s.core.received ∧ core.sent = s.core.sent := by
        cases a with
        | request j now req addr => exact absurd rfl (quiet j now req addr)
        | _ =>
          simp only [Udp.State.step, Udp.State.scanStep, Udp.State.next, Udp.State.setConn] at hcore
          grind
      exact .core hcore same.1 same.2
  | isync j now =>
    obtain ⟨-, h⟩ := Option.ite_none_right_eq_some.mp h
    exact rule_of_request .isync h
  | listener j now k d =>
    obtain ⟨⟨posted, server⟩, h⟩ := Option.ite_none_right_eq_some.mp h
    exact rule_of_request (.listener posted server) h
  | other j now req addr => exact rule_of_request .other h
  | iterate k it =>
    obtain ⟨delivered, h⟩ := Option.ite_none_right_eq_some.mp h
    obtain rfl := Option.some.inj h
    exact .iterate rfl fun i hi => List.all_eq_true.mp delivered i (List.mem_range.mpr hi)

/-! ## Where requests and responses come from -/

/-- The response of server `j` answers a request it has received. -/
def Answered (s : State) (j : Nat) (resp : Response) : Prop :=
  ∃ req addr, (j, req, addr) ∈ s.core.received ∧ Answers req addr resp

/-- Why listener `k` sends a request: it pings a server, or answers an `Fsync` that a server has
sent it, and then it has sent all of the answer. -/
inductive Posted (p : Parties) (s : State) (k : Nat) (d : Sent) : Prop where
  | ping (server : (p.listeners k).svrSks[d.socket]? = some d.addr)
      (req : d.req = (p.listeners k).ping)
  | answer {j : Nat} {fsync : Fsync}
      (server : (p.listeners k).svrSks[d.socket]? = some (p.serverAddr j))
      (told : (j, ⟨p.listenerAddr k d.socket, ⟨(p.listeners k).myid, some (.fsync fsync)⟩⟩) ∈
        s.core.sent)
      (answers : d ∈ (p.listeners k).answer d.socket (p.serverAddr j) fsync)
      (all : ∀ d' ∈ (p.listeners k).answer d.socket (p.serverAddr j) fsync, (k, d') ∈ s.posted)

/-- What holds in every run, whatever the others do. -/
structure Inv (p : Parties) (s : State) : Prop where
  id : s.core.conn.id = p.id
  target : s.core.conn.target = p.target
  answered : ∀ m ∈ s.core.sent, s.Answered m.1 m.2.resp
  posted : ∀ m ∈ s.posted, Posted p s m.1 m.2

theorem Answered.mono {j : Nat} {resp : Response} (h : s.Answered j resp)
    (received : s.core.received ⊆ t.core.received) : t.Answered j resp := by
  obtain ⟨req, addr, hmem, answers⟩ := h
  exact ⟨req, addr, received hmem, answers⟩

theorem Posted.mono (h : Posted p s k d) (sent : s.core.sent ⊆ t.core.sent)
    (posted : s.posted ⊆ t.posted) : Posted p t k d := by
  cases h with
  | ping server req => exact .ping server req
  | answer server told answers all =>
    exact .answer server (sent told) answers fun d' hd' => posted (all d' hd')

theorem Posted.id_eq (h : Posted p s k d) : d.req.id = (p.listeners k).myid := by
  cases h with
  | ping server req => rw [req, Thread.ping]
  | answer server told answers all => rw [(Thread.mem_answer.mp answers).2.1, Thread.rsync]

/-- What a listener sends in an iteration is explained by what it has received. -/
theorem posted_iterate {it : Iteration} {l : Loop} {out : List Sent}
    (iterated : (p.listeners k).iterate (s.loops k) it = (l, out))
    (delivered : ∀ i < (p.listeners k).svrSks.length, s.delivers p k i (it.recv i) = true)
    (hd : d ∈ out) (sent : s.core.sent ⊆ t.core.sent) (posted : ∀ d ∈ out, (k, d) ∈ t.posted) :
    Posted p t k d := by
  obtain rfl : ((p.listeners k).iterate (s.loops k) it).2 = out := by rw [iterated]
  rcases Thread.ping_or_answer hd with ⟨server, req⟩ | ⟨i, addr, fsync, server, hrecv, hd, sub⟩
  · exact .ping server req
  · have delivered := delivered i (List.getElem?_eq_some_iff.mp server).1
    rw [hrecv, delivers, List.any_eq_true] at delivered
    obtain ⟨⟨j, told⟩, hmem, hfrom⟩ := delivered
    obtain ⟨hserver, rfl⟩ := of_decide_eq_true hfrom
    obtain rfl : addr = p.serverAddr j := Option.some.inj (server.symm.trans hserver)
    obtain rfl := (Thread.mem_answer.mp hd).1
    exact .answer server (sent hmem) hd fun d' hd' => posted d' (sub hd')

theorem inv_step (inv : Inv p s) (rule : Rule p s a t) : Inv p t := by
  cases rule with
  | core step received sent =>
    obtain ⟨-, hid, htarget⟩ := Udp.State.conn_step step
    refine ⟨hid.trans inv.id, htarget.trans inv.target, fun m hm => ?_, fun m hm => ?_⟩
    · exact (inv.answered m (sent ▸ hm)).mono (by simp [received])
    · exact (inv.posted m hm).mono (by simp [sent]) (List.Subset.refl _)
  | @request core j now req addr comes step =>
    obtain ⟨-, hid, htarget⟩ := Udp.State.conn_step step
    obtain rfl := Option.some.inj step
    refine ⟨hid.trans inv.id, htarget.trans inv.target, fun m hm => ?_, fun m hm => ?_⟩
    · rcases List.mem_append.mp hm with old | new
      · exact (inv.answered m old).mono (List.subset_append_left _ _)
      · obtain ⟨d, hd, rfl⟩ := List.mem_map.mp new
        obtain ⟨-, answers, -⟩ := Server.answers_handleRequest hd
        exact ⟨req, addr, by simp, answers⟩
    · exact (inv.posted m hm).mono (List.subset_append_left _ _) (List.Subset.refl _)
  | @iterate it k l out iterated delivered =>
    refine ⟨inv.id, inv.target, fun m hm => (inv.answered m hm).mono (List.Subset.refl _),
      fun m hm => ?_⟩
    rcases List.mem_append.mp hm with old | new
    · exact (inv.posted m old).mono (List.Subset.refl _) (List.subset_append_left _ _)
    · obtain ⟨d, hd, rfl⟩ := List.mem_map.mp new
      exact posted_iterate iterated delivered hd (List.Subset.refl _) fun d' hd' =>
        List.mem_append_right _ (List.mem_map.mpr ⟨d', hd', rfl⟩)

theorem inv_init (start : Instant) (lastPong : Nat → List (Option Instant)) :
    Inv p (init p start lastPong) where
  id := rfl
  target := rfl
  answered := by simp [init, Udp.State.init]
  posted := by simp [init]

variable {start : Instant} {lastPong : Nat → List (Option Instant)} {tr : List (State × Action)}

theorem inv_run (run : Transition.Run (step p) (init p start lastPong) tr s) : Inv p s :=
  run.invariant (inv_init start lastPong) fun _ _ _ inv h => inv_step inv (rule_of_step h)

/-- One server, and a listener with one socket. -/
def pair : Parties where
  serverAddr _ := host 9
  listeners _ := ⟨"t", [host 9]⟩
  listenerAddr _ _ := host 1
  id := "c"
  target := "t"
  servers := 1
  connAddr _ := host 3
  own _ := by decide

/-- An iteration in which nothing is received, or one response. -/
def receiving (resp : Option Response) : Iteration where
  readings _ := ⟨0, 0, noVariation⟩
  events := some fun _ => .pollin
  recv _ := resp.elim .wouldBlock fun resp => .datagram (some resp)
  pongAt _ := 0

/-- The listener registers, and the connector asks for it. -/
def meeting : List Action :=
  let fsync : Fsync := { id := "c", addr := (host 3).toString }
  let rdr : Redirect := ⟨"t", (host 1).toString⟩
  [.iterate 0 (receiving none), .listener 0 1 0 ⟨0, host 9, ⟨"t", some .ping⟩⟩, .core .begin,
    .isync 0 2, .iterate 0 (receiving (some ⟨"t", some (.fsync fsync)⟩)),
    .listener 0 3 0 ⟨0, host 9, ⟨"t", some (.rsync { id := "c" })⟩⟩, .core (.polled [true]),
    .core (.recv ⟨host 3, ⟨"c", some (.redirect rdr)⟩⟩ true)]

/-- A listener cannot be turned against others: it sends to its servers, and to an address from
which one of them has received a request to connect to it, under the id that its packet names. -/
theorem listener_sends_wanted (run : Transition.Run (step p) (init p start lastPong) tr s)
    (posted : (k, d) ∈ s.posted) :
    (∃ i : Nat, (p.listeners k).svrSks[i]? = some d.addr) ∨ ∃ j src id,
      (j, ⟨id, some (.isync ⟨(p.listeners k).myid⟩)⟩, src) ∈ s.core.received ∧
        d.addr = src.withoutFlowinfo ∧ d.req = (p.listeners k).rsync id := by
  have inv := inv_run run
  cases inv.posted _ posted with
  | ping server req => exact .inl ⟨d.socket, server⟩
  | @answer j fsync server told answers all =>
    obtain ⟨-, hreq, haddr | haddr⟩ := Thread.mem_answer.mp answers
    · exact .inl ⟨d.socket, haddr ▸ server⟩
    · obtain ⟨req, src, hmem, hanswers⟩ := inv.answered _ told
      obtain ⟨rfl, htext⟩ := hanswers.of_fsync
      rw [htext, SocketAddr.parse_toString] at haddr
      exact .inr ⟨j, src, fsync.id, hmem, (Option.some.inj haddr).symm, hreq⟩

/-- The connector of `pair` has asked for the packet that it is sent. -/
theorem packet_wanted : ∃ tr s d, Transition.Run (step pair) (init pair 0 fun _ => []) tr s ∧
    (0, d) ∈ s.posted ∧ d.addr = host 3 ∧
      ((∃ i : Nat, (pair.listeners 0).svrSks[i]? = some d.addr) ∨ ∃ j src id,
        (j, ⟨id, some (.isync ⟨(pair.listeners 0).myid⟩)⟩, src) ∈ s.core.received ∧
          d.addr = src.withoutFlowinfo ∧ d.req = (pair.listeners 0).rsync id) := by
  have script : (exec (step pair) (fun _ _ => True) (init pair 0 fun _ => []) meeting).any
      (fun s => (0, ⟨0, host 3, (pair.listeners 0).rsync "c"⟩) ∈ s.posted) = true := by decide
  obtain ⟨tr, s, run, -, h⟩ := run_of_exec script
  have posted := of_decide_eq_true h
  exact ⟨tr, s, _, run, posted, rfl, listener_sends_wanted run posted⟩

/-! ## When all are fair -/

/-- A request that a server has received comes from the connector, from a listener, or from
another one who has been fair. -/
inductive Legit (p : Parties) (s : State) (j : Nat) : Request → SocketAddr → Prop where
  | isync : Legit p s j p.isync (p.connAddr j)
  | listener {k : Nat} {d : Sent} (posted : (k, d) ∈ s.posted) (server : d.addr = p.serverAddr j) :
      Legit p s j d.req (p.listenerAddr k d.socket)
  | other {req : Request} {addr : SocketAddr} (own : req.id ≠ p.id)
      (foreign : ∀ k, req.id ≠ (p.listeners k).myid)
      (reply : ∀ rsync, req.cmd = some (.rsync rsync) → rsync.id = p.id → s.Told p req.id) :
      Legit p s j req addr

/-- All requests received so far are legitimate. -/
def AllLegit (p : Parties) (s : State) : Prop :=
  ∀ j req addr, (j, req, addr) ∈ s.core.received → Legit p s j req addr

theorem Told.mono (h : s.Told p id) (sent : s.core.sent ⊆ t.core.sent) : t.Told p id := by
  obtain ⟨m, hm, hrest⟩ := h
  exact ⟨m, sent hm, hrest⟩

theorem Legit.mono {j : Nat} {req : Request} {addr : SocketAddr} (h : Legit p s j req addr)
    (sent : s.core.sent ⊆ t.core.sent) (posted : s.posted ⊆ t.posted) : Legit p t j req addr := by
  cases h with
  | isync => exact .isync
  | listener hposted server => exact .listener (posted hposted) server
  | other own foreign reply =>
    exact .other own foreign fun rsync hcmd hid => (reply rsync hcmd hid).mono sent

/-- Under the id of the connector a server has received its `Isync` only. -/
theorem isync_of_legit {j : Nat} {req : Request} {addr : SocketAddr} (inv : Inv p s)
    (h : Legit p s j req addr) (hid : req.id = p.id) : req = p.isync ∧ addr = p.connAddr j := by
  cases h with
  | isync => exact ⟨rfl, rfl⟩
  | listener posted server => exact absurd ((inv.posted _ posted).id_eq.symm.trans hid) (p.own _)
  | other own => exact absurd hid own

/-- An `Fsync` that names the connector goes to its target, with the address of the connector. -/
theorem fsync_of_legit {j : Nat} {fsync : Fsync} (inv : Inv p s) (legit : AllLegit p s)
    (h : s.Answered j ⟨id, some (.fsync fsync)⟩) (hid : fsync.id = p.id) :
    id = p.target ∧ (j, p.isync, p.connAddr j) ∈ s.core.received ∧
      fsync.addr = (p.connAddr j).toString := by
  obtain ⟨req, addr, hmem, answers⟩ := h
  obtain ⟨rfl, haddr⟩ := answers.of_fsync
  obtain ⟨hreq, rfl⟩ := isync_of_legit inv (legit _ _ _ hmem) hid
  rw [hreq] at hmem
  obtain ⟨-, hcmd⟩ := Request.mk.inj hreq
  obtain rfl := Isync.mk.inj (ReqCmd.isync.inj (Option.some.inj hcmd))
  exact ⟨rfl, hmem, haddr⟩

theorem target_of_told (inv : Inv p s) (legit : AllLegit p s) (h : s.Told p id) :
    id = p.target := by
  obtain ⟨m, hm, fsync, hresp, hid⟩ := h
  exact (fsync_of_legit inv legit (hresp ▸ inv.answered m hm) hid).1

/-- An `Rsync` to the connector comes from its target. -/
theorem rsync_of_legit {j : Nat} {rsync : Rsync} {addr : SocketAddr} (inv : Inv p s)
    (legit : AllLegit p s) (h : (j, ⟨id, some (.rsync rsync)⟩, addr) ∈ s.core.received)
    (hid : rsync.id = p.id) : id = p.target := by
  have why := legit _ _ _ h
  generalize hreq : (⟨id, some (.rsync rsync)⟩ : Request) = req at why
  cases why with
  | isync => cases hreq
  | @listener k d posted server =>
    have why := inv.posted _ posted
    have own := why.id_eq
    rw [← hreq] at own
    obtain rfl : id = (p.listeners k).myid := own
    cases why with
    | ping server req =>
      rw [← hreq] at req
      cases req
    | @answer j' fsync server told answers all =>
      have req := (Thread.mem_answer.mp answers).2.1
      rw [← hreq] at req
      obtain ⟨-, hcmd⟩ := Request.mk.inj req
      obtain rfl := ReqCmd.rsync.inj (Option.some.inj hcmd)
      exact target_of_told inv legit ⟨_, told, fsync, rfl, hid⟩
  | other own foreign reply =>
    subst hreq
    exact target_of_told inv legit (reply rsync rfl hid)

/-- So every `Redirect` for the connector names its target. -/
theorem redirect_names_target {j : Nat} {rdr : Redirect} (inv : Inv p s) (legit : AllLegit p s)
    (h : s.Answered j ⟨p.id, some (.redirect rdr)⟩) : rdr.id = p.target := by
  obtain ⟨req, addr, hmem, answers⟩ := h
  obtain ⟨rfl, -⟩ | ⟨rsync, rfl, hid, -⟩ := answers.of_redirect
  · obtain ⟨hreq, -⟩ := isync_of_legit inv (legit _ _ _ hmem) rfl
    obtain ⟨-, hcmd⟩ := Request.mk.inj hreq
    exact Isync.mk.inj (ReqCmd.isync.inj (Option.some.inj hcmd))
  · exact rsync_of_legit inv legit hmem hid

theorem legit_step (legit : AllLegit p s) (fair : Fair p s a) (rule : Rule p s a t) :
    AllLegit p t := by
  cases rule with
  | core step received sent =>
    intro j req addr h
    exact (legit j req addr (received ▸ h)).mono (by simp [sent]) (List.Subset.refl _)
  | @request core j now req addr comes step =>
    obtain rfl := Option.some.inj step
    intro j' req' addr' h
    rcases List.mem_append.mp h with old | new
    · exact (legit j' req' addr' old).mono (List.subset_append_left _ _) (List.Subset.refl _)
    · obtain ⟨rfl, hrest⟩ := Prod.mk.inj (List.mem_singleton.mp new)
      obtain ⟨rfl, rfl⟩ := Prod.mk.inj hrest
      cases comes with
      | isync => exact .isync
      | listener posted server => exact .listener posted server
      | other =>
        obtain ⟨own, foreign, reply⟩ := fair _ _ _ _ rfl
        exact .other own foreign fun rsync hcmd hid =>
          (reply rsync hcmd hid).mono (List.subset_append_left _ _)
  | iterate iterated delivered =>
    intro j req addr h
    exact (legit j req addr h).mono (List.Subset.refl _) (List.subset_append_left _ _)

/-- The connector acts on what a server has sent to it. -/
theorem sent_of_acts {mine : Nat → SocketAddr} {core core' : Udp.State} {a : Udp.Action}
    {rdr : Redirect} (step : core.step mine a = some core') (acts : core.acts a = some rdr) :
    ∃ j d, (j, d) ∈ core.sent ∧ d.resp = ⟨core.conn.id, some (.redirect rdr)⟩ := by
  cases a with
  | recv d connects =>
    have flying : ∃ j, (j, d) ∈ core.sent := by
      simp only [Udp.State.step, Udp.State.scanStep] at step
      grind
    obtain ⟨j, flying⟩ := flying
    refine ⟨j, d, flying, ?_⟩
    obtain ⟨own, acts⟩ := Option.ite_none_right_eq_some.mp acts
    split at acts
    · rename_i rdr' cmd
      obtain ⟨-, hrdr⟩ := Option.ite_none_right_eq_some.mp acts
      rw [← own, ← Option.some.inj hrdr, ← cmd]
    · cases acts
  | _ => cases acts

/-- The servers and the connector, when all are fair. -/
structure FairInv (p : Parties) (s : State) : Prop where
  inv : Inv p s
  legit : AllLegit p s
  replied : s.core.AllReplied
  rightPeer : s.core.RightPeer

theorem fairInv_init (start : Instant) (lastPong : Nat → List (Option Instant)) :
    FairInv p (init p start lastPong) where
  inv := inv_init start lastPong
  legit := by simp [AllLegit, init, Udp.State.init]
  replied := by simp [Udp.State.AllReplied, init, Udp.State.init]
  rightPeer := by
    constructor <;> simp [init, Udp.State.init, Connector.new, List.getElem?_replicate]

theorem fairInv_step (ih : FairInv p s) (fair : Fair p s a) (rule : Rule p s a t) :
    FairInv p t := by
  have inv := inv_step ih.inv rule
  have legit := legit_step ih.legit fair rule
  cases rule with
  | @core core' a' step received sent =>
    refine ⟨inv, legit, Udp.State.allReplied_step ih.replied step, ?_⟩
    refine Udp.State.rightPeer_step ih.replied ih.rightPeer (fun rdr acts => ?_) step
    obtain ⟨j, d, hd, hresp⟩ := sent_of_acts step acts
    have answered := ih.inv.answered _ hd
    rw [hresp, ih.inv.id] at answered
    rw [ih.inv.target]
    exact redirect_names_target ih.inv ih.legit answered
  | request comes step =>
    refine ⟨inv, legit, Udp.State.allReplied_step ih.replied step, ?_⟩
    refine Udp.State.rightPeer_step ih.replied ih.rightPeer (fun rdr acts => ?_) step
    simp [Udp.State.acts] at acts
  | iterate iterated delivered => exact ⟨inv, legit, ih.replied, ih.rightPeer⟩

theorem fairInv_run (run : Transition.Run (step p) (init p start lastPong) tr s)
    (fair : Steps (Fair p) tr) : FairInv p s := by
  refine run.invariant_of_steps (Q := fun _ => True) fair (fun _ _ _ => trivial)
    (fairInv_init start lastPong) fun s a t _ ih fair h => ?_
  exact fairInv_step ih fair (rule_of_step h)

/-- The connector has ended at a socket of a listener with the id of its target, and that socket
has sent a packet to the address from which a server has received the request of the connector. -/
def Met (p : Parties) (s : State) (addr : SocketAddr) : Prop :=
  ∃ k i j, (p.listeners k).myid = p.target ∧ addr = (p.listenerAddr k i).withoutFlowinfo ∧
    (p.listeners k).svrSks[i]? = some (p.serverAddr j) ∧
    (j, p.isync, p.connAddr j) ∈ s.core.received ∧
    (k, ⟨i, (p.connAddr j).withoutFlowinfo, (p.listeners k).rsync p.id⟩) ∈ s.posted

/-- The address at which the connector has ended is that of a target that is a listener. -/
theorem met_of_done (ih : FairInv p s) (listens : ∃ k, (p.listeners k).myid = p.target)
    {addr : SocketAddr} (done : s.core.conn.phase = .done (.ok addr)) : Met p s addr := by
  obtain ⟨-, -, -, j, rsync, src, received, hid, -, haddr⟩ := ih.rightPeer.address addr done
  rw [ih.inv.target] at received
  rw [ih.inv.id] at hid
  have why := ih.legit _ _ _ received
  generalize hreq : (⟨p.target, some (.rsync rsync)⟩ : Request) = req at why
  cases why with
  | isync => simp [Parties.isync] at hreq
  | @listener k d posted server =>
    have why := ih.inv.posted _ posted
    have own := why.id_eq
    rw [← hreq] at own
    cases why with
    | ping server req =>
      simp [← hreq, Thread.ping] at req
    | @answer j' fsync socket told answers all =>
      have req := (Thread.mem_answer.mp answers).2.1
      rw [← hreq] at req
      obtain ⟨-, hcmd⟩ := Request.mk.inj req
      obtain rfl := ReqCmd.rsync.inj (Option.some.inj hcmd)
      obtain ⟨-, isync, htext⟩ := fsync_of_legit ih.inv ih.legit (ih.inv.answered _ told) hid
      refine ⟨k, d.socket, j', own.symm, haddr, socket, isync, all _ ?_⟩
      have hrsync := congrArg (p.listeners k).rsync hid.symm
      refine Thread.mem_answer.mpr ⟨rfl, hrsync, .inr ?_⟩
      rw [htext, SocketAddr.parse_toString]
  | other own foreign reply =>
    obtain ⟨k, hk⟩ := listens
    subst hreq
    exact absurd hk.symm (foreign k)

/-- If all are fair, the connector is never wrong about its peer, and when it has ended at an
address and its target is a listener, the peer there has already opened the way for it. -/
theorem peers_meet (run : Transition.Run (step p) (init p start lastPong) tr s)
    (fair : Steps (Fair p) tr) :
    s.core.RightPeer ∧ ((∃ k, (p.listeners k).myid = p.target) →
      ∀ addr, s.core.conn.phase = .done (.ok addr) → Met p s addr) := by
  have ih := fairInv_run run fair
  exact ⟨ih.rightPeer, fun listens addr done => met_of_done ih listens done⟩

theorem pair_meets : ∃ tr s, Transition.Run (step pair) (init pair 0 fun _ => []) tr s ∧
    s.core.conn.phase = .done (.ok (host 1)) ∧ Met pair s (host 1) := by
  have script : (exec (step pair) (fun _ a => a.isOther = false) (init pair 0 fun _ => [])
      meeting).any (fun s => s.core.conn.phase = .done (.ok (host 1))) = true := by decide
  obtain ⟨tr, s, run, hC, h⟩ := run_of_exec script
  have done := of_decide_eq_true h
  have fair : Steps (Fair pair) tr := hC.mono fun s a noOther j now req addr ha => by
    rw [ha] at noOther
    cases noOther
  exact ⟨tr, s, run, done, (peers_meet run fair).2 ⟨0, rfl⟩ _ done⟩

end State

end Rendezvous

end Rndz.Udp
