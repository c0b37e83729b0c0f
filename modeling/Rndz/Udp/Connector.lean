import Rndz.Lib.Transition
import Rndz.Net.RoundTrip
import Rndz.Udp.Server

/-!
# `Connector::connect` over UDP

One connector among any number of servers, which may receive any request from any address at
any time: this covers listeners, earlier and concurrent connectors, the `Isync`s of the
connector itself, and whatever the network does to requests. A response a server has sent
stays in flight for ever, so it can be lost, overtaken, delayed and delivered again; it
reaches a connector whose socket for that server has the address it was sent to.

`connect` is followed from the point where its sockets exist, one iteration of a loop at a
time. It looks at the id of the response but not at the id of the `Redirect` in it, so it
may take the answer to another request under its id for its own; `OnlyForTarget` excludes
just this.
-/
namespace Rndz.Udp

open Net Proto Transition
open Function (update update_apply)

inductive ConnectError where
  | io
  | targetNotFound
  | noResponse
  deriving DecidableEq, Repr

/-- Where `connect` stands: before round `round`, in the loop over polls, in the loop over the
sockets before socket `i`, or at its end. -/
inductive Phase where
  | round (round : Nat)
  | poll (round : Nat)
  | scan (round : Nat) (ready : List Bool) (i : Nat)
  | done (result : Except ConnectError SocketAddr)
  deriving DecidableEq, Repr

/-- The variables of `connect`. `chosen` and `marks` are history: the `Redirect` that led to
the result, and those that marked servers as failed. -/
structure Connector where
  id : String
  target : String
  phase : Phase
  failedServers : List Bool
  lastError : Option ConnectError
  chosen : Option Redirect
  marks : List (Nat × Redirect)

namespace Connector

def new (id target : String) (servers : Nat) : Connector where
  id := id
  target := target
  phase := .round 0
  failedServers := List.replicate servers false
  lastError := none
  chosen := none
  marks := []

def allFailed (c : Connector) : Bool := c.failedServers.all (·)

/-- After the last round, or when all servers have failed. -/
def finish (c : Connector) : Connector :=
  { c with phase := .done (.error (c.lastError.getD .noResponse)) }

/-- The top of the loop over rounds. -/
def beginRound (c : Connector) (round : Nat) : Connector :=
  if round = 3 ∨ c.allFailed then c.finish else { c with phase := .poll round }

/-- `poll_sockets` returns one flag a socket, and none for a failed server. -/
def pollable (c : Connector) (ready : List Bool) : Bool :=
  ready.length = c.failedServers.length && (ready.zip c.failedServers).all fun p => !(p.1 && p.2)

/-- What is done with a response received on socket `i`. Connecting the new socket to the
peer succeeds if `connects`. -/
def handleResponse (c : Connector) (i : Nat) (resp : Response) (connects : Bool) : Connector :=
  if resp.id ≠ c.id then
    c
  else
    match resp.cmd with
    | some (.redirect rdr) =>
      if rdr.addr ≠ "" then
        match SocketAddr.parse rdr.addr with
        | some peerAddr =>
          if connects then { c with phase := .done (.ok peerAddr), chosen := some rdr }
          else { c with phase := .done (.error .io) }
        | none => c
      else
        { c with
          lastError := some .targetNotFound
          failedServers := c.failedServers.set i true
          marks := (i, rdr) :: c.marks }
    | _ => c

/-- The `Redirect` in a response that `connect` acts on: one under its id, without an address
or with one that it can connect to. -/
def actsOn (c : Connector) (resp : Response) (connects : Bool) : Option Redirect :=
  if resp.id = c.id then
    match resp.cmd with
    | some (.redirect rdr) =>
      if rdr.addr = "" ∨ (SocketAddr.parse rdr.addr).isSome ∧ connects then some rdr else none
    | _ => none
  else none

end Connector

/-- The servers, what they have received and sent, and the connector. -/
structure State where
  servers : Nat → Server
  received : List (Nat × Request × SocketAddr)
  sent : List (Nat × Datagram)
  conn : Connector

/-- What may happen next: a server receives a request, or collects garbage; the connector's
round begins or its time is over, a poll succeeds or fails, and the loop over the sockets
passes one that is not ready, receives a response, fails to, or receives something else. -/
inductive Action where
  | request (server : Nat) (now : Instant) (req : Request) (addr : SocketAddr)
  | gc (server : Nat) (now next : Instant)
  | begin
  | elapsed
  | polled (ready : List Bool)
  | pollErr
  | pass
  | recv (d : Datagram) (connects : Bool)
  | recvErr
  | recvOther
  deriving DecidableEq, Repr

namespace State

/-- At first all is well with `n` servers. -/
def init (start : Instant) (id target : String) (n : Nat) : State where
  servers _ := .new start
  received := []
  sent := []
  conn := .new id target n

@[simp] def setConn (s : State) (c : Connector) : State := { s with conn := c }

/-- The connector goes on to the next socket. -/
@[simp] def next (s : State) (c : Connector) (round : Nat) (ready : List Bool) (i : Nat) : State :=
  s.setConn { c with phase := .scan round ready (i + 1) }

/-- The body of the loop over the sockets, at socket `i` of the connector, whose address is
`mine` as far as that server is concerned. -/
def scanStep (mine : SocketAddr) (s : State) (round : Nat) (ready : List Bool) (i : Nat) :
    Action → Option State
  | .pass => if ready[i]? = some false then some (s.next s.conn round ready i) else none
  | .recv d connects =>
    if ready[i]? = some true ∧ (i, d) ∈ s.sent ∧ d.addr = mine then
      let c := s.conn.handleResponse i d.resp connects
      match c.phase with
      | .done _ => some (s.setConn c)
      | _ => some (s.next c round ready i)
    else none
  | .recvErr =>
    if ready[i]? = some true then
      some (s.next { s.conn with lastError := some .io } round ready i)
    else none
  | .recvOther => if ready[i]? = some true then some (s.next s.conn round ready i) else none
  | _ => none

def step (mine : Nat → SocketAddr) (s : State) : Action → Option State
  | .request j now req addr =>
    let (server, out) := (s.servers j).handleRequest now req addr
    some
      { s with
        servers := update s.servers j server
        received := s.received ++ [(j, req, addr)]
        sent := s.sent ++ out.map (j, ·) }
  | .gc j now next => some { s with servers := update s.servers j ((s.servers j).gc now next) }
  | .begin =>
    match s.conn.phase with
    | .round r => some (s.setConn (s.conn.beginRound r))
    | _ => none
  | .elapsed =>
    match s.conn.phase with
    | .poll r => some (s.setConn { s.conn with phase := .round (r + 1) })
    | _ => none
  | .polled ready =>
    match s.conn.phase with
    | .poll r =>
      if s.conn.allFailed then
        some (s.setConn { s.conn with phase := .round (r + 1) })
      else if s.conn.pollable ready then
        some (s.setConn { s.conn with phase := .scan r ready 0 })
      else none
    | _ => none
  | .pollErr =>
    match s.conn.phase with
    | .poll r =>
      if s.conn.allFailed then
        some (s.setConn { s.conn with phase := .round (r + 1) })
      else
        some (s.setConn { s.conn with phase := .round (r + 1), lastError := some .io })
    | _ => none
  | a =>
    match s.conn.phase with
    | .scan r ready i =>
      if i < ready.length then s.scanStep (mine i) r ready i a
      else if a = .pass then some (s.setConn { s.conn with phase := .poll r })
      else none
    | _ => none

/-- The `Redirect` that the step makes the connector act on. -/
def acts (s : State) : Action → Option Redirect
  | .recv d connects => s.conn.actsOn d.resp connects
  | _ => none

end State

/-- The runs of the servers with one connector. -/
abbrev Run (mine : Nat → SocketAddr) (start : Instant) (id target : String) (n : Nat) :=
  Transition.Run (State.step mine) (State.init start id target n)

/-! ## Effects of a step on the connector -/

namespace Connector

/-- The effects a response can have. -/
inductive Effect (c : Connector) (i : Nat) (resp : Response) (connects : Bool) :
    Connector → Prop where
  | ignore (idle : c.actsOn resp connects = none) : Effect c i resp connects c
  | refused (idle : c.actsOn resp connects = none) :
      Effect c i resp connects { c with phase := .done (.error .io) }
  | choose {rdr : Redirect} {addr : SocketAddr} (own : resp.id = c.id)
      (cmd : resp.cmd = some (.redirect rdr)) (nonempty : rdr.addr ≠ "")
      (parse : SocketAddr.parse rdr.addr = some addr) (acts : c.actsOn resp connects = some rdr) :
      Effect c i resp connects { c with phase := .done (.ok addr), chosen := some rdr }
  | mark {rdr : Redirect} (own : resp.id = c.id) (cmd : resp.cmd = some (.redirect rdr))
      (empty : rdr.addr = "") (acts : c.actsOn resp connects = some rdr) :
      Effect c i resp connects
        { c with
          lastError := some .targetNotFound
          failedServers := c.failedServers.set i true
          marks := (i, rdr) :: c.marks }

theorem effect_handleResponse (c : Connector) (i : Nat) (resp : Response) (connects : Bool) :
    Effect c i resp connects (c.handleResponse i resp connects) := by
  unfold handleResponse
  split
  · rename_i other
    exact .ignore (by simp [actsOn, other])
  · rename_i own
    have own : resp.id = c.id := not_not.mp own
    split
    · rename_i rdr cmd
      split
      · rename_i nonempty
        split
        · rename_i addr parse
          split
          · rename_i connected
            exact .choose own cmd nonempty parse (by simp [actsOn, own, cmd, parse, connected])
          · rename_i refused
            exact .refused (by simp [actsOn, own, cmd, nonempty, refused])
        · rename_i parse
          exact .ignore (by simp [actsOn, own, cmd, nonempty, parse])
      · rename_i empty
        have empty : rdr.addr = "" := not_not.mp empty
        exact .mark own cmd empty (by simp [actsOn, own, cmd, empty])
    · rename_i other
      refine .ignore ?_
      unfold actsOn
      rw [if_pos own]
      split
      · rename_i rdr cmd
        exact absurd cmd (other rdr)
      · rfl

end Connector

namespace State

variable {mine : Nat → SocketAddr} {s t : State} {a : Action}

/-- The effects a step can have on what the connector acts on. -/
inductive ConnStep (s : State) (a : Action) (t : State) : Prop where
  | quiet (idle : s.acts a = none) (chosen : t.conn.chosen = s.conn.chosen)
      (marks : t.conn.marks = s.conn.marks)
      (failed : t.conn.failedServers = s.conn.failedServers)
      (phase : ∀ addr, t.conn.phase = .done (.ok addr) → s.conn.phase = .done (.ok addr))
  | choose (i : Nat) (d : Datagram) (rdr : Redirect) (addr : SocketAddr) (flying : (i, d) ∈ s.sent)
      (own : d.resp.id = s.conn.id) (cmd : d.resp.cmd = some (.redirect rdr))
      (nonempty : rdr.addr ≠ "") (parse : SocketAddr.parse rdr.addr = some addr)
      (acts : s.acts a = some rdr) (chosen : t.conn.chosen = some rdr)
      (marks : t.conn.marks = s.conn.marks)
      (failed : t.conn.failedServers = s.conn.failedServers)
      (phase : t.conn.phase = .done (.ok addr))
  | mark (i : Nat) (rdr : Redirect) (empty : rdr.addr = "") (acts : s.acts a = some rdr)
      (chosen : t.conn.chosen = s.conn.chosen) (marks : t.conn.marks = (i, rdr) :: s.conn.marks)
      (failed : t.conn.failedServers = s.conn.failedServers.set i true)
      (phase : ∀ addr, t.conn.phase = .done (.ok addr) → s.conn.phase = .done (.ok addr))

theorem quiet_of_phase {c : Connector} (hc : t.conn = c) (idle : s.acts a = none)
    (chosen : c.chosen = s.conn.chosen) (marks : c.marks = s.conn.marks)
    (failed : c.failedServers = s.conn.failedServers)
    (phase : ∀ addr, c.phase ≠ .done (.ok addr)) : ConnStep s a t := by
  subst hc
  exact .quiet idle chosen marks failed fun addr h => absurd h (phase addr)

theorem conn_recv {r i : Nat} {ready : List Bool} {d : Datagram} {connects : Bool}
    (scanning : s.conn.phase = .scan r ready i)
    (h : s.scanStep (mine i) r ready i (.recv d connects) = some t) :
    ConnStep s (.recv d connects) t ∧ t.conn.id = s.conn.id ∧ t.conn.target = s.conn.target := by
  obtain ⟨⟨-, flying, -⟩, h⟩ := Option.ite_none_right_eq_some.mp h
  have effect := s.conn.effect_handleResponse i d.resp connects
  generalize s.conn.handleResponse i d.resp connects = c at h effect
  cases effect with
  | ignore idle =>
    obtain rfl : _ = t := by simpa [scanning] using h
    exact ⟨quiet_of_phase rfl idle rfl rfl rfl (by simp), rfl, rfl⟩
  | refused idle =>
    obtain rfl : _ = t := by simpa using h
    exact ⟨quiet_of_phase rfl idle rfl rfl rfl (by simp), rfl, rfl⟩
  | @choose rdr addr own cmd nonempty parse acts =>
    obtain rfl : _ = t := by simpa using h
    exact ⟨.choose i d rdr addr flying own cmd nonempty parse acts rfl rfl rfl rfl, rfl, rfl⟩
  | @mark rdr own cmd empty acts =>
    obtain rfl : _ = t := by simpa [scanning] using h
    exact ⟨.mark i rdr empty acts rfl rfl rfl (by simp), rfl, rfl⟩

theorem conn_beginRound (c : Connector) (r : Nat) : (c.beginRound r).chosen = c.chosen ∧
    (c.beginRound r).marks = c.marks ∧ (c.beginRound r).failedServers = c.failedServers ∧
    (∀ addr, (c.beginRound r).phase ≠ .done (.ok addr)) ∧ (c.beginRound r).id = c.id ∧
    (c.beginRound r).target = c.target := by
  unfold Connector.beginRound
  split <;> simp [Connector.finish]

theorem conn_step (h : s.step mine a = some t) :
    ConnStep s a t ∧ t.conn.id = s.conn.id ∧ t.conn.target = s.conn.target := by
  cases a with
  | request j now req addr | gc j now next =>
    obtain rfl := Option.some.inj h
    exact ⟨.quiet rfl rfl rfl rfl fun _ h => h, rfl, rfl⟩
  | begin =>
    simp only [step] at h
    split at h
    · rename_i r _
      obtain rfl := Option.some.inj h
      obtain ⟨chosen, marks, failed, phase, hid, htarget⟩ := conn_beginRound s.conn r
      exact ⟨quiet_of_phase rfl rfl chosen marks failed phase, hid, htarget⟩
    · cases h
  | elapsed =>
    simp only [step] at h
    split at h
    · obtain rfl := Option.some.inj h
      exact ⟨quiet_of_phase rfl rfl rfl rfl rfl (by simp), rfl, rfl⟩
    · cases h
  | polled ready =>
    simp only [step] at h
    split at h
    · split at h
      · obtain rfl := Option.some.inj h
        exact ⟨quiet_of_phase rfl rfl rfl rfl rfl (by simp), rfl, rfl⟩
      · obtain ⟨-, h⟩ := Option.ite_none_right_eq_some.mp h
        obtain rfl := Option.some.inj h
        exact ⟨quiet_of_phase rfl rfl rfl rfl rfl (by simp), rfl, rfl⟩
    · cases h
  | pollErr =>
    simp only [step] at h
    split at h
    · split at h <;> obtain rfl := Option.some.inj h <;>
        exact ⟨quiet_of_phase rfl rfl rfl rfl rfl (by simp), rfl, rfl⟩
    · cases h
  | pass | recvErr | recvOther =>
    simp only [step] at h
    split at h
    · split at h
      · obtain ⟨-, h⟩ := Option.ite_none_right_eq_some.mp h
        obtain rfl := Option.some.inj h
        exact ⟨quiet_of_phase rfl rfl rfl rfl rfl (by simp), rfl, rfl⟩
      · obtain ⟨-, h⟩ := Option.ite_none_right_eq_some.mp h
        obtain rfl := Option.some.inj h
        exact ⟨quiet_of_phase rfl rfl rfl rfl rfl (by simp), rfl, rfl⟩
    · cases h
  | recv d connects =>
    simp only [step] at h
    split at h
    · rename_i r ready i scanning
      split at h
      · exact conn_recv scanning h
      · simp at h
    · cases h

/-! ## Where a `Redirect` with an address comes from -/

/-- Some server has received, from the address in `rdr`, an `Rsync` for `id` under the id in
`rdr`. -/
def Replied (s : State) (id : String) (rdr : Redirect) : Prop :=
  ∃ j rsync src, (j, ⟨rdr.id, some (.rsync rsync)⟩, src) ∈ s.received ∧ rsync.id = id ∧
    rdr.addr = src.toString

/-- Every `Redirect` with an address that was sent was a reply. -/
def AllReplied (s : State) : Prop :=
  ∀ p ∈ s.sent, ∀ rdr, p.2.resp.cmd = some (.redirect rdr) → rdr.addr ≠ "" →
    s.Replied p.2.resp.id rdr

/-- A server sends a `Redirect` with an address for an `Rsync` only. -/
theorem redirect_of_handleRequest {server : Server} {now : Instant} {req : Request}
    {addr : SocketAddr} {d : Datagram} {rdr : Redirect}
    (hd : d ∈ (server.handleRequest now req addr).2) (cmd : d.resp.cmd = some (.redirect rdr))
    (nonempty : rdr.addr ≠ "") : ∃ rsync, req = ⟨rdr.id, some (.rsync rsync)⟩ ∧
      rsync.id = d.resp.id ∧ rdr.addr = addr.toString := by
  unfold Server.handleRequest at hd
  split at hd
  · obtain rfl := List.mem_singleton.mp hd
    cases cmd
  · unfold Server.handleIsync at hd
    split at hd
    · obtain rfl := List.mem_singleton.mp hd
      cases cmd
    · obtain rfl := List.mem_singleton.mp hd
      cases cmd
      exact absurd rfl nonempty
  · rename_i rsync hreq
    unfold Server.handleRsync at hd
    split at hd
    · obtain rfl := List.mem_singleton.mp hd
      cases cmd
      exact ⟨rsync, by rw [← hreq], rfl, rfl⟩
    · cases hd
  all_goals cases hd

theorem received_step (h : s.step mine a = some t) : s.received ⊆ t.received ∧
    (t.sent = s.sent ∨ ∃ j now req addr, t.received = s.received ++ [(j, req, addr)] ∧
      t.sent = s.sent ++ ((s.servers j).handleRequest now req addr).2.map (j, ·)) := by
  cases a with
  | request j now req addr =>
    obtain rfl := Option.some.inj h
    exact ⟨by simp, .inr ⟨j, now, req, addr, rfl, rfl⟩⟩
  | gc j now next =>
    obtain rfl := Option.some.inj h
    exact ⟨List.Subset.refl _, .inl rfl⟩
  | _ =>
    have same : t.received = s.received ∧ t.sent = s.sent := by
      simp only [step, scanStep, next, setConn] at h
      grind
    exact ⟨by simp [same.1], .inl same.2⟩

theorem Replied.mono {id : String} {rdr : Redirect} (h : s.Replied id rdr)
    (sub : s.received ⊆ t.received) : t.Replied id rdr := by
  obtain ⟨j, rsync, src, hmem, hid, haddr⟩ := h
  exact ⟨j, rsync, src, sub hmem, hid, haddr⟩

theorem allReplied_step (inv : AllReplied s) (h : s.step mine a = some t) : AllReplied t := by
  obtain ⟨sub, hsent | ⟨j, now, req, addr, hreceived, hsent⟩⟩ := received_step h
  · intro p hp rdr cmd nonempty
    exact (inv p (hsent ▸ hp) rdr cmd nonempty).mono sub
  · intro p hp rdr cmd nonempty
    rcases List.mem_append.mp (hsent ▸ hp) with old | new
    · exact (inv p old rdr cmd nonempty).mono sub
    · obtain ⟨d, hd, rfl⟩ := List.mem_map.mp new
      obtain ⟨rsync, rfl, hid, haddr⟩ := redirect_of_handleRequest hd cmd nonempty
      exact ⟨j, rsync, addr, by simp [hreceived], hid, haddr⟩

/-! ## The right peer -/

/-- `connect` ends at an address from which a server has received an `Rsync` of the target
for the connector, and only the target's absence marks a server as failed. -/
structure RightPeer (s : State) : Prop where
  address : ∀ addr, s.conn.phase = .done (.ok addr) → ∃ rdr, s.conn.chosen = some rdr ∧
    rdr.id = s.conn.target ∧ ∃ j rsync src,
      (j, ⟨s.conn.target, some (.rsync rsync)⟩, src) ∈ s.received ∧ rsync.id = s.conn.id ∧
      rdr.addr = src.toString ∧ addr = src.withoutFlowinfo
  failed : ∀ i, s.conn.failedServers[i]? = some true →
    ∃ rdr, (i, rdr) ∈ s.conn.marks ∧ rdr.id = s.conn.target ∧ rdr.addr = ""
  marks : ∀ m ∈ s.conn.marks, m.2.id = s.conn.target

/-- A `Redirect` that the connector acts on names its target. -/
def OnlyForTarget (s : State) (a : Action) : Prop := ∀ rdr ∈ s.acts a, rdr.id = s.conn.target

instance (s : State) (a : Action) : Decidable (OnlyForTarget s a) :=
  inferInstanceAs (Decidable (∀ rdr ∈ s.acts a, _ = _))

/-- The end of `connect` stays right while more requests are received. -/
theorem address_step (ih : RightPeer s) (sub : s.received ⊆ t.received)
    (hid : t.conn.id = s.conn.id) (htarget : t.conn.target = s.conn.target)
    (chosen : t.conn.chosen = s.conn.chosen) {addr : SocketAddr}
    (haddr : s.conn.phase = .done (.ok addr)) : ∃ rdr, t.conn.chosen = some rdr ∧
      rdr.id = t.conn.target ∧ ∃ j rsync src,
        (j, ⟨t.conn.target, some (.rsync rsync)⟩, src) ∈ t.received ∧ rsync.id = t.conn.id ∧
        rdr.addr = src.toString ∧ addr = src.withoutFlowinfo := by
  obtain ⟨rdr, hrdr, hname, j, rsync, src, hmem, hrest⟩ := ih.address addr haddr
  rw [chosen, htarget, hid]
  exact ⟨rdr, hrdr, hname, j, rsync, src, sub hmem, hrest⟩

theorem rightPeer_step (replied : AllReplied s) (ih : RightPeer s) (hC : OnlyForTarget s a)
    (h : s.step mine a = some t) : RightPeer t := by
  obtain ⟨effect, hid, htarget⟩ := conn_step h
  have sub := (received_step h).1
  cases effect with
  | quiet idle chosen marks failed phase =>
    refine ⟨fun addr haddr => ?_, ?_, ?_⟩
    · exact address_step ih sub hid htarget chosen (phase addr haddr)
    · rw [failed, marks, htarget]
      exact ih.failed
    · rw [marks, htarget]
      exact ih.marks
  | choose i d rdr addr flying own cmd nonempty parse acts chosen marks failed phase =>
    have named := hC rdr acts
    obtain ⟨j, rsync, src, hmem, hrsync, haddr⟩ := replied _ flying rdr cmd nonempty
    refine ⟨fun addr' haddr' => ?_, ?_, ?_⟩
    · obtain rfl : addr = addr' := by simpa [phase] using haddr'
      rw [haddr, SocketAddr.parse_toString] at parse
      rw [chosen, htarget, hid]
      exact ⟨rdr, rfl, named, j, rsync, src, sub (named ▸ hmem), hrsync.trans own, haddr,
        (Option.some.inj parse).symm⟩
    · rw [failed, marks, htarget]
      exact ih.failed
    · rw [marks, htarget]
      exact ih.marks
  | mark i rdr empty acts chosen marks failed phase =>
    have named := hC rdr acts
    refine ⟨fun addr haddr => ?_, fun k hk => ?_, ?_⟩
    · exact address_step ih sub hid htarget chosen (phase addr haddr)
    · rw [marks, htarget]
      by_cases hki : i = k
      · exact ⟨rdr, by simp [hki], named, empty⟩
      · rw [failed, List.getElem?_set_ne hki] at hk
        obtain ⟨rdr', hmem, hrest⟩ := ih.failed k hk
        exact ⟨rdr', List.mem_cons_of_mem _ hmem, hrest⟩
    · rw [marks, htarget]
      exact List.forall_mem_cons.mpr ⟨named, ih.marks⟩

/-- Acting on another target's `Redirect` goes wrong at once. -/
theorem named_of_rightPeer (h : s.step mine a = some t) (ht : RightPeer t) :
    OnlyForTarget s a := by
  intro rdr acts
  obtain ⟨effect, hid, htarget⟩ := conn_step h
  cases effect with
  | quiet idle => simp [idle] at acts
  | choose i d rdr' addr flying own cmd nonempty parse acts' chosen marks failed phase =>
    obtain ⟨rdr₁, hchosen, hname, -⟩ := ht.address addr phase
    have hrdr : rdr = rdr₁ :=
      Option.some.inj (acts.symm.trans (acts'.trans (chosen.symm.trans hchosen)))
    rw [hrdr, hname, htarget]
  | mark i rdr' empty acts' chosen marks failed phase =>
    have hrdr : rdr = rdr' := Option.some.inj (acts.symm.trans acts')
    rw [hrdr, ← htarget]
    exact ht.marks (i, rdr') (by simp [marks])

/-- `connect` reaches its target and drops no server for another's absence, all along a run,
if and only if every `Redirect` it acts on names its target. -/
theorem right_peer_iff {start : Instant} {id target : String} {n : Nat}
    {tr : List (State × Action)} (run : Run mine start id target n tr s) :
    Always RightPeer tr s ↔ Steps OnlyForTarget tr := by
  have replied : Always AllReplied tr s := run.always fun _ _ run =>
    run.invariant (by simp [AllReplied, init]) fun _ _ _ => allReplied_step
  refine run.always_iff_steps replied ?_ (fun s a t replied ih hC h =>
    rightPeer_step replied ih hC h) fun s a t _ _ h ht => named_of_rightPeer h ht
  constructor <;> simp [init, Connector.new, List.getElem?_replicate]

/-- A listener `u` and a connector `c` meet at the only server: its `Redirect` for `u` is in
flight to the connector's address. -/
def firstConnect : List Action :=
  [.request 0 1 ⟨"u", some .ping⟩ (host 1), .request 0 2 ⟨"c", some (.isync ⟨"u"⟩)⟩ (host 3),
    .request 0 3 ⟨"u", some (.rsync { id := "c" })⟩ (host 1)]

/-- The `Redirect` that arrives late. -/
def lateRedirect : Datagram := ⟨host 3, ⟨"c", some (.redirect ⟨"u", (host 1).toString⟩)⟩⟩

/-- The next `connect` from the same address, which receives it. -/
def secondConnect : List Action := [.begin, .polled [true], .recv lateRedirect true]

/-- The second `connect` asks for `t`, and ends at `u`. -/
theorem connect_reaches_previous : ¬∀ mine start id target n tr s,
    Run mine start id target n tr s → RightPeer s := by
  have script : (exec (State.step fun _ => host 3) (fun _ _ => True) (init 0 "c" "t" 1)
      (firstConnect ++ secondConnect)).any
      (fun s => s.conn.phase = .done (.ok (host 1)) ∧ s.conn.target = "t" ∧
        s.conn.chosen = some ⟨"u", (host 1).toString⟩) = true := by decide
  obtain ⟨tr, s, run, -, h⟩ := run_of_exec script
  obtain ⟨phase, target, chosen⟩ := of_decide_eq_true h
  intro all
  obtain ⟨rdr, hrdr, hname, -⟩ := (all _ 0 "c" "t" 1 tr s run).address _ phase
  obtain rfl : _ = rdr := Option.some.inj (chosen.symm.trans hrdr)
  exact absurd (hname.trans target) (by decide)

/-- Had it asked for `u` again, the late `Redirect` would have been the right one. -/
theorem connect_reaches_target : ∃ tr s, Run (fun _ => host 3) 0 "c" "u" 1 tr s ∧
    s.conn.phase = .done (.ok (host 1)) ∧ Always RightPeer tr s := by
  have script : (exec (State.step fun _ => host 3) OnlyForTarget (init 0 "c" "u" 1)
      (firstConnect ++ secondConnect)).any
      (fun s => s.conn.phase = .done (.ok (host 1))) = true := by decide
  obtain ⟨tr, s, run, hC, h⟩ := run_of_exec script
  exact ⟨tr, s, run, of_decide_eq_true h, (right_peer_iff run).mpr hC⟩

end State

end Rndz.Udp
