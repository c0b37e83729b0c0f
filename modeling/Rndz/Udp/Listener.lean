import Rndz.Net.SocketAddr
import Rndz.Udp.Poll
import Rndz.Udp.Server

/-!
# The background loop of `Listener::listen` over UDP

One iteration after another. An iteration takes what its system calls return and the clock
values it reads, and returns the requests it sends; what becomes of them is not its concern.
A socket is named by its place among the sockets of the servers.
-/
namespace Rndz.Udp

open Net Proto

/-- `Duration::from_millis` -/
def fromMillis (millis : Nat) : Int := millis * 1000000

/-- `Instant::elapsed`, which is zero before the instant. -/
def elapsed (since now : Instant) : Int := max 0 (now - since)

/-- `keepalive_to` -/
def keepaliveTo : Int := fromSecs 10

/-- What `recv` returns on a non-blocking socket. A datagram is what the buffer of 1500 bytes holds
of it; the response is `none` if that cannot be parsed. -/
inductive Received where
  | datagram (resp : Option Response)
  | wouldBlock
  | err
  deriving DecidableEq, Repr

/-- What the thread takes with it: the id of the listener, and for each socket the address of
its server. -/
structure Thread where
  myid : String
  svrSks : List SocketAddr
  deriving DecidableEq, Repr

/-- The variables of the loop. `last_pong` belongs to the listener. -/
structure Loop where
  pingTimes : List (Option Instant)
  failedServers : List Bool
  lastPong : List (Option Instant)
  deriving DecidableEq, Repr

/-- The random variation of a ping time, in milliseconds. -/
abbrev Variation := Fin 5000

def noVariation : Variation := ⟨0, Nat.zero_lt_succ 4999⟩

/-- The clock values read for the ping of one socket, and the variation drawn for it. -/
structure Reading where
  checkedAt : Instant
  setAt : Instant
  variation : Variation
  deriving DecidableEq, Repr

/-- One iteration: the readings of each socket, the events that `poll` reports unless it
fails, what `recv` returns on each socket, and the time of a pong on it. -/
structure Iteration where
  readings : Nat → Reading
  events : Option (Nat → PollFlags)
  recv : Nat → Received
  pongAt : Nat → Instant

/-- A request is sent on a socket. -/
structure Sent where
  socket : Nat
  addr : SocketAddr
  req : Request
  deriving DecidableEq, Repr

/-- A ping is sent at first, and when the last ping time is over. -/
def pingDue (pingTime : Option Instant) (r : Reading) : Bool :=
  match pingTime with
  | none => true
  | some t => keepaliveTo < elapsed t r.checkedAt

/-- The ping time after the check. -/
def nextPing (pingTime : Option Instant) (r : Reading) : Option Instant :=
  if pingDue pingTime r then some (r.setAt + fromMillis r.variation) else pingTime

namespace Thread

/-- The variables at the start of the thread. -/
def start (c : Thread) (lastPong : List (Option Instant)) : Loop where
  pingTimes := List.replicate c.svrSks.length none
  failedServers := List.replicate c.svrSks.length false
  lastPong := lastPong

def ping (c : Thread) : Request := ⟨c.myid, some .ping⟩

/-- `send_rsync` -/
def rsync (c : Thread) (targetId : String) : Request := ⟨c.myid, some (.rsync { id := targetId })⟩

/-- The loop over the sockets that sends the pings. -/
def sendPings (c : Thread) (l : Loop) (it : Iteration) : Loop × List Sent :=
  ({ l with pingTimes := l.pingTimes.mapIdx fun i t => nextPing t (it.readings i) },
    (c.svrSks.zipIdx.filter fun p => l.pingTimes[p.2]?.any (pingDue · (it.readings p.2))).map
      fun p => ⟨p.2, p.1, c.ping⟩)

/-- What is sent on an `Fsync` from the server at `addr`. -/
def answer (c : Thread) (i : Nat) (addr : SocketAddr) (fsync : Fsync) : List Sent :=
  ⟨i, addr, c.rsync fsync.id⟩ ::
    match SocketAddr.parse fsync.addr with
    | some peerAddr => [⟨i, peerAddr, c.rsync fsync.id⟩]
    | none => []

/-- What is done after `recv` on socket `i`. -/
def receive (c : Thread) (l : Loop) (i : Nat) (addr : SocketAddr) (pongAt : Instant) :
    Received → Loop × List Sent
  | .datagram (some resp) =>
    if resp.id ≠ c.myid then
      (l, [])
    else
      match resp.cmd with
      | some .pong => ({ l with lastPong := l.lastPong.set i (some pongAt) }, [])
      | some (.fsync fsync) => (l, c.answer i addr fsync)
      | _ => (l, [])
  | .datagram none => (l, [])
  | .wouldBlock => (l, [])
  | .err => ({ l with failedServers := l.failedServers.set i true }, [])

/-- The loop over the sockets that reads those that are ready. -/
def serve (c : Thread) (it : Iteration) (ready : List Bool) :
    Loop → List (SocketAddr × Nat) → Loop × List Sent
  | l, [] => (l, [])
  | l, (addr, i) :: rest =>
    if ready[i]? = some true then
      let (l, out) := c.receive l i addr (it.pongAt i) (it.recv i)
      let (l, outRest) := c.serve it ready l rest
      (l, out ++ outRest)
    else
      c.serve it ready l rest

/-- The body of the main event loop. -/
def iterate (c : Thread) (l : Loop) (it : Iteration) : Loop × List Sent :=
  let (l, pings) := c.sendPings l it
  match pollSockets (kernelPoll it.events) l.failedServers with
  | .ok ready =>
    let (l, out) := c.serve it ready l c.svrSks.zipIdx
    (l, pings ++ out)
  | .error _ => (l, pings)

/-- The variables after the iterations. -/
def run (c : Thread) (l : Loop) (its : List Iteration) : Loop :=
  its.foldl (fun l it => (c.iterate l it).1) l

@[simp] theorem run_nil (c : Thread) (l : Loop) : c.run l [] = l := rfl

@[simp] theorem run_concat (c : Thread) (l : Loop) (its : List Iteration) (it : Iteration) :
    c.run l (its ++ [it]) = (c.iterate (c.run l its) it).1 := by
  simp [run]

end Thread

/-! ## What an iteration offers -/

namespace Iteration

/-- `poll` succeeds and reports that socket `i` can be read. -/
def readable (it : Iteration) (i : Nat) : Bool := it.events.any fun events =>
  (events i).contains .pollin

/-- `recv` fails on socket `i`, which can be read. -/
def FailsAt (it : Iteration) (i : Nat) : Prop := it.readable i = true ∧ it.recv i = .err

/-- An `Fsync` for `id` can be read on socket `i`. -/
def Offers (it : Iteration) (id : String) (i : Nat) (fsync : Fsync) : Prop :=
  it.readable i = true ∧ it.recv i = .datagram (some ⟨id, some (.fsync fsync)⟩)

instance (it : Iteration) (i : Nat) : Decidable (it.FailsAt i) :=
  inferInstanceAs (Decidable (_ ∧ _))

instance (it : Iteration) (id : String) (i : Nat) (fsync : Fsync) :
    Decidable (it.Offers id i fsync) :=
  inferInstanceAs (Decidable (_ ∧ _))

end Iteration

namespace Thread

variable {c : Thread} {l : Loop} {it : Iteration} {i k : Nat} {addr : SocketAddr}

/-! ## Effects of an iteration -/

@[simp] theorem pingTimes_receive (pongAt : Instant) (r : Received) :
    (c.receive l i addr pongAt r).1.pingTimes = l.pingTimes := by
  unfold receive
  split
  · split
    · rfl
    · split <;> rfl
  all_goals rfl

/-- Only an error on its socket marks a server as failed. -/
@[simp] theorem failedServers_receive (pongAt : Instant) (r : Received) :
    (c.receive l i addr pongAt r).1.failedServers =
      if r = .err then l.failedServers.set i true else l.failedServers := by
  unfold receive
  split
  · split
    · rfl
    · split <;> rfl
  all_goals rfl

/-- Only a `Pong` for the listener is recorded, at the time it is handled. -/
theorem lastPong_receive (pongAt : Instant) (r : Received) :
    (c.receive l i addr pongAt r).1.lastPong =
      if r = .datagram (some ⟨c.myid, some .pong⟩) then l.lastPong.set i (some pongAt)
      else l.lastPong := by
  unfold receive
  split
  · rename_i resp
    obtain ⟨id, cmd⟩ := resp
    dsimp only
    split
    · rename_i foreign
      simp [foreign]
    · rename_i own
      obtain rfl := not_not.mp own
      split <;> simp_all
  all_goals simp

theorem pingTimes_serve (ready : List Bool) (l : Loop) (sks : List (SocketAddr × Nat)) :
    (c.serve it ready l sks).1.pingTimes = l.pingTimes := by
  induction sks generalizing l with
  | nil => rfl
  | cons sk sks ih =>
    unfold serve
    split
    · simp [ih]
    · exact ih l

theorem length_failed_serve (ready : List Bool) (l : Loop) (sks : List (SocketAddr × Nat)) :
    (c.serve it ready l sks).1.failedServers.length = l.failedServers.length := by
  induction sks generalizing l with
  | nil => rfl
  | cons sk sks ih =>
    unfold serve
    split
    · simp only [ih, failedServers_receive]
      split <;> simp
    · exact ih l

theorem length_lastPong_serve (ready : List Bool) (l : Loop) (sks : List (SocketAddr × Nat)) :
    (c.serve it ready l sks).1.lastPong.length = l.lastPong.length := by
  induction sks generalizing l with
  | nil => rfl
  | cons sk sks ih =>
    simp only [serve]
    split
    · simp only [ih, lastPong_receive]
      split <;> simp
    · exact ih l

/-- A server is marked as failed if it was before, or if `recv` fails on its socket. -/
theorem failed_serve (ready : List Bool) (l : Loop) (sks : List (SocketAddr × Nat)) :
    (c.serve it ready l sks).1.failedServers[k]? = some true ↔
      l.failedServers[k]? = some true ∨ k < l.failedServers.length ∧
        ready[k]? = some true ∧ it.recv k = .err ∧ ∃ addr, (addr, k) ∈ sks := by
  induction sks generalizing l with
  | nil => simp [serve]
  | cons sk sks ih =>
    obtain ⟨addr, i⟩ := sk
    unfold serve
    split
    · rename_i hready
      simp only [ih, failedServers_receive]
      by_cases herr : it.recv i = .err
      · by_cases hik : i = k
        · subst hik
          simp only [herr, if_true, List.length_set, List.getElem?_set_self', List.mem_cons,
            Prod.mk.injEq, and_true, exists_or]
          cases hl : l.failedServers[i]? with
          | none => simp [Nat.not_lt.mpr (List.getElem?_eq_none_iff.mp hl)]
          | some b => simp [hready, (List.getElem?_eq_some_iff.mp hl).1]
        · simp [herr, List.getElem?_set_ne hik, Ne.symm hik]
      · simp only [herr, if_false, List.mem_cons]
        grind
    · rename_i hready
      simp only [ih, List.mem_cons]
      grind

/-- What is sent for a socket that is ready is sent. -/
theorem receive_subset_serve (it : Iteration) {ready : List Bool} {sks : List (SocketAddr × Nat)}
    (hready : ready[i]? = some true) (hmem : (addr, i) ∈ sks) (l : Loop) :
    ∃ l', (c.receive l' i addr (it.pongAt i) (it.recv i)).2 ⊆ (c.serve it ready l sks).2 := by
  induction sks generalizing l with
  | nil => cases hmem
  | cons sk sks ih =>
    rcases List.mem_cons.mp hmem with rfl | hmem
    · refine ⟨l, ?_⟩
      simp [serve, hready]
    · unfold serve
      split
      · obtain ⟨l', sub⟩ := ih hmem (c.receive l sk.2 sk.1 (it.pongAt sk.2) (it.recv sk.2)).1
        exact ⟨l', List.Subset.trans sub (List.subset_append_right _ _)⟩
      · exact ih hmem l

/-- Whatever is sent after `recv` is an `Rsync`, on the same socket. -/
theorem rsync_of_receive {pongAt : Instant} {r : Received} {d : Sent}
    (hd : d ∈ (c.receive l i addr pongAt r).2) :
    d.socket = i ∧ ∃ targetId, d.req = c.rsync targetId := by
  unfold receive at hd
  split at hd
  · split at hd
    · cases hd
    · split at hd
      · cases hd
      · rename_i fsync _
        unfold answer at hd
        split at hd <;> grind
      · cases hd
  all_goals cases hd

/-- Only `Rsync`s are sent for the sockets, and only on those that are ready. -/
theorem ready_of_serve {ready : List Bool} {sks : List (SocketAddr × Nat)} {d : Sent}
    (hd : d ∈ (c.serve it ready l sks).2) :
    ready[d.socket]? = some true ∧ ∃ targetId, d.req = c.rsync targetId := by
  induction sks generalizing l with
  | nil => cases hd
  | cons sk sks ih =>
    unfold serve at hd
    split at hd
    · rename_i hready
      rcases List.mem_append.mp hd with hd | hd
      · obtain ⟨hsocket, hreq⟩ := rsync_of_receive hd
        rw [hsocket]
        exact ⟨hready, hreq⟩
      · exact ih hd
    · exact ih hd

/-- What an iteration does: the pings, and then nothing if the poll fails, else the round over
the sockets that can be read and have not failed. -/
theorem iterate_cases (c : Thread) (l : Loop) (it : Iteration) :
    (∃ ready : List Bool, (∀ i, ready[i]? = some true ↔
        l.failedServers[i]? = some false ∧ it.readable i = true) ∧
      c.iterate l it = ((c.serve it ready (c.sendPings l it).1 c.svrSks.zipIdx).1,
        (c.sendPings l it).2 ++ (c.serve it ready (c.sendPings l it).1 c.svrSks.zipIdx).2)) ∨
    it.events = none ∧ c.iterate l it = c.sendPings l it := by
  cases hpoll : pollSockets (kernelPoll it.events) l.failedServers with
  | ok ready =>
    refine .inl ⟨ready, fun i => pollSockets_ok hpoll, ?_⟩
    have hpoll' : pollSockets (kernelPoll it.events) (c.sendPings l it).1.failedServers =
      .ok ready := hpoll
    simp [iterate, hpoll']
  | error e =>
    have hpoll' : pollSockets (kernelPoll it.events) (c.sendPings l it).1.failedServers =
      .error e := hpoll
    exact .inr ⟨pollSockets_error hpoll, by simp [iterate, hpoll']⟩

/-- The ping times do not depend on what has failed. -/
theorem pingTimes_iterate : (c.iterate l it).1.pingTimes =
    l.pingTimes.mapIdx fun i t => nextPing t (it.readings i) := by
  obtain ⟨ready, -, heq⟩ | ⟨-, heq⟩ := iterate_cases c l it
  · rw [heq]
    exact pingTimes_serve _ _ _
  · rw [heq]
    rfl

theorem length_failed_iterate :
    (c.iterate l it).1.failedServers.length = l.failedServers.length := by
  obtain ⟨ready, -, heq⟩ | ⟨-, heq⟩ := iterate_cases c l it
  · rw [heq]
    exact length_failed_serve _ _ _
  · rw [heq]
    rfl

theorem length_lastPong_iterate :
    (c.iterate l it).1.lastPong.length = l.lastPong.length := by
  obtain ⟨ready, -, heq⟩ | ⟨-, heq⟩ := iterate_cases c l it
  · rw [heq]
    exact length_lastPong_serve _ _ _
  · rw [heq]
    rfl

theorem sendPings_subset_iterate : (c.sendPings l it).2 ⊆ (c.iterate l it).2 := by
  obtain ⟨ready, -, heq⟩ | ⟨-, heq⟩ := iterate_cases c l it
  · rw [heq]
    exact List.subset_append_left _ _
  · rw [heq]
    exact List.Subset.refl _

theorem mem_sendPings {d : Sent} : d ∈ (c.sendPings l it).2 ↔
    c.svrSks[d.socket]? = some d.addr ∧ d.req = c.ping ∧
      ∃ t, l.pingTimes[d.socket]? = some t ∧ pingDue t (it.readings d.socket) = true := by
  obtain ⟨i, addr, req⟩ := d
  simp only [sendPings, List.mem_map, List.mem_filter, List.mem_zipIdx_iff_getElem?,
    Option.any_eq_true]
  constructor
  · rintro ⟨⟨addr', i'⟩, ⟨hsk, t, ht, due⟩, heq⟩
    cases heq
    exact ⟨hsk, rfl, t, ht, due⟩
  · rintro ⟨hsk, rfl, t, ht, due⟩
    exact ⟨(addr, i), ⟨hsk, t, ht, due⟩, rfl⟩

/-- Every ping that is due is sent, also to a server marked as failed. -/
theorem ping_sent {t : Option Instant} (hsk : c.svrSks[i]? = some addr)
    (htime : l.pingTimes[i]? = some t) (due : pingDue t (it.readings i) = true) :
    ⟨i, addr, c.ping⟩ ∈ (c.iterate l it).2 :=
  sendPings_subset_iterate (mem_sendPings.mpr ⟨hsk, rfl, t, htime, due⟩)

theorem ping_ne_rsync {targetId : String} : c.ping ≠ c.rsync targetId := by
  simp [ping, rsync]

/-- A ping is sent only when it is due. -/
theorem due_of_ping {d : Sent} (hd : d ∈ (c.iterate l it).2) (hreq : d.req = c.ping) :
    ∃ t, l.pingTimes[d.socket]? = some t ∧ pingDue t (it.readings d.socket) = true := by
  obtain ⟨ready, -, heq⟩ | ⟨-, heq⟩ := iterate_cases c l it
  · rw [heq] at hd
    rcases List.mem_append.mp hd with hd | hd
    · exact (mem_sendPings.mp hd).2.2
    · obtain ⟨-, targetId, hrsync⟩ := ready_of_serve hd
      exact absurd (hreq.symm.trans hrsync) ping_ne_rsync
  · rw [heq] at hd
    exact (mem_sendPings.mp hd).2.2

theorem mem_svrSks : (∃ addr, (addr, i) ∈ c.svrSks.zipIdx) ↔ i < c.svrSks.length := by
  simp [List.mem_zipIdx_iff_getElem?, List.getElem?_eq_some_iff]

/-- A server is marked as failed if it was before, or if `recv` fails on its socket. -/
theorem failed_iterate (hlen : l.failedServers.length = c.svrSks.length) :
    (c.iterate l it).1.failedServers[i]? = some true ↔
      l.failedServers[i]? = some true ∨ i < c.svrSks.length ∧ it.FailsAt i := by
  obtain ⟨ready, hready, heq⟩ | ⟨hnone, heq⟩ := iterate_cases c l it
  · have same : (c.sendPings l it).1.failedServers = l.failedServers := rfl
    rw [heq, failed_serve, same, hready, mem_svrSks, hlen]
    unfold Iteration.FailsAt
    by_cases hi : i < c.svrSks.length
    · have : l.failedServers[i]? = some true ∨ l.failedServers[i]? = some false := by
        cases hb : l.failedServers[i]? with
        | none => simp_all
        | some b => cases b <;> simp
      grind
    · simp [hi]
  · have same : (c.sendPings l it).1.failedServers = l.failedServers := rfl
    rw [heq, same]
    simp [Iteration.FailsAt, Iteration.readable, hnone]

end Thread

end Rndz.Udp
