import Rndz.Lib.History
import Rndz.Udp.Answer
import Rndz.Udp.Rendezvous

/-!
# What `last_pong` tells

A listener's `last_pong` has for each server the time of the latest `Pong` that has been read from
its socket. Whoever else writes to the servers, there is no `Pong` for a listener unless a server
has received a `Ping` under its id from just the socket on which it is read.
-/
namespace Rndz.Udp

open Net Proto Transition History
open Function (update)

/-! ## The background loop -/

namespace Thread

variable {c : Thread} {l : Loop} {it : Iteration} {its past : List Iteration} {i k : Nat}
  {addr : SocketAddr} {v : Instant}

/-- A `Pong` for the listener is read on socket `i` at time `v`; no `recv` has failed there. -/
def Pongs (c : Thread) (i : Nat) (past : List Iteration) (it : Iteration) (v : Instant) : Prop :=
  it.readable i = true ∧ it.recv i = .datagram (some ⟨c.myid, some .pong⟩) ∧ it.pongAt i = v ∧
    ∀ e ∈ past, ¬e.FailsAt i

/-- Of the sockets that are served, those that are ready and bring a `Pong` are recorded. -/
theorem lastPong_serve (ready : List Bool) (l : Loop) {sks : List (SocketAddr × Nat)}
    (hk : k < l.lastPong.length) : (c.serve it ready l sks).1.lastPong[k]? =
      if ready[k]? = some true ∧ it.recv k = .datagram (some ⟨c.myid, some .pong⟩) ∧
        k ∈ sks.map Prod.snd then some (some (it.pongAt k)) else l.lastPong[k]? := by
  induction sks generalizing l with
  | nil => simp [serve]
  | cons sk sks ih =>
    obtain ⟨addr, i⟩ := sk
    simp only [serve, List.map_cons, List.mem_cons]
    split
    · rename_i hready
      rw [ih _ (by rw [lastPong_receive]; split <;> simpa), lastPong_receive]
      by_cases hki : k = i
      · subst hki
        by_cases hpong : it.recv k = .datagram (some ⟨c.myid, some .pong⟩)
        · simp [hready, hpong, hk]
        · simp [hpong]
      · have other : (if it.recv i = .datagram (some ⟨c.myid, some .pong⟩) then
            l.lastPong.set i (some (it.pongAt i)) else l.lastPong)[k]? = l.lastPong[k]? := by
          split
          · exact List.getElem?_set_ne (Ne.symm hki)
          · rfl
        rw [other]
        simp only [hki, false_or]
    · rename_i hready
      rw [ih l hk]
      by_cases hki : k = i
      · subst hki
        simp [hready]
      · simp only [hki, false_or]

theorem lastPong_iterate (len : l.lastPong.length = c.svrSks.length) (hi : i < c.svrSks.length) :
    (c.iterate l it).1.lastPong[i]? =
      if l.failedServers[i]? = some false ∧ it.readable i = true ∧
        it.recv i = .datagram (some ⟨c.myid, some .pong⟩) then some (some (it.pongAt i))
      else l.lastPong[i]? := by
  have served : i ∈ c.svrSks.zipIdx.map Prod.snd :=
    List.mem_map.mpr ⟨(c.svrSks[i], i),
      List.mem_zipIdx_iff_getElem?.mpr (List.getElem?_eq_getElem hi), rfl⟩
  obtain ⟨ready, hready, heq⟩ | ⟨hnone, heq⟩ := iterate_cases c l it
  · rw [heq, lastPong_serve ready _ (by simpa [sendPings, len] using hi)]
    simp only [hready, served, and_true, and_assoc]
    rfl
  · simp [heq, Iteration.readable, hnone, sendPings]

theorem length_lastPong_run (lastPong : List (Option Instant)) (its : List Iteration) :
    (c.run (c.start lastPong) its).lastPong.length = lastPong.length := by
  induction its using List.reverseRecOn with
  | nil => rfl
  | append_singleton its it ih =>
    rw [run_concat, length_lastPong_iterate]
    exact ih

/-- A server is polled as long as `recv` has not failed on its socket. -/
theorem usable_run {lastPong : List (Option Instant)} (hi : i < c.svrSks.length) :
    (c.run (c.start lastPong) its).failedServers[i]? = some false ↔ ∀ e ∈ its, ¬e.FailsAt i := by
  have len := length_failed_run c lastPong its
  have failed : (c.run (c.start lastPong) its).failedServers[i]? = some true ↔
      ∃ e ∈ its, e.FailsAt i := by
    rw [failed_run]
    exact and_iff_right hi
  rw [List.getElem?_eq_getElem (by omega)] at failed ⊢
  rw [← not_iff_not, not_forall]
  simpa using failed

/-- The value for a server is the time of the latest `Pong` from it. -/
theorem lastPong_run (its : List Iteration) (hi : i < c.svrSks.length) :
    (c.run (c.start (List.replicate c.svrSks.length none)) its).lastPong[i]? = some (some v) ↔
      Latest (c.Pongs i) its v := by
  induction its using List.reverseRecOn with
  | nil =>
    refine iff_of_false ?_ not_latest_nil
    simp [start, List.getElem?_replicate]
  | append_singleton its it ih =>
    have len := length_lastPong_run (c := c) (List.replicate c.svrSks.length none) its
    rw [run_concat, lastPong_iterate (by simpa using len) hi, latest_concat, ← ih]
    simp only [usable_run hi]
    by_cases h : (∀ e ∈ its, ¬e.FailsAt i) ∧ it.readable i = true ∧
        it.recv i = .datagram (some ⟨c.myid, some .pong⟩)
    · have pongs : ∀ w, c.Pongs i its it w ↔ it.pongAt i = w := by
        intro w
        simp only [Pongs, h.2.1, h.2.2, true_and]
        exact and_iff_left h.1
      rw [if_pos h]
      simp [pongs]
    · have none : ∀ w, ¬c.Pongs i its it w := by
        rintro w ⟨readable, pong, -, usable⟩
        exact h ⟨usable, readable, pong⟩
      rw [if_neg h]
      simp [none]

end Thread

/-! ## Where a pong comes from -/

/-- A `Pong` answers a `Ping`, and goes to where that has come from. -/
theorem Server.ping_of_pong {s : Server} {now : Instant} {req : Request} {addr : SocketAddr}
    {d : Datagram} (hd : d ∈ (s.handleRequest now req addr).2) (pong : d.resp.cmd = some .pong) :
    req = ⟨d.resp.id, some .ping⟩ ∧ addr = d.addr := by
  obtain ⟨id, cmd⟩ := req
  unfold handleRequest at hd
  split at hd
  · rename_i hcmd
    obtain rfl := List.mem_singleton.mp hd
    obtain rfl : cmd = some .ping := hcmd
    exact ⟨rfl, rfl⟩
  · unfold handleIsync at hd
    split at hd <;> obtain rfl := List.mem_singleton.mp hd <;> cases pong
  · unfold handleRsync at hd
    split at hd
    · obtain rfl := List.mem_singleton.mp hd
      cases pong
    · cases hd
  all_goals cases hd

namespace Rendezvous.State

variable {p : Parties} {s t : State} {a : Action} {k i : Nat} {v start : Instant}
  {tr : List (State × Action)}

/-- The iterations of listener `k` in a run. -/
def iterations (k : Nat) (tr : List (State × Action)) : List Iteration :=
  tr.filterMap fun e => match e.2 with
    | .iterate k' it => if k' = k then some it else none
    | _ => none

/-- Each `Pong` that a server has sent answers a `Ping` from where it has been sent to. -/
def PongsAnswer (s : State) : Prop :=
  ∀ m ∈ s.core.sent, m.2.resp.cmd = some .pong →
    (m.1, ⟨m.2.resp.id, some .ping⟩, m.2.addr) ∈ s.core.received

theorem pongsAnswer_step (ih : s.PongsAnswer) (rule : Rule p s a t) : t.PongsAnswer := by
  cases rule with
  | core step received sent =>
    intro m hm pong
    rw [received]
    exact ih m (sent ▸ hm) pong
  | @request core j now req addr comes step =>
    obtain rfl := Option.some.inj step
    intro m hm pong
    rcases List.mem_append.mp hm with old | new
    · exact List.mem_append_left _ (ih m old pong)
    · obtain ⟨d, hd, rfl⟩ := List.mem_map.mp new
      obtain ⟨rfl, rfl⟩ := Server.ping_of_pong hd pong
      exact List.mem_append_right _ List.mem_cons_self
  | iterate iterated delivered => exact ih

theorem loops_request {j : Nat} {now : Instant} {req : Request} {addr : SocketAddr}
    (h : s.request p j now req addr = some t) : t.loops = s.loops := by
  obtain ⟨core, -, rfl⟩ := Option.map_eq_some_iff.mp h
  rfl

/-- Only an iteration changes the variables of a loop. -/
theorem loops_step (h : s.step p a = some t) : t.loops =
    match a with
    | .iterate k it => update s.loops k ((p.listeners k).iterate (s.loops k) it).1
    | _ => s.loops := by
  cases a with
  | core a =>
    simp only [step] at h
    split at h
    · cases h
    · obtain ⟨core, -, rfl⟩ := Option.map_eq_some_iff.mp h
      rfl
  | isync j now | listener j now k d =>
    obtain ⟨-, h⟩ := Option.ite_none_right_eq_some.mp h
    exact loops_request h
  | other j now req addr => exact loops_request h
  | iterate k it =>
    obtain ⟨-, h⟩ := Option.ite_none_right_eq_some.mp h
    obtain rfl := Option.some.inj h
    rfl

theorem iterations_concat : iterations k (tr ++ [(s, a)]) = iterations k tr ++
    match a with
    | .iterate k' it => if k' = k then [it] else []
    | _ => [] := by
  rw [iterations, List.filterMap_append]
  congr 1
  cases a with
  | iterate k' it => by_cases hk : k' = k <;> simp [hk]
  | _ => rfl

theorem loops_run {lastPong : Nat → List (Option Instant)}
    (run : Transition.Run (step p) (init p start lastPong) tr s) (k : Nat) :
    s.loops k = (p.listeners k).run ((p.listeners k).start (lastPong k)) (iterations k tr) := by
  induction run with
  | start => rfl
  | @next tr s t a run h ih =>
    rw [loops_step h, iterations_concat]
    cases a with
    | iterate k' it =>
      by_cases hk : k' = k
      · subst hk
        simp [ih]
      · simp [hk, Ne.symm hk, ih]
    | _ => simpa using ih

/-- What `last_pong` tells a listener of server `i`: the time of the latest `Pong` under its id
that has been read from its socket for that server. And whenever one has been read, the server has
received a `Ping` under this id from that socket before. -/
theorem last_pong_tells
    (run : Transition.Run (step p)
      (init p start fun k => List.replicate (p.listeners k).svrSks.length none) tr s)
    (hi : i < (p.listeners k).svrSks.length) :
    ((s.loops k).lastPong[i]? = some (some v) ↔
        Latest ((p.listeners k).Pongs i) (iterations k tr) v) ∧
      ∀ past s' it later, tr = past ++ (s', .iterate k it) :: later →
        (p.listeners k).Pongs i (iterations k past) it v →
          ∃ j, (p.listeners k).svrSks[i]? = some (p.serverAddr j) ∧
            (j, (p.listeners k).ping, p.listenerAddr k i) ∈ s'.core.received := by
  constructor
  · rw [loops_run run k]
    exact Thread.lastPong_run _ hi
  · rintro past s' it later rfl ⟨-, pong, -, -⟩
    obtain ⟨before, t, h, -⟩ := run.split
    have answered : s'.PongsAnswer := before.invariant (by simp [PongsAnswer, init, Udp.State.init])
      fun _ _ _ ih h => pongsAnswer_step ih (rule_of_step h)
    obtain ⟨delivered, -⟩ := Option.ite_none_right_eq_some.mp h
    have delivered := List.all_eq_true.mp delivered i (List.mem_range.mpr hi)
    rw [pong, delivers, List.any_eq_true] at delivered
    obtain ⟨⟨j, d⟩, sent, hfrom⟩ := delivered
    obtain ⟨server, rfl⟩ := of_decide_eq_true hfrom
    exact ⟨j, server, answered _ sent rfl⟩

/-- The listener of `pair` pings its server and is answered. -/
theorem pong_tells : ∃ tr s,
    Transition.Run (step pair)
      (init pair 0 fun k => List.replicate (pair.listeners k).svrSks.length none) tr s ∧
    (s.loops 0).lastPong[0]? = some (some 5) ∧
      Latest ((pair.listeners 0).Pongs 0) (iterations 0 tr) 5 := by
  have script : (exec (step pair) (fun _ _ => True)
      (init pair 0 fun k => List.replicate (pair.listeners k).svrSks.length none)
      [.iterate 0 (receiving none), .listener 0 1 0 ⟨0, host 9, (pair.listeners 0).ping⟩,
        .iterate 0 { receiving (some ⟨"t", some .pong⟩) with pongAt _ := 5 }]).any
      (fun s => (s.loops 0).lastPong[0]? = some (some 5)) = true := by decide
  obtain ⟨tr, s, run, -, h⟩ := run_of_exec script
  have pong := of_decide_eq_true h
  exact ⟨tr, s, run, pong, (last_pong_tells run (by decide)).1.mp pong⟩

end Rendezvous.State

end Rndz.Udp
