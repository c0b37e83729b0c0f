import Mathlib.Data.List.Induction
import Rndz.Udp.Listener

/-!
# A listener answers, or pings and does not listen

The loop pings every server for ever, but reads only from those that it has not marked as
failed, and nothing takes such a mark away.
-/
namespace Rndz.Udp

open Net Proto

namespace Thread

variable {c : Thread} {l : Loop} {it : Iteration} {i : Nat} {addr : SocketAddr} {fsync : Fsync}
  {lastPong : List (Option Instant)}

/-- In every iteration that offers an `Fsync` for the listener on the socket of a server, an
`Rsync` is sent to that server. -/
def AnswersFsyncs (c : Thread) (lastPong : List (Option Instant)) (its : List Iteration) : Prop :=
  ∀ past it rest, its = past ++ it :: rest → ∀ i addr fsync, c.svrSks[i]? = some addr →
    it.Offers c.myid i fsync →
      ⟨i, addr, c.rsync fsync.id⟩ ∈ (c.iterate (c.run (c.start lastPong) past) it).2

/-- No `Fsync` for the listener is offered on a socket after an error of `recv` on it. -/
def NoFsyncAfterError (c : Thread) (its : List Iteration) : Prop :=
  ∀ past it rest, its = past ++ it :: rest → ∀ i < c.svrSks.length, ∀ fsync,
    it.Offers c.myid i fsync → ∀ e ∈ past, ¬e.FailsAt i

theorem receive_fsync {r : Received} {pongAt : Instant}
    (hr : r = .datagram (some ⟨c.myid, some (.fsync fsync)⟩)) :
    (c.receive l i addr pongAt r).2 = c.answer i addr fsync := by
  simp [receive, hr]

/-- An `Fsync` that is offered is answered if its server is not marked as failed. -/
theorem answered_iff (hlen : l.failedServers.length = c.svrSks.length)
    (hsk : c.svrSks[i]? = some addr) (offers : it.Offers c.myid i fsync) :
    ⟨i, addr, c.rsync fsync.id⟩ ∈ (c.iterate l it).2 ↔ l.failedServers[i]? ≠ some true := by
  obtain ⟨readable, received⟩ := offers
  have hi : i < l.failedServers.length := by
    rw [hlen]
    exact (List.getElem?_eq_some_iff.mp hsk).1
  obtain ⟨ready, hready, heq⟩ | ⟨hnone, heq⟩ := iterate_cases c l it
  · have ready_iff : ready[i]? = some true ↔ l.failedServers[i]? ≠ some true := by
      rw [hready, List.getElem?_eq_getElem hi]
      simp [readable]
    rw [heq, ← ready_iff]
    constructor
    · intro sent
      rcases List.mem_append.mp sent with sent | sent
      · exact absurd (mem_sendPings.mp sent).2.1.symm ping_ne_rsync
      · exact (ready_of_serve sent).1
    · intro hr
      have hmem : (addr, i) ∈ c.svrSks.zipIdx := List.mem_zipIdx_iff_getElem?.mpr hsk
      obtain ⟨l', sub⟩ := receive_subset_serve it hr hmem (c.sendPings l it).1
      refine List.mem_append_right _ (sub ?_)
      rw [receive_fsync received]
      exact List.mem_cons_self
  · simp [Iteration.readable, hnone] at readable

theorem length_failed_run (c : Thread) (lastPong : List (Option Instant)) (its : List Iteration) :
    (c.run (c.start lastPong) its).failedServers.length = c.svrSks.length := by
  induction its using List.reverseRecOn with
  | nil => simp [start]
  | append_singleton its it ih =>
    rw [run_concat, length_failed_iterate]
    exact ih

/-- After any iterations just the servers with an error on their sockets are marked. -/
theorem failed_run (c : Thread) (lastPong : List (Option Instant)) (its : List Iteration) :
    (c.run (c.start lastPong) its).failedServers[i]? = some true ↔
      i < c.svrSks.length ∧ ∃ e ∈ its, e.FailsAt i := by
  induction its using List.reverseRecOn with
  | nil => simp [start, List.getElem?_replicate]
  | append_singleton its it ih =>
    rw [run_concat, failed_iterate (length_failed_run c lastPong its), ih]
    simp only [List.mem_append, List.mem_singleton]
    grind

/-- Every `Fsync` that is offered is answered if and only if none is offered on a socket
after an error of `recv` on it; the pings go on in any case (`ping_sent`). -/
theorem fsync_answered_iff (c : Thread) (lastPong : List (Option Instant))
    (its : List Iteration) : c.AnswersFsyncs lastPong its ↔ c.NoFsyncAfterError its := by
  constructor
  · intro answers past it rest hits i hi fsync offers e he fails
    have hsk := List.getElem?_eq_getElem hi
    have answered := answers past it rest hits i _ fsync hsk offers
    rw [answered_iff (length_failed_run c lastPong past) hsk offers] at answered
    exact answered ((failed_run c lastPong past).mpr ⟨hi, e, he, fails⟩)
  · intro clean past it rest hits i addr fsync hsk offers
    rw [answered_iff (length_failed_run c lastPong past) hsk offers]
    intro failed
    obtain ⟨hi, e, he, fails⟩ := (failed_run c lastPong past).mp failed
    exact clean past it rest hits i hi fsync offers e he fails

/-- `recv` fails on the only socket, which has `POLLERR` besides `POLLIN`; twenty seconds later
an `Fsync` can be read there. -/
def errorIteration : Iteration where
  readings _ := ⟨0, 0, noVariation⟩
  events := some fun _ => 0x009#16
  recv _ := .err
  pongAt _ := 0

@[inherit_doc errorIteration]
def fsyncIteration : Iteration where
  readings _ := ⟨fromSecs 20, fromSecs 20, noVariation⟩
  events := some fun _ => .pollin
  recv _ := .datagram (some ⟨"u", some (.fsync { id := "c", addr := "10.0.0.3:5000" })⟩)
  pongAt _ := fromSecs 20

/-- The iteration that ignores the `Fsync` of a server pings this server. -/
theorem fsync_ignored_after_error : ¬∀ (c : Thread) (lastPong : List (Option Instant))
    (past : List Iteration) (it : Iteration) (i : Nat) (addr : SocketAddr) (fsync : Fsync),
    c.svrSks[i]? = some addr → it.Offers c.myid i fsync →
      ⟨i, addr, c.ping⟩ ∈ (c.iterate (c.run (c.start lastPong) past) it).2 →
        ⟨i, addr, c.rsync fsync.id⟩ ∈ (c.iterate (c.run (c.start lastPong) past) it).2 := by
  intro all
  have pinged : ⟨0, host 1, ping ⟨"u", [host 1]⟩⟩ ∈ (iterate ⟨"u", [host 1]⟩
      (run ⟨"u", [host 1]⟩ (start ⟨"u", [host 1]⟩ [none]) [errorIteration])
      fsyncIteration).2 := by decide
  have answered := all ⟨"u", [host 1]⟩ [none] [errorIteration] fsyncIteration 0 (host 1)
    { id := "c", addr := "10.0.0.3:5000" } rfl ⟨by decide, rfl⟩ pinged
  exact absurd answered (by decide)

end Thread

end Rndz.Udp
