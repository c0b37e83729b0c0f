import Rndz.Tcp.Deadlock
import Rndz.Tcp.OwnClients
import Rndz.Tcp.Reflection

/-!
# Our own clients do not deadlock the server

A handler waits only for handlers that have registered. A call of `connect` sends one frame, which
its handler uses up when it registers, so nothing waits for a handler of a call that waits itself;
and the handlers of listeners wait for those of calls only.
-/
namespace Rndz.Tcp

open Net Proto Mpsc Transition
open Function (update update_apply)
open Flow (Bounded)
open PeerHandler (response)

/-! ## What a handler sends -/

/-- What the handler is sending, where to, and whom it registers then. -/
def Handler.sends : Handler → Option (Nat × Item × Option String)
  | .send dst it src | .sending dst it src => some (dst, it, src)
  | _ => none

attribute [grind] Handler.sends

@[simp, grind =] theorem sends_afterSend (src : Option String) :
    (State.afterSend src).sends = none := by
  cases src <;> rfl

theorem sends_of_outgoing {h : Handler} (out : h.outgoing = none) : h.sends = none := by
  cases h with
  | send | sending => cases out
  | _ => rfl

/-- The handler of `c` sends an `Fsync` to a handler that has registered and goes on to register,
or an `Rsync` of its own client to a handler that has registered under the id it names. -/
inductive Forwards (log : List Event) (c dst : Nat) : Item → Option String → Prop
  | fsync {it : Item} {fsync : Fsync} {src k : String} (cmd : it.req.cmd = some (.fsync fsync))
      (target : .inserted dst k ∈ log) : Forwards log c dst it (some src)
  | rsync {it : Item} {rsync : Rsync} (cmd : it.req.cmd = some (.rsync rsync))
      (target : .inserted dst rsync.id ∈ log)
      (sent : .sent c ⟨it.req.id, some (.rsync rsync)⟩ ∈ log) : Forwards log c dst it none

theorem Forwards.mono {log log' : List Event} {c dst : Nat} {it : Item} {src : Option String}
    (h : Forwards log c dst it src) (hlog : log ⊆ log') : Forwards log' c dst it src := by
  cases h with
  | fsync cmd target => exact .fsync cmd (hlog target)
  | rsync cmd target sent => exact .rsync cmd (hlog target) (hlog sent)

theorem Forwards.target {log : List Event} {c dst : Nat} {it : Item} {src : Option String}
    (h : Forwards log c dst it src) : ∃ k, .inserted dst k ∈ log := by
  cases h with
  | fsync cmd target | rsync cmd target => exact ⟨_, target⟩

/-- How often the request makes a handler register its client. -/
def registers (req : Request) : Nat :=
  match req.cmd with
  | some .ping | some (.isync _) => 1
  | _ => 0

def Reader.registers : Reader → Nat
  | .send it _ | .sending it _ => Tcp.registers it.req
  | _ => 0

/-- How often the handler will register its client for what it has in hand. -/
def Handler.registers : Handler → Nat
  | .handle it => Tcp.registers it.req
  | .send _ _ src | .sending _ _ src => if src.isSome then 1 else 0
  | .insert _ => 1
  | _ => 0

/-- Sending an `Fsync`, a handler has yet to register the client that has asked for it. -/
theorem of_sends_fsync {h : Handler} {d : Nat} {it : Item} {src : String}
    (sends : h.sends = some (d, it, some src)) : h.registers = 1 ∧ h.source = some src := by
  unfold Handler.sends at sends
  split at sends
  · cases sends
    exact ⟨rfl, rfl⟩
  · cases sends
    exact ⟨rfl, rfl⟩
  · cases sends

@[simp, grind =] theorem registers_afterSend (src : Option String) :
    (State.afterSend src).registers = if src.isSome then 1 else 0 := by
  cases src <;> rfl

@[simp, grind =] theorem registers_bye : registers Item.bye.req = 0 := rfl

theorem registers_le (req : Request) : registers req ≤ 1 := by
  unfold registers
  split <;> omega

/-- The connection on which a frame is sent. -/
def Event.sentAt : Event → Option Nat
  | .sent c _ => some c
  | _ => none

/-- The connection that registers. -/
def Event.insertedAt : Event → Option Nat
  | .inserted c _ => some c
  | _ => none

namespace State

variable {s t : State} {a : Action} {c d : Nat} {it : Item} {src : Option String}
  {tr : List (State × Action)}

/-- The handler of `c` begins to send: `handle_isync` or `handle_rsync` has found the target. -/
inductive Begins (s : State) (c d : Nat) : Item → Option String → Prop
  | fsync {it : Item} {fsync : Fsync} {src k : String} {peer : PeerState}
      (found : s.peers.get k = some peer) (target : peer.reqTx = d)
      (same : it.req.cmd = some (.fsync fsync)) : Begins s c d it (some src)
  | rsync {old it : Item} {rsync : Rsync} {peer : PeerState} (runs : s.HandlerRuns c)
      (at_handle : s.handler c = .handle old) (cmd : old.req.cmd = some (.rsync rsync))
      (other : rsync.id ≠ s.peerId c) (found : s.peers.get rsync.id = some peer)
      (target : peer.reqTx = d) (same : it.req = ⟨old.req.id, some (.rsync rsync)⟩) :
      Begins s c d it none

theorem sends_step (rule : Rule s a t) (sends : (t.handler c).sends = some (d, it, src)) :
    (s.handler c).sends = some (d, it, src) ∨ Begins s c d it src := by
  cases rule with
  | insertRefresh runs inserts | insertNew runs inserts =>
    have none := sends_of_outgoing (next_of_inserting inserts).2.1
    simp only [setHandler, record, setPeerId, setPeers, update_apply] at *
    grind
  | _ =>
    simp only [setHandler, setQueue, setReader, accept, leave, panic, dropFutures, dropReadReqs,
      dropHandleCmds, dropHandler, record, setPeerId, setStatus, setPeers, update_apply] at *
    grind [Begins]

theorem forwards_of_run (run : Run tr s) (hC : Steps OneId tr)
    (sends : (s.handler c).sends = some (d, it, src)) : Forwards s.log c d it src := by
  induction run generalizing c d it src with
  | start => cases sends
  | @next tr s t a run h ih =>
    obtain ⟨before, -⟩ := steps_concat.mp hC
    have rule := rule_of_step h
    have hlog : s.log ⊆ t.log := fun e he => mem_log_step rule he
    rcases sends_step rule sends with old | begins
    · exact (ih before old).mono hlog
    · have reg := registryInv run
      refine Forwards.mono ?_ hlog
      cases begins with
      | fsync found target same => exact .fsync same (target ▸ (inserted_of_get reg found).1)
      | @rsync old it rsync peer runs at_handle cmd other found target same =>
        have hcmd : it.req.cmd = some (.rsync rsync) := by rw [same]
        have traced := (provenance run).traced at_handle cmd
        rw [← same] at traced
        refine .rsync hcmd (target ▸ (inserted_of_get reg found).1) ?_
        -- an `Rsync` that another handler has passed on names the handler's own id
        have hreq : it.req = ⟨it.req.id, some (.rsync rsync)⟩ := by rw [← hcmd]
        rw [hreq] at traced
        generalize it.req.id = name at traced
        cases traced with
        | sent sent => exact sent
        | rsync sent own =>
          have named := (oneName run before).named c rsync.id runs.1 own
          exact absurd named.symm other

/-! ## What a registration takes -/

/-- How often the handler of `c` will register its client for the frames it has been sent. -/
def registering (s : State) (c : Nat) : Nat :=
  ((s.inbox c).map registers).sum + (s.reader c).registers +
    ((s.queue c).items.map fun it => registers it.req).sum + (s.handler c).registers

theorem registers_of_inserting {id : String} {next : Handler}
    (inserts : s.inserting c = some (id, next)) :
    (s.handler c).registers = 1 ∧ next.registers = 0 := by
  unfold inserting at inserts
  split at inserts
  · rename_i it at_handle
    obtain ⟨cmd, -, rfl⟩ : it.req.cmd = some .ping ∧ it.req.id = id ∧ .write .pong = next := by
      simpa using inserts
    simp [at_handle, Handler.registers, registers, cmd]
  · rename_i src at_insert
    obtain ⟨-, rfl⟩ : _ = id ∧ .recv = next := by simpa using inserts
    simp [at_insert, Handler.registers]
  · cases inserts

/-- A registration takes a frame. -/
theorem registering_step (rule : Rule s a t)
    (forwards : ∀ c d it src, (s.handler c).sends = some (d, it, src) → registers it.req = 0) :
    (t.log = s.log ∧ ∀ c, t.registering c ≤ s.registering c) ∨
      ∃ e, t.log = s.log ++ [e] ∧
        ∀ c, t.registering c + (if e.insertedAt = some c then 1 else 0) ≤
          s.registering c + if e.sentAt = some c then 1 else 0 := by
  cases rule with
  | @client c req accepted =>
    have := registers_le req
    refine .inr ⟨_, rfl, fun c => ?_⟩
    simp only [registering, record, Event.insertedAt, Event.sentAt, update_apply]
    grind
  | write =>
    refine .inr ⟨_, rfl, fun c => ?_⟩
    simp only [registering, record, setHandler, Event.insertedAt, Event.sentAt, update_apply]
    grind [Handler.registers]
  | @sendPush c dst it src q runs at_send isOpen push =>
    obtain ⟨-, hitems, -, -⟩ := Channel.push_eq_some push
    have none := forwards c dst it src (by simp [at_send, Handler.sends])
    refine .inr ⟨_, rfl, fun c => ?_⟩
    simp only [registering, record, setHandler, setQueue, Event.insertedAt, Event.sentAt,
      update_apply]
    grind [Handler.registers]
  | readerPush runs at_send isOpen push =>
    obtain ⟨-, hitems, -, -⟩ := Channel.push_eq_some push
    refine .inl ⟨rfl, fun c => ?_⟩
    simp only [registering, setQueue, setReader, update_apply]
    grind [Reader.registers]
  | recv runs at_recv recv =>
    obtain ⟨hitems, -, -⟩ := Channel.recv_eq_some recv
    refine .inl ⟨rfl, fun c => ?_⟩
    simp only [registering, setQueue, setHandler, update_apply]
    grind [Handler.registers]
  | read runs at_read frame =>
    refine .inl ⟨rfl, fun c => ?_⟩
    simp only [registering, update_apply]
    grind [Reader.registers]
  | insertRefresh runs inserts | insertNew runs inserts =>
    obtain ⟨before, after⟩ := registers_of_inserting inserts
    refine .inr ⟨_, rfl, fun c => ?_⟩
    simp only [registering, record, setHandler, setPeers, setPeerId, Event.insertedAt,
      Event.sentAt, update_apply]
    grind
  | insertPanic runs inserts =>
    obtain ⟨before, -⟩ := registers_of_inserting inserts
    refine .inr ⟨_, rfl, fun c => ?_⟩
    simp only [registering, record, setPeers, setPeerId, panic, dropFutures, dropReadReqs,
      dropHandleCmds, dropHandler, setQueue, setStatus, Event.insertedAt, Event.sentAt,
      update_apply]
    grind [Handler.registers, Reader.registers]
  | _ =>
    refine .inl ⟨rfl, fun c => ?_⟩
    simp only [registering, accept, setHandler, setQueue, setReader, leave, panic, dropFutures,
      dropReadReqs, dropHandleCmds, dropHandler, setPeerId, setStatus, setPeers, update_apply]
    grind [Handler.registers, Reader.registers, registers]

theorem registering_bounded (run : Run tr s) (hC : Steps OneId tr) :
    Bounded Event.sentAt Event.insertedAt s.registering s.log := by
  induction run with
  | start => exact fun c => Nat.le_refl 0
  | @next tr s t a run h ih =>
    obtain ⟨before, -⟩ := steps_concat.mp hC
    have forwards : ∀ c d it src, (s.handler c).sends = some (d, it, src) →
        registers it.req = 0 := by
      intro c d it src sends
      cases forwards_of_run run before sends with
      | fsync cmd | rsync cmd => simp [registers, cmd]
    rcases registering_step (rule_of_step h) forwards with ⟨same, less⟩ | ⟨e, more, moves⟩
    · exact same ▸ (ih before).mono less
    · exact more ▸ (ih before).concat moves

theorem Waits.sends (waits : s.Waits c d) : ∃ it src, (s.handler c).sends = some (d, it, src) := by
  have awaits := waits.awaits
  unfold Handler.awaited at awaits
  split at awaits
  · rename_i dst it src at_send
    obtain rfl := Option.some.inj awaits
    exact ⟨it, src, by simp [at_send, Handler.sends]⟩
  · cases awaits

end State

/-! ## Nobody waits for a handler that waits -/

namespace Rendezvous.State

variable {p : Parties} {s : State} {c d e : Nat} {tr : List (State × Action)}

theorem count_sentAt (log : List Event) (c : Nat) :
    (log.filterMap Event.sentAt).count c = (delivered log c).length := by
  induction log with
  | nil => rfl
  | cons ev log ih =>
    cases ev with
    | sent d req => by_cases hd : d = c <;> simp [Event.sentAt, delivered, hd] at ih ⊢ <;> omega
    | inserted d k | placed d it | wrote d cmd => exact ih

/-- A call of `connect` sends one frame. -/
theorem sent_once (run : Run p tr s) {j k : Nat} (peer : s.peer c = some ⟨.call j, k⟩) :
    (delivered s.server.log c).length ≤ 1 := by
  refine ((linked_of_run run).frames c _ peer).length_le.trans ?_
  by_cases hk : k = 0
  · rcases (oneRequest_of_run run).written j with h | h <;>
      simp [State.written, streams, Call.streams, hk, h]
  · simp [State.written, streams, Call.streams, hk]

/-- The handler of a call that somebody waits for has done with its only frame. -/
theorem listens_of_waits (run : Run p tr s) (waited : s.server.Waits c d)
    (waits : s.server.Waits d e) : ∃ x, s.peer d = some x ∧ x.party.Listens := by
  obtain ⟨tr', server, hC⟩ := server_run_oneId run
  obtain ⟨it, src, sends⟩ := waited.sends
  obtain ⟨k, inserted⟩ := (Tcp.State.forwards_of_run server hC sends).target
  obtain ⟨⟨q, n⟩, peer, -⟩ := id_of_inserted run inserted
  refine ⟨_, peer, ?_⟩
  cases q with
  | call j =>
    exfalso
    have bounded := Tcp.State.registering_bounded server hC d
    rw [count_sentAt] at bounded
    have once := sent_once run peer
    have registered : 0 < (s.server.log.filterMap Event.insertedAt).count d :=
      List.count_pos_iff.mpr (List.mem_filterMap.mpr ⟨_, inserted, rfl⟩)
    have done : (s.server.handler d).registers = 0 := by
      unfold Tcp.State.registering at bounded
      omega
    obtain ⟨it, src, sends⟩ := waits.sends
    cases src with
    | some src =>
      have due := (of_sends_fsync sends).1
      omega
    | none =>
      cases Tcp.State.forwards_of_run server hC sends with
      | rsync cmd target sent =>
        obtain ⟨x, fsync, peer', listens, -⟩ := listener_of_rsync run sent
        obtain rfl := Option.some.inj (peer.symm.trans peer')
        exact listens
  | _ => trivial

/-- The handler of a listener waits for that of a call. -/
theorem call_of_waits (run : Run p tr s) (waits : s.server.Waits d e) {x : End}
    (peer : s.peer d = some x) (listens : x.party.Listens) :
    ∃ i y, s.peer e = some y ∧ p.id y.party = p.id (.call i) := by
  obtain ⟨tr', server, hC⟩ := server_run_oneId run
  obtain ⟨it, src, sends⟩ := waits.sends
  cases src with
  | some src =>
    -- only a call of `connect` has asked for an `Fsync`
    obtain ⟨isync, sent⟩ := (Tcp.State.provenance server).source d src (of_sends_fsync sends).2
    obtain ⟨i, peer', -⟩ := call_of_isync run sent
    obtain rfl := Option.some.inj (peer.symm.trans peer')
    exact listens.elim
  | none =>
    cases Tcp.State.forwards_of_run server hC sends with
    | rsync cmd target sent =>
      obtain ⟨x', fsync, peer', -, -, hid, told, -⟩ := listener_of_rsync run sent
      obtain ⟨d', cmd', hd', hresp, wrote⟩ := (linked_of_run run).wrote told
      obtain rfl : cmd' = .fsync fsync := by simpa [response, eq_comm] using hresp
      obtain ⟨-, i, -, hcall, -⟩ := call_of_fsync run wrote hd'
      obtain ⟨y, hy, named⟩ := id_of_inserted run target
      exact ⟨i, y, hy, named.trans (hid.trans hcall)⟩

/-- As long as nobody calls `connect` under the id of a listener, the handlers of our own clients
never wait for each other in a circle. -/
theorem deadlock_free (run : Run p tr s)
    (apart : ∀ q i, q.Listens → p.id q ≠ p.id (.call i)) : s.server.DeadlockFree := by
  rintro D ⟨⟨x, hx⟩, closed⟩
  obtain ⟨y, hy, x_waits⟩ := closed x hx
  obtain ⟨z, hz, y_waits⟩ := closed y hy
  obtain ⟨w, -, z_waits⟩ := closed z hz
  -- `y` and `z` listen, so `y` waits for a handler of a call, and `z` is none
  obtain ⟨ey, peer_y, y_listens⟩ := listens_of_waits run x_waits y_waits
  obtain ⟨ez, peer_z, z_listens⟩ := listens_of_waits run y_waits z_waits
  obtain ⟨i, e, peer, hid⟩ := call_of_waits run y_waits peer_y y_listens
  obtain rfl := Option.some.inj (peer_z.symm.trans peer)
  exact apart _ i z_listens hid

/-- Call `j` connects and asks for the listener, and its handler takes `n` steps. -/
def ask (j n : Nat) : List Action :=
  [.accept ⟨.call j, 0⟩ (host (.ofNat (j + 2))), .write j] ++ serve (j + 2) n

/-- The queue of the listener holds ten `Fsync`s, and the handler of the eleventh call waits. -/
theorem eleventh_call_waits : ∃ tr s, Run twoParties tr s ∧ s.server.Waits 12 1 ∧
    s.server.DeadlockFree := by
  have script : (exec (State.step twoParties) (fun _ _ => True) (init twoParties)
      (meeting.take 7 ++ serve 1 3 ++ ((List.range 10).map fun j => ask j 5).flatten ++
        ask 10 3)).any
      (fun s => s.server.status 12 = .running ∧ (s.server.handler 12).awaited = some 1 ∧
        .handler 12 ∈ (s.server.queue 1).waiting) = true := by decide +kernel
  obtain ⟨tr, s, run, -, h⟩ := run_of_exec script
  obtain ⟨live, awaits, queued⟩ := of_decide_eq_true h
  have wait : s.server.Waits 12 1 :=
    ⟨live, awaits, queued, Mpsc.Channel.full_of_mem_waiting queued⟩
  refine ⟨tr, s, run, wait, deadlock_free run fun q i listens => ?_⟩
  cases q with
  | call j => exact listens.elim
  | sync j | async j => cases i <;> cases j <;> simp [twoParties]

end Rendezvous.State

end Rndz.Tcp
