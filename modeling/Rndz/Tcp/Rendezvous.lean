import Rndz.Tcp.Answers
import Rndz.Tcp.Causality
import Rndz.Tcp.System

/-!
# The TCP rendezvous as a whole

The clients keep to the protocol by themselves, so nothing is left to be assumed of them but their
ids: under an id of its own, `connect` finds a listener that has been told of it.
-/
namespace Rndz.Tcp.Rendezvous.State

open Net Proto Transition
open Function (update_apply)
open PeerHandler (response)

variable {p : Parties} {s t : State} {a : Action} {c d : Nat} {e : End}
  {tr : List (State × Action)}

/-! ## The frames of the clients -/

/-- A call of `connect` writes its request, and reads one response. -/
structure OneRequest (p : Parties) (s : State) : Prop where
  written : ∀ j, (s.calls j).written = [] ∨ (s.calls j).written = [p.isync j]
  received : ∀ j, (s.calls j).received.length ≤ 1

theorem oneRequest_of_run (run : Run p tr s) : s.OneRequest p := by
  refine run.invariant (P := OneRequest p) ⟨fun j => .inl rfl, fun j => Nat.zero_le _⟩ ?_
  intro s a t one h
  cases rule_of_step h with
  | write unwritten | answer unread reads =>
    refine ⟨fun i => ?_, fun i => ?_⟩
    · have := one.written i
      simp only [setCall, update_apply]
      grind
    · have := one.received i
      simp only [setCall, update_apply]
      grind
  | _ => exact ⟨one.written, one.received⟩

/-- A listener answers the `Fsync`s it has read, in order. -/
theorem relayed (run : Run p tr s) (listens : e.party.Listens) :
    Relay.proper (pingOf (p.id e.party)) (s.written e) <+:
      answersTo (p.id e.party) (s.received e) := by
  obtain ⟨q, k⟩ := e
  cases q with
  | sync i =>
    obtain ⟨tr', run'⟩ := sync_run run i
    exact ((Client.State.relays_of_run run').conns k).inv.written_prefix
  | async i =>
    obtain ⟨tr', run'⟩ := async_run run i
    exact ((ClientAsync.State.relays_of_run run').conns k).inv.written_prefix
  | call j => exact listens.elim

/-- A response that a client has read was written on its connection. -/
theorem Linked.wrote (linked : s.Linked) {resp : Response} (read : resp ∈ s.received e) :
    ∃ c cmd, s.peer c = some e ∧ resp = response cmd ∧ .wrote c cmd ∈ s.server.log := by
  by_cases peer : ∃ c, s.peer c = some e
  · obtain ⟨c, peer⟩ := peer
    have hmem := (linked.responses c e peer).subset read
    obtain ⟨cmd, hcmd, rfl⟩ := List.mem_map.mp hmem
    exact ⟨c, cmd, peer, rfl, mem_written.mp hcmd⟩
  · push Not at peer
    simp [linked.unread e peer] at read

/-- Why a client writes a frame: it pings, or answers an `Fsync` it has read, or asks. -/
inductive Frame (p : Parties) (s : State) (e : End) : Request → Prop
  | ping (listens : e.party.Listens) : Frame p s e (pingOf (p.id e.party))
  | rsync {fsync : Fsync} (listens : e.party.Listens)
      (read : response (.fsync fsync) ∈ s.received e) :
      Frame p s e (rsyncOf (p.id e.party) fsync)
  | isync {j : Nat} (call : e = ⟨.call j, 0⟩) : Frame p s e (p.isync j)

theorem frame_of_written (run : Run p tr s) {req : Request} (hreq : req ∈ s.written e) :
    Frame p s e req := by
  by_cases listens : e.party.Listens
  · by_cases ping : req = pingOf (p.id e.party)
    · exact ping ▸ .ping listens
    · have proper : req ∈ Relay.proper (pingOf (p.id e.party)) (s.written e) := by
        simp [Relay.proper, hreq, ping]
      obtain ⟨resp, read, answer⟩ := List.mem_filterMap.mp ((relayed run listens).subset proper)
      obtain ⟨c, cmd, -, rfl, -⟩ := (linked_of_run run).wrote read
      unfold answerTo at answer
      split at answer
      · rename_i fsync hcmd
        obtain rfl := Option.some.inj answer
        obtain rfl : cmd = .fsync fsync := Option.some.inj hcmd
        exact .rsync listens read
      · cases answer
  · obtain ⟨q, k⟩ := e
    cases q with
    | call j =>
      by_cases hk : k = 0
      · subst hk
        rcases (oneRequest_of_run run).written j with none | one
        · simp [State.written, streams, Call.streams, none] at hreq
        · obtain rfl : req = p.isync j := by
            simpa [State.written, streams, Call.streams, one] using hreq
          exact .isync rfl
      · simp [State.written, streams, Call.streams, hk] at hreq
    | _ => exact absurd trivial listens

/-- Every frame the server is given was written by the client of its connection. -/
theorem frame_of_sent (run : Run p tr s) {req : Request} (sent : .sent c req ∈ s.server.log) :
    ∃ e, s.peer c = some e ∧ Frame p s e req := by
  have linked := linked_of_run run
  have hmem := mem_delivered.mpr sent
  cases peer : s.peer c with
  | none => simp [linked.unsent c peer] at hmem
  | some e => exact ⟨e, rfl, frame_of_written run ((linked.frames c e peer).subset hmem)⟩

/-! ## The clients keep to the protocol -/

/-- The id of the client of connection `c`. -/
def idOf (p : Parties) (s : State) (c : Nat) : String :=
  match s.peer c with
  | some e => p.id e.party
  | none => ""

theorem Frame.id_eq {req : Request} (h : Frame p s e req) : req.id = p.id e.party := by
  cases h with
  | isync call => exact call ▸ rfl
  | _ => rfl

/-- An `Rsync` comes in after the `Fsync` it answers has been written. -/
def RepliesOnly (log : List Event) : Prop :=
  ∀ l c req m rsync, log = l ++ .sent c req :: m → req.cmd = some (.rsync rsync) →
    ∃ fsync : Fsync, .wrote c (.fsync fsync) ∈ l ∧ fsync.id = rsync.id

theorem RepliesOnly.concat {log : List Event} {ev : Event} (h : RepliesOnly log)
    (last : ∀ c req rsync, ev = .sent c req → req.cmd = some (.rsync rsync) →
      ∃ fsync : Fsync, .wrote c (.fsync fsync) ∈ log ∧ fsync.id = rsync.id) :
    RepliesOnly (log ++ [ev]) := by
  intro l c req m rsync split hcmd
  rcases List.eq_nil_or_concat m with rfl | ⟨m, ev', rfl⟩
  · obtain ⟨rfl, hev⟩ := List.append_inj' split rfl
    exact last c req rsync (List.cons.inj hev).1 hcmd
  · rw [List.concat_eq_append, ← List.cons_append, ← List.append_assoc] at split
    obtain ⟨rfl, -⟩ := List.append_inj' split rfl
    exact h l c req m rsync rfl hcmd

theorem repliesOnly_step {server server' : Tcp.State} {a : Tcp.Action}
    (h : RepliesOnly server.log) (step : server.step a = some server')
    (replies : ∀ c req rsync, a = .client c req → req.cmd = some (.rsync rsync) →
      ∃ fsync : Fsync, .wrote c (.fsync fsync) ∈ server.log ∧ fsync.id = rsync.id) :
    RepliesOnly server'.log := by
  rcases Tcp.State.log_step (Tcp.State.rule_of_step step) with hl | ⟨ev, hl, emits⟩
  · rwa [hl]
  · rw [hl]
    refine h.concat fun c req rsync hev hcmd => ?_
    subst hev
    cases emits with
    | sent accepted => exact replies c req rsync rfl hcmd

theorem repliesOnly_of_run (run : Run p tr s) : RepliesOnly s.server.log := by
  induction run with
  | start => simp [RepliesOnly, init, Tcp.State.init]
  | @next tr s t a run h ih =>
    cases rule_of_step h with
    | server step own =>
      exact repliesOnly_step ih step fun c req _ h => absurd h (own c req)
    | accept opened unlinked step => exact repliesOnly_step ih step fun _ _ _ h => by cases h
    | @deliver server c e req peer next step =>
      refine repliesOnly_step ih step fun c' req' rsync h hcmd => ?_
      obtain ⟨rfl, rfl⟩ : c = c' ∧ req = req' := by simpa using h
      have linked := linked_of_run run
      cases frame_of_written run (List.mem_of_getElem? next) with
      | ping => cases hcmd
      | isync => cases hcmd
      | @rsync fsync listens read =>
        obtain ⟨c', cmd, peer', hresp, wrote⟩ := linked.wrote read
        obtain rfl := linked.one c c' e peer peer'
        obtain rfl : cmd = .fsync fsync := by simpa [response, eq_comm] using hresp
        obtain rfl := ReqCmd.rsync.inj (Option.some.inj hcmd)
        exact ⟨fsync, wrote, rfl⟩
    | _ => exact ih

/-- The clients behave as the causality of the rendezvous takes for granted. -/
theorem clients_disciplined (run : Run p tr s) (named : ∀ q, p.id q ≠ "") :
    Disciplined (s.idOf p) s.server.log := by
  refine ⟨fun c req sent => ?_, fun c req fsync sent hcmd => ?_, repliesOnly_of_run run⟩
  · obtain ⟨e, peer, frame⟩ := frame_of_sent run sent
    simp only [idOf, peer]
    exact ⟨frame.id_eq, named e.party⟩
  · obtain ⟨e, peer, frame⟩ := frame_of_sent run sent
    cases frame with
    | _ => cases hcmd

/-- The `Rsync`s a listener's connection brings in answer the `Fsync`s written on it, in order and
at most once each. -/
theorem answered_in_order (run : Run p tr s) (peer : s.peer c = some e)
    (listens : e.party.Listens) :
    Relay.proper (pingOf (p.id e.party)) (delivered s.server.log c) <+:
      answersTo (p.id e.party) ((Tcp.written s.server.log c).map response) := by
  have linked := linked_of_run run
  calc Relay.proper (pingOf (p.id e.party)) (delivered s.server.log c)
      <+: Relay.proper (pingOf (p.id e.party)) (s.written e) := (linked.frames c e peer).filter _
    _ <+: answersTo (p.id e.party) (s.received e) := relayed run listens
    _ <+: answersTo (p.id e.party) ((Tcp.written s.server.log c).map response) :=
      (linked.responses c e peer).filterMap _

/-! ## Whom `connect` finds -/

/-- Connection `d` is one of a listener that call `j` asks for. -/
structure OfTarget (p : Parties) (s : State) (j d : Nat) (e : End) : Prop where
  peer : s.peer d = some e
  listens : e.party.Listens
  id : p.id e.party = p.target j

/-- A listener has been told where call `j` connects from, and has answered; `addr` is where the
server sees the target. -/
structure Meets (p : Parties) (s : State) (j : Nat) (addr : SocketAddr) : Prop where
  told : ∃ c d e fsync, s.peer c = some ⟨.call j, 0⟩ ∧ OfTarget p s j d e ∧
    response (.fsync fsync) ∈ s.received e ∧ fsync.id = p.id (.call j) ∧
      fsync.addr = (s.server.addr c).toString ∧ rsyncOf (p.target j) fsync ∈ s.written e
  found : ∃ d e, OfTarget p s j d e ∧ addr = s.server.addr d

/-- The calls of `connect` are made under ids, `j` under one that nobody else uses or asks for, and
none is made under the id of its target. -/
structure Private (p : Parties) (j : Nat) : Prop where
  named : ∀ i, p.id (.call i) ≠ ""
  own : ∀ i, p.id (.call i) = p.id (.call j) → i = j
  unasked : ∀ i, p.target i ≠ p.id (.call j)
  target : ∀ i, p.id (.call i) ≠ p.target j

theorem call_of_isync (run : Run p tr s) {src : String} {isync : Isync}
    (sent : .sent c ⟨src, some (.isync isync)⟩ ∈ s.server.log) :
    ∃ i, s.peer c = some ⟨.call i, 0⟩ ∧ src = p.id (.call i) ∧ isync.id = p.target i := by
  obtain ⟨e, peer, frame⟩ := frame_of_sent run sent
  generalize hreq : Request.mk src (some (.isync isync)) = req at frame
  cases frame with
  | ping | rsync => cases hreq
  | @isync j call =>
    cases hreq
    exact ⟨j, call ▸ peer, rfl, rfl⟩

theorem listener_of_rsync (run : Run p tr s) {src : String} {rsync : Rsync}
    (sent : .sent c ⟨src, some (.rsync rsync)⟩ ∈ s.server.log) :
    ∃ e fsync, s.peer c = some e ∧ e.party.Listens ∧ src = p.id e.party ∧ rsync.id = fsync.id ∧
      response (.fsync fsync) ∈ s.received e ∧ rsyncOf src fsync ∈ s.written e := by
  have linked := linked_of_run run
  obtain ⟨e, peer, frame⟩ := frame_of_sent run sent
  have written := (linked.frames c e peer).subset (mem_delivered.mpr sent)
  generalize hreq : Request.mk src (some (.rsync rsync)) = req at frame written
  cases frame with
  | ping | isync => cases hreq
  | @rsync fsync listens read =>
    cases hreq
    exact ⟨e, fsync, peer, listens, rfl, rfl, read, written⟩

/-- A connection registers under the id of its client. -/
theorem id_of_inserted (run : Run p tr s) {k : String} (inserted : .inserted c k ∈ s.server.log) :
    ∃ e, s.peer c = some e ∧ p.id e.party = k := by
  obtain ⟨tr', run'⟩ := server_run run
  obtain ⟨req, sent, rfl⟩ := (Tcp.State.provenance run').inserted c k inserted
  obtain ⟨e, peer, frame⟩ := frame_of_sent run sent
  exact ⟨e, peer, frame.id_eq.symm⟩

theorem explained_of_wrote (run : Run p tr s) {cmd : RespCmd}
    (wrote : .wrote c cmd ∈ s.server.log) : Explained s.server.addr s.server.log c cmd := by
  obtain ⟨tr', run'⟩ := server_run run
  refine Tcp.State.explained_of_responses (Tcp.State.provenance run') ?_
  exact List.mem_append_left _ (mem_written.mpr wrote)

/-- An `Fsync` stems from a call of `connect` and tells its target where it comes from. -/
theorem call_of_fsync (run : Run p tr s) {fsync : Fsync}
    (wrote : .wrote d (.fsync fsync) ∈ s.server.log) (peer : s.peer d = some e) :
    ∃ c i, s.peer c = some ⟨.call i, 0⟩ ∧ fsync.id = p.id (.call i) ∧
      fsync.addr = (s.server.addr c).toString ∧ p.id e.party = p.target i := by
  cases explained_of_wrote run wrote with
  | fsync traced =>
    obtain ⟨c, isync, sent, inserted, haddr⟩ := traced.fsync_sent fun c req fsync sent hcmd => by
      obtain ⟨e, -, frame⟩ := frame_of_sent run sent
      cases frame with
      | _ => cases hcmd
    obtain ⟨i, peer', hid, htarget⟩ := call_of_isync run sent
    obtain ⟨e', he', hid'⟩ := id_of_inserted run inserted
    obtain rfl := Option.some.inj (peer.symm.trans he')
    exact ⟨c, i, peer', hid, haddr, hid'.trans htarget⟩

/-- A call with an id of its own is given nothing but `Redirect`s that name its target, with the
address of a listener that has been told of it. -/
theorem redirect_of_read (run : Run p tr s) {j : Nat} (priv : Private p j) {resp : Response}
    (read : resp ∈ s.received ⟨.call j, 0⟩) :
    ∃ a, resp = response (.redirect ⟨p.target j, a⟩) ∧
      (a = "" ∨ ∃ addr, a = addr.toString ∧ Meets p s j addr) := by
  have linked := linked_of_run run
  obtain ⟨c, cmd, peer, rfl, wrote⟩ := linked.wrote read
  -- what is known of a connection of a call
  have same : ∀ {e : End}, s.peer c = some e → e = ⟨.call j, 0⟩ := by
    intro e he
    exact Option.some.inj (he.symm.trans peer)
  cases explained_of_wrote run wrote with
  | pong sent =>
    obtain ⟨e, he, frame⟩ := frame_of_sent run sent
    generalize hreq : Request.mk _ (some .ping) = req at frame
    cases frame with
    | ping listens =>
      rw [same he] at listens
      exact listens.elim
    | rsync | isync => cases hreq
  | missing sent =>
    obtain ⟨i, he, -, htarget⟩ := call_of_isync run sent
    obtain rfl : i = j := by simpa using same he
    exact ⟨"", by rw [htarget], .inl rfl⟩
  | fsync traced =>
    obtain ⟨c', i, -, -, -, hid⟩ := call_of_fsync run wrote peer
    exact absurd hid.symm (priv.unasked i)
  | @rsync d' src rsync traced own source =>
    obtain ⟨d, sent⟩ := traced.rsync_sent
    obtain ⟨e, fsync, hd, listens, rfl, hrsync, told, written⟩ := listener_of_rsync run sent
    -- the `Fsync` answered, and the call it stems from
    obtain ⟨d₁, cmd, hd₁, hresp, wrote'⟩ := linked.wrote told
    obtain rfl := linked.one d d₁ e hd hd₁
    obtain rfl : cmd = .fsync fsync := by simpa [response, eq_comm] using hresp
    obtain ⟨c', i, hc', hfsync, haddr, hid⟩ := call_of_fsync run wrote' hd
    have hi : i = j := by
      rcases own with empty | ⟨req, hreq, hreqid⟩
      · exact absurd (hfsync.symm.trans (hrsync.symm.trans empty)) (priv.named i)
      · obtain ⟨e', he', frame⟩ := frame_of_sent run hreq
        rw [same he'] at frame
        exact priv.own i (hfsync.symm.trans (hrsync.symm.trans (hreqid.symm.trans frame.id_eq)))
    subst hi
    rw [hid] at source written ⊢
    obtain ⟨e', he', hid'⟩ := id_of_inserted run source
    have listens' : e'.party.Listens := by
      obtain ⟨q, k⟩ := e'
      cases q with
      | call i' => exact absurd hid' (priv.target i')
      | _ => trivial
    exact ⟨_, rfl, .inr ⟨_, rfl, ⟨c', d, e, fsync, hc', ⟨hd, listens, hid⟩, told, hfsync, haddr,
      written⟩, d', e', ⟨he', listens', hid'⟩, rfl⟩⟩

/-- What `connect` makes of the address in a `Redirect`. -/
def targetOf (addr : String) : Except ConnectError SocketAddr :=
  match SocketAddr.parse addr with
  | some addr => .ok addr
  | none => .error .targetIdNotFound

theorem read_of_result {j : Nat} {result : Except ConnectError SocketAddr}
    (ends : (s.calls j).result = some result) : ∃ resp ∈ s.received ⟨.call j, 0⟩,
      ∀ rdr, resp = response (.redirect rdr) → result = targetOf rdr.addr := by
  unfold Call.result at ends
  split at ends
  · cases ends
  · rename_i resp rest hreceived
    refine ⟨resp, by simp [received, streams, Call.streams, hreceived], ?_⟩
    rintro rdr rfl
    simp only [response, connect] at ends
    unfold targetOf
    split at ends <;> simp_all

/-- Under an id of its own, `connect` finds a listener that goes by the id of its target, has been
told of it, and has answered; or it is told that there is none. -/
theorem connect_finds_listener (run : Run p tr s) {j : Nat} (priv : Private p j)
    {result : Except ConnectError SocketAddr} (ends : (s.calls j).result = some result) :
    result = .error .targetIdNotFound ∨
      ∃ addr, result = .ok addr.withoutFlowinfo ∧ Meets p s j addr := by
  obtain ⟨resp, read, hresult⟩ := read_of_result ends
  obtain ⟨a, rfl, rfl | ⟨addr, rfl, meets⟩⟩ := redirect_of_read run priv read
  · have hempty : SocketAddr.parse "" = none := by decide
    exact .inl (by simpa [targetOf, hempty] using hresult _ rfl)
  · exact .inr ⟨addr, by simpa [targetOf, SocketAddr.parse_toString] using hresult _ rfl, meets⟩

/-- A listener `y`, and a call under the id `x` that asks for it. -/
def twoParties : Parties where
  id
    | .call 0 => "x"
    | .call _ => "z"
    | .sync 0 => "y"
    | _ => "w"
  target _ := "y"

theorem private_twoParties : Private twoParties 0 := by
  refine ⟨fun i => ?_, fun i => ?_, fun _ => by simp [twoParties], fun i => ?_⟩
  all_goals cases i <;> simp [twoParties]

/-- The server takes the next frame on connection `c`, and its handler takes `n` steps. -/
def serve (c n : Nat) : List Action :=
  [.deliver c, .server (.read c), .server (.reader c), .server (.reader c)] ++
    (runHandler c n).map .server

/-- The listener registers, the call asks for it, the listener is told and answers. -/
def meeting : List Action :=
  [.sync 0 .listen, .sync 0 (.connect 0 true), .sync 0 (.clone 0 true), .sync 0 (.clone 0 true),
    .accept ⟨.sync 0, 0⟩ (host 1), .sync 0 (.loop 0 .recv), .sync 0 (.loop 0 (.write true))] ++
  serve 1 3 ++ [.accept ⟨.call 0, 0⟩ (host 2), .write 0] ++ serve 2 5 ++
  (runHandler 1 3).map .server ++
  [.read 1, .read 1, .sync 0 (.loop 0 .send), .sync 0 (.loop 0 .recv),
    .sync 0 (.loop 0 (.write true))] ++
  serve 1 4 ++ (runHandler 2 3).map .server ++ [.read 2]

theorem meeting_run : ∃ tr s, Run twoParties tr s ∧
    (s.calls 0).result = some (.ok (host 1)) ∧ s.peer 1 = some ⟨.sync 0, 0⟩ := by
  have script : (exec (State.step twoParties) (fun _ _ => True) (init twoParties) meeting).any
      (fun s => (s.calls 0).result = some (.ok (host 1)) ∧ s.peer 1 = some ⟨.sync 0, 0⟩) =
        true := by decide +kernel
  obtain ⟨tr, s, run, -, h⟩ := run_of_exec script
  exact ⟨tr, s, run, of_decide_eq_true h⟩

/-- The call gets the address of the listener. -/
theorem listener_found : ∃ tr s, Run twoParties tr s ∧
    ∃ addr, host 1 = SocketAddr.withoutFlowinfo addr ∧ Meets twoParties s 0 addr := by
  obtain ⟨tr, s, run, result, -⟩ := meeting_run
  obtain hio | ⟨addr, hok, meets⟩ := connect_finds_listener run private_twoParties result
  · cases hio
  · exact ⟨tr, s, run, addr, Except.ok.inj hok, meets⟩

theorem disciplined_in_meeting : ∃ tr s, Run twoParties tr s ∧
    Disciplined (s.idOf twoParties) s.server.log := by
  obtain ⟨tr, s, run, -⟩ := meeting_run
  refine ⟨tr, s, run, clients_disciplined run fun q => ?_⟩
  unfold twoParties
  dsimp only
  split <;> decide

theorem answered_in_meeting : ∃ tr s, Run twoParties tr s ∧
    Relay.proper (pingOf "y") (delivered s.server.log 1) <+:
      answersTo "y" ((Tcp.written s.server.log 1).map response) := by
  obtain ⟨tr, s, run, -, peer⟩ := meeting_run
  exact ⟨tr, s, run, answered_in_order run peer trivial⟩

end Rndz.Tcp.Rendezvous.State
