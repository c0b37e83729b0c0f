import Rndz.Lib.History
import Rndz.Tcp.Registry

/-!
# Where requests and responses come from

A request under way to a handler is in the queue of its connection, in the hands of its
reader or its handler, or in the hands of the handler that forwards it. `carries_step` says
how a request can get there, `answers_step` how a handler comes to write a response and
`log_step` what a step can add to the history. From these follows for every run that each
request stems from a frame that some client has sent (`Traced`), and that each response a
handler writes is explained by what has happened before it (`Explained`).
-/
namespace Rndz.Tcp

open Net Proto Mpsc Transition
open Function (update update_apply)
open History (concat_eq_append_cons)

/-- The request a reader is sending. -/
def Reader.item : Reader → Option Item
  | .send it _ | .sending it _ => some it
  | _ => none

/-- The request a handler is about to handle. -/
def Handler.inHand : Handler → Option Item
  | .handle it => some it
  | _ => none

/-- The request a handler is forwarding, with the connection it goes to. -/
def Handler.outgoing : Handler → Option (Nat × Item)
  | .send dst it _ | .sending dst it _ => some (dst, it)
  | _ => none

/-- The response a handler is writing. -/
def Handler.response : Handler → Option RespCmd
  | .write cmd => some cmd
  | _ => none

/-- The id a handler will register next, at the end of `handle_isync`. -/
def Handler.source : Handler → Option String
  | .send _ _ src | .sending _ _ src => src
  | .insert src => some src
  | _ => none

attribute [grind] Reader.item Handler.inHand Handler.outgoing Handler.response Handler.source

theorem Handler.inHand_eq_some {h : Handler} {it : Item} :
    h.inHand = some it ↔ h = .handle it := by
  cases h <;> simp [inHand]

namespace State

variable {s t : State} {c d : Nat} {id : String} {a : Action} {it : Item} {cmd : RespCmd}
  {tr : List (State × Action)}

@[simp, grind =] theorem inHand_afterSend (src : Option String) :
    (afterSend src).inHand = none := by
  cases src <;> rfl

@[simp, grind =] theorem outgoing_afterSend (src : Option String) :
    (afterSend src).outgoing = none := by
  cases src <;> rfl

@[simp, grind =] theorem response_afterSend (src : Option String) :
    (afterSend src).response = none := by
  cases src <;> rfl

@[simp, grind =] theorem source_afterSend (src : Option String) :
    (afterSend src).source = src := by
  cases src <;> rfl

/-- `insert_peerstate` is followed by a `Pong` or by the next request. -/
theorem next_of_inserting {next : Handler} (h : s.inserting c = some (id, next)) :
    next.inHand = none ∧ next.outgoing = none ∧ next.source = none ∧
      ∀ cmd, next.response = some cmd →
        cmd = .pong ∧ ∃ it, s.handler c = .handle it ∧ it.req.cmd = some .ping := by
  unfold inserting at h
  split at h
  · rename_i it at_handle
    obtain ⟨cmd, -, rfl⟩ : it.req.cmd = some .ping ∧ it.req.id = id ∧ .write .pong = next := by
      simpa using h
    simp [Handler.inHand, Handler.outgoing, Handler.source, Handler.response, at_handle, cmd]
  · obtain ⟨-, rfl⟩ : _ = id ∧ .recv = next := by simpa using h
    simp [Handler.inHand, Handler.outgoing, Handler.source, Handler.response]
  · cases h

/-! ## Requests under way -/

/-- The request `it` is on its way to the handler of `d`. -/
def Carries (s : State) (d : Nat) (it : Item) : Prop :=
  it ∈ (s.queue d).items ∨ (s.reader d).item = some it ∨ (s.handler d).inHand = some it ∨
    ∃ c, (s.handler c).outgoing = some (d, it)

theorem carries_of_handle (at_handle : s.handler c = .handle it) : s.Carries c it :=
  .inr (.inr (.inl (Handler.inHand_eq_some.mpr at_handle)))

/-- The ways a request can set out to the handler of `d`: a reader has read it or gives up,
or a handler forwards it. -/
inductive Born (s : State) (d : Nat) : Item → Prop where
  | read {req : Request} {rest : List Request} (frame : s.inbox d = req :: rest) :
      Born s d ⟨req, some (d, s.frames d), 0⟩
  | bye : Born s d .bye
  | fsync {c : Nat} {it : Item} {isync : Isync} {peer : PeerState}
      (at_handle : s.handler c = .handle it) (cmd : it.req.cmd = some (.isync isync))
      (found : s.peers.get isync.id = some peer) (target : peer.reqTx = d) :
      Born s d ⟨⟨"", some (.fsync { id := it.req.id, addr := (s.addr c).toString })⟩, it.origin,
        it.hops + 1⟩
  | rsync {c : Nat} {it : Item} {rsync : Rsync} {peer : PeerState}
      (at_handle : s.handler c = .handle it) (cmd : it.req.cmd = some (.rsync rsync))
      (other : rsync.id ≠ s.peerId c) (found : s.peers.get rsync.id = some peer)
      (target : peer.reqTx = d) :
      Born s d ⟨⟨it.req.id, some (.rsync rsync)⟩, it.origin, it.hops + 1⟩

theorem carries_step (h : Rule s a t) (hc : t.Carries d it) : s.Carries d it ∨ Born s d it := by
  cases h with
  | client | sockFail => exact .inl hc
  | recv runs at_recv recv =>
    obtain ⟨hitems, -, -⟩ := Channel.recv_eq_some recv
    simp only [Carries, setHandler, setQueue, update_apply] at *
    grind
  | sendPush runs at_send isOpen push =>
    obtain ⟨-, hitems, -, -⟩ := Channel.push_eq_some push
    simp only [Carries, setHandler, setQueue, record, update_apply] at *
    grind
  | readerPush runs at_send isOpen push =>
    obtain ⟨-, hitems, -, -⟩ := Channel.push_eq_some push
    simp only [Carries, setReader, setQueue, update_apply] at *
    grind
  | insertRefresh runs inserts =>
    obtain ⟨hand, out, -, -⟩ := next_of_inserting inserts
    simp only [Carries, setHandler, record, setPeerId, update_apply] at *
    grind
  | insertNew runs inserts =>
    obtain ⟨hand, out, -, -⟩ := next_of_inserting inserts
    simp only [Carries, setHandler, record, setPeerId, setPeers, update_apply] at *
    grind
  | _ =>
    simp only [Carries, setHandler, setQueue, setReader, accept, leave, panic, dropFutures,
      dropReadReqs, dropHandleCmds, dropHandler, record, setPeerId, setStatus, setPeers,
      update_apply] at *
    grind [Born]

/-- Where a response comes from: the handler of `c` handles the request it answers. -/
inductive Answers (s : State) (c : Nat) : RespCmd → Prop where
  | pong {it : Item} (at_handle : s.handler c = .handle it) (cmd : it.req.cmd = some .ping) :
      Answers s c .pong
  | missing {it : Item} {isync : Isync} (at_handle : s.handler c = .handle it)
      (cmd : it.req.cmd = some (.isync isync)) (missing : s.peers.get isync.id = none) :
      Answers s c (.redirect ⟨isync.id, ""⟩)
  | fsync {it : Item} {fsync : Fsync} (at_handle : s.handler c = .handle it)
      (cmd : it.req.cmd = some (.fsync fsync)) : Answers s c (.fsync fsync)
  | rsync {it : Item} {rsync : Rsync} {peer : PeerState} (at_handle : s.handler c = .handle it)
      (cmd : it.req.cmd = some (.rsync rsync)) (sound : s.peers.poisoned = false)
      (own : rsync.id = s.peerId c) (found : s.peers.get it.req.id = some peer) :
      Answers s c (.redirect ⟨it.req.id, peer.addr.toString⟩)

theorem answers_step (h : Rule s a t) (hc : (t.handler c).response = some cmd) :
    (s.handler c).response = some cmd ∨ a = .handler c ∧ Answers s c cmd := by
  cases h with
  | insertRefresh runs inserts | insertNew runs inserts =>
    obtain ⟨-, -, -, answer⟩ := next_of_inserting inserts
    simp only [setHandler, record, setPeerId, setPeers, update_apply] at *
    grind [Answers]
  | _ =>
    simp only [setHandler, setQueue, setReader, accept, leave, panic, dropFutures,
      dropReadReqs, dropHandleCmds, dropHandler, record, setPeerId, setStatus, setPeers,
      update_apply] at *
    grind [Answers]

/-! ## The history -/

/-- What a step can add to the history. -/
inductive Emits (s : State) : Action → Event → Prop where
  | sent {c : Nat} {req : Request} (accepted : s.status c ≠ .absent) :
      Emits s (.client c req) (.sent c req)
  | inserted {c : Nat} {id : String} {next : Handler} (runs : s.HandlerRuns c)
      (inserts : s.inserting c = some (id, next)) : Emits s (.handler c) (.inserted c id)
  | placed {c dst : Nat} {it : Item} {src : Option String} (runs : s.HandlerRuns c)
      (at_send : s.handler c = .sending dst it src) (isOpen : (s.queue dst).closed = false)
      (granted : .handler c ∈ (s.queue dst).granted) : Emits s (.handler c) (.placed c it dst)
  | wrote {c : Nat} {cmd : RespCmd} (runs : s.HandlerRuns c) (at_write : s.handler c = .write cmd) :
      Emits s (.handler c) (.wrote c cmd)

theorem log_step (h : Rule s a t) :
    t.log = s.log ∨ ∃ e, t.log = s.log ++ [e] ∧ Emits s a e := by
  cases h with
  | client accepted => exact .inr ⟨_, rfl, .sent accepted⟩
  | insertRefresh runs inserts | insertNew runs inserts | insertPanic runs inserts =>
    exact .inr ⟨_, rfl, .inserted runs inserts⟩
  | sendPush runs at_send isOpen push =>
    obtain ⟨granted, -⟩ := Channel.push_eq_some push
    exact .inr ⟨_, rfl, .placed runs at_send isOpen granted⟩
  | write runs at_write => exact .inr ⟨_, rfl, .wrote runs at_write⟩
  | _ => exact .inl rfl

/-- History is only added to. -/
theorem mem_log_step (h : Rule s a t) {e : Event} (he : e ∈ s.log) : e ∈ t.log := by
  rcases log_step h with hl | ⟨e', hl, -⟩ <;> simp [hl, he]

theorem mem_log_or_emits (h : Rule s a t) {e : Event} (he : e ∈ t.log) :
    e ∈ s.log ∨ Emits s a e := by
  rcases log_step h with hl | ⟨e', hl, emits⟩
  · exact .inl (hl ▸ he)
  · rcases List.mem_append.mp (hl ▸ he) with old | new
    · exact .inl old
    · exact .inr (List.mem_singleton.mp new ▸ emits)

/-- What is not sent yet is in the inbox, and only frames sent get there. -/
theorem inbox_step (h : Rule s a t) {req : Request} (hreq : req ∈ t.inbox c) :
    req ∈ s.inbox c ∨ .sent c req ∈ t.log := by
  cases h with
  | read runs at_read frame =>
    simp only [update_apply] at *
    grind
  | client accepted =>
    simp only [record, update_apply] at *
    grind
  | accept addr =>
    simp only [accept, update_apply] at *
    grind
  | _ => exact .inl hreq

/-- A handler that will register a source has handled an `Isync` of that source. -/
theorem source_step (h : Rule s a t) {src : String} (hc : (t.handler c).source = some src) :
    (s.handler c).source = some src ∨ ∃ it isync, s.handler c = .handle it ∧
      it.req.cmd = some (.isync isync) ∧ it.req.id = src := by
  cases h with
  | insertRefresh runs inserts | insertNew runs inserts =>
    obtain ⟨-, -, source, -⟩ := next_of_inserting inserts
    simp only [setHandler, record, setPeerId, setPeers, update_apply] at *
    grind
  | _ =>
    simp only [setHandler, setQueue, setReader, accept, leave, panic, dropFutures,
      dropReadReqs, dropHandleCmds, dropHandler, record, setPeerId, setStatus, setPeers,
      update_apply] at *
    grind

/-- `peer_id` is set by `insert_peerstate` only. -/
theorem peerId_step (h : Rule s a t) :
    t.peerId c = s.peerId c ∨ t.peerId c = "" ∨
      ∃ next, s.inserting c = some (t.peerId c, next) := by
  cases h with
  | insertPoisoned runs inserts | insertRefresh runs inserts | insertNew runs inserts
  | insertPanic runs inserts =>
    simp only [setHandler, record, setPeerId, setPeers, panic, dropFutures, dropReadReqs,
      dropHandleCmds, dropHandler, setQueue, setStatus, update_apply] at *
    grind
  | accept addr =>
    simp only [accept, update_apply]
    grind
  | _ => exact .inl rfl

end State

/-! ## Every request stems from a frame -/

/-- The connection an event happens at. -/
def Event.conn : Event → Nat
  | .sent c _ | .inserted c _ | .placed c _ _ | .wrote c _ => c

/-- The history explains that the handler of `d` is given the request: its own client sent
it, `read_reqs` made it up, or a handler made it from a frame of its client because `d` had
registered as the target. -/
inductive Traced (addr : Nat → SocketAddr) (log : List Event) (d : Nat) : Request → Prop where
  | bye : Traced addr log d Item.bye.req
  | sent {req : Request} (sent : .sent d req ∈ log) : Traced addr log d req
  | fsync {c : Nat} {src : String} {isync : Isync}
      (sent : .sent c ⟨src, some (.isync isync)⟩ ∈ log) (target : .inserted d isync.id ∈ log) :
      Traced addr log d ⟨"", some (.fsync { id := src, addr := (addr c).toString })⟩
  | rsync {c : Nat} {src : String} {rsync : Rsync}
      (sent : .sent c ⟨src, some (.rsync rsync)⟩ ∈ log) (target : .inserted d rsync.id ∈ log) :
      Traced addr log d ⟨src, some (.rsync rsync)⟩

/-- The history explains that the handler of `c` writes the response. -/
inductive Explained (addr : Nat → SocketAddr) (log : List Event) (c : Nat) : RespCmd → Prop where
  | pong {src : String} (sent : .sent c ⟨src, some .ping⟩ ∈ log) : Explained addr log c .pong
  | missing {src : String} {isync : Isync} (sent : .sent c ⟨src, some (.isync isync)⟩ ∈ log) :
      Explained addr log c (.redirect ⟨isync.id, ""⟩)
  | fsync {src : String} {fsync : Fsync} (req : Traced addr log c ⟨src, some (.fsync fsync)⟩) :
      Explained addr log c (.fsync fsync)
  | rsync {d : Nat} {src : String} {rsync : Rsync}
      (req : Traced addr log c ⟨src, some (.rsync rsync)⟩)
      (own : rsync.id = "" ∨ ∃ req, .sent c req ∈ log ∧ req.id = rsync.id)
      (source : .inserted d src ∈ log) :
      Explained addr log c (.redirect ⟨src, (addr d).toString⟩)

section Mono

variable {addr addr' : Nat → SocketAddr} {log log' : List Event}

theorem Traced.mono {d : Nat} {req : Request} (h : Traced addr log d req) (hlog : log ⊆ log')
    (haddr : ∀ e ∈ log, addr' e.conn = addr e.conn) : Traced addr' log' d req := by
  cases h with
  | bye => exact .bye
  | sent sent => exact .sent (hlog sent)
  | fsync sent target =>
    have := haddr _ sent
    exact this ▸ .fsync (hlog sent) (hlog target)
  | rsync sent target => exact .rsync (hlog sent) (hlog target)

theorem Explained.mono {c : Nat} {cmd : RespCmd} (h : Explained addr log c cmd)
    (hlog : log ⊆ log') (haddr : ∀ e ∈ log, addr' e.conn = addr e.conn) :
    Explained addr' log' c cmd := by
  cases h with
  | pong sent => exact .pong (hlog sent)
  | missing sent => exact .missing (hlog sent)
  | fsync req => exact .fsync (req.mono hlog haddr)
  | rsync req own source =>
    have := haddr _ source
    exact this ▸ .rsync (req.mono hlog haddr)
      (own.imp_right fun ⟨req, hreq, hid⟩ => ⟨req, hlog hreq, hid⟩) (hlog source)

/-- What a handler forwards is an `Fsync` or an `Rsync`: all other requests it handles, but
the `Bye` of `read_reqs`, come from its own client. -/
theorem Traced.sent_of {d : Nat} {req : Request} (h : Traced addr log d req)
    (hcmd : req.cmd = some .ping ∨ ∃ isync, req.cmd = some (.isync isync)) :
    .sent d req ∈ log := by
  cases h with
  | sent sent => exact sent
  | _ => simp [Item.bye] at hcmd

end Mono

theorem mem_of_lastInsert {log : List Event} {k : String} {c : Nat}
    (h : lastInsert log k = some c) : .inserted c k ∈ log := by
  induction log using List.reverseRecOn with
  | nil => simp at h
  | append_singleton log e ih =>
    rw [lastInsert_concat] at h
    grind

namespace State

variable {s t : State} {c d : Nat} {id : String} {a : Action} {it : Item} {cmd : RespCmd}
  {tr : List (State × Action)}

/-- The history explains all that is under way. -/
structure Provenance (s : State) : Prop where
  accepted : ∀ e ∈ s.log, s.status e.conn ≠ .absent
  inbox : ∀ c req, req ∈ s.inbox c → .sent c req ∈ s.log
  carried : ∀ d it, s.Carries d it → Traced s.addr s.log d it.req
  source : ∀ c src, (s.handler c).source = some src →
    ∃ isync, .sent c ⟨src, some (.isync isync)⟩ ∈ s.log
  named : ∀ c, s.peerId c = "" ∨ ∃ req, .sent c req ∈ s.log ∧ req.id = s.peerId c
  inserted : ∀ c k, .inserted c k ∈ s.log → ∃ req, .sent c req ∈ s.log ∧ req.id = k
  response : ∀ c cmd, (s.handler c).response = some cmd → Explained s.addr s.log c cmd
  wrote : ∀ p c cmd q, s.log = p ++ .wrote c cmd :: q → Explained s.addr p c cmd

theorem provenance_init : Provenance init := by
  constructor <;> simp [init, Carries, Reader.item, Handler.inHand, Handler.outgoing,
    Handler.source, Handler.response]

/-- The registry routes a request only to a connection that has registered its target. -/
theorem inserted_of_get (reg : RegistryInv s) {k : String} {p : PeerState}
    (h : s.peers.get k = some p) : .inserted p.reqTx k ∈ s.log ∧ p.addr = s.addr p.reqTx := by
  have hp := reg.entry k p h
  have htx : p.reqTx = p.id := congrArg PeerState.reqTx hp
  have haddr : p.addr = s.addr p.id := congrArg PeerState.addr hp
  exact ⟨htx ▸ mem_of_lastInsert (reg.last k p h), htx ▸ haddr⟩

theorem Provenance.traced (inv : Provenance s) {cmd : ReqCmd} (at_handle : s.handler c = .handle it)
    (hcmd : it.req.cmd = some cmd) : Traced s.addr s.log c ⟨it.req.id, some cmd⟩ := by
  have hreq : it.req = ⟨it.req.id, some cmd⟩ := by rw [← hcmd]
  exact hreq ▸ inv.carried c it (carries_of_handle at_handle)

theorem Provenance.of_inserting (inv : Provenance s) {next : Handler}
    (h : s.inserting c = some (id, next)) : ∃ req, .sent c req ∈ s.log ∧ req.id = id := by
  unfold inserting at h
  split at h
  · rename_i it at_handle
    obtain ⟨hcmd, hid, -⟩ : it.req.cmd = some .ping ∧ it.req.id = id ∧ .write .pong = next := by
      simpa using h
    exact ⟨_, (inv.traced at_handle hcmd).sent_of (.inl rfl), hid⟩
  · rename_i src at_insert
    obtain ⟨rfl, -⟩ : src = id ∧ .recv = next := by simpa using h
    obtain ⟨isync, hsent⟩ := inv.source c src (by simp [at_insert, Handler.source])
    exact ⟨_, hsent, rfl⟩
  · cases h

theorem Provenance.of_born (inv : Provenance s) (reg : RegistryInv s) (h : Born s d it) :
    Traced s.addr s.log d it.req := by
  cases h with
  | @read req rest frame => exact .sent (inv.inbox d req (by simp [frame]))
  | bye => exact .bye
  | @fsync c it isync peer at_handle cmd found target =>
    have hsent := (inv.traced at_handle cmd).sent_of (.inr ⟨isync, rfl⟩)
    exact .fsync hsent (target ▸ (inserted_of_get reg found).1)
  | @rsync c it rsync peer at_handle cmd other found target =>
    have htarget : .inserted d rsync.id ∈ s.log := target ▸ (inserted_of_get reg found).1
    have htraced := inv.traced at_handle cmd
    generalize it.req.id = src at htraced
    cases htraced with
    | sent sent => exact .rsync sent htarget
    | rsync sent _ => exact .rsync sent htarget

theorem Provenance.of_answers (inv : Provenance s) (reg : RegistryInv s) (h : Answers s c cmd) :
    Explained s.addr s.log c cmd := by
  cases h with
  | pong at_handle cmd => exact .pong ((inv.traced at_handle cmd).sent_of (.inl rfl))
  | @missing it isync at_handle cmd missing =>
    exact .missing ((inv.traced at_handle cmd).sent_of (.inr ⟨isync, rfl⟩))
  | fsync at_handle cmd => exact .fsync (inv.traced at_handle cmd)
  | rsync at_handle cmd sound own found =>
    obtain ⟨hsource, haddr⟩ := inserted_of_get reg found
    rw [haddr]
    exact .rsync (inv.traced at_handle cmd) (own ▸ inv.named c) hsource

theorem provenance_step (inv : Provenance s) (fresh : Fresh s) (reg : RegistryInv s)
    (h : s.step a = some t) : Provenance t := by
  have rule := rule_of_step h
  have haddr : ∀ e ∈ s.log, t.addr e.conn = s.addr e.conn := fun e he =>
    addr_step rule fresh (inv.accepted e he)
  have hlog : s.log ⊆ t.log := fun e he => mem_log_step rule he
  refine ⟨fun e he => ?_, fun c req hreq => ?_, fun d it hc => ?_, fun c src hsrc => ?_,
    fun c => ?_, fun c k hk => ?_, fun c cmd hcmd => ?_, fun p c cmd q hw => ?_⟩
  · apply status_step rule
    rcases mem_log_or_emits rule he with old | emits
    · exact inv.accepted e old
    · cases emits with
      | sent accepted => exact accepted
      | inserted runs | placed runs | wrote runs => simp [Event.conn, runs.1]
  · rcases inbox_step rule hreq with hold | hnew
    · exact hlog (inv.inbox c req hold)
    · exact hnew
  · rcases carries_step rule hc with hold | born
    · exact (inv.carried d it hold).mono hlog haddr
    · exact (inv.of_born reg born).mono hlog haddr
  · rcases source_step rule hsrc with hold | ⟨it, isync, at_handle, hcmd, rfl⟩
    · obtain ⟨isync, hsent⟩ := inv.source c src hold
      exact ⟨isync, hlog hsent⟩
    · exact ⟨isync, hlog ((inv.traced at_handle hcmd).sent_of (.inr ⟨isync, rfl⟩))⟩
  · rcases peerId_step (c := c) rule with hold | hempty | ⟨next, hins⟩
    · rw [hold]
      exact (inv.named c).imp_right fun ⟨req, hreq, hid⟩ => ⟨req, hlog hreq, hid⟩
    · exact .inl hempty
    · obtain ⟨req, hreq, hid⟩ := inv.of_inserting hins
      exact .inr ⟨req, hlog hreq, hid⟩
  · have hsent : ∃ req, .sent c req ∈ s.log ∧ req.id = k := by
      rcases mem_log_or_emits rule hk with hold | emits
      · exact inv.inserted c k hold
      · cases emits with
        | inserted runs inserts => exact inv.of_inserting inserts
    obtain ⟨req, hreq, hid⟩ := hsent
    exact ⟨req, hlog hreq, hid⟩
  · rcases answers_step rule hcmd with hold | ⟨-, answers⟩
    · exact (inv.response c cmd hold).mono hlog haddr
    · exact (inv.of_answers reg answers).mono hlog haddr
  · rcases log_step rule with hl | ⟨e, hl, emits⟩
    · rw [hl] at hw
      have hp : p ⊆ s.log := by simp [hw]
      exact (inv.wrote p c cmd q hw).mono (List.Subset.refl _) fun e he => haddr e (hp he)
    · rcases concat_eq_append_cons (hl.symm.trans hw) with ⟨-, rfl, rfl⟩ | ⟨q, -, hs⟩
      · cases emits with
        | wrote runs at_write =>
          exact (inv.response c cmd (by simp [at_write, Handler.response])).mono
            (List.Subset.refl _) haddr
      · have hp : p ⊆ s.log := by simp [hs]
        exact (inv.wrote p c cmd q hs).mono (List.Subset.refl _) fun e he => haddr e (hp he)

theorem provenance (run : Run tr s) : Provenance s :=
  (run.invariant (P := fun s => Fresh s ∧ RegistryInv s ∧ Provenance s)
    ⟨fun _ _ => rfl, registryInv_init, provenance_init⟩ fun _ _ _ ⟨fresh, reg, inv⟩ h =>
      ⟨fresh_step fresh h, registryInv_step reg fresh h, provenance_step inv fresh reg h⟩).2.2

end State

end Rndz.Tcp
