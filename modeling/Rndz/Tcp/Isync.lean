import Rndz.Lib.Ledger
import Rndz.Net.RoundTrip
import Rndz.Tcp.Registry

/-!
# What becomes of an `Isync`

A ledger for each handler: what it begins are the `Isync`s that it takes up, and what it settles
the `Redirect`s with an empty address that it writes and the `Fsync`s that it puts into the queue
of a handler that still runs. The end of its own connection cancels what it has in hand.
-/
namespace Rndz.Tcp

open Net Proto Mpsc Transition
open Function (update update_apply)

/-- What an `Isync` may lead to: a `Redirect` with an empty address for the target, or a request
to the target's handler. -/
inductive Settlement where
  | redirect (id : String)
  | forward (req : Request)
  deriving DecidableEq, Repr

/-- The `Isync` that the handler is about to take up, with the address of its connection. -/
def Handler.begins (addr : SocketAddr) : Handler → List (Request × SocketAddr)
  | .handle it =>
    match it.req.cmd with
    | some (.isync _) => [(it.req, addr)]
    | _ => []
  | _ => []

/-- The `Isync` that the handler is about to take up. -/
def Handler.isync : Handler → Option Isync
  | .handle it =>
    match it.req.cmd with
    | some (.isync isync) => some isync
    | _ => none
  | _ => none

/-- The handler that it is about to ask for a slot for an `Fsync`. -/
def Handler.asks : Handler → Option Nat
  | .send dst _ (some _) => some dst
  | _ => none

/-- The handler whose queue it is about to put an `Fsync` into. -/
def Handler.puts : Handler → Option Nat
  | .sending dst _ (some _) => some dst
  | _ => none

/-- What the handler has decided on for the `Isync` it has taken up. -/
def Handler.settling : Handler → List Settlement
  | .send _ it (some _) | .sending _ it (some _) => [.forward it.req]
  | .write (.redirect rdr) => if rdr.addr = "" then [.redirect rdr.id] else []
  | _ => []

@[simp] theorem settling_recv : Handler.recv.settling = [] := rfl

@[simp] theorem settling_stopped : Handler.stopped.settling = [] := rfl

@[simp] theorem settling_handle (it : Item) : (Handler.handle it).settling = [] := rfl

@[simp] theorem settling_fsync (fsync : Fsync) : (Handler.write (.fsync fsync)).settling = [] := rfl

@[simp] theorem settling_send_rsync (dst : Nat) (it : Item) :
    (Handler.send dst it none).settling = [] := rfl

@[simp] theorem settling_afterSend (src : Option String) : (State.afterSend src).settling = [] := by
  cases src <;> rfl

@[simp] theorem settling_answer (id : String) (addr : SocketAddr) :
    (Handler.write (.redirect ⟨id, addr.toString⟩)).settling = [] := by
  have nonempty : addr.toString ≠ "" := by
    intro h
    have unreadable : SocketAddr.parse "" = none := by decide
    simpa [h, unreadable] using addr.parse_toString
  simp [Handler.settling, nonempty]

/-- The handler is not busy with an `Isync`. -/
structure Handler.Elsewhere (h : Handler) : Prop where
  isync : h.isync = none
  asks : h.asks = none
  puts : h.puts = none
  settling : h.settling = []

theorem begins_of_isync {h : Handler} {addr : SocketAddr} (idle : h.isync = none) :
    h.begins addr = [] := by
  unfold Handler.begins
  split
  · split
    · simp_all [Handler.isync]
    · rfl
  · rfl

/-- The requester is told that the target is missing, or the target of the requester, by its id
and the address of its connection. -/
def Settles (p : Request × SocketAddr) (o : Settlement) : Prop :=
  ∃ isync, p.1.cmd = some (.isync isync) ∧ (o = .redirect isync.id ∨
    o = .forward ⟨"", some (.fsync { id := p.1.id, addr := p.2.toString })⟩)

namespace State

variable {s t : State} {c d : Nat} {a : Action} {tr : List (State × Action)}

/-- What the next step of the handler settles: it writes a `Redirect`, or puts a request into a
queue that is open, and whose handler still runs. -/
def settles (s : State) (c : Nat) : List Settlement :=
  match s.handler c with
  | .sending dst it (some _) =>
    if (s.queue dst).closed = false ∧ s.status dst = .running then [.forward it.req] else []
  | .write cmd => (Handler.write cmd).settling
  | _ => []

/-- The `Isync`s of each connection. When a connection fails or its client is done, what its
handler has in hand is cancelled and counts as settled. -/
def isyncs : Ledger State Action Nat (Request × SocketAddr) Settlement where
  begun c s
    | .handler d => if d = c then (s.handler c).begins (s.addr c) else []
    | _ => []
  settled c s
    | .handler d => if d = c then s.settles c else []
    | .writeErr d | .select d => if d = c then (s.handler c).settling else []
    | _ => []
  hand c s := (s.handler c).settling
  Fits := Settles

/-- The queue of a connection is closed when its `PeerHandler` is dropped, and a connection that
does not run has nothing in hand. -/
structure Housed (s : State) : Prop where
  closed : ∀ c, (s.queue c).closed = true ↔ s.status c = .ended
  idle : ∀ c, s.status c ≠ .running → s.handler c = .recv ∨ s.handler c = .stopped

theorem housed_init : Housed init := ⟨fun c => by simp [init], fun c _ => .inl rfl⟩

theorem closed_step (rule : Rule s a t) (housed : Housed s) (c : Nat) :
    (t.queue c).closed = true ↔ t.status c = .ended := by
  have before := housed.closed c
  cases rule with
  | readerPush runs at_send isOpen push =>
    obtain ⟨-, -, -, closed⟩ := Channel.push_eq_some push
    simp only [setQueue, setReader, update_apply]
    grind
  | recv runs at_recv recv =>
    obtain ⟨-, closed, -⟩ := Channel.recv_eq_some recv
    simp only [setQueue, setHandler, update_apply]
    grind
  | sendPush runs at_send isOpen push =>
    obtain ⟨-, -, -, closed⟩ := Channel.push_eq_some push
    simp only [setQueue, setHandler, record, update_apply]
    grind
  | _ =>
    simp only [accept, panic, leave, dropHandler, dropFutures, dropHandleCmds, dropReadReqs,
      setQueue, setStatus, setHandler, setReader, setPeers, setPeerId, record, update_apply]
    grind [ReaderRuns, HandlerRuns, Channel.closed_close, Channel.closed_empty]

theorem idle_step (rule : Rule s a t) (housed : Housed s) (c : Nat) (h : t.status c ≠ .running) :
    t.handler c = .recv ∨ t.handler c = .stopped := by
  have before := housed.idle c
  cases rule <;>
    simp_all only [accept, panic, leave, dropHandler, dropFutures, dropHandleCmds, dropReadReqs,
      setQueue, setStatus, setHandler, setReader, setPeers, setPeerId, record, update_apply] <;>
    grind [ReaderRuns, HandlerRuns]

theorem housed (run : Run tr s) : Housed s :=
  run.invariant housed_init fun _ _ _ housed h =>
    ⟨closed_step (rule_of_step h) housed, idle_step (rule_of_step h) housed⟩

/-- When a handler takes up an `Isync`, the mutex is sound, and the address of its connection
can be told to a target that is registered. The target's `PeerHandler` is there when the handler
asks for a slot of its queue, and its handler runs when the `Fsync` is put there. -/
def TargetRuns (s : State) (a : Action) : Prop :=
  ∀ c ∈ a.ofHandler,
    (∀ isync ∈ (s.handler c).isync, s.peers.poisoned = false ∧
      (s.peers.get isync.id ≠ none → s.sockOk c = true)) ∧
    (∀ dst ∈ (s.handler c).asks, s.status dst ≠ .ended) ∧
    ∀ dst ∈ (s.handler c).puts, s.status dst = .running

instance (s : State) (a : Action) : Decidable (TargetRuns s a) :=
  inferInstanceAs (Decidable (∀ c ∈ a.ofHandler,
    (∀ isync ∈ (s.handler c).isync, s.peers.poisoned = false ∧
      (s.peers.get isync.id ≠ none → s.sockOk c = true)) ∧
    (∀ dst ∈ (s.handler c).asks, s.status dst ≠ .ended) ∧
    ∀ dst ∈ (s.handler c).puts, s.status dst = .running))

theorem targetRuns_iff : TargetRuns s (.handler c) ↔
    (∀ isync ∈ (s.handler c).isync, s.peers.poisoned = false ∧
      (s.peers.get isync.id ≠ none → s.sockOk c = true)) ∧
    (∀ dst ∈ (s.handler c).asks, s.status dst ≠ .ended) ∧
    ∀ dst ∈ (s.handler c).puts, s.status dst = .running := by
  simp [TargetRuns, Action.ofHandler]

theorem settles_of_elsewhere (elsewhere : (s.handler c).Elsewhere) : s.settles c = [] := by
  have puts := elsewhere.puts
  have settling := elsewhere.settling
  unfold settles
  split <;> simp_all [Handler.puts]

theorem elsewhere_of_inserting {id : String} {next : Handler}
    (inserts : s.inserting c = some (id, next)) :
    (s.handler c).Elsewhere ∧ next.settling = [] := by
  unfold inserting at inserts
  split at inserts
  · rename_i it at_handle
    obtain ⟨cmd, -, rfl⟩ : it.req.cmd = some .ping ∧ it.req.id = id ∧ .write .pong = next := by
      simpa using inserts
    rw [at_handle]
    exact ⟨⟨by simp [Handler.isync, cmd], rfl, rfl, rfl⟩, rfl⟩
  · rename_i src at_insert
    obtain ⟨-, rfl⟩ : src = id ∧ .recv = next := by simpa using inserts
    rw [at_insert]
    exact ⟨⟨rfl, rfl, rfl, rfl⟩, rfl⟩
  · cases inserts

/-- A step of a handler that is not busy with an `Isync`, and does not become so. -/
theorem moves_of_elsewhere (elsewhere : (s.handler c).Elsewhere)
    (after : (t.handler c).settling = []) :
    TargetRuns s (.handler c) ∧ isyncs.Moves c s (.handler c) t := by
  obtain ⟨isync, asks, puts, settling⟩ := id elsewhere
  refine ⟨targetRuns_iff.mpr (by simp [isync, asks, puts]), Ledger.moves_of_none ?_ ?_⟩
  · simp [isyncs, begins_of_isync isync]
  · simp [isyncs, settles_of_elsewhere elsewhere, settling, after]

/-- A handler takes an `Isync` up and decides what to do with it. -/
theorem moves_of_isync {it : Item} {isync : Isync} {o : Settlement}
    (at_handle : s.handler c = .handle it) (cmd : it.req.cmd = some (.isync isync))
    (fits : Settles (it.req, s.addr c) o) (after : (t.handler c).settling = [o]) :
    isyncs.Moves c s (.handler c) t := by
  refine ⟨[o], ?_, by simp [isyncs, settles, at_handle, after]⟩
  simp only [isyncs, if_true, at_handle, Handler.begins, cmd]
  exact .cons fits .nil

/-- The step of a handler is good for its own ledger exactly if the target runs. -/
def MovesIff (s : State) (c : Nat) (t : State) : Prop :=
  (TargetRuns s (.handler c) ∧ isyncs.Moves c s (.handler c) t) ∨
    (¬TargetRuns s (.handler c) ∧ isyncs.Loses c s (.handler c) t)

theorem movesIff_of_elsewhere (elsewhere : (s.handler c).Elsewhere)
    (after : (t.handler c).settling = []) : MovesIff s c t :=
  .inl (moves_of_elsewhere elsewhere after)

section

variable {dst : Nat} {it : Item} {src : Option String}

/-- The queue is closed: the handler loses an `Fsync`, whose target has ended. -/
theorem movesIff_sendClosed (housed : Housed s)
    (at_send : s.handler c = .send dst it src ∨ s.handler c = .sending dst it src)
    (closed : (s.queue dst).closed = true) (after : t.handler c = afterSend src) :
    MovesIff s c t := by
  cases src with
  | none =>
    apply movesIff_of_elsewhere
    · rcases at_send with at_send | at_send <;> rw [at_send] <;> exact ⟨rfl, rfl, rfl, rfl⟩
    · simp [after]
  | some src =>
    have ended := (housed.closed dst).mp closed
    rcases at_send with at_send | at_send
    · refine .inr ⟨fun hC => ?_, ?_⟩
      · exact (targetRuns_iff.mp hC).2.1 dst (by simp [at_send, Handler.asks]) ended
      · simp [Ledger.Loses, isyncs, settles, at_send, after, Handler.begins, Handler.settling,
          afterSend]
    · refine .inr ⟨fun hC => ?_, ?_⟩
      · have running := (targetRuns_iff.mp hC).2.2 dst (by simp [at_send, Handler.puts])
        simp [ended] at running
      · simp [Ledger.Loses, isyncs, settles, at_send, after, Handler.begins, Handler.settling,
          afterSend, closed]

/-- The queue is open, so the `PeerHandler` of the target is there. -/
theorem movesIff_sendAcquire (housed : Housed s) (at_send : s.handler c = .send dst it src)
    (isOpen : (s.queue dst).closed = false) (after : t.handler c = .sending dst it src) :
    MovesIff s c t := by
  cases src with
  | none =>
    apply movesIff_of_elsewhere
    · rw [at_send]
      exact ⟨rfl, rfl, rfl, rfl⟩
    · simp [after, Handler.settling]
  | some src =>
    have running : s.status dst ≠ .ended := by
      intro ended
      simp [(housed.closed dst).mpr ended] at isOpen
    refine .inl ⟨targetRuns_iff.mpr ?_, Ledger.moves_of_none ?_ ?_⟩
    · simp [at_send, Handler.isync, Handler.asks, Handler.puts, running]
    · simp [isyncs, at_send, Handler.begins]
    · simp [isyncs, settles, at_send, after, Handler.settling]

/-- What is put into the queue is lost if the handler of the target does not run. -/
theorem movesIff_sendPush (at_send : s.handler c = .sending dst it src)
    (isOpen : (s.queue dst).closed = false) (after : t.handler c = afterSend src) :
    MovesIff s c t := by
  cases src with
  | none =>
    apply movesIff_of_elsewhere
    · rw [at_send]
      exact ⟨rfl, rfl, rfl, rfl⟩
    · simp [after]
  | some src =>
    by_cases running : s.status dst = .running
    · refine .inl ⟨targetRuns_iff.mpr ?_, Ledger.moves_of_none ?_ ?_⟩
      · simp [at_send, Handler.isync, Handler.asks, Handler.puts, running]
      · simp [isyncs, at_send, Handler.begins]
      · simp [isyncs, settles, at_send, after, Handler.settling, afterSend, isOpen, running]
    · refine .inr ⟨fun hC => running ?_, ?_⟩
      · exact (targetRuns_iff.mp hC).2.2 dst (by simp [at_send, Handler.puts])
      · simp [Ledger.Loses, isyncs, settles, at_send, after, Handler.begins, Handler.settling,
          afterSend, running]

/-- The handler panics over an `Isync`, for lack of a sound mutex or of the address. -/
theorem movesIff_isyncPanic {isync : Isync} (at_handle : s.handler c = .handle it)
    (cmd : it.req.cmd = some (.isync isync))
    (why : s.peers.poisoned = true ∨ s.peers.get isync.id ≠ none ∧ s.sockOk c = false)
    (after : (t.handler c).settling = []) : MovesIff s c t := by
  refine .inr ⟨fun hC => ?_, ?_⟩
  · obtain ⟨sound, sock⟩ :=
      (targetRuns_iff.mp hC).1 isync (by simp [at_handle, Handler.isync, cmd])
    rcases why with poisoned | ⟨found, failed⟩
    · simp [sound] at poisoned
    · simp [sock found] at failed
  · simp [Ledger.Loses, isyncs, settles, at_handle, after, Handler.begins, cmd]

/-- The handler takes an `Isync` up and has its answer or its `Fsync` in hand. -/
theorem movesIff_isync {isync : Isync} {o : Settlement} (at_handle : s.handler c = .handle it)
    (cmd : it.req.cmd = some (.isync isync)) (sound : s.peers.poisoned = false)
    (sock : s.peers.get isync.id ≠ none → s.sockOk c = true)
    (fits : Settles (it.req, s.addr c) o) (after : (t.handler c).settling = [o]) :
    MovesIff s c t := by
  refine .inl ⟨targetRuns_iff.mpr ?_, moves_of_isync at_handle cmd fits after⟩
  simpa [at_handle, Handler.isync, Handler.asks, Handler.puts, cmd, sound] using sock

end

theorem handler_moves (rule : Rule s (.handler c) t) (housed : Housed s) : MovesIff s c t := by
  cases rule with
  | recv runs at_recv recv =>
    refine movesIff_of_elsewhere ?_ (by simp)
    rw [at_recv]
    exact ⟨rfl, rfl, rfl, rfl⟩
  | insertPoisoned runs inserts | insertRefresh runs inserts | insertNew runs inserts
  | insertPanic runs inserts =>
    obtain ⟨elsewhere, next⟩ := elsewhere_of_inserting inserts
    exact movesIff_of_elsewhere elsewhere (by simp [next])
  | isyncPanic runs at_handle cmd why => exact movesIff_isyncPanic at_handle cmd why (by simp)
  | @isyncForward _ it isync peer runs at_handle cmd sound found sock =>
    refine movesIff_isync at_handle cmd sound (fun _ => sock) ⟨isync, cmd, .inr rfl⟩ ?_
    simp [Handler.settling]
  | @isyncMissing _ it isync runs at_handle cmd sound missing =>
    refine movesIff_isync at_handle cmd sound (absurd missing) ⟨isync, cmd, .inl rfl⟩ ?_
    simp [Handler.settling]
  | fsync runs at_handle cmd | rsyncPanic runs at_handle cmd | rsyncAnswer runs at_handle cmd
  | rsyncForward runs at_handle cmd | rsyncDrop runs at_handle cmd =>
    refine movesIff_of_elsewhere ?_ (by simp)
    rw [at_handle]
    exact ⟨by simp [Handler.isync, cmd], rfl, rfl, rfl⟩
  | bye runs at_handle cmd =>
    refine movesIff_of_elsewhere ?_ (by simp)
    rw [at_handle]
    exact ⟨by rcases cmd with cmd | cmd <;> simp [Handler.isync, cmd], rfl, rfl, rfl⟩
  | sendClosed runs at_send closed => exact movesIff_sendClosed housed at_send closed (by simp)
  | sendAcquire runs at_send isOpen => exact movesIff_sendAcquire housed at_send isOpen (by simp)
  | sendPush runs at_send isOpen push => exact movesIff_sendPush at_send isOpen (by simp)
  | @write _ cmd runs at_write =>
    refine .inl ⟨targetRuns_iff.mpr ?_, Ledger.moves_of_none ?_ ?_⟩
    · simp [at_write, Handler.isync, Handler.asks, Handler.puts]
    · simp [isyncs, at_write, Handler.begins]
    · simp [isyncs, settles, at_write]

theorem begun_of_other (other : a ≠ .handler c) : isyncs.begun c s a = [] := by
  cases a with
  | handler d =>
    have hd : d ≠ c := fun h => other (h ▸ rfl)
    simp [isyncs, hd]
  | _ => rfl

theorem handler_frame (rule : Rule s (.handler d) t) (hne : c ≠ d) :
    t.handler c = s.handler c := by
  cases rule <;> simp [hne]

/-- What a connection has in hand is left alone by the others, and cancelled at its end. -/
theorem moves_of_other (rule : Rule s a t) (housed : Housed s) (fresh : Fresh s)
    (other : a ≠ .handler c) : isyncs.Moves c s a t := by
  have idle : s.status c ≠ .running → (s.handler c).settling = [] := fun h => by
    rcases housed.idle c h with h | h <;> simp [h]
  refine Ledger.moves_of_none (begun_of_other other) ?_
  by_cases acts : ∃ d, a = .handler d
  · obtain ⟨d, rfl⟩ := acts
    have hd : d ≠ c := fun h => other (h ▸ rfl)
    simp [isyncs, hd, handler_frame rule hd.symm]
  · cases rule with
    | accept addr =>
      by_cases hc : c = s.count + 1
      · have absent := fresh c (by omega)
        simp [isyncs, hc, hc ▸ idle (by simp [absent])]
      · simp [isyncs, hc]
    | @writeErr d | @select d =>
      by_cases hd : c = d
      · subst hd
        simp [isyncs]
      · simp [isyncs, hd, Ne.symm hd]
    | @cleanupPanic d leaving =>
      by_cases hd : c = d
      · subst hd
        simp [isyncs, idle (by simp [leaving])]
      · simp [isyncs, hd]
    | client | sockFail | read | readErr | readTimeout | readerClosed | readerAcquire | readerPush
    | cleanupRemove | cleanupKeep | drop => simp [isyncs]
    | _ => exact absurd ⟨_, rfl⟩ acts

theorem moves_of_targetRuns (rule : Rule s a t) (housed : Housed s) (fresh : Fresh s)
    (hC : TargetRuns s a) (c : Nat) : isyncs.Moves c s a t := by
  by_cases ha : a = .handler c
  · subst ha
    obtain ⟨-, moves⟩ | ⟨hnot, -⟩ := handler_moves rule housed
    · exact moves
    · exact absurd hC hnot
  · exact moves_of_other rule housed fresh ha

theorem moves_or_loses (rule : Rule s a t) (housed : Housed s) (fresh : Fresh s) (c : Nat) :
    isyncs.Moves c s a t ∨ isyncs.Loses c s a t := by
  by_cases ha : a = .handler c
  · subst ha
    exact (handler_moves rule housed).imp And.right And.right
  · exact .inl (moves_of_other rule housed fresh ha)

theorem loses_of_not_targetRuns (rule : Rule s a t) (housed : Housed s) (hC : ¬TargetRuns s a) :
    ∃ c, isyncs.Loses c s a t := by
  obtain ⟨c, rfl⟩ : ∃ c, a = .handler c := by
    by_contra h
    refine hC fun c hc => absurd ⟨c, Action.mem_ofHandler.mp hc⟩ h
  obtain ⟨hyes, -⟩ | ⟨-, loses⟩ := handler_moves rule housed
  · exact absurd hyes hC
  · exact ⟨c, loses⟩

/-- Every `Isync` that a handler takes up is settled in its turn, but for the one in hand, if
and only if the target runs whenever the `Isync` or its `Fsync` gets on. -/
theorem isyncs_settled_iff (run : Run tr s) :
    (∀ c, isyncs.Balanced c tr s) ↔ Steps TargetRuns tr := by
  refine Ledger.balanced_iff_steps (Q := fun s => Housed s ∧ Fresh s) run (fun c => rfl)
    (fun _ _ run => ⟨housed run, fresh run⟩) ?_ ?_ ?_
  · exact fun s a t c step inv hC => moves_of_targetRuns (rule_of_step step) inv.1 inv.2 hC c
  · exact fun s a t c step inv => moves_or_loses (rule_of_step step) inv.1 inv.2 c
  · exact fun s a t step inv hC => loses_of_not_targetRuns (rule_of_step step) inv.1 hC

/-- Connection 2 is registered as `b`, and connection 1 is about to send it an `Fsync`. -/
def fsyncUnderway : List Action :=
  arrive 2 ++ register 2 "b" ++ deliver 1 ⟨"a", some (.isync ⟨"b"⟩)⟩ ++ [.handler 1]

/-- The target ends before the send: its requester is not told, and the `Fsync` is gone. -/
theorem isync_dropped : ¬∀ tr s, Run tr s → ∀ c, isyncs.Balanced c tr s := by
  have script : (exec State.step (fun _ _ => True) init (fsyncUnderway ++ unregister 2)).any
      (fun s => ¬TargetRuns s (.handler 1) ∧ (s.step (.handler 1)).isSome = true) = true := by
    decide
  obtain ⟨tr, s, run, -, h⟩ := run_of_exec script
  obtain ⟨hC, enabled⟩ := of_decide_eq_true h
  obtain ⟨t, step⟩ := Option.isSome_iff_exists.mp enabled
  obtain ⟨c, lost⟩ := loses_of_not_targetRuns (rule_of_step step) (housed run) hC
  intro all
  refine Ledger.not_balanced_of_loses (Q := fun s => Housed s ∧ Fresh s) run rfl ?_
    (fun _ _ run => ⟨housed run, fresh run⟩) lost (all _ _ (run.next step) c)
  exact fun s a t step inv => moves_or_loses (rule_of_step step) inv.1 inv.2 c

/-- The `Fsync` is put into the queue of the target. -/
theorem isync_forwarded : ∃ tr s, Run tr s ∧
    (s.queue 2).items.length = 1 ∧ ∀ c, isyncs.Balanced c tr s := by
  have script : (exec State.step TargetRuns init (fsyncUnderway ++ runHandler 1 2)).any
      (fun s => (s.queue 2).items.length = 1) = true := by decide
  obtain ⟨tr, s, run, hC, h⟩ := run_of_exec script
  exact ⟨tr, s, run, of_decide_eq_true h, (isyncs_settled_iff run).mpr hC⟩

end State

end Rndz.Tcp
