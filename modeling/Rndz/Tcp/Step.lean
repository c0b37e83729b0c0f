import Rndz.Tcp.Server

/-!
# What a step of the TCP server can do

`Rule` lists every way a step can go, with the guards that led there, and `rule_of_step` is
the one place where the step function is taken apart. Everything later is proved by cases
on `Rule`, or from the lemmas at the end, which say what a step can do to the registry, to
the requests under way and to the history.
-/
namespace Rndz.Tcp

open Net Proto Mpsc
open Function (update)

/-- The connection whose handler takes the step. -/
def Action.ofHandler : Action → Option Nat
  | .handler c => some c
  | _ => none

theorem Action.mem_ofHandler {a : Action} {c : Nat} : c ∈ a.ofHandler ↔ a = .handler c := by
  cases a <;> simp [ofHandler]

namespace State

variable {s t : State} {c d : Nat} {id : String} {a : Action}

/-- The id with which the handler of `c` is about to call `insert_peerstate`, and where it
goes on: on a `Ping`, or at the end of `handle_isync`. -/
def inserting (s : State) (c : Nat) : Option (String × Handler) :=
  match s.handler c with
  | .handle it => if it.req.cmd = some .ping then some (it.req.id, .write .pong) else none
  | .insert src => some (src, .recv)
  | _ => none

/-- A step of a handler that calls `insert_peerstate` makes that call. -/
theorem step_inserting {next : Handler} (runs : s.HandlerRuns c)
    (inserts : s.inserting c = some (id, next)) :
    s.step (.handler c) = some (s.insertPeerstate c id next) := by
  have hstep : s.step (.handler c) = s.handlerStep c := if_pos runs
  rw [hstep]
  unfold inserting at inserts
  unfold handlerStep
  split at inserts
  · rename_i it at_handle
    obtain ⟨cmd, rfl, rfl⟩ : it.req.cmd = some .ping ∧ it.req.id = id ∧ .write .pong = next := by
      simpa using inserts
    simp [at_handle, handleCmd, cmd, handlePing]
  · rename_i src at_insert
    obtain ⟨rfl, rfl⟩ : src = id ∧ .recv = next := by simpa using inserts
    simp [at_insert]
  · cases inserts

/-- The handler is about to lock the registry. -/
def locking (s : State) (c : Nat) : Bool :=
  match s.handler c with
  | .handle it => match it.req.cmd with
    | some .ping | some (.isync _) | some (.rsync _) => true
    | _ => false
  | .insert _ => true
  | _ => false

/-- `handle_isync` has a target to forward to but cannot tell it the source's address. -/
def fsyncPanics (s : State) (c : Nat) : Bool :=
  match s.handler c with
  | .handle it => match it.req.cmd with
    | some (.isync isync) => (s.peers.get isync.id).isSome && !s.sockOk c
    | _ => false
  | _ => false

/-- The connection whose task panics at this step, outside the locked regions: on a mutex
that is poisoned already, or on `peer_addr` in `handle_isync`. -/
def panicking (s : State) : Action → Option Nat
  | .handler c => if (s.peers.poisoned && s.locking c) || s.fsyncPanics c then some c else none
  | .cleanup c => if s.peers.poisoned then some c else none
  | _ => none

/-! ## Dropping futures -/

@[simp, grind =] theorem items_withdraw (q : Nat → Queue) (t : Task) (o : Option Nat) (d : Nat) :
    (withdraw q t o d).items = (q d).items := by
  cases o with
  | none => rfl
  | some dst => by_cases h : d = dst <;> simp [withdraw, h]

@[simp, grind =] theorem closed_withdraw (q : Nat → Queue) (t : Task) (o : Option Nat) (d : Nat) :
    (withdraw q t o d).closed = (q d).closed := by
  cases o with
  | none => rfl
  | some dst => by_cases h : d = dst <;> simp [withdraw, h]

theorem mem_of_mem_waiting_withdraw {q : Nat → Queue} {t u : Task} {o : Option Nat}
    (hu : u ∈ (withdraw q t o d).waiting) : u ∈ (q d).waiting := by
  cases o with
  | none => exact hu
  | some dst =>
    by_cases h : d = dst
    · subst h
      exact Channel.mem_of_mem_waiting_cancel (by simpa [withdraw] using hu)
    · simpa [withdraw, h] using hu

/-! ## The rules -/

/-- The ways a step can go. -/
inductive Rule (s : State) : Action → State → Prop where
  | accept (addr : SocketAddr) : Rule s (.accept addr) (s.accept addr)
  | client {c : Nat} {req : Request} (accepted : s.status c ≠ .absent) :
      Rule s (.client c req)
        ({ s with inbox := update s.inbox c (s.inbox c ++ [req]) }.record (.sent c req))
  | sockFail {c : Nat} (accepted : s.status c ≠ .absent) :
      Rule s (.sockFail c) { s with sockOk := update s.sockOk c false }
  | read {c : Nat} {req : Request} {rest : List Request} (runs : s.ReaderRuns c)
      (at_read : s.reader c = .read) (frame : s.inbox c = req :: rest) :
      Rule s (.read c)
        { s with
          reader := update s.reader c (.send ⟨req, some (c, s.frames c), 0⟩ false)
          inbox := update s.inbox c rest
          frames := update s.frames c (s.frames c + 1) }
  | readErr {c : Nat} (runs : s.ReaderRuns c) (at_read : s.reader c = .read) :
      Rule s (.readErr c) (s.setReader c (.send .bye true))
  | readTimeout {c : Nat} (runs : s.ReaderRuns c) (at_read : s.reader c = .read) :
      Rule s (.readTimeout c) (s.setReader c .done)
  | readerClosed {c : Nat} {it : Item} {last : Bool} (runs : s.ReaderRuns c)
      (at_send : s.reader c = .send it last ∨ s.reader c = .sending it last)
      (closed : (s.queue c).closed = true) : Rule s (.reader c) (s.setReader c .done)
  | readerAcquire {c : Nat} {it : Item} {last : Bool} (runs : s.ReaderRuns c)
      (at_send : s.reader c = .send it last) (isOpen : (s.queue c).closed = false) :
      Rule s (.reader c)
        ((s.setQueue c ((s.queue c).acquire (.reader c))).setReader c (.sending it last))
  | readerPush {c : Nat} {it : Item} {last : Bool} {q : Queue} (runs : s.ReaderRuns c)
      (at_send : s.reader c = .sending it last) (isOpen : (s.queue c).closed = false)
      (push : (s.queue c).push (.reader c) it = some q) :
      Rule s (.reader c) ((s.setQueue c q).setReader c (if last then .done else .read))
  | recv {c : Nat} {it : Item} {q : Queue} (runs : s.HandlerRuns c)
      (at_recv : s.handler c = .recv) (recv : (s.queue c).recv = some (it, q)) :
      Rule s (.handler c) ((s.setQueue c q).setHandler c (.handle it))
  /-- `insert_peerstate` finds the mutex poisoned. -/
  | insertPoisoned {c : Nat} {id : String} {next : Handler} (runs : s.HandlerRuns c)
      (inserts : s.inserting c = some (id, next)) (poisoned : s.peers.poisoned = true) :
      Rule s (.handler c) ((s.setPeerId c id).panic c)
  /-- `insert_peerstate` finds an entry of its own and refreshes it. -/
  | insertRefresh {c : Nat} {id : String} {next : Handler} (runs : s.HandlerRuns c)
      (inserts : s.inserting c = some (id, next)) (sound : s.peers.poisoned = false)
      (owns : s.Owns c id) :
      Rule s (.handler c) (((s.setPeerId c id).record (.inserted c id)).setHandler c next)
  /-- `insert_peerstate` makes a new entry, which may take the id over. -/
  | insertNew {c : Nat} {id : String} {next : Handler} (runs : s.HandlerRuns c)
      (inserts : s.inserting c = some (id, next)) (sound : s.peers.poisoned = false)
      (not_owns : ¬s.Owns c id) (sock : s.sockOk c = true) :
      Rule s (.handler c)
        ((((s.setPeerId c id).record (.inserted c id)).setPeers
          (s.peers.insert id ⟨c, c, s.addr c⟩)).setHandler c next)
  /-- `insert_peerstate` panics inside the locked region. -/
  | insertPanic {c : Nat} {id : String} {next : Handler} (runs : s.HandlerRuns c)
      (inserts : s.inserting c = some (id, next)) (sound : s.peers.poisoned = false)
      (not_owns : ¬s.Owns c id) (sock : s.sockOk c = false) :
      Rule s (.handler c)
        ((((s.setPeerId c id).record (.inserted c id)).setPeers (s.peers.remove id).poison).panic c)
  /-- `handle_isync` panics, on the poisoned mutex or on `peer_addr` for the `Fsync`. -/
  | isyncPanic {c : Nat} {it : Item} {isync : Isync} (runs : s.HandlerRuns c)
      (at_handle : s.handler c = .handle it) (cmd : it.req.cmd = some (.isync isync))
      (why : s.peers.poisoned = true ∨ (s.peers.get isync.id ≠ none ∧ s.sockOk c = false)) :
      Rule s (.handler c) (s.panic c)
  | isyncForward {c : Nat} {it : Item} {isync : Isync} {peer : PeerState} (runs : s.HandlerRuns c)
      (at_handle : s.handler c = .handle it) (cmd : it.req.cmd = some (.isync isync))
      (sound : s.peers.poisoned = false) (found : s.peers.get isync.id = some peer)
      (sock : s.sockOk c = true) :
      Rule s (.handler c) (s.setHandler c (.send peer.reqTx
        ⟨⟨"", some (.fsync { id := it.req.id, addr := (s.addr c).toString })⟩, it.origin,
          it.hops + 1⟩ (some it.req.id)))
  | isyncMissing {c : Nat} {it : Item} {isync : Isync} (runs : s.HandlerRuns c)
      (at_handle : s.handler c = .handle it) (cmd : it.req.cmd = some (.isync isync))
      (sound : s.peers.poisoned = false) (missing : s.peers.get isync.id = none) :
      Rule s (.handler c) (s.setHandler c (.write (.redirect ⟨isync.id, ""⟩)))
  | fsync {c : Nat} {it : Item} {fsync : Fsync} (runs : s.HandlerRuns c)
      (at_handle : s.handler c = .handle it) (cmd : it.req.cmd = some (.fsync fsync)) :
      Rule s (.handler c) (s.setHandler c (.write (.fsync fsync)))
  | rsyncPanic {c : Nat} {it : Item} {rsync : Rsync} (runs : s.HandlerRuns c)
      (at_handle : s.handler c = .handle it) (cmd : it.req.cmd = some (.rsync rsync))
      (poisoned : s.peers.poisoned = true) : Rule s (.handler c) (s.panic c)
  | rsyncAnswer {c : Nat} {it : Item} {rsync : Rsync} {peer : PeerState} (runs : s.HandlerRuns c)
      (at_handle : s.handler c = .handle it) (cmd : it.req.cmd = some (.rsync rsync))
      (sound : s.peers.poisoned = false) (own : rsync.id = s.peerId c)
      (found : s.peers.get it.req.id = some peer) :
      Rule s (.handler c)
        (s.setHandler c (.write (.redirect ⟨it.req.id, peer.addr.toString⟩)))
  | rsyncForward {c : Nat} {it : Item} {rsync : Rsync} {peer : PeerState} (runs : s.HandlerRuns c)
      (at_handle : s.handler c = .handle it) (cmd : it.req.cmd = some (.rsync rsync))
      (sound : s.peers.poisoned = false) (other : rsync.id ≠ s.peerId c)
      (found : s.peers.get rsync.id = some peer) :
      Rule s (.handler c) (s.setHandler c (.send peer.reqTx
        ⟨⟨it.req.id, some (.rsync rsync)⟩, it.origin, it.hops + 1⟩ none))
  /-- `handle_rsync` finds the source, or the destination, unregistered. -/
  | rsyncDrop {c : Nat} {it : Item} {rsync : Rsync} (runs : s.HandlerRuns c)
      (at_handle : s.handler c = .handle it) (cmd : it.req.cmd = some (.rsync rsync))
      (sound : s.peers.poisoned = false)
      (missing : s.peers.get (if rsync.id = s.peerId c then it.req.id else rsync.id) = none) :
      Rule s (.handler c) (s.setHandler c .recv)
  | bye {c : Nat} {it : Item} (runs : s.HandlerRuns c) (at_handle : s.handler c = .handle it)
      (cmd : it.req.cmd = some .bye ∨ it.req.cmd = none) : Rule s (.handler c) (s.leave c)
  | sendClosed {c dst : Nat} {it : Item} {src : Option String} (runs : s.HandlerRuns c)
      (at_send : s.handler c = .send dst it src ∨ s.handler c = .sending dst it src)
      (closed : (s.queue dst).closed = true) :
      Rule s (.handler c) (s.setHandler c (afterSend src))
  | sendAcquire {c dst : Nat} {it : Item} {src : Option String} (runs : s.HandlerRuns c)
      (at_send : s.handler c = .send dst it src) (isOpen : (s.queue dst).closed = false) :
      Rule s (.handler c)
        ((s.setQueue dst ((s.queue dst).acquire (.handler c))).setHandler c (.sending dst it src))
  | sendPush {c dst : Nat} {it : Item} {src : Option String} {q : Queue} (runs : s.HandlerRuns c)
      (at_send : s.handler c = .sending dst it src) (isOpen : (s.queue dst).closed = false)
      (push : (s.queue dst).push (.handler c) it = some q) :
      Rule s (.handler c)
        (((s.setQueue dst q).setHandler c (afterSend src)).record (.placed c it dst))
  | write {c : Nat} {cmd : RespCmd} (runs : s.HandlerRuns c) (at_write : s.handler c = .write cmd) :
      Rule s (.handler c) ((s.setHandler c .recv).record (.wrote c cmd))
  | writeErr {c : Nat} {cmd : RespCmd} (runs : s.HandlerRuns c)
      (at_write : s.handler c = .write cmd) : Rule s (.writeErr c) (s.leave c)
  | select {c : Nat} (runs : s.ReaderRuns c) (at_done : s.reader c = .done) :
      Rule s (.select c) (s.leave c)
  | cleanupPanic {c : Nat} (leaving : s.status c = .leaving)
      (poisoned : s.peers.poisoned = true) : Rule s (.cleanup c) (s.panic c)
  | cleanupRemove {c : Nat} (leaving : s.status c = .leaving) (sound : s.peers.poisoned = false)
      (owns : s.Owns c (s.peerId c)) :
      Rule s (.cleanup c) ((s.setPeers (s.peers.remove (s.peerId c))).setStatus c .cleaned)
  | cleanupKeep {c : Nat} (leaving : s.status c = .leaving) (sound : s.peers.poisoned = false)
      (not_owns : ¬s.Owns c (s.peerId c)) :
      Rule s (.cleanup c) (s.setStatus c .cleaned)
  | drop {c : Nat} (cleaned : s.status c = .cleaned) : Rule s (.drop c) (s.dropHandler c)

theorem insertPeerstate_rule {next : Handler} (runs : s.HandlerRuns c)
    (inserts : s.inserting c = some (id, next)) :
    Rule s (.handler c) (s.insertPeerstate c id next) := by
  unfold insertPeerstate
  by_cases hp : s.peers.poisoned = true
  · simpa [hp] using Rule.insertPoisoned runs inserts hp
  have sound : s.peers.poisoned = false := by simpa using hp
  cases hg : s.peers.get id with
  | none =>
    have hown : ¬s.Owns c id := by simp [Owns, hg]
    have hremove : s.peers.remove id = s.peers := PeerMap.remove_eq_self hg
    cases hs : s.sockOk c with
    | true => simpa [sound, hg, hs, peerAddr] using Rule.insertNew runs inserts sound hown hs
    | false =>
      simpa [sound, hg, hs, peerAddr, hremove] using Rule.insertPanic runs inserts sound hown hs
  | some p =>
    by_cases hid : p.id = c
    · have hown : s.Owns c id := by simp [Owns, hg, hid]
      simpa [sound, hg, hid] using Rule.insertRefresh runs inserts sound hown
    · have hown : ¬s.Owns c id := by simpa [Owns, hg] using hid
      cases hs : s.sockOk c with
      | true =>
        simpa [sound, hg, hid, hs, peerAddr] using Rule.insertNew runs inserts sound hown hs
      | false =>
        simpa [sound, hg, hid, hs, peerAddr] using Rule.insertPanic runs inserts sound hown hs

theorem handleIsync_rule {it : Item} {isync : Isync} (runs : s.HandlerRuns c)
    (at_handle : s.handler c = .handle it) (cmd : it.req.cmd = some (.isync isync)) :
    Rule s (.handler c) (s.handleIsync c it isync) := by
  unfold handleIsync
  by_cases hp : s.peers.poisoned = true
  · simpa [hp] using Rule.isyncPanic runs at_handle cmd (.inl hp)
  have sound : s.peers.poisoned = false := by simpa using hp
  cases hg : s.peers.get isync.id with
  | none => simpa [sound, hg] using Rule.isyncMissing runs at_handle cmd sound hg
  | some peer =>
    cases hs : s.sockOk c with
    | true =>
      simpa [sound, hg, hs, peerAddr] using Rule.isyncForward runs at_handle cmd sound hg hs
    | false =>
      simpa [sound, hg, hs, peerAddr] using
        Rule.isyncPanic runs at_handle cmd (.inr ⟨by simp [hg], hs⟩)

theorem handleRsync_rule {it : Item} {rsync : Rsync} (runs : s.HandlerRuns c)
    (at_handle : s.handler c = .handle it) (cmd : it.req.cmd = some (.rsync rsync)) :
    Rule s (.handler c) (s.handleRsync c it rsync) := by
  unfold handleRsync
  by_cases hp : s.peers.poisoned = true
  · simpa [hp] using Rule.rsyncPanic runs at_handle cmd hp
  have sound : s.peers.poisoned = false := by simpa using hp
  by_cases hd : rsync.id = s.peerId c
  · cases hg : s.peers.get it.req.id with
    | none => simpa [sound, hd, hg] using Rule.rsyncDrop runs at_handle cmd sound (by simp [hd, hg])
    | some peer => simpa [sound, hd, hg] using Rule.rsyncAnswer runs at_handle cmd sound hd hg
  · cases hg : s.peers.get rsync.id with
    | none => simpa [sound, hd, hg] using Rule.rsyncDrop runs at_handle cmd sound (by simp [hd, hg])
    | some peer => simpa [sound, hd, hg] using Rule.rsyncForward runs at_handle cmd sound hd hg

theorem handleCmd_rule {it : Item} (runs : s.HandlerRuns c) (at_handle : s.handler c = .handle it) :
    Rule s (.handler c) (s.handleCmd c it) := by
  unfold handleCmd
  split
  · rename_i cmd
    exact insertPeerstate_rule runs (by simp [inserting, at_handle, cmd])
  · rename_i isync cmd
    exact handleIsync_rule runs at_handle cmd
  · rename_i fsync cmd
    exact .fsync runs at_handle cmd
  · rename_i rsync cmd
    exact handleRsync_rule runs at_handle cmd
  · rename_i cmd
    exact .bye runs at_handle (.inl cmd)
  · rename_i cmd
    exact .bye runs at_handle (.inr cmd)

theorem handlerStep_rule (runs : s.HandlerRuns c) (h : s.handlerStep c = some t) :
    Rule s (.handler c) t := by
  unfold handlerStep at h
  split at h
  · rename_i at_recv
    obtain ⟨⟨it, q⟩, hr, rfl⟩ := Option.map_eq_some_iff.mp h
    exact .recv runs at_recv hr
  · rename_i it at_handle
    obtain rfl := Option.some.inj h
    exact handleCmd_rule runs at_handle
  · rename_i dst it src at_send
    split at h <;> obtain rfl := Option.some.inj h
    · rename_i closed
      exact .sendClosed runs (.inl at_send) closed
    · rename_i isOpen
      exact .sendAcquire runs at_send (by simpa using isOpen)
  · rename_i dst it src at_send
    split at h
    · rename_i closed
      obtain rfl := Option.some.inj h
      exact .sendClosed runs (.inr at_send) closed
    · rename_i isOpen
      obtain ⟨q, hq, rfl⟩ := Option.map_eq_some_iff.mp h
      exact .sendPush runs at_send (by simpa using isOpen) hq
  · rename_i src at_insert
    obtain rfl := Option.some.inj h
    exact insertPeerstate_rule runs (by simp [inserting, at_insert])
  · rename_i cmd at_write
    obtain rfl := Option.some.inj h
    exact .write runs at_write
  · cases h

theorem readerStep_rule (runs : s.ReaderRuns c) (h : s.readerStep c = some t) :
    Rule s (.reader c) t := by
  unfold readerStep at h
  split at h
  · rename_i it last at_send
    split at h <;> obtain rfl := Option.some.inj h
    · rename_i closed
      exact .readerClosed runs (.inl at_send) closed
    · rename_i isOpen
      exact .readerAcquire runs at_send (by simpa using isOpen)
  · rename_i it last at_send
    split at h
    · rename_i closed
      obtain rfl := Option.some.inj h
      exact .readerClosed runs (.inr at_send) closed
    · rename_i isOpen
      obtain ⟨q, hq, rfl⟩ := Option.map_eq_some_iff.mp h
      exact .readerPush runs at_send (by simpa using isOpen) hq
  · cases h

theorem cleanup_rule (leaving : s.status c = .leaving) : Rule s (.cleanup c) (s.cleanup c) := by
  unfold cleanup
  by_cases hp : s.peers.poisoned = true
  · simpa [hp] using Rule.cleanupPanic leaving hp
  have sound : s.peers.poisoned = false := by simpa using hp
  cases hg : s.peers.get (s.peerId c) with
  | none => simpa [sound, hg] using Rule.cleanupKeep leaving sound (by simp [Owns, hg])
  | some p =>
    by_cases hid : p.id = c
    · simpa [sound, hg, hid] using Rule.cleanupRemove leaving sound (by simp [Owns, hg, hid])
    · simpa [sound, hg, hid] using Rule.cleanupKeep leaving sound (by simpa [Owns, hg] using hid)

/-- Every step goes by one of the rules. -/
theorem rule_of_step (h : s.step a = some t) : Rule s a t := by
  cases a with
  | accept addr =>
    obtain rfl := Option.some.inj h
    exact .accept addr
  | client c req =>
    obtain ⟨accepted, h⟩ := Option.ite_none_right_eq_some.mp h
    obtain rfl := Option.some.inj h
    exact .client accepted
  | sockFail c =>
    obtain ⟨accepted, h⟩ := Option.ite_none_right_eq_some.mp h
    obtain rfl := Option.some.inj h
    exact .sockFail accepted
  | read c =>
    obtain ⟨⟨runs, at_read⟩, h⟩ := Option.ite_none_right_eq_some.mp h
    unfold readReq at h
    split at h
    · rename_i req rest frame
      obtain rfl := Option.some.inj h
      exact .read runs at_read frame
    · cases h
  | readErr c =>
    obtain ⟨⟨runs, at_read⟩, h⟩ := Option.ite_none_right_eq_some.mp h
    obtain rfl := Option.some.inj h
    exact .readErr runs at_read
  | readTimeout c =>
    obtain ⟨⟨runs, at_read⟩, h⟩ := Option.ite_none_right_eq_some.mp h
    obtain rfl := Option.some.inj h
    exact .readTimeout runs at_read
  | reader c =>
    obtain ⟨runs, h⟩ := Option.ite_none_right_eq_some.mp h
    exact readerStep_rule runs h
  | handler c =>
    obtain ⟨runs, h⟩ := Option.ite_none_right_eq_some.mp h
    exact handlerStep_rule runs h
  | writeErr c =>
    unfold step at h
    dsimp only at h
    split at h
    · rename_i cmd at_write
      obtain ⟨runs, h⟩ := Option.ite_none_right_eq_some.mp h
      obtain rfl := Option.some.inj h
      exact .writeErr runs at_write
    · cases h
  | select c =>
    obtain ⟨⟨runs, at_done⟩, h⟩ := Option.ite_none_right_eq_some.mp h
    obtain rfl := Option.some.inj h
    exact .select runs at_done
  | cleanup c =>
    obtain ⟨leaving, h⟩ := Option.ite_none_right_eq_some.mp h
    obtain rfl := Option.some.inj h
    exact cleanup_rule leaving
  | drop c =>
    obtain ⟨cleaned, h⟩ := Option.ite_none_right_eq_some.mp h
    obtain rfl := Option.some.inj h
    exact .drop cleaned

end State

/-! ## Scripts of concrete runs -/

/-- Connections 1 to `n` are accepted, each from a host of its own. -/
def arrive (n : Nat) : List Action := (List.range n).map fun i => .accept (host (i + 1).toUInt8)

/-- The handler of `c` takes `n` steps. -/
def runHandler (c n : Nat) : List Action := List.replicate n (.handler c)

/-- The client of `c` sends a frame, and its handler takes it. -/
def deliver (c : Nat) (req : Request) : List Action :=
  [.client c req, .read c, .reader c, .reader c, .handler c]

/-- A `Ping` is handled and answered. -/
def register (c : Nat) (id : String) : List Action :=
  deliver c ⟨id, some .ping⟩ ++ [.handler c, .handler c]

/-- A `Bye` is handled and the connection cleaned up. -/
def unregister (c : Nat) : List Action :=
  deliver c ⟨"", some .bye⟩ ++ [.handler c, .cleanup c, .drop c]

end Rndz.Tcp
