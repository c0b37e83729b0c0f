import Rndz.Tcp.Step

/-!
# The registry of the TCP server

An abstract registry is a function of the history alone: the last connection to call
`insert_peerstate(id)` holds `id` until it ends (`lastInsert`). The map behind the mutex
refines it (`RegistryInv`): an entry always belongs to the last caller, and the entry of a
last caller that has not ended is there, whatever other connections do.

The clean-up of `handle_stream` removes one entry only, so a stale entry is excluded exactly
as long as no connection leaves another entry of its own behind (`KeepsOneEntry`). The mutex
is poisoned by one step only, a new entry on a failed socket (`PeerAddrKnown`).
-/
namespace Rndz.Tcp

open Net Proto Mpsc Transition
open Function (update update_apply)

/-- The connection that last entered the locked region of `insert_peerstate(id)`. -/
def lastInsert (log : List Event) (id : String) : Option Nat :=
  log.foldl (fun last e => match e with
    | .inserted c k => if k = id then some c else last
    | _ => last) none

@[simp] theorem lastInsert_nil (id : String) : lastInsert [] id = none := rfl

theorem lastInsert_concat (log : List Event) (e : Event) (id : String) :
    lastInsert (log ++ [e]) id = match e with
    | .inserted c k => if k = id then some c else lastInsert log id
    | _ => lastInsert log id := by
  simp [lastInsert]

namespace State

variable {s t : State} {c d : Nat} {id : String} {a : Action} {tr : List (State × Action)}

/-! ## Effects of a step on the registry -/

/-- The step extends the history, if at all, by something else than an insertion. -/
def Quiet (s t : State) : Prop :=
  t.log = s.log ∨ ∃ e, t.log = s.log ++ [e] ∧ ∀ c id, e ≠ .inserted c id

theorem Quiet.lastInsert (h : Quiet s t) (id : String) :
    lastInsert t.log id = lastInsert s.log id := by
  rcases h with h | ⟨e, h, he⟩
  · rw [h]
  · rw [h, lastInsert_concat]
    cases e with
    | inserted c k => exact absurd rfl (he c k)
    | _ => rfl

/-- The effects a step can have on the registry. -/
inductive RegistryStep (s : State) (a : Action) (t : State) : Prop where
  | quiet (peers : t.peers = s.peers) (log : Quiet s t)
      (peerId : ∀ d, s.status d ≠ .absent → t.peerId d = s.peerId d)
      (ended : ∀ d, t.Ended d ↔ s.Ended d)
  /-- `insert_peerstate(id)` of `c` succeeds. -/
  | register (c : Nat) (id : String) (p : PeerState) (action : a = .handler c)
      (inserts : ∃ next, s.inserting c = some (id, next)) (runs : s.status c = .running)
      (entry : p = ⟨c, c, s.addr c⟩ ∨ s.peers.get id = some p ∧ p.id = c)
      (sound : s.peers.poisoned = false) (sound' : t.peers.poisoned = false)
      (peers : ∀ k, t.peers.get k = if k = id then some p else s.peers.get k)
      (log : t.log = s.log ++ [.inserted c id])
      (peerId : ∀ d, t.peerId d = if d = c then id else s.peerId d)
      (ended : ∀ d, t.Ended d ↔ s.Ended d)
  /-- `insert_peerstate(id)` of `c` panics, and the entry another connection had is lost. -/
  | evict (c : Nat) (id : String) (action : a = .handler c)
      (inserts : ∃ next, s.inserting c = some (id, next)) (runs : s.status c = .running)
      (not_owns : ¬s.Owns c id) (sock : s.sockOk c = false)
      (sound : s.peers.poisoned = false)
      (peers : ∀ k, t.peers.get k = if k = id then none else s.peers.get k)
      (log : t.log = s.log ++ [.inserted c id])
      (peerId : ∀ d, d ≠ c → t.peerId d = s.peerId d)
      (ended : ∀ d, t.Ended d ↔ d = c ∨ s.Ended d)
  /-- The task of `c` panics elsewhere. -/
  | die (c : Nat) (panics : c ∈ s.panicking a) (runs : s.status c ≠ .absent ∧ ¬s.Ended c)
      (peers : t.peers = s.peers) (log : Quiet s t)
      (peerId : ∀ d, d ≠ c → t.peerId d = s.peerId d)
      (ended : ∀ d, t.Ended d ↔ d = c ∨ s.Ended d)
  /-- The clean-up of `c`. -/
  | unregister (c : Nat) (runs : s.status c = .leaving)
      (poisoned : t.peers.poisoned = s.peers.poisoned)
      (peers : ∀ k, t.peers.get k =
        if k = s.peerId c ∧ s.Owns c k then none else s.peers.get k)
      (log : Quiet s t) (peerId : ∀ d, t.peerId d = s.peerId d)
      (ended : ∀ d, t.Ended d ↔ d = c ∨ s.Ended d)

theorem locking_of_inserting {next : Handler} (h : s.inserting c = some (id, next)) :
    s.locking c = true := by
  unfold inserting at h
  unfold locking
  split at h
  · rename_i it at_handle
    obtain ⟨cmd, -⟩ : it.req.cmd = some .ping ∧ _ := by simpa using h
    simp [cmd]
  · rfl
  · cases h

theorem registry_step (h : Rule s a t) (fresh : s.status (s.count + 1) = .absent) :
    RegistryStep s a t := by
  cases h with
  | accept | client | sendPush | write =>
    refine .quiet ?_ ?_ ?_ ?_ <;> simp [Quiet, Ended, update_apply]
    all_goals grind
  | select runs | writeErr runs | bye runs | drop runs =>
    refine .quiet ?_ ?_ ?_ ?_ <;> simp [Quiet, Ended, update_apply]
    all_goals grind [ReaderRuns, HandlerRuns]
  | @insertRefresh c id next runs inserts sound owns =>
    obtain ⟨p, hp, hid⟩ := owns_iff.mp owns
    refine .register c id p rfl ⟨next, inserts⟩ runs.1 (.inr ⟨hp, hid⟩) sound ?_ ?_ ?_ ?_ ?_ <;>
      simp [Ended, update_apply]
    all_goals grind
  | @insertNew c id next runs inserts sound not_owns sock =>
    refine .register c id _ rfl ⟨next, inserts⟩ runs.1 (.inl rfl) sound ?_ ?_ ?_ ?_ ?_ <;>
      simp [Ended, update_apply]
    all_goals grind
  | @insertPanic c id next runs inserts sound not_owns sock =>
    refine .evict c id rfl ⟨next, inserts⟩ runs.1 not_owns sock sound ?_ ?_ ?_ ?_ <;>
      simp [Ended, update_apply]
    all_goals grind
  | @insertPoisoned c id next runs inserts poisoned =>
    have panics : c ∈ s.panicking (.handler c) := by
      simp [panicking, poisoned, locking_of_inserting inserts]
    refine .die c panics ?_ ?_ ?_ ?_ ?_ <;> simp [Quiet, Ended, update_apply]
    all_goals grind [HandlerRuns]
  | @rsyncPanic c it rsync runs at_handle cmd poisoned =>
    have panics : c ∈ s.panicking (.handler c) := by
      simp [panicking, poisoned, locking, at_handle, cmd]
    refine .die c panics ?_ ?_ ?_ ?_ ?_ <;> simp [Quiet, Ended, update_apply]
    all_goals grind [HandlerRuns]
  | @isyncPanic c it isync runs at_handle cmd why =>
    have panics : c ∈ s.panicking (.handler c) := by
      rcases why with poisoned | ⟨found, sock⟩
      · simp [panicking, poisoned, locking, at_handle, cmd]
      · simp [panicking, fsyncPanics, at_handle, cmd, Option.isSome_iff_ne_none, found, sock]
    refine .die c panics ?_ ?_ ?_ ?_ ?_ <;> simp [Quiet, Ended, update_apply]
    all_goals grind [HandlerRuns]
  | @cleanupPanic c leaving poisoned =>
    have panics : c ∈ s.panicking (.cleanup c) := by simp [panicking, poisoned]
    refine .die c panics ?_ ?_ ?_ ?_ ?_ <;> simp [Quiet, Ended, update_apply]
    all_goals grind
  | @cleanupRemove c leaving _ owns | @cleanupKeep c leaving _ owns =>
    refine .unregister c leaving ?_ ?_ ?_ ?_ ?_ <;> simp [Quiet, Ended, update_apply]
    all_goals grind
  | _ => exact .quiet rfl (.inl rfl) (fun _ _ => rfl) (fun _ => Iff.rfl)

/-! ## Connections are numbered once -/

/-- Connections with a number that `next_id` has not given yet do not exist. -/
def Fresh (s : State) : Prop := ∀ c, s.count < c → s.status c = .absent

theorem fresh_step (ih : Fresh s) (h : s.step a = some t) : Fresh t := by
  intro c hc
  have known : ∀ d, s.status d ≠ .absent → d ≤ s.count := fun d hd =>
    Nat.le_of_not_lt fun hlt => hd (ih d hlt)
  cases rule_of_step h <;> simp_all [update_apply]
  all_goals grind [ReaderRuns, HandlerRuns, Fresh]

theorem fresh (run : Run tr s) : Fresh s :=
  run.invariant (fun _ _ => rfl) fun _ _ _ => fresh_step

/-- The accept-time address of a connection never changes. -/
theorem addr_step (h : Rule s a t) (fresh : Fresh s) (hc : s.status c ≠ .absent) :
    t.addr c = s.addr c := by
  cases h with
  | accept addr =>
    have : c ≠ s.count + 1 := fun hcount => hc (hcount ▸ fresh _ (Nat.lt_succ_self _))
    simp [this]
  | _ => rfl

theorem status_step (h : Rule s a t) (hc : s.status c ≠ .absent) : t.status c ≠ .absent := by
  cases h <;> simp_all [update_apply]
  all_goals grind

/-- A connection comes into being when it is accepted. -/
theorem accepted_of_status (h : Rule s a t) (hs : s.status c = .absent)
    (hc : t.status c ≠ .absent) : a = .accept (t.addr c) := by
  cases h with
  | accept addr =>
    have hcount : c = s.count + 1 := by
      by_contra hne
      exact hc (by simpa [hne] using hs)
    simp [hcount]
  | _ =>
    exfalso
    simp only [setHandler, setQueue, setReader, leave, panic, dropFutures, dropReadReqs,
      dropHandleCmds, dropHandler, record, setPeerId, setStatus, setPeers, update_apply] at hc
    grind [ReaderRuns, HandlerRuns]

/-- What is true of every address that a connection is accepted from. -/
theorem addr_of_accepts {P : SocketAddr → Prop} (run : Run tr s)
    (hC : Steps (fun _ a => ∀ addr, a = .accept addr → P addr) tr) :
    ∀ c, s.status c ≠ .absent → P (s.addr c) := by
  refine run.invariant_of_steps (P := fun s => ∀ c, s.status c ≠ .absent → P (s.addr c)) hC
    (Q := Fresh) (fun _ _ => fresh) (fun c hc => absurd rfl hc) ?_
  intro s a t hfresh ih hC step c hc
  have rule := rule_of_step step
  by_cases known : s.status c = .absent
  · exact hC _ (accepted_of_status rule known hc)
  · rw [addr_step rule hfresh known]
    exact ih c known

/-! ## The registry refines its history -/

/-- Every entry is whole and belongs to the last connection that called
`insert_peerstate` for its id; while that connection has not ended, the entry exists. -/
structure RegistryInv (s : State) : Prop where
  entry : ∀ k p, s.peers.get k = some p → p = ⟨p.id, p.id, s.addr p.id⟩
  last : ∀ k p, s.peers.get k = some p → lastInsert s.log k = some p.id
  live : ∀ k c, lastInsert s.log k = some c → ¬s.Ended c → (s.peers.get k).isSome
  accepted : ∀ k c, lastInsert s.log k = some c → s.status c ≠ .absent

theorem registryInv_init : RegistryInv init := by
  constructor <;> simp [init]

theorem registryInv_step (inv : RegistryInv s) (fresh : Fresh s) (h : s.step a = some t) :
    RegistryInv t := by
  have rule := rule_of_step h
  have addr : ∀ c, s.status c ≠ .absent → t.addr c = s.addr c := fun c hc =>
    addr_step rule fresh hc
  have accepted : ∀ c, s.status c ≠ .absent → t.status c ≠ .absent := fun c hc =>
    status_step rule hc
  obtain ⟨hentry, hlast, hlive, hacc⟩ := inv
  cases registry_step rule (fresh _ (Nat.lt_succ_self _)) with
  | quiet peers log peerId ended =>
    have hlog := log.lastInsert
    constructor <;> grind
  | register c id p action inserts runs entry sound sound' peers log peerId ended =>
    have hlog : ∀ k, lastInsert t.log k = if id = k then some c else lastInsert s.log k := by
      simp [log, lastInsert_concat]
    constructor <;> grind
  | evict c id action inserts runs not_owns sock sound peers log peerId ended =>
    have hlog : ∀ k, lastInsert t.log k = if id = k then some c else lastInsert s.log k := by
      simp [log, lastInsert_concat]
    constructor <;> grind
  | die c panics runs peers log peerId ended =>
    have hlog := log.lastInsert
    constructor <;> grind
  | unregister c runs poisoned peers log peerId ended =>
    have hlog := log.lastInsert
    have owner : ∀ k, s.Owns c k → lastInsert s.log k = some c := fun k hk => by
      obtain ⟨p, hp, rfl⟩ := owns_iff.mp hk
      exact hlast k p hp
    constructor <;> grind

theorem registryInv (run : Run tr s) : RegistryInv s :=
  (run.invariant (P := fun s => Fresh s ∧ RegistryInv s) ⟨fun _ _ => rfl, registryInv_init⟩
    fun _ _ _ ih h => ⟨fresh_step ih.1 h, registryInv_step ih.2 ih.1 h⟩).2

/-- A live registration is never lost, shadowed or mixed. -/
theorem live_registration (run : Run tr s) :
    (∀ k c, lastInsert s.log k = some c → ¬s.Ended c →
      s.peers.get k = some ⟨c, c, s.addr c⟩) ∧
    ∀ k p, s.peers.get k = some p → p = ⟨p.id, p.id, s.addr p.id⟩ := by
  have inv := registryInv run
  refine ⟨fun k c hl he => ?_, inv.entry⟩
  obtain ⟨p, hp⟩ := Option.isSome_iff_exists.mp (inv.live k c hl he)
  have hid : c = p.id := Option.some.inj (hl.symm.trans (inv.last k p hp))
  rw [hp, hid, ← inv.entry k p hp]

/-- Connection 2 takes `a` over from connection 1, which leaves only then. -/
theorem live_registration_after_takeover : ∃ tr s, Run tr s ∧ s.Ended 1 ∧
    s.peers.get "a" = some ⟨2, 2, s.addr 2⟩ := by
  have script : (exec State.step (fun _ _ => True) init
      (arrive 2 ++ register 1 "a" ++ register 2 "a" ++ unregister 1)).any
      (fun s => s.Ended 1 ∧ lastInsert s.log "a" = some 2 ∧ ¬s.Ended 2) = true := by decide
  obtain ⟨tr, s, run, -, h⟩ := run_of_exec script
  obtain ⟨hended, hlast, hlive⟩ := of_decide_eq_true h
  exact ⟨tr, s, run, hended, (live_registration run).1 "a" 2 hlast hlive⟩

/-! ## Stale entries -/

/-- No entry of a connection whose handler has ended is left. -/
def NoStale (s : State) : Prop :=
  ∀ c, s.Ended c → ∀ k p, s.peers.get k = some p → p.id ≠ c ∧ p.reqTx ≠ c

/-- At this step no connection leaves an entry of its own behind: it does not register
under another id while the entry under its current one is its own, and it does not panic
with an entry in the map. -/
structure KeepsOneEntry (s : State) (a : Action) : Prop where
  one_id : ∀ c ∈ a.ofHandler, ∀ call ∈ s.inserting c, call.1 ≠ s.peerId c →
    ¬s.Owns c (s.peerId c)
  no_panic : ∀ c ∈ s.panicking a, ¬s.Owns c (s.peerId c)

instance (s : State) (a : Action) : Decidable (KeepsOneEntry s a) :=
  decidable_of_iff (_ ∧ _) ⟨fun h => ⟨h.1, h.2⟩, fun h => ⟨h.one_id, h.no_panic⟩⟩

/-- A connection's entry stands under its current id, and the connection has not ended. -/
def OneEntry (s : State) : Prop := ∀ k c, s.Owns c k → s.peerId c = k ∧ ¬s.Ended c

/-- A connection that registers as `id` has no entry of its own under another id it goes by. -/
theorem KeepsOneEntry.ne_of_owns (hC : KeepsOneEntry s a) {next : Handler} {k : String}
    (action : a = .handler c) (inserts : s.inserting c = some (id, next)) (hpeer : s.peerId d = k)
    (owns : s.Owns d k) (other : k ≠ id) : d ≠ c := by
  rintro rfl
  subst hpeer
  exact hC.one_id d (Action.mem_ofHandler.mpr action) _ inserts other.symm owns

theorem oneEntry_step (inv : RegistryInv s) (fresh : Fresh s) (ih : OneEntry s)
    (hC : KeepsOneEntry s a) (h : s.step a = some t) : OneEntry t := by
  have rule := rule_of_step h
  intro k d hk
  have back : s.Owns d k → s.peerId d = k ∧ ¬s.Ended d ∧ s.status d ≠ .absent := fun hs => by
    obtain ⟨p, hp, rfl⟩ := owns_iff.mp hs
    exact ⟨(ih k p.id hs).1, (ih k p.id hs).2, inv.accepted k _ (inv.last k p hp)⟩
  cases registry_step rule (fresh _ (Nat.lt_succ_self _)) with
  | quiet peers log peerId ended =>
    obtain ⟨hpeer, hended, hstatus⟩ := back (by simpa [Owns, peers] using hk)
    exact ⟨(peerId d hstatus).trans hpeer, by simpa [ended] using hended⟩
  | register c id p action inserts runs entry sound sound' peers log peerId ended =>
    obtain ⟨next, inserts⟩ := inserts
    have hpid : p.id = c := by rcases entry with rfl | ⟨_, h⟩ <;> trivial
    by_cases hkid : k = id
    · -- the entry just made: `c` is running
      obtain rfl : c = d := by simpa [Owns, peers, hkid, hpid] using hk
      exact ⟨by simp [peerId, hkid], by rw [ended]; simp [Ended, runs]⟩
    · -- an older entry: were it `c`'s, it would stand under the id `c` leaves
      have hs : s.Owns d k := by simpa [Owns, peers, hkid] using hk
      obtain ⟨hpeer, hended, -⟩ := back hs
      have hdc := hC.ne_of_owns action inserts hpeer hs hkid
      exact ⟨by simp [peerId, hdc, hpeer], by simpa [ended] using hended⟩
  | evict c id action inserts runs not_owns sock sound peers log peerId ended =>
    obtain ⟨next, inserts⟩ := inserts
    have hkid : k ≠ id := by
      rintro rfl
      simp [Owns, peers] at hk
    have hs : s.Owns d k := by simpa [Owns, peers, hkid] using hk
    obtain ⟨hpeer, hended, -⟩ := back hs
    have hdc := hC.ne_of_owns action inserts hpeer hs hkid
    exact ⟨(peerId d hdc).trans hpeer, by simp [ended, hdc, hended]⟩
  | die c panics runs peers log peerId ended =>
    have hs : s.Owns d k := by simpa [Owns, peers] using hk
    obtain ⟨hpeer, hended, -⟩ := back hs
    have hdc : d ≠ c := by
      rintro rfl
      exact hC.no_panic d panics (hpeer ▸ hs)
    exact ⟨(peerId d hdc).trans hpeer, by simp [ended, hdc, hended]⟩
  | unregister c runs poisoned peers log peerId ended =>
    have hgone : ¬(k = s.peerId c ∧ s.Owns c k) := fun hkc => by
      have hnone : t.peers.get k = none := by rw [peers, if_pos hkc]
      simp [Owns, hnone] at hk
    have hsame : t.peers.get k = s.peers.get k := by rw [peers, if_neg hgone]
    have hs : s.Owns d k := by simpa [Owns, hsame] using hk
    obtain ⟨hpeer, hended, -⟩ := back hs
    have hdc : d ≠ c := by
      rintro rfl
      exact hgone ⟨hpeer.symm, hs⟩
    exact ⟨(peerId d).trans hpeer, by simp [ended, hdc, hended]⟩

/-- No stale registration. -/
theorem no_stale_registration (run : Run tr s) (hC : Steps KeepsOneEntry tr) :
    Always NoStale tr s := by
  refine run.always_of_steps hC fun tr s run hC => ?_
  have inv := registryInv run
  have one : OneEntry s := run.invariant_of_steps (Q := fun s => RegistryInv s ∧ Fresh s) hC
    (fun _ _ run => ⟨registryInv run, fresh run⟩) (by simp [OneEntry, Owns, init])
    fun s a t hQ ih hc h => oneEntry_step hQ.1 hQ.2 ih hc h
  intro c hc k p hp
  have hne : p.id ≠ c := fun hid =>
    (one k c (owns_iff.mpr ⟨p, hp, hid⟩)).2 hc
  have htx : p.reqTx = p.id := congrArg PeerState.reqTx (inv.entry k p hp)
  exact ⟨hne, htx ▸ hne⟩

/-- A connection that pings as `a` and then as `b` says goodbye: the entry for `a` stays. -/
theorem stale_entry_left : ¬∀ tr s, Run tr s → NoStale s := by
  have script : (exec State.step (fun _ _ => True) init
      (arrive 1 ++ register 1 "a" ++ register 1 "b" ++ unregister 1)).any
      (fun s => s.Ended 1 ∧ s.peers.get "a" = some ⟨1, 1, host 1⟩) = true := by decide
  obtain ⟨tr, s, run, -, h⟩ := run_of_exec script
  obtain ⟨hended, hentry⟩ := of_decide_eq_true h
  intro all
  exact (all tr s run 1 hended "a" _ hentry).1 rfl

/-- A connection that pings as `a` twice and says goodbye leaves nothing. -/
theorem no_stale_registration_of_one_id :
    ∃ tr s, Run tr s ∧ s.Ended 1 ∧ Always NoStale tr s := by
  have script : (exec State.step KeepsOneEntry init
      (arrive 1 ++ register 1 "a" ++ register 1 "a" ++ unregister 1)).any
      (fun s => s.Ended 1) = true := by decide
  obtain ⟨tr, s, run, hC, h⟩ := run_of_exec script
  exact ⟨tr, s, run, of_decide_eq_true h, no_stale_registration run hC⟩

/-! ## Poisoning -/

/-- Whenever `insert_peerstate` has to make an entry, `peer_addr` succeeds. -/
def PeerAddrKnown (s : State) (a : Action) : Prop :=
  ∀ c ∈ a.ofHandler, ∀ call ∈ s.inserting c, s.Owns c call.1 ∨ s.sockOk c = true

instance (s : State) (a : Action) : Decidable (PeerAddrKnown s a) :=
  inferInstanceAs (Decidable (∀ c ∈ a.ofHandler, ∀ call ∈ s.inserting c, _ ∨ _))

/-- Every `peers.lock().unwrap()` succeeds. -/
def Unpoisoned (s : State) : Prop := s.peers.poisoned = false

theorem unpoisoned_step (fresh : Fresh s) (ih : Unpoisoned s) (hC : PeerAddrKnown s a)
    (h : s.step a = some t) : Unpoisoned t := by
  unfold Unpoisoned at *
  cases registry_step (rule_of_step h) (fresh _ (Nat.lt_succ_self _)) with
  | quiet peers => rw [peers, ih]
  | register c id p action inserts runs entry sound sound' => exact sound'
  | evict c id action inserts runs not_owns sock =>
    obtain ⟨next, inserts⟩ := inserts
    have := hC c (Action.mem_ofHandler.mpr action) _ inserts
    simp [not_owns, sock] at this
  | die c panics runs peers => rw [peers, ih]
  | unregister c runs poisoned => rw [poisoned, ih]

theorem insertPeerstate_poisons {next : Handler} (sound : s.peers.poisoned = false)
    (not_owns : ¬s.Owns c id) (sock : s.sockOk c = false) :
    (s.insertPeerstate c id next).peers.poisoned = true := by
  unfold insertPeerstate
  cases hg : s.peers.get id with
  | none => simp [sound, hg, peerAddr, sock]
  | some p =>
    have hid : p.id ≠ c := by simpa [Owns, hg] using not_owns
    simp [sound, hg, hid, peerAddr, sock]

/-- The mutex stays usable all along a run if and only if `peer_addr` never fails under
the lock. -/
theorem unpoisoned_iff (run : Run tr s) : Always Unpoisoned tr s ↔ Steps PeerAddrKnown tr := by
  refine run.always_iff_steps (run.always fun _ _ run => fresh run) rfl
    (fun s a t hfresh ih hC h => unpoisoned_step hfresh ih hC h)
    fun s a t _ ih h ht c hc call hcall => ?_
  obtain rfl := Action.mem_ofHandler.mp hc
  obtain ⟨id, next⟩ := call
  by_contra hnot
  obtain ⟨not_owns, sock⟩ := not_or.mp hnot
  have runs : s.HandlerRuns c := (Option.ite_none_right_eq_some.mp h).1
  obtain rfl := Option.some.inj ((step_inserting runs hcall).symm.trans h)
  have poisoned : (s.insertPeerstate c id next).peers.poisoned = true :=
    insertPeerstate_poisons ih not_owns (by simpa using sock)
  exact absurd ht (by simp [Unpoisoned, poisoned])

/-- A client resets its connection while its `Ping` is in the handler's hands. -/
theorem mutex_poisoned : ¬∀ tr s, Run tr s → Unpoisoned s := by
  have script : (exec State.step (fun _ _ => True) init
      (arrive 1 ++ deliver 1 ⟨"a", some .ping⟩ ++ .sockFail 1 :: runHandler 1 1)).any
      (fun s => s.peers.poisoned) = true := by decide
  obtain ⟨tr, s, run, -, h⟩ := run_of_exec script
  intro all
  exact absurd (all tr s run) (by simpa [Unpoisoned] using h)

/-- A client that resets its connection only after its `Ping` was handled does no harm. -/
theorem unpoisoned_after_late_reset :
    ∃ tr s, Run tr s ∧ s.sockOk 1 = false ∧ Always Unpoisoned tr s := by
  have script : (exec State.step PeerAddrKnown init
      (arrive 1 ++ register 1 "a" ++ deliver 1 ⟨"a", some .ping⟩ ++
        .sockFail 1 :: runHandler 1 1)).any (fun s => s.sockOk 1 = false) = true := by decide
  obtain ⟨tr, s, run, hC, h⟩ := run_of_exec script
  exact ⟨tr, s, run, of_decide_eq_true h, (unpoisoned_iff run).mpr hC⟩

end State

end Rndz.Tcp
