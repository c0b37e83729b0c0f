import Rndz.Tcp.Requests

/-!
# The requester of a connection

`handle_isync` puts the `Fsync` into the target's queue and only then registers the source.
The registry knows a source that awaits its reply (`RequesterKnown`) exactly as long as every
source was registered by the same connection before its `Fsync` was queued
(`RegistersFirst`).
-/
namespace Rndz.Tcp

open Net Proto Mpsc Transition
open Function (update)
open History (concat_eq_append_cons)

/-- The source an `Fsync` names. -/
def Item.fsyncId (it : Item) : Option String :=
  match it.req.cmd with
  | some (.fsync fsync) => some fsync.id
  | _ => none

namespace State

variable {s t : State} {c d h : Nat} {id : String} {a : Action} {it : Item}
  {tr : List (State × Action)}

/-- The handler of `h` has put an `Fsync` for `id` into a queue, has not ended since, and no
other connection has called `insert_peerstate(id)` since. -/
def AwaitsReply (s : State) (h : Nat) (id : String) : Prop :=
  ¬s.Ended h ∧ ∃ p it dst q, s.log = p ++ .placed h it dst :: q ∧ it.fsyncId = some id ∧
    ∀ g, .inserted g id ∈ q → g = h

/-- While a source awaits its reply, it is in the registry, and a handler that takes an
`Rsync` for it forwards that to it. -/
structure RequesterKnown (s : State) : Prop where
  entry : ∀ h id, s.AwaitsReply h id → s.peers.get id = some ⟨h, h, s.addr h⟩
  forwards : ∀ h g it rsync, s.AwaitsReply h rsync.id → s.handler g = .handle it →
    it.req.cmd = some (.rsync rsync) → rsync.id ≠ s.peerId g → s.peers.poisoned = false →
    (s.handleRsync g it rsync).handler g =
      .send h ⟨⟨it.req.id, some (.rsync rsync)⟩, it.origin, it.hops + 1⟩ none

/-- The request the handler of `c` is about to put into a queue. -/
def placing (s : State) (c : Nat) : Option Item :=
  match s.handler c with
  | .sending dst it _ =>
    if (s.queue dst).closed = false ∧ .handler c ∈ (s.queue dst).granted then some it else none
  | _ => none

/-- When an `Fsync` is put into a queue, the entry of its source belongs to the connection
it comes from. -/
def RegistersFirst (s : State) (a : Action) : Prop :=
  ∀ c ∈ a.ofHandler, ∀ it ∈ s.placing c, ∀ id ∈ it.fsyncId, s.Owns c id

instance (s : State) (a : Action) : Decidable (RegistersFirst s a) :=
  inferInstanceAs (Decidable (∀ c ∈ a.ofHandler, ∀ it ∈ s.placing c, ∀ id ∈ it.fsyncId, _))

/-- A step that puts a request into a queue does nothing to the registry. -/
theorem placed_step (rule : Rule s a t) (log : t.log = s.log ++ [.placed c it d]) :
    a = .handler c ∧ s.placing c = some it ∧ t.peers = s.peers := by
  cases rule with
  | sendPush runs at_send isOpen push =>
    obtain ⟨granted, -⟩ := Channel.push_eq_some push
    obtain ⟨rfl, rfl, rfl⟩ : _ = c ∧ _ = it ∧ _ = d := by simpa using log
    simp [placing, at_send, isOpen, granted]
  | _ => simp at log

theorem step_placing (step : s.step (.handler c) = some t) (places : s.placing c = some it) :
    ∃ d, t.log = s.log ++ [.placed c it d] ∧ s.status c = .running ∧ t.status = s.status := by
  obtain ⟨runs, step⟩ := Option.ite_none_right_eq_some.mp step
  unfold placing at places
  split at places
  · rename_i dst it' src at_send
    obtain ⟨⟨isOpen, granted⟩, hit⟩ := Option.ite_none_right_eq_some.mp places
    obtain rfl : it' = it := Option.some.inj hit
    simp [handlerStep, at_send, isOpen] at step
    obtain ⟨q, -, rfl⟩ := step
    exact ⟨dst, rfl, runs.1, rfl⟩
  · cases places

/-- Who awaits a reply has awaited it before, or just put its `Fsync` into a queue. -/
theorem AwaitsReply.back (await : t.AwaitsReply h id) (rule : Rule s a t)
    (ended : ∀ d, s.Ended d → t.Ended d) :
    (s.AwaitsReply h id ∧ ∀ g, t.log = s.log ++ [.inserted g id] → g = h) ∨
      ∃ it d, t.log = s.log ++ [.placed h it d] ∧ it.fsyncId = some id := by
  obtain ⟨alive, p, it, dst, q, hlog, hid, hq⟩ := await
  have alive : ¬s.Ended h := fun he => alive (ended h he)
  rcases log_step rule with hl | ⟨e, hl, -⟩
  · exact .inl ⟨⟨alive, p, it, dst, q, hl ▸ hlog, hid, hq⟩, fun g hg => by simp [hl] at hg⟩
  rcases concat_eq_append_cons (hl.symm.trans hlog) with ⟨-, -, rfl⟩ | ⟨q, rfl, hs⟩
  · exact .inr ⟨it, dst, hl, hid⟩
  · refine .inl ⟨⟨alive, p, it, dst, q, hs, hid, fun g hg => hq g (by simp [hg])⟩, fun g hg => ?_⟩
    obtain rfl : e = .inserted g id := by simpa [hl] using hg
    exact hq g (by simp)

theorem forwards_of_entry (entry : s.peers.get id = some ⟨h, h, s.addr h⟩) {rsync : Rsync}
    (hid : rsync.id = id) (other : rsync.id ≠ s.peerId c) (sound : s.peers.poisoned = false) :
    (s.handleRsync c it rsync).handler c =
      .send h ⟨⟨it.req.id, some (.rsync rsync)⟩, it.origin, it.hops + 1⟩ none := by
  subst hid
  simp [handleRsync, sound, other, entry]

theorem entry_step (reg : RegistryInv s) (fresh : Fresh s)
    (ih : ∀ h id, s.AwaitsReply h id → s.peers.get id = some ⟨h, h, s.addr h⟩)
    (hC : RegistersFirst s a) (step : s.step a = some t) (h : Nat) (id : String)
    (await : t.AwaitsReply h id) : t.peers.get id = some ⟨h, h, t.addr h⟩ := by
  have rule := rule_of_step step
  have effect := registry_step rule (fresh _ (Nat.lt_succ_self _))
  have ended : ∀ d, s.Ended d → t.Ended d := fun d hd => by
    cases effect with
    | quiet _ _ _ ended | register _ _ _ _ _ _ _ _ _ _ _ _ ended => exact (ended d).mpr hd
    | evict _ _ _ _ _ _ _ _ _ _ _ ended | die _ _ _ _ _ _ ended
    | unregister _ _ _ _ _ _ ended => exact (ended d).mpr (.inr hd)
  have whole : ∀ p, s.peers.get id = some p → p.id = h → p = ⟨h, h, t.addr h⟩ := fun p hp hid => by
    have hacc := reg.accepted id p.id (reg.last id p hp)
    rw [reg.entry id p hp, hid, addr_step rule fresh (hid ▸ hacc)]
  rcases await.back rule ended with ⟨old, newer⟩ | ⟨it, d, hlog, hit⟩
  · have hget := ih h id old
    have kept : t.peers.get id = s.peers.get id → t.peers.get id = some ⟨h, h, t.addr h⟩ :=
      fun hsame => by rw [hsame, hget, whole _ hget rfl]
    cases effect with
    | quiet peers | die _ _ _ peers => exact kept (by rw [peers])
    | register g k p action inserts runs entry sound sound' peers log peerId ended =>
      by_cases hk : id = k
      · subst hk
        obtain rfl := newer g log
        rw [peers, if_pos rfl]
        rcases entry with rfl | ⟨hp, hpid⟩
        · rw [addr_step rule fresh (by simp [runs])]
        · rw [whole p hp hpid]
      · exact kept (by rw [peers, if_neg hk])
    | evict g k action inserts runs not_owns sock sound peers log peerId ended =>
      have hk : id ≠ k := by
        rintro rfl
        obtain rfl := newer g log
        exact not_owns (owns_iff.mpr ⟨_, hget, rfl⟩)
      exact kept (by rw [peers, if_neg hk])
    | unregister g runs poisoned peers log peerId ended =>
      have hk : ¬(id = s.peerId g ∧ s.Owns g id) := by
        rintro ⟨-, owns⟩
        obtain rfl : h = g := by simpa [Owns, hget] using owns
        exact await.1 ((ended h).mpr (.inl rfl))
      exact kept (by rw [peers, if_neg hk])
  · obtain ⟨rfl, hplacing, hpeers⟩ := placed_step rule hlog
    obtain ⟨p, hp, hpid⟩ := owns_iff.mp (hC h rfl it hplacing id hit)
    rw [hpeers, hp, whole p hp hpid]

/-- The requester is known all along a run if and only if it always registers first. -/
theorem requester_known_iff (run : Run tr s) :
    Always RequesterKnown tr s ↔ Steps RegistersFirst tr := by
  refine run.always_iff_steps (Q := fun s => RegistryInv s ∧ Fresh s)
    (run.always fun _ _ run => ⟨registryInv run, fresh run⟩) ?_ ?_ ?_
  · constructor <;> simp [AwaitsReply, init]
  · rintro s a t ⟨reg, fresh⟩ ih hC step
    have entry := entry_step reg fresh ih.entry hC step
    exact ⟨entry, fun h g it rsync await _ _ other sound =>
      forwards_of_entry (entry h rsync.id await) rfl other sound⟩
  · intro s a t _ _ step ht c hc it hit id hid
    obtain rfl := Action.mem_ofHandler.mp hc
    obtain ⟨d, hlog, runs, hstatus⟩ := step_placing step hit
    have await : t.AwaitsReply c id :=
      ⟨by simp [Ended, hstatus, runs], s.log, it, d, [], hlog, hid, by simp⟩
    have hpeers := (placed_step (rule_of_step step) hlog).2.2
    exact owns_iff.mpr ⟨_, hpeers ▸ ht.entry c id await, rfl⟩

/-- Connection 2 asks as `x` for `y`, registered by connection 1, and its handler has queued
the `Fsync`. -/
def fsyncQueued : List Action :=
  arrive 2 ++ register 1 "y" ++ deliver 2 ⟨"x", some (.isync ⟨"y"⟩)⟩ ++ runHandler 2 3

/-- Connection 1 answers before the handler of connection 2 goes on: its `Rsync` is about to
be dropped. -/
theorem requester_unknown : ¬∀ tr s, Run tr s → RequesterKnown s := by
  have script : (exec State.step (fun _ _ => True) init
      (fsyncQueued ++ runHandler 1 3 ++ deliver 1 ⟨"y", some (.rsync { id := "x" })⟩)).any (fun s =>
      s.handler 1 = .handle ⟨⟨"y", some (.rsync { id := "x" })⟩, some (1, 1), 0⟩ ∧
      s.peerId 1 = "y" ∧ s.peers.poisoned = false ∧ s.peers.get "x" = none ∧ ¬s.Ended 2 ∧
      s.log = [Event.sent 1 ⟨"y", some .ping⟩, .inserted 1 "y", .wrote 1 .pong,
        .sent 2 ⟨"x", some (.isync ⟨"y"⟩)⟩] ++ Event.placed 2
          ⟨⟨"", some (.fsync { id := "x", addr := (host 2).toString })⟩, some (2, 0), 1⟩ 1 ::
        [.wrote 1 (.fsync { id := "x", addr := (host 2).toString }),
          .sent 1 ⟨"y", some (.rsync { id := "x" })⟩]) = true := by decide
  obtain ⟨tr, s, run, -, h⟩ := run_of_exec script
  obtain ⟨at_handle, own, sound, missing, alive, hlog⟩ := of_decide_eq_true h
  intro all
  have await : s.AwaitsReply 2 "x" := ⟨alive, _, _, _, _, hlog, rfl, by simp⟩
  have := (all tr s run).forwards 2 1 _ _ await at_handle rfl (by rw [own]; decide) sound
  simp [handleRsync, sound, own, missing] at this

/-- A source that pings as `x` before it asks is known when its `Fsync` is queued. -/
theorem requester_known_after_ping :
    ∃ tr s, Run tr s ∧ (s.queue 1).items ≠ [] ∧ Always RequesterKnown tr s := by
  have script : (exec State.step RegistersFirst init
      (arrive 2 ++ register 1 "y" ++ register 2 "x" ++
        deliver 2 ⟨"x", some (.isync ⟨"y"⟩)⟩ ++ runHandler 2 3)).any
      (fun s => (s.queue 1).items ≠ []) = true := by decide
  obtain ⟨tr, s, run, hC, h⟩ := run_of_exec script
  exact ⟨tr, s, run, of_decide_eq_true h, (requester_known_iff run).mpr hC⟩

end State

end Rndz.Tcp
