import Mathlib.Data.List.Nodup
import Rndz.Tcp.Requests

/-!
# Forwarding an `Rsync`

The frames of a connection pass through its reader, its queue and its handler in the order
in which they were read (`line`), so no frame is forwarded twice by the handler that read
it. `handle_rsync` cannot tell a forwarded `Rsync` from one of its own client, and forwards
it on when it names another id than the handler goes by and that id is in the registry;
`Addressed` excludes just this.
-/
namespace Rndz.Tcp

open Net Proto Mpsc Transition
open Function (update update_apply)

/-- The number of the frame of connection `c` the request stems from, if it has been
forwarded `hops` times. -/
def Item.number (c hops : Nat) (it : Item) : Option Nat :=
  match it.origin with
  | some (d, n) => if d = c ∧ it.hops = hops then some n else none
  | none => none

def Item.isRsync (it : Item) : Bool :=
  match it.req.cmd with
  | some (.rsync _) => true
  | _ => false

/-- The destination of an `Rsync` that another handler has forwarded. -/
def Item.forwardedTo (it : Item) : Option String :=
  match it.req.cmd with
  | some (.rsync rsync) => if 0 < it.hops then some rsync.id else none
  | _ => none

/-- The frame of `c` its reader is busy with. -/
def Reader.number (c : Nat) : Reader → Option Nat
  | .send it _ | .sending it _ => it.number c 0
  | _ => none

/-- The frame of `c` its handler is busy with. -/
def Handler.number (c : Nat) : Handler → Option Nat
  | .handle it => it.number c 0
  | .send _ it _ | .sending _ it _ => it.number c 1
  | _ => none

/-- The frame of `c` that was forwarded as an `Rsync`. -/
def Event.number (c : Nat) : Event → Option Nat
  | .placed d it _ => if d = c ∧ it.isRsync then it.number c 1 else none
  | _ => none

attribute [grind] Reader.number Handler.number Event.number

@[simp, grind =] theorem number_bye (c hops : Nat) : Item.bye.number c hops = none := rfl

@[simp] theorem number_forwarded (c : Nat) (it : Item) (req : Request) :
    Item.number c 1 ⟨req, it.origin, it.hops + 1⟩ = it.number c 0 := by
  simp [Item.number]

@[simp, grind =] theorem number_afterSend (c : Nat) (src : Option String) :
    (State.afterSend src).number c = none := by
  cases src <;> rfl

theorem number_eq_none {h : Handler} (hand : h.inHand = none) (out : h.outgoing = none)
    (c : Nat) : h.number c = none := by
  cases h with
  | handle it => cases hand
  | send dst it src | sending dst it src => cases out
  | _ => rfl

theorem Event.conn_of_number {c n : Nat} {e : Event} (h : e.number c = some n) : e.conn = c := by
  cases e with
  | placed d it dst => exact ((Option.ite_none_right_eq_some.mp h).1).1
  | _ => cases h

theorem Item.number_eq_some {c hops n : Nat} {it : Item} :
    it.number c hops = some n ↔ it.origin = some (c, n) ∧ it.hops = hops := by
  unfold number
  split <;> grind

namespace State

variable {s t : State} {c d : Nat} {id : String} {a : Action} {it : Item} {n : Nat}
  {tr : List (State × Action)}

/-- The frames of `c` that were forwarded as `Rsync`s, then those still on their way to the
handler's send. -/
def line (s : State) (c : Nat) : List Nat :=
  s.log.filterMap (Event.number c) ++ ((s.handler c).number c).toList ++
    (s.queue c).items.filterMap (Item.number c 0) ++
    ((s.reader c).number c).toList

theorem line_sublist (hlog : t.log.filterMap (Event.number c) = s.log.filterMap (Event.number c))
    (hhandler : (t.handler c).number c = none ∨ (t.handler c).number c = (s.handler c).number c)
    (hqueue : (t.queue c).items.filterMap (Item.number c 0) = [] ∨
      (t.queue c).items.filterMap (Item.number c 0) = (s.queue c).items.filterMap (Item.number c 0))
    (hreader : (t.reader c).number c = none ∨ (t.reader c).number c = (s.reader c).number c) :
    (t.line c).Sublist (s.line c) := by
  unfold line
  rw [hlog]
  refine (((List.Sublist.refl _).append ?_).append ?_).append ?_
  · rcases hhandler with h | h <;> simp [h]
  · rcases hqueue with h | h <;> simp [h]
  · rcases hreader with h | h <;> simp [h]

/-- Frames of the connection move up or drop out, or the next one is added behind. -/
def LineStep (s t : State) (c : Nat) : Prop :=
  ((t.line c).Sublist (s.line c) ∧ t.frames c = s.frames c) ∨ t.line c = [] ∨
    (t.line c = s.line c ++ [s.frames c] ∧ t.frames c = s.frames c + 1)

/-- What stands in the log is of connections that have been accepted, so a new one has no line. -/
theorem line_accept (fresh : Fresh s) (accepted : ∀ e ∈ s.log, s.status e.conn ≠ .absent)
    (addr : SocketAddr) (c : Nat) : LineStep s (s.accept addr) c := by
  by_cases hc : c = s.count + 1
  · have hlog : s.log.filterMap (Event.number c) = [] := by
      refine List.filterMap_eq_nil_iff.mpr fun e he => ?_
      by_contra hne
      obtain ⟨n, hn⟩ := Option.ne_none_iff_exists'.mp hne
      refine accepted e he (fresh _ ?_)
      rw [Event.conn_of_number hn]
      omega
    refine .inr (.inl ?_)
    simp only [line, accept, update_apply, hc] at hlog ⊢
    simp [hlog, Handler.number, Reader.number]
  · refine .inl ⟨line_sublist rfl ?_ ?_ ?_, ?_⟩ <;> simp [hc]

section

variable {q : Queue}

/-- The frame goes from the reader to the end of the queue. -/
theorem line_readerPush {last : Bool} (at_send : s.reader d = .sending it last)
    (push : (s.queue d).push (.reader d) it = some q) (c : Nat) :
    LineStep s ((s.setQueue d q).setReader d (if last then .done else .read)) c := by
  obtain ⟨-, hitems, -, -⟩ := Channel.push_eq_some push
  by_cases hc : c = d
  · subst hc
    have hread : (if last then Reader.done else .read).number c = none := by
      cases last <;> rfl
    refine .inl ⟨?_, rfl⟩
    have hsource : (s.reader c).number c = it.number c 0 := by rw [at_send]; rfl
    cases hn : it.number c 0 <;> simp [line, hitems, hread, hsource, hn]
  · refine .inl ⟨line_sublist rfl ?_ ?_ ?_, ?_⟩ <;> simp [hc]

/-- The frame goes from the head of the queue to the handler. -/
theorem line_recv (at_recv : s.handler d = .recv) (recv : (s.queue d).recv = some (it, q))
    (c : Nat) : LineStep s ((s.setQueue d q).setHandler d (.handle it)) c := by
  obtain ⟨hitems, -, -⟩ := Channel.recv_eq_some recv
  by_cases hc : c = d
  · subst hc
    refine .inl ⟨?_, rfl⟩
    cases hn : it.number c 0 <;> simp [line, hitems, at_recv, Handler.number, hn]
  · refine .inl ⟨line_sublist rfl ?_ ?_ ?_, ?_⟩ <;> simp [hc]

/-- The frame goes from the handler to the log if it is an `Rsync`, and drops out if not. -/
theorem line_sendPush {dst : Nat} {src : Option String}
    (at_send : s.handler d = .sending dst it src)
    (push : (s.queue dst).push (.handler d) it = some q) (hops : 0 < it.hops) (c : Nat) :
    LineStep s (((s.setQueue dst q).setHandler d (afterSend src)).record (.placed d it dst)) c := by
  obtain ⟨-, hitems, -, -⟩ := Channel.push_eq_some push
  have hnew : it.number c 0 = none := by
    by_contra hne
    obtain ⟨n, hn⟩ := Option.ne_none_iff_exists'.mp hne
    exact Nat.ne_of_gt hops (Item.number_eq_some.mp hn).2
  have hqueue : ((update s.queue dst q) c).items.filterMap (Item.number c 0) =
      (s.queue c).items.filterMap (Item.number c 0) := by
    by_cases hd : c = dst
    · subst hd
      simp [hitems, hnew]
    · simp [hd]
  refine .inl ⟨?_, rfl⟩
  unfold line
  simp only [record, setHandler, setQueue, hqueue]
  refine List.Sublist.append (List.Sublist.append ?_ (.refl _)) (.refl _)
  by_cases hc : c = d
  · subst hc
    have hsource : (s.handler c).number c = it.number c 1 := by rw [at_send]; rfl
    rw [hsource]
    by_cases hr : it.isRsync
    · cases hn : it.number c 1 <;> simp [Event.number, hr, hn]
    · simp [Event.number, hr]
  · simp [hc, Event.number, Ne.symm hc]

end

/-- A request that is to be forwarded counts as the frame it stems from. -/
theorem line_forward {dst : Nat} {req : Request} {src : Option String}
    (at_handle : s.handler d = .handle it) (c : Nat) :
    LineStep s (s.setHandler d (.send dst ⟨req, it.origin, it.hops + 1⟩ src)) c := by
  refine .inl ⟨line_sublist rfl ?_ (.inr rfl) (.inr rfl), rfl⟩
  by_cases hc : c = d
  · subst hc
    simp [at_handle, Handler.number]
  · simp [hc]

theorem line_step (rule : Rule s a t) (fresh : Fresh s)
    (accepted : ∀ e ∈ s.log, s.status e.conn ≠ .absent)
    (forwarded : ∀ c dst it, (s.handler c).outgoing = some (dst, it) → 0 < it.hops) (c : Nat) :
    LineStep s t c := by
  cases rule with
  | accept addr => exact line_accept fresh accepted addr c
  | @read d req rest runs at_read frame =>
    by_cases hc : c = d
    · subst hc
      refine .inr (.inr ⟨?_, ?_⟩) <;> simp [line, Reader.number, at_read, Item.number]
    · refine .inl ⟨line_sublist rfl ?_ ?_ ?_, ?_⟩ <;> simp [hc]
  | readerPush runs at_send isOpen push => exact line_readerPush at_send push c
  | recv runs at_recv recv => exact line_recv at_recv recv c
  | @sendPush d dst it src q runs at_send isOpen push =>
    have hops := forwarded d dst it (by simp [at_send, Handler.outgoing])
    exact line_sendPush at_send push hops c
  | isyncForward runs at_handle cmd sound found sock => exact line_forward at_handle c
  | rsyncForward runs at_handle cmd sound other found => exact line_forward at_handle c
  | insertRefresh runs inserts | insertNew runs inserts =>
    obtain ⟨hand, out, -, -⟩ := next_of_inserting inserts
    refine .inl ⟨line_sublist ?_ ?_ (.inr rfl) (.inr rfl), rfl⟩
    · simp [Event.number]
    · have := number_eq_none hand out c
      simp only [setHandler, record, setPeerId, setPeers, update_apply]
      grind
  | _ =>
    refine .inl ⟨line_sublist ?_ ?_ ?_ ?_, rfl⟩
    all_goals
      simp only [setHandler, setQueue, setReader, leave, panic, dropFutures, dropReadReqs,
        dropHandleCmds, dropHandler, record, setPeerId, setStatus, setPeers, update_apply,
        List.filterMap_append]
      try grind

/-- A handler sets out to forward a request it has in hand, an `Rsync` only if it names
another id, one that is registered. -/
theorem outgoing_step (rule : Rule s a t) {dst : Nat}
    (out : (t.handler c).outgoing = some (dst, it)) :
    (s.handler c).outgoing = some (dst, it) ∨ ∃ old, a = .handler c ∧ s.handler c = .handle old ∧
      it.origin = old.origin ∧ it.hops = old.hops + 1 ∧
      ∀ rsync, it.req.cmd = some (.rsync rsync) → old.req.cmd = some (.rsync rsync) ∧
        rsync.id ≠ s.peerId c ∧ s.peers.poisoned = false ∧ s.peers.get rsync.id ≠ none := by
  cases rule with
  | insertRefresh runs inserts | insertNew runs inserts =>
    obtain ⟨-, hout, -, -⟩ := next_of_inserting inserts
    simp only [setHandler, record, setPeerId, setPeers, update_apply] at *
    grind
  | _ =>
    simp only [setHandler, setQueue, setReader, accept, leave, panic, dropFutures,
      dropReadReqs, dropHandleCmds, dropHandler, record, setPeerId, setStatus, setPeers,
      update_apply] at *
    grind

/-- Requests that have not been forwarded stay with the connection they came from, and its
frames are forwarded in order. -/
structure FrameOrder (s : State) : Prop where
  forwarded : ∀ c dst it, (s.handler c).outgoing = some (dst, it) → 0 < it.hops
  carried : ∀ d it c n, s.Carries d it → it.hops = 0 → it.origin = some (c, n) → c = d
  outgoing : ∀ c dst it d n, (s.handler c).outgoing = some (dst, it) → it.hops = 1 →
    it.origin = some (d, n) → d = c
  placed : ∀ c it dst d n, .placed c it dst ∈ s.log → it.hops = 1 → it.origin = some (d, n) → d = c
  increasing : ∀ c, (s.line c).Pairwise (· < ·)
  bounded : ∀ c, ∀ n ∈ s.line c, n < s.frames c

theorem frameOrder_init : FrameOrder init := by
  constructor <;> simp [init, Carries, Reader.item, Handler.inHand, Handler.outgoing, line,
    Handler.number, Reader.number]

theorem frameOrder_step (inv : FrameOrder s) (fresh : Fresh s) (prov : Provenance s)
    (step : s.step a = some t) : FrameOrder t := by
  have rule := rule_of_step step
  have line := line_step rule fresh prov.accepted inv.forwarded
  refine ⟨fun c dst it out => ?_, fun d it c n hc hops origin => ?_,
    fun c dst it d n out hops origin => ?_, fun c it dst d n hp hops origin => ?_,
    fun c => ?_, fun c n hn => ?_⟩
  · rcases outgoing_step rule out with old | ⟨old, -, -, -, hops, -⟩
    · exact inv.forwarded c dst it old
    · omega
  · rcases carries_step rule hc with old | born
    · exact inv.carried d it c n old hops origin
    · cases born with
      | read frame =>
        obtain ⟨rfl, -⟩ := Prod.mk.inj (Option.some.inj origin)
        rfl
      | bye => cases origin
      | fsync | rsync => simp at hops
  · rcases outgoing_step rule out with old | ⟨old, -, at_handle, horigin, hhops, -⟩
    · exact inv.outgoing c dst it d n old hops origin
    · exact inv.carried c old d n (carries_of_handle at_handle) (by omega) (horigin ▸ origin)
  · rcases mem_log_or_emits rule hp with old | emits
    · exact inv.placed c it dst d n old hops origin
    · cases emits with
      | placed runs at_send =>
        exact inv.outgoing c dst it d n (by simp [at_send, Handler.outgoing]) hops origin
  · rcases line c with ⟨hsub, -⟩ | hnil | ⟨hcons, -⟩
    · exact (inv.increasing c).sublist hsub
    · simp [hnil]
    · rw [hcons, List.pairwise_append]
      exact ⟨inv.increasing c, by simp, fun m hm n hn => by
        simpa [List.mem_singleton.mp hn] using inv.bounded c m hm⟩
  · rcases line c with ⟨hsub, hframes⟩ | hnil | ⟨hcons, hframes⟩
    · rw [hframes]
      exact inv.bounded c n (hsub.subset hn)
    · simp [hnil] at hn
    · rw [hframes]
      rcases List.mem_append.mp (hcons ▸ hn) with old | new
      · exact Nat.lt_succ_of_lt (inv.bounded c n old)
      · obtain rfl := List.mem_singleton.mp new
        exact Nat.lt_succ_self _

theorem frameOrder (run : Run tr s) : FrameOrder s := by
  induction run with
  | start => exact frameOrder_init
  | next run step ih => exact frameOrder_step ih (fresh run) (provenance run) step

/-! ## At most once -/

/-- The event puts the `Rsync` of frame `n` of connection `c` into a queue. -/
def forwards (origin : Nat × Nat) : Event → Bool
  | .placed _ it _ => it.isRsync && it.origin = some origin
  | _ => false

/-- Each frame's `Rsync` is forwarded at most once, and what is forwarded as an `Rsync` was
taken from a client, not from another handler. -/
structure ForwardedOnce (s : State) : Prop where
  once : ∀ origin, s.log.countP (forwards origin) ≤ 1
  sending : ∀ c dst it, (s.handler c).outgoing = some (dst, it) → it.isRsync = true → it.hops = 1
  placed : ∀ c it dst, .placed c it dst ∈ s.log → it.isRsync = true → it.hops = 1

/-- A handler that takes an `Rsync` another handler has forwarded writes a `Redirect` to its
client or goes on to the next request. -/
def AnswersOrDrops (s : State) (a : Action) : Prop :=
  ∀ c ∈ a.ofHandler, ∀ it rsync, s.handler c = .handle it → it.req.cmd = some (.rsync rsync) →
    0 < it.hops → s.peers.poisoned = false →
    (∃ rdr, (s.handleRsync c it rsync).handler c = .write (.redirect rdr)) ∨
      (s.handleRsync c it rsync).handler c = .recv

/-- A forwarded `Rsync` that a handler takes names the id the handler goes by then, or one
that is not registered then. -/
def Addressed (s : State) (a : Action) : Prop :=
  ∀ c ∈ a.ofHandler, ∀ it ∈ (s.handler c).inHand, ∀ dst ∈ it.forwardedTo,
    s.peers.poisoned = false → dst = s.peerId c ∨ s.peers.get dst = none

instance (s : State) (a : Action) : Decidable (Addressed s a) :=
  inferInstanceAs (Decidable (∀ c ∈ a.ofHandler, ∀ it ∈ (s.handler c).inHand,
    ∀ dst ∈ it.forwardedTo, _ → _ ∨ _))

theorem once_of_placed (inv : FrameOrder s)
    (placed : ∀ c it dst, .placed c it dst ∈ s.log → it.isRsync = true → it.hops = 1)
    (origin : Nat × Nat) : s.log.countP (forwards origin) ≤ 1 := by
  obtain ⟨c, n⟩ := origin
  have number : ∀ e ∈ s.log, forwards (c, n) e = true → (e.number c == some n) = true := by
    intro e he hf
    cases e with
    | placed d it dst =>
      obtain ⟨hr, ho⟩ : it.isRsync = true ∧ it.origin = some (c, n) := by simpa [forwards] using hf
      have hops := placed d it dst he hr
      obtain rfl := inv.placed d it dst c n he hops ho
      simp [Event.number, hr, Item.number_eq_some.mpr ⟨ho, hops⟩]
    | _ => cases hf
  have nodup : (s.log.filterMap (Event.number c)).Nodup :=
    ((List.pairwise_append.mp (List.pairwise_append.mp (List.pairwise_append.mp
      (inv.increasing c)).1).1).1).imp Nat.ne_of_lt
  calc s.log.countP (forwards (c, n))
      ≤ s.log.countP (fun e => e.number c == some n) := List.countP_mono_left number
    _ = (s.log.filterMap (Event.number c)).count n := List.count_filterMap.symm
    _ ≤ 1 := List.nodup_iff_count_le_one.mp nodup n

theorem forwardedOnce_step (run : Run tr s) (ih : ForwardedOnce s) (hC : Addressed s a)
    (step : s.step a = some t) : ForwardedOnce t := by
  have rule := rule_of_step step
  have sending : ∀ c dst it, (t.handler c).outgoing = some (dst, it) → it.isRsync = true →
      it.hops = 1 := by
    intro c dst it out hr
    rcases outgoing_step rule out with old | ⟨old, action, at_handle, -, hops, from_rsync⟩
    · exact ih.sending c dst it old hr
    · obtain ⟨rsync, hcmd⟩ : ∃ rsync, it.req.cmd = some (.rsync rsync) := by
        unfold Item.isRsync at hr
        split at hr
        · rename_i rsync hcmd
          exact ⟨rsync, hcmd⟩
        · cases hr
      obtain ⟨hold, other, sound, found⟩ := from_rsync rsync hcmd
      -- had `old` been forwarded before, it would name the handler's own id
      by_contra hne
      have pos : 0 < old.hops := by omega
      have := hC c (Action.mem_ofHandler.mpr action) old (Handler.inHand_eq_some.mpr at_handle)
        rsync.id (by simp [Item.forwardedTo, hold, pos]) sound
      exact this.elim other found
  have placed : ∀ c it dst, .placed c it dst ∈ t.log → it.isRsync = true → it.hops = 1 := by
    intro c it dst hp hr
    rcases mem_log_or_emits rule hp with old | emits
    · exact ih.placed c it dst old hr
    · cases emits with
      | placed runs at_send =>
        exact ih.sending c dst it (by simp [at_send, Handler.outgoing]) hr
  exact ⟨once_of_placed (frameOrder (run.next step)) placed, sending, placed⟩

theorem mem_forwardedTo {it : Item} {dst : String} : dst ∈ it.forwardedTo ↔
    ∃ rsync, it.req.cmd = some (.rsync rsync) ∧ 0 < it.hops ∧ rsync.id = dst := by
  unfold Item.forwardedTo
  split
  · rename_i rsync hcmd
    simp [hcmd]
  · rename_i hcmd
    simp only [Option.mem_def, reduceCtorEq, false_iff]
    rintro ⟨rsync, h, -⟩
    exact hcmd rsync h

/-- `handle_rsync` answers or drops a forwarded `Rsync` exactly when it has nobody to forward
it to. -/
theorem answersOrDrops_iff : AnswersOrDrops s a ↔ Addressed s a := by
  constructor
  · intro h c hc it hit dst hdst sound
    obtain ⟨rsync, hcmd, hops, rfl⟩ := mem_forwardedTo.mp hdst
    have at_handle := Handler.inHand_eq_some.mp hit
    by_contra hne
    obtain ⟨other, found⟩ := not_or.mp hne
    obtain ⟨peer, hpeer⟩ := Option.ne_none_iff_exists'.mp found
    have := h c hc it rsync at_handle hcmd hops sound
    simp [handleRsync, sound, other, hpeer] at this
  · intro h c hc it rsync at_handle hcmd hops sound
    have := h c hc it (Handler.inHand_eq_some.mpr at_handle) rsync.id
      (mem_forwardedTo.mpr ⟨rsync, hcmd, hops, rfl⟩) sound
    by_cases own : rsync.id = s.peerId c
    · cases hget : s.peers.get it.req.id with
      | some peer => exact .inl ⟨_, by simp [handleRsync, sound, own, hget]; rfl⟩
      | none => exact .inr (by simp [handleRsync, sound, own, hget])
    · have missing := this.resolve_left own
      exact .inr (by simp [handleRsync, sound, own, missing])

/-- An `Rsync` is forwarded at most once, and answered or dropped then, all along a run if
and only if it never reaches a handler that goes by another id than it names while that id
is registered. -/
theorem forwarded_once_iff (run : Run tr s) :
    Always ForwardedOnce tr s ∧ Steps AnswersOrDrops tr ↔ Steps Addressed tr := by
  constructor
  · rintro ⟨-, h⟩
    exact h.mono fun _ _ => answersOrDrops_iff.mp
  · intro hC
    refine ⟨run.always_of_steps hC fun tr s run hC => ?_,
      hC.mono fun _ _ => answersOrDrops_iff.mpr⟩
    refine run.invariant_of_steps (Q := fun s => ∃ tr, Run tr s) hC (fun tr _ run => ⟨tr, run⟩) ?_
      fun s a t ⟨_, run⟩ ih hc step => forwardedOnce_step run ih hc step
    constructor <;> simp [init, Handler.outgoing]

/-! ## One id a connection -/

/-- A connection registers only under the id it has registered under before. -/
def OneId (s : State) (a : Action) : Prop :=
  ∀ c ∈ a.ofHandler, ∀ call ∈ s.inserting c, ∀ k, .inserted c k ∈ s.log → k = call.1

/-- A running handler goes by the one id it has registered, and the `Rsync`s forwarded to it
name an id it has registered. -/
structure OneName (s : State) : Prop where
  named : ∀ c k, s.status c = .running → .inserted c k ∈ s.log → s.peerId c = k
  target : ∀ d it, s.Carries d it → ∀ dst ∈ it.forwardedTo, .inserted d dst ∈ s.log

theorem running_step (rule : Rule s a t) (running : t.status c = .running) :
    s.status c = .running ∨ s.status c = .absent ∨ c = s.count + 1 := by
  cases rule <;> simp_all [update_apply]
  all_goals grind

theorem Quiet.mem_inserted (h : Quiet s t) {k : String} (hk : .inserted c k ∈ t.log) :
    .inserted c k ∈ s.log := by
  rcases h with h | ⟨e, h, he⟩
  · exact h ▸ hk
  · rw [h] at hk
    exact (List.mem_append.mp hk).resolve_right fun hnew =>
      he c k (List.mem_singleton.mp hnew).symm

theorem named_step (run : Run tr s) (ih : OneName s) (hC : OneId s a) (step : s.step a = some t)
    {k : String} (running : t.status c = .running) (hk : .inserted c k ∈ t.log) :
    t.peerId c = k := by
  have rule := rule_of_step step
  have alive : ¬t.Ended c := by simp [Ended, running]
  have known : .inserted c k ∈ s.log → s.status c ≠ .absent ∧ s.peerId c = k := fun old => by
    have accepted := (provenance run).accepted _ old
    refine ⟨accepted, ih.named c k ?_ old⟩
    rcases running_step rule running with h | h | h
    · exact h
    · exact absurd h accepted
    · exact absurd (fresh run c (by omega)) accepted
  cases registry_step rule (fresh run _ (Nat.lt_succ_self _)) with
  | quiet peers log peerId ended =>
    obtain ⟨accepted, hname⟩ := known (log.mem_inserted hk)
    rw [peerId c accepted, hname]
  | register d id p action inserts runs entry sound sound' peers log peerId ended =>
    obtain ⟨next, inserts⟩ := inserts
    rw [peerId c]
    rcases List.mem_append.mp (log ▸ hk) with old | new
    · split
      · rename_i hcd
        subst hcd
        exact (hC c (Action.mem_ofHandler.mpr action) _ inserts k old).symm
      · exact (known old).2
    · obtain ⟨rfl, rfl⟩ : c = d ∧ k = id := by simpa using new
      simp
  | evict d id action inserts runs not_owns sock sound peers log peerId ended =>
    have hcd : c ≠ d := fun h => alive ((ended c).mpr (.inl h))
    have old : .inserted c k ∈ s.log := by simpa [log, hcd] using hk
    rw [peerId c hcd, (known old).2]
  | die d panics runs peers log peerId ended =>
    have hcd : c ≠ d := fun h => alive ((ended c).mpr (.inl h))
    rw [peerId c hcd, (known (log.mem_inserted hk)).2]
  | unregister d runs poisoned peers log peerId ended =>
    rw [peerId c, (known (log.mem_inserted hk)).2]

theorem oneName_step (run : Run tr s) (ih : OneName s) (hC : OneId s a)
    (step : s.step a = some t) : OneName t := by
  have rule := rule_of_step step
  refine ⟨fun c k => named_step run ih hC step, fun d it hc dst hdst => ?_⟩
  rcases carries_step rule hc with old | born
  · exact mem_log_step rule (ih.target d it old dst hdst)
  · obtain ⟨rsync, hcmd, hops, rfl⟩ := mem_forwardedTo.mp hdst
    cases born with
    | read | bye => simp [Item.bye] at hops
    | fsync => cases hcmd
    | rsync at_handle cmd other found target =>
      obtain rfl := ReqCmd.rsync.inj (Option.some.inj hcmd)
      exact mem_log_step rule (target ▸ (inserted_of_get (registryInv run) found).1)

theorem oneName (run : Run tr s) (hC : Steps OneId tr) : OneName s := by
  refine run.invariant_of_steps (Q := fun s => ∃ tr, Run tr s) hC (fun tr _ run => ⟨tr, run⟩) ?_
    fun s a t ⟨_, run⟩ ih hc step => oneName_step run ih hc step
  constructor <;> simp [init, Carries, Reader.item, Handler.inHand, Handler.outgoing]

/-- When each connection keeps to one id, a forwarded `Rsync` always reaches a handler that
goes by the id it names. -/
theorem addressed_of_oneId (run : Run tr s) (hC : Steps OneId tr) : Steps Addressed tr := by
  induction run with
  | start => exact steps_nil
  | @next tr s t a run step ih =>
    obtain ⟨before, -⟩ := steps_concat.mp hC
    refine steps_concat.mpr ⟨ih before, fun c hc it hit dst hdst _ => .inl ?_⟩
    obtain rfl := Action.mem_ofHandler.mp hc
    have runs : s.HandlerRuns c := (Option.ite_none_right_eq_some.mp step).1
    have carried : s.Carries c it := .inr (.inr (.inl hit))
    have one := oneName run before
    exact (one.named c dst runs.1 (one.target c it carried dst hdst)).symm

/-! ## Runs -/

/-- Connection 1 registers as `a` and then as `b`; connection 2 answers `a`. The `Rsync`
returns to the queue it was taken from. -/
theorem rsync_circulates : ¬∀ tr s, Run tr s → ForwardedOnce s ∧ Steps AnswersOrDrops tr := by
  have script : (exec State.step (fun _ _ => True) init
      (arrive 2 ++ register 1 "a" ++ register 1 "b" ++
        deliver 2 ⟨"c", some (.rsync { id := "a" })⟩ ++ runHandler 2 3 ++ runHandler 1 4)).any
      (fun s => 1 < s.log.countP (forwards (2, 0))) = true := by decide
  obtain ⟨tr, s, run, -, h⟩ := run_of_exec script
  intro all
  exact absurd ((all tr s run).1.once (2, 0)) (Nat.not_le.mpr (of_decide_eq_true h))

/-- With one id a connection the `Rsync` arrives. -/
theorem forwarded_once_of_one_id :
    ∃ tr s, Run tr s ∧ s.log.countP (forwards (2, 0)) = 1 ∧ Always ForwardedOnce tr s := by
  have script : (exec State.step Addressed init
      (arrive 2 ++ register 1 "a" ++
        deliver 2 ⟨"c", some (.rsync { id := "a" })⟩ ++ runHandler 2 3 ++ runHandler 1 2)).any
      (fun s => s.log.countP (forwards (2, 0)) = 1) = true := by decide
  obtain ⟨tr, s, run, hC, h⟩ := run_of_exec script
  exact ⟨tr, s, run, of_decide_eq_true h, ((forwarded_once_iff run).mpr hC).1⟩

end State

end Rndz.Tcp
