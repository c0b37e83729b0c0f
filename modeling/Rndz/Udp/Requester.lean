import Rndz.Udp.Expiry
import Rndz.Udp.Provenance

/-!
# The reply to an `Fsync` finds the requester

When the UDP server passes an `Isync` on, it has registered the requester, so that the `Rsync` with
which the target replies can be passed back. The entry may be collected after a minute, and the
requester may have left or moved; otherwise the reply goes to where the `Isync` came from.
-/
namespace Rndz.Udp

open Net Proto Transition

namespace Server

variable {s : Server} {now : Instant} {req : Request} {src : SocketAddr} {id : String} {c : Client}

/-- A request other than a `Bye` leaves an entry, or renews it. -/
theorem kept_handleRequest (h : s.clients id = some c) (stays : req.id = id → req.cmd ≠ some .bye) :
    ∃ c', (s.handleRequest now req src).1.clients id = some c' ∧
      (c' = c ∨ req.id = id ∧ c' = ⟨src, now⟩) := by
  have touched : ∀ k, ∃ c', (s.touch now k src).clients id = some c' ∧
      (c' = c ∨ k = id ∧ c' = ⟨src, now⟩) := by
    intro k
    by_cases hk : k = id
    · exact ⟨_, touch_eq_some.mpr (.inl ⟨rfl, hk⟩), .inr ⟨hk, rfl⟩⟩
    · exact ⟨c, touch_eq_some.mpr (.inr ⟨hk, h⟩), .inl rfl⟩
  unfold handleRequest
  split
  · exact touched req.id
  · unfold handleIsync
    split
    · exact touched req.id
    · exact ⟨c, h, .inl rfl⟩
  · unfold handleRsync
    split <;> exact ⟨c, h, .inl rfl⟩
  · rename_i cmd
    have other : id ≠ req.id := fun hid => stays hid.symm cmd
    exact ⟨c, by simpa [handleBye, Function.update_of_ne other] using h, .inl rfl⟩
  all_goals exact ⟨c, h, .inl rfl⟩

end Server

namespace Clocked

open Server

/-- What is received under the id comes from the address, and does not end the registration. -/
def KeepsTo (id : String) (addr : SocketAddr) (_ : Clocked) (t : Turn) : Prop :=
  ∀ req src, t.received = some (req, src) → req.id = id → src = addr ∧ req.cmd ≠ some .bye

/-- At `asked` the requester was heard from at `addr`, and the server can reach it there for a
minute. -/
structure Reachable (id : String) (addr : SocketAddr) (asked : Instant) (s : Clocked) : Prop where
  past : asked ≤ s.now
  entry : s.now < asked + fromSecs 60 →
    ∃ c, s.server.clients id = some c ∧ c.addr = addr ∧ asked ≤ c.lastPing

variable {start asked : Instant} {s s' : Clocked} {t : Turn} {id : String} {addr : SocketAddr}
  {tr : List (Clocked × Turn)}

/-- A turn after which the minute is not over does not collect the entry. -/
theorem entry_turn {server : Server} {c : Client} (h : (server.handled t).clients id = some c)
    (young : server.Collects t → t.gcAt - fromSecs 60 < c.lastPing) :
    (server.turn t).1.clients id = some c := by
  rw [turn_eq]
  split
  · rename_i collects
    exact clients_gc_eq_some.mpr ⟨h, young collects⟩
  · exact h

theorem now_step (h : s.step t = some s') : s.Ordered t ∧ s'.server = (s.server.turn t).1 ∧
    t.checkedAt ≤ s'.now ∧ (s.server.Collects t → s'.now = t.gcAt) := by
  obtain ⟨ordered, h⟩ := Option.ite_none_right_eq_some.mp h
  obtain rfl := Option.some.inj h
  refine ⟨ordered, rfl, ?_, fun collects => ?_⟩
  · dsimp only
    split
    · rename_i collects
      obtain ⟨hgc, same⟩ := ordered.collected collects
      exact same ▸ hgc
    · exact le_refl _
  · exact (if_pos collects).trans (ordered.collected collects).2

theorem reachable_step (inv : Reachable id addr asked s) (keeps : KeepsTo id addr s t)
    (h : s.step t = some s') : Reachable id addr asked s' := by
  obtain ⟨ordered, hserver, checked, collected⟩ := now_step h
  have later : s.now ≤ s'.now := ordered.checked.trans checked
  refine ⟨inv.past.trans later, fun inTime => ?_⟩
  obtain ⟨c, hc, haddr, young⟩ := inv.entry (by linarith)
  have handled : ∃ c', (s.server.handled t).clients id = some c' ∧ c'.addr = addr ∧
      asked ≤ c'.lastPing := by
    unfold handled
    split
    · rename_i req src received
      have keeps := keeps req src received
      obtain ⟨c', hc', rfl | ⟨hid, rfl⟩⟩ := kept_handleRequest hc fun hid => (keeps hid).2
      · exact ⟨c', hc', haddr, young⟩
      · have := (ordered.handled (by simp [received])).1
        exact ⟨_, hc', (keeps hid).1, inv.past.trans this⟩
    · exact ⟨c, hc, haddr, young⟩
  obtain ⟨c', hc', haddr', young'⟩ := handled
  refine ⟨c', hserver ▸ entry_turn hc' fun collects => ?_, haddr', young'⟩
  rw [← collected collects]
  linarith

/-- The turn in which the `Isync` is passed on. -/
theorem reachable_of_isync {isync : Isync}
    (received : t.received = some (⟨id, some (.isync isync)⟩, addr))
    (known : s.server.clients isync.id ≠ none) (h : s.step t = some s') :
    Reachable id addr t.handledAt s' := by
  obtain ⟨ordered, hserver, checked, collected⟩ := now_step h
  obtain ⟨-, handledAt⟩ := ordered.handled (by simp [received])
  refine ⟨handledAt.trans checked, fun inTime => ?_⟩
  obtain ⟨target, htarget⟩ := Option.ne_none_iff_exists'.mp known
  have handled : (s.server.handled t).clients id = some ⟨addr, t.handledAt⟩ := by
    simp [Server.handled, received, handleRequest, handleIsync, htarget, touch]
  refine ⟨_, hserver ▸ entry_turn handled fun collects => ?_, rfl, le_refl _⟩
  rw [← collected collects]
  linarith

/-- Once an `Isync` has been passed on, the `Rsync` with which anyone replies within a minute goes
back to where it came from, unless the requester has said goodbye or moved in the meantime. -/
theorem reply_reaches_requester {s₁ s₂ : Clocked} {t₁ t₂ : Turn}
    {past between : List (Clocked × Turn)} {isync : Isync} {rsync : Rsync} {src : String}
    {peer : SocketAddr}
    (run : Transition.Run step (init start) (past ++ (s₁, t₁) :: (between ++ [(s₂, t₂)])) s)
    (asks : t₁.received = some (⟨id, some (.isync isync)⟩, addr))
    (known : s₁.server.clients isync.id ≠ none) (keeps : Steps (KeepsTo id addr) between)
    (replies : t₂.received = some (⟨src, some (.rsync rsync)⟩, peer)) (names : rsync.id = id)
    (inTime : t₂.handledAt < t₁.handledAt + fromSecs 60) :
    (s₂.server.turn t₂).2 = [sendResponse (.redirect ⟨src, peer.toString⟩) id addr] := by
  obtain ⟨-, u, hu, rest⟩ := run.split
  obtain ⟨middle, v, hv, -⟩ := rest.split
  have reachable : Reachable id addr t₁.handledAt s₂ :=
    middle.invariant_of_steps (Q := fun _ => True) keeps (fun _ _ _ => trivial)
      (reachable_of_isync asks known hu) fun _ _ _ _ inv hC h => reachable_step inv hC h
  obtain ⟨ordered, -⟩ := now_step hv
  have := (ordered.handled (by simp [replies])).1
  obtain ⟨c, hc, haddr, -⟩ := reachable.entry (by linarith)
  subst names
  rw [out_turn, replies, Option.elim_some]
  simp [handleRequest, handleRsync, hc, haddr]

/-- The state after a turn. -/
def after (s : Clocked) (t : Turn) : Clocked where
  server := (s.server.turn t).1
  now := if s.server.Collects t then t.gcDoneAt else t.checkedAt
  hist := s.hist ++ s.server.turnEvents t

theorem step_after (ordered : s.Ordered t) : s.step t = some (s.after t) := if_pos ordered

def registerTurn : Turn := turnAt (fromSecs 4) (some (⟨"t", some .ping⟩, host 1))
def askTurn : Turn := turnAt (fromSecs 5) (some (⟨"c", some (.isync ⟨"t"⟩)⟩, host 3))
def collectTurn : Turn := turnAt (fromSecs 62) none
def replyTurn : Turn := turnAt (fromSecs 64) (some (⟨"t", some (.rsync { id := "c" })⟩, host 1))

/-- The target replies after 59 seconds, when the server has collected garbage. -/
theorem late_reply_returned : ∃ s₁ s₂ s₃ s : Clocked, Transition.Run step (init 0)
    ([(init 0, registerTurn)] ++ (s₁, askTurn) :: ([(s₂, collectTurn)] ++ [(s₃, replyTurn)])) s ∧
      (s₃.server.turn replyTurn).2 =
        [sendResponse (.redirect ⟨"t", (host 1).toString⟩) "c" (host 3)] := by
  let s₁ := (init 0).after registerTurn
  let s₂ := s₁.after askTurn
  let s₃ := s₂.after collectTurn
  have run : Transition.Run step (init 0) ([(init 0, registerTurn)] ++ (s₁, askTurn) ::
      ([(s₂, collectTurn)] ++ [(s₃, replyTurn)])) (s₃.after replyTurn) :=
    (((Run.start.next (step_after (by decide))).next (step_after (by decide))).next
      (step_after (by decide))).next (step_after (by decide))
  have keeps : Steps (KeepsTo "c" (host 3)) [(s₂, collectTurn)] := by
    simp [Steps, KeepsTo, collectTurn, turnAt]
  exact ⟨_, _, _, _, run, reply_reaches_requester run rfl (by decide) keeps rfl rfl (by decide)⟩

end Clocked

end Rndz.Udp
