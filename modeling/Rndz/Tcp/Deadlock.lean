import Mathlib.Data.Set.Insert
import Rndz.Lib.WaitFor
import Rndz.Tcp.Requests

/-!
# Handlers that wait for each other's queues

A handler that forwards a request to a full queue waits until the handler of that queue has
taken one from it. The handlers of a set that all wait for queues of the set wait for ever;
a step leads there exactly when it suspends a handler whose own queue is what, directly or
through other waiting handlers, it waits for.
-/
namespace Rndz.Tcp

open Net Proto Mpsc Transition WaitFor
open Function (update update_apply)
open Relation (ReflTransGen)

namespace State

variable {s t : State} {c d h : Nat} {a : Action} {it : Item} {tr : List (State × Action)}

/-- The handler of `h` is live and suspended in a send to the full queue of `d`. -/
structure Waits (s : State) (h d : Nat) : Prop where
  live : s.status h = .running
  awaits : (s.handler h).awaited = some d
  queued : .handler h ∈ (s.queue d).waiting
  full : (s.queue d).Full

/-- No set of handlers is deadlocked. -/
def DeadlockFree (s : State) : Prop := ∀ D, ¬Deadlocked s.Waits D

/-- The queue at which the next step of the handler of `c` suspends it. -/
def suspends (s : State) (c : Nat) : Option Nat :=
  match s.handler c with
  | .send dst _ _ => if (s.queue dst).closed = false ∧ (s.queue dst).Full then some dst else none
  | _ => none

/-- A handler that is suspended does not wait, through any chain of suspended handlers, for
itself. -/
def ClosesNoCycle (s : State) (a : Action) : Prop :=
  ∀ c ∈ a.ofHandler, ∀ dst ∈ s.suspends c, ¬ReflTransGen s.Waits dst c

theorem awaited_of_outgoing {h : Handler} (out : h.outgoing = none) : h.awaited = none := by
  cases h with
  | sending dst it src => cases out
  | _ => rfl

@[simp, grind =] theorem awaited_afterSend (src : Option String) :
    (afterSend src).awaited = none :=
  awaited_of_outgoing (outgoing_afterSend src)

/-- Only a sender that has just found its queue full starts to wait. -/
theorem waiting_step (rule : Rule s a t) {d : Nat}
    (waiting : .handler h ∈ (t.queue d).waiting) :
    .handler h ∈ (s.queue d).waiting ∨ a = .handler h ∧ s.suspends h = some d := by
  cases rule with
  | @sendAcquire c dst it src runs at_send isOpen =>
    by_cases hd : d = dst
    · subst hd
      have : .handler h ∈ ((s.queue d).acquire (.handler c)).waiting := by simpa using waiting
      rcases Channel.mem_waiting_acquire.mp this with old | ⟨new, full⟩
      · exact .inl old
      · obtain rfl := Task.handler.inj new
        exact .inr ⟨rfl, by simp [suspends, at_send, isOpen, full]⟩
    · exact .inl (by simpa [hd] using waiting)
  | @readerAcquire c it last runs at_send isOpen =>
    by_cases hd : d = c
    · subst hd
      have : .handler h ∈ ((s.queue d).acquire (.reader d)).waiting := by simpa using waiting
      rcases Channel.mem_waiting_acquire.mp this with old | ⟨new, -⟩
      · exact .inl old
      · cases new
    · exact .inl (by simpa [hd] using waiting)
  | recv runs at_recv recv =>
    obtain ⟨-, -, sub⟩ := Channel.recv_eq_some recv
    simp only [setHandler, setQueue, update_apply] at waiting
    grind
  | sendPush runs at_send isOpen push | readerPush runs at_send isOpen push =>
    obtain ⟨-, -, same, -⟩ := Channel.push_eq_some push
    simp only [setHandler, setReader, setQueue, record, update_apply] at waiting
    grind
  | accept addr =>
    simp only [accept, update_apply] at waiting
    split at waiting
    · simp at waiting
    · exact .inl waiting
  | drop cleaned =>
    simp only [dropHandler, setQueue, setStatus, update_apply] at waiting
    split at waiting
    · simp at waiting
    · exact .inl waiting
  | bye | writeErr | select =>
    exact .inl (mem_of_mem_waiting_withdraw (mem_of_mem_waiting_withdraw waiting))
  | insertPoisoned | insertPanic | isyncPanic | rsyncPanic | cleanupPanic =>
    simp only [panic, dropFutures, dropReadReqs, dropHandleCmds, dropHandler, setQueue, setStatus,
      update_apply] at waiting
    split at waiting
    · simp at waiting
    · exact .inl (mem_of_mem_waiting_withdraw (mem_of_mem_waiting_withdraw waiting))
  | _ => exact .inl waiting

/-- A handler in a send has been there before, or has just asked for its slot. -/
theorem awaited_step (rule : Rule s a t) (live : t.status h = .running)
    (awaits : (t.handler h).awaited = some d) :
    (s.status h = .running ∧ (s.handler h).awaited = some d) ∨
      a = .handler h ∧ (s.queue d).closed = false ∧ ∃ it src, s.handler h = .send d it src := by
  cases rule with
  | insertRefresh runs inserts | insertNew runs inserts =>
    have idle := awaited_of_outgoing (next_of_inserting inserts).2.1
    simp only [setHandler, record, setPeerId, setPeers, update_apply] at *
    grind
  | accept addr =>
    simp only [accept, update_apply] at *
    grind [Handler.awaited]
  | recv | sendAcquire | isyncForward | rsyncForward | isyncMissing | fsync | rsyncAnswer
  | rsyncDrop | write | sendClosed | sendPush =>
    simp only [setHandler, setQueue, record, update_apply] at *
    grind [Handler.awaited]
  | bye | writeErr | select | insertPoisoned | insertPanic | isyncPanic | rsyncPanic
  | cleanupPanic =>
    simp only [leave, panic, dropFutures, dropReadReqs, dropHandleCmds, dropHandler, setQueue,
      setStatus, setPeerId, setPeers, record, update_apply] at *
    grind
  | cleanupRemove | cleanupKeep | drop =>
    simp only [dropHandler, setQueue, setStatus, setPeers, update_apply] at *
    grind
  | _ => exact .inl ⟨live, awaits⟩

theorem waits_step (rule : Rule s a t) (wait : t.Waits h d) :
    s.Waits h d ∨ a = .handler h ∧ s.suspends h = some d := by
  rcases waiting_step rule wait.queued with queued | new
  · have full := Channel.full_of_mem_waiting queued
    rcases awaited_step rule wait.live wait.awaits with
      ⟨live, awaits⟩ | ⟨rfl, isOpen, it, src, at_send⟩
    · exact .inl ⟨live, awaits, queued, full⟩
    · exact .inr ⟨rfl, by simp [suspends, at_send, isOpen, full]⟩
  · exact .inr new

/-- A step that suspends a handler changes nothing else. -/
theorem step_suspends (step : s.step (.handler c) = some t) (suspends : s.suspends c = some d) :
    t.Waits c d ∧ ∀ h e, s.Waits h e → t.Waits h e := by
  obtain ⟨runs, step⟩ := Option.ite_none_right_eq_some.mp step
  unfold State.suspends at suspends
  split at suspends
  · rename_i dst it src at_send
    obtain ⟨⟨isOpen, full⟩, hdst⟩ := Option.ite_none_right_eq_some.mp suspends
    obtain rfl : dst = d := Option.some.inj hdst
    simp [handlerStep, at_send, isOpen] at step
    subst step
    have hfull : ((s.queue dst).acquire (.handler c)).Full :=
      Channel.full_of_mem_waiting (Channel.mem_waiting_acquire.mpr (.inr ⟨rfl, full⟩))
    constructor
    · exact ⟨runs.1, by simp [Handler.awaited], by simp [Channel.mem_waiting_acquire, full],
        by simpa using hfull⟩
    · rintro h e ⟨live, awaits, queued, efull⟩
      have hne : h ≠ c := by
        rintro rfl
        simp [at_send, Handler.awaited] at awaits
      refine ⟨live, by simpa [hne] using awaits, ?_, ?_⟩ <;> by_cases he : e = dst
      · subst he
        simp [Channel.mem_waiting_acquire, queued]
      · simpa [he] using queued
      · subst he
        simpa using hfull
      · simpa [he] using efull
  · cases suspends

/-- No handlers deadlock all along a run if and only if no handler is ever suspended in a
send that waits, through other suspended handlers, for itself. -/
theorem deadlockFree_iff (run : Run tr s) :
    Always DeadlockFree tr s ↔ Steps ClosesNoCycle tr := by
  refine run.always_iff_steps (Q := fun _ => True) (run.always fun _ _ _ => trivial) ?_ ?_ ?_
  · rintro D ⟨⟨h, hh⟩, closed⟩
    obtain ⟨d, -, wait⟩ := closed h hh
    cases wait.live
  · intro s a t _ free hC step D dead
    have rule := rule_of_step step
    by_cases new : ∃ c ∈ a.ofHandler, ∃ dst, s.suspends c = some dst
    · obtain ⟨c, hc, dst, hdst⟩ := new
      refine hC c hc dst hdst (dead.reaches free fun h d wait => ?_)
      refine (waits_step rule wait).imp_right fun ⟨ha, hd⟩ => ?_
      obtain rfl : h = c := by simpa [ha, Action.ofHandler] using hc
      exact ⟨rfl, Option.some.inj (hd.symm.trans hdst)⟩
    · refine free D (dead.mono fun h d wait => (waits_step rule wait).resolve_right ?_)
      rintro ⟨ha, hd⟩
      exact new ⟨h, Action.mem_ofHandler.mpr ha, d, hd⟩
  · intro s a t _ _ step free c hc dst hdst reaches
    obtain rfl := Action.mem_ofHandler.mp hc
    obtain ⟨wait, sub⟩ := step_suspends step hdst
    exact free _ (deadlocked_of_reaches sub wait reaches)

/-- Twelve `Isync`s in a row, from a client to itself: the handler waits for a slot of the
queue that only it empties. -/
theorem handler_waits_for_itself : ¬∀ tr s, Run tr s → DeadlockFree s := by
  have script : (exec State.step (fun _ _ => True) init
      (arrive 1 ++ register 1 "a" ++
        List.replicate 12 (Action.client 1 ⟨"a", some (.isync ⟨"a"⟩)⟩) ++
        (List.replicate 10 [Action.read 1, .reader 1, .reader 1]).flatten ++
        .read 1 :: .reader 1 :: runHandler 1 3)).any
      (fun s => s.status 1 = .running ∧ (s.handler 1).awaited = some 1 ∧
        .handler 1 ∈ (s.queue 1).waiting) = true := by decide
  obtain ⟨tr, s, run, -, h⟩ := run_of_exec script
  obtain ⟨live, awaits, queued⟩ := of_decide_eq_true h
  have wait : s.Waits 1 1 := ⟨live, awaits, queued, Channel.full_of_mem_waiting queued⟩
  intro all
  exact all tr s run {1} ⟨Set.singleton_nonempty 1, fun x hx =>
    ⟨1, rfl, Set.mem_singleton_iff.mp hx ▸ wait⟩⟩

/-- A handler is suspended only at the queue of another handler that is not suspended. -/
def WaitsForIdle (s : State) (a : Action) : Prop :=
  ∀ c ∈ a.ofHandler, ∀ dst ∈ s.suspends c, dst ≠ c ∧ (s.handler dst).awaited = none

instance (s : State) (a : Action) : Decidable (WaitsForIdle s a) :=
  inferInstanceAs (Decidable (∀ c ∈ a.ofHandler, ∀ dst ∈ s.suspends c, _ ∧ _))

theorem closesNoCycle_of_waitsForIdle (h : WaitsForIdle s a) : ClosesNoCycle s a := by
  intro c hc dst hdst reaches
  obtain ⟨hne, idle⟩ := h c hc dst hdst
  exact hne (eq_of_reaches (fun y wait => by simpa [idle] using wait.awaits) reaches)

/-- The handler of connection 2 waits for connection 1, which has not taken any of the ten
`Rsync`s in its queue yet. -/
theorem deadlockFree_of_slow_handler :
    ∃ tr s, Run tr s ∧ s.Waits 2 1 ∧ Always DeadlockFree tr s := by
  have script : (exec State.step WaitsForIdle init
      (arrive 2 ++ register 1 "a" ++
        (List.replicate 10
          (deliver 2 ⟨"b", some (.rsync { id := "a" })⟩ ++ runHandler 2 3)).flatten ++
        deliver 2 ⟨"b", some (.rsync { id := "a" })⟩ ++ runHandler 2 2)).any
      (fun s => s.status 2 = .running ∧ (s.handler 2).awaited = some 1 ∧
        .handler 2 ∈ (s.queue 1).waiting) = true := by decide
  obtain ⟨tr, s, run, hC, h⟩ := run_of_exec script
  obtain ⟨live, awaits, queued⟩ := of_decide_eq_true h
  exact ⟨tr, s, run, ⟨live, awaits, queued, Channel.full_of_mem_waiting queued⟩,
    (deadlockFree_iff run).mpr (hC.mono fun _ _ => closesNoCycle_of_waitsForIdle)⟩

end State

end Rndz.Tcp
