import Mathlib.Tactic.Linarith
import Rndz.Lib.Transition
import Rndz.Udp.Registry

/-!
# When the UDP server expires its clients

The loop of `Server::run` under a clock that never goes back: how long an entry can stay in the
registry without being refreshed, how early it can be removed, and that the limit `gc` computes
is not before the start. The two readings inside one `gc` are taken as one.
-/
namespace Rndz.Udp

open Net Proto Transition History

/-- An event registers a client with one entry at most. -/
theorem registers_unique {id : String} (p : List Event) (e : Event) (c c' : Client)
    (h : Registers id p e c) (h' : Registers id p e c') : c = c' := by
  cases e with
  | request now req addr => exact h.1.trans h'.1.symm
  | gc now next => exact absurd h registers_gc

namespace Server

/-- The server once the request of the turn, if there is one, has been handled. -/
def handled (s : Server) (t : Turn) : Server :=
  match t.received with
  | some (req, addr) => (s.handleRequest t.handledAt req addr).1
  | none => s

/-- The check of the turn runs `gc`. -/
abbrev Collects (s : Server) (t : Turn) : Prop := s.nextGc < t.checkedAt

/-- The request of the turn as an event. -/
def Turn.requests (t : Turn) : List Event :=
  match t.received with
  | some (req, addr) => [.request t.handledAt req addr]
  | none => []

variable {s : Server} {t : Turn} {id : String} {c : Client}

theorem nextGc_handled : (s.handled t).nextGc = s.nextGc := by
  unfold handled
  split
  · exact nextGc_handleRequest s _ _ _
  · rfl

theorem turn_eq : (s.turn t).1 =
    if s.Collects t then (s.handled t).gc t.gcAt t.gcDoneAt else s.handled t := by
  unfold turn handled
  cases t.received with
  | none => simp only [apply_ite Prod.fst]
  | some received => simp only [nextGc_handleRequest, apply_ite Prod.fst]

theorem clients_gc_eq_some {now next : Instant} : (s.gc now next).clients id = some c ↔
    s.clients id = some c ∧ now - fromSecs 60 < c.lastPing := by
  simp [gc, Option.filter_eq_some_iff]

/-- A request leaves an entry alone, or gives it the current time. -/
theorem lastPing_handleRequest {now : Instant} {req : Request} {addr : SocketAddr}
    (h : (s.handleRequest now req addr).1.clients id = some c) :
    s.clients id = some c ∨ c.lastPing = now := by
  unfold handleRequest at h
  split at h
  · rcases touch_eq_some.mp h with ⟨rfl, -⟩ | ⟨-, h⟩
    · exact .inr rfl
    · exact .inl h
  · unfold handleIsync at h
    split at h
    · rcases touch_eq_some.mp h with ⟨rfl, -⟩ | ⟨-, h⟩
      · exact .inr rfl
      · exact .inl h
    · exact .inl h
  · unfold handleRsync at h
    split at h <;> exact .inl h
  · simp only [handleBye, Function.update_apply] at h
    split at h
    · cases h
    · exact .inl h
  all_goals exact .inl h

end Server

/-! ## Runs under a clock -/

/-- The server with the latest clock value read; `hist` is history. -/
structure Clocked where
  server : Server
  now : Instant
  hist : List Event

namespace Clocked

open Server

/-- The clock values read in the turn do not go back, and a collection takes no time. -/
structure Ordered (s : Clocked) (t : Turn) : Prop where
  checked : s.now ≤ t.checkedAt
  handled : t.received.isSome = true → s.now ≤ t.handledAt ∧ t.handledAt ≤ t.checkedAt
  collected : s.server.Collects t → t.checkedAt ≤ t.gcAt ∧ t.gcDoneAt = t.gcAt

instance (s : Clocked) (t : Turn) : Decidable (s.Ordered t) :=
  decidable_of_iff
    (s.now ≤ t.checkedAt ∧
      (t.received.isSome = true → s.now ≤ t.handledAt ∧ t.handledAt ≤ t.checkedAt) ∧
      (s.server.Collects t → t.checkedAt ≤ t.gcAt ∧ t.gcDoneAt = t.gcAt))
    ⟨fun ⟨h, h', h''⟩ => ⟨h, h', h''⟩, fun ⟨h, h', h''⟩ => ⟨h, h', h''⟩⟩

def init (start : Instant) : Clocked := ⟨.new start, start, []⟩

def step (s : Clocked) (t : Turn) : Option Clocked :=
  if s.Ordered t then
    some
      { server := (s.server.turn t).1
        now := if s.server.Collects t then t.gcDoneAt else t.checkedAt
        hist := s.hist ++ s.server.turnEvents t }
  else none

/-- What holds of a turn: the limit of a collection is not before the start; afterwards no
entry is two minutes old at the check; and a client whose latest refresh, according to the
history, is less than a minute old is not removed. -/
structure Bounded (start : Instant) (s : Clocked) (t : Turn) : Prop where
  noUnderflow : s.server.Collects t →
    start + fromSecs 60 < t.gcAt ∧ start ≤ t.gcAt - fromSecs 60
  fresh : ∀ id c, (s.server.turn t).1.clients id = some c → t.checkedAt - fromSecs 120 < c.lastPing
  kept : s.server.Collects t → ∀ id c, Latest (Registers id) (s.hist ++ t.requests) c →
    t.gcAt - fromSecs 60 < c.lastPing → (s.server.handled t).clients id ≠ none →
      (s.server.turn t).1.clients id = some c

/-- The next collection is due within a minute of the latest clock value, and every entry is
younger than two minutes when it is. -/
structure Inv (start : Instant) (s : Clocked) : Prop where
  started : start + fromSecs 60 ≤ s.server.nextGc
  due : s.server.nextGc ≤ s.now + fromSecs 60
  recent : ∀ id c, s.server.clients id = some c → s.server.nextGc - fromSecs 120 < c.lastPing
  refines : s.server.Refines s.hist

variable {start : Instant} {s s' : Clocked} {t : Turn} {tr : List (Clocked × Turn)}

theorem inv_init : Inv start (init start) where
  started := le_refl _
  due := le_refl _
  recent := nofun
  refines := refines_replay start []

/-- Entries are refreshed at the current time, which is less than a minute before the next
collection is due. -/
theorem recent_handled (inv : Inv start s) (ordered : s.Ordered t) :
    ∀ id c, (s.server.handled t).clients id = some c →
      s.server.nextGc - fromSecs 120 < c.lastPing := by
  intro id c hc
  unfold handled at hc
  split at hc
  · rename_i req addr received
    have hnow := (ordered.handled (by simp [received])).1
    have hdue := inv.due
    rcases lastPing_handleRequest hc with old | new
    · exact inv.recent id c old
    · simp only [fromSecs, Nat.cast_ofNat] at *
      linarith
  · exact inv.recent id c hc

theorem refines_handled (inv : Inv start s) :
    (s.server.handled t).Refines (s.hist ++ t.requests) := by
  unfold handled Server.Turn.requests
  cases t.received with
  | none => simpa using inv.refines
  | some received => exact refines_request inv.refines _ _ _

theorem refines_turn (inv : Inv start s) :
    (s.server.turn t).1.Refines (s.hist ++ s.server.turnEvents t) := by
  have requests := refines_handled (t := t) inv
  have events : s.hist ++ s.server.turnEvents t = (s.hist ++ t.requests) ++
      if s.server.Collects t then [.gc t.gcAt t.gcDoneAt] else [] :=
    (List.append_assoc ..).symm
  rw [turn_eq, events]
  split
  · exact refines_gc requests _ _
  · simpa using requests

theorem inv_step (inv : Inv start s) (h : s.step t = some s') : Inv start s' := by
  obtain ⟨ordered, h⟩ := Option.ite_none_right_eq_some.mp h
  obtain rfl := Option.some.inj h
  have handled := recent_handled inv ordered
  have refines := refines_turn (t := t) inv
  obtain ⟨started, due, -⟩ := inv
  by_cases collects : s.server.Collects t
  · obtain ⟨hgc, same⟩ := ordered.collected collects
    have next : (s.server.turn t).1.nextGc = t.gcAt + fromSecs 60 := by
      rw [turn_eq, if_pos collects, gc, nextGcAfter, same]
    refine ⟨?_, ?_, ?_, refines⟩
    · simp only [next, fromSecs, Nat.cast_ofNat] at *
      linarith
    · simp only [next, if_pos collects, same]
      exact le_refl _
    · intro id c hc
      rw [turn_eq, if_pos collects, clients_gc_eq_some] at hc
      have := hc.2
      simp only [next, fromSecs, Nat.cast_ofNat] at *
      linarith
  · have next : (s.server.turn t).1.nextGc = s.server.nextGc := by
      rw [turn_eq, if_neg collects, nextGc_handled]
    have := ordered.checked
    refine ⟨?_, ?_, ?_, refines⟩
    · simpa only [next] using started
    · simp only [next, if_neg collects]
      linarith
    · intro id c hc
      rw [turn_eq, if_neg collects] at hc
      simpa only [next] using handled id c hc

/-- A turn from a state that is as it should be. -/
theorem bounded_of_inv (inv : Inv start s) (ordered : s.Ordered t) : Bounded start s t := by
  have handled := recent_handled inv ordered
  have refines := refines_handled (t := t) inv
  constructor
  · intro collects
    have := (ordered.collected collects).1
    have := inv.started
    constructor <;> linarith
  · intro id c hc
    rw [turn_eq] at hc
    split at hc
    · rename_i collects
      have hgc := (ordered.collected collects).1
      have := (clients_gc_eq_some.mp hc).2
      simp only [fromSecs, Nat.cast_ofNat] at *
      linarith
    · rename_i early
      have := handled id c hc
      linarith
  · intro collects id c latest young known
    obtain ⟨c', hc'⟩ := Option.ne_none_iff_exists'.mp known
    obtain rfl : c = c' := latest.unique registers_unique ((refines id c').mp hc').1
    rw [turn_eq, if_pos collects, clients_gc_eq_some]
    exact ⟨hc', young⟩

/-- The bounds hold in every turn of every run. -/
theorem gc_bounds (run : Transition.Run step (init start) tr s) : Steps (Bounded start) tr := by
  intro p hp
  obtain ⟨_, before, s', h⟩ := run.of_mem hp
  have inv : Inv start p.1 := before.invariant inv_init fun _ _ _ => inv_step
  exact bounded_of_inv inv (Option.ite_none_right_eq_some.mp h).1

/-- The turn in which a datagram is received, or none is, with the clock at `now`. -/
def turnAt (now : Instant) (received : Option (Request × SocketAddr)) : Turn :=
  ⟨received, now, now, now, now⟩

/-- Of two pings the second is less than a minute old at the first collection. -/
theorem younger_ping_kept :
    ∃ tr s, Transition.Run step (init 0) tr s ∧ s.server.clients "a" = none ∧
      s.server.clients "b" = some ⟨host 2, fromSecs 2⟩ ∧ Steps (Bounded 0) tr := by
  have script : (exec step (fun _ _ => True) (init 0)
      [turnAt (fromSecs 1) (some (⟨"a", some .ping⟩, host 1)),
        turnAt (fromSecs 2) (some (⟨"b", some .ping⟩, host 2)),
        turnAt (fromSecs 61) none]).any
      (fun s => s.server.clients "a" = none ∧
        s.server.clients "b" = some ⟨host 2, fromSecs 2⟩) = true := by decide
  obtain ⟨tr, s, run, -, h⟩ := run_of_exec script
  obtain ⟨expired, kept⟩ := of_decide_eq_true h
  exact ⟨tr, s, run, expired, kept, gc_bounds run⟩

end Clocked

end Rndz.Udp
