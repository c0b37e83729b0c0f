import Rndz.Lib.History
import Rndz.Udp.Server

/-!
# The registry of the UDP server and its history

What the server knows of an id is a function of the requests received and the garbage
collections run: the latest event that registered the id, unless a `Bye` or a collection has
cleared it since (`Entry`). Whether an `Isync` registers its source depends on whether its
target was registered then, so the definition refers to shorter histories.
-/
namespace Rndz.Udp

open Net Proto History
open Function (update update_apply)

/-- A request is received, or the garbage collection is run. -/
inductive Event where
  | request (now : Instant) (req : Request) (addr : SocketAddr)
  | gc (now next : Instant)
  deriving DecidableEq, Repr

/-! ## The registry according to the history -/

/-- Given what is registered after which events, `e` registers `k` as `c`: it is a `Ping`, or
an `Isync` whose target is registered. -/
def RegistersIf (registered : List Event → String → Prop) (k : String) (past : List Event)
    (e : Event) (c : Client) : Prop :=
  match e with
  | .request now req addr => c = ⟨addr, now⟩ ∧ req.id = k ∧ (req.cmd = some .ping ∨
      ∃ isync, req.cmd = some (.isync isync) ∧ registered past isync.id)
  | .gc _ _ => False

/-- `e` clears the entry `c` of `k`: it is a `Bye`, or a collection whose limit is not before
the time of the entry. -/
def Clears (k : String) (e : Event) (c : Client) : Prop :=
  match e with
  | .request _ req _ => req.id = k ∧ req.cmd = some .bye
  | .gc now _ => c.lastPing ≤ now - fromSecs 60

/-- `k` is registered after the events. -/
def Registered (hist : List Event) (k : String) : Prop :=
  ∃ c, Holds (RegistersIf (fun past id => ∃ _ : past.length < hist.length, Registered past id) k)
    (Clears k) hist c
termination_by hist.length

/-- After the events `past`, `e` registers `k` as `c`. -/
def Registers (k : String) (past : List Event) (e : Event) (c : Client) : Prop :=
  RegistersIf Registered k past e c

/-- `c` has the address and the time of the latest event that registered `k`, and one such
event was followed by none that clears this entry. -/
def Entry (hist : List Event) (k : String) (c : Client) : Prop :=
  Latest (Registers k) hist c ∧ Kept (Registers k) (Clears k) hist c

@[simp] theorem registers_request {k : String} {past : List Event} {now : Instant} {req : Request}
    {addr : SocketAddr} {c : Client} : Registers k past (.request now req addr) c ↔
      c = ⟨addr, now⟩ ∧ req.id = k ∧ (req.cmd = some .ping ∨
        ∃ isync, req.cmd = some (.isync isync) ∧ Registered past isync.id) := Iff.rfl

@[simp] theorem registers_gc {k : String} {past : List Event} {now next : Instant} {c : Client} :
    ¬Registers k past (.gc now next) c := id

@[simp] theorem clears_request {k : String} {now : Instant} {req : Request} {addr : SocketAddr}
    {c : Client} : Clears k (.request now req addr) c ↔ req.id = k ∧ req.cmd = some .bye := Iff.rfl

@[simp] theorem clears_gc {k : String} {now next : Instant} {c : Client} :
    Clears k (.gc now next) c ↔ c.lastPing ≤ now - fromSecs 60 := Iff.rfl

theorem registered_iff {hist : List Event} {k : String} :
    Registered hist k ↔ ∃ c, Entry hist k c := by
  rw [Registered]
  refine exists_congr fun c => Holds.congr fun past e c hpast => ?_
  simp [RegistersIf, Registers, hpast]

/-- One more event registers `k`, or leaves its entry alone, or clears it. -/
theorem entry_concat {hist : List Event} {e : Event} {k : String} {c : Client} :
    Entry (hist ++ [e]) k c ↔
      Registers k hist e c ∨ (∀ w, ¬Registers k hist e w) ∧ ¬Clears k e c ∧ Entry hist k c :=
  holds_concat

theorem not_entry_nil {k : String} {c : Client} : ¬Entry [] k c := fun h => not_latest_nil h.1

/-! ## The registry of the server -/

namespace Server

/-- What the server does at an event. -/
def apply (s : Server) : Event → Server
  | .request now req addr => (s.handleRequest now req addr).1
  | .gc now next => s.gc now next

/-- The server after the events. -/
def replay (s : Server) (hist : List Event) : Server := hist.foldl apply s

@[simp] theorem replay_concat (s : Server) (hist : List Event) (e : Event) :
    s.replay (hist ++ [e]) = (s.replay hist).apply e := by
  simp [replay]

/-- The clients are those the history tells of. -/
def Refines (s : Server) (hist : List Event) : Prop :=
  ∀ k c, s.clients k = some c ↔ Entry hist k c

variable {s : Server} {hist : List Event} {k : String} {c : Client}

theorem Refines.registered (h : Refines s hist) :
    Registered hist k ↔ ∃ c, s.clients k = some c := by
  rw [registered_iff]
  exact exists_congr fun c => (h k c).symm

theorem Refines.not_registered (h : Refines s hist) :
    ¬Registered hist k ↔ s.clients k = none := by
  rw [h.registered, Option.eq_none_iff_forall_ne_some]
  push Not
  rfl

/-- A client just registered has the entry the event gives it, all others keep theirs. -/
theorem touch_eq_some {now : Instant} {id : String} {addr : SocketAddr} :
    (s.touch now id addr).clients k = some c ↔
      c = ⟨addr, now⟩ ∧ id = k ∨ id ≠ k ∧ s.clients k = some c := by
  simp only [touch, update_apply]
  grind

theorem refines_request (h : Refines s hist) (now : Instant) (req : Request) (addr : SocketAddr) :
    Refines (s.handleRequest now req addr).1 (hist ++ [.request now req addr]) := by
  intro k c
  rw [entry_concat, ← h k c]
  simp only [registers_request, clears_request]
  unfold handleRequest
  split
  · rename_i cmd
    simp only [handlePing, touch_eq_some, cmd]
    grind
  · rename_i isync cmd
    simp only [cmd, h.registered]
    unfold handleIsync
    split
    · simp only [touch_eq_some]
      grind
    · grind
  · rename_i rsync cmd
    simp only [cmd]
    unfold handleRsync
    split <;> grind
  · rename_i cmd
    simp only [handleBye, update_apply, cmd]
    grind
  · rename_i fsync cmd
    simp [cmd]
  · rename_i cmd
    simp [cmd]

theorem refines_gc (h : Refines s hist) (now next : Instant) :
    Refines (s.gc now next) (hist ++ [.gc now next]) := by
  intro k c
  rw [entry_concat, ← h k c]
  simp only [registers_gc, clears_gc, gc, Option.filter_eq_some_iff, decide_eq_true_eq]
  grind

theorem refines_apply (h : Refines s hist) (e : Event) : Refines (s.apply e) (hist ++ [e]) := by
  cases e with
  | request now req addr => exact refines_request h now req addr
  | gc now next => exact refines_gc h now next

theorem refines_replay (now : Instant) (hist : List Event) :
    Refines ((new now).replay hist) hist := by
  induction hist using List.reverseRecOn with
  | nil => exact fun k c => iff_of_false (by simp [replay, new]) not_entry_nil
  | append_singleton hist e ih =>
    rw [replay_concat]
    exact refines_apply ih e

/-! ## The loop of the server -/

/-- The events of one turn. -/
def turnEvents (s : Server) (t : Turn) : List Event :=
  (match t.received with
    | some (req, addr) => [.request t.handledAt req addr]
    | none => []) ++
  if s.nextGc < t.checkedAt then [.gc t.gcAt t.gcDoneAt] else []

/-- The events of the turns. -/
def events (s : Server) : List Turn → List Event
  | [] => []
  | t :: ts => s.turnEvents t ++ (s.turn t).1.events ts

theorem nextGc_handleRequest (s : Server) (now : Instant) (req : Request) (addr : SocketAddr) :
    (s.handleRequest now req addr).1.nextGc = s.nextGc := by
  unfold handleRequest
  split
  · rfl
  · unfold handleIsync
    split <;> rfl
  · unfold handleRsync
    split <;> rfl
  all_goals rfl

theorem turn_eq_replay (s : Server) (t : Turn) : (s.turn t).1 = s.replay (s.turnEvents t) := by
  unfold turn turnEvents
  cases t.received with
  | none => by_cases hgc : s.nextGc < t.checkedAt <;> simp [hgc, replay, apply]
  | some received =>
    obtain ⟨req, addr⟩ := received
    by_cases hgc : s.nextGc < t.checkedAt <;>
      simp [hgc, replay, apply, nextGc_handleRequest]

/-- The loop does what its events say. -/
theorem run_eq_replay (s : Server) (ts : List Turn) : (s.run ts).1 = s.replay (s.events ts) := by
  induction ts generalizing s with
  | nil => rfl
  | cons t ts ih =>
    have happend : s.replay (s.turnEvents t ++ (s.turn t).1.events ts) =
        (s.turn t).1.replay ((s.turn t).1.events ts) := by
      rw [turn_eq_replay]
      exact List.foldl_append
    simp only [run, events, happend, ih]

/-- A turn sends what the server after the events of the turns before it answers. -/
theorem out_run_concat (s : Server) (ts : List Turn) (t : Turn) :
    (s.run (ts ++ [t])).2 = (s.run ts).2 ++ t.received.elim [] fun p =>
      ((s.replay (s.events ts)).handleRequest t.handledAt p.1 p.2).2 := by
  rw [run_concat, out_turn, run_eq_replay]

/-! ## Routing -/

/-- How a request is answered, given the history before it. -/
structure Routes (s : Server) (hist : List Event) (now : Instant) (req : Request)
    (addr : SocketAddr) : Prop where
  fsync : ∀ d ∈ (s.handleRequest now req addr).2, ∀ fsync, d.resp.cmd = some (.fsync fsync) →
    ∃ isync, req.cmd = some (.isync isync)
  isync : ∀ isync t, req.cmd = some (.isync isync) → Entry hist isync.id t →
    (s.handleRequest now req addr).2 =
      [sendResponse (.fsync { id := req.id, addr := addr.toString }) isync.id t.addr]
  isync_failed : ∀ isync, req.cmd = some (.isync isync) → ¬Registered hist isync.id →
    s.handleRequest now req addr = (s, [sendResponse (.redirect ⟨isync.id, ""⟩) req.id addr])
  rsync : ∀ rsync t, req.cmd = some (.rsync rsync) → Entry hist rsync.id t →
    (s.handleRequest now req addr).2 =
      [sendResponse (.redirect ⟨req.id, addr.toString⟩) rsync.id t.addr]
  rsync_failed : ∀ rsync, req.cmd = some (.rsync rsync) → ¬Registered hist rsync.id →
    s.handleRequest now req addr = (s, [])

theorem routes (h : Refines s hist) (now : Instant) (req : Request) (addr : SocketAddr) :
    Routes s hist now req addr := by
  constructor
  · intro d hd fsync hfsync
    unfold handleRequest at hd
    split at hd
    · obtain rfl := List.mem_singleton.mp hd
      cases hfsync
    · rename_i isync cmd
      exact ⟨isync, cmd⟩
    · unfold handleRsync at hd
      split at hd
      · obtain rfl := List.mem_singleton.mp hd
        cases hfsync
      · cases hd
    all_goals cases hd
  · intro isync t cmd entry
    have ht := (h isync.id t).mpr entry
    simp [handleRequest, cmd, handleIsync, ht]
  · intro isync cmd missing
    have hnone := h.not_registered.mp missing
    simp [handleRequest, cmd, handleIsync, hnone]
  · intro rsync t cmd entry
    have ht := (h rsync.id t).mpr entry
    simp [handleRequest, cmd, handleRsync, ht]
  · intro rsync cmd missing
    have hnone := h.not_registered.mp missing
    simp [handleRequest, cmd, handleRsync, hnone]

/-- The registry and the routing of the server equal those its history tells of, and what a turn
of the loop sends is the answer to the request received, after the events of the turns before. -/
theorem registry_eq_history (start : Instant) :
    (∀ ts, ((new start).run ts).1 = (new start).replay ((new start).events ts)) ∧
    (∀ ts t, ((new start).run (ts ++ [t])).2 = ((new start).run ts).2 ++
      t.received.elim [] fun p => (((new start).replay ((new start).events ts)).handleRequest
        t.handledAt p.1 p.2).2) ∧
    ∀ hist, (∀ k c, ((new start).replay hist).clients k = some c ↔
        Latest (Registers k) hist c ∧ Kept (Registers k) (Clears k) hist c) ∧
      ∀ now req addr, Routes ((new start).replay hist) hist now req addr := by
  refine ⟨run_eq_replay (new start), out_run_concat (new start), fun hist => ⟨?_, ?_⟩⟩
  · exact refines_replay start hist
  · exact routes (refines_replay start hist)

/-- An `Isync` to oneself: the `Fsync` goes to the address of the `Ping`, the entry has that
of the `Isync` from then on. -/
example (a b : SocketAddr) : let s := ((new 0).replay [.request 1 ⟨"x", some .ping⟩ a])
    (s.handleRequest 2 ⟨"x", some (.isync ⟨"x"⟩)⟩ b).2.map Datagram.addr = [a] ∧
    (s.handleRequest 2 ⟨"x", some (.isync ⟨"x"⟩)⟩ b).1.clients "x" = some ⟨b, 2⟩ := by
  simp [replay, apply, handleRequest, handlePing, handleIsync, touch, sendResponse]

end Server

end Rndz.Udp
