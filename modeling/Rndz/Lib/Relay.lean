import Mathlib.Data.List.Basic
import Mathlib.Tactic.Common

/-!
# A relay with a heartbeat

One loop takes messages in and puts each into a queue, another takes them out of the queue and
passes them on. Whenever the second loop has nothing in hand, it may pass on a beat of its own
instead, and each loop may stop at any time, the second one with the queue. Besides beats,
what is passed on is what was taken in, in order, and nothing is lost while both loops run.
-/
namespace Relay

variable {μ : Type*}

/-- What a loop has in hand, unless it has stopped. -/
inductive Loop (μ : Type*) where
  | idle
  | busy (m : μ)
  | stopped

def Loop.hand : Loop μ → List μ
  | .busy m => [m]
  | _ => []

@[simp] theorem Loop.hand_idle : (idle : Loop μ).hand = [] := rfl
@[simp] theorem Loop.hand_busy (m : μ) : (busy m).hand = [m] := rfl
@[simp] theorem Loop.hand_stopped : (stopped : Loop μ).hand = [] := rfl

/-- `received` and `written` are history: all that was taken in, and all that was passed on. -/
structure State (μ : Type*) where
  received : List μ
  reader : Loop μ
  queue : List μ
  writer : Loop μ
  written : List μ

/-- At the start the queue holds a beat. -/
def State.start (beat : μ) : State μ := ⟨[], .idle, [beat], .idle, []⟩

/-- What the relay can do. A message that it refuses stops the reader. -/
inductive Step (beat : μ) (s : State μ) : State μ → Prop where
  | read {m : μ} (idle : s.reader = .idle) (other : m ≠ beat) :
      Step beat s { s with received := s.received ++ [m], reader := .busy m }
  | refuse {m : μ} (idle : s.reader = .idle) :
      Step beat s { s with received := s.received ++ [m], reader := .stopped }
  | push {m : μ} (busy : s.reader = .busy m) (receives : s.writer ≠ .stopped) :
      Step beat s { s with reader := .idle, queue := s.queue ++ [m] }
  | stopReader : Step beat s { s with reader := .stopped }
  | pop {m : μ} {rest : List μ} (idle : s.writer = .idle) (items : s.queue = m :: rest) :
      Step beat s { s with queue := rest, writer := .busy m }
  | beat (idle : s.writer = .idle) : Step beat s { s with writer := .busy beat }
  | write {m : μ} (busy : s.writer = .busy m) :
      Step beat s { s with writer := .idle, written := s.written ++ [m] }
  | stopWriter : Step beat s { s with queue := [], writer := .stopped }

/-- The messages that have left the hands of the reader. -/
def State.passed (s : State μ) : List μ := s.written ++ s.writer.hand ++ s.queue

variable [DecidableEq μ] {beat : μ} {s t : State μ}

/-- The messages that are no beats. -/
def proper (beat : μ) (ms : List μ) : List μ := ms.filter (· ≠ beat)

@[simp] theorem proper_append (xs ys : List μ) :
    proper beat (xs ++ ys) = proper beat xs ++ proper beat ys := List.filter_append xs ys

@[simp] theorem proper_nil : proper beat [] = [] := rfl

@[simp] theorem proper_beat : proper beat [beat] = [] := by simp [proper]

theorem proper_singleton {m : μ} (other : m ≠ beat) : proper beat [m] = [m] := by
  simp [proper, other]

/-- The proper messages are passed on in order, all of them as long as both loops run, and a
beat comes first. -/
structure Inv (beat : μ) (s : State μ) : Prop where
  inOrder : proper beat s.passed <+: s.received
  complete : s.reader ≠ .stopped → s.writer ≠ .stopped →
    proper beat (s.passed ++ s.reader.hand) = s.received
  first : ∀ m, s.passed.head? = some m → m = beat
  nonempty : s.writer ≠ .stopped → s.passed ≠ []

theorem inv_start (beat : μ) : Inv beat (.start beat) := by
  constructor <;> simp [State.start, State.passed]

theorem Inv.step (inv : Inv beat s) (h : Step beat s t) : Inv beat t := by
  obtain ⟨inOrder, complete, first, nonempty⟩ := inv
  cases h with
  | @read m idle other =>
    refine ⟨inOrder.trans (List.prefix_append _ _), fun _ running => ?_, first, nonempty⟩
    have complete := complete (by simp [idle]) running
    rw [idle, Loop.hand_idle, List.append_nil] at complete
    have hpassed : State.passed { s with received := s.received ++ [m], reader := .busy m } =
        s.passed := rfl
    rw [hpassed, Loop.hand_busy, proper_append, complete, proper_singleton other]
  | refuse idle =>
    exact ⟨inOrder.trans (List.prefix_append _ _), fun h => absurd rfl h, first, nonempty⟩
  | @push m busy receives =>
    have complete := complete (by simp [busy]) receives
    have hpassed : State.passed { s with reader := .idle, queue := s.queue ++ [m] } =
        s.passed ++ s.reader.hand := by simp [State.passed, busy]
    have nonempty := nonempty receives
    refine ⟨?_, fun _ _ => ?_, fun x hx => ?_, fun _ => ?_⟩
    · rw [hpassed]
      exact complete ▸ List.prefix_rfl
    · rw [hpassed, Loop.hand_idle, List.append_nil]
      exact complete
    · rw [hpassed, List.head?_append_of_ne_nil _ nonempty] at hx
      exact first x hx
    · rw [hpassed]
      exact List.append_ne_nil_of_left_ne_nil nonempty _
  | stopReader => exact ⟨inOrder, fun h => absurd rfl h, first, nonempty⟩
  | @pop m rest idle items =>
    have hpassed : State.passed { s with queue := rest, writer := .busy m } = s.passed := by
      simp [State.passed, idle, items]
    refine ⟨hpassed ▸ inOrder, fun running _ => ?_, hpassed ▸ first, fun _ => ?_⟩
    · rw [hpassed]
      exact complete running (by simp [idle])
    · rw [hpassed]
      exact nonempty (by simp [idle])
  | beat idle =>
    have hpassed : s.passed = s.written ++ s.queue := by simp [State.passed, idle]
    have hproper : proper beat (State.passed { s with writer := .busy beat }) =
        proper beat s.passed := by
      rw [hpassed]
      simp [State.passed, proper]
    refine ⟨hproper ▸ inOrder, fun running _ => ?_, fun x hx => ?_, fun _ => by simp [State.passed]⟩
    · rw [proper_append, hproper, ← proper_append]
      exact complete running (by simp [idle])
    · rw [hpassed] at first
      cases hwritten : s.written with
      | nil => simpa [State.passed, hwritten, eq_comm] using hx
      | cons y ys => exact first x (by simpa [State.passed, hwritten] using hx)
  | @write m busy =>
    have hpassed : State.passed { s with writer := .idle, written := s.written ++ [m] } =
        s.passed := by simp [State.passed, busy]
    refine ⟨hpassed ▸ inOrder, fun running _ => ?_, hpassed ▸ first, fun _ => ?_⟩
    · rw [hpassed]
      exact complete running (by simp [busy])
    · rw [hpassed]
      exact nonempty (by simp [busy])
  | stopWriter =>
    have hpassed : State.passed { s with queue := [], writer := .stopped } = s.written := by
      simp [State.passed]
    refine ⟨?_, fun _ h => absurd rfl h, fun x hx => first x ?_, fun h => absurd rfl h⟩
    · rw [hpassed]
      refine List.IsPrefix.trans ?_ inOrder
      rw [State.passed, List.append_assoc, proper_append]
      exact List.prefix_append _ _
    · rw [hpassed] at hx
      simp [State.passed, hx]

/-- What has been written, besides beats, is a prefix of what was taken in. -/
theorem Inv.written_prefix (inv : Inv beat s) : proper beat s.written <+: s.received := by
  refine List.IsPrefix.trans ?_ inv.inOrder
  rw [State.passed, List.append_assoc, proper_append]
  exact List.prefix_append _ _

theorem Inv.first_written (inv : Inv beat s) {m : μ} (h : s.written.head? = some m) : m = beat :=
  inv.first m (by simp [State.passed, h])

end Relay
