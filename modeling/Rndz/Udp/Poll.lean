import Mathlib.Data.List.Basic
import Mathlib.Tactic.Common

/-!
# Polling the sockets

`util::poll_sockets` polls the descriptors of the servers that have not failed and puts what
it is told back to the places of their sockets. A descriptor is named by the place of its
socket.
-/
namespace Rndz.Udp

/-- `PollFlags`, a `c_short` -/
abbrev PollFlags := BitVec 16

namespace PollFlags

/-- `PollFlags::POLLIN` -/
def pollin : PollFlags := 0x001#16

def contains (flags other : PollFlags) : Bool := flags &&& other == other

end PollFlags

inductive PollError where
  | io
  | outOfRange
  deriving DecidableEq, Repr

/-- What `poll` returns: the number of descriptors with events, and `revents` of each
descriptor, which is `none` on flags that are not known. -/
inductive Polled where
  | ok (n : Nat) (revents : List (Option PollFlags))
  | err
  deriving DecidableEq, Repr

/-- The descriptors of the servers that have not failed. -/
def pollFds (failedServers : List Bool) : List Nat :=
  (failedServers.zipIdx.filter fun p => !p.1).map Prod.snd

/-- The loop over the sockets, with `poll_idx`. -/
def readySockets (revents : List (Option PollFlags)) :
    List Bool → Nat → Except PollError (List Bool)
  | [], _ => .ok []
  | true :: failed, pollIdx => (readySockets revents failed pollIdx).map (false :: ·)
  | false :: failed, pollIdx =>
    match revents[pollIdx]? with
    | some events =>
      (readySockets revents failed (pollIdx + 1)).map (events.any (·.contains .pollin) :: ·)
    | none => .error .outOfRange

/-- `poll_sockets` -/
def pollSockets (poll : List Nat → Polled) (failedServers : List Bool) :
    Except PollError (List Bool) :=
  if pollFds failedServers = [] then
    .ok (List.replicate failedServers.length false)
  else
    match poll (pollFds failedServers) with
    | .ok n revents =>
      if 0 < n then readySockets revents failedServers 0
      else .ok (List.replicate failedServers.length false)
    | .err => .error .io

/-- The kernel's `poll`: an error, or the events of the descriptors. -/
def kernelPoll (events : Option (Nat → PollFlags)) (fds : List Nat) : Polled :=
  match events with
  | some events => .ok (fds.countP fun i => events i != 0#16) (fds.map fun i => some (events i))
  | none => .err

/-- The sockets that are not failed and that can be read. -/
def readyOf (events : Nat → PollFlags) (failedServers : List Bool) : List Bool :=
  failedServers.zipIdx.map fun p => !p.1 && (events p.2).contains .pollin

theorem readySockets_kernel (events : Nat → PollFlags) (pre : List (Option PollFlags))
    (failed : List Bool) (i : Nat) :
    readySockets
        (pre ++ ((failed.zipIdx i).filter fun p => !p.1).map fun p => some (events p.2))
        failed pre.length =
      .ok ((failed.zipIdx i).map fun p => !p.1 && (events p.2).contains .pollin) := by
  induction failed generalizing pre i with
  | nil => rfl
  | cons f failed ih =>
    cases f with
    | true =>
      have := ih pre (i + 1)
      simp [List.zipIdx_cons, readySockets, this, Except.map]
    | false =>
      have := ih (pre ++ [some (events i)]) (i + 1)
      simp only [List.append_assoc, List.singleton_append, List.length_append,
        List.length_singleton] at this
      simp [List.zipIdx_cons, readySockets, this, Except.map]

/-- No event means that no socket can be read. -/
theorem not_readable_of_count {events : Nat → PollFlags} {fds : List Nat}
    (quiet : (fds.countP fun i => events i != 0#16) = 0) {i : Nat} (hi : i ∈ fds) :
    (events i).contains .pollin = false := by
  have none := List.countP_eq_zero.mp quiet i hi
  have zero : events i = 0#16 := by simpa using none
  rw [zero]
  rfl

theorem mem_pollFds {failed : List Bool} {i : Nat} :
    i ∈ pollFds failed ↔ failed[i]? = some false := by
  simp [pollFds, List.mem_zipIdx_iff_getElem?]

theorem readyOf_quiet {events : Nat → PollFlags} {failed : List Bool}
    (quiet : ∀ i ∈ pollFds failed, (events i).contains .pollin = false) :
    readyOf events failed = List.replicate failed.length false := by
  have length : (readyOf events failed).length = failed.length := by simp [readyOf]
  refine List.eq_replicate_iff.mpr ⟨length, fun b hb => ?_⟩
  obtain ⟨⟨f, i⟩, hmem, rfl⟩ := List.mem_map.mp hb
  cases f with
  | true => rfl
  | false =>
    have here : failed[i]? = some false := List.mem_zipIdx_iff_getElem?.mp hmem
    simp [quiet i (mem_pollFds.mpr here)]

/-- `poll_sockets` tells which sockets can be read among those that have not failed. -/
theorem pollSockets_kernel (events : Nat → PollFlags) (failed : List Bool) :
    pollSockets (kernelPoll (some events)) failed = .ok (readyOf events failed) := by
  unfold pollSockets
  split
  · rename_i none
    rw [readyOf_quiet]
    simp [none]
  · simp only [kernelPoll]
    split
    · have := readySockets_kernel events [] failed 0
      simpa [pollFds, readyOf, Function.comp_def] using this
    · rename_i quiet
      have zero : ((pollFds failed).countP fun i => events i != 0#16) = 0 := by omega
      rw [readyOf_quiet]
      intro i hi
      exact not_readable_of_count zero hi

theorem pollSockets_err {failed : List Bool} :
    pollSockets (kernelPoll none) failed =
      if pollFds failed = [] then .ok (List.replicate failed.length false) else .error .io := rfl

theorem readyOf_eq_some_true {events : Nat → PollFlags} {failed : List Bool} {i : Nat} :
    (readyOf events failed)[i]? = some true ↔
      failed[i]? = some false ∧ (events i).contains .pollin = true := by
  cases hi : failed[i]? <;> simp [readyOf, hi]

/-- A socket is ready if it has not failed and can be read. -/
theorem pollSockets_ok {events : Option (Nat → PollFlags)} {failed ready : List Bool} {i : Nat}
    (h : pollSockets (kernelPoll events) failed = .ok ready) :
    ready[i]? = some true ↔ failed[i]? = some false ∧
      events.any (fun events => (events i).contains .pollin) = true := by
  cases events with
  | none =>
    rw [pollSockets_err] at h
    split at h
    · cases h
      simp [List.getElem?_replicate]
    · cases h
  | some events =>
    rw [pollSockets_kernel] at h
    cases h
    simpa using readyOf_eq_some_true

theorem pollSockets_error {events : Option (Nat → PollFlags)} {failed : List Bool} {e : PollError}
    (h : pollSockets (kernelPoll events) failed = .error e) : events = none := by
  cases events with
  | none => rfl
  | some events => simp [pollSockets_kernel] at h

theorem some_false_iff {failed : List Bool} {i : Nat} :
    failed[i]? = some false ↔ i < failed.length ∧ ¬failed[i]? = some true := by
  by_cases hi : i < failed.length
  · simp [hi]
  · simp [hi]

theorem exists_left {failed : List Bool} (h : failed.all (·) = false) :
    ∃ i : Nat, failed[i]? = some false := by
  obtain ⟨b, hb, hfalse⟩ := List.all_eq_false.mp h
  obtain ⟨i, hi⟩ := List.mem_iff_getElem?.mp hb
  have hb : b = false := by simpa using hfalse
  exact ⟨i, hi.trans (congrArg some hb)⟩

/-- A poll that fails is noticed as long as some server has not failed. -/
theorem pollSockets_fails {failed : List Bool} (h : failed.all (·) = false) :
    pollSockets (kernelPoll none) failed = .error .io := by
  obtain ⟨i, hi⟩ := exists_left h
  have nonempty : pollFds failed ≠ [] := List.ne_nil_of_mem (mem_pollFds.mpr hi)
  rw [pollSockets_err, if_neg nonempty]

end Rndz.Udp
