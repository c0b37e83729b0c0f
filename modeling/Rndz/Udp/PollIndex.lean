import Rndz.Udp.Poll

/-!
# The indices of `poll_sockets`

`util::poll_sockets` as the code writes it, with a check at every index: into the mask of the
failed servers, into the descriptors polled, and into the vector that is returned. For a mask
of the right length it does what `pollSockets` does with the places of the sockets. A
descriptor and its socket may be of any type.
-/
namespace Rndz.Udp

variable {σ φ : Type} {fd : σ → φ} {poll : List φ → Polled} {sockets : List σ}
  {failedServers ready : List Bool} {revents : List (Option PollFlags)}

/-- The descriptors of the sockets at some places. -/
def descriptors (fd : σ → φ) (sockets : List σ) (places : List Nat) : List φ :=
  places.filterMap fun i => sockets[i]?.map fd

/-- `poll` succeeds and reports `POLLIN` for the descriptor of the socket at place `i`. -/
def ReportsPollin (fd : σ → φ) (poll : List φ → Polled) (sockets : List σ)
    (failedServers : List Bool) (i : Nat) : Prop :=
  ∃ n revents events, poll (descriptors fd sockets (pollFds failedServers)) = .ok n revents ∧
    (i, some events) ∈ (pollFds failedServers).zip revents ∧ events.contains .pollin = true

/-- The places of the servers that are not failed, the first of which has the place `i`. -/
def pollFdsFrom (failedServers : List Bool) (i : Nat) : List Nat :=
  ((failedServers.zipIdx i).filter fun p => !p.1).map Prod.snd

@[simp] theorem pollFdsFrom_true (i : Nat) :
    pollFdsFrom (true :: failedServers) i = pollFdsFrom failedServers (i + 1) := by
  simp [pollFdsFrom, List.zipIdx_cons]

theorem ReportsPollin.polled {i : Nat} (h : ReportsPollin fd poll sockets failedServers i) :
    failedServers[i]? = some false := by
  obtain ⟨n, revents, events, -, hmem, -⟩ := h
  exact mem_pollFds.mp (List.of_mem_zip hmem).1

end Rndz.Udp
