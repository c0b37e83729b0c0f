import Rndz.Udp.Registry

/-!
# What the UDP server sends, and to whom

A response answers the request that has just been received, and it goes to an address from which
the server has received a request under the id in the response: to the sender, or to the address
that a registered client was last heard from. So the server sends nothing of its own accord, and
nothing to anyone who has not written to it.
-/
namespace Rndz.Udp

open Net Proto

/-- The response answers the request, which has been received from `addr`. -/
inductive Answers (req : Request) (addr : SocketAddr) : Response → Prop where
  | pong (cmd : req.cmd = some .ping) : Answers req addr ⟨req.id, some .pong⟩
  | fsync {isync : Isync} (cmd : req.cmd = some (.isync isync)) :
      Answers req addr ⟨isync.id, some (.fsync { id := req.id, addr := addr.toString })⟩
  | missing {isync : Isync} (cmd : req.cmd = some (.isync isync)) :
      Answers req addr ⟨req.id, some (.redirect ⟨isync.id, ""⟩)⟩
  | reply {rsync : Rsync} (cmd : req.cmd = some (.rsync rsync)) :
      Answers req addr ⟨rsync.id, some (.redirect ⟨req.id, addr.toString⟩)⟩

variable {req : Request} {addr : SocketAddr} {id : String}

/-- An `Fsync` is sent for an `Isync`. -/
theorem Answers.of_fsync {fsync : Fsync} (h : Answers req addr ⟨id, some (.fsync fsync)⟩) :
    req = ⟨fsync.id, some (.isync ⟨id⟩)⟩ ∧ fsync.addr = addr.toString := by
  obtain ⟨src, cmd⟩ := req
  cases h with
  | fsync hcmd => exact ⟨congrArg (Request.mk src) hcmd, rfl⟩

/-- A `Redirect` is sent for an `Isync` or for an `Rsync`. -/
theorem Answers.of_redirect {rdr : Redirect} (h : Answers req addr ⟨id, some (.redirect rdr)⟩) :
    req = ⟨id, some (.isync ⟨rdr.id⟩)⟩ ∧ rdr.addr = "" ∨
      ∃ rsync, req = ⟨rdr.id, some (.rsync rsync)⟩ ∧ rsync.id = id ∧
        rdr.addr = addr.toString := by
  obtain ⟨src, cmd⟩ := req
  cases h with
  | missing hcmd => exact .inl ⟨congrArg (Request.mk src) hcmd, rfl⟩
  | @reply rsync hcmd => exact .inr ⟨rsync, congrArg (Request.mk src) hcmd, rfl, rfl⟩

namespace Server

variable {s : Server} {now : Instant} {c : Client} {d : Datagram}

/-- The address is the sender's, or that of the client with the id in the response. -/
def Reaches (s : Server) (req : Request) (addr : SocketAddr) (d : Datagram) : Prop :=
  d.resp.id = req.id ∧ d.addr = addr ∨ ∃ c, s.clients d.resp.id = some c ∧ d.addr = c.addr

/-- At most one response is sent. -/
theorem answers_handleRequest (hd : d ∈ (s.handleRequest now req addr).2) :
    (s.handleRequest now req addr).2 = [d] ∧ Answers req addr d.resp ∧ s.Reaches req addr d := by
  unfold handleRequest at hd ⊢
  split at hd
  · rename_i cmd
    obtain rfl := List.mem_singleton.mp hd
    exact ⟨rfl, .pong cmd, .inl ⟨rfl, rfl⟩⟩
  · rename_i isync cmd
    unfold handleIsync at hd
    split at hd
    · rename_i target found
      obtain rfl := List.mem_singleton.mp hd
      exact ⟨by simp [handleIsync, found], .fsync cmd, .inr ⟨target, found, rfl⟩⟩
    · rename_i missing
      obtain rfl := List.mem_singleton.mp hd
      exact ⟨by simp [handleIsync, missing], .missing cmd, .inl ⟨rfl, rfl⟩⟩
  · rename_i rsync cmd
    unfold handleRsync at hd
    split at hd
    · rename_i source found
      obtain rfl := List.mem_singleton.mp hd
      exact ⟨by simp [handleRsync, found], .reply cmd, .inr ⟨source, found, rfl⟩⟩
    · cases hd
  all_goals cases hd

/-- A request leaves an entry alone, or gives it the address it has come from. -/
theorem clients_handleRequest (h : (s.handleRequest now req addr).1.clients id = some c) :
    s.clients id = some c ∨ req.id = id ∧ c = ⟨addr, now⟩ := by
  unfold handleRequest at h
  split at h
  · rcases touch_eq_some.mp h with ⟨hc, hid⟩ | ⟨-, old⟩
    · exact .inr ⟨hid, hc⟩
    · exact .inl old
  · unfold handleIsync at h
    split at h
    · rcases touch_eq_some.mp h with ⟨hc, hid⟩ | ⟨-, old⟩
      · exact .inr ⟨hid, hc⟩
      · exact .inl old
    · exact .inl h
  · unfold handleRsync at h
    split at h <;> exact .inl h
  · simp only [handleBye, Function.update_apply] at h
    split at h
    · cases h
    · exact .inl h
  all_goals exact .inl h

/-- Some turn has received a request under `id` from `addr`. -/
def Heard (ts : List Turn) (id : String) (addr : SocketAddr) : Prop :=
  ∃ t ∈ ts, ∃ req, t.received = some (req, addr) ∧ req.id = id

theorem Heard.mono {ts ts' : List Turn} (h : Heard ts id addr) (sub : ts ⊆ ts') :
    Heard ts' id addr := by
  obtain ⟨t, ht, hreceived⟩ := h
  exact ⟨t, sub ht, hreceived⟩

theorem clients_turn {t : Turn} (h : (s.turn t).1.clients id = some c) :
    s.clients id = some c ∨ Heard [t] id c.addr := by
  have kept : ∀ s' : Server, (if s'.nextGc < t.checkedAt then s'.gc t.gcAt t.gcDoneAt
      else s').clients id = some c → s'.clients id = some c := by
    intro s' h
    split at h
    · exact (Option.filter_eq_some_iff.mp h).1
    · exact h
  unfold turn at h
  cases hr : t.received with
  | none =>
    rw [hr] at h
    simp only [apply_ite Prod.fst] at h
    exact .inl (kept s h)
  | some received =>
    rw [hr] at h
    simp only [apply_ite Prod.fst] at h
    rcases clients_handleRequest (kept _ h) with old | ⟨hid, rfl⟩
    · exact .inl old
    · exact .inr ⟨t, List.mem_singleton_self t, received.1, hr, hid⟩

/-- Every client has been heard from at its address, under its id. -/
theorem heard_of_clients (start : Instant) (ts : List Turn)
    (h : ((new start).run ts).1.clients id = some c) : Heard ts id c.addr := by
  induction ts using List.reverseRecOn with
  | nil => cases h
  | append_singleton ts t ih =>
    rw [run_concat] at h
    rcases clients_turn h with old | new
    · exact (ih old).mono (List.subset_append_left _ _)
    · exact new.mono (List.subset_append_right _ _)

/-- What is sent in a turn: one response at most, to the request just received, and to where a
request under its id has come from. -/
structure SendsToHeard (past : List Turn) (t : Turn) (out : List Datagram) (d : Datagram) :
    Prop where
  single : out = [d]
  answers : ∃ req addr, t.received = some (req, addr) ∧ Answers req addr d.resp
  heard : Heard (past ++ [t]) d.resp.id d.addr

/-- The server is no reflector: along every run it sends no more than it receives, and only to
those who have written to it, under the id they have used. -/
theorem no_reflection (start : Instant) (ts : List Turn) :
    ((new start).run ts).2.length ≤ ts.countP (·.received.isSome) ∧
      ∀ past t rest, ts = past ++ t :: rest →
        ∀ d ∈ (((new start).run past).1.turn t).2,
          SendsToHeard past t (((new start).run past).1.turn t).2 d := by
  have sends : ∀ past t, ∀ d ∈ (((new start).run past).1.turn t).2,
      SendsToHeard past t (((new start).run past).1.turn t).2 d := by
    intro past t d hd
    rw [out_turn] at hd ⊢
    cases hr : t.received with
    | none => simp [hr] at hd
    | some received =>
      obtain ⟨req, addr⟩ := received
      rw [hr, Option.elim_some] at hd
      obtain ⟨single, answers, reaches⟩ := answers_handleRequest hd
      refine ⟨by rw [Option.elim_some, single], ⟨req, addr, hr, answers⟩, ?_⟩
      rcases reaches with ⟨hid, haddr⟩ | ⟨c, hc, haddr⟩
      · exact ⟨t, by simp, req, by rw [haddr, hr], hid.symm⟩
      · rw [haddr]
        exact (heard_of_clients start past hc).mono (List.subset_append_left _ _)
  refine ⟨?_, fun past t _ _ => sends past t⟩
  induction ts using List.reverseRecOn with
  | nil => simp [run]
  | append_singleton ts t ih =>
    have last : (((new start).run ts).1.turn t).2.length ≤ [t].countP (·.received.isSome) := by
      cases hout : (((new start).run ts).1.turn t).2 with
      | nil => simp
      | cons d rest =>
        obtain ⟨single, ⟨req, addr, hr, -⟩, -⟩ := sends ts t d (by simp [hout])
        simp [← hout, single, hr]
    rw [run_concat, List.length_append, List.countP_append]
    omega

end Server

end Rndz.Udp
