import Rndz.Tcp.Requests

/-!
# Causality of the TCP rendezvous

When all clients keep to the protocol (`Disciplined`), a `Redirect` with an address ends a
chain `Isync`, `Fsync`, `Rsync` between connections of the two ids, and both addresses
passed on are those the server accepted the connections from. The chain is read off the
history backwards, each link with the prefix that explains it.
-/
namespace Rndz.Tcp

open Net Proto Mpsc Transition

/-- How clients behave: a connection uses one non-empty id `idOf`, sends no `Fsync`, and
sends an `Rsync` only in reply to an `Fsync` naming the same id. -/
structure Disciplined (idOf : Nat → String) (log : List Event) : Prop where
  one_id : ∀ c req, .sent c req ∈ log → req.id = idOf c ∧ idOf c ≠ ""
  no_fsync : ∀ c req fsync, .sent c req ∈ log → req.cmd ≠ some (.fsync fsync)
  in_reply : ∀ p c req q rsync, log = p ++ .sent c req :: q → req.cmd = some (.rsync rsync) →
    ∃ fsync : Fsync, .wrote c (.fsync fsync) ∈ p ∧ fsync.id = rsync.id

section

variable {addr : Nat → SocketAddr} {log : List Event}

theorem Traced.rsync_sent {c : Nat} {src : String} {rsync : Rsync}
    (h : Traced addr log c ⟨src, some (.rsync rsync)⟩) :
    ∃ d, .sent d ⟨src, some (.rsync rsync)⟩ ∈ log := by
  cases h with
  | sent sent => exact ⟨c, sent⟩
  | rsync sent _ => exact ⟨_, sent⟩

/-- An `Fsync` that no client has sent is made from an `Isync`. -/
theorem Traced.fsync_sent {d : Nat} {id : String} {fsync : Fsync}
    (h : Traced addr log d ⟨id, some (.fsync fsync)⟩)
    (none : ∀ c req fsync, .sent c req ∈ log → req.cmd ≠ some (.fsync fsync)) :
    ∃ c isync, .sent c ⟨fsync.id, some (.isync isync)⟩ ∈ log ∧ .inserted d isync.id ∈ log ∧
      fsync.addr = (addr c).toString := by
  cases h with
  | sent sent => exact absurd rfl (none d _ fsync sent)
  | fsync sent target => exact ⟨_, _, sent, target, rfl⟩

end

theorem sublist_concat {α : Type*} {l p q : List α} {e : α} (h : l.Sublist p) :
    (l ++ [e]).Sublist (p ++ e :: q) :=
  h.append (List.singleton_sublist.mpr (by simp))

namespace State

variable {s : State} {tr : List (State × Action)} {idOf : Nat → String}

theorem idOf_of_inserted (run : Run tr s) (clients : Disciplined idOf s.log) {c : Nat} {k : String}
    (h : .inserted c k ∈ s.log) : idOf c = k := by
  obtain ⟨req, hreq, hid⟩ := (provenance run).inserted c k h
  rw [← hid, (clients.one_id c req hreq).1]

/-- Causality and address authenticity of a `Redirect`. -/
theorem redirect_causality (run : Run tr s) (clients : Disciplined idOf s.log)
    {p q : List Event} {c : Nat} {y a : String}
    (wrote : s.log = p ++ .wrote c (.redirect ⟨y, a⟩) :: q) (nonempty : a ≠ "") :
    (∃ d, .inserted d y ∈ p ∧ idOf d = y ∧ a = (s.addr d).toString) ∧
    ∃ (d e : Nat) (fsync : Fsync) (rsync : Rsync),
      idOf d = y ∧ idOf e = idOf c ∧ fsync.id = idOf c ∧ rsync.id = idOf c ∧
      fsync.addr = (s.addr e).toString ∧
      [.sent e ⟨idOf c, some (.isync ⟨y⟩)⟩, .wrote d (.fsync fsync),
        .sent d ⟨y, some (.rsync rsync)⟩].Sublist p := by
  have inv := provenance run
  have hp : p ⊆ s.log := by simp [wrote]
  have explained := inv.wrote p c _ q wrote
  generalize hrdr : Redirect.mk y a = rdr at explained
  cases explained with
  | missing sent =>
    obtain ⟨-, rfl⟩ := Redirect.mk.inj hrdr
    exact absurd rfl nonempty
  | @rsync d₁ src rsync req own source =>
    obtain ⟨rfl, rfl⟩ := Redirect.mk.inj hrdr
    refine ⟨⟨d₁, source, idOf_of_inserted run clients (hp source), rfl⟩, ?_⟩
    -- the `Rsync` answered, and before it the `Fsync` it replies to
    obtain ⟨d, hrsync⟩ := req.rsync_sent
    have hd : y = idOf d := (clients.one_id d _ (hp hrsync)).1
    obtain ⟨p₁, q₁, rfl⟩ := List.append_of_mem hrsync
    obtain ⟨fsync, hfsync, hid⟩ :=
      clients.in_reply p₁ d _ _ rsync (by rw [wrote, List.append_assoc]; rfl) rfl
    obtain ⟨p₂, q₂, rfl⟩ := List.append_of_mem hfsync
    -- before that the `Isync` the `Fsync` was made from
    have hp₂ : p₂ ⊆ s.log := fun e he => hp (by simp [he])
    have explained := inv.wrote p₂ d (.fsync fsync) _ (by rw [wrote]; simp; rfl)
    cases explained with
    | fsync req =>
      obtain ⟨e, isync, hisync, htarget, haddr⟩ :=
        req.fsync_sent fun c req fsync h => clients.no_fsync c req fsync (hp₂ h)
      obtain ⟨he, hne⟩ := clients.one_id e _ (hp₂ hisync)
      have hy : isync = ⟨y⟩ := by
        have : idOf d = isync.id := idOf_of_inserted run clients (hp₂ htarget)
        rw [hd, this]
      -- the handler that answers goes by the id the `Rsync` names
      have hc : rsync.id = idOf c := by
        rcases own with hempty | ⟨req, hreq, hreqid⟩
        · exact absurd (he.symm.trans (hid.trans hempty)) hne
        · rw [← hreqid, (clients.one_id c req (hp hreq)).1]
      have hfsyncid : fsync.id = idOf c := hid.trans hc
      refine ⟨d, e, fsync, rsync, hd.symm, he.symm.trans hfsyncid, hfsyncid, hc, haddr, ?_⟩
      rw [← hfsyncid, ← hy]
      exact sublist_concat (l := [_, _]) (sublist_concat (l := [_])
        (List.singleton_sublist.mpr hisync))

/-- Connection 1 registers as `y`, connection 2 asks for it as `x`, connection 1 replies. -/
def rendezvous : List Action :=
  arrive 2 ++ register 1 "y" ++ deliver 2 ⟨"x", some (.isync ⟨"y"⟩)⟩ ++ runHandler 2 4 ++
    runHandler 1 3 ++ deliver 1 ⟨"y", some (.rsync { id := "x" })⟩ ++ runHandler 1 3 ++
    runHandler 2 3

/-- What happens in `rendezvous` up to the `Redirect`. -/
def rendezvousLog : List Event :=
  let fsync : Fsync := { id := "x", addr := (host 2).toString }
  [.sent 1 ⟨"y", some .ping⟩, .inserted 1 "y", .wrote 1 .pong,
    .sent 2 ⟨"x", some (.isync ⟨"y"⟩)⟩, .placed 2 ⟨⟨"", some (.fsync fsync)⟩, some (2, 0), 1⟩ 1,
    .inserted 2 "x", .wrote 1 (.fsync fsync), .sent 1 ⟨"y", some (.rsync { id := "x" })⟩,
    .placed 1 ⟨⟨"y", some (.rsync { id := "x" })⟩, some (1, 1), 1⟩ 2]

/-- The connector of `rendezvous` is told the address of a connection registered as `y`. -/
theorem redirect_causality_of_rendezvous :
    ∃ tr s, Run tr s ∧ ∃ d, .inserted d "y" ∈ s.log ∧ (host 1).toString = (s.addr d).toString := by
  have script : (exec State.step (fun _ _ => True) init rendezvous).any (fun s =>
      s.log = rendezvousLog ++ [Event.wrote 2 (.redirect ⟨"y", (host 1).toString⟩)]) = true := by
    decide
  obtain ⟨tr, s, run, -, h⟩ := run_of_exec script
  have hlog : s.log = rendezvousLog ++ .wrote 2 (.redirect ⟨"y", (host 1).toString⟩) :: [] :=
    of_decide_eq_true h
  have clients : Disciplined (fun c => if c = 1 then "y" else "x") s.log := by
    constructor <;> rw [hlog, rendezvousLog]
    · simp
      grind
    · simp
      grind
    · intro p c req q rsync hp hcmd
      simp [List.cons_eq_append_iff] at hp
      grind
  obtain ⟨⟨d, hd, -, ha⟩, -⟩ := redirect_causality run clients hlog (by decide)
  exact ⟨tr, s, run, d, by simp [hlog, hd], ha⟩

end State

end Rndz.Tcp
