import Rndz.Tcp.Forward
import Rndz.Tcp.Rendezvous

/-!
# What our own clients spare the server

A foreign client may register under several ids, and then an `Rsync` may be passed on more than
once, and the registry may keep an entry of a connection that has ended. Our own clients never do.
-/
namespace Rndz.Tcp.Rendezvous.State

open Net Proto Transition

variable {p : Parties} {s t : State} {a : Action} {b : Tcp.Action} {c : Nat}
  {tr : List (State × Action)}

/-- A handler that is about to register does so under the id of its client. -/
theorem id_of_inserting (run : Run p tr s) {id : String} {next : Handler}
    (inserts : s.server.inserting c = some (id, next)) :
    ∃ e, s.peer c = some e ∧ p.id e.party = id := by
  obtain ⟨_, server⟩ := server_run run
  obtain ⟨req, sent, rfl⟩ := (Tcp.State.provenance server).of_inserting inserts
  obtain ⟨e, peer, frame⟩ := frame_of_sent run sent
  exact ⟨e, peer, frame.id_eq.symm⟩

/-- No client uses two ids. -/
theorem oneId (run : Run p tr s) (b : Tcp.Action) : s.server.OneId b := by
  rintro c - ⟨id, next⟩ inserts k inserted
  obtain ⟨e, peer, rfl⟩ := id_of_inserting run inserts
  obtain ⟨e', peer', rfl⟩ := id_of_inserted run inserted
  obtain rfl := Option.some.inj (peer.symm.trans peer')
  rfl

theorem server_run_oneId (run : Run p tr s) :
    ∃ tr', Tcp.Run tr' s.server ∧ Steps Tcp.State.OneId tr' := by
  refine run.project_steps server fun tr s a t run h => ?_
  exact (server_step h).imp_right fun ⟨b, step, _⟩ => ⟨b, oneId run b, step⟩

theorem forwardedOnce_of_run (run : Run p tr s) : s.server.ForwardedOnce := by
  obtain ⟨tr', server, hC⟩ := server_run_oneId run
  refine server.invariant_of_steps (Q := fun s => ∃ tr, Tcp.Run tr s)
    (Tcp.State.addressed_of_oneId server hC) (fun tr _ run => ⟨tr, run⟩) ?_
    fun s a t ⟨_, run⟩ ih hc step => Tcp.State.forwardedOnce_step run ih hc step
  constructor <;> simp [Tcp.State.init, Handler.outgoing]

/-! ## The registry -/

def fails : Action → Bool
  | .server (.sockFail _) => true
  | _ => false

/-- No operation on a socket of the server fails. -/
def Sturdy (_ : State) (a : Action) : Prop := fails a = false

instance (s : State) (a : Action) : Decidable (Sturdy s a) := inferInstanceAs (Decidable (_ = _))

/-- What a server keeps to whose sockets do not fail. -/
structure Tidy (s : Tcp.State) : Prop where
  sock : ∀ c, s.sockOk c = true
  unpoisoned : s.Unpoisoned
  one : s.OneEntry

/-- Nothing panics. -/
theorem Tidy.panicking {s : Tcp.State} (tidy : Tidy s) (b : Tcp.Action) : s.panicking b = none := by
  have sound : s.peers.poisoned = false := tidy.unpoisoned
  cases b with
  | handler c =>
    have calm : s.fsyncPanics c = false := by
      unfold Tcp.State.fsyncPanics
      simp only [tidy.sock, Bool.not_true, Bool.and_false]
      split
      · split <;> rfl
      · rfl
    simp [Tcp.State.panicking, sound, calm]
  | cleanup c => simp [Tcp.State.panicking, sound]
  | _ => rfl

theorem keepsOneEntry (run : Run p tr s) (tidy : Tidy s.server) (b : Tcp.Action) :
    s.server.KeepsOneEntry b := by
  refine ⟨?_, by simp [tidy.panicking]⟩
  rintro c - ⟨id, next⟩ inserts other owns
  obtain ⟨_, server⟩ := server_run run
  obtain ⟨entry, found, rfl⟩ := Tcp.State.owns_iff.mp owns
  have last := (Tcp.State.registryInv server).last _ entry found
  obtain ⟨e, peer, rfl⟩ := id_of_inserting run inserts
  obtain ⟨e', peer', same⟩ := id_of_inserted run (Tcp.mem_of_lastInsert last)
  obtain rfl := Option.some.inj (peer.symm.trans peer')
  exact other same

theorem sockOk_step {x y : Tcp.State} (rule : Tcp.State.Rule x b y) (sturdy : ∀ c, b ≠ .sockFail c)
    (sock : ∀ c, x.sockOk c = true) (c : Nat) : y.sockOk c = true := by
  cases rule with
  | accept addr =>
    by_cases hc : c = x.count + 1
    · simp [hc]
    · simpa [hc] using sock c
  | @sockFail d => exact absurd rfl (sturdy d)
  | _ => exact sock c

theorem tidy_step (run : Run p tr s) (tidy : Tidy s.server) (sturdy : Sturdy s a)
    (h : s.step p a = some t) : Tidy t.server := by
  rcases server_step h with same | ⟨b, step, how⟩
  · rwa [same]
  · obtain ⟨_, server⟩ := server_run run
    have fresh := Tcp.State.fresh server
    have inv := Tcp.State.registryInv server
    have known : s.server.PeerAddrKnown b := fun c _ call _ => .inr (tidy.sock c)
    have sturdy : ∀ c, b ≠ .sockFail c := by
      rintro c rfl
      rcases how with rfl | ⟨addr, how⟩ | ⟨d, req, how⟩
      · cases sturdy
      · cases how
      · cases how
    exact ⟨sockOk_step (Tcp.State.rule_of_step step) sturdy tidy.sock,
      Tcp.State.unpoisoned_step fresh tidy.unpoisoned known step,
      Tcp.State.oneEntry_step inv fresh tidy.one (keepsOneEntry run tidy b) step⟩

theorem tidy_of_run (run : Run p tr s) (sturdy : Steps Sturdy tr) : Tidy s.server := by
  refine run.invariant_of_steps (P := fun s => Tidy s.server) (Q := fun s => ∃ tr, Run p tr s)
    sturdy (fun tr _ run => ⟨tr, run⟩) ?_
    fun s a t ⟨_, run⟩ tidy sturdy h => tidy_step run tidy sturdy h
  exact ⟨fun _ => rfl, rfl, by simp [Tcp.State.OneEntry, Tcp.State.Owns, init, Tcp.State.init]⟩

/-- With our own clients, an `Rsync` is passed on once at most, and as long as no socket fails the
mutex stays sound and the registry holds no entry of a connection that has ended. -/
theorem clients_do_no_harm (run : Run p tr s) : s.server.ForwardedOnce ∧
    (Steps Sturdy tr → s.server.Unpoisoned ∧ s.server.NoStale) := by
  refine ⟨forwardedOnce_of_run run, fun sturdy => ?_⟩
  have tidy := tidy_of_run run sturdy
  obtain ⟨_, server⟩ := server_run run
  have inv := Tcp.State.registryInv server
  refine ⟨tidy.unpoisoned, fun c ended k entry found => ?_⟩
  have other : entry.id ≠ c := fun owner =>
    (tidy.one k c (Tcp.State.owns_iff.mpr ⟨entry, found, owner⟩)).2 ended
  have slot : entry.reqTx = entry.id := congrArg PeerState.reqTx (inv.entry k entry found)
  exact ⟨other, slot ▸ other⟩

/-- The registry after `meeting`. -/
theorem no_harm_in_meeting : ∃ tr s, Run twoParties tr s ∧ s.server.peers.get "x" ≠ none ∧
    s.server.ForwardedOnce ∧ s.server.Unpoisoned ∧ s.server.NoStale := by
  have script : (exec (State.step twoParties) Sturdy (init twoParties) meeting).any
      (fun s => (s.server.peers.get "x").isSome) = true := by decide +kernel
  obtain ⟨tr, s, run, sturdy, h⟩ := run_of_exec script
  obtain ⟨once, tidy⟩ := clients_do_no_harm run
  obtain ⟨sound, noStale⟩ := tidy sturdy
  exact ⟨tr, s, run, Option.isSome_iff_ne_none.mp h, once, sound, noStale⟩

end Rndz.Tcp.Rendezvous.State
