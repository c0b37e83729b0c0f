import Rndz.Tcp.Isync
import Rndz.Tcp.Keepalive

/-!
# A TCP listener stays registered

The handler of a connection ends when the socket fails, when the client says goodbye or when the
mutex is poisoned, and when `read_reqs` has waited for too long. A listener never says goodbye, and
`read_reqs` never waits for too long, so nothing else ends it.
-/
namespace Rndz.Tcp

open Net Proto Mpsc Transition
open Function (update update_apply)
open Udp (fromSecs)

/-- `handle_cmds` returns on the request. -/
def Ends (req : Request) : Prop := req.cmd = some .bye ∨ req.cmd = none

namespace State

variable {s t : State} {a : Action} {c : Nat} {it : Item} {tr : List (State × Action)}

/-- `read_reqs` makes a goodbye up only when it cannot read. -/
theorem bye_step (rule : Rule s a t) (hc : t.Carries c .bye) :
    s.Carries c .bye ∨ a = .readErr c := by
  cases rule with
  | client | sockFail => exact .inl hc
  | recv runs at_recv recv =>
    obtain ⟨hitems, -, -⟩ := Channel.recv_eq_some recv
    simp only [Carries, setHandler, setQueue, update_apply] at *
    grind
  | sendPush runs at_send isOpen push =>
    obtain ⟨-, hitems, -, -⟩ := Channel.push_eq_some push
    simp only [Carries, setHandler, setQueue, record, update_apply] at *
    grind
  | readerPush runs at_send isOpen push =>
    obtain ⟨-, hitems, -, -⟩ := Channel.push_eq_some push
    simp only [Carries, setReader, setQueue, update_apply] at *
    grind
  | insertRefresh runs inserts | insertNew runs inserts =>
    obtain ⟨hand, out, -, -⟩ := next_of_inserting inserts
    simp only [Carries, setHandler, record, setPeerId, setPeers, update_apply] at *
    grind
  | _ =>
    simp only [Carries, setHandler, setQueue, setReader, accept, leave, panic, dropFutures,
      dropReadReqs, dropHandleCmds, dropHandler, record, setPeerId, setStatus, setPeers,
      update_apply, Item.bye] at *
    grind

/-- No request that is on its way to the handler of `c` ends it. -/
def Unended (s : State) (c : Nat) : Prop := ∀ it, s.Carries c it → ¬Ends it.req

theorem unended_step (rule : Rule s a t) (unended : s.Unended c) (reads : a ≠ .readErr c)
    (inbox : ∀ req ∈ s.inbox c, ¬Ends req) : t.Unended c := by
  intro it carries
  rcases carries_step rule carries with old | born
  · exact unended it old
  · cases born with
    | read frame => exact inbox _ (frame ▸ List.mem_cons_self)
    | bye =>
      rcases bye_step rule carries with old | err
      · exact unended _ old
      · exact absurd err reads
    | fsync | rsync => simp [Ends]

/-- The handler of `c` serves its client: it runs, and `read_reqs` goes on. -/
structure Serving (s : State) (c : Nat) : Prop where
  running : s.status c = .running
  goesOn : s.reader c ≠ .done
  more : ∀ it last, s.reader c = .send it last ∨ s.reader c = .sending it last → last = false

/-- No operation on the socket of `c` fails, and `insert_peerstate` does not panic under the
lock. -/
structure Sound (c : Nat) (s : State) (a : Action) : Prop where
  sock : a ≠ .sockFail c
  read : a ≠ .readErr c
  write : a ≠ .writeErr c
  known : PeerAddrKnown s a

instance (c : Nat) (s : State) (a : Action) : Decidable (Sound c s a) :=
  decidable_of_iff (_ ∧ _ ∧ _ ∧ _)
    ⟨fun h => ⟨h.1, h.2.1, h.2.2.1, h.2.2.2⟩, fun h => ⟨h.sock, h.read, h.write, h.known⟩⟩

theorem sockOk_step (rule : Rule s a t) (sound : Sound c s a) (sock : s.sockOk c = true) :
    t.sockOk c = true := by
  cases rule with
  | accept addr => simp only [accept, update_apply]; grind
  | sockFail accepted => simp only [update_apply]; grind [Sound]
  | _ => exact sock

theorem Serving.of_same (serving : s.Serving c) (status : t.status c = s.status c)
    (reader : t.reader c = s.reader c) : t.Serving c :=
  ⟨status ▸ serving.running, reader ▸ serving.goesOn, reader ▸ serving.more⟩

theorem serving_step (rule : Rule s a t) (serving : s.Serving c) (housed : s.Housed)
    (fresh : s.Fresh) (unpoisoned : s.Unpoisoned) (sock : s.sockOk c = true)
    (unended : s.Unended c) (sound : Sound c s a) (inTime : a ≠ .readTimeout c) :
    t.Serving c := by
  obtain ⟨running, goesOn, more⟩ := id serving
  have unpoisoned : s.peers.poisoned = false := unpoisoned
  cases rule with
  | accept addr =>
    have hc : c ≠ s.count + 1 := by
      rintro rfl
      simp [fresh _ (Nat.lt_succ_self _)] at running
    exact serving.of_same (by simp [hc]) (by simp [hc])
  | @readErr d =>
    have hd : c ≠ d := fun h => sound.read (h ▸ rfl)
    exact serving.of_same rfl (by simp [hd])
  | @readTimeout d =>
    have hd : c ≠ d := fun h => inTime (h ▸ rfl)
    exact serving.of_same rfl (by simp [hd])
  | @readerClosed d it last runs at_send closed =>
    have hd : c ≠ d := by
      rintro rfl
      simp [(housed.closed c).mp closed] at running
    exact serving.of_same rfl (by simp [hd])
  | @readerPush d it last q runs at_send isOpen push =>
    by_cases hd : c = d
    · subst hd
      obtain rfl := more it last (.inr at_send)
      exact ⟨running, by simp, by simp⟩
    · exact serving.of_same rfl (by simp [hd])
  | read | readerAcquire => constructor <;> simp [update_apply] <;> grind
  | insertPoisoned runs inserts poisoned | rsyncPanic runs at_handle cmd poisoned
  | cleanupPanic leaving poisoned => simp [unpoisoned] at poisoned
  | @insertPanic d id next runs inserts _ not_owns failed =>
    have hd : c ≠ d := by
      rintro rfl
      simp [sock] at failed
    exact serving.of_same (by simp [hd]) (by simp [hd])
  | @isyncPanic d it isync runs at_handle cmd why =>
    have hd : c ≠ d := by
      rintro rfl
      simp [unpoisoned, sock] at why
    exact serving.of_same (by simp [hd]) (by simp [hd])
  | @bye d it runs at_handle cmd =>
    have hd : c ≠ d := by
      rintro rfl
      exact unended it (carries_of_handle at_handle) cmd
    exact serving.of_same (by simp [hd]) (by simp [hd])
  | @writeErr d =>
    have hd : c ≠ d := fun h => sound.write (h ▸ rfl)
    exact serving.of_same (by simp [hd]) (by simp [hd])
  | @select d runs at_done =>
    have hd : c ≠ d := by
      rintro rfl
      exact goesOn at_done
    exact serving.of_same (by simp [hd]) (by simp [hd])
  | @cleanupRemove d leaving | @cleanupKeep d leaving | @drop d leaving =>
    have hd : c ≠ d := by
      rintro rfl
      simp [running] at leaving
    exact serving.of_same (by simp [hd]) rfl
  | _ => exact serving.of_same rfl rfl

end State

namespace Rendezvous

/-- Our own clients never end their connections. -/
theorem State.not_ends_of_frame {p : Parties} {s : State} {e : End} {req : Request}
    (frame : State.Frame p s e req) : ¬Ends req := by
  cases frame with
  | _ => simp [Ends, rsyncOf, Parties.isync]

theorem turn_of_ended {w w' : List Request} {u : Turn} (turns : Turns w .ended u w') :
    u = .ended := by
  cases turns with
  | _ => rfl

namespace Timed

variable {p : Parties} {b : Bounds} {e : End} {s t : Timed} {a : Action} {c : Nat}
  {tr : List (Timed × Action)}

/-- Nothing but time ends the handler of `c`. -/
def Steady (c : Nat) (s : Timed) : Action → Prop
  | .sys (.server a) => Tcp.State.Sound c s.sys.server a
  | _ => True

instance (c : Nat) (s : Timed) : (a : Action) → Decidable (Steady c s a)
  | .sys (.server a) => inferInstanceAs (Decidable (Tcp.State.Sound c s.sys.server a))
  | .tick _ | .sys (.accept _ _) | .sys (.deliver _) | .sys (.sync _ _) | .sys (.async _ _)
  | .sys (.write _) | .sys (.read _) => .isTrue trivial

/-- The server serves the client end of `c` as long as its `write_loop` goes on. -/
structure Kept (c : Nat) (e : End) (s : Timed) : Prop where
  unpoisoned : s.sys.server.Unpoisoned
  sock : s.sys.server.sockOk c = true
  unended : s.sys.server.Unended c
  serving : s.sys.peer c = some e → s.sys.turn e ≠ .ended → s.sys.server.Serving c

theorem kept_init : Kept c e (init p) := by
  refine ⟨rfl, rfl, fun it carries => ?_, nofun⟩
  simp [Tcp.State.Carries, init, State.init, Tcp.State.init, Reader.item, Handler.inHand,
    Handler.outgoing] at carries

/-- A handler that is given what our clients write is not told to end. -/
theorem not_ends_of_inbox {log : List (State × Rendezvous.Action)} {sys : State}
    (run : Run p log sys) : ∀ req ∈ sys.server.inbox c, ¬Ends req := by
  intro req hreq
  obtain ⟨_, server⟩ := State.server_run run
  obtain ⟨e, -, frame⟩ := State.frame_of_sent run ((Tcp.State.provenance server).inbox c req hreq)
  exact State.not_ends_of_frame frame

theorem kept_step (run : TimedRun p tr s) (timely : Always (Timely b e) tr s) (fast : b.Fast)
    (listens : e.party.Listens) (kept : Kept c e s) (steady : Steady c s a)
    (h : s.step p a = some t) : Kept c e t := by
  obtain ⟨unpoisoned, sock, unended, serving⟩ := kept
  cases a with
  | tick time =>
    obtain rfl := Option.some.inj h
    exact ⟨unpoisoned, sock, unended, serving⟩
  | sys x =>
    have inTime : s.sys.peer c = some e → s.sys.turn e ≠ .ended →
        x ≠ .server (.readTimeout c) := by
      rintro peer goesOn rfl
      simp [readTimeout_disabled run timely fast listens peer goesOn] at h
    obtain ⟨-, h⟩ := Option.ite_none_right_eq_some.mp h
    obtain ⟨sys, step, rfl⟩ := Option.map_eq_some_iff.mp h
    obtain ⟨log, sysRun⟩ := sys_run run
    obtain ⟨_, serverRun⟩ := State.server_run sysRun
    have goesOn : s.sys.peer c = some e → sys.turn e ≠ .ended → s.sys.turn e ≠ .ended := by
      intro peer goesOn ended
      have opened := (State.linked_of_run sysRun).opened c e peer
      have turns := (State.turning_step sysRun step listens).turns opened
      rw [ended] at turns
      exact goesOn (turn_of_ended turns)
    rcases State.server_step step with same | ⟨y, serverStep, how⟩
    · refine ⟨?_, ?_, ?_, fun peer runs => ?_⟩
      all_goals simp only [record, same]
      · exact unpoisoned
      · exact sock
      · exact unended
      · rcases State.peer_step step peer with old | ⟨-, addr, accepted⟩
        · exact serving old (goesOn old runs)
        · have count := congrArg Tcp.State.count (same.symm.trans accepted)
          simp at count
    · have sound : Tcp.State.Sound c s.sys.server y := by
        rcases how with rfl | ⟨addr, rfl⟩ | ⟨d, req, rfl⟩
        · exact steady
        · constructor <;> simp [Tcp.State.PeerAddrKnown, Action.ofHandler]
        · constructor <;> simp [Tcp.State.PeerAddrKnown, Action.ofHandler]
      have rule := Tcp.State.rule_of_step serverStep
      have fresh := Tcp.State.fresh serverRun
      refine ⟨Tcp.State.unpoisoned_step fresh unpoisoned sound.known serverStep,
        Tcp.State.sockOk_step rule sound sock,
        Tcp.State.unended_step rule unended sound.read (not_ends_of_inbox sysRun),
        fun peer runs => ?_⟩
      rcases State.peer_step step peer with old | ⟨rfl, addr, accepted⟩
      · refine Tcp.State.serving_step rule (serving old (goesOn old runs))
          (Tcp.State.housed serverRun) fresh unpoisoned sock unended sound ?_
        rintro rfl
        rcases how with rfl | ⟨addr, how⟩ | ⟨d, req, how⟩
        · exact inTime old (goesOn old runs) rfl
        · cases how
        · cases how
      · simp only [record, accepted]
        constructor <;> simp

theorem kept_of_run (run : TimedRun p tr s) (timely : Always (Timely b e) tr s) (fast : b.Fast)
    (listens : e.party.Listens) (steady : Steps (Steady c) tr) : Kept c e s := by
  induction run with
  | start => exact kept_init
  | next run h ih =>
    obtain ⟨before, -⟩ := always_concat.mp timely
    obtain ⟨steady, last⟩ := steps_concat.mp steady
    exact kept_step run before fast listens (ih before steady) last h

/-- As long as its `write_loop` goes on, a listener is served, and it is registered unless another
connection has taken its id over. -/
theorem listener_stays_registered (run : TimedRun p tr s) (timely : Always (Timely b e) tr s)
    (fast : b.Fast) (listens : e.party.Listens) (steady : Steps (Steady c) tr)
    (peer : s.sys.peer c = some e) (goesOn : s.sys.turn e ≠ .ended) :
    s.sys.server.status c = .running ∧
      ∀ k, lastInsert s.sys.server.log k = some c →
        s.sys.server.peers.get k = some ⟨c, c, s.sys.server.addr c⟩ := by
  have serving := (kept_of_run run timely fast listens steady).serving peer goesOn
  refine ⟨serving.running, fun k last => ?_⟩
  obtain ⟨log, sysRun⟩ := sys_run run
  obtain ⟨_, serverRun⟩ := State.server_run sysRun
  have inv := Tcp.State.registryInv serverRun
  have live : ¬s.sys.server.Ended c := by simp [Tcp.State.Ended, serving.running]
  obtain ⟨entry, found⟩ := Option.isSome_iff_exists.mp (inv.live k c last live)
  have owner : entry.id = c := Option.some.inj ((inv.last k entry found).symm.trans last)
  rw [found, inv.entry k entry found, owner]

/-- After forty seconds, the listener is still registered. -/
theorem registered_pinging : ∃ tr s, TimedRun State.twoParties tr s ∧ s.now = fromSecs 40 ∧
    s.sys.server.peers.get "y" = some ⟨1, 1, s.sys.server.addr 1⟩ := by
  have script : (exec (step State.twoParties)
      (fun s a => Timely .second ⟨.sync 0, 0⟩ s ∧ Steady 1 s a)
      (init State.twoParties) (pinging 4)).any
      (fun s => Timely .second ⟨.sync 0, 0⟩ s ∧ s.sys.peer 1 = some ⟨.sync 0, 0⟩ ∧
        s.sys.turn ⟨.sync 0, 0⟩ ≠ .ended ∧ s.now = fromSecs 40 ∧
        lastInsert s.sys.server.log "y" = some 1) = true := by decide +kernel
  obtain ⟨tr, s, run, before, h⟩ := run_of_exec script
  obtain ⟨after, peer, goesOn, now, last⟩ := of_decide_eq_true h
  have timely : Always (Timely .second ⟨.sync 0, 0⟩) tr s := ⟨fun p hp => (before p hp).1, after⟩
  have steady : Steps (Steady 1) tr := before.mono fun _ _ h => h.2
  have fast : Bounds.second.Fast := by decide
  have stays := listener_stays_registered run timely fast trivial steady peer goesOn
  exact ⟨tr, s, run, now, stays.2 "y" last⟩

end Timed

end Rendezvous

end Rndz.Tcp
