import Rndz.Tcp.Rendezvous
import Rndz.Tcp.Setup

/-!
# The rendezvous with the sockets of its clients

The system of the server and its clients, together with the sockets that `listen`,
`start_background`, `connect` and an `Fsync` make the clients open.
-/
namespace Rndz.Tcp

open Net Proto Transition
open Function (update update_apply)
open PeerHandler (response)

/-! ## The calls of `listen` and their connections -/

/-- What a step of a client asks of the system. -/
inductive SystemCall where
  | none
  | listen
  | connect (l : Nat) (ok : Bool)

/-- The calls of `listen` a client has got, its connections, and for which call each one is. -/
structure Roots where
  listens : Nat
  count : Nat
  listener : Nat → Nat

inductive Roots.Go (x : Roots) : SystemCall → Roots → Prop
  | none : Go x .none x
  | listen : Go x .listen { x with listens := x.listens + 1 }
  | connected {l : Nat} (called : l < x.listens) : Go x (.connect l true)
      { x with count := x.count + 1, listener := update x.listener x.count l }
  | refused {l : Nat} : Go x (.connect l false) x

theorem Roots.Go.eq_of_none {x y : Roots} (go : x.Go .none y) : y = x := by
  cases go with
  | none => rfl

section

variable {α : Type} {conns : Nat → α} {listens count l j : Nat} {d : α}

/-- `f` is the call for which a connection is opened, and one is replaced by one for the same. -/
theorem Roots.Go.of_update (f : α → Nat) {call : SystemCall} (quiet : call = .none)
    (same : f d = f (conns j)) : Roots.Go ⟨listens, count, fun k => f (conns k)⟩ call
      ⟨listens, count, fun k => f (update conns j d k)⟩ := by
  have unchanged : (fun k => f (update conns j d k)) = fun k => f (conns k) :=
    funext (Listening.listener_update same)
  rw [quiet, unchanged]
  exact .none

/-- A connection is opened for a call that has been made. -/
theorem Roots.Go.of_opened (f : α → Nat) (opens : f d = l) (called : l < listens) :
    Roots.Go ⟨listens, count, fun k => f (conns k)⟩ (.connect l true)
      ⟨listens, count + 1, fun k => f (update conns count d k)⟩ := by
  have opened : (fun k => f (update conns count d k)) = update (fun k => f (conns k)) count l := by
    rw [← opens]
    exact Function.comp_update f conns count d
  rw [opened]
  exact .connected called

end

namespace Client

variable {s t : State} {a : Action} {j : Nat}

def Action.systemCall : Action → SystemCall
  | .listen => .listen
  | .connect l ok => .connect l ok
  | _ => .none

def State.roots (s : State) : Roots where
  listens := s.listens
  count := s.count
  listener k := (s.conns k).listener

namespace State

theorem systemCall_of_endsWait {l : Nat} {w : Notification.Waiter} (ends : s.EndsWait l w a) :
    a.systemCall = .none := by
  rcases ends with ⟨rfl, -⟩ | rfl <;> rfl

theorem systemCall_of_endsWatch (ends : s.EndsWatch j a) : a.systemCall = .none := by
  rcases ends with ⟨-, rfl⟩ | ⟨w, -, ⟨rfl, -⟩ | rfl⟩ <;> rfl

theorem roots_step (uncalled : s.Uncalled) (rule : Rule s a t) :
    s.roots.Go a.systemCall t.roots := by
  cases rule with
  | listen => exact .listen
  | @opened l first at_connect =>
    have called : l < s.listens := by
      by_contra h
      simp [uncalled l (not_lt.mp h)] at at_connect
    exact .of_opened Conn.listener rfl called
  | refused =>
    unfold roots
    rw [startFailed_listens, startFailed_count, startFailed_conns]
    exact .refused
  | cloneFailed =>
    unfold roots
    rw [startFailed_listens, startFailed_count, startFailed_conns]
    exact .none
  | loop moves => exact .of_update Conn.listener rfl moves.frame.1
  | spawnWriter | spawnReader | spawnMonitor | spawnWatcher | reportPoisoned | report | watchWait =>
    exact .of_update Conn.listener rfl rfl
  | readerFailed =>
    unfold roots
    rw [startFailed_listens, startFailed_count, startFailed_conns]
    exact .of_update Conn.listener rfl rfl
  | endPoisoned waits ends | endExit waits ends | endOuter waits ends | endAssert waits ends
  | endRetry waits ends =>
    rw [systemCall_of_endsWait ends]
    exact .none
  | watchPoisoned ends | watchExit ends | watchEnd waits ends =>
    exact .of_update Conn.listener (systemCall_of_endsWatch ends) rfl
  | _ => exact .none

end State

end Client

namespace ClientAsync

variable {s t : State} {a : Action}

def Action.systemCall : Action → SystemCall
  | .listen => .listen
  | .connect l ok => .connect l ok
  | _ => .none

def State.roots (s : State) : Roots where
  listens := s.listens
  count := s.count
  listener k := (s.conns k).listener

namespace State

theorem roots_step (uncalled : s.Uncalled) (rule : Rule s a t) :
    s.roots.Go a.systemCall t.roots := by
  cases rule with
  | listen => exact .listen
  | @opened l first at_connect =>
    have called : l < s.listens := by
      by_contra h
      simp [uncalled l (not_lt.mp h)] at at_connect
    exact .of_opened Conn.listener rfl called
  | refused =>
    unfold roots
    rw [startFailed_listens, startFailed_count, startFailed_conns]
    exact .refused
  | reader moves | writer moves => exact .of_update Conn.listener rfl moves.frame.1
  | spawnReader | spawnWriter | spawnJoiner | notify => exact .of_update Conn.listener rfl rfl
  | _ => exact .none

end State

end ClientAsync

namespace Rendezvous

open Setup

instance : DecidablePred Party.Listens
  | .call _ => isFalse id
  | .sync _ | .async _ => isTrue trivial

def State.roots (s : State) : Party → Roots
  | .sync i => (s.sync i).roots
  | .async i => (s.async i).roots
  | .call _ => ⟨0, 1, fun _ => 0⟩

/-- What a step asks of the system for party `q`. -/
def Action.asks (a : Action) (q : Party) : SystemCall :=
  match a, q with
  | .sync i b, .sync j => if j = i then b.systemCall else .none
  | .async i b, .async j => if j = i then b.systemCall else .none
  | _, _ => .none

namespace State

variable {p : Parties} {s t : State} {a : Action} {c i : Nat} {e : End} {q : Party}
  {tr : List (State × Action)}

theorem opened_iff : s.Opened e ↔ e.conn < (s.roots e.party).count := by
  obtain ⟨q, k⟩ := e
  cases q with
  | _ => rfl

theorem sync_of_step {b : Client.Action} (h : s.step p (.sync i b) = some t) :
    ∃ x, (s.sync i).step b = some x ∧ t = s.setSync i x ∧ ∀ k, b.response k = none := by
  simp only [step] at h
  split at h
  · cases h
  · rename_i quiet
    obtain ⟨x, step, rfl⟩ := Option.map_eq_some_iff.mp h
    refine ⟨x, step, rfl, fun k => ?_⟩
    unfold Client.Action.response
    split
    · exact absurd rfl (quiet _ _)
    · rfl

theorem async_of_step {b : ClientAsync.Action} (h : s.step p (.async i b) = some t) :
    ∃ x, (s.async i).step b = some x ∧ t = s.setAsync i x ∧ ∀ k, b.response k = none := by
  simp only [step] at h
  split at h
  · cases h
  · rename_i quiet
    obtain ⟨x, step, rfl⟩ := Option.map_eq_some_iff.mp h
    refine ⟨x, step, rfl, fun k => ?_⟩
    unfold ClientAsync.Action.response
    split
    · exact absurd rfl (quiet _ _)
    · rfl

/-- Without a step of a listener, and without a response that is read, the clients read nothing,
and the listeners stay as they are. -/
structure Quiet (s t : State) : Prop where
  sync : t.sync = s.sync
  async : t.async = s.async
  received : ∀ e, t.received e = s.received e

/-- The clients as they were have read what they had. -/
theorem Quiet.of_clients (hsync : t.sync = s.sync) (hasync : t.async = s.async)
    (hcalls : t.calls = s.calls) : Quiet s t := by
  refine ⟨hsync, hasync, ?_⟩
  intro e
  unfold State.received
  cases e.party <;> simp only [streams, hsync, hasync, hcalls]

theorem quiet_of_step (h : s.step p a = some t) (hsync : ∀ i b, a ≠ .sync i b)
    (hasync : ∀ i b, a ≠ .async i b) (hread : ∀ c, a ≠ .read c) : Quiet s t := by
  cases a with
  | server b =>
    simp only [step] at h
    split at h
    · cases h
    · cases h
    · obtain ⟨server, -, rfl⟩ := Option.map_eq_some_iff.mp h
      exact .of_clients rfl rfl rfl
  | accept e addr =>
    obtain ⟨-, h⟩ := Option.ite_none_right_eq_some.mp h
    obtain ⟨server, -, rfl⟩ := Option.map_eq_some_iff.mp h
    exact .of_clients rfl rfl rfl
  | deliver c =>
    obtain ⟨e, -, h⟩ := Option.bind_eq_some_iff.mp h
    obtain ⟨req, -, h⟩ := Option.bind_eq_some_iff.mp h
    obtain ⟨server, -, rfl⟩ := Option.map_eq_some_iff.mp h
    exact .of_clients rfl rfl rfl
  | write j =>
    obtain ⟨-, heq⟩ := Option.ite_none_right_eq_some.mp h
    obtain rfl := Option.some.inj heq
    refine ⟨rfl, rfl, ?_⟩
    rintro ⟨q, k⟩
    cases q with
    | call i => by_cases hi : i = j <;> simp [State.received, streams, Call.streams, hi]
    | _ => rfl
  | sync i b => exact absurd rfl (hsync i b)
  | async i b => exact absurd rfl (hasync i b)
  | read c => exact absurd rfl (hread c)

theorem roots_setSync (run : Run p tr s) {b : Client.Action} {x : Client.State}
    (step : (s.sync i).step b = some x) (asks : ∀ q, a.asks q = (Action.sync i b).asks q) :
    (s.roots q).Go (a.asks q) ((s.setSync i x).roots q) := by
  rw [asks]
  cases q with
  | sync j =>
    by_cases hj : j = i
    · subst hj
      obtain ⟨_, run'⟩ := sync_run run j
      simpa [roots, Action.asks] using
        Client.State.roots_step (Client.State.fresh_of_run run').uncalled
          (Client.State.rule_of_step step)
    · simpa [roots, Action.asks, hj] using Roots.Go.none
  | _ => exact .none

theorem roots_setAsync (run : Run p tr s) {b : ClientAsync.Action} {x : ClientAsync.State}
    (step : (s.async i).step b = some x) (asks : ∀ q, a.asks q = (Action.async i b).asks q) :
    (s.roots q).Go (a.asks q) ((s.setAsync i x).roots q) := by
  rw [asks]
  cases q with
  | async j =>
    by_cases hj : j = i
    · subst hj
      obtain ⟨_, run'⟩ := async_run run j
      simpa [roots, Action.asks] using ClientAsync.State.roots_step
        (ClientAsync.State.fresh_of_run run').uncalled (ClientAsync.State.rule_of_step step)
    · simpa [roots, Action.asks, hj] using Roots.Go.none
  | _ => exact .none

theorem roots_step (run : Run p tr s) (h : s.step p a = some t) (q : Party) :
    (s.roots q).Go (a.asks q) (t.roots q) := by
  cases a with
  | sync i b =>
    obtain ⟨x, step, rfl, -⟩ := sync_of_step h
    exact roots_setSync run step fun _ => rfl
  | async i b =>
    obtain ⟨x, step, rfl, -⟩ := async_of_step h
    exact roots_setAsync run step fun _ => rfl
  | read c =>
    obtain ⟨⟨party, k⟩, peer, h⟩ := Option.bind_eq_some_iff.mp h
    obtain ⟨resp, next, h⟩ := Option.bind_eq_some_iff.mp h
    have asks : ∀ q, (Action.read c).asks q = .none := fun q => by cases q <;> rfl
    cases party with
    | sync i =>
      obtain ⟨x, step, rfl⟩ := Option.map_eq_some_iff.mp h
      refine roots_setSync run step fun q => ?_
      cases q <;> simp [Action.asks, Client.Action.systemCall]
    | async i =>
      obtain ⟨x, step, rfl⟩ := Option.map_eq_some_iff.mp h
      refine roots_setAsync run step fun q => ?_
      cases q <;> simp [Action.asks, ClientAsync.Action.systemCall]
    | call j =>
      obtain ⟨-, heq⟩ := Option.ite_none_right_eq_some.mp h
      obtain rfl := Option.some.inj heq
      cases q <;> exact .none
  | _ =>
    obtain ⟨hsync, hasync, -⟩ := quiet_of_step h (by simp) (by simp) (by simp)
    have same : t.roots q = s.roots q := by cases q <;> simp [roots, hsync, hasync]
    rw [same]
    cases q <;> exact .none

/-- What is read was next on its connection. -/
theorem received_step (h : s.step p a = some t) {resp : Response} (read : resp ∈ t.received e) :
    resp ∈ s.received e ∨
      ∃ c, a = .read c ∧ s.peer c = some e ∧ s.nextResponse c e = some resp := by
  cases a with
  | sync i b =>
    obtain ⟨x, step, rfl, quiet⟩ := sync_of_step h
    rcases (grows_setSync step).received (e := e) with old | ⟨-, r, hr, -⟩
    · exact .inl (old.subset read)
    · cases (quiet _).symm.trans hr
  | async i b =>
    obtain ⟨x, step, rfl, quiet⟩ := async_of_step h
    rcases (grows_setAsync step).received (e := e) with old | ⟨-, r, hr, -⟩
    · exact .inl (old.subset read)
    · cases (quiet _).symm.trans hr
  | read c =>
    obtain ⟨⟨party, k⟩, peer, h⟩ := Option.bind_eq_some_iff.mp h
    obtain ⟨r, next, h⟩ := Option.bind_eq_some_iff.mp h
    have grows : Grows party (fun k' => if k = k' then some r else none) s t := by
      cases party with
      | sync i =>
        obtain ⟨x, step, rfl⟩ := Option.map_eq_some_iff.mp h
        exact grows_setSync step
      | async i =>
        obtain ⟨x, step, rfl⟩ := Option.map_eq_some_iff.mp h
        exact grows_setAsync step
      | call j =>
        obtain ⟨⟨rfl, -, unread⟩, heq⟩ := Option.ite_none_right_eq_some.mp h
        obtain rfl := Option.some.inj heq
        exact grows_setCall List.prefix_rfl (by simp [unread])
    rcases grows.received (e := e) with old | ⟨rfl, r', hr, new⟩
    · exact .inl (old.subset read)
    · obtain ⟨rfl, rfl⟩ : k = e.conn ∧ r = r' := by simpa using hr
      rcases List.mem_append.mp (new.subset read) with old | new
      · exact .inl old
      · obtain rfl := List.mem_singleton.mp new
        exact .inr ⟨c, rfl, peer, next⟩
  | _ => exact .inl ((quiet_of_step h (by simp) (by simp) (by simp)).received e ▸ read)

/-- A client end is linked when it is accepted. -/
theorem accepted_of_peer (h : s.step p a = some t) (peer : t.peer c = some e) :
    s.peer c = some e ∨ a = .accept e (t.server.addr c) := by
  cases rule_of_step h with
  | @accept server e' addr opened unlinked step =>
    by_cases hc : c = s.server.count + 1
    · subst hc
      obtain rfl := Option.some.inj step
      obtain rfl : e' = e := by simpa using peer
      exact .inr (by simp)
    · exact .inl (by simpa [hc] using peer)
  | _ => exact .inl peer

end State

/-! ## The system with its sockets -/

/-- The system with the addresses on which its listeners listen, the local address of each client
end that has been connected, and the sockets a listener has opened for what it has read there. -/
structure Placed where
  sys : State
  listening : Party → Nat → SocketAddr
  localAddr : End → Option SocketAddr
  knocks : End → List Stream

namespace Placed

/-- A step of the system, or the beginning of a call of `connect`. The numbers stand for what the
system does for the sockets. -/
inductive Action where
  | sys (a : Rendezvous.Action) (n : Nat)
  | dial (j m n : Nat)
  deriving DecidableEq, Repr

def init (p : Parties) : Placed where
  sys := .init p
  listening _ _ := .unspecified
  localAddr _ := none
  knocks _ := []

/-- The address of the listening socket for which a connection has been made. -/
def own (s : Placed) (e : End) : SocketAddr :=
  s.listening e.party ((s.sys.roots e.party).listener e.conn)

/-- The socket that a listener opens for a response, before it answers. -/
def opens (site : Site) (s : Placed) (e : End) (resp : Response) : List Stream :=
  match resp.cmd with
  | some (.fsync fsync) =>
    if e.party.Listens then
      ((SocketAddr.parse fsync.addr).bind (knock site (s.own e))).toList
    else []
  | _ => []

@[simp] def setListening (s : Placed) (q : Party) (l : Nat) (addr : SocketAddr) : Placed :=
  { s with listening := update s.listening q (update (s.listening q) l addr) }

@[simp] def setLocalAddr (s : Placed) (e : End) (addr : SocketAddr) : Placed :=
  { s with localAddr := update s.localAddr e (some addr) }

@[simp] def addKnocks (s : Placed) (e : End) (streams : List Stream) : Placed :=
  { s with knocks := update s.knocks e (s.knocks e ++ streams) }

/-- The sockets of `listen` and of `start_background`. -/
def setUp (site : Site) (cfg : Config) (s : Placed) (q : Party) : SystemCall → Option Placed
  | .none => some s
  | .listen =>
    match Setup.listen site cfg with
    | .ok addr => some (s.setListening q (s.sys.roots q).listens addr)
    | .error _ => none
  | .connect l ok =>
    match connectServer site (s.listening q l) cfg.serverAddr, ok with
    | .ok stream, true => some (s.setLocalAddr ⟨q, (s.sys.roots q).count⟩ stream.localAddr)
    | .error _, false => some s
    | _, _ => none

/-- What becomes of the sockets at a step of the system. -/
def sockets (cfg : Party → Config) (site : Site) (s : Placed) : Rendezvous.Action → Option Placed
  | .sync i b => s.setUp site (cfg (.sync i)) (.sync i) b.systemCall
  | .async i b => s.setUp site (cfg (.async i)) (.async i) b.systemCall
  | .accept e _ => if s.localAddr e = none then none else some s
  | .write j => if s.localAddr ⟨.call j, 0⟩ = none then none else some s
  | .read c =>
    (s.sys.peer c).bind fun e => (s.sys.nextResponse c e).map fun resp =>
      s.addKnocks e (s.opens site e resp)
  | .server _ | .deliver _ => some s

def step (p : Parties) (cfg : Party → Config) (env : Nat → Site) (s : Placed) :
    Action → Option Placed
  | .sys a n =>
    (s.sockets cfg (env n) a).bind fun x => (s.sys.step p a).map fun sys => { x with sys }
  | .dial j m n =>
    match dial (env m) (env n) (cfg (.call j)), s.localAddr ⟨.call j, 0⟩ with
    | .ok stream, none => some (s.setLocalAddr ⟨.call j, 0⟩ stream.localAddr)
    | _, _ => none

end Placed

/-- The runs of the system with its sockets. -/
abbrev PlacedRun (p : Parties) (cfg : Party → Config) (env : Nat → Site) :=
  Transition.Run (Placed.step p cfg env) (Placed.init p)

namespace Placed

variable {p : Parties} {cfg : Party → Config} {env : Nat → Site} {s t x : Placed}
  {act : Rendezvous.Action} {site : Site} {a : Action} {e : End} {q : Party}
  {tr : List (Placed × Action)}

/-- What may become of the sockets. -/
inductive Sockets (cfg : Party → Config) (site : Site) (s : Placed) (act : Rendezvous.Action) :
    Placed → Prop
  | listen {q : Party} {addr : SocketAddr} (asks : act.asks q = .listen)
      (only : ∀ q' ≠ q, act.asks q' = .none) (opened : Setup.listen site (cfg q) = .ok addr) :
      Sockets cfg site s act (s.setListening q (s.sys.roots q).listens addr)
  | connected {q : Party} {l : Nat} {stream : Stream} (asks : act.asks q = .connect l true)
      (only : ∀ q' ≠ q, act.asks q' = .none)
      (opened : connectServer site (s.listening q l) (cfg q).serverAddr = .ok stream) :
      Sockets cfg site s act (s.setLocalAddr ⟨q, (s.sys.roots q).count⟩ stream.localAddr)
  | read {c : Nat} {e : End} {resp : Response} (reads : act = .read c)
      (unasked : ∀ q, act.asks q = .none) (peer : s.sys.peer c = some e)
      (next : s.sys.nextResponse c e = some resp) :
      Sockets cfg site s act (s.addKnocks e (s.opens site e resp))
  | none (unasked : ∀ q, act.asks q = .none ∨ ∃ l, act.asks q = .connect l false)
      (unread : ∀ c, act ≠ .read c)
      (accepted : ∀ e addr, act = .accept e addr → s.localAddr e ≠ none) : Sockets cfg site s act s

theorem sockets_of_setUp {call : SystemCall} (asks : act.asks q = call)
    (only : ∀ q' ≠ q, act.asks q' = .none) (unread : ∀ c, act ≠ .read c)
    (unaccepted : ∀ e addr, act ≠ .accept e addr) (h : s.setUp site (cfg q) q call = some x) :
    Sockets cfg site s act x := by
  have unasked : ∀ q', act.asks q' = .none ∨ act.asks q' = call := by
    intro q'
    by_cases hq : q' = q
    · exact .inr (hq ▸ asks)
    · exact .inl (only q' hq)
  have accepted : ∀ e addr, act = .accept e addr → s.localAddr e ≠ none := by
    intro e addr h
    exact absurd h (unaccepted e addr)
  cases call with
  | none =>
    obtain rfl := Option.some.inj h
    exact .none (fun q' => .inl ((unasked q').elim id id)) unread accepted
  | listen =>
    simp only [setUp] at h
    split at h
    · rename_i addr opened
      obtain rfl := Option.some.inj h
      exact .listen asks only opened
    · cases h
  | connect l ok =>
    simp only [setUp] at h
    split at h
    · rename_i stream opened
      obtain rfl := Option.some.inj h
      exact .connected asks only opened
    · obtain rfl := Option.some.inj h
      exact .none (fun q' => (unasked q').imp_right fun h => ⟨l, h⟩) unread accepted
    · cases h

theorem sockets_cases (h : s.sockets cfg site act = some x) : Sockets cfg site s act x := by
  cases act with
  | sync i b =>
    refine sockets_of_setUp (q := .sync i) (by simp [Rendezvous.Action.asks]) ?_ (by simp)
      (by simp) h
    intro q' hq
    cases q' with
    | sync j =>
      have hj : j ≠ i := fun h => hq (h ▸ rfl)
      simp [Rendezvous.Action.asks, hj]
    | _ => rfl
  | async i b =>
    refine sockets_of_setUp (q := .async i) (by simp [Rendezvous.Action.asks]) ?_ (by simp)
      (by simp) h
    intro q' hq
    cases q' with
    | async j =>
      have hj : j ≠ i := fun h => hq (h ▸ rfl)
      simp [Rendezvous.Action.asks, hj]
    | _ => rfl
  | read c =>
    obtain ⟨e, peer, h⟩ := Option.bind_eq_some_iff.mp h
    obtain ⟨resp, next, rfl⟩ := Option.map_eq_some_iff.mp h
    exact .read rfl (fun q => by cases q <;> rfl) peer next
  | accept e addr =>
    simp only [sockets] at h
    split at h
    · cases h
    · rename_i connected
      obtain rfl := Option.some.inj h
      refine .none (fun q => by cases q <;> exact .inl rfl) (by simp) ?_
      rintro e' addr' heq
      obtain ⟨rfl, rfl⟩ : e = e' ∧ addr = addr' := by simpa using heq
      exact connected
  | write j =>
    simp only [sockets] at h
    split at h
    · cases h
    · obtain rfl := Option.some.inj h
      exact .none (fun q => by cases q <;> exact .inl rfl) (by simp) (by simp)
  | server b | deliver c =>
    obtain rfl := Option.some.inj h
    exact .none (fun q => by cases q <;> exact .inl rfl) (by simp) (by simp)

/-- The ways a step can go. -/
inductive Rule (p : Parties) (cfg : Party → Config) (env : Nat → Site) (s : Placed) :
    Action → Placed → Prop
  | sys {act : Rendezvous.Action} {n : Nat} {x : Placed} {sys : State}
      (sockets : Sockets cfg (env n) s act x) (step : s.sys.step p act = some sys) :
      Rule p cfg env s (.sys act n) { x with sys }
  | dial {j m n : Nat} {stream : Stream} (free : s.localAddr ⟨.call j, 0⟩ = none)
      (opened : Setup.dial (env m) (env n) (cfg (.call j)) = .ok stream) :
      Rule p cfg env s (.dial j m n) (s.setLocalAddr ⟨.call j, 0⟩ stream.localAddr)

theorem rule_of_step (h : s.step p cfg env a = some t) : Rule p cfg env s a t := by
  cases a with
  | sys act n =>
    obtain ⟨x, sockets, h⟩ := Option.bind_eq_some_iff.mp h
    obtain ⟨sys, step, rfl⟩ := Option.map_eq_some_iff.mp h
    exact .sys (sockets_cases sockets) step
  | dial j m n =>
    simp only [step] at h
    split at h
    · rename_i stream opened free
      obtain rfl := Option.some.inj h
      exact .dial free opened
    · cases h

theorem sys_run (run : PlacedRun p cfg env tr s) : ∃ tr', Rendezvous.Run p tr' s.sys := by
  refine run.project Placed.sys fun s a t h => ?_
  cases rule_of_step h with
  | @sys act n x sys sockets step => exact .inr ⟨act, step⟩
  | dial free opened => exact .inl rfl

/-! ## A meeting -/

/-- The server sees the client of a connection where the client's local port is mapped to. -/
def Mapped (nat : Party → UInt16 → SocketAddr) (s : Placed) : Action → Prop
  | .sys (.accept e addr) _ => ∀ a ∈ s.localAddr e, addr = nat e.party a.port
  | _ => True

instance (nat : Party → UInt16 → SocketAddr) (s : Placed) (a : Action) :
    Decidable (Mapped nat s a) :=
  match a with
  | .sys (.accept e _) _ => inferInstanceAs (Decidable (∀ a ∈ s.localAddr e, _ = _))
  | .sys (.server _) _ | .sys (.deliver _) _ | .sys (.sync _ _) _ | .sys (.async _ _) _
  | .sys (.write _) _ | .sys (.read _) _ | .dial _ _ _ => isTrue trivial

/-- A system that chooses port 5000 if none is given. -/
def goodSite : Site where
  toSocketAddrs _ := some [host 9]
  setReuseAddress := true
  setReusePort := true
  bindTo addr := some (if addr.port = 0 then addr.withPort 5000 else addr)
  listens := true
  connectTo bound _ := some bound

theorem keepsPorts_goodSite : goodSite.KeepsPorts where
  binds addr bound h := by
    obtain rfl := Option.some.inj h
    split
    · rename_i hzero
      exact ⟨by cases addr <;> simp [SocketAddr.withPort, SocketAddr.port],
        fun hne => absurd hzero hne⟩
    · rename_i hne
      exact ⟨hne, fun _ => rfl⟩
  connects bound addr localAddr h := by
    obtain rfl := Option.some.inj h
    rfl

theorem reuses_goodSite : goodSite.Reuses := ⟨rfl, rfl, by simp [goodSite]⟩

/-- Each party has an address of its own, on which it keeps its ports. -/
def twoAddrs (q : Party) (port : UInt16) : SocketAddr :=
  match q with
  | .call _ => (host 2).withPort port
  | _ => (host 1).withPort port

def anyAddr : Config := ⟨"server", none⟩

/-- `meeting`, after the call has been connected. -/
def placedMeeting : List Action := .dial 0 0 0 :: State.meeting.map (.sys · 0)

theorem placedMeeting_run : ∃ tr s,
    PlacedRun State.twoParties (fun _ => anyAddr) (fun _ => goodSite) tr s ∧
      Steps (Mapped twoAddrs) tr ∧ (s.sys.calls 0).result = some (.ok (host 1)) ∧
        (s.sys.roots (.sync 0)).listens = 1 ∧ 0 < (s.sys.roots (.sync 0)).count ∧
          (s.sys.roots (.sync 0)).listener 0 = 0 ∧ s.knocks ⟨.sync 0, 0⟩ ≠ [] := by
  have script : (exec (step State.twoParties (fun _ => anyAddr) fun _ => goodSite)
      (Mapped twoAddrs) (init State.twoParties) placedMeeting).any
      (fun s => (s.sys.calls 0).result = some (.ok (host 1)) ∧
        (s.sys.roots (.sync 0)).listens = 1 ∧ 0 < (s.sys.roots (.sync 0)).count ∧
          (s.sys.roots (.sync 0)).listener 0 = 0 ∧ s.knocks ⟨.sync 0, 0⟩ ≠ []) = true := by
    decide +kernel
  obtain ⟨tr, s, run, mapped, h⟩ := run_of_exec script
  exact ⟨tr, s, run, mapped, of_decide_eq_true h⟩

end Placed

end Rendezvous

end Rndz.Tcp
