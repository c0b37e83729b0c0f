import Mathlib.Data.List.Infix
import Rndz.Tcp.ClientAsyncStep
import Rndz.Tcp.ClientStep
import Rndz.Tcp.Connect
import Rndz.Tcp.Responses

/-!
# The TCP server and its clients as one system

One server with any number of listeners, blocking and async, and of calls of `Client::connect`.
Their connections are streams: what one end has written reaches the other end in order and as
late as may be, or not at all.
-/
namespace Rndz.Tcp

open Net Proto Mpsc Transition Notification
open Function (update update_apply)
open PeerHandler (response)

/-! ## What the clients read and write -/

/-- The connections a client has opened to the server, with what it has written and read. -/
structure Streams where
  count : Nat
  written : Nat → List Request
  received : Nat → List Response

/-- On a connection that is open, frames are only added; so is a response that is read. -/
structure Streams.Go (resp : Nat → Option Response) (x y : Streams) : Prop where
  count : x.count ≤ y.count
  written : ∀ k < x.count, x.written k <+: y.written k
  received : ∀ k, y.received k <+: x.received k ++ (resp k).toList

theorem Streams.Go.refl {resp : Nat → Option Response} {x : Streams} : x.Go resp x :=
  ⟨le_refl _, fun _ _ => List.prefix_rfl, fun _ => List.prefix_append _ _⟩

/-- One connection changes. -/
theorem Streams.Go.of_update {resp : Nat → Option Response} {x : Streams} {j : Nat}
    {written : List Request} {received : List Response} (hwritten : x.written j <+: written)
    (hreceived : received <+: x.received j ++ (resp j).toList) :
    x.Go resp ⟨x.count, update x.written j written, update x.received j received⟩ := by
  refine ⟨le_refl _, fun k _ => ?_, fun k => ?_⟩
  all_goals
    by_cases hk : k = j
    · subst hk
      simpa
    · simp [hk]

section

variable {α : Type} {resp : Nat → Option Response} {conns : Nat → α} {count j : Nat} {d : α}

/-- `f` is what has been written on a connection, `g` what has been read, and one connection is
replaced by another that has gone on from it. -/
theorem Streams.Go.of_conns (f : α → List Request) (g : α → List Response)
    (written : f (conns j) <+: f d) (received : g d <+: g (conns j) ++ (resp j).toList) :
    Streams.Go resp ⟨count, fun k => f (conns k), fun k => g (conns k)⟩
      ⟨count, fun k => f (update conns j d k), fun k => g (update conns j d k)⟩ := by
  have go : Streams.Go resp ⟨count, fun k => f (conns k), fun k => g (conns k)⟩ _ :=
    .of_update written received
  convert go using 2
  · exact Function.comp_update f conns j d
  · exact Function.comp_update g conns j d

/-- A connection is opened, on which nothing has been read. -/
theorem Streams.Go.of_opened (f : α → List Request) (g : α → List Response) (received : g d = []) :
    Streams.Go resp ⟨count, fun k => f (conns k), fun k => g (conns k)⟩
      ⟨count + 1, fun k => f (update conns count d k), fun k => g (update conns count d k)⟩ := by
  refine ⟨Nat.le_succ _, fun k hk => ?_, fun k => ?_⟩
  · simp [Nat.ne_of_lt hk]
  · by_cases hk : k = count
    · simp [hk, received]
    · simp [hk]

end

namespace Client

variable {id : String} {s t : State} {a : Action} {j : Nat} {d : Conn}

/-- The response that is read on connection `k`. -/
def Action.response (a : Action) (k : Nat) : Option Response :=
  match a with
  | .loop j (.read resp) => if j = k then some resp else none
  | _ => none

def State.streams (s : State) : Streams where
  count := s.count
  written k := (s.conns k).written
  received k := (s.conns k).received

theorem Conn.Rule.streams {c : Conn} {b : LoopAction} (rule : Conn.Rule id c b d) :
    c.written <+: d.written ∧ d.received = c.received ++ ((Action.loop j b).response j).toList := by
  cases rule with
  | _ => simp [Action.response]

namespace State

theorem streams_step (rule : Rule s a t) : s.streams.Go a.response t.streams := by
  cases rule with
  | @opened l first at_connect =>
    exact .of_opened Conn.written Conn.received rfl
  | @loop j b d moves =>
    obtain ⟨written, received⟩ := moves.streams (j := j)
    exact .of_conns Conn.written Conn.received written (received ▸ List.prefix_rfl)
  | spawnWriter | spawnReader | spawnMonitor | spawnWatcher | reportPoisoned | report | watchWait
  | watchPoisoned | watchExit | watchEnd =>
    exact .of_conns Conn.written Conn.received List.prefix_rfl (List.prefix_append _ _)
  | readerFailed =>
    unfold streams
    rw [startFailed_conns, startFailed_count]
    exact .of_conns Conn.written Conn.received List.prefix_rfl (List.prefix_append _ _)
  | refused | cloneFailed =>
    unfold streams
    rw [startFailed_conns, startFailed_count]
    exact .refl
  | _ => exact .refl

end State

end Client

namespace ClientAsync

variable {id : String} {exit : Notify} {s t : State} {a : Action} {j : Nat} {d : Conn}

/-- The response that is read on connection `k`. -/
def Action.response (a : Action) (k : Nat) : Option Response :=
  match a with
  | .reader j (.read resp) => if j = k then some resp else none
  | _ => none

def State.streams (s : State) : Streams where
  count := s.count
  written k := (s.conns k).written
  received k := (s.conns k).received

theorem Conn.ReaderRule.streams {c : Conn} {b : LoopAction} (rule : Conn.ReaderRule exit c b d) :
    d.written = c.written ∧ d.received = c.received ++ ((Action.reader j b).response j).toList := by
  cases rule with
  | _ => simp [Action.response]

theorem Conn.WriterRule.streams {c : Conn} {b : LoopAction}
    (rule : Conn.WriterRule id exit c b d) :
    c.written <+: d.written ∧ d.received = c.received := by
  cases rule with
  | _ => simp

namespace State

theorem streams_step (rule : Rule s a t) : s.streams.Go a.response t.streams := by
  cases rule with
  | @opened l first at_connect =>
    exact .of_opened Conn.written Conn.received rfl
  | @reader j b d moves =>
    obtain ⟨written, received⟩ := moves.streams (j := j)
    exact .of_conns Conn.written Conn.received (written ▸ List.prefix_rfl)
      (received ▸ List.prefix_rfl)
  | writer moves =>
    obtain ⟨written, received⟩ := moves.streams
    exact .of_conns Conn.written Conn.received written (received ▸ List.prefix_append _ _)
  | spawnReader | spawnWriter | spawnJoiner | notify =>
    exact .of_conns Conn.written Conn.received List.prefix_rfl (List.prefix_append _ _)
  | refused =>
    unfold streams
    rw [startFailed_conns, startFailed_count]
    exact .refl
  | _ => exact .refl

end State

end ClientAsync

namespace Rendezvous

/-! ## The system -/

/-- A listener, blocking or async, or a call of `connect`. -/
inductive Party where
  | sync (i : Nat)
  | async (i : Nat)
  | call (j : Nat)
  deriving DecidableEq, Repr

/-- The party is a listener. -/
def Party.Listens : Party → Prop
  | .call _ => False
  | _ => True

/-- The client end of a connection; a call of `connect` has one. -/
structure End where
  party : Party
  conn : Nat
  deriving DecidableEq, Repr

/-- The id of each party, and the target of each call of `connect`. -/
structure Parties where
  id : Party → String
  target : Nat → String

/-- A call of `connect`, sync or async, by what it has written and read. -/
structure Call where
  written : List Request
  received : List Response
  deriving DecidableEq, Repr

namespace Call

/-- The address it ends with, once there is a response. -/
def result (x : Call) : Option (Except ConnectError SocketAddr) :=
  match x.received with
  | [] => none
  | resp :: _ =>
    match resp.cmd with
    | some cmd => connect [cmd]
    | none => some (.error .invalidServerResponse)

def streams (x : Call) : Streams where
  count := 1
  written := update (fun _ => []) 0 x.written
  received := update (fun _ => []) 0 x.received

end Call

/-- The server and the clients; `peer` is the client end of each connection. -/
structure State where
  server : Tcp.State
  sync : Nat → Client.State
  async : Nat → ClientAsync.State
  calls : Nat → Call
  peer : Nat → Option End

/-- A step of the server; it accepts the connection of a client, or is given the next frame on one;
a step of a client, which writes its request or reads the next response. -/
inductive Action where
  | server (a : Tcp.Action)
  | accept (e : End) (addr : SocketAddr)
  | deliver (c : Nat)
  | sync (i : Nat) (a : Client.Action)
  | async (i : Nat) (a : ClientAsync.Action)
  | write (j : Nat)
  | read (c : Nat)
  deriving DecidableEq, Repr

/-- The frames the server has been given on connection `c`. -/
def delivered (log : List Event) (c : Nat) : List Request :=
  log.filterMap fun e => match e with
    | .sent d req => if d = c then some req else none
    | _ => none

/-- The request of a call of `connect`. -/
def Parties.isync (p : Parties) (j : Nat) : Request :=
  ⟨p.id (.call j), some (.isync ⟨p.target j⟩)⟩

namespace State

def init (p : Parties) : State where
  server := .init
  sync i := .init (p.id (.sync i))
  async i := .init (p.id (.async i))
  calls _ := ⟨[], []⟩
  peer _ := none

def streams (s : State) : Party → Streams
  | .sync i => (s.sync i).streams
  | .async i => (s.async i).streams
  | .call j => (s.calls j).streams

/-- The client has opened its end. -/
def Opened (s : State) (e : End) : Prop := e.conn < (s.streams e.party).count

instance (s : State) (e : End) : Decidable (s.Opened e) := inferInstanceAs (Decidable (_ < _))

def written (s : State) (e : End) : List Request := (s.streams e.party).written e.conn

def received (s : State) (e : End) : List Response := (s.streams e.party).received e.conn

@[simp] def setSync (s : State) (i : Nat) (x : Client.State) : State :=
  { s with sync := update s.sync i x }

@[simp] def setAsync (s : State) (i : Nat) (x : ClientAsync.State) : State :=
  { s with async := update s.async i x }

@[simp] def setCall (s : State) (j : Nat) (x : Call) : State :=
  { s with calls := update s.calls j x }

/-- The next frame on connection `c`, of which `e` is the client end. -/
def nextFrame (s : State) (c : Nat) (e : End) : Option Request :=
  (s.written e)[(delivered s.server.log c).length]?

/-- The next response on it. -/
def nextResponse (s : State) (c : Nat) (e : End) : Option Response :=
  ((Tcp.written s.server.log c)[(s.received e).length]?).map response

/-- The client at `e` reads a response; a call of `connect` reads one, after its request. -/
def receive (s : State) (e : End) (resp : Response) : Option State :=
  match e with
  | ⟨.sync i, k⟩ => ((s.sync i).step (.loop k (.read resp))).map (s.setSync i)
  | ⟨.async i, k⟩ => ((s.async i).step (.reader k (.read resp))).map (s.setAsync i)
  | ⟨.call j, k⟩ =>
    if k = 0 ∧ (s.calls j).written ≠ [] ∧ (s.calls j).received = [] then
      some (s.setCall j { s.calls j with received := [resp] })
    else none

/-- The server's own steps are those that give it no connection and no frame, a client's own steps
those that read nothing. -/
def step (p : Parties) (s : State) : Action → Option State
  | .server a =>
    match a with
    | .accept _ | .client _ _ => none
    | a => (s.server.step a).map fun server => { s with server }
  | .accept e addr =>
    if s.Opened e ∧ ∀ c < s.server.count + 1, s.peer c ≠ some e then
      (s.server.step (.accept addr)).map fun server =>
        { s with server, peer := update s.peer (s.server.count + 1) (some e) }
    else none
  | .deliver c =>
    (s.peer c).bind fun e => (s.nextFrame c e).bind fun req =>
      (s.server.step (.client c req)).map fun server => { s with server }
  | .sync i a =>
    match a with
    | .loop _ (.read _) => none
    | a => ((s.sync i).step a).map (s.setSync i)
  | .async i a =>
    match a with
    | .reader _ (.read _) => none
    | a => ((s.async i).step a).map (s.setAsync i)
  | .write j =>
    if (s.calls j).written = [] then
      some (s.setCall j { s.calls j with written := [p.isync j] })
    else none
  | .read c => (s.peer c).bind fun e => (s.nextResponse c e).bind (s.receive e)

end State

/-- The runs of the system. -/
abbrev Run (p : Parties) := Transition.Run (State.step p) (State.init p)

/-! ## Steps -/

namespace State

variable {p : Parties} {s t : State} {a : Action} {c d : Nat} {e : End} {q : Party}

/-- The responses that a client reads are next on their connections. -/
def Reads (s : State) (q : Party) (resp : Nat → Option Response) : Prop :=
  ∀ k r, resp k = some r → ∃ c, s.peer c = some ⟨q, k⟩ ∧ s.nextResponse c ⟨q, k⟩ = some r

/-- The ways a step can go. -/
inductive Rule (p : Parties) (s : State) : Action → State → Prop where
  | server {server : Tcp.State} {a : Tcp.Action} (step : s.server.step a = some server)
      (own : ∀ c req, a ≠ .client c req) : Rule p s (.server a) { s with server }
  | accept {server : Tcp.State} {e : End} {addr : SocketAddr} (opened : s.Opened e)
      (unlinked : ∀ c ≤ s.server.count, s.peer c ≠ some e)
      (step : s.server.step (.accept addr) = some server) :
      Rule p s (.accept e addr)
        { s with server, peer := update s.peer (s.server.count + 1) (some e) }
  | deliver {server : Tcp.State} {c : Nat} {e : End} {req : Request} (peer : s.peer c = some e)
      (next : s.nextFrame c e = some req) (step : s.server.step (.client c req) = some server) :
      Rule p s (.deliver c) { s with server }
  | sync {i : Nat} {a : Client.Action} {x : Client.State} {act : Action}
      (step : (s.sync i).step a = some x) (reads : s.Reads (.sync i) a.response) :
      Rule p s act (s.setSync i x)
  | async {i : Nat} {a : ClientAsync.Action} {x : ClientAsync.State} {act : Action}
      (step : (s.async i).step a = some x) (reads : s.Reads (.async i) a.response) :
      Rule p s act (s.setAsync i x)
  | write {j : Nat} (unwritten : (s.calls j).written = []) :
      Rule p s (.write j) (s.setCall j { s.calls j with written := [p.isync j] })
  | answer {j : Nat} {resp : Response} {act : Action} (unread : (s.calls j).received = [])
      (reads : s.Reads (.call j) fun k => if 0 = k then some resp else none) :
      Rule p s act (s.setCall j { s.calls j with received := [resp] })

theorem reads_singleton {k : Nat} {resp : Response} (peer : s.peer c = some ⟨q, k⟩)
    (next : s.nextResponse c ⟨q, k⟩ = some resp) :
    s.Reads q fun k' => if k = k' then some resp else none := by
  intro k' r hr
  obtain ⟨rfl, rfl⟩ : k = k' ∧ resp = r := by simpa using hr
  exact ⟨c, peer, next⟩

theorem rule_of_receive {resp : Response} (peer : s.peer c = some e)
    (next : s.nextResponse c e = some resp) (h : s.receive e resp = some t) : Rule p s a t := by
  obtain ⟨q, k⟩ := e
  cases q with
  | sync i =>
    obtain ⟨x, hx, rfl⟩ := Option.map_eq_some_iff.mp h
    exact .sync hx (reads_singleton peer next)
  | async i =>
    obtain ⟨x, hx, rfl⟩ := Option.map_eq_some_iff.mp h
    exact .async hx (reads_singleton peer next)
  | call j =>
    obtain ⟨⟨rfl, -, unread⟩, heq⟩ := Option.ite_none_right_eq_some.mp h
    obtain rfl := Option.some.inj heq
    exact .answer unread (reads_singleton peer next)

theorem rule_of_step (h : s.step p a = some t) : Rule p s a t := by
  cases a with
  | server a =>
    simp only [step] at h
    split at h
    · cases h
    · cases h
    · rename_i quiet
      obtain ⟨server, step, rfl⟩ := Option.map_eq_some_iff.mp h
      exact .server step fun c req => quiet c req
  | accept e addr =>
    obtain ⟨⟨opened, unlinked⟩, h⟩ := Option.ite_none_right_eq_some.mp h
    obtain ⟨server, step, rfl⟩ := Option.map_eq_some_iff.mp h
    exact .accept opened (fun c hc => unlinked c (Nat.lt_succ_of_le hc)) step
  | deliver c =>
    obtain ⟨e, peer, h⟩ := Option.bind_eq_some_iff.mp h
    obtain ⟨req, next, h⟩ := Option.bind_eq_some_iff.mp h
    obtain ⟨server, step, rfl⟩ := Option.map_eq_some_iff.mp h
    exact .deliver peer next step
  | sync i a =>
    simp only [step] at h
    split at h
    · cases h
    · rename_i quiet
      obtain ⟨x, hx, rfl⟩ := Option.map_eq_some_iff.mp h
      refine .sync hx fun k r hr => ?_
      unfold Client.Action.response at hr
      split at hr
      · exact absurd rfl (quiet _ _)
      · cases hr
  | async i a =>
    simp only [step] at h
    split at h
    · cases h
    · rename_i quiet
      obtain ⟨x, hx, rfl⟩ := Option.map_eq_some_iff.mp h
      refine .async hx fun k r hr => ?_
      unfold ClientAsync.Action.response at hr
      split at hr
      · exact absurd rfl (quiet _ _)
      · cases hr
  | write j =>
    obtain ⟨unwritten, h⟩ := Option.ite_none_right_eq_some.mp h
    obtain rfl := Option.some.inj h
    exact .write unwritten
  | read c =>
    obtain ⟨e, peer, h⟩ := Option.bind_eq_some_iff.mp h
    obtain ⟨resp, next, h⟩ := Option.bind_eq_some_iff.mp h
    exact rule_of_receive peer next h

/-! ### The parties go through runs of their own -/

variable {tr : List (State × Action)}

/-- The server is left alone, or takes a step, of its own or given a connection or a frame. -/
theorem server_step (h : s.step p a = some t) :
    t.server = s.server ∨ ∃ b, s.server.step b = some t.server ∧
      (a = .server b ∨ (∃ addr, b = .accept addr) ∨ ∃ c req, b = .client c req) := by
  cases rule_of_step h with
  | server step => exact .inr ⟨_, step, .inl rfl⟩
  | accept opened unlinked step => exact .inr ⟨_, step, .inr (.inl ⟨_, rfl⟩)⟩
  | deliver peer next step => exact .inr ⟨_, step, .inr (.inr ⟨_, _, rfl⟩)⟩
  | _ => exact .inl rfl

theorem server_run (run : Run p tr s) : ∃ tr', Tcp.Run tr' s.server :=
  run.project server fun _ _ _ h => (server_step h).imp_right fun ⟨b, step, _⟩ => ⟨b, step⟩

/-- The client end of a connection is known from the moment it is accepted. -/
theorem peer_step (h : s.step p a = some t) (peer : t.peer c = some e) :
    s.peer c = some e ∨ c = s.server.count + 1 ∧ ∃ addr, t.server = s.server.accept addr := by
  cases rule_of_step h with
  | @accept server e addr opened unlinked step =>
    by_cases hc : c = s.server.count + 1
    · obtain rfl := Option.some.inj step
      exact .inr ⟨hc, addr, rfl⟩
    · exact .inl (by simpa [hc] using peer)
  | _ => exact .inl peer

theorem sync_run (run : Run p tr s) (i : Nat) :
    ∃ tr', Client.Run (p.id (.sync i)) tr' (s.sync i) := by
  refine run.project (fun s => s.sync i) fun s a t h => ?_
  cases rule_of_step h with
  | @sync j b x _ step =>
    by_cases hi : i = j
    · subst hi
      exact .inr ⟨b, by simpa using step⟩
    · exact .inl (by simp [hi])
  | _ => exact .inl rfl

theorem async_run (run : Run p tr s) (i : Nat) :
    ∃ tr', ClientAsync.Run (p.id (.async i)) tr' (s.async i) := by
  refine run.project (fun s => s.async i) fun s a t h => ?_
  cases rule_of_step h with
  | @async j b x _ step =>
    by_cases hi : i = j
    · subst hi
      exact .inr ⟨b, by simpa using step⟩
    · exact .inl (by simp [hi])
  | _ => exact .inl rfl

/-! ### What a client adds to its streams -/

/-- The client `q` goes on, and may read a response on a connection. -/
structure Grows (q : Party) (resp : Nat → Option Response) (s t : State) : Prop where
  server : t.server = s.server
  peer : t.peer = s.peer
  others : ∀ q' ≠ q, t.streams q' = s.streams q'
  go : (s.streams q).Go resp (t.streams q)

theorem grows_setSync {i : Nat} {b : Client.Action} {x : Client.State}
    (step : (s.sync i).step b = some x) : Grows (.sync i) b.response s (s.setSync i x) := by
  have go := Client.State.streams_step (Client.State.rule_of_step step)
  refine ⟨rfl, rfl, fun q hq => ?_, by simpa [streams] using go⟩
  cases q with
  | sync j =>
    have hj : j ≠ i := fun h => hq (h ▸ rfl)
    simp [streams, hj]
  | _ => rfl

theorem grows_setAsync {i : Nat} {b : ClientAsync.Action} {x : ClientAsync.State}
    (step : (s.async i).step b = some x) : Grows (.async i) b.response s (s.setAsync i x) := by
  have go := ClientAsync.State.streams_step (ClientAsync.State.rule_of_step step)
  refine ⟨rfl, rfl, fun q hq => ?_, by simpa [streams] using go⟩
  cases q with
  | async j =>
    have hj : j ≠ i := fun h => hq (h ▸ rfl)
    simp [streams, hj]
  | _ => rfl

theorem grows_setCall {j : Nat} {x : Call} {resp : Nat → Option Response}
    (written : (s.calls j).written <+: x.written)
    (received : x.received <+: (s.calls j).received ++ (resp 0).toList) :
    Grows (.call j) resp s (s.setCall j x) := by
  refine ⟨rfl, rfl, fun q hq => ?_, ?_⟩
  · cases q with
    | call i =>
      have hi : i ≠ j := fun h => hq (h ▸ rfl)
      simp [streams, hi]
    | _ => rfl
  · have go : (s.calls j).streams.Go resp ⟨1, update (s.calls j).streams.written 0 x.written,
        update (s.calls j).streams.received 0 x.received⟩ :=
      .of_update (by simpa [Call.streams]) (by simpa [Call.streams])
    simpa [streams, Call.streams] using go

/-! ## The streams -/

/-- Each connection has one client end, and either end has read an initial part of what the other
one has written. -/
structure Linked (s : State) : Prop where
  opened : ∀ c e, s.peer c = some e → s.Opened e
  one : ∀ c d e, s.peer c = some e → s.peer d = some e → c = d
  accepted : ∀ c e, s.peer c = some e → c ≤ s.server.count
  frames : ∀ c e, s.peer c = some e → delivered s.server.log c <+: s.written e
  unsent : ∀ c, s.peer c = none → delivered s.server.log c = []
  responses : ∀ c e, s.peer c = some e →
    s.received e <+: (Tcp.written s.server.log c).map response
  unread : ∀ e, (∀ c, s.peer c ≠ some e) → s.received e = []

theorem linked_init : Linked (init p) := by
  constructor
  all_goals simp [init, delivered, Tcp.State.init]
  · rintro ⟨q, k⟩
    cases q with
    | call j => simp [received, streams, Call.streams]
    | _ => rfl

theorem delivered_sent {log : List Event} {req : Request} : delivered (log ++ [.sent c req]) d =
    delivered log d ++ if c = d then [req] else [] := by
  by_cases h : c = d <;> simp [delivered, h]

theorem mem_delivered {log : List Event} {req : Request} :
    req ∈ delivered log c ↔ .sent c req ∈ log := by
  simp only [delivered, List.mem_filterMap]
  constructor
  · rintro ⟨ev, hev, hreq⟩
    cases ev with
    | sent d req' =>
      obtain ⟨rfl, rfl⟩ : d = c ∧ req' = req := by simpa using hreq
      exact hev
    | _ => cases hreq
  · exact fun h => ⟨_, h, by simp⟩

/-- A frame comes in as the client of its connection. -/
theorem delivered_step {server server' : Tcp.State} {a : Tcp.Action}
    (step : server.step a = some server') (own : ∀ c req, a ≠ .client c req) :
    delivered server'.log = delivered server.log := by
  rcases Tcp.State.log_step (Tcp.State.rule_of_step step) with hl | ⟨ev, hl, emits⟩
  · rw [hl]
  · rw [hl]
    funext c
    cases emits with
    | sent accepted => exact absurd rfl (own _ _)
    | _ => simp [delivered]

theorem written_step {server server' : Tcp.State} {a : Tcp.Action}
    (step : server.step a = some server') (c : Nat) :
    Tcp.written server.log c <+: Tcp.written server'.log c := by
  rcases Tcp.State.log_step (Tcp.State.rule_of_step step) with hl | ⟨ev, hl, -⟩
  · exact hl ▸ List.prefix_rfl
  · rw [hl, Tcp.State.written_concat]
    exact List.prefix_append _ _

theorem count_step {server server' : Tcp.State} {a : Tcp.Action}
    (step : server.step a = some server') : server.count ≤ server'.count := by
  cases Tcp.State.rule_of_step step with
  | accept addr => exact Nat.le_succ _
  | _ => exact le_refl _

/-- The next element goes after the initial part it is found behind. -/
theorem prefix_concat {α : Type*} {xs ys : List α} {y : α} (h : xs <+: ys)
    (next : ys[xs.length]? = some y) : xs ++ [y] <+: ys := by
  obtain ⟨hlen, rfl⟩ := List.getElem?_eq_some_iff.mp next
  exact List.concat_get_prefix h hlen

theorem Linked.unlinked (linked : s.Linked) : s.peer (s.server.count + 1) = none := by
  cases hpeer : s.peer (s.server.count + 1) with
  | none => rfl
  | some e => exact absurd (linked.accepted _ e hpeer) (Nat.not_succ_le_self _)

theorem Linked.server (linked : s.Linked) {server : Tcp.State} {a : Tcp.Action}
    (step : s.server.step a = some server) (own : ∀ c req, a ≠ .client c req) :
    Linked { s with server } := by
  have kept := delivered_step step own
  refine ⟨linked.opened, linked.one, fun c e peer => ?_, fun c e peer => ?_, fun c free => ?_,
    fun c e peer => ?_, linked.unread⟩
  · exact (linked.accepted c e peer).trans (count_step step)
  · exact kept ▸ linked.frames c e peer
  · exact kept ▸ linked.unsent c free
  · exact (linked.responses c e peer).trans ((written_step step c).map _)

/-- A client's connection is accepted. -/
theorem Linked.accept (linked : s.Linked) {server' : Tcp.State} {addr : SocketAddr}
    (opened : s.Opened e) (unlinked : ∀ c ≤ s.server.count, s.peer c ≠ some e)
    (step : s.server.step (.accept addr) = some server') : Linked { s with
      server := server'
      peer := update s.peer (s.server.count + 1) (some e) } := by
  have fresh := linked.unlinked
  have unlinked : ∀ c, s.peer c ≠ some e := by
    intro c peer
    exact unlinked c (linked.accepted c e peer) peer
  have server := linked.server step nofun
  have count : server'.count = s.server.count + 1 := by
    obtain rfl := Option.some.inj step
    rfl
  have link : ∀ c e', update s.peer (s.server.count + 1) (some e) c = some e' ↔
      c = s.server.count + 1 ∧ e = e' ∨ s.peer c = some e' := by
    intro c e'
    by_cases hc : c = s.server.count + 1
    · subst hc
      simp [fresh]
    · simp [hc]
  refine ⟨fun c e' peer => ?_, fun c d e' hc hd => ?_, fun c e' peer => ?_, fun c e' peer => ?_,
    fun c free => ?_, fun c e' peer => ?_, fun e' free => ?_⟩
  · rcases (link c e').mp peer with ⟨-, rfl⟩ | old
    · exact opened
    · exact linked.opened c e' old
  · rcases (link c e').mp hc with ⟨rfl, rfl⟩ | hc <;> rcases (link d _).mp hd with ⟨rfl, heq⟩ | hd
    · rfl
    · exact absurd hd (unlinked d)
    · exact absurd (heq ▸ hc) (unlinked c)
    · exact linked.one c d e' hc hd
  · rcases (link c e').mp peer with ⟨rfl, -⟩ | old
    · exact count.ge
    · exact server.accepted c e' old
  · rcases (link c e').mp peer with ⟨rfl, rfl⟩ | old
    · exact server.unsent _ fresh ▸ List.nil_prefix
    · exact server.frames c e' old
  · have old : s.peer c = none := by
      cases hpeer : s.peer c with
      | none => rfl
      | some e' => cases free.symm.trans ((link c e').mpr (.inr hpeer))
    exact server.unsent c old
  · rcases (link c e').mp peer with ⟨rfl, rfl⟩ | old
    · have unread : s.received e = [] := linked.unread e unlinked
      exact unread ▸ List.nil_prefix
    · exact server.responses c e' old
  · exact linked.unread e' fun c peer => free c ((link c e').mpr (.inr peer))

/-- The server is given the next frame. -/
theorem Linked.deliver (linked : s.Linked) {server : Tcp.State} {req : Request}
    (peer : s.peer c = some e) (next : s.nextFrame c e = some req)
    (step : s.server.step (.client c req) = some server) : Linked { s with server } := by
  have grown := written_step step
  have count := count_step step
  have log : server.log = s.server.log ++ [.sent c req] := by
    obtain ⟨-, heq⟩ := Option.ite_none_right_eq_some.mp step
    obtain rfl := Option.some.inj heq
    rfl
  refine ⟨linked.opened, linked.one, fun d e' peer' => (linked.accepted d e' peer').trans count,
    fun d e' peer' => ?_, fun d free => ?_,
    fun d e' peer' => (linked.responses d e' peer').trans ((grown d).map _), linked.unread⟩
  all_goals
    dsimp only
    rw [log, delivered_sent]
  · by_cases hd : c = d
    · subst hd
      obtain rfl := Option.some.inj (peer.symm.trans peer')
      rw [if_pos rfl]
      exact prefix_concat (linked.frames c e peer) next
    · rw [if_neg hd, List.append_nil]
      exact linked.frames d e' peer'
  · have hd : c ≠ d := by
      rintro rfl
      cases peer.symm.trans free
    rw [if_neg hd, List.append_nil]
    exact linked.unsent d free

namespace Grows

variable {resp : Nat → Option Response}

theorem opened (grows : Grows q resp s t) (h : s.Opened e) : t.Opened e := by
  unfold Opened at *
  by_cases hq : e.party = q
  · subst hq
    exact h.trans_le grows.go.count
  · rwa [grows.others _ hq]

theorem written (grows : Grows q resp s t) (h : s.Opened e) : s.written e <+: t.written e := by
  unfold State.written
  by_cases hq : e.party = q
  · subst hq
    exact grows.go.written _ h
  · rw [grows.others _ hq]

theorem received (grows : Grows q resp s t) : t.received e <+: s.received e ∨
    e.party = q ∧ ∃ r, resp e.conn = some r ∧ t.received e <+: s.received e ++ [r] := by
  unfold State.received
  by_cases hq : e.party = q
  · subst hq
    have received := grows.go.received e.conn
    cases hresp : resp e.conn with
    | none => exact .inl (by simpa [hresp] using received)
    | some r => exact .inr ⟨rfl, r, rfl, by simpa [hresp] using received⟩
  · rw [grows.others _ hq]
    exact .inl List.prefix_rfl

end Grows

/-- A client goes on. -/
theorem Linked.client (linked : s.Linked) {resp : Nat → Option Response}
    (grows : Grows q resp s t) (reads : s.Reads q resp) : t.Linked := by
  refine ⟨fun c e peer => ?_, fun c d e hc hd => ?_, fun c e peer => ?_, fun c e peer => ?_,
    fun c free => ?_, fun c e peer => ?_, fun e free => ?_⟩
  all_goals rw [grows.peer] at *
  · exact grows.opened (linked.opened c e peer)
  · exact linked.one c d e hc hd
  · exact grows.server ▸ linked.accepted c e peer
  · exact grows.server ▸ (linked.frames c e peer).trans (grows.written (linked.opened c e peer))
  · exact grows.server ▸ linked.unsent c free
  · rw [grows.server]
    have responses := linked.responses c e peer
    obtain old | ⟨rfl, r, hr, new⟩ := grows.received (e := e)
    · exact old.trans responses
    · obtain ⟨c', peer', next⟩ := reads e.conn r hr
      obtain rfl := linked.one c c' e peer peer'
      refine new.trans (prefix_concat responses ?_)
      rw [List.getElem?_map]
      exact next
  · obtain old | ⟨rfl, r, hr, new⟩ := grows.received (e := e)
    · exact List.prefix_nil.mp (linked.unread e free ▸ old)
    · obtain ⟨c, peer, -⟩ := reads e.conn r hr
      exact absurd peer (free c)

theorem linked_step (rule : Rule p s a t) (linked : s.Linked) : t.Linked := by
  cases rule with
  | server step own => exact linked.server step own
  | accept opened unlinked step => exact linked.accept opened unlinked step
  | deliver peer next step => exact linked.deliver peer next step
  | sync step reads => exact linked.client (grows_setSync step) reads
  | async step reads => exact linked.client (grows_setAsync step) reads
  | @write j unwritten =>
    have grows : Grows (.call j) (fun _ => none) s
        (s.setCall j { s.calls j with written := [p.isync j] }) :=
      grows_setCall (by simp [unwritten]) (by simp)
    exact linked.client grows nofun
  | answer unread reads =>
    exact linked.client (grows_setCall List.prefix_rfl (by simp [unread])) reads

theorem linked_of_run (run : Run p tr s) : s.Linked :=
  run.invariant linked_init fun _ _ _ linked h => linked_step (rule_of_step h) linked

end State

end Rendezvous

end Rndz.Tcp
