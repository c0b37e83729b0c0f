import Mathlib.Algebra.Order.Group.Int
import Mathlib.Tactic.Linarith
import Rndz.Lib.Heartbeat
import Rndz.Lib.Transition
import Rndz.Udp.Listener

/-!
# A listener whose pings get through is not expired

The background loop of a listener, with all its servers, and one of these servers, under one
clock. An iteration takes time: the ping time of the server is looked at, the ping is sent, and
the next ping time is set at clock values of their own. A ping is processed by the server, even
more than once, or lost; the server may collect garbage at any time, and the loop may receive
anything.

With iterations that start at most `d` apart, two pings are at most `15 s + 3 d` apart: the next
ping time may be set `d` after the ping, the last look that comes too early may be the last before
a new iteration, and the look and the ping of that may take another `d`.
-/
namespace Rndz.Udp.Keepalive

open Net Proto Transition Heartbeat
open Function (update update_of_ne)

/-- Where the loop stands with the ping of the server: between two iterations, before the ping
time is looked at, before the ping is sent, before the next ping time is set, or past all that. -/
inductive Point where
  | between
  | begun
  | due (checkedAt : Instant)
  | sent (checkedAt : Instant)
  | passed (pinged : Bool) (r : Reading)
  deriving DecidableEq, Repr

/-- `loopAt` is the time at which the loop has started its latest iteration, `loop` has its
variables before this iteration, or after it if it is over, and `pings` are the pings to the
server, the latest first. -/
structure State where
  now : Instant
  loopAt : Instant
  loop : Loop
  point : Point
  pings : List (Beat Instant)
  server : Server

/-- The clock advances; the loop starts an iteration, looks at the ping time of the server, sends
the ping, sets the next ping time, and finishes the iteration; the server receives a ping from an
address, a ping is lost, the server receives something else, or collects garbage. -/
inductive Action where
  | tick (time : Nat)
  | start
  | check
  | send
  | set (variation : Variation)
  | finish (it : Iteration)
  | deliver (k : Nat) (addr : SocketAddr)
  | lose (k : Nat)
  | request (req : Request) (addr : SocketAddr)
  | gc

/-- The readings of a socket whose ping time was looked at and is not set. -/
def checked (checkedAt : Instant) : Reading := ⟨checkedAt, checkedAt, noVariation⟩

/-- The loop goes by the ping time that its variables have. -/
def Point.Goes (pingTime : Option Instant) : Point → Prop
  | .due checkedAt | .sent checkedAt => pingDue pingTime (checked checkedAt) = true
  | .passed pinged r => pingDue pingTime r = pinged
  | _ => True

/-- The iteration, with these readings for socket `j`. -/
def withReading (it : Iteration) (j : Nat) (r : Reading) : Iteration :=
  { it with readings := update it.readings j r }

/-- A ping is sent to server `j`. -/
def pingsServer (c : Thread) (j : Nat) (out : List Sent) : Bool :=
  out.any fun d => d.socket = j && d.req = c.ping

/-- A request under another id, or an `Rsync`, which the listener itself sends too. -/
def foreign (c : Thread) (req : Request) : Bool :=
  match req.cmd with
  | some (.rsync _) => true
  | _ => req.id ≠ c.myid

/-- The bounds: the time between two iterations and the delay of a ping, in nanoseconds, and
the number of pings that may be lost in a row. -/
structure Bounds where
  period : Nat
  delay : Nat
  losses : Nat

/-- The longest time between two pings, a little too long: a variation is below 5 s. -/
def Bounds.gap (b : Bounds) : Int := fromSecs 15 + 3 * b.period

/-- If no two pings are further apart than `gap`, a ping reaches the server before the entry of the
last one expires. -/
def Bounds.Fast (b : Bounds) (gap : Int) : Prop := (b.losses + 1) * gap + b.delay < fromSecs 60

namespace State

/-- The listener's loop starts; its id is not registered at the server. -/
def init (c : Thread) (lastPong : List (Option Instant)) (start : Instant) (server : Server) :
    State where
  now := start
  loopAt := start
  loop := c.start lastPong
  point := .between
  pings := []
  server := server

/-- The look at the ping time. -/
def checkStep (j : Nat) (s : State) : Option State :=
  s.loop.pingTimes[j]?.map fun pingTime =>
    { s with
      point := if pingDue pingTime (checked s.now) then .due s.now
        else .passed false (checked s.now) }

def step (c : Thread) (j : Nat) (s : State) : Action → Option State
  | .tick time => some { s with now := s.now + time }
  | .start => if s.point = .between then some { s with loopAt := s.now, point := .begun } else none
  | .check => if s.point = .begun then s.checkStep j else none
  | .send =>
    match s.point with
    | .due checkedAt =>
      some { s with point := .sent checkedAt, pings := ⟨s.now, .flying⟩ :: s.pings }
    | _ => none
  | .set variation =>
    match s.point with
    | .sent checkedAt => some { s with point := .passed true ⟨checkedAt, s.now, variation⟩ }
    | _ => none
  | .finish it =>
    match s.point with
    | .passed _ r =>
      some { s with loop := (c.iterate s.loop (withReading it j r)).1, point := .between }
    | _ => none
  | .deliver k addr =>
    match s.pings[k]? with
    | some ping =>
      if ping.fate ≠ .lost then
        some
          { s with
            pings := decideAt s.pings k .arrived
            server := (s.server.handleRequest s.now c.ping addr).1 }
      else none
    | none => none
  | .lose k =>
    match s.pings[k]? with
    | some ping =>
      if ping.fate = .flying then some { s with pings := decideAt s.pings k .lost } else none
    | none => none
  | .request req addr =>
    if foreign c req then some { s with server := (s.server.handleRequest s.now req addr).1 }
    else none
  | .gc => some { s with server := s.server.gc s.now s.now }

/-- The loop and the network keep to the bounds. -/
structure Timely (b : Bounds) (s : State) : Prop where
  loop : s.now ≤ s.loopAt + b.period
  delay : Prompt (b.delay : Int) s.now s.pings
  losses : FewLost b.losses s.pings

/-- The server knows the listener. -/
def Registered (c : Thread) (s : State) : Prop := (s.server.clients c.myid).isSome = true

variable {c : Thread} {j : Nat} {b : Bounds} {s t : State} {a : Action}
  {tr : List (State × Action)} {pingTime : Option Instant}

/-- The ways a step can go. -/
inductive Rule (c : Thread) (j : Nat) (s : State) : State → Prop
  | tick (time : Nat) : Rule c j s { s with now := s.now + time }
  | start (between : s.point = .between) : Rule c j s { s with loopAt := s.now, point := .begun }
  | checkDue {pingTime : Option Instant} (begun : s.point = .begun)
      (htime : s.loop.pingTimes[j]? = some pingTime)
      (due : pingDue pingTime (checked s.now) = true) :
      Rule c j s { s with point := .due s.now }
  | checkEarly {pingTime : Option Instant} (begun : s.point = .begun)
      (htime : s.loop.pingTimes[j]? = some pingTime)
      (early : pingDue pingTime (checked s.now) = false) :
      Rule c j s { s with point := .passed false (checked s.now) }
  | send {checkedAt : Instant} (due : s.point = .due checkedAt) :
      Rule c j s { s with point := .sent checkedAt, pings := ⟨s.now, .flying⟩ :: s.pings }
  | set {checkedAt : Instant} (sent : s.point = .sent checkedAt) (variation : Variation) :
      Rule c j s { s with point := .passed true ⟨checkedAt, s.now, variation⟩ }
  | finish {sent : Bool} {r : Reading} (passed : s.point = .passed sent r) (it : Iteration) :
      Rule c j s
        { s with loop := (c.iterate s.loop (withReading it j r)).1, point := .between }
  | deliver {k : Nat} {ping : Beat Instant} (hk : s.pings[k]? = some ping) (addr : SocketAddr) :
      Rule c j s
        { s with
          pings := decideAt s.pings k .arrived
          server := (s.server.handleRequest s.now c.ping addr).1 }
  | lose {k : Nat} {ping : Beat Instant} (hk : s.pings[k]? = some ping)
      (flying : ping.fate = .flying) : Rule c j s { s with pings := decideAt s.pings k .lost }
  | request {server : Server} (same : server.clients c.myid = s.server.clients c.myid) :
      Rule c j s { s with server := server }
  | gc : Rule c j s { s with server := s.server.gc s.now s.now }

theorem clients_ping (server : Server) (now : Instant) (addr : SocketAddr) :
    (server.handleRequest now c.ping addr).1.clients c.myid = some ⟨addr, now⟩ := by
  simp [Server.handleRequest, Thread.ping, Server.handlePing, Server.touch]

/-- No other request touches the entry of the listener. -/
theorem clients_foreign {req : Request} (h : foreign c req = true) (server : Server)
    (now : Instant) (addr : SocketAddr) :
    (server.handleRequest now req addr).1.clients c.myid = server.clients c.myid := by
  unfold foreign at h
  unfold Server.handleRequest
  split at h
  · rename_i rsync cmd
    simp only [cmd, Server.handleRsync]
    split <;> rfl
  · have other : c.myid ≠ req.id := Ne.symm (of_decide_eq_true h)
    split
    · simp [Server.handlePing, Server.touch, update_of_ne other]
    · unfold Server.handleIsync
      split
      · simp [Server.touch, update_of_ne other]
      · rfl
    · unfold Server.handleRsync
      split <;> rfl
    · simp [Server.handleBye, update_of_ne other]
    all_goals rfl

theorem rule_of_step (h : s.step c j a = some t) : Rule c j s t := by
  cases a with
  | tick time =>
    obtain rfl := Option.some.inj h
    exact .tick time
  | start =>
    obtain ⟨between, h⟩ := Option.ite_none_right_eq_some.mp h
    obtain rfl := Option.some.inj h
    exact .start between
  | check =>
    obtain ⟨begun, h⟩ := Option.ite_none_right_eq_some.mp h
    obtain ⟨pingTime, htime, rfl⟩ := Option.map_eq_some_iff.mp h
    cases due : pingDue pingTime (checked s.now) with
    | true => exact .checkDue begun htime due
    | false => exact .checkEarly begun htime due
  | send =>
    simp only [step] at h
    split at h
    · rename_i checkedAt due
      obtain rfl := Option.some.inj h
      exact .send due
    · cases h
  | set variation =>
    simp only [step] at h
    split at h
    · rename_i checkedAt sent
      obtain rfl := Option.some.inj h
      exact .set sent variation
    · cases h
  | finish it =>
    simp only [step] at h
    split at h
    · rename_i sent r passed
      obtain rfl := Option.some.inj h
      exact .finish passed it
    · cases h
  | deliver k addr =>
    simp only [step] at h
    split at h
    · rename_i ping hk
      split at h
      · obtain rfl := Option.some.inj h
        exact .deliver hk addr
      · cases h
    · cases h
  | lose k =>
    simp only [step] at h
    split at h
    · rename_i ping hk
      split at h
      · rename_i flying
        obtain rfl := Option.some.inj h
        exact .lose hk flying
      · cases h
    · cases h
  | request req addr =>
    simp only [step] at h
    split at h
    · rename_i hforeign
      obtain rfl := Option.some.inj h
      exact .request (clients_foreign hforeign _ _ _)
    · cases h
  | gc =>
    obtain rfl := Option.some.inj h
    exact .gc

/-! ## The pings of the iterations -/

def Follows (j : Nat) (s : State) : Prop :=
  ∃ pingTime, s.loop.pingTimes[j]? = some pingTime ∧ s.point.Goes pingTime

theorem pingTimes_finish {it : Iteration} {r : Reading} {l : Loop}
    (htime : l.pingTimes[j]? = some pingTime) :
    (c.iterate l (withReading it j r)).1.pingTimes[j]? = some (nextPing pingTime r) := by
  simp [Thread.pingTimes_iterate, htime, withReading]

theorem follows_step (rule : Rule c j s t) (follows : Follows j s) : Follows j t := by
  obtain ⟨pingTime, htime, goes⟩ := follows
  cases rule with
  | start | tick | deliver | lose | request | gc => exact ⟨pingTime, htime, by trivial⟩
  | checkDue begun htime' due => exact ⟨_, htime', due⟩
  | checkEarly begun htime' early => exact ⟨_, htime', early⟩
  | send due =>
    rw [due] at goes
    exact ⟨pingTime, htime, goes⟩
  | set sent =>
    rw [sent] at goes
    exact ⟨pingTime, htime, goes⟩
  | finish passed it => exact ⟨_, pingTimes_finish htime, trivial⟩

/-- An iteration of the loop, as it is finished, has sent the ping that was sent in it. -/
theorem pings_of_finish (hj : j < c.svrSks.length) (follows : Follows j s) {sent : Bool}
    {r : Reading} (passed : s.point = .passed sent r) (it : Iteration) :
    pingsServer c j (c.iterate s.loop (withReading it j r)).2 = sent := by
  obtain ⟨pingTime, htime, goes⟩ := follows
  rw [passed] at goes
  have hread : (withReading it j r).readings j = r := by simp [withReading]
  rw [Bool.eq_iff_iff, pingsServer, List.any_eq_true, ← goes]
  constructor
  · rintro ⟨d, hd, hping⟩
    simp only [Bool.and_eq_true, decide_eq_true_eq] at hping
    obtain ⟨pingTime', htime', due⟩ := Thread.due_of_ping hd hping.2
    rw [hping.1, htime] at htime'
    rw [hping.1, hread] at due
    rwa [Option.some.inj htime']
  · intro due
    have due : pingDue pingTime ((withReading it j r).readings j) = true := hread.symm ▸ due
    exact ⟨_, Thread.ping_sent (List.getElem?_eq_getElem hj) htime due, by simp⟩

theorem follows_init {lastPong : List (Option Instant)} {start : Instant} {server : Server}
    (hj : j < c.svrSks.length) : Follows j (init c lastPong start server) :=
  ⟨none, by simp [init, Thread.start, hj], trivial⟩

/-- In every run the iterations of the loop send the pings that are sent. -/
theorem iterations_ping {lastPong : List (Option Instant)} {start : Instant} {server : Server}
    (hj : j < c.svrSks.length)
    (run : Transition.Run (step c j) (init c lastPong start server) tr s) {pinged : Bool}
    {r : Reading} (passed : s.point = .passed pinged r) (it : Iteration) :
    pingsServer c j (c.iterate s.loop (withReading it j r)).2 = pinged := by
  refine pings_of_finish hj ?_ passed it
  exact run.invariant (follows_init hj) fun s a t follows h => follows_step (rule_of_step h) follows

/-! ## The pings follow each other -/

end State

namespace Point

/-- The ping of the iteration, if it is due, is not sent yet. -/
def early : Point → Bool
  | .between | .begun | .due _ => true
  | _ => false

/-- The latest iteration with no ping of its own, which has started at `loopAt`, is close to the
ping time. -/
def Keeps (period : Int) (loopAt pingTime : Instant) : Point → Prop
  | .between | .passed false _ => loopAt ≤ pingTime + fromSecs 10
  | .begun | .due _ => loopAt ≤ pingTime + fromSecs 10 + period
  | _ => False

theorem Keeps.close {point : Point} {period : Int} {loopAt pingTime : Instant}
    (hperiod : 0 ≤ period) (keeps : point.Keeps period loopAt pingTime) :
    loopAt ≤ pingTime + fromSecs 10 + period := by
  unfold Keeps at keeps
  split at keeps
  · linarith
  · linarith
  · exact keeps
  · exact keeps
  · exact keeps.elim

end Point

/-- The ping time is close to the last ping, and the latest iteration to the ping time. -/
inductive Scheduled (period : Int) (loopAt : Instant) :
    Point → List Instant → Option Instant → Prop
  | never {point : Point} (early : point.early = true) : Scheduled period loopAt point [] none
  | sent {checkedAt last : Instant} {rest : List Instant} {pingTime : Option Instant}
      (after : loopAt ≤ last) : Scheduled period loopAt (.sent checkedAt) (last :: rest) pingTime
  | set {r : Reading} {last : Instant} {rest : List Instant} {pingTime : Option Instant}
      (after : loopAt ≤ last) (later : last ≤ r.setAt) (soon : r.setAt ≤ last + period) :
      Scheduled period loopAt (.passed true r) (last :: rest) pingTime
  | pinged {point : Point} {last pingTime : Instant} {rest : List Instant}
      (soon : pingTime ≤ last + period + fromMillis 4999)
      (keeps : point.Keeps period loopAt pingTime) :
      Scheduled period loopAt point (last :: rest) (some pingTime)

namespace State

variable {c : Thread} {j : Nat} {b : Bounds} {s t : State} {a : Action}
  {tr : List (State × Action)} {pingTime : Option Instant}

/-- The schedule of the pings, as far as the loop has got with it. -/
structure OnSchedule (j : Nat) (b : Bounds) (s : State) : Prop where
  follows : Follows j s
  scheduled : ∀ pingTime, s.loop.pingTimes[j]? = some pingTime →
    Scheduled b.period s.loopAt s.point (times s.pings) pingTime
  started : s.loopAt ≤ s.now
  past : ∀ t ∈ times s.pings, t ≤ s.now

/-- Not more than a gap has passed since the last ping. -/
theorem recent (on : OnSchedule j b s) (timely : Timely b s) :
    ∀ t ∈ (times s.pings).head?, s.now ≤ t + b.gap := by
  obtain ⟨pingTime, htime, -⟩ := on.follows
  have scheduled := on.scheduled pingTime htime
  have hloop := timely.loop
  have hperiod : (0 : Int) ≤ b.period := Int.natCast_nonneg _
  generalize times s.pings = sent at scheduled
  generalize s.point = point at scheduled
  cases scheduled with
  | never => simp
  | @sent checkedAt last rest pingTime after | @set r last rest pingTime after =>
    intro t ht
    obtain rfl : last = t := by simpa using ht
    simp only [Bounds.gap, fromSecs, Nat.cast_ofNat] at *
    linarith
  | @pinged point last pingTime rest soon keeps =>
    intro t ht
    obtain rfl : last = t := by simpa using ht
    have close := keeps.close hperiod
    simp only [Bounds.gap, fromSecs, fromMillis, Nat.cast_ofNat] at *
    linarith

theorem scheduled_start {sent : List Instant} {period : Int} (hloop : s.now ≤ s.loopAt + period)
    (scheduled : Scheduled period s.loopAt .between sent pingTime) :
    Scheduled period s.now .begun sent pingTime := by
  cases scheduled with
  | never => exact .never rfl
  | pinged soon keeps =>
    refine .pinged soon ?_
    simp only [Point.Keeps] at keeps ⊢
    linarith

theorem scheduled_due {sent : List Instant} {period : Int} {loopAt checkedAt : Instant}
    (scheduled : Scheduled period loopAt .begun sent pingTime) :
    Scheduled period loopAt (.due checkedAt) sent pingTime := by
  cases scheduled with
  | never => exact .never rfl
  | pinged soon keeps => exact .pinged soon keeps

/-- No ping is due before ten seconds are over. -/
theorem scheduled_early {sent : List Instant} {period : Int} (started : s.loopAt ≤ s.now)
    (early : pingDue pingTime (checked s.now) = false)
    (scheduled : Scheduled period s.loopAt .begun sent pingTime) :
    Scheduled period s.loopAt (.passed false (checked s.now)) sent pingTime := by
  cases scheduled with
  | never => cases early
  | @pinged point last pingTime rest soon keeps =>
    refine .pinged soon ?_
    have hle : elapsed pingTime s.now ≤ keepaliveTo := not_lt.mp (of_decide_eq_false early)
    have := (le_max_right 0 (s.now - pingTime)).trans hle
    rw [keepaliveTo] at this
    simp only [Point.Keeps]
    linarith

/-- The next ping time is close to the ping. -/
theorem scheduled_finish {sent : List Instant} {period : Int} {loopAt : Instant} {pinged : Bool}
    {r : Reading} (goes : pingDue pingTime r = pinged)
    (scheduled : Scheduled period loopAt (.passed pinged r) sent pingTime) :
    Scheduled period loopAt .between sent (nextPing pingTime r) := by
  rw [nextPing, goes]
  cases scheduled with
  | never early => cases early
  | @set r last rest pingTime after later soon =>
    have bound : ((r.variation : Nat) : Int) ≤ 4999 := by omega
    have positive : 0 ≤ ((r.variation : Nat) : Int) := by omega
    refine .pinged ?_ ?_ <;> simp only [Point.Keeps, fromMillis, fromSecs, Nat.cast_ofNat] <;>
      linarith
  | @pinged point last pingTime rest soon keeps =>
    cases pinged with
    | true => cases keeps
    | false => exact .pinged soon keeps

theorem onSchedule_step (on : OnSchedule j b s) (timely : Timely b s) (rule : Rule c j s t) :
    OnSchedule j b t := by
  have follows := follows_step rule on.follows
  obtain ⟨pingTime, htime, goes⟩ := on.follows
  have scheduled := on.scheduled pingTime htime
  have unique : ∀ pingTime', s.loop.pingTimes[j]? = some pingTime' → pingTime' = pingTime :=
    fun _ h => Option.some.inj (h.symm.trans htime)
  cases rule with
  | tick time =>
    have later : s.now ≤ s.now + time := by linarith
    exact ⟨follows, on.scheduled, on.started.trans later, fun t ht => (on.past t ht).trans later⟩
  | start between =>
    refine ⟨follows, fun pingTime' h => ?_, le_refl _, on.past⟩
    rw [between] at scheduled
    exact unique _ h ▸ scheduled_start timely.loop scheduled
  | checkDue begun htime' due =>
    refine ⟨follows, fun pingTime' h => ?_, on.started, on.past⟩
    rw [begun] at scheduled
    exact unique _ h ▸ scheduled_due scheduled
  | checkEarly begun htime' early =>
    refine ⟨follows, fun pingTime' h => ?_, on.started, on.past⟩
    rw [begun] at scheduled
    obtain rfl := unique _ htime'
    exact unique _ h ▸ scheduled_early on.started early scheduled
  | send due =>
    refine ⟨follows, fun pingTime' h => .sent on.started, on.started, ?_⟩
    exact List.forall_mem_cons.mpr ⟨le_refl _, on.past⟩
  | @set checkedAt sent variation =>
    refine ⟨follows, fun pingTime' h => ?_, on.started, on.past⟩
    rw [sent] at scheduled
    have past := on.past
    have hloop := timely.loop
    generalize times s.pings = pings at scheduled past
    cases scheduled with
    | never early => cases early
    | @sent checkedAt last rest pingTime after =>
      have before := past last List.mem_cons_self
      exact .set after before (by dsimp only; linarith)
    | pinged soon keeps => cases keeps
  | finish passed it =>
    refine ⟨follows, fun pingTime' h => ?_, on.started, on.past⟩
    rw [passed] at scheduled goes
    obtain rfl := Option.some.inj (h.symm.trans (pingTimes_finish htime))
    exact scheduled_finish goes scheduled
  | deliver hk addr | lose hk flying =>
    refine ⟨follows, fun pingTime' h => ?_, on.started, ?_⟩
    · rw [times_decideAt]
      exact on.scheduled pingTime' h
    · simpa using on.past
  | request same | gc => exact ⟨follows, on.scheduled, on.started, on.past⟩

/-! ## The server knows the listener -/

/-- The server knows the listener just when a ping has arrived, and since one such ping at
least. -/
structure Inv (c : Thread) (j : Nat) (b : Bounds) (s : State) : Prop where
  onSchedule : OnSchedule j b s
  paced : Paced b.gap s.pings
  seen : ∀ p ∈ s.pings, p.fate = .arrived →
    ∃ e, s.server.clients c.myid = some e ∧ p.sentAt ≤ e.lastPing
  arrived : ∀ e, s.server.clients c.myid = some e → ∃ p ∈ s.pings, p.fate = .arrived

theorem inv_init {lastPong : List (Option Instant)} {start : Instant} {server : Server}
    (hj : j < c.svrSks.length) (unknown : server.clients c.myid = none) :
    Inv c j b (init c lastPong start server) where
  onSchedule :=
    { follows := follows_init hj
      scheduled := by
        intro pingTime h
        obtain rfl : none = pingTime := by simpa [init, Thread.start, hj] using h
        exact .never rfl
      started := le_refl _
      past := by simp [init, times] }
  paced := List.isChain_nil
  seen := by simp [init]
  arrived := by simp [init, unknown]

/-! ## The entry of the listener does not expire -/

theorem not_expired (inv : Inv c j b s) (timely : Timely b s) (fast : b.Fast b.gap) {e : Client}
    (he : s.server.clients c.myid = some e) : s.now - fromSecs 60 < e.lastPing := by
  have hgap : 0 ≤ b.gap := by
    simp only [Bounds.gap, fromSecs]
    omega
  have hdelay : (0 : Int) ≤ b.delay := Int.natCast_nonneg _
  obtain ⟨p, hp, arrived, hnow⟩ := exists_arrived inv.paced timely.delay hgap hdelay timely.losses
    (recent inv.onSchedule timely) (inv.arrived e he)
  obtain ⟨e', he', hsent⟩ := inv.seen p hp arrived
  obtain rfl : e = e' := Option.some.inj (he.symm.trans he')
  have hfast : (b.losses + 1) • b.gap + b.delay < fromSecs 60 := by simpa [Bounds.Fast] using fast
  linarith

theorem clients_gc (inv : Inv c j b s) (timely : Timely b s) (fast : b.Fast b.gap) :
    (s.server.gc s.now s.now).clients c.myid = s.server.clients c.myid := by
  cases he : s.server.clients c.myid with
  | none => simp [Server.gc, he]
  | some e => simp [Server.gc, he, not_expired inv timely fast he]

/-- What the server knows goes on, as long as its entry does not change. -/
theorem inv_quiet (inv : Inv c j b s) (on : OnSchedule j b t) (pings : t.pings = s.pings)
    (same : t.server.clients c.myid = s.server.clients c.myid) : Inv c j b t where
  onSchedule := on
  paced := pings ▸ inv.paced
  seen := by
    rw [pings, same]
    exact inv.seen
  arrived := by
    rw [pings, same]
    exact inv.arrived

theorem inv_step (fast : b.Fast b.gap) (timely : Timely b s) (inv : Inv c j b s)
    (rule : Rule c j s t) : Inv c j b t := by
  have on := onSchedule_step inv.onSchedule timely rule
  cases rule with
  | send due =>
    refine ⟨on, paced_cons.mpr ⟨recent inv.onSchedule timely, inv.paced⟩, ?_, ?_⟩
    · exact List.forall_mem_cons.mpr ⟨by simp, inv.seen⟩
    · intro e he
      obtain ⟨p, hp, arrived⟩ := inv.arrived e he
      exact ⟨p, List.mem_cons_of_mem _ hp, arrived⟩
  | deliver hk addr =>
    refine ⟨on, paced_decideAt.mpr inv.paced, ?_, fun _ _ => ⟨_, decided_mem hk .arrived, rfl⟩⟩
    intro p hp _
    exact ⟨_, clients_ping _ _ _, on.past _ (mem_times hp)⟩
  | @lose k ping hk flying =>
    refine ⟨on, paced_decideAt.mpr inv.paced, ?_, ?_⟩
    · intro p hp arrived
      rcases mem_decideAt hp with hp | ⟨p', -, rfl⟩
      · exact inv.seen p hp arrived
      · cases arrived
    · intro e he
      obtain ⟨p, hp, arrived⟩ := inv.arrived e he
      have hne : p ≠ ping := by
        rintro rfl
        simp [arrived] at flying
      exact ⟨p, mem_decideAt_of_ne hk hp hne, arrived⟩
  | request same => exact inv_quiet inv on rfl same
  | gc => exact inv_quiet inv on rfl (clients_gc inv timely fast)
  | _ => exact inv_quiet inv on rfl rfl

/-- The bounds, where no more pings are lost at all than may be lost in a row. -/
def KeepsTo (b : Bounds) (s : State) : Prop :=
  s.now ≤ s.loopAt + b.period ∧
    (∀ p ∈ s.pings, p.fate = .flying → s.now ≤ p.sentAt + (b.delay : Int)) ∧
    s.pings.countP (·.fate = .lost) ≤ b.losses

instance (b : Bounds) (s : State) : Decidable (KeepsTo b s) :=
  inferInstanceAs (Decidable (_ ∧ _ ∧ _))

theorem KeepsTo.timely (h : KeepsTo b s) : Timely b s := ⟨h.1, h.2.1, fewLost_of_count h.2.2⟩

/-- An iteration in which nothing can be read. -/
def quiet : Iteration where
  readings _ := checked 0
  events := some fun _ => 0x000#16
  recv _ := .wouldBlock
  pongAt _ := 0

/-- An iteration that sends a ping takes some time after that. -/
def pingIteration (time : Nat) (variation : Variation) : List Action :=
  [.start, .check, .send, .tick time, .set variation, .finish quiet]

end State

end Rndz.Udp.Keepalive
