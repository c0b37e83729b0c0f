import Mathlib.Data.List.Induction
import Rndz.Udp.Sync

/-!
# The first `Redirect` with an address decides

What `connect` returns, described by what the servers send and not by its variables: it ends
at the first `Redirect` under its id whose address can be parsed, from a server that has not
reported its target as missing, be this `Redirect` good or not; and it does not even begin if
one server cannot be set up.
-/
namespace Rndz.Udp

open Net Proto

/-- The `Redirect` under the id `id` in what has been received. -/
def Received.redirect (id : String) : Received → Option Redirect
  | .datagram (some ⟨respId, some (.redirect rdr)⟩) => if respId = id then some rdr else none
  | _ => none

/-! ## The rounds by the clock -/

/-- The number of the round, and its start once it has begun. -/
structure Rounds where
  round : Nat
  start : Option Instant
  deriving DecidableEq, Repr

namespace Rounds

/-- The round of a poll that is made at `now`. -/
def pollAt (r : Rounds) (now : Instant) : Rounds :=
  match r.start with
  | none => ⟨r.round, some now⟩
  | some start => if elapsed start now < roundTimeout then r else ⟨r.round + 1, some now⟩

/-- A poll that breaks its round off is the last one in it. -/
def next (breaks : Tick → Bool) (r : Rounds) (t : Tick) : Rounds :=
  if breaks t then ⟨(r.pollAt t.checkedAt).round + 1, none⟩ else r.pollAt t.checkedAt

def after (breaks : Tick → Bool) (past : List Tick) : Rounds := past.foldl (next breaks) ⟨0, none⟩

end Rounds

/-- The poll `t` after the polls `past` is made in one of three rounds. -/
def InTime (breaks : Tick → Bool) (past : List Tick) (t : Tick) : Prop :=
  ((Rounds.after breaks past).pollAt t.checkedAt).round < 3

instance (breaks : Tick → Bool) (past : List Tick) (t : Tick) : Decidable (InTime breaks past t) :=
  inferInstanceAs (Decidable (_ < 3))

namespace Tick

/-- `poll` fails. -/
def fails (t : Tick) : Bool := t.events.isNone

/-- `poll` succeeds and reports that socket `i` can be read. -/
def readable (t : Tick) (i : Nat) : Bool := t.events.any fun events =>
  (events i).contains .pollin

/-- A `Redirect` under the id `id` can be read on socket `i`, one of `n`. -/
def Redirects (t : Tick) (id : String) (n i : Nat) (rdr : Redirect) : Prop :=
  i < n ∧ t.readable i = true ∧ (t.recv i).redirect id = some rdr

end Tick

/-! ## The decisive `Redirect` -/

section Spec

variable (id : String) (n : Nat)

/-- Server `i` has reported that the target is not found. -/
def NotFound (past : List Tick) (i : Nat) : Prop :=
  ∃ t ∈ past, ∃ rdr, t.Redirects id n i rdr ∧ rdr.addr = ""

/-- A `Redirect` with an address, from a server that has not reported that before. -/
structure Live (past : List Tick) (t : Tick) (i : Nat) (rdr : Redirect) : Prop where
  read : t.Redirects id n i rdr
  found : ¬NotFound id n past i
  parses : (SocketAddr.parse rdr.addr).isSome = true

/-- There has been none in time. -/
def NoneLive (past : List Tick) : Prop :=
  ∀ past' t rest, past = past' ++ t :: rest → InTime Tick.fails past' t →
    ∀ i rdr, ¬Live id n past' t i rdr

/-- The first one in time. -/
structure Decisive (past : List Tick) (t : Tick) (i : Nat) (rdr : Redirect) : Prop where
  inTime : InTime Tick.fails past t
  live : Live id n past t i rdr
  first : NoneLive id n past
  lowest : ∀ j < i, ∀ rdr', ¬Live id n past t j rdr'

end Spec

theorem redirect_eq_some {id : String} {r : Received} {rdr : Redirect} :
    r.redirect id = some rdr ↔ r = .datagram (some ⟨id, some (.redirect rdr)⟩) := by
  unfold Received.redirect
  split
  · rename_i respId rdr'
    split <;> simp_all
  · rename_i other
    exact iff_of_false nofun (other id rdr)

theorem parse_empty : SocketAddr.parse "" = none := by decide

/-! ## What is done with one datagram -/

namespace Connector

variable {c : Connector} {t : Tick} {i k : Nat} {rdr : Redirect} {r : Received}

/-- Nothing, if it is no `Redirect` for the connector, or one without a readable address. -/
theorem receive_ignored (connects : Bool)
    (h : ∀ rdr, r.redirect c.id = some rdr → rdr.addr ≠ "" ∧ SocketAddr.parse rdr.addr = none) :
    (c.receive i connects r).phase = c.phase ∧ (c.receive i connects r).id = c.id ∧
      (c.receive i connects r).failedServers = c.failedServers := by
  cases r with
  | datagram resp =>
    cases resp with
    | none => exact ⟨rfl, rfl, rfl⟩
    | some resp =>
      simp only [receive, handleResponse]
      split
      · exact ⟨rfl, rfl, rfl⟩
      · rename_i own
        split
        · rename_i rdr cmd
          have own : resp.id = c.id := not_not.mp own
          have heq : resp = ⟨c.id, some (.redirect rdr)⟩ := by rw [← own, ← cmd]
          obtain ⟨nonempty, unparsed⟩ := h rdr (redirect_eq_some.mpr (by rw [heq]))
          simp [nonempty, unparsed]
        · exact ⟨rfl, rfl, rfl⟩
  | wouldBlock => exact ⟨rfl, rfl, rfl⟩
  | err => exact ⟨rfl, rfl, rfl⟩

theorem receive_empty (connects : Bool) (h : r.redirect c.id = some rdr) (empty : rdr.addr = "") :
    (c.receive i connects r).phase = c.phase ∧ (c.receive i connects r).id = c.id ∧
      (c.receive i connects r).failedServers = c.failedServers.set i true := by
  rw [redirect_eq_some.mp h]
  simp [receive, handleResponse, empty]

/-- Without an address to connect to, the loop goes on, and the server is marked if it reports
the target as missing. -/
structure Quiet (c : Connector) (i : Nat) (r : Received) (d : Connector) : Prop where
  phase : d.phase = c.phase
  id : d.id = c.id
  length : d.failedServers.length = c.failedServers.length
  failed : ∀ k, d.failedServers[k]? = some true ↔ c.failedServers[k]? = some true ∨
    k = i ∧ i < c.failedServers.length ∧ ∃ rdr, r.redirect c.id = some rdr ∧ rdr.addr = ""

theorem receive_quiet (connects : Bool)
    (h : ∀ rdr, r.redirect c.id = some rdr → SocketAddr.parse rdr.addr = none) :
    Quiet c i r (c.receive i connects r) := by
  by_cases empty : ∃ rdr, r.redirect c.id = some rdr ∧ rdr.addr = ""
  · have missing := empty
    obtain ⟨rdr, hrdr, haddr⟩ := empty
    obtain ⟨phase, hid, failed⟩ := receive_empty (i := i) connects hrdr haddr
    refine ⟨phase, hid, by simp [failed], fun k => ?_⟩
    rw [failed, List.getElem?_set]
    by_cases hik : i = k
    · subst hik
      by_cases hi : i < c.failedServers.length
      · simp [hi, missing]
      · simp [hi]
    · simp [hik, Ne.symm hik]
  · obtain ⟨phase, hid, failed⟩ := receive_ignored (i := i) connects fun rdr hrdr =>
      ⟨fun haddr => empty ⟨rdr, hrdr, haddr⟩, h rdr hrdr⟩
    exact ⟨phase, hid, by rw [failed], fun k => by simp [failed, empty]⟩

/-- The end of `connect` that a `Redirect` with an address leads to. -/
theorem receive_parsed {addr : SocketAddr} (connects : Bool) (h : r.redirect c.id = some rdr)
    (parse : SocketAddr.parse rdr.addr = some addr) :
    (c.receive i connects r).phase = .done (if connects then .ok addr else .error .io) := by
  have nonempty : rdr.addr ≠ "" := by
    intro empty
    simp [empty, parse_empty] at parse
  rw [redirect_eq_some.mp h]
  cases connects <;> simp [receive, handleResponse, nonempty, parse]

/-- `connect` goes on. -/
def Running (c : Connector) : Prop := ∀ result, c.phase ≠ .done result

/-- What the loop over the sockets from `k` on leads to: the first readable socket with an
address ends it, else the servers that report the target as missing are marked. -/
inductive Scanned (c : Connector) (t : Tick) (ready : List (Bool × Nat)) (d : Connector) : Prop
  | hit {i : Nat} {rdr : Redirect} {addr : SocketAddr} (hready : (true, i) ∈ ready)
      (read : (t.recv i).redirect c.id = some rdr) (parse : SocketAddr.parse rdr.addr = some addr)
      (lowest : ∀ j < i, (true, j) ∈ ready → ∀ rdr, (t.recv j).redirect c.id = some rdr →
        SocketAddr.parse rdr.addr = none)
      (phase : d.phase = .done (if t.connects i then .ok addr else .error .io))
  | quiet (noHit : ∀ i, (true, i) ∈ ready → ∀ rdr, (t.recv i).redirect c.id = some rdr →
        SocketAddr.parse rdr.addr = none)
      (id : d.id = c.id) (phase : d.phase = c.phase)
      (length : d.failedServers.length = c.failedServers.length)
      (failed : ∀ i, d.failedServers[i]? = some true ↔ c.failedServers[i]? = some true ∨
        i < c.failedServers.length ∧ (true, i) ∈ ready ∧
          ∃ rdr, (t.recv i).redirect c.id = some rdr ∧ rdr.addr = "")

theorem Quiet.running {d : Connector} (quiet : Quiet c i r d) (running : c.Running) :
    d.Running := by
  intro result
  rw [quiet.phase]
  exact running result

theorem scan_ready {rest : List (Bool × Nat)}
    (quiet : Quiet c k (t.recv k) (c.receive k (t.connects k) (t.recv k))) (running : c.Running) :
    c.scan t ((true, k) :: rest) = (c.receive k (t.connects k) (t.recv k)).scan t rest := by
  simp only [scan, if_true]
  split
  · rename_i result phase
    exact absurd phase (quiet.running running result)
  · rfl

/-- The loop goes on to the rest after a socket without an address. -/
theorem Scanned.cons {d d' : Connector} {rest : List (Bool × Nat)}
    (scanned : Scanned d t rest d') (quiet : Quiet c k (t.recv k) d)
    (unparsed : ∀ rdr, (t.recv k).redirect c.id = some rdr → SocketAddr.parse rdr.addr = none) :
    Scanned c t ((true, k) :: rest) d' := by
  cases scanned with
  | hit hready read parse lowest phase =>
    rw [quiet.id] at read lowest
    refine .hit (List.mem_cons_of_mem _ hready) read parse (fun j hj hmem => ?_) phase
    rcases List.mem_cons.mp hmem with heq | hmem
    · cases heq
      exact unparsed
    · exact lowest j hj hmem
  | quiet noHit id phase length failed =>
    rw [quiet.id] at noHit id
    refine .quiet (fun j hmem => ?_) id (phase.trans quiet.phase) (length.trans quiet.length) ?_
    · rcases List.mem_cons.mp hmem with heq | hmem
      · cases heq
        exact unparsed
      · exact noHit j hmem
    · intro j
      rw [failed, quiet.failed, quiet.length, quiet.id]
      simp only [List.mem_cons, Prod.mk.injEq, true_and]
      grind

theorem scanned (t : Tick) (ready : List Bool) (k : Nat) (running : c.Running) :
    Scanned c t (ready.zipIdx k) (c.scan t (ready.zipIdx k)) := by
  induction ready generalizing c k with
  | nil => exact .quiet (by simp) rfl rfl rfl (by simp [scan])
  | cons r ready ih =>
    rw [List.zipIdx_cons]
    cases r with
    | false =>
      have skip : c.scan t ((false, k) :: ready.zipIdx (k + 1)) =
        c.scan t (ready.zipIdx (k + 1)) := by simp [scan]
      rw [skip]
      cases ih (k + 1) running with
      | hit hready read parse lowest phase =>
        exact .hit (List.mem_cons_of_mem _ hready) read parse (by simpa using lowest) phase
      | quiet noHit id phase length failed =>
        exact .quiet (by simpa using noHit) id phase length (by simpa using failed)
    | true =>
      by_cases parsed : ∃ rdr addr, (t.recv k).redirect c.id = some rdr ∧
          SocketAddr.parse rdr.addr = some addr
      · obtain ⟨rdr, addr, read, parse⟩ := parsed
        have phase := receive_parsed (i := k) (t.connects k) read parse
        have stop : c.scan t ((true, k) :: ready.zipIdx (k + 1)) =
          c.receive k (t.connects k) (t.recv k) := by simp [scan, phase]
        rw [stop]
        refine .hit List.mem_cons_self read parse (fun j hj hready => ?_) phase
        have : k ≤ j := by
          rcases List.mem_cons.mp hready with heq | hmem
          · cases heq
            exact Nat.le_refl _
          · have := List.le_snd_of_mem_zipIdx hmem
            omega
        omega
      · have unparsed : ∀ rdr, (t.recv k).redirect c.id = some rdr →
            SocketAddr.parse rdr.addr = none := by
          intro rdr read
          cases parse : SocketAddr.parse rdr.addr with
          | none => rfl
          | some addr => exact absurd ⟨rdr, addr, read, parse⟩ parsed
        have goOn : c.scan t ((true, k) :: ready.zipIdx (k + 1)) =
            (c.receive k (t.connects k) (t.recv k)).scan t (ready.zipIdx (k + 1)) :=
          scan_ready (receive_quiet (t.connects k) unparsed) running
        rw [goOn]
        exact (ih (k + 1) ((receive_quiet (t.connects k) unparsed).running running)).cons
          (receive_quiet (t.connects k) unparsed) unparsed

end Connector

/-! ## One more poll -/

section Step

variable {breaks : Tick → Bool} {id : String} {n i : Nat} {past ticks : List Tick} {t : Tick}
  {rdr : Redirect} {r : Rounds} {now : Instant}

@[simp] theorem after_concat :
    Rounds.after breaks (past ++ [t]) = (Rounds.after breaks past).next breaks t := by
  simp [Rounds.after]

theorem round_le_pollAt (r : Rounds) (now : Instant) : r.round ≤ (r.pollAt now).round := by
  unfold Rounds.pollAt
  split
  · exact Nat.le_refl _
  · split
    · exact Nat.le_refl _
    · exact Nat.le_succ _

theorem round_le_next : (r.pollAt t.checkedAt).round ≤ (r.next breaks t).round := by
  unfold Rounds.next
  split
  · exact Nat.le_succ _
  · exact Nat.le_refl _

theorem not_inTime_of_round (h : 3 ≤ (Rounds.after breaks past).round) :
    ¬InTime breaks past t := by
  have := round_le_pollAt (Rounds.after breaks past) t.checkedAt
  unfold InTime
  omega

theorem notFound_concat : NotFound id n (past ++ [t]) i ↔
    NotFound id n past i ∨ ∃ rdr, t.Redirects id n i rdr ∧ rdr.addr = "" := by
  simp [NotFound, or_and_right, exists_or]

theorem noneLive_nil : NoneLive id n [] := by
  intro past t rest heq
  simp at heq

theorem noneLive_concat : NoneLive id n (past ++ [t]) ↔
    NoneLive id n past ∧ (InTime Tick.fails past t → ∀ i rdr, ¬Live id n past t i rdr) := by
  constructor
  · intro none
    refine ⟨fun past' t' rest heq => none past' t' (rest ++ [t]) (by simp [heq]), ?_⟩
    exact none past t [] rfl
  · rintro ⟨none, last⟩ past' t' rest heq
    rcases List.eq_nil_or_concat rest with rfl | ⟨rest, t'', rfl⟩
    · obtain ⟨hpast, ht⟩ := List.append_inj' heq rfl
      cases hpast
      cases ht
      exact last
    · refine none past' t' rest ?_
      have : past ++ [t] = (past' ++ t' :: rest) ++ [t''] := by simpa using heq
      exact (List.append_inj' this rfl).1

/-- `connect` goes on after the polls. -/
structure Follows (id : String) (n : Nat) (past : List Tick) (s : Syncing) : Prop where
  named : s.conn.id = id
  length : s.conn.failedServers.length = n
  noneLive : NoneLive id n past
  failed : ∀ i, s.conn.failedServers[i]? = some true ↔ NotFound id n past i
  before : (Rounds.after Tick.fails past).start = none →
    s.conn.phase = .round (Rounds.after Tick.fails past).round ∧
      (Rounds.after Tick.fails past).round ≤ 3
  within : ∀ start, (Rounds.after Tick.fails past).start = some start →
    s.conn.phase = .poll (Rounds.after Tick.fails past).round ∧ s.roundStart = start ∧
      (Rounds.after Tick.fails past).round < 3

theorem Follows.running {s : Syncing} (follows : Follows id n past s) : s.conn.Running := by
  intro result
  cases hstart : (Rounds.after Tick.fails past).start with
  | none =>
    rw [(follows.before hstart).1]
    exact nofun
  | some start =>
    rw [(follows.within start hstart).1]
    exact nofun

/-- No more polls are made. -/
def Spent (id : String) (n : Nat) (past : List Tick) : Prop :=
  3 ≤ (Rounds.after Tick.fails past).round ∨ ∀ i < n, NotFound id n past i

theorem Spent.not_live (spent : Spent id n past) (inTime : InTime Tick.fails past t) :
    ¬Live id n past t i rdr := by
  intro live
  rcases spent with late | all
  · exact not_inTime_of_round late inTime
  · exact live.found (all i live.read.1)

theorem Spent.concat (spent : Spent id n past) : Spent id n (past ++ [t]) := by
  refine spent.imp (fun late => ?_) fun all i hi => notFound_concat.mpr (.inl (all i hi))
  rw [after_concat]
  exact late.trans ((round_le_pollAt _ _).trans round_le_next)

/-- How `connect` stands after the polls: it goes on, it has come upon the decisive
`Redirect`, or it has given up. -/
inductive Outcome (id : String) (n : Nat) (ticks : List Tick) (s : Syncing) : Prop
  | follows (follows : Follows id n ticks s)
  | decided {past : List Tick} {t : Tick} {rest : List Tick} {i : Nat} {rdr : Redirect}
      {addr : SocketAddr} (split : ticks = past ++ t :: rest)
      (decisive : Decisive id n past t i rdr) (parse : SocketAddr.parse rdr.addr = some addr)
      (phase : s.conn.phase = .done (if t.connects i then .ok addr else .error .io))
  | gaveUp {e : ConnectError} (phase : s.conn.phase = .done (.error e))
      (noneLive : NoneLive id n ticks) (spent : Spent id n ticks)

theorem tick_of_done {s : Syncing} {result : Except ConnectError SocketAddr}
    (h : s.conn.phase = .done result) : (s.tick t).conn.phase = .done result := by
  simp [Syncing.tick, Syncing.check, Syncing.poll, h]

theorem outcome_init (target : String) : Outcome id n [] (.init id target n) := by
  refine .follows ⟨rfl, ?_, noneLive_nil, ?_, ?_, ?_⟩
  · simp [Syncing.init, Connector.new]
  · simp [Syncing.init, Connector.new, NotFound, List.getElem?_replicate]
  · intro _
    exact ⟨rfl, Nat.zero_le _⟩
  · intro start h
    simp [Rounds.after] at h

theorem beginRound_running {c : Connector} {round : Nat} (hround : round < 3)
    (some_left : c.allFailed = false) : c.beginRound round = { c with phase := .poll round } := by
  have : round ≠ 3 := by omega
  simp [Connector.beginRound, this, some_left]

theorem beginRound_over {c : Connector} {round : Nat} (h : round = 3 ∨ c.allFailed = true) :
    ∃ e, (c.beginRound round).phase = .done (.error e) := by
  simp [Connector.beginRound, h, Connector.finish]

theorem check_round {s : Syncing} {round : Nat} (phase : s.conn.phase = .round round) :
    s.check now = ⟨s.conn.beginRound round, now⟩ := by
  simp [Syncing.check, phase]

theorem check_stay {s : Syncing} {round : Nat} (phase : s.conn.phase = .poll round)
    (short : elapsed s.roundStart now < roundTimeout) (some_left : s.conn.allFailed = false) :
    s.check now = s := by
  simp [Syncing.check, phase, short, some_left]

theorem check_next {s : Syncing} {round : Nat} (phase : s.conn.phase = .poll round)
    (isOver : ¬elapsed s.roundStart now < roundTimeout ∨ s.conn.allFailed = true) :
    s.check now = ⟨s.conn.beginRound (round + 1), now⟩ := by
  have stop : ¬(elapsed s.roundStart now < roundTimeout ∧ ¬s.conn.allFailed) := by
    rcases isOver with long | all
    · exact fun h => long h.1
    · exact fun h => h.2 all
  simp only [Syncing.check, phase, if_neg stop, Connector.beginRound]
  rfl

/-- The checks lead to a poll in the round that the clock tells. -/
theorem check_inTime {s : Syncing} (follows : Follows id n past s)
    (inTime : InTime Tick.fails past t) (some_left : s.conn.allFailed = false) :
    (s.check t.checkedAt).conn =
        { s.conn with phase := .poll ((Rounds.after Tick.fails past).pollAt t.checkedAt).round } ∧
      ((Rounds.after Tick.fails past).pollAt t.checkedAt).start =
        some (s.check t.checkedAt).roundStart := by
  unfold InTime Rounds.pollAt at *
  cases hstart : (Rounds.after Tick.fails past).start with
  | none =>
    obtain ⟨phase, -⟩ := follows.before hstart
    simp only [hstart] at inTime ⊢
    rw [check_round phase, beginRound_running inTime some_left]
    exact ⟨rfl, rfl⟩
  | some start =>
    obtain ⟨phase, rfl, -⟩ := follows.within start hstart
    simp only [hstart] at inTime ⊢
    by_cases short : elapsed s.roundStart t.checkedAt < roundTimeout
    · rw [check_stay phase short some_left, if_pos short, ← phase]
      exact ⟨rfl, hstart⟩
    · rw [if_neg short] at inTime ⊢
      rw [check_next phase (.inl short), beginRound_running inTime some_left]
      exact ⟨rfl, rfl⟩

theorem check_spent {s : Syncing} (follows : Follows id n past s)
    (h : s.conn.allFailed = true ∨ ¬InTime Tick.fails past t) :
    ∃ e, (s.check t.checkedAt).conn.phase = .done (.error e) := by
  unfold InTime Rounds.pollAt at h
  cases hstart : (Rounds.after Tick.fails past).start with
  | none =>
    obtain ⟨phase, bound⟩ := follows.before hstart
    simp only [hstart] at h
    rw [check_round phase]
    exact beginRound_over (h.symm.imp_left fun late => by omega)
  | some start =>
    obtain ⟨phase, rfl, bound⟩ := follows.within start hstart
    simp only [hstart] at h
    by_cases short : elapsed s.roundStart t.checkedAt < roundTimeout
    · rw [if_pos short] at h
      have all : s.conn.allFailed = true := h.resolve_right (not_not.mpr bound)
      rw [check_next phase (.inr all)]
      exact beginRound_over (.inr all)
    · rw [if_neg short] at h
      rw [check_next phase (.inl short)]
      refine beginRound_over (h.symm.imp_left fun late => ?_)
      have late : ¬(Rounds.after Tick.fails past).round + 1 < 3 := late
      omega

theorem poll_of_done {s : Syncing} {result : Except ConnectError SocketAddr}
    (h : s.conn.phase = .done result) : s.poll t = s := by
  simp [Syncing.poll, h]

/-- If no server is left or the last round is over, `connect` gives up. -/
theorem outcome_spent {s : Syncing} (follows : Follows id n past s)
    (h : s.conn.allFailed = true ∨ ¬InTime Tick.fails past t) :
    Outcome id n (past ++ [t]) (s.tick t) := by
  obtain ⟨e, phase⟩ := check_spent follows h
  have all : s.conn.allFailed = true → ∀ i < n, NotFound id n past i := by
    intro allFailed i hi
    rw [← follows.length] at hi
    have hmem := List.all_eq_true.mp allFailed _ (List.getElem_mem hi)
    rw [← follows.failed, List.getElem?_eq_getElem hi]
    simpa using hmem
  have noneLive : InTime Tick.fails past t → ∀ i rdr, ¬Live id n past t i rdr := by
    intro inTime i rdr live
    exact live.found (all (h.resolve_right (not_not.mpr inTime)) i live.read.1)
  refine .gaveUp (e := e) ?_ (noneLive_concat.mpr ⟨follows.noneLive, noneLive⟩) ?_
  · rw [Syncing.tick, poll_of_done phase, phase]
  · rcases h with allFailed | late
    · exact .concat (.inr (all allFailed))
    · left
      rw [after_concat]
      exact (not_lt.mp late).trans round_le_next

/-- The sockets that are read, according to what has been received before. -/
def IsRead (id : String) (n : Nat) (past : List Tick) (t : Tick) (ready : List (Bool × Nat)) :
    Prop :=
  ∀ i, (true, i) ∈ ready ↔ i < n ∧ ¬NotFound id n past i ∧ t.readable i = true

theorem live_iff {ready : List (Bool × Nat)} (isRead : IsRead id n past t ready) :
    Live id n past t i rdr ↔ (true, i) ∈ ready ∧ (t.recv i).redirect id = some rdr ∧
      (SocketAddr.parse rdr.addr).isSome = true := by
  rw [isRead]
  constructor
  · rintro ⟨⟨hi, readable, read⟩, found, parses⟩
    exact ⟨⟨hi, found, readable⟩, read, parses⟩
  · rintro ⟨⟨hi, found, readable⟩, read, parses⟩
    exact ⟨⟨hi, readable, read⟩, found, parses⟩

theorem isRead_pollSockets {s : Syncing} {ready : List Bool} (follows : Follows id n past s)
    (h : pollSockets (kernelPoll t.events) s.conn.failedServers = .ok ready) :
    IsRead id n past t ready.zipIdx := by
  intro i
  rw [List.mem_zipIdx_iff_getElem?, pollSockets_ok h, some_false_iff, follows.failed,
    follows.length, and_assoc]
  rfl

/-- A poll that fails ends its round. -/
theorem follows_failed {s : Syncing} (follows : Follows id n past s)
    (inTime : InTime Tick.fails past t) (fails : t.events = none) {c : Connector}
    (named : c.id = s.conn.id) (failed : c.failedServers = s.conn.failedServers)
    (phase : c.phase =
      .round (((Rounds.after Tick.fails past).pollAt t.checkedAt).round + 1)) (start : Instant) :
    Follows id n (past ++ [t]) ⟨c, start⟩ := by
  have unread : ∀ i rdr, ¬t.Redirects id n i rdr := by
    rintro i rdr ⟨-, readable, -⟩
    simp [Tick.readable, fails] at readable
  have rounds : Rounds.after Tick.fails (past ++ [t]) =
      ⟨((Rounds.after Tick.fails past).pollAt t.checkedAt).round + 1, none⟩ := by
    simp [Rounds.next, Tick.fails, fails]
  refine ⟨named.trans follows.named, by rw [failed, follows.length], ?_, fun i => ?_, ?_, ?_⟩
  · exact noneLive_concat.mpr ⟨follows.noneLive, fun _ i rdr live => unread i rdr live.read⟩
  · rw [failed, follows.failed, notFound_concat]
    simp [unread]
  · rw [rounds]
    exact fun _ => ⟨phase, inTime⟩
  · rw [rounds]
    exact fun _ h => nomatch h

/-- A poll with nothing decisive in it leaves its round as it is. -/
theorem follows_quiet {s : Syncing} {ready : List (Bool × Nat)} (follows : Follows id n past s)
    (inTime : InTime Tick.fails past t) (succeeds : t.events.isNone = false)
    (isRead : IsRead id n past t ready) {c : Connector}
    (noHit : ∀ i, (true, i) ∈ ready → ∀ rdr, (t.recv i).redirect id = some rdr →
      SocketAddr.parse rdr.addr = none)
    (named : c.id = s.conn.id) (length : c.failedServers.length = s.conn.failedServers.length)
    (failed : ∀ i, c.failedServers[i]? = some true ↔ s.conn.failedServers[i]? = some true ∨
      i < s.conn.failedServers.length ∧ (true, i) ∈ ready ∧
        ∃ rdr, (t.recv i).redirect id = some rdr ∧ rdr.addr = "")
    (phase : c.phase = .poll ((Rounds.after Tick.fails past).pollAt t.checkedAt).round)
    {start : Instant}
    (hstart : ((Rounds.after Tick.fails past).pollAt t.checkedAt).start = some start) :
    Follows id n (past ++ [t]) ⟨c, start⟩ := by
  have rounds : Rounds.after Tick.fails (past ++ [t]) =
      (Rounds.after Tick.fails past).pollAt t.checkedAt := by
    simp [Rounds.next, Tick.fails, succeeds]
  refine ⟨named.trans follows.named, length.trans follows.length, ?_, fun i => ?_, ?_, ?_⟩
  · refine noneLive_concat.mpr ⟨follows.noneLive, fun _ i rdr live => ?_⟩
    obtain ⟨hready, read, parses⟩ := (live_iff isRead).mp live
    simp [noHit i hready rdr read] at parses
  · rw [failed, follows.failed, notFound_concat, isRead, follows.length]
    unfold Tick.Redirects
    grind
  · rw [rounds]
    exact fun h => nomatch hstart.symm.trans h
  · rw [rounds]
    intro start' h
    exact ⟨phase, Option.some.inj (hstart.symm.trans h), inTime⟩

/-- A poll in time, with some server left. -/
theorem outcome_poll {s : Syncing} (follows : Follows id n past s)
    (inTime : InTime Tick.fails past t) (some_left : s.conn.allFailed = false) :
    Outcome id n (past ++ [t]) (s.tick t) := by
  obtain ⟨hconn, hstart⟩ := check_inTime follows inTime some_left
  have phase : (s.check t.checkedAt).conn.phase =
      .poll ((Rounds.after Tick.fails past).pollAt t.checkedAt).round := by rw [hconn]
  have failed : (s.check t.checkedAt).conn.failedServers = s.conn.failedServers := by rw [hconn]
  have named : (s.check t.checkedAt).conn.id = s.conn.id := by rw [hconn]
  cases hpoll : pollSockets (kernelPoll t.events) s.conn.failedServers with
  | error e =>
    simp only [Syncing.tick, Syncing.poll, phase, failed, hpoll]
    have fails : t.events = none := pollSockets_error hpoll
    refine .follows (follows_failed follows inTime fails ?_ ?_ ?_ _)
    · exact named
    · rfl
    · rfl
  | ok ready =>
    have isRead := isRead_pollSockets follows hpoll
    have succeeds : t.events.isNone = false := by
      cases hevents : t.events with
      | none => simp [hevents, pollSockets_fails some_left] at hpoll
      | some events => rfl
    have running : (s.check t.checkedAt).conn.Running := by
      intro result
      rw [phase]
      exact nofun
    have hid : (s.check t.checkedAt).conn.id = id := named.trans follows.named
    simp only [Syncing.tick, Syncing.poll, phase, failed, hpoll]
    have scanned := Connector.scanned t ready 0 running
    cases scanned with
    | @hit i rdr addr hready read parse lowest phase' =>
      rw [hid] at read lowest
      refine .decided (i := i) rfl ⟨inTime, ?_, follows.noneLive, ?_⟩ parse phase'
      · exact (live_iff isRead).mpr ⟨hready, read, by simp [parse]⟩
      · intro j hj rdr' live
        obtain ⟨hready', read', parses⟩ := (live_iff isRead).mp live
        simp [lowest j hj hready' rdr' read'] at parses
    | quiet noHit hid' phase' length failed' =>
      rw [hid] at noHit hid'
      rw [failed] at length
      simp only [failed, hid] at failed'
      exact .follows (follows_quiet follows inTime succeeds isRead noHit
        (hid'.trans follows.named.symm) length failed' (phase'.trans phase) hstart)

theorem outcome_tick {s : Syncing} (outcome : Outcome id n ticks s) :
    Outcome id n (ticks ++ [t]) (s.tick t) := by
  cases outcome with
  | decided split decisive parse phase =>
    exact .decided (by rw [split, List.append_assoc, List.cons_append]) decisive parse
      (tick_of_done phase)
  | gaveUp phase noneLive spent =>
    exact .gaveUp (tick_of_done phase)
      (noneLive_concat.mpr ⟨noneLive, fun inTime _ _ => spent.not_live inTime⟩) spent.concat
  | follows follows =>
    by_cases h : s.conn.allFailed = true ∨ ¬InTime Tick.fails ticks t
    · exact outcome_spent follows h
    · push Not at h
      exact outcome_poll follows h.2 (by simpa using h.1)

theorem outcome_ticks (id target : String) (n : Nat) (ticks : List Tick) :
    Outcome id n ticks (ticks.foldl Syncing.tick (.init id target n)) := by
  induction ticks using List.reverseRecOn with
  | nil => exact outcome_init target
  | append_singleton ticks t ih =>
    rw [List.foldl_append]
    exact outcome_tick ih

theorem Decisive.not_earlier {more : List Tick} {t' : Tick} {i' : Nat} {rdr' : Redirect}
    (h : Decisive id n past t i rdr) : ¬Decisive id n (past ++ t :: more) t' i' rdr' :=
  fun h' => h'.first past t more rfl h.inTime i rdr h.live

theorem Decisive.socket_unique {i' : Nat} {rdr' : Redirect} (h : Decisive id n past t i rdr)
    (h' : Decisive id n past t i' rdr') : i = i' ∧ rdr = rdr' := by
  have hi : i = i' := by
    rcases Nat.lt_trichotomy i i' with hlt | heq | hlt
    · exact absurd h.live (h'.lowest i hlt rdr)
    · exact heq
    · exact absurd h'.live (h.lowest i' hlt rdr')
  subst hi
  exact ⟨rfl, Option.some.inj (h.live.read.2.2.symm.trans h'.live.read.2.2)⟩

/-- There is only one decisive `Redirect`. -/
theorem Decisive.unique {past' : List Tick} {t' : Tick} {rest rest' : List Tick} {i' : Nat}
    {rdr' : Redirect} (h : Decisive id n past t i rdr) (h' : Decisive id n past' t' i' rdr')
    (split : past ++ t :: rest = past' ++ t' :: rest') : t = t' ∧ i = i' ∧ rdr = rdr' := by
  rcases List.append_eq_append_iff.mp split with ⟨more, rfl, heq⟩ | ⟨more, rfl, heq⟩
  · cases more with
    | nil =>
      obtain ⟨rfl, -⟩ := List.cons.inj heq
      rw [List.append_nil] at h'
      exact ⟨rfl, h.socket_unique h'⟩
    | cons t'' more =>
      obtain ⟨rfl, -⟩ := List.cons.inj heq
      exact absurd h' h.not_earlier
  · cases more with
    | nil =>
      obtain ⟨rfl, -⟩ := List.cons.inj heq
      rw [List.append_nil] at h
      exact ⟨rfl, h.socket_unique h'⟩
    | cons t'' more =>
      obtain ⟨rfl, -⟩ := List.cons.inj heq
      exact absurd h h'.not_earlier

/-- The polls end at an address just when the decisive `Redirect` has it and it can be
connected to. -/
theorem phase_eq_ok {target : String} {addr : SocketAddr} :
    (ticks.foldl Syncing.tick (.init id target n)).conn.phase = .done (.ok addr) ↔
      ∃ past t rest i rdr, ticks = past ++ t :: rest ∧ Decisive id n past t i rdr ∧
        SocketAddr.parse rdr.addr = some addr ∧ t.connects i = true := by
  have outcome := outcome_ticks id target n ticks
  constructor
  · intro ok
    cases outcome with
    | follows follows => exact absurd ok (follows.running _)
    | @decided past t rest i rdr addr' split decisive parse phase =>
      have heq := Phase.done.inj (phase.symm.trans ok)
      by_cases connects : t.connects i = true
      · rw [if_pos connects] at heq
        cases heq
        exact ⟨past, t, rest, i, rdr, split, decisive, parse, connects⟩
      · rw [if_neg connects] at heq
        cases heq
    | gaveUp phase noneLive spent => cases phase.symm.trans ok
  · rintro ⟨past, t, rest, i, rdr, split, decisive, parse, connects⟩
    cases outcome with
    | follows follows =>
      exact absurd decisive.live (follows.noneLive past t rest split decisive.inTime i rdr)
    | decided split' decisive' parse' phase =>
      obtain ⟨rfl, rfl, rfl⟩ := decisive.unique decisive' (split.symm.trans split')
      rw [phase, if_pos connects]
      rw [parse] at parse'
      cases parse'
      rfl
    | gaveUp phase noneLive spent =>
      exact absurd decisive.live (noneLive past t rest split decisive.inTime i rdr)

end Step

/-! ## The whole of `connect` -/

/-- The request can be written, and the sockets of all servers are set up. -/
structure Starts (encodes : Request → Bool) (cfg : CommonConfig) (targetId : String)
    (env : ConnectEnv) : Prop where
  encodes : encodes ⟨cfg.id, some (.isync ⟨targetId⟩)⟩ = true
  setUp : ∃ first rest, connectServer (env.net 0) (cfg.serverAddrs.head cfg.nonempty)
      cfg.localAddr = .ok first ∧
    SocketsFrom env.net (some (sharedAddr cfg.localAddr first.localAddr)) 1
      cfg.serverAddrs.tail rest
  setNonblocking : ∀ i < cfg.serverAddrs.length, env.setNonblocking i = true

/-- A decisive `Redirect` is received, and the address in it can be connected to. -/
def Decides (cfg : CommonConfig) (env : ConnectEnv) (addr : SocketAddr) : Prop :=
  ∃ past t rest i rdr, env.ticks = past ++ t :: rest ∧
    Decisive cfg.id cfg.serverAddrs.length past t i rdr ∧
      SocketAddr.parse rdr.addr = some addr ∧ t.connects i = true

variable {encodes : Request → Bool} {cfg : CommonConfig} {targetId : String} {env : ConnectEnv}

theorem result_eq_ok {s : Syncing} {addr : SocketAddr} :
    s.result = .ok addr ↔ s.conn.phase = .done (.ok addr) := by
  unfold Syncing.result
  split
  · rename_i result phase
    simp [phase]
  · rename_i running
    exact iff_of_false nofun (running _)

theorem mapError_eq_ok {ε ε' α : Type} {x : Except ε α} {f : ε → ε'} {a : α} :
    x.mapError f = .ok a ↔ x = .ok a := by
  cases x <;> simp [Except.mapError]

/-- What `connect` returns. -/
theorem connect_eq_ok {addr : SocketAddr} : connect encodes cfg targetId env = .ok addr ↔
    Starts encodes cfg targetId env ∧ Decides cfg env addr := by
  unfold connect
  constructor
  · intro ok
    split at ok
    · rename_i writes
      split at ok
      · cases ok
      · rename_i sks localAddr hsks
        have hlen := length_servers cfg.nonempty hsks
        obtain ⟨first, rest, rfl, rfl, hfirst, hrest⟩ :=
          (connectMultipleServers_eq_ok cfg.nonempty).mp hsks
        split at ok
        · rename_i nonblocking
          rw [mapError_eq_ok, result_eq_ok, phase_eq_ok, hlen] at ok
          rw [hlen] at nonblocking
          exact ⟨⟨writes, ⟨first, rest, hfirst, hrest⟩, by simpa using nonblocking⟩, ok⟩
        · cases ok
    · cases ok
  · rintro ⟨⟨writes, ⟨first, rest, hfirst, hrest⟩, nonblocking⟩, decides⟩
    have hsks := (connectMultipleServers_eq_ok cfg.nonempty).mpr
      ⟨first, rest, rfl, rfl, hfirst, hrest⟩
    have hlen := length_servers cfg.nonempty hsks
    have all : (List.range cfg.serverAddrs.length).all env.setNonblocking = true := by
      simpa using nonblocking
    simp only [writes, if_true, hsks, hlen, all]
    rw [mapError_eq_ok, result_eq_ok, phase_eq_ok]
    exact decides

/-- Server `i` delivers a `Redirect` for the connector that names its target, with an address
that can be connected to, within three rounds of five seconds. -/
def Delivers (cfg : CommonConfig) (targetId : String) (env : ConnectEnv) (i : Nat)
    (addr : SocketAddr) : Prop :=
  ∃ past t rest rdr, env.ticks = past ++ t :: rest ∧ InTime (fun _ => false) past t ∧
    t.Redirects cfg.id cfg.serverAddrs.length i rdr ∧ rdr.id = targetId ∧
      SocketAddr.parse rdr.addr = some addr ∧ t.connects i = true

/-- One server that can be connected to and delivers such a `Redirect` is enough. -/
def IsolatesFaults (encodes : Request → Bool) (cfg : CommonConfig) (targetId : String)
    (env : ConnectEnv) : Prop :=
  ∀ i serverAddr sk addr, cfg.serverAddrs[i]? = some serverAddr →
    connectServer (env.net i) serverAddr cfg.localAddr = .ok sk →
      Delivers cfg targetId env i addr →
        ∃ j peerAddr, Delivers cfg targetId env j peerAddr ∧
          connect encodes cfg targetId env = .ok peerAddr

/-- Faults are isolated in just those calls that start with all servers, if the decisive
`Redirect` is received, can be connected to, and leads to an address that is delivered for the
target. -/
theorem isolatesFaults_iff : IsolatesFaults encodes cfg targetId env ↔
    ∀ i serverAddr sk addr, cfg.serverAddrs[i]? = some serverAddr →
      connectServer (env.net i) serverAddr cfg.localAddr = .ok sk →
        Delivers cfg targetId env i addr →
          Starts encodes cfg targetId env ∧ ∃ peerAddr, Decides cfg env peerAddr ∧
            ∃ j, Delivers cfg targetId env j peerAddr := by
  unfold IsolatesFaults
  simp only [connect_eq_ok]
  constructor
  · intro isolates i serverAddr sk addr hi hconnect delivers
    obtain ⟨j, peerAddr, hj, starts, decides⟩ :=
      isolates i serverAddr sk addr hi hconnect delivers
    exact ⟨starts, peerAddr, decides, j, hj⟩
  · intro good i serverAddr sk addr hi hconnect delivers
    obtain ⟨starts, peerAddr, decides, j, hj⟩ := good i serverAddr sk addr hi hconnect delivers
    exact ⟨j, peerAddr, hj, starts, decides⟩

def twoServers : CommonConfig := ⟨"c", none, ["a", "b"], List.cons_ne_nil _ _⟩

/-- The `Redirect` for the target "t" from the server "a". -/
def redirectTick : Tick where
  checkedAt := 0
  events := some fun _ => .pollin
  recv i :=
    if i = 0 then .datagram (some ⟨"c", some (.redirect ⟨"t", "10.0.0.7:5000"⟩)⟩) else .wouldBlock
  connects _ := true

/-- The name of the server "b" is not found. -/
def unresolved : ConnectEnv where
  net i := if i = 1 then { goodSite with toSocketAddrs := fun _ => none } else goodSite
  setNonblocking _ := true
  ticks := [redirectTick]

/-- One name that cannot be resolved makes `connect` fail, whatever the other server sends. -/
theorem unresolved_server_fails_all : ¬∀ encodes cfg targetId env,
    IsolatesFaults encodes cfg targetId env := by
  intro all
  have delivers : Delivers twoServers "t" unresolved 0 (host 7) :=
    ⟨[], redirectTick, [], _, rfl, by decide, ⟨by decide, rfl, rfl⟩, rfl, by decide, rfl⟩
  have connected : connectServer (unresolved.net 0) "a" none = .ok ⟨host 9, host 1⟩ := by decide
  obtain ⟨j, peerAddr, -, ok⟩ := all (fun _ => true) twoServers "t" unresolved 0 "a" _ _ rfl
    connected delivers
  have fails : connect (fun _ => true) twoServers "t" unresolved = .error (.setup .io) := by decide
  cases fails.symm.trans ok

/-- The target is missing at "a", and `recv` fails there later on; "b" delivers. -/
example : connect (fun _ => true) twoServers "t" { unresolved with
    net := fun _ => goodSite
    ticks := [
      { redirectTick with
        recv := fun _ => .datagram (some ⟨"c", some (.redirect ⟨"t", ""⟩)⟩)
        events := some fun i => if i = 0 then .pollin else 0x000#16 },
      { redirectTick with checkedAt := fromSecs 6, events := none },
      { redirectTick with
        checkedAt := fromSecs 7
        recv := fun i => if i = 0 then .err else
          .datagram (some ⟨"c", some (.redirect ⟨"t", "10.0.0.7:5000"⟩)⟩) }] } =
    .ok (host 7) := by decide

end Rndz.Udp
