import Mathlib.Data.List.Chain
import Mathlib.Data.List.Nodup
import Mathlib.Tactic.Linarith
import Rndz.Udp.Isolation

/-!
# How long `connect` takes, and whom it asks

Three rounds of five seconds each, if the polls follow each other closely: `connect` is over by
then, and it does not give up before, unless a poll fails or there is nobody left to wait for. At
the start of each round it asks the servers that have not reported the target as missing.
-/
namespace Rndz.Udp

open Net Proto

/-! ## The time -/

/-- Each poll is made after the one before, and by `d` at most. -/
def Paced (d : Nat) (ticks : List Tick) : Prop :=
  ticks.IsChain fun t t' : Tick =>
    t.checkedAt ≤ t'.checkedAt ∧ t'.checkedAt ≤ t.checkedAt + (d : Int)

/-- The time of the latest poll. -/
def latest (first : Tick) (rest : List Tick) : Instant :=
  ((first :: rest).getLast (List.cons_ne_nil first rest)).checkedAt

variable {breaks : Tick → Bool} {id target : String} {n i : Nat} {d : Nat} {first t : Tick}
  {past rest ticks : List Tick} {r : Rounds} {start last now : Instant}

@[simp] theorem latest_nil : latest first [] = first.checkedAt := rfl

@[simp] theorem latest_concat : latest first (rest ++ [t]) = t.checkedAt := by
  simp [latest]

theorem paced_concat (paced : Paced d (first :: (rest ++ [t]))) : Paced d (first :: rest) ∧
    latest first rest ≤ t.checkedAt ∧ t.checkedAt ≤ latest first rest + d := by
  have happend : first :: (rest ++ [t]) = (first :: rest) ++ [t] := rfl
  rw [Paced, happend, List.isChain_append] at paced
  obtain ⟨before, -, link⟩ := paced
  exact ⟨before, link _ (List.getLast?_eq_some_getLast _) t rfl⟩

namespace Rounds

/-- The rounds are not behind: each has begun in time, and the latest poll is within it. -/
structure OnTime (d : Nat) (start last : Instant) (r : Rounds) : Prop where
  within : ∀ begun, r.start = some begun →
    begun ≤ start + r.round * (roundTimeout + d) ∧ last < begun + roundTimeout
  broken : r.start = none → last + d < start + r.round * (roundTimeout + d)

/-- The rounds are not ahead: no poll has failed, and each has lasted its time. -/
structure Waited (start last : Instant) (r : Rounds) : Prop where
  within : ∃ begun, r.start = some begun ∧ start + r.round * roundTimeout ≤ begun ∧ begun ≤ last

theorem onTime_next (inv : OnTime d start last r)
    (soon : t.checkedAt ≤ last + d) : OnTime d start t.checkedAt (r.next breaks t) := by
  have timeout : roundTimeout = 5000000000 := by decide
  have poll : ∃ begun, (r.pollAt t.checkedAt).start = some begun ∧
      begun ≤ start + (r.pollAt t.checkedAt).round * (roundTimeout + d) ∧
        t.checkedAt < begun + roundTimeout := by
    unfold pollAt
    cases hstart : r.start with
    | none =>
      have := inv.broken hstart
      exact ⟨t.checkedAt, rfl, by dsimp only; linarith, by linarith⟩
    | some begun =>
      obtain ⟨bound, recent⟩ := inv.within begun hstart
      dsimp only
      split
      · rename_i short
        have := (le_max_right 0 (t.checkedAt - begun)).trans_lt short
        exact ⟨begun, hstart, bound, by linarith⟩
      · refine ⟨t.checkedAt, rfl, ?_, by linarith⟩
        push_cast
        linarith
  obtain ⟨begun, hbegun, bound, recent⟩ := poll
  unfold next
  split
  · refine ⟨nofun, fun _ => ?_⟩
    push_cast
    linarith
  · refine ⟨fun begun' h => ?_, fun h => nomatch hbegun.symm.trans h⟩
    obtain rfl : begun = begun' := Option.some.inj (hbegun.symm.trans h)
    exact ⟨bound, recent⟩

theorem waited_next (inv : Waited start last r) (later : last ≤ t.checkedAt)
    (succeeds : breaks t = false) : Waited start t.checkedAt (r.next breaks t) := by
  obtain ⟨begun, hbegun, bound, hlast⟩ := inv.within
  simp only [next, succeeds, pollAt, hbegun]
  by_cases short : elapsed begun t.checkedAt < roundTimeout
  · simp only [if_pos short, Bool.false_eq_true, if_false]
    exact ⟨begun, hbegun, bound, hlast.trans later⟩
  · simp only [if_neg short, Bool.false_eq_true, if_false]
    refine ⟨t.checkedAt, rfl, ?_, le_refl _⟩
    have timeout : (0 : Int) < roundTimeout := by decide
    have long : roundTimeout ≤ t.checkedAt - begun :=
      (le_max_iff.mp (not_lt.mp short)).resolve_left (by linarith)
    push_cast
    linarith

theorem onTime_after (breaks : Tick → Bool) (paced : Paced d (first :: rest)) :
    OnTime d first.checkedAt (latest first rest) (after breaks (first :: rest)) := by
  have timeout : roundTimeout = 5000000000 := by decide
  induction rest using List.reverseRecOn with
  | nil =>
    have hafter : after breaks [first] = next breaks ⟨0, none⟩ first := rfl
    rw [hafter, next, pollAt, latest_nil]
    split
    · refine ⟨by simp, fun _ => ?_⟩
      push_cast
      linarith
    · refine ⟨fun begun h => ?_, by simp⟩
      obtain rfl := Option.some.inj h
      push_cast
      exact ⟨by linarith, by linarith⟩
  | append_singleton rest t ih =>
    obtain ⟨paced, -, soon⟩ := paced_concat paced
    rw [← List.cons_append, after_concat, latest_concat]
    exact onTime_next (ih paced) soon

theorem waited_after (breaks : Tick → Bool) (paced : Paced d (first :: rest))
    (succeed : ∀ t ∈ first :: rest, breaks t = false) :
    Waited first.checkedAt (latest first rest) (after breaks (first :: rest)) := by
  induction rest using List.reverseRecOn with
  | nil =>
    have hafter : after breaks [first] = next breaks ⟨0, none⟩ first := rfl
    rw [hafter, next, succeed first List.mem_cons_self]
    exact ⟨first.checkedAt, rfl, by simp [pollAt], le_refl _⟩
  | append_singleton rest t ih =>
    obtain ⟨paced, later, -⟩ := paced_concat paced
    rw [← List.cons_append, after_concat, latest_concat]
    refine waited_next (ih paced fun t' ht' => ?_) later (succeed t (by simp))
    exact succeed t' ((List.mem_append_left [t]) ht')

end Rounds

/-- Why `connect` may give up early. -/
inductive Cause (id : String) (n : Nat) (ticks : List Tick) : Prop
  | pollFailed {t : Tick} (mem : t ∈ ticks) (fails : t.fails = true)
  | noneLeft (all : ∀ i < n, NotFound id n ticks i)
  | peerRefused {past : List Tick} {t : Tick} {rest : List Tick} {i : Nat} {rdr : Redirect}
      (split : ticks = past ++ t :: rest) (decisive : Decisive id n past t i rdr)
      (refused : t.connects i = false)

/-- `connect` does not go on for longer than three rounds. -/
theorem Follows.not_late {s : Syncing} (follows : Follows id n (first :: rest) s)
    (paced : Paced d (first :: rest)) :
    latest first rest < first.checkedAt + 3 * (roundTimeout + d) - d := by
  have timeout : roundTimeout = 5000000000 := by decide
  have onTime := Rounds.onTime_after Tick.fails paced
  have before := follows.before
  have within := follows.within
  generalize Rounds.after Tick.fails (first :: rest) = r at onTime before within
  cases hstart : r.start with
  | none =>
    have bound := onTime.broken hstart
    have round : (r.round : Int) ≤ 3 := by exact_mod_cast (before hstart).2
    nlinarith
  | some begun =>
    obtain ⟨bound, recent⟩ := onTime.within begun hstart
    have round : (r.round : Int) ≤ 2 := by
      exact_mod_cast Nat.le_of_lt_succ (within begun hstart).2.2
    nlinarith

/-- Unless a poll fails, the third round is not over before its time. -/
theorem Spent.cause (spent : Spent id n (first :: rest)) (paced : Paced d (first :: rest)) :
    Cause id n (first :: rest) ∨ first.checkedAt + 3 * roundTimeout ≤ latest first rest := by
  rcases spent with late | all
  · by_cases fails : ∃ t ∈ first :: rest, t.fails = true
    · obtain ⟨t, mem, fails⟩ := fails
      exact .inl (.pollFailed mem fails)
    · push Not at fails
      have waited := Rounds.waited_after Tick.fails paced
        fun t ht => by simpa using fails t ht
      obtain ⟨begun, -, bound, hlast⟩ := waited.within
      have timeout : (0 : Int) < roundTimeout := by decide
      have late : (3 : Int) ≤ (Rounds.after Tick.fails (first :: rest)).round := by
        exact_mod_cast late
      right
      nlinarith
  · exact .inl (.noneLeft all)

/-- `connect` is over when three rounds and twice the time between two polls have passed, and
without a cause it does not give up before the three rounds have passed. -/
theorem connect_takes_three_rounds (paced : Paced d (first :: rest)) :
    let s := (first :: rest).foldl Syncing.tick (.init id target n)
    (first.checkedAt + 3 * roundTimeout + 2 * d ≤ latest first rest →
      ∃ result, s.conn.phase = .done result) ∧
    ∀ e, s.conn.phase = .done (.error e) → Cause id n (first :: rest) ∨
      first.checkedAt + 3 * roundTimeout ≤ latest first rest := by
  have outcome := outcome_ticks id target n (first :: rest)
  refine ⟨fun late => ?_, fun e herror => ?_⟩
  · cases outcome with
    | decided split decisive parse phase => exact ⟨_, phase⟩
    | gaveUp phase noneLive spent => exact ⟨_, phase⟩
    | follows follows =>
      have := follows.not_late paced
      linarith
  · cases outcome with
    | @decided past t rest' i rdr addr split decisive parse phase =>
      have heq := Phase.done.inj (phase.symm.trans herror)
      cases connects : t.connects i with
      | true => simp [connects] at heq
      | false => exact .inl (.peerRefused split decisive connects)
    | gaveUp phase noneLive spent => exact spent.cause paced
    | follows follows => exact absurd herror (follows.running _)

/-- No server ever answers. -/
def silentAt (now : Instant) : Tick where
  checkedAt := now
  events := some fun _ => 0x000#16
  recv _ := .wouldBlock
  connects _ := true

theorem silence_ends : ∃ result, ([silentAt 0, silentAt (fromSecs 5), silentAt (fromSecs 10),
    silentAt (fromSecs 15), silentAt (fromSecs 20), silentAt (fromSecs 25)].foldl Syncing.tick
      (.init "c" "t" 2)).conn.phase = .done result :=
  (connect_takes_three_rounds (d := 5000000000) (by simp [Paced, silentAt, fromSecs])).1 (by decide)

/-! ## The requests -/

namespace Syncing

/-- The loop over polls is left when its round is over or all servers have failed. -/
def leave (s : Syncing) (now : Instant) : Connector :=
  match s.conn.phase with
  | .poll r =>
    if elapsed s.roundStart now < roundTimeout ∧ ¬s.conn.allFailed then s.conn
    else { s.conn with phase := .round (r + 1) }
  | _ => s.conn

theorem check_eq (s : Syncing) (now : Instant) : s.check now = match (s.leave now).phase with
    | .round r => ⟨(s.leave now).beginRound r, now⟩
    | _ => ⟨s.leave now, s.roundStart⟩ := rfl

/-- The servers that the `Isync` is sent to before a poll: those that have not failed, at the
start of a round. -/
def asks (s : Syncing) (now : Instant) : List Nat :=
  match (s.leave now).phase with
  | .round r =>
    match ((s.leave now).beginRound r).phase with
    | .poll _ => (List.range s.conn.failedServers.length).filter
        fun i => s.conn.failedServers[i]? = some false
    | _ => []
  | _ => []

/-- All requests that are sent. -/
def requests : Syncing → List Tick → List Nat
  | _, [] => []
  | s, t :: rest => s.asks t.checkedAt ++ requests (s.tick t) rest

theorem requests_concat (s : Syncing) : s.requests (ticks ++ [t]) =
    s.requests ticks ++ (ticks.foldl tick s).asks t.checkedAt := by
  induction ticks generalizing s with
  | nil => simp [requests]
  | cons t' ticks ih => simp [requests, ih]

theorem asks_of_done {s : Syncing} {result : Except ConnectError SocketAddr}
    (h : s.conn.phase = .done result) : s.asks now = [] := by
  simp [asks, leave, h]

theorem leave_failedServers (s : Syncing) :
    (s.leave now).failedServers = s.conn.failedServers := by
  unfold leave
  split
  · split <;> rfl
  · rfl

theorem mem_asks_of_round {s : Syncing} {round : Nat} (phase : (s.leave now).phase = .round round) :
    i ∈ s.asks now ↔ round ≠ 3 ∧ s.conn.failedServers[i]? = some false := by
  rw [asks, phase]
  dsimp only
  by_cases isOver : round = 3 ∨ s.conn.failedServers.all (·) = true
  · rw [Connector.beginRound, Connector.allFailed, leave_failedServers, if_pos isOver]
    refine iff_of_false (by simp [Connector.finish]) ?_
    rintro ⟨more, left⟩
    cases List.all_eq_true.mp (isOver.resolve_left more) false (List.mem_of_getElem? left)
  · rw [Connector.beginRound, Connector.allFailed, leave_failedServers, if_neg isOver]
    simp only [List.mem_filter, List.mem_range, decide_eq_true_eq]
    refine ⟨fun h => ⟨fun last => isOver (.inl last), h.2⟩, fun h => ⟨?_, h.2⟩⟩
    exact (List.getElem?_eq_some_iff.mp h.2).1

theorem leave_stay {s : Syncing} {round : Nat} (phase : s.conn.phase = .poll round)
    (short : elapsed s.roundStart now < roundTimeout) (left : s.conn.allFailed = false) :
    s.leave now = s.conn := by
  simp [leave, phase, short, left]

theorem leave_next {s : Syncing} {round : Nat} (phase : s.conn.phase = .poll round)
    (isOver : ¬elapsed s.roundStart now < roundTimeout ∨ s.conn.allFailed = true) :
    (s.leave now).phase = .round (round + 1) := by
  have stop : ¬(elapsed s.roundStart now < roundTimeout ∧ ¬s.conn.allFailed) := by
    rintro ⟨short, left⟩
    exact isOver.elim (· short) left
  simp only [leave, phase, if_neg stop]

end Syncing

/-- The poll `t` is the first one in its round. -/
def Begins (past : List Tick) (t : Tick) : Prop :=
  ∀ begun, (Rounds.after Tick.fails past).start = some begun →
    roundTimeout ≤ elapsed begun t.checkedAt

/-- Before a poll the `Isync` is sent to those servers that have not reported the target as
missing, if the poll begins one of three rounds. -/
theorem Follows.mem_asks {s : Syncing} (follows : Follows id n past s) :
    i ∈ s.asks t.checkedAt ↔
      Begins past t ∧ InTime Tick.fails past t ∧ i < n ∧ ¬NotFound id n past i := by
  have left : s.conn.failedServers[i]? = some false ↔ i < n ∧ ¬NotFound id n past i := by
    rw [some_false_iff, follows.length, follows.failed]
  unfold Begins InTime Rounds.pollAt
  cases hstart : (Rounds.after Tick.fails past).start with
  | none =>
    obtain ⟨phase, bound⟩ := follows.before hstart
    have hleave : s.leave t.checkedAt = s.conn := by simp [Syncing.leave, phase]
    rw [Syncing.mem_asks_of_round (hleave ▸ phase), left]
    have : (Rounds.after Tick.fails past).round ≠ 3 ↔ (Rounds.after Tick.fails past).round < 3 := by
      omega
    simp [this]
  | some begun =>
    obtain ⟨phase, rfl, bound⟩ := follows.within begun hstart
    by_cases short : elapsed s.roundStart t.checkedAt < roundTimeout
    · refine iff_of_false ?_ fun h => (h.1 _ rfl).not_gt short
      cases all : s.conn.allFailed with
      | false => simp [Syncing.asks, Syncing.leave_stay phase short all, phase]
      | true =>
        rw [Syncing.mem_asks_of_round (Syncing.leave_next phase (.inr all))]
        rintro ⟨-, running⟩
        cases List.all_eq_true.mp all false (List.mem_of_getElem? running)
    · rw [Syncing.mem_asks_of_round (Syncing.leave_next phase (.inl short)), left]
      have : (Rounds.after Tick.fails past).round + 1 ≠ 3 ↔
          (Rounds.after Tick.fails past).round + 1 < 3 := by omega
      simp [this, short, not_lt.mp short]

/-- The rounds that have begun. -/
def Rounds.begun (r : Rounds) : Nat := r.round + if r.start.isSome then 1 else 0

theorem Rounds.begun_pollAt (r : Rounds) (now : Instant) : r.begun ≤ (r.pollAt now).begun ∧
    (r.pollAt now).begun = (r.pollAt now).round + 1 := by
  unfold pollAt begun
  cases hstart : r.start with
  | none => simp
  | some start =>
    by_cases short : elapsed start now < roundTimeout
    · simp [short, hstart]
    · simp [short]

theorem Rounds.begun_next :
    (r.next breaks t).begun = (r.pollAt t.checkedAt).round + 1 := by
  unfold next
  split
  · rfl
  · exact (begun_pollAt r _).2

theorem Begins.begun_le (begins : Begins past t) : (Rounds.after Tick.fails past).begun ≤
    ((Rounds.after Tick.fails past).pollAt t.checkedAt).round := by
  unfold Rounds.begun Rounds.pollAt
  cases hstart : (Rounds.after Tick.fails past).start with
  | none => exact Nat.le_refl _
  | some begun =>
    have long := begins begun hstart
    simp [not_lt.mpr long]

theorem Syncing.nodup_asks (s : Syncing) (now : Instant) : (s.asks now).Nodup := by
  unfold asks
  split
  · split
    · exact List.nodup_range.filter _
    · exact List.nodup_nil
  · exact List.nodup_nil

/-- No server is asked before a poll unless it begins a round. -/
theorem Outcome.asks {s : Syncing} (outcome : Outcome id n past s) (mem : i ∈ s.asks t.checkedAt) :
    Follows id n past s := by
  cases outcome with
  | follows follows => exact follows
  | decided split decisive parse phase => simp [Syncing.asks_of_done phase] at mem
  | gaveUp phase noneLive spent => simp [Syncing.asks_of_done phase] at mem

/-- In each round that has begun, each server has been asked once at most. -/
theorem count_requests_le (id target : String) (n : Nat) (ticks : List Tick) (i : Nat) :
    ((Syncing.init id target n).requests ticks).count i ≤
      min 3 (Rounds.after Tick.fails ticks).begun := by
  induction ticks using List.reverseRecOn with
  | nil => simp [Syncing.requests]
  | append_singleton ticks t ih =>
    rw [Syncing.requests_concat, after_concat, Rounds.begun_next, List.count_append]
    have poll := Rounds.begun_pollAt (Rounds.after Tick.fails ticks) t.checkedAt
    by_cases mem : i ∈ (ticks.foldl Syncing.tick (.init id target n)).asks t.checkedAt
    · have follows := (outcome_ticks id target n ticks).asks mem
      obtain ⟨begins, inTime, -, -⟩ := follows.mem_asks.mp mem
      have nodup := (ticks.foldl Syncing.tick (.init id target n)).nodup_asks t.checkedAt
      have once := List.nodup_iff_count_le_one.mp nodup i
      have := begins.begun_le
      unfold InTime at inTime
      omega
    · rw [List.count_eq_zero_of_not_mem mem]
      omega

/-- No server is asked more than three times; before each poll that begins one of three rounds,
while `connect` goes on, those are asked that have not reported the target as missing. -/
theorem connect_asks (id target : String) (n : Nat) (ticks : List Tick) :
    (∀ i, ((Syncing.init id target n).requests ticks).count i ≤ 3) ∧
    ∀ past t rest, ticks = past ++ t :: rest →
      let s := past.foldl Syncing.tick (.init id target n)
      ∀ i, i ∈ s.asks t.checkedAt ↔ s.conn.Running ∧ Begins past t ∧ InTime Tick.fails past t ∧
        i < n ∧ ¬NotFound id n past i := by
  refine ⟨fun i => (count_requests_le id target n ticks i).trans (Nat.min_le_left _ _), ?_⟩
  intro past t rest split s i
  have outcome := outcome_ticks id target n past
  constructor
  · intro mem
    have follows := outcome.asks mem
    exact ⟨follows.running, follows.mem_asks.mp mem⟩
  · rintro ⟨running, asked⟩
    cases outcome with
    | follows follows => exact follows.mem_asks.mpr asked
    | decided split decisive parse phase => exact absurd phase (running _)
    | gaveUp phase noneLive spent => exact absurd phase (running _)

end Rndz.Udp
