import Rndz.Tcp.ClientAsyncStep

/-!
# A broken connection is replaced, or is not noticed

The task that joins the loops of a connection notifies the reconnect task once. A notification
given before the reconnect task has made its waiter is lost on it, and there is no other.
-/
namespace Rndz.Tcp.ClientAsync

open Net Proto Mpsc Notification Transition
open Function (update update_apply)

/-- The reconnect task is about to make its waiter for the broken connection. -/
def Phase.OnItsWay : Phase → Prop
  | .loop | .enter _ => True
  | _ => False

/-- The reconnect task is in the `select!` that waits for the broken connection. -/
def Phase.selects : Phase → Bool
  | .select _ _ => true
  | _ => false

theorem Phase.selects_iff {p : Phase} : p.selects = true ↔ ∃ w b, p = .select w b := by
  cases p <;> simp [selects]

/-- The connection whose end is notified. -/
def Action.notified : Action → Option Nat
  | .notify k => some k
  | _ => none

namespace State

variable {s t : State} {k l : Nat} {a : Action} {tr : List (State × Action)} {id : String}

/-- The connection of `l` is over and notified, and the reconnect task waits, or will wait next,
with a waiter made after that. -/
structure Missed (s : State) (l k : Nat) : Prop where
  kept : s.dropped = false
  current : (s.listeners l).conn = some k
  isOver : (s.conns k).Over
  notified : (s.conns k).joiner = .done
  waits : (s.listeners l).phase.OnItsWay ∨
    ∃ w b, (s.listeners l).phase = .select w b ∧ ¬(s.conns k).broken.Woken b

def NoneMissed (s : State) : Prop := ∀ l k, ¬s.Missed l k

/-- A connection is notified while the reconnect task is in the `select!` that waits for it. -/
def NotifyHeard (s : State) (a : Action) : Prop :=
  ∀ k ∈ a.notified, s.dropped = true ∨ (s.listeners (s.conns k).listener).phase.selects = true

instance (s : State) (a : Action) : Decidable (s.NotifyHeard a) :=
  inferInstanceAs (Decidable (∀ k ∈ a.notified, _ ∨ _))

/-- The reconnect task is in the `select!` that waits for its connection, or on its way there,
or has taken the exit. -/
def Attending (s : State) (l : Nat) : Prop :=
  (s.listeners l).phase.OnItsWay ∨ (∃ w b, (s.listeners l).phase = .select w b) ∨
    (s.listeners l).phase = .ended ∧ s.dropped = true

/-- A connection whose loops are being joined is the current one of its call of `listen`, whose
reconnect task attends to it. A connection is notified once, when it is over. -/
structure Attended (s : State) : Prop where
  current : ∀ k, (s.conns k).joiner = .join →
    (s.listeners (s.conns k).listener).conn = some k
  attends : ∀ k, (s.conns k).joiner = .join → s.Attending (s.conns k).listener
  quiet : ∀ k, (s.conns k).joiner ≠ .done → (s.conns k).broken = .new
  isOver : ∀ k, (s.conns k).joiner = .done → (s.conns k).Over
  made : ∀ l k w b, (s.listeners l).conn = some k → (s.listeners l).phase = .select w b →
    (s.conns k).broken.Made b

/-! ## Effects of a step -/

/-- What a step can do to a connection, as far as its end is concerned. -/
inductive ConnStep (s : State) (a : Action) (t : State) (k : Nat) : Prop where
  | same (listener : (t.conns k).listener = (s.conns k).listener)
      (joiner : (t.conns k).joiner = (s.conns k).joiner)
      (broken : (t.conns k).broken = (s.conns k).broken)
      (isOver : (s.conns k).Over → (s.conns k).joiner = .done → (t.conns k).Over)
  | opened (new : k = s.count) (joiner : (t.conns k).joiner = .absent)
      (broken : (t.conns k).broken = .new)
  | spawned {l : Nat} {first : Bool} (at_joiner : (s.listeners l).phase = .start first (.joiner k))
      (at_loop : (t.listeners l).phase = .loop)
      (listener : (t.conns k).listener = (s.conns k).listener)
      (joiner : (t.conns k).joiner = .join)
      (broken : (t.conns k).broken = (s.conns k).broken)
  | notified (notifies : a = .notify k) (joins : (s.conns k).joiner = .join)
      (isOver : (t.conns k).Over)
      (listener : (t.conns k).listener = (s.conns k).listener)
      (joiner : (t.conns k).joiner = .done)
      (broken : (t.conns k).broken = (s.conns k).broken.notifyAll)

/-- A connection that is not the one of the step stays as it is. -/
theorem connStep_of_update {d : Conn} {j : Nat} (conns : t.conns = update s.conns j d)
    (step : k = j → ConnStep s a t k) : ConnStep s a t k := by
  by_cases hk : k = j
  · exact step hk
  · have : t.conns k = s.conns k := by simp [conns, hk]
    exact .same (by rw [this]) (by rw [this]) (by rw [this]) (by rw [this]; exact fun h _ => h)

theorem connStep_of_same (conns : t.conns = s.conns) : ConnStep s a t k :=
  .same (by rw [conns]) (by rw [conns]) (by rw [conns]) (by rw [conns]; exact fun h _ => h)

theorem connStep (rule : Rule s a t) (fresh : s.Fresh) (k : Nat) : ConnStep s a t k := by
  cases rule with
  | reader moves =>
    refine connStep_of_update rfl fun hk => ?_
    subst hk
    obtain ⟨listener, writer, joiner, broken, -⟩ := moves.frame
    have live := moves.live.2
    refine .same ?_ ?_ ?_ ?_ <;> simp_all [Conn.Over]
  | writer moves =>
    refine connStep_of_update rfl fun hk => ?_
    subst hk
    obtain ⟨listener, reader, joiner, broken, -⟩ := moves.frame
    have live := moves.live.2
    refine .same ?_ ?_ ?_ ?_ <;> simp_all [Conn.Over]
  | notify joins isOver =>
    refine connStep_of_update rfl fun hk => ?_
    subst hk
    exact .notified rfl joins (by simpa [Conn.Over] using isOver) (by simp) (by simp) (by simp)
  | opened =>
    refine connStep_of_update rfl fun hk => ?_
    exact .opened hk (by simp [hk, Conn.opened]) (by simp [hk, Conn.opened])
  | @spawnReader l j first at_reader =>
    refine connStep_of_update rfl fun hk => ?_
    subst hk
    obtain ⟨-, -, -, absent⟩ := fresh.start l first _ k at_reader rfl
    exact .same (by simp) (by simp) (by simp) (by simp [absent])
  | @spawnWriter l j first at_writer =>
    refine connStep_of_update rfl fun hk => ?_
    subst hk
    obtain ⟨-, -, absent⟩ := fresh.start l first _ k at_writer rfl
    exact .same (by simp) (by simp) (by simp) (by simp [absent])
  | @spawnJoiner l j first at_joiner =>
    refine connStep_of_update rfl fun hk => ?_
    subst hk
    exact .spawned at_joiner (by simp) (by simp) (by simp) (by simp)
  | refused => exact connStep_of_same (startFailed_conns _)
  | _ => exact connStep_of_same rfl

/-- A call of `listen` gets a new connection when it connects. -/
theorem conn_step (rule : Rule s a t) (uncalled : s.Uncalled)
    (called : (s.listeners l).phase ≠ .absent)
    (away : ∀ first, (s.listeners l).phase ≠ .start first .connect) :
    (t.listeners l).conn = (s.listeners l).conn := by
  have absent := uncalled s.listens (Nat.le_refl _)
  cases rule <;>
    simp only [openConn, startFailed_listeners, setPhase, setConn, update_apply] <;>
    grind

/-- A reconnect task enters its `select!` with a new waiter. -/
theorem select_step {w b : Waiter} (rule : Rule s a t)
    (selects : (t.listeners l).phase = .select w b) :
    (s.listeners l).phase = .select w b ∨
      (s.listeners l).phase = .enter w ∧ b = (s.brokenOf l).wait := by
  cases rule with
  | @select i v at_enter =>
    by_cases hl : l = i
    · subst hl
      obtain ⟨rfl, rfl⟩ : v = w ∧ (s.brokenOf l).wait = b := by simpa using selects
      exact .inr ⟨at_enter, rfl⟩
    · exact .inl (by simpa [hl] using selects)
  | _ =>
    refine .inl ?_
    simp only [openConn, startFailed_listeners, setPhase, setConn, update_apply] at selects
    grind

/-- A reconnect task leaves its `select!` by the exit, after the drop, or because its connection
is broken. -/
theorem attends_step (rule : Rule s a t) (uncalled : s.Uncalled)
    (exit : s.dropped = false → s.exit = .new) (attends : s.Attending l) :
    t.Attending l ∨ ∃ w b, (s.listeners l).phase = .select w b ∧ (s.brokenOf l).Woken b := by
  have absent := uncalled s.listens (Nat.le_refl _)
  cases rule with
  | @exit i w waits woken =>
    have dropped : s.dropped = true := by
      by_contra kept
      simp [exit (by simpa using kept)] at woken
    simp only [Attending, setPhase, update_apply] at attends ⊢
    grind
  | broken waits woken =>
    simp only [Attending, setPhase, update_apply] at attends ⊢
    grind
  | _ =>
    refine .inl ?_
    simp only [Attending, openConn, startFailed_listeners, startFailed_dropped, setPhase, setConn,
      update_apply] at attends ⊢
    grind [Phase.OnItsWay]

theorem Attending.called (attends : s.Attending l) : (s.listeners l).phase ≠ .absent ∧
    ∀ first p, (s.listeners l).phase ≠ .start first p := by
  obtain way | ⟨w, b, selects⟩ | ⟨ended, -⟩ := attends
  · constructor
    · intro h
      simp [h, Phase.OnItsWay] at way
    · intro first p h
      simp [h, Phase.OnItsWay] at way
  · simp [selects]
  · simp [ended]

/-- The reconnect task has only the current connection's end to be told of. -/
theorem attends_joining (rule : Rule s a t) (uncalled : s.Uncalled)
    (exit : s.dropped = false → s.exit = .new) (attended : s.Attended)
    (joins : (s.conns k).joiner = .join) : t.Attending (s.conns k).listener := by
  obtain now | ⟨w, b, -, woken⟩ := attends_step rule uncalled exit (attended.attends k joins)
  · exact now
  · have quiet := attended.quiet k (by simp [joins])
    simp [brokenOf, attended.current k joins, quiet] at woken

theorem attended_step (rule : Rule s a t) (fresh : s.Fresh)
    (exit : s.dropped = false → s.exit = .new) (attended : s.Attended) : t.Attended := by
  have uncalled := fresh.uncalled
  constructor
  · intro k joins
    cases connStep rule fresh k with
    | same listener joiner =>
      rw [joiner] at joins
      obtain ⟨called, away⟩ := (attended.attends k joins).called
      rw [listener, conn_step rule uncalled called fun first => away first _]
      exact attended.current k joins
    | opened new joiner => simp [joiner] at joins
    | @spawned l first at_joiner at_loop listener =>
      obtain ⟨current, -⟩ := fresh.start l first _ k at_joiner rfl
      rw [listener, (fresh.current l k current).2,
        conn_step rule uncalled (by simp [at_joiner]) (by simp [at_joiner])]
      exact current
    | notified _ _ _ _ joiner => simp [joiner] at joins
  · intro k joins
    cases connStep rule fresh k with
    | same listener joiner =>
      rw [listener]
      exact attends_joining rule uncalled exit attended (joiner ▸ joins)
    | opened new joiner => simp [joiner] at joins
    | @spawned l first at_joiner at_loop listener =>
      obtain ⟨current, -⟩ := fresh.start l first _ k at_joiner rfl
      rw [listener, (fresh.current l k current).2]
      exact .inl (by simp [at_loop, Phase.OnItsWay])
    | notified _ _ _ _ joiner => simp [joiner] at joins
  · intro k waits
    cases connStep rule fresh k with
    | same listener joiner broken => exact broken.trans (attended.quiet k (joiner ▸ waits))
    | opened new joiner broken => exact broken
    | @spawned l first at_joiner at_loop listener joiner broken =>
      obtain ⟨-, absent⟩ := fresh.start l first _ k at_joiner rfl
      have absent : (s.conns k).joiner = .absent := absent
      exact broken.trans (attended.quiet k (by simp [absent]))
    | notified _ _ _ _ joiner => exact absurd joiner waits
  · intro k done
    cases connStep rule fresh k with
    | same listener joiner broken isOver =>
      have done := joiner ▸ done
      exact isOver (attended.isOver k done) done
    | opened new joiner => simp [joiner] at done
    | spawned _ _ _ joiner => simp [joiner] at done
    | notified _ _ isOver => exact isOver
  · intro l k w b current selects
    have made : (s.listeners l).conn = some k ∧ (s.conns k).broken.Made b := by
      obtain before | ⟨before, rfl⟩ := select_step rule selects
      · rw [conn_step rule uncalled (by simp [before]) (by simp [before])] at current
        exact ⟨current, attended.made l k w b current before⟩
      · rw [conn_step rule uncalled (by simp [before]) (by simp [before])] at current
        exact ⟨current, by simp [brokenOf, current]⟩
    cases connStep rule fresh k with
    | same _ _ broken => exact broken ▸ made.2
    | opened new => exact absurd (fresh.current l k made.1).1 (by omega)
    | spawned _ _ _ _ broken => exact broken ▸ made.2
    | notified _ _ _ _ _ broken => exact broken ▸ made.2.notifyAll

theorem attended_of_run (run : Run id tr s) : s.Attended := by
  induction run with
  | start => constructor <;> simp [init, Conn.opened]
  | next run h ih =>
    exact attended_step (rule_of_step h) (fresh_of_run run) (exit_of_run run) ih

theorem noneMissed_iff (attended : s.Attended) :
    s.NoneMissed ↔ s.dropped = false → ∀ l k, (s.listeners l).conn = some k →
      (s.conns k).joiner = .done → ¬(s.listeners l).phase.OnItsWay ∧
        ∀ w b, (s.listeners l).phase = .select w b → (s.conns k).broken.Woken b := by
  constructor
  · intro safe kept l k current notified
    have isOver := attended.isOver k notified
    constructor
    · intro way
      exact safe l k ⟨kept, current, isOver, notified, .inl way⟩
    · intro w b selects
      by_contra asleep
      exact safe l k ⟨kept, current, isOver, notified, .inr ⟨w, b, selects, asleep⟩⟩
  · intro safe l k ⟨kept, current, isOver, notified, waits⟩
    obtain ⟨away, woken⟩ := safe kept l k current notified
    obtain way | ⟨w, b, selects, asleep⟩ := waits
    · exact away way
    · exact asleep (woken w b selects)

/-- A notification that is heard leaves its waiter woken. -/
theorem noneMissed_step (rule : Rule s a t) (fresh : s.Fresh) (attended : s.Attended)
    (after : t.Attended) (safe : s.NoneMissed) (heard : s.NotifyHeard a) : t.NoneMissed := by
  rw [noneMissed_iff attended] at safe
  rw [noneMissed_iff after]
  obtain ⟨conn, start⟩ := fresh
  intro kept l k current notified
  cases rule with
  | reader moves =>
    obtain ⟨-, -, joiner, broken, -⟩ := moves.frame
    simp only [setConn, update_apply] at kept current notified ⊢
    grind
  | writer moves =>
    obtain ⟨-, -, joiner, broken, -⟩ := moves.frame
    simp only [setConn, update_apply] at kept current notified ⊢
    grind
  | @notify j joins isOver =>
    simp only [setConn, update_apply] at kept current notified ⊢
    by_cases hj : k = j
    · subst hj
      obtain ⟨-, listener⟩ := conn l k current
      obtain dropped | selects := heard k rfl
      · exact absurd (dropped.symm.trans kept) (by decide)
      · obtain ⟨w, b, selects⟩ := Phase.selects_iff.mp selects
        have made := attended.made l k w b current (listener ▸ selects)
        grind [Phase.OnItsWay, Notify.woken_notifyAll]
    · grind
  | _ =>
    simp only [openConn, startFailed_conns, startFailed_listeners, startFailed_dropped, setPhase,
      setConn, update_apply, Conn.opened] at kept current notified ⊢
    grind [Phase.OnItsWay, Start.conn, Start.Fits]

/-- A notification that nobody hears leaves its call of `listen` missing it. -/
theorem missed_of_unheard (attended : s.Attended) (rule : Rule s a t)
    (unheard : ¬s.NotifyHeard a) : ∃ l k, t.Missed l k := by
  cases rule with
  | @notify k joins isOver =>
    have missed : s.dropped = false ∧ (s.listeners (s.conns k).listener).phase.selects = false := by
      simpa [NotifyHeard, Action.notified] using unheard
    obtain ⟨kept, away⟩ := missed
    have way : (s.listeners (s.conns k).listener).phase.OnItsWay := by
      obtain way | selects | ⟨-, dropped⟩ := attended.attends k joins
      · exact way
      · simp [Phase.selects_iff.mpr selects] at away
      · simp [kept] at dropped
    refine ⟨(s.conns k).listener, k, ?_⟩
    exact ⟨kept, attended.current k joins, by simpa [Conn.Over] using isOver, by simp, .inl way⟩
  | _ => exact absurd (by simp [NotifyHeard, Action.notified]) unheard

/-- A failure is never missed, at any point of a run, exactly when every connection is notified
while the reconnect task waits for it. -/
theorem notification_never_missed (run : Run id tr s) :
    Always NoneMissed tr s ↔ Steps NotifyHeard tr := by
  have known : Always
      (fun s => s.Fresh ∧ (s.dropped = false → s.exit = .new) ∧ s.Attended) tr s :=
    run.always fun _ _ run => ⟨fresh_of_run run, exit_of_run run, attended_of_run run⟩
  refine run.always_iff_steps known ?_ ?_ ?_
  · intro l k missed
    simpa [init] using missed.current
  · intro s a t known safe heard h
    have rule := rule_of_step h
    have after := attended_step rule known.1 known.2.1 known.2.2
    exact noneMissed_step rule known.1 known.2.2 after safe heard
  · intro s a t known _ h after
    by_contra unheard
    obtain ⟨l, k, missed⟩ := missed_of_unheard known.2.2 (rule_of_step h) unheard
    exact after l k missed

/-! ## Concrete runs -/

/-- The connection is over and notified before the reconnect task is polled for the first
time. -/
theorem early_notification_missed : ∃ tr s, Run "c1" tr s ∧ s.listens = 1 ∧ ¬s.NoneMissed := by
  have script : (exec step (fun _ _ => True) (init "c1")
      (listenOnce 0 ++ startLoops 0 ++ breakConn 0 ++ enterSelect 0)).any
      (fun s => (s.listens = 1 ∧ s.dropped = false ∧ (s.listeners 0).conn = some 0) ∧
        (s.conns 0).Over ∧ (s.conns 0).joiner = .done ∧
        (s.listeners 0).phase = .select s.exit.wait (s.conns 0).broken.wait) = true := by decide
  obtain ⟨tr, s, run, -, h⟩ := run_of_exec script
  obtain ⟨⟨single, kept, current⟩, isOver, notified, selects⟩ := of_decide_eq_true h
  refine ⟨tr, s, run, single, ?_⟩
  intro safe
  have asleep : ¬(s.conns 0).broken.Woken (s.conns 0).broken.wait := Notify.not_woken_wait
  exact safe 0 0 ⟨kept, current, isOver, notified, .inr ⟨_, _, selects, asleep⟩⟩

/-- The reconnect task is in its `select!` when the notification comes, and connects again. -/
theorem late_notification_heard :
    ∃ tr s, Run "c1" tr s ∧ (s.conns 0).Over ∧ (s.listeners 0).conn = some 1 ∧
      Always NoneMissed tr s := by
  have script : (exec step NotifyHeard (init "c1")
      (listenOnce 0 ++ startLoops 0 ++ enterSelect 0 ++ breakConn 0 ++
        [Action.broken 0, .connect 0 false, .poll 0, .timeout 0, .connect 0 true])).any
      (fun s => (s.conns 0).Over ∧ (s.listeners 0).conn = some 1) = true := by decide
  obtain ⟨tr, s, run, heard, h⟩ := run_of_exec script
  obtain ⟨isOver, current⟩ := of_decide_eq_true h
  exact ⟨tr, s, run, isOver, current, (notification_never_missed run).mpr heard⟩

end State

end Rndz.Tcp.ClientAsync
