import Rndz.Tcp.Client
import Rndz.Tcp.Listening

/-!
# What a step of the blocking TCP client can do

`Conn.Rule` lists the ways a loop of a connection, or its monitor, can go on, and `Rule` the
ways a step of the client can go, with the guards that led there. The step functions are taken
apart here once; everything later is proved by cases on the rules.
-/
namespace Rndz.Tcp.Client

open Net Proto Mpsc Notification Listening
open Function (update update_apply)

/-! ## The loops of a connection -/

/-- An `Fsync` whose address does not parse. -/
def unparseable (resp : Response) : Bool :=
  match resp.cmd with
  | some (.fsync fsync) => (SocketAddr.parse fsync.addr).isNone
  | _ => false

namespace Conn

variable {c d : Conn} {a : LoopAction} {id : String}

/-- The ways a loop, or the monitor before its report, can go on. -/
inductive Rule (id : String) (c : Conn) : LoopAction → Conn → Prop where
  | ignore {resp : Response} (at_read : c.reader = .read)
      (other : ∀ fsync : Fsync, resp.cmd ≠ some (.fsync fsync)) :
      Rule id c (.read resp) { c with received := c.received ++ [resp] }
  | fsync {resp : Response} {fsync : Fsync} {addr : SocketAddr} (at_read : c.reader = .read)
      (cmd : resp.cmd = some (.fsync fsync)) (parses : SocketAddr.parse fsync.addr = some addr) :
      Rule id c (.read resp)
        { c with
          reader := .send (.rsync { id := fsync.id })
          received := c.received ++ [resp] }
  | invalid {resp : Response} (at_read : c.reader = .read) (bad : unparseable resp = true) :
      Rule id c (.read resp) { c.panicReader with received := c.received ++ [resp] }
  | readErr (at_read : c.reader = .read) :
      Rule id c .readErr { c with reader := .ended, chan := c.chan.dropSender }
  | send {req : ReqCmd} {chan : SyncChannel 10 ReqCmd} (at_send : c.reader = .send req)
      (receiver : c.chan.receiver = true) (push : c.chan.push req = some chan) :
      Rule id c .send { c with reader := .read, chan := chan }
  | sendPanic {req : ReqCmd} (at_send : c.reader = .send req)
      (gone : c.chan.receiver = false) : Rule id c .send c.panicReader
  | recv {req : ReqCmd} {chan : SyncChannel 10 ReqCmd} (at_recv : c.writer = .recv)
      (pop : c.chan.pop = some (req, chan)) :
      Rule id c .recv { c with writer := .write req, chan := chan }
  | recvErr (at_recv : c.writer = .recv) (empty : c.chan.pop = none)
      (gone : c.chan.sender = false) : Rule id c .recv c.endWriter
  | timeout (at_recv : c.writer = .recv) (empty : c.chan.items = []) :
      Rule id c .timeout { c with writer := .write .ping }
  | write {req : ReqCmd} (at_write : c.writer = .write req) :
      Rule id c (.write true) { c with writer := .recv, written := c.written ++ [⟨id, some req⟩] }
  | writeErr {req : ReqCmd} (at_write : c.writer = .write req) :
      Rule id c (.write false) c.endWriter
  | joinWriter (at_join : c.monitor = .joinWriter) (ended : c.writer = .ended) :
      Rule id c .join { c with monitor := .joinReader }
  | joinReader (at_join : c.monitor = .joinReader) (ended : c.reader = .ended) :
      Rule id c .join { c with monitor := .report }
  | joinPanic (at_join : c.monitor = .joinReader) (panicked : c.reader = .panicked) :
      Rule id c .join { c with monitor := .panicked }

theorem read_rule (at_read : c.reader = .read) (resp : Response) :
    Rule id c (.read resp) { c.handleResp resp with received := c.received ++ [resp] } := by
  unfold handleResp
  split
  · rename_i fsync cmd
    split
    · rename_i addr parses
      exact .fsync at_read cmd parses
    · rename_i bad
      exact .invalid at_read (by simp [unparseable, cmd, bad])
  · rename_i other
    exact .ignore at_read other

/-- Every step of a loop goes by one of the rules. -/
theorem rule_of_step (h : c.step id a = some d) : Rule id c a d := by
  cases a with
  | read resp =>
    obtain ⟨at_read, h⟩ := Option.ite_none_right_eq_some.mp h
    obtain rfl := Option.some.inj h
    exact read_rule at_read resp
  | readErr =>
    obtain ⟨at_read, h⟩ := Option.ite_none_right_eq_some.mp h
    obtain rfl := Option.some.inj h
    exact .readErr at_read
  | send =>
    unfold step at h
    dsimp only at h
    split at h
    · rename_i req at_send
      split at h
      · rename_i receiver
        obtain ⟨chan, push, rfl⟩ := Option.map_eq_some_iff.mp h
        exact .send at_send receiver push
      · rename_i gone
        obtain rfl := Option.some.inj h
        exact .sendPanic at_send (by simpa using gone)
    · cases h
  | recv =>
    obtain ⟨at_recv, h⟩ := Option.ite_none_right_eq_some.mp h
    split at h
    · rename_i req chan pop
      obtain rfl := Option.some.inj h
      exact .recv at_recv pop
    · rename_i empty
      obtain ⟨gone, h⟩ := Option.ite_none_left_eq_some.mp h
      obtain rfl := Option.some.inj h
      exact .recvErr at_recv empty (by simpa using gone)
  | timeout =>
    obtain ⟨⟨at_recv, empty, _⟩, h⟩ := Option.ite_none_right_eq_some.mp h
    obtain rfl := Option.some.inj h
    exact .timeout at_recv empty
  | write ok =>
    unfold step at h
    dsimp only at h
    split at h
    · rename_i req at_write
      cases ok with
      | true =>
        obtain rfl := Option.some.inj h
        exact .write at_write
      | false =>
        obtain rfl := Option.some.inj h
        exact .writeErr at_write
    · cases h
  | join =>
    unfold step at h
    dsimp only at h
    split at h
    · rename_i at_join
      obtain ⟨ended, h⟩ := Option.ite_none_right_eq_some.mp h
      obtain rfl := Option.some.inj h
      exact .joinWriter at_join ended
    · rename_i at_join
      split at h
      · rename_i ended
        obtain rfl := Option.some.inj h
        exact .joinReader at_join ended
      · rename_i panicked
        obtain rfl := Option.some.inj h
        exact .joinPanic at_join panicked
      · cases h
    · cases h

/-- The loops touch neither the watcher nor what it does to the socket. -/
theorem Rule.frame (rule : Rule id c a d) :
    d.listener = c.listener ∧ d.shut = c.shut ∧ d.watcher = c.watcher := by
  cases rule <;> exact ⟨rfl, rfl, rfl⟩

theorem Rule.writer_ended (rule : Rule id c a d) (ended : c.writer = .ended) :
    d.writer = .ended := by
  cases rule <;> simp_all

theorem Rule.isOver (rule : Rule id c a d) (isOver : c.Over) : d.Over := by
  unfold Over at *
  cases rule <;> simp_all

/-- The monitor moves by its joins only. -/
theorem Rule.monitor (rule : Rule id c a d) :
    d.monitor = c.monitor ∨
      c.monitor = .joinWriter ∧ d.monitor = .joinReader ∧ c.writer = .ended ∨
      c.monitor = .joinReader ∧ d.monitor = .report ∧ c.reader = .ended ∨
      c.monitor = .joinReader ∧ d.monitor = .panicked ∧ c.reader = .panicked := by
  cases rule <;> simp_all

/-- A loop that is not there yet does not appear by itself. -/
theorem Rule.absent (rule : Rule id c a d) :
    (d.reader = .absent ↔ c.reader = .absent) ∧ (d.writer = .absent ↔ c.writer = .absent) ∧
      (d.monitor = .absent ↔ c.monitor = .absent) := by
  cases rule <;> simp_all

end Conn

/-! ## The client -/

/-- The connection that `start_background` is busy with. -/
def Start.conn : Start → Option Nat
  | .connect => none
  | .writer k | .reader k | .monitor k | .watcher k => some k

/-- The threads of the connection that are spawned later are absent. -/
def Start.Fits : Start → Conn → Prop
  | .connect, _ => True
  | .writer _, c =>
    c.writer = .absent ∧ c.reader = .absent ∧ c.monitor = .absent ∧ c.watcher = .absent
  | .reader _, c => c.reader = .absent ∧ c.monitor = .absent ∧ c.watcher = .absent
  | .monitor _, c => c.monitor = .absent ∧ c.watcher = .absent
  | .watcher _, c => c.watcher = .absent

theorem Start.Fits.step {p : Start} {c d : Conn} {a : LoopAction} {id : String}
    (fits : p.Fits c) (moves : c.Rule id a d) : p.Fits d := by
  have frame := moves.frame
  have absent := moves.absent
  cases p <;> simp_all [Fits]

namespace State

variable {s t : State} {l k : Nat} {a : Action}

/-! ### `startFailed` -/

@[simp] theorem startFailed_listeners (first : Bool) : (s.startFailed l first).listeners =
    update s.listeners l { s.listeners l with phase := if first then .returned else .retry } := by
  cases first <;> rfl

@[simp] theorem startFailed_conns (first : Bool) : (s.startFailed l first).conns = s.conns := by
  cases first <;> rfl

@[simp] theorem startFailed_count (first : Bool) : (s.startFailed l first).count = s.count := by
  cases first <;> rfl

@[simp] theorem startFailed_cvar (first : Bool) : (s.startFailed l first).cvar = s.cvar := by
  cases first <;> rfl

@[simp] theorem startFailed_exit (first : Bool) : (s.startFailed l first).exit = s.exit := by
  cases first <;> rfl

@[simp] theorem startFailed_broken (first : Bool) : (s.startFailed l first).broken = s.broken := by
  cases first <;> rfl

@[simp] theorem startFailed_poisoned (first : Bool) :
    (s.startFailed l first).poisoned = s.poisoned := by
  cases first <;> rfl

@[simp] theorem startFailed_userPanicked (first : Bool) :
    (s.startFailed l first).userPanicked = s.userPanicked := by
  cases first <;> rfl

@[simp] theorem startFailed_listens (first : Bool) :
    (s.startFailed l first).listens = s.listens := by
  cases first <;> rfl

/-! ### The rules -/

/-- The action ends the wait `w` of the reconnect thread of `l`. -/
def EndsWait (s : State) (l : Nat) (w : Waiter) (a : Action) : Prop :=
  a = .lock l ∧ s.cvar.Woken w ∨ a = .wake l

/-- The action takes the watcher of `k` past its wait, or past the check before it. -/
def EndsWatch (s : State) (k : Nat) (a : Action) : Prop :=
  (s.conns k).watcher = .start ∧ a = .watch k ∨
    ∃ w, (s.conns k).watcher = .wait w ∧ (a = .watch k ∧ s.cvar.Woken w ∨ a = .wakeWatcher k)

/-- The ways a step can go. -/
inductive Rule (s : State) : Action → State → Prop where
  | listen (idle : s.busy = false) (alive : s.userPanicked = false) :
      Rule s .listen
        { s with
          busy := true
          listens := s.listens + 1
          listeners := update s.listeners s.listens ⟨.start true .connect, none⟩ }
  | shutdown (idle : s.busy = false) (alive : s.userPanicked = false)
      (sound : s.poisoned = false) :
      Rule s .shutdown { s with exit := true, cvar := s.cvar.notifyAll }
  | shutdownPanic (idle : s.busy = false) (alive : s.userPanicked = false)
      (poisoned : s.poisoned = true) : Rule s .shutdown { s with userPanicked := true }
  | opened {l : Nat} {first : Bool}
      (at_connect : (s.listeners l).phase = .start first .connect) :
      Rule s (.connect l true) (s.openConn l first)
  | refused {l : Nat} {first : Bool}
      (at_connect : (s.listeners l).phase = .start first .connect) :
      Rule s (.connect l false) (s.startFailed l first)
  | spawnWriter {l k : Nat} {first : Bool}
      (at_writer : (s.listeners l).phase = .start first (.writer k)) :
      Rule s (.clone l true)
        ((s.setConn k { s.conns k with writer := .recv }).setPhase l (.start first (.reader k)))
  | cloneFailed {l k : Nat} {first : Bool}
      (at_writer : (s.listeners l).phase = .start first (.writer k)) :
      Rule s (.clone l false) (s.startFailed l first)
  | spawnReader {l k : Nat} {first : Bool}
      (at_reader : (s.listeners l).phase = .start first (.reader k)) :
      Rule s (.clone l true)
        ((s.setConn k { s.conns k with reader := .read }).setPhase l (.start first (.monitor k)))
  | readerFailed {l k : Nat} {first : Bool}
      (at_reader : (s.listeners l).phase = .start first (.reader k)) :
      Rule s (.clone l false)
        ((s.setConn k { s.conns k with chan := (s.conns k).chan.dropSender }).startFailed l first)
  | spawnMonitor {l k : Nat} {first : Bool}
      (at_monitor : (s.listeners l).phase = .start first (.monitor k)) :
      Rule s (.spawn l)
        ((s.setConn k { s.conns k with monitor := .joinWriter }).setPhase l
          (.start first (.watcher k)))
  | spawnWatcher {l k : Nat} {first : Bool}
      (at_watcher : (s.listeners l).phase = .start first (.watcher k)) :
      Rule s (.spawn l)
        { (s.setConn k { s.conns k with watcher := .start }).setPhase l .outer with
          busy := if first then false else s.busy }
  | lockPoisoned {l : Nat}
      (at_lock : (s.listeners l).phase = .outer ∨ (s.listeners l).phase = .retry)
      (poisoned : s.poisoned = true) : Rule s (.lock l) (s.setPhase l .panicked)
  | lockExit {l : Nat}
      (at_lock : (s.listeners l).phase = .outer ∨ (s.listeners l).phase = .retry)
      (sound : s.poisoned = false) (exit : s.exit = true) :
      Rule s (.lock l) (s.setPhase l .returned)
  | waitOuter {l : Nat} (at_outer : (s.listeners l).phase = .outer) (sound : s.poisoned = false)
      (running : s.exit = false) : Rule s (.lock l) (s.setPhase l (.outerWait s.cvar.wait))
  | waitRetry {l : Nat} (at_retry : (s.listeners l).phase = .retry) (sound : s.poisoned = false)
      (running : s.exit = false) : Rule s (.lock l) (s.setPhase l (.retryWait s.cvar.wait))
  | endPoisoned {l : Nat} {w : Waiter} {a : Action}
      (waits : (s.listeners l).phase = .outerWait w ∨ (s.listeners l).phase = .retryWait w)
      (ends : s.EndsWait l w a) (poisoned : s.poisoned = true) :
      Rule s a (s.setPhase l .panicked)
  | endExit {l : Nat} {w : Waiter} {a : Action}
      (waits : (s.listeners l).phase = .outerWait w ∨ (s.listeners l).phase = .retryWait w)
      (ends : s.EndsWait l w a) (sound : s.poisoned = false) (exit : s.exit = true) :
      Rule s a (s.setPhase l .returned)
  | endOuter {l : Nat} {w : Waiter} {a : Action} (waits : (s.listeners l).phase = .outerWait w)
      (ends : s.EndsWait l w a) (sound : s.poisoned = false) (running : s.exit = false)
      (broken : s.broken = true) :
      Rule s a { s.setPhase l (.start false .connect) with broken := false }
  /-- The assertion after the outer wait fails. -/
  | endAssert {l : Nat} {w : Waiter} {a : Action} (waits : (s.listeners l).phase = .outerWait w)
      (ends : s.EndsWait l w a) (sound : s.poisoned = false) (running : s.exit = false)
      (intact : s.broken = false) :
      Rule s a { s.setPhase l .panicked with poisoned := true }
  | endRetry {l : Nat} {w : Waiter} {a : Action} (waits : (s.listeners l).phase = .retryWait w)
      (ends : s.EndsWait l w a) (sound : s.poisoned = false) (running : s.exit = false) :
      Rule s a (s.setPhase l (.start false .connect))
  | loop {k : Nat} {a : LoopAction} {d : Conn} (moves : (s.conns k).Rule s.id a d) :
      Rule s (.loop k a) (s.setConn k d)
  | reportPoisoned {k : Nat} (at_report : (s.conns k).monitor = .report)
      (poisoned : s.poisoned = true) :
      Rule s (.report k) (s.setConn k { s.conns k with monitor := .panicked })
  | report {k : Nat} (at_report : (s.conns k).monitor = .report) (sound : s.poisoned = false) :
      Rule s (.report k)
        { s.setConn k { s.conns k with monitor := .done } with
          broken := true
          cvar := s.cvar.notifyAll }
  | watchWait {k : Nat} (at_start : (s.conns k).watcher = .start) (sound : s.poisoned = false)
      (running : s.exit = false) :
      Rule s (.watch k) (s.setConn k { s.conns k with watcher := .wait s.cvar.wait })
  | watchPoisoned {k : Nat} {a : Action} (ends : s.EndsWatch k a) (poisoned : s.poisoned = true) :
      Rule s a (s.setConn k { s.conns k with watcher := .panicked })
  | watchExit {k : Nat} {a : Action} (ends : s.EndsWatch k a) (sound : s.poisoned = false)
      (exit : s.exit = true) :
      Rule s a (s.setConn k { s.conns k with watcher := .done, shut := true })
  | watchEnd {k : Nat} {w : Waiter} {a : Action} (waits : (s.conns k).watcher = .wait w)
      (ends : s.EndsWatch k a) (sound : s.poisoned = false) (running : s.exit = false) :
      Rule s a (s.setConn k { s.conns k with watcher := .done })

theorem resume_rule {w : Waiter} (waits : (s.listeners l).phase = .outerWait w)
    (ends : s.EndsWait l w a) : Rule s a (s.resume l) := by
  unfold resume
  cases hp : s.poisoned with
  | true => exact .endPoisoned (.inl waits) ends hp
  | false =>
    cases he : s.exit with
    | true => exact .endExit (.inl waits) ends hp he
    | false =>
      cases hb : s.broken with
      | true => simpa [hp, he] using Rule.endOuter waits ends hp he hb
      | false => simpa [hp, he] using Rule.endAssert waits ends hp he hb

theorem resumeRetry_rule {w : Waiter} (waits : (s.listeners l).phase = .retryWait w)
    (ends : s.EndsWait l w a) : Rule s a (s.resumeRetry l) := by
  unfold resumeRetry
  cases hp : s.poisoned with
  | true => exact .endPoisoned (.inr waits) ends hp
  | false =>
    cases he : s.exit with
    | true => exact .endExit (.inr waits) ends hp he
    | false => exact .endRetry waits ends hp he

theorem resumeWatcher_rule {w : Waiter} (waits : (s.conns k).watcher = .wait w)
    (ends : a = .watch k ∧ s.cvar.Woken w ∨ a = .wakeWatcher k) :
    Rule s a (s.resumeWatcher k) := by
  have ends : s.EndsWatch k a := .inr ⟨w, waits, ends⟩
  unfold resumeWatcher
  cases hp : s.poisoned with
  | true => exact .watchPoisoned ends hp
  | false =>
    cases he : s.exit with
    | true => exact .watchExit ends hp he
    | false => exact .watchEnd waits ends hp he

theorem lockStep_rule (h : s.lockStep l = some t) : Rule s (.lock l) t := by
  unfold lockStep at h
  split at h
  · rename_i at_outer
    obtain rfl := Option.some.inj h
    cases hp : s.poisoned with
    | true => exact .lockPoisoned (.inl at_outer) hp
    | false =>
      cases he : s.exit with
      | true => exact .lockExit (.inl at_outer) hp he
      | false => exact .waitOuter at_outer hp he
  · rename_i w waits
    obtain ⟨woken, h⟩ := Option.ite_none_right_eq_some.mp h
    obtain rfl := Option.some.inj h
    exact resume_rule waits (.inl ⟨rfl, woken⟩)
  · rename_i at_retry
    obtain rfl := Option.some.inj h
    cases hp : s.poisoned with
    | true => exact .lockPoisoned (.inr at_retry) hp
    | false =>
      cases he : s.exit with
      | true => exact .lockExit (.inr at_retry) hp he
      | false => exact .waitRetry at_retry hp he
  · rename_i w waits
    obtain ⟨woken, h⟩ := Option.ite_none_right_eq_some.mp h
    obtain rfl := Option.some.inj h
    exact resumeRetry_rule waits (.inl ⟨rfl, woken⟩)
  · cases h

theorem wakeStep_rule (h : s.wakeStep l = some t) : Rule s (.wake l) t := by
  unfold wakeStep at h
  split at h
  · rename_i w waits
    obtain rfl := Option.some.inj h
    exact resume_rule waits (.inr rfl)
  · rename_i w waits
    obtain rfl := Option.some.inj h
    exact resumeRetry_rule waits (.inr rfl)
  · cases h

theorem connectStep_rule {ok : Bool} (h : s.connectStep l ok = some t) :
    Rule s (.connect l ok) t := by
  unfold connectStep at h
  split at h
  · rename_i first at_connect
    obtain rfl := Option.some.inj h
    cases ok with
    | true => exact .opened at_connect
    | false => exact .refused at_connect
  · cases h

theorem cloneStep_rule {ok : Bool} (h : s.cloneStep l ok = some t) : Rule s (.clone l ok) t := by
  unfold cloneStep at h
  split at h
  · rename_i first k at_writer
    cases ok with
    | true =>
      obtain rfl := Option.some.inj h
      exact .spawnWriter at_writer
    | false =>
      obtain rfl := Option.some.inj h
      exact .cloneFailed at_writer
  · rename_i first k at_reader
    cases ok with
    | true =>
      obtain rfl := Option.some.inj h
      exact .spawnReader at_reader
    | false =>
      obtain rfl := Option.some.inj h
      exact .readerFailed at_reader
  · cases h

theorem spawnStep_rule (h : s.spawnStep l = some t) : Rule s (.spawn l) t := by
  unfold spawnStep at h
  split at h
  · rename_i first k at_monitor
    obtain rfl := Option.some.inj h
    exact .spawnMonitor at_monitor
  · rename_i first k at_watcher
    obtain rfl := Option.some.inj h
    exact .spawnWatcher at_watcher
  · cases h

theorem reportStep_rule (h : s.reportStep k = some t) : Rule s (.report k) t := by
  obtain ⟨at_report, h⟩ := Option.ite_none_right_eq_some.mp h
  by_cases hp : s.poisoned = true
  · rw [if_pos hp] at h
    obtain rfl := Option.some.inj h
    exact .reportPoisoned at_report hp
  · rw [if_neg hp] at h
    obtain rfl := Option.some.inj h
    exact .report at_report (by simpa using hp)

theorem watcherStarts_rule (at_start : (s.conns k).watcher = .start)
    (ends : s.poisoned = true ∨ s.exit = true) : Rule s (.watch k) (s.resumeWatcher k) := by
  have past : s.EndsWatch k (.watch k) := .inl ⟨at_start, rfl⟩
  unfold resumeWatcher
  cases hp : s.poisoned with
  | true => exact .watchPoisoned past hp
  | false =>
    have he : s.exit = true := by simpa [hp] using ends
    simpa [he] using Rule.watchExit past hp he

theorem watchStep_rule (h : s.watchStep k = some t) : Rule s (.watch k) t := by
  unfold watchStep at h
  split at h
  · rename_i at_start
    split at h
    · rename_i ends
      obtain rfl := Option.some.inj h
      exact watcherStarts_rule at_start ends
    · rename_i stays
      obtain ⟨sound, running⟩ : s.poisoned = false ∧ s.exit = false := by simpa using stays
      obtain rfl := Option.some.inj h
      exact .watchWait at_start sound running
  · rename_i w waits
    obtain ⟨woken, h⟩ := Option.ite_none_right_eq_some.mp h
    obtain rfl := Option.some.inj h
    exact resumeWatcher_rule waits (.inl ⟨rfl, woken⟩)
  · cases h

/-- Every step goes by one of the rules. -/
theorem rule_of_step (h : s.step a = some t) : Rule s a t := by
  cases a with
  | listen =>
    obtain ⟨⟨idle, alive⟩, h⟩ := Option.ite_none_right_eq_some.mp h
    obtain rfl := Option.some.inj h
    exact .listen idle alive
  | shutdown =>
    obtain ⟨⟨idle, alive⟩, h⟩ := Option.ite_none_right_eq_some.mp h
    by_cases hp : s.poisoned = true
    · rw [if_pos hp] at h
      obtain rfl := Option.some.inj h
      exact .shutdownPanic idle alive hp
    · rw [if_neg hp] at h
      obtain rfl := Option.some.inj h
      exact .shutdown idle alive (by simpa using hp)
  | connect l ok => exact connectStep_rule h
  | clone l ok => exact cloneStep_rule h
  | spawn l => exact spawnStep_rule h
  | lock l => exact lockStep_rule h
  | wake l => exact wakeStep_rule h
  | loop k a =>
    obtain ⟨d, hd, rfl⟩ := Option.map_eq_some_iff.mp h
    exact .loop (Conn.rule_of_step hd)
  | report k => exact reportStep_rule h
  | watch k => exact watchStep_rule h
  | wakeWatcher k =>
    unfold step at h
    dsimp only at h
    split at h
    · rename_i w waits
      obtain rfl := Option.some.inj h
      exact resumeWatcher_rule waits (.inr rfl)
    · cases h

/-! ## Calls of `listen` and their connections -/

/-- Calls of `listen` that have not been made have done nothing. -/
def Uncalled (s : State) : Prop := ∀ l, s.listens ≤ l → s.listeners l = ⟨.absent, none⟩

theorem uncalled_step (rule : Rule s a t) (uncalled : s.Uncalled) : t.Uncalled := by
  unfold Uncalled at *
  cases rule <;>
    simp only [openConn, startFailed_listeners, startFailed_listens, setPhase, setListener,
      setConn, update_apply] <;>
    grind

/-- A connection belongs to the call of `listen` that opened it, and while it is set up the
threads it does not have yet are absent. -/
structure Fresh (s : State) : Prop where
  current : ∀ l k, (s.listeners l).conn = some k → k < s.count ∧ (s.conns k).listener = l
  start : ∀ l first p k, (s.listeners l).phase = .start first p → p.conn = some k →
    (s.listeners l).conn = some k ∧ p.Fits (s.conns k)
  uncalled : s.Uncalled

theorem EndsWatch.present (ends : s.EndsWatch k a) : (s.conns k).watcher ≠ .absent := by
  obtain ⟨h, -⟩ | ⟨w, h, -⟩ := ends <;> simp [h]

theorem fresh_step (rule : Rule s a t) (fresh : s.Fresh) : t.Fresh := by
  obtain ⟨current, start, uncalled⟩ := fresh
  have uncalled := uncalled_step rule uncalled
  cases rule with
  | @loop k a d moves =>
    exact ⟨current_update current moves.frame.1, start_update start fun p fits => fits.step moves,
      uncalled⟩
  | report at_report | reportPoisoned at_report =>
    refine ⟨current_update current rfl, start_update start fun p fits => ?_, uncalled⟩
    cases p <;> simp_all [Start.Fits]
  | watchWait at_start =>
    refine ⟨current_update current rfl, start_update start fun p fits => ?_, uncalled⟩
    cases p <;> simp_all [Start.Fits]
  | watchPoisoned ends | watchExit ends | watchEnd waits ends =>
    have present := ends.present
    refine ⟨current_update current rfl, start_update start fun p fits => ?_, uncalled⟩
    cases p <;> simp_all [Start.Fits]
  | _ =>
    refine ⟨?_, ?_, uncalled⟩
    · simp only [openConn, startFailed_listeners, startFailed_conns, startFailed_count, setPhase,
        setListener, setConn, update_apply, Conn.opened]
      grind [Start.conn]
    · simp only [openConn, startFailed_listeners, startFailed_conns, setPhase, setListener,
        setConn, update_apply, Conn.opened]
      grind [Start.conn, Start.Fits]

theorem fresh_of_run {id : String} {tr : List (State × Action)} (run : Run id tr s) : s.Fresh :=
  run.invariant ⟨by simp [init], by simp [init], by simp [Uncalled, init]⟩ fun _ _ _ fresh h =>
    fresh_step (rule_of_step h) fresh

/-- A single call of `listen` is the first one. -/
theorem Uncalled.eq_zero (uncalled : s.Uncalled) (single : s.listens ≤ 1)
    (called : (s.listeners l).phase ≠ .absent) : l = 0 := by
  by_contra h
  have := uncalled l (by omega)
  simp [this] at called

/-! ## Waiters -/

/-- The reconnect threads wait with waiters that have been made. -/
def WaitersMade (s : State) : Prop :=
  ∀ l w, (s.listeners l).phase = .outerWait w → s.cvar.Made w

theorem waitersMade_step (rule : Rule s a t) (made : s.WaitersMade) : t.WaitersMade := by
  intro l w waits
  cases rule with
  | shutdown | report => exact (made l w waits).notifyAll
  | @waitOuter i at_outer =>
    by_cases hl : l = i
    · subst hl
      obtain rfl : s.cvar.wait = w := by simpa using waits
      exact Notify.made_wait
    · exact made l w (by simpa [hl] using waits)
  | _ =>
    have := made l w
    simp only [openConn, startFailed_listeners, startFailed_cvar, setPhase, setListener, setConn,
      update_apply] at waits ⊢
    grind

theorem waitersMade_of_run {id : String} {tr : List (State × Action)} (run : Run id tr s) :
    s.WaitersMade :=
  run.invariant (by simp [WaitersMade, init]) fun _ _ _ made h =>
    waitersMade_step (rule_of_step h) made

end State

end Rndz.Tcp.Client
