import Mathlib.Logic.Relation
import Rndz.Lib.Relay
import Rndz.Tcp.ClientAsyncStep
import Rndz.Tcp.ClientStep

/-!
# The answers of a TCP listener

On each connection to the server the two loops of a listener are a relay: what `read_loop` takes
in are the `Fsync`s, or rather the `Rsync`s that answer them, and the beats of `write_loop` are
its pings. Both clients are related to the relay of the library step by step.
-/
namespace Rndz.Tcp

open Net Proto Mpsc
open Function (update update_apply)

/-- The ping of a listener. -/
abbrev pingOf (id : String) : Request := ⟨id, some .ping⟩

def rsyncOf (id : String) (fsync : Fsync) : Request := ⟨id, some (.rsync { id := fsync.id })⟩

/-- The answer to an `Fsync`. -/
def answerTo (id : String) (resp : Response) : Option Request :=
  match resp.cmd with
  | some (.fsync fsync) => some (rsyncOf id fsync)
  | _ => none

/-- The answers to the `Fsync`s among the responses. -/
def answersTo (id : String) (received : List Response) : List Request :=
  received.filterMap (answerTo id)

variable {id : String} {received : List Response} {resp : Response}

theorem answerTo_fsync {fsync : Fsync} (cmd : resp.cmd = some (.fsync fsync)) :
    answerTo id resp = some (rsyncOf id fsync) := by
  simp [answerTo, cmd]

theorem answerTo_other (other : ∀ fsync : Fsync, resp.cmd ≠ some (.fsync fsync)) :
    answerTo id resp = none := by
  unfold answerTo
  split
  · rename_i fsync cmd
    exact absurd cmd (other fsync)
  · rfl

theorem answersTo_concat : answersTo id (received ++ [resp]) =
    answersTo id received ++ (answerTo id resp).toList := by
  cases h : answerTo id resp <;> simp [answersTo, h]

theorem rsyncOf_ne_ping (fsync : Fsync) : rsyncOf id fsync ≠ pingOf id := by simp [rsyncOf]

/-! ## The relay of a connection -/

/-- The relay of two loops with the channel between them. -/
def relayOf (id : String) (received : List Response) (reader : Relay.Loop Request)
    (items : List ReqCmd) (writer : Relay.Loop Request) (written : List Request) :
    Relay.State Request where
  received := answersTo id received
  reader := reader
  queue := items.map fun req => ⟨id, some req⟩
  writer := writer
  written := written

section

variable {reader writer : Relay.Loop Request} {items : List ReqCmd} {req : ReqCmd}
  {written : List Request} {fsync : Fsync}

theorem relayOf_fsync (cmd : resp.cmd = some (.fsync fsync)) :
    Relay.Step (pingOf id) (relayOf id received .idle items writer written)
      (relayOf id (received ++ [resp]) (.busy (rsyncOf id fsync)) items writer written) := by
  have step : Relay.Step (pingOf id) (relayOf id received .idle items writer written) _ :=
    .read rfl (rsyncOf_ne_ping fsync)
  simpa [relayOf, answersTo_concat, answerTo_fsync cmd] using step

theorem relayOf_invalid (cmd : resp.cmd = some (.fsync fsync)) :
    Relay.Step (pingOf id) (relayOf id received .idle items writer written)
      (relayOf id (received ++ [resp]) .stopped items writer written) := by
  have step : Relay.Step (pingOf id) (relayOf id received .idle items writer written) _ :=
    .refuse (m := rsyncOf id fsync) rfl
  simpa [relayOf, answersTo_concat, answerTo_fsync cmd] using step

theorem relayOf_other (other : answerTo id resp = none) :
    relayOf id (received ++ [resp]) reader items writer written =
      relayOf id received reader items writer written := by
  simp [relayOf, answersTo_concat, other]

theorem relayOf_push (running : writer ≠ .stopped) :
    Relay.Step (pingOf id) (relayOf id received (.busy ⟨id, some req⟩) items writer written)
      (relayOf id received .idle (items ++ [req]) writer written) := by
  have step : Relay.Step (pingOf id)
      (relayOf id received (.busy ⟨id, some req⟩) items writer written) _ := .push rfl running
  simpa [relayOf] using step

theorem relayOf_pop :
    Relay.Step (pingOf id) (relayOf id received reader (req :: items) .idle written)
      (relayOf id received reader items (.busy ⟨id, some req⟩) written) :=
  .pop rfl rfl

end

theorem fsync_of_unparseable (bad : Client.unparseable resp = true) :
    ∃ fsync, resp.cmd = some (.fsync fsync) := by
  unfold Client.unparseable at bad
  split at bad
  · rename_i fsync cmd
    exact ⟨fsync, cmd⟩
  · cases bad

namespace Client

def Reader.loop (id : String) : Reader → Relay.Loop Request
  | .absent | .read => .idle
  | .send req => .busy ⟨id, some req⟩
  | .ended | .panicked => .stopped

def Writer.loop (id : String) : Writer → Relay.Loop Request
  | .absent | .recv => .idle
  | .write req => .busy ⟨id, some req⟩
  | .ended => .stopped

namespace Conn

/-- The loops of a connection as a relay. -/
def relay (id : String) (c : Conn) : Relay.State Request :=
  relayOf id c.received (c.reader.loop id) c.chan.items (c.writer.loop id) c.written

/-- The channel is closed when `write_loop` is over. -/
def Closes (c : Conn) : Prop := c.writer = .ended → c.chan.receiver = false

variable {c d : Conn} {a : LoopAction}

theorem Rule.closes (rule : Rule id c a d) (closes : c.Closes) : d.Closes := by
  unfold Closes at *
  cases rule <;> simp_all [SyncChannel.dropSender, SyncChannel.dropReceiver]

/-- Every step is one of the relay, or none at all. -/
theorem Rule.relay (rule : Rule id c a d) (closes : c.Closes) :
    Relation.ReflGen (Relay.Step (pingOf id)) (c.relay id) (d.relay id) := by
  cases rule with
  | ignore at_read other =>
    simp only [Conn.relay, relayOf_other (answerTo_other other)]
    exact .refl
  | fsync at_read cmd parses =>
    simp only [Conn.relay, at_read]
    exact .single (relayOf_fsync cmd)
  | invalid at_read bad =>
    obtain ⟨fsync, cmd⟩ := fsync_of_unparseable bad
    simp only [Conn.relay, at_read]
    exact .single (relayOf_invalid cmd)
  | readErr at_read => exact .single .stopReader
  | send at_send receiver push =>
    have running : c.writer.loop id ≠ .stopped := by
      cases hw : c.writer <;> simp_all [Writer.loop, Closes]
    simp only [Conn.relay, at_send, (SyncChannel.push_eq_some push).1]
    exact .single (relayOf_push running)
  | sendPanic at_send gone => exact .single .stopReader
  | recv at_recv pop =>
    simp only [Conn.relay, at_recv, (SyncChannel.pop_eq_some pop).1]
    exact .single relayOf_pop
  | recvErr at_recv empty gone => exact .single .stopWriter
  | timeout at_recv empty => exact .single (.beat (congrArg (Writer.loop id) at_recv))
  | write at_write => exact .single (.write (congrArg (Writer.loop id) at_write))
  | writeErr at_write => exact .single .stopWriter
  | joinWriter at_join | joinReader at_join | joinPanic at_join => exact .refl

/-- The two loops are a relay that has gone by its rules. -/
structure Relays (id : String) (c : Conn) : Prop where
  inv : Relay.Inv (pingOf id) (c.relay id)
  closes : c.Closes

theorem relays_opened (listener : Nat) : Relays id (.opened listener) :=
  ⟨Relay.inv_start (pingOf id), nofun⟩

theorem Relays.of_relay (relays : Relays id c) (same : d.relay id = c.relay id)
    (closes : d.Closes) : Relays id d :=
  ⟨same ▸ relays.inv, closes⟩

theorem Relays.step (relays : Relays id c) (rule : Rule id c a d) : Relays id d := by
  refine ⟨?_, rule.closes relays.closes⟩
  obtain same | h := (Relation.reflGen_iff _ _ _).mp (rule.relay relays.closes)
  · exact same ▸ relays.inv
  · exact relays.inv.step h

/-- Both loops run, or are yet to be spawned. -/
structure Live (c : Conn) : Prop where
  reader : c.reader ≠ .ended ∧ c.reader ≠ .panicked
  writer : c.writer ≠ .ended
  sender : c.chan.sender = true
  receiver : c.chan.receiver = true

/-- The connection fails, or an `Fsync` without an address is read. -/
def Fails : LoopAction → Prop
  | .readErr => True
  | .write ok => ok = false
  | .read resp => unparseable resp = true
  | _ => False

theorem Live.step (live : c.Live) (rule : Rule id c a d) (keeps : ¬Fails a) : d.Live := by
  obtain ⟨reader, writer, sender, receiver⟩ := live
  cases rule with
  | send at_send isOpen push =>
    obtain ⟨-, hsender, hreceiver⟩ := SyncChannel.push_eq_some push
    exact ⟨by simp, writer, hsender.trans sender, hreceiver.trans receiver⟩
  | recv at_recv pop =>
    obtain ⟨-, hsender, hreceiver⟩ := SyncChannel.pop_eq_some pop
    exact ⟨reader, by simp, hsender.trans sender, hreceiver.trans receiver⟩
  | _ => constructor <;> simp_all [Fails]

theorem Live.relay (id : String) (live : c.Live) :
    (c.relay id).reader ≠ .stopped ∧ (c.relay id).writer ≠ .stopped := by
  obtain ⟨⟨ended, panicked⟩, writer, -, -⟩ := live
  constructor
  · cases h : c.reader <;> simp_all [Conn.relay, relayOf, Reader.loop]
  · cases h : c.writer <;> simp_all [Conn.relay, relayOf, Writer.loop]

end Conn

namespace State

variable {s t : State} {a : Action} {tr : List (State × Action)}

/-- Connection `k` fails, or is not set up. -/
def Fails (k : Nat) (s : State) : Action → Prop
  | .loop j a => j = k ∧ Conn.Fails a
  | .clone l ok => ok = false ∧ ∃ first, (s.listeners l).phase = .start first (.reader k)
  | _ => False

/-- Each connection is a relay. -/
structure Relays (id : String) (s : State) : Prop where
  named : s.id = id
  conns : ∀ k, (s.conns k).Relays id

@[simp] theorem startFailed_id {l : Nat} (first : Bool) : (s.startFailed l first).id = s.id := by
  cases first <;> rfl

theorem Relays.step (relays : s.Relays id) (fresh : s.Fresh) (rule : Rule s a t) :
    t.Relays id := by
  cases rule with
  | @opened l first at_connect =>
    exact ⟨relays.named, Listening.forall_update relays.conns (Conn.relays_opened l)⟩
  | @spawnWriter l k first at_writer =>
    have absent := (fresh.start l first _ k at_writer rfl).2.1
    refine ⟨relays.named, Listening.forall_update relays.conns ?_⟩
    exact (relays.conns k).of_relay (by simp [Conn.relay, Writer.loop, absent]) nofun
  | @spawnReader l k first at_reader =>
    have absent := (fresh.start l first _ k at_reader rfl).2.1
    refine ⟨relays.named, Listening.forall_update relays.conns ?_⟩
    exact (relays.conns k).of_relay (by simp [Conn.relay, Reader.loop, absent])
      (relays.conns k).closes
  | @readerFailed l k first at_reader =>
    refine ⟨(startFailed_id first).trans relays.named, ?_⟩
    rw [startFailed_conns]
    refine Listening.forall_update relays.conns ?_
    exact (relays.conns k).of_relay rfl (relays.conns k).closes
  | @spawnMonitor l k | @spawnWatcher l k | @report k | @reportPoisoned k | @watchWait k
  | @watchPoisoned k | @watchExit k | @watchEnd k =>
    refine ⟨relays.named, Listening.forall_update relays.conns ?_⟩
    exact (relays.conns k).of_relay rfl (relays.conns k).closes
  | @loop k a d moves =>
    refine ⟨relays.named, Listening.forall_update relays.conns ?_⟩
    exact (relays.conns k).step (relays.named ▸ moves)
  | refused | cloneFailed =>
    refine ⟨(startFailed_id _).trans relays.named, ?_⟩
    rw [startFailed_conns]
    exact relays.conns
  | _ => exact ⟨relays.named, relays.conns⟩

theorem relays_of_run (run : Run id tr s) : s.Relays id := by
  refine run.invariant_of_steps (C := fun _ _ => True) (fun _ _ => trivial)
    (fun _ _ => fresh_of_run) ⟨rfl, fun k => Conn.relays_opened 0⟩ ?_
  exact fun s a t fresh relays _ h => relays.step fresh (rule_of_step h)

theorem live_step {k : Nat} (live : (s.conns k).Live) (rule : Rule s a t)
    (keeps : ¬Fails k s a) : (t.conns k).Live := by
  have live_setConn {j : Nat} {c : Conn} (h : j = k → c.Live) : ((s.setConn j c).conns k).Live := by
    by_cases hj : k = j
    · subst hj
      simpa using h rfl
    · simpa [hj] using live
  cases rule with
  | @opened l first at_connect => exact live_setConn fun _ => by constructor <;> simp [Conn.opened]
  | @spawnWriter l j first at_writer =>
    refine live_setConn fun hj => ?_
    subst hj
    exact ⟨live.reader, by simp, live.sender, live.receiver⟩
  | @spawnReader l j first at_reader =>
    refine live_setConn fun hj => ?_
    subst hj
    exact ⟨by simp, live.writer, live.sender, live.receiver⟩
  | @readerFailed l j first at_reader =>
    rw [startFailed_conns]
    refine live_setConn fun hj => ?_
    subst hj
    exact absurd ⟨rfl, first, at_reader⟩ keeps
  | @spawnMonitor l j | @spawnWatcher l j | @report j | @reportPoisoned j | @watchWait j
  | @watchPoisoned j | @watchExit j | @watchEnd j =>
    refine live_setConn fun hj => ?_
    subst hj
    exact ⟨live.reader, live.writer, live.sender, live.receiver⟩
  | @loop j a d moves =>
    refine live_setConn fun hj => ?_
    subst hj
    exact live.step moves fun fails => keeps ⟨rfl, fails⟩
  | refused | cloneFailed => rwa [startFailed_conns]
  | _ => exact live

/-- While nothing fails, both loops of the connection go on. -/
theorem live_of_run {k : Nat} (run : Run id tr s)
    (keeps : Transition.Steps (fun s a => ¬Fails k s a) tr) : (s.conns k).Live := by
  have start : ((init id).conns k).Live := by constructor <;> simp [init, Conn.opened]
  refine run.invariant_of_steps (P := fun s => (s.conns k).Live) (Q := fun _ => True) keeps
    (fun _ _ _ => trivial) start ?_
  exact fun s a t _ live keep h => live_step live (rule_of_step h) keep

end State

end Client

namespace ClientAsync

def Reader.loop (id : String) : Reader → Relay.Loop Request
  | .absent | .spawned | .select _ => .idle
  | .punch _ req | .send req => .busy ⟨id, some req⟩
  | .ended => .stopped

def Writer.loop (id : String) : Writer → Relay.Loop Request
  | .absent | .spawned | .select _ => .idle
  | .write req => .busy ⟨id, some req⟩
  | .ended => .stopped

namespace Conn

/-- The loops of a connection as a relay. -/
def relay (id : String) (c : Conn) : Relay.State Request :=
  relayOf id c.received (c.reader.loop id) c.chan.items (c.writer.loop id) c.written

/-- The channel is closed when `write_loop` is over. -/
def Closes (c : Conn) : Prop := c.writer = .ended → c.chan.receiver = false

variable {c d : Conn} {a : LoopAction} {exit : Notification.Notify}

theorem ReaderRule.closes (rule : ReaderRule exit c a d) (closes : c.Closes) : d.Closes := by
  unfold Closes at *
  cases rule with
  | send at_send receiver push =>
    obtain ⟨-, -, hreceiver⟩ := SyncChannel.push_eq_some push
    exact fun ended => hreceiver.trans (closes ended)
  | _ => simpa [SyncChannel.dropSender] using closes

theorem WriterRule.closes (rule : WriterRule id exit c a d) : d.Closes := by
  unfold Closes
  cases rule <;> simp [SyncChannel.dropReceiver]

/-- Every step of `read_loop` is one of the relay, or none at all. -/
theorem ReaderRule.relay (rule : ReaderRule exit c a d) (closes : c.Closes) :
    Relation.ReflGen (Relay.Step (pingOf id)) (c.relay id) (d.relay id) := by
  cases rule with
  | start spawned =>
    simp only [Conn.relay, spawned]
    exact .refl
  | exit waits woken => exact .single .stopReader
  | @ignore w resp waits ignores =>
    have other : answerTo id resp = none := by
      refine answerTo_other fun fsync cmd => ?_
      simp [ignored, cmd] at ignores
    simp only [Conn.relay, waits, relayOf_other other]
    exact .refl
  | fsync waits cmd parses =>
    simp only [Conn.relay, waits]
    exact .single (relayOf_fsync cmd)
  | invalid waits cmd bad =>
    simp only [Conn.relay, waits]
    exact .single (relayOf_invalid cmd)
  | readErr waits => exact .single .stopReader
  | punched punches =>
    simp only [Conn.relay, punches]
    exact .refl
  | send at_send receiver push =>
    have running : c.writer.loop id ≠ .stopped := by
      cases hw : c.writer <;> simp_all [Writer.loop, Closes]
    simp only [Conn.relay, at_send, (SyncChannel.push_eq_some push).1]
    exact .single (relayOf_push running)
  | sendErr at_send gone => exact .single .stopReader

/-- Every step of `write_loop` is one of the relay, or none at all. -/
theorem WriterRule.relay (rule : WriterRule id exit c a d) :
    Relation.ReflGen (Relay.Step (pingOf id)) (c.relay id) (d.relay id) := by
  cases rule with
  | start spawned =>
    simp only [Conn.relay, spawned]
    exact .refl
  | exit waits woken => exact .single .stopWriter
  | recv waits pop =>
    simp only [Conn.relay, waits, (SyncChannel.pop_eq_some pop).1]
    exact .single relayOf_pop
  | recvNone waits empty gone => exact .single .stopWriter
  | timeout waits => exact .single (.beat (congrArg (Writer.loop id) waits))
  | write at_write => exact .single (.write (congrArg (Writer.loop id) at_write))
  | writeErr at_write => exact .single .stopWriter

/-- The two loops are a relay that has gone by its rules. -/
structure Relays (id : String) (c : Conn) : Prop where
  inv : Relay.Inv (pingOf id) (c.relay id)
  closes : c.Closes

theorem relays_opened (listener : Nat) (late : Bool) : Relays id (.opened listener late) :=
  ⟨Relay.inv_start (pingOf id), nofun⟩

theorem Relays.of_relay (relays : Relays id c) (same : d.relay id = c.relay id)
    (closes : d.Closes) : Relays id d :=
  ⟨same ▸ relays.inv, closes⟩

theorem Relays.step (relays : Relays id c)
    (moved : Relation.ReflGen (Relay.Step (pingOf id)) (c.relay id) (d.relay id))
    (closes : d.Closes) : Relays id d := by
  refine ⟨?_, closes⟩
  obtain same | h := (Relation.reflGen_iff _ _ _).mp moved
  · exact same ▸ relays.inv
  · exact relays.inv.step h

/-- Both loops run, or are yet to be spawned. -/
structure Live (c : Conn) : Prop where
  reader : c.reader ≠ .ended
  writer : c.writer ≠ .ended
  sender : c.chan.sender = true
  receiver : c.chan.receiver = true

/-- The connection fails, or an `Fsync` without an address is read. -/
def Fails : LoopAction → Prop
  | .readErr => True
  | .write ok => ok = false
  | .read resp => Client.unparseable resp = true
  | _ => False

theorem Live.reader_step (live : c.Live) (rule : ReaderRule .new c a d) (keeps : ¬Fails a) :
    d.Live := by
  obtain ⟨reader, writer, sender, receiver⟩ := live
  cases rule with
  | exit waits woken => exact absurd woken Notification.Notify.not_woken_new
  | invalid waits cmd bad => exact absurd (by simp [Fails, Client.unparseable, cmd, bad]) keeps
  | send at_send isOpen push =>
    obtain ⟨-, hsender, hreceiver⟩ := SyncChannel.push_eq_some push
    exact ⟨by simp, writer, hsender.trans sender, hreceiver.trans receiver⟩
  | _ => constructor <;> simp_all [Fails]

theorem Live.writer_step (live : c.Live) (rule : WriterRule id .new c a d) (keeps : ¬Fails a) :
    d.Live := by
  obtain ⟨reader, writer, sender, receiver⟩ := live
  cases rule with
  | exit waits woken => exact absurd woken Notification.Notify.not_woken_new
  | recv waits pop =>
    obtain ⟨-, hsender, hreceiver⟩ := SyncChannel.pop_eq_some pop
    exact ⟨reader, by simp, hsender.trans sender, hreceiver.trans receiver⟩
  | _ => constructor <;> simp_all [Fails]

theorem Live.relay (id : String) (live : c.Live) :
    (c.relay id).reader ≠ .stopped ∧ (c.relay id).writer ≠ .stopped := by
  obtain ⟨reader, writer, -, -⟩ := live
  constructor
  · cases h : c.reader <;> simp_all [Conn.relay, relayOf, Reader.loop]
  · cases h : c.writer <;> simp_all [Conn.relay, relayOf, Writer.loop]

end Conn

namespace State

variable {s t : State} {a : Action} {tr : List (State × Action)} {k : Nat}

/-- Connection `k` fails, or the client is dropped. -/
def Fails (k : Nat) : Action → Prop
  | .reader j a | .writer j a => j = k ∧ Conn.Fails a
  | .drop => True
  | _ => False

/-- Each connection is a relay. -/
structure Relays (id : String) (s : State) : Prop where
  named : s.id = id
  conns : ∀ k, (s.conns k).Relays id

@[simp] theorem startFailed_id {l : Nat} (first : Bool) : (s.startFailed l first).id = s.id := by
  cases first <;> rfl

theorem Relays.step (relays : s.Relays id) (fresh : s.Fresh) (rule : Rule s a t) :
    t.Relays id := by
  cases rule with
  | @opened l first at_connect =>
    exact ⟨relays.named, Listening.forall_update relays.conns (Conn.relays_opened l _)⟩
  | @spawnReader l k first at_reader =>
    have absent := (fresh.start l first _ k at_reader rfl).2.1
    refine ⟨relays.named, Listening.forall_update relays.conns ?_⟩
    exact (relays.conns k).of_relay (by simp [Conn.relay, Reader.loop, absent])
      (relays.conns k).closes
  | @spawnWriter l k first at_writer =>
    have absent := (fresh.start l first _ k at_writer rfl).2.1
    refine ⟨relays.named, Listening.forall_update relays.conns ?_⟩
    exact (relays.conns k).of_relay (by simp [Conn.relay, Writer.loop, absent]) nofun
  | @spawnJoiner l k | @notify k =>
    refine ⟨relays.named, Listening.forall_update relays.conns ?_⟩
    exact (relays.conns k).of_relay rfl (relays.conns k).closes
  | @reader k a d moves =>
    have closes := (relays.conns k).closes
    refine ⟨relays.named, Listening.forall_update relays.conns ?_⟩
    exact (relays.conns k).step (moves.relay closes) (moves.closes closes)
  | @writer k a d moves =>
    have moves := relays.named ▸ moves
    refine ⟨relays.named, Listening.forall_update relays.conns ?_⟩
    exact (relays.conns k).step moves.relay moves.closes
  | refused =>
    refine ⟨(startFailed_id _).trans relays.named, ?_⟩
    rw [startFailed_conns]
    exact relays.conns
  | _ => exact ⟨relays.named, relays.conns⟩

theorem relays_of_run (run : Run id tr s) : s.Relays id := by
  refine run.invariant_of_steps (C := fun _ _ => True) (fun _ _ => trivial)
    (fun _ _ => fresh_of_run) ⟨rfl, fun k => Conn.relays_opened 0 false⟩ ?_
  exact fun s a t fresh relays _ h => relays.step fresh (rule_of_step h)

theorem live_step (live : (s.conns k).Live) (kept : s.exit = .new) (rule : Rule s a t)
    (keeps : ¬Fails k a) : (t.conns k).Live := by
  have live_setConn {j : Nat} {c : Conn} (h : j = k → c.Live) : ((s.setConn j c).conns k).Live := by
    by_cases hj : k = j
    · subst hj
      simpa using h rfl
    · simpa [hj] using live
  cases rule with
  | @opened l first at_connect => exact live_setConn fun _ => by constructor <;> simp [Conn.opened]
  | @spawnReader l j first at_reader =>
    refine live_setConn fun hj => ?_
    subst hj
    exact ⟨by simp, live.writer, live.sender, live.receiver⟩
  | @spawnWriter l j first at_writer =>
    refine live_setConn fun hj => ?_
    subst hj
    exact ⟨live.reader, by simp, live.sender, live.receiver⟩
  | @spawnJoiner l j | @notify j =>
    refine live_setConn fun hj => ?_
    subst hj
    exact ⟨live.reader, live.writer, live.sender, live.receiver⟩
  | @reader j a d moves =>
    refine live_setConn fun hj => ?_
    subst hj
    exact live.reader_step (kept ▸ moves) fun fails => keeps ⟨rfl, fails⟩
  | @writer j a d moves =>
    refine live_setConn fun hj => ?_
    subst hj
    exact live.writer_step (kept ▸ moves) fun fails => keeps ⟨rfl, fails⟩
  | refused => rwa [startFailed_conns]
  | _ => exact live

/-- While nothing fails and the client is there, both loops of the connection go on. -/
theorem live_of_run (run : Run id tr s) (keeps : Transition.Steps (fun _ a => ¬Fails k a) tr) :
    (s.conns k).Live := by
  have start : ((init id).conns k).Live := by constructor <;> simp [init, Conn.opened]
  have kept_live : s.dropped = false ∧ (s.conns k).Live := by
    refine run.invariant_of_steps (P := fun s => s.dropped = false ∧ (s.conns k).Live)
      (Q := fun s => s.dropped = false → s.exit = .new) keeps (fun _ _ run => exit_of_run run)
      ⟨rfl, start⟩ ?_
    rintro s a t exit ⟨kept, live⟩ keep h
    have rule := rule_of_step h
    refine ⟨?_, live_step live (exit kept) rule keep⟩
    cases rule <;> simp_all [Fails]
  exact kept_live.2

end State

end ClientAsync

/-! ## Both clients -/

/-- What has been written on a connection starts with a ping, and its other requests are the
answers to the first `Fsync`s, in order. -/
structure AnswersInOrder (id : String) (received : List Response) (written : List Request) :
    Prop where
  first : ∀ req, written.head? = some req → req = pingOf id
  inOrder : Relay.proper (pingOf id) written <+: answersTo id received

/-- The answers that have not been written yet are held, in order. -/
def AllAnswered (id : String) (received : List Response) (written held : List Request) : Prop :=
  Relay.proper (pingOf id) (written ++ held) = answersTo id received

/-- The requests in the hands of the loops and in the channel. -/
def Client.Conn.held (id : String) (c : Conn) : List Request :=
  (c.writer.loop id).hand ++ c.chan.items.map (fun req => ⟨id, some req⟩) ++
    (c.reader.loop id).hand

/-- The requests in the hands of the loops and in the channel. -/
def ClientAsync.Conn.held (id : String) (c : Conn) : List Request :=
  (c.writer.loop id).hand ++ c.chan.items.map (fun req => ⟨id, some req⟩) ++
    (c.reader.loop id).hand

/-- A listener answers each `Fsync` once and in order, whichever client it is. -/
theorem answers_in_order (id : String) (k : Nat) :
    (∀ tr s, Client.Run id tr s →
      AnswersInOrder id (s.conns k).received (s.conns k).written ∧
        (Transition.Steps (fun s a => ¬Client.State.Fails k s a) tr →
          AllAnswered id (s.conns k).received (s.conns k).written ((s.conns k).held id))) ∧
    ∀ tr s, ClientAsync.Run id tr s →
      AnswersInOrder id (s.conns k).received (s.conns k).written ∧
        (Transition.Steps (fun _ a => ¬ClientAsync.State.Fails k a) tr →
          AllAnswered id (s.conns k).received (s.conns k).written ((s.conns k).held id)) := by
  constructor
  · intro tr s run
    have inv := ((Client.State.relays_of_run run).conns k).inv
    refine ⟨⟨fun req => inv.first_written, inv.written_prefix⟩, fun keeps => ?_⟩
    obtain ⟨reader, writer⟩ := (Client.State.live_of_run run keeps).relay id
    simpa [AllAnswered, Client.Conn.held, Relay.State.passed, Client.Conn.relay, relayOf] using
      inv.complete reader writer
  · intro tr s run
    have inv := ((ClientAsync.State.relays_of_run run).conns k).inv
    refine ⟨⟨fun req => inv.first_written, inv.written_prefix⟩, fun keeps => ?_⟩
    obtain ⟨reader, writer⟩ := (ClientAsync.State.live_of_run run keeps).relay id
    simpa [AllAnswered, ClientAsync.Conn.held, Relay.State.passed, ClientAsync.Conn.relay, relayOf]
      using inv.complete reader writer

/-- An `Fsync` from `v`. -/
def fsyncFromV : Response := ⟨"u", some (.fsync ⟨"v", "1.2.3.4:5", []⟩)⟩

namespace Client

/-- The first connection is set up, and an `Fsync` comes in before the ping is written. -/
def answerOne : List Action :=
  [.listen, .connect 0 true, .clone 0 true, .clone 0 true, .loop 0 (.read fsyncFromV),
    .loop 0 .send, .loop 0 .recv, .loop 0 (.write true), .loop 0 .recv, .loop 0 (.write true)]

end Client

theorem fsync_answered : ∃ tr s, Client.Run "u" tr s ∧
    (s.conns 0).written = [pingOf "u", rsyncOf "u" ⟨"v", "1.2.3.4:5", []⟩] ∧
      AllAnswered "u" (s.conns 0).received (s.conns 0).written ((s.conns 0).held "u") := by
  have script : (Transition.exec Client.State.step (fun _ a => a ∈ Client.answerOne) (.init "u")
      Client.answerOne).any (fun s => (s.conns 0).written =
        [pingOf "u", rsyncOf "u" ⟨"v", "1.2.3.4:5", []⟩]) = true := by decide
  obtain ⟨tr, s, run, hC, h⟩ := Transition.run_of_exec script
  have keeps : Transition.Steps (fun s a => ¬Client.State.Fails 0 s a) tr := by
    refine hC.mono fun s a ha => ?_
    have parses : Client.unparseable fsyncFromV = false := by decide
    simp only [Client.answerOne, List.mem_cons, List.not_mem_nil, or_false] at ha
    rcases ha with rfl | rfl | rfl | rfl | rfl | rfl | rfl | rfl | rfl | rfl <;>
      simp [Client.State.Fails, Client.Conn.Fails, parses]
  exact ⟨tr, s, run, of_decide_eq_true h, ((answers_in_order "u" 0).1 tr s run).2 keeps⟩

end Rndz.Tcp
