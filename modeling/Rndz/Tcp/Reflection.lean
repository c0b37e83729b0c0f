import Mathlib.Algebra.GroupWithZero.Nat
import Rndz.Lib.Flow
import Rndz.Tcp.Requests

/-!
# The TCP server is no reflector

Whatever its clients send: for each frame, the server writes one response at most, and only to
clients that have sent something. The addresses it passes on are those of other clients, under the
ids they have used.
-/
namespace Rndz.Tcp

open Net Proto Mpsc Transition
open Function (update update_apply)
open Flow (Bounded crosses)
open History (concat_eq_append_cons)

/-- The handler that an event gives a request. -/
def Event.into : Event → Option Nat
  | .sent c _ | .placed _ _ c => some c
  | _ => none

/-- The handler that an event relieves of a request. -/
def Event.outOf : Event → Option Nat
  | .wrote c _ | .placed c _ _ => some c
  | _ => none

def Event.isSent : Event → Bool
  | .sent _ _ => true
  | _ => false

def Event.isWrote : Event → Bool
  | .wrote _ _ => true
  | _ => false

@[simp] theorem crosses_into : crosses Event.into Event.outOf = Event.isSent := by
  funext e
  cases e <;> rfl

@[simp] theorem crosses_outOf : crosses Event.outOf Event.into = Event.isWrote := by
  funext e
  cases e <;> rfl

/-- What may yet come of a request: nothing of the goodbye that `read_reqs` makes up. -/
def Item.load (it : Item) : Nat := if it.req.cmd = some .bye then 0 else 1

@[simp, grind =] theorem load_bye : Item.bye.load = 0 := rfl

def Reader.load : Reader → Nat
  | .send it _ | .sending it _ => it.load
  | _ => 0

def Handler.load : Handler → Nat
  | .handle it => it.load
  | .send _ _ _ | .sending _ _ _ | .write _ => 1
  | _ => 0

namespace State

variable {s t : State} {a : Action} {c d : Nat} {tr : List (State × Action)}

/-- What may yet come of the requests that are on their way to the handler of `c` or in its
hands. -/
def load (s : State) (c : Nat) : Nat :=
  (s.inbox c).length + (s.reader c).load + ((s.queue c).items.map Item.load).sum +
    (s.handler c).load

/-- What a step takes off one handler and gives another. -/
def Shifts (s t : State) : Prop :=
  (t.log = s.log ∧ ∀ c, t.load c ≤ s.load c) ∨
    ∃ e, t.log = s.log ++ [e] ∧ ∀ c, t.load c + (if e.outOf = some c then 1 else 0) ≤
      s.load c + if e.into = some c then 1 else 0

@[simp, grind =] theorem load_afterSend (src : Option String) : (afterSend src).load = 0 := by
  cases src <;> rfl

/-- A response, a `Ping`'s or none, weighs no more than what the handler has had in hand. -/
theorem load_of_inserting {id : String} {next : Handler}
    (inserts : s.inserting c = some (id, next)) : next.load ≤ (s.handler c).load := by
  unfold inserting at inserts
  split at inserts
  · rename_i it at_handle
    obtain ⟨cmd, -, rfl⟩ : it.req.cmd = some .ping ∧ it.req.id = id ∧ .write .pong = next := by
      simpa using inserts
    simp [at_handle, Handler.load, Item.load, cmd]
  · obtain ⟨-, rfl⟩ : _ = id ∧ .recv = next := by simpa using inserts
    exact Nat.zero_le _
  · cases inserts

theorem shifts_step (rule : Rule s a t) : Shifts s t := by
  cases rule with
  | client accepted | write runs at_write =>
    refine .inr ⟨_, rfl, fun c => ?_⟩
    simp only [load, record, setHandler, Event.outOf, Event.into, update_apply]
    grind [Handler.load]
  | sendPush runs at_send isOpen push =>
    obtain ⟨-, hitems, -, -⟩ := Channel.push_eq_some push
    refine .inr ⟨_, rfl, fun c => ?_⟩
    simp only [load, record, setHandler, setQueue, Event.outOf, Event.into, update_apply]
    grind [Handler.load, Item.load]
  | readerPush runs at_send isOpen push =>
    obtain ⟨-, hitems, -, -⟩ := Channel.push_eq_some push
    refine .inl ⟨rfl, fun c => ?_⟩
    simp only [load, setQueue, setReader, update_apply]
    grind [Reader.load, Item.load]
  | recv runs at_recv recv =>
    obtain ⟨hitems, -, -⟩ := Channel.recv_eq_some recv
    refine .inl ⟨rfl, fun c => ?_⟩
    simp only [load, setQueue, setHandler, update_apply]
    grind [Handler.load]
  | insertRefresh runs inserts | insertNew runs inserts  =>
    have less := load_of_inserting inserts
    refine .inr ⟨_, rfl, fun c => ?_⟩
    simp only [load, record, setHandler, setPeers, setPeerId, Event.outOf, Event.into, update_apply]
    grind
  | insertPanic runs inserts =>
    refine .inr ⟨_, rfl, fun c => ?_⟩
    simp only [load, record, setPeers, setPeerId, panic, dropFutures, dropReadReqs, dropHandleCmds,
      dropHandler, setQueue, setStatus, Event.outOf, Event.into, update_apply]
    grind [Handler.load, Reader.load]
  | _ =>
    refine .inl ⟨rfl, fun c => ?_⟩
    simp only [load, accept, setHandler, setQueue, setReader, leave, panic, dropFutures,
      dropReadReqs, dropHandleCmds, dropHandler, setPeerId, setStatus, setPeers, update_apply]
    grind [Handler.load, Reader.load, Item.load]

/-- Each handler has written, forwarded or in hand no more than it has been given. -/
theorem bounded (run : Run tr s) : Bounded Event.into Event.outOf s.load s.log := by
  induction run with
  | start => exact fun c => Nat.le_refl 0
  | next run h ih =>
    rcases shifts_step (rule_of_step h) with ⟨same, less⟩ | ⟨e, more, moves⟩
    · exact same ▸ ih.mono less
    · exact more ▸ ih.concat moves

/-! ## Who is written to -/

/-- A connection registers under an id that its client has used before. -/
theorem sent_of_inserted (run : Run tr s) {id : String} {p q : List Event}
    (split : s.log = p ++ .inserted c id :: q) : ∃ req, .sent c req ∈ p ∧ req.id = id := by
  induction run generalizing q with
  | start => simp [init] at split
  | next run h ih =>
    rcases log_step (rule_of_step h) with same | ⟨e, more, emits⟩
    · exact ih (same ▸ split)
    · rcases concat_eq_append_cons (more.symm.trans split) with ⟨-, rfl, rfl⟩ | ⟨q, -, hs⟩
      · cases emits with
        | inserted runs inserts => exact (provenance run).of_inserting inserts
      · exact ih hs

/-- The client of the connection has sent a frame. -/
def Heard (log : List Event) (c : Nat) : Prop := ∃ req, .sent c req ∈ log

theorem heard_of_inserted (run : Run tr s) {id : String} {p q : List Event}
    (split : s.log = p ++ q) (inserted : .inserted c id ∈ p) : Heard p c := by
  obtain ⟨p₁, p₂, rfl⟩ := List.append_of_mem inserted
  rw [List.append_assoc] at split
  obtain ⟨req, sent, -⟩ := sent_of_inserted run split
  exact ⟨req, List.mem_append_left _ sent⟩

theorem heard_of_traced (run : Run tr s) {req : Request} {p q : List Event} (split : s.log = p ++ q)
    (traced : Traced s.addr p c req) : req = Item.bye.req ∨ Heard p c := by
  cases traced with
  | bye => exact .inl rfl
  | sent sent => exact .inr ⟨_, sent⟩
  | fsync sent target | rsync sent target => exact .inr (heard_of_inserted run split target)

theorem heard_of_wrote (run : Run tr s) {cmd : RespCmd} {p q : List Event}
    (split : s.log = p ++ .wrote c cmd :: q) : Heard p c := by
  cases (provenance run).wrote p c cmd q split with
  | pong sent | missing sent => exact ⟨_, sent⟩
  | fsync traced | rsync traced =>
    rcases heard_of_traced run split traced with bye | heard
    · cases bye
    · exact heard

/-- The server is no reflector: it has never written more responses than it has been sent frames,
and only to clients that have sent one before. -/
theorem no_amplification (run : Run tr s) :
    s.log.countP Event.isWrote ≤ s.log.countP Event.isSent ∧
      ∀ p c cmd q, s.log = p ++ .wrote c cmd :: q → Heard p c := by
  refine ⟨?_, fun p c cmd q => heard_of_wrote run⟩
  simpa using (bounded run).countP_le

/-- Connection 2 asks for connection 1, which is told, and both have written before. -/
theorem answered_in_turn : ∃ tr s, Run tr s ∧ s.log.countP Event.isWrote = 2 ∧
    s.log.countP Event.isWrote ≤ s.log.countP Event.isSent := by
  have script : (exec State.step (fun _ _ => True) init
      (arrive 2 ++ register 1 "y" ++ deliver 2 ⟨"x", some (.isync ⟨"y"⟩)⟩ ++ runHandler 2 4 ++
        runHandler 1 3)).any (fun s => s.log.countP Event.isWrote = 2) = true := by decide
  obtain ⟨tr, s, run, -, h⟩ := run_of_exec script
  exact ⟨tr, s, run, of_decide_eq_true h, (no_amplification run).1⟩

/-- An address the server hands out is the one from which it has accepted a connection that goes by
the id it comes with; but for an `Fsync` that a client has sent itself. -/
theorem addresses_authentic (run : Run tr s) {p q : List Event} {cmd : RespCmd}
    (wrote : s.log = p ++ .wrote c cmd :: q) :
    (∀ rdr, cmd = .redirect rdr → rdr.addr = "" ∨
      ∃ d, .inserted d rdr.id ∈ p ∧ rdr.addr = (s.addr d).toString) ∧
    ∀ fsync, cmd = .fsync fsync → (∃ src, .sent c ⟨src, some (.fsync fsync)⟩ ∈ p) ∨
      ∃ d isync, .sent d ⟨fsync.id, some (.isync isync)⟩ ∈ p ∧ .inserted c isync.id ∈ p ∧
        fsync.addr = (s.addr d).toString := by
  have explained := (provenance run).wrote p c cmd q wrote
  constructor
  · rintro rdr rfl
    generalize hcmd : RespCmd.redirect rdr = cmd at explained
    cases explained with
    | pong | fsync => cases hcmd
    | missing sent =>
      cases hcmd
      exact .inl rfl
    | rsync traced own source =>
      cases hcmd
      exact .inr ⟨_, source, rfl⟩
  · rintro fsync rfl
    generalize hcmd : RespCmd.fsync fsync = cmd at explained
    cases explained with
    | pong | missing | rsync => cases hcmd
    | @fsync src fsync traced =>
      cases hcmd
      cases traced with
      | sent sent => exact .inl ⟨_, sent⟩
      | fsync sent target => exact .inr ⟨_, _, sent, target, rfl⟩

/-- Connection 3 answers in the name of connection 1, and connection 2 is told where that is. -/
theorem address_authentic_in_name : ∃ tr s d, Run tr s ∧ .inserted d "y" ∈ s.log ∧
    (host 1).toString = (s.addr d).toString := by
  have script : (exec State.step (fun _ _ => True) init
      (arrive 3 ++ register 1 "y" ++ register 2 "x" ++
        deliver 3 ⟨"y", some (.rsync { id := "x" })⟩ ++ runHandler 3 3 ++ runHandler 2 3)).any
      (fun s => s.log.getLast? = some (.wrote 2 (.redirect ⟨"y", (host 1).toString⟩))) = true := by
    decide
  obtain ⟨tr, s, run, -, h⟩ := run_of_exec script
  obtain ⟨p, split⟩ := List.getLast?_eq_some_iff.mp (of_decide_eq_true h)
  rcases (addresses_authentic run split).1 _ rfl with empty | ⟨d, inserted, haddr⟩
  · exact absurd empty (by decide)
  · exact ⟨tr, s, d, run, by simp [split, inserted], haddr⟩

end State

end Rndz.Tcp
