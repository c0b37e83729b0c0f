import Rndz.Net.TextSize
import Rndz.Proto.Codec
import Rndz.Udp.Server

/-!
# The size of what the server sends

A client receives a response into a buffer of 1500 bytes, as large as the one the server receives
the request into. A `Pong`, or a `Redirect` without an address, takes as many bytes as the request.
What the server sends to a registered target takes more: the address of the requester comes in
addition to the two ids.
-/
namespace Rndz.Udp

open Net Proto Wire

/-- The ids of a request that names a target leave room for the text of the address. -/
def FitsAddr (target id : String) (addr : SocketAddr) : Prop :=
  let inner := stringSize id + stringSize addr.toString
  stringSize target + inner + (if inner < 128 then 2 else 3) ≤ 1500

namespace Server

variable {s : Server} {now : Instant} {req : Request} {addr : SocketAddr} {t : Turn}

/-- The target of a request that the server passes on to it. -/
def target (s : Server) (req : Request) : Option String :=
  match req.cmd with
  | some (.isync isync) => if (s.clients isync.id).isSome then some isync.id else none
  | some (.rsync rsync) => if (s.clients rsync.id).isSome then some rsync.id else none
  | _ => none

/-- A request that is passed on leaves room for the address it came from. -/
def LeavesRoom (s : Server) (req : Request) (addr : SocketAddr) : Prop :=
  ∀ target ∈ s.target req, FitsAddr target req.id addr

/-- The responses fit into the buffers of the clients. -/
def Fit [MapOrder] (out : List Datagram) : Prop := ∀ d ∈ out, d.resp.writeToBytes.length ≤ 1500

end Server

/-- A response with an address in its command fits if and only if the ids leave room for it. -/
theorem fits_iff [MapOrder] (cmd : RespCmd) (target : String) {id : String} {addr : SocketAddr}
    (hcmd : cmd.computeSize = stringSize id + stringSize addr.toString)
    (hid : stringSize id ≤ 1500) :
    (⟨target, some cmd⟩ : Response).writeToBytes.length ≤ 1500 ↔ FitsAddr target id addr := by
  have haddr := addr.stringSize_toString
  have hinner : messageSize cmd.computeSize = cmd.computeSize +
      (if cmd.computeSize < 128 then 2 else 3) := by
    split
    · rename_i hlt
      exact messageSize_of_lt hlt
    · rename_i hge
      rw [messageSize, length_varint_eq_two hge (by omega)]
      omega
  rw [Response.length_writeToBytes, Response.computeSize, Option.map_some, Option.getD_some, hinner,
    hcmd, FitsAddr, ← Nat.add_assoc, ← Nat.add_assoc]

namespace Server

variable {s : Server} {now : Instant} {req : Request} {addr : SocketAddr} {t : Turn}

theorem stringSize_b : stringSize "b" = 3 := by
  rw [stringSize_of_ne (by decide), messageSize_of_lt (by decide)]
  rfl

section Fit

variable [MapOrder]

/-- The responses to one request fit if and only if it leaves room for the address. -/
theorem fit_handleRequest_iff (small : req.writeToBytes.length ≤ 1500) :
    Fit (s.handleRequest now req addr).2 ↔ s.LeavesRoom req addr := by
  rw [Request.length_writeToBytes, Request.computeSize] at small
  obtain ⟨id, cmd⟩ := req
  cases cmd with
  | none => simp [Fit, handleRequest, LeavesRoom, target]
  | some cmd =>
    cases cmd with
    | bye | fsync fsync => simp [Fit, handleRequest, handleBye, LeavesRoom, target]
    | ping =>
      have hpong : (⟨id, some .pong⟩ : Response).writeToBytes.length ≤ 1500 := by
        rw [Response.length_writeToBytes]
        exact small
      simp [Fit, handleRequest, handlePing, sendResponse, hpong, LeavesRoom, target]
    | isync isync =>
      cases hc : s.clients isync.id with
      | some client =>
        have hid : stringSize id ≤ 1500 := by
          dsimp only at small
          omega
        have := fits_iff (.fsync { id, addr := addr.toString }) isync.id rfl hid
        simp [Fit, handleRequest, handleIsync, hc, sendResponse, LeavesRoom, target, this]
      | none =>
        have hredirect : (⟨id, some (.redirect ⟨isync.id, ""⟩)⟩ : Response).writeToBytes.length ≤
            1500 := by
          rw [Response.length_writeToBytes]
          exact small
        simp [Fit, handleRequest, handleIsync, hc, sendResponse, hredirect, LeavesRoom, target]
    | rsync rsync =>
      cases hc : s.clients rsync.id with
      | some client =>
        have hid : stringSize id ≤ 1500 := by
          dsimp only at small
          omega
        have := fits_iff (.redirect ⟨id, addr.toString⟩) rsync.id rfl hid
        simp [Fit, handleRequest, handleRsync, hc, sendResponse, LeavesRoom, target, this]
      | none => simp [Fit, handleRequest, handleRsync, hc, LeavesRoom, target]

/-- The responses of a turn fit if and only if the request received in it leaves room. -/
theorem fit_turn_iff (small : ∀ req addr, t.received = some (req, addr) →
    req.writeToBytes.length ≤ 1500) :
    Fit (s.turn t).2 ↔ ∀ req addr, t.received = some (req, addr) → s.LeavesRoom req addr := by
  rw [out_turn]
  cases hr : t.received with
  | none => simp [Fit]
  | some p =>
    obtain ⟨req, addr⟩ := p
    rw [Option.elim_some, fit_handleRequest_iff (small req addr hr)]
    simp

theorem fit_run_iff (ts : List Turn) (small : ∀ t ∈ ts, ∀ req addr,
    t.received = some (req, addr) → req.writeToBytes.length ≤ 1500) (s : Server) :
    Fit (s.run ts).2 ↔ ∀ past t rest, ts = past ++ t :: rest → ∀ req addr,
      t.received = some (req, addr) → (s.run past).1.LeavesRoom req addr := by
  induction ts generalizing s with
  | nil => simp [Fit, run]
  | cons t ts ih =>
    have ih := ih (fun t' ht' => small t' (List.mem_cons_of_mem _ ht')) (s.turn t).1
    have hsplit : Fit (s.run (t :: ts)).2 ↔
        Fit (s.turn t).2 ∧ Fit ((s.turn t).1.run ts).2 := by
      simp only [Fit, run, List.mem_append, or_imp, forall_and]
    rw [hsplit, ih, fit_turn_iff (small t List.mem_cons_self)]
    constructor
    · rintro ⟨first, later⟩ past t' rest hts
      obtain ⟨rfl, hts⟩ | ⟨past', rfl, hts⟩ := List.cons_eq_append_iff.mp hts
      · obtain ⟨rfl, rfl⟩ := List.cons.inj hts
        exact first
      · exact later past' t' rest (List.cons.inj hts).2
    · intro all
      exact ⟨all [] t ts rfl, fun past t' rest hts => all (t :: past) t' rest (by rw [hts]; rfl)⟩

/-- Whatever requests of 1500 bytes at most the server has received, what it sends fits into the
buffers of the clients if and only if each request that it passes on leaves room for the address
it came from. -/
theorem replies_fit_iff (now : Instant) (ts : List Turn) (small : ∀ t ∈ ts, ∀ req addr,
    t.received = some (req, addr) → req.writeToBytes.length ≤ 1500) :
    Fit ((new now).run ts).2 ↔ ∀ past t rest, ts = past ++ t :: rest → ∀ req addr,
      t.received = some (req, addr) → ((new now).run past).1.LeavesRoom req addr :=
  fit_run_iff ts small (new now)

/-- `b` registers, and a client with the given id asks for it. -/
def askingTurns (id : String) : List Turn :=
  [⟨some (⟨"b", some .ping⟩, host 2), 0, 0, 0, 0⟩,
    ⟨some (⟨id, some (.isync ⟨"b"⟩)⟩, host 1), 0, 0, 0, 0⟩]

theorem small_askingTurns {id : String} (h : stringSize id ≤ 1495) : ∀ t ∈ askingTurns id,
    ∀ req addr, t.received = some (req, addr) → req.writeToBytes.length ≤ 1500 := by
  rintro t ht req addr hreq
  have hping := messageSize_of_lt (n := 0) (by omega)
  have hisync := messageSize_of_lt (n := 3) (by omega)
  rw [Request.length_writeToBytes, Request.computeSize]
  simp only [askingTurns, List.mem_cons, List.not_mem_nil, or_false] at ht
  obtain rfl | rfl := ht
  · obtain ⟨rfl, -⟩ := Prod.mk.inj (Option.some.inj hreq)
    simp only [stringSize_b, Option.map_some, Option.getD_some, ReqCmd.computeSize, hping]
    decide
  · obtain ⟨rfl, -⟩ := Prod.mk.inj (Option.some.inj hreq)
    simp only [Option.map_some, Option.getD_some, ReqCmd.computeSize, Isync.computeSize,
      stringSize_b, hisync]
    omega

end Fit

/-- The ids are short. -/
theorem short_replies_fit : ∃ _ : MapOrder, Fit ((new 0).run (askingTurns "a")).2 := by
  refine ⟨.sorted, ?_⟩
  let _ : MapOrder := .sorted
  have ha : stringSize "a" ≤ 3 := stringSize_le_of_lt (by decide)
  refine (replies_fit_iff 0 _ (small_askingTurns (by omega))).mpr ?_
  intro past t rest hts req addr hreq target htarget
  have ht : t ∈ past ++ t :: rest := by simp
  rw [← hts] at ht
  simp only [askingTurns, List.mem_cons, List.not_mem_nil, or_false] at ht
  obtain rfl | rfl := ht
  · obtain ⟨rfl, -⟩ := Prod.mk.inj (Option.some.inj hreq)
    cases htarget
  · obtain ⟨rfl, rfl⟩ := Prod.mk.inj (Option.some.inj hreq)
    obtain ⟨-, heq⟩ := Option.ite_none_right_eq_some.mp htarget
    obtain rfl := Option.some.inj heq
    have haddr := (host 1).stringSize_toString
    have hb := stringSize_b
    simp only [FitsAddr]
    split <;> omega

/-- The requester has an id of 1480 characters: its request takes 1488 bytes, what `b` is sent
1504. -/
theorem fsync_too_large : ¬∀ (_ : MapOrder) (now : Instant) (ts : List Turn),
    (∀ t ∈ ts, ∀ req addr, t.received = some (req, addr) → req.writeToBytes.length ≤ 1500) →
      Fit ((new now).run ts).2 := by
  intro all
  let _ : MapOrder := .sorted
  have hid : stringSize (longId 1480) = 1483 := by
    rw [stringSize_longId (by omega), length_varint_eq_two (by omega) (by omega)]
  have haddr : stringSize (host 1).toString = 15 := by
    have hsize : (host 1).toString.utf8ByteSize = 13 := by
      rw [SocketAddr.toString, utf8ByteSize_ofList (host 1).short_display.ascii]
      decide
    rw [stringSize_of_ne (by decide), hsize, messageSize_of_lt (by omega)]
  have small := small_askingTurns (show stringSize (longId 1480) ≤ 1495 by omega)
  have room := (fit_run_iff _ small (new 0)).mp (all .sorted 0 _ small) [(askingTurns "")[0]]
    (askingTurns (longId 1480))[1] [] rfl _ _ rfl "b" rfl
  simp [FitsAddr, stringSize_b, hid, haddr] at room

end Server

end Rndz.Udp
