import Rndz.Net.TextSize
import Rndz.Tcp.Causality
import Rndz.Tcp.Connect
import Rndz.Tcp.Frames

/-!
# Responses on the stream to a client

`send_response` casts the length of a response to sixteen bits without a look at it. Nothing is
lost by that: a response is made of a request that `read_req` has accepted, of 1500 bytes at most,
and of the text of an address, wherever the request has been passed on meanwhile.
-/
namespace Rndz.Tcp

open Net Proto Wire Framing Transition

/-! ## Requests that are accepted -/

/-- `read_req` returns the request for some bytes on the stream. -/
def Accepted (req : Request) : Prop :=
  ∃ bytes rest, PeerHandler.readReq.read bytes = .ok (req, rest)

/-- A frame that a client sends is accepted. -/
def AcceptsFrame (_ : State) (a : Action) : Prop := ∀ c req, a = .client c req → Accepted req

theorem parse_of_readReq {bs : List UInt8} {req : Request}
    (h : PeerHandler.readReq.parse bs = .ok req) : Request.parseFromBytes bs = some req := by
  cases hp : Request.parseFromBytes bs with
  | none => simp [PeerHandler.readReq, hp] at h
  | some req' => simpa [PeerHandler.readReq, hp] using h

/-- Just the well-formed requests of 1500 bytes at most are accepted. -/
theorem accepted_iff {req : Request} :
    Accepted req ↔ req.WellFormed ∧ req.computeSize ≤ 1500 := by
  constructor
  · rintro ⟨bytes, rest, h⟩
    obtain ⟨bs, hlt, hsize, hparse⟩ := Decoder.parse_of_read h
    have hle := (PeerHandler.refuses_readReq _ hlt).mp hsize
    obtain ⟨wf, hreq⟩ := Request.parse_eq_some (by omega) (parse_of_readReq hparse)
    exact ⟨wf, hreq.trans hle⟩
  · rintro ⟨wf, small⟩
    let _ : MapOrder := .sorted
    refine ⟨frame req.writeToBytes ++ [], [], Decoder.read_message PeerHandler.refuses_readReq
      (by omega) (PeerHandler.parse_readReq wf (by omega)) ?_ []⟩
    rwa [Request.length_writeToBytes]

theorem Accepted.stringSize_id {req : Request} (h : Accepted req) : stringSize req.id ≤ 1500 := by
  have := (accepted_iff.mp h).2
  rw [Request.computeSize] at this
  omega

theorem Accepted.computeSize_cmd {req : Request} {cmd : ReqCmd} (h : Accepted req)
    (hcmd : req.cmd = some cmd) : cmd.WellFormed ∧ cmd.computeSize ≤ 1500 := by
  obtain ⟨wf, small⟩ := accepted_iff.mp h
  rw [Request.computeSize, hcmd, Option.map_some, Option.getD_some] at small
  have := le_messageSize cmd.computeSize
  exact ⟨wf cmd hcmd, by omega⟩

/-! ## Responses -/

namespace PeerHandler

/-- The response that `send_response` writes. -/
def response (cmd : RespCmd) : Response := { (⟨"", none⟩ : Response) with cmd := some cmd }

/-- `send_response` -/
def sendResponse [MapOrder] (cmd : RespCmd) : List UInt8 := frame (response cmd).writeToBytes

/-- Several calls of `send_response` -/
theorem flatMap_sendResponse [MapOrder] (cmds : List RespCmd) :
    cmds.flatMap sendResponse = stream Response.writeToBytes (cmds.map response) := by
  rw [stream, List.flatMap_map]
  rfl

end PeerHandler

open PeerHandler (response sendResponse flatMap_sendResponse)

/-- A response that a client can read as it was written. -/
def Readable (cmd : RespCmd) : Prop := cmd.WellFormed ∧ (response cmd).computeSize < 65536

theorem readable_of_le {cmd : RespCmd} (wf : cmd.WellFormed) (h : cmd.computeSize ≤ 1600) :
    Readable cmd := by
  refine ⟨wf, ?_⟩
  have := length_varint_le (k := 2) (by omega) (show cmd.computeSize < 128 ^ 2 by omega)
  simp only [response, Response.computeSize, Option.map_some, Option.getD_some, stringSize_empty,
    messageSize]
  omega

/-- Requests passed on by a handler are as large as accepted ones and the text of an address. -/
theorem Traced.readable {addr : Nat → SocketAddr} {log : List Event} {c : Nat} {src : String}
    {fsync : Fsync} (accepted : ∀ c req, .sent c req ∈ log → Accepted req)
    (h : Traced addr log c ⟨src, some (.fsync fsync)⟩) : Readable (.fsync fsync) := by
  cases h with
  | sent sent =>
    obtain ⟨wf, small⟩ := (accepted _ _ sent).computeSize_cmd rfl
    exact readable_of_le wf (small.trans (by omega))
  | @fsync d src isync sent target =>
    have hid : stringSize src ≤ 1500 := (accepted _ _ sent).stringSize_id
    have haddr := (addr d).stringSize_toString
    refine readable_of_le (unknown_nil _) ?_
    simp only [RespCmd.computeSize, Fsync.computeSize, encode_nil, List.length_nil]
    omega

/-- What the history explains, of frames that were accepted, a client can read. -/
theorem Explained.readable {addr : Nat → SocketAddr} {log : List Event} {c : Nat} {cmd : RespCmd}
    (accepted : ∀ c req, .sent c req ∈ log → Accepted req) (h : Explained addr log c cmd) :
    Readable cmd := by
  cases h with
  | pong sent => exact readable_of_le trivial (by decide)
  | @missing src isync sent =>
    have small : isync.computeSize ≤ 1500 := ((accepted _ _ sent).computeSize_cmd rfl).2
    refine readable_of_le trivial ?_
    simp only [RespCmd.computeSize, Redirect.computeSize]
    rw [Isync.computeSize] at small
    rw [stringSize_empty]
    omega
  | fsync req => exact req.readable accepted
  | @rsync d src rsync req own source =>
    have hid : stringSize src ≤ 1500 := by
      cases req with
      | sent sent | rsync sent target => exact (accepted _ _ sent).stringSize_id
    have haddr := (addr d).stringSize_toString
    refine readable_of_le trivial ?_
    simp only [RespCmd.computeSize, Redirect.computeSize]
    omega

theorem refuses_readResp : Client.readResp.Refuses 65535 := by
  intro n hn
  simp only [Client.readResp, true_iff]
  omega

theorem parse_readResp [MapOrder] {cmd : RespCmd} (h : Readable cmd) :
    (response cmd).writeToBytes.length ≤ 65535 ∧
      Client.readResp.parse (response cmd).writeToBytes = .ok (response cmd) := by
  obtain ⟨wf, small⟩ := h
  have hwf : (response cmd).WellFormed := by
    rintro cmd' ⟨⟩
    exact wf
  rw [Response.length_writeToBytes]
  refine ⟨by omega, ?_⟩
  simp [Client.readResp, Response.parse_write hwf (by omega)]

namespace State

variable {s t : State} {c : Nat} {cmd : RespCmd} {tr : List (State × Action)}

/-- In a run whose frames are all accepted only such frames have been sent. -/
theorem accepted_of_sent (run : Run tr s) (hC : Steps AcceptsFrame tr) :
    ∀ c req, .sent c req ∈ s.log → Accepted req := by
  refine run.invariant_of_steps (P := fun s => ∀ c req, .sent c req ∈ s.log → Accepted req)
    (Q := fun _ => True) hC (fun _ _ _ => trivial) (by simp [init]) ?_
  intro s a t _ ih hc step c req sent
  obtain old | new := mem_log_or_emits (rule_of_step step) sent
  · exact ih c req old
  · cases new with
    | sent => exact hc c req rfl

/-- What a handler has written, or is writing, a client can read. -/
theorem readable_of_run (run : Run tr s) (hC : Steps AcceptsFrame tr)
    (h : .wrote c cmd ∈ s.log ∨ (s.handler c).response = some cmd) : Readable cmd := by
  have accepted := accepted_of_sent run hC
  have inv := provenance run
  obtain wrote | writing := h
  · obtain ⟨p, q, hlog⟩ := List.append_of_mem wrote
    refine (inv.wrote p c cmd q hlog).readable fun d req sent => accepted d req ?_
    rw [hlog]
    exact List.mem_append_left _ sent
  · exact (inv.response c cmd writing).readable accepted

/-- The beginning of a frame that the handler of `c` has been writing at some time in the run,
or nothing. -/
def Unfinished [MapOrder] (c : Nat) (tr : List (State × Action)) (s : State)
    (part : List UInt8) : Prop :=
  part = [] ∨ ∃ t, (t = s ∨ ∃ a, (t, a) ∈ tr) ∧ ∃ cmd rest, (t.handler c).response = some cmd ∧
    rest ≠ [] ∧ part ++ rest = sendResponse cmd

/-- The length of every response that a handler writes fits into sixteen bits, and its client
reads just the responses that the handler has written, also when one more is on the way. -/
theorem responses_recovered [MapOrder] (run : Run tr s) (hC : Steps AcceptsFrame tr) (c : Nat) :
    (∀ cmd, .wrote c cmd ∈ s.log ∨ (s.handler c).response = some cmd →
      (response cmd).writeToBytes.length < 65536) ∧
    ∀ part, Unfinished c tr s part →
      Client.readResp.messages ((written s.log c).flatMap sendResponse ++ part) =
        (written s.log c).map response := by
  rw [flatMap_sendResponse]
  have readable : ∀ cmd ∈ written s.log c, Readable cmd := fun cmd hcmd =>
    readable_of_run run hC (.inl (mem_written.mp hcmd))
  have parse : ∀ resp ∈ (written s.log c).map response, resp.writeToBytes.length ≤ 65535 ∧
      Client.readResp.parse resp.writeToBytes = .ok resp := by
    intro resp hresp
    obtain ⟨cmd, hcmd, rfl⟩ := List.mem_map.mp hresp
    exact parse_readResp (readable cmd hcmd)
  constructor
  · intro cmd h
    exact Nat.lt_of_le_of_lt (parse_readResp (readable_of_run run hC h)).1 (by omega)
  · rintro part (rfl | ⟨t, ht, cmd, rest, writing, hrest, hpart⟩)
    · exact Decoder.messages_stream refuses_readResp (by omega) parse (by decide)
        (List.nil_append (frame [])) (by decide)
    · have hlen : (response cmd).writeToBytes.length < 65536 := by
        obtain ⟨before, now⟩ : Always (fun s => ∀ cmd, (s.handler c).response = some cmd →
            Readable cmd) tr s :=
          run.always_of_steps hC fun _ _ run hC cmd h => readable_of_run run hC (.inr h)
        have hcmd : Readable cmd := by
          obtain rfl | ⟨a, mem⟩ := ht
          · exact now cmd writing
          · exact before _ mem cmd writing
        exact Nat.lt_of_le_of_lt (parse_readResp hcmd).1 (by omega)
      exact Decoder.messages_stream refuses_readResp (by omega) parse hlen hpart hrest

/-- The client of the target in `rendezvous` reads a `Pong` and the `Fsync`. -/
theorem target_reads_fsync : ∃ (_ : MapOrder) (tr : List (State × Action)) (s : State), Run tr s ∧
    written s.log 1 = [.pong, .fsync { id := "x", addr := (host 2).toString }] ∧
    Client.readResp.messages ((written s.log 1).flatMap sendResponse ++ []) =
      (written s.log 1).map response := by
  have script : (exec State.step (fun _ a => a ∈ rendezvous) init rendezvous).any (fun s =>
      written s.log 1 = [.pong, .fsync { id := "x", addr := (host 2).toString }]) = true := by
    decide
  obtain ⟨tr, s, run, hC, h⟩ := run_of_exec script
  have accepts : ∀ s a, a ∈ rendezvous → AcceptsFrame s a := by
    rintro s a ha c req rfl
    have frame : req = ⟨"y", some .ping⟩ ∨ req = ⟨"x", some (.isync ⟨"y"⟩)⟩ ∨
        req = ⟨"y", some (.rsync { id := "x" })⟩ := by
      simp [rendezvous, arrive, register, deliver, runHandler, List.range_succ] at ha
      tauto
    have hx : stringSize "x" ≤ 3 := stringSize_le_of_lt (by decide)
    have hy : stringSize "y" ≤ 3 := stringSize_le_of_lt (by decide)
    refine accepted_iff.mpr ?_
    obtain rfl | rfl | rfl := frame
    · have := messageSize_of_lt (n := 0) (by omega)
      refine ⟨by rintro _ ⟨⟩; trivial, ?_⟩
      simp only [Request.computeSize, Option.map_some, Option.getD_some, ReqCmd.computeSize]
      omega
    · have := messageSize_of_lt (n := stringSize "y") (by omega)
      refine ⟨by rintro _ ⟨⟩; trivial, ?_⟩
      simp only [Request.computeSize, Option.map_some, Option.getD_some, ReqCmd.computeSize,
        Isync.computeSize]
      omega
    · have := messageSize_of_lt (n := stringSize "x") (by omega)
      refine ⟨by rintro _ ⟨⟩; exact unknown_nil _, ?_⟩
      simp only [Request.computeSize, Option.map_some, Option.getD_some, ReqCmd.computeSize,
        Rsync.computeSize, encode_nil, List.length_nil, Nat.add_zero]
      omega
  let order : MapOrder := .sorted
  exact ⟨order, tr, s, run, of_decide_eq_true h,
    (responses_recovered run (hC.mono accepts) 1).2 [] (.inl rfl)⟩

end State

end Rndz.Tcp
