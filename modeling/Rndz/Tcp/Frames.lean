import Rndz.Lib.Framing
import Rndz.Proto.Cut

/-!
# Requests on the stream to the server

`write_req` of the two clients puts each request into a frame, `read_req` of the server takes
the frames one after another. The writer casts the length of a request to sixteen bits, the
reader refuses lengths above 1500. So a request that is too long for the reader is refused but
for one case: what is left of its length is the size of a beginning of it that can be read itself,
of nothing at all, of its id alone, or of its id and the first fields of its command.
-/
namespace Rndz.Tcp

open Proto Wire Framing

/-- What a read fails with: the end of the stream, or an error with a text. -/
inductive ReadError where
  | unexpectedEof
  | other (text : String)
  deriving DecidableEq, Repr

/-- `read_req` of the server. -/
def PeerHandler.readReq : Decoder Request ReadError where
  refuses size := if size > 1500 then some (.other "invalid message size") else none
  parse bs := (Request.parseFromBytes bs).elim (.error (.other "failed to parse request")) .ok
  eof := .unexpectedEof

/-- `read_resp` of the clients. -/
def Client.readResp : Decoder Response ReadError where
  refuses _ := none
  parse bs := (Response.parseFromBytes bs).elim (.error (.other "invalid message")) .ok
  eof := .unexpectedEof

namespace Client

def newReq (id : String) : Request := ⟨id, none⟩

section Write

variable [MapOrder]

/-- `write_req` of both clients, with a request that `write_to_bytes` may be unable to write. -/
def writeReq (writes : Request → Bool) (id : String) (cmd : ReqCmd) : Option (List UInt8) :=
  let req := { newReq id with cmd := some cmd }
  if writes req then some (frame req.writeToBytes) else none

/-- Several calls of `write_req`, all of which must succeed. -/
def writeReqs (writes : Request → Bool) : List (String × ReqCmd) → Option (List UInt8)
  | [] => some []
  | (id, cmd) :: reqs =>
    (writeReq writes id cmd).bind fun bytes => (writeReqs writes reqs).map (bytes ++ ·)

/-- The request that `write_req` writes. -/
def request (p : String × ReqCmd) : Request := { newReq p.1 with cmd := some p.2 }

theorem writeReqs_eq_some {writes : Request → Bool} {reqs : List (String × ReqCmd)}
    {bytes : List UInt8} (h : writeReqs writes reqs = some bytes) :
    bytes = stream Request.writeToBytes (reqs.map request) ∧
      ∀ req ∈ reqs.map request, writes req = true := by
  induction reqs generalizing bytes with
  | nil =>
    obtain rfl : [] = bytes := by simpa [writeReqs] using h
    exact ⟨rfl, nofun⟩
  | cons p reqs ih =>
    obtain ⟨first, hfirst, h⟩ := Option.bind_eq_some_iff.mp h
    obtain ⟨rest, hrest, rfl⟩ := Option.map_eq_some_iff.mp h
    obtain ⟨hwrites, hframe⟩ := Option.ite_none_right_eq_some.mp hfirst
    obtain ⟨rfl, hall⟩ := ih hrest
    rw [List.map_cons, stream_cons, ← Option.some.inj hframe]
    exact ⟨rfl, List.forall_mem_cons.mpr ⟨hwrites, hall⟩⟩

/-- Calls of `write_req` that succeed write the requests one after another. -/
theorem writeReqs_of_all {writes : Request → Bool} {reqs : List (String × ReqCmd)}
    (h : ∀ p ∈ reqs, writes (request p) = true) :
    writeReqs writes reqs = some (stream Request.writeToBytes (reqs.map request)) := by
  induction reqs with
  | nil => rfl
  | cons p reqs ih =>
    obtain ⟨hp, hreqs⟩ := List.forall_mem_cons.mp h
    have first : writeReq writes p.1 p.2 = some (frame (request p).writeToBytes) := if_pos hp
    rw [writeReqs, first, ih hreqs, List.map_cons, stream_cons]
    rfl

end Write

/-- The calls of `write_req` that write the requests. -/
def calls (reqs : List Request) : List (String × ReqCmd) :=
  reqs.filterMap fun req => req.cmd.map fun cmd => (req.id, cmd)

theorem map_request_calls {reqs : List Request} (h : ∀ req ∈ reqs, req.cmd.isSome = true) :
    (calls reqs).map request = reqs := by
  induction reqs with
  | nil => rfl
  | cons req reqs ih =>
    obtain ⟨hreq, hreqs⟩ := List.forall_mem_cons.mp h
    obtain ⟨id, cmd⟩ := req
    obtain ⟨cmd, rfl⟩ := Option.isSome_iff_exists.mp hreq
    exact congrArg (_ :: ·) (ih hreqs)

end Client

/-! ## The stream -/

namespace PeerHandler

theorem refuses_readReq : readReq.Refuses 1500 := by
  intro n _
  simp [readReq]

theorem parse_error_iff (bs : List UInt8) :
    (∃ e, readReq.parse bs = .error e) ↔ ¬(Request.parseFromBytes bs).isSome := by
  cases h : Request.parseFromBytes bs <;> simp [readReq, h]

end PeerHandler

section Stream

variable [MapOrder]

theorem PeerHandler.parse_readReq {req : Request} (wf : req.WellFormed)
    (small : req.computeSize < 2 ^ 32) : readReq.parse req.writeToBytes = .ok req := by
  simp [readReq, Request.parse_write wf small]

/-- The length that is written for a request too long for `read_req` makes it fail. -/
def LengthFails (req : Request) : Prop :=
  1500 < req.computeSize % 65536 ∨ req.computeSize % 65536 ∉ req.cuts

/-- The server reads the requests that were written, each where its frame begins, up to the first
that takes more than 1500 bytes, if and only if the length written for that one makes it fail. -/
theorem frames_lossless_iff (writes : Request → Bool)
    (bounded : ∀ req, writes req = true → req.computeSize < 2 ^ 32)
    (reqs : List (String × ReqCmd)) (wf : ∀ p ∈ reqs, p.2.WellFormed) {bytes : List UInt8}
    (written : Client.writeReqs writes reqs = some bytes) :
    outcomes (PeerHandler.readReq.readAll 0 bytes) =
        expected 1500 Request.writeToBytes 0 (reqs.map Client.request) ↔
      ∀ req ∈ firstLong 1500 Request.writeToBytes (reqs.map Client.request), LengthFails req := by
  obtain ⟨rfl, hwrites⟩ := Client.writeReqs_eq_some written
  have hwf : ∀ req ∈ reqs.map Client.request, req.WellFormed := by
    intro req hreq
    obtain ⟨p, hp, rfl⟩ := List.mem_map.mp hreq
    rintro cmd ⟨⟩
    exact wf p hp
  rw [Decoder.outcomes_readAll_iff PeerHandler.refuses_readReq (by omega) fun req hreq _ =>
    PeerHandler.parse_readReq (hwf req hreq) (bounded req (hwrites req hreq))]
  refine forall₂_congr fun req hreq => ?_
  obtain ⟨hmem, hlong⟩ := mem_firstLong hreq
  obtain ⟨p, -, rfl⟩ := List.mem_map.mp hmem
  rw [Request.length_writeToBytes] at hlong
  rw [Request.length_writeToBytes, PeerHandler.parse_error_iff, LengthFails]
  refine or_congr_right' fun hle => ?_
  rw [Request.parse_take_iff (hwf _ hmem) (bounded _ (hwrites _ hmem)) rfl (by omega)]

end Stream

/-! ## Requests with long ids -/

/-- The messages that `write_to_bytes` writes take less than 2 GiB. -/
def belowLimit (req : Request) : Bool := req.computeSize < 2 ^ 31

theorem bounded_belowLimit (req : Request) (h : belowLimit req = true) :
    req.computeSize < 2 ^ 32 := by
  have := of_decide_eq_true h
  omega

/-- A pair that `write_req` sends as a `Ping` under an id of `n` characters. -/
def longPing (n : Nat) : String × ReqCmd := (longId n, .ping)

theorem computeSize_longPing {n : Nat} (h : 0 < n) :
    (Client.request (longPing n)).computeSize = 1 + (varint n).length + n + 2 := by
  simp [Client.request, longPing, Client.newReq, Request.computeSize, ReqCmd.computeSize,
    messageSize_of_lt, stringSize_longId h]

/-- Several such requests, none of them beyond the limit, are written one after another. -/
theorem writeReqs_longPing [MapOrder] (ns : List Nat)
    (h : ∀ n ∈ ns, (Client.request (longPing n)).computeSize < 2 ^ 31) :
    Client.writeReqs belowLimit (ns.map longPing) =
      some (stream Request.writeToBytes ((ns.map longPing).map Client.request)) := by
  refine Client.writeReqs_of_all fun p hp => ?_
  obtain ⟨n, hn, rfl⟩ := List.mem_map.mp hp
  exact decide_eq_true (h n hn)

theorem wellFormed_longPing (ns : List Nat) : ∀ p ∈ ns.map longPing, p.2.WellFormed := by
  intro p hp
  obtain ⟨n, -, rfl⟩ := List.mem_map.mp hp
  trivial

/-- A request of 1600 bytes is refused, and the two before it are read. -/
theorem long_request_refused : ∃ _ : MapOrder,
    outcomes (PeerHandler.readReq.readAll 0 (stream Request.writeToBytes
        (([1, 100, 1595].map longPing).map Client.request))) =
      expected 1500 Request.writeToBytes 0 (([1, 100, 1595].map longPing).map Client.request) := by
  refine ⟨.sorted, ?_⟩
  let _ : MapOrder := .sorted
  have h1 : (Client.request (longPing 1)).computeSize = 5 := by
    rw [computeSize_longPing (by omega), varint_of_lt (by omega)]
    rfl
  have h100 : (Client.request (longPing 100)).computeSize = 104 := by
    rw [computeSize_longPing (by omega), varint_of_lt (by omega)]
    rfl
  have h1595 : (Client.request (longPing 1595)).computeSize = 1600 := by
    rw [computeSize_longPing (by omega), length_varint_eq_two (by omega) (by omega)]
  have small : ∀ n ∈ [1, 100, 1595], (Client.request (longPing n)).computeSize < 2 ^ 31 := by
    simp only [List.forall_mem_cons]
    exact ⟨by omega, by omega, by omega, nofun⟩
  have written := writeReqs_longPing _ small
  refine (frames_lossless_iff belowLimit bounded_belowLimit _ (wellFormed_longPing _)
    written).mpr fun req hreq => ?_
  obtain ⟨hmem, hlong⟩ := mem_firstLong hreq
  rw [Request.length_writeToBytes] at hlong
  simp only [List.map_cons, List.map_nil, List.mem_cons, List.not_mem_nil, or_false] at hmem
  obtain rfl | rfl | rfl := hmem
  · omega
  · omega
  · exact .inl (by omega)

/-- The length written for a request of 65536 bytes is zero: the server reads a request that
nobody has written, and then takes the first bytes of the request for a length. -/
theorem wrapped_length_read : ¬∀ (_ : MapOrder) (writes : Request → Bool)
    (reqs : List (String × ReqCmd)) (bytes : List UInt8),
      (∀ req, writes req = true → req.computeSize < 2 ^ 32) → (∀ p ∈ reqs, p.2.WellFormed) →
        Client.writeReqs writes reqs = some bytes →
          outcomes (PeerHandler.readReq.readAll 0 bytes) =
            expected 1500 Request.writeToBytes 0 (reqs.map Client.request) := by
  intro all
  let _ : MapOrder := .sorted
  have hvarint : (varint 65530).length = 3 := by
    rw [varint_of_ge (by omega), varint_of_ge (by omega), varint_of_lt (by omega)]
    rfl
  have hsize : (Client.request (longPing 65530)).computeSize = 65536 := by
    rw [computeSize_longPing (by omega), hvarint]
  have small : ∀ n ∈ [65530], (Client.request (longPing n)).computeSize < 2 ^ 31 :=
    List.forall_mem_singleton.mpr (by omega)
  have written := writeReqs_longPing _ small
  have lossless := all .sorted belowLimit _ _ bounded_belowLimit (wellFormed_longPing _) written
  -- nothing is read as the request without an id and without a command
  have hread : PeerHandler.readReq.read
      (frame (Client.request (longPing 65530)).writeToBytes ++ []) =
        .ok (⟨"", none⟩, (Client.request (longPing 65530)).writeToBytes ++ []) := by
    have hempty : Request.parseFromBytes [] = some ⟨"", none⟩ := by
      simp [Request.parseFromBytes, parseWith]
    rw [Decoder.read_frame, Request.length_writeToBytes, hsize]
    simp [PeerHandler.readReq, hempty, Except.map]
  have hlong : ¬(Client.request (longPing 65530)).writeToBytes.length ≤ 1500 := by
    rw [Request.length_writeToBytes, hsize]
    decide
  rw [List.map_cons, List.map_cons, stream_cons, expected, if_neg hlong] at lossless
  change outcomes (PeerHandler.readReq.readAll 0
    (frame (Client.request (longPing 65530)).writeToBytes ++ [])) = _ at lossless
  rw [Decoder.readAll_ok hread] at lossless
  simp [outcomes, Except.toOption] at lossless

end Rndz.Tcp
