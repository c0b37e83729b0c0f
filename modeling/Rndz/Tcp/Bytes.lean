import Rndz.Tcp.Rendezvous

/-!
# What the server and its clients read off the wire

The system passes requests and responses on as they are. As long as no id takes more than 745
bytes, so that two of them fit into a request, this is what the streams of bytes amount to, in
either direction and however they are cut.
-/
namespace Rndz.Tcp.Rendezvous

open Net Proto Wire Framing Transition
open PeerHandler (response sendResponse flatMap_sendResponse)

/-- No id and no target takes more than 745 bytes. -/
structure Parties.Short (p : Parties) : Prop where
  id : ∀ q, (p.id q).utf8ByteSize ≤ 745
  target : ∀ j, (p.target j).utf8ByteSize ≤ 745

namespace State

variable {p : Parties} {s : State} {c : Nat} {e : End} {tr : List (State × Action)}

theorem messageSize_short {n : Nat} (h : n ≤ 748) : messageSize n ≤ n + 3 := by
  have := length_varint_le (k := 2) (by omega) (show n < 128 ^ 2 by omega)
  unfold messageSize
  omega

theorem stringSize_short {id : String} (h : id.utf8ByteSize ≤ 745) : stringSize id ≤ 748 := by
  by_cases hne : id = ""
  · subst hne
    simp
  · rw [stringSize_of_ne hne]
    exact (messageSize_short (by omega)).trans (by omega)

/-- A request with two short ids is accepted. -/
theorem accepted_of_short {id : String} {cmd : ReqCmd} (wf : cmd.WellFormed)
    (hid : id.utf8ByteSize ≤ 745) (hcmd : cmd.computeSize ≤ 748) : Accepted ⟨id, some cmd⟩ := by
  refine accepted_iff.mpr ⟨by rintro _ ⟨⟩; exact wf, ?_⟩
  have := stringSize_short hid
  have := messageSize_short hcmd
  simp only [Request.computeSize, Option.map_some, Option.getD_some]
  omega

theorem accepted_of_frame (run : Run p tr s) (short : p.Short) {req : Request}
    (frame : Frame p s e req) : Accepted req := by
  cases frame with
  | ping listens => exact accepted_of_short trivial (short.id _) (Nat.zero_le _)
  | @isync j call =>
    exact accepted_of_short trivial (short.id _) (stringSize_short (short.target j))
  | @rsync fsync listens read =>
    -- the `Fsync` names the id of a call
    obtain ⟨d, cmd, peer, hresp, wrote⟩ := (linked_of_run run).wrote read
    obtain rfl : cmd = .fsync fsync := by simpa [response, eq_comm] using hresp
    obtain ⟨-, i, -, hid, -⟩ := call_of_fsync run wrote peer
    refine accepted_of_short (unknown_nil _) (short.id _) ?_
    have := stringSize_short (hid ▸ short.id (.call i))
    simpa [ReqCmd.computeSize, Rsync.computeSize] using this

theorem readable_of_wrote (run : Run p tr s) (short : p.Short) {cmd : RespCmd}
    (wrote : .wrote c cmd ∈ s.server.log) : Readable cmd := by
  refine (explained_of_wrote run wrote).readable fun d req sent => ?_
  obtain ⟨e, -, frame⟩ := frame_of_sent run sent
  exact accepted_of_frame run short frame

theorem requests_recovered [MapOrder] (run : Run p tr s) (short : p.Short) {reqs : List Request}
    (written : reqs ⊆ s.written e) :
    PeerHandler.readReq.Recovers (stream Request.writeToBytes reqs) reqs := by
  refine Decoder.recovers PeerHandler.refuses_readReq (by omega) fun req hreq => ?_
  have frame := frame_of_written run (written hreq)
  obtain ⟨wf, small⟩ := accepted_iff.mp (accepted_of_frame run short frame)
  rw [Request.length_writeToBytes]
  exact ⟨small, PeerHandler.parse_readReq wf (by omega)⟩

theorem responses_recovered_of_short [MapOrder] (run : Run p tr s) (short : p.Short)
    {resps : List Response} (written : resps ⊆ (Tcp.written s.server.log c).map response) :
    Client.readResp.Recovers (stream Response.writeToBytes resps) resps := by
  refine Decoder.recovers refuses_readResp (by omega) fun resp hresp => ?_
  obtain ⟨cmd, hcmd, rfl⟩ := List.mem_map.mp (written hresp)
  exact parse_readResp (readable_of_wrote run short (mem_written.mp hcmd))

theorem isSome_of_frame {req : Request} (frame : Frame p s e req) : req.cmd.isSome = true := by
  cases frame <;> rfl

/-- The bytes that calls of `write_req` have put on the connection of a client. -/
theorem bytes_written [MapOrder] (run : Run p tr s) {writes : Request → Bool} {bytes : List UInt8}
    (wrote : Client.writeReqs writes (Client.calls (s.written e)) = some bytes) :
    bytes = stream Request.writeToBytes (s.written e) := by
  obtain ⟨hbytes, -⟩ := Client.writeReqs_eq_some wrote
  have commands : ∀ req ∈ s.written e, req.cmd.isSome = true := fun req hreq =>
    isSome_of_frame (frame_of_written run hreq)
  rwa [Client.map_request_calls commands] at hbytes

/-- The server reads the requests off the bytes that the client of a connection has written, and
the client reads the responses off those that the server has written; what they have been given so
far is what they read from the first of these bytes. -/
theorem wire_faithful [MapOrder] (run : Run p tr s) (short : p.Short) (peer : s.peer c = some e)
    {writes : Request → Bool} {bytes : List UInt8}
    (wrote : Client.writeReqs writes (Client.calls (s.written e)) = some bytes) :
    PeerHandler.readReq.Recovers bytes (s.written e) ∧
    (∃ bs, bs <+: bytes ∧ PeerHandler.readReq.messages bs = delivered s.server.log c) ∧
    Client.readResp.Recovers ((Tcp.written s.server.log c).flatMap sendResponse)
      ((Tcp.written s.server.log c).map response) ∧
    ∃ bs, bs <+: (Tcp.written s.server.log c).flatMap sendResponse ∧
      Client.readResp.messages bs = s.received e := by
  have linked := linked_of_run run
  have frames := linked.frames c e peer
  have responses := linked.responses c e peer
  rw [bytes_written run wrote, flatMap_sendResponse]
  exact ⟨requests_recovered run short (List.Subset.refl _),
    (requests_recovered run short frames.subset).of_part frames,
    responses_recovered_of_short run short (List.Subset.refl _),
    (responses_recovered_of_short run short responses.subset).of_part responses⟩

theorem short_twoParties : twoParties.Short := by
  constructor
  · intro q
    unfold twoParties
    dsimp only
    split <;> decide
  · exact fun j => by simp [twoParties]; decide

/-- The bytes on the connection of the listener in `meeting`. -/
theorem wire_faithful_in_meeting : ∃ (_ : MapOrder) (tr : List (State × Action)) (s : State)
    (bytes : List UInt8), Run twoParties tr s ∧
      PeerHandler.readReq.Recovers bytes (s.written ⟨.sync 0, 0⟩) := by
  obtain ⟨tr, s, run, -, peer⟩ := meeting_run
  let order : MapOrder := .sorted
  have wrote : Client.writeReqs (fun _ => true) (Client.calls (s.written ⟨.sync 0, 0⟩)) = some _ :=
    Client.writeReqs_of_all fun _ _ => rfl
  exact ⟨order, tr, s, _, run, (wire_faithful run short_twoParties peer wrote).1⟩

end State

end Rndz.Tcp.Rendezvous
