import Rndz.Lib.Protobuf
import Rndz.Proto.Message

/-!
# Messages on the wire

`compute_size`, `write_to_bytes` and `parse_from_bytes` of the messages, as `proto/rndz.rs` has
them. The field of a `oneof` is written if it is set; when it is read, it takes the place of
another one, and its message may end with the input. A field of a known number whose value has
another type is unknown. Of the unknown fields a message here has only those that the server writes
again.
-/
namespace Rndz.Proto

open Wire

variable {bs : List UInt8}

/-! ## The messages inside a command -/

section Fields

variable [MapOrder]

def Isync.mergeFrom (m : Isync) (f : Field) : Option Isync :=
  match f with
  | ⟨1, .bytes bs⟩ => (fromUtf8 bs).map fun id => { m with id }
  | _ => some m

def Isync.computeSize (m : Isync) : Nat := stringSize m.id

def Isync.fields (m : Isync) : List Field := stringField 1 m.id

def Isync.writeToBytes (m : Isync) : List UInt8 := encode m.fields

def Isync.parseFromBytes : List UInt8 → Option Isync := parseWith flat mergeFrom ⟨""⟩

def Redirect.mergeFrom (m : Redirect) (f : Field) : Option Redirect :=
  match f with
  | ⟨1, .bytes bs⟩ => (fromUtf8 bs).map fun id => { m with id }
  | ⟨2, .bytes bs⟩ => (fromUtf8 bs).map fun addr => { m with addr }
  | _ => some m

def Redirect.computeSize (m : Redirect) : Nat := stringSize m.id + stringSize m.addr

def Redirect.writeToBytes (m : Redirect) : List UInt8 :=
  encode (stringField 1 m.id ++ stringField 2 m.addr)

def Redirect.parseFromBytes : List UInt8 → Option Redirect := parseWith flat mergeFrom ⟨"", ""⟩

def Fsync.mergeFrom (m : Fsync) (f : Field) : Option Fsync :=
  match f with
  | ⟨1, .bytes bs⟩ => (fromUtf8 bs).map fun id => { m with id }
  | ⟨2, .bytes bs⟩ => (fromUtf8 bs).map fun addr => { m with addr }
  | _ => some { m with unknownFields := addValue m.unknownFields f }

def Fsync.computeSize (m : Fsync) : Nat :=
  stringSize m.id + stringSize m.addr + (encode m.unknownFields).length

def Fsync.fields (m : Fsync) : List Field :=
  stringField 1 m.id ++ stringField 2 m.addr ++ iter m.unknownFields

def Fsync.writeToBytes (m : Fsync) : List UInt8 := encode m.fields

def Fsync.parseFromBytes : List UInt8 → Option Fsync := parseWith flat mergeFrom ⟨"", "", []⟩

def Rsync.mergeFrom (m : Rsync) (f : Field) : Option Rsync :=
  match f with
  | ⟨1, .bytes bs⟩ => (fromUtf8 bs).map fun id => { m with id }
  | _ => some { m with unknownFields := addValue m.unknownFields f }

def Rsync.computeSize (m : Rsync) : Nat := stringSize m.id + (encode m.unknownFields).length

def Rsync.fields (m : Rsync) : List Field := stringField 1 m.id ++ iter m.unknownFields

def Rsync.writeToBytes (m : Rsync) : List UInt8 := encode m.fields

def Rsync.parseFromBytes : List UInt8 → Option Rsync := parseWith flat mergeFrom ⟨"", []⟩

/-- `parse_from_bytes` of `Ping`, `Pong` and `Bye`, which have no fields. -/
def parseEmpty : List UInt8 → Option Unit := parseWith flat (fun _ _ => some ()) ()

def Fsync.WellFormed (m : Fsync) : Prop := Unknown [1, 2] m.unknownFields

def Rsync.WellFormed (m : Rsync) : Prop := Unknown [1] m.unknownFields

end Fields

theorem Isync.length_writeToBytes (m : Isync) : m.writeToBytes.length = m.computeSize :=
  length_stringField (by omega) m.id

theorem Redirect.length_writeToBytes (m : Redirect) : m.writeToBytes.length = m.computeSize := by
  rw [writeToBytes, encode_append, List.length_append, length_stringField (by omega),
    length_stringField (by omega), computeSize]

theorem Isync.valid_fields {m : Isync} (small : m.computeSize < 2 ^ 32) :
    ∀ f ∈ m.fields, f.Valid := by
  have hid := utf8ByteSize_le_stringSize m.id
  rw [computeSize] at small
  exact valid_stringField (by omega) (by omega)

theorem Isync.parse_write {m : Isync} (small : m.computeSize < 2 ^ 32) :
    parseFromBytes m.writeToBytes = some m := by
  rw [parseFromBytes, writeToBytes, parseWith_encode (valid_fields small)]
  exact foldlM_stringField (fun id => Isync.mk id) rfl

theorem Redirect.parse_write {m : Redirect} (small : m.computeSize < 2 ^ 32) :
    parseFromBytes m.writeToBytes = some m := by
  have hid := utf8ByteSize_le_stringSize m.id
  have haddr := utf8ByteSize_le_stringSize m.addr
  rw [computeSize] at small
  have valid : ∀ f ∈ stringField 1 m.id ++ stringField 2 m.addr, f.Valid :=
    List.forall_mem_append.mpr ⟨valid_stringField (by omega) (by omega),
      valid_stringField (by omega) (by omega)⟩
  rw [parseFromBytes, writeToBytes, parseWith_encode valid, List.foldlM_append,
    foldlM_stringField (fun id => Redirect.mk id "") rfl]
  exact foldlM_stringField (fun addr => Redirect.mk m.id addr) rfl

theorem parseEmpty_nil : parseEmpty [] = some () := by
  simp [parseEmpty, parseWith]

/-- What has been read is not larger than it was. -/
theorem Isync.parse_eq_some (small : bs.length < 2 ^ 32) {m : Isync}
    (h : parseFromBytes bs = some m) : m.computeSize ≤ bs.length := by
  refine (parseWith_eq_some (fun _ => True) computeSize trivial rfl ?_ small h).2
  rintro m f m' - - hm'
  unfold mergeFrom at hm'
  split at hm'
  · obtain ⟨id, hid, rfl⟩ := Option.map_eq_some_iff.mp hm'
    have := stringSize_le_encode (n := 1) (by omega) hid
    exact ⟨trivial, by simp only [computeSize]; omega⟩
  · cases hm'
    exact ⟨trivial, Nat.le_add_right _ _⟩

theorem Fsync.parse_eq_some (small : bs.length < 2 ^ 32) {m : Fsync}
    (h : parseFromBytes bs = some m) : m.WellFormed ∧ m.computeSize ≤ bs.length := by
  have new : WellFormed ⟨"", "", []⟩ := unknown_nil _
  refine parseWith_eq_some WellFormed computeSize new rfl ?_ small h
  intro m f m' wf valid hm'
  unfold mergeFrom at hm'
  split at hm'
  · obtain ⟨id, hid, rfl⟩ := Option.map_eq_some_iff.mp hm'
    have := stringSize_le_encode (n := 1) (by omega) hid
    exact ⟨wf, by simp only [computeSize]; omega⟩
  · obtain ⟨addr, haddr, rfl⟩ := Option.map_eq_some_iff.mp hm'
    have := stringSize_le_encode (n := 2) (by omega) haddr
    exact ⟨wf, by simp only [computeSize]; omega⟩
  · rename_i notId notAddr
    cases hm'
    refine ⟨Unknown.addValue wf valid ?_, by simp only [computeSize, length_addValue]; omega⟩
    simp only [List.mem_cons, List.not_mem_nil, or_false, forall_eq_or_imp, forall_eq]
    exact ⟨notId, notAddr⟩

theorem Rsync.parse_eq_some (small : bs.length < 2 ^ 32) {m : Rsync}
    (h : parseFromBytes bs = some m) : m.WellFormed ∧ m.computeSize ≤ bs.length := by
  have new : WellFormed ⟨"", []⟩ := unknown_nil _
  refine parseWith_eq_some WellFormed computeSize new rfl ?_ small h
  intro m f m' wf valid hm'
  unfold mergeFrom at hm'
  split at hm'
  · obtain ⟨id, hid, rfl⟩ := Option.map_eq_some_iff.mp hm'
    have := stringSize_le_encode (n := 1) (by omega) hid
    exact ⟨wf, by simp only [computeSize]; omega⟩
  · rename_i notId
    cases hm'
    refine ⟨Unknown.addValue wf valid ?_, by simp only [computeSize, length_addValue]; omega⟩
    simpa using notId

section Write

variable [MapOrder]

theorem Fsync.length_writeToBytes (m : Fsync) : m.writeToBytes.length = m.computeSize := by
  rw [writeToBytes, fields, encode_append, encode_append, List.length_append, List.length_append,
    length_stringField (by omega), length_stringField (by omega),
    length_encode_perm (iter_perm _), computeSize]

theorem Rsync.length_writeToBytes (m : Rsync) : m.writeToBytes.length = m.computeSize := by
  rw [writeToBytes, fields, encode_append, List.length_append, length_stringField (by omega),
    length_encode_perm (iter_perm _), computeSize]

theorem valid_iter {known : List Nat} {fs : List Field} (unknown : Unknown known fs) :
    ∀ f ∈ iter fs, f.Valid := fun f hf => (unknown.2 f ((iter_perm fs).mem_iff.mp hf)).1

theorem Fsync.valid_fields {m : Fsync} (wf : m.WellFormed) (small : m.computeSize < 2 ^ 32) :
    ∀ f ∈ m.fields, f.Valid := by
  have hid := utf8ByteSize_le_stringSize m.id
  have haddr := utf8ByteSize_le_stringSize m.addr
  rw [computeSize] at small
  have strings : ∀ f ∈ stringField 1 m.id ++ stringField 2 m.addr, f.Valid :=
    List.forall_mem_append.mpr ⟨valid_stringField (by omega) (by omega),
      valid_stringField (by omega) (by omega)⟩
  exact List.forall_mem_append.mpr ⟨strings, valid_iter wf⟩

theorem Fsync.mergeFrom_unknown {m : Fsync} {fs : List Field} (unknown : Unknown [1, 2] fs)
    {f : Field} (hf : f ∈ iter fs) :
    m.mergeFrom f = some { m with unknownFields := addValue m.unknownFields f } := by
  have hf := (unknown.2 f ((iter_perm fs).mem_iff.mp hf)).2
  unfold mergeFrom
  split
  · exact absurd rfl (hf 1 (by simp) _)
  · exact absurd rfl (hf 2 (by simp) _)
  · rfl

theorem Fsync.parse_write {m : Fsync} (wf : m.WellFormed) (small : m.computeSize < 2 ^ 32) :
    parseFromBytes m.writeToBytes = some m := by
  rw [parseFromBytes, writeToBytes, parseWith_encode (valid_fields wf small), fields,
    List.foldlM_append, List.foldlM_append,
    foldlM_stringField (fun id => Fsync.mk id "" []) rfl, Option.bind_eq_bind, Option.bind_some,
    foldlM_stringField (fun addr => Fsync.mk m.id addr []) rfl, Option.bind_some,
    foldlM_unknown (fun fs => Fsync.mk m.id m.addr fs) fun _ _ hf => mergeFrom_unknown wf hf,
    foldl_iter wf.1]

theorem Rsync.valid_fields {m : Rsync} (wf : m.WellFormed) (small : m.computeSize < 2 ^ 32) :
    ∀ f ∈ m.fields, f.Valid := by
  have hid := utf8ByteSize_le_stringSize m.id
  rw [computeSize] at small
  exact List.forall_mem_append.mpr ⟨valid_stringField (by omega) (by omega), valid_iter wf⟩

theorem Rsync.mergeFrom_unknown {m : Rsync} {fs : List Field} (unknown : Unknown [1] fs)
    {f : Field} (hf : f ∈ iter fs) :
    m.mergeFrom f = some { m with unknownFields := addValue m.unknownFields f } := by
  have hf := (unknown.2 f ((iter_perm fs).mem_iff.mp hf)).2
  unfold mergeFrom
  split
  · exact absurd rfl (hf 1 (by simp) _)
  · rfl

theorem Rsync.parse_write {m : Rsync} (wf : m.WellFormed) (small : m.computeSize < 2 ^ 32) :
    parseFromBytes m.writeToBytes = some m := by
  rw [parseFromBytes, writeToBytes, parseWith_encode (valid_fields wf small), fields,
    List.foldlM_append, foldlM_stringField (fun id => Rsync.mk id []) rfl, Option.bind_eq_bind,
    Option.bind_some,
    foldlM_unknown (fun fs => Rsync.mk m.id fs) fun _ _ hf => mergeFrom_unknown wf hf,
    foldl_iter wf.1]

end Write

/-! ## Requests and responses -/

section Write

variable [MapOrder]

/-- The field of the `oneof`. -/
def ReqCmd.field : ReqCmd → Field
  | .ping => ⟨2, .bytes []⟩
  | .isync m => ⟨3, .bytes m.writeToBytes⟩
  | .fsync m => ⟨4, .bytes m.writeToBytes⟩
  | .rsync m => ⟨5, .bytes m.writeToBytes⟩
  | .bye => ⟨6, .bytes []⟩

def ReqCmd.number : ReqCmd → Nat
  | .ping => 2
  | .isync _ => 3
  | .fsync _ => 4
  | .rsync _ => 5
  | .bye => 6

/-- The fields of the message in the field of the `oneof`. -/
def ReqCmd.fields : ReqCmd → List Field
  | .ping | .bye => []
  | .isync m => m.fields
  | .fsync m => m.fields
  | .rsync m => m.fields

def ReqCmd.computeSize : ReqCmd → Nat
  | .ping | .bye => 0
  | .isync m => m.computeSize
  | .fsync m => m.computeSize
  | .rsync m => m.computeSize

def ReqCmd.WellFormed : ReqCmd → Prop
  | .fsync m => m.WellFormed
  | .rsync m => m.WellFormed
  | _ => True

namespace Request

/-- The fields that hold messages. -/
def messages (n : Nat) : Bool := [2, 3, 4, 5, 6].contains n

def mergeFrom (m : Request) (f : Field) : Option Request :=
  match f with
  | ⟨1, .bytes bs⟩ => (fromUtf8 bs).map fun id => { m with id }
  | ⟨2, .bytes bs⟩ => (parseEmpty bs).map fun _ => { m with cmd := some .ping }
  | ⟨3, .bytes bs⟩ => (Isync.parseFromBytes bs).map fun v => { m with cmd := some (.isync v) }
  | ⟨4, .bytes bs⟩ => (Fsync.parseFromBytes bs).map fun v => { m with cmd := some (.fsync v) }
  | ⟨5, .bytes bs⟩ => (Rsync.parseFromBytes bs).map fun v => { m with cmd := some (.rsync v) }
  | ⟨6, .bytes bs⟩ => (parseEmpty bs).map fun _ => { m with cmd := some .bye }
  | _ => some m

def computeSize (m : Request) : Nat :=
  stringSize m.id + (m.cmd.map fun cmd => messageSize cmd.computeSize).getD 0

def fields (m : Request) : List Field := stringField 1 m.id ++ m.cmd.toList.map ReqCmd.field

def writeToBytes (m : Request) : List UInt8 := encode m.fields

def parseFromBytes : List UInt8 → Option Request := parseWith messages mergeFrom ⟨"", none⟩

def WellFormed (m : Request) : Prop := ∀ cmd ∈ m.cmd, cmd.WellFormed

end Request

/-- The field of the `oneof`. -/
def RespCmd.field : RespCmd → Field
  | .pong => ⟨2, .bytes []⟩
  | .redirect m => ⟨3, .bytes m.writeToBytes⟩
  | .fsync m => ⟨4, .bytes m.writeToBytes⟩

def RespCmd.computeSize : RespCmd → Nat
  | .pong => 0
  | .redirect m => m.computeSize
  | .fsync m => m.computeSize

def RespCmd.WellFormed : RespCmd → Prop
  | .fsync m => m.WellFormed
  | _ => True

namespace Response

/-- The fields that hold messages. -/
def messages (n : Nat) : Bool := [2, 3, 4].contains n

def mergeFrom (m : Response) (f : Field) : Option Response :=
  match f with
  | ⟨1, .bytes bs⟩ => (fromUtf8 bs).map fun id => { m with id }
  | ⟨2, .bytes bs⟩ => (parseEmpty bs).map fun _ => { m with cmd := some .pong }
  | ⟨3, .bytes bs⟩ =>
    (Redirect.parseFromBytes bs).map fun v => { m with cmd := some (.redirect v) }
  | ⟨4, .bytes bs⟩ => (Fsync.parseFromBytes bs).map fun v => { m with cmd := some (.fsync v) }
  | _ => some m

def computeSize (m : Response) : Nat :=
  stringSize m.id + (m.cmd.map fun cmd => messageSize cmd.computeSize).getD 0

def fields (m : Response) : List Field := stringField 1 m.id ++ m.cmd.toList.map RespCmd.field

def writeToBytes (m : Response) : List UInt8 := encode m.fields

def parseFromBytes : List UInt8 → Option Response := parseWith messages mergeFrom ⟨"", none⟩

def WellFormed (m : Response) : Prop := ∀ cmd ∈ m.cmd, cmd.WellFormed

end Response

theorem ReqCmd.length_field (cmd : ReqCmd) :
    cmd.field.encode.length = messageSize cmd.computeSize := by
  cases cmd with
  | ping | bye => exact length_encode_bytes (by omega) []
  | isync isync =>
    rw [field, length_encode_bytes (by omega), Isync.length_writeToBytes, computeSize]
  | fsync fsync =>
    rw [field, length_encode_bytes (by omega), Fsync.length_writeToBytes, computeSize]
  | rsync rsync =>
    rw [field, length_encode_bytes (by omega), Rsync.length_writeToBytes, computeSize]

theorem RespCmd.length_field (cmd : RespCmd) :
    cmd.field.encode.length = messageSize cmd.computeSize := by
  cases cmd with
  | pong => exact length_encode_bytes (by omega) []
  | redirect redirect =>
    rw [field, length_encode_bytes (by omega), Redirect.length_writeToBytes, computeSize]
  | fsync fsync =>
    rw [field, length_encode_bytes (by omega), Fsync.length_writeToBytes, computeSize]

theorem Request.length_writeToBytes (m : Request) : m.writeToBytes.length = m.computeSize :=
  length_encode_oneof ReqCmd.length_field m.id m.cmd

theorem Response.length_writeToBytes (m : Response) :
    m.writeToBytes.length = m.computeSize :=
  length_encode_oneof RespCmd.length_field m.id m.cmd

theorem ReqCmd.valid_field {cmd : ReqCmd} (small : cmd.computeSize < 2 ^ 32) :
    cmd.field.Valid := by
  cases cmd with
  | ping | bye => exact valid_bytes (by omega) (by decide)
  | isync isync => exact valid_bytes (by omega) (by rwa [Isync.length_writeToBytes])
  | fsync fsync => exact valid_bytes (by omega) (by rwa [Fsync.length_writeToBytes])
  | rsync rsync => exact valid_bytes (by omega) (by rwa [Rsync.length_writeToBytes])

theorem RespCmd.valid_field {cmd : RespCmd} (small : cmd.computeSize < 2 ^ 32) :
    cmd.field.Valid := by
  cases cmd with
  | pong => exact valid_bytes (by omega) (by decide)
  | redirect redirect => exact valid_bytes (by omega) (by rwa [Redirect.length_writeToBytes])
  | fsync fsync => exact valid_bytes (by omega) (by rwa [Fsync.length_writeToBytes])

theorem Request.mergeFrom_field (m : Request) {cmd : ReqCmd} (wf : cmd.WellFormed)
    (small : cmd.computeSize < 2 ^ 32) :
    m.mergeFrom cmd.field = some { m with cmd := some cmd } := by
  cases cmd with
  | ping | bye => simp [mergeFrom, ReqCmd.field, parseEmpty_nil]
  | isync isync => simp [mergeFrom, ReqCmd.field, Isync.parse_write small]
  | fsync fsync => simp [mergeFrom, ReqCmd.field, Fsync.parse_write wf small]
  | rsync rsync => simp [mergeFrom, ReqCmd.field, Rsync.parse_write wf small]

theorem Response.mergeFrom_field (m : Response) {cmd : RespCmd} (wf : cmd.WellFormed)
    (small : cmd.computeSize < 2 ^ 32) :
    m.mergeFrom cmd.field = some { m with cmd := some cmd } := by
  cases cmd with
  | pong => simp [mergeFrom, RespCmd.field, parseEmpty_nil]
  | redirect redirect => simp [mergeFrom, RespCmd.field, Redirect.parse_write small]
  | fsync fsync => simp [mergeFrom, RespCmd.field, Fsync.parse_write wf small]

theorem Request.valid_fields {m : Request} (small : m.computeSize < 2 ^ 32) :
    ∀ f ∈ m.fields, f.Valid :=
  valid_oneof (fun _ => ReqCmd.valid_field) small

/-- A request is read as it was written. -/
theorem Request.parse_write {m : Request} (wf : m.WellFormed) (small : m.computeSize < 2 ^ 32) :
    parseFromBytes m.writeToBytes = some m := by
  refine parseWith_oneof Request.mk (valid_fields small) rfl fun cmd hcmd => ?_
  rw [computeSize, Option.mem_def.mp hcmd, Option.map_some, Option.getD_some] at small
  have := le_messageSize cmd.computeSize
  exact mergeFrom_field _ (wf cmd hcmd) (by omega)

/-- A response is read as it was written. -/
theorem Response.parse_write {m : Response} (wf : m.WellFormed)
    (small : m.computeSize < 2 ^ 32) : parseFromBytes m.writeToBytes = some m := by
  have valid : ∀ f ∈ m.fields, f.Valid := valid_oneof (fun _ => RespCmd.valid_field) small
  refine parseWith_oneof Response.mk valid rfl fun cmd hcmd => ?_
  rw [computeSize, Option.mem_def.mp hcmd, Option.map_some, Option.getD_some] at small
  have := le_messageSize cmd.computeSize
  exact mergeFrom_field _ (wf cmd hcmd) (by omega)

end Write

/-- What has been read is well formed, and not larger than it was. -/
theorem Request.parse_eq_some (small : bs.length < 2 ^ 32) {m : Request}
    (h : parseFromBytes bs = some m) : m.WellFormed ∧ m.computeSize ≤ bs.length := by
  have new : WellFormed ⟨"", none⟩ := nofun
  refine parseWith_eq_some WellFormed computeSize new rfl ?_ small h
  intro m f m' wf valid hm'
  -- a command takes the place of the one before
  have set : ∀ {n : Nat} {cmd : ReqCmd} {bs : List UInt8}, n < 16 → cmd.WellFormed →
      cmd.computeSize ≤ bs.length → WellFormed { m with cmd := some cmd } ∧
        computeSize { m with cmd := some cmd } ≤
          m.computeSize + (Field.encode ⟨n, .bytes bs⟩).length := by
    intro n cmd bs hn hcmd hle
    refine ⟨?_, ?_⟩
    · rintro cmd' ⟨⟩
      exact hcmd
    · have := messageSize_mono hle
      rw [length_encode_bytes hn]
      simp only [computeSize, Option.map_some, Option.getD_some]
      omega
  unfold mergeFrom at hm'
  split at hm'
  · obtain ⟨id, hid, rfl⟩ := Option.map_eq_some_iff.mp hm'
    have := stringSize_le_encode (n := 1) (by omega) hid
    exact ⟨wf, by simp only [computeSize]; omega⟩
  · obtain ⟨_, -, rfl⟩ := Option.map_eq_some_iff.mp hm'
    exact set (by omega) trivial (Nat.zero_le _)
  · obtain ⟨isync, hisync, rfl⟩ := Option.map_eq_some_iff.mp hm'
    exact set (by omega) trivial (Isync.parse_eq_some valid.2.2 hisync)
  · obtain ⟨fsync, hfsync, rfl⟩ := Option.map_eq_some_iff.mp hm'
    obtain ⟨hwf, hsize⟩ := Fsync.parse_eq_some valid.2.2 hfsync
    exact set (by omega) hwf hsize
  · obtain ⟨rsync, hrsync, rfl⟩ := Option.map_eq_some_iff.mp hm'
    obtain ⟨hwf, hsize⟩ := Rsync.parse_eq_some valid.2.2 hrsync
    exact set (by omega) hwf hsize
  · obtain ⟨_, -, rfl⟩ := Option.map_eq_some_iff.mp hm'
    exact set (by omega) trivial (Nat.zero_le _)
  · cases hm'
    exact ⟨wf, Nat.le_add_right _ _⟩

/-- An id of `n` characters, for concrete runs. -/
@[irreducible] def longId (n : Nat) : String := String.ofList (List.replicate n 'a')

theorem stringSize_longId {n : Nat} (h : 0 < n) :
    stringSize (longId n) = 1 + (varint n).length + n := by
  have hsize : (longId n).utf8ByteSize = n := by
    rw [longId, utf8ByteSize_ofList (by simp [Char.utf8Size]), List.length_replicate]
  have hne : longId n ≠ "" := by
    rw [ne_eq, ← String.utf8ByteSize_eq_zero_iff, hsize]
    omega
  rw [stringSize, if_neg hne, hsize]

end Rndz.Proto
