import Mathlib.Data.List.Infix
import Rndz.Proto.Codec

/-!
# A request that is cut off

What is left of a request that has lost its end can be read as a request if the cut is before or
after its id, or inside its command between two fields of the message there: the message of a
command may end with the input.
-/
namespace Rndz.Proto

open Wire

variable {req : Request} {cmd : ReqCmd} {size : Nat} {bs : List UInt8}

theorem prefix_stringField {n : Nat} {s : String} {gs : List Field}
    (h : gs <+: stringField n s) : gs = [] ∨ gs = stringField n s := by
  rw [stringField] at h ⊢
  split at h
  · exact .inl (List.prefix_nil.mp h)
  · rename_i hs
    rw [if_neg hs]
    obtain h | h := List.prefix_concat_iff.mp (show gs <+: [] ++ [_] from h)
    · exact .inr h
    · exact .inl (List.prefix_nil.mp h)

theorem isSome_stringField {α : Type} {mergeFrom : α → Field → Option α} {n : Nat} {s : String}
    (merge : ∀ m, (mergeFrom m ⟨n, .bytes (utf8 s)⟩).isSome = (fromUtf8 (utf8 s)).isSome)
    (m : α) : ∀ f ∈ stringField n s, (mergeFrom m f).isSome = true := by
  intro f hf
  rw [stringField] at hf
  split at hf
  · cases hf
  · obtain rfl := List.mem_singleton.mp hf
    rw [merge, fromUtf8_utf8]
    rfl

theorem ReqCmd.number_bounds (cmd : ReqCmd) : 1 < cmd.number ∧ cmd.number < 16 := by
  cases cmd <;> simp [number]

theorem ReqCmd.messages_number (cmd : ReqCmd) : Request.messages cmd.number = true := by
  cases cmd <;> rfl

theorem Request.small_cmd (small : req.computeSize < 2 ^ 32) (hcmd : req.cmd = some cmd) :
    cmd.computeSize < 2 ^ 32 := by
  rw [computeSize, hcmd, Option.map_some, Option.getD_some] at small
  have := le_messageSize cmd.computeSize
  omega

/-- The bytes of a request up to some place inside the message of its command. -/
theorem ReqCmd.length_cut (cmd : ReqCmd) (id : String) (bs : List UInt8) :
    (encode (stringField 1 id) ++
      (varint (8 * cmd.number + 2) ++ (varint cmd.computeSize ++ bs))).length =
        stringSize id + (1 + (varint cmd.computeSize).length + bs.length) := by
  have := number_bounds cmd
  simp only [List.length_append, length_stringField (n := 1) (by omega) id,
    varint_of_lt (show 8 * cmd.number + 2 < 128 by omega), List.length_singleton]
  omega

section Write

variable [MapOrder]

/-- The sizes of the beginnings of a request that can be read themselves: of nothing, of the id, and
of the id and the first fields of the command behind the tag and the length of its message. -/
def Request.cuts (req : Request) : List Nat :=
  0 :: stringSize req.id :: req.cmd.toList.flatMap fun cmd => cmd.fields.inits.map fun fs =>
    stringSize req.id + (1 + (varint cmd.computeSize).length + (encode fs).length)

variable {req : Request} {cmd : ReqCmd} {size : Nat} {bs : List UInt8}

theorem Request.mem_cuts (hcmd : req.cmd = some cmd) : size ∈ req.cuts ↔
    size = 0 ∨ size = stringSize req.id ∨ ∃ fs, fs <+: cmd.fields ∧
      size = stringSize req.id + (1 + (varint cmd.computeSize).length + (encode fs).length) := by
  simp [cuts, hcmd, eq_comm (b := size)]

/-- The message of a command can be read only up to the end of one of its fields. -/
theorem ReqCmd.prefix_of_mergeFrom {m : Request} {more : List UInt8} (wf : cmd.WellFormed)
    (small : cmd.computeSize < 2 ^ 32) (hsplit : encode cmd.fields = bs ++ more)
    (h : (m.mergeFrom ⟨cmd.number, .bytes bs⟩).isSome = true) :
    ∃ fs, fs <+: cmd.fields ∧ bs = encode fs := by
  cases cmd with
  | ping | bye =>
    obtain ⟨rfl, -⟩ := List.append_eq_nil_iff.mp hsplit.symm
    exact ⟨[], List.nil_prefix, rfl⟩
  | isync isync =>
    have h : (Isync.parseFromBytes bs).isSome = true := by
      simpa [Request.mergeFrom, ReqCmd.number] using h
    exact prefix_of_parse (Isync.valid_fields small) hsplit h
  | fsync fsync =>
    have h : (Fsync.parseFromBytes bs).isSome = true := by
      simpa [Request.mergeFrom, ReqCmd.number] using h
    exact prefix_of_parse (Fsync.valid_fields wf small) hsplit h
  | rsync rsync =>
    have h : (Rsync.parseFromBytes bs).isSome = true := by
      simpa [Request.mergeFrom, ReqCmd.number] using h
    exact prefix_of_parse (Rsync.valid_fields wf small) hsplit h

/-- The first fields of the message of a command are a message themselves. -/
theorem ReqCmd.isSome_mergeFrom (wf : cmd.WellFormed) (small : cmd.computeSize < 2 ^ 32)
    {fs : List Field} (first : fs <+: cmd.fields) (m : Request) :
    (m.mergeFrom ⟨cmd.number, .bytes (encode fs)⟩).isSome = true := by
  cases cmd with
  | ping | bye =>
    obtain rfl := List.prefix_nil.mp first
    simp [Request.mergeFrom, ReqCmd.number, parseEmpty_nil]
  | isync isync =>
    have valid := fun f hf => Isync.valid_fields small f (first.subset hf)
    have merge : (fs.foldlM Isync.mergeFrom ⟨""⟩).isSome = true := by
      refine isSome_foldlM (fun m f hf => ?_) _
      exact isSome_stringField (by simp [Isync.mergeFrom]) m f (first.subset hf)
    simpa [Request.mergeFrom, ReqCmd.number, Isync.parseFromBytes, parseWith_encode valid] using
      merge
  | fsync fsync =>
    have valid := fun f hf => Fsync.valid_fields wf small f (first.subset hf)
    have merge : (fs.foldlM Fsync.mergeFrom ⟨"", "", []⟩).isSome = true := by
      refine isSome_foldlM (fun m f hf => ?_) _
      obtain hf | hf := List.mem_append.mp (first.subset hf)
      · obtain hf | hf := List.mem_append.mp hf
        · exact isSome_stringField (by simp [Fsync.mergeFrom]) m f hf
        · exact isSome_stringField (by simp [Fsync.mergeFrom]) m f hf
      · simp [Fsync.mergeFrom_unknown wf hf]
    simpa [Request.mergeFrom, ReqCmd.number, Fsync.parseFromBytes, parseWith_encode valid] using
      merge
  | rsync rsync =>
    have valid := fun f hf => Rsync.valid_fields wf small f (first.subset hf)
    have merge : (fs.foldlM Rsync.mergeFrom ⟨"", []⟩).isSome = true := by
      refine isSome_foldlM (fun m f hf => ?_) _
      obtain hf | hf := List.mem_append.mp (first.subset hf)
      · exact isSome_stringField (by simp [Rsync.mergeFrom]) m f hf
      · simp [Rsync.mergeFrom_unknown wf hf]
    simpa [Request.mergeFrom, ReqCmd.number, Rsync.parseFromBytes, parseWith_encode valid] using
      merge

theorem Request.fields_of_cmd (hcmd : req.cmd = some cmd) :
    req.fields = stringField 1 req.id ++ [⟨cmd.number, .bytes (encode cmd.fields)⟩] := by
  rw [Request.fields, hcmd]
  cases cmd <;> rfl

theorem ReqCmd.length_encode_fields (cmd : ReqCmd) :
    (encode cmd.fields).length = cmd.computeSize := by
  cases cmd with
  | ping | bye => rfl
  | isync m => exact m.length_writeToBytes
  | fsync m => exact m.length_writeToBytes
  | rsync m => exact m.length_writeToBytes

/-- A beginning of a request that can be read has one of the sizes. -/
theorem Request.mem_cuts_of_isSome (wf : req.WellFormed) (small : req.computeSize < 2 ^ 32)
    (hcmd : req.cmd = some cmd) (hsize : size < req.computeSize)
    (h : (Request.parseFromBytes (req.writeToBytes.take size)).isSome = true) :
    size ∈ req.cuts := by
  have hlen : (req.writeToBytes.take size).length = size := by
    rw [List.length_take, Request.length_writeToBytes]
    omega
  have hfields := fields_of_cmd hcmd
  refine (mem_cuts hcmd).mpr ?_
  obtain ⟨m, hm⟩ := Option.isSome_iff_exists.mp h
  obtain ⟨gs, hgs, hm⟩ := Option.bind_eq_some_iff.mp hm
  obtain ⟨htake, hprefix⟩ | ⟨message, more, whole, bytes⟩ := decode_prefix
    (Request.valid_fields small) (List.take_append_drop size req.writeToBytes).symm hgs
  · rw [htake] at hlen
    rw [hfields] at hprefix
    obtain rfl | hprefix := List.prefix_concat_iff.mp hprefix
    · rw [← hfields, ← Request.writeToBytes, Request.length_writeToBytes] at hlen
      omega
    · obtain rfl | rfl := prefix_stringField hprefix
      · exact .inl hlen.symm
      · rw [length_stringField (by omega)] at hlen
        exact .inr (.inl hlen.symm)
  · rename_i gs n xs ys
    rw [hfields] at whole
    obtain whole | inId := List.prefix_concat_iff.mp whole
    · obtain ⟨rfl, hlast⟩ := List.append_inj' whole rfl
      obtain ⟨rfl, hbytes⟩ : n = cmd.number ∧ xs ++ ys = encode cmd.fields := by
        simpa using hlast
      have hcmdSize := small_cmd small hcmd
      obtain ⟨fs, first, rfl⟩ : ∃ fs, fs <+: cmd.fields ∧ xs = encode fs := by
        rw [List.foldlM_append] at hm
        obtain ⟨m', -, hm⟩ := Option.bind_eq_some_iff.mp hm
        obtain ⟨m'', hm'', -⟩ := Option.bind_eq_some_iff.mp hm
        exact ReqCmd.prefix_of_mergeFrom (wf cmd hcmd) hcmdSize hbytes.symm
          (Option.isSome_iff_exists.mpr ⟨m'', hm''⟩)
      refine .inr (.inr ⟨fs, first, ?_⟩)
      rw [hbytes, ReqCmd.length_encode_fields, List.append_assoc, List.append_assoc] at bytes
      rw [← hlen, bytes, ReqCmd.length_cut]
    · have hmem := inId.subset (List.mem_append_right gs (List.mem_singleton_self _))
      rw [stringField] at hmem
      split at hmem
      · cases hmem
      · obtain ⟨rfl, -⟩ : n = 1 ∧ _ := by simpa using hmem
        cases message

/-- The beginnings of a request that can be read have these sizes. -/
theorem Request.parse_take_iff (wf : req.WellFormed) (small : req.computeSize < 2 ^ 32)
    (hcmd : req.cmd = some cmd) (hsize : size < req.computeSize) :
    (Request.parseFromBytes (req.writeToBytes.take size)).isSome ↔ size ∈ req.cuts := by
  refine ⟨mem_cuts_of_isSome wf small hcmd hsize, fun hmem => ?_⟩
  have hid : (⟨req.id, none⟩ : Request).computeSize = stringSize req.id := rfl
  have hcmdSize := small_cmd small hcmd
  obtain rfl | rfl | ⟨fs, first, rfl⟩ := (mem_cuts hcmd).mp hmem
  · simp [Request.parseFromBytes, parseWith]
  · have hwrite : req.writeToBytes.take (stringSize req.id) =
        (⟨req.id, none⟩ : Request).writeToBytes := by
      rw [Request.writeToBytes, fields_of_cmd hcmd, encode_append,
        ← length_stringField (n := 1) (by omega), List.take_left]
      simp [Request.writeToBytes, Request.fields]
    rw [hwrite, Request.parse_write (by rintro _ ⟨⟩) (by omega)]
    rfl
  · obtain ⟨rest, hrest⟩ := first
    have hwrite : req.writeToBytes = encode (stringField 1 req.id) ++
        (varint (8 * cmd.number + 2) ++ (varint cmd.computeSize ++ encode fs)) ++ encode rest := by
      rw [Request.writeToBytes, fields_of_cmd hcmd, ← cmd.length_encode_fields, ← hrest]
      simp [Field.encode, Field.tag, Value.wireType, Value.encode]
    have hlen : (encode fs).length ≤ cmd.computeSize := by
      rw [← cmd.length_encode_fields, ← hrest, encode_append, List.length_append]
      omega
    have hn := cmd.number_bounds
    have hvalid : ∀ f ∈ stringField 1 req.id, f.Valid := fun f hf =>
      Request.valid_fields small f (fields_of_cmd hcmd ▸ List.mem_append_left _ hf)
    have hread := decode_cut hvalid ⟨by omega, by omega⟩ cmd.messages_number hcmdSize hlen
    rw [hwrite, ← ReqCmd.length_cut, List.take_left, Request.parseFromBytes, parseWith, hread,
      Option.bind_some, List.foldlM_append, foldlM_stringField (fun s => Request.mk s none) rfl]
    simpa using ReqCmd.isSome_mergeFrom (wf cmd hcmd) hcmdSize ⟨rest, hrest⟩ ⟨req.id, none⟩

end Write

end Rndz.Proto
