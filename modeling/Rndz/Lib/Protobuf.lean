import Mathlib.Data.List.Dedup
import Rndz.Lib.Keyed
import Rndz.Lib.Wire

/-!
# Messages of protocol buffers

How a message comes from its fields. A string is its bytes in UTF-8, and its field is written
unless it is empty. A message that is read takes up the fields one after another, so the last of
several values of a field counts. The fields that it does not know it keeps in a map by their
numbers, and writes them number by number, in the order that the map happens to have.
-/
namespace Wire

variable {s : String} {bs : List UInt8} {n : Nat}

/-! ## Strings -/

/-- The bytes of a string. -/
def utf8 (s : String) : List UInt8 := s.toByteArray.data.toList

def fromUtf8 (bs : List UInt8) : Option String := String.fromUTF8? bs.toByteArray

/-- `string_size`, without the field if the string is empty. -/
def stringSize (s : String) : Nat :=
  if s = "" then 0 else 1 + (varint s.utf8ByteSize).length + s.utf8ByteSize

/-- The size of a field that holds so many bytes. -/
def messageSize (len : Nat) : Nat := 1 + (varint len).length + len

def stringField (n : Nat) (s : String) : List Field :=
  if s = "" then [] else [⟨n, .bytes (utf8 s)⟩]

@[simp] theorem length_utf8 (s : String) : (utf8 s).length = s.utf8ByteSize := by
  rw [← String.size_toByteArray]
  rfl

/-- A text of ASCII characters takes one byte for each. -/
theorem utf8ByteSize_ofList {cs : List Char} (ascii : ∀ c ∈ cs, c.utf8Size = 1) :
    (String.ofList cs).utf8ByteSize = cs.length := by
  rw [← String.size_toByteArray, String.toByteArray_ofList, List.utf8Encode, List.size_toByteArray]
  induction cs with
  | nil => rfl
  | cons c cs ih =>
    have ih := ih fun c' hc' => ascii c' (List.mem_cons_of_mem _ hc')
    rw [List.flatMap_cons, List.length_append, String.length_utf8EncodeChar,
      ascii c List.mem_cons_self, ih, List.length_cons, Nat.add_comm]

theorem fromUtf8_utf8 (s : String) : fromUtf8 (utf8 s) = some s := by
  have : (utf8 s).toByteArray = s.toByteArray := by
    apply ByteArray.ext
    simp [utf8, List.data_toByteArray]
  rw [fromUtf8, this, String.fromUTF8?, dif_pos s.isValidUTF8]
  rfl

theorem utf8_of_fromUtf8 (h : fromUtf8 bs = some s) : utf8 s = bs := by
  obtain ⟨valid, h⟩ := Option.dite_none_right_eq_some.mp h
  obtain rfl := Option.some.inj h
  simp [utf8, String.fromUTF8]

theorem length_encode_bytes (hn : n < 16) (bs : List UInt8) :
    (Field.encode ⟨n, .bytes bs⟩).length = messageSize bs.length := by
  have htag : 8 * n + 2 < 128 := by omega
  simp only [Field.encode, Field.tag, Value.wireType, Value.encode, varint_of_lt htag,
    List.length_append, List.length_singleton, messageSize]
  omega

theorem length_stringField (hn : n < 16) (s : String) :
    (encode (stringField n s)).length = stringSize s := by
  rw [stringField, stringSize]
  split
  · rfl
  · simp [encode, length_encode_bytes hn, messageSize]

theorem valid_bytes (hn : 0 < n ∧ n < 16) (h : bs.length < 2 ^ 32) :
    Field.Valid ⟨n, .bytes bs⟩ := ⟨hn.1, by dsimp only; omega, h⟩

theorem valid_stringField (hn : 0 < n ∧ n < 16) (h : s.utf8ByteSize < 2 ^ 32) :
    ∀ f ∈ stringField n s, f.Valid := by
  intro f hf
  rw [stringField] at hf
  split at hf
  · cases hf
  · obtain rfl := List.mem_singleton.mp hf
    exact valid_bytes hn (by rwa [length_utf8])

@[simp] theorem stringSize_empty : stringSize "" = 0 := rfl

theorem utf8ByteSize_le_stringSize (s : String) : s.utf8ByteSize ≤ stringSize s := by
  rw [stringSize]
  split
  · simp_all
  · omega

theorem stringSize_le_messageSize (h : utf8 s = bs) : stringSize s ≤ messageSize bs.length := by
  rw [← h, length_utf8, stringSize, messageSize]
  split <;> omega

/-- A string takes no more than the field it has been read from. -/
theorem stringSize_le_encode (hn : n < 16) (h : fromUtf8 bs = some s) :
    stringSize s ≤ (Field.encode ⟨n, .bytes bs⟩).length := by
  rw [length_encode_bytes hn]
  exact stringSize_le_messageSize (utf8_of_fromUtf8 h)

theorem le_messageSize (n : Nat) : n ≤ messageSize n := by
  rw [messageSize]
  omega

theorem messageSize_mono {m : Nat} (h : m ≤ n) : messageSize m ≤ messageSize n := by
  have := length_varint_mono h
  rw [messageSize, messageSize]
  omega

theorem messageSize_of_lt (h : n < 128) : messageSize n = n + 2 := by
  rw [messageSize, varint_of_lt h, List.length_singleton]
  omega

theorem stringSize_of_ne (h : s ≠ "") : stringSize s = messageSize s.utf8ByteSize := if_neg h

theorem stringSize_le_of_lt (h : s.utf8ByteSize < 128) : stringSize s ≤ s.utf8ByteSize + 2 := by
  rw [← length_utf8, ← messageSize_of_lt (by rwa [length_utf8])]
  exact stringSize_le_messageSize rfl

/-! ## Reading a message -/

/-- `parse_from_bytes`: a message without any field takes up one field after another. The fields
with the numbers `nested` hold messages. -/
def parseWith {α : Type} (nested : Nat → Bool) (mergeFrom : α → Field → Option α) (new : α)
    (bs : List UInt8) : Option α :=
  (decode nested bs).bind (List.foldlM mergeFrom new)

/-- No field of the message holds a message. -/
def flat (_ : Nat) : Bool := false

variable {α κ : Type} {nested : Nat → Bool} {mergeFrom : α → Field → Option α} {new : α}

theorem parseWith_encode {fs : List Field} (valid : ∀ f ∈ fs, f.Valid) :
    parseWith nested mergeFrom new (encode fs) = fs.foldlM mergeFrom new := by
  simp [parseWith, decode_encode valid]

/-- A message without messages in it can be read only up to the end of one of its fields. -/
theorem prefix_of_parse {fs : List Field} (valid : ∀ f ∈ fs, f.Valid) {pre post : List UInt8}
    (hsplit : encode fs = pre ++ post) (h : (parseWith flat mergeFrom new pre).isSome = true) :
    ∃ gs, gs <+: fs ∧ pre = encode gs := by
  obtain ⟨m, hm⟩ := Option.isSome_iff_exists.mp h
  obtain ⟨gs, hgs, -⟩ := Option.bind_eq_some_iff.mp hm
  obtain ⟨hpre, hprefix⟩ | ⟨message, -, -, -⟩ := decode_prefix valid hsplit hgs
  · exact ⟨gs, hprefix, hpre⟩
  · cases message

/-- Fields that are all taken up make a message. -/
theorem isSome_foldlM {fs : List Field} (merge : ∀ m, ∀ f ∈ fs, (mergeFrom m f).isSome = true)
    (m : α) : (fs.foldlM mergeFrom m).isSome = true := by
  induction fs generalizing m with
  | nil => rfl
  | cons f fs ih =>
    obtain ⟨m', hm'⟩ := Option.isSome_iff_exists.mp (merge m f List.mem_cons_self)
    rw [List.foldlM_cons, hm']
    exact ih (fun m f hf => merge m f (List.mem_cons_of_mem _ hf)) m'

/-- What each field keeps, in the measure of what it takes on the wire, all of them keep. -/
theorem foldlM_eq_some (P : α → Prop) (size : α → Nat)
    (merge : ∀ m f m', P m → f.Valid → mergeFrom m f = some m' →
      P m' ∧ size m' ≤ size m + f.encode.length)
    {fs : List Field} (valid : ∀ f ∈ fs, f.Valid) {m m' : α} (hm : P m)
    (h : fs.foldlM mergeFrom m = some m') : P m' ∧ size m' ≤ size m + (encode fs).length := by
  induction fs generalizing m with
  | nil =>
    obtain rfl : m = m' := by simpa using h
    exact ⟨hm, by simp⟩
  | cons f fs ih =>
    obtain ⟨hf, valid⟩ := List.forall_mem_cons.mp valid
    rw [List.foldlM_cons] at h
    obtain ⟨m₁, hm₁, h⟩ := Option.bind_eq_some_iff.mp h
    obtain ⟨h₁, hsize₁⟩ := merge m f m₁ hm hf hm₁
    obtain ⟨hm', hsize⟩ := ih valid h₁ h
    rw [encode_cons, List.length_append]
    exact ⟨hm', by omega⟩

theorem parseWith_eq_some (P : α → Prop) (size : α → Nat) (hnew : P new) (hsize : size new = 0)
    (merge : ∀ m f m', P m → f.Valid → mergeFrom m f = some m' →
      P m' ∧ size m' ≤ size m + f.encode.length)
    (small : bs.length < 2 ^ 32) {m : α} (h : parseWith nested mergeFrom new bs = some m) :
    P m ∧ size m ≤ bs.length := by
  obtain ⟨fs, hfs, h⟩ := Option.bind_eq_some_iff.mp h
  obtain ⟨valid, hle⟩ := decode_eq_some hfs
  obtain ⟨hm, hsize'⟩ := foldlM_eq_some P size merge (valid small) hnew h
  exact ⟨hm, by omega⟩

theorem foldlM_stringField (set : String → α)
    (merge : mergeFrom (set "") ⟨n, .bytes (utf8 s)⟩ = (fromUtf8 (utf8 s)).map set) :
    (stringField n s).foldlM mergeFrom (set "") = some (set s) := by
  rw [stringField]
  split
  · rename_i hs
    rw [hs]
    rfl
  · simp [merge, fromUtf8_utf8]

/-! ## A message with an id and a `oneof` -/

section Oneof

variable {field : κ → Field} {size : κ → Nat} {cmd : Option κ}

theorem length_encode_oneof (hfield : ∀ k, (field k).encode.length = messageSize (size k))
    (s : String) (cmd : Option κ) :
    (encode (stringField 1 s ++ cmd.toList.map field)).length =
      stringSize s + (cmd.map fun k => messageSize (size k)).getD 0 := by
  rw [encode_append, List.length_append, length_stringField (by omega)]
  cases cmd <;> simp [hfield]

theorem valid_oneof (hfield : ∀ k, size k < 2 ^ 32 → (field k).Valid)
    (small : stringSize s + (cmd.map fun k => messageSize (size k)).getD 0 < 2 ^ 32) :
    ∀ f ∈ stringField 1 s ++ cmd.toList.map field, f.Valid := by
  have hs := utf8ByteSize_le_stringSize s
  refine List.forall_mem_append.mpr ⟨valid_stringField (by omega) (by omega), fun f hf => ?_⟩
  obtain ⟨k, hk, rfl⟩ := List.mem_map.mp hf
  rw [Option.mem_toList.mp hk, Option.map_some, Option.getD_some] at small
  have := le_messageSize (size k)
  exact hfield k (by omega)

theorem parseWith_oneof (make : String → Option κ → α)
    (valid : ∀ f ∈ stringField 1 s ++ cmd.toList.map field, f.Valid)
    (mergeId : mergeFrom (make "" none) ⟨1, .bytes (utf8 s)⟩ =
      (fromUtf8 (utf8 s)).map fun s => make s none)
    (mergeCmd : ∀ k ∈ cmd, mergeFrom (make s none) (field k) = some (make s (some k))) :
    parseWith nested mergeFrom (make "" none) (encode (stringField 1 s ++ cmd.toList.map field)) =
      some (make s cmd) := by
  rw [parseWith_encode valid, List.foldlM_append,
    foldlM_stringField (fun s => make s none) mergeId, Option.bind_eq_bind, Option.bind_some]
  cases cmd with
  | none => rfl
  | some k => simp [mergeCmd k rfl]

end Oneof

/-! ## Unknown fields -/

/-- The values of a number are kept by their types, in this order. -/
def Value.rank : Value → Nat
  | fixed32 _ => 0
  | fixed64 _ => 1
  | varint _ => 2
  | bytes _ => 3

def Field.key (f : Field) : Nat := 4 * f.number + f.value.rank

/-- `add_value`. The map from numbers to values is the list of its fields, sorted by number and
type. -/
def addValue (fs : List Field) (f : Field) : List Field := Keyed.insert Field.key fs f

/-- The order in which a map gives its numbers. -/
class MapOrder where
  order : List Field → List Nat
  perm : ∀ fs, (order fs).Perm (fs.map Field.number).dedup

/-- The numbers as they come in the list. -/
@[reducible] def MapOrder.sorted : MapOrder where
  order fs := (fs.map Field.number).dedup
  perm _ := .refl _

/-- The fields in the order in which their map gives them. -/
def iter [MapOrder] (fs : List Field) : List Field :=
  Keyed.byGroup Field.number (MapOrder.order fs) fs

/-- The fields are a map of fields that are unknown to a message with the string fields `known`. -/
def Unknown (known : List Nat) (fs : List Field) : Prop :=
  Keyed.Sorted Field.key fs ∧ ∀ f ∈ fs, f.Valid ∧ ∀ n ∈ known, ∀ bs, f ≠ ⟨n, .bytes bs⟩

theorem unknown_nil (known : List Nat) : Unknown known [] := ⟨List.Pairwise.nil, by simp⟩

theorem Unknown.addValue {known : List Nat} {fs : List Field} {f : Field} (h : Unknown known fs)
    (valid : f.Valid) (hf : ∀ n ∈ known, ∀ bs, f ≠ ⟨n, .bytes bs⟩) :
    Unknown known (addValue fs f) := by
  refine ⟨Keyed.sorted_insert h.1 f, ?_⟩
  intro f' hf'
  obtain rfl | hf' := Keyed.mem_insert.mp hf'
  · exact ⟨valid, hf⟩
  · exact h.2 f' hf'

theorem length_encode_perm {fs gs : List Field} (h : fs.Perm gs) :
    (encode fs).length = (encode gs).length := (h.flatMap_right _).length_eq

theorem length_addValue (fs : List Field) (f : Field) :
    (encode (addValue fs f)).length = (encode fs).length + f.encode.length := by
  rw [addValue, length_encode_perm (Keyed.insert_perm _ fs f), encode_cons, List.length_append,
    Nat.add_comm]

theorem number_of_key {f g : Field} (h : f.key = g.key) : f.number = g.number := by
  obtain ⟨n, v⟩ := f
  obtain ⟨m, w⟩ := g
  have hv : v.rank < 4 := by cases v <;> simp [Value.rank]
  have hw : w.rank < 4 := by cases w <;> simp [Value.rank]
  simp only [Field.key] at h ⊢
  omega

section Iter

variable [MapOrder] {fs : List Field}

theorem nodup_order (fs : List Field) : (MapOrder.order fs).Nodup :=
  (MapOrder.perm fs).nodup_iff.mpr (List.nodup_dedup _)

theorem number_mem_order : ∀ f ∈ fs, f.number ∈ MapOrder.order fs := by
  intro f hf
  exact (MapOrder.perm fs).mem_iff.mpr (List.mem_dedup.mpr (List.mem_map_of_mem hf))

theorem iter_perm (fs : List Field) : (iter fs).Perm fs :=
  Keyed.byGroup_perm (fun _ _ => number_of_key) (nodup_order fs) number_mem_order

/-- Reading the fields of a map one after another makes the map again. -/
theorem foldl_iter (sorted : Keyed.Sorted Field.key fs) : (iter fs).foldl addValue [] = fs := by
  refine Eq.trans (Keyed.foldl_congr ?_) sorted.foldl_insert
  exact Keyed.ofKey_byGroup (fun _ _ => number_of_key) (nodup_order fs) number_mem_order

end Iter

/-- Merging keeps the unknown fields in their map. -/
theorem foldlM_unknown (set : List Field → α) {fs : List Field}
    (merge : ∀ gs, ∀ f ∈ fs, mergeFrom (set gs) f = some (set (addValue gs f)))
    (gs : List Field) : fs.foldlM mergeFrom (set gs) = some (set (fs.foldl addValue gs)) := by
  induction fs generalizing gs with
  | nil => rfl
  | cons f fs ih =>
    rw [List.foldlM_cons, merge gs f List.mem_cons_self]
    exact ih (fun gs f hf => merge gs f (List.mem_cons_of_mem _ hf)) (addValue gs f)

end Wire
