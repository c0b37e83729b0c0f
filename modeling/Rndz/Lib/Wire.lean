import Mathlib.Algebra.Group.Nat.Defs
import Mathlib.Data.List.Basic
import Mathlib.Tactic.Common

/-!
# The wire format of protocol buffers

A message is a sequence of fields, each with a tag, which holds its number and the type of its
value. Groups, which the format has no use for any more, are skipped.

A reader takes what it reads from the front and returns the rest. It does not mind if the input
ends inside a message that is the value of a field: it takes what there is of it. Reading what was
written gives it back; a reader that succeeds on some input, and has not met its end there, does so
on every longer one; and what has been read is never longer when it is written again.
-/
namespace Wire

/-! ## Varints -/

/-- Seven bits a byte, the lowest first; the high bit tells that there is more. -/
def varint (n : Nat) : List UInt8 :=
  if n < 128 then [UInt8.ofNat n] else UInt8.ofNat (n % 128 + 128) :: varint (n / 128)

/-- Read a varint of at most so many bytes. -/
def readBytes : Nat → List UInt8 → Option (Nat × List UInt8)
  | 0, _ => none
  | _, [] => none
  | k + 1, b :: bs =>
    if b.toNat < 128 then some (b.toNat, bs)
    else (readBytes k bs).map fun p => (b.toNat - 128 + 128 * p.1, p.2)

/-- Read a varint of at most so many bytes below the bound. -/
def readVarint (k bound : Nat) (bs : List UInt8) : Option (Nat × List UInt8) :=
  (readBytes k bs).filter fun p => p.1 < bound

/-- `read_raw_varint32` -/
def readVarint32 : List UInt8 → Option (Nat × List UInt8) := readVarint 5 (2 ^ 32)

/-- `read_raw_varint64` -/
def readVarint64 : List UInt8 → Option (Nat × List UInt8) := readVarint 10 (2 ^ 64)

variable {bs rest : List UInt8} {n k bound : Nat}

theorem varint_of_lt (h : n < 128) : varint n = [UInt8.ofNat n] := by
  rw [varint, if_pos h]

theorem varint_of_ge (h : ¬n < 128) :
    varint n = UInt8.ofNat (n % 128 + 128) :: varint (n / 128) := by
  rw [varint, if_neg h]

theorem length_varint_pos (n : Nat) : 0 < (varint n).length := by
  unfold varint
  split <;> simp

theorem length_varint_mono (h : k ≤ n) : (varint k).length ≤ (varint n).length := by
  induction n using Nat.strongRecOn generalizing k with
  | ind n ih =>
    by_cases hk : k < 128
    · rw [varint_of_lt hk]
      exact length_varint_pos n
    · have hn : ¬n < 128 := by omega
      have := ih (n / 128) (by omega) (Nat.div_le_div_right h : k / 128 ≤ n / 128)
      rw [varint_of_ge hk, varint_of_ge hn, List.length_cons, List.length_cons]
      omega

theorem length_varint_le (hk : 0 < k) (h : n < 128 ^ k) : (varint n).length ≤ k := by
  induction k generalizing n with
  | zero => omega
  | succ k ih =>
    by_cases hn : n < 128
    · rw [varint_of_lt hn, List.length_singleton]
      omega
    · have hk : 0 < k := by
        by_contra hzero
        obtain rfl : k = 0 := by omega
        omega
      have := ih hk (Nat.div_lt_of_lt_mul (by rwa [Nat.pow_succ, Nat.mul_comm] at h))
      rw [varint_of_ge hn, List.length_cons]
      omega

theorem length_varint_eq_two (hn : ¬n < 128) (hlt : n < 128 ^ 2) : (varint n).length = 2 := by
  rw [varint_of_ge hn, varint_of_lt (by omega)]
  rfl

theorem readBytes_varint (h : n < 128 ^ (k + 1)) :
    readBytes (k + 1) (varint n ++ rest) = some (n, rest) := by
  by_cases hn : n < 128
  · rw [varint_of_lt hn]
    have hmod : n % 256 = n := by omega
    simp [readBytes, hmod, hn]
  · induction k generalizing n with
    | zero => omega
    | succ k ih =>
      have hdiv : n / 128 < 128 ^ (k + 1) :=
        Nat.div_lt_of_lt_mul (by rwa [Nat.pow_succ, Nat.mul_comm] at h)
      have hrest : readBytes (k + 1) (varint (n / 128) ++ rest) = some (n / 128, rest) := by
        by_cases hsmall : n / 128 < 128
        · have hmod : n / 128 % 256 = n / 128 := by omega
          simp [varint_of_lt hsmall, readBytes, hmod, hsmall]
        · exact ih hdiv hsmall
      rw [varint_of_ge hn]
      have hmod : (n % 128 + 128) % 256 = n % 128 + 128 := by omega
      simp only [List.cons_append, readBytes, UInt8.toNat_ofNat', hmod, hrest, Option.map_some,
        Nat.reducePow, Nat.add_sub_cancel]
      rw [if_neg (by omega), Nat.mod_add_div]

theorem readVarint_varint (h : n < bound) (fits : bound ≤ 128 ^ (k + 1)) :
    readVarint (k + 1) bound (varint n ++ rest) = some (n, rest) := by
  have : n < 128 ^ (k + 1) := Nat.lt_of_lt_of_le h fits
  rw [readVarint, readBytes_varint this, Option.filter_some, if_pos (decide_eq_true h)]

theorem readVarint32_varint (h : n < 2 ^ 32) :
    readVarint32 (varint n ++ rest) = some (n, rest) :=
  readVarint_varint (k := 4) h (by decide)

theorem readVarint64_varint (h : n < 2 ^ 64) :
    readVarint64 (varint n ++ rest) = some (n, rest) :=
  readVarint_varint (k := 9) h (by decide)

/-- A varint is never longer than what it was read from. -/
theorem length_readBytes (h : readBytes k bs = some (n, rest)) :
    (varint n).length + rest.length ≤ bs.length := by
  induction k generalizing bs n with
  | zero => simp [readBytes] at h
  | succ k ih =>
    cases bs with
    | nil => simp [readBytes] at h
    | cons b bs =>
      unfold readBytes at h
      split at h
      · rename_i hb
        obtain ⟨rfl, rfl⟩ := Prod.mk.inj (Option.some.inj h)
        simp [varint_of_lt hb, Nat.add_comm]
      · obtain ⟨⟨m, rest'⟩, hm, heq⟩ := Option.map_eq_some_iff.mp h
        obtain ⟨rfl, rfl⟩ := Prod.mk.inj heq
        have hle := ih hm
        have hb := b.toNat_lt
        dsimp only at hle ⊢
        by_cases hn : b.toNat - 128 + 128 * m < 128
        · rw [varint_of_lt hn]
          simp only [List.length_cons, List.length_nil]
          omega
        · rw [varint_of_ge hn]
          have hdiv : (b.toNat - 128 + 128 * m) / 128 = m := by omega
          simp only [hdiv, List.length_cons]
          omega

theorem readBytes_append (h : readBytes k bs = some (n, rest)) (more : List UInt8) :
    readBytes k (bs ++ more) = some (n, rest ++ more) := by
  induction k generalizing bs n with
  | zero => simp [readBytes] at h
  | succ k ih =>
    cases bs with
    | nil => simp [readBytes] at h
    | cons b bs =>
      simp only [readBytes, List.cons_append] at h ⊢
      split at h
      · rename_i hb
        obtain ⟨rfl, rfl⟩ := Prod.mk.inj (Option.some.inj h)
        rw [if_pos hb]
      · rename_i hb
        obtain ⟨⟨m, rest'⟩, hm, heq⟩ := Option.map_eq_some_iff.mp h
        obtain ⟨rfl, rfl⟩ := Prod.mk.inj heq
        rw [if_neg hb, ih hm]
        rfl

theorem readVarint_eq_some (h : readVarint k bound bs = some (n, rest)) :
    readBytes k bs = some (n, rest) ∧ n < bound := by
  obtain ⟨hread, hlt⟩ := Option.filter_eq_some_iff.mp h
  exact ⟨hread, of_decide_eq_true hlt⟩

theorem readVarint_append (h : readVarint k bound bs = some (n, rest)) (more : List UInt8) :
    readVarint k bound (bs ++ more) = some (n, rest ++ more) := by
  obtain ⟨hread, hlt⟩ := readVarint_eq_some h
  rw [readVarint, readBytes_append hread, Option.filter_some, if_pos (decide_eq_true hlt)]

/-! ## Values -/

/-- A value as it is on the wire, by its type. -/
inductive Value where
  | varint (n : Nat)
  | fixed64 (bytes : List UInt8)
  | bytes (bytes : List UInt8)
  | fixed32 (bytes : List UInt8)
  deriving DecidableEq, Repr

namespace Value

def wireType : Value → Nat
  | varint _ => 0
  | fixed64 _ => 1
  | bytes _ => 2
  | fixed32 _ => 5

def encode : Value → List UInt8
  | varint n => Wire.varint n
  | fixed64 bs => bs
  | bytes bs => Wire.varint bs.length ++ bs
  | fixed32 bs => bs

def Valid : Value → Prop
  | varint n => n < 2 ^ 64
  | fixed64 bs => bs.length = 8
  | bytes bs => bs.length < 2 ^ 32
  | fixed32 bs => bs.length = 4

end Value

/-- So many bytes. -/
def readExact (n : Nat) (bs : List UInt8) : Option (List UInt8 × List UInt8) :=
  if n ≤ bs.length then some (bs.take n, bs.drop n) else none

/-- A value of the given type. -/
def readValue (wireType : Nat) (bs : List UInt8) : Option (Value × List UInt8) :=
  match wireType with
  | 0 => (readVarint64 bs).map fun p => (.varint p.1, p.2)
  | 1 => (readExact 8 bs).map fun p => (.fixed64 p.1, p.2)
  | 2 => (readVarint32 bs).bind fun p => (readExact p.1 p.2).map fun p => (.bytes p.1, p.2)
  | 5 => (readExact 4 bs).map fun p => (.fixed32 p.1, p.2)
  | _ => none

theorem readExact_length (bs rest : List UInt8) :
    readExact bs.length (bs ++ rest) = some (bs, rest) := by
  simp [readExact]

theorem readExact_eq_some {xs : List UInt8} (h : readExact n bs = some (xs, rest)) :
    xs.length = n ∧ bs = xs ++ rest := by
  obtain ⟨hle, h⟩ := Option.ite_none_right_eq_some.mp h
  obtain ⟨rfl, rfl⟩ := Prod.mk.inj (Option.some.inj h)
  exact ⟨List.length_take_of_le hle, (List.take_append_drop n bs).symm⟩

theorem readExact_append {xs : List UInt8} (h : readExact n bs = some (xs, rest))
    (more : List UInt8) : readExact n (bs ++ more) = some (xs, rest ++ more) := by
  obtain ⟨rfl, rfl⟩ := readExact_eq_some h
  rw [List.append_assoc, readExact_length]

theorem readValue_encode {v : Value} (valid : v.Valid) :
    readValue v.wireType (v.encode ++ rest) = some (v, rest) := by
  cases v with
  | varint n =>
    simp only [readValue, Value.wireType, Value.encode, Option.map_some,
      readVarint64_varint valid]
  | fixed64 xs =>
    have hread := readExact_length xs rest
    rw [valid] at hread
    simp only [readValue, Value.wireType, Value.encode, hread, Option.map_some]
  | bytes xs =>
    simp only [readValue, Value.wireType, Value.encode, List.append_assoc, Option.bind_some,
      readVarint32_varint valid, readExact_length, Option.map_some]
  | fixed32 xs =>
    have hread := readExact_length xs rest
    rw [valid] at hread
    simp only [readValue, Value.wireType, Value.encode, hread, Option.map_some]

theorem readValue_append {w : Nat} {v : Value} (h : readValue w bs = some (v, rest))
    (more : List UInt8) : readValue w (bs ++ more) = some (v, rest ++ more) := by
  unfold readValue at h ⊢
  split at h
  · obtain ⟨⟨n, rest'⟩, hn, heq⟩ := Option.map_eq_some_iff.mp h
    obtain ⟨rfl, rfl⟩ := Prod.mk.inj heq
    simp only [readVarint64, readVarint_append hn, Option.map_some]
  · obtain ⟨⟨xs, rest'⟩, hxs, heq⟩ := Option.map_eq_some_iff.mp h
    obtain ⟨rfl, rfl⟩ := Prod.mk.inj heq
    simp only [readExact_append hxs, Option.map_some]
  · obtain ⟨⟨n, rest'⟩, hn, h⟩ := Option.bind_eq_some_iff.mp h
    obtain ⟨⟨xs, rest''⟩, hxs, heq⟩ := Option.map_eq_some_iff.mp h
    obtain ⟨rfl, rfl⟩ := Prod.mk.inj heq
    simp only [readVarint32, readVarint_append hn, Option.bind_some, readExact_append hxs,
      Option.map_some]
  · obtain ⟨⟨xs, rest'⟩, hxs, heq⟩ := Option.map_eq_some_iff.mp h
    obtain ⟨rfl, rfl⟩ := Prod.mk.inj heq
    simp only [readExact_append hxs, Option.map_some]
  · cases h

/-- What has been read is valid, of the type it was read as, and not longer than it was. -/
theorem readValue_eq_some {w : Nat} {v : Value} (h : readValue w bs = some (v, rest)) :
    v.wireType = w ∧ v.Valid ∧ v.encode.length + rest.length ≤ bs.length := by
  unfold readValue at h
  split at h
  · obtain ⟨⟨n, rest'⟩, hn, heq⟩ := Option.map_eq_some_iff.mp h
    obtain ⟨rfl, rfl⟩ := Prod.mk.inj heq
    obtain ⟨hread, hlt⟩ := readVarint_eq_some hn
    exact ⟨rfl, hlt, length_readBytes hread⟩
  · obtain ⟨⟨xs, rest'⟩, hxs, heq⟩ := Option.map_eq_some_iff.mp h
    obtain ⟨rfl, rfl⟩ := Prod.mk.inj heq
    obtain ⟨hlen, rfl⟩ := readExact_eq_some hxs
    exact ⟨rfl, hlen, by simp [Value.encode]⟩
  · obtain ⟨⟨n, rest'⟩, hn, h⟩ := Option.bind_eq_some_iff.mp h
    obtain ⟨⟨xs, rest''⟩, hxs, heq⟩ := Option.map_eq_some_iff.mp h
    obtain ⟨rfl, rfl⟩ := Prod.mk.inj heq
    obtain ⟨hread, hlt⟩ := readVarint_eq_some hn
    have hle := length_readBytes hread
    obtain ⟨rfl, hsplit⟩ := readExact_eq_some hxs
    dsimp only at *
    rw [hsplit, List.length_append] at hle
    refine ⟨rfl, hlt, ?_⟩
    simp only [Value.encode, List.length_append]
    omega
  · obtain ⟨⟨xs, rest'⟩, hxs, heq⟩ := Option.map_eq_some_iff.mp h
    obtain ⟨rfl, rfl⟩ := Prod.mk.inj heq
    obtain ⟨hlen, rfl⟩ := readExact_eq_some hxs
    exact ⟨rfl, hlen, by simp [Value.encode]⟩
  · cases h

/-! ## Fields -/

structure Field where
  number : Nat
  value : Value
  deriving DecidableEq, Repr

namespace Field

/-- The number of a field with the type of its value. -/
def tag (f : Field) : Nat := 8 * f.number + f.value.wireType

def encode (f : Field) : List UInt8 := varint f.tag ++ f.value.encode

def Valid (f : Field) : Prop := 0 < f.number ∧ f.number < 2 ^ 29 ∧ f.value.Valid

end Field

/-- The number of a field and the type of its value. -/
def readTag (bs : List UInt8) : Option (Nat × Nat × List UInt8) :=
  (readVarint32 bs).bind fun p =>
    if p.1 < 8 then none else some (p.1 / 8, p.1 % 8, p.2)

/-- The rest after the end of a group, which may hold other groups. -/
def skipGroup : Nat → List UInt8 → Option (List UInt8)
  | 0, _ => none
  | k + 1, bs => (readTag bs).bind fun (_, w, bs) =>
    if w = 4 then some bs
    else if w = 3 then (skipGroup k bs).bind (skipGroup k)
    else (readValue w bs).bind fun p => skipGroup k p.2

/-- The bytes of a message in a field. If the input ends before they do, what there is of them. -/
def readMessage (bs : List UInt8) : Option (List UInt8 × List UInt8) :=
  (readVarint64 bs).map fun p => (p.2.take p.1, p.2.drop p.1)

/-- The next field, unless it is a group. The fields with the numbers `nested` hold messages. -/
def readField (nested : Nat → Bool) (bs : List UInt8) : Option (Option Field × List UInt8) :=
  (readTag bs).bind fun (number, w, bs) =>
    if w = 3 then (skipGroup bs.length bs).map fun rest => (none, rest)
    else if w = 2 ∧ nested number = true then
      (readMessage bs).map fun p => (some ⟨number, .bytes p.1⟩, p.2)
    else (readValue w bs).map fun p => (some ⟨number, p.1⟩, p.2)

theorem readTag_append {w : Nat} (h : readTag bs = some (n, w, rest)) (more : List UInt8) :
    readTag (bs ++ more) = some (n, w, rest ++ more) := by
  obtain ⟨⟨tag, rest'⟩, htag, h⟩ := Option.bind_eq_some_iff.mp h
  obtain ⟨hzero, h⟩ := Option.ite_none_left_eq_some.mp h
  cases h
  simp only [readTag, readVarint32, readVarint_append htag, Option.bind_some, if_neg hzero]

/-- A tag takes at least as many bytes as when it is written. -/
theorem readTag_eq_some {w : Nat} (h : readTag bs = some (n, w, rest)) :
    0 < n ∧ n < 2 ^ 29 ∧ (varint (8 * n + w)).length + rest.length ≤ bs.length := by
  obtain ⟨⟨tag, rest'⟩, htag, h⟩ := Option.bind_eq_some_iff.mp h
  obtain ⟨hzero, h⟩ := Option.ite_none_left_eq_some.mp h
  cases h
  obtain ⟨hread, hlt⟩ := readVarint_eq_some htag
  dsimp only at hzero ⊢
  rw [Nat.div_add_mod]
  exact ⟨by omega, by omega, length_readBytes hread⟩

theorem readTag_tag {f : Field} (valid : f.Valid) :
    readTag (varint f.tag ++ rest) = some (f.number, f.value.wireType, rest) := by
  obtain ⟨hpos, hlt, -⟩ := valid
  have hw : f.value.wireType < 8 := by cases f.value <;> simp [Value.wireType]
  have hdiv : f.tag / 8 = f.number := by unfold Field.tag; omega
  have hmod : f.tag % 8 = f.value.wireType := by unfold Field.tag; omega
  have htag : f.tag < 2 ^ 32 ∧ ¬f.tag < 8 := by unfold Field.tag; omega
  simp only [readTag, readVarint32_varint htag.1, Option.bind_some, if_neg htag.2, hdiv, hmod]

theorem skipGroup_append (h : skipGroup k bs = some rest) (more : List UInt8) {m : Nat}
    (hm : k ≤ m) : skipGroup m (bs ++ more) = some (rest ++ more) := by
  induction k generalizing bs rest m with
  | zero => cases h
  | succ k ih =>
    obtain ⟨m, rfl⟩ := Nat.exists_eq_add_of_lt hm
    obtain ⟨⟨n, w, inner⟩, htag, h⟩ := Option.bind_eq_some_iff.mp h
    simp only [skipGroup, readTag_append htag, Option.bind_some]
    dsimp only at h
    split at h
    · rename_i hw
      cases h
      rw [if_pos hw]
    · rename_i hw
      rw [if_neg hw]
      split at h
      · rename_i hw
        obtain ⟨outer, houter, h⟩ := Option.bind_eq_some_iff.mp h
        rw [if_pos hw, ih houter (by omega)]
        exact ih h (by omega)
      · rename_i hw
        obtain ⟨⟨v, inner'⟩, hv, h⟩ := Option.bind_eq_some_iff.mp h
        rw [if_neg hw, readValue_append hv]
        exact ih h (by omega)

theorem length_readTag {w : Nat} (h : readTag bs = some (n, w, rest)) :
    rest.length < bs.length := by
  have := (readTag_eq_some h).2.2
  have := length_varint_pos (8 * n + w)
  omega

theorem length_skipGroup (h : skipGroup k bs = some rest) : rest.length < bs.length := by
  induction k generalizing bs rest with
  | zero => cases h
  | succ k ih =>
    obtain ⟨⟨n, w, inner⟩, htag, h⟩ := Option.bind_eq_some_iff.mp h
    have hinner := length_readTag htag
    dsimp only at h
    split at h
    · cases h
      exact hinner
    · split at h
      · obtain ⟨outer, houter, h⟩ := Option.bind_eq_some_iff.mp h
        have := ih houter
        have := ih h
        omega
      · obtain ⟨⟨v, inner'⟩, hv, h⟩ := Option.bind_eq_some_iff.mp h
        have hvalue := (readValue_eq_some hv).2.2
        have := ih h
        dsimp only at this
        omega

theorem readMessage_append {xs : List UInt8} (h : xs.length < 2 ^ 32) (rest : List UInt8) :
    readMessage (varint xs.length ++ (xs ++ rest)) = some (xs, rest) := by
  simp [readMessage, readVarint64_varint (Nat.lt_trans h (by decide))]

/-- The bytes of a message are not longer than they were with their length. -/
theorem readMessage_eq_some {xs : List UInt8} (h : readMessage bs = some (xs, rest)) :
    (varint xs.length).length + xs.length + rest.length ≤ bs.length := by
  obtain ⟨⟨len, tail⟩, hlen, heq⟩ := Option.map_eq_some_iff.mp h
  obtain ⟨rfl, rfl⟩ := Prod.mk.inj heq
  have hread := length_readBytes (readVarint_eq_some hlen).1
  have hmono := length_varint_mono (Nat.min_le_left len tail.length)
  have hsplit := congrArg List.length (List.take_append_drop len tail)
  rw [List.length_append, List.length_take] at hsplit
  dsimp only
  rw [List.length_take]
  omega

section Field

variable {nested : Nat → Bool}

theorem readField_encode (rest : List UInt8) {f : Field} (valid : f.Valid) :
    readField nested (f.encode ++ rest) = some (some f, rest) := by
  obtain ⟨n, v⟩ := f
  have hw : v.wireType ≠ 3 := by cases v <;> simp [Value.wireType]
  simp only [readField, Field.encode, List.append_assoc, readTag_tag valid, Option.bind_some,
    if_neg hw]
  split
  · rename_i hnested
    cases v with
    | bytes xs =>
      have hread := readMessage_append valid.2.2 rest
      rw [Value.encode, List.append_assoc, hread]
      rfl
    | _ => simp [Value.wireType] at hnested
  · rw [readValue_encode valid.2.2]
    rfl

/-- The bytes end inside the message that is the value of their first field, which has the number
`n`: it has `len` bytes, and `xs` is what there is of it. -/
structure EndsIn (nested : Nat → Bool) (bs : List UInt8) (n len : Nat) (xs : List UInt8) :
    Prop where
  nested : nested n = true
  read : ∃ inner, readTag bs = some (n, 2, inner) ∧ readVarint64 inner = some (len, xs)
  cut : xs.length < len

/-- A field that has been read is read from any longer bytes too, unless these ended inside it. -/
theorem readField_append {f : Option Field} (h : readField nested bs = some (f, rest))
    (more : List UInt8) : readField nested (bs ++ more) = some (f, rest ++ more) ∨
      ∃ n len xs, EndsIn nested bs n len xs ∧ f = some ⟨n, .bytes xs⟩ ∧ rest = [] := by
  obtain ⟨⟨n, w, inner⟩, htag, h⟩ := Option.bind_eq_some_iff.mp h
  simp only [readField, readTag_append htag, Option.bind_some]
  dsimp only at h
  split at h
  · rename_i hw
    obtain ⟨rest', hskip, heq⟩ := Option.map_eq_some_iff.mp h
    cases heq
    rw [if_pos hw, skipGroup_append hskip more (by simp)]
    exact .inl rfl
  · rename_i hw
    rw [if_neg hw]
    split at h
    · rename_i hnested
      obtain ⟨rfl, hn⟩ := hnested
      rw [if_pos ⟨rfl, hn⟩]
      obtain ⟨⟨xs, rest'⟩, hxs, heq⟩ := Option.map_eq_some_iff.mp h
      cases heq
      obtain ⟨⟨len, tail⟩, hlen, heq⟩ := Option.map_eq_some_iff.mp hxs
      obtain ⟨rfl, rfl⟩ := Prod.mk.inj heq
      dsimp only
      by_cases hcut : tail.length < len
      · refine .inr ⟨n, len, tail, ⟨hn, ⟨inner, htag, hlen⟩, hcut⟩, ?_, ?_⟩
        · rw [List.take_of_length_le (by omega)]
        · rw [List.drop_of_length_le (by omega)]
      · left
        simp only [readMessage, readVarint64, readVarint_append hlen, Option.map_some,
          List.take_append_of_le_length (Nat.le_of_not_lt hcut),
          List.drop_append_of_le_length (Nat.le_of_not_lt hcut)]
    · rename_i hnested
      obtain ⟨⟨v, rest'⟩, hv, heq⟩ := Option.map_eq_some_iff.mp h
      cases heq
      rw [if_neg hnested, readValue_append hv]
      exact .inl rfl

/-- Of a field with a message what there is of it is read. -/
theorem readField_cut (hn : 0 < n ∧ n < 2 ^ 29) (message : nested n = true) {len : Nat}
    {xs : List UInt8} (hlen : len < 2 ^ 32) (hxs : xs.length ≤ len) :
    readField nested (varint (8 * n + 2) ++ (varint len ++ xs)) =
      some (some ⟨n, .bytes xs⟩, []) := by
  have valid : Field.Valid ⟨n, .bytes xs⟩ := ⟨hn.1, hn.2, Nat.lt_of_le_of_lt hxs hlen⟩
  have htag : readTag (varint (8 * n + 2) ++ (varint len ++ xs)) =
      some (n, 2, varint len ++ xs) := readTag_tag valid
  simp [readField, htag, message, readMessage, readVarint64_varint (Nat.lt_trans hlen (by decide)),
    List.take_of_length_le hxs, List.drop_of_length_le hxs]

/-- The beginning of a field that ends inside its value, if that is a message. -/
theorem EndsIn.field {f : Field} (valid : f.Valid) {len : Nat} {xs more post : List UInt8}
    (ends : EndsIn nested bs n len xs) (hsplit : f.encode ++ more = bs ++ post) :
    ∃ ys, ys ≠ [] ∧ f = ⟨n, .bytes (xs ++ ys)⟩ ∧
      bs = varint f.tag ++ varint (xs ++ ys).length ++ xs := by
  obtain ⟨-, ⟨inner, htag, hlen⟩, hcut⟩ := ends
  have hwhole := readTag_append htag post
  rw [← hsplit, Field.encode, List.append_assoc, readTag_tag valid] at hwhole
  obtain ⟨rfl, hw, hinner⟩ : f.number = n ∧ f.value.wireType = 2 ∧
      f.value.encode ++ more = inner ++ post := by simpa using hwhole
  obtain ⟨n, v⟩ := f
  cases v with
  | bytes zs =>
    have hvarint : readVarint64 (inner ++ post) = some (len, xs ++ post) :=
      readVarint_append hlen post
    have hzs : zs.length < 2 ^ 64 := Nat.lt_trans valid.2.2 (by decide)
    rw [← hinner, Value.encode, List.append_assoc, readVarint64_varint hzs] at hvarint
    obtain ⟨rfl, htail⟩ := Prod.mk.inj (Option.some.inj hvarint)
    obtain ⟨ys, rfl⟩ : xs <+: zs :=
      List.prefix_of_prefix_length_le (htail ▸ List.prefix_append xs post)
        (List.prefix_append zs more) (by omega)
    have hys : ys ≠ [] := by
      rintro rfl
      simp at hcut
    rw [List.append_assoc, List.append_cancel_left_eq] at htail
    have hcat : bs ++ post =
        varint (Field.tag ⟨n, .bytes (xs ++ ys)⟩) ++ varint (xs ++ ys).length ++ xs ++ post := by
      rw [← hsplit, ← htail]
      simp [Field.encode, Value.encode]
    exact ⟨ys, hys, rfl, List.append_cancel_right hcat⟩
  | _ => simp [Value.wireType] at hw

/-- A field that has been read is valid, and not longer than it was. -/
theorem readField_eq_some {f : Option Field} (h : readField nested bs = some (f, rest)) :
    (bs.length < 2 ^ 32 → ∀ f' ∈ f, f'.Valid) ∧
      (f.toList.flatMap Field.encode).length + rest.length ≤ bs.length ∧
      rest.length < bs.length := by
  obtain ⟨⟨n, w, inner⟩, htag, h⟩ := Option.bind_eq_some_iff.mp h
  obtain ⟨hpos, hlt, hlen⟩ := readTag_eq_some htag
  have hinner := length_readTag htag
  dsimp only at h
  split at h
  · obtain ⟨rest', hskip, heq⟩ := Option.map_eq_some_iff.mp h
    cases heq
    have hshort := length_skipGroup hskip
    refine ⟨fun _ => nofun, ?_, by omega⟩
    simp only [Option.toList_none, List.flatMap_nil, List.length_nil]
    omega
  · split at h
    · rename_i hnested
      obtain ⟨rfl, -⟩ := hnested
      obtain ⟨⟨xs, rest'⟩, hxs, heq⟩ := Option.map_eq_some_iff.mp h
      cases heq
      have hmessage := readMessage_eq_some hxs
      dsimp only at hmessage ⊢
      refine ⟨?_, ?_, by omega⟩
      · rintro small f' ⟨⟩
        exact ⟨hpos, hlt, show xs.length < 2 ^ 32 by omega⟩
      · simp only [Option.toList_some, List.flatMap_singleton, Field.encode, Field.tag,
          Value.wireType, Value.encode, List.length_append]
        omega
    · obtain ⟨⟨v, rest'⟩, hv, heq⟩ := Option.map_eq_some_iff.mp h
      cases heq
      obtain ⟨rfl, valid, hvalue⟩ := readValue_eq_some hv
      dsimp only at hvalue ⊢
      refine ⟨?_, ?_, by omega⟩
      · rintro - f' ⟨⟩
        exact ⟨hpos, hlt, valid⟩
      · simp only [Option.toList_some, List.flatMap_singleton, Field.encode, Field.tag,
          List.length_append]
        omega

end Field

/-! ## Messages -/

/-- The fields of a message, in order. -/
def encode (fs : List Field) : List UInt8 := fs.flatMap Field.encode

@[simp] theorem encode_nil : encode [] = [] := rfl

@[simp] theorem encode_cons (f : Field) (fs : List Field) :
    encode (f :: fs) = f.encode ++ encode fs := List.flatMap_cons

@[simp] theorem encode_append (fs gs : List Field) :
    encode (fs ++ gs) = encode fs ++ encode gs := List.flatMap_append

def decode (nested : Nat → Bool) (bs : List UInt8) : Option (List Field) :=
  if bs = [] then some []
  else
    match hread : readField nested bs with
    | some (f, rest) =>
      have : rest.length < bs.length := (readField_eq_some hread).2.2
      (decode nested rest).map (f.toList ++ ·)
    | none => none
  termination_by bs.length

variable {nested : Nat → Bool}

@[simp] theorem decode_nil : decode nested [] = some [] := by
  rw [decode, if_pos rfl]

theorem decode_of_readField {f : Option Field} (h : readField nested bs = some (f, rest)) :
    decode nested bs = (decode nested rest).map (f.toList ++ ·) := by
  have hne : bs ≠ [] := by
    rintro rfl
    exact absurd (readField_eq_some h).2.2 (by simp)
  rw [decode, if_neg hne]
  split
  · rename_i f' rest' h'
    obtain ⟨rfl, rfl⟩ := Prod.mk.inj (Option.some.inj (h.symm.trans h'))
    rfl
  · rename_i h'
    cases h.symm.trans h'

theorem decode_eq_none (hne : bs ≠ []) (h : readField nested bs = none) :
    decode nested bs = none := by
  rw [decode, if_neg hne]
  split
  · rename_i f rest h'
    cases h.symm.trans h'
  · rfl

/-- Reading after writing. -/
theorem decode_encode_append {fs : List Field} (valid : ∀ f ∈ fs, f.Valid) (rest : List UInt8) :
    decode nested (encode fs ++ rest) = (decode nested rest).map (fs ++ ·) := by
  induction fs with
  | nil => cases h : decode nested rest <;> simp [h]
  | cons f fs ih =>
    have hread : readField nested (f.encode ++ (encode fs ++ rest)) =
        some (some f, encode fs ++ rest) := readField_encode _ (valid f List.mem_cons_self)
    have ih := ih fun f' hf' => valid f' (List.mem_cons_of_mem _ hf')
    rw [encode_cons, List.append_assoc, decode_of_readField hread, ih]
    cases decode nested rest <;> simp

theorem decode_encode {fs : List Field} (valid : ∀ f ∈ fs, f.Valid) :
    decode nested (encode fs) = some fs := by
  rw [← List.append_nil (encode fs), decode_encode_append valid, decode_nil]
  simp

/-- A message that ends inside its last field, which holds a message itself, is read. -/
theorem decode_cut {fs : List Field} (valid : ∀ f ∈ fs, f.Valid) (hn : 0 < n ∧ n < 2 ^ 29)
    (message : nested n = true) {len : Nat} {xs : List UInt8} (hlen : len < 2 ^ 32)
    (hxs : xs.length ≤ len) :
    decode nested (encode fs ++ (varint (8 * n + 2) ++ (varint len ++ xs))) =
      some (fs ++ [⟨n, .bytes xs⟩]) := by
  rw [decode_encode_append valid, decode_of_readField (readField_cut hn message hlen hxs)]
  simp

/-- What has been read is valid, and not longer than it was. -/
theorem decode_eq_some {fs : List Field} (h : decode nested bs = some fs) :
    (bs.length < 2 ^ 32 → ∀ f ∈ fs, f.Valid) ∧ (encode fs).length ≤ bs.length := by
  induction hlen : bs.length using Nat.strongRecOn generalizing bs fs with
  | ind n ih =>
    by_cases hne : bs = []
    · subst hne
      simp only [decode_nil, Option.some.injEq] at h
      subst h
      simp
    · cases hread : readField nested bs with
      | none => cases (decode_eq_none hne hread).symm.trans h
      | some p =>
        obtain ⟨f, rest⟩ := p
        obtain ⟨valid, hle, hlt⟩ := readField_eq_some hread
        rw [decode_of_readField hread] at h
        obtain ⟨gs, hgs, rfl⟩ := Option.map_eq_some_iff.mp h
        obtain ⟨hvalid, hshort⟩ := ih rest.length (by omega) hgs rfl
        constructor
        · intro small g hg
          obtain hg | hg := List.mem_append.mp hg
          · exact valid (by omega) g (Option.mem_toList.mp hg)
          · exact hvalid (by omega) g hg
        · rw [encode_append, List.length_append]
          rw [← encode] at hle
          omega

/-- A message that ends inside its last field, which holds a message itself. -/
inductive CutAt (nested : Nat → Bool) (fs : List Field) (bs : List UInt8) :
    List Field → Prop where
  | intro {gs : List Field} {n : Nat} {xs ys : List UInt8} (message : nested n = true)
      (more : ys ≠ []) (whole : gs ++ [⟨n, .bytes (xs ++ ys)⟩] <+: fs)
      (bytes : bs = encode gs ++ varint (8 * n + 2) ++ varint (xs ++ ys).length ++ xs) :
      CutAt nested fs bs (gs ++ [⟨n, .bytes xs⟩])

/-- The beginning of a message can be read only if it ends between fields, or inside a field that
holds a message. -/
theorem decode_prefix {fs gs : List Field} (valid : ∀ f ∈ fs, f.Valid) {pre post : List UInt8}
    (hsplit : encode fs = pre ++ post) (h : decode nested pre = some gs) :
    pre = encode gs ∧ gs <+: fs ∨ CutAt nested fs pre gs := by
  induction fs generalizing pre gs with
  | nil =>
    obtain ⟨rfl, -⟩ := List.append_eq_nil_iff.mp hsplit.symm
    simp only [decode_nil, Option.some.injEq] at h
    subst h
    exact .inl ⟨rfl, List.prefix_refl _⟩
  | cons f fs ih =>
    obtain ⟨hf, valid⟩ := List.forall_mem_cons.mp valid
    by_cases hne : pre = []
    · subst hne
      simp only [decode_nil, Option.some.injEq] at h
      subst h
      exact .inl ⟨rfl, List.nil_prefix⟩
    · cases hread : readField nested pre with
      | none => cases (decode_eq_none hne hread).symm.trans h
      | some p =>
        obtain ⟨f', rest⟩ := p
        rw [decode_of_readField hread] at h
        obtain ⟨gs', hgs, rfl⟩ := Option.map_eq_some_iff.mp h
        rw [encode_cons] at hsplit
        obtain hwhole | ⟨n, len, xs, ends, rfl, rfl⟩ := readField_append hread post
        · -- what was read from the beginning is what stands first in the message
          have hfirst : readField nested (f.encode ++ encode fs) = some (some f, encode fs) :=
            readField_encode _ hf
          rw [← hsplit, hfirst] at hwhole
          obtain ⟨rfl, hrest⟩ := Prod.mk.inj (Option.some.inj hwhole)
          have hcat : pre ++ post = f.encode ++ rest ++ post := by
            rw [← hsplit, hrest, List.append_assoc]
          have hpre := List.append_cancel_right hcat
          obtain ⟨hrest', hprefix⟩ | cut := ih valid hrest hgs
          · refine .inl ⟨?_, by simpa using hprefix⟩
            rw [hpre, hrest']
            simp
          · obtain ⟨message, more, whole, bytes⟩ := cut
            rw [Option.toList_some, List.singleton_append, ← List.cons_append]
            refine .inr (.intro message more ?_ ?_)
            · simpa using whole
            · rw [hpre, bytes]
              simp
        · obtain ⟨ys, more, rfl, hpre⟩ := ends.field hf hsplit
          obtain rfl : [] = gs' := by simpa using hgs
          have cut : CutAt nested (⟨n, .bytes (xs ++ ys)⟩ :: fs) pre ([] ++ [⟨n, .bytes xs⟩]) := by
            refine .intro ends.nested more ?_ ?_
            · simp
            · simpa [Field.tag, Value.wireType] using hpre
          exact .inr cut

end Wire
