import Mathlib.Data.List.Basic
import Mathlib.Tactic.Common

/-!
# Frames with a length of two bytes

On a stream every message stands behind its length, of which two bytes are written, whatever it
is. A reader takes a length, which it may refuse, and then so many bytes. It recovers the messages
up to the first that is too long for it, if there is one, as long as it can make nothing of the
beginning of that message which the two bytes of its length cut off.
-/
namespace Framing

/-- `n as u16`, the high byte first. -/
def lengthBytes (n : Nat) : List UInt8 := [UInt8.ofNat (n / 256), UInt8.ofNat n]

def frame (bs : List UInt8) : List UInt8 := lengthBytes bs.length ++ bs

/-- A reader of messages: the lengths it refuses, how it reads a message, and the error at the end
of the stream. -/
structure Decoder (α ε : Type) where
  refuses : Nat → Option ε
  parse : List UInt8 → Except ε α
  eof : ε

variable {α ε : Type} {r : Decoder α ε} {write : α → List UInt8} {bs rest : List UInt8}
  {limit pos : Nat} {m : α} {ms : List α}

namespace Decoder

/-- The next message and what is left of the stream. -/
def read (r : Decoder α ε) : List UInt8 → Except ε (α × List UInt8)
  | hi :: lo :: rest =>
    let size := 256 * hi.toNat + lo.toNat
    match r.refuses size with
    | some e => .error e
    | none =>
      if rest.length < size then .error r.eof
      else (r.parse (rest.take size)).map fun m => (m, rest.drop size)
  | _ => .error r.eof

theorem length_read (h : r.read bs = .ok (m, rest)) : rest.length < bs.length := by
  unfold read at h
  split at h
  · rename_i hi lo tail
    dsimp only at h
    split at h
    · cases h
    · split at h
      · cases h
      · cases hp : r.parse (tail.take (256 * hi.toNat + lo.toNat)) with
        | error e => simp [hp, Except.map] at h
        | ok m' =>
          simp only [hp, Except.map, Except.ok.injEq, Prod.mk.injEq] at h
          rw [← h.2]
          simp only [List.length_drop, List.length_cons]
          omega
  · cases h

theorem parse_of_read (h : r.read bs = .ok (m, rest)) :
    ∃ bs, bs.length < 65536 ∧ r.refuses bs.length = none ∧ r.parse bs = .ok m := by
  unfold read at h
  split at h
  · rename_i hi lo tail
    dsimp only at h
    split at h
    · cases h
    · rename_i hr
      split at h
      · cases h
      · rename_i hlen
        refine ⟨tail.take (256 * hi.toNat + lo.toNat), ?_, ?_, ?_⟩
        · have := hi.toNat_lt
          have := lo.toNat_lt
          rw [List.length_take]
          omega
        · rw [List.length_take_of_le (by omega), hr]
        · cases hp : r.parse (tail.take (256 * hi.toNat + lo.toNat)) with
          | error e => simp [hp, Except.map] at h
          | ok m' =>
            simp only [hp, Except.map, Except.ok.injEq, Prod.mk.injEq] at h
            rw [h.1]
  · cases h

/-- Read until there is nothing left, or something is wrong. Each result stands with the place
where its length was taken from; the stream itself begins at `pos`. -/
def readAll (r : Decoder α ε) (pos : Nat) (bs : List UInt8) : List (Nat × Except ε α) :=
  if bs = [] then []
  else
    match hread : r.read bs with
    | .ok (m, rest) =>
      have : rest.length < bs.length := length_read hread
      (pos, .ok m) :: r.readAll (pos + (bs.length - rest.length)) rest
    | .error e => [(pos, .error e)]
  termination_by bs.length

/-- The messages that are read from a stream. -/
def messages (r : Decoder α ε) (bs : List UInt8) : List α :=
  (r.readAll 0 bs).filterMap fun p => p.2.toOption

@[simp] theorem readAll_nil : r.readAll pos [] = [] := by
  rw [readAll, if_pos rfl]

theorem readAll_ok (h : r.read bs = .ok (m, rest)) :
    r.readAll pos bs = (pos, .ok m) :: r.readAll (pos + (bs.length - rest.length)) rest := by
  have hne : bs ≠ [] := by
    rintro rfl
    exact absurd (length_read h) (by simp)
  rw [readAll, if_neg hne]
  split
  · rename_i m' rest' h'
    obtain ⟨rfl, rfl⟩ := Prod.mk.inj (Except.ok.inj (h.symm.trans h'))
    rfl
  · rename_i h'
    cases h.symm.trans h'

theorem readAll_error {e : ε} (hne : bs ≠ []) (h : r.read bs = .error e) :
    r.readAll pos bs = [(pos, .error e)] := by
  rw [readAll, if_neg hne]
  split
  · rename_i h'
    cases h.symm.trans h'
  · rename_i e' h'
    obtain rfl := Except.error.inj (h.symm.trans h')
    rfl

/-- A frame is read as so many bytes of its message as the two bytes of its length say. -/
theorem read_frame (r : Decoder α ε) (bs rest : List UInt8) :
    r.read (frame bs ++ rest) =
      match r.refuses (bs.length % 65536) with
      | some e => .error e
      | none => (r.parse (bs.take (bs.length % 65536))).map fun m =>
          (m, bs.drop (bs.length % 65536) ++ rest) := by
  have hle : bs.length % 65536 ≤ bs.length := Nat.mod_le _ _
  have hsize : 256 * (bs.length / 256 % 256) + bs.length % 256 = bs.length % 65536 := by omega
  have hlt : ¬(bs ++ rest).length < bs.length % 65536 := by
    rw [List.length_append]
    omega
  simp only [frame, lengthBytes, List.cons_append, List.nil_append, read, UInt8.toNat_ofNat',
    Nat.reducePow, hsize, if_neg hlt, List.take_append_of_le_length hle,
    List.drop_append_of_le_length hle]

end Decoder

/-! ## A stream of messages -/

def stream (write : α → List UInt8) (ms : List α) : List UInt8 := ms.flatMap (frame ∘ write)

/-- What reading should give: the messages in order, each from where its frame begins, but
nothing for the first that is longer than `limit`. -/
def expected (limit : Nat) (write : α → List UInt8) : Nat → List α → List (Nat × Option α)
  | _, [] => []
  | pos, m :: ms =>
    if (write m).length ≤ limit then
      (pos, some m) :: expected limit write (pos + (2 + (write m).length)) ms
    else [(pos, none)]

/-- The first message that is too long. -/
def firstLong (limit : Nat) (write : α → List UInt8) (ms : List α) : Option α :=
  ms.find? fun m => limit < (write m).length

/-- The results without what the errors say. -/
def outcomes (results : List (Nat × Except ε α)) : List (Nat × Option α) :=
  results.map fun p => (p.1, p.2.toOption)

@[simp] theorem length_frame (bs : List UInt8) : (frame bs).length = 2 + bs.length := by
  rw [frame, List.length_append]
  rfl

theorem frame_append_ne_nil (bs rest : List UInt8) : frame bs ++ rest ≠ [] := by
  simp [frame, lengthBytes]

@[simp] theorem stream_cons (write : α → List UInt8) (m : α) (ms : List α) :
    stream write (m :: ms) = frame (write m) ++ stream write ms := List.flatMap_cons

theorem mem_firstLong (h : m ∈ firstLong limit write ms) : m ∈ ms ∧ limit < (write m).length :=
  ⟨List.mem_of_find?_eq_some h, of_decide_eq_true (List.find?_some h :)⟩

namespace Decoder

/-- Of the lengths that two bytes can hold the reader refuses just those above `limit`. -/
def Refuses (r : Decoder α ε) (limit : Nat) : Prop :=
  ∀ n < 65536, r.refuses n = none ↔ n ≤ limit

/-- A message that is not too long is read as it was written. -/
theorem read_message (refuses : r.Refuses limit) (hlimit : limit < 65536)
    (parse : r.parse (write m) = .ok m) (hm : (write m).length ≤ limit) (rest : List UInt8) :
    r.read (frame (write m) ++ rest) = .ok (m, rest) := by
  have hmod : (write m).length % 65536 = (write m).length := Nat.mod_eq_of_lt (by omega)
  rw [read_frame, hmod, (refuses _ (by omega)).mpr hm]
  simp [parse, Except.map]

/-- Of a message that is too long nothing is read if the length that was written for it is
refused, or its beginning of that length is no message. -/
theorem read_long_iff (refuses : r.Refuses limit) (bs rest : List UInt8) :
    (∃ e, r.read (frame bs ++ rest) = .error e) ↔
      limit < bs.length % 65536 ∨ ∃ e, r.parse (bs.take (bs.length % 65536)) = .error e := by
  have hmod : bs.length % 65536 < 65536 := Nat.mod_lt _ (by omega)
  rw [read_frame]
  cases hr : r.refuses (bs.length % 65536) with
  | some e =>
    have hlt : limit < bs.length % 65536 := by
      by_contra hle
      cases hr.symm.trans ((refuses _ hmod).mpr (by omega))
    exact iff_of_true ⟨e, rfl⟩ (.inl hlt)
  | none =>
    have hle := (refuses _ hmod).mp hr
    cases hp : r.parse (bs.take (bs.length % 65536)) with
    | error e => exact iff_of_true ⟨e, rfl⟩ (.inr ⟨e, rfl⟩)
    | ok m =>
      refine iff_of_false (fun ⟨e, he⟩ => nomatch he) ?_
      rintro (hlt | ⟨e, he⟩)
      · omega
      · cases he

/-- Reading a stream of messages gives what it should if and only if nothing is read of the
first one that is too long. -/
theorem outcomes_readAll_iff (refuses : r.Refuses limit) (hlimit : limit < 65536)
    (parse : ∀ m ∈ ms, (write m).length ≤ limit → r.parse (write m) = .ok m) (pos : Nat) :
    outcomes (r.readAll pos (stream write ms)) = expected limit write pos ms ↔
      ∀ m ∈ firstLong limit write ms, limit < (write m).length % 65536 ∨
        ∃ e, r.parse ((write m).take ((write m).length % 65536)) = .error e := by
  induction ms generalizing pos with
  | nil => simp [stream, outcomes, expected, firstLong]
  | cons m ms ih =>
    have ih := ih fun m' hm' => parse m' (List.mem_cons_of_mem _ hm')
    rw [stream_cons]
    by_cases hm : (write m).length ≤ limit
    · have hread := read_message refuses hlimit (parse m List.mem_cons_self hm) hm
        (stream write ms)
      have hlong : firstLong limit write (m :: ms) = firstLong limit write ms := by
        simp [firstLong, hm]
      have hlen : (frame (write m) ++ stream write ms).length - (stream write ms).length =
          2 + (write m).length := by
        rw [List.length_append, length_frame]
        omega
      rw [readAll_ok hread, hlen, hlong, expected, if_pos hm, ← ih (pos + (2 + (write m).length))]
      simp [outcomes, Except.toOption]
    · have hlong : firstLong limit write (m :: ms) = some m := by
        simp [firstLong, Nat.lt_of_not_le hm]
      simp only [hlong, Option.mem_def, Option.some.injEq, forall_eq']
      rw [← read_long_iff refuses _ (stream write ms), expected, if_neg hm]
      cases hread : r.read (frame (write m) ++ stream write ms) with
      | error e =>
        rw [readAll_error (frame_append_ne_nil _ _) hread]
        exact iff_of_true rfl ⟨e, rfl⟩
      | ok p =>
        rw [readAll_ok hread]
        exact iff_of_false (by simp [outcomes, Except.toOption]) fun ⟨e, he⟩ => nomatch he

/-- The beginning of a frame is not read before the rest has come. -/
theorem read_part {part rest : List UInt8} (hlen : bs.length < 65536)
    (hpart : part ++ rest = frame bs) (hrest : rest ≠ []) : ∃ e, r.read part = .error e := by
  cases part with
  | nil => exact ⟨_, rfl⟩
  | cons hi part =>
    cases part with
    | nil => exact ⟨_, rfl⟩
    | cons lo part =>
      simp only [frame, lengthBytes, List.cons_append, List.nil_append, List.cons.injEq] at hpart
      obtain ⟨rfl, rfl, rfl⟩ := hpart
      have hsize : 256 * ((part ++ rest).length / 256 % 256) + (part ++ rest).length % 256 =
          (part ++ rest).length := by omega
      have hpos := List.length_pos_iff.mpr hrest
      have hlt : part.length < (part ++ rest).length := by
        rw [List.length_append]
        omega
      simp only [read, UInt8.toNat_ofNat', Nat.reducePow, hsize, if_pos hlt]
      split
      · exact ⟨_, rfl⟩
      · exact ⟨_, rfl⟩

/-- From a stream of messages that are not too long, after which there may be the beginning of
one more frame, just these messages are read. -/
theorem messages_stream (refuses : r.Refuses limit) (hlimit : limit < 65536)
    (parse : ∀ m ∈ ms, (write m).length ≤ limit ∧ r.parse (write m) = .ok m)
    {part rest : List UInt8} (hlen : bs.length < 65536) (hpart : part ++ rest = frame bs)
    (hrest : rest ≠ []) : r.messages (stream write ms ++ part) = ms := by
  unfold messages
  generalize 0 = pos
  induction ms generalizing pos with
  | nil =>
    by_cases hne : part = []
    · simp [stream, hne]
    · obtain ⟨e, he⟩ := read_part (r := r) hlen hpart hrest
      rw [stream, List.flatMap_nil, List.nil_append, readAll_error hne he]
      rfl
  | cons m ms ih =>
    obtain ⟨hm, hparse⟩ := parse m List.mem_cons_self
    have ih := ih fun m' hm' => parse m' (List.mem_cons_of_mem _ hm')
    rw [stream_cons, List.append_assoc,
      readAll_ok (read_message refuses hlimit hparse hm (stream write ms ++ part))]
    exact congrArg (m :: ·) (ih _)

/-- However a stream of messages that are not too long is cut, nothing but its messages is read. -/
theorem messages_prefix (refuses : r.Refuses limit) (hlimit : limit < 65536)
    (parse : ∀ m ∈ ms, (write m).length ≤ limit ∧ r.parse (write m) = .ok m)
    (h : bs <+: stream write ms) : r.messages bs <+: ms := by
  unfold messages
  generalize 0 = pos
  induction ms generalizing pos bs with
  | nil =>
    obtain rfl := List.prefix_nil.mp h
    simp
  | cons m ms ih =>
    obtain ⟨hm, hparse⟩ := parse m List.mem_cons_self
    have hparses := fun m' hm' => parse m' (List.mem_cons_of_mem _ hm')
    rw [stream_cons] at h
    have whole : ∀ rest, rest <+: stream write ms →
        (r.readAll pos (frame (write m) ++ rest)).filterMap (fun p => p.2.toOption) <+:
          m :: ms := by
      intro rest hrest
      rw [readAll_ok (read_message refuses hlimit hparse hm rest)]
      exact (List.prefix_append_right_inj [m]).mpr (ih hparses hrest _)
    rcases List.prefix_or_prefix_of_prefix h (List.prefix_append _ _) with ⟨rest, hrest⟩ | ⟨bs, rfl⟩
    · -- the stream ends before the first frame does, or with it
      by_cases hne : rest = []
      · subst hne
        have := whole [] List.nil_prefix
        rwa [← hrest, List.append_nil, List.append_nil] at this
      · by_cases hbs : bs = []
        · simp [hbs]
        · obtain ⟨e, he⟩ := read_part (r := r) (by omega) hrest hne
          rw [readAll_error hbs he]
          exact List.nil_prefix
    · exact whole bs ((List.prefix_append_right_inj _).mp h)

/-- The messages are what is read from the bytes, and from what has arrived of these the first
ones are read. -/
structure Recovers (r : Decoder α ε) (bytes : List UInt8) (ms : List α) : Prop where
  whole : r.messages bytes = ms
  cut : ∀ bs, bs <+: bytes → r.messages bs <+: ms

theorem recovers (refuses : r.Refuses limit) (hlimit : limit < 65536)
    (parse : ∀ m ∈ ms, (write m).length ≤ limit ∧ r.parse (write m) = .ok m) :
    r.Recovers (stream write ms) ms := by
  refine ⟨?_, fun bs h => messages_prefix refuses hlimit parse h⟩
  have whole := messages_stream refuses hlimit parse (by decide) (List.nil_append (frame []))
    (by decide)
  rwa [List.append_nil] at whole

/-- The first messages are what is read from the stream up to them. -/
theorem Recovers.of_part {ms' : List α} (h : ms' <+: ms)
    (recovers : r.Recovers (stream write ms') ms') :
    ∃ bs, bs <+: stream write ms ∧ r.messages bs = ms' := by
  obtain ⟨rest, rfl⟩ := h
  refine ⟨stream write ms', ?_, recovers.whole⟩
  rw [stream, stream, List.flatMap_append]
  exact List.prefix_append _ _

end Decoder

end Framing
