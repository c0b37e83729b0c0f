import Mathlib.Algebra.Order.Group.Basic
import Mathlib.Data.List.Chain
import Mathlib.Tactic.Common

/-!
# Heartbeats over a lossy channel

One party sends beats, no two further apart than a gap; a beat arrives or is lost within a
delay. If no more than `m` beats in a row are lost, the latest one to arrive was sent at most
`m + 1` gaps and the delay ago.
-/
namespace Heartbeat

inductive Fate where
  | flying
  | arrived
  | lost
  deriving DecidableEq, Repr

/-- A beat, sent at a time. -/
structure Beat (T : Type*) where
  sentAt : T
  fate : Fate
  deriving DecidableEq, Repr

variable {T : Type*}

/-- No more than `m` beats in a row are lost. -/
def FewLost (m : Nat) (beats : List (Beat T)) : Prop :=
  ∀ row, row <:+: beats → (∀ b ∈ row, b.fate = .lost) → row.length ≤ m

theorem FewLost.of_infix {m : Nat} {beats part : List (Beat T)} (few : FewLost m beats)
    (h : part <:+: beats) : FewLost m part :=
  fun row hrow lost => few row (hrow.trans h) lost

/-- No more than `m` beats in a row are lost where no more than `m` are lost at all. -/
theorem fewLost_of_count {m : Nat} {beats : List (Beat T)}
    (h : beats.countP (·.fate = .lost) ≤ m) : FewLost m beats := by
  intro row hrow lost
  have all : row.countP (·.fate = .lost) = row.length :=
    List.countP_eq_length.mpr fun b hb => decide_eq_true (lost b hb)
  rw [← all]
  exact hrow.sublist.countP_le.trans h

/-- A beat is decided: it arrives, or is lost. -/
def decideAt (beats : List (Beat T)) (k : Nat) (fate : Fate) : List (Beat T) :=
  beats.modify k fun b => { b with fate := fate }

/-- The times at which the beats are sent. -/
def times (beats : List (Beat T)) : List T := beats.map Beat.sentAt

@[simp] theorem times_decideAt (beats : List (Beat T)) (k : Nat) (fate : Fate) :
    times (decideAt beats k fate) = times beats := by
  refine List.ext_getElem? fun i => ?_
  simp only [times, decideAt, List.getElem?_map, List.getElem?_modify]
  cases beats[i]? with
  | none => rfl
  | some b => by_cases hi : k = i <;> simp [hi]

theorem mem_times {beats : List (Beat T)} {b : Beat T} (h : b ∈ beats) : b.sentAt ∈ times beats :=
  List.mem_map_of_mem h

/-- A beat that has a fate has it from before, or it is the one decided. -/
theorem mem_decideAt {beats : List (Beat T)} {k : Nat} {fate : Fate} {b : Beat T}
    (h : b ∈ decideAt beats k fate) :
    b ∈ beats ∨ ∃ b', beats[k]? = some b' ∧ b = { b' with fate := fate } := by
  obtain ⟨i, hi⟩ := List.mem_iff_getElem?.mp h
  rw [decideAt, List.getElem?_modify] at hi
  obtain ⟨b', hb', heq⟩ := Option.map_eq_some_iff.mp hi
  by_cases hk : k = i
  · subst hk
    exact .inr ⟨b', hb', by simpa using heq.symm⟩
  · obtain rfl : b' = b := by simpa [hk] using heq
    exact .inl (List.mem_of_getElem? hb')

theorem decided_mem {beats : List (Beat T)} {k : Nat} {b : Beat T} (hk : beats[k]? = some b)
    (fate : Fate) : { b with fate := fate } ∈ decideAt beats k fate :=
  List.mem_iff_getElem?.mpr ⟨k, by simp [decideAt, hk]⟩

/-- A beat whose fate is not decided stays. -/
theorem mem_decideAt_of_ne {beats : List (Beat T)} {k : Nat} {fate : Fate} {b b' : Beat T}
    (hk : beats[k]? = some b') (hb : b ∈ beats) (hne : b ≠ b') : b ∈ decideAt beats k fate := by
  obtain ⟨i, hi⟩ := List.mem_iff_getElem?.mp hb
  have hki : k ≠ i := by
    rintro rfl
    exact hne (Option.some.inj (hi.symm.trans hk))
  refine List.mem_iff_getElem?.mpr ⟨i, ?_⟩
  simp [decideAt, List.getElem?_modify_ne _ _ hki, hi]

section Paced

variable [AddCommGroup T] [LinearOrder T]

/-- Beats, the latest first, that are at most `gap` apart. -/
def Paced (gap : T) (beats : List (Beat T)) : Prop :=
  List.IsChain (fun later earlier => later.sentAt ≤ earlier.sentAt + gap) beats

theorem paced_iff_times {gap : T} {beats : List (Beat T)} :
    Paced gap beats ↔ (times beats).IsChain fun later earlier => later ≤ earlier + gap := by
  rw [times, List.isChain_map, Paced]

@[simp] theorem paced_decideAt {gap : T} {beats : List (Beat T)} {k : Nat} {fate : Fate} :
    Paced gap (decideAt beats k fate) ↔ Paced gap beats := by
  rw [paced_iff_times, paced_iff_times, times_decideAt]

theorem paced_cons {gap : T} {b : Beat T} {beats : List (Beat T)} :
    Paced gap (b :: beats) ↔ (∀ t ∈ (times beats).head?, b.sentAt ≤ t + gap) ∧ Paced gap beats := by
  rw [paced_iff_times, paced_iff_times]
  exact List.isChain_cons

/-- No beat is undecided for longer than `delay`. -/
def Prompt (delay now : T) (beats : List (Beat T)) : Prop :=
  ∀ b ∈ beats, b.fate = .flying → now ≤ b.sentAt + delay

end Paced

variable [AddCommGroup T] [LinearOrder T] [IsOrderedAddMonoid T]

/-- The same, with beats `row` lost after `beats`, and as many gaps since then. -/
theorem exists_arrived_of_row {gap delay now : T} {m : Nat} (row : List (Beat T))
    {beats : List (Beat T)} (paced : Paced gap beats) (prompt : Prompt delay now beats)
    (hgap : 0 ≤ gap) (few : FewLost m (row ++ beats)) (lost : ∀ b ∈ row, b.fate = .lost)
    (recent : ∀ b ∈ beats.head?, now ≤ b.sentAt + (row.length + 1) • gap + delay)
    (arrived : ∃ b ∈ beats, b.fate = .arrived) :
    ∃ b ∈ beats, b.fate = .arrived ∧ now ≤ b.sentAt + (m + 1) • gap + delay := by
  induction beats generalizing row with
  | nil => simp at arrived
  | cons b beats ih =>
    have recent := recent b (by simp)
    obtain ⟨next, paced⟩ := List.isChain_cons.mp paced
    have prompt' : Prompt delay now beats := fun b' hb' => prompt b' (List.mem_cons_of_mem _ hb')
    cases hfate : b.fate with
    | arrived =>
      have short : row.length ≤ m := few row (List.prefix_append _ _).isInfix lost
      have hle := nsmul_le_nsmul_left hgap (Nat.succ_le_succ short)
      have hsum := add_le_add (add_le_add (le_refl b.sentAt) hle) (le_refl delay)
      exact ⟨b, List.mem_cons_self, hfate, recent.trans hsum⟩
    | lost =>
      have arrived : ∃ b ∈ beats, b.fate = .arrived := by simpa [hfate] using arrived
      have few' : FewLost m ((row ++ [b]) ++ beats) := by simpa using few
      have lost' : ∀ b' ∈ row ++ [b], b'.fate = .lost := by
        simpa [or_imp, forall_and, hfate] using lost
      have recent' : ∀ b' ∈ beats.head?,
          now ≤ b'.sentAt + ((row ++ [b]).length + 1) • gap + delay := by
        intro b' hb'
        calc now ≤ b.sentAt + (row.length + 1) • gap + delay := recent
          _ ≤ b'.sentAt + gap + (row.length + 1) • gap + delay := by
            gcongr
            exact next b' hb'
          _ = b'.sentAt + ((row ++ [b]).length + 1) • gap + delay := by
            rw [List.length_append, List.length_singleton, succ_nsmul' gap (row.length + 1),
              add_assoc b'.sentAt]
      obtain ⟨a, hmem, ha⟩ := ih (row ++ [b]) paced prompt' few' lost' recent' arrived
      exact ⟨a, List.mem_cons_of_mem _ hmem, ha⟩
    | flying =>
      have arrived : ∃ b ∈ beats, b.fate = .arrived := by simpa [hfate] using arrived
      have few' : FewLost m ([] ++ beats) := few.of_infix ⟨row ++ [b], [], by simp⟩
      have recent' : ∀ b' ∈ beats.head?, now ≤ b'.sentAt + 1 • gap + delay := by
        intro b' hb'
        calc now ≤ b.sentAt + delay := prompt b List.mem_cons_self hfate
          _ ≤ b'.sentAt + gap + delay := by
            gcongr
            exact next b' hb'
          _ = b'.sentAt + 1 • gap + delay := by rw [one_nsmul]
      obtain ⟨a, hmem, ha⟩ := ih [] paced prompt' few' (by simp) recent' arrived
      exact ⟨a, List.mem_cons_of_mem _ hmem, ha⟩

/-- The latest beat to arrive is not old. -/
theorem exists_arrived {gap delay now : T} {m : Nat} {beats : List (Beat T)}
    (paced : Paced gap beats) (prompt : Prompt delay now beats) (hgap : 0 ≤ gap)
    (hdelay : 0 ≤ delay) (few : FewLost m beats)
    (recent : ∀ t ∈ (times beats).head?, now ≤ t + gap)
    (arrived : ∃ b ∈ beats, b.fate = .arrived) :
    ∃ b ∈ beats, b.fate = .arrived ∧ now ≤ b.sentAt + (m + 1) • gap + delay := by
  refine exists_arrived_of_row [] paced prompt hgap few (by simp) (fun b hb => ?_) arrived
  have hb' : b.sentAt ∈ (times beats).head? := by simp [times, Option.mem_def.mp hb]
  calc now ≤ b.sentAt + gap := recent _ hb'
    _ = b.sentAt + 1 • gap := by rw [one_nsmul]
    _ ≤ b.sentAt + 1 • gap + delay := le_add_of_nonneg_right hdelay

end Heartbeat
