import Mathlib.Data.List.Induction
import Mathlib.Tactic.Common

/-!
# The latest write in a history

A cell is described by the history of events, oldest first: `Writes past e v` says that the
event `e`, after the events `past`, writes `v` into it, and `Ends e v` that `e` clears a cell
that holds `v`. What the cell holds in the end is the latest value written, provided that
some write is followed by no event that clears it.
-/
namespace History

variable {ε ν : Type*} {Writes Writes' : List ε → ε → ν → Prop} {Ends : ε → ν → Prop}
  {hist : List ε} {e : ε} {v : ν}

/-- The last event that writes writes `v`. -/
def Latest (Writes : List ε → ε → ν → Prop) (hist : List ε) (v : ν) : Prop :=
  ∃ p e q, hist = p ++ e :: q ∧ Writes p e v ∧
    ∀ p' e' q', q = p' ++ e' :: q' → ∀ w, ¬Writes (p ++ e :: p') e' w

/-- Some write is followed by no event that clears `v`. -/
def Kept (Writes : List ε → ε → ν → Prop) (Ends : ε → ν → Prop) (hist : List ε) (v : ν) : Prop :=
  ∃ p e q, hist = p ++ e :: q ∧ (∃ w, Writes p e w) ∧ ∀ e' ∈ q, ¬Ends e' v

/-- The cell holds `v` after the history. -/
def Holds (Writes : List ε → ε → ν → Prop) (Ends : ε → ν → Prop) (hist : List ε) (v : ν) : Prop :=
  Latest Writes hist v ∧ Kept Writes Ends hist v

theorem not_latest_nil : ¬Latest Writes [] v := by
  rintro ⟨p, e, q, h, -⟩
  simp at h

/-- A split of a history is a split before its last event, or at it. -/
theorem concat_eq_append_cons {l p q : List ε} {a b : ε} (h : l ++ [a] = p ++ b :: q) :
    (q = [] ∧ l = p ∧ a = b) ∨ ∃ q', q = q' ++ [a] ∧ l = p ++ b :: q' := by
  rcases List.eq_nil_or_concat q with rfl | ⟨q', c, rfl⟩
  · obtain ⟨hl, hab⟩ := List.append_inj' h rfl
    exact .inl ⟨rfl, hl, (List.cons.inj hab).1⟩
  · have h : l ++ [a] = (p ++ b :: q') ++ [c] := by simpa using h
    obtain ⟨hl, hac⟩ := List.append_inj' h rfl
    exact .inr ⟨q', by simp [(List.cons.inj hac).1], hl⟩

theorem latest_concat : Latest Writes (hist ++ [e]) v ↔
    Writes hist e v ∨ (∀ w, ¬Writes hist e w) ∧ Latest Writes hist v := by
  constructor
  · rintro ⟨p, b, q, h, writes, last⟩
    rcases concat_eq_append_cons h with ⟨rfl, rfl, rfl⟩ | ⟨q, rfl, rfl⟩
    · exact .inl writes
    · exact .inr ⟨last q e [] rfl, p, b, q, rfl, writes,
        fun p' e' q' hq => last p' e' (q' ++ [e]) (by simp [hq])⟩
  · rintro (writes | ⟨none, p, b, q, rfl, writes, last⟩)
    · exact ⟨hist, e, [], rfl, writes, fun p' e' q' h => by simp at h⟩
    · refine ⟨p, b, q ++ [e], by simp, writes, fun p' e' q' h => ?_⟩
      rcases concat_eq_append_cons h with ⟨-, rfl, rfl⟩ | ⟨q'', -, hq⟩
      · exact none
      · exact last p' e' q'' hq

/-- Where an event writes one value at most there is one latest value at most. -/
theorem Latest.unique {w : ν} (functional : ∀ p e v w, Writes p e v → Writes p e w → v = w)
    (hv : Latest Writes hist v) (hw : Latest Writes hist w) : v = w := by
  induction hist using List.reverseRecOn with
  | nil => exact absurd hv not_latest_nil
  | append_singleton hist e ih =>
    rcases latest_concat.mp hv with hv | ⟨none, hv⟩ <;>
      rcases latest_concat.mp hw with hw | ⟨none', hw⟩
    · exact functional hist e v w hv hw
    · exact absurd hv (none' v)
    · exact absurd hw (none w)
    · exact ih hv hw

theorem kept_concat : Kept Writes Ends (hist ++ [e]) v ↔
    (∃ w, Writes hist e w) ∨ ¬Ends e v ∧ Kept Writes Ends hist v := by
  constructor
  · rintro ⟨p, b, q, h, writes, kept⟩
    rcases concat_eq_append_cons h with ⟨rfl, rfl, rfl⟩ | ⟨q, rfl, rfl⟩
    · exact .inl writes
    · exact .inr ⟨kept e (by simp), p, b, q, rfl, writes, fun e' he' => kept e' (by simp [he'])⟩
  · rintro (writes | ⟨spared, p, b, q, rfl, writes, kept⟩)
    · exact ⟨hist, e, [], rfl, writes, by simp⟩
    · refine ⟨p, b, q ++ [e], by simp, writes, fun e' he' => ?_⟩
      rcases List.mem_append.mp he' with he' | he'
      · exact kept e' he'
      · exact List.mem_singleton.mp he' ▸ spared

/-- One more event writes the cell, or leaves alone what it held, or clears it. -/
theorem holds_concat : Holds Writes Ends (hist ++ [e]) v ↔
    Writes hist e v ∨ (∀ w, ¬Writes hist e w) ∧ ¬Ends e v ∧ Holds Writes Ends hist v := by
  unfold Holds
  rw [latest_concat, kept_concat]
  constructor
  · rintro ⟨writes | ⟨none, latest⟩, ⟨w, hw⟩ | ⟨spared, kept⟩⟩
    · exact .inl writes
    · exact .inl writes
    · exact absurd hw (none w)
    · exact .inr ⟨none, spared, latest, kept⟩
  · rintro (writes | ⟨none, spared, latest, kept⟩)
    · exact ⟨.inl writes, .inl ⟨v, writes⟩⟩
    · exact ⟨.inr ⟨none, latest⟩, .inr ⟨spared, kept⟩⟩

/-- Only the writes at proper prefixes of the history matter. -/
theorem Holds.congr (h : ∀ p e v, p.length < hist.length → (Writes p e v ↔ Writes' p e v)) :
    Holds Writes Ends hist v ↔ Holds Writes' Ends hist v := by
  induction hist using List.reverseRecOn with
  | nil => exact iff_of_false (fun h => not_latest_nil h.1) fun h => not_latest_nil h.1
  | append_singleton hist e ih =>
    have hlast : ∀ v, Writes hist e v ↔ Writes' hist e v := fun v => h hist e v (by simp)
    have ih := ih fun p e v hp => h p e v (by simp; omega)
    simp only [holds_concat, hlast, ih]

end History
