import Mathlib.Data.List.Sort

/-!
# Lists by key

A list that is sorted by a key, in which the elements of one key stand in the order in which they
have come, tells no more than which elements each key has, and in which order. It stands for a map
from keys to lists.
-/
namespace Keyed

variable {α κ ι : Type*} [LinearOrder κ] {key : α → κ} {x : α} {xs ys : List α} {k : κ}

/-- The elements are sorted by their keys. -/
def Sorted (key : α → κ) (xs : List α) : Prop := xs.Pairwise fun a b => key a ≤ key b

/-- Insert `x` as the last one of its key. -/
def insert (key : α → κ) (xs : List α) (x : α) : List α :=
  xs.orderedInsert (fun a b => key a < key b) x

/-- The elements of a key. -/
def ofKey (key : α → κ) (k : κ) (xs : List α) : List α := xs.filter fun a => key a = k

theorem insert_perm (key : α → κ) (xs : List α) (x : α) : (insert key xs x).Perm (x :: xs) :=
  List.perm_orderedInsert _ x xs

theorem mem_insert {y : α} : y ∈ insert key xs x ↔ y = x ∨ y ∈ xs := by
  rw [(insert_perm key xs x).mem_iff, List.mem_cons]

theorem sorted_insert (sorted : Sorted key xs) (x : α) : Sorted key (insert key xs x) := by
  induction xs with
  | nil => exact List.pairwise_singleton _ _
  | cons y ys ih =>
    obtain ⟨hy, hys⟩ := List.pairwise_cons.mp sorted
    rw [insert, List.orderedInsert_cons]
    split
    · rename_i hlt
      refine List.pairwise_cons.mpr ⟨?_, sorted⟩
      intro z hz
      obtain rfl | hz := List.mem_cons.mp hz
      · exact hlt.le
      · exact hlt.le.trans (hy z hz)
    · rename_i hge
      refine List.pairwise_cons.mpr ⟨?_, ih hys⟩
      intro z hz
      obtain rfl | hz := mem_insert.mp hz
      · exact not_lt.mp hge
      · exact hy z hz

theorem ofKey_insert (sorted : Sorted key xs) (x : α) (k : κ) :
    ofKey key k (insert key xs x) = ofKey key k xs ++ ofKey key k [x] := by
  induction xs with
  | nil => rfl
  | cons y ys ih =>
    obtain ⟨hy, hys⟩ := List.pairwise_cons.mp sorted
    rw [insert, List.orderedInsert_cons]
    split
    · rename_i hlt
      -- the elements from `y` on have larger keys than `x`
      have later : key x = k → ofKey key k (y :: ys) = [] := by
        rintro rfl
        refine List.filter_eq_nil_iff.mpr ?_
        intro z hz
        obtain rfl | hz := List.mem_cons.mp hz
        · simpa using hlt.ne'
        · simpa using (hlt.trans_le (hy z hz)).ne'
      by_cases hx : key x = k
      · have first : ofKey key k (x :: y :: ys) = x :: ofKey key k (y :: ys) :=
          List.filter_cons_of_pos (by simpa using hx)
        rw [first, later hx]
        simp [ofKey, hx]
      · simp [ofKey, hx]
    · have ih := ih hys
      by_cases hk : key y = k
      · simpa [ofKey, insert, hk] using ih
      · simpa [ofKey, insert, hk] using ih

theorem sorted_foldl (sorted : Sorted key xs) (ys : List α) :
    Sorted key (ys.foldl (insert key) xs) := by
  induction ys generalizing xs with
  | nil => exact sorted
  | cons y ys ih => exact ih (sorted_insert sorted y)

theorem ofKey_foldl (sorted : Sorted key xs) (ys : List α) (k : κ) :
    ofKey key k (ys.foldl (insert key) xs) = ofKey key k xs ++ ofKey key k ys := by
  induction ys generalizing xs with
  | nil => simp [ofKey]
  | cons y ys ih =>
    rw [List.foldl_cons, ih (sorted_insert sorted y), ofKey_insert sorted, List.append_assoc,
      ofKey, ofKey, ofKey, ← List.filter_append, List.singleton_append, ofKey]

theorem foldl_perm (key : α → κ) (ys xs : List α) :
    (ys.foldl (insert key) xs).Perm (ys ++ xs) := by
  induction ys generalizing xs with
  | nil => exact .refl _
  | cons y ys ih =>
    have inserted := (insert_perm key xs y).append_left ys
    exact ((ih (insert key xs y)).trans inserted).trans List.perm_middle

/-- Sorted lists with the same elements of each key are equal. -/
theorem Sorted.ext (hxs : Sorted key xs) (hys : Sorted key ys)
    (same : ∀ k, ofKey key k xs = ofKey key k ys) : xs = ys := by
  have mem : ∀ x, x ∈ xs ↔ x ∈ ys := by
    intro x
    have := congrArg (x ∈ ·) (same (key x))
    simpa [ofKey] using this
  induction xs generalizing ys with
  | nil => exact (List.eq_nil_iff_forall_not_mem.mpr fun y hy => by simpa using (mem y).mpr hy).symm
  | cons x xs ih =>
    cases ys with
    | nil => simpa using (mem x).mp
    | cons y ys =>
      obtain ⟨hx, hxs'⟩ := List.pairwise_cons.mp hxs
      obtain ⟨hy, hys'⟩ := List.pairwise_cons.mp hys
      -- either head is the least of both lists
      have hle : key y ≤ key x := by
        obtain rfl | h := List.mem_cons.mp ((mem x).mp List.mem_cons_self)
        · exact le_refl _
        · exact hy x h
      have hge : key x ≤ key y := by
        obtain rfl | h := List.mem_cons.mp ((mem y).mpr List.mem_cons_self)
        · exact le_refl _
        · exact hx y h
      have hkey : key y = key x := le_antisymm hle hge
      obtain ⟨rfl, -⟩ : x = y ∧ _ := by simpa [ofKey, hkey] using same (key x)
      have rest : ∀ k, ofKey key k xs = ofKey key k ys := by
        intro k
        have := same k
        by_cases hk : key x = k
        · simpa [ofKey, hk] using this
        · simpa [ofKey, hk] using this
      refine congrArg (x :: ·) (ih hxs' hys' rest fun z => ?_)
      have := congrArg (z ∈ ·) (rest (key z))
      simpa [ofKey] using this

/-- Inserting elements gives the same list in any order that keeps the order of the elements of each
key. -/
theorem foldl_congr (same : ∀ k, ofKey key k xs = ofKey key k ys) :
    xs.foldl (insert key) [] = ys.foldl (insert key) [] := by
  have empty : Sorted key [] := List.Pairwise.nil
  refine (sorted_foldl empty xs).ext (sorted_foldl empty ys) fun k => ?_
  rw [ofKey_foldl empty, ofKey_foldl empty, same k]

/-- Inserting the elements of a sorted list gives the list again. -/
theorem Sorted.foldl_insert (sorted : Sorted key xs) : xs.foldl (insert key) [] = xs := by
  have empty : Sorted key [] := List.Pairwise.nil
  refine (sorted_foldl empty xs).ext sorted fun k => ?_
  rw [ofKey_foldl empty]
  rfl

/-! ## Groups of keys -/

/-- The elements by group, the groups in the given order. -/
def byGroup [DecidableEq ι] (group : α → ι) (order : List ι) (xs : List α) : List α :=
  order.flatMap fun n => xs.filter fun a => group a = n

theorem flatMap_ite [DecidableEq ι] {order : List ι} (nodup : order.Nodup) {n : ι} (h : n ∈ order)
    (xs : List α) : (order.flatMap fun m => if m = n then xs else []) = xs := by
  induction order with
  | nil => cases h
  | cons m order ih =>
    obtain ⟨hm, nodup⟩ := List.nodup_cons.mp nodup
    rw [List.flatMap_cons]
    obtain rfl | h := List.mem_cons.mp h
    · have others : (order.flatMap fun l => if l = n then xs else []) = [] := by
        refine List.flatMap_eq_nil_iff.mpr fun l hl => if_neg ?_
        rintro rfl
        exact hm hl
      rw [if_pos rfl, others, List.append_nil]
    · have hne : m ≠ n := by
        rintro rfl
        exact hm h
      rw [if_neg hne, ih nodup h, List.nil_append]

/-- The elements of one key are of one group, and stay in order. -/
theorem ofKey_byGroup [DecidableEq ι] {group : α → ι}
    (determined : ∀ a b, key a = key b → group a = group b) {order : List ι}
    (nodup : order.Nodup) (complete : ∀ x ∈ xs, group x ∈ order) (k : κ) :
    ofKey key k (byGroup group order xs) = ofKey key k xs := by
  rw [ofKey, byGroup, List.filter_flatMap]
  cases hof : ofKey key k xs with
  | nil =>
    rw [List.flatMap_eq_nil_iff]
    intro n _
    rw [List.filter_filter, List.filter_eq_nil_iff]
    intro x hx
    have := List.filter_eq_nil_iff.mp hof x hx
    simp_all
  | cons x₀ rest =>
    obtain ⟨hmem, hkey⟩ := List.mem_filter.mp (hof ▸ List.mem_cons_self : x₀ ∈ ofKey key k xs)
    have hkey : key x₀ = k := by simpa using hkey
    rw [← hof]
    refine Eq.trans ?_ (flatMap_ite nodup (complete x₀ hmem) _)
    refine List.flatMap_congr fun n _ => ?_
    rw [List.filter_filter]
    split
    · rename_i hn
      refine List.filter_congr fun x _ => ?_
      have := determined x x₀
      grind
    · rename_i hn
      refine List.filter_eq_nil_iff.mpr fun x _ => ?_
      have := determined x x₀
      grind

theorem byGroup_perm [DecidableEq ι] {group : α → ι}
    (determined : ∀ a b, key a = key b → group a = group b) {order : List ι}
    (nodup : order.Nodup) (complete : ∀ x ∈ xs, group x ∈ order) :
    (byGroup group order xs).Perm xs := by
  have grouped := foldl_perm key (byGroup group order xs) []
  have folded := foldl_perm key xs []
  rw [List.append_nil] at grouped folded
  rw [foldl_congr (ofKey_byGroup determined nodup complete)] at grouped
  exact grouped.symm.trans folded

end Keyed
