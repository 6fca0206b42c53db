import Mathlib.Data.List.Nodup
import Mathlib.Data.List.Range

/-!
# Sorting by a key, and then by place

A stable sort by a key is a sort of the list with its places, by the key first and by the place
next. No two places are equal, so that order is strict (`sortedByKey_pairwise`).
-/

namespace TimelineExport

variable {β : Type}

/-- A list with the places of its members, by a key and then by place. -/
def sortedByKey (key : β → Int) (xs : List β) : List (β × Nat) :=
  xs.zipIdx.mergeSort (List.zipIdxLE fun a b => key a ≤ key b)

/-- One member comes before another by its key, or by its place if the keys are equal. -/
def IsBefore (key : β → Int) (a b : β × Nat) : Prop :=
  key a.1 < key b.1 ∨ key a.1 = key b.1 ∧ a.2 < b.2

theorem sortedByKey_perm (key : β → Int) (xs : List β) :
    (sortedByKey key xs).Perm xs.zipIdx :=
  List.mergeSort_perm _ _

/-- Without the places, the list is sorted by the key. -/
theorem map_fst_sortedByKey (key : β → Int) (xs : List β) :
    (sortedByKey key xs).map (·.1) = xs.mergeSort fun a b => key a ≤ key b :=
  List.mergeSort_zipIdx

/-- **The order is strict.** -/
theorem sortedByKey_pairwise (key : β → Int) (xs : List β) :
    (sortedByKey key xs).Pairwise (IsBefore key) := by
  have hsorted : (sortedByKey key xs).Pairwise fun a b =>
      List.zipIdxLE (fun a b => key a ≤ key b) a b = true :=
    List.pairwise_mergeSort
      (List.zipIdxLE_trans fun a b c hab hbc => by
        simp only [decide_eq_true_eq] at hab hbc ⊢
        omega)
      (List.zipIdxLE_total fun a b => by
        simp only [Bool.or_eq_true, decide_eq_true_eq]
        omega) _
  -- no two members have the same place
  have hdistinct : (sortedByKey key xs).Pairwise fun a b => a.2 ≠ b.2 := by
    refine ((sortedByKey_perm key xs).pairwise_iff fun h => h.symm).mpr ?_
    refine List.pairwise_map.mp ?_
    rw [List.zipIdx_map_snd]
    exact List.nodup_range'
  refine (hsorted.and hdistinct).imp fun {a b} h => ?_
  obtain ⟨hle, hne⟩ := h
  simp only [List.zipIdxLE, decide_eq_true_eq] at hle
  unfold IsBefore
  split at hle
  · split at hle <;> simp at hle <;> omega
  · cases hle

end TimelineExport
