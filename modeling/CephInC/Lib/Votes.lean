/-
Votes: pairs of a voter and what the vote is for.

`backers` lists the voters of one choice. If no vote is cast twice it has
no voter twice, so that it can be compared with a list of all voters.
-/
import Mathlib.Data.List.Nodup
import Mathlib.Data.List.Perm.Subperm

namespace CephInC.Lib

variable {ι κ : Type} [DecidableEq κ]

def backers (votes : List (ι × κ)) (k : κ) : List ι :=
  (votes.filter fun v => v.2 = k).map Prod.fst

theorem mem_backers {votes : List (ι × κ)} {i : ι} {k : κ} :
    i ∈ backers votes k ↔ (i, k) ∈ votes := by
  unfold backers
  constructor
  · intro h
    obtain ⟨⟨i', k'⟩, hv, rfl⟩ := List.mem_map.mp h
    obtain ⟨hmem, hk⟩ := List.mem_filter.mp hv
    obtain rfl : k' = k := of_decide_eq_true hk
    exact hmem
  · intro h
    exact List.mem_map.mpr ⟨(i, k), List.mem_filter.mpr ⟨h, decide_eq_true rfl⟩, rfl⟩

theorem nodup_backers {votes : List (ι × κ)} (h : votes.Nodup) (k : κ) :
    (backers votes k).Nodup := by
  apply (h.filter _).map_on
  rintro ⟨i, k₁⟩ hv ⟨i', k₂⟩ hv' rfl
  obtain rfl : k₁ = k := of_decide_eq_true (List.mem_filter.mp hv).2
  obtain rfl : k₂ = k₁ := of_decide_eq_true (List.mem_filter.mp hv').2
  rfl

theorem backers_cons_self (votes : List (ι × κ)) (i : ι) (k : κ) :
    backers ((i, k) :: votes) k = i :: backers votes k := by
  unfold backers
  have hk : decide ((i, k).2 = k) = true := decide_eq_true rfl
  rw [List.filter_cons, if_pos hk]
  rfl

/-- One more vote takes no backer away. -/
theorem length_backers_cons (votes : List (ι × κ)) (v : ι × κ) (k : κ) :
    (backers votes k).length ≤ (backers (v :: votes) k).length := by
  unfold backers
  rw [List.length_map, List.length_map]
  exact ((List.sublist_cons_self v votes).filter _).length_le

/-- There are no more backers than voters. -/
theorem length_backers_le {votes : List (ι × κ)} {voters : List ι} (h : votes.Nodup)
    (hvoters : ∀ v ∈ votes, v.1 ∈ voters) (k : κ) :
    (backers votes k).length ≤ voters.length := by
  have hsub : backers votes k ⊆ voters := fun i hi => hvoters (i, k) (mem_backers.mp hi)
  exact ((nodup_backers h k).subperm hsub).length_le

end CephInC.Lib
