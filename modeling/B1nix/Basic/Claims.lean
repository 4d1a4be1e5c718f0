import Mathlib

namespace B1nix.Claims

open Function

structure Exclusive {ι α : Type} (claims : ι → List α) : Prop where
  once : ∀ i, (claims i).Nodup
  apart : ∀ i j, i ≠ j → ∀ a ∈ claims i, a ∉ claims j

variable {ι α : Type} [DecidableEq ι] {claims : ι → List α} {i : ι} {l : List α}

lemma Exclusive.assign (h : Exclusive claims) (honce : l.Nodup)
    (hapt : ∀ j, j ≠ i → ∀ a ∈ l, a ∉ claims j) : Exclusive (update claims i l) := by
  refine ⟨fun k => ?_,fun j k hjk a ha => ?_⟩
  · by_cases hk : k = i
    · rw [hk,update_self]
      exact honce
    rw [update_of_ne hk]
    exact h.once k
  obtain rfl | hj := eq_or_ne j i
  · rw [update_self] at ha
    rw [update_of_ne hjk.symm]
    exact hapt k hjk.symm a ha
  rw [update_of_ne hj] at ha
  obtain rfl | hk := eq_or_ne k i
  · rw [update_self]
    exact fun hal => hapt j hj a hal ha
  rw [update_of_ne hk]
  exact h.apart j k hjk a ha

end B1nix.Claims
