import Mathlib

namespace B1nix.Tally

open Function Finset

variable {ι α : Type*} [DecidableEq ι] {s : Finset ι} {i : ι}

lemma sum_update_add (hi : i ∈ s) (f : ι → α) (b : α) (g : α → Nat) :
    ∑ k ∈ s, g (update f i b k) + g (f i) = ∑ k ∈ s, g (f k) + g b := by
  rw [← add_sum_erase s _ hi,← add_sum_erase s (fun k => g (f k)) hi,update_self]
  have hrs : ∑ k ∈ s.erase i, g (update f i b k) = ∑ k ∈ s.erase i, g (f k) := by
    refine sum_congr rfl fun k hk => ?_
    rw [update_of_ne (ne_of_mem_erase hk)]
  omega

lemma sum_update_of_notMem (hi : i ∉ s) (f : ι → α) (b : α)
    (g : α → Nat) : ∑ k ∈ s, g (update f i b k) = ∑ k ∈ s, g (f k) := by
  refine sum_congr rfl fun k hk => ?_
  rw [update_of_ne (ne_of_mem_of_not_mem hk hi)]

end B1nix.Tally
