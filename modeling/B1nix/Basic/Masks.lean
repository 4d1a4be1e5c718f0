import Mathlib

namespace B1nix.Masks

lemma and_bit_of_lt {x k i : Nat} (h : x < 2 ^ k) (hi : k ≤ i) : x &&& 2 ^ i = 0 := by
  have hlt : x < 2 ^ i := h.trans_le (Nat.pow_le_pow_right (by decide) hi)
  rw [Nat.and_two_pow,Nat.testBit_lt_two_pow hlt,Bool.toNat_false,zero_mul]

lemma and_not_low {x w k : Nat} (hx : x < 2 ^ w) (hk : k ≤ w) :
    x &&& (2 ^ w - 2 ^ k) = x / 2 ^ k * 2 ^ k := by
  have hpow : 2 ^ k ≤ 2 ^ w := Nat.pow_le_pow_right (by decide) hk
  have hpos := Nat.two_pow_pos k
  have hmask : 2 ^ w - 2 ^ k = 2 ^ w - ((2 ^ k - 1) + 1) := by omega
  rw [hmask,← Nat.shiftRight_eq_div_pow,← Nat.shiftLeft_eq]
  apply Nat.eq_of_testBit_eq
  intro i
  rw [Nat.testBit_and,Nat.testBit_two_pow_sub_succ (by omega)]
  by_cases hki : k ≤ i
  · by_cases hiw : i < w
    · simp [hki,hiw]
    have hlt : x < 2 ^ i := hx.trans_le (Nat.pow_le_pow_right (by decide) (le_of_not_gt hiw))
    have hout := Nat.testBit_lt_two_pow hlt
    simp [hki,hout]
  simp [lt_of_not_ge hki]

end B1nix.Masks
