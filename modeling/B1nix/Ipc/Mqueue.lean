import Mathlib

namespace B1nix.Mq

def efault : Int := 14
def einval : Int := 22

structure Timespec where
  tvSec : Int
  tvNsec : Int

def mqTimeoutTicks (copied : Option Timespec) (now hz : Nat) : Int :=
  match copied with
  | none => -efault
  | some ts =>
    if ts.tvSec < 0 ∨ ts.tvNsec < 0 ∨ 1000000000 ≤ ts.tvNsec then -einval
    else
      let deadline := (ts.tvSec.toNat * 1000000000 + ts.tvNsec.toNat) % 2 ^ 64
      if deadline ≤ now then 0
      else (((deadline - now) * hz + 999999999) % 2 ^ 64 / 1000000000 : Nat)

structure Covers (deadline now hz : Nat) (ticks : Int) : Prop where
  passed : ticks = 0 ↔ deadline ≤ now
  least : now < deadline → ∃ t : Nat, ticks = t ∧ (deadline - now) * hz ≤ t * 1000000000 ∧
    ∀ k, (deadline - now) * hz ≤ k * 1000000000 → t ≤ k

lemma mqTimeoutTicks_valid {sec nsec : Nat} (hnsec : nsec < 1000000000) (now hz : Nat) :
    mqTimeoutTicks (some ⟨sec,nsec⟩) now hz =
      (if (sec * 1000000000 + nsec) % 2 ^ 64 ≤ now then 0
      else (((sec * 1000000000 + nsec) % 2 ^ 64 - now) * hz + 999999999) % 2 ^ 64 / 1000000000
        : Nat) := by
  have hvl : ¬((sec : Int) < 0 ∨ (nsec : Int) < 0 ∨ 1000000000 ≤ (nsec : Int)) := by omega
  simp only [mqTimeoutTicks,if_neg hvl,Int.toNat_natCast]
  split <;> rfl

theorem timeout_ticks_exact {sec nsec now hz : Nat} (hnsec : nsec < 1000000000) (hhz : 0 < hz)
    (hnow : now < 2 ^ 64) :
    Covers (sec * 1000000000 + nsec) now hz (mqTimeoutTicks (some ⟨sec,nsec⟩) now hz) ↔
      sec * 1000000000 + nsec < 2 ^ 64 ∧
        (sec * 1000000000 + nsec - now) * hz + 999999999 < 2 ^ 64 := by
  rw [mqTimeoutTicks_valid hnsec]
  generalize sec * 1000000000 + nsec = d
  have hgrow : d - now ≤ (d - now) * hz := Nat.le_mul_of_pos_right _ hhz
  constructor
  · intro h
    have hft : d < 2 ^ 64 := by
      by_contra hbig
      obtain ⟨t,ht,hcv,-⟩ := h.least (by omega)
      split at ht <;> omega
    refine ⟨hft,?_⟩
    by_contra hbig
    have hlt : now < d := by
      by_contra hle
      rw [Nat.sub_eq_zero_of_le (le_of_not_gt hle)] at hbig
      omega
    obtain ⟨t,ht,hcv,-⟩ := h.least hlt
    rw [Nat.mod_eq_of_lt hft,if_neg hlt.not_ge] at ht
    omega
  rintro ⟨hft,hsm⟩
  simp only [Nat.mod_eq_of_lt hft]
  refine ⟨by split <;> omega,fun hlt => ⟨_,rfl,?_⟩⟩
  rw [if_neg hlt.not_ge]
  exact ⟨by omega,fun k hk => by omega⟩

theorem timeout_ticks_second :
    Covers 1700000001000000000 1700000000000000000 1000
      (mqTimeoutTicks (some ⟨1700000001,0⟩) 1700000000000000000 1000) :=
  (@timeout_ticks_exact 1700000001 0 _ _ (by decide) (by decide) (by decide)).mpr
    (by decide)

theorem timeout_ticks_wrap :
    1700000000000000000 < 18446744074 * 1000000000 ∧
      mqTimeoutTicks (some ⟨18446744074,0⟩) 1700000000000000000 1000 = 0 ∧
      mqTimeoutTicks (some ⟨1730000000,0⟩) 1700000000000000000 1000 = 11553255927 := by
  decide

end B1nix.Mq
