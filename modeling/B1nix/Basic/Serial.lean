import Mathlib

namespace B1nix.Serial

open Nat List

variable {w k : Nat}

def gap (a b : BitVec w) : Int := (a - b).toInt

def mark (base : BitVec w) (n : Nat) : BitVec w := base + BitVec.ofNat w n

variable (base : BitVec w) {m n : Nat}

@[simp] lemma mark_zero : mark base 0 = base := by
  simp [mark]

lemma mark_add (n k : Nat) : mark base n + BitVec.ofNat w k = mark base (n + k) := by
  rw [mark,mark,BitVec.add_assoc,BitVec.ofNat_add]

lemma mark_sub (h : n ≤ m) : mark base m - mark base n = BitVec.ofNat w (m - n) := by
  obtain ⟨k,rfl⟩ := Nat.exists_eq_add_of_le h
  rw [← mark_add,BitVec.add_comm,BitVec.add_sub_cancel,Nat.add_sub_cancel_left]

lemma toInt_ofNat (h : 2 * k < 2 ^ w) : (BitVec.ofNat w k).toInt = k := by
  rw [BitVec.toInt_eq_toNat_of_lt,BitVec.toNat_ofNat,mod_eq_of_lt (by omega)]
  rw [BitVec.toNat_ofNat,mod_eq_of_lt (by omega)]
  exact h

lemma gap_mark (hm : 2 * m < 2 * n + 2 ^ w) (hn : 2 * n < 2 * m + 2 ^ w) :
    gap (mark base m) (mark base n) = (m : Int) - n := by
  obtain h | h := le_total n m
  · rw [gap,mark_sub base h,toInt_ofNat (by omega),cast_sub h]
  have hneg : mark base m - mark base n = -BitVec.ofNat w (n - m) := by rw [← mark_sub base h,neg_sub]
  rw [gap,hneg,BitVec.toInt_neg,toInt_ofNat (by omega)]
  exact (Int.bmod_eq_of_le_mul_two (by omega) (by omega)).trans (by omega)

lemma eq_of_mark_eq (h : n ≤ m) (hm : m < n + 2 ^ w) (heq : mark base m = mark base n) : m = n := by
  have hze : BitVec.ofNat w (m - n) = 0 := by rw [← mark_sub base h,heq,sub_self]
  have hnat := congrArg BitVec.toNat hze
  rw [BitVec.toNat_ofNat,mod_eq_of_lt (by omega)] at hnat
  have : m - n = 0 := hnat.trans (by simp)
  omega

lemma mark_inj (hm : m < n + 2 ^ w) (hn : n < m + 2 ^ w) : mark base m = mark base n ↔ m = n := by
  refine ⟨fun h => ?_,fun h => h ▸ rfl⟩
  obtain hle | hle := le_total n m
  · exact eq_of_mark_eq base hle hm h
  exact (eq_of_mark_eq base hle hn h.symm).symm

lemma toNat_sub_pos {a b : BitVec w} : 0 < (a - b).toNat ↔ b ≠ a := by
  constructor
  · rintro hpos rfl
    rw [BitVec.sub_self] at hpos
    cases lt_irrefl 0 hpos
  intro hne
  refine pos_of_ne_zero fun hze => hne ?_
  exact (sub_eq_zero.mp (BitVec.eq_of_toNat_eq (hze.trans BitVec.toNat_zero.symm))).symm

def Abut : BitVec w → List (BitVec w × Nat) → BitVec w → Prop
  | a, [], b => a = b
  | a, x :: xs, b => x.1 = a ∧ 0 < x.2 ∧ Abut (a + BitVec.ofNat w x.2) xs b

def total (xs : List (BitVec w × Nat)) : Nat := (xs.map (·.2)).sum

def Holds (x : BitVec w × Nat) (a : BitVec w) : Prop := (a - x.1).toNat < x.2

variable {base} {a b c x : BitVec w} {xs : List (BitVec w × Nat)}

section

variable (h : Abut a xs b)

include h

lemma Abut.concat {n : Nat} (hn : 0 < n) :
    Abut a (xs ++ [(b, n)]) (b + BitVec.ofNat w n) := by
  induction xs generalizing a with
  | nil => exact ⟨h.symm,hn,by rw [show a = b from h]; rfl⟩
  | cons _ _ ih => exact ⟨h.1,h.2.1,ih h.2.2⟩

lemma Abut.stop : b = mark a (total xs) := by
  induction xs generalizing a with
  | nil => exact (show a = b from h) ▸ (mark_zero a).symm
  | cons _ _ ih =>
    rw [ih h.2.2,mark,BitVec.add_assoc,← BitVec.ofNat_add]
    rfl

lemma Abut.length_eq (hfit : total xs < 2 ^ w) : (b - a).toNat = total xs := by
  rw [h.stop,mark,BitVec.add_comm,BitVec.add_sub_cancel,BitVec.toNat_ofNat,mod_eq_of_lt hfit]

lemma Abut.dropWhile (hc : c = b ∨ ∃ x ∈ xs, x.1 = c) :
    Abut c (xs.dropWhile fun x => x.1 ≠ c) b := by
  induction xs generalizing a with
  | nil =>
    obtain rfl | ⟨x,hx,-⟩ := hc
    · rfl
    cases hx
  | cons x _ ih =>
    by_cases hx : x.1 = c
    · rw [dropWhile_cons_of_neg (by simpa using hx)]
      exact ⟨hx,h.2.1,hx ▸ h.1 ▸ h.2.2⟩
    rw [dropWhile_cons_of_pos (by simpa using hx)]
    refine ih h.2.2 (hc.imp_right ?_)
    rintro ⟨y,hy,hyc⟩
    obtain rfl | hy := mem_cons.mp hy
    · cases hx hyc
    exact ⟨y,hy,hyc⟩

omit h in
lemma Abut.places {n : Nat} (h : Abut (mark base n) xs b) :
    ∀ x ∈ xs, ∃ k, x.1 = mark base k ∧ n ≤ k ∧ k + x.2 ≤ n + total xs := by
  induction xs generalizing n with
  | nil => simp
  | cons y ys ih =>
    have hys := h.2.2
    rw [mark_add] at hys
    have htot : total (y :: ys) = y.2 + total ys := rfl
    intro x hx
    obtain rfl | hx := mem_cons.mp hx
    · exact ⟨n,h.1,le_rfl,by omega⟩
    obtain ⟨k,hk,hle,hend⟩ := ih hys x hx
    exact ⟨k,hk,by omega,by omega⟩

omit h in
lemma toNat_mark_sub (hk : k < 2 ^ w) : (mark a k - a).toNat = k := by
  rw [mark,BitVec.add_comm,BitVec.add_sub_cancel,BitVec.toNat_ofNat,mod_eq_of_lt hk]

omit h in
lemma Abut.ordered {n : Nat} (h : Abut (mark base n) xs b) (hfit : n + total xs < 2 ^ w) :
    xs.Pairwise fun x y => (x.1 - base).toNat + x.2 ≤ (y.1 - base).toNat := by
  induction xs generalizing n with
  | nil => exact List.Pairwise.nil
  | cons x xs ih =>
    have hxs := h.2.2
    rw [mark_add] at hxs
    have htot : total (x :: xs) = x.2 + total xs := rfl
    refine pairwise_cons.mpr ⟨fun y hy => ?_,ih hxs (by omega)⟩
    obtain ⟨k,hk,hle,hend⟩ := hxs.places y hy
    rw [h.1,hk,toNat_mark_sub (by omega),toNat_mark_sub (by omega)]
    exact hle

omit h in
lemma holds_mark {i n : Nat} (hn : i - k + n < 2 ^ w) (hk : k - i < 2 ^ w) :
    Holds (mark base i, n) (mark base k) ↔ i ≤ k ∧ k < i + n := by
  rw [Holds]
  obtain h | h := lt_or_ge k i
  · have hba : mark base k - mark base i = -BitVec.ofNat w (i - k) := by
      rw [← mark_sub base h.le,neg_sub]
    have hsm : (i - k) % 2 ^ w = i - k := mod_eq_of_lt (by omega)
    rw [hba,BitVec.toNat_neg,BitVec.toNat_ofNat,mod_eq_of_lt (by omega)]
    omega
  rw [mark_sub base h,BitVec.toNat_ofNat,mod_eq_of_lt (by omega)]
  omega

omit h in
lemma Abut.covers {n : Nat} (h : Abut (mark base n) xs b) (hn : n ≤ k)
    (hk : k < n + total xs) (hfit : n + total xs < 2 ^ w) : ∃ x ∈ xs, Holds x (mark base k) := by
  induction xs generalizing n with
  | nil => exact absurd hk (by simp [total]; omega)
  | cons x xs ih =>
    have hxs := h.2.2
    rw [mark_add] at hxs
    have htot : total (x :: xs) = x.2 + total xs := rfl
    by_cases hhr : k < n + x.2
    · refine ⟨x,.head _,?_⟩
      obtain ⟨y,size⟩ := x
      obtain rfl : y = mark base n := h.1
      exact (holds_mark (by omega) (by omega)).mpr ⟨hn,hhr⟩
    obtain ⟨y,hy,hcv⟩ := ih hxs (by omega) (by omega) (by omega)
    exact ⟨y,.tail x hy,hcv⟩

lemma Abut.from_zero : Abut (mark a 0) xs b := by
  rwa [mark_zero]

lemma Abut.apart (hfit : total xs < 2 ^ w) (hk : k < total xs)
    {i j : Fin xs.length} (hij : i < j) (hi : Holds (xs.get i) (mark a k)) :
    ¬Holds (xs.get j) (mark a k) := by
  have hpls := h.from_zero.places
  have hord := pairwise_iff_get.mp (h.from_zero.ordered (by omega)) i j hij
  obtain ⟨m,hm,-,hmend⟩ := hpls _ (xs.get_mem i)
  obtain ⟨n,hn,-,hnend⟩ := hpls _ (xs.get_mem j)
  rw [hm,hn,toNat_mark_sub (by omega),toNat_mark_sub (by omega)] at hord
  have hx : xs.get i = (mark a m, (xs.get i).2) := Prod.ext hm rfl
  have hy : xs.get j = (mark a n, (xs.get j).2) := Prod.ext hn rfl
  rw [hx,holds_mark (by omega) (by omega)] at hi
  rw [hy,holds_mark (by omega) (by omega)]
  omega

lemma Abut.existsUnique (hfit : total xs < 2 ^ w)
    (hx : (x - a).toNat < (b - a).toNat) : ∃! i : Fin xs.length, Holds (xs.get i) x := by
  rw [h.length_eq hfit] at hx
  have hma : mark a (x - a).toNat = x := by
    rw [mark,BitVec.ofNat_toNat,BitVec.setWidth_eq,add_sub_cancel]
  rw [← hma]
  obtain ⟨y,hy,hcv⟩ := h.from_zero.covers zero_le
    (Nat.lt_of_lt_of_eq hx (Nat.zero_add _).symm) (by omega)
  obtain ⟨i,rfl⟩ := get_of_mem hy
  refine ⟨i,hcv,fun j hj => ?_⟩
  obtain hlt | heq | hgt := Nat.lt_trichotomy j i
  · cases h.apart hfit hx hlt hj hcv
  · exact Fin.ext heq
  cases h.apart hfit hx hgt hcv hj

end

end B1nix.Serial
