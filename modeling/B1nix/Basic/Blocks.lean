import Mathlib

namespace B1nix.Blocks

open Nat

def Inside (pos k i : Nat) : Prop := pos ≤ i ∧ i < pos + 2 ^ k

variable (free : Nat → Prop)

def Block (pos k : Nat) : Prop := 2 ^ k ∣ pos ∧ ∀ i, Inside pos k i → free i

def parent (pos k : Nat) : Nat := pos - pos % 2 ^ (k + 1)

def Largest (top pos k : Nat) : Prop :=
  k ≤ top ∧ Block free pos k ∧ (k = top ∨ ¬Block free (parent pos k) (k + 1))

def Without (pos k i : Nat) : Prop := free i ∧ ¬Inside pos k i

variable {free : Nat → Prop} {top pos k q j i : Nat}

lemma inside_self : Inside pos k pos := ⟨le_rfl,Nat.lt_add_of_pos_right (Nat.two_pow_pos k)⟩

lemma Inside.nested (hp : 2 ^ k ∣ pos) (hq : 2 ^ j ∣ q) (hjk : j ≤ k) (h : Inside pos k i)
    (h' : Inside q j i) : pos ≤ q ∧ q + 2 ^ j ≤ pos + 2 ^ k := by
  obtain ⟨a,rfl⟩ := hp
  obtain ⟨b,rfl⟩ := hq
  obtain ⟨d,rfl⟩ := Nat.exists_eq_add_of_le hjk
  obtain ⟨hlo,hhi⟩ := h
  obtain ⟨hlo',hhi'⟩ := h'
  have hpow := pow_add 2 j d
  have hlow : 2 ^ d * a < b + 1 := by
    refine Nat.lt_of_mul_lt_mul_left (a := 2 ^ j) ?_
    calc 2 ^ j * (2 ^ d * a) = 2 ^ (j + d) * a := by rw [hpow,mul_assoc]
      _ ≤ i := hlo
      _ < 2 ^ j * b + 2 ^ j := hhi'
      _ = 2 ^ j * (b + 1) := by ring
  have hhg : b < 2 ^ d * (a + 1) := by
    refine Nat.lt_of_mul_lt_mul_left (a := 2 ^ j) ?_
    calc 2 ^ j * b ≤ i := hlo'
      _ < 2 ^ (j + d) * a + 2 ^ (j + d) := hhi
      _ = 2 ^ j * (2 ^ d * (a + 1)) := by rw [hpow]; ring
  constructor
  · calc 2 ^ (j + d) * a = 2 ^ j * (2 ^ d * a) := by rw [hpow,mul_assoc]
      _ ≤ 2 ^ j * b := mul_le_mul_left _ (le_of_lt_succ hlow)
  calc 2 ^ j * b + 2 ^ j = 2 ^ j * (b + 1) := by ring
    _ ≤ 2 ^ j * (2 ^ d * (a + 1)) := mul_le_mul_left _ hhg
    _ = 2 ^ (j + d) * a + 2 ^ (j + d) := by rw [hpow]; ring

lemma parent_dvd (pos k : Nat) : 2 ^ (k + 1) ∣ parent pos k := dvd_sub_mod pos

lemma parent_inside (pos k : Nat) : Inside (parent pos k) (k + 1) pos := by
  exact ⟨tsub_le_self,by unfold parent; omega⟩

lemma parent_eq (h : 2 ^ k ∣ pos) : parent pos k = pos ∨ parent pos k + 2 ^ k = pos := by
  obtain ⟨a,rfl⟩ := h
  obtain ha | ha := mod_two_eq_zero_or_one a
  · left
    rw [parent,pow_succ,Nat.mul_mod_mul_left,ha,mul_zero,Nat.sub_zero]
  right
  rw [parent,pow_succ,mul_mod_mul_left,ha,mul_one]
  refine Nat.sub_add_cancel (Nat.le_mul_of_pos_right _ ?_)
  omega

lemma Block.sub (h : Block free pos k) (hq : 2 ^ j ∣ q) (hle : pos ≤ q)
    (hend : q + 2 ^ j ≤ pos + 2 ^ k) : Block free q j :=
  ⟨hq,fun i hi => h.2 i ⟨le_trans hle hi.1,lt_of_lt_of_le hi.2 hend⟩⟩

lemma Largest.not_inside (h : Largest free top pos k) (hb : Block free q j) (hj : j ≤ top)
    (hkj : k < j) (hi : Inside q j i) (hi' : Inside pos k i) : False := by
  obtain ⟨-,hbk,rfl | hparent⟩ := h
  · omega
  have hin := Inside.nested hb.1 hbk.1 hkj.le hi hi'
  have hpos : Inside q j pos := ⟨hin.1,inside_self.2.trans_le hin.2⟩
  have hpar := Inside.nested hb.1 (parent_dvd pos k) hkj hpos (parent_inside pos k)
  exact hparent (hb.sub (parent_dvd pos k) hpar.1 hpar.2)

lemma Largest.unique (h : Largest free top pos k) (h' : Largest free top q j)
    (hi : Inside pos k i) (hi' : Inside q j i) : pos = q ∧ k = j := by
  obtain hkj | rfl | hjk := lt_trichotomy k j
  · exact (h.not_inside h'.2.1 h'.1 hkj hi' hi).elim
  · have hle := Inside.nested h.2.1.1 h'.2.1.1 (le_rfl) hi hi'
    have hge := Inside.nested h'.2.1.1 h.2.1.1 (le_rfl) hi' hi
    exact ⟨hle.1.antisymm hge.1,rfl⟩
  exact (h'.not_inside h.2.1 h.1 hjk hi hi').elim

lemma Block.grow (h : Block free pos k) (hk : k ≤ top) :
    ∃ q j, Largest free top q j ∧ ∀ i, Inside pos k i → Inside q j i := by
  obtain ⟨d,rfl⟩ := Nat.exists_eq_add_of_le hk
  induction d generalizing pos k with
  | zero => exact ⟨pos,k,⟨hk,h,.inl rfl⟩,fun _ hi => hi⟩
  | succ d ih =>
    by_cases hpar : Block free (parent pos k) (k + 1)
    · obtain ⟨q,j,hq,hin⟩ := ih hpar le_self_add
      rw [succ_add] at hq
      refine ⟨q,j,hq,fun i hi => hin i ?_⟩
      have hsub := Inside.nested (parent_dvd pos k) h.1 (le_succ k) (parent_inside pos k)
        inside_self
      exact ⟨hsub.1.trans hi.1,hi.2.trans_le hsub.2⟩
    exact ⟨pos,k,⟨hk,h,.inr hpar⟩,fun _ hi => hi⟩

lemma exists_largest (h : free i) : ∃ q j, Largest free top q j ∧ Inside q j i := by
  have hone : Block free i 0 := by
    refine ⟨one_dvd i,fun n hn => ?_⟩
    have hni : n = i := by
      have := hn.1
      have := hn.2
      omega
    rwa [hni]
  obtain ⟨q,j,hq,hin⟩ := hone.grow zero_le
  exact ⟨q,j,hq,hin i inside_self⟩

lemma Block.without (h : Block free q j) (hout : ∀ i, Inside q j i → ¬Inside pos k i) :
    Block (Without free pos k) q j :=
  ⟨h.1,fun i hi => ⟨h.2 i hi,hout i hi⟩⟩

lemma Block.of_without (h : Block (Without free pos k) q j) : Block free q j :=
  ⟨h.1,fun i hi => (h.2 i hi).1⟩

section

variable (h : Largest free top pos k)

include h

lemma largest_without :
    Largest (Without free pos k) top q j ↔ Largest free top q j ∧ ¬(q = pos ∧ j = k) := by
  constructor
  · intro hq
    have hfe := hq.2.1.of_without
    refine ⟨⟨hq.1,hfe,?_⟩,?_⟩
    · by_cases htop : j = top
      · exact .inl htop
      have hpar := hq.2.2.resolve_left htop
      refine .inr fun hwh => hpar (hwh.without fun i hi hi' => ?_)
      obtain hkj | hjk := lt_or_ge k (j + 1)
      · exact h.not_inside hwh (hq.1.lt_of_ne htop) hkj hi hi'
      have hsub := Inside.nested h.2.1.1 (parent_dvd q j) hjk hi' hi
      have hmid := parent_inside q j
      exact (hq.2.1.2 q inside_self).2
        ⟨hsub.1.trans hmid.1,hmid.2.trans_le hsub.2⟩
    rintro ⟨rfl,rfl⟩
    exact (hq.2.1.2 q inside_self).2 inside_self
  rintro ⟨hq,hne⟩
  refine ⟨hq.1,hq.2.1.without fun i hi hi' => hne (hq.unique h hi hi'),?_⟩
  exact hq.2.2.imp_right fun hpar hwh => hpar hwh.of_without

lemma largest_erase :
    (fun q j => Largest free top q j ∧ ¬(q = pos ∧ j = k)) = Largest (Without free pos k) top := by
  funext q j
  exact propext (largest_without h).symm

lemma largest_insert :
    (fun q j => Largest (Without free pos k) top q j ∨ (q = pos ∧ j = k)) = Largest free top := by
  funext q j
  refine propext ⟨?_,fun hq => ?_⟩
  · rintro (hq | ⟨rfl,rfl⟩)
    · exact ((largest_without h).mp hq).1
    exact h
  by_cases he : q = pos ∧ j = k
  · exact .inr he
  exact .inl ((largest_without h).mpr ⟨hq,he⟩)

end

lemma not_largest_without (q j : Nat) (h : Inside pos k q) : ¬Largest (Without free pos k) top q j :=
  fun hq => (hq.2.1.2 q inside_self).2 h

def Edge (free : Nat → Prop) (top pos : Nat) : Prop :=
  ∀ q j, j ≤ top → Block free q j → q < pos → q + 2 ^ j ≤ pos

lemma Edge.of_not_free (h : ¬free i) : Edge free top (i + 1) := by
  intro q j _ hb hq
  by_contra hend
  exact h (hb.2 i ⟨le_of_lt_succ hq,by omega⟩)

lemma edge_zero : Edge free top 0 := fun _ _ _ _ hq => absurd hq not_lt_zero

lemma Edge.largest (h : Edge free top pos) (hk : k ≤ top) (hb : Block free pos k)
    (hmax : k = top ∨ ¬Block free pos (k + 1)) : Largest free top pos k := by
  refine ⟨hk,hb,?_⟩
  by_cases htop : k = top
  · exact .inl htop
  refine .inr fun hpar => ?_
  obtain he | he := parent_eq hb.1
  · rw [he] at hpar
    exact hmax.elim htop fun hn => hn hpar
  have hpow := Nat.two_pow_pos k
  have hend := h _ _ (hk.lt_of_ne htop) hpar (by omega)
  omega

lemma Edge.next (h : Edge free top pos) (hm : Largest free top pos k) : Edge free top (pos + 2 ^ k) := by
  intro q j hj hb hq
  by_cases hlt : q < pos
  · exact (h q j hj hb hlt).trans le_self_add
  have hin : Inside pos k q := ⟨le_of_not_gt hlt,hq⟩
  obtain hkj | hjk := lt_or_ge k j
  · exact (hm.not_inside hb hj hkj inside_self hin).elim
  exact (Inside.nested hm.2.1.1 hb.1 hjk hin inside_self).2

lemma largest_lt_next (hm : Largest free top pos k) :
    Largest free top q j ∧ q < pos + 2 ^ k ↔ (Largest free top q j ∧ q < pos) ∨ (q = pos ∧ j = k) := by
  constructor
  · rintro ⟨hq,hlt⟩
    by_cases hpos : q < pos
    · exact .inl ⟨hq,hpos⟩
    exact .inr (hq.unique hm inside_self ⟨le_of_not_gt hpos,hlt⟩)
  rintro (⟨hq,hlt⟩ | ⟨rfl,rfl⟩)
  · exact ⟨hq,hlt.trans_le le_self_add⟩
  exact ⟨hm,inside_self.2⟩

def buddy (pos k : Nat) : Nat := pos ^^^ 2 ^ k

lemma buddy_mul (m k : Nat) : buddy (2 ^ k * m) k = 2 ^ k * (m ^^^ 1) := by
  have h := shiftLeft_xor_distrib (a := m) (b := 1) (i := k)
  rw [shiftLeft_eq,shiftLeft_eq,shiftLeft_eq,one_mul] at h
  rw [buddy,mul_comm,← h,mul_comm]

section

variable (h : 2 ^ k ∣ pos)

include h

lemma buddy_spec :
    2 ^ k ∣ buddy pos k ∧ ((parent pos k = pos ∧ buddy pos k = pos + 2 ^ k) ∨
      (parent pos k = buddy pos k ∧ buddy pos k + 2 ^ k = pos)) := by
  obtain ⟨m,rfl⟩ := h
  refine ⟨⟨m ^^^ 1,buddy_mul m k⟩,?_⟩
  rw [buddy_mul,parent,pow_succ,mul_mod_mul_left]
  obtain hm | hm := even_or_odd m
  · left
    rw [xor_one_of_even hm,even_iff.mp hm]
    exact ⟨by simp,by ring⟩
  right
  obtain ⟨d,rfl⟩ := hm
  rw [xor_one_of_odd ⟨d,rfl⟩]
  have hmod : (2 * d + 1) % 2 = 1 := by omega
  rw [hmod,mul_one]
  exact ⟨Nat.add_sub_cancel ..,rfl⟩

lemma min_buddy : min pos (buddy pos k) = parent pos k := by
  obtain ⟨hpar,hb⟩ | ⟨hpar,hb⟩ := (buddy_spec h).2
  · rw [hpar,hb]
    exact min_eq_left le_self_add
  rw [hpar]
  exact min_eq_right (by omega)

lemma inside_parent : Inside (parent pos k) (k + 1) i ↔ Inside pos k i ∨ Inside (buddy pos k) k i := by
  unfold Inside
  obtain ⟨hpar,hb⟩ | ⟨hpar,hb⟩ := (buddy_spec h).2
  · omega
  omega

lemma without_buddy :
    Without (Without free pos k) (buddy pos k) k = Without free (parent pos k) (k + 1) := by
  funext i
  simp [Without,inside_parent h,and_assoc]

lemma parent_buddy : parent (buddy pos k) k = parent pos k := by
  have hse := (inside_parent h).mpr (.inr inside_self)
  have hle := Inside.nested (parent_dvd (buddy pos k) k) (parent_dvd pos k) le_rfl
    (parent_inside (buddy pos k) k) hse
  have hge := Inside.nested (parent_dvd pos k) (parent_dvd (buddy pos k) k) le_rfl
    hse (parent_inside (buddy pos k) k)
  exact hle.1.antisymm hge.1

end

lemma Block.buddy_largest (h : Block free (parent pos k) (k + 1)) (hp : 2 ^ k ∣ pos)
    (hk : k ≤ top) : Largest (Without free pos k) top (buddy pos k) k := by
  refine ⟨hk,⟨(buddy_spec hp).1,fun i hi => ?_⟩,.inr fun hpar => ?_⟩
  · refine ⟨h.2 i ((inside_parent hp).mpr (.inr hi)),?_⟩
    unfold Inside at *
    rcases (buddy_spec hp).2 with ⟨-,hb⟩ | ⟨-,hb⟩ <;> omega
  rw [parent_buddy hp] at hpar
  exact (hpar.2 pos (parent_inside pos k)).2 inside_self

lemma largest_of_buddy (hk : k ≤ top) (hb : Block free pos k)
    (h : k = top ∨ ¬Largest (Without free pos k) top (buddy pos k) k) : Largest free top pos k :=
  ⟨hk,hb,h.imp_right fun hn hpar => hn (hpar.buddy_largest hb.1 hk)⟩

lemma Block.merge (h : Block free pos k) (hb : Block free (buddy pos k) k) :
    Block free (parent pos k) (k + 1) :=
  ⟨parent_dvd pos k,fun i hi => ((inside_parent h.1).mp hi).elim (h.2 i) (hb.2 i)⟩

lemma parent_of_dvd (h : 2 ^ (k + 1) ∣ pos) : parent pos k = pos := by
  rw [parent,Nat.mod_eq_zero_of_dvd h,Nat.sub_zero]

lemma buddy_of_dvd (h : 2 ^ (k + 1) ∣ pos) : buddy pos k = pos + 2 ^ k := by
  have hp := dvd_trans (pow_dvd_pow 2 (le_succ k)) h
  obtain ⟨-,hb⟩ | ⟨hpar,hb⟩ := (buddy_spec hp).2
  · exact hb
  rw [parent_of_dvd h] at hpar
  omega

end B1nix.Blocks
