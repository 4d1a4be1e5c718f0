import Mathlib

namespace B1nix.Splice

open List

variable {α : Type*}

def slice (l : List α) (off n : Nat) : List α := (l.drop off).take n

def splice (l : List α) (off : Nat) (data : List α) : List α :=
  l.take off ++ data ++ l.drop (off + data.length)

variable {l : List α} {off : Nat} {n a : Nat} {data xs : List α}

lemma length_slice (h : off + n ≤ l.length) : (slice l off n).length = n := by
  rw [slice,length_take,length_drop]
  omega

lemma length_splice (data : List α) (h : off + data.length ≤ l.length) :
    (splice l off data).length = l.length := by
  simp only [splice,length_append,length_take,length_drop]
  omega

lemma slice_slice (l : List α) {b m : Nat} (h : b + m ≤ n) :
    slice (slice l a n) b m = slice l (a + b) m := by
  rw [slice,slice,slice,drop_take,take_take,drop_drop,Nat.min_eq_left (by omega)]

lemma slice_splice_self (data : List α) (h : off ≤ l.length) :
    slice (splice l off data) off data.length = data := by
  have hlen : (l.take off).length = off := by
    rw [length_take]
    omega
  rw [slice,splice,append_assoc,drop_append_of_le_length (by omega),
    drop_eq_nil_of_le (by omega),nil_append,take_left]

lemma slice_splice_before (h : off ≤ l.length) (ha : a + n ≤ off) :
    slice (splice l off data) a n = slice l a n := by
  have hlen : (l.take off).length = off := by
    rw [length_take]
    omega
  rw [slice,slice,splice,append_assoc,drop_append_of_le_length (by omega),
    take_append_of_le_length (by rw [length_drop]; omega),drop_take,take_take, Nat.min_eq_left (by omega)]

lemma drop_splice (data : List α) (h : off ≤ l.length) (ha : off + data.length ≤ a) :
    (splice l off data).drop a = l.drop a := by
  have hlen : (l.take off ++ data).length = off + data.length := by
    rw [length_append,length_take]
    omega
  rw [splice,drop_append,drop_eq_nil_of_le (by omega),nil_append,hlen,drop_drop,Nat.add_sub_cancel' ha]

lemma slice_splice_after (h : off ≤ l.length) (ha : off + data.length ≤ a) :
    slice (splice l off data) a n = slice l a n := by
  rw [slice,slice,drop_splice data h ha]

lemma take_splice (data : List α) (h : off ≤ l.length) :
    (splice l off data).take (off + data.length) = l.take off ++ data := by
  rw [splice,take_append_of_le_length,take_of_length_le] <;>
    simp only [length_append,length_take] <;> omega

lemma flatMap_slice (l : List α) (w n : Nat) :
    (range n).flatMap (fun i => slice l (i * w) w) = l.take (n * w) := by
  induction n with
  | zero => simp
  | succ n ih =>
    rw [range_succ,flatMap_append,ih,flatMap_singleton,slice,Nat.succ_mul,take_add]

lemma getD_splice (h : off + data.length ≤ l.length) (i : Nat) (z : α) : (splice l off data).getD i z =
      if off ≤ i ∧ i < off + data.length then data.getD (i - off) z else l.getD i z := by
  have hlen : (l.take off).length = off := by
    rw [length_take]
    omega
  rw [splice,append_assoc]
  by_cases hbf : i < off
  · rw [if_neg (by omega),getD_append _ _ _ _ (by omega),getD_eq_getElem?_getD,
      getElem?_take_of_lt hbf,← getD_eq_getElem?_getD]
  rw [getD_append_right _ _ _ _ (by omega),hlen]
  by_cases hins : i < off + data.length
  · rw [if_pos ⟨by omega,hins⟩,getD_append _ _ _ _ (by omega)]
  rw [if_neg (by omega),getD_append_right _ _ _ _ (by omega),
    getD_eq_getElem?_getD,getElem?_drop]
  congr 2
  omega

lemma slice_eq_map (h : off + n ≤ l.length) (z : α) :
    slice l off n = (range n).map fun i => l.getD (off + i) z := by
  refine ext_getElem (by simp [length_slice h]) fun i hi hi' => ?_
  rw [length_slice h] at hi
  simp only [slice,getElem_take,getElem_drop,getElem_map,getElem_range]
  rw [getD_eq_getElem _ _ (by omega)]

lemma append_take_slice (h : xs <+: l) (n k : Nat) :
    xs ++ (slice l xs.length n).take k <+: l := by
  obtain ⟨rest,rfl⟩ := h
  rw [slice,drop_left,take_take]
  exact (prefix_append_right_inj xs).mpr ( take_prefix _ rest)

end B1nix.Splice
