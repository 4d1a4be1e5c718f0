import Mathlib

namespace B1nix.IovIter

open List

inductive Kind where
  | ubuf
  | iovec
  | kvec
  | bvec
  | discard
deriving DecidableEq

def Kind.vector (k : Kind) : Bool := k != .ubuf && k != .discard

-- A segment is the list of the addresses of its bytes.
structure Iter where
  kind : Kind
  ubuf : Nat
  segs : List (List Nat)
  offset : Nat
  count : Nat

-- The loop over the segments; an empty chunk of a user segment is taken for a fault.
def copySegs (user : Bool) : List (List Nat) → Nat → Nat → List Nat × List (List Nat) × Nat
  | [], offset, _ => ([], [], offset)
  | s :: segs, offset, left =>
    let chunk := min (s.length - offset) left
    if left = 0 ∨ user ∧ chunk = 0 then ([], s :: segs, offset)
    else if offset + chunk = s.length then
      let r := copySegs user segs 0 (left - chunk)
      ((s.drop offset).take chunk ++ r.1, r.2)
    else ((s.drop offset).take chunk, s :: segs, offset + chunk)

variable (i : Iter)

-- How many bytes were moved, the addresses they went to or came from in order, and the iterator after.
def iovIterCopy (bytes : Nat) : Nat × List Nat × Iter :=
  let bytes := min bytes i.count
  if i.kind.vector then
    let r := copySegs (i.kind = .iovec) i.segs i.offset bytes
    (r.1.length, r.1, { i with segs := r.2.1, offset := r.2.2, count := i.count - r.1.length })
  else if i.kind = .ubuf then
    (bytes, range' (i.ubuf + i.offset) bytes, { i with offset := i.offset + bytes, count := i.count - bytes })
  else (bytes, [], { i with count := i.count - bytes })

def advanceSegs : List (List Nat) → Nat → Nat → Nat → List (List Nat) × Nat × Nat
  | [], offset, _, count => ([], offset, count)
  | s :: segs, offset, bytes, count =>
    let left := s.length - offset
    if bytes = 0 ∨ count = 0 ∨ left = 0 then (s :: segs, offset, count)
    else if bytes < left then (s :: segs, offset + bytes, (count + 2 ^ 64 - bytes) % 2 ^ 64)
    else advanceSegs segs 0 (bytes - left) ((count + 2 ^ 64 - left) % 2 ^ 64)

def iovIterAdvance (bytes : Nat) : Iter :=
  if i.kind.vector then
    let r := advanceSegs i.segs i.offset bytes i.count
    { i with segs := r.1, offset := r.2.1, count := r.2.2 }
  else if bytes = 0 ∨ i.count = 0 then i
  else if bytes < i.count then { i with offset := i.offset + bytes, count := i.count - bytes }
  else { i with offset := 0, count := 0 }

def iovIterRevert (bytes : Nat) : Iter :=
  if bytes = 0 then i
  else if i.offset < bytes then { i with count := i.count + i.offset, offset := 0 }
  else { i with offset := i.offset - bytes, count := i.count + bytes }

-- The addresses the iterator still covers; a sink has none.
def Iter.rest : List Nat :=
  if i.kind.vector then (i.segs.flatten.drop i.offset).take i.count
  else if i.kind = .ubuf then range' (i.ubuf + i.offset) i.count else []

def Within : List (List Nat) → Nat → Prop
  | [], offset => offset = 0
  | s :: _, offset => offset = 0 ∨ offset < s.length

def Iter.Ok : Prop :=
  i.count < 2 ^ 64 ∧ (i.kind.vector → Within i.segs i.offset ∧ i.offset + i.count ≤ i.segs.flatten.length)

def Iter.Solid : Prop := [] ∉ i.segs

variable {segs : List (List Nat)} {o l c : Nat} {u : Bool}

lemma within_zero (segs : List (List Nat)) : Within segs 0 := by
  cases segs <;> simp [Within]

lemma copySegs_spec (hw : Within segs o) (hle : o + l ≤ segs.flatten.length)
    (hu : u → [] ∉ segs) :
    let r := copySegs u segs o l
    r.1 = (segs.flatten.drop o).take l ∧
      r.2.1.flatten.drop r.2.2 = segs.flatten.drop (o + l) ∧ Within r.2.1 r.2.2 := by
  induction segs generalizing o l with
  | nil =>
    obtain ⟨rfl,rfl⟩ : o = 0 ∧ l = 0 := by simpa using hle
    exact ⟨rfl,rfl,rfl⟩
  | cons s segs ih =>
    rw [flatten_cons,length_append] at hle
    have ho : o ≤ s.length := by rcases hw with rfl | hlt <;> omega
    rw [copySegs,flatten_cons]
    dsimp only
    split_ifs with h0 h1
    · have hl0 : l = 0 := by
        by_contra hl
        obtain ⟨hus,hch⟩ := h0.resolve_left hl
        have hpos : 0 < s.length := length_pos_iff.mpr fun h => hu hus (by simp [h])
        rcases hw with rfl | hlt <;> omega
      subst hl0
      exact ⟨by simp,rfl,hw⟩
    · have hmin : min (s.length - o) l = s.length - o := by omega
      obtain ⟨hr,hr',hwi⟩ := ih (o := 0) (l := l - (s.length - o)) (within_zero segs)
        (by omega) fun hus ht => hu hus (.tail _ ht)
      have hall : s.drop (o + l) = [] := drop_of_length_le (by omega)
      have hse : (s.drop o).take l = s.drop o := take_of_length_le (by simp; omega)
      rw [hmin,hr]
      refine ⟨?_,?_,hwi⟩
      · rw [drop_append_of_le_length ho,take_append,hse,length_drop,take_of_length_le (by simp),drop_zero]
      · rw [hr',drop_append,hall,nil_append]
        congr 1
        omega
    · have hmin : min (s.length - o) l = l := by omega
      rw [hmin,drop_append_of_le_length ho,take_append_of_le_length (by simp; omega)]
      exact ⟨rfl,rfl,.inr (by dsimp only; omega)⟩

lemma advanceSegs_eq (hs : [] ∉ segs) (hw : Within segs o)
    (hle : o + l ≤ segs.flatten.length) (hct : l ≤ c) (hc : c < 2 ^ 64) :
    let r := copySegs u segs o l
    advanceSegs segs o l c = (r.2.1, r.2.2, c - l) := by
  induction segs generalizing o l c with
  | nil =>
    obtain ⟨rfl,rfl⟩ : o = 0 ∧ l = 0 := by simpa using hle
    rfl
  | cons s segs ih =>
    have hpos : 0 < s.length := length_pos_iff.mpr fun h => hs (by simp [h])
    have ho : o < s.length := by rcases hw with rfl | hlt <;> omega
    rw [flatten_cons,length_append] at hle
    have ih := ih (o := 0) (l := l - (s.length - o)) (c := c - (s.length - o))
      (fun h => hs (.tail _ h)) (within_zero segs)
    rw [copySegs,advanceSegs]
    grind

lemma Within.le (h : Within segs o) : o ≤ segs.flatten.length := by
  cases segs with
  | nil => exact h.le
  | cons s segs =>
    rw [flatten_cons,length_append]
    rcases h with rfl | hlt <;> omega

variable {i : Iter}

lemma copySegs_stay : let r := copySegs u segs o l
    r.1.length ≤ l ∧ r.2.1.length ≤ segs.length ∧ (r.2.1 = segs → r.2.2 = o + r.1.length) := by
  induction segs generalizing o l with
  | nil => simp [copySegs]
  | cons s segs ih =>
    have := @ih 0 (l - min (s.length - o) l)
    simp only [copySegs]
    grind

-- Bytes return only within one segment, and never to a sink.
theorem revert_undoes_iff (i : Iter) : let c := iovIterCopy i l
    iovIterRevert c.2.2 c.1 = i ↔ c.2.2.segs = i.segs ∧ (i.kind = .discard → c.1 = 0) := by
  have h := @copySegs_stay i.segs i.offset (min l i.count) (i.kind = .iovec)
  obtain ⟨k,_,s,o,c⟩ := i
  cases k <;> grind [iovIterCopy,iovIterRevert,Kind.vector]

end B1nix.IovIter
