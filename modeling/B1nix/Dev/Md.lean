import Mathlib

namespace B1nix.Md

open Function Nat List Option

def mdMaxMembers : UInt32 := 8

inductive Level where
  | stripe
  | mirror
deriving DecidableEq

-- What md_read_sb lets through.
structure Superblock where
  level : Level
  members : UInt32
  memberIndex : UInt32
  chunkBlocks : UInt32
  dataBlocks : UInt64
  dataOffset : UInt64
  arrayUuid : UInt64
  some_member : members ≠ 0 ∧ members ≤ mdMaxMembers
  index_lt : memberIndex < members
  chunk_ne : level = .stripe → chunkBlocks ≠ 0

structure MdArray where
  used : Bool
  started : Bool
  level : Level
  members : UInt32
  chunkBlocks : UInt32
  arrayUuid : UInt64
  member : Nat → Option Superblock
  failed : Nat → Bool
  blockCount : UInt64

variable (blocks : UInt64) (g : List MdArray) (sb : Superblock) (a : MdArray)

def mdStripeMap (lba : Nat) : Nat × Nat :=
  let chunk := lba / a.chunkBlocks.toNat
  let idx := chunk % a.members.toNat
  let offset := ((a.member idx).map (·.dataOffset.toNat)).getD 0
  (idx, (chunk / a.members.toNat * a.chunkBlocks.toNat + lba % a.chunkBlocks.toNat + offset) % 2 ^ 64)

def mdLiveMembers : Nat :=
  (range a.members.toNat).countP fun i => (a.member i).isSome && !a.failed i

def mdFindOrCreate (g : List MdArray) : Option Nat × List MdArray :=
  match g.findIdx? fun a => a.used && a.arrayUuid == sb.arrayUuid with
  | some i => (some i, g)
  | none =>
    match g.findIdx? fun a => !a.used with
    | none => (none, g)
    | some i => (some i, g.set i ⟨true,false,sb.level,sb.members,sb.chunkBlocks,sb.arrayUuid,
        fun _ => none,fun _ => false,0⟩)

def MdArray.add : MdArray :=
  if a.started ∨ a.level ≠ sb.level ∨ a.members ≠ sb.members ∨
    (a.member sb.memberIndex.toNat).isSome then a
  else { a with
    member := update a.member sb.memberIndex.toNat (some sb)
    blockCount := if a.blockCount = 0 ∨ sb.dataBlocks < a.blockCount then sb.dataBlocks else a.blockCount }

def collect : List MdArray :=
  match mdFindOrCreate sb g with
  | (none, g) => g
  | (some i, g) => g.modify i (·.add sb)

def MdArray.start : MdArray :=
  if !a.used ∨ a.started then a
  else if mdLiveMembers a = 0 then { a with used := false }
  else if a.level = .stripe ∧ mdLiveMembers a ≠ a.members.toNat then { a with used := false }
  else { a with
    blockCount := if a.level = .stripe then a.blockCount * a.members.toUInt64 else a.blockCount
    started := true }

def mdAutorun (cand : List Superblock) : List MdArray := (cand.foldl collect g).map (·.start)

-- Every array is idle or running between two assemblies.
def Settled : Prop := ∀ a ∈ g, a.used = false ∨ a.started = true

structure Formed (a : MdArray) : Prop where
  members : a.members ≠ 0
  chunk : a.level = .stripe → a.chunkBlocks ≠ 0
  count : ∀ i sb, a.member i = some sb → (∀ i sb, a.member i = some sb → sb.dataBlocks ≠ 0) →
    a.blockCount ≠ 0 ∧ a.blockCount ≤ sb.dataBlocks

def Forming : Prop := a.used = false ∨ a.started = true ∨ Formed a

variable {a : MdArray} {g : List MdArray} {sb : Superblock}

lemma Formed.add (h : Formed a) (sb : Superblock) : Formed (a.add sb) := by
  rw [MdArray.add]
  split
  · exact h
  next hn =>
  have hf : a.member sb.memberIndex.toNat = none := by simp_all
  refine ⟨h.members,h.chunk,fun i x hx hz => ?_⟩
  have hsb : sb.dataBlocks ≠ 0 := hz _ sb (update_self ..)
  have hold : ∀ j y, a.member j = some y → a.blockCount ≠ 0 ∧ a.blockCount ≤ y.dataBlocks := by
    intro j y hy
    refine h.count j y hy fun k z hk => hz k z ?_
    have hne : k ≠ sb.memberIndex.toNat := by
      rintro rfl
      cases hf.symm.trans hk
    exact (update_of_ne hne ..).trans hk
  dsimp only at hx ⊢
  obtain rfl | hi := eq_or_ne i sb.memberIndex.toNat
  · rw [update_self] at hx
    cases hx
    split_ifs with hc
    · exact ⟨hsb,UInt64.le_refl _⟩
    exact ⟨fun h0 => hc (.inl h0),UInt64.not_lt.mp fun hlt => hc (.inr hlt)⟩
  rw [update_of_ne hi] at hx
  obtain ⟨h0,hle⟩ := hold i x hx
  split_ifs with hc
  · exact ⟨hsb,UInt64.le_trans (UInt64.le_of_lt (hc.resolve_left h0)) hle⟩
  exact ⟨h0,hle⟩

lemma Forming.add (h : Forming a) (sb : Superblock) : Forming (a.add sb) := by
  obtain hu | hs | hf := h
  · left
    rw [MdArray.add]
    split <;> exact hu
  · rw [MdArray.add,if_pos (.inl hs)]
    exact .inr (.inl hs)
  exact .inr (.inr (hf.add sb))

section

variable (h : ∀ a ∈ g, Forming a)

include h

lemma mdFindOrCreate_forming (sb : Superblock) :
    ∀ a ∈ (mdFindOrCreate sb g).2, Forming a := by
  rw [mdFindOrCreate]
  split
  · exact h
  split
  · exact h
  intro a ha
  obtain hm | rfl := mem_or_eq_of_mem_set ha
  · exact h a hm
  exact .inr (.inr ⟨sb.some_member.1,sb.chunk_ne,nofun⟩)

lemma collect_forming (sb : Superblock) : ∀ a ∈ collect g sb, Forming a := by
  have hg := mdFindOrCreate_forming h sb
  rw [collect]
  split <;> rename_i heq <;> rw [heq] at hg
  · exact hg
  intro a ha
  obtain ⟨i,hi,rfl⟩ := mem_iff_getElem.mp ha
  rw [getElem_modify]
  split
  · exact (hg _ (getElem_mem _)).add sb
  exact hg _ (getElem_mem _)

lemma foldl_forming (cand : List Superblock) : ∀ a ∈ cand.foldl collect g, Forming a := by
  induction cand generalizing g with
  | nil => exact h
  | cons sb _ ih => exact ih (collect_forming h sb)

end

structure Stripe (g : List MdArray) (cand : List Superblock) (a : MdArray) : Prop where
  found : a ∈ cand.foldl collect g
  used : a.used = true
  idle : a.started = false
  level : a.level = .stripe
  started : a.start.started = true

structure Even (a : MdArray) : Prop where
  area : ∀ i sb, a.member i = some sb → sb.dataBlocks ≠ 0 ∧ sb.dataOffset.toNat + sb.dataBlocks.toNat ≤ 2 ^ 64
  room : a.blockCount.toNat * a.members.toNat < 2 ^ 64
  chunks : a.members = 1 ∨ a.chunkBlocks.toNat ∣ a.blockCount.toNat

variable {cand : List Superblock}

lemma Stripe.formed (h : Stripe g cand a) (hg : Settled g) : Formed a := by
  have hforming := foldl_forming (fun b hb => (hg b hb).imp_right .inl) cand a h.found
  obtain hu | hs | hf := hforming
  · cases hu.symm.trans h.used
  · cases hs.symm.trans h.idle
  exact hf

lemma Stripe.start_eq (h : Stripe g cand a) : mdLiveMembers a = a.members.toNat ∧
    a.start = { a with blockCount := a.blockCount * a.members.toUInt64, started := true } := by
  have hs := h.started
  rw [MdArray.start,if_neg (by simp [h.used,h.idle])] at hs ⊢
  split_ifs at hs ⊢ with h0 hl hv
  · cases h.idle.symm.trans hs
  · cases h.idle.symm.trans hs
  · exact ⟨not_not.mp fun hne => hl ⟨h.level,hne⟩,rfl⟩
  cases hv h.level

lemma Stripe.member (h : Stripe g cand a) {i : Nat} (hi : i < a.members.toNat) : ∃ sb, a.member i = some sb := by
  have hall := h.start_eq.1
  rw [mdLiveMembers] at hall
  have hlen := length_range (n := a.members.toNat)
  have := countP_eq_length.mp (hall.trans hlen.symm) i (mem_range.mpr hi)
  rw [Bool.and_eq_true] at this
  exact isSome_iff_exists.mp this.1

lemma spread_le (c m x : Nat) : x / c / m * c + x % c ≤ x := by
  have hle : x / c / m * c ≤ x / c * c := mul_le_mul_right c (div_le_self ..)
  have hx := div_add_mod' x c
  omega

lemma spread_injective {c m x y : Nat} (hc : 0 < c) (hm : x / c % m = y / c % m)
    (h : x / c / m * c + x % c = y / c / m * c + y % c) : x = y := by
  have hq : x / c / m = y / c / m := by
    have hd := congrArg (· / c) h
    simpa [Nat.add_div_of_dvd_right,hc,Nat.div_eq_of_lt (Nat.mod_lt _ hc)] using hd
  have hr : x % c = y % c := by
    rw [hq] at h
    exact add_left_cancel h
  have hk : x / c = y / c := by rw [← div_add_mod (x / c) m,hq,hm,div_add_mod]
  rw [← div_add_mod x c,hk,hr,div_add_mod]

lemma spread_lt {c m n x : Nat} (hc : 0 < c) (hd : m = 1 ∨ c ∣ n) (hx : x < n * m) :
    x / c / m * c + x % c < n := by
  obtain rfl | ⟨k,rfl⟩ := hd
  · rw [Nat.div_one,Nat.div_add_mod']
    simpa using hx
  have hk : x / c / m < k := by
    refine Nat.div_lt_of_lt_mul (Nat.div_lt_of_lt_mul ?_)
    rwa [mul_comm m,← mul_assoc]
  calc x / c / m * c + x % c < x / c / m * c + c := by gcongr; exact Nat.mod_lt x hc
    _ = c * (x / c / m + 1) := by ring
    _ ≤ c * k := Nat.mul_le_mul_left c hk

def idle : MdArray := ⟨false,false,.mirror,0,0,0,fun _ => none,fun _ => false,0⟩

def disk (i : UInt32) (h : i < 2) : Superblock := ⟨.stripe,2,i,4,blocks,1,7,by decide,h,by decide⟩

def disks : List Superblock := [disk blocks 0 (by decide),disk blocks 1 (by decide)]

def assembled : MdArray := ((disks blocks).foldl collect [idle]).headD idle

lemma assembled_stripe : Stripe [idle] (disks 8) (assembled 8) :=
  ⟨mem_cons_self,rfl,rfl,rfl,by decide +kernel⟩

end B1nix.Md
