import B1nix.Page
import B1nix.Basic.Tiling

namespace B1nix.Kheap

open Function Nat

def kheapMagic : Nat := 0xB1A110C

def kheapFreedMagic : Nat := 0xDEAD110C

def kheapMagMagic : Nat := 0xB1A6A21E

def junkFree : Nat := 0xde

def junkAlloc : Nat := 0xa5

def headerSize : Nat := 32

def shrinkMin : Nat := 512 * 1024

def klargeThreshold : Nat := 256 * 1024

def magDepth : Nat := 32

def minSplitPayload : Nat := 32

def junkCheckHead : Nat := 4096

def junkCheckTail : Nat := 256

def nBuckets : Nat := 16

def bucketMax : List Nat :=
  [32,64,128,256,512,1024,2048,4096,8192,16384,32768,65536,131072,262144,1048576]

structure BlockHeader where
  size : Nat
  prevSize : Nat
  magic : Nat

structure KheapConfig where
  start : Nat
  largeStart : Nat
  largeEnd : Nat
  canonical : Nat → Bool
  pageReturn : Bool
  maxCpus : Nat
  start_pos : 0 < start
  start_aligned : pageSize ∣ start
  start_low : start + 2 ^ 21 ≤ 2 ^ 64

def x8664 : KheapConfig where
  start := 0xffffc00000000000
  largeStart := 0xffffc00000000000 + 0x1000000000
  largeEnd := 0xffffc00000000000 + 0x8000000000
  canonical := fun addr => addr / 2 ^ 47 = 0 ∨ addr / 2 ^ 47 = 2 ^ 17 - 1
  pageReturn := true
  maxCpus := 64
  start_pos := by decide
  start_aligned := by decide
  start_low := by decide

def aarch64 : KheapConfig where
  start := 0x1000000000
  largeStart := 0x1000000000 + 0x1000000000
  largeEnd := 0x1000000000 + 0x4000000000
  canonical := fun addr => addr / 2 ^ 48 = 0
  pageReturn := false
  maxCpus := 64
  start_pos := by decide
  start_aligned := by decide
  start_low := by decide

structure KheapState where
  hdr : Nat → BlockHeader
  mem : Nat → Nat
  base : Nat
  current : Nat
  stop : Nat
  lastBlock : Nat
  freeLists : Nat → List Nat
  mag : Nat → Nat → List Nat

def alignUp (x a : Nat) : Nat := (x + a - 1) / a * a

def memset (mem : Nat → Nat) (p v n : Nat) : Nat → Nat :=
  fun i => if p ≤ i ∧ i < p + n then v else mem i

variable (cfg : KheapConfig) (cpu : Option Nat) (h : KheapState) (frames large b : Nat)

def KheapState.setHdr (hd : BlockHeader) : KheapState := { h with hdr := update h.hdr b hd }

def KheapState.setMagic (magic : Nat) : KheapState := h.setHdr b { h.hdr b with magic := magic }

def KheapState.setSize (size : Nat) : KheapState := h.setHdr b { h.hdr b with size := size }

def KheapState.setPrevSize (size : Nat) : KheapState := h.setHdr b { h.hdr b with prevSize := size }

def KheapState.memset (p v n : Nat) : KheapState := { h with mem := Kheap.memset h.mem p v n }

def KheapState.setList (bkt : Nat) (l : List Nat) : KheapState :=
  { h with freeLists := update h.freeLists bkt l }

def KheapState.setMag (cpu cls : Nat) (l : List Nat) : KheapState :=
  { h with mag := update h.mag cpu (update (h.mag cpu) cls l) }

def sizeToBucket (size : Nat) : Nat := bucketMax.findIdx fun m => size ≤ m

def magClass (size : Nat) : Option Nat :=
  if size = 16 then some 0
  else if size = 32 then some 1
  else if size = 64 then some 2
  else if size = 128 then some 3
  else if size = 256 then some 4
  else if size = 512 then some 5
  else none

def magSlot (size : Nat) : Option (Nat × Nat) :=
  match magClass size, cpu with
  | some cls, some id => if id < cfg.maxCpus then some (id, cls) else none
  | _, _ => none

def junked (mem : Nat → Nat) (p n : Nat) : Prop := ∀ i, i < n → mem (p + i) = junkFree

instance (mem : Nat → Nat) (p n : Nat) : Decidable (junked mem p n) :=
  inferInstanceAs (Decidable (∀ i, i < n → mem (p + i) = junkFree))

def kheapMagAlloc (size : Nat) (h : KheapState) : Option (Nat × KheapState) :=
  match magSlot cfg cpu size with
  | none => some (0, h)
  | some (id, cls) =>
    match h.mag id cls with
    | [] => some (0, h)
    | b :: rest =>
      if (h.hdr b).magic = kheapMagMagic ∧ junked h.mem (b + headerSize) (h.hdr b).size then
        some (b + headerSize, (h.setMag id cls rest).setMagic b kheapMagic)
      else none

def kheapMagFree (h : KheapState) : Option KheapState :=
  match magSlot cfg cpu (h.hdr b).size with
  | none => none
  | some (id, cls) =>
    if (h.mag id cls).length < magDepth then
      some (((h.setMagic b kheapMagMagic).memset (b + headerSize) junkFree (h.hdr b).size).setMag
        id cls (b :: h.mag id cls))
    else none

def walkTopmost (h : KheapState) (p : Nat) (last : Option Nat) : Option Nat :=
  if p + headerSize ≤ h.current then
    let hd := h.hdr p
    if (hd.magic ≠ kheapMagic ∧ hd.magic ≠ kheapFreedMagic ∧ hd.magic ≠ kheapMagMagic) ∨
        hd.size = 0 then none
    else walkTopmost h (p + headerSize + hd.size) (some p)
  else if p = h.current then last else none
termination_by h.current - p
decreasing_by simp only [headerSize] at *; omega

def kheapWalkTopmost : Option Nat := walkTopmost h h.base none

def kheapMagEvictRange (lo hi : Nat) (h : KheapState) : KheapState :=
  let outside := fun b => ¬ (lo < b + headerSize + (h.hdr b).size ∧ b < hi)
  { h with mag := fun id cls =>
      if id < cfg.maxCpus then (h.mag id cls).filter fun b => decide (outside b) else h.mag id cls }

def KheapState.pushFree : KheapState :=
  let bkt := sizeToBucket (h.hdr b).size
  h.setList bkt (b :: h.freeLists bkt)

def bucketUnlink (h : KheapState) : Option KheapState :=
  let bkt := sizeToBucket (h.hdr b).size
  if b ∈ h.freeLists bkt then some (h.setList bkt ((h.freeLists bkt).erase b)) else none

def KheapState.retag (after : Nat) : KheapState :=
  if after < h.current then h.setPrevSize after (h.hdr b).size else { h with lastBlock := b }

def heapGrow (minimumBytes frames : Nat) (h : KheapState) : Bool × KheapState :=
  let pages := (minimumBytes + pageSize - 1) / pageSize
  (pages ≤ frames, { h with stop := h.stop + pageSize * min pages frames })

def kheapSplitBlock (want : Nat) (h : KheapState) : KheapState :=
  let rest := (h.hdr b).size - want
  if (h.hdr b).size ≤ want ∨ rest < headerSize + minSplitPayload then h
  else
    let tail := b + headerSize + want
    let h := h.setHdr tail ⟨rest - headerSize,want,kheapFreedMagic⟩
    let h := h.retag tail (tail + headerSize + (rest - headerSize))
    (h.setSize b want).pushFree tail

def kheapCheckJunk : Prop :=
  let p := b + headerSize
  let n := (h.hdr b).size
  let head := min n junkCheckHead
  let tail := min (n - head) junkCheckTail
  junked h.mem p head ∧ junked h.mem (p + (n - tail)) tail

instance (h : KheapState) (b : Nat) : Decidable (kheapCheckJunk h b) :=
  inferInstanceAs (Decidable (_ ∧ _))

def linkSound : Prop :=
  cfg.canonical b = true ∧ b % 16 = 0 ∧ h.base + headerSize ≤ b ∧
    b + headerSize + (h.hdr b).size ≤ h.stop ∧ (h.hdr b).magic = kheapFreedMagic

instance (cfg : KheapConfig) (h : KheapState) (b : Nat) : Decidable (linkSound cfg h b) :=
  inferInstanceAs (Decidable (_ ∧ _))

def searchList (cfg : KheapConfig) (h : KheapState) (size : Nat) :
    List Nat → Option (Option Nat)
  | [] => some none
  | b :: bs =>
    if linkSound cfg h b then
      if size ≤ (h.hdr b).size then
        if kheapCheckJunk h b then some (some b) else none
      else searchList cfg h size bs
    else none

def searchBuckets (cfg : KheapConfig) (h : KheapState) (size : Nat) :
    List Nat → Option (Option (Nat × Nat))
  | [] => some none
  | bkt :: bkts =>
    match searchList cfg h size (h.freeLists bkt) with
    | none => none
    | some (some b) => some (some (bkt, b))
    | some none => searchBuckets cfg h size bkts

def bumpBlock (size : Nat) (h : KheapState) : Nat × KheapState :=
  let b := alignUp h.current 16
  let prevSize := if h.lastBlock = 0 then 0 else (h.hdr h.lastBlock).size
  let h := h.setHdr b ⟨size,prevSize,kheapMagic⟩
  (b + headerSize, { h with current := b + headerSize + size, lastBlock := b })

def bumpAlloc (size : Nat) (h : KheapState) : Option (Nat × KheapState) :=
  let next := alignUp h.current 16 + headerSize + size
  if h.stop < next then
    let grown := heapGrow (headerSize + size) frames h
    if grown.1 then
      if grown.2.stop < next then none else some (bumpBlock size grown.2)
    else some (0, grown.2)
  else some (bumpBlock size h)

def lockedAlloc (size : Nat) (h : KheapState) : Option (Nat × KheapState) :=
  match searchBuckets cfg h size ((List.range nBuckets).drop (sizeToBucket size)) with
  | none => none
  | some (some (bkt, b)) =>
    let h := h.setList bkt ((h.freeLists bkt).erase b)
    some (b + headerSize, kheapSplitBlock b size (h.setMagic b kheapMagic))
  | some none => bumpAlloc frames size h

def kmallocInternal (size : Nat) (h : KheapState) : Option (Nat × KheapState) :=
  if size = 0 then some (0, h)
  else if klargeThreshold ≤ size then some (large, h)
  else
    let size := alignUp size 16
    match kheapMagAlloc cfg cpu size h with
    | none => none
    | some (p, h) => if p ≠ 0 then some (p, h) else lockedAlloc cfg frames size h

def kmalloc (size : Nat) (h : KheapState) : Option (Nat × KheapState) :=
  (kmallocInternal cfg cpu frames large size h).map fun r =>
    if r.1 ≠ 0 ∧ size < klargeThreshold then (r.1, r.2.memset r.1 junkAlloc size) else r

def kzalloc (size : Nat) (h : KheapState) : Option (Nat × KheapState) :=
  (kmallocInternal cfg cpu frames large size h).map fun r =>
    if r.1 ≠ 0 then (r.1, r.2.memset r.1 0 size) else r

def junkHeader : BlockHeader := ⟨0xdededededededede,0xdededededededede,0xdededede⟩

def absorb (next after : Nat) (h : KheapState) : KheapState :=
  let h := h.setSize b ((h.hdr b).size + (headerSize + (h.hdr next).size))
  ((h.retag b after).setHdr next junkHeader).memset next junkFree headerSize

def coalesceLeft (h : KheapState) : Option (Nat × KheapState) :=
  let prevPhys := b - headerSize - (h.hdr b).prevSize
  if 0 < (h.hdr b).prevSize ∧ h.base ≤ prevPhys ∧ (h.hdr prevPhys).magic = kheapFreedMagic then
    (bucketUnlink prevPhys h).map fun h =>
      let after := prevPhys + headerSize + ((h.hdr prevPhys).size + (headerSize + (h.hdr b).size))
      (prevPhys, absorb prevPhys b after h)
  else some (b, h)

def coalesceRight (h : KheapState) : Option KheapState :=
  let nextPhys := b + headerSize + (h.hdr b).size
  if nextPhys < h.current ∧ (h.hdr nextPhys).magic = kheapFreedMagic then
    (bucketUnlink nextPhys h).map fun h =>
      absorb b nextPhys (nextPhys + headerSize + (h.hdr nextPhys).size) h
  else some h

def returnTail (h : KheapState) : Option KheapState :=
  if cfg.pageReturn = true ∧ h.lastBlock = b ∧ shrinkMin ≤ (h.hdr b).size then
    if kheapWalkTopmost h = some b then
      let freeStart := alignUp (b + headerSize + 16) pageSize
      if freeStart < h.stop then
        let h := kheapMagEvictRange cfg freeStart h.stop h
        some ({ h with stop := freeStart, current := freeStart }.setSize b
          (freeStart - b - headerSize))
      else some h
    else none
  else some h

def lockedFree (h : KheapState) : Option KheapState :=
  if (h.hdr b).magic = kheapMagic then
    let h := (h.setMagic b kheapFreedMagic).memset (b + headerSize) junkFree (h.hdr b).size
    match coalesceLeft b h with
    | none => none
    | some (b, h) =>
      match coalesceRight b h with
      | none => none
      | some h => (returnTail cfg b h).map fun h => h.pushFree b
  else none

def kfree (p : Nat) (h : KheapState) : Option KheapState :=
  if p = 0 then some h
  else if cfg.canonical p = false then none
  else if cfg.largeStart ≤ p ∧ p < cfg.largeEnd then none
  else if h.base ≠ 0 ∧ ¬ (h.base + headerSize ≤ p ∧ p < h.stop) then none
  else
    let b := p - headerSize
    if (h.hdr b).magic = kheapMagic then (kheapMagFree cfg cpu b h).or (lockedFree cfg b h)
    else lockedFree cfg b h

def kheapInit (hdr : Nat → BlockHeader) (mem : Nat → Nat) (frames : Nat) : Option KheapState :=
  let h : KheapState :=
    { hdr := hdr, mem := mem, base := cfg.start, current := cfg.start, stop := cfg.start
      lastBlock := 0, freeLists := fun _ => [], mag := fun _ _ => [] }
  let grown := heapGrow pageSize frames h
  if grown.1 then some grown.2 else none

open Tiling List

def KheapState.size : Nat := (h.hdr b).size

def KheapState.width : Nat := headerSize + (h.hdr b).size

def KheapState.tag : Nat := (h.hdr b).prevSize

def KheapState.magic : Nat := (h.hdr b).magic

def KheapState.Free : Prop := h.magic b = kheapFreedMagic

def KheapState.Cached : Prop := h.magic b = kheapMagMagic

def KheapState.Live : Prop := h.magic b = kheapMagic

def Apart (a b : Nat) : Prop := ¬ (h.Free a ∧ h.Free b)

structure Geometry (h : KheapState) (blocks : List Nat) : Prop where
  base_pos : 0 < h.base
  base_aligned : 16 ∣ h.base
  tiles : Tiles h.width h.base blocks h.current
  sized : ∀ b ∈ blocks, 0 < h.size b ∧ 16 ∣ h.size b
  fits : h.current ≤ h.stop

structure Shape (h : KheapState) (blocks : List Nat) : Prop extends Geometry h blocks where
  tags : Tags h.size h.tag 0 blocks
  last : h.lastBlock = blocks.getLast?.getD 0

structure Listed (h : KheapState) (free : Nat → Prop) : Prop where
  mem_iff : ∀ bkt b, b ∈ h.freeLists bkt ↔ free b ∧ sizeToBucket (h.size b) = bkt
  nodup : ∀ bkt, (h.freeLists bkt).Nodup

structure Parked (h : KheapState) (cached : Nat → Prop) : Prop where
  slot : ∀ b, cached b → ∃ id cls, b ∈ h.mag id cls
  cached : ∀ id cls, ∀ b ∈ h.mag id cls, cached b ∧ magClass (h.size b) = some cls
  nodup : ∀ id cls, (h.mag id cls).Nodup
  unique : ∀ b id id' cls cls', b ∈ h.mag id cls → b ∈ h.mag id' cls' → id = id'

structure Sound (h : KheapState) (blocks : List Nat) : Prop extends Shape h blocks where
  classes : ∀ b ∈ blocks, h.Live b ∨ h.Free b ∨ h.Cached b
  apart : blocks.IsChain (Apart h)
  listed : Listed h fun b => b ∈ blocks ∧ h.Free b
  parked : Parked h fun b => b ∈ blocks ∧ h.Cached b

def LiveBlock (blocks : List Nat) (b s : Nat) : Prop := b ∈ blocks ∧ h.Live b ∧ h.size b = s

lemma live_not_free {h : KheapState} {b : Nat} (hl : h.Live b) : ¬ h.Free b := by
  intro hf
  have := hl.symm.trans hf
  simp [kheapMagic,kheapFreedMagic] at this

lemma live_not_cached {h : KheapState} {b : Nat} (hl : h.Live b) : ¬ h.Cached b := by
  intro hc
  have := hl.symm.trans hc
  simp [kheapMagic,kheapMagMagic] at this

lemma free_not_cached {h : KheapState} {b : Nat} (hf : h.Free b) : ¬ h.Cached b := by
  intro hc
  have := hf.symm.trans hc
  simp [kheapFreedMagic,kheapMagMagic] at this

lemma update_of_notin {f : Nat → Nat} {l : List Nat} {b v : Nat} (hb : b ∉ l) :
    ∀ x ∈ l, update f b v x = f x :=
  fun _ hx => update_of_ne (ne_of_mem_of_not_mem hx hb) _ _

section Fields

variable (h : KheapState) (b x v : Nat) (hd : BlockHeader)

lemma width_pos : 0 < h.width x := Nat.add_pos_left (by decide) _

lemma setHdr_size : (h.setHdr b hd).size = update h.size b hd.size :=
  comp_update BlockHeader.size h.hdr b hd

lemma setHdr_tag : (h.setHdr b hd).tag = update h.tag b hd.prevSize :=
  comp_update BlockHeader.prevSize h.hdr b hd

lemma setHdr_magic : (h.setHdr b hd).magic = update h.magic b hd.magic :=
  comp_update BlockHeader.magic h.hdr b hd

lemma setSize_size : (h.setSize b v).size = update h.size b v := setHdr_size h b _

lemma setSize_tag : (h.setSize b v).tag = h.tag := (setHdr_tag h b _).trans (update_eq_self b h.tag)

lemma setSize_magic : (h.setSize b v).magic = h.magic :=
  (setHdr_magic h b _).trans (update_eq_self b h.magic)

lemma setMagic_size : (h.setMagic b v).size = h.size :=
  (setHdr_size h b _).trans (update_eq_self b h.size)

lemma setMagic_tag : (h.setMagic b v).tag = h.tag := (setHdr_tag h b _).trans (update_eq_self b h.tag)

lemma setMagic_magic : (h.setMagic b v).magic = update h.magic b v := setHdr_magic h b _

variable {h b}

lemma retag_inner {after : Nat} (ha : after < h.current) :
    h.retag b after = h.setPrevSize after (h.size b) := if_pos ha

lemma retag_top {after : Nat} (ha : ¬ after < h.current) :
    h.retag b after = { h with lastBlock := b } := if_neg ha

lemma retag_size (after : Nat) : (h.retag b after).size = h.size := by
  by_cases ha : after < h.current
  · rw [retag_inner ha]
    exact (setHdr_size h after _).trans (update_eq_self after h.size)
  rw [retag_top ha]
  rfl

lemma retag_magic (after : Nat) : (h.retag b after).magic = h.magic := by
  by_cases ha : after < h.current
  · rw [retag_inner ha]
    exact (setHdr_magic h after _).trans (update_eq_self after h.magic)
  rw [retag_top ha]
  rfl

lemma retag_frame (after : Nat) : (h.retag b after).base = h.base ∧
    (h.retag b after).current = h.current ∧ (h.retag b after).stop = h.stop ∧
    (h.retag b after).freeLists = h.freeLists ∧ (h.retag b after).mag = h.mag := by
  by_cases ha : after < h.current
  · rw [retag_inner ha]
    exact ⟨rfl,rfl,rfl,rfl,rfl⟩
  rw [retag_top ha]
  exact ⟨rfl,rfl,rfl,rfl,rfl⟩

end Fields

section Congr

variable {h h' : KheapState} {blocks : List Nat}

lemma width_congr {b : Nat} (hsz : h'.size b = h.size b) : h'.width b = h.width b :=
  congrArg (headerSize + ·) hsz

lemma Geometry.nodup (hg : Geometry h blocks) : blocks.Nodup := hg.tiles.nodup (width_pos h)

lemma Geometry.congr (hg : Geometry h blocks) (hsz : ∀ b ∈ blocks, h'.size b = h.size b)
    (hbs : h'.base = h.base) (hcur : h'.current = h.current) (hsp : h.stop ≤ h'.stop) :
    Geometry h' blocks := by
  refine ⟨hbs ▸ hg.base_pos,hbs ▸ hg.base_aligned,?_,?_,?_⟩
  · rw [hbs,hcur]
    exact hg.tiles.congr fun b hb => width_congr (hsz b hb)
  · intro b hb
    rw [hsz b hb]
    exact hg.sized b hb
  rw [hcur]
  exact hg.fits.trans hsp

lemma Shape.congr (hs : Shape h blocks) (hsz : ∀ b ∈ blocks, h'.size b = h.size b)
    (htag : ∀ b ∈ blocks, h'.tag b = h.tag b) (hbs : h'.base = h.base) (hcur : h'.current = h.current)
    (hsp : h.stop ≤ h'.stop) (hla : h'.lastBlock = h.lastBlock) : Shape h' blocks :=
  ⟨hs.toGeometry.congr hsz hbs hcur hsp,hs.tags.congr hsz htag,hla.trans hs.last⟩

lemma Listed.congr {free free' : Nat → Prop} (hl : Listed h free) (hfe : ∀ b, free' b ↔ free b)
    (hsz : ∀ b, free b → h'.size b = h.size b) (hls : h'.freeLists = h.freeLists) : Listed h' free' := by
  refine ⟨fun bkt b => ?_,hls ▸ hl.nodup⟩
  rw [hls,hl.mem_iff,hfe]
  exact and_congr_right fun hb => by rw [hsz b hb]

lemma Parked.congr {cached cached' : Nat → Prop} (hp : Parked h cached)
    (hcc : ∀ b, cached' b ↔ cached b) (hsz : ∀ b, cached b → h'.size b = h.size b)
    (hmag : h'.mag = h.mag) : Parked h' cached' := by
  refine ⟨fun b hb => hmag ▸ hp.slot b ((hcc b).mp hb),?_,hmag ▸ hp.nodup,
    hmag ▸ hp.unique⟩
  intro id cls b hb
  obtain ⟨hc,hcls⟩ := hp.cached id cls b (hmag ▸ hb)
  exact ⟨(hcc b).mpr hc,by rw [hsz b hc,hcls]⟩

lemma isChain_congr {blocks : List Nat} (hc : blocks.IsChain (Apart h))
    (hmg : ∀ b ∈ blocks, h'.Free b → h.Free b) : blocks.IsChain (Apart h') := by
  induction blocks with
  | nil => exact List.IsChain.nil
  | cons b _ ih =>
    obtain ⟨hhd,hta⟩ := isChain_cons.mp hc
    refine isChain_cons.mpr ⟨?_,ih hta fun c hc => hmg c (.tail b hc)⟩
    intro c hcs hfe
    refine hhd c hcs ⟨hmg b (.head _) hfe.1,hmg c ?_ hfe.2⟩
    exact .tail b (mem_of_mem_head? hcs)

end Congr

lemma alignUp_spec (x : Nat) {a : Nat} (ha : 0 < a) :
    x ≤ alignUp x a ∧ alignUp x a < x + a ∧ a ∣ alignUp x a := by
  have hmod := mod_lt (x + a - 1) ha
  have hdiv := div_add_mod (x + a - 1) a
  rw [mul_comm] at hdiv
  have : alignUp x a = (x + a - 1) / a * a := rfl
  exact ⟨by omega,by omega,dvd_mul_left ..⟩

lemma alignUp_of_dvd {x a : Nat} (ha : 0 < a) (hx : a ∣ x) : alignUp x a = x := by
  obtain ⟨hle,hlt,hdvd⟩ := alignUp_spec x ha
  obtain ⟨k,hk⟩ := (dvd_sub hdvd hx)
  have hk0 : k = 0 := by
    obtain h | h := Nat.eq_zero_or_pos k
    · exact h
    have := Nat.le_mul_of_pos_right a h
    omega
  rw [hk0] at hk
  omega

lemma Geometry.aligned {h : KheapState} {blocks : List Nat} (hg : Geometry h blocks) :
    16 ∣ h.current ∧ ∀ b ∈ blocks, 16 ∣ b :=
  hg.tiles.dvd hg.base_aligned fun b hb => dvd_add (by decide) (hg.sized b hb).2

section Neighbours

variable {h : KheapState} {pre post : List Nat} {b : Nat}

lemma Geometry.after (hg : Geometry h (pre ++ b :: post)) :
    Tiles h.width (b + h.width b) post h.current := by
  obtain ⟨q,-,rfl,hpo⟩ := tiles_append.mp hg.tiles
  exact hpo

lemma Geometry.after_nil (hg : Geometry h (pre ++ [b])) : b + h.width b = h.current := hg.after

lemma Geometry.after_cons {c : Nat} (hg : Geometry h (pre ++ b :: c :: post)) :
    c = b + h.width b ∧ c < h.current := by
  have haf := hg.after
  have hc := (haf.within (.head _)).2
  have := width_pos h c
  exact ⟨haf.1,by omega⟩

lemma Geometry.notin (hg : Geometry h (pre ++ b :: post)) : b ∉ pre ∧ b ∉ post := by
  obtain ⟨-,hnd,hdj⟩ := nodup_append.mp hg.nodup
  exact ⟨fun hb => hdj b hb b (.head _) rfl,(nodup_cons.mp hnd).1⟩

lemma Shape.before (hs : Shape h (pre ++ b :: post)) :
    (pre = [] ∧ h.tag b = 0) ∨
      ∃ pre' a, pre = pre' ++ [a] ∧ h.tag b = h.size a ∧ b = a + h.width a ∧ h.base ≤ a := by
  obtain rfl | ⟨pre',a,rfl⟩ := eq_nil_or_concat pre
  · exact .inl ⟨rfl,hs.tags.1⟩
  right
  rw [concat_eq_append,append_assoc] at hs
  have htag := (tags_append.mp hs.tags).2.2.1
  have hnx := hs.toGeometry.after_cons.1
  have ha := (hs.tiles.within (mem_append_right _ (.head _))).1
  exact ⟨pre',a,by rw [concat_eq_append],htag,hnx,ha⟩

lemma Geometry.retag (hg : Geometry h (pre ++ b :: post)) {v after : Nat}
    (hpre : Tags h.size h.tag 0 (pre ++ [b])) (hpo : Tags h.size h.tag v post)
    (hla : ∀ x ∈ post.getLast?, h.lastBlock = x) (haf : after = b + h.width b) :
    Shape (h.retag b after) (pre ++ b :: post) := by
  obtain ⟨hbs,hcur,hsp,-,-⟩ := retag_frame after
  have hgeo : Geometry (h.retag b after) (pre ++ b :: post) :=
    hg.congr (fun x _ => by rw [retag_size]) hbs hcur hsp.symm.le
  cases post with
  | nil =>
    have htop : ¬ after < h.current := by
      have := hg.after_nil
      omega
    refine ⟨hgeo,?_,?_⟩
    · rw [retag_top htop]
      exact hpre
    rw [retag_top htop,getLast?_append]
    rfl
  | cons c post =>
    obtain ⟨hc,hlt⟩ := hg.after_cons
    obtain rfl : c = after := hc.trans haf.symm
    have hnew : c ∉ pre ++ [b] ∧ c ∉ post := by
      rw [append_cons] at hg
      exact hg.notin
    have htag : (h.retag b c).tag = update h.tag c (h.size b) := by
      rw [retag_inner hlt]
      exact setHdr_tag h c _
    refine ⟨hgeo,?_,?_⟩
    · rw [append_cons,retag_size,htag]
      refine tags_append.mpr ⟨hpre.congr (fun _ _ => rfl) ?_,?_⟩
      · exact update_of_notin hnew.1
      rw [tagAfter_append]
      refine hpo.retag (fun _ _ => rfl) ?_ ?_
      · rintro x hx
        cases hx
        exact update_self ..
      exact update_of_notin hnew.2
    rw [retag_inner hlt,getLast?_append]
    have hne : ((b :: c :: post).getLast?) = (c :: post).getLast? := getLast?_cons_cons
    rw [hne]
    cases hl : (c :: post).getLast? with
    | none => simp at hl
    | some x => exact hla x hl

end Neighbours

end B1nix.Kheap
