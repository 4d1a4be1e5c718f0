import B1nix.Basic.Splice
import B1nix.Lz4.Model

namespace B1nix.Dev

open Splice Lz4 Nat UInt64 Option

def zramRaw : Nat := 0xFFFF

def zramZero : Nat := 1

structure ZramPage where
  data : Option (List UInt8)
  size : Nat
deriving DecidableEq, Repr

structure MmStat where
  origBytes : UInt64
  comprBytes : UInt64
  memUsedMax : UInt64
  samePages : UInt64
  hugePages : UInt64
deriving DecidableEq, Repr

structure Zram where
  sized : Bool
  disksize : Nat
  npages : Nat
  blockCount : Nat
  pages : Nat → ZramPage
  stat : MmStat

def Zram.blank : Zram :=
  ⟨false,0,0,0,fun _ => ⟨none,0⟩,⟨0,0,0,0,0⟩⟩

def einval : Int := 22

def ebusy : Int := 16

def enomem : Int := 12

def disksizePages (bytes : UInt64) : Nat := (bytes.toNat + pageSize - 1) % 2 ^ 64 / pageSize

def zramSetDisksize (usable : UInt64) (alloc : Bool) (z : Zram) (bytes : UInt64) : Int × Zram :=
  if bytes = 0 then (-einval, z)
  else if z.sized then (-ebusy, z)
  else
    let npages := disksizePages bytes
    if usable.toNat / 8 < npages * 16 % 2 ^ 64 then (-enomem, z)
    else if alloc = false then (-enomem, z)
    else (0, { z with
      sized := true
      disksize := npages * pageSize % 2 ^ 64
      npages := npages
      blockCount := npages * sectorsPerPage % 2 ^ 64
      pages := fun _ => ⟨none,0⟩ })

def zramTeardown (_ : Zram) : Zram := Zram.blank

def zramReset (inUse : Bool) (z : Zram) : Int × Zram :=
  if inUse then (-ebusy, z) else (0, zramTeardown z)

variable (z : Zram) (idx : Nat) (st : MmStat) (pg : ZramPage) (size : Nat)

def storedBytes : UInt64 :=
  if size = zramRaw then ofNat pageSize else ofNat size

def MmStat.dropBlob : MmStat :=
  { st with
    comprBytes := st.comprBytes - storedBytes size
    hugePages := if size = zramRaw ∧ st.hugePages ≠ 0 then st.hugePages - 1 else st.hugePages }

def MmStat.dropZero : MmStat :=
  { st with samePages := if st.samePages ≠ 0 then st.samePages - 1 else st.samePages }

def MmStat.dropOrig : MmStat :=
  { st with
    origBytes := if ofNat pageSize ≤ st.origBytes then
      st.origBytes - ofNat pageSize else st.origBytes }

def MmStat.drop : MmStat :=
  match pg.data with
  | some _ => (st.dropBlob pg.size).dropOrig
  | none => if pg.size = 0 then st else st.dropZero.dropOrig

def Zram.setPage (stat : MmStat) : Zram :=
  { z with pages := Function.update z.pages idx pg, stat := stat }

def zramPageDrop : Zram := z.setPage idx ⟨none,0⟩ (z.stat.drop (z.pages idx))

def zramPageRead : Option (List UInt8) :=
  match pg.data with
  | none => some (List.replicate pageSize 0)
  | some data =>
    if pg.size = zramRaw then some (data.take pageSize)
    else lz4Decompress (data.take pg.size) pageSize

def zramAllZero (input : List UInt8) : Bool := input.all (· = 0)

def zramEncode (input : List UInt8) : ZramPage :=
  let r := lz4Compress input (lz4CompressBound pageSize)
  if 0 < r.1 ∧ r.1 < pageSize then ⟨some r.2,r.1.toNat⟩
  else ⟨some (input ++ r.2.drop pageSize),zramRaw⟩

def ZramPage.fitted : ZramPage := { pg with data := pg.data.map (·.take pg.size) }

def MmStat.store : MmStat :=
  let compr := st.comprBytes + storedBytes size
  { st with
    comprBytes := compr
    hugePages := if size = zramRaw then st.hugePages + 1 else st.hugePages
    origBytes := st.origBytes + ofNat pageSize
    memUsedMax := if st.memUsedMax < compr then compr else st.memUsedMax }

def MmStat.storeZero : MmStat :=
  { st with samePages := st.samePages + 1, origBytes := st.origBytes + ofNat pageSize }

def zramPageWrite (pre fit : Bool) (z : Zram) (idx : Nat) (input : List UInt8) : Option Zram :=
  if pre = false then none
  else if z.sized = false ∨ z.npages ≤ idx then none
  else
    let dropped := zramPageDrop z idx
    if zramAllZero input then
      some (dropped.setPage idx ⟨none,zramZero⟩ dropped.stat.storeZero)
    else
      let pg := zramEncode input
      let stat := dropped.stat.store pg.size
      if pg.size ≠ zramRaw ∧ pg.size < lz4CompressBound pageSize / 2 ∧ fit then
        some (dropped.setPage idx pg.fitted stat)
      else some (dropped.setPage idx pg stat)

def zramPageCopyOut (off len : Nat) : Option (List UInt8) :=
  if z.sized = false ∨ z.npages ≤ idx then none
  else (zramPageRead (z.pages idx)).map (slice · off len)

structure Allocs where
  pre : Nat → Bool
  fit : Nat → Bool
  rmw : Nat → Bool

structure Outcome where
  rc : Int
  dev : Zram
  buffer : List UInt8

def zramReadLoop (z : Zram) (lba count s : Nat) (user : List UInt8) : Outcome :=
  if s < count then
    let sector := (lba + s) % 2 ^ 64
    let idx := sector / sectorsPerPage
    let off := sector % sectorsPerPage * sectorSize
    if z.npages ≤ idx then ⟨-1,z,user⟩
    else
      match zramPageCopyOut z idx off sectorSize with
      | none => ⟨-1,z,user⟩
      | some bytes => zramReadLoop z lba count (s + 1) (splice user (s * sectorSize) bytes)
  else ⟨0,z,user⟩
termination_by count - s

def zramWriteLoop (m : Allocs) (user : List UInt8) (z : Zram) (lba count s : Nat) (rmw : Bool) :
    Outcome :=
  if s < count then
    let sector := (lba + s) % 2 ^ 64
    let idx := sector / sectorsPerPage
    let off := sector % sectorsPerPage * sectorSize
    if z.npages ≤ idx then ⟨-1,z,user⟩
    else if off = 0 ∧ sectorsPerPage ≤ count - s then
      match zramPageWrite (m.pre s) (m.fit s) z idx (slice user (s * sectorSize) pageSize) with
      | none => ⟨-1,z,user⟩
      | some z' => zramWriteLoop m user z' lba count (s + (sectorsPerPage - 1) + 1) rmw
    else if rmw = false ∧ m.rmw s = false then ⟨-1,z,user⟩
    else
      match zramPageCopyOut z idx 0 pageSize with
      | none => ⟨-1,z,user⟩
      | some page =>
        match zramPageWrite (m.pre s) (m.fit s) z idx
            (splice page off (slice user (s * sectorSize) sectorSize)) with
        | none => ⟨-1,z,user⟩
        | some z' => zramWriteLoop m user z' lba count (s + 1) true
  else ⟨0,z,user⟩
termination_by count - s

structure Request where
  lba : UInt64
  count : UInt32
  buffer : List UInt8
  write : Bool
  room : count.toNat * sectorSize ≤ buffer.length

def zramRw (m : Allocs) (z : Zram) (r : Request) : Outcome :=
  if z.sized = false ∨ z.npages = 0 then ⟨-1,z,r.buffer⟩
  else if z.blockCount < (r.lba.toNat + r.count.toNat) % 2 ^ 64 then ⟨-1,z,r.buffer⟩
  else if r.write then zramWriteLoop m r.buffer z r.lba.toNat r.count.toNat 0 false
  else zramReadLoop z r.lba.toNat r.count.toNat 0 r.buffer

inductive Op where
  | rw (m : Allocs) (r : Request)
  | disksize (usable : UInt64) (alloc : Bool) (bytes : UInt64)
  | reset (inUse : Bool)

def Zram.step : Op → Outcome
  | .rw m r => zramRw m z r
  | .disksize usable alloc bytes =>
    ⟨(zramSetDisksize usable alloc z bytes).1,(zramSetDisksize usable alloc z bytes).2,[]⟩
  | .reset inUse => ⟨(zramReset inUse z).1,(zramReset inUse z).2,[]⟩

def Zram.run (z : Zram) : List Op → List (Int × List UInt8)
  | [] => []
  | op :: ops => ((z.step op).rc, (z.step op).buffer) :: (z.step op).dev.run ops

open Function List

structure SectorArray where
  sized : Bool
  size : Nat
  sector : Nat → List UInt8

def zeroSector : List UInt8 := replicate sectorSize 0

def SectorArray.blank : SectorArray := ⟨false,0,fun _ => zeroSector⟩

variable (a : SectorArray)

def SectorArray.write (lba count : Nat) (data : List UInt8) : SectorArray :=
  { a with
    sector := fun n =>
      if lba ≤ n ∧ n < lba + count then slice data ((n - lba) * sectorSize) sectorSize
      else a.sector n }

def SectorArray.read (lba count : Nat) : List UInt8 :=
  (range count).flatMap (fun s => a.sector (lba + s))

structure Effect where
  rc : Int
  dev : SectorArray
  buffer : List UInt8

def SectorArray.rw (r : Request) : Effect :=
  let lba := r.lba.toNat
  let count := r.count.toNat
  if a.size = 0 ∨ a.size < lba + count then ⟨-1,a,r.buffer⟩
  else if r.write then ⟨0,a.write lba count r.buffer,r.buffer⟩
  else ⟨0,a,a.read lba count ++ r.buffer.drop (count * sectorSize)⟩

def SectorArray.setSize (usable : UInt64) (alloc : Bool) (bytes : UInt64) : Effect :=
  if bytes = 0 then ⟨-einval,a,[]⟩
  else if a.sized then ⟨-ebusy,a,[]⟩
  else if usable.toNat / 8 < disksizePages bytes * 16 ∨ alloc = false then ⟨-enomem,a,[]⟩
  else ⟨0,⟨true,disksizePages bytes * sectorsPerPage,fun _ => zeroSector⟩,[]⟩

def SectorArray.step : Op → Effect
  | .rw _ r => a.rw r
  | .disksize usable alloc bytes => a.setSize usable alloc bytes
  | .reset inUse => if inUse then ⟨-ebusy,a,[]⟩ else ⟨0,SectorArray.blank,[]⟩

def SectorArray.run (a : SectorArray) : List Op → List (Int × List UInt8)
  | [] => []
  | op :: ops => ((a.step op).rc, (a.step op).buffer) :: (a.step op).dev.run ops

def Allocs.Succeed (m : Allocs) : Prop := ∀ s, m.pre s = true ∧ m.rmw s = true

def Op.AllocSucceeds : Op → Prop
  | .rw m _ => m.Succeed
  | _ => True

structure Zram.Refines (z : Zram) (a : SectorArray) : Prop where
  sized : z.sized = a.sized
  unsized : z.sized = false → z.npages = 0
  npages_le : z.npages ≤ 2 ^ 52
  blockCount : z.blockCount = a.size
  size : a.size = z.npages * sectorsPerPage
  sectors : ∀ n < a.size, ∃ page, zramPageRead (z.pages (n / sectorsPerPage)) = some page ∧
    page.length = pageSize ∧ slice page (n % sectorsPerPage * sectorSize) sectorSize = a.sector n

variable {input user l : List UInt8} {idx lba s count n : Nat} {a : SectorArray} {m : Allocs}
  {z : Zram}

lemma zramPageRead_encode (h : input.length = pageSize) : zramPageRead (zramEncode input) = some input := by
  unfold zramEncode
  dsimp only
  split_ifs with hc
  · have hraw : (lz4Compress input (lz4CompressBound pageSize)).1.toNat ≠ zramRaw := by
      simp only [pageSize,zramRaw] at *
      omega
    have hsz : input.length < 2 ^ 31 := by
      rw [h]
      decide
    have hrt := roundTrip input _ hsz hc.1
    rw [h] at hrt
    simp [zramPageRead,if_neg hraw,hrt]
  simp [zramPageRead,← h]

lemma zramPageRead_fitted (h : pg.size ≠ zramRaw) : zramPageRead pg.fitted = zramPageRead pg := by
  cases pg with
  | mk data =>
    cases data with
    | none => rfl
    | some => simp [zramPageRead,ZramPage.fitted,if_neg h,take_take]

lemma eq_replicate_of_zramAllZero (h : input.length = pageSize) (hz : zramAllZero input = true) :
    input = replicate pageSize 0 := by
  rw [← h]
  refine eq_replicate_length.mpr fun b hb => ?_
  simpa using all_eq_true.mp hz b hb

lemma zramPageWrite_spec (fit : Bool) (hs : z.sized = true) (hidx : idx < z.npages)
    (hlen : input.length = pageSize) :
    ∃ pg st, zramPageWrite true fit z idx input = some (z.setPage idx pg st) ∧
      zramPageRead pg = some input := by
  unfold zramPageWrite
  rw [if_neg Bool.true_eq_false_eq_False,if_neg (by simp [hs]; omega)]
  simp only [zramPageDrop,Zram.setPage,update_idem]
  split
  · next hz => exact ⟨_,_,rfl,by rw [eq_replicate_of_zramAllZero hlen hz]; rfl⟩
  split_ifs with hfit
  · exact ⟨_,_,rfl,by rw [zramPageRead_fitted _ hfit.1,zramPageRead_encode hlen]⟩
  exact ⟨_,_,rfl,zramPageRead_encode hlen⟩

def SectorArray.setPage (a : SectorArray) (idx : Nat) (page : List UInt8) : SectorArray :=
  { a with
    sector := fun n =>
      if n / sectorsPerPage = idx then slice page (n % sectorsPerPage * sectorSize) sectorSize
      else a.sector n }

lemma Zram.Refines.setPage (h : z.Refines a) {pg : ZramPage} {st : MmStat}
    {page : List UInt8} (hra : zramPageRead pg = some page) (hlen : page.length = pageSize) :
    (z.setPage idx pg st).Refines (a.setPage idx page) := by
  refine ⟨h.sized,h.unsized,h.npages_le,h.blockCount,h.size,fun n hn => ?_⟩
  by_cases heq : n / sectorsPerPage = idx
  · refine ⟨page,?_,hlen,?_⟩
    · simp [Zram.setPage,heq,hra]
    simp [SectorArray.setPage,if_pos heq]
  simp only [Zram.setPage,SectorArray.setPage,if_neg heq,update_of_ne heq]
  exact h.sectors n hn

lemma Zram.Refines.page (h : z.Refines a) (hidx : idx < z.npages) :
    ∃ page, zramPageRead (z.pages idx) = some page ∧
      page.length = pageSize ∧ ∀ j < sectorsPerPage,
        slice page (j * sectorSize) sectorSize = a.sector (idx * sectorsPerPage + j) := by
  have hsz := h.size
  rw [sectorsPerPage_eq] at hsz ⊢
  obtain ⟨page,hra,hlen,-⟩ := h.sectors (idx * 8) (by omega)
  rw [sectorsPerPage_eq,Nat.mul_div_cancel _ (by decide)] at hra
  refine ⟨page,hra,hlen,fun j hj => ?_⟩
  obtain ⟨page',hread',-,hsec⟩ := h.sectors (idx * 8 + j) (by omega)
  rw [sectorsPerPage_eq,show (idx * 8 + j) / 8 = idx by omega,hra,some.injEq] at hread'
  rw [sectorsPerPage_eq,show (idx * 8 + j) % 8 = j by omega,← hread'] at hsec
  exact hsec

def SectorArray.writeFrom (a : SectorArray) (lba s count : Nat) (data : List UInt8) :
    SectorArray :=
  { a with
    sector := fun n =>
      if lba + s ≤ n ∧ n < lba + count then slice data ((n - lba) * sectorSize) sectorSize
      else a.sector n }

lemma writeFrom_full (a : SectorArray) (hal : (lba + s) % sectorsPerPage = 0)
    (hs : s + sectorsPerPage ≤ count) :
    (a.setPage ((lba + s) / sectorsPerPage) (slice user (s * sectorSize) pageSize)).writeFrom
      lba (s + (sectorsPerPage - 1) + 1) count user = a.writeFrom lba s count user := by
  simp only [SectorArray.writeFrom,SectorArray.setPage,SectorArray.mk.injEq,true_and,
    sectorsPerPage_eq,sectorSize_eq,pageSize_eq] at *
  funext n
  by_cases hpg : n / 8 = (lba + s) / 8
  · have hoff : s * 512 + n % 8 * 512 = (n - lba) * 512 := by omega
    have hfit : n % 8 * 512 + 512 ≤ 4096 := by omega
    rw [if_pos (show lba + s ≤ n ∧ n < lba + count by omega),
      if_neg (show ¬(lba + (s + (8 - 1) + 1) ≤ n ∧ n < lba + count) by omega),if_pos hpg,
      slice_slice _ hfit,hoff]
  rw [if_neg hpg]
  by_cases hin : lba + s ≤ n ∧ n < lba + count
  · rw [if_pos hin,if_pos (by omega)]
  rw [if_neg hin,if_neg (by omega)]

lemma writeFrom_partial {page : List UInt8} (hs : s < count)
    (hro : count * sectorSize ≤ user.length) (hlen : page.length = pageSize)
    (hpg : ∀ j < sectorsPerPage, slice page (j * sectorSize) sectorSize =
      a.sector ((lba + s) / sectorsPerPage * sectorsPerPage + j)) :
    (a.setPage ((lba + s) / sectorsPerPage)
      (splice page ((lba + s) % sectorsPerPage * sectorSize)
        (slice user (s * sectorSize) sectorSize))).writeFrom lba (s + 1) count user =
      a.writeFrom lba s count user := by
  simp only [SectorArray.writeFrom,SectorArray.setPage,SectorArray.mk.injEq,true_and,
    sectorsPerPage_eq,sectorSize_eq] at *
  have hda := length_slice ((sector_end_le hs).trans hro)
  have hat : (lba + s) % 8 * 512 + 512 ≤ page.length := by
    rw [hlen]
    exact sector_end_le (mod_lt _ (by decide))
  funext n
  by_cases hn : n = lba + s
  · subst hn
    rw [if_neg (by omega),if_pos rfl,if_pos (by omega),Nat.add_sub_cancel_left]
    have hse := slice_splice_self (slice user (s * 512) 512)
      (le_of_add_right_le hat)
    rwa [hda] at hse
  have hrs : (if lba + (s + 1) ≤ n ∧ n < lba + count then slice user ((n - lba) * 512) 512
      else a.sector n) = if lba + s ≤ n ∧ n < lba + count then slice user ((n - lba) * 512) 512
      else a.sector n := by
    by_cases hin : lba + s ≤ n ∧ n < lba + count
    · rw [if_pos hin,if_pos (by omega)]
    rw [if_neg hin,if_neg (by omega)]
  rw [← hrs]
  congr 1
  by_cases hsa : n / 8 = (lba + s) / 8
  · have hold : slice page (n % 8 * 512) 512 = a.sector n := by
      rw [hpg (n % 8) (by omega),show (lba + s) / 8 * 8 + n % 8 = n by omega]
    rw [if_pos hsa,← hold]
    obtain hlt | hgt := lt_or_gt_of_ne (show n % 8 ≠ (lba + s) % 8 by omega)
    · exact slice_splice_before (le_of_add_right_le hat) (sector_end_le hlt)
    refine slice_splice_after (le_of_add_right_le hat) ?_
    rw [hda]
    exact sector_end_le hgt
  rw [if_neg hsa]

lemma Zram.Refines.lba_lt (h : z.Refines a) (hin : lba + count ≤ a.size) (hs : s < count) :
    (lba + s) % 2 ^ 64 = lba + s ∧ (lba + s) / sectorsPerPage < z.npages := by
  have hsz := h.size
  have hle := h.npages_le
  rw [sectorsPerPage_eq] at hsz ⊢
  omega

lemma zramPageCopyOut_eq (hs : z.sized = true) (hidx : idx < z.npages) (off len : Nat) :
    zramPageCopyOut z idx off len = (zramPageRead (z.pages idx)).map (slice · off len) := by
  unfold zramPageCopyOut
  rw [if_neg]
  rintro (h | h)
  · exact absurd h (by simp [hs])
  cases not_lt.mpr h hidx

lemma writeFrom_nil (a : SectorArray) (user : List UInt8) (h : count ≤ s) :
    a.writeFrom lba s count user = a := by
  cases a with
  | mk =>
    simp only [SectorArray.writeFrom,SectorArray.mk.injEq,true_and]
    funext n
    rw [if_neg (by omega)]

lemma full_page (hlt : s < count) (hro : count * sectorSize ≤ user.length)
    (hfu : (lba + s) % sectorsPerPage * sectorSize = 0 ∧ sectorsPerPage ≤ count - s) :
    (lba + s) % sectorsPerPage = 0 ∧ s * sectorSize + pageSize ≤ user.length := by
  obtain ⟨hoff,hle⟩ := hfu
  refine ⟨(Nat.mul_eq_zero.mp hoff).resolve_right (by decide),le_trans ?_ hro⟩
  calc s * sectorSize + pageSize = (s + sectorsPerPage) * sectorSize := by
        rw [add_mul]
        rfl
    _ ≤ count * sectorSize := mul_le_mul_right _ (by omega)

lemma sector_fits (lba s : Nat) {page : List UInt8} (hlen : page.length = pageSize) :
    (lba + s) % sectorsPerPage * sectorSize + sectorSize ≤ page.length := by
  rw [hlen]
  exact sector_end_le (mod_lt _ (by decide))

lemma length_splice_sector (lba : Nat) {page : List UInt8} (hlt : s < count)
    (hro : count * sectorSize ≤ user.length) (hlen : page.length = pageSize) :
    (splice page ((lba + s) % sectorsPerPage * sectorSize)
      (slice user (s * sectorSize) sectorSize)).length = pageSize := by
  have hda : (slice user (s * sectorSize) sectorSize).length = sectorSize :=
    length_slice ((sector_end_le hlt).trans hro)
  rw [length_splice,hlen]
  rw [hda]
  exact sector_fits lba s hlen

lemma slice_zero (h : l.length = n) : slice l 0 n = l := by
  rw [slice,drop_zero,take_of_length_le h.le]

lemma zramWriteLoop_spec (hm : m.Succeed) {rmw : Bool} (h : z.Refines a)
    (hs : z.sized = true) (hin : lba + count ≤ a.size) (hro : count * sectorSize ≤ user.length) :
    ∃ z', zramWriteLoop m user z lba count s rmw = ⟨0,z',user⟩ ∧
      z'.Refines (a.writeFrom lba s count user) := by
  induction hk : count - s using Nat.strongRecOn generalizing z a s rmw with
  | ind k ih =>
    rw [zramWriteLoop]
    by_cases hlt : s < count
    · obtain ⟨hmod,hidx⟩ := h.lba_lt hin hlt
      simp only [if_pos hlt,hmod,if_neg hidx.not_ge,(hm s).1,(hm s).2,
        Bool.true_eq_false,and_false]
      by_cases hfu : (lba + s) % sectorsPerPage * sectorSize = 0 ∧ sectorsPerPage ≤ count - s
      · obtain ⟨hal,hend⟩ := full_page hlt hro hfu
        have hlen := length_slice hend
        obtain ⟨pg,st,hwt,hra⟩ := zramPageWrite_spec (m.fit s) hs hidx hlen
        rw [if_pos hfu,hwt,← writeFrom_full a hal (by omega)]
        exact ih _ (by omega) (h.setPage hra hlen) hs hin rfl
      obtain ⟨page,hra,hplen,hpg⟩ := h.page hidx
      have hlen := length_splice_sector lba hlt hro hplen
      obtain ⟨pg,st,hwt,hread'⟩ := zramPageWrite_spec (m.fit s) hs hidx hlen
      rw [if_neg hfu,zramPageCopyOut_eq hs hidx,hra,map_some,slice_zero hplen]
      dsimp only
      rw [hwt,← writeFrom_partial hlt hro hplen hpg]
      exact ih _ (by omega) (h.setPage hread' hlen) hs hin rfl
    rw [if_neg hlt,writeFrom_nil a user (not_lt.mp hlt)]
    exact ⟨z,rfl,h⟩

lemma zramReadLoop_spec (h : z.Refines a) (hs : z.sized = true) (hin : lba + count ≤ a.size) (k : Nat) :
    ∀ {s : Nat} {user : List UInt8}, s + k = count → count * sectorSize ≤ user.length →
      zramReadLoop z lba count s user = ⟨0,z,user.take (s * sectorSize) ++
        (range' s k).flatMap (fun i => a.sector (lba + i)) ++
          user.drop (count * sectorSize)⟩ := by
  induction k with
  | zero =>
    intro s user hk hro
    rw [zramReadLoop,if_neg (by omega),← hk,add_zero,range'_zero,
      flatMap_nil,append_nil,take_append_drop]
  | succ k ih =>
    intro s user hk hro
    have hlt : s < count := by omega
    obtain ⟨hmod,hidx⟩ := h.lba_lt hin hlt
    obtain ⟨page,hra,hlen,hsec⟩ := h.sectors (lba + s) (by omega)
    have hby : (a.sector (lba + s)).length = sectorSize := by
      rw [← hsec]
      exact length_slice (sector_fits lba s hlen)
    have hend : s * sectorSize + sectorSize ≤ count * sectorSize := sector_end_le hlt
    rw [zramReadLoop]
    simp only [if_pos hlt,hmod,if_neg hidx.not_ge,zramPageCopyOut_eq hs hidx,hra,
      map_some,hsec]
    have htk := take_splice (a.sector (lba + s))
      ((le_of_add_right_le hend).trans hro)
    have hdp := drop_splice (a := count * sectorSize) (a.sector (lba + s))
      ((le_of_add_right_le hend).trans hro) (by rw [hby]; exact hend)
    have hfit : s * sectorSize + (a.sector (lba + s)).length ≤ user.length := by
      rw [hby]
      exact hend.trans hro
    have hsz := length_splice (a.sector (lba + s)) hfit
    rw [hby,← succ_mul] at htk
    rw [ih (by omega) (by rw [hsz]; exact hro),htk,hdp,range'_succ]
    simp

lemma zramRw_outside (h : z.Refines a) (r : Request)
    (hout : a.size < r.lba.toNat + r.count.toNat) : zramRw m z r = ⟨-1,z,r.buffer⟩ := by
  have hlba := r.lba.toNat_lt
  have hct := r.count.toNat_lt
  have hnp := h.npages_le
  unfold zramRw
  split
  · rfl
  split
  · rfl
  next hwrap =>
  rw [h.blockCount] at hwrap
  have hpos : 0 < r.count.toNat := by omega
  have hidx : z.npages ≤ r.lba.toNat / sectorsPerPage := by
    rw [sectorsPerPage_eq] at *
    omega
  rw [zramWriteLoop,zramReadLoop]
  simp [if_pos hpos,if_pos hidx]

lemma zramRw_inside (h : z.Refines a) (r : Request) (hsize : a.size ≠ 0)
    (hin : r.lba.toNat + r.count.toNat ≤ a.size) :
    z.sized = true ∧ zramRw m z r =
      if r.write then zramWriteLoop m r.buffer z r.lba.toNat r.count.toNat 0 false
      else zramReadLoop z r.lba.toNat r.count.toNat 0 r.buffer := by
  have hnp : z.npages ≠ 0 := by
    intro hz
    rw [h.size,hz] at hsize
    exact hsize rfl
  have hs : z.sized = true := by
    cases hsz : z.sized with
    | false => cases hnp (h.unsized hsz)
    | true => rfl
  have hck : ¬z.blockCount < (r.lba.toNat + r.count.toNat) % 2 ^ 64 := by
    rw [h.blockCount]
    exact (le_trans (mod_le _ _) hin).not_gt
  refine ⟨hs,?_⟩
  unfold zramRw
  rw [if_neg (by simp [hs,hnp]),if_neg hck]

lemma zramRw_refines (hm : m.Succeed) (h : z.Refines a) (r : Request) :
    ∃ z', zramRw m z r = ⟨(a.rw r).rc,z',(a.rw r).buffer⟩ ∧ z'.Refines (a.rw r).dev := by
  unfold SectorArray.rw
  by_cases hout : a.size < r.lba.toNat + r.count.toNat
  · rw [if_pos (.inr hout)]
    exact ⟨z,zramRw_outside h r hout,h⟩
  by_cases hsz : a.size = 0
  · have hnp : z.npages = 0 := by
      have := h.size
      rw [sectorsPerPage_eq] at this
      omega
    rw [if_pos (.inl hsz),zramRw,if_pos (.inr hnp)]
    exact ⟨z,rfl,h⟩
  have hin := not_lt.mp hout
  obtain ⟨hs,heq⟩ := zramRw_inside h r hsz hin
  rw [if_neg (by simp [hsz,hout]),heq]
  cases hw : r.write with
  | true => exact zramWriteLoop_spec hm h hs hin r.room
  | false =>
    refine ⟨z,?_,h⟩
    have hra := zramReadLoop_spec h hs hin _ (zero_add _) r.room
    simp [hra,SectorArray.read,range_eq_range']

lemma blank_refines : Zram.blank.Refines SectorArray.blank :=
  ⟨rfl,fun _ => rfl,zero_le,rfl,rfl,fun _ h => absurd h not_lt_zero⟩

lemma slice_replicate {x : UInt8} {off len : Nat} (h : off + n ≤ len) :
    slice (replicate len x) off n = replicate n x := by
  rw [slice,drop_replicate,take_replicate,min_eq_left (by omega)]

lemma fresh_refines (n : Nat) (hn : n ≤ 2 ^ 52) :
    ({ z with
      sized := true
      disksize := n * pageSize % 2 ^ 64
      npages := n
      blockCount := n * sectorsPerPage % 2 ^ 64
      pages := fun _ => ⟨none,0⟩ } : Zram).Refines
        ⟨true,n * sectorsPerPage,fun _ => zeroSector⟩ := by
  refine ⟨rfl,fun h => absurd h (by simp),hn,?_,rfl,fun k _ => ?_⟩
  · dsimp only
    rw [sectorsPerPage_eq]
    omega
  refine ⟨_,rfl,length_replicate,?_⟩
  exact slice_replicate (sector_end_le (mod_lt _ (by decide)))

lemma setDisksize_refines (h : z.Refines a) (usable : UInt64) (alloc : Bool) (bytes : UInt64) :
    ∃ z', zramSetDisksize usable alloc z bytes = ((a.setSize usable alloc bytes).rc, z') ∧
      (a.setSize usable alloc bytes).buffer = [] ∧
        z'.Refines (a.setSize usable alloc bytes).dev := by
  have hle : disksizePages bytes ≤ 2 ^ 52 := by
    rw [disksizePages,pageSize_eq]
    omega
  have hmod : disksizePages bytes * 16 % 2 ^ 64 = disksizePages bytes * 16 := by omega
  unfold zramSetDisksize SectorArray.setSize
  dsimp only
  rw [← h.sized,hmod]
  by_cases hb : bytes = 0
  · rw [if_pos hb,if_pos hb]
    exact ⟨z,rfl,rfl,h⟩
  rw [if_neg hb,if_neg hb]
  by_cases hs : z.sized = true
  · rw [if_pos hs,if_pos hs]
    exact ⟨z,rfl,rfl,h⟩
  rw [if_neg hs,if_neg hs]
  by_cases hmem : usable.toNat / 8 < disksizePages bytes * 16
  · rw [if_pos hmem,if_pos (.inl hmem)]
    exact ⟨z,rfl,rfl,h⟩
  rw [if_neg hmem]
  by_cases hal : alloc = false
  · rw [if_pos hal,if_pos (.inr hal)]
    exact ⟨z,rfl,rfl,h⟩
  rw [if_neg hal,if_neg (not_or.mpr ⟨hmem,hal⟩)]
  exact ⟨_,rfl,rfl,fresh_refines _ hle⟩

lemma step_refines (h : z.Refines a) {op : Op} (hop : op.AllocSucceeds) :
    ∃ z', z.step op = ⟨(a.step op).rc,z',(a.step op).buffer⟩ ∧ z'.Refines (a.step op).dev := by
  cases op with
  | rw m r => exact zramRw_refines hop h r
  | disksize usable alloc bytes =>
    obtain ⟨z',heq,hbuf,href⟩ := setDisksize_refines h usable alloc bytes
    refine ⟨z',?_,href⟩
    simp [Zram.step,SectorArray.step,heq,hbuf]
  | reset inUse =>
    cases inUse with
    | true => exact ⟨z,rfl,h⟩
    | false => exact ⟨_,rfl,blank_refines⟩

lemma run_of_refines {ops : List Op} (hops : ∀ op ∈ ops, op.AllocSucceeds)
    (h : z.Refines a) : z.run ops = a.run ops := by
  induction ops generalizing z a with
  | nil => rfl
  | cons op _ ih =>
    obtain ⟨z',heq,href⟩ := step_refines h (hops op (.head _))
    rw [Zram.run,SectorArray.run,heq]
    rw [ih (fun o ho => hops o (.tail _ ho)) href]

theorem zram_run_eq_sectorArray_run (ops : List Op) (hops : ∀ op ∈ ops, op.AllocSucceeds) :
    Zram.blank.run ops = SectorArray.blank.run ops :=
  run_of_refines hops blank_refines

def Allocs.always : Allocs := ⟨fun _ => true,fun _ => true,fun _ => true⟩

def writeSector (lba : UInt64) (b : UInt8) : Op :=
  .rw Allocs.always ⟨lba,1,replicate sectorSize b,true,by simp⟩

def readSector (lba : UInt64) : Op :=
  .rw Allocs.always ⟨lba,1,zeroSector,false,by simp [zeroSector]⟩

theorem zram_run_write_read :
    Zram.blank.run [.disksize 1048576 true 8192, writeSector 3 7, readSector 3, readSector 4] =
      SectorArray.blank.run
        [.disksize 1048576 true 8192, writeSector 3 7, readSector 3, readSector 4] :=
  zram_run_eq_sectorArray_run _
    (by simp [writeSector,readSector,Op.AllocSucceeds,Allocs.Succeed,Allocs.always])

end B1nix.Dev
