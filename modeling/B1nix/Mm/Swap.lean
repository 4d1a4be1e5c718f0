import B1nix.Basic.Splice
import B1nix.Lz4.Model

namespace B1nix.Mm

open Function Splice Lz4 List

structure Page where
  bytes : List UInt8
  size : bytes.length = pageSize

def zswapSlotCompressed : Nat := 2 ^ 30

def zswapMaxEntries : Nat := 65536

def zswapMinBlob : Nat := 8

structure SwapConfig where
  poolCount : Nat
  slotCount : Nat
  startLba : Nat
  sectorCount : Nat
  pool_le : poolCount ≤ zswapMaxEntries
  slot_lt : slotCount < zswapSlotCompressed
  slot_fit : slotCount * sectorsPerPage ≤ sectorCount

inductive Slot where
  | pool (idx : Nat)
  | disk (idx : Nat)
deriving DecidableEq, Repr

def Slot.encode : Slot → Nat
  | .pool idx => idx ||| zswapSlotCompressed
  | .disk idx => idx

def Slot.decode (slot : Nat) : Slot :=
  if slot &&& zswapSlotCompressed ≠ 0 then .pool (slot - zswapSlotCompressed) else .disk slot

variable (dev : Nat → List UInt8) (cfg : SwapConfig)

def SwapConfig.valid : Slot → Prop
  | .pool idx => idx < cfg.poolCount
  | .disk idx => idx < cfg.slotCount

instance (cfg : SwapConfig) (slot : Slot) : Decidable (cfg.valid slot) := by
  cases slot <;> (dsimp only [SwapConfig.valid]; infer_instance)

structure ZswapEntry where
  data : List UInt8
  size : Nat
deriving DecidableEq, Repr

structure SwapState where
  busy : Slot → Bool
  pool : Nat → ZswapEntry
  poolUsedN : Nat
  used : Nat
  nextSlot : Nat
  owner : Slot → Nat
  dev : Nat → List UInt8
  swapCur : Nat → Nat

def SwapState.start : SwapState := ⟨fun _ => false,fun _ => ⟨[],0⟩,0,0,0,fun _ => 0,dev,fun _ => 0⟩

variable (slot : Slot) (id : Nat) (page : Page) (idx : Nat) (s : SwapState)

def firstFreeEntry : Option Nat := (range cfg.poolCount).find? (fun i => !s.busy (.pool i))

def zswapBlob (junk : List UInt8) (page : Page) : List UInt8 :=
  let dst := (lz4Compress page.bytes (lz4CompressBound pageSize)).2
  dst ++ junk.drop dst.length

def zswapSize : Int :=
  let csize := (lz4Compress page.bytes (lz4CompressBound pageSize)).1
  if 0 < csize ∧ csize < zswapMinBlob then zswapMinBlob else csize

def zswapPoolStore (blob : Option (List UInt8)) (page : Page) (s : SwapState) :
    Option (Nat × SwapState) :=
  match blob with
  | none => none
  | some junk =>
    match firstFreeEntry cfg s with
    | none => none
    | some idx =>
      let csize := zswapSize page
      if csize ≤ 0 ∨ pageSize / 2 < csize.toNat then none
      else some (idx, { s with
        pool := update s.pool idx ⟨zswapBlob junk page,csize.toNat⟩
        busy := update s.busy (.pool idx) true
        poolUsedN := s.poolUsedN + 1 })

def SwapState.dropEntry (idx : Nat) : SwapState :=
  { s with
    pool := update s.pool idx ⟨[],0⟩
    busy := update s.busy (.pool idx) false
    poolUsedN := s.poolUsedN - 1 }

def entryPage (e : ZswapEntry) : Option (List UInt8) :=
  lz4Decompress (e.data.take e.size) pageSize

def zswapPoolLoad : Option (List UInt8 × SwapState) :=
  if cfg.poolCount ≤ idx ∨ s.busy (.pool idx) = false then none
  else
    match entryPage (s.pool idx) with
    | none => none
    | some page => some (page, s.dropEntry idx)

def zswapPoolFree : SwapState :=
  if idx < cfg.poolCount ∧ s.busy (.pool idx) = true then s.dropEntry idx else s

def scanSlots (cfg : SwapConfig) (busy : Nat → Bool) (next i : Nat) : Option Nat :=
  if i < cfg.slotCount then
    let idx := (next + i) % cfg.slotCount
    if idx % 8 = 0 ∧ i + 8 ≤ cfg.slotCount ∧ idx + 8 ≤ cfg.slotCount then
      match (range 8).find? (fun k => !busy (idx + k)) with
      | none => scanSlots cfg busy next (i + 8)
      | some k => some (idx + k)
    else if busy idx then scanSlots cfg busy next (i + 1)
    else some idx
  else none
termination_by cfg.slotCount - i

def swapAllocSlot : Option (Nat × SwapState) :=
  match scanSlots cfg (fun i => s.busy (.disk i)) s.nextSlot 0 with
  | none => none
  | some idx => some (idx, { s with
      busy := update s.busy (.disk idx) true
      used := s.used + 1
      nextSlot := (idx + 1) % cfg.slotCount })

def SwapConfig.lba (slot : Nat) : Nat := cfg.startLba + slot * sectorsPerPage

def SwapConfig.inBounds (slot : Nat) : Prop :=
  slot * sectorsPerPage ≤ cfg.sectorCount ∧
    sectorsPerPage ≤ cfg.sectorCount - slot * sectorsPerPage

instance (cfg : SwapConfig) (slot : Nat) : Decidable (cfg.inBounds slot) :=
  inferInstanceAs (Decidable (_ ∧ _))

def writeBlocks (lba : Nat) (data : Nat → List UInt8) : Nat → List UInt8 :=
  fun n => if lba ≤ n ∧ n < lba + sectorsPerPage then data (n - lba) else dev n

def readBlocks (lba : Nat) : List UInt8 :=
  (range sectorsPerPage).flatMap (fun i => dev (lba + i))

def Page.sector (i : Nat) : List UInt8 := slice page.bytes (i * sectorSize) sectorSize

def swapSetOwner : SwapState :=
  if cfg.valid slot then { s with owner := update s.owner slot id } else s

def swapOwnerTake : Nat × SwapState :=
  if cfg.valid slot then (s.owner slot, { s with owner := update s.owner slot 0 })
  else (0, s)

def swapClearBit : SwapState :=
  { s with
    busy := update s.busy (.disk idx) false
    used := if s.used ≠ 0 then s.used - 1 else s.used }

def cgroupSwapCharge : SwapState :=
  if id = 0 then s else { s with swapCur := update s.swapCur id (s.swapCur id + 1) }

def cgroupSwapUncharge : SwapState :=
  if id = 0 then s else { s with swapCur := update s.swapCur id (s.swapCur id - 1) }

inductive Flight where
  | charged (id : Nat) (page : Page)
  | missed (id : Nat) (page : Page)
  | claimed (id : Nat) (page : Page) (idx : Nat)
  | stored (id : Nat) (slot : Slot)
  | owned (slot : Slot)
  | loaded (slot : Slot)
  | freeing (slot : Slot) (refund : Nat)
  | taken (slot : Slot) (owner refund : Nat)
  | uncharging (ids : List Nat)

structure Luck where
  blob : Option (List UInt8)
  wrote : Bool
  scrap : Nat → List UInt8
  marked : Bool

abbrev SwapMap := Slot → Option (Page × Nat)

structure SwapWorld where
  mem : SwapState
  flights : Multiset Flight
  map : SwapMap

def SwapWorld.start : SwapWorld := ⟨SwapState.start dev,0,fun _ => none⟩

structure Turn where
  mem : SwapState
  map : SwapMap
  flight : Option Flight

def freeTake (refund : Nat) (s : SwapState) (m : SwapMap) : Turn :=
  let took := swapOwnerTake cfg slot s
  if cfg.valid slot ∧ s.busy slot = true then ⟨took.2,m,some (.taken slot took.1 refund)⟩
  else
    match slot with
    | .pool _ => ⟨s,m,some (.taken slot 0 refund)⟩
    | .disk _ => ⟨s,m,some (.uncharging [refund])⟩

def freeClear : SwapState :=
  match slot with
  | .pool idx => zswapPoolFree cfg idx s
  | .disk idx => swapClearBit idx s

def writeSlot (luck : Luck) (s : SwapState) (m : SwapMap) : Turn :=
  if cfg.inBounds idx then
    if luck.wrote then
      ⟨{ s with dev := writeBlocks s.dev (cfg.lba idx) page.sector },
        update m (.disk idx) (some (page, id)),some (.stored id (.disk idx))⟩
    else
      ⟨{ s with dev := writeBlocks s.dev (cfg.lba idx) luck.scrap },m,
        some (.freeing (.disk idx) id)⟩
  else ⟨s,m,some (.freeing (.disk idx) id)⟩

def advance (luck : Luck) (s : SwapState) (m : SwapMap) : Flight → Turn
  | .charged id page =>
    match zswapPoolStore cfg luck.blob page s with
    | some (idx, s') =>
      ⟨s',update m (.pool idx) (some (page, id)),some (.stored id (.pool idx))⟩
    | none => ⟨s,m,some (.missed id page)⟩
  | .missed id page =>
    match swapAllocSlot cfg s with
    | some (idx, s') => ⟨s',m,some (.claimed id page idx)⟩
    | none => ⟨s,m,some (.uncharging [id])⟩
  | .claimed id page idx => writeSlot cfg id page idx luck s m
  | .stored id slot => ⟨swapSetOwner cfg slot id s,m,some (.owned slot)⟩
  | .owned slot => ⟨s,m,if luck.marked then none else some (.freeing slot 0)⟩
  | .loaded slot =>
    ⟨(swapOwnerTake cfg slot s).2,m,some (.uncharging [(swapOwnerTake cfg slot s).1])⟩
  | .freeing slot refund => freeTake cfg slot refund s m
  | .taken slot owner refund =>
    ⟨freeClear cfg slot s,update m slot none,some (.uncharging [owner,refund])⟩
  | .uncharging [] => ⟨s,m,none⟩
  | .uncharging (id :: ids) => ⟨cgroupSwapUncharge id s,m,some (.uncharging ids)⟩

def swapFetch (m : SwapMap) : Option (List UInt8 × Turn) :=
  match slot with
  | .pool idx =>
    match zswapPoolLoad cfg idx s with
    | none => none
    | some (page, s') => some (page, ⟨s',update m slot none,some (.loaded slot)⟩)
  | .disk idx =>
    if cfg.slotCount ≤ idx ∨ s.busy (.disk idx) = false then none
    else some (readBlocks s.dev (cfg.lba idx), ⟨s,m,some (.freeing slot 0)⟩)

inductive SwapEvent where
  | evict (id : Nat) (page : Page)
  | swapIn (slot : Nat)
  | free (slot : Nat)
  | run (f : Flight) (luck : Luck)

def Turn.join (t : Turn) (rest : Multiset Flight) : SwapWorld :=
  ⟨t.mem,match t.flight with
    | none => rest
    | some f => f ::ₘ rest,t.map⟩

inductive SwapStep (cfg : SwapConfig) : SwapWorld → SwapEvent → SwapWorld → Prop where
  | evict (w : SwapWorld) (id : Nat) (page : Page) :
      SwapStep cfg w (.evict id page)
        ⟨cgroupSwapCharge id w.mem,.charged id page ::ₘ w.flights,w.map⟩
  | swapIn (w : SwapWorld) (slot : Nat) (page : List UInt8) (t : Turn)
      (h : swapFetch cfg (Slot.decode slot) w.mem w.map = some (page, t)) :
      SwapStep cfg w (.swapIn slot) (t.join w.flights)
  | free (w : SwapWorld) (slot : Nat) :
      SwapStep cfg w (.free slot)
        ⟨w.mem,.freeing (Slot.decode slot) 0 ::ₘ w.flights,w.map⟩
  | run (w : SwapWorld) (f : Flight) (luck : Luck) (rest : Multiset Flight)
      (h : w.flights = f ::ₘ rest) :
      SwapStep cfg w (.run f luck) ((advance cfg luck w.mem w.map f).join rest)

end B1nix.Mm
