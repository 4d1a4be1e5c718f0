import B1nix.Basic.Blocks
import B1nix.Page

namespace B1nix.Mm

open Function Blocks

def buddyMaxOrder : Nat := 18

def buddyMagic : Nat := 0xB000500

def numaMaxNodes : Nat := 8

structure PmmConfig where
  frameCount : Nat
  bitmapBits : Nat
  numaNodeOfFrame : Nat → Nat
  numaNodeOrder : Nat → List Nat
  numaNodeCount : Nat
  bits_ge : frameCount ≤ bitmapBits
  node_lt : ∀ frame, numaNodeOfFrame frame < numaMaxNodes

structure PmmState where
  bitmap : Nat → Bool
  heads : Nat → Bool
  ptFrames : Nat → Bool
  refcounts : Nat → Nat
  freeFrames : Nat
  nodeFreePages : Nat → Nat
  freeArea : Nat → Nat → Nat
  nodes : Nat
  mem : Nat → Fin 512 → Nat
  scanCursor : Nat
  buddyReady : Bool

variable (s : PmmState) (frame : Nat)

def pmmNodeOf (cfg : PmmConfig) (s : PmmState) (frame : Nat) : Nat :=
  if 1 < s.nodes then cfg.numaNodeOfFrame frame else 0

def PmmState.store (word : Fin 512) (value : Nat) : PmmState :=
  { s with mem := update s.mem frame (update (s.mem frame) word value) }

def PmmState.setArea (node order frame : Nat) : PmmState :=
  { s with freeArea :=
      update s.freeArea node (update (s.freeArea node) order frame) }

def PmmState.headSet : PmmState := { s with heads := update s.heads frame true }

def PmmState.headClear : PmmState := { s with heads := update s.heads frame false }

variable (cfg : PmmConfig) (here index frame count order node : Nat) (s : PmmState) (hi idx : Nat)

def bitmapSet : PmmState :=
  let n := pmmNodeOf cfg s index
  { s with
    nodeFreePages := if s.bitmap index = false ∧ s.nodeFreePages n ≠ 0 then
        update s.nodeFreePages n (s.nodeFreePages n - 1) else s.nodeFreePages
    bitmap := update s.bitmap index true }

def bitmapClear : PmmState :=
  let n := pmmNodeOf cfg s index
  { s with
    nodeFreePages := if s.bitmap index = true then
        update s.nodeFreePages n (s.nodeFreePages n + 1) else s.nodeFreePages
    bitmap := update s.bitmap index false }

def buddyRegionValid : Prop :=
  order ≤ buddyMaxOrder ∧ frame % 2 ^ order = 0 ∧ frame + 2 ^ order ≤ cfg.frameCount

instance (cfg : PmmConfig) (frame order : Nat) : Decidable (buddyRegionValid cfg frame order) :=
  inferInstanceAs (Decidable (_ ∧ _))

instance neZero_words : NeZero 512 := ⟨by decide⟩

def writeHeader (next : Nat) (s : PmmState) : PmmState :=
  (((s.store frame 2 order).store frame 3 buddyMagic).store frame 0 next).store frame 1 0

def linkBack (next : Nat) (s : PmmState) : PmmState :=
  if next ≠ 0 then s.store next 1 frame else s

def buddyInsert : PmmState :=
  let node := pmmNodeOf cfg s frame
  let next := s.freeArea node order
  ((linkBack frame next (writeHeader frame order next s)).setArea node order frame).headSet frame

def unlinkForward (frame order : Nat) (s : PmmState) : PmmState :=
  if s.mem frame 1 ≠ 0 then s.store (s.mem frame 1) 0 (s.mem frame 0)
  else if s.freeArea node order = frame then s.setArea node order (s.mem frame 0)
  else s

def unlinkBack : PmmState :=
  if s.mem frame 0 ≠ 0 then s.store (s.mem frame 0) 1 (s.mem frame 1) else s

def buddyUnlink : PmmState :=
  let s := unlinkBack frame (unlinkForward (pmmNodeOf cfg s frame) frame order s)
  ((s.store frame 1 0).store frame 0 0).headClear frame

def buddyIsFreeBlock : Prop :=
  buddyRegionValid cfg frame order ∧ s.heads frame = true ∧ s.bitmap frame = false ∧
    s.mem frame 3 = buddyMagic ∧ s.mem frame 2 = order

instance (cfg : PmmConfig) (frame order : Nat) (s : PmmState) :
    Decidable (buddyIsFreeBlock cfg frame order s) :=
  inferInstanceAs (Decidable (_ ∧ _))

def buddyMergeLoop (frame order : Nat) (s : PmmState) : PmmState :=
  if order < buddyMaxOrder then
    let other := buddy frame order
    if buddyIsFreeBlock cfg other order s then
      buddyMergeLoop (if other < frame then other else frame) (order + 1)
        (buddyUnlink cfg other order s)
    else buddyInsert cfg frame order s
  else buddyInsert cfg frame order s
termination_by buddyMaxOrder - order

def buddyMergeInsert : PmmState :=
  if ¬buddyRegionValid cfg frame order then s
  else if s.heads frame = true then s
  else buddyMergeLoop cfg frame order s

def releasePages : Nat → PmmState → PmmState
  | 0, s => s
  | n + 1, s =>
    let s := bitmapClear cfg (idx + n) (releasePages n s)
    { s with refcounts := update s.refcounts (idx + n) 0 }

def buddyRelease : Option PmmState :=
  if ¬buddyRegionValid cfg frame order then none
  else if ∃ i < 2 ^ order, s.bitmap (frame + i) = false then none
  else
    let s := releasePages cfg frame (2 ^ order) s
    let s := { s with freeFrames := s.freeFrames + 2 ^ order }
    some (buddyMergeInsert cfg frame order s)

def claimPages : Nat → PmmState → PmmState
  | 0, s => s
  | n + 1, s =>
    let s := bitmapSet cfg (idx + n) (claimPages n s)
    { s with refcounts := update s.refcounts (idx + n) 1 }

def splitBlock : Nat → PmmState → PmmState
  | 0, s => s
  | k + 1, s =>
    if order < k + 1 then splitBlock k (buddyInsert cfg (frame + 2 ^ k) k s)
    else s

def buddyAllocFrom (k : Nat) (s : PmmState) : Nat × PmmState :=
  if k ≤ buddyMaxOrder then
    let frame := s.freeArea node k
    if frame = 0 then buddyAllocFrom (k + 1) s
    else if ¬buddyIsFreeBlock cfg frame k s then
      buddyAllocFrom (k + 1) ((s.headClear frame).setArea node k 0)
    else
      let s := splitBlock cfg frame order k (buddyUnlink cfg frame k s)
      let s := claimPages cfg frame (2 ^ order) s
      (frame, { s with freeFrames := s.freeFrames - 2 ^ order })
  else (0, s)
termination_by buddyMaxOrder + 1 - k

def buddyAllocNode : Nat × PmmState :=
  if buddyMaxOrder < order then (0, s)
  else if numaMaxNodes ≤ node then (0, s)
  else buddyAllocFrom cfg order node order s

def buddyAllocNodes : List Nat → PmmState → Nat × PmmState
  | [], s => (0, s)
  | node :: nodes, s =>
    let r := buddyAllocNode cfg order node s
    if r.1 ≠ 0 then r else buddyAllocNodes nodes r.2

def buddyAllocPref (pref : Option Nat) (strict : Bool) (s : PmmState) : Nat × PmmState :=
  if s.nodes ≤ 1 then buddyAllocNode cfg order 0 s
  else
    let pref := pref.getD here
    if strict then buddyAllocNode cfg order pref s
    else buddyAllocNodes cfg order (cfg.numaNodeOrder pref) s

def buddyAlloc : Nat × PmmState := buddyAllocPref cfg here order none false s

def fullWord : Prop := ∀ i < 64, s.bitmap (idx + i) = true

instance (s : PmmState) (idx : Nat) : Decidable (fullWord s idx) :=
  inferInstanceAs (Decidable (∀ i < 64, _))

def runEnd (idx : Nat) : Nat :=
  if idx < cfg.frameCount ∧ s.bitmap idx = false then runEnd (idx + 1) else idx
termination_by cfg.frameCount - idx

def seedOrder (pos last order : Nat) : Nat :=
  if order < buddyMaxOrder then
    if last < pos + 2 ^ (order + 1) then order
    else if pos % 2 ^ (order + 1) ≠ 0 then order
    else seedOrder pos last (order + 1)
  else order
termination_by buddyMaxOrder - order

def seedRun (pos last : Nat) (s : PmmState) : PmmState :=
  if pos < last then
    let order := seedOrder pos last 0
    seedRun (pos + 2 ^ order) last (buddyInsert cfg pos order s)
  else s
termination_by last - pos
decreasing_by
  have := Nat.two_pow_pos (seedOrder pos last 0)
  omega

lemma le_runEnd : idx ≤ runEnd cfg s idx := by
  fun_induction runEnd with
  | case1 _ _ ih => exact Nat.le_of_succ_le ih
  | case2 idx => exact le_rfl

def seedFrom (idx : Nat) (s : PmmState) : PmmState :=
  if idx < cfg.frameCount then
    if idx % 64 = 0 ∧ idx + 64 ≤ cfg.frameCount ∧ fullWord s idx then seedFrom (idx + 64) s
    else if s.bitmap idx = true then seedFrom (idx + 1) s
    else seedFrom (runEnd cfg s (idx + 1)) (seedRun cfg idx (runEnd cfg s (idx + 1)) s)
  else s
termination_by cfg.frameCount - idx
decreasing_by
  · omega
  · omega
  have := le_runEnd cfg s (idx + 1)
  omega

def dropLists : PmmState :=
  { s with
    freeArea := fun node order =>
      if node < numaMaxNodes ∧ order ≤ buddyMaxOrder then 0 else s.freeArea node order
    heads := fun _ => false }

def buddySeedFromBitmap : PmmState := seedFrom cfg 0 (dropLists s)

def markFrameUsed : PmmState :=
  if cfg.frameCount ≤ index then s
  else if s.bitmap index = false then
    { bitmapSet cfg index s with
      freeFrames := if 0 < s.freeFrames then s.freeFrames - 1 else s.freeFrames }
  else s

def claimFrame : PmmState :=
  { markFrameUsed cfg index s with refcounts := update s.refcounts index 1 }

def claimRun : Nat → PmmState → PmmState
  | 0, s => s
  | n + 1, s => claimFrame cfg (idx + n) (claimRun n s)

def zeroFrames : PmmState :=
  { s with mem := fun f => if frame ≤ f ∧ f < frame + count then fun _ => 0 else s.mem f }

def pmmCheckHandout : Option PmmState :=
  if s.ptFrames frame = true then none else some s

def nextFree (idx last : Nat) : Nat :=
  if idx < last ∧ s.bitmap idx = true then nextFree (idx + 1) last else idx
termination_by last - idx

lemma le_nextFree (last : Nat) : idx ≤ nextFree s idx last := by
  fun_induction nextFree with
  | case1 _ _ ih => exact Nat.le_of_succ_le ih
  | case2 idx => exact le_rfl

def scanStart (run : Nat) : Nat :=
  if run = 0 ∧ idx / 64 * 64 + 64 ≤ hi then nextFree s idx (idx / 64 * 64 + 64) else idx

lemma le_scanStart (run : Nat) : idx ≤ scanStart s hi idx run := by
  unfold scanStart
  split
  · exact le_nextFree s idx _
  exact le_rfl

def scanWindow (count idx run runStart : Nat) : Option Nat :=
  if idx < hi then
    if idx % 64 = 0 ∧ idx + 64 ≤ hi ∧ fullWord s idx then
      scanWindow count (idx + 64) 0 runStart
    else
      let spot := scanStart s hi idx run
      if run = 0 ∧ idx / 64 * 64 + 64 ≤ hi ∧ spot = idx / 64 * 64 + 64 then
        scanWindow count (idx / 64 * 64 + 64) 0 runStart
      else if s.bitmap spot = false then
        let first := if run = 0 then spot else runStart
        if count ≤ run + 1 then some first else scanWindow count (spot + 1) (run + 1) first
      else scanWindow count (spot + 1) 0 runStart
  else none
termination_by hi - idx
decreasing_by
  · omega
  · omega
  · have := le_scanStart s hi idx run
    omega
  have := le_scanStart s hi idx run
  omega

def takeRun (runStart count : Nat) (s : PmmState) : Option PmmState :=
  let s := claimRun cfg runStart count s
  let s := if s.buddyReady then buddySeedFromBitmap cfg s else s
  (pmmCheckHandout runStart s).map (zeroFrames runStart count)

def bitmapScanWindow (lo hi count : Nat) (s : PmmState) : Option (Nat × PmmState) :=
  match scanWindow s hi count lo 0 0 with
  | none => some (0, s)
  | some runStart => (takeRun cfg runStart count s).map fun s =>
    (runStart, { s with scanCursor := runStart + count })

def bitmapScanAlloc : Option (Nat × PmmState) :=
  if count = 0 ∨ cfg.frameCount < count then some (0, s)
  else
    let start := if cfg.frameCount ≤ s.scanCursor then 0 else s.scanCursor
    match bitmapScanWindow cfg start cfg.frameCount count s with
    | none => none
    | some (frame, s) =>
      if frame ≠ 0 then some (frame, s)
      else if start = 0 then some (0, s)
      else
        match bitmapScanWindow cfg 0 start count s with
        | none => none
        | some (frame, s) =>
          if frame = 0 then some (0, { s with scanCursor := 0 }) else some (frame, s)

def scanBelow (count idx run runStart : Nat) : Option Nat :=
  if idx < hi then
    if s.bitmap idx = true then scanBelow count (idx + 1) 0 runStart
    else
      let first := if run = 0 then idx else runStart
      if count ≤ run + 1 then some first else scanBelow count (idx + 1) (run + 1) first
  else none
termination_by hi - idx

def pmmAllocFramesBelow (limit : Nat) (s : PmmState) : Option (Nat × PmmState) :=
  if count = 0 ∨ limit < pageSize then some (0, s)
  else
    let cap := (limit + 1) % 2 ^ 64 / pageSize
    match scanBelow s (min cap cfg.frameCount) count 0 0 0 with
    | none => some (0, s)
    | some runStart => (takeRun cfg runStart count s).map fun s => (runStart, s)

def handOut : Option (Nat × PmmState) :=
  (pmmCheckHandout frame s).map fun s => (frame, zeroFrames frame count s)

def pmmAllocBlockNode (node : Option Nat) (strict : Bool) (s : PmmState) : Option (Nat × PmmState) :=
  if buddyMaxOrder < order then some (0, s)
  else if s.buddyReady = false then some (0, s)
  else
    let r := buddyAllocPref cfg here order node strict s
    if r.1 = 0 then some r else handOut r.1 (2 ^ order) r.2

def orderFor (order : Nat) : Nat :=
  if 2 ^ order < count then orderFor (order + 1) else order
termination_by count - 2 ^ order
decreasing_by
  have := Nat.two_pow_pos order
  rw [pow_succ]
  omega

def releaseTail (e last : Nat) (s : PmmState) : PmmState :=
  if e < last then
    let s := bitmapClear cfg (frame + e) s
    let s := { s with
      refcounts := update s.refcounts (frame + e) 0
      freeFrames := s.freeFrames + 1 }
    releaseTail (e + 1) last (buddyMergeInsert cfg (frame + e) 0 s)
  else s
termination_by last - e

def pmmAllocAttempt : Option (Nat × PmmState) :=
  if count = 1 ∧ s.buddyReady = true then
    let r := buddyAlloc cfg here 0 s
    if r.1 ≠ 0 then handOut r.1 1 r.2
    else if 0 < r.2.freeFrames then bitmapScanAlloc cfg 1 r.2
    else some r
  else if 1 < count then
    let order := orderFor count 0
    let r := if s.buddyReady = true then buddyAlloc cfg here order s else (0, s)
    if r.1 ≠ 0 then handOut r.1 count (releaseTail cfg r.1 count (2 ^ order) r.2)
    else if 0 < r.2.freeFrames then bitmapScanAlloc cfg count r.2
    else some r
  else bitmapScanAlloc cfg 1 s

def pmmReturnFrame (hidden : Bool) (frame : Nat) (s : PmmState) : Option PmmState :=
  if s.ptFrames frame = true then none
  else if hidden then none
  else
    match buddyRelease cfg frame 0 s with
    | some s => some s
    | none =>
      if buddyRegionValid cfg frame 0 ∧ s.bitmap frame = false then none
      else
        let s := if s.bitmap frame = true then
          { bitmapClear cfg frame s with freeFrames := s.freeFrames + 1 } else s
        let s := { s with refcounts := update s.refcounts frame 0 }
        some (buddyMergeInsert cfg frame 0 s)

def markFrameFree : PmmState :=
  if s.bitmap frame = true then
    let s := { bitmapClear cfg frame s with freeFrames := s.freeFrames + 1 }
    if s.buddyReady then buddyMergeInsert cfg frame 0 s else s
  else s

def pmmNumaReseed : PmmState :=
  if cfg.numaNodeCount ≤ 1 then s
  else
    let s := { s with nodes := cfg.numaNodeCount }
    let s := { s with nodeFreePages := fun node =>
      if node < numaMaxNodes then
        ((List.range cfg.bitmapBits).filter fun idx =>
          s.bitmap idx = false ∧ pmmNodeOf cfg s idx = node).length
      else s.nodeFreePages node }
    if s.buddyReady then buddySeedFromBitmap cfg s else s

end B1nix.Mm
