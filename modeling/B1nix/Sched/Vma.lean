import B1nix.Basic.Transition

namespace B1nix.Sched

open Function Nat Option

structure VmArea where
  start : Nat
  stop : Nat
  prot : Nat
  flags : Nat
  node : Option Nat
  offset : Int
deriving DecidableEq, Repr

structure IdxEntry where
  start : Nat
  v : Nat
deriving DecidableEq, Repr

structure VmaIndex where
  pml4 : Nat
  freeHint : Nat
  e : List IdxEntry
deriving DecidableEq, Repr

structure Cached where
  area : Option Nat
  gen : Nat
  pml4 : Nat
deriving DecidableEq, Repr

structure VmaState where
  area : Nat → VmArea
  list : Nat → List Nat
  idx : Nat → Option VmaIndex
  gen : Nat → Nat
  cache : Nat → Nat → Cached
  cacheNext : Nat → Nat
  freeHint : Nat → Cached
  heapStart : Nat → Nat
  userBrk : Nat → Nat

structure VmaTask where
  slot : Nat
  pml4 : Nat
deriving DecidableEq, Repr

structure VmaAlloc where
  area : VmaState → Option Nat
  index : VmaState → Bool

variable (al : VmaAlloc) (s : VmaState) (t : VmaTask) (pml4 vma addr : Nat) (needEnd : Bool)

def u64 (x : Nat) : Nat := x % 2 ^ 64

def pageSize : Nat := 4096

def vmaCacheWays : Nat := 4

def vmaIdxSlot : Nat := u64 (pml4 / 4096 * 0x9e3779b97f4a7c15) / 2 ^ 56 % 256

def vmaGenOf : Nat := u64 (pml4 / 4096 * 0x9e3779b97f4a7c15) / 2 ^ 56 % 256

def vmaIdxOf : Option VmaIndex :=
  if pml4 = 0 then none else (s.idx (vmaIdxSlot pml4)).filter fun ix => ix.pml4 = pml4

def vmaIdxPublish (slot : Nat) (ix : Option VmaIndex) : VmaState :=
  { s with idx := update s.idx slot ix }

def vmaIdxUpper (e : List IdxEntry) (addr lo hi : Nat) : Nat :=
  if lo < hi then
    let mid := lo + (hi - lo) / 2
    if (e.getD mid ⟨0,0⟩).start ≤ addr then vmaIdxUpper e addr (mid + 1) hi
    else vmaIdxUpper e addr lo mid
  else lo
termination_by hi - lo
decreasing_by
  · omega
  omega

def orderedEntries (prev : Option Nat) : List Nat → List IdxEntry
  | [] => []
  | v :: vs =>
    if prev.any fun p => (s.area v).start < p then orderedEntries prev vs
    else ⟨(s.area v).start,v⟩ :: orderedEntries (some (s.area v).start) vs

def vmaIdxInsertLocked (s : VmaState) : VmaState :=
  if t.pml4 = 0 then s
  else
    match s.idx (vmaIdxSlot t.pml4) with
    | none =>
      if 65536 < (s.list t.pml4).length then s
      else if al.index s then
        vmaIdxPublish s (vmaIdxSlot t.pml4)
          (some ⟨t.pml4,0,orderedEntries s none (s.list t.pml4)⟩)
      else s
    | some ix =>
      if ix.pml4 ≠ t.pml4 then s
      else if al.index s then
        let at' := vmaIdxUpper ix.e (s.area vma).start 0 ix.e.length
        vmaIdxPublish s (vmaIdxSlot t.pml4)
          (some { ix with e := ix.e.take at' ++ ⟨(s.area vma).start,vma⟩ :: ix.e.drop at' })
      else vmaIdxPublish s (vmaIdxSlot t.pml4) none

def vmaIdxRemoveLocked (s : VmaState) : VmaState :=
  match vmaIdxOf s pml4 with
  | none => s
  | some ix =>
    if ix.e.all fun e => e.v ≠ vma then s
    else if al.index s then
      vmaIdxPublish s (vmaIdxSlot pml4)
        (some { ix with
          freeHint := if ix.freeHint < (s.area vma).start then ix.freeHint
            else (s.area vma).start
          e := ix.e.eraseIdx (ix.e.findIdx fun e => e.v = vma) })
    else vmaIdxPublish s (vmaIdxSlot pml4) none

def idxBeforeFrom (e : List IdxEntry) (addr : Nat) (needEnd : Bool) : Nat → Option Nat
  | 0 => none
  | up + 1 =>
    let v := (e.getD up ⟨0,0⟩).v
    if needEnd = false ∨ (s.area v).stop ≤ addr then some v
    else idxBeforeFrom e addr needEnd up

def vmaIdxBefore : Option Nat :=
  match vmaIdxOf s pml4 with
  | none => none
  | some ix => idxBeforeFrom s ix.e addr needEnd (vmaIdxUpper ix.e addr 0 ix.e.length)

def Cached.live (gen pml4 : Nat) (c : Cached) : Option Nat :=
  if c.gen = gen ∧ c.pml4 = pml4 then c.area else none

def vmaBetter (best : Option Nat) (v : Nat) : Option Nat :=
  if addr ≤ (s.area v).start ∨ (needEnd = true ∧ addr < (s.area v).stop) then best
  else if best.all fun b => (s.area b).start < (s.area v).start then some v
  else best

def cachedAreas : List Nat :=
  ((List.range vmaCacheWays).map (s.cache t.slot)).filterMap
    (Cached.live (s.gen (vmaGenOf t.pml4)) t.pml4)

def hintArea : Option Nat := (s.freeHint t.slot).live (s.gen (vmaGenOf t.pml4)) t.pml4

def vmaKnownBefore : Option Nat :=
  let best := (cachedAreas s t ++ (hintArea s t).toList).foldl (vmaBetter s addr needEnd) none
  match (if addr = 0 then none else vmaIdxBefore s t.pml4 (addr - 1) needEnd) with
  | none => best
  | some v => vmaBetter s addr needEnd best v

def splitAfter (l : List Nat) : Option Nat → List Nat × List Nat
  | none => ([], l)
  | some b => (l.takeWhile (· ≠ b) ++ (l.dropWhile (· ≠ b)).take 1, (l.dropWhile (· ≠ b)).drop 1)

def vmaInsert (s : VmaState) : VmaState :=
  let start := (s.area vma).start
  let r := splitAfter (s.list t.pml4) (vmaKnownBefore s t start false)
  let below := fun v => decide ((s.area v).start < start)
  let list := r.1 ++ (r.2.takeWhile below ++ vma :: r.2.dropWhile below)
  vmaIdxInsertLocked al t vma { s with list := update s.list t.pml4 list }

def insertAfter (v n : Nat) : List Nat → List Nat
  | [] => []
  | x :: xs => if x = v then x :: n :: xs else x :: insertAfter v n xs

def vmaSplit (s : VmaState) : Option Nat × VmaState :=
  match al.area s with
  | none => (none, s)
  | some n =>
    let old := s.area vma
    let area := update (update s.area vma { old with stop := addr }) n
      { old with start := addr, offset := old.offset + ((addr : Int) - old.start) }
    (some n, vmaIdxInsertLocked al t n
      { s with
        area := area
        list := update s.list t.pml4 (insertAfter vma n (s.list t.pml4)) })

def vmaCacheInvalidateSpace (s : VmaState) : VmaState :=
  { s with gen := update s.gen (vmaGenOf pml4) (s.gen (vmaGenOf pml4) + 1) }

def Cached.forget (c : Cached) : Cached := { c with area := none }

def vmaCacheForget (s : VmaState) : VmaState :=
  { s with
    cache := update s.cache t.slot fun w =>
      if w < vmaCacheWays then (s.cache t.slot w).forget else s.cache t.slot w
    freeHint := update s.freeHint t.slot (s.freeHint t.slot).forget }

def vmaUnlink (s : VmaState) : VmaState :=
  let s := { s with list := update s.list t.pml4 ((s.list t.pml4).erase vma) }
  vmaCacheForget t (vmaCacheInvalidateSpace t.pml4 (vmaIdxRemoveLocked al t.pml4 vma s))

def headRank (start stop : Nat) (s : VmaState) : List Nat → Nat
  | [] => 0
  | v :: _ => if (s.area v).start < start then 2 else if (s.area v).start < stop then 1 else 0

lemma headRank_le (start stop : Nat) (s : VmaState) (l : List Nat) : headRank start stop s l ≤ 2 := by
  cases l with
  | nil => exact zero_le
  | cons =>
    simp only [headRank]
    split
    · exact le_rfl
    split
    · exact le_succ 1
    exact zero_le

lemma vmaIdxInsertLocked_area (s : VmaState) : (vmaIdxInsertLocked al t vma s).area = s.area := by
  unfold vmaIdxInsertLocked
  repeat' split
  all_goals rfl

lemma vmaUnlink_area (s : VmaState) : (vmaUnlink al t vma s).area = s.area := by
  change (vmaIdxRemoveLocked al t.pml4 vma _).area = _
  unfold vmaIdxRemoveLocked
  repeat' split
  all_goals rfl

variable {al : VmaAlloc} {t : VmaTask} {s u : VmaState}

lemma vmaSplit_start {vma addr n : Nat} (h : (vmaSplit al t vma addr s).1 = some n) :
    ((vmaSplit al t vma addr s).2.area n).start = addr := by
  unfold vmaSplit at h ⊢
  split at h
  · cases h
  next m hm =>
  cases h
  simp [vmaIdxInsertLocked_area]

def trimEnd (al : VmaAlloc) (t : VmaTask) (vma stop : Nat) (s : VmaState) :
    Option Nat × VmaState :=
  if stop < (s.area vma).stop then vmaSplit al t vma stop s else (none, s)

lemma walk_lt {start stop vma : Nat} {rest : List Nat} {next : Option Nat}
    (h : ∀ n, next = some n → headRank start stop u (n :: rest) < headRank start stop s (vma :: rest)) :
    3 * (next.toList ++ rest).length + headRank start stop u (next.toList ++ rest) <
      3 * (vma :: rest).length + headRank start stop s (vma :: rest) := by
  cases next with
  | none =>
    have := headRank_le start stop u rest
    simp only [toList_none,List.nil_append,List.length_cons]
    omega
  | some n => exact Nat.add_lt_add_left (h n rfl) _

lemma trimEnd_start {vma stop n : Nat} (h : (trimEnd al t vma stop s).1 = some n) :
    ((trimEnd al t vma stop s).2.area n).start = stop := by
  unfold trimEnd at h ⊢
  split at h
  · next hlt =>
    rw [if_pos hlt]
    exact vmaSplit_start h
  cases h

def vmaDeleteWalk (al : VmaAlloc) (t : VmaTask) (start stop : Nat) :
    List Nat → VmaState → VmaState
  | [], s => s
  | vma :: rest, s =>
    if stop ≤ (s.area vma).start then s
    else if (s.area vma).stop ≤ start then vmaDeleteWalk al t start stop rest s
    else if (s.area vma).start < start then
      let r := vmaSplit al t vma start s
      vmaDeleteWalk al t start stop (r.1.toList ++ rest) r.2
    else
      let r := trimEnd al t vma stop s
      vmaDeleteWalk al t start stop (r.1.toList ++ rest) (vmaUnlink al t vma r.2)
termination_by l s => 3 * l.length + headRank start stop s l
decreasing_by
  · have := headRank_le start stop s rest
    simp only [List.length_cons]
    omega
  · next hlt =>
    refine walk_lt fun n hn => ?_
    simp only [headRank, vmaSplit_start hn, lt_irrefl, if_false, if_pos hlt]
    split
    · exact lt_succ_self 1
    exact two_pos
  next hstop _ hlt =>
  refine walk_lt fun n hn => ?_
  have hge : ¬stop < start := fun e => by omega
  simp only [headRank, vmaUnlink_area, trimEnd_start hn, lt_irrefl, if_false, if_neg hge,
    if_neg hlt, if_pos (Nat.lt_of_not_le hstop)]
  exact Nat.one_pos

def vmaDeleteRange (al : VmaAlloc) (t : VmaTask) (start stop : Nat) (s : VmaState) : VmaState :=
  vmaDeleteWalk al t start stop
    (splitAfter (s.list t.pml4) (vmaKnownBefore s t start true)).2 s

open Transition

def lookupCache (s : VmaState) (addr : Nat) (origin : Option Nat) :
    List Nat → Option Nat × Option Nat
  | [] => (none, origin)
  | v :: vs =>
    if addr < (s.area v).start then lookupCache s addr origin vs
    else if addr < (s.area v).stop then (some v, origin)
    else if origin.all fun f => (s.area f).start < (s.area v).start then
      lookupCache s addr (some v) vs
    else lookupCache s addr origin vs

def lookupIndex (s : VmaState) (t : VmaTask) (addr : Nat) (origin : Option Nat) :
    Option Nat × Option Nat :=
  match vmaIdxBefore s t.pml4 addr false with
  | none => (none, origin)
  | some v =>
    if addr < (s.area v).stop then (some v, origin)
    else if origin.all fun f => (s.area f).start < (s.area v).start then (none, some v)
    else (none, origin)

def walkTo (s : VmaState) (addr : Nat) (l : List Nat) : Option Nat :=
  (l.takeWhile fun v => (s.area v).start ≤ addr).find? fun v => addr < (s.area v).stop

def listFrom (l : List Nat) : Option Nat → List Nat
  | none => []
  | some v => l.dropWhile (· ≠ v)

def cacheFound (t : VmaTask) (v : Nat) (s : VmaState) : VmaState :=
  { s with
    cacheNext := update s.cacheNext t.slot ((s.cacheNext t.slot + 1) % 256)
    cache := update s.cache t.slot (update (s.cache t.slot)
      (s.cacheNext t.slot % vmaCacheWays) ⟨some v,s.gen (vmaGenOf t.pml4),t.pml4⟩) }

def vmaLookup (t : VmaTask) (addr : Nat) (s : VmaState) : Option Nat × VmaState :=
  let l := s.list t.pml4
  let hit := lookupCache s addr l.head? (cachedAreas s t)
  if hit.1.isSome then (hit.1, s)
  else
    let ixv := lookupIndex s t addr hit.2
    let found := ixv.1 <|> walkTo s addr (listFrom l ixv.2)
    let found := if found.isNone ∧ ixv.2 ≠ l.head? then walkTo s addr l else found
    (found, found.elim s fun v => cacheFound t v s)

structure SearchWindow where
  lo : Nat
  hi : Nat

inductive Gap where
  | circular
  | full
  | fits (candidate : Nat) (lastPassed : Option Nat)

def freeWalk (s : VmaState) (length hi : Nat) (steps candidate : Nat) (lastPassed : Option Nat) :
    List Nat → Gap
  | [] => .fits candidate lastPassed
  | v :: vs =>
    if 1000000 < steps + 1 then .circular
    else if (s.area v).stop ≤ candidate then
      freeWalk s length hi (steps + 1) candidate (some v) vs
    else if u64 (candidate + length) ≤ (s.area v).start then .fits candidate lastPassed
    else if hi < u64 ((s.area v).stop + length) ∨
        u64 ((s.area v).stop + length) < (s.area v).stop then .full
    else freeWalk s length hi (steps + 1) (s.area v).stop (some v) vs

variable (win : SearchWindow)

def aboveBreak (s : VmaState) (length hi : Nat) (candidate : Nat) : List Nat → Option Nat
  | [] => some candidate
  | v :: vs =>
    if (s.area v).stop ≤ candidate then aboveBreak s length hi candidate vs
    else if u64 (candidate + length) ≤ (s.area v).start then some candidate
    else if hi < u64 ((s.area v).stop + length) ∨
        u64 ((s.area v).stop + length) < (s.area v).stop then none
    else aboveBreak s length hi (s.area v).stop vs

def pageUp (x : Nat) : Nat := u64 (x + (pageSize - 1)) / pageSize * pageSize

def pastBreak (s : VmaState) (t : VmaTask) (length hi candidate : Nat) : Option Nat :=
  let heapStart := s.heapStart t.pml4
  if heapStart ≠ 0 ∧ heapStart < u64 (candidate + length) then
    let brkEnd := if heapStart < s.userBrk t.pml4 then s.userBrk t.pml4 else heapStart
    let heapSize := brkEnd - heapStart
    let headroom := if heapSize < pageSize then pageSize else heapSize
    let guard := u64 (brkEnd + headroom)
    if guard < brkEnd then none
    else if candidate < pageUp guard then
      aboveBreak s length hi (pageUp guard) (s.list t.pml4)
    else some candidate
  else some candidate

structure SearchStart where
  usedHint : Bool
  candidate : Nat
  origin : List Nat
  lastPassed : Option Nat

def searchStart (t : VmaTask) (noHint : Bool) (s : VmaState) : SearchStart :=
  let bottom : SearchStart := ⟨false,win.lo,s.list t.pml4,none⟩
  if noHint then bottom
  else
    match vmaIdxOf s t.pml4 with
    | some ix =>
      if win.lo < ix.freeHint then
        ⟨true,ix.freeHint,
          (vmaIdxBefore s t.pml4 ix.freeHint false).elim (s.list t.pml4) fun b =>
            listFrom (s.list t.pml4) (some b),none⟩
      else bottom
    | none =>
      match hintArea s t with
      | some v =>
        if win.lo ≤ (s.area v).stop then
          ⟨true,(s.area v).stop,(splitAfter (s.list t.pml4) (some v)).2,some v⟩
        else bottom
      | none => bottom

def forgetHint (t : VmaTask) (s : VmaState) : VmaState :=
  { s with freeHint := update s.freeHint t.slot (s.freeHint t.slot).forget }

def noteIndexHint (t : VmaTask) (candidate : Nat) (s : VmaState) : VmaState :=
  match vmaIdxOf s t.pml4 with
  | none => s
  | some ix => vmaIdxPublish s (vmaIdxSlot t.pml4) (some { ix with freeHint := candidate })

def noteHint (t : VmaTask) (candidate : Nat) (lastPassed : Option Nat) (s : VmaState) : VmaState :=
  if s.heapStart t.pml4 ≠ 0 ∧ s.heapStart t.pml4 ≤ candidate then s
  else
    let s := noteIndexHint t candidate s
    match lastPassed with
    | none => s
    | some v =>
      let hint : Cached := ⟨some v,s.gen (vmaGenOf t.pml4),t.pml4⟩
      if (s.area v).stop ≤ candidate then
        { s with freeHint := update s.freeHint t.slot hint }
      else s

inductive Search where
  | failed
  | again
  | at (candidate : Nat) (lastPassed : Option Nat)

def searchFrom (t : VmaTask) (length : Nat) (from' : SearchStart) (s : VmaState) : Search :=
  match freeWalk s length win.hi 0 from'.candidate from'.lastPassed from'.origin with
  | .circular => .failed
  | .full => if from'.usedHint then .again else .failed
  | .fits candidate lastPassed =>
    match pastBreak s t length win.hi candidate with
    | none => .failed
    | some candidate =>
      if win.hi < u64 (candidate + length) ∨ u64 (candidate + length) < candidate then
        if from'.usedHint then .again else .failed
      else .at candidate lastPassed

def vmFindFreeArea (t : VmaTask) (length : Nat) (s : VmaState) : Option Nat × VmaState :=
  match searchFrom win t length (searchStart win t false s) s with
  | .failed => (none, s)
  | .at candidate lastPassed => (some candidate, noteHint t candidate lastPassed s)
  | .again =>
    let s := forgetHint t s
    match searchFrom win t length (searchStart win t true s) s with
    | .at candidate lastPassed => (some candidate, noteHint t candidate lastPassed s)
    | _ => (none, s)

def protReadWrite : Nat := 0x3

def mapPrivateAnonymous : Nat := 0x22

def breakPiece (s : VmaState) (from' chunkEnd : Nat) : List Nat → Nat × Nat
  | [] => (from', chunkEnd)
  | v :: vs =>
    if (s.area v).stop ≤ from' ∨ chunkEnd ≤ (s.area v).start then breakPiece s from' chunkEnd vs
    else if (s.area v).start ≤ from' then ((s.area v).stop, (s.area v).stop)
    else breakPiece s from' (s.area v).start vs

def growable (s : VmaState) (heapStart from' chunkEnd : Nat) : List Nat → Option Nat
  | [] => none
  | v :: vs =>
    if (s.area v).stop = from' ∧ heapStart ≤ (s.area v).start ∧ (s.area v).node = none ∧
        (s.area v).prot = protReadWrite ∧ (s.area v).flags = mapPrivateAnonymous ∧
        (vs.head?.all fun next => chunkEnd ≤ (s.area next).start) = true then some v
    else growable s heapStart from' chunkEnd vs

lemma breakPiece_progress {s : VmaState} {from' chunkEnd : Nat} (h : from' < chunkEnd) (l : List Nat) :
    from' < max (breakPiece s from' chunkEnd l).1 (breakPiece s from' chunkEnd l).2 := by
  induction l generalizing chunkEnd with
  | nil =>
    simp only [breakPiece]
    omega
  | cons _ _ ih =>
    simp only [breakPiece]
    split_ifs with hin
    · exact ih h
    · omega
    next hsta => exact ih (lt_of_not_ge hsta)

def heapArea (from' chunkEnd : Nat) : VmArea :=
  ⟨from',chunkEnd,protReadWrite,mapPrivateAnonymous,none,0⟩

def setArea (v : Nat) (area : VmArea) (s : VmaState) : VmaState :=
  { s with area := update s.area v area }

def breakGrow (al : VmaAlloc) (t : VmaTask) (low high : Nat) (s : VmaState) : VmaState :=
  if _h : low < high then
    let piece := breakPiece s low high (s.list t.pml4)
    if piece.2 ≤ piece.1 then
      if high ≤ piece.1 then s else breakGrow al t piece.1 high s
    else
      match growable s (s.heapStart t.pml4) piece.1 piece.2 (s.list t.pml4) with
      | some v => breakGrow al t piece.2 high (setArea v { s.area v with stop := piece.2 } s)
      | none =>
        match al.area s with
        | none => s
        | some n =>
          breakGrow al t piece.2 high (vmaInsert al t n (setArea n (heapArea piece.1 piece.2) s))
  else s
termination_by high - low
decreasing_by
  all_goals
    have := breakPiece_progress _h (s.list t.pml4) (s := s)
    simp_all only [piece]
    omega

def sysBrk (al : VmaAlloc) (t : VmaTask) (addr : Nat) (s : VmaState) : VmaState :=
  if addr = 0 ∨ addr < s.heapStart t.pml4 then s
  else
    let old := s.userBrk t.pml4
    let s := { s with userBrk := update s.userBrk t.pml4 addr }
    if old < addr then breakGrow al t (pageUp old) (pageUp addr) s
    else if addr < old ∧ pageUp addr < pageUp old then
      vmaDeleteRange al t (pageUp addr) (pageUp old) s
    else s

inductive VmaEvent where
  | insert (vma : Nat) (area : VmArea)
  | split (vma addr : Nat)
  | delete (start stop : Nat)
  | brk (addr : Nat)
  | lookup (addr : Nat)
  | findFree (win : SearchWindow) (length : Nat)

def vmaStep (al : VmaAlloc) (t : VmaTask) (s : VmaState) : VmaEvent → VmaState
  | .insert vma area => vmaInsert al t vma (setArea vma area s)
  | .split vma addr => (vmaSplit al t vma addr s).2
  | .delete start stop => vmaDeleteRange al t start stop s
  | .brk addr => sysBrk al t addr s
  | .lookup addr => (vmaLookup t addr s).2
  | .findFree win length => (vmFindFreeArea win t length s).2

structure VmaCall where
  task : VmaTask
  alloc : VmaAlloc
  event : VmaEvent

def VmaAlloc.Ok (spaces : List Nat) (al : VmaAlloc) : Prop :=
  ∀ s : VmaState, (∀ p, p ∉ spaces → s.list p = []) →
    ∃ n, al.area s = some n ∧ ∀ p, n ∉ s.list p

def VmaEvent.Called (t : VmaTask) (s : VmaState) : VmaEvent → Prop
  | .insert vma _ => ∀ p, vma ∉ s.list p
  | .split vma addr => vma ∈ s.list t.pml4 ∧ (s.area vma).start < addr ∧ addr < (s.area vma).stop
  | .delete start stop => start ≤ stop
  | _ => True

structure VmaCall.Made (spaces : List Nat) (s : VmaState) (c : VmaCall) (s' : VmaState) :
    Prop where
  space : c.task.pml4 ∈ spaces
  alloc : c.alloc.Ok spaces
  called : c.event.Called c.task s
  result : s' = vmaStep c.alloc c.task s c.event

structure VmaState.Initial (s : VmaState) : Prop where
  list : ∀ p, s.list p = []
  idx : ∀ slot, s.idx slot = none
  cache : ∀ slot w, (s.cache slot w).area = none ∧ (s.cache slot w).gen = 0
  freeHint : ∀ slot, (s.freeHint slot).area = none ∧ (s.freeHint slot).gen = 0

open List

def IndexOk (list : Nat → List Nat) (idx : Nat → Option VmaIndex) : Prop :=
  ∀ slot ix, idx slot = some ix → ix.pml4 ≠ 0 ∧ vmaIdxSlot ix.pml4 = slot ∧
    (ix.e.map IdxEntry.v).Nodup ∧ ∀ e ∈ ix.e, e.v ∈ list ix.pml4

def CachedOk (list : Nat → List Nat) (gen : Nat → Nat) (c : Cached) : Prop :=
  c.gen ≤ gen (vmaGenOf c.pml4) ∧
    (c.gen = gen (vmaGenOf c.pml4) → ∀ v, c.area = some v → v ∈ list c.pml4)

structure Linked (spaces : List Nat) (s : VmaState) : Prop where
  used : ∀ p, p ∉ spaces → s.list p = []
  nodup : ∀ p, (s.list p).Nodup
  apart : ∀ p q v, v ∈ s.list p → v ∈ s.list q → p = q
  index : IndexOk s.list s.idx
  cached : ∀ slot w, CachedOk s.list s.gen (s.cache slot w)
  hinted : ∀ slot, CachedOk s.list s.gen (s.freeHint slot)

variable {spaces L : List Nat} {v b up : Nat} {list list' : Nat → List Nat}
  {idx : Nat → Option VmaIndex}

lemma IndexOk.mono (h : IndexOk list idx) (hsub : ∀ p v, v ∈ list p → v ∈ list' p) :
    IndexOk list' idx := fun slot ix hix =>
  ⟨(h slot ix hix).1,(h slot ix hix).2.1,(h slot ix hix).2.2.1,
    fun e he => hsub _ _ ((h slot ix hix).2.2.2 e he)⟩

lemma IndexOk.clear (h : IndexOk list idx) (slot : Nat) : IndexOk list (update idx slot none) := by
  intro slot' ix hix
  by_cases hs : slot' = slot
  · rw [hs,update_self] at hix
    cases hix
  rw [update_of_ne hs] at hix
  exact h slot' ix hix

lemma IndexOk.publish (h : IndexOk list idx) (ix : VmaIndex) (hp : ix.pml4 ≠ 0)
    (hnd : (ix.e.map IdxEntry.v).Nodup) (hmem : ∀ e ∈ ix.e, e.v ∈ list ix.pml4) :
    IndexOk list (update idx (vmaIdxSlot ix.pml4) (some ix)) := by
  intro slot ix' hix
  by_cases hs : slot = vmaIdxSlot ix.pml4
  · rw [hs,update_self] at hix
    cases hix
    exact ⟨hp,hs.symm,hnd,hmem⟩
  rw [update_of_ne hs] at hix
  exact h slot ix' hix

lemma idxInsert_frame (al : VmaAlloc) (t : VmaTask) (v : Nat) (s : VmaState) :
    vmaIdxInsertLocked al t v s = { s with idx := (vmaIdxInsertLocked al t v s).idx } := by
  unfold vmaIdxInsertLocked
  repeat' split
  all_goals rfl

lemma idxRemove_frame (al : VmaAlloc) (p v : Nat) (s : VmaState) :
    vmaIdxRemoveLocked al p v s = { s with idx := (vmaIdxRemoveLocked al p v s).idx } := by
  unfold vmaIdxRemoveLocked
  repeat' split
  all_goals rfl

lemma orderedEntries_sublist (s : VmaState) (prev : Option Nat) (l : List Nat) :
    ((orderedEntries s prev l).map IdxEntry.v).Sublist l := by
  induction l generalizing prev with
  | nil => exact List.Sublist.refl _
  | cons v _ ih =>
    simp only [orderedEntries]
    split
    · exact (ih prev).cons v
    exact (ih _).cons_cons v

variable {l : List Nat} {e : IdxEntry} {p : Nat} {best : Option Nat}

lemma IndexOk.insertLocked (al : VmaAlloc) (hold : IndexOk list s.idx)
    (hsub : ∀ p v, v ∈ list p → v ∈ s.list p) (hfr : ∀ p, v ∉ list p) (hin : v ∈ s.list t.pml4)
    (hnd : (s.list t.pml4).Nodup) : IndexOk s.list (vmaIdxInsertLocked al t v s).idx := by
  have hok := hold.mono hsub
  unfold vmaIdxInsertLocked
  split
  · exact hok
  next hp0 =>
  split
  · split
    · exact hok
    split
    · exact hok.publish ⟨t.pml4,0,orderedEntries s none (s.list t.pml4)⟩ hp0
        ((orderedEntries_sublist s none _).nodup hnd) fun _ he =>
          (orderedEntries_sublist s none _).subset (mem_map_of_mem he)
    exact hok
  next ix hix =>
  split
  · exact hok
  next hpml4 =>
  have hpml4 := not_not.mp hpml4
  split
  · obtain ⟨-,-,hmap,hmem⟩ := hold _ ix hix
    have hnew : v ∉ ix.e.map IdxEntry.v := fun hv => by
      obtain ⟨e,he,hev⟩ := mem_map.mp hv
      exact hfr _ (hev ▸ hmem e he)
    generalize vmaIdxUpper ix.e (s.area v).start 0 ix.e.length = k
    rw [← hpml4]
    refine hok.publish { ix with
      e := ix.e.take k ++ ⟨(s.area v).start,v⟩ :: ix.e.drop k } (hpml4 ▸ hp0) ?_ ?_
    · have hpm : ((ix.e.take k ++ ⟨(s.area v).start,v⟩ :: ix.e.drop k).map
          IdxEntry.v).Perm (v :: ix.e.map IdxEntry.v) := by
        refine (perm_middle.map IdxEntry.v).trans ?_
        rw [map_cons,take_append_drop]
      exact hpm.nodup_iff.mpr (nodup_cons.mpr ⟨hnew,hmap⟩)
    intro e he
    obtain he | he := mem_append.mp he
    · exact hsub _ _ (hmem e (mem_of_mem_take he))
    obtain rfl | he := mem_cons.mp he
    · exact hpml4 ▸ hin
    exact hsub _ _ (hmem e (mem_of_mem_drop he))
  exact hok.clear _

lemma idxOf_spec {ix : VmaIndex} (h : vmaIdxOf s p = some ix) :
    s.idx (vmaIdxSlot p) = some ix ∧ ix.pml4 = p := by
  unfold vmaIdxOf at h
  split at h
  · cases h
  obtain ⟨hix,hp⟩ := filter_eq_some_iff.mp h
  exact ⟨hix,of_decide_eq_true hp⟩

lemma mem_eraseIdx_findIdx {l : List IdxEntry} (hnd : (l.map IdxEntry.v).Nodup)
    (he : e ∈ l.eraseIdx (l.findIdx fun e => e.v = v)) : e ∈ l ∧ e.v ≠ v := by
  induction l with
  | nil => cases he
  | cons x _ ih =>
    rw [map_cons,nodup_cons] at hnd
    rw [findIdx_cons] at he
    by_cases hx : x.v = v
    · rw [decide_eq_true hx] at he
      refine ⟨.tail x he,fun hev => hnd.1 ?_⟩
      rw [hx,← hev]
      exact mem_map_of_mem he
    rw [decide_eq_false hx] at he
    obtain rfl | he := mem_cons.mp he
    · exact ⟨.head _,hx⟩
    exact ⟨.tail x (ih hnd.2 he).1,(ih hnd.2 he).2⟩

lemma IndexOk.removeLocked (al : VmaAlloc) (hold : IndexOk list s.idx)
    (hot : ∀ q, q ≠ p → list q = s.list q) (hmem : ∀ w, w ∈ list p → w ≠ v → w ∈ s.list p) :
    IndexOk s.list (vmaIdxRemoveLocked al p v s).idx := by
  have hrs : ∀ slot ix, s.idx slot = some ix → (∀ e ∈ ix.e, ix.pml4 = p → e.v ≠ v) →
      ∀ e ∈ ix.e, e.v ∈ s.list ix.pml4 := by
    intro slot ix hix hne e he
    have hin := (hold slot ix hix).2.2.2 e he
    by_cases hp : ix.pml4 = p
    · rw [hp] at hin ⊢
      exact hmem _ hin (hne e he hp)
    rwa [hot _ hp] at hin
  have hsl : ∀ slot ix, s.idx slot = some ix → ix.pml4 = p → vmaIdxOf s p = some ix := by
    intro slot ix hix hp
    obtain ⟨h0,hs,-,-⟩ := hold slot ix hix
    rw [vmaIdxOf,if_neg (hp ▸ h0),← hp,hs,hix]
    exact filter_eq_some_iff.mpr ⟨rfl,decide_eq_true rfl⟩
  unfold vmaIdxRemoveLocked
  split
  · next hnone =>
    intro slot ix hix
    refine ⟨(hold slot ix hix).1,(hold slot ix hix).2.1,(hold slot ix hix).2.2.1,
      hrs slot ix hix fun e _ hp => ?_⟩
    rw [hsl slot ix hix hp] at hnone
    cases hnone
  next ix hix =>
  obtain ⟨hget,hp⟩ := idxOf_spec hix
  obtain ⟨h0,-,hnd,hin⟩ := hold _ ix hget
  have hots : ∀ slot ix', s.idx slot = some ix' → slot ≠ vmaIdxSlot p →
      ∀ e ∈ ix'.e, e.v ∈ s.list ix'.pml4 := by
    intro slot ix' hix' hs
    refine hrs slot ix' hix' fun e _ hp' => absurd ?_ hs
    rw [← hp',(hold slot ix' hix').2.1]
  have hcle : ∀ slot ix', update s.idx (vmaIdxSlot p) none slot = some ix' →
      ∀ e ∈ ix'.e, e.v ∈ s.list ix'.pml4 := by
    intro slot ix' hix'
    by_cases hs : slot = vmaIdxSlot p
    · rw [hs,update_self] at hix'
      cases hix'
    rw [update_of_ne hs] at hix'
    exact hots slot ix' hix' hs
  have hclr : IndexOk s.list (update s.idx (vmaIdxSlot p) none) :=
    fun slot ix' hix' => ⟨(hold.clear _ slot ix' hix').1,(hold.clear _ slot ix' hix').2.1,
      (hold.clear _ slot ix' hix').2.2.1,hcle slot ix' hix'⟩
  split
  · next hall =>
    intro slot ix' hix'
    refine ⟨(hold slot ix' hix').1,(hold slot ix' hix').2.1,(hold slot ix' hix').2.2.1,
      hrs slot ix' hix' fun e he hp' => ?_⟩
    have heq := (hsl slot ix' hix' hp').symm.trans hix
    cases heq
    exact of_decide_eq_true (all_eq_true.mp hall e he)
  split
  · have hsub : (ix.e.eraseIdx (ix.e.findIdx fun e => e.v = v)).Sublist ix.e := eraseIdx_sublist ..
    have hpub := hclr.publish { ix with
      freeHint := if ix.freeHint < (s.area v).start then ix.freeHint else (s.area v).start
      e := ix.e.eraseIdx (ix.e.findIdx fun e => e.v = v) } h0
      ((hsub.map IdxEntry.v).nodup hnd) fun e he => ?_
    · subst hp
      rw [update_idem] at hpub
      exact hpub
    obtain ⟨he,hne⟩ := mem_eraseIdx_findIdx hnd he
    rw [hp]
    exact hmem _ (hp ▸ hin e he) hne
  exact hclr

variable {gen : Nat → Nat} {c : Cached} {addr : Nat} {needEnd : Bool}

lemma CachedOk.mono (h : CachedOk list gen c) (hsub : ∀ p v, v ∈ list p → v ∈ list' p) :
    CachedOk list' gen c :=
  ⟨h.1,fun hg v hv => hsub _ _ (h.2 hg v hv)⟩

lemma CachedOk.forget (h : CachedOk list gen c) : CachedOk list gen c.forget := ⟨h.1,nofun⟩

lemma CachedOk.invalidate (h : CachedOk list gen c) (hot : ∀ q, q ≠ p → list q = list' q) :
    CachedOk list' (update gen (vmaGenOf p) (gen (vmaGenOf p) + 1)) c := by
  by_cases hp : vmaGenOf c.pml4 = vmaGenOf p
  · have hle := h.1
    rw [hp] at hle
    refine ⟨?_,fun hg => ?_⟩
    · rw [hp,update_self]
      exact le_succ_of_le hle
    rw [hp,update_self] at hg
    omega
  have hne : c.pml4 ≠ p := fun e => hp (by rw [e])
  refine ⟨?_,fun hg v hv => ?_⟩
  · rw [update_of_ne hp]
    exact h.1
  rw [update_of_ne hp] at hg
  rw [← hot _ hne]
  exact h.2 hg v hv

lemma Linked.link {area : Nat → VmArea} (h : Linked spaces s)
    (hp : t.pml4 ∈ spaces) (hfr : ∀ q, v ∉ s.list q) (hpm : L.Perm (v :: s.list t.pml4)) :
    Linked spaces (vmaIdxInsertLocked al t v
      { s with area, list := update s.list t.pml4 L }) := by
  have hse : update s.list t.pml4 L t.pml4 = L := update_self ..
  have hsub : ∀ q u, u ∈ s.list q → u ∈ update s.list t.pml4 L q := by
    intro q u hu
    obtain rfl | hq := eq_or_ne q t.pml4
    · rw [hse]
      exact hpm.mem_iff.mpr (.tail v hu)
    rwa [update_of_ne hq]
  have hcas : ∀ q u, u ∈ update s.list t.pml4 L q →
      u ∈ s.list q ∨ (q = t.pml4 ∧ u = v) := by
    intro q u hu
    obtain rfl | hq := eq_or_ne q t.pml4
    · rw [hse] at hu
      obtain rfl | hu := mem_cons.mp (hpm.mem_iff.mp hu)
      · exact .inr ⟨rfl,rfl⟩
      exact .inl hu
    rw [update_of_ne hq] at hu
    exact .inl hu
  have hnd : ∀ q, (update s.list t.pml4 L q).Nodup := by
    intro q
    obtain rfl | hq := eq_or_ne q t.pml4
    · rw [hse]
      exact hpm.nodup_iff.mpr (nodup_cons.mpr ⟨hfr _,h.nodup _⟩)
    rw [update_of_ne hq]
    exact h.nodup q
  have hin : v ∈ update s.list t.pml4 L t.pml4 := by
    rw [hse]
    exact hpm.mem_iff.mpr (.head _)
  have hix := IndexOk.insertLocked al
    (s := { s with area, list := update s.list t.pml4 L }) h.index hsub hfr
    hin (hnd t.pml4)
  rw [idxInsert_frame]
  refine ⟨fun q hq => ?_,hnd,fun q r u hu hu' => ?_,hix,
    fun slot w => (h.cached slot w).mono hsub,fun slot => (h.hinted slot).mono hsub⟩
  · have hne : q ≠ t.pml4 := fun e => hq (e ▸ hp)
    exact (update_of_ne hne ..).trans (h.used q hq)
  obtain hq | ⟨hq,hv⟩ := hcas q u hu
  · obtain hr | ⟨-,hv⟩ := hcas r u hu'
    · exact h.apart q r u hq hr
    cases hfr q (hv ▸ hq)
  obtain hr | ⟨hr,-⟩ := hcas r u hu'
  · cases hfr r (hv ▸ hr)
  exact hq.trans hr.symm

lemma vmaUnlink_list (al : VmaAlloc) (t : VmaTask) (v : Nat) (s : VmaState) :
    (vmaUnlink al t v s).list = update s.list t.pml4 ((s.list t.pml4).erase v) := by
  simp only [vmaUnlink,vmaCacheForget,vmaCacheInvalidateSpace]
  rw [idxRemove_frame]

lemma Linked.unlink (h : Linked spaces s) (hp : t.pml4 ∈ spaces) : Linked spaces (vmaUnlink al t v s) := by
  have hot : ∀ q, q ≠ t.pml4 →
      s.list q = update s.list t.pml4 ((s.list t.pml4).erase v) q := fun q hq =>
    (update_of_ne hq ..).symm
  have hse : update s.list t.pml4 ((s.list t.pml4).erase v) t.pml4 =
      (s.list t.pml4).erase v := update_self ..
  have hsub : ∀ q u, u ∈ update s.list t.pml4 ((s.list t.pml4).erase v) q →
      u ∈ s.list q := by
    intro q u hu
    obtain rfl | hq := eq_or_ne q t.pml4
    · rw [hse] at hu
      exact mem_of_mem_erase hu
    rwa [update_of_ne hq] at hu
  have hmem : ∀ u, u ∈ s.list t.pml4 → u ≠ v →
      u ∈ update s.list t.pml4 ((s.list t.pml4).erase v) t.pml4 := by
    intro u hu hne
    rw [hse]
    exact (mem_erase_of_ne hne).mpr hu
  have hix := IndexOk.removeLocked al
    (s := { s with list := update s.list t.pml4 ((s.list t.pml4).erase v) })
    h.index hot hmem
  have hca : ∀ c, CachedOk s.list s.gen c →
      CachedOk (update s.list t.pml4 ((s.list t.pml4).erase v))
        (update s.gen (vmaGenOf t.pml4) (s.gen (vmaGenOf t.pml4) + 1)) c :=
    fun c hc => hc.invalidate hot
  simp only [vmaUnlink]
  rw [idxRemove_frame]
  refine ⟨fun q hq => ?_,fun q => ?_,fun q r u hu hu' => ?_,hix,fun slot w => ?_,fun slot => ?_⟩
  · have hne : q ≠ t.pml4 := fun e => hq (e ▸ hp)
    exact (hot q hne).symm.trans (h.used q hq)
  · simp only [vmaCacheForget,vmaCacheInvalidateSpace]
    obtain rfl | hq := eq_or_ne q t.pml4
    · rw [hse]
      exact (h.nodup _).erase v
    rw [update_of_ne hq]
    exact h.nodup q
  · exact h.apart q r u (hsub q u hu) (hsub r u hu')
  · simp only [vmaCacheForget,update_apply]
    split
    · dsimp only
      split
      · exact (hca _ (h.cached _ w)).forget
      exact hca _ (h.cached _ w)
    exact hca _ (h.cached _ w)
  simp only [vmaCacheForget,update_apply]
  split
  · exact (hca _ (h.hinted _)).forget
  exact hca _ (h.hinted _)

lemma vmaIdxUpper_le (e : List IdxEntry) (addr : Nat) {lo hi : Nat} (h : lo ≤ hi) :
    vmaIdxUpper e addr lo hi ≤ hi := by
  fun_induction vmaIdxUpper e addr lo hi with
  | case1 _ _ _ _ _ ih => exact ih (by omega)
  | case2 _ _ _ _ _ ih => exact (ih (by omega)).trans (by omega)
  | case3 => exact h

lemma idxBeforeFrom_mem {e : List IdxEntry} (hup : up ≤ e.length)
    (h : idxBeforeFrom s e addr needEnd up = some v) : ∃ x ∈ e, x.v = v := by
  induction up with
  | zero => cases h
  | succ _ ih =>
    simp only [idxBeforeFrom] at h
    split at h
    · injection h with h
      rw [getD_eq_getElem _ _ hup] at h
      exact ⟨_,getElem_mem hup,h⟩
    exact ih (le_of_succ_le hup) h

lemma Linked.idxBefore (h : Linked spaces s) (hv : vmaIdxBefore s p addr needEnd = some v) :
    v ∈ s.list p := by
  unfold vmaIdxBefore at hv
  split at hv
  · cases hv
  next ix hix =>
  obtain ⟨hget,rfl⟩ := idxOf_spec hix
  obtain ⟨x,hx,rfl⟩ := idxBeforeFrom_mem (vmaIdxUpper_le _ _ zero_le) hv
  exact (h.index _ ix hget).2.2.2 x hx

lemma CachedOk.live (h : CachedOk list gen c) (hv : c.live (gen (vmaGenOf p)) p = some v) : v ∈ list p := by
  unfold Cached.live at hv
  split at hv
  · next hc =>
    obtain ⟨hg,rfl⟩ := hc
    exact h.2 hg v hv
  cases hv

lemma Linked.cachedAreas (h : Linked spaces s) (hv : v ∈ cachedAreas s t) : v ∈ s.list t.pml4 := by
  obtain ⟨c,hc,hli⟩ := mem_filterMap.mp hv
  obtain ⟨w,-,rfl⟩ := mem_map.mp hc
  exact (h.cached t.slot w).live hli

lemma Linked.hintArea (h : Linked spaces s) (hv : hintArea s t = some v) : v ∈ s.list t.pml4 :=
  (h.hinted t.slot).live hv

structure Before (s : VmaState) (t : VmaTask) (addr : Nat) (needEnd : Bool) (v : Nat) : Prop where
  linked : v ∈ s.list t.pml4
  start : (s.area v).start < addr
  stop : needEnd = true → (s.area v).stop ≤ addr

lemma vmaBetter_before (hv : v ∈ s.list t.pml4)
    (hbt : ∀ b, best = some b → Before s t addr needEnd b)
    (h : vmaBetter s addr needEnd best v = some b) : Before s t addr needEnd b := by
  unfold vmaBetter at h
  split at h
  · exact hbt b h
  next hok =>
  obtain ⟨hsta,hsp⟩ := not_or.mp hok
  split at h
  · cases h
    exact ⟨hv,lt_of_not_ge hsta,fun hn => le_of_not_gt fun hlt => hsp ⟨hn,hlt⟩⟩
  exact hbt b h

lemma foldl_before (hl : ∀ v ∈ l, v ∈ s.list t.pml4)
    (hbt : ∀ b, best = some b → Before s t addr needEnd b)
    (h : l.foldl (vmaBetter s addr needEnd) best = some b) : Before s t addr needEnd b := by
  induction l generalizing best with
  | nil => exact hbt b h
  | cons v _ ih =>
    exact ih (fun u hu => hl u (.tail v hu))
      (fun u => vmaBetter_before (hl v (.head _)) hbt) h

lemma Linked.knownBefore (h : Linked spaces s) (hv : vmaKnownBefore s t addr needEnd = some v) :
    Before s t addr needEnd v := by
  have hcands : ∀ u ∈ B1nix.Sched.cachedAreas s t ++ (B1nix.Sched.hintArea s t).toList,
      u ∈ s.list t.pml4 := by
    intro u hu
    obtain hu | hu := mem_append.mp hu
    · exact h.cachedAreas hu
    exact h.hintArea (mem_toList.mp hu)
  have hbt : ∀ b, (B1nix.Sched.cachedAreas s t ++ (B1nix.Sched.hintArea s t).toList).foldl
      (vmaBetter s addr needEnd) none = some b → Before s t addr needEnd b := fun b =>
    foldl_before hcands (by rintro _ ⟨⟩)
  unfold vmaKnownBefore at hv
  split at hv
  · exact hbt v hv
  next u hu =>
  refine vmaBetter_before ?_ hbt hv
  split at hu
  · cases hu
  exact h.idxBefore hu

end B1nix.Sched
