import B1nix.Basic.Transition
import B1nix.Page

namespace B1nix.PageLife

open Function

structure Key where
  fsId : UInt32
  ino : UInt64
  deriving DecidableEq

def pcHash (mask : UInt32) (k : Key) (offset : UInt64) : UInt32 :=
  let val := k.ino ^^^ (k.fsId.toUInt64 <<< 32) ^^^ (offset >>> 12)
  let val := val ^^^ (val >>> 16)
  val.toUInt32 &&& mask

structure Entry where
  inode : Option Nat
  key : Key
  offset : UInt64
  refcount : Int
  dirty : Bool
  referenced : Bool
  active : Bool
  orphan : Bool
  held : Bool

structure Inode where
  key : Key
  size : UInt64
  nlink : Nat
  refcount : Int
  writeCb : Bool
  memoryBacked : Bool
  cachedPages : Nat
  dirtyPages : Nat
  onDirtyList : Bool

inductive Job where
  | invalidate (i : Nat)
  | stale (k : Key) (keep : Nat)
  | truncate (i : Nat) (newSize : UInt64)
  | evict
  | evictClean
  | flush (i : Nat)
  deriving DecidableEq

structure Walk where
  job : Job
  left : Nat
  todo : List Nat

inductive Phase where
  | pinned
  | writing
  | written
  deriving DecidableEq

structure Flight where
  entry : Nat
  inode : Nat
  walk : Walk
  phase : Phase

structure State where
  mask : UInt32
  entry : Nat → Entry
  live : Finset Nat
  born : Finset Nat
  table : UInt32 → List Nat
  inactive : List Nat
  active : List Nat
  toFree : List Nat
  freeing : List (List Nat)
  inode : Nat → Inode
  inodes : Finset Nat
  bornInodes : Finset Nat
  dirtyList : List Nat
  holders : List Nat
  dying : List Nat
  drained : List Nat
  pins : List Nat
  flights : List Flight
  owner : Option Walk

inductive Fault where
  | freedEntry (e : Nat)
  | entryTwice (e : Nat)
  | frameTwice (e : Nat)
  | underflow (e : Nat)
  | clearedInode (e : Nat)
  | freedInode (i : Nat)
  deriving DecidableEq

abbrev Run := State → Except Fault State

variable (s : State) (i : Nat) (offset : UInt64) (e : Nat)

def State.setEntry (x : Entry) : State := { s with entry := update s.entry e x }

def State.setInode (x : Inode) : State := { s with inode := update s.inode i x }

def State.resident : List Nat := s.inactive ++ s.active

def State.condemned : List Nat := s.toFree ++ s.freeing.flatten

def State.pinned : List Nat := s.pins ++ s.flights.map (·.entry)

def State.bucket : UInt32 := pcHash s.mask (s.inode i).key offset

def touch : Run := fun s =>
  if e ∈ s.live then .ok s else .error (.freedEntry e)

def touchAll (es : List Nat) : Run := fun s =>
  match es.find? (· ∉ s.live) with
  | none => .ok s
  | some e => .error (.freedEntry e)

def derefInode : Run := fun s =>
  if i ∈ s.inodes then .ok s else .error (.freedInode i)

def ownInode (s : State) : Except Fault Nat :=
  match (s.entry e).inode with
  | none => .error (.clearedInode e)
  | some i => if i ∈ s.inodes then .ok i else .error (.freedInode i)

def onOwner (f : Inode → Inode) : Run := fun s =>
  match (s.entry e).inode with
  | none => .ok s
  | some i =>
    if i ∈ s.inodes then .ok (s.setInode i (f (s.inode i))) else .error (.freedInode i)

def dropCached : Run := onOwner e fun x => { x with cachedPages := x.cachedPages - 1 }

def dropDirty : Run := fun s =>
  if (s.entry e).dirty then onOwner e (fun x => { x with dirtyPages := x.dirtyPages - 1 }) s
  else .ok s

def pmmFreeFrame : Run := fun s =>
  if (s.entry e).held then .ok (s.setEntry e { s.entry e with held := false })
  else .error (.frameTwice e)

def defer : Run := fun s => .ok { s with toFree := e :: s.toFree }

def unchain : Run := fun s => do
  let i ← ownInode e s
  let h := s.bucket i (s.entry e).offset
  let s ← touchAll (s.table h) s
  .ok { s with table := update s.table h ((s.table h).erase e) }

def lruRemove : Run := fun s =>
  if (s.entry e).active then do
    let s ← touchAll s.active s
    .ok { s with active := s.active.erase e }
  else do
    let s ← touchAll s.inactive s
    .ok { s with inactive := s.inactive.erase e }

def lruAppend : Run := fun s => do
  let s ← touchAll s.inactive s
  .ok { s.setEntry e { s.entry e with active := false } with inactive := s.inactive ++ [e] }

def activeAppend : Run := fun s => do
  let s ← touchAll s.active s
  .ok { s.setEntry e { s.entry e with active := true } with active := s.active ++ [e] }

def release : Run := fun s => do
  let s ← pmmFreeFrame e s
  let s ← dropCached e s
  defer e s

def unpin : Run := fun s => do
  let s ← touch e s
  let x := s.entry e
  if x.refcount ≤ 0 then .error (.underflow e)
  else .ok (s.setEntry e { x with refcount := x.refcount - 1 })

def pageCachePutPage : Run := fun s => do
  let s ← unpin e s
  let s := { s with pins := s.pins.erase e }
  if (s.entry e).refcount = 0 ∧ (s.entry e).orphan then release e s else .ok s

def pageCacheGetPage : Run := fun s => do
  let s ← derefInode i s
  let h := s.bucket i offset
  let s ← touchAll (s.table h) s
  match (s.table h).find? fun e =>
      (s.entry e).key = (s.inode i).key ∧ (s.entry e).offset = offset with
  | none => .ok s
  | some e =>
    let x := s.entry e
    .ok { s.setEntry e { x with refcount := x.refcount + 1, referenced := true } with
      pins := e :: s.pins }

def newEntry (s : State) : Entry := ⟨some i,(s.inode i).key,offset,0,false,false,false,false,true⟩

def insertPage (s : State) : State :=
  let h := s.bucket i offset
  let x := s.inode i
  { (s.setEntry e (newEntry i offset s)).setInode i { x with cachedPages := x.cachedPages + 1 } with
    live := insert e s.live
    born := insert e s.born
    table := update s.table h (e :: s.table h) }

def pageCacheAddPage (refault : Bool) : Run := fun s => do
  let s ← derefInode i s
  let h := s.bucket i offset
  let s ← touchAll (s.table h) s
  if ∃ e ∈ s.table h, (s.entry e).key = (s.inode i).key ∧ (s.entry e).offset = offset then .ok s
  else if refault then activeAppend e (insertPage i offset e s)
  else lruAppend e (insertPage i offset e s)

def joinDirtyList (x : Inode) : Inode :=
  { x with refcount := x.refcount + 1, onDirtyList := true }

def countDirty : Run := fun s =>
  if (s.entry e).dirty then .ok s
  else onOwner e (fun x => { x with dirtyPages := x.dirtyPages + 1 }) s

def enlistOwner : Run := fun s =>
  match (s.entry e).inode with
  | none => .ok s
  | some i => do
      let s ← derefInode i s
      if (s.inode i).onDirtyList ∨ (s.inode i).memoryBacked then .ok s
      else .ok { s.setInode i (joinDirtyList (s.inode i)) with dirtyList := i :: s.dirtyList }

def pageCacheMarkDirty : Run := fun s => do
  let s ← touch e s
  let s ← countDirty e s
  enlistOwner e (s.setEntry e { s.entry e with dirty := true })

def leaveDirtyList : Run := fun s => do
  let s ← derefInode i s
  .ok (s.setInode i { s.inode i with onDirtyList := false })

def pageCacheTakeDirtyInodes : Run := fun s => do
  let s ← s.dirtyList.foldlM (fun s i => leaveDirtyList i s) s
  .ok { s with holders := s.dirtyList ++ s.holders, dirtyList := [] }

def takeDeferred : Run := fun s => .ok { s with freeing := s.toFree :: s.freeing, toFree := [] }

variable (w : Walk) (rest : List Nat) (j : Nat)

def kfreeDeferred : Run := fun s =>
  match s.freeing[j]? with
  | some (e :: rest) =>
    if e ∈ s.live then .ok { s with live := s.live.erase e, freeing := s.freeing.set j rest }
    else .error (.entryTwice e)
  | _ => .ok s

def vfsInodeGet : Run := fun s => do
  let s ← derefInode i s
  .ok { s.setInode i { s.inode i with refcount := (s.inode i).refcount + 1 } with
    holders := i :: s.holders }

def vfsInodePut : Run := fun s => do
  let s ← derefInode i s
  let x := s.inode i
  let s := { s.setInode i { x with refcount := x.refcount - 1 } with holders := s.holders.erase i }
  if x.refcount - 1 = 0 ∧ x.nlink = 0 then .ok { s with dying := i :: s.dying } else .ok s

def skipInvalidate : Run := fun s => do
  let s ← derefInode i s
  .ok { s with dying := s.dying.erase i, drained := i :: s.drained }

def vfsFreeInode : Run := fun s => do
  let s ← derefInode i s
  .ok { s with inodes := s.inodes.erase i, drained := s.drained.erase i }

def Job.matches : Job → Bool
  | .invalidate i => (s.entry e).inode == some i
  | .stale k keep =>
    (s.entry e).inode.any (· != keep) && decide ((s.entry e).key = k)
  | .truncate i newSize =>
    (s.entry e).inode == some i && decide (newSize.toNat < (s.entry e).offset.toNat + pageSize)
  | .flush i => (s.entry e).inode == some i && (s.entry e).dirty
  | .evict | .evictClean => true

def discardOrOrphan : Run := fun s =>
  if (s.entry e).refcount = 0 then do
    let s ← pmmFreeFrame e s
    defer e s
  else .ok (s.setEntry e { s.entry e with orphan := true })

def disown : Run := fun s => do
  let s ← dropCached e s
  discardOrOrphan e (s.setEntry e { s.entry e with inode := none })

def invalidatePage : Run := fun s => do
  let s ← unchain e s
  let s ← lruRemove e s
  disown e s

def cleanPage : Run := fun s => do
  let s ← dropDirty e s
  .ok (s.setEntry e { s.entry e with dirty := false })

def truncatePage (newSize : UInt64) : Run := fun s => do
  if (s.entry e).offset < newSize then .ok s
  else
    let _ ← ownInode e s
    if (s.entry e).refcount ≠ 0 then cleanPage e s
    else
      let s ← unchain e s
      let s ← lruRemove e s
      let s ← dropDirty e s
      let s ← pmmFreeFrame e s
      let s ← dropCached e s
      defer e (s.setEntry e { s.entry e with inode := none })

def evictPage : Run := fun s => do
  let s ← unchain e s
  let s ← lruRemove e s
  release e s

def promote : Run := fun s => do
  let s := s.setEntry e { s.entry e with referenced := false }
  let s ← lruRemove e s
  activeAppend e s

def State.advance : State := { s with owner := some w }

def State.rescan : State :=
  match w.job with
  | .evict | .evictClean => s.advance { w with todo := s.inactive }
  | _ => s.advance { w with todo := s.resident }

def writebackSize : Nat :=
  if (s.inode i).size.toNat < (s.entry e).offset.toNat + pageSize then
    (s.inode i).size.toNat - (s.entry e).offset.toNat
  else pageSize

def spend : Walk := { w with left := w.left - 1 }

def Walk.wrote : Walk :=
  match w.job with
  | .flush _ => spend w
  | _ => w

def launch (i : Nat) (w : Walk) (s : State) : State :=
  let x := s.entry e
  { s.setEntry e { x with refcount := x.refcount + 1 } with
    owner := none
    flights := ⟨e,i,w,.pinned⟩ :: s.flights }

def writebackPageLocked : Run := fun s =>
  if (s.entry e).dirty then
    match (s.entry e).inode with
    | none => .ok (s.rescan w.wrote)
    | some i => do
        let s ← derefInode i s
        if (s.inode i).writeCb then
          if writebackSize s i e = 0 then do
            let s ← cleanPage e s
            .ok (s.rescan w.wrote)
          else .ok (launch e i w s)
        else .ok (s.rescan w.wrote)
  else .ok (s.rescan w.wrote)

def evictVisit : Run := fun s =>
  let x := s.entry e
  if x.refcount ≠ 0 then .ok (s.advance { w with todo := rest })
  else if x.referenced then do
    let s ← promote e s
    .ok (s.advance { w with todo := rest })
  else if x.dirty then
    match x.inode with
    | none => .ok (s.advance { w with todo := rest })
    | some i => do
        let s ← derefInode i s
        if (s.inode i).writeCb ∧ !(s.inode i).memoryBacked then writebackPageLocked e w s
        else .ok (s.advance { w with todo := rest })
  else do
    let s ← evictPage e s
    .ok (s.rescan (spend w))

def evictCleanVisit : Run := fun s =>
  if (s.entry e).refcount ≠ 0 ∨ (s.entry e).dirty then .ok (s.advance { w with todo := rest })
  else do
    let s ← evictPage e s
    .ok (s.rescan (spend w))

def visitPage : Run := fun s =>
  match w.job with
  | .evict => evictVisit e w rest s
  | .evictClean => evictCleanVisit e w rest s
  | .flush _ =>
    if w.job.matches s e then writebackPageLocked e w s
    else .ok (s.advance { w with todo := rest })
  | .truncate _ newSize =>
    if w.job.matches s e then do
      let s ← truncatePage e newSize s
      .ok (s.advance { w with todo := rest })
    else .ok (s.advance { w with todo := rest })
  | .invalidate _ | .stale _ _ =>
    if w.job.matches s e then do
      let s ← invalidatePage e s
      .ok (s.advance { w with todo := rest })
    else .ok (s.advance { w with todo := rest })

def visit : Run := fun s =>
  match s.owner with
  | some w =>
    match w.todo with
    | e :: rest => do
        let s ← touch e s
        visitPage e w rest s
    | [] => .ok s
  | none => .ok s

def probe : Run := fun s =>
  match s.owner with
  | some w =>
    match w.job with
    | .flush i => do
        let s ← derefInode i s
        let h := s.bucket i offset
        let s ← touchAll (s.table h) s
        match (s.table h).find? fun e => (s.entry e).inode = some i ∧
            (s.entry e).key = (s.inode i).key ∧ (s.entry e).offset = offset with
        | some e => if (s.entry e).dirty then writebackPageLocked e w s else .ok s
        | none => .ok s
    | _ => .ok s
  | none => .ok s

def demote : Run := fun s => do
  let s ← touch e s
  let s ← lruRemove e s
  lruAppend e s

def demoteActive : Run := fun s =>
  match s.owner with
  | some w => do
      let s ← (s.active.take w.left).foldlM (fun s e => demote e s) s
      .ok (s.rescan w)
  | none => .ok s

def unlockPc : Run := fun s =>
  match s.owner with
  | some w =>
    match w.job with
    | .invalidate i =>
      .ok { s with owner := none, dying := s.dying.erase i, drained := i :: s.drained }
    | _ => .ok { s with owner := none }
  | none => .ok s

def Job.subject : Job → Option Nat
  | .invalidate i | .stale _ i | .truncate i _ | .flush i => some i
  | .evict | .evictClean => none

def lockPc (job : Job) (left : Nat) : Run := fun s =>
  match job.subject with
  | none => .ok (s.rescan ⟨job,left,[]⟩)
  | some i => do
      let s ← derefInode i s
      .ok (s.rescan ⟨job,left,[]⟩)

def submit : Run := fun s =>
  match s.flights[j]? with
  | some f => do
      let s ← touch f.entry s
      let _ ← ownInode f.entry s
      .ok { s with flights := s.flights.set j { f with phase := .writing } }
  | none => .ok s

def complete : Run := fun s =>
  match s.flights[j]? with
  | some f => do
      let s ← derefInode f.inode s
      .ok { s with flights := s.flights.set j { f with phase := .written } }
  | none => .ok s

def resume : Run := fun s =>
  match s.flights[j]? with
  | some f => do
      let s ← unpin f.entry s
      let s := { s with flights := s.flights.eraseIdx j }
      if (s.entry f.entry).refcount = 0 ∧ (s.entry f.entry).orphan then do
        let s ← release f.entry s
        .ok (s.rescan f.walk.wrote)
      else do
        let s ← cleanPage f.entry s
        .ok (s.rescan f.walk.wrote)
  | none => .ok s

def Job.borrows : Job → List Nat
  | .truncate i _ | .flush i => [i]
  | _ => []

def State.borrowed : List Nat :=
  (s.owner.elim [] fun w => w.job.borrows) ++ s.flights.flatMap fun f => f.walk.job.borrows

def State.Spare : Prop := s.borrowed.count i < s.holders.count i

instance (s : State) (i : Nat) : Decidable (s.Spare i) := inferInstanceAs (Decidable (_ < _))

inductive Event where
  | alloc (i : Nat) (key : Key) (size : UInt64) (nlink : Nat) (writeCb memoryBacked : Bool)
  | get (i : Nat)
  | put (i : Nat)
  | link (i nlink : Nat)
  | resize (i : Nat) (size : UInt64)
  | skip (i : Nat)
  | free (i : Nat)
  | lookup (i : Nat) (offset : UInt64)
  | add (i : Nat) (offset : UInt64) (e : Nat) (refault : Bool)
  | mark (e : Nat)
  | unpin (e : Nat)
  | takeDirty
  | takeFree
  | kfree (j : Nat)
  | lock (job : Job) (left : Nat)
  | visit
  | probe (offset : UInt64)
  | demote
  | unlock
  | submit (j : Nat)
  | complete (j : Nat)
  | resume (j : Nat)

def Job.bounded : Job → Bool
  | .evict | .evictClean | .flush _ => true
  | _ => false

def Job.Enabled : Job → Prop
  | .invalidate i => i ∈ s.dying
  | .stale k keep => keep ∈ s.holders ∧ (s.inode keep).key = k
  | .truncate i _ => s.Spare i
  | .flush i => s.Spare i ∧ (s.inode i).memoryBacked = false
  | .evict | .evictClean => True

def State.flightIn (p : Phase) : Prop := ∃ f ∈ s.flights[j]?, f.phase = p

def Event.Enabled : Event → Prop
  | .alloc i _ _ _ _ _ => i ∉ s.bornInodes
  | .get i => i ∈ s.holders ∨ (i ∈ s.inodes ∧ 0 < (s.inode i).nlink)
  | .put i => s.Spare i
  | .link i _ => i ∈ s.holders
  | .resize i _ => i ∈ s.holders
  | .skip i => i ∈ s.dying ∧ (s.inode i).cachedPages = 0 ∧
      ∀ w ∈ s.owner, w.job ≠ .invalidate i
  | .free i => i ∈ s.drained
  | .lookup i _ => i ∈ s.holders
  | .add i _ e _ => i ∈ s.holders ∧ e ∉ s.born ∧ s.owner.isNone
  | .mark e => e ∈ s.pins ∧ s.owner.isNone
  | .unpin e => e ∈ s.pins ∧ s.owner.isNone
  | .takeDirty => s.owner.isNone
  | .takeFree => s.owner.isNone
  | .kfree _ => True
  | .lock job _ => s.owner.isNone ∧ job.Enabled s
  | .visit => s.owner.isSome
  | .probe _ => s.owner.isSome
  | .demote => ∃ w ∈ s.owner, w.todo = [] ∧ (w.job = .evict ∨ w.job = .evictClean)
  | .unlock => ∃ w ∈ s.owner, w.todo = [] ∨ (w.left = 0 ∧ w.job.bounded)
  | .submit j => s.flightIn j .pinned
  | .complete j => s.flightIn j .writing
  | .resume j => s.flightIn j .written ∧ s.owner.isNone

def step : Event → Except Fault State
  | .alloc i key size nlink writeCb memoryBacked =>
    .ok { s.setInode i ⟨key,size,nlink,1,writeCb,memoryBacked,0,0,false⟩ with
      inodes := insert i s.inodes
      bornInodes := insert i s.bornInodes
      holders := i :: s.holders }
  | .get i => vfsInodeGet i s
  | .put i => vfsInodePut i s
  | .link i nlink => .ok (s.setInode i { s.inode i with nlink := nlink })
  | .resize i size => .ok (s.setInode i { s.inode i with size := size })
  | .skip i => skipInvalidate i s
  | .free i => vfsFreeInode i s
  | .lookup i offset => pageCacheGetPage i offset s
  | .add i offset e refault => pageCacheAddPage i offset e refault s
  | .mark e => pageCacheMarkDirty e s
  | .unpin e => pageCachePutPage e s
  | .takeDirty => pageCacheTakeDirtyInodes s
  | .takeFree => takeDeferred s
  | .kfree j => kfreeDeferred j s
  | .lock job left => lockPc job left s
  | .visit => visit s
  | .probe offset => probe offset s
  | .demote => demoteActive s
  | .unlock => unlockPc s
  | .submit j => submit j s
  | .complete j => complete j s
  | .resume j => resume j s

def Stepped (e : Event) (s' : State) : Prop := e.Enabled s ∧ step s e = .ok s'

structure State.Initial (s : State) : Prop where
  live : s.live = ∅
  table : ∀ h, s.table h = []
  inactive : s.inactive = []
  active : s.active = []
  toFree : s.toFree = []
  freeing : s.freeing = []
  inodes : s.inodes = ∅
  dirtyList : s.dirtyList = []
  holders : s.holders = []
  dying : s.dying = []
  drained : s.drained = []
  pins : s.pins = []
  flights : s.flights = []
  owner : s.owner = none

open List

def Entry.slot (mask : UInt32) (x : Entry) : UInt32 := pcHash mask x.key x.offset

structure Owned (inodes : Finset Nat) (inode : Nat → Inode) (x : Entry) : Prop where
  held : x.held = true
  kept : x.orphan = false
  owner : ∃ i ∈ inodes, x.inode = some i ∧ (inode i).key = x.key

structure Orphaned (x : Entry) : Prop where
  orphan : x.orphan = true
  inode : x.inode = none
  held : x.held = true

structure Pages (s : State) : Prop where
  born : s.live ⊆ s.born
  nodup : (s.resident ++ s.condemned).Nodup
  inactive : ∀ e ∈ s.inactive, (s.entry e).active = false
  active : ∀ e ∈ s.active, (s.entry e).active = true
  resident : ∀ e ∈ s.resident, e ∈ s.live ∧ Owned s.inodes s.inode (s.entry e)
  condemned : ∀ e ∈ s.condemned, e ∈ s.live ∧ (s.entry e).refcount = 0
  pinned : ∀ e ∈ s.pinned, e ∈ s.live ∧ (e ∈ s.resident ∨ Orphaned (s.entry e))
  count : ∀ e ∈ s.live, (s.entry e).refcount = s.pinned.count e
  chain : ∀ h e, e ∈ s.table h ↔ e ∈ s.resident ∧ (s.entry e).slot s.mask = h
  chainNodup : ∀ h, (s.table h).Nodup
  cached : ∀ i ∈ s.inodes,
    (s.inode i).cachedPages = s.resident.countP fun e => (s.entry e).inode = some i
  flights : ∀ f ∈ s.flights, f.phase ≠ .written →
    f.entry ∈ s.resident ∧ (s.entry f.entry).inode = some f.inode

structure Refs (s : State) : Prop where
  born : s.inodes ⊆ s.bornInodes
  count : ∀ i ∈ s.inodes, (s.inode i).refcount = s.holders.count i + s.dirtyList.count i
  held : ∀ i, i ∈ s.holders ∨ i ∈ s.dirtyList → i ∈ s.inodes
  nodup : (s.dying ++ s.drained).Nodup
  dead : ∀ i ∈ s.dying ++ s.drained,
    i ∈ s.inodes ∧ (s.inode i).refcount = 0 ∧ (s.inode i).nlink = 0
  borrowed : ∀ i, s.borrowed.count i ≤ s.holders.count i

structure Walks (s : State) : Prop where
  todo : ∀ w ∈ s.owner, (∀ e ∈ w.todo, e ∈ s.resident) ∧ w.todo.Nodup
  drained : ∀ i ∈ s.drained, ∀ e ∈ s.resident, (s.entry e).inode ≠ some i
  invalidating : ∀ w ∈ s.owner, ∀ i, w.job = .invalidate i →
    i ∈ s.dying ∧ ∀ e ∈ s.resident, (s.entry e).inode = some i → e ∈ w.todo
  launched : ∀ f ∈ s.flights, ∀ i, f.walk.job ≠ .invalidate i

lemma update_view {β γ : Type} {f : Nat → β} {a : Nat} {y : β} (p : β → γ) (h : p y = p (f a))
    (j : Nat) : p (update f a y j) = p (f j) := by
  by_cases hj : j = a
  · rw [hj,update_self,h]
  rw [update_of_ne hj]

variable {s t : State} {e i z : Nat}

lemma ok_bind {α β : Type} (a : α) (f : α → Except Fault β) : (Except.ok a >>= f) = f a := rfl

lemma touch_ok (h : e ∈ s.live) : touch e s = .ok s := if_pos h

lemma touchAll_ok {es : List Nat} (h : ∀ e ∈ es, e ∈ s.live) : touchAll es s = .ok s := by
  have hnone : es.find? (· ∉ s.live) = none := by simpa using h
  rw [touchAll,hnone]

lemma derefInode_ok (h : i ∈ s.inodes) : derefInode i s = .ok s := if_pos h

lemma ownInode_ok (hown : (s.entry e).inode = some i) (h : i ∈ s.inodes) : ownInode e s = .ok i := by
  rw [ownInode,hown]
  exact if_pos h

lemma onOwner_ok (f : Inode → Inode) (hown : (s.entry e).inode = some i) (h : i ∈ s.inodes) :
    onOwner e f s = .ok (s.setInode i (f (s.inode i))) := by
  rw [onOwner,hown]
  exact if_pos h

lemma mem_resident : e ∈ s.resident ↔ e ∈ s.inactive ∨ e ∈ s.active := mem_append

lemma Pages.live (h : Pages s) (he : e ∈ s.resident) : e ∈ s.live := (h.resident e he).1

section

variable (h : Pages s)

include h

lemma Pages.table_live {k : UInt32} : ∀ e ∈ s.table k, e ∈ s.live := by
  intro e he
  exact h.live ((h.chain k e).mp he).1

lemma Pages.unpinned (hli : e ∈ s.live) (hze : (s.entry e).refcount = 0) :
    e ∉ s.pinned := by
  intro hmem
  have hct := h.count e hli
  have hpos := count_pos_iff.mpr hmem
  omega

lemma Pages.not_condemned (he : e ∈ s.resident) : e ∉ s.condemned := by
  intro hcd
  exact (disjoint_of_nodup_append h.nodup) he hcd

lemma Pages.pinned_not_condemned (he : e ∈ s.pinned) : e ∉ s.condemned := by
  intro hcd
  obtain ⟨hli,hze⟩ := h.condemned e hcd
  exact h.unpinned hli hze he

def State.slot (s : State) (e : Nat) : UInt32 := (s.entry e).slot s.mask

def State.unlist (s : State) (e : Nat) : State :=
  { s with
    table := update s.table (s.slot e) ((s.table (s.slot e)).erase e)
    inactive := s.inactive.erase e
    active := s.active.erase e }

lemma unchain_ok (he : e ∈ s.resident) :
    unchain e s = .ok { s with
      table := update s.table (s.slot e) ((s.table (s.slot e)).erase e) } := by
  obtain ⟨-,-,i,hi,hown,hkey⟩ := (h.resident e he).2
  rw [unchain,ownInode_ok hown hi,ok_bind,State.bucket,hkey]
  dsimp only
  rw [touchAll_ok h.table_live]
  rfl

end

lemma lruRemove_inactive (hli : ∀ x ∈ s.inactive, x ∈ s.live) (hflag : (s.entry e).active = false) :
    lruRemove e s = .ok { s with inactive := s.inactive.erase e } := by
  rw [lruRemove,if_neg (by simp [hflag]),touchAll_ok hli]
  rfl

lemma lruRemove_active (hli : ∀ x ∈ s.active, x ∈ s.live) (hflag : (s.entry e).active = true) :
    lruRemove e s = .ok { s with active := s.active.erase e } := by
  rw [lruRemove,if_pos hflag,touchAll_ok hli]
  rfl

section

variable (h : Pages s)

include h

lemma Pages.apart (hin : e ∈ s.inactive) (hact : e ∈ s.active) : False :=
  disjoint_of_nodup_append (nodup_append.mp h.nodup).1 hin hact

lemma lruRemove_ok (he : e ∈ s.resident) (hli : t.live = s.live)
    (het : (t.entry e).active = (s.entry e).active) (hin : t.inactive = s.inactive)
    (hact : t.active = s.active) :
    lruRemove e t =
      .ok { t with inactive := t.inactive.erase e, active := t.active.erase e } := by
  obtain hmem | hmem := mem_resident.mp he
  · have hot : e ∉ t.active := fun hx => h.apart hmem (hact ▸ hx)
    rw [lruRemove_inactive,erase_of_not_mem hot]
    · intro x hx
      rw [hli]
      exact h.live (mem_resident.mpr (.inl (hin ▸ hx)))
    rw [het]
    exact h.inactive e hmem
  have hot : e ∉ t.inactive := fun hx => h.apart (hin ▸ hx) hmem
  rw [lruRemove_active,erase_of_not_mem hot]
  · intro x hx
    rw [hli]
    exact h.live (mem_resident.mpr (.inr (hact ▸ hx)))
  rw [het]
  exact h.active e hmem

lemma unlist_ok (he : e ∈ s.resident) (k : State → Except Fault State) :
    (unchain e s >>= fun s => lruRemove e s >>= k) = k (s.unlist e) := by
  have hrm := lruRemove_ok (t := { s with
    table := update s.table (s.slot e) ((s.table (s.slot e)).erase e) }) h he rfl rfl rfl rfl
  rw [unchain_ok h he,ok_bind,hrm]
  rfl

lemma Pages.nodup_resident : s.resident.Nodup := (nodup_append.mp h.nodup).1

lemma Pages.perm_unlist (he : e ∈ s.resident) : s.resident.Perm (e :: (s.unlist e).resident) := by
  obtain hmem | hmem := mem_resident.mp he
  · have hot : e ∉ s.active := (h.apart hmem)
    rw [State.unlist,erase_of_not_mem hot]
    exact (perm_cons_erase hmem).append_right s.active
  have hot : e ∉ s.inactive := fun hx => h.apart hx hmem
  rw [State.unlist,erase_of_not_mem hot]
  exact ((perm_cons_erase hmem).append_left s.inactive).trans perm_middle

lemma Pages.mem_unlist (he : e ∈ s.resident) :
    z ∈ (s.unlist e).resident ↔ z ∈ s.resident ∧ z ≠ e := by
  have hpm := h.perm_unlist he
  have hnd := hpm.nodup_iff.mp h.nodup_resident
  rw [hpm.mem_iff,mem_cons]
  constructor
  · intro hz
    exact ⟨.inr hz,fun heq => (nodup_cons.mp hnd).1 (heq ▸ hz)⟩
  rintro ⟨heq | hz,hne⟩
  · cases hne heq
  exact hz

lemma Pages.countP_unlist (he : e ∈ s.resident) (p : Nat → Bool) :
    s.resident.countP p = (s.unlist e).resident.countP p + if p e then 1 else 0 := by
  rw [(h.perm_unlist he).countP_eq,countP_cons]

end

def State.retire (s : State) (e i : Nat) (x : Entry) (y : Inode) (out : List Nat) : State :=
  { s.unlist e with
    entry := update s.entry e x
    inode := update s.inode i y
    toFree := out ++ s.toFree }

section Retire

variable {x : Entry} {y : Inode} {out : List Nat} {z j : Nat} {k : UInt32}

lemma retire_entry_self : (s.retire e i x y out).entry e = x := update_self _ _ _

lemma retire_entry_ne (hz : z ≠ e) : (s.retire e i x y out).entry z = s.entry z := update_of_ne hz _ _

lemma retire_inode_self : (s.retire e i x y out).inode i = y := update_self _ _ _

lemma retire_inode_ne (hj : j ≠ i) : (s.retire e i x y out).inode j = s.inode j := update_of_ne hj _ _

lemma retire_table_self : (s.retire e i x y out).table (s.slot e) = (s.table (s.slot e)).erase e :=
  update_self _ _ _

lemma retire_table_ne (hk : k ≠ s.slot e) : (s.retire e i x y out).table k = s.table k :=
  update_of_ne hk _ _

lemma retire_condemned : (s.retire e i x y out).condemned = out ++ s.condemned := append_assoc _ _ _

lemma retire_refcount (hct : x.refcount = (s.entry e).refcount) (z : Nat) :
    ((s.retire e i x y out).entry z).refcount = (s.entry z).refcount := by
  by_cases hz : z = e
  · rw [hz,retire_entry_self,hct]
  rw [retire_entry_ne hz]

lemma retire_key (hkey : y.key = (s.inode i).key) (j : Nat) :
    ((s.retire e i x y out).inode j).key = (s.inode j).key := by
  by_cases hj : j = i
  · rw [hj,retire_inode_self,hkey]
  rw [retire_inode_ne hj]

lemma Pages.retire_chain (h : Pages s) (k : UInt32) (z : Nat) :
    z ∈ (s.retire e i x y out).table k ↔ (z ∈ s.resident ∧ z ≠ e) ∧ (s.entry z).slot s.mask = k := by
  have hch := h.chain k z
  by_cases hk : k = s.slot e
  · subst hk
    rw [retire_table_self,(h.chainNodup _).mem_erase_iff]
    tauto
  have hne : z ∈ s.table k → z ≠ e := fun hz heq => hk (heq ▸ (hch.mp hz).2.symm)
  rw [retire_table_ne hk]
  tauto

lemma Pages.retire_chainNodup (h : Pages s) (k : UInt32) : ((s.retire e i x y out).table k).Nodup := by
  by_cases hk : k = s.slot e
  · subst hk
    rw [retire_table_self]
    exact (h.chainNodup _).erase e
  rw [retire_table_ne hk]
  exact h.chainNodup k

lemma Pages.mem_retire (h : Pages s) (he : e ∈ s.resident) :
    z ∈ (s.retire e i x y out).resident ↔ z ∈ s.resident ∧ z ≠ e := h.mem_unlist he

lemma Pages.retire_cached (h : Pages s) (he : e ∈ s.resident) (hown : (s.entry e).inode = some i)
    (hcc : y.cachedPages = (s.inode i).cachedPages - 1) (hj : j ∈ s.inodes) :
    ((s.retire e i x y out).inode j).cachedPages = (s.retire e i x y out).resident.countP
      fun z => ((s.retire e i x y out).entry z).inode = some j := by
  have hls := h.countP_unlist he fun z => (s.entry z).inode = some j
  have hcgr : (s.retire e i x y out).resident.countP
      (fun z => ((s.retire e i x y out).entry z).inode = some j) =
      (s.unlist e).resident.countP fun z => (s.entry z).inode = some j := by
    refine countP_congr fun z hz => ?_
    rw [retire_entry_ne ((h.mem_retire he).mp hz).2]
  have hold := h.cached j hj
  rw [hcgr]
  obtain rfl | hji := eq_or_ne j i
  · rw [retire_inode_self,hcc,hold,hls]
    simp [hown]
  have hne : ¬(s.entry e).inode = some j := fun heq => hji (Option.some.inj (heq.symm.trans hown))
  rw [retire_inode_ne hji,hold,hls]
  simp [hne]

lemma Pages.retire (h : Pages s) (x : Entry) (y : Inode) (out : List Nat) (he : e ∈ s.resident)
    (hown : (s.entry e).inode = some i) (hct : x.refcount = (s.entry e).refcount)
    (hkey : y.key = (s.inode i).key) (hcc : y.cachedPages = (s.inode i).cachedPages - 1)
    (hout : out = [] ∨ out = [e] ∧ x.refcount = 0) (hpin : e ∈ s.pinned → Orphaned x)
    (hfl : ∀ f ∈ s.flights, f.entry = e → f.phase = .written) : Pages (s.retire e i x y out) := by
  refine ⟨h.born,?_,?_,?_,?_,?_,?_,?_,?_,h.retire_chainNodup,?_,?_⟩
  · have hnd := ((h.perm_unlist he).append_right s.condemned).nodup_iff.mp h.nodup
    obtain rfl | ⟨rfl,-⟩ := hout
    · exact (nodup_cons.mp hnd).2
    exact (perm_middle.nodup_iff).mpr hnd
  · intro z hz
    have hne := ((h.mem_retire he).mp (mem_resident.mpr (.inl hz))).2
    rw [retire_entry_ne hne]
    exact h.inactive z (mem_of_mem_erase hz)
  · intro z hz
    have hne := ((h.mem_retire he).mp (mem_resident.mpr (.inr hz))).2
    rw [retire_entry_ne hne]
    exact h.active z (mem_of_mem_erase hz)
  · intro z hz
    obtain ⟨hres,hne⟩ := (h.mem_retire he).mp hz
    obtain ⟨hli,hhe,hke,j,hj,hjown,hjkey⟩ := h.resident z hres
    rw [retire_entry_ne hne]
    exact ⟨hli,hhe,hke,j,hj,hjown,(retire_key hkey j).trans hjkey⟩
  · intro z hz
    rw [retire_condemned] at hz
    rw [retire_refcount hct]
    obtain hz | hz := mem_append.mp hz
    · obtain rfl | ⟨rfl,hzero⟩ := hout
      · cases hz
      rw [mem_singleton.mp hz]
      exact ⟨h.live he,hct ▸ hzero⟩
    exact h.condemned z hz
  · intro z hz
    obtain ⟨hli,hwe⟩ := h.pinned z hz
    refine ⟨hli,?_⟩
    obtain rfl | hze := eq_or_ne z e
    · rw [retire_entry_self]
      exact .inr (hpin hz)
    rw [retire_entry_ne hze,h.mem_retire he]
    exact hwe.imp (fun hres => ⟨hres,hze⟩) id
  · intro z hz
    rw [retire_refcount hct]
    exact h.count z hz
  · intro k z
    rw [h.mem_retire he,h.retire_chain]
    constructor
    · rintro ⟨hz,hsl⟩
      rw [retire_entry_ne hz.2]
      exact ⟨hz,hsl⟩
    rintro ⟨hz,hsl⟩
    rw [retire_entry_ne hz.2] at hsl
    exact ⟨hz,hsl⟩
  · intro j hj
    exact h.retire_cached he hown hcc hj
  · intro f hf hph
    have hne : f.entry ≠ e := fun heq => hph (hfl f hf heq)
    obtain ⟨hres,hin⟩ := h.flights f hf hph
    rw [retire_entry_ne hne]
    exact ⟨(h.mem_retire he).mpr ⟨hres,hne⟩,hin⟩

end Retire

def Entry.core (x : Entry) : Option Nat × Key × UInt64 × Int × Bool × Bool :=
  (x.inode, x.key, x.offset, x.refcount, x.orphan, x.held)

section Core

variable {x x' : Entry}

section

variable (h : x'.core = x.core)

include h

lemma core_inode : x'.inode = x.inode := congrArg (·.1) h

lemma core_key : x'.key = x.key := congrArg (·.2.1) h

lemma core_slot (mask : UInt32) : x'.slot mask = x.slot mask := by
  rw [Entry.slot,Entry.slot,core_key h,show x'.offset = x.offset from congrArg (·.2.2.1) h]

lemma core_refcount : x'.refcount = x.refcount := congrArg (·.2.2.2.1) h

lemma core_orphan : x'.orphan = x.orphan := congrArg (·.2.2.2.2.1) h

lemma core_held : x'.held = x.held := congrArg (·.2.2.2.2.2) h

end

lemma Orphaned.congr (ho : Orphaned x) (h : x'.core = x.core) : Orphaned x' :=
  ⟨(core_orphan h).trans ho.orphan,(core_inode h).trans ho.inode,(core_held h).trans ho.held⟩

end Core

variable {entry : Nat → Entry} {inode : Nat → Inode} {bornInodes : Finset Nat} {owner : Option Walk}
  {w : Walk}

lemma Pages.relist {inactive active : List Nat} {dirtyList holders dying drained : List Nat} (h : Pages s)
    (het : ∀ z, (entry z).core = (s.entry z).core) (hkey : ∀ j, (inode j).key = (s.inode j).key)
    (hcc : ∀ j, (inode j).cachedPages = (s.inode j).cachedPages)
    (hpm : (inactive ++ active).Perm s.resident) (hin : ∀ z ∈ inactive, (entry z).active = false)
    (hact : ∀ z ∈ active, (entry z).active = true) :
    Pages { s with
      entry, inode, inactive, active,
      bornInodes, dirtyList, holders, dying,
      drained, owner } := by
  have hmem : ∀ z, z ∈ inactive ++ active ↔ z ∈ s.resident := fun z => hpm.mem_iff
  refine ⟨h.born,?_,hin,hact,?_,?_,?_,?_,?_,h.chainNodup,?_,?_⟩
  · exact (hpm.append_right s.condemned).nodup_iff.mpr h.nodup
  · intro z hz
    obtain ⟨hli,hhe,hke,j,hj,hown,hjkey⟩ := h.resident z ((hmem z).mp hz)
    refine ⟨hli,(core_held (het z)).trans hhe,(core_orphan (het z)).trans hke,j,hj,
      (core_inode (het z)).trans hown,?_⟩
    exact (hkey j).trans (hjkey.trans (core_key (het z)).symm)
  · intro z hz
    obtain ⟨hli,hze⟩ := h.condemned z hz
    exact ⟨hli,(core_refcount (het z)).trans hze⟩
  · intro z hz
    obtain ⟨hli,hwe⟩ := h.pinned z hz
    exact ⟨hli,hwe.imp (hmem z).mpr fun ho => ho.congr (het z)⟩
  · intro z hz
    exact (core_refcount (het z)).trans (h.count z hz)
  · intro k z
    refine (h.chain k z).trans (and_congr (hmem z).symm ?_)
    rw [core_slot (het z)]
  · intro j hj
    change (inode j).cachedPages = (inactive ++ active).countP _
    rw [hcc,h.cached j hj,hpm.countP_eq]
    refine countP_congr fun z _ => ?_
    rw [core_inode (het z)]
  · intro f hf hph
    obtain ⟨hres,hown⟩ := h.flights f hf hph
    exact ⟨(hmem _).mpr hres,(core_inode (het _)).trans hown⟩

lemma Pages.congr {dirtyList holders dying drained : List Nat} (h : Pages s)
    (het : ∀ z, (entry z).core = (s.entry z).core)
    (hact : ∀ z, (entry z).active = (s.entry z).active) (hkey : ∀ j, (inode j).key = (s.inode j).key)
    (hcc : ∀ j, (inode j).cachedPages = (s.inode j).cachedPages) :
    Pages { s with
      entry, inode, bornInodes, dirtyList,
      holders, dying, drained, owner } :=
  h.relist het hkey hcc (List.Perm.refl _)
    (fun z hz => (hact z).trans (h.inactive z hz)) fun z hz => (hact z).trans (h.active z hz)

lemma Pages.recount (h : Pages s) (r : Int) (b : Bool) (pins : List Nat) (flights : List Flight)
    (owner : Option Walk) (hli : e ∈ s.live)
    (hpc : e ∈ s.resident ∨ Orphaned (s.entry e)) (hcd : e ∉ s.condemned)
    (hr : r = (pins ++ flights.map (·.entry)).count e)
    (hct : ∀ z ≠ e, (pins ++ flights.map (·.entry)).count z = s.pinned.count z)
    (hfls : ∀ f ∈ flights, f.phase ≠ .written →
      f.entry ∈ s.resident ∧ (s.entry f.entry).inode = some f.inode) :
    Pages { s with
      entry := update s.entry e { s.entry e with refcount := r, referenced := b }
      pins := pins, flights := flights, owner := owner } := by
  have horp : ∀ z, Orphaned (s.entry z) →
      Orphaned (update s.entry e { s.entry e with refcount := r, referenced := b } z) := fun z ho =>
    ⟨(update_view Entry.orphan (by rfl) z).trans ho.orphan,
      (update_view Entry.inode (by rfl) z).trans ho.inode,(update_view Entry.held (by rfl) z).trans ho.held⟩
  refine ⟨h.born,h.nodup,?_,?_,?_,?_,?_,?_,?_,h.chainNodup,?_,?_⟩
  · exact fun z hz => (update_view Entry.active (by rfl) z).trans (h.inactive z hz)
  · exact fun z hz => (update_view Entry.active (by rfl) z).trans (h.active z hz)
  · intro z hz
    obtain ⟨hzl,hhe,hke,j,hj,hown,hkey⟩ := h.resident z hz
    exact ⟨hzl,(update_view Entry.held (by rfl) z).trans hhe,
      (update_view Entry.orphan (by rfl) z).trans hke,j,hj,
      (update_view Entry.inode (by rfl) z).trans hown,hkey.trans (update_view Entry.key (by rfl) z).symm⟩
  · intro z hz
    have hne : z ≠ e := fun heq => hcd (heq ▸ hz)
    dsimp only
    rw [update_of_ne hne]
    exact h.condemned z hz
  · intro z hz
    obtain rfl | hze := eq_or_ne z e
    · exact ⟨hli,hpc.imp id (horp z)⟩
    have hold : z ∈ s.pinned := by
      rw [← count_pos_iff,← hct z hze]
      exact count_pos_iff.mpr hz
    obtain ⟨hzl,hwe⟩ := h.pinned z hold
    exact ⟨hzl,hwe.imp id (horp z)⟩
  · intro z hz
    change (update s.entry e _ z).refcount = ((pins ++ flights.map (·.entry)).count z : Nat)
    by_cases hze : z = e
    · rw [hze,update_self]
      exact hr
    rw [update_of_ne hze,hct z hze]
    exact h.count z hz
  · intro k z
    rw [update_view (Entry.slot s.mask) (by rfl)]
    exact h.chain k z
  · intro j hj
    refine (h.cached j hj).trans (countP_congr fun z _ => ?_)
    rw [update_view Entry.inode (by rfl)]
  · intro f hf hph
    obtain ⟨hres,hown⟩ := hfls f hf hph
    exact ⟨hres,(update_view Entry.inode (by rfl) _).trans hown⟩

def State.ledger (s : State) :
    Finset Nat × Finset Nat × List Nat × List Nat × List Nat × List Nat :=
  (s.inodes, s.bornInodes, s.dirtyList, s.holders, s.dying, s.drained)

variable {t : State}

lemma Refs.congr (h : Refs s) (hled : t.ledger = s.ledger)
    (hre : ∀ j, (t.inode j).refcount = (s.inode j).refcount)
    (hnl : ∀ j, (t.inode j).nlink = (s.inode j).nlink)
    (hbor : ∀ j, t.borrowed.count j ≤ s.borrowed.count j) : Refs t := by
  obtain ⟨hino,hbo,hdt,hhds,hdy,hdr⟩ := by
    simpa only [State.ledger,Prod.mk.injEq] using hled
  refine ⟨?_,?_,?_,?_,?_,?_⟩
  · rw [hino,hbo]
    exact h.born
  · rw [hino,hhds,hdt]
    exact fun j hj => (hre j).trans (h.count j hj)
  · rw [hino,hhds,hdt]
    exact h.held
  · rw [hdy,hdr]
    exact h.nodup
  · rw [hdy,hdr,hino]
    intro j hj
    obtain ⟨hmem,hze,hln⟩ := h.dead j hj
    exact ⟨hmem,(hre j).trans hze,(hnl j).trans hln⟩
  · intro j
    rw [hhds]
    exact (hbor j).trans (h.borrowed j)

lemma Refs.alive (h : Refs s) (hi : i ∈ s.holders) : i ∈ s.inodes ∧ 0 < (s.inode i).refcount := by
  have hin := h.held i (.inl hi)
  have hct := h.count i hin
  have hpos := count_pos_iff.mpr hi
  exact ⟨hin,by omega⟩

lemma Refs.not_dead (h : Refs s) (hi : 0 < (s.inode i).refcount ∨ 0 < (s.inode i).nlink) :
    i ∉ s.dying ++ s.drained := by
  intro hde
  obtain ⟨-,hze,hln⟩ := h.dead i hde
  omega

lemma Refs.not_held (h : Refs s) (hi : i ∈ s.dying ++ s.drained) : i ∉ s.holders ∧ i ∉ s.dirtyList := by
  obtain ⟨hin,hze,-⟩ := h.dead i hi
  have hct := h.count i hin
  constructor
  · intro hmem
    have hpos := count_pos_iff.mpr hmem
    omega
  intro hmem
  have hpos := count_pos_iff.mpr hmem
  omega

lemma Walks.keep (h : Walks s) (how : t.owner = s.owner ∨ t.owner = none) (hdy : s.dying ⊆ t.dying)
    (hdr : t.drained = s.drained) (hres : ∀ z, z ∈ t.resident ↔ z ∈ s.resident)
    (hin : ∀ z ∈ s.resident, (t.entry z).inode = (s.entry z).inode)
    (hfls : ∀ f ∈ t.flights, ∀ j, f.walk.job ≠ .invalidate j) : Walks t := by
  refine ⟨?_,?_,?_,hfls⟩
  · intro w hw
    obtain heq | heq := how
    · obtain ⟨htd,hnd⟩ := h.todo w (heq ▸ hw)
      exact ⟨fun z hz => (hres z).mpr (htd z hz),hnd⟩
    rw [heq] at hw
    cases hw
  · rw [hdr]
    intro j hj z hz
    have hold := (hres z).mp hz
    rw [hin z hold]
    exact h.drained j hj z hold
  intro w hw j hjob
  obtain heq | heq := how
  · obtain ⟨hmem,hall⟩ := h.invalidating w (heq ▸ hw) j hjob
    refine ⟨hdy hmem,fun z hz hzown => ?_⟩
    have hold := (hres z).mp hz
    exact hall z hold ((hin z hold).symm.trans hzown)
  rw [heq] at hw
  cases hw

lemma Walks.advance {rest : List Nat} (h : Walks s) (hw : w ∈ s.owner) (htd : w.todo = e :: rest)
    (how : t.owner = some { w with todo := rest }) (hdy : t.dying = s.dying)
    (hdr : t.drained = s.drained) (hba : ∀ z ∈ s.resident, z ≠ e → z ∈ t.resident)
    (hres : ∀ z ∈ t.resident, z ∈ s.resident ∧ (t.entry z).inode = (s.entry z).inode)
    (hgo : ∀ j, w.job = .invalidate j → e ∈ t.resident → (t.entry e).inode ≠ some j)
    (hfls : ∀ f ∈ t.flights, ∀ j, f.walk.job ≠ .invalidate j) : Walks t := by
  obtain ⟨hall,hnd⟩ := h.todo w hw
  rw [htd] at hall hnd
  obtain ⟨hfst,hrs⟩ := nodup_cons.mp hnd
  refine ⟨?_,?_,?_,hfls⟩
  · intro w' hw'
    cases how.symm.trans hw'
    refine ⟨fun z hz => hba z (hall z (.tail e hz)) ?_,hrs⟩
    exact fun heq => hfst (heq ▸ hz)
  · rw [hdr]
    intro j hj z hz
    obtain ⟨hold,hown⟩ := hres z hz
    rw [hown]
    exact h.drained j hj z hold
  intro w' hw' j hjob
  cases how.symm.trans hw'
  obtain ⟨hmem,hevery⟩ := h.invalidating w hw j hjob
  refine ⟨hdy ▸ hmem,fun z hz hzown => ?_⟩
  obtain ⟨hold,hown⟩ := hres z hz
  have hin := hevery z hold (hown.symm.trans hzown)
  rw [htd] at hin
  obtain rfl | hin := mem_cons.mp hin
  · cases hgo j hjob hz hzown
  exact hin

lemma rescan_todo (w : Walk) (s : State) :
    ∃ todo, (s.rescan w).owner = some { w with todo } ∧
      (todo = s.inactive ∨ todo = s.resident) ∧
      (∀ j, w.job = .invalidate j → todo = s.resident) ∧
      s.rescan w = { s with owner := some { w with todo } } := by
  rw [State.rescan]
  split
  · rename_i hjob
    exact ⟨_,rfl,.inl rfl,fun j hj => absurd (hjob.symm.trans hj) nofun,rfl⟩
  · rename_i hjob
    exact ⟨_,rfl,.inl rfl,fun j hj => absurd (hjob.symm.trans hj) nofun,rfl⟩
  exact ⟨_,rfl,.inr rfl,fun _ _ => rfl,rfl⟩

lemma Walks.rescan (hpgs : Pages t)
    (hdr : ∀ j ∈ t.drained, ∀ z ∈ t.resident, (t.entry z).inode ≠ some j)
    (hjob : ∀ j, w.job = .invalidate j → j ∈ t.dying)
    (hfls : ∀ f ∈ t.flights, ∀ j, f.walk.job ≠ .invalidate j) : Walks (t.rescan w) := by
  obtain ⟨todo,how,hwi,hfu,heq⟩ := rescan_todo w t
  have hnd := hpgs.nodup_resident
  refine ⟨?_,?_,?_,?_⟩
  · intro w' hw'
    cases how.symm.trans hw'
    rw [heq]
    obtain rfl | rfl := hwi
    · exact ⟨fun z hz => mem_resident.mpr (.inl hz),(nodup_append.mp hnd).1⟩
    exact ⟨fun z hz => hz,hnd⟩
  · rw [heq]
    exact hdr
  · intro w' hw' j hj
    cases how.symm.trans hw'
    rw [heq]
    exact ⟨hjob j hj,fun z hz _ => hfu j hj ▸ hz⟩
  rw [heq]
  exact hfls

structure Inv (s : State) : Prop where
  pages : Pages s
  refs : Refs s
  walks : Walks s

abbrev Fine (r : Except Fault State) : Prop := ∃ t, r = .ok t ∧ Inv t

end B1nix.PageLife
