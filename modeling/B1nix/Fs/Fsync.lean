import B1nix.Dev.BlockMoves

namespace B1nix.Fsync

open B1nix.BlockCache Bool

def pageSize : Nat := 4096

def blockSize : Nat := 512

def pageBlocks : Nat := 8

structure Inode where
  dev : Nat
  writeCb : Bool
  memoryBacked : Bool
  fsyncCb : Bool

structure Layout (β : Type) where
  cache : Config β
  inode : Owner → Inode
  limit : Owner → Nat
  lba : Owner → Nat → Nat → Nat

variable {β : Type}

def Layout.key (fs : Layout β) (o : Owner) (index j : Nat) : Key :=
  let t := blkCacheTarget fs.cache (fs.inode o).dev (fs.lba o index j)
  ⟨t.1,t.2⟩

def Layout.scope (fs : Layout β) (o : Owner) : Scope :=
  .matching (cacheSpan fs.cache (fs.inode o).dev) o

structure Files (β : Type) extends Layout β where
  alone : cache.tasks = 1
  bounds : ∀ o, ∀ index < limit o, ∀ j < pageBlocks,
    inBounds cache (inode o).dev (lba o index j) 1 = true
  placed : ∀ o, ∀ index < limit o, ∀ j < pageBlocks,
    (cacheSpan cache (inode o).dev).has (toLayout.key o index j) = true
  apart : ∀ o, ∀ index < limit o, ∀ j < pageBlocks, ∀ o', ∀ index' < limit o', ∀ j' < pageBlocks,
    toLayout.key o index j = toLayout.key o' index' j' → o = o' ∧ index = index' ∧ j = j'

structure Page (β : Type) where
  file : Owner
  index : Nat
  data : Nat → β
  dirty : Bool
  used : Nat

def Page.is (p : Page β) (o : Owner) (index : Nat) : Bool := decide (p.file = o) && p.index == index

structure Owed (β : Type) where
  pages : List (Key × β)
  blocks : List Key

inductive Purpose (β : Type) where
  | close
  | fsync (owed : Owed β)

structure Walk (β : Type) where
  file : Owner
  want : Nat
  written : Nat
  next : Option Nat
  purpose : Purpose β

inductive Stage (β : Type) where
  | rest
  | walk (w : Walk β)
  | callback (file : Owner) (index : Nat) (left : List Nat) (after : Option (Walk β))
  | writeback (file : Owner) (owed : Owed β) (missed : Bool)
  | barrier (file : Owner) (owed : Owed β) (missed : Bool)

structure State (β : Type) where
  blk : BlockCache.State β
  pages : List (Page β)
  size : Owner → Nat
  stage : Stage β
  result : Option (Int × Owed β)

def bytesIn (size index : Nat) : Nat :=
  let offset := index * pageSize
  if size < offset + pageSize then if size ≤ offset then 0 else size - offset else pageSize

def blocksIn (size index : Nat) : Nat := (bytesIn size index + (blockSize - 1)) / blockSize

def dirtyPages (pages : List (Page β)) (o : Owner) : Nat :=
  pages.countP fun p => decide (p.file = o) && p.dirty

def cachedPages (pages : List (Page β)) (o : Owner) : Nat :=
  pages.countP fun p => decide (p.file = o)

def clean (o : Owner) (index : Nat) (pages : List (Page β)) : List (Page β) :=
  pages.map fun p => if p.is o index then { p with dirty := false } else p

def store (o : Owner) (index : Nat) (data : Nat → β) (used : Nat) (pages : List (Page β)) :
    List (Page β) :=
  if pages.any (·.is o index) then
    pages.map fun p => if p.is o index then { p with data := data, dirty := true, used := used } else p
  else pages ++ [⟨o,index,data,true,used⟩]

variable (fs : Layout β)

variable (alloc : Bool) (st : State β)

def State.resume : Option (Walk β) → State β
  | none => { st with stage := .rest }
  | some w => { st with stage := .walk w }

def writebackPage (p : Page β) (after : Option (Walk β)) (st : State β) : State β :=
  if p.dirty && (fs.inode p.file).writeCb then
    if 0 < bytesIn (st.size p.file) p.index then
      { st with
        blk := step fs.cache st.blk (.setDirtyOwner 0 p.file.fsid p.file.ino)
        stage := .callback p.file p.index
          (List.range (blocksIn (st.size p.file) p.index)) after }
    else ({ st with pages := clean p.file p.index st.pages } : State β).resume after
  else st.resume after

def flushed (o : Owner) (purpose : Purpose β) (st : State β) : State β :=
  match purpose with
  | .close => { st with stage := .rest }
  | .fsync owed =>
    { st with
      blk := step fs.cache st.blk (.call 0 alloc (.writebackInode (fs.inode o).dev o.fsid o.ino))
      stage := .writeback o owed false }

def pageCacheFlushInode (o : Owner) (purpose : Purpose β) (st : State β) : State β :=
  let want := dirtyPages st.pages o
  if (st.pages.countP fun p => p.dirty) = 0 ∨ cachedPages st.pages o = 0 ∨ want = 0 ∨
      (fs.inode o).memoryBacked then flushed fs alloc o purpose st
  else
    let npages := (st.size o + (pageSize - 1)) / pageSize
    let next := if npages < st.pages.length / 8 then some 0 else none
    { st with stage := .walk ⟨o,want,0,next,purpose⟩ }

def walkStep (w : Walk β) (st : State β) : State β :=
  match w.next with
  | some i =>
    if i < (st.size w.file + (pageSize - 1)) / pageSize ∧ w.written < w.want then
      match st.pages.find? (·.is w.file i) with
      | none => { st with stage := .walk { w with next := some (i + 1) } }
      | some p =>
        if p.dirty then
          writebackPage fs p (some { w with next := some (i + 1), written := w.written + 1 }) st
        else { st with stage := .walk { w with next := some (i + 1) } }
    else { st with stage := .walk { w with next := none } }
  | none =>
    if w.written < w.want then
      match st.pages.find? fun p => decide (p.file = w.file) && p.dirty with
      | none => flushed fs alloc w.file w.purpose st
      | some p => writebackPage fs p (some { w with written := w.written + 1 }) st
    else flushed fs alloc w.file w.purpose st

def flushable (o : Owner) : Bool := (fs.inode o).writeCb && !(fs.inode o).memoryBacked

def owes (o : Owner) (st : State β) : Owed β :=
  { pages :=
      if flushable fs o then
        (st.pages.filter fun p => decide (p.file = o) && p.dirty).flatMap fun p =>
          (List.range p.used).map fun j => (fs.key p.file p.index j, p.data j)
      else []
    blocks :=
      ((List.range fs.cache.entries).filter fun i => (fs.scope o).wants (st.blk.mem.slot i)).map
        fun i => (st.blk.mem.slot i).key }

inductive Event (β : Type) where
  | write (o : Owner) (index : Nat) (data : Nat → β) (size : Nat)
  | drop (o : Owner) (index : Nat)
  | evict (o : Owner) (index : Nat)
  | close (alloc : Bool) (o : Owner)
  | fsync (alloc : Bool) (o : Owner)
  | call (alloc : Bool) (call : Call β)
  | block (c : Choice β)
  | refuse (c : Choice β)
  | walk (alloc : Bool)
  | put
  | answer (full : Bool)
  | written
  | barrier (err : Int)

def State.resting : Bool :=
  match st.stage with
  | .rest => (st.blk.prog 0).isIdle
  | _ => false

def aside (pages : List (Page β)) : Call β → Bool
  | .writeCached dev lba data =>
    let t := blkCacheTarget fs.cache dev lba
    pages.all fun p => (List.range pageBlocks).all fun j =>
      !Span.has ⟨t.1,t.2,t.2 + data.length⟩ (fs.key p.file p.index j)
  | .zeroBlocks _ _ _ | .discardBlocks _ _ _ | .invalidateRange _ _ _ => false
  | _ => true

def inFlight : Prog β → Bool
  | .flight _ f => !f.landed
  | _ => false

def Event.enabled : Event β → Bool
  | .write o index _ _ => st.resting && decide (index < fs.limit o)
  | .drop o index => st.resting && st.pages.any fun p => p.is o index && !p.dirty
  | .evict o index =>
    st.resting && flushable fs o && st.pages.any fun p => p.is o index && p.dirty
  | .close _ _ | .fsync _ _ => st.resting
  | .call _ c => st.resting && aside fs st.pages c
  | .block _ => !(st.blk.prog 0).isIdle
  | .refuse _ => inFlight (st.blk.prog 0)
  | .walk _ =>
    match st.stage with
    | .walk _ => (st.blk.prog 0).isIdle
    | _ => false
  | .put =>
    match st.stage with
    | .callback _ _ left _ => (st.blk.prog 0).isIdle && !left.isEmpty
    | _ => false
  | .answer full =>
    match st.stage with
    | .callback _ _ left _ => (st.blk.prog 0).isIdle && (!full || left.isEmpty)
    | _ => false
  | .written =>
    match st.stage with
    | .writeback _ _ _ => (st.blk.prog 0).isIdle
    | _ => false
  | .barrier _ =>
    match st.stage with
    | .barrier _ _ _ => true
    | _ => false

def retried : After β → Flight β → Bool
  | .sorted _ _, f => decide (1 < f.slots.length)
  | _, _ => false

def Stage.miss (again : Bool) : Stage β → Stage β
  | .writeback o owed missed => .writeback o owed (missed || !again)
  | stage => stage

def react : Event β → State β
  | .write o index data size =>
    let grown := max (st.size o) size
    { st with
      pages := store o index data (blocksIn grown index) st.pages
      size := Function.update st.size o grown }
  | .drop o index => { st with pages := st.pages.filter fun p => !p.is o index }
  | .evict o index =>
    match st.pages.find? (·.is o index) with
    | none => st
    | some p => writebackPage fs p none st
  | .close alloc o => pageCacheFlushInode fs alloc o .close st
  | .fsync alloc o => pageCacheFlushInode fs alloc o (.fsync (owes fs o st)) st
  | .call alloc call => { st with blk := step fs.cache st.blk (.call 0 alloc call) }
  | .block c => { st with blk := step fs.cache st.blk (.act 0 c) }
  | .refuse c =>
    match st.blk.prog 0 with
    | .flight k f =>
      { st with
        blk := st.blk.commit 0 (refused fs.cache c (st.blk.stamp 0) k f st.blk.mem)
        stage := st.stage.miss (retried k f) }
    | _ => st
  | .walk alloc =>
    match st.stage with
    | .walk w => walkStep fs alloc w st
    | _ => st
  | .put =>
    match st.stage with
    | .callback o index (j :: left) after =>
      match st.pages.find? (·.is o index) with
      | none => st
      | some p =>
        { st with
          blk := step fs.cache st.blk
            (.call 0 true (.writeCached (fs.inode o).dev (fs.lba o index j) [p.data j]))
          stage := .callback o index left after }
    | _ => st
  | .answer _ =>
    match st.stage with
    | .callback o index _ after =>
      ({ st with
        blk := step fs.cache st.blk (.clearDirtyOwner 0)
        pages := clean o index st.pages } : State β).resume after
    | _ => st
  | .written =>
    match st.stage with
    | .writeback o owed missed => { st with stage := .barrier o owed missed }
    | _ => st
  | .barrier err =>
    match st.stage with
    | .barrier o owed _ =>
      let ret := if (fs.inode o).fsyncCb ∧ err < 0 then err else 0
      { st with stage := .rest, result := some (ret, owed) }
    | _ => st

def advance (e : Event β) : State β := react fs { st with result := none } e

def Stepped (e : Event β) (st' : State β) : Prop := e.enabled fs st = true ∧ st' = advance fs st e

structure State.Initial (st : State β) : Prop where
  blk : st.blk.Initial
  owner : ∀ c, st.blk.owner c = ⟨0,0⟩
  pages : st.pages = []
  stage : st.stage = .rest
  result : st.result = none

structure Kept (st : State β) : Prop where
  blocks : ∀ k, st.blk.mem.medium k = (st.blk.mem.history k).newest ∨
    ∃ i, (st.blk.mem.slot i).dirty = true ∧ (st.blk.mem.slot i).key = k
  pages : ∀ p ∈ st.pages, ∀ j < p.used,
    st.blk.mem.medium (fs.key p.file p.index j) = p.data j ∨ p.dirty = true ∨
      ∃ i, (st.blk.mem.slot i).dirty = true ∧
        (st.blk.mem.slot i).key = fs.key p.file p.index j
  synced : ∀ owed, st.result = some (0, owed) →
    (∀ x ∈ owed.pages, st.blk.mem.medium x.1 = x.2) ∧
      ∀ k ∈ owed.blocks, st.blk.mem.medium k = (st.blk.mem.history k).newest

open Function B1nix.Transition List

variable {size index n : Nat} {purpose : Purpose β} {left : List Nat} {after : Option (Walk β)}
  {c : Choice β} {missed alloc : Bool} {k : After β} {f : Flight β} {pages : List (Page β)}
  {w : Walk β} {data : Nat → β} {stage : Stage β}

lemma bytesIn_eq : bytesIn size index = min (size - index * pageSize) pageSize := by
  rw [bytesIn]
  split
  · split
    · omega
    omega
  omega

lemma bytesIn_le : bytesIn size index ≤ pageSize := by
  rw [bytesIn_eq]
  exact min_le_right ..

lemma blocksIn_le : blocksIn size index ≤ pageBlocks := by
  have hle : bytesIn size index ≤ pageSize := bytesIn_le
  rw [blocksIn]
  simp only [pageSize,pageBlocks,blockSize] at *
  omega

lemma blocksIn_zero (h : ¬0 < bytesIn size index) : blocksIn size index = 0 := by
  rw [blocksIn,Nat.le_zero.mp (not_lt.mp h)]
  rfl

variable {size' j used : Nat} {v : Write β} {e : Slot β} {o' o : Owner}

lemma bytesIn_mono (h : size ≤ size') : bytesIn size index ≤ bytesIn size' index := by
  rw [bytesIn_eq,bytesIn_eq]
  omega

lemma Page.is_iff {p : Page β} : p.is o index = true ↔ p.file = o ∧ p.index = index := by
  simp [Page.is]

def Handed (fs : Layout β) (m : Cache β) (p : Page β) (n : Nat) : Prop :=
  ∀ j < n, (m.history (fs.key p.file p.index j)).newest = p.data j

structure Base (fs : Files β) (st : State β) : Prop where
  alone : Alone fs.cache st.blk
  unique : (st.pages.map fun p => (p.file, p.index)).Nodup
  mapped : ∀ p ∈ st.pages, p.index < fs.limit p.file ∧ p.used ≤ blocksIn (st.size p.file) p.index
  clean : ∀ p ∈ st.pages, p.dirty = false → Handed fs.toLayout st.blk.mem p p.used
  owners : ∀ i, (st.blk.mem.slot i).dirty = true → ∀ o, ∀ index < fs.limit o, ∀ j < pageBlocks,
    (st.blk.mem.slot i).key = fs.key o index j →
      (st.blk.mem.slot i).owner.ino = 0 ∨ (st.blk.mem.slot i).owner = o

structure OwedOk (fs : Layout β) (st : State β) (o : Owner) (owed : Owed β) : Prop where
  pages : ∀ x ∈ owed.pages, flushable fs o = true ∧ ∃ p ∈ st.pages, p.file = o ∧
    ∃ j < p.used, x = (fs.key p.file p.index j, p.data j)
  blocks : ∀ k ∈ owed.blocks, ∀ i, (st.blk.mem.slot i).dirty = true → (st.blk.mem.slot i).key = k →
    (fs.scope o).wants (st.blk.mem.slot i) = true

def PurposeOk (fs : Layout β) (st : State β) (o : Owner) : Purpose β → Prop
  | .close => True
  | .fsync owed => OwedOk fs st o owed

structure WalkOk (fs : Layout β) (st : State β) (w : Walk β) (extra : Nat) : Prop where
  disk : (fs.inode w.file).memoryBacked = false
  count : (fs.inode w.file).writeCb = true →
    w.written + dirtyPages st.pages w.file = w.want + extra
  purpose : PurposeOk fs st w.file w.purpose

structure CallbackOk (fs : Layout β) (st : State β) (p : Page β) (left : List Nat) : Prop where
  mem : p ∈ st.pages
  dirty : p.dirty = true
  bound : ∀ j ∈ left, j < blocksIn (st.size p.file) p.index
  given : ∀ j < blocksIn (st.size p.file) p.index, j ∈ left ∨
    (st.blk.mem.history (fs.key p.file p.index j)).newest = p.data j ∨
      ∃ v, (st.blk.prog 0).task = .write v ∧ v.key = fs.key p.file p.index j ∧ v.data = [p.data j]
  writing : (st.blk.prog 0).task = .rest ∨ ∃ v, (st.blk.prog 0).task = .write v ∧ (v.data = [] ∨
    ∃ j < blocksIn (st.size p.file) p.index, v.key = fs.key p.file p.index j ∧ v.data = [p.data j])

structure Flushing (fs : Layout β) (st : State β) (o : Owner) (owed : Owed β) : Prop where
  owed : OwedOk fs st o owed
  clean : flushable fs o = true → ∀ p ∈ st.pages, p.file = o → p.dirty = false

def Swept (fs : Layout β) (st : State β) (o : Owner) : Prop :=
  ∀ i, (fs.scope o).wants (st.blk.mem.slot i) = false

def StageOk (fs : Layout β) (st : State β) : Stage β → Prop
  | .rest => st.blk.stamp 0 = ⟨0,0⟩ ∧ ∀ v, (st.blk.prog 0).task = .write v →
      ∀ n < v.data.length, ∀ p ∈ st.pages, ∀ j < pageBlocks,
        (⟨v.dev,v.next + n⟩ : Key) ≠ fs.key p.file p.index j
  | .walk w => st.blk.stamp 0 = ⟨0,0⟩ ∧ st.blk.prog 0 = .idle ∧ WalkOk fs st w 0
  | .callback o index left after =>
    (fs.inode o).writeCb = true ∧ st.blk.stamp 0 = o ∧
      (∃ p, p.file = o ∧ p.index = index ∧ CallbackOk fs st p left) ∧
        ∀ w ∈ after, w.file = o ∧ WalkOk fs st w 1
  | .writeback o owed missed =>
    st.blk.stamp 0 = ⟨0,0⟩ ∧ Flushing fs st o owed ∧
      ((st.blk.prog 0).task = .sweep (fs.scope o) ∧
          (missed = false → Combed (view fs.cache st.blk) 0) ∨
        st.blk.prog 0 = .idle ∧ (missed = false → Swept fs st o))
  | .barrier o owed missed =>
    st.blk.stamp 0 = ⟨0,0⟩ ∧ st.blk.prog 0 = .idle ∧ Flushing fs st o owed ∧
      (missed = false → Swept fs st o)

structure Good (fs : Files β) (st : State β) : Prop where
  base : Base fs st
  stage : StageOk fs.toLayout st st.stage
  result : ∀ owed, st.result = some (0, owed) → (∀ x ∈ owed.pages, st.blk.mem.medium x.1 = x.2) ∧
    ∀ k ∈ owed.blocks, st.blk.mem.medium k = (st.blk.mem.history k).newest

variable {fs : Files β} {st st' : State β} {o : Owner} {owed : Owed β} {out : Out β} {p p' : Page β}
  {b : β}

lemma Good.kept (h : Good fs st) : Kept fs.toLayout st := by
  refine ⟨fun k => ?_,fun p hp j hj => ?_,h.result⟩
  · by_cases hdt : ∃ i, (st.blk.mem.slot i).dirty = true ∧ (st.blk.mem.slot i).key = k
    · exact .inr hdt
    exact .inl (h.base.alone.settled fun i hi hk => hdt ⟨i,hi,hk⟩)
  by_cases hdt : ∃ i, (st.blk.mem.slot i).dirty = true ∧
      (st.blk.mem.slot i).key = fs.key p.file p.index j
  · exact .inr (.inr hdt)
  cases hp' : p.dirty with
  | true => exact .inr (.inl rfl)
  | false =>
    left
    rw [h.base.alone.settled fun i hi hk => hdt ⟨i,hi,hk⟩]
    exact h.base.clean p hp hp' j hj

lemma Base.page_eq (h : Base fs st) (hp : p ∈ st.pages) (hp' : p' ∈ st.pages)
    (hfl : p.file = p'.file) (hix : p.index = p'.index) : p = p' := by
  exact inj_on_of_nodup_map h.unique hp hp' (Prod.ext hfl hix)

lemma CallbackOk.wrote (h : CallbackOk fs.toLayout st p left) (hw : Wrote st.blk v b) :
    ∃ j < blocksIn (st.size p.file) p.index,
      v.key = fs.key p.file p.index j ∧ v.data = [p.data j] ∧ b = p.data j := by
  obtain ⟨hts,hb⟩ := hw
  obtain hrs | ⟨u,hu,hda⟩ := h.writing
  · cases hrs.symm.trans hts
  obtain rfl := Task.write.inj (hts.symm.trans hu)
  obtain hnil | ⟨j,hj,hkey,hone⟩ := hda
  · rw [hnil] at hb
    cases hb
  rw [hone] at hb
  exact ⟨j,hj,hkey,hone,(Option.some.inj hb).symm⟩

lemma writing_key (hs : StageOk fs.toLayout st st.stage) (hw : Wrote st.blk v b) :
    (st.blk.stamp 0 = ⟨0,0⟩ ∧ ∀ p ∈ st.pages, ∀ j < pageBlocks, v.key ≠ fs.key p.file p.index j) ∨
      ∃ p ∈ st.pages, p.dirty = true ∧ st.blk.stamp 0 = p.file ∧
        ∃ j < pageBlocks, v.key = fs.key p.file p.index j := by
  have hbz : st.blk.prog 0 ≠ .idle := by
    intro hid
    rw [Wrote,hid] at hw
    cases hw.1
  cases hsg : st.stage with
  | rest =>
    rw [hsg] at hs
    have hlen := length_pos_of_mem (mem_of_head? hw.2)
    exact .inl ⟨hs.1,hs.2 v hw.1 0 hlen⟩
  | walk | barrier =>
    rw [hsg] at hs
    cases hbz hs.2.1
  | callback =>
    rw [hsg] at hs
    obtain ⟨-,hstp,⟨p,rfl,-,hcall⟩,-⟩ := hs
    obtain ⟨j,hj,hkey,-⟩ := hcall.wrote hw
    exact .inr ⟨p,hcall.mem,hcall.dirty,hstp,j,hj.trans_le blocksIn_le,hkey⟩
  | writeback =>
    rw [hsg] at hs
    obtain ⟨hsw,-⟩ | ⟨hid,-⟩ := hs.2.2
    · cases hw.1.symm.trans hsw
    cases hbz hid

lemma Base.used_lt (h : Base fs st) (hp : p ∈ st.pages) (hj : j < p.used) : j < pageBlocks :=
  hj.trans_le (le_trans (h.mapped p hp).2 blocksIn_le)

lemma Base.serve (h : Base fs st) (hs : StageOk fs.toLayout st st.stage)
    (hsv : Served fs.cache st.blk out) : Base fs { st with blk := st.blk.commit 0 out } := by
  refine ⟨hsv.alone,h.unique,h.mapped,fun p hp hcl j hj => ?_, fun i hi o index hix j hj hkey => ?_⟩
  · change (out.mem.history _).newest = _
    obtain hsa | ⟨v,b,hw,heq,-⟩ := hsv.history (fs.key p.file p.index j)
    · rw [hsa]
      exact h.clean p hp hcl j hj
    obtain ⟨-,has⟩ | ⟨p',hp',hd,-,j',hj',hkey⟩ := writing_key hs hw
    · cases has p hp j (h.used_lt hp hj) heq.symm
    obtain ⟨hfl,hix,-⟩ := fs.apart p.file p.index (h.mapped p hp).1 j (h.used_lt hp hj)
      p'.file p'.index (h.mapped p' hp').1 j' hj' (heq.trans hkey)
    rw [h.page_eq hp hp' hfl hix,hd] at hcl
    cases hcl
  change (out.mem.slot i).owner.ino = 0 ∨ (out.mem.slot i).owner = o
  obtain hsa | ⟨v,b,hw,hik,how⟩ := hsv.dirty hi
  · rw [hsa.owner]
    exact h.owners i hsa.dirty o index hix j hj (hsa.key.symm.trans hkey)
  rw [how]
  obtain ⟨hze,-⟩ | ⟨p',hp',-,hstp,j',hj',hkey'⟩ := writing_key hs hw
  · rw [hze]
    exact .inl rfl
  right
  rw [hstp]
  exact (fs.apart p'.file p'.index (h.mapped p' hp').1 j' hj' o index hix j hj
    (hkey'.symm.trans (hik.symm.trans hkey))).1

lemma scope_wants (hvl : e.valid = true) (hdt : e.dirty = true)
    (hin : (cacheSpan fs.cache (fs.inode o).dev).has e.key = true)
    (how : e.owner.ino = 0 ∨ e.owner = o) : (fs.scope o).wants e = true := by
  simp only [Layout.scope,Scope.wants,hvl,hdt,hin,Bool.true_and,
    Bool.or_eq_true,beq_iff_eq,decide_eq_true_eq]
  obtain hze | hsa := how
  · exact .inl (.inr hze)
  exact .inr hsa

lemma OwedOk.serve (h : OwedOk fs.toLayout st o owed) (hsv : Served fs.cache st.blk out)
    (hwro : ∀ v b, Wrote st.blk v b →
      st.blk.stamp 0 = o ∧ (cacheSpan fs.cache (fs.inode o).dev).has v.key = true) :
    OwedOk fs.toLayout { st with blk := st.blk.commit 0 out } o owed := by
  refine ⟨h.pages,fun k hk i hi hkey => ?_⟩
  have hvl := hsv.alone.calm.inv.shape.dirty i hi
  obtain hsa | ⟨v,b,hw,hik,how⟩ := hsv.dirty hi
  · exact Scope.wants_congr hsa.key.symm hsa.owner.symm hvl hi
      (h.blocks k hk i hsa.dirty (hsa.key.symm.trans hkey))
  obtain ⟨hstp,hin⟩ := hwro v b hw
  rw [← hik] at hin
  exact scope_wants hvl hi hin (.inr (how.trans hstp))

lemma PurposeOk.serve (h : PurposeOk fs.toLayout st o purpose)
    (hsv : Served fs.cache st.blk out)
    (hwro : ∀ v b, Wrote st.blk v b →
      st.blk.stamp 0 = o ∧ (cacheSpan fs.cache (fs.inode o).dev).has v.key = true) :
    PurposeOk fs.toLayout { st with blk := st.blk.commit 0 out } o purpose := by
  cases purpose with
  | close => trivial
  | fsync => exact OwedOk.serve h hsv hwro

lemma commit_prog : (st.blk.commit 0 out).prog 0 = out.prog := by
  change update st.blk.prog 0 out.prog 0 = out.prog
  rw [update_self]

lemma commit_hold : (view fs.cache (st.blk.commit 0 out)).hold 0 = out.prog.hold fs.cache :=
  congrArg (Prog.hold fs.cache) commit_prog

lemma CallbackOk.serve (h : CallbackOk fs.toLayout st p left) (hb : Base fs st)
    (hsv : Served fs.cache st.blk out) :
    CallbackOk fs.toLayout { st with blk := st.blk.commit 0 out } p left := by
  have hks : ∀ j < blocksIn (st.size p.file) p.index, ∀ j' < blocksIn (st.size p.file) p.index,
      fs.key p.file p.index j = fs.key p.file p.index j' → j = j' := by
    intro j hj j' hj' heq
    have hmp := (hb.mapped p h.mem).1
    exact (fs.apart _ _ hmp j (hj.trans_le blocksIn_le) _ _ hmp j' (hj'.trans_le blocksIn_le) heq).2.2
  refine ⟨h.mem,h.dirty,h.bound,fun j hj => ?_,?_⟩
  · change j ∈ left ∨ (out.mem.history _).newest = _ ∨ ∃ v, ((st.blk.commit 0 out).prog 0).task = _ ∧ _
    obtain hlf | hnw | ⟨v,hv,hkey,hda⟩ := h.given j hj
    · exact .inl hlf
    · refine .inr (.inl ?_)
      obtain hsa | ⟨v,b,hw,hkey,hnew⟩ := hsv.history (fs.key p.file p.index j)
      · rw [hsa,hnw]
      obtain ⟨j',hj',hkey',-,rfl⟩ := h.wrote hw
      rw [hnew,hks j hj j' hj' (hkey.trans hkey')]
    obtain hstay | ⟨-,hnil⟩ | ⟨b,hb,hnew,-⟩ := hsv.writing hv
    · exact .inr (.inr ⟨v,hstay,hkey,hda⟩)
    · cases hda.symm.trans hnil
    rw [hda] at hb
    rw [← hkey,hnew]
    exact .inr (.inl (Option.some.inj hb).symm)
  obtain hrs | ⟨v,hv,hwe⟩ := h.writing
  · exact .inl (hsv.resting hrs)
  obtain hstay | ⟨hid,-⟩ | ⟨b,hb,-,hnx | hid⟩ := hsv.writing hv
  · exact .inr ⟨v,hstay,hwe⟩
  · exact .inl (congrArg Prog.task hid)
  · obtain ⟨j,-,-,hda,-⟩ := h.wrote ⟨hv,hb⟩
    exact .inr ⟨v.rest,hnx,.inl (congrArg tail hda)⟩
  exact .inl (congrArg Prog.task hid)

lemma rest_serve (h : StageOk fs.toLayout st .rest) (hsv : Served fs.cache st.blk out) :
    StageOk fs.toLayout { st with blk := st.blk.commit 0 out } .rest := by
  refine ⟨h.1,fun v hv n hn p hp j hj => ?_⟩
  obtain hstay | ⟨u,hu,rfl⟩ := hsv.next.writing hv
  · exact h.2 v hstay n hn p hp j hj
  change n < u.data.tail.length at hn
  rw [length_tail] at hn
  have hfar := h.2 u hu (n + 1) (by omega) p hp j hj
  change (⟨u.dev,u.next + 1 + n⟩ : Key) ≠ _
  rwa [add_assoc,add_comm 1 n]

lemma callback_serve (h : StageOk fs.toLayout st (.callback o index left after))
    (hb : Base fs st) (hsv : Served fs.cache st.blk out) :
    StageOk fs.toLayout { st with blk := st.blk.commit 0 out } (.callback o index left after) := by
  obtain ⟨hcb,hstp,⟨p,rfl,hix,hcall⟩,haf⟩ := h
  refine ⟨hcb,hstp,⟨p,rfl,hix,hcall.serve hb hsv⟩,fun w hw => ?_⟩
  obtain ⟨hfl,hwl⟩ := haf w hw
  refine ⟨hfl,hwl.disk,hwl.count,hwl.purpose.serve hsv fun v b hw => ?_⟩
  obtain ⟨j,hj,hkey,-⟩ := hcall.wrote hw
  rw [hfl,hkey]
  exact ⟨hstp,fs.placed p.file p.index (hb.mapped p hcall.mem).1 j (hj.trans_le blocksIn_le)⟩

lemma Flushing.serve (h : Flushing fs.toLayout st o owed) (hsv : Served fs.cache st.blk out)
    (hsw : (st.blk.prog 0).task = .sweep (fs.scope o)) :
    Flushing fs.toLayout { st with blk := st.blk.commit 0 out } o owed := by
  refine ⟨h.owed.serve hsv fun v b hw => ?_,h.clean⟩
  cases hsw.symm.trans hw.1

lemma sweep_next (hsv : Served fs.cache st.blk out)
    (hsw : (st.blk.prog 0).task = .sweep (fs.scope o)) :
    out.prog.task = .sweep (fs.scope o) ∨ ∃ n, out.synced = [(fs.scope o, n)] ∧ out.prog = .idle := by
  cases hsv.next with
  | stay _ _ task => exact .inl (task.trans hsw)
  | done _ _ _ _ sweep => cases sweep _ hsw
  | wrote _ _ _ _ _ task => cases hsw.symm.trans task
  | synced _ n task _ synced idle =>
    obtain rfl := Task.sweep.inj (hsw.symm.trans task)
    exact .inr ⟨n,synced,idle⟩
  | second task => cases Task.sweep.inj (hsw.symm.trans task)

lemma cleaned_all : Cleaned (view fs.cache st.blk) st.blk.synced.length := by
  intro r hr
  change r ∈ st.blk.synced.drop _ at hr
  rw [drop_length] at hr
  cases hr

lemma writeback_act (hb : Base fs st) (h : StageOk fs.toLayout st (.writeback o owed missed))
    (hbz : st.blk.prog 0 ≠ .idle) :
    StageOk fs.toLayout { st with blk := step fs.cache st.blk (.act 0 c) }
      (.writeback o owed missed) := by
  obtain ⟨hsv,hcmb⟩ := hb.alone.act fs.alone
  obtain ⟨hstp,hfh,⟨hts,hcomb⟩ | ⟨hid,-⟩⟩ := h
  · refine ⟨hstp,hfh.serve hsv hts,?_⟩
    have hprog : (step fs.cache st.blk (.act 0 c)).prog 0 =
        (act fs.cache c (st.blk.stamp 0) (st.blk.prog 0) st.blk.mem).prog := commit_prog
    obtain hnx | ⟨n,hsy,hdo⟩ := sweep_next hsv hts
    · refine .inl ⟨(congrArg Prog.task hprog).trans hnx,fun hm => ?_⟩
      exact (hcmb _ _ _ hts (hcomb hm) cleaned_all).1
    refine .inr ⟨hprog.trans hdo,fun hm i => ?_⟩
    refine (hcmb _ _ _ hts (hcomb hm) cleaned_all).2 (fs.scope o, n) ?_ i
    change _ ∈ (st.blk.synced ++ Out.synced _).drop _
    rw [hsy,drop_left]
    exact mem_singleton_self _
  cases hbz hid

lemma regroup_combed (hp : st.blk.prog 0 = .flight k f) (hag : retried k f = true)
    (hc : Combed (view fs.cache st.blk) 0) :
    Combed (view fs.cache (st.blk.commit 0 (refused fs.cache c (st.blk.stamp 0) k f st.blk.mem))) 0 := by
  cases k with
  | sorted y runs =>
    have hmany : ¬f.slots.length ≤ 1 := (of_decide_eq_true hag).not_ge
    have hout : refused fs.cache c (st.blk.stamp 0) (.sorted y runs) f st.blk.mem =
        { mem := st.blk.mem, prog := .sorted y (f.slots.map (fun i => [i]) ++ runs) } := by
      exact if_neg hmany
    rw [hout]
    have hold : (view fs.cache st.blk).hold 0 =
        { (y.hold runs : Hold β) with flight := some f, anchor := none } := by
      change (st.blk.prog 0).hold fs.cache = _
      rw [hp]
      rfl
    have hnew : (view fs.cache (st.blk.commit 0
        { mem := st.blk.mem, prog := .sorted y (f.slots.map (fun i => [i]) ++ runs) })).hold 0 =
        y.hold (f.slots.map (fun i => [i]) ++ runs) := commit_hold
    have hsl : (y.hold (f.slots.map (fun i => [i]) ++ runs) : Hold β).slots =
        ({ (y.hold runs : Hold β) with flight := some f, anchor := none } : Hold β).slots := by
      simp [Hold.slots,Sweep.hold,← flatMap_def]
    intro z hz hsc j hj hwn hout
    rw [hnew] at hz hout
    rw [hsl,← hold] at hout
    refine hc z ?_ hsc j hj hwn hout
    rw [hold]
    exact hz
  | _ => cases hag

lemma writeback_refuse (h : StageOk fs.toLayout st (.writeback o owed missed))
    (hp : st.blk.prog 0 = .flight k f)
    (hsv : Served fs.cache st.blk (refused fs.cache c (st.blk.stamp 0) k f st.blk.mem)) :
    StageOk fs.toLayout
      { st with blk := st.blk.commit 0 (refused fs.cache c (st.blk.stamp 0) k f st.blk.mem) }
      (.writeback o owed (missed || !retried k f)) := by
  obtain ⟨hstp,hfh,⟨hts,hcomb⟩ | ⟨hid,-⟩⟩ := h
  · refine ⟨hstp,hfh.serve hsv hts,?_⟩
    obtain hnx | ⟨n,-,hdo⟩ := sweep_next hsv hts
    · refine .inl ⟨(congrArg Prog.task commit_prog).trans hnx,fun hm => ?_⟩
      simp only [or_eq_false_iff,not_eq_false'] at hm
      exact regroup_combed hp hm.2 (hcomb hm.1)
    refine .inr ⟨commit_prog.trans hdo,fun hm => ?_⟩
    simp only [or_eq_false_iff,not_eq_false'] at hm
    cases k with
    | sorted =>
      rw [refused,if_neg (of_decide_eq_true hm.2).not_ge] at hdo
      cases hdo
    | _ => cases hm.2
  rw [hid] at hp
  cases hp

lemma map_clean :
    (clean o index pages).map (fun p => (p.file, p.index)) = pages.map fun p => (p.file, p.index) := by
  rw [clean,map_map]
  refine map_congr_left fun p _ => ?_
  dsimp only [comp]
  split <;> rfl

lemma mem_clean (h : p' ∈ clean o index pages) :
    ∃ p ∈ pages, p'.file = p.file ∧ p'.index = p.index ∧ p'.data = p.data ∧ p'.used = p.used ∧
      (p'.dirty = true → p.dirty = true) ∧
      (p'.dirty = false → p.dirty = false ∨ p.is o index = true) ∧
      (p.is o index = true → p'.dirty = false) := by
  obtain ⟨p,hp,rfl⟩ := mem_map.mp h
  refine ⟨p,hp,?_⟩
  by_cases his : p.is o index = true
  · simp [his]
  simp [his]

lemma clean_mem (h : p ∈ pages) :
    ∃ p' ∈ clean o index pages, p'.file = p.file ∧ p'.index = p.index ∧ p'.data = p.data ∧
      p'.used = p.used := by
  refine ⟨_,mem_map_of_mem h,?_⟩
  by_cases his : p.is o index = true
  · simp [his]
  simp [his]

lemma clean_eq_self (h : ∀ b ∈ pages, b.is o index = false) : clean o index pages = pages := by
  have hmap : clean o index pages = pages.map id := map_congr_left fun b hb => by simp [h b hb]
  rw [hmap,map_id]

lemma dirtyPages_cons :
    dirtyPages (p :: pages) o =
      dirtyPages pages o + if (decide (p.file = o) && p.dirty) = true then 1 else 0 :=
  countP_cons

lemma clean_cons :
    clean o index (p :: pages) =
      (if p.is o index then { p with dirty := false } else p) :: clean o index pages := rfl

lemma dirtyPages_clean (hnd : (pages.map fun p => (p.file, p.index)).Nodup) (hp : p ∈ pages)
    (hdt : p.dirty = true) :
    dirtyPages (clean p.file p.index pages) p.file + 1 = dirtyPages pages p.file := by
  induction pages with
  | nil => cases hp
  | cons a pages ih =>
    rw [map_cons,nodup_cons] at hnd
    have hapt : ∀ b ∈ pages, ¬(b.file = a.file ∧ b.index = a.index) := by
      rintro b hb ⟨hfl,hix⟩
      refine hnd.1 (mem_map.mpr ⟨b,hb,?_⟩)
      rw [hfl,hix]
    rw [clean_cons,dirtyPages_cons,dirtyPages_cons]
    obtain rfl | hin := mem_cons.mp hp
    · have hots : clean p.file p.index pages = pages := by
        refine clean_eq_self fun b hb => ?_
        rw [← not_eq_true,Page.is_iff]
        exact hapt b hb
      rw [hots]
      simp [Page.is,hdt]
    have hot : a.is p.file p.index = false := by
      rw [← not_eq_true,Page.is_iff]
      exact fun heq => hapt p hin ⟨heq.1.symm,heq.2.symm⟩
    rw [hot,← ih hnd.2 hin]
    simp only [false_eq_true,if_false]
    omega

lemma Base.clean_page (h : Base fs st)
    (hdo : ∀ p ∈ st.pages, p.is o index = true → Handed fs.toLayout st.blk.mem p p.used) :
    Base fs { st with pages := Fsync.clean o index st.pages } := by
  refine ⟨h.alone,?_,fun p hp => ?_,fun p hp hcl => ?_,h.owners⟩
  · rw [map_clean]
    exact h.unique
  · obtain ⟨p',hp',hfl,hix,-,hus,-⟩ := mem_clean hp
    rw [hfl,hix,hus]
    exact h.mapped p' hp'
  obtain ⟨p',hp',hfl,hix,hda,hus,-,hwas,-⟩ := mem_clean hp
  have hhan : Handed fs.toLayout st.blk.mem p' p'.used := by
    obtain hbf | his := hwas hcl
    · exact h.clean p' hp' hbf
    exact hdo p' hp' his
  intro j hj
  rw [hfl,hix,hda]
  exact hhan j (hus ▸ hj)

lemma OwedOk.clean (h : OwedOk fs.toLayout st o owed) :
    OwedOk fs.toLayout { st with pages := Fsync.clean o' index st.pages } o owed := by
  refine ⟨fun x hx => ?_,h.blocks⟩
  obtain ⟨hfh,p,hp,hfl,j,hj,rfl⟩ := h.pages x hx
  obtain ⟨p',hp',hfile',hindex',hdata',hused'⟩ := clean_mem hp
  refine ⟨hfh,p',hp',hfile'.trans hfl,j,hused' ▸ hj,?_⟩
  rw [hfile',hindex',hdata']

lemma PurposeOk.clean (h : PurposeOk fs.toLayout st o purpose) :
    PurposeOk fs.toLayout { st with pages := Fsync.clean o' index st.pages } o purpose := by
  cases purpose with
  | close => trivial
  | fsync => exact OwedOk.clean h

lemma PurposeOk.congr (h : PurposeOk fs.toLayout st o purpose) (hpgs : st'.pages = st.pages)
    (hmem : st'.blk.mem = st.blk.mem) : PurposeOk fs.toLayout st' o purpose := by
  cases purpose with
  | close => trivial
  | fsync =>
    constructor
    · rw [hpgs]
      exact h.pages
    rw [hmem]
    exact h.blocks

lemma WalkOk.congr (h : WalkOk fs.toLayout st w n) (hpgs : st'.pages = st.pages)
    (hmem : st'.blk.mem = st.blk.mem) : WalkOk fs.toLayout st' w n :=
  ⟨h.disk,hpgs ▸ h.count,h.purpose.congr hpgs hmem⟩

lemma WalkOk.clean (h : WalkOk fs.toLayout st w 1) (hb : Base fs st) (hp : p ∈ st.pages)
    (hdt : p.dirty = true) (hfl : w.file = p.file) :
    WalkOk fs.toLayout { st with pages := Fsync.clean p.file p.index st.pages } w 0 := by
  refine ⟨h.disk,fun hcb => ?_,h.purpose.clean⟩
  have hct := h.count hcb
  have hless := dirtyPages_clean hb.unique hp hdt
  rw [hfl] at hct ⊢
  dsimp only
  omega

structure Settled (fs : Files β) (st : State β) : Prop where
  base : Base fs st
  stamp : st.blk.stamp 0 = ⟨0,0⟩
  idle : st.blk.prog 0 = .idle
  result : st.result = none

section

variable (h : Settled fs st)

include h

lemma Settled.rest : Good fs { st with stage := .rest } := by
  refine ⟨{ h.base with },⟨h.stamp,fun v hv => ?_⟩,fun owed hoe => ?_⟩
  · rw [h.idle] at hv
    cases hv
  cases h.result.symm.trans hoe

lemma Settled.walk (hw : WalkOk fs.toLayout st w 0) :
    Good fs { st with stage := .walk w } := by
  refine ⟨{ h.base with },⟨h.stamp,h.idle,hw.congr rfl rfl⟩,fun owed hoe => ?_⟩
  cases h.result.symm.trans hoe

lemma Settled.resume (haf : ∀ w ∈ after, WalkOk fs.toLayout st w 0) : Good fs (st.resume after) := by
  cases after with
  | none => exact h.rest
  | some w => exact h.walk (haf w rfl)

lemma Settled.writebackPage (hp : p ∈ st.pages) (hdt : p.dirty = true)
    (haf : ∀ w ∈ after, w.file = p.file ∧ WalkOk fs.toLayout st w 1) :
    Good fs (writebackPage fs.toLayout p after st) := by
  rw [Fsync.writebackPage,hdt,Bool.true_and]
  split
  · next hcb =>
    split
    · refine ⟨{ h.base with alone := h.base.alone.stamped },?_,
        fun owed hoe => ?_⟩
      · refine ⟨hcb,update_self _ _ _,⟨p,rfl,rfl,hp,hdt,fun j hj => ?_,
          fun j hj => .inl (mem_range.mpr hj),.inl ?_⟩,fun w hw => ?_⟩
        · exact mem_range.mp hj
        · change (st.blk.prog 0).task = .rest
          rw [h.idle]
          rfl
        exact ⟨(haf w hw).1,(haf w hw).2.congr rfl rfl⟩
      cases h.result.symm.trans hoe
    next hem =>
    have hnone : ∀ q ∈ st.pages, q.is p.file p.index = true →
        Handed fs.toLayout st.blk.mem q q.used := by
      intro q hq his j hj
      obtain ⟨hfl,hix⟩ := Page.is_iff.mp his
      have hus := (h.base.mapped q hq).2
      rw [hfl,hix,blocksIn_zero hem] at hus
      omega
    have hcl : Settled fs { st with pages := clean p.file p.index st.pages } :=
      { h with base := h.base.clean_page hnone }
    refine hcl.resume fun w hw => ?_
    exact (haf w hw).2.clean h.base hp hdt (haf w hw).1
  next hcb =>
  refine h.resume fun w hw => ?_
  obtain ⟨hfl,hwl⟩ := haf w hw
  refine ⟨hwl.disk,fun hyes => absurd ?_ hcb,hwl.purpose⟩
  rw [← hfl]
  exact hyes

end

lemma Base.call (alloc : Bool) (call : Call β) (h : Base fs st) (hid : st.blk.prog 0 = .idle)
    (hpn : call.zeroing = false) (hrn : ∀ dev lba n, call ≠ .invalidateRange dev lba n) :
    Base fs { st with blk := step fs.cache st.blk (.call 0 alloc call) } :=
  { h with alone := h.alone.call fs.alone hid hpn hrn }

lemma Settled.flushed (h : Settled fs st)
    (hcl : flushable fs.toLayout o = true → dirtyPages st.pages o = 0)
    (hpur : PurposeOk fs.toLayout st o purpose) : Good fs (flushed fs.toLayout alloc o purpose st) := by
  cases purpose with
  | close => exact h.rest
  | fsync owed =>
    obtain ⟨hao,huq,hmp,hke,hows⟩ := h.base.call alloc
      (.writebackInode (fs.inode o).dev o.fsid o.ino) h.idle rfl nofun
    have hprog := call_prog fs.cache alloc st.blk
      (.writebackInode (fs.inode o).dev o.fsid o.ino)
    refine ⟨⟨hao,huq,hmp,hke,hows⟩,⟨h.stamp,⟨hpur.congr rfl rfl,?_⟩,
      .inl ⟨?_,fun _ y hy hsc j hj => ?_⟩⟩,fun owed hoe => ?_⟩
    · intro hfh p hp hfl
      have hnot := countP_eq_zero.mp (hcl hfh) p hp
      simpa [hfl] using hnot
    · change ((step fs.cache st.blk (.call 0 alloc _)).prog 0).task = _
      rfl
    · change ((((step fs.cache st.blk (.call 0 alloc _)).prog 0).hold fs.cache).sweep) = _ at hy
      cases hy
      cases hj
    cases h.result.symm.trans hoe

lemma dirtyPages_le_dirty : dirtyPages pages o ≤ pages.countP fun p => p.dirty := by
  refine countP_mono_left fun p _ hp => ?_
  rw [and_eq_true] at hp
  exact hp.2

lemma dirtyPages_le_cached : dirtyPages pages o ≤ cachedPages pages o := by
  refine countP_mono_left fun p _ hp => ?_
  rw [and_eq_true] at hp
  exact hp.1

lemma Settled.flush (h : Settled fs st) (hpur : PurposeOk fs.toLayout st o purpose) :
    Good fs (pageCacheFlushInode fs.toLayout alloc o purpose st) := by
  rw [pageCacheFlushInode]
  split_ifs with hea
  · refine h.flushed (fun hfh => ?_) hpur
    have hall : dirtyPages st.pages o ≤ _ := dirtyPages_le_dirty
    have hcc : dirtyPages st.pages o ≤ _ := dirtyPages_le_cached
    obtain hze | hze | hze | hmem := hea
    · omega
    · omega
    · exact hze
    rw [flushable,hmem,Bool.not_true,Bool.and_false] at hfh
    cases hfh
  refine h.walk ⟨?_,fun _ => zero_add _,hpur⟩
  simpa using fun hmem => hea (.inr (.inr (.inr hmem)))

lemma find_is (h : pages.find? (·.is o index) = some p) : p ∈ pages ∧ p.file = o ∧ p.index = index :=
  ⟨mem_of_find?_eq_some h,Page.is_iff.mp (find?_some (p := fun q : Page β => q.is o index) h)⟩

lemma Settled.walkStep (h : Settled fs st) (hw : WalkOk fs.toLayout st w 0) :
    Good fs (walkStep fs.toLayout alloc w st) := by
  have hmo : ∀ next, Good fs { st with stage := .walk { w with next } } :=
    fun next => h.walk { hw with }
  have hpg : ∀ p ∈ st.pages, p.file = w.file → p.dirty = true → ∀ next, Good fs
      (Fsync.writebackPage fs.toLayout p (some { w with next, written := w.written + 1 }) st) := by
    intro p hp hfl hdt next
    refine h.writebackPage hp hdt fun u hu => ?_
    cases hu
    refine ⟨hfl.symm,hw.disk,fun hcb => ?_,hw.purpose⟩
    have hct := hw.count hcb
    change w.written + 1 + dirtyPages st.pages w.file = w.want + 1
    omega
  rw [Fsync.walkStep]
  split
  · split
    · split
      · exact hmo _
      next p hfi =>
      obtain ⟨hp,hfl,-⟩ := find_is hfi
      split
      · next hdt => exact hpg p hp hfl hdt _
      exact hmo _
    exact hmo _
  next hnone =>
  split
  · split
    · next hfi =>
      refine h.flushed (fun _ => ?_) hw.purpose
      refine countP_eq_zero.mpr fun p hp => ?_
      exact find?_eq_none.mp hfi p hp
    next p hfi =>
    have his := find?_some hfi
    rw [and_eq_true,decide_eq_true_eq] at his
    exact hnone ▸ hpg p (mem_of_find?_eq_some hfi) his.1 his.2 w.next
  next hdo =>
  refine h.flushed (fun hfh => ?_) hw.purpose
  rw [flushable,and_eq_true] at hfh
  have hct := hw.count hfh.1
  omega

lemma Good.settled (h : Good fs st) (hrs : st.resting = true) :
    Settled fs { st with result := none } := by
  rw [State.resting] at hrs
  split at hrs
  · next hsg =>
    have hok := h.stage
    rw [hsg] at hok
    exact ⟨{ h.base with },hok.1,isIdle_iff.mp hrs,rfl⟩
  cases hrs

lemma Settled.good (h : Settled fs st) (hsg : st.stage = .rest) : Good fs st := by
  have hrs := h.rest
  rw [← hsg] at hrs
  exact hrs

lemma mem_store (h : p ∈ store o index data used pages) :
    p ∈ pages ∨ p.file = o ∧ p.index = index ∧ p.dirty = true ∧ p.used = used := by
  rw [store] at h
  split at h
  · obtain ⟨q,hq,rfl⟩ := mem_map.mp h
    by_cases his : q.is o index = true
    · obtain ⟨hfl,hix⟩ := Page.is_iff.mp his
      simp [his,hfl,hix]
    simp [his,hq]
  obtain hin | hnew := mem_append.mp h
  · exact .inl hin
  rw [mem_singleton] at hnew
  simp [hnew]

lemma store_unique (h : (pages.map fun p => (p.file, p.index)).Nodup) :
    ((store o index data used pages).map fun p => (p.file, p.index)).Nodup := by
  rw [store]
  split_ifs with hab
  · have hsa : (pages.map fun p => if p.is o index then
        { p with data, dirty := true, used } else p).map
          (fun p => (p.file, p.index)) = pages.map fun p => (p.file, p.index) := by
      rw [map_map]
      refine map_congr_left fun p _ => ?_
      dsimp only [comp]
      split <;> rfl
    rw [hsa]
    exact h
  rw [map_append,nodup_append]
  refine ⟨h,nodup_singleton _,fun x hx y hy heq => hab ?_⟩
  obtain ⟨q,hq,rfl⟩ := mem_map.mp hx
  rw [map_singleton,mem_singleton] at hy
  have hkey := heq.trans hy
  exact any_eq_true.mpr ⟨q,hq,Page.is_iff.mpr ⟨congrArg Prod.fst hkey,congrArg Prod.snd hkey⟩⟩

lemma Settled.write (h : Settled fs st) (hlim : index < fs.limit o) :
    Settled fs { st with
      pages := store o index data (blocksIn (max (st.size o) size) index) st.pages
      size := update st.size o (max (st.size o) size) } := by
  have hgrow : ∀ o', st.size o' ≤ update st.size o (max (st.size o) size) o' := by
    intro o'
    obtain rfl | ho := eq_or_ne o' o
    · rw [update_self]
      exact Nat.le_max_left ..
    rw [update_of_ne ho]
  refine { h with base := ⟨h.base.alone,store_unique h.base.unique,fun p hp => ?_,fun p hp hcl => ?_,
    h.base.owners⟩ }
  · obtain hin | ⟨hfl,hix,-,hus⟩ := mem_store hp
    · obtain ⟨hmp,hft⟩ := h.base.mapped p hin
      exact ⟨hmp,hft.trans (Nat.div_le_div_right (Nat.add_le_add_right (bytesIn_mono (hgrow p.file)) _))⟩
    rw [hfl,hix,hus]
    refine ⟨hlim,?_⟩
    dsimp only
    rw [update_self]
  obtain hin | ⟨-,-,hdt,-⟩ := mem_store hp
  · exact h.base.clean p hin hcl
  cases hdt.symm.trans hcl

lemma Settled.drop (h : Settled fs st) :
    Settled fs { st with pages := st.pages.filter fun p => !p.is o index } := by
  refine { h with base := ⟨h.base.alone,?_,fun p hp => ?_,fun p hp => ?_,h.base.owners⟩ }
  · exact h.base.unique.sublist (filter_sublist.map _)
  · exact h.base.mapped p (mem_of_mem_filter hp)
  exact h.base.clean p (mem_of_mem_filter hp)

lemma Base.find (h : Base fs st) (hp : p ∈ st.pages) (hfl : p.file = o)
    (hix : p.index = index) : st.pages.find? (·.is o index) = some p := by
  cases hfi : st.pages.find? (·.is o index) with
  | none => cases find?_eq_none.mp hfi p hp (Page.is_iff.mpr ⟨hfl,hix⟩)
  | some =>
    obtain ⟨hq,hqfile,hqindex⟩ := find_is hfi
    rw [h.page_eq hq hp (hqfile.trans hfl.symm) (hqindex.trans hix.symm)]

lemma Base.owes (h : Base fs st) : OwedOk fs.toLayout st o (owes fs.toLayout o st) := by
  refine ⟨fun x hx => ?_,fun k hk i hi hkey => ?_⟩
  · rw [Fsync.owes] at hx
    split at hx
    · next hfh =>
      obtain ⟨p,hp,hx⟩ := mem_flatMap.mp hx
      obtain ⟨j,hj,rfl⟩ := mem_map.mp hx
      obtain ⟨hin,hmi⟩ := mem_filter.mp hp
      rw [and_eq_true,decide_eq_true_eq] at hmi
      exact ⟨hfh,p,hin,hmi.1,j,mem_range.mp hj,rfl⟩
    cases hx
  obtain ⟨n,hn,rfl⟩ := mem_map.mp hk
  obtain ⟨-,hwn⟩ := mem_filter.mp hn
  have hsh := h.alone.calm.inv.shape
  have hvl : (st.blk.mem.slot n).valid = true := by
    simp only [Layout.scope,Scope.wants,and_eq_true] at hwn
    exact hwn.1.1.1
  have heq : i = n := hsh.unique i n ((hsh.used i).mpr (.inl (hsh.dirty i hi)))
    ((hsh.used n).mpr (.inl hvl)) hkey
  rw [heq]
  exact hwn

section

variable (h : StageOk fs.toLayout st stage)

include h

lemma StageOk.congr (hblk : st'.blk = st.blk) (hpgs : st'.pages = st.pages)
    (hsz : st'.size = st.size) : StageOk fs.toLayout st' stage := by
  obtain ⟨blk,pages,size,stage',result⟩ := st'
  subst hblk hpgs hsz
  cases stage with
  | rest => exact h
  | walk => exact ⟨h.1,h.2.1,h.2.2.congr rfl rfl⟩
  | callback =>
    obtain ⟨hcb,hstp,⟨p,hfl,hix,hcall⟩,haf⟩ := h
    refine ⟨hcb,hstp,⟨p,hfl,hix,?_⟩,fun w hw => ?_⟩
    · exact { hcall with }
    exact ⟨(haf w hw).1,(haf w hw).2.congr rfl rfl⟩
  | writeback _ owed =>
    exact ⟨h.1,⟨⟨h.2.1.owed.pages,h.2.1.owed.blocks⟩,h.2.1.clean⟩,h.2.2⟩
  | barrier _ owed =>
    exact ⟨h.1,h.2.1,⟨⟨h.2.2.1.owed.pages,h.2.2.1.owed.blocks⟩,h.2.2.1.clean⟩,h.2.2.2⟩

lemma StageOk.act (hb : Base fs st) (hbz : st.blk.prog 0 ≠ .idle) :
    StageOk fs.toLayout { st with blk := step fs.cache st.blk (.act 0 c) } stage := by
  have hsv := (hb.alone.act fs.alone (c := c)).1
  cases stage with
  | rest => exact rest_serve h hsv
  | walk | barrier => cases hbz h.2.1
  | callback => exact callback_serve h hb hsv
  | writeback => exact writeback_act hb h hbz

lemma StageOk.refuse (hb : Base fs st) (hp : st.blk.prog 0 = .flight k f)
    (hsv : Served fs.cache st.blk (refused fs.cache c (st.blk.stamp 0) k f st.blk.mem)) :
    StageOk fs.toLayout
      { st with blk := st.blk.commit 0 (refused fs.cache c (st.blk.stamp 0) k f st.blk.mem) }
      (stage.miss (retried k f)) := by
  cases stage with
  | rest => exact rest_serve h hsv
  | walk | barrier => cases hp.symm.trans h.2.1
  | callback => exact callback_serve h hb hsv
  | writeback => exact writeback_refuse h hp hsv

end

lemma Good.block (h : Good fs st) (hnone : st.result = none) (hbz : st.blk.prog 0 ≠ .idle) :
    Good fs { st with blk := step fs.cache st.blk (.act 0 c) } := by
  have hsv := (h.base.alone.act fs.alone (c := c)).1
  refine ⟨h.base.serve h.stage hsv,h.stage.act h.base hbz,fun owed hoe => ?_⟩
  cases hnone.symm.trans hoe

lemma Good.refuse (h : Good fs st) (hnone : st.result = none) (hp : st.blk.prog 0 = .flight k f)
    (han : k.anchor = none) :
    Good fs { st with
      blk := st.blk.commit 0 (refused fs.cache c (st.blk.stamp 0) k f st.blk.mem)
      stage := st.stage.miss (retried k f) } := by
  have hsv := h.base.alone.refused fs.alone (c := c) hp han
  obtain ⟨hao,huq,hmp,hcl,hows⟩ := h.base.serve h.stage hsv
  refine ⟨⟨hao,huq,hmp,hcl,hows⟩,?_,fun owed hoe => ?_⟩
  · exact (h.stage.refuse h.base hp hsv).congr rfl rfl rfl
  cases hnone.symm.trans hoe

lemma Settled.call {call : Call β} (h : Settled fs st) (hsg : st.stage = .rest)
    (has : aside fs.toLayout st.pages call = true) :
    Good fs { st with blk := step fs.cache st.blk (.call 0 alloc call) } := by
  have hpn : call.zeroing = false := by cases call <;> first | rfl | cases has
  have hrn : ∀ dev lba n, call ≠ .invalidateRange dev lba n := by
    rintro dev lba n rfl
    cases has
  refine ⟨h.base.call alloc call h.idle hpn hrn,?_,fun owed hoe => ?_⟩
  · rw [hsg]
    refine ⟨h.stamp,fun v hv n hn p hp j hj heq => ?_⟩
    obtain ⟨dev,lba,data,rfl,rfl⟩ := (begin_task fs.cache alloc st.blk hpn hrn).2.2 v hv
    simp only [aside,all_eq_true,mem_range] at has
    have hout := has p hp j hj
    rw [← heq] at hout
    simp [Span.has,hn] at hout
  cases h.result.symm.trans hoe

lemma CallbackOk.put (h : CallbackOk fs.toLayout st p (j :: left)) (hb : Base fs st)
    (hid : st.blk.prog 0 = .idle) :
    CallbackOk fs.toLayout
      { st with
        blk := step fs.cache st.blk
          (.call 0 true (.writeCached (fs.inode p.file).dev (fs.lba p.file p.index j) [p.data j])) }
      p left := by
  have hj := h.bound j (mem_cons_self ..)
  have hin : inBounds fs.cache (fs.inode p.file).dev (fs.lba p.file p.index j) 1 = true :=
    fs.bounds p.file p.index (hb.mapped p h.mem).1 j (hj.trans_le blocksIn_le)
  have hts : ((step fs.cache st.blk (.call 0 true (.writeCached (fs.inode p.file).dev
      (fs.lba p.file p.index j) [p.data j]))).prog 0).task =
      .write ⟨(fs.key p.file p.index j).dev,(fs.key p.file p.index j).block,[p.data j],0⟩ := by
    exact congrArg Prog.task (if_pos hin)
  refine ⟨h.mem,h.dirty,fun i hi => h.bound i (.tail _ hi),fun i hi => ?_, .inr ⟨_,hts,.inr ⟨j,hj,rfl,rfl⟩⟩⟩
  obtain hmem | hnw | ⟨v,hv,-,-⟩ := h.given i hi
  · obtain rfl | hlf := mem_cons.mp hmem
    · exact .inr (.inr ⟨_,hts,rfl,rfl⟩)
    exact .inl hlf
  · exact .inr (.inl hnw)
  rw [hid] at hv
  cases hv

lemma Good.put (h : Good fs st) (hsg : st.stage = .callback o index (j :: left) after)
    (hnone : st.result = none) (hid : st.blk.prog 0 = .idle)
    (hfi : st.pages.find? (·.is o index) = some p) :
    Good fs { st with
      blk := step fs.cache st.blk
        (.call 0 true (.writeCached (fs.inode o).dev (fs.lba o index j) [p.data j]))
      stage := .callback o index left after } := by
  have hok := h.stage
  rw [hsg] at hok
  obtain ⟨hcb,hstp,⟨q,rfl,rfl,hcall⟩,haf⟩ := hok
  obtain rfl : q = p := Option.some.inj ((h.base.find hcall.mem rfl rfl).symm.trans hfi)
  obtain ⟨hao,huq,hmp,hcl,hows⟩ := h.base.call true
    (.writeCached (fs.inode q.file).dev (fs.lba q.file q.index j) [q.data j]) hid rfl nofun
  obtain ⟨hmem,hdt,hbd,hgiven,hwri⟩ := hcall.put h.base hid
  refine ⟨⟨hao,huq,hmp,hcl,hows⟩,
    ⟨hcb,hstp,⟨q,rfl,rfl,⟨hmem,hdt,hbd,hgiven,hwri⟩⟩,fun w hw => ?_⟩,fun owed hoe => ?_⟩
  · exact ⟨(haf w hw).1,(haf w hw).2.congr rfl rfl⟩
  cases hnone.symm.trans hoe

lemma Good.answer (h : Good fs st) (hsg : st.stage = .callback o index [] after)
    (hnone : st.result = none) (hid : st.blk.prog 0 = .idle) :
    Good fs (({ st with
      blk := step fs.cache st.blk (.clearDirtyOwner 0)
      pages := clean o index st.pages } : State β).resume after) := by
  have hok := h.stage
  rw [hsg] at hok
  obtain ⟨-,-,⟨p,rfl,rfl,hcall⟩,haf⟩ := hok
  have hdo : ∀ q ∈ st.pages, q.is p.file p.index = true →
      Handed fs.toLayout st.blk.mem q q.used := by
    intro q hq his j hj
    obtain ⟨hfl,hix⟩ := Page.is_iff.mp his
    obtain rfl := h.base.page_eq hq hcall.mem hfl hix
    rcases hcall.given j (hj.trans_le (h.base.mapped q hq).2) with
      hlf | hnw | ⟨v,hv,-,-⟩
    · cases hlf
    · exact hnw
    rw [hid] at hv
    cases hv
  obtain ⟨hao,huq,hmp,hcl,hows⟩ := h.base.clean_page hdo
  have hset : Settled fs { st with
      blk := step fs.cache st.blk (.clearDirtyOwner 0)
      pages := clean p.file p.index st.pages } :=
    ⟨⟨hao.stamped,huq,hmp,hcl,hows⟩,update_self ..,hid,hnone⟩
  refine hset.resume fun w hw => ?_
  obtain ⟨hfl,hwl⟩ := haf w hw
  exact (hwl.clean h.base hcall.mem hcall.dirty hfl).congr rfl rfl

lemma Good.written (h : Good fs st) (hsg : st.stage = .writeback o owed missed)
    (hnone : st.result = none) (hid : st.blk.prog 0 = .idle) :
    Good fs { st with stage := .barrier o owed missed } := by
  have hok := h.stage
  rw [hsg] at hok
  obtain ⟨hstp,hfh,hsw⟩ := hok
  refine ⟨{ h.base with },⟨hstp,hid,⟨⟨hfh.owed.pages,hfh.owed.blocks⟩,hfh.clean⟩,?_⟩,
    fun owed hoe => ?_⟩
  · obtain ⟨hts,-⟩ | ⟨-,hswp⟩ := hsw
    · rw [hid] at hts
      cases hts
    exact hswp
  cases hnone.symm.trans hoe

lemma Base.swept_key {k : Key} (h : Base fs st) (hswp : Swept fs.toLayout st o)
    (hwn : ∀ i, (st.blk.mem.slot i).dirty = true → (st.blk.mem.slot i).key = k →
      (fs.scope o).wants (st.blk.mem.slot i) = true) :
    st.blk.mem.medium k = (st.blk.mem.history k).newest := by
  refine h.alone.settled fun i hi hkey => ?_
  cases (hswp i).symm.trans (hwn i hi hkey)

lemma Flushing.synced (h : Flushing fs.toLayout st o owed) (hb : Base fs st)
    (hswp : Swept fs.toLayout st o) :
    (∀ x ∈ owed.pages, st.blk.mem.medium x.1 = x.2) ∧
      ∀ k ∈ owed.blocks, st.blk.mem.medium k = (st.blk.mem.history k).newest := by
  refine ⟨fun x hx => ?_,fun k hk => hb.swept_key hswp (h.owed.blocks k hk)⟩
  obtain ⟨hfh,p,hp,rfl,j,hj,rfl⟩ := h.owed.pages x hx
  have hlim := (hb.mapped p hp).1
  have hsm := hb.used_lt hp hj
  have hmed : st.blk.mem.medium (fs.key p.file p.index j) =
      (st.blk.mem.history (fs.key p.file p.index j)).newest := by
    refine hb.swept_key hswp fun i hi hkey => ?_
    refine scope_wants (hb.alone.calm.inv.shape.dirty i hi) hi ?_
      (hb.owners i hi p.file p.index hlim j hsm hkey)
    rw [hkey]
    exact fs.placed p.file p.index hlim j hsm
  exact hmed.trans (hb.clean p hp (h.clean hfh p hp rfl) j hj)

def evicting : Prog β → Bool
  | .flight k _ => k.anchor.isSome
  | _ => false

def Stage.settles (fs : Layout β) (err : Int) : Stage β → Bool
  | .barrier o _ missed => ((fs.inode o).fsyncCb && decide (err < 0)) || !missed
  | _ => true

def Accepted (fs : Layout β) (st : State β) : Event β → Prop
  | .refuse _ => evicting (st.blk.prog 0) = false
  | .answer full => full = true
  | .barrier err => st.stage.settles fs err = true
  | _ => True

lemma Good.barrier {err : Int} (h : Good fs st) (hsg : st.stage = .barrier o owed missed)
    (hok : st.stage.settles fs.toLayout err = true) :
    Good fs { st with
      stage := .rest
      result := some (if (fs.inode o).fsyncCb ∧ err < 0 then err else 0, owed) } := by
  have hstg := h.stage
  rw [hsg] at hstg
  obtain ⟨hstp,hid,hfh,hswp⟩ := hstg
  refine ⟨{ h.base with },⟨hstp,fun v hv => ?_⟩,fun owed' hoe => ?_⟩
  · rw [hid] at hv
    cases hv
  obtain ⟨hret,rfl⟩ := Prod.mk.inj (Option.some.inj hoe)
  simp only [hsg,Stage.settles,or_eq_true,and_eq_true,decide_eq_true_eq,
    not_eq_true'] at hok
  obtain hfail | hm := hok
  · rw [if_pos hfail] at hret
    omega
  exact hfh.synced h.base (hswp hm)

lemma Good.forget (h : Good fs st) : Good fs { st with result := none } :=
  ⟨{ h.base with },h.stage.congr rfl rfl rfl,nofun⟩

lemma resting_stage (h : st.resting = true) : st.stage = .rest := by
  rw [State.resting] at h
  split at h
  · next hsg => exact hsg
  cases h

lemma Good.step {e : Event β} (h : Good fs st) (hstep : Stepped fs.toLayout st e st')
    (hok : Accepted fs.toLayout st e) : Good fs st' := by
  obtain ⟨hen,rfl⟩ := hstep
  have hfg := h.forget
  cases e with
  | write =>
    simp only [Event.enabled,Bool.and_eq_true,decide_eq_true_eq] at hen
    exact ((h.settled hen.1).write hen.2).good (resting_stage hen.1)
  | drop =>
    simp only [Event.enabled,Bool.and_eq_true] at hen
    exact (h.settled hen.1).drop.good (resting_stage hen.1)
  | evict =>
    simp only [Event.enabled,Bool.and_eq_true,any_eq_true] at hen
    obtain ⟨⟨hrs,-⟩,p,hp,his,hdt⟩ := hen
    obtain ⟨hfl,hix⟩ := Page.is_iff.mp his
    have hfi := h.base.find hp hfl hix
    rw [advance,react]
    rw [hfi]
    exact (h.settled hrs).writebackPage hp hdt nofun
  | close => exact (h.settled hen).flush trivial
  | fsync =>
    have hset := h.settled hen
    exact hset.flush hset.base.owes
  | call _ call =>
    simp only [Event.enabled,Bool.and_eq_true] at hen
    exact (h.settled hen.1).call (resting_stage hen.1) hen.2
  | block =>
    refine hfg.block rfl fun hid => ?_
    rw [Event.enabled,hid] at hen
    cases hen
  | refuse =>
    cases hp : st.blk.prog 0 with
    | flight =>
      rw [Accepted,hp] at hok
      rw [advance,react]
      rw [hp]
      exact hfg.refuse rfl hp (Option.isSome_eq_false_iff.mp hok |> Option.isNone_iff_eq_none.mp)
    | _ =>
      rw [Event.enabled,hp] at hen
      cases hen
  | walk =>
    obtain ⟨blk,pages,size,stage,result⟩ := st
    cases stage with
    | walk =>
      obtain ⟨hstp,hid,hwl⟩ := hfg.stage
      exact Settled.walkStep ⟨hfg.base,hstp,hid,rfl⟩ hwl
    | _ => cases hen
  | put =>
    obtain ⟨blk,pages,size,stage,result⟩ := st
    cases stage with
    | callback _ _ left =>
      simp only [Event.enabled,Bool.and_eq_true] at hen
      obtain ⟨-,-,⟨p,hfl,hix,hcall⟩,-⟩ := hfg.stage
      have hfi := hfg.base.find hcall.mem hfl hix
      cases left with
      | nil => cases hen.2
      | cons =>
        rw [advance,react]
        dsimp only
        rw [hfi]
        exact hfg.put rfl rfl (isIdle_iff.mp hen.1) hfi
    | _ => cases hen
  | answer =>
    obtain ⟨blk,pages,size,stage,result⟩ := st
    cases stage with
    | callback =>
      subst hok
      simp only [Event.enabled,Bool.and_eq_true,Bool.not_true,Bool.false_or, List.isEmpty_iff] at hen
      obtain ⟨hid,rfl⟩ := hen
      exact hfg.answer rfl rfl (isIdle_iff.mp hid)
    | _ => cases hen
  | written =>
    obtain ⟨blk,pages,size,stage,result⟩ := st
    cases stage with
    | writeback => exact hfg.written rfl rfl (isIdle_iff.mp hen)
    | _ => cases hen
  | barrier =>
    obtain ⟨blk,pages,size,stage,result⟩ := st
    cases stage with
    | barrier => exact hfg.barrier rfl hok
    | _ => cases hen

lemma Good.initial (h : State.Initial st) : Good fs st := by
  have hdt : ∀ i, (st.blk.mem.slot i).dirty = false := fun i => (h.blk.slot i).2.2.1
  refine ⟨⟨?_,?_,fun p hp => ?_,fun p hp => ?_,fun i hi => ?_⟩,?_,fun owed hoe => ?_⟩
  · exact .initial h.blk
  · rw [h.pages]
    exact nodup_nil
  · rw [h.pages] at hp
    cases hp
  · rw [h.pages] at hp
    cases hp
  · cases (hdt i).symm.trans hi
  · rw [h.stage]
    refine ⟨h.owner _,fun v hv => ?_⟩
    rw [h.blk.prog] at hv
    cases hv
  · cases h.result.symm.trans hoe

def firstFile : Owner := ⟨1,10⟩

def oneFileLayout : Layout Nat :=
  { cache := ⟨2,0,fun _ => ⟨8,0,true,true,none⟩,1,0⟩
    inode := fun _ => ⟨0,true,false,true⟩
    limit := fun o => if o = firstFile then 1 else 0
    lba := fun _ _ j => j }

lemma oneFileLayout_limit (h : index < oneFileLayout.limit o) : o = firstFile ∧ index = 0 := by
  change index < (if o = firstFile then 1 else 0) at h
  split at h
  · next ho => exact ⟨ho,by omega⟩
  omega

def oneFile : Files Nat where
  toLayout := oneFileLayout
  alone := rfl
  bounds o index _ j hj := by
    change decide (j + 1 ≤ 8) = true
    exact decide_eq_true hj
  placed o index _ j hj := by
    change (0 == 0 && decide (0 ≤ j) && decide (j < 2 ^ 64 - 1)) = true
    have hbound : j < 8 := hj
    rw [decide_eq_true (Nat.zero_le j),decide_eq_true (by omega : j < 2 ^ 64 - 1)]
    rfl
  apart o index hindex j _ o' index' hindex' j' _ hkey := by
    obtain ⟨rfl,rfl⟩ := oneFileLayout_limit hindex
    obtain ⟨rfl,rfl⟩ := oneFileLayout_limit hindex'
    exact ⟨rfl,rfl,(Key.mk.inj hkey).2⟩

def mounted : State Nat := ⟨coldStart,[],fun _ => 0,.rest,none⟩

lemma mounted_initial : State.Initial mounted := ⟨coldStart_initial,fun _ => rfl,rfl,rfl,rfl⟩

instance {fs : Layout β} {st : State β} (e : Event β) : Decidable (Accepted fs st e) := by
  cases e <;> (dsimp only [Accepted]; infer_instance)

def fileWrite : List (Event Nat) :=
  [.write firstFile 0 (fun j => j + 5) 600,.fsync true firstFile,.walk true]

def retriedGroup : List (Event Nat) :=
  fileWrite ++ [.put,.block plainChoice,.put,.block plainChoice,.answer true,.walk true,
    .block plainChoice,.block plainChoice,.refuse plainChoice] ++
    replicate 7 (.block plainChoice) ++ [.written,.barrier 0]

def refusedCallback : List (Event Nat) :=
  fileWrite ++ [.answer false,.walk true,.block plainChoice,.written,.barrier 0]

def lost (st : State Nat) : Bool :=
  match st.result with
  | some (0, owed) => owed.pages.any fun x => st.blk.mem.medium x.1 != x.2
  | _ => false

lemma not_kept_of_lost {fs : Layout Nat} {st : State Nat} (h : lost st = true) : ¬Kept fs st := by
  intro hke
  rw [lost] at h
  split at h
  · next owed hrsl =>
    obtain ⟨x,hx,hne⟩ := any_eq_true.mp h
    rw [(hke.synced owed hrsl).1 x hx] at hne
    simp at hne
  cases h

end B1nix.Fsync
