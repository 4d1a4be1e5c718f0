import B1nix.Basic.Transition
import B1nix.Page

namespace B1nix.PageCache

open Function Nat Bool

abbrev Bytes := Nat → UInt8

structure Key where
  ino : Nat
  index : Nat
  deriving DecidableEq

def Key.offset (k : Key) : Nat := k.index * pageSize

structure Entry where
  bytes : Bytes
  dirty : Bool
  referenced : Bool
  refcount : Nat

structure Inode where
  size : Nat
  writeCb : Bool
  memoryBacked : Bool

inductive Phase where
  | look
  | missed
  | filled
  | relook
  | refused
  | pinned
  | copied
  | marked
  | closing
  deriving DecidableEq

structure Write where
  offset : Nat
  data : List UInt8
  done : Nat
  phase : Phase
  staged : List (Nat × Bytes)
  frame : Bytes

variable (i : Nat) (w : Write)

def Write.position : Nat := w.offset + w.done

def Write.page : Nat := w.position / pageSize

def Write.start : Nat := w.position % pageSize

def Write.chunk : Nat := min (pageSize - w.start) (w.data.length - w.done)

def Write.copyInto (b : Bytes) : Bytes := fun o =>
  if w.start ≤ o ∧ o < w.start + w.chunk then w.data.getD (w.done + (o - w.start)) 0 else b o

structure Flight where
  key : Key
  size : Nat
  captured : Bool

structure State where
  cache : Key → Option Entry
  inode : Nat → Inode
  backing : Key → Bytes
  content : Key → Bytes
  writer : Nat → Option Write
  flights : List Flight

variable (k : Key) (s : State)

def State.setEntry (k : Key) (e : Entry) : State := { s with cache := update s.cache k (some e) }

def State.setWriter (i : Nat) (w : Write) : State := { s with writer := update s.writer i (some w) }

def State.onEntry (k : Key) (f : Entry → Entry) : State :=
  match s.cache k with
  | none => s
  | some e => s.setEntry k (f e)

def pageCacheGetPage : Bool × State :=
  match s.cache k with
  | none => (false, s)
  | some e => (true, s.setEntry k { e with refcount := e.refcount + 1, referenced := true })

def pageCacheAddPage (frame : Bytes) (kmalloc : Bool) (s : State) : State :=
  if kmalloc ∧ s.cache k = none then s.setEntry k ⟨frame,false,false,0⟩ else s

def pageCacheMarkDirty : State := s.onEntry k fun e => { e with dirty := true }

def pageCachePutPage : State := s.onEntry k fun e => { e with refcount := e.refcount - 1 }

def readCb (k : Key) : Bytes := fun o =>
  if k.offset + o < (s.inode k.ino).size then s.backing k o else 0

def fillFrame (ok : Bool) (k : Key) (s : State) : Bytes :=
  if w.chunk < pageSize ∧ k.offset < (s.inode k.ino).size ∧ ok then readCb s k else fun _ => 0

def writebackSize (k : Key) : Nat :=
  if k.offset + pageSize > (s.inode k.ino).size then
    if k.offset ≥ (s.inode k.ino).size then 0 else (s.inode k.ino).size - k.offset
  else pageSize

def writebackStart : State :=
  if writebackSize s k = 0 then s.onEntry k fun e => { e with dirty := false }
  else
    let pinned := s.onEntry k fun e => { e with refcount := e.refcount + 1 }
    { pinned with flights := s.flights ++ [⟨k,writebackSize s k,false⟩] }

def writeCb (f : Flight) (s : State) : Bytes := fun o =>
  match s.cache f.key with
  | none => s.backing f.key o
  | some e => if o < f.size then e.bytes o else s.backing f.key o

def writebackCapture (j : Nat) (f : Flight) (s : State) : State :=
  { s with
    backing := update s.backing f.key (writeCb f s)
    flights := s.flights.set j { f with captured := true } }

def writebackFinish (j : Nat) (f : Flight) (s : State) : State :=
  let released := s.onEntry f.key fun e => { e with refcount := e.refcount - 1, dirty := false }
  { released with flights := s.flights.eraseIdx j }

def dropPage : State := { s with cache := update s.cache k none }

inductive Reclaim where
  | flushInode
  | evict
  | evictClean
  deriving DecidableEq

inductive Action where
  | lookup
  | stage (index : Nat)
  | install (alloc : Bool)
  | fill (alloc ok : Bool)
  | add (kmalloc : Bool)
  | copy
  | mark
  | put
  | unlock

inductive Event where
  | lock (i offset : Nat) (data : List UInt8)
  | write (i : Nat) (a : Action)
  | promote (k : Key)
  | start (who : Reclaim) (k : Key)
  | capture (j : Nat)
  | finish (j : Nat)
  | drop (who : Reclaim) (k : Key)

def Action.ready (i : Nat) (w : Write) : Action → Bool
  | .lookup => w.phase == .look || w.phase == .relook
  | .stage index =>
    (w.phase == .missed || w.phase == .refused) && decide (w.page < index) &&
      decide (index * pageSize < (s.inode i).size)
  | .install _ => w.phase == .missed || w.phase == .refused
  | .fill _ _ => w.phase == .missed
  | .add _ => w.phase == .filled
  | .copy => w.phase == .pinned
  | .mark => w.phase == .copied
  | .put => w.phase == .marked
  | .unlock => w.phase == .closing || w.phase == .refused

def writable (who : Reclaim) (s : State) (k : Key) (e : Entry) : Bool :=
  e.dirty && (s.inode k.ino).writeCb && !(s.inode k.ino).memoryBacked &&
    match who with
    | .flushInode => true
    | .evict => e.refcount == 0 && !e.referenced
    | .evictClean => false

def droppable (who : Reclaim) (e : Entry) : Bool :=
  e.refcount == 0 && !e.dirty &&
    match who with
    | .flushInode => false
    | .evict => !e.referenced
    | .evictClean => true

def Event.enabled : Event → Bool
  | .lock i _ _ => (s.writer i).isNone && (s.inode i).writeCb
  | .write i a => (s.writer i).any fun w => a.ready s i w
  | .promote k => (s.cache k).any fun e => e.refcount == 0 && e.referenced
  | .start who k => (s.cache k).any (writable who s k)
  | .capture j => (s.flights[j]?).any fun f => !f.captured
  | .finish j => (s.flights[j]?).any (·.captured)
  | .drop who k => (s.cache k).any (droppable who)

def lookupMissed : Phase → Phase
  | .look => .missed
  | _ => .refused

def lookupStep : State :=
  match pageCacheGetPage ⟨i,w.page⟩ s with
  | (true, s) => s.setWriter i { w with phase := .pinned, staged := [] }
  | (false, s) => s.setWriter i { w with phase := lookupMissed w.phase, staged := [] }

def installStep (alloc : Bool) (s : State) : State :=
  match w.staged with
  | [] => s
  | (index, b) :: rest =>
    (pageCacheAddPage ⟨i,index⟩ b alloc s).setWriter i { w with staged := rest }

def fillStep (alloc ok : Bool) (s : State) : State :=
  if alloc then s.setWriter i { w with phase := .filled, frame := fillFrame w ok ⟨i,w.page⟩ s }
  else s.setWriter i { w with phase := .closing }

def copyStep : State :=
  let k : Key := ⟨i,w.page⟩
  let copied := s.onEntry k fun e => { e with bytes := w.copyInto e.bytes }
  { copied.setWriter i { w with phase := .copied } with
    content := update s.content k (w.copyInto (s.content k)) }

def nextChunk : Write :=
  { w with
    done := w.done + w.chunk
    phase := if w.done + w.chunk < w.data.length then .look else .closing }

def unlockStep : State :=
  let size := max (s.inode i).size (if w.done = 0 then 0 else w.position)
  { s with
    inode := update s.inode i { s.inode i with size := size }
    writer := update s.writer i none }

def writeStep : Action → State
  | .lookup => lookupStep i w s
  | .stage index =>
    s.setWriter i { w with staged := w.staged ++ [(index, readCb s ⟨i,index⟩)] }
  | .install alloc => installStep i w alloc s
  | .fill alloc ok => fillStep i w alloc ok s
  | .add kmalloc =>
    (pageCacheAddPage ⟨i,w.page⟩ w.frame kmalloc s).setWriter i { w with phase := .relook }
  | .copy => copyStep i w s
  | .mark => (pageCacheMarkDirty ⟨i,w.page⟩ s).setWriter i { w with phase := .marked }
  | .put => (pageCachePutPage ⟨i,w.page⟩ s).setWriter i (nextChunk w)
  | .unlock => unlockStep i w s

def step : Event → State
  | .lock i offset data =>
    s.setWriter i ⟨offset,data,0,if data = [] then .closing else .look,[],fun _ => 0⟩
  | .write i a =>
    match s.writer i with
    | none => s
    | some w => writeStep i w s a
  | .promote k => s.onEntry k fun e => { e with referenced := false }
  | .start _ k => writebackStart k s
  | .capture j =>
    match s.flights[j]? with
    | none => s
    | some f => writebackCapture j f s
  | .finish j =>
    match s.flights[j]? with
    | none => s
    | some f => writebackFinish j f s
  | .drop _ k => dropPage k s

def Stepped (e : Event) (s' : State) : Prop := e.enabled s = true ∧ s' = step s e

structure State.Initial (s : State) : Prop where
  cache : ∀ k, s.cache k = none
  writer : ∀ i, s.writer i = none
  flights : s.flights = []
  content : ∀ k, s.content k = s.backing k
  zero : ∀ k o, (s.inode k.ino).size ≤ k.offset + o → s.backing k o = 0

open B1nix.Transition List Option Phase

variable {s s' : State} {k q : Key} {i j o : Nat} {w w' : Write} {e e' : Entry} {l : List Flight}

def Same (a b : Bytes) : Prop := ∀ o < pageSize, a o = b o

def Clean (s : State) (k : Key) : Prop := Same (s.content k) (s.backing k)

def Delivers (s : State) (f : Flight) : Prop :=
  (f.captured = true → Clean s f.key) ∧
    (f.captured = false → ∀ o < pageSize, s.content f.key o ≠ s.backing f.key o → o < f.size)

structure Settled (s : State) (k : Key) : Prop where
  absent : s.cache k = none → Clean s k
  bytes : ∀ e, s.cache k = some e → Same e.bytes (s.content k)
  clean : ∀ e, s.cache k = some e → e.dirty = false → Clean s k
  flights : ∀ f ∈ s.flights, f.key = k → Delivers s f

def Holds (s : State) (k : Key) (w : Write) : Prop :=
  s.writer k.ino = some w ∧ w.page = k.index

def Fresh (s : State) (k : Key) : Prop :=
  ∃ w, Holds s k w ∧ (w.phase = .relook ∨ w.phase = .pinned) ∧ w.chunk = pageSize

def Unmarked (s : State) (k : Key) : Prop := ∃ w, Holds s k w ∧ w.phase = .copied

structure Blank (s : State) (k : Key) : Prop where
  clean : Clean s k
  dirty : ∀ e, s.cache k = some e → e.dirty = false
  flights : ∀ f ∈ s.flights, f.key ≠ k

def Copied (s : State) (k : Key) : Prop := ∀ e, s.cache k = some e → Same e.bytes (s.content k)

def Fine (s : State) (k : Key) : Prop :=
  Settled s k ∨ Fresh s k ∧ Blank s k ∨ Unmarked s k ∧ Copied s k

def Entry.core (e : Entry) : Bytes × Bool := (e.bytes, e.dirty)

structure Like (s s' : State) (k : Key) : Prop where
  cache : (s'.cache k).map Entry.core = (s.cache k).map Entry.core
  content : s'.content k = s.content k
  backing : s'.backing k = s.backing k
  flights : ∀ f ∈ s'.flights, f.key = k → f ∈ s.flights

section

variable (h : Like s s' k)

include h

lemma Like.absent (hs : s'.cache k = none) : s.cache k = none := by
  have hca := h.cache
  rw [hs] at hca
  exact map_eq_none_iff.mp hca.symm

lemma Like.present {e' : Entry} (hs : s'.cache k = some e') :
    ∃ e, s.cache k = some e ∧ e.bytes = e'.bytes ∧ e.dirty = e'.dirty := by
  have hca := h.cache
  rw [hs] at hca
  obtain ⟨e,he,hcr⟩ := map_eq_some_iff.mp hca.symm
  injection hcr with hby hdt
  exact ⟨e,he,hby,hdt⟩

lemma Like.clean (hs : Clean s k) : Clean s' k := by
  rw [Clean,h.content,h.backing]
  exact hs

lemma Like.copied (hs : Copied s k) : Copied s' k := by
  intro e' he'
  obtain ⟨e,he,hby,-⟩ := h.present he'
  rw [h.content,← hby]
  exact hs e he

lemma Like.settled (hs : Settled s k) : Settled s' k := by
  refine ⟨fun hnone => h.clean (hs.absent (h.absent hnone)),h.copied hs.bytes,fun e' he' hd => ?_,
    fun f hf hk => ?_⟩
  · obtain ⟨e,he,-,hdt⟩ := h.present he'
    exact h.clean (hs.clean e he (hdt.trans hd))
  have hdlv := hs.flights f (h.flights f hf hk) hk
  subst hk
  rw [Delivers,h.content,h.backing]
  exact ⟨fun hc => h.clean (hdlv.1 hc),hdlv.2⟩

lemma Like.blank (hs : Blank s k) : Blank s' k := by
  refine ⟨h.clean hs.clean,fun e' he' => ?_,fun f hf hk => hs.flights f (h.flights f hf hk) hk⟩
  obtain ⟨e,he,-,hdt⟩ := h.present he'
  exact hdt.symm.trans (hs.dirty e he)

lemma Like.fine (hwr : s'.writer k.ino = s.writer k.ino) (hs : Fine s k) : Fine s' k := by
  obtain hs | ⟨⟨w,hw,hph⟩,hs⟩ | ⟨⟨w,hw,hph⟩,hs⟩ := hs
  · exact .inl (h.settled hs)
  · exact .inr (.inl ⟨⟨w,⟨hwr.trans hw.1,hw.2⟩,hph⟩,h.blank hs⟩)
  exact .inr (.inr ⟨⟨w,⟨hwr.trans hw.1,hw.2⟩,hph⟩,h.copied hs⟩)

end

lemma Fine.settled (h : Fine s k)
    (hwr : ∀ w, Holds s k w → w.phase ≠ .relook ∧ w.phase ≠ .pinned ∧ w.phase ≠ .copied) :
    Settled s k := by
  obtain h | ⟨⟨w,hw,hph,-⟩,-⟩ | ⟨⟨w,hw,hph⟩,-⟩ := h
  · exact h
  · obtain hph | hph := hph
    · exact absurd hph (hwr w hw).1
    exact absurd hph (hwr w hw).2.1
  exact absurd hph (hwr w hw).2.2

def Phase.pins : Phase → Bool
  | .pinned => true
  | .copied => true
  | .marked => true
  | _ => false

lemma Phase.pins_of_or {p a b : Phase} (h : p = a ∨ p = b) (ha : a.pins = false)
    (hb : b.pins = false) : p.pins = false := by
  obtain rfl | rfl := h
  · exact ha
  exact hb

def pin (s : State) (k : Key) : Nat :=
  match s.writer k.ino with
  | none => 0
  | some w => if w.page = k.index ∧ w.phase.pins then 1 else 0

def users (s : State) (k : Key) : Nat := pin s k + s.flights.countP (·.key = k)

structure WriterOk (s : State) (i : Nat) (w : Write) : Prop where
  absent : w.phase = .missed ∨ w.phase = .filled → s.cache ⟨i,w.page⟩ = none
  frame : w.phase = .filled → w.chunk = pageSize ∨ Same w.frame (s.content ⟨i,w.page⟩)
  staged : w.phase = .missed ∨ w.phase = .refused →
    ∀ p ∈ w.staged, w.page < p.1 ∧ Same p.2 (s.content ⟨i,p.1⟩)

structure Inv (s : State) : Prop where
  fine : ∀ k, Fine s k
  unused : ∀ k, s.cache k = none → users s k = 0
  counted : ∀ k e, s.cache k = some e → e.refcount = users s k
  zero : ∀ k o, (s.inode k.ino).size ≤ k.offset + o → s.backing k o = 0
  inside : ∀ f ∈ s.flights, ∀ o < f.size, f.key.offset + o < (s.inode f.key.ino).size
  writers : ∀ i w, s.writer i = some w → WriterOk s i w

lemma onEntry_of_some {f : Entry → Entry} (hc : s.cache k = some e) :
    s.onEntry k f = s.setEntry k (f e) := by
  rw [State.onEntry,hc]

lemma WriterOk.congr (h : WriterOk s i w)
    (hca : ∀ k : Key, k.ino = i → s.cache k = none → s'.cache k = none)
    (hcn : ∀ k : Key, k.ino = i → s'.content k = s.content k) : WriterOk s' i w := by
  refine ⟨fun hp => hca _ rfl (h.absent hp),fun hp => ?_,fun hp p hmem => ?_⟩
  · rw [hcn _ rfl]
    exact h.frame hp
  rw [hcn _ rfl]
  exact h.staged hp p hmem

structure Change (s : State) (q : Key) (s' : State) : Prop where
  cache : ∀ k, k ≠ q → s'.cache k = s.cache k
  content : ∀ k, k ≠ q → s'.content k = s.content k
  backing : ∀ k, k ≠ q → s'.backing k = s.backing k
  flights : ∀ f ∈ s'.flights, f.key ≠ q → f ∈ s.flights
  size : ∀ j, (s.inode j).size ≤ (s'.inode j).size
  writer : ∀ j, j ≠ q.ino → s'.writer j = s.writer j
  users : ∀ k, k ≠ q → users s' k = users s k

structure Changed (s : State) (q : Key) : Prop where
  fine : Fine s q
  unused : s.cache q = none → users s q = 0
  counted : ∀ e, s.cache q = some e → e.refcount = users s q
  zero : ∀ o, (s.inode q.ino).size ≤ q.offset + o → s.backing q o = 0
  inside : ∀ f ∈ s.flights, f.key = q → ∀ o < f.size, q.offset + o < (s.inode q.ino).size

lemma Change.like (h : Change s q s') (hk : k ≠ q) : Like s s' k :=
  ⟨by rw [h.cache k hk],h.content k hk,h.backing k hk,fun f hf hfk => h.flights f hf (hfk ▸ hk)⟩

lemma Inv.change (h : Inv s) (hc : Change s q s') (hq : Changed s' q)
    (hfn : ∀ k, k.ino = q.ino → k ≠ q → Fine s' k)
    (hwr : ∀ w, s'.writer q.ino = some w → WriterOk s' q.ino w) : Inv s' := by
  refine ⟨fun k => ?_,fun k hk => ?_,fun k e he => ?_,fun k o ho => ?_,fun f hf o ho => ?_, fun j w hw => ?_⟩
  · by_cases hkq : k = q
    · exact hkq ▸ hq.fine
    by_cases hi : k.ino = q.ino
    · exact hfn k hi hkq
    exact (hc.like hkq).fine (hc.writer _ hi) (h.fine k)
  · obtain rfl | hkq := eq_or_ne k q
    · exact hq.unused hk
    rw [hc.cache k hkq] at hk
    rw [hc.users k hkq,h.unused k hk]
  · obtain rfl | hkq := eq_or_ne k q
    · exact hq.counted e he
    rw [hc.cache k hkq] at he
    rw [hc.users k hkq,h.counted k e he]
  · obtain rfl | hkq := eq_or_ne k q
    · exact hq.zero o ho
    rw [hc.backing k hkq]
    exact h.zero k o ((hc.size k.ino).trans ho)
  · obtain rfl | hkq := eq_or_ne f.key q
    · exact hq.inside f hf rfl o ho
    exact (h.inside f (hc.flights f hf hkq) o ho).trans_le (hc.size f.key.ino)
  · obtain rfl | hj := eq_or_ne j q.ino
    · exact hwr w hw
    rw [hc.writer j hj] at hw
    have hne : ∀ k : Key, k.ino = j → k ≠ q := by
      rintro k rfl rfl
      exact hj rfl
    refine (h.writers j w hw).congr (fun k hk hnone => ?_) fun k hk => hc.content k (hne k hk)
    rwa [hc.cache k (hne k hk)]

lemma Inv.changeEntry (h : Inv s) (hc : Change s q s') (hq : Changed s' q) (hwr : s'.writer = s.writer)
    (hcn : s'.content = s.content) (hgo : s.cache q = none → s'.cache q = none) : Inv s' := by
  refine h.change hc hq (fun k _ hk => (hc.like hk).fine (by rw [hwr]) (h.fine k)) fun w hw => ?_
  rw [hwr] at hw
  refine (h.writers _ w hw).congr (fun k _ hnone => ?_) fun k _ => by rw [hcn]
  obtain rfl | hk := eq_or_ne k q
  · exact hgo hnone
  rwa [hc.cache k hk]

def State.touch (s : State) (k : Key) (e : Entry) (l : List Flight) : State :=
  { s with cache := update s.cache k (some e), flights := l }

@[simp] lemma touch_cache : (s.touch k e l).cache k = some e := update_self _ _ _

lemma Inv.touch (h : Inv s) (hc : s.cache k = some e) (hot : ∀ g ∈ l, g.key ≠ k → g ∈ s.flights)
    (hct : ∀ k', k' ≠ k → l.countP (·.key = k') = s.flights.countP (·.key = k'))
    (hre : e'.refcount + s.flights.countP (·.key = k) = e.refcount + l.countP (·.key = k))
    (hins : ∀ g ∈ l, g.key = k → ∀ o < g.size, k.offset + o < (s.inode k.ino).size)
    (hfn : Fine (s.touch k e' l) k) : Inv (s.touch k e' l) := by
  have hcg : Change s k (s.touch k e' l) :=
    { cache := fun k' hk => update_of_ne hk ..
      content := fun _ _ => rfl
      backing := fun _ _ => rfl
      flights := hot
      size := fun _ => le_rfl
      writer := fun _ _ => rfl
      users := fun k' hk => congrArg (pin s k' + ·) (hct k' hk) }
  refine h.changeEntry hcg ⟨hfn,fun hnone => ?_,fun e1 he1 => ?_,h.zero k,hins⟩ rfl rfl
    fun hnone => ?_
  · cases touch_cache.symm.trans hnone
  · cases touch_cache.symm.trans he1
    have hctd := h.counted k e hc
    rw [users] at hctd
    change e'.refcount = pin s k + l.countP _
    omega
  cases hc.symm.trans hnone

lemma Inv.promote (h : Inv s) (hc : s.cache k = some e) :
    Inv (s.onEntry k fun e => { e with referenced := false }) := by
  rw [onEntry_of_some hc]
  refine h.touch hc (fun g hg _ => hg) (fun _ _ => rfl) rfl (fun g hg hk => hk ▸ h.inside g hg) ?_
  have hlk : Like s (s.touch k { e with referenced := false } s.flights) k :=
    ⟨by rw [touch_cache,hc]; rfl,rfl,rfl,fun g hg _ => hg⟩
  exact hlk.fine rfl (h.fine k)

lemma lt_writebackSize (ho : o < pageSize) :
    o < writebackSize s k ↔ k.offset + o < (s.inode k.ino).size := by
  unfold writebackSize
  split
  · split
    · omega
    omega
  omega

lemma writebackSize_le : writebackSize s k ≤ pageSize := by
  unfold writebackSize
  split
  · split
    · omega
    omega
  exact le_rfl

def Event.Safe (s : State) : Event → Prop
  | .write i (.stage index) => ∀ e, s.cache ⟨i,index⟩ = some e → e.dirty = false
  | .write i (.fill alloc ok) =>
    ∀ w, s.writer i = some w → alloc = true → w.chunk < pageSize →
      w.page * pageSize < (s.inode i).size → ok = true
  | .write i .mark =>
    ∀ w, s.writer i = some w → ∀ e, s.cache ⟨i,w.page⟩ = some e →
      ∀ f ∈ s.flights, f.key = ⟨i,w.page⟩ → ∀ o < pageSize,
        e.bytes o ≠ s.backing ⟨i,w.page⟩ o → f.captured = false ∧ o < f.size
  | .start _ k =>
    Unmarked s k ∨ ∀ e, s.cache k = some e → ∀ o < pageSize,
      e.bytes o ≠ s.backing k o → k.offset + o < (s.inode k.ino).size
  | _ => True

lemma Fine.of_dirty (h : Fine s k) (he : s.cache k = some e) (hd : e.dirty = true) :
    Settled s k ∨ Unmarked s k ∧ Copied s k := by
  obtain h | ⟨-,hbn⟩ | h := h
  · exact .inl h
  · exact absurd (hbn.dirty e he) (by simp [hd])
  exact .inr h

lemma Settled.within (h : Settled s k) (he : s.cache k = some e)
    (hsf : ∀ o < pageSize, e.bytes o ≠ s.backing k o → k.offset + o < (s.inode k.ino).size) :
    ∀ o < pageSize, s.content k o ≠ s.backing k o → o < writebackSize s k := by
  intro o ho hne
  rw [lt_writebackSize ho]
  refine hsf o ho ?_
  rwa [h.bytes e he o ho]

lemma Settled.touch (h : Settled s k) (hc : s.cache k = some e) (hby : e'.bytes = e.bytes)
    (hcl : e'.dirty = false → Clean s k) (hl : ∀ g ∈ l, g.key = k → Delivers s g) :
    Settled (s.touch k e' l) k := by
  refine ⟨fun hnone => ?_,fun e1 he1 => ?_,fun e1 he1 hd => ?_,hl⟩
  · cases touch_cache.symm.trans hnone
  · cases touch_cache.symm.trans he1
    rw [hby]
    exact h.bytes e hc
  cases touch_cache.symm.trans he1
  exact hcl hd

lemma Copied.touch (h : Copied s k) (hc : s.cache k = some e) (hby : e'.bytes = e.bytes) :
    Copied (s.touch k e' l) k := by
  intro e1 he1
  cases touch_cache.symm.trans he1
  rw [hby]
  exact h e hc

lemma Inv.writebackStart (h : Inv s) (he : s.cache k = some e) (hd : e.dirty = true)
    (hsf : Unmarked s k ∨ ∀ e, s.cache k = some e → ∀ o < pageSize,
      e.bytes o ≠ s.backing k o → k.offset + o < (s.inode k.ino).size) :
    Inv (writebackStart k s) := by
  have hcas : Unmarked s k ∧ Copied s k ∨
      Settled s k ∧ ∀ o < pageSize, s.content k o ≠ s.backing k o → o < writebackSize s k := by
    rcases (h.fine k).of_dirty he hd with hset | hcp
    · rcases hsf with hun | hsf
      · exact .inl ⟨hun,hset.bytes⟩
      exact .inr ⟨hset,hset.within he (hsf e he)⟩
    exact .inl hcp
  rw [PageCache.writebackStart,onEntry_of_some he,onEntry_of_some he]
  split
  · next hsz =>
    refine h.touch he (fun g hg _ => hg) (fun _ _ => rfl) rfl (fun g hg hk => hk ▸ h.inside g hg) ?_
    rcases hcas with ⟨hun,hcp⟩ | ⟨hset,hwin⟩
    · exact .inr (.inr ⟨hun,hcp.touch he rfl⟩)
    refine .inl (hset.touch he rfl (fun _ o ho => ?_) hset.flights)
    by_contra hne
    have hlt := hwin o ho hne
    omega
  refine h.touch he (fun g hg hk => ?_)
    (fun k' hk' => ?_) ?_ (fun g hg hk => ?_) ?_
  · rcases mem_append.mp hg with hg | hg
    · exact hg
    exact absurd (congrArg Flight.key (mem_singleton.mp hg)) hk
  · simp [countP_append,hk'.symm]
  · simp [countP_append]
    omega
  · rcases mem_append.mp hg with hg | hg
    · exact hk ▸ h.inside g hg
    rw [mem_singleton.mp hg]
    exact fun o ho => (lt_writebackSize (lt_of_lt_of_le ho writebackSize_le)).mp ho
  rcases hcas with ⟨hun,hcp⟩ | ⟨hset,hwin⟩
  · exact .inr (.inr ⟨hun,hcp.touch he rfl⟩)
  refine .inl (hset.touch he rfl (hset.clean e he) fun g hg hk => ?_)
  rcases mem_append.mp hg with hg | hg
  · exact hset.flights g hg hk
  rw [mem_singleton.mp hg]
  exact ⟨fun hc => absurd hc (by simp),fun _ => hwin⟩

variable {f : Flight} {ow o : Option Write} {n index m : Nat} {frame : Bytes}

lemma countP_set_captured (hf : l[j]? = some f) (k : Key) :
    (l.set j { f with captured := true }).countP (·.key = k) = l.countP (·.key = k) := by
  induction l generalizing j with
  | nil => rfl
  | cons _ _ ih =>
    cases j with
    | zero =>
      cases hf
      simp [countP_cons]
    | succ =>
      simp only [set_cons_succ,countP_cons]
      rw [ih hf]

lemma countP_eraseIdx (hf : l[j]? = some f) (k : Key) :
    (l.eraseIdx j).countP (·.key = k) + (if f.key = k then 1 else 0) = l.countP (·.key = k) := by
  induction l generalizing j with
  | nil => cases hf
  | cons _ _ ih =>
    cases j with
    | zero =>
      cases hf
      simp [countP_cons]
    | succ j =>
      have hrs := ih hf
      simp only [eraseIdx_cons_succ,countP_cons]
      omega

lemma Inv.present (h : Inv s) (hf : f ∈ s.flights) : ∃ e, s.cache f.key = some e := by
  cases hc : s.cache f.key with
  | some e => exact ⟨e,rfl⟩
  | none =>
    have hze := h.unused f.key hc
    have hpos : 0 < s.flights.countP (·.key = f.key) := countP_pos_iff.mpr ⟨f,hf,by simp⟩
    rw [users] at hze
    omega

lemma Inv.writebackFinish (h : Inv s) (hf : s.flights[j]? = some f) (hcap : f.captured = true) :
    Inv (writebackFinish j f s) := by
  have hmem := mem_of_getElem? hf
  obtain ⟨e,he⟩ := h.present hmem
  have hct := countP_eraseIdx hf
  have hctd := h.counted f.key e he
  have hse := hct f.key
  rw [if_pos rfl] at hse
  rw [users] at hctd
  have hsub : ∀ g ∈ s.flights.eraseIdx j, g ∈ s.flights := fun g hg => mem_of_mem_eraseIdx hg
  rw [PageCache.writebackFinish,onEntry_of_some he]
  refine h.touch he (fun g hg _ => hsub g hg) (fun k' hk' => ?_) ?_
    (fun g hg hk => hk ▸ h.inside g (hsub g hg)) ?_
  · have hk := hct k'
    rw [if_neg hk'.symm] at hk
    exact hk
  · change e.refcount - 1 + _ = _
    omega
  rcases h.fine f.key with hset | ⟨-,hbn⟩ | ⟨hun,hcp⟩
  · have hcl := (hset.flights f hmem rfl).1 hcap
    exact .inl (hset.touch he rfl (fun _ => hcl) fun g hg hk => hset.flights g (hsub g hg) hk)
  · exact absurd rfl (hbn.flights f hmem)
  exact .inr (.inr ⟨hun,hcp.touch he rfl⟩)

lemma dropPage_cache : (dropPage k s).cache k = none := update_self _ _ _

lemma Inv.drop (h : Inv s) (he : s.cache k = some e) (hre : e.refcount = 0)
    (hd : e.dirty = false) : Inv (dropPage k s) := by
  have hze : users s k = 0 := (h.counted k e he).symm.trans hre
  have hgo : ∀ e', (dropPage k s).cache k ≠ some e' := fun e' he' => by
    cases dropPage_cache.symm.trans he'
  have hcg : Change s k (dropPage k s) :=
    ⟨fun k' hk => update_of_ne hk ..,fun _ _ => rfl,fun _ _ => rfl,fun g hg _ => hg,
      fun _ => le_rfl,fun _ _ => rfl,fun _ _ => rfl⟩
  refine h.changeEntry hcg ⟨?_,fun _ => hze,fun e' he' => absurd he' (hgo e'),h.zero k,
    fun g hg hk => hk ▸ h.inside g hg⟩ rfl rfl fun _ => dropPage_cache
  obtain hset | ⟨hfr,hbn⟩ | ⟨⟨w,hw,hph⟩,-⟩ := h.fine k
  · exact .inl ⟨fun _ => hset.clean e he hd,fun e' he' => absurd he' (hgo e'),
      fun e' he' => absurd he' (hgo e'),hset.flights⟩
  · exact .inr (.inl ⟨hfr,hbn.clean,fun e' he' => absurd he' (hgo e'),hbn.flights⟩)
  have hpin : pin s k = 1 := by
    rw [pin,hw.1]
    simp [hw.2,hph,pins]
  rw [users] at hze
  omega

lemma Inv.writebackCapture (h : Inv s) (hf : s.flights[j]? = some f)
    (hcap : f.captured = false) : Inv (writebackCapture j f s) := by
  have hmem := mem_of_getElem? hf
  obtain ⟨e,he⟩ := h.present hmem
  have hba : ∀ o, (PageCache.writebackCapture j f s).backing f.key o =
      if o < f.size then e.bytes o else s.backing f.key o := by
    intro o
    change update s.backing f.key (writeCb f s) f.key o = _
    rw [update_self,writeCb,he]
  have hfls : ∀ g ∈ (PageCache.writebackCapture j f s).flights,
      g = { f with captured := true } ∨ g ∈ s.flights := fun g hg =>
    (mem_or_eq_of_mem_set hg).symm
  have hct : ∀ k', users (PageCache.writebackCapture j f s) k' = users s k' := fun k' =>
    congrArg (pin s k' + ·) (countP_set_captured hf k')
  have hcg : Change s f.key (PageCache.writebackCapture j f s) := by
    refine ⟨fun _ _ => rfl,fun _ _ => rfl,fun k' hk => update_of_ne hk _ _,fun g hg hk => ?_,
      fun _ => le_rfl,fun _ _ => rfl,fun k' _ => hct k'⟩
    rcases hfls g hg with rfl | hg
    · exact absurd rfl hk
    exact hg
  refine h.changeEntry hcg ⟨?_,fun hnone => ?_,fun e' he' => ?_,fun o ho => ?_,
    fun g hg hk o ho => ?_⟩ rfl rfl id
  · rcases h.fine f.key with hset | ⟨-,hbn⟩ | ⟨hun,hcp⟩
    · have hcl : Clean (PageCache.writebackCapture j f s) f.key := by
        intro o ho
        rw [hba]
        split
        · exact (hset.bytes e he o ho).symm
        next hge =>
        by_contra hne
        exact hge ((hset.flights f hmem rfl).2 hcap o ho hne)
      exact .inl ⟨fun _ => hcl,hset.bytes,fun _ _ _ => hcl,fun g hg hk =>
        ⟨fun _ => hk ▸ hcl,fun _ o ho hne => absurd (by rw [hk]; exact hcl o ho) hne⟩⟩
    · exact absurd rfl (hbn.flights f hmem)
    exact .inr (.inr ⟨hun,hcp⟩)
  · rw [hct]
    exact h.unused f.key hnone
  · rw [hct]
    exact h.counted f.key e' he'
  · rw [hba,if_neg fun hlt => ?_]
    · exact h.zero f.key o ho
    exact absurd (h.inside f hmem o hlt) (not_lt.mpr ho)
  rcases hfls g hg with rfl | hg
  · exact h.inside f hmem o ho
  exact hk ▸ h.inside g hg o ho

lemma pin_of_writer (hw : s.writer i = some w) :
    pin s ⟨i,w.page⟩ = if w.phase.pins then 1 else 0 := by
  rw [pin,hw]
  simp

lemma pin_other (hw : s.writer i = some w) (hwr : s'.writer = update s.writer i ow)
    (hpin : ∀ w', ow = some w' → w'.page = w.page ∨ w'.phase.pins = false) (hk : k ≠ ⟨i,w.page⟩) :
    pin s' k = pin s k := by
  obtain rfl | hi := eq_or_ne k.ino i
  · have hix : w.page ≠ k.index := fun e => hk (by rw [e])
    have hold : pin s k = 0 := by simp [pin,hw,hix]
    rw [hold,pin,hwr,update_self]
    cases ow with
    | none => rfl
    | some w' =>
      obtain hpg | hph := hpin w' rfl
      · simp [hpg,hix]
      simp [hph]
  rw [pin,pin,hwr,update_of_ne hi]

lemma Fine.elsewhere (h : Fine s k) (hw : s.writer k.ino = some w) (hne : w.page ≠ k.index) :
    Settled s k := by
  refine h.settled fun w' hw' => absurd hw'.2 ?_
  cases hw'.1.symm.trans hw
  exact hne

structure Advance (s : State) (i : Nat) (w : Write) (ow : Option Write) (q : Key) (s' : State) :
    Prop where
  owner : q.ino = i
  writer : s'.writer = update s.writer i ow
  flights : s'.flights = s.flights
  backing : s'.backing = s.backing
  size : ∀ j, (s.inode j).size ≤ (s'.inode j).size
  cache : ∀ k, k ≠ q → s'.cache k = s.cache k
  content : ∀ k, k ≠ q → s'.content k = s.content k
  keeps : s'.cache q = none → s.cache q = none
  pins : ∀ w', ow = some w' → w'.page = w.page ∨ w'.phase.pins = false
  same : q ≠ ⟨i,w.page⟩ → pin s' ⟨i,w.page⟩ = pin s ⟨i,w.page⟩

lemma Advance.change (h : Advance s i w ow q s') (hw : s.writer i = some w) : Change s q s' := by
  refine ⟨h.cache,h.content,fun k _ => by rw [h.backing],fun f hf _ => h.flights ▸ hf,h.size,
    fun j hj => ?_,fun k hk => ?_⟩
  · rw [h.writer,update_of_ne (h.owner ▸ hj)]
  rw [users,users,h.flights]
  obtain rfl | hcur := eq_or_ne k ⟨i,w.page⟩
  · rw [h.same hk.symm]
  rw [pin_other hw h.writer h.pins hcur]

lemma Inv.advance (h : Inv s) (hw : s.writer i = some w) (ha : Advance s i w ow q s')
    (hq : Fine s' q) (hcur : Fine s' ⟨i,w.page⟩) (hnone : s'.cache q = none → pin s' q = 0)
    (hre : ∀ e, s'.cache q = some e → e.refcount = users s' q)
    (hok : ∀ w', ow = some w' → WriterOk s' i w') : Inv s' := by
  obtain rfl := ha.owner
  refine h.change (ha.change hw) ⟨hq,fun hk => ?_,hre,fun o ho => ?_,fun f hf hk o ho => ?_⟩
    (fun k hk hkq => ?_) fun w' hw' => ?_
  · have hold := h.unused q (ha.keeps hk)
    have hze := hnone hk
    rw [users] at hold ⊢
    rw [ha.flights]
    omega
  · rw [ha.backing]
    exact h.zero q o ((ha.size q.ino).trans ho)
  · rw [ha.flights] at hf
    subst hk
    exact (h.inside f hf o ho).trans_le (ha.size f.key.ino)
  · by_cases hkc : k = ⟨q.ino,w.page⟩
    · exact hkc ▸ hcur
    rw [← hk] at hw hkc
    exact .inl (((ha.change (hk ▸ hw)).like hkq).settled ((h.fine k).elsewhere hw fun e => hkc (by rw [e])))
  rw [ha.writer,update_self] at hw'
  exact hok w' hw'

lemma WriterOk.of_phase (h : w.phase ≠ .missed ∧ w.phase ≠ .filled ∧ w.phase ≠ .refused) : WriterOk s i w :=
  ⟨fun hp => absurd hp (by simp [h]),fun hp => absurd hp h.2.1,fun hp => absurd hp (by simp [h])⟩

lemma Inv.settled_at (h : Inv s) (hw : s.writer i = some w)
    (hph : w.phase ≠ .relook ∧ w.phase ≠ .pinned ∧ w.phase ≠ .copied) : Settled s ⟨i,w.page⟩ := by
  refine (h.fine ⟨i,w.page⟩).settled fun w' hw' => ?_
  cases hw'.1.symm.trans hw
  exact hph

lemma pin_of_update (hwr : s'.writer = update s.writer i o) (hk : k.ino = i)
    (hnew : ∀ w', o = some w' → w'.phase.pins = false) : pin s' k = 0 := by
  rw [pin,hwr,hk,update_self]
  cases o with
  | none => rfl
  | some w' => simp [hnew w' rfl]

section

variable (h : Inv s)

include h

section

variable (hw : s.writer i = some w) (hset : Settled s ⟨i,w.page⟩) (hph : w.phase.pins = false)

include hw hset hph

lemma Inv.quiet (hnew : ∀ w', o = some w' → w'.phase.pins = false)
    (hwr : s'.writer = update s.writer i o) (hca : s'.cache = s.cache)
    (hcn : s'.content = s.content) (hbac : s'.backing = s.backing)
    (hfls : s'.flights = s.flights) (hsz : ∀ j, (s.inode j).size ≤ (s'.inode j).size)
    (hok : ∀ w', o = some w' → WriterOk s' i w') : Inv s' := by
  have hlk : Like s s' ⟨i,w.page⟩ :=
    ⟨by rw [hca],by rw [hcn],by rw [hbac],by rw [hfls]; exact fun _ hf _ => hf⟩
  have hpin : pin s' ⟨i,w.page⟩ = 0 := pin_of_update hwr rfl hnew
  have hold : pin s ⟨i,w.page⟩ = 0 := by simp [pin_of_writer hw,hph]
  have hadv : Advance s i w o ⟨i,w.page⟩ s' :=
    { owner := rfl
      writer := hwr
      flights := hfls
      backing := hbac
      size := hsz
      cache := fun k _ => by rw [hca]
      content := fun k _ => by rw [hcn]
      keeps := fun hnone => by rwa [hca] at hnone
      pins := fun w' hw' => .inr (hnew w' hw')
      same := fun hne => absurd rfl hne }
  refine h.advance hw hadv (.inl (hlk.settled hset)) (.inl (hlk.settled hset))
    (fun _ => hpin) (fun e he => ?_) hok
  rw [hca] at he
  have hctd := h.counted _ e he
  rw [users,hold] at hctd
  rw [users,hpin,hfls]
  exact hctd

lemma Inv.rewrite (hnew : w'.phase.pins = false) (hok : WriterOk s i w') : Inv (s.setWriter i w') := by
  refine h.quiet hw hset hph (fun w1 hw1 => ?_) rfl rfl rfl rfl rfl (fun _ => le_rfl)
    fun w1 hw1 => ?_
  · cases hw1
    exact hnew
  cases hw1
  exact { hok with }

end

lemma Inv.lock (hw : s.writer i = none) (hph : w.phase = .look ∨ w.phase = .closing) :
    Inv (s.setWriter i w) := by
  have hpi := pins_of_or hph rfl rfl
  have hpin : ∀ k, pin (s.setWriter i w) k = pin s k := by
    intro k
    by_cases hk : k.ino = i
    · have hold : pin s k = 0 := by simp [pin,hk,hw]
      rw [hold]
      refine pin_of_update rfl hk fun w' hw' => ?_
      cases hw'
      exact hpi
    have hsa : (s.setWriter i w).writer k.ino = s.writer k.ino := update_of_ne hk ..
    rw [pin,pin,hsa]
  have hlk : ∀ k, Like s (s.setWriter i w) k := fun k => ⟨rfl,rfl,rfl,fun _ hf _ => hf⟩
  refine ⟨fun k => ?_,fun k hk => ?_,fun k e he => ?_,h.zero,h.inside,fun j w' hw' => ?_⟩
  · by_cases hk : k.ino = i
    · refine .inl ((hlk k).settled ((h.fine k).settled fun w' hw' => ?_))
      exact absurd (hw'.1.symm.trans (hk ▸ hw)) (by simp)
    exact (hlk k).fine (update_of_ne hk ..) (h.fine k)
  · rw [users,hpin]
    exact h.unused k hk
  · rw [users,hpin]
    exact h.counted k e he
  obtain rfl | hj := eq_or_ne j i
  · have heq : (s.setWriter j w).writer j = some w := update_self ..
    cases heq.symm.trans hw'
    refine WriterOk.of_phase ?_
    obtain hp | hp := hph
    · simp [hp]
    simp [hp]
  have heq : (s.setWriter i w).writer j = s.writer j := update_of_ne hj ..
  exact (h.writers j w' (heq.symm.trans hw')).congr (fun _ _ hnone => hnone) fun _ _ => rfl

lemma Inv.reads (o : Nat) : readCb s k o = s.backing k o := by
  rw [readCb]
  split
  · rfl
  next hge => exact (h.zero _ o (not_lt.mp hge)).symm

section

variable (hw : s.writer i = some w)

include hw

lemma Inv.stage (hph : w.phase = .missed ∨ w.phase = .refused)
    (hix : w.page < index) (hsf : ∀ e, s.cache ⟨i,index⟩ = some e → e.dirty = false) :
    Inv (s.setWriter i { w with staged := w.staged ++ [(index, readCb s ⟨i,index⟩)] }) := by
  have hok := h.writers i w hw
  have hset : Settled s ⟨i,index⟩ := (h.fine ⟨i,index⟩).elsewhere hw hix.ne
  have hcl : Clean s ⟨i,index⟩ := by
    cases hc : s.cache ⟨i,index⟩ with
    | none => exact hset.absent hc
    | some e => exact hset.clean e hc (hsf e hc)
  have hra : Same (readCb s ⟨i,index⟩) (s.content ⟨i,index⟩) := by
    intro o ho
    rw [hcl o ho,h.reads]
  have hpi := pins_of_or hph rfl rfl
  refine h.rewrite hw (h.settled_at hw ?_) hpi hpi ⟨hok.absent,hok.frame,fun hp p hmem => ?_⟩
  · obtain hp | hp := hph
    · simp [hp]
    simp [hp]
  obtain hmem | hmem := mem_append.mp hmem
  · exact hok.staged hp p hmem
  rw [mem_singleton.mp hmem]
  exact ⟨hix,hra⟩

lemma Inv.fill (hph : w.phase = .missed) {alloc ok : Bool}
    (hsf : alloc = true → w.chunk < pageSize → w.page * pageSize < (s.inode i).size → ok = true) :
    Inv (fillStep i w alloc ok s) := by
  have hset := h.settled_at hw (by simp [hph])
  have hnone := (h.writers i w hw).absent (.inl hph)
  have hcl := hset.absent hnone
  have hchunk : w.chunk ≤ pageSize := (min_le_left _ _).trans tsub_le_self
  have hpi : w.phase.pins = false := by simp [hph,pins]
  unfold fillStep
  split_ifs with hal
  · refine h.rewrite hw hset hpi rfl ⟨fun _ => hnone,fun _ => ?_,fun hp => absurd hp (by simp)⟩
    by_cases hfu : w.chunk = pageSize
    · exact .inl hfu
    refine .inr fun o ho => ?_
    change fillFrame w ok ⟨i,w.page⟩ s o = s.content ⟨i,w.page⟩ o
    rw [hcl o ho,fillFrame]
    split_ifs with hsk
    · rw [h.reads]
    refine (h.zero _ o (le_trans ?_ le_self_add)).symm
    by_contra hlt
    have hin : w.page * pageSize < (s.inode i).size := not_le.mp hlt
    have hpt : w.chunk < pageSize := hchunk.lt_of_ne hfu
    exact hsk ⟨hpt,hin,hsf hal hpt hin⟩
  exact h.rewrite hw hset hpi rfl (WriterOk.of_phase (by simp))

lemma Inv.unlock
    (hph : w.phase = .closing ∨ w.phase = .refused) : Inv (unlockStep i w s) := by
  refine h.quiet (o := none) hw (h.settled_at hw ?_) ?_ nofun rfl rfl rfl rfl
    rfl (fun j => ?_) nofun
  · obtain hp | hp := hph
    · simp [hp]
    simp [hp]
  · obtain hp | hp := hph
    · simp [hp,pins]
    simp [hp,pins]
  obtain rfl | hj := eq_or_ne j i
  · change _ ≤ (update s.inode j _ j).size
    rw [update_self]
    exact le_max_left ..
  change _ ≤ (update s.inode i _ j).size
  exact le_of_eq (by rw [update_of_ne hj])

end

end

lemma Fine.at_writer (h : Fine s ⟨i,w.page⟩) (hw : s.writer i = some w) :
    Settled s ⟨i,w.page⟩ ∨
      (w.phase = .relook ∨ w.phase = .pinned) ∧ w.chunk = pageSize ∧ Blank s ⟨i,w.page⟩ ∨
      w.phase = .copied ∧ Copied s ⟨i,w.page⟩ := by
  obtain h | ⟨⟨w',hw',hph,hfu⟩,hbn⟩ | ⟨⟨w',hw',hph⟩,hcp⟩ := h
  · exact .inl h
  · cases hw'.1.symm.trans hw
    exact .inr (.inl ⟨hph,hfu,hbn⟩)
  cases hw'.1.symm.trans hw
  exact .inr (.inr ⟨hph,hcp⟩)

def State.place (s : State) (q : Key) (e : Entry) (c : Key → Bytes) (i : Nat) (w : Write) : State :=
  { s with
    cache := update s.cache q (some e)
    content := c
    writer := update s.writer i (some w) }

variable {c : Key → Bytes}

lemma place_cache : (s.place q e c i w).cache q = some e := update_self _ _ _

lemma place_writer : (s.place q e c i w).writer i = some w := update_self _ _ _

lemma place_pinned (hpg : w.page = n) (hpi : w.phase.pins = true) :
    pin (s.place q e c i w) ⟨i,n⟩ = 1 := by
  rw [pin,place_writer]
  exact if_pos ⟨hpg,hpi⟩

lemma place_loose (hpi : w.phase.pins = false) : pin (s.place q e c i w) ⟨i,n⟩ = 0 := by
  rw [pin,place_writer]
  simp [hpi]

section

variable (h : Inv s) (hw : s.writer i = some w)

include h hw

lemma Inv.place (hq : q.ino = i)
    (hcn : ∀ k, k ≠ q → c k = s.content k) (hpg : w'.page = w.page ∨ w'.phase.pins = false)
    (hsa : q ≠ ⟨i,w.page⟩ → pin (s.place q e c i w') ⟨i,w.page⟩ = pin s ⟨i,w.page⟩)
    (hre : e.refcount = users (s.place q e c i w') q) (hfn : Fine (s.place q e c i w') q)
    (hcur : Fine (s.place q e c i w') ⟨i,w.page⟩) (hok : WriterOk (s.place q e c i w') i w') :
    Inv (s.place q e c i w') := by
  have hadv : Advance s i w (some w') q (s.place q e c i w') :=
    { owner := hq
      writer := rfl
      flights := rfl
      backing := rfl
      size := fun _ => le_rfl
      cache := fun k hk => update_of_ne hk ..
      content := hcn
      keeps := fun hnone => absurd (place_cache.symm.trans hnone) (by simp)
      pins := fun w1 hw1 => Option.some.inj hw1 ▸ hpg
      same := hsa }
  refine h.advance hw hadv hfn hcur (fun hnone => ?_) (fun e1 he1 => ?_) fun w1 hw1 => ?_
  · cases place_cache.symm.trans hnone
  · cases place_cache.symm.trans he1
    exact hre
  cases hw1
  exact hok

lemma Inv.edit (hc : s.cache ⟨i,w.page⟩ = some e)
    (hcn : ∀ k, k ≠ ⟨i,w.page⟩ → c k = s.content k) (hpg : w'.page = w.page ∨ w'.phase.pins = false)
    (hold : pin s ⟨i,w.page⟩ = m) (hnew : pin (s.place ⟨i,w.page⟩ e' c i w') ⟨i,w.page⟩ = n)
    (hre : e'.refcount + m = e.refcount + n)
    (hph : w'.phase ≠ .missed ∧ w'.phase ≠ .filled ∧ w'.phase ≠ .refused)
    (hfn : Fine (s.place ⟨i,w.page⟩ e' c i w') ⟨i,w.page⟩) : Inv (s.place ⟨i,w.page⟩ e' c i w') := by
  refine h.place hw rfl hcn hpg (absurd rfl) ?_ hfn hfn (WriterOk.of_phase hph)
  have hctd := h.counted _ e hc
  rw [users] at hctd ⊢
  change _ = _ + s.flights.countP _
  omega

lemma Inv.lookup (hph : w.phase = .look ∨ w.phase = .relook) : Inv (lookupStep i w s) := by
  have hpi := pins_of_or hph rfl rfl
  have hncp : w.phase ≠ .copied := by
    obtain hp | hp := hph
    · simp [hp]
    simp [hp]
  unfold lookupStep pageCacheGetPage
  cases hc : s.cache ⟨i,w.page⟩ with
  | none =>
    have hset : Settled s ⟨i,w.page⟩ := by
      obtain hset | ⟨-,-,hbn⟩ | ⟨hp,-⟩ := (h.fine ⟨i,w.page⟩).at_writer hw
      · exact hset
      · exact ⟨fun _ => hbn.clean,fun e he => absurd (hc.symm.trans he) (by simp),
          fun e he => absurd (hc.symm.trans he) (by simp), fun f hf hk => absurd hk (hbn.flights f hf)⟩
      cases hncp hp
    have hnew : (lookupMissed w.phase).pins = false := by
      obtain hp | hp := hph
      · simp [hp,lookupMissed,pins]
      simp [hp,lookupMissed,pins]
    refine h.rewrite hw hset hpi hnew ⟨fun _ => hc,fun hp => absurd hp ?_,fun _ p hmem => ?_⟩
    · obtain hq | hq := hph
      · simp [hq,lookupMissed]
      simp [hq,lookupMissed]
    cases hmem
  | some e =>
    have hold : pin s ⟨i,w.page⟩ = 0 := by simp [pin_of_writer hw,hpi]
    let w1 : Write := { w with phase := .pinned, staged := [] }
    let e1 : Entry := { e with refcount := e.refcount + 1, referenced := true }
    have hlk : Like s (s.place ⟨i,w.page⟩ e1 s.content i w1) ⟨i,w.page⟩ :=
      ⟨by rw [place_cache,hc]; rfl,rfl,rfl,fun _ hf _ => hf⟩
    refine h.edit hw hc (fun _ _ => rfl) (.inl rfl) hold (place_pinned rfl rfl) rfl (by simp) ?_
    obtain hset | ⟨-,hfu,hbn⟩ | ⟨hp,-⟩ := (h.fine ⟨i,w.page⟩).at_writer hw
    · exact .inl (hlk.settled hset)
    · exact .inr (.inl ⟨⟨w1,⟨place_writer,rfl⟩,.inr rfl,hfu⟩,hlk.blank hbn⟩)
    cases hncp hp

lemma Inv.pinned_entry (hpi : w.phase.pins = true) :
    ∃ e, s.cache ⟨i,w.page⟩ = some e ∧ pin s ⟨i,w.page⟩ = 1 ∧ 1 ≤ e.refcount := by
  have hpin : pin s ⟨i,w.page⟩ = 1 := by simp [pin_of_writer hw,hpi]
  cases hc : s.cache ⟨i,w.page⟩ with
  | none =>
    have hze := h.unused _ hc
    rw [users] at hze
    omega
  | some e =>
    have hctd := h.counted _ e hc
    rw [users] at hctd
    exact ⟨e,rfl,hpin,by omega⟩

end

lemma Write.copyInto_same {a b : Bytes} (h : Same a b ∨ w.chunk = pageSize) :
    Same (w.copyInto a) (w.copyInto b) := by
  intro o ho
  unfold Write.copyInto
  split_ifs with hout
  · rfl
  obtain h | hfu := h
  · exact h o ho
  have hle : w.chunk ≤ pageSize - w.start := min_le_left ..
  exact absurd ⟨by omega,by omega⟩ hout

section

variable (h : Inv s) (hw : s.writer i = some w)

include h hw

lemma Inv.copy (hph : w.phase = .pinned) : Inv (copyStep i w s) := by
  obtain ⟨e,hc,hold,-⟩ := h.pinned_entry hw (by rw [hph]; rfl)
  rw [copyStep,onEntry_of_some hc]
  refine h.edit hw hc (fun k hk => update_of_ne hk ..) (.inl rfl)
    hold (place_pinned rfl rfl) rfl (by simp)
    (.inr (.inr ⟨⟨_,⟨place_writer,rfl⟩,rfl⟩,fun e1 he1 => ?_⟩))
  cases place_cache.symm.trans he1
  change Same _ (update s.content _ _ _)
  rw [update_self]
  refine Write.copyInto_same ?_
  obtain hset | ⟨-,hfu,-⟩ | ⟨hp,-⟩ := (h.fine ⟨i,w.page⟩).at_writer hw
  · exact .inl (hset.bytes e hc)
  · exact .inr hfu
  exact absurd hp (by simp [hph])

lemma Inv.mark (hph : w.phase = .copied)
    (hsf : ∀ e, s.cache ⟨i,w.page⟩ = some e → ∀ f ∈ s.flights, f.key = ⟨i,w.page⟩ →
      ∀ o < pageSize, e.bytes o ≠ s.backing ⟨i,w.page⟩ o → f.captured = false ∧ o < f.size) :
    Inv ((pageCacheMarkDirty ⟨i,w.page⟩ s).setWriter i { w with phase := .marked }) := by
  obtain ⟨e,hc,hold,-⟩ := h.pinned_entry hw (by rw [hph]; rfl)
  have hby : Same e.bytes (s.content ⟨i,w.page⟩) := by
    obtain hset | ⟨hp,-⟩ | ⟨-,hcp⟩ := (h.fine ⟨i,w.page⟩).at_writer hw
    · exact hset.bytes e hc
    · exact absurd hp (by simp [hph])
    exact hcp e hc
  rw [pageCacheMarkDirty,onEntry_of_some hc]
  refine h.edit hw hc (fun _ _ => rfl) (.inl rfl) hold (place_pinned rfl rfl) rfl
    (by simp) (.inl ⟨fun hnone => ?_,fun e1 he1 => ?_,fun e1 he1 hd => ?_,fun f hf hk => ?_⟩)
  · cases place_cache.symm.trans hnone
  · cases place_cache.symm.trans he1
    exact hby
  · cases place_cache.symm.trans he1
    cases hd
  have hcv := hsf e hc f hf hk
  rw [Delivers,hk]
  refine ⟨fun hcap o ho => ?_,fun hcap o ho hne => ?_⟩
  · by_contra hne
    have hlate := (hcv o ho (by rwa [hby o ho])).1
    rw [hcap] at hlate
    cases hlate
  exact (hcv o ho (by rwa [hby o ho])).2

lemma Inv.put (hph : w.phase = .marked) :
    Inv ((pageCachePutPage ⟨i,w.page⟩ s).setWriter i (nextChunk w)) := by
  obtain ⟨e,hc,hold,hpos⟩ := h.pinned_entry hw (by rw [hph]; rfl)
  have hnx : (nextChunk w).phase = .look ∨ (nextChunk w).phase = .closing := by
    unfold nextChunk
    split
    · exact .inl rfl
    exact .inr rfl
  have hpi : (nextChunk w).phase.pins = false := by
    obtain hp | hp := hnx
    · simp [hp,pins]
    simp [hp,pins]
  let e1 : Entry := { e with refcount := e.refcount - 1 }
  have hlk : Like s (s.place ⟨i,w.page⟩ e1 s.content i (nextChunk w)) ⟨i,w.page⟩ :=
    ⟨by rw [place_cache,hc]; rfl,rfl,rfl,fun _ hf _ => hf⟩
  rw [pageCachePutPage,onEntry_of_some hc]
  refine h.edit hw hc (fun _ _ => rfl) (.inr hpi) hold (place_loose hpi)
    (Nat.sub_add_cancel hpos) ?_ (.inl (hlk.settled (h.settled_at hw (by simp [hph]))))
  obtain hp | hp := hnx
  · simp [hp]
  simp [hp]

end

lemma addPage_cases (frame : Bytes) (kmalloc : Bool) :
    pageCacheAddPage k frame kmalloc s = s ∨
      s.cache k = none ∧ pageCacheAddPage k frame kmalloc s = s.setEntry k ⟨frame,false,false,0⟩ := by
  unfold pageCacheAddPage
  split
  · next hadd => exact .inr ⟨hadd.2,rfl⟩
  exact .inl rfl

lemma Inv.no_flights (h : Inv s) (hc : s.cache k = none) : ∀ f ∈ s.flights, f.key ≠ k := by
  rintro f hf rfl
  obtain ⟨e,he⟩ := h.present hf
  rw [hc] at he
  cases he

def newEntry (frame : Bytes) : Entry := ⟨frame,false,false,0⟩

lemma Settled.added (h : Settled s q) (hc : s.cache q = none) (hno : ∀ f ∈ s.flights, f.key ≠ q)
    (hfm : Same frame (s.content q)) : Settled (s.place q (newEntry frame) s.content i w) q := by
  refine ⟨fun _ => h.absent hc,fun e he => ?_,fun _ _ _ => h.absent hc,fun f hf hk => ?_⟩
  · cases place_cache.symm.trans he
    exact hfm
  cases hno f hf hk

lemma Inv.refs_added (h : Inv s) (hc : s.cache q = none)
    (hpin : pin (s.place q (newEntry frame) c i w) q = 0) :
    (newEntry frame).refcount = users (s.place q (newEntry frame) c i w) q := by
  have hze := h.unused q hc
  rw [users] at hze ⊢
  rw [hpin]
  change 0 = 0 + s.flights.countP _
  omega

section

variable (h : Inv s) (hw : s.writer i = some w)

include h hw

lemma Inv.install (hph : w.phase = .missed ∨ w.phase = .refused) (alloc : Bool) :
    Inv (installStep i w alloc s) := by
  have hok := h.writers i w hw
  have hpi := pins_of_or hph rfl rfl
  have hset : Settled s ⟨i,w.page⟩ := h.settled_at hw (by
    obtain hp | hp := hph
    · simp [hp]
    simp [hp])
  unfold installStep
  split
  · exact h
  next index b rest hstg =>
  obtain ⟨hlt,hsa⟩ := hok.staged hph (index, b) (by rw [hstg]; exact .head _)
  let w1 : Write := { w with staged := rest }
  have hrs : WriterOk s i w1 := by
    refine ⟨hok.absent,hok.frame,fun hp p hmem => hok.staged hp p ?_⟩
    rw [hstg]
    exact .tail _ hmem
  obtain heq | ⟨hc,heq⟩ := addPage_cases b alloc
  · rw [heq]
    exact h.rewrite hw hset hpi hpi hrs
  rw [heq]
  have hne : (⟨i,w.page⟩ : Key) ≠ ⟨i,index⟩ := fun heq =>
    absurd (congrArg Key.index heq) hlt.ne
  have hcur : (s.place ⟨i,index⟩ (newEntry b) s.content i w1).cache ⟨i,w.page⟩ =
      s.cache ⟨i,w.page⟩ := update_of_ne hne ..
  have hlk : Like s (s.place ⟨i,index⟩ (newEntry b) s.content i w1) ⟨i,w.page⟩ :=
    ⟨by rw [hcur],rfl,rfl,fun _ hf _ => hf⟩
  refine h.place hw rfl (fun _ _ => rfl) (.inl rfl) (fun _ => ?_)
    (h.refs_added hc (place_loose hpi)) (.inl ?_) (.inl (hlk.settled hset))
    ⟨fun hp => hcur.trans (hrs.absent hp),hrs.frame,hrs.staged⟩
  · have hpins1 : w1.phase.pins = false := hpi
    rw [place_loose hpins1,pin_of_writer hw,hpi]
    rfl
  exact ((h.fine _).elsewhere hw hlt.ne).added hc (h.no_flights hc) hsa

lemma Inv.add (hph : w.phase = .filled)
    (kmalloc : Bool) : Inv ((pageCacheAddPage ⟨i,w.page⟩ w.frame kmalloc s).setWriter i
      { w with phase := .relook }) := by
  have hset := h.settled_at hw (by simp [hph])
  let w1 : Write := { w with phase := .relook }
  have hloo : ∀ {t : State}, WriterOk t i w1 := WriterOk.of_phase (by simp [w1])
  obtain heq | ⟨hc,heq⟩ := addPage_cases w.frame kmalloc
  · rw [heq]
    exact h.rewrite hw hset (by rw [hph]; rfl) rfl hloo
  rw [heq]
  have hno := h.no_flights hc
  have hfn : Fine (s.place ⟨i,w.page⟩ (newEntry w.frame) s.content i w1) ⟨i,w.page⟩ := by
    obtain hfu | hsa := (h.writers i w hw).frame hph
    · refine .inr (.inl ⟨⟨w1,⟨place_writer,rfl⟩,.inl rfl,hfu⟩,hset.absent hc,fun e he => ?_,hno⟩)
      cases place_cache.symm.trans he
      rfl
    exact .inl (hset.added hc hno hsa)
  exact h.place hw rfl (fun _ _ => rfl) (.inl rfl) (absurd rfl)
    (h.refs_added hc (place_loose rfl)) hfn hfn hloo

attribute [simp] Action.ready

lemma Inv.write {a : Action} (hrd : a.ready s i w = true)
    (hsf : (Event.write i a).Safe s) : Inv (writeStep i w s a) := by
  cases a with
  | lookup => exact h.lookup hw (by simpa using hrd)
  | stage =>
    simp only [Action.ready,and_eq_true,or_eq_true,beq_iff_eq,decide_eq_true_eq] at hrd
    exact h.stage hw hrd.1.1 hrd.1.2 hsf
  | install alloc => exact h.install hw (by simpa using hrd) alloc
  | fill => exact h.fill hw (by simpa using hrd) (hsf w hw)
  | add kmalloc => exact h.add hw (by simpa using hrd) kmalloc
  | copy => exact h.copy hw (by simpa using hrd)
  | mark => exact h.mark hw (by simpa using hrd) (hsf w hw)
  | put => exact h.put hw (by simpa using hrd)
  | unlock => exact h.unlock hw (by simpa using hrd)

end

lemma Inv.step (h : Inv s) {e : Event} (he : e.enabled s = true) (hsf : e.Safe s) : Inv (step s e) := by
  cases e with
  | lock =>
    simp only [Event.enabled,and_eq_true,isNone_iff_eq_none] at he
    refine h.lock he.1 ?_
    split
    · exact .inr rfl
    exact .inl rfl
  | write i a =>
    obtain ⟨w,hw,hrd⟩ := (any_eq_true _ _).mp he
    have hstep : PageCache.step s (.write i a) = writeStep i w s a := by simp [PageCache.step,hw]
    rw [hstep]
    exact h.write hw hrd hsf
  | promote =>
    obtain ⟨e,hc,-⟩ := (any_eq_true _ _).mp he
    exact h.promote hc
  | start =>
    obtain ⟨e,hc,hwb⟩ := (any_eq_true _ _).mp he
    simp only [writable,and_eq_true] at hwb
    exact h.writebackStart hc hwb.1.1.1 hsf
  | capture j =>
    obtain ⟨f,hf,hcap⟩ := (any_eq_true _ _).mp he
    have hstep : PageCache.step s (.capture j) = PageCache.writebackCapture j f s := by
      simp [PageCache.step,hf]
    rw [hstep]
    exact h.writebackCapture hf (by simpa using hcap)
  | finish j =>
    obtain ⟨f,hf,hcap⟩ := (any_eq_true _ _).mp he
    have hstep : PageCache.step s (.finish j) = PageCache.writebackFinish j f s := by
      simp [PageCache.step,hf]
    rw [hstep]
    exact h.writebackFinish hf hcap
  | drop =>
    obtain ⟨e,hc,hdp⟩ := (any_eq_true _ _).mp he
    simp only [droppable,and_eq_true,beq_iff_eq,not_eq_true'] at hdp
    exact h.drop hc hdp.1.1 hdp.1.2

lemma inv_of_initial (h : s.Initial) : Inv s := by
  refine ⟨fun k => .inl ⟨fun _ o _ => ?_,fun e he => ?_,fun e he => ?_,fun f hf => ?_⟩,
    fun k _ => ?_,fun k e he => ?_,h.zero,fun f hf => ?_,fun i w hw => ?_⟩
  · rw [h.content]
  · exact absurd ((h.cache k).symm.trans he) (by simp)
  · exact absurd ((h.cache k).symm.trans he) (by simp)
  · exact absurd hf (by simp [h.flights])
  · simp [users,pin,h.writer,h.flights]
  · exact absurd ((h.cache k).symm.trans he) (by simp)
  · exact absurd hf (by simp [h.flights])
  · exact absurd ((h.writer i).symm.trans hw) (by simp)

def SafeRun (s : State) : Prop :=
  Reach State.Initial (guarded (fun s e => Event.Safe s e) Stepped) s

lemma SafeRun.inv (hs : SafeRun s) : Inv s := by
  refine Reach.invariant (P := Inv) (fun _ => inv_of_initial) (fun s e t h hstep => ?_) hs
  obtain ⟨hsf,hen,rfl⟩ := hstep
  exact h.step hen hsf

def Kept (s : State) : Prop :=
  ∀ k o, s.writer k.ino = none → o < pageSize → k.offset + o < (s.inode k.ino).size →
    s.content k o ≠ s.backing k o →
      ∃ e, s.cache k = some e ∧ e.dirty = true ∧ e.bytes o = s.content k o

theorem cached_writes_kept (hs : SafeRun s) : Kept s := by
  intro k o hid ho _ hne
  have hset : Settled s k := (hs.inv.fine k).settled fun w hw =>
    absurd (hid.symm.trans hw.1) (by simp)
  cases hc : s.cache k with
  | none => cases hne (hset.absent hc o ho)
  | some e =>
    refine ⟨e,rfl,?_,hset.bytes e hc o ho⟩
    by_contra hcl
    exact hne (hset.clean e hc (by simpa using hcl) o ho)

def emptyCache : State where
  cache _ := none
  inode _ := ⟨0,true,false⟩
  backing _ _ := 0
  content _ _ := 0
  writer _ := none
  flights := []

def firstWrite : List Event :=
  [.lock 1 0 [7],.write 1 .lookup,.write 1 (.fill true true),.write 1 (.add true),
    .write 1 .lookup,.write 1 .copy,.write 1 .mark,.write 1 .put,.write 1 .unlock]

def written : State := firstWrite.foldl step emptyCache

lemma written_safe : SafeRun written := by
  refine Reach.along (fun s e => e.Safe s ∧ e.enabled s = true) (fun s e h => ⟨h.1,h.2,rfl⟩)
    (.start ⟨fun _ => rfl,fun _ => rfl,rfl,fun _ => rfl,fun _ _ _ => rfl⟩) ?_
  refine ⟨⟨trivial,by decide +kernel⟩,⟨trivial,by decide +kernel⟩,
    ⟨fun _ _ _ _ _ => rfl,by decide +kernel⟩,⟨trivial,by decide +kernel⟩,
    ⟨trivial,by decide +kernel⟩,⟨trivial,by decide +kernel⟩,
    ⟨fun _ _ _ _ f hf => ?_,by decide +kernel⟩,⟨trivial,by decide +kernel⟩,
    ⟨trivial,by decide +kernel⟩,trivial⟩
  cases hf

theorem cached_writes_kept_written :
    written.content ⟨1, 0⟩ 0 ≠ written.backing ⟨1, 0⟩ 0 ∧ Kept written :=
  ⟨by decide +kernel,cached_writes_kept written_safe⟩

def rewriteDuringWriteback : List Event :=
  [.promote ⟨1,0⟩,.start .evict ⟨1,0⟩,.capture 0,
    .lock 1 0 [9],.write 1 .lookup,.write 1 .copy,.write 1 .mark,.write 1 .put,.write 1 .unlock,
    .finish 0,.drop .evictClean ⟨1,0⟩]

def reclaimed : State := rewriteDuringWriteback.foldl step written

theorem reclaimed_write_lost : Reach State.Initial Stepped reclaimed ∧
    reclaimed.writer 1 = none ∧ (reclaimed.inode 1).size = 1 ∧
    reclaimed.content ⟨1, 0⟩ 0 = 9 ∧ reclaimed.backing ⟨1, 0⟩ 0 = 7 ∧
    reclaimed.cache ⟨1, 0⟩ = none ∧ ¬Kept reclaimed := by
  have hrch : Reach State.Initial Stepped reclaimed := by
    refine Reach.along (fun s (e : Event) => e.enabled s = true) (fun s e h => ⟨h,rfl⟩)
      written_safe.unguard ?_
    decide +kernel
  have hgo : reclaimed.cache ⟨1,0⟩ = none := rfl
  refine ⟨hrch,rfl,by decide +kernel,by decide +kernel,by decide +kernel,hgo,
    fun hke => ?_⟩
  obtain ⟨e,he,-⟩ := hke ⟨1,0⟩ 0 rfl (by decide) (by decide +kernel) (by decide +kernel)
  cases he

end B1nix.PageCache
