import B1nix.Basic.Transition
import B1nix.Basic.Versions

namespace B1nix.BlockCache

open Function Bool

structure Key where
  dev : Nat
  block : Nat
  deriving DecidableEq

structure Owner where
  fsid : Nat
  ino : Nat
  deriving DecidableEq

structure Slot (β : Type) where
  key : Key
  data : β
  valid : Bool
  busy : Bool
  dirty : Bool
  hashed : Bool
  owner : Owner

structure Device where
  blockCount : Nat
  maxSectors : Nat
  writeZeroes : Bool
  discard : Bool
  partition : Option (Nat × Nat)

structure Config (β : Type) where
  entries : Nat
  mask : UInt64
  device : Nat → Device
  tasks : Nat
  zero : β

structure Cache (β : Type) where
  slot : Nat → Slot β
  chain : Nat → List Nat
  hand : Nat
  cursor : Nat
  flushing : Bool
  gen : Nat → Nat
  medium : Key → β
  history : Key → Versions β

structure Span where
  dev : Nat
  first : Nat
  last : Nat
  deriving DecidableEq

def Span.has (a : Span) (k : Key) : Bool :=
  k.dev == a.dev && decide (a.first ≤ k.block) && decide (k.block < a.last)

def Span.meets (a b : Span) : Bool :=
  a.dev == b.dev && decide (max a.first b.first < min a.last b.last)

structure Flight (β : Type) where
  dev : Nat
  base : Nat
  slots : List Nat
  tmp : Option (List β)
  landed : Bool

structure Read where
  dev : Nat
  next : Nat
  left : Nat
  since : Key → Nat

def Read.key (r : Read) : Key := ⟨r.dev,r.next⟩

def Read.advance (r : Read) : Read := { r with next := r.next + 1, left := r.left - 1 }

structure Write (β : Type) where
  dev : Nat
  next : Nat
  data : List β
  more : Nat

def Write.key {β : Type} (w : Write β) : Key := ⟨w.dev,w.next⟩

inductive Command where
  | writeZeroes
  | discard
  deriving DecidableEq

inductive Scope where
  | matching (span : Span) (owner : Owner)
  | drainAll (second : Bool)
  deriving DecidableEq

structure Sweep where
  scope : Scope
  upto : Nat
  base : Nat
  left : Nat
  set : Option (List Nat)
  seen : Bool
  bounce : Bool

inductive After (β : Type) where
  | read (r : Read) (anchor : Nat)
  | write (w : Write β) (anchor : Nat)
  | ahead (r : Read) (gen next : Nat) (buf : List β) (anchor : Nat)
  | drain (w : Write β) (left : Nat)
  | sweep (y : Sweep)
  | sorted (y : Sweep) (runs : List (List Nat))
  | invalidate (a : Span) (i left : Nat)
  | done

inductive Prog (β : Type) where
  | idle
  | read (r : Read)
  | fill (r : Read) (i gen : Nat)
  | filled (r : Read) (i gen : Nat) (b : β) (buf : List β)
  | write (w : Write β)
  | flushSome (w : Write β)
  | flight (k : After β) (f : Flight β)
  | drop (c : Command) (a : Span) (i : Nat)
  | command (c : Command) (a : Span)
  | sweep (y : Sweep)
  | sorted (y : Sweep) (runs : List (List Nat))
  | invalidate (a : Span) (i left : Nat)
  | invalidateRange (a : Span)
  | flushBuffer (i : Nat)

structure Delivery (β : Type) where
  key : Key
  since : Nat
  bytes : β

structure Out (β : Type) where
  mem : Cache β
  prog : Prog β
  reads : List (Delivery β) := []
  writes : List (Key × Nat) := []
  synced : List (Scope × Nat) := []

structure Choice (β : Type) where
  alloc : Bool
  ahead : Nat
  drain : Bool
  bytes : Nat → β

def flushRun : Nat := 512

def scanCap : Nat := 512

def scanChunk : Nat := 256

def hitRun : Nat := 128

def zeroPage : Nat := 8

def ownerCpus : Nat := 64

variable {β : Type} (cfg : Config β)

variable (c : Choice β) (alloc : Bool) (y : Sweep) (w : Write β) (r : Read) (i gen : Nat)
  (m : Cache β) (k : Key) (l : List Nat) (dev : Nat)

def blkMaxSectors : Nat :=
  if (cfg.device dev).maxSectors = 0 then 2560 else (cfg.device dev).maxSectors

def bcacheBucket (mask : UInt64) (k : Key) : Nat :=
  let m := UInt64.ofNat k.dev * 0x9E3779B97F4A7C15 ^^^ UInt64.ofNat k.block * 0xC6BC279692B5C323
  ((m ^^^ (m >>> 32)) &&& mask).toNat

def Cache.edit (i : Nat) (f : Slot β → Slot β) : Cache β :=
  { m with slot := update m.slot i (f (m.slot i)) }

def Cache.claim : Cache β :=
  { m with slot := fun i => if i ∈ l then { m.slot i with busy := true } else m.slot i }

def Cache.release : Cache β :=
  { m with
    slot := fun i => if i ∈ l then { m.slot i with busy := false, dirty := false } else m.slot i }

def bcacheHashRemove : Cache β :=
  if (m.slot i).hashed then
    let b := bcacheBucket cfg.mask (m.slot i).key
    { m.edit i fun e => { e with hashed := false } with
      chain := update m.chain b ((m.chain b).erase i) }
  else m

def bcacheHashInsert : Cache β :=
  let b := bcacheBucket cfg.mask (m.slot i).key
  { m.edit i fun e => { e with hashed := true } with
    chain := update m.chain b (i :: m.chain b) }

def bcacheFind : Option Nat :=
  (m.chain (bcacheBucket cfg.mask k)).find? fun i =>
    ((m.slot i).valid || (m.slot i).busy) && decide ((m.slot i).key = k)

def Slot.writable (e : Slot β) : Bool := e.dirty && !e.busy

def runBack : Nat → Nat → Nat
  | 0, base => base
  | _ + 1, 0 => 0
  | back + 1, base + 1 =>
    match bcacheFind cfg m ⟨dev,base⟩ with
    | none => base + 1
    | some i => if (m.slot i).writable then runBack back base else base + 1

def runForward : Nat → Nat → List Nat
  | 0, _ => []
  | left + 1, block =>
    match bcacheFind cfg m ⟨dev,block⟩ with
    | none => []
    | some i => if (m.slot i).writable then i :: runForward left (block + 1) else []

def runMax : Nat := min (blkMaxSectors cfg dev) flushRun

def bcacheWritebackRun (anchor : Nat) (m : Cache β) : Option (Cache β × Flight β) :=
  let a := m.slot anchor
  if a.writable then
    let base := runBack cfg m a.key.dev (runMax cfg a.key.dev - 1) a.key.block
    let all := runForward cfg m a.key.dev (runMax cfg a.key.dev) base
    let run := if alloc then all else all.take 1
    if all = [] then none
    else
      let tmp := if 1 < run.length then some (run.map fun i => (m.slot i).data) else none
      some (m.claim run, ⟨a.key.dev,base,run,tmp,false⟩)
  else none

inductive Victim where
  | none
  | empty (i : Nat)
  | clean (i : Nat)
  | dirty (i : Nat)

def clockSweep : Nat → Nat → Option Nat → Nat × Victim
  | 0, hand, none => (hand, .none)
  | 0, hand, some i => (hand, .dirty i)
  | left + 1, hand, fallback =>
    let next := if hand + 1 ≥ cfg.entries then 0 else hand + 1
    if (m.slot hand).busy then clockSweep left next fallback
    else if !(m.slot hand).valid then (next, .empty hand)
    else if !(m.slot hand).dirty then (next, .clean hand)
    else clockSweep left next (some (fallback.getD hand))

def recycle : Cache β := (bcacheHashRemove cfg i m).edit i fun e => { e with valid := false }

def Cache.clean (i : Nat) : Cache β := m.edit i fun e => { e with dirty := false, busy := false }

inductive Evicted (β : Type) where
  | none
  | slot (i : Nat)
  | flight (anchor : Nat) (f : Flight β)

def bcacheEvict : Cache β × Evicted β :=
  match clockSweep cfg m cfg.entries m.hand none with
  | (hand, .none) => ({ m with hand := hand }, .none)
  | (hand, .empty i) => ({ m with hand := hand }, .slot i)
  | (hand, .clean i) => (recycle cfg i { m with hand := hand }, .slot i)
  | (hand, .dirty i) =>
    let swept := { m with hand := hand }
    match bcacheWritebackRun cfg alloc i swept with
    | none => (recycle cfg i (swept.clean i), .slot i)
    | some (m, f) => (m, .flight i f)

def bcacheEvictDone (anchor : Nat) (m : Cache β) : Cache β × Option Nat :=
  if (m.slot anchor).dirty then (m.edit anchor fun e => { e with busy := false }, none)
  else (recycle cfg anchor (m.clean anchor), some anchor)

def Flight.source (f : Flight β) : List β := f.tmp.getD (f.slots.map fun i => (m.slot i).data)

def blkDevWrite (f : Flight β) (m : Cache β) : Cache β :=
  { m with
    medium := fun k =>
      if k.dev = f.dev ∧ f.base ≤ k.block then
        ((f.source m)[k.block - f.base]?).getD (m.medium k)
      else m.medium k }

def Read.resume : Prog β := if r.left = 0 then .idle else .read r

def copyHits : Nat → Read → Read × List (Delivery β)
  | 0, r => (r, [])
  | run + 1, r =>
    if r.left = 0 then (r, [])
    else
      match bcacheFind cfg m r.key with
      | none => (r, [])
      | some i =>
        if (m.slot i).busy then (r, [])
        else
          let (r', ds) := copyHits run r.advance
          (r', ⟨r.key,r.since r.key,(m.slot i).data⟩ :: ds)

def blkReadClaim : Out β :=
  if (bcacheFind cfg m r.key).isSome then { mem := m, prog := .read r }
  else
    { mem := bcacheHashInsert cfg i <| m.edit i fun e =>
        { e with key := r.key, busy := true, valid := false, dirty := false }
      prog := .fill r i (m.gen r.dev) }

def blkReadLookup : Out β :=
  match bcacheFind cfg m r.key with
  | some i =>
    if (m.slot i).busy then { mem := m, prog := .read r }
    else
      let (r', ds) := copyHits cfg m hitRun r
      { mem := m, prog := r'.resume, reads := ds }
  | none =>
    match bcacheEvict cfg alloc m with
    | (m, .none) => { mem := m, prog := .read r }
    | (m, .slot i) => blkReadClaim cfg r i m
    | (m, .flight anchor f) => { mem := m, prog := .flight (.read r anchor) f }

def readRun : Nat :=
  let d := cfg.device r.dev
  let run := min (max c.ahead r.left) (blkMaxSectors cfg r.dev)
  let run := if 0 < d.blockCount ∧ d.blockCount < r.next + run then d.blockCount - r.next else run
  if run = 0 then 1 else if c.alloc then run else 1

def blkReadDevice : Out β :=
  let b := m.medium r.key
  { mem := m.edit i fun e => { e with data := b }
    prog := .filled r i gen b <|
      (List.range (readRun cfg c r - 1)).map fun j => m.medium ⟨r.dev,r.next + 1 + j⟩ }

def install (m : Cache β) : Cache β :=
  bcacheHashInsert cfg i <| m.edit i fun e => { e with key := k, valid := true, busy := false }

def publishAhead (b : β) (m : Cache β) : Cache β :=
  bcacheHashInsert cfg i <| m.edit i fun e =>
    { e with key := k, valid := true, busy := false, dirty := false, data := b }

def aheadInto (i : Nat) (k : Key) (b : β) (m : Cache β) : Option (Cache β) :=
  if m.gen k.dev = gen then
    if (bcacheFind cfg m k).isSome then some m else some (publishAhead cfg i k b m)
  else none

def readAhead : List β → Nat → Cache β → Out β
  | [], _, m => { mem := m, prog := r.resume }
  | b :: bs, next, m =>
    if (bcacheFind cfg m ⟨r.dev,next⟩).isSome then readAhead bs (next + 1) m
    else
      match bcacheEvict cfg alloc m with
      | (m, .none) => { mem := m, prog := r.resume }
      | (m, .flight anchor f) => { mem := m, prog := .flight (.ahead r gen next (b :: bs) anchor) f }
      | (m, .slot i) =>
        match aheadInto cfg gen i ⟨r.dev,next⟩ b m with
        | none => { mem := m, prog := r.resume }
        | some m => readAhead bs (next + 1) m

def publishFill : Cache β :=
  m.edit i fun e => { e with valid := true, dirty := false, busy := false }

def blkReadPublish (buf : List β) (m : Cache β) : Out β :=
  let m := publishFill i m
  let out :=
    if m.gen r.dev = gen then readAhead cfg alloc r.advance gen buf (r.next + 1) m
    else { mem := m, prog := r.advance.resume }
  { out with reads := ⟨r.key,r.since r.key,(m.slot i).data⟩ :: out.reads }

def Write.resume : Prog β :=
  if w.data ≠ [] then .write w
  else if w.more = 0 then .idle
  else
    let chunk := min w.more zeroPage
    .write { w with data := List.replicate chunk cfg.zero, more := w.more - chunk }

def Write.wrote : Prog β :=
  let rest : Write β := { w with next := w.next + 1, data := w.data.tail }
  if rest.data = [] ∧ c.drain then .flushSome rest else rest.resume cfg

def dirtyBlock (stamp : Owner) (k : Key) (b : β) (i : Nat) (m : Cache β) : Cache β :=
  { m.edit i fun e => { e with data := b, dirty := true, owner := stamp } with
    gen := update m.gen k.dev (m.gen k.dev + 1)
    history := update m.history k ((m.history k).push b) }

def blkWriteInto (stamp : Owner) (w : Write β) (b : β) (i : Nat) (m : Cache β) : Out β :=
  { mem := dirtyBlock stamp w.key b i m
    prog := w.wrote cfg c
    writes := [(w.key, (m.history w.key).top + 1)] }

def blkWriteSlot (stamp : Owner) (w : Write β) (b : β) (i : Nat) (m : Cache β) : Out β :=
  match bcacheFind cfg m w.key with
  | some j =>
    let m := m.edit i fun e => { e with busy := false }
    if (m.slot j).busy then { mem := m, prog := .write w }
    else blkWriteInto cfg c stamp w b j m
  | none => blkWriteInto cfg c stamp w b i (install cfg i w.key m)

def blkWriteLookup (stamp : Owner) (w : Write β) (m : Cache β) : Out β :=
  match w.data with
  | [] => { mem := m, prog := if c.drain then .flushSome w else w.resume cfg }
  | b :: _ =>
    match bcacheFind cfg m w.key with
    | some i =>
      if (m.slot i).busy then { mem := m, prog := .write w }
      else blkWriteInto cfg c stamp w b i m
    | none =>
      match bcacheEvict cfg c.alloc m with
      | (m, .none) => { mem := m, prog := .write w }
      | (m, .slot i) => blkWriteSlot cfg c stamp w b i m
      | (m, .flight anchor f) => { mem := m, prog := .flight (.write w anchor) f }

def throttle : Nat := max (cfg.entries / 128) 256

def flushAnchor : Option Nat :=
  ((List.range cfg.entries).map fun n => (m.cursor + n) % cfg.entries).find? fun i =>
    (m.slot i).valid && (m.slot i).writable

def drainMore (left : Nat) (m : Cache β) : Out β :=
  let stop : Out β := { mem := { m with flushing := false }, prog := w.resume cfg }
  if left = 0 then stop
  else
    match flushAnchor cfg m with
    | none => stop
    | some i =>
      let moved := { m with cursor := (i + 1) % cfg.entries }
      match bcacheWritebackRun cfg alloc i moved with
      | none => { mem := { moved with flushing := false }, prog := w.resume cfg }
      | some (m, f) => { mem := m, prog := .flight (.drain w left) f }

def bcacheFlushSome : Out β :=
  if m.flushing then { mem := m, prog := w.resume cfg }
  else drainMore cfg alloc w (throttle cfg * 2) { m with flushing := true }

def dropSlot : Cache β :=
  (bcacheHashRemove cfg i m).edit i fun e =>
    { e with key := ⟨0,0⟩, valid := false, busy := false, dirty := false }

def dropNext (c : Command) (a : Span) (i : Nat) : Prog β :=
  if i < cfg.entries then .drop c a i else .command c a

def bcacheDropRange (c : Command) (a : Span) (i : Nat) (m : Cache β) : Out β :=
  if !(m.slot i).valid || !a.has (m.slot i).key then { mem := m, prog := dropNext cfg c a (i + 1) }
  else if (m.slot i).busy then { mem := m, prog := .drop c a i }
  else { mem := dropSlot cfg i m, prog := dropNext cfg c a (i + 1) }

def Command.contents (c : Command) (ch : Choice β) (k : Key) : β :=
  match c with
  | .writeZeroes => cfg.zero
  | .discard => ch.bytes k.block

def blkCommand (c : Command) (ch : Choice β) (a : Span) (m : Cache β) : Out β :=
  { mem :=
      { m with
        medium := fun k => if a.has k then c.contents cfg ch k else m.medium k
        history := fun k =>
          if a.has k then (m.history k).push (c.contents cfg ch k) else m.history k }
    prog := .idle }

def bcacheFlushOne : Cache β × Flight β :=
  (m.claim [i], ⟨(m.slot i).key.dev,(m.slot i).key.block,[i],none,false⟩)

def blkFlushBuffer : Out β :=
  if (m.slot i).busy then { mem := m, prog := .flushBuffer i }
  else if (m.slot i).valid && (m.slot i).dirty then
    let (m, f) := bcacheFlushOne i m
    { mem := m, prog := .flight .done f }
  else { mem := m, prog := .idle }

def Key.before (a b : Key) : Prop := a.dev < b.dev ∨ a.dev = b.dev ∧ a.block ≤ b.block

instance : DecidableRel Key.before := fun a b =>
  inferInstanceAs (Decidable (a.dev < b.dev ∨ a.dev = b.dev ∧ a.block ≤ b.block))

def sortSet : List Nat := l.insertionSort fun i j => (m.slot i).key.before (m.slot j).key

def runCap : Nat := min (blkMaxSectors cfg dev) flushRun

def splitRuns (run : List Nat) (first last : Key) : List Nat → List (List Nat)
  | [] => [run]
  | i :: l =>
    if (m.slot i).key = ⟨last.dev,last.block + 1⟩ ∧ run.length < runCap cfg first.dev then
      splitRuns (run ++ [i]) first (m.slot i).key l
    else run :: splitRuns [i] (m.slot i).key (m.slot i).key l

def blkFlushSorted : List (List Nat) :=
  match sortSet m l with
  | [] => []
  | i :: l => splitRuns cfg m [i] (m.slot i).key (m.slot i).key l

def Scope.wants (y : Scope) (e : Slot β) : Bool :=
  match y with
  | .drainAll _ => e.valid && e.dirty
  | .matching a o =>
    e.valid && a.has e.key && e.dirty && (o.ino == 0 || e.owner.ino == 0 || decide (e.owner = o))

def Scope.waits : Scope → Bool
  | .drainAll _ => false
  | .matching _ _ => true

def sweepStart (scope : Scope) (upto : Nat) (alloc : Bool) : Sweep :=
  { scope := scope
    upto := upto
    base := 0
    left := min scanChunk cfg.entries
    set := if alloc then some [] else none
    seen := false
    bounce := false }

def sweepSlots (m : Cache β) : Nat → Sweep → Cache β × Sweep × Option (Flight β)
  | 0, y => (m, y, none)
  | left + 1, y =>
    if !y.scope.wants (m.slot y.base) then sweepSlots m left { y with base := y.base + 1 }
    else if (m.slot y.base).busy then
      sweepSlots m left { y with base := y.base + 1, seen := y.seen || y.scope.waits }
    else
      match y.set with
      | none =>
        let (m, f) := bcacheFlushOne y.base m
        (m, { y with base := y.base + 1, left := left }, some f)
      | some l =>
        if l.length = scanCap then (m, y, none)
        else
          sweepSlots (m.claim [y.base]) left
            { y with base := y.base + 1, set := some (l ++ [y.base]) }

def sweepNext : Out β :=
  let l := y.set.getD []
  if l.length = scanCap ∨ l ≠ [] ∧ cfg.entries ≤ y.base then
    { mem := m, prog := .sorted { y with set := some [] } (blkFlushSorted cfg m l) }
  else if y.base < cfg.entries then
    { mem := m, prog := .sweep { y with left := min scanChunk (cfg.entries - y.base) } }
  else if y.seen then
    { mem := m
      prog := .sweep { y with base := 0, left := min scanChunk cfg.entries, seen := false } }
  else
    match y.scope with
    | .drainAll false => { mem := m, prog := .sweep (sweepStart cfg (.drainAll true) y.upto alloc) }
    | _ => { mem := m, prog := .idle, synced := [(y.scope, y.upto)] }

def sweepOn : Out β :=
  match sweepSlots m y.left y with
  | (m, y, none) => sweepNext cfg alloc y m
  | (m, y, some f) => { mem := m, prog := .flight (.sweep y) f }

def blkFlushRun (runs : List (List Nat)) (m : Cache β) : Out β :=
  match runs with
  | [] => sweepNext cfg alloc y m
  | [] :: rest => { mem := m, prog := .sorted y rest }
  | [i] :: rest =>
    { mem := m
      prog := .flight (.sorted y rest) ⟨(m.slot i).key.dev,(m.slot i).key.block,[i],none,false⟩ }
  | (i :: j :: l) :: rest =>
    let run := i :: j :: l
    if y.bounce || alloc then
      { mem := m
        prog := .flight (.sorted { y with bounce := true } rest)
          ⟨(m.slot i).key.dev,(m.slot i).key.block,run,
            some (run.map fun n => (m.slot n).data),false⟩ }
    else { mem := m, prog := .sorted y (run.map (fun n => [n]) ++ rest) }

def invalidateSlots (a : Span) : Nat → Nat → Cache β → Out β
  | 0, i, m =>
    { mem := m
      prog := if i < cfg.entries then .invalidate a i (min scanChunk (cfg.entries - i)) else .idle }
  | left + 1, i, m =>
    if !a.has (m.slot i).key then invalidateSlots a left (i + 1) m
    else if (m.slot i).busy then { mem := m, prog := .invalidate a i (left + 1) }
    else if (m.slot i).valid && (m.slot i).dirty then
      let (m, f) := bcacheFlushOne i m
      { mem := m, prog := .flight (.invalidate a i (left + 1)) f }
    else invalidateSlots a left (i + 1) (dropSlot cfg i m)

def blkCacheInvalidateRange (a : Span) (m : Cache β) : Out β :=
  let rest : Span := { a with first := a.first + 1 }
  let next : Prog β := if rest.first < a.last then .invalidateRange rest else .idle
  match bcacheFind cfg m ⟨a.dev,a.first⟩ with
  | none => { mem := m, prog := next }
  | some i =>
    if (m.slot i).busy then { mem := m, prog := .invalidateRange a }
    else
      { mem := (bcacheHashRemove cfg i m).edit i fun e => { e with valid := false, dirty := false }
        prog := next }

def afterFlight (stamp : Owner) (k : After β) (f : Flight β) (m : Cache β) : Out β :=
  match k with
  | .read r anchor =>
    match bcacheEvictDone cfg anchor m with
    | (m, none) => { mem := m, prog := .read r }
    | (m, some i) => blkReadClaim cfg r i m
  | .write w anchor =>
    match bcacheEvictDone cfg anchor m with
    | (m, none) => { mem := m, prog := .write w }
    | (m, some i) =>
      match w.data with
      | [] => { mem := m, prog := .write w }
      | b :: _ => blkWriteSlot cfg c stamp w b i m
  | .ahead r gen next buf anchor =>
    match bcacheEvictDone cfg anchor m with
    | (m, none) => { mem := m, prog := r.resume }
    | (m, some i) =>
      match buf with
      | [] => { mem := m, prog := r.resume }
      | b :: bs =>
        match aheadInto cfg gen i ⟨r.dev,next⟩ b m with
        | none => { mem := m, prog := r.resume }
        | some m => readAhead cfg c.alloc r gen bs (next + 1) m
  | .drain w left => drainMore cfg c.alloc w (left - f.slots.length) m
  | .sweep y => sweepOn cfg c.alloc y m
  | .sorted y runs => { mem := m, prog := .sorted y runs }
  | .invalidate a i left => invalidateSlots cfg a left i m
  | .done => { mem := m, prog := .idle }

def act (stamp : Owner) (p : Prog β) (m : Cache β) : Out β :=
  match p with
  | .idle => { mem := m, prog := .idle }
  | .read r => blkReadLookup cfg c.alloc r m
  | .fill r i gen => blkReadDevice cfg c r i gen m
  | .filled r i gen _ buf => blkReadPublish cfg c.alloc r i gen buf m
  | .write w => blkWriteLookup cfg c stamp w m
  | .flushSome w => bcacheFlushSome cfg c.alloc w m
  | .flight k f =>
    if f.landed then afterFlight cfg c stamp k f (m.release f.slots)
    else { mem := blkDevWrite f m, prog := .flight k { f with landed := true } }
  | .drop cmd a i => bcacheDropRange cfg cmd a i m
  | .command cmd a => blkCommand cfg cmd c a m
  | .sweep y => sweepOn cfg c.alloc y m
  | .sorted y runs => blkFlushRun cfg c.alloc y runs m
  | .invalidate a i left => invalidateSlots cfg a left i m
  | .invalidateRange a => blkCacheInvalidateRange cfg a m
  | .flushBuffer i => blkFlushBuffer i m

structure Dirtied where
  key : Key
  version : Nat
  file : Option Owner

structure State (β : Type) where
  mem : Cache β
  prog : Nat → Prog β
  cpu : Nat → Nat
  owner : Nat → Owner
  file : Nat → Option Owner
  delivered : List (Delivery β)
  dirtied : List Dirtied
  synced : List (Scope × Nat)

def blkCacheTarget (lba : Nat) : Nat × Nat :=
  match (cfg.device dev).partition with
  | some (parent, start) => (parent, lba + start)
  | none => (dev, lba)

def cacheSpan : Span :=
  match (cfg.device dev).partition with
  | some (parent, start) => ⟨parent,start,start + (cfg.device dev).blockCount⟩
  | none => ⟨dev,0,2 ^ 64 - 1⟩

def inBounds (lba count : Nat) : Bool :=
  (cfg.device dev).blockCount == 0 || decide (lba + count ≤ (cfg.device dev).blockCount)

inductive Call (β : Type) where
  | readCached (dev lba count : Nat)
  | writeCached (dev lba : Nat) (data : List β)
  | zeroBlocks (dev lba count : Nat)
  | discardBlocks (dev lba count : Nat)
  | writebackInode (dev fsid ino : Nat)
  | flush (dev : Nat)
  | syncAll
  | invalidate (dev : Nat)
  | invalidateRange (dev lba count : Nat)
  | flushBuffer (i : Nat)

def Call.begin (s : State β) : Call β → Prog β
  | .readCached dev lba count =>
    let t := blkCacheTarget cfg dev lba
    if inBounds cfg dev lba count then
      Read.resume ⟨t.1,t.2,count,fun k => (s.mem.history k).top⟩
    else .idle
  | .writeCached dev lba data =>
    let t := blkCacheTarget cfg dev lba
    if inBounds cfg dev lba data.length then .write ⟨t.1,t.2,data,0⟩ else .idle
  | .zeroBlocks dev lba count =>
    let t := blkCacheTarget cfg dev lba
    if count = 0 ∨ !inBounds cfg dev lba count then .idle
    else if (cfg.device t.1).writeZeroes then dropNext cfg .writeZeroes ⟨t.1,t.2,t.2 + count⟩ 0
    else Write.resume cfg ⟨t.1,t.2,[],count⟩
  | .discardBlocks dev lba count =>
    let t := blkCacheTarget cfg dev lba
    if count = 0 ∨ !inBounds cfg dev lba count ∨ !(cfg.device t.1).discard then .idle
    else dropNext cfg .discard ⟨t.1,t.2,t.2 + count⟩ 0
  | .writebackInode dev fsid ino =>
    .sweep (sweepStart cfg (.matching (cacheSpan cfg dev) ⟨fsid,ino⟩) s.dirtied.length alloc)
  | .flush dev =>
    .sweep (sweepStart cfg (.matching (cacheSpan cfg dev) ⟨0,0⟩) s.dirtied.length alloc)
  | .syncAll => .sweep (sweepStart cfg (.drainAll false) s.dirtied.length alloc)
  | .invalidate dev => .invalidate (cacheSpan cfg dev) 0 (min scanChunk cfg.entries)
  | .invalidateRange dev lba count =>
    let t := blkCacheTarget cfg dev lba
    if count = 0 then .idle else .invalidateRange ⟨t.1,t.2,t.2 + count⟩
  | .flushBuffer i => if i < cfg.entries then .flushBuffer i else .idle

inductive Event (β : Type) where
  | call (τ : Nat) (alloc : Bool) (call : Call β)
  | act (τ : Nat) (c : Choice β)
  | migrate (τ cpu : Nat)
  | setDirtyOwner (τ fsid ino : Nat)
  | clearDirtyOwner (τ : Nat)

def Prog.isIdle : Prog β → Bool
  | .idle => true
  | _ => false

variable (s : State β)

def Event.enabled : Event β → Bool
  | .call τ _ _ => decide (τ < cfg.tasks) && (s.prog τ).isIdle
  | .act τ _ => decide (τ < cfg.tasks) && !(s.prog τ).isIdle
  | .migrate τ _ | .setDirtyOwner τ _ _ | .clearDirtyOwner τ => decide (τ < cfg.tasks)

def State.stamp (τ : Nat) : Owner := s.owner (s.cpu τ % ownerCpus)

def State.commit (τ : Nat) (o : Out β) : State β :=
  { s with
    mem := o.mem
    prog := update s.prog τ o.prog
    delivered := s.delivered ++ o.reads
    dirtied := s.dirtied ++ o.writes.map fun w => ⟨w.1,w.2,s.file τ⟩
    synced := s.synced ++ o.synced }

def step : Event β → State β
  | .call τ alloc call => { s with prog := update s.prog τ (call.begin cfg alloc s) }
  | .act τ c => s.commit τ (act cfg c (s.stamp τ) (s.prog τ) s.mem)
  | .migrate τ cpu => { s with cpu := update s.cpu τ cpu }
  | .setDirtyOwner τ fsid ino =>
    { s with
      owner := update s.owner (s.cpu τ % ownerCpus) ⟨fsid,ino⟩
      file := update s.file τ (some ⟨fsid,ino⟩) }
  | .clearDirtyOwner τ =>
    { s with
      owner := update s.owner (s.cpu τ % ownerCpus) ⟨0,0⟩
      file := update s.file τ none }

def Stepped (e : Event β) (s' : State β) : Prop := e.enabled cfg s = true ∧ s' = step cfg s e

structure State.Initial (s : State β) : Prop where
  slot : ∀ i, (s.mem.slot i).valid = false ∧ (s.mem.slot i).busy = false ∧
    (s.mem.slot i).dirty = false ∧ (s.mem.slot i).hashed = false
  chain : ∀ b, s.mem.chain b = []
  hand : s.mem.hand = 0
  history : ∀ k, s.mem.history k = Versions.initial (s.mem.medium k)
  prog : ∀ τ, s.prog τ = .idle
  delivered : s.delivered = []
  dirtied : s.dirtied = []
  synced : s.synced = []

open List

variable {cfg : Config β} {m m' : Cache β} {i j : Nat} {k : Key} {e : Slot β} {f : Slot β → Slot β}
  {l : List Nat}

@[simp] lemma edit_self : (m.edit i f).slot i = f (m.slot i) := update_self _ _ _

lemma edit_of_ne (h : j ≠ i) : (m.edit i f).slot j = m.slot j := update_of_ne h _ _

@[simp] lemma edit_medium : (m.edit i f).medium = m.medium := rfl

@[simp] lemma edit_history : (m.edit i f).history = m.history := rfl

@[simp] lemma edit_gen : (m.edit i f).gen = m.gen := rfl

@[simp] lemma edit_hand : (m.edit i f).hand = m.hand := rfl

@[simp] lemma edit_chain : (m.edit i f).chain = m.chain := rfl

lemma edit_eq_self (h : f (m.slot i) = m.slot i) : m.edit i f = m := by
  rw [Cache.edit,h,update_eq_self]

@[simp] lemma claim_slot :
    (m.claim l).slot i = { m.slot i with busy := (m.slot i).busy || decide (i ∈ l) } := by
  by_cases h : i ∈ l
  · simp [Cache.claim,h]
  simp [Cache.claim,h]

@[simp] lemma release_slot :
    (m.release l).slot i =
      { m.slot i with
        busy := (m.slot i).busy && decide (i ∉ l)
        dirty := (m.slot i).dirty && decide (i ∉ l) } := by
  by_cases h : i ∈ l
  · simp [Cache.release,h]
  simp [Cache.release,h]

lemma hashRemove_slot :
    (bcacheHashRemove cfg i m).slot = update m.slot i { m.slot i with hashed := false } := by
  unfold bcacheHashRemove
  split_ifs with h
  · rfl
  have heq : ({ m.slot i with hashed := false } : Slot β) = m.slot i := by
    rw [not_eq_true] at h
    rw [← h]
  rw [heq,update_eq_self]

@[simp] lemma hashRemove_medium : (bcacheHashRemove cfg i m).medium = m.medium := by
  unfold bcacheHashRemove
  split <;> rfl

@[simp] lemma hashRemove_history : (bcacheHashRemove cfg i m).history = m.history := by
  unfold bcacheHashRemove
  split <;> rfl

@[simp] lemma hashRemove_gen : (bcacheHashRemove cfg i m).gen = m.gen := by
  unfold bcacheHashRemove
  split <;> rfl

@[simp] lemma hashRemove_hand : (bcacheHashRemove cfg i m).hand = m.hand := by
  unfold bcacheHashRemove
  split <;> rfl

structure Shape (cfg : Config β) (m : Cache β) : Prop where
  hand : 0 < cfg.entries → m.hand < cfg.entries
  linked : ∀ b i, i ∈ m.chain b ↔
    (m.slot i).hashed = true ∧ bcacheBucket cfg.mask (m.slot i).key = b
  nodup : ∀ b, (m.chain b).Nodup
  bound : ∀ i, (m.slot i).hashed = true → i < cfg.entries
  used : ∀ i, (m.slot i).hashed = true ↔ (m.slot i).valid = true ∨ (m.slot i).busy = true
  unique : ∀ i j, (m.slot i).hashed = true → (m.slot j).hashed = true →
    (m.slot i).key = (m.slot j).key → i = j
  dirty : ∀ i, (m.slot i).dirty = true → (m.slot i).valid = true

def Absent (m : Cache β) (k : Key) : Prop := ∀ i, (m.slot i).hashed = true → (m.slot i).key ≠ k

structure Free (cfg : Config β) (m : Cache β) (i : Nat) : Prop where
  bound : i < cfg.entries
  valid : (m.slot i).valid = false
  busy : (m.slot i).busy = false

lemma Shape.hashed (h : Shape cfg m) (hv : (m.slot i).valid = true) : (m.slot i).hashed = true :=
  (h.used i).mpr (.inl hv)

lemma Free.hashed (h : Free cfg m i) (hs : Shape cfg m) : (m.slot i).hashed = false := by
  rw [← not_eq_true,hs.used i]
  simp [h.valid,h.busy]

lemma Shape.clean (h : Shape cfg m) (hv : (m.slot i).valid = false) : (m.slot i).dirty = false := by
  rw [← not_eq_true]
  intro hd
  cases hv.symm.trans (h.dirty i hd)

lemma Free.dirty (h : Free cfg m i) (hs : Shape cfg m) : (m.slot i).dirty = false := hs.clean h.valid

section

variable (h : Shape cfg m)

include h

lemma Shape.find_some (hf : bcacheFind cfg m k = some i) :
    (m.slot i).hashed = true ∧ (m.slot i).key = k := by
  have hmem := mem_of_find?_eq_some hf
  have hp := find?_some hf
  simp only [and_eq_true,decide_eq_true_eq] at hp
  exact ⟨((h.linked ..).mp hmem).1,hp.2⟩

lemma Shape.find_none (hf : bcacheFind cfg m k = none) : Absent m k := by
  rintro i hi rfl
  have hno := find?_eq_none.mp hf i ((h.linked ..).mpr ⟨hi,rfl⟩)
  apply hno
  have hus := (h.used i).mp hi
  simpa using hus

lemma Shape.flags (hch : m'.chain = m.chain) (hha : m'.hand = m.hand)
    (hkey : ∀ i, (m'.slot i).key = (m.slot i).key)
    (hhs : ∀ i, (m'.slot i).hashed = (m.slot i).hashed)
    (hus : ∀ i, (m'.slot i).valid = true ∨ (m'.slot i).busy = true ↔
      (m.slot i).valid = true ∨ (m.slot i).busy = true)
    (hdt : ∀ i, (m'.slot i).dirty = true → (m'.slot i).valid = true) : Shape cfg m' where
  hand := by rw [hha]; exact h.hand
  linked b i := by rw [hch,hkey,hhs]; exact h.linked b i
  nodup b := by rw [hch]; exact h.nodup b
  bound i := by rw [hhs]; exact h.bound i
  used i := by rw [hhs,hus]; exact h.used i
  unique i j := by rw [hkey,hkey,hhs,hhs]; exact h.unique i j
  dirty := hdt

lemma Shape.edit (hsl : m'.slot = update m.slot i e) (hch : m'.chain = m.chain)
    (hha : m'.hand = m.hand) (hkey : e.key = (m.slot i).key) (hhs : e.hashed = (m.slot i).hashed)
    (hus : e.valid = true ∨ e.busy = true ↔ (m.slot i).valid = true ∨ (m.slot i).busy = true)
    (hdt : e.dirty = true → e.valid = true) : Shape cfg m' := by
  refine h.flags hch hha ?_ ?_ ?_ ?_
  · rw [hsl,forall_update_iff m.slot fun j s => s.key = (m.slot j).key]
    exact ⟨hkey,fun _ _ => rfl⟩
  · rw [hsl,forall_update_iff m.slot fun j s => s.hashed = (m.slot j).hashed]
    exact ⟨hhs,fun _ _ => rfl⟩
  · rw [hsl,forall_update_iff m.slot fun j s => s.valid = true ∨ s.busy = true ↔
      (m.slot j).valid = true ∨ (m.slot j).busy = true]
    exact ⟨hus,fun _ _ => .rfl⟩
  rw [hsl,forall_update_iff m.slot fun _ s => s.dirty = true → s.valid = true]
  exact ⟨hdt,fun j _ => h.dirty j⟩

lemma Shape.hashRemove_chain (b : Nat) : (bcacheHashRemove cfg i m).chain b = (m.chain b).erase i := by
  unfold bcacheHashRemove
  split
  · obtain rfl | hb := eq_or_ne b (bcacheBucket cfg.mask (m.slot i).key)
    · exact update_self ..
    refine (update_of_ne hb ..).trans (erase_of_not_mem ?_).symm
    exact fun hi => hb ((h.linked b i).mp hi).2.symm
  next hno => exact (erase_of_not_mem fun hi => hno ((h.linked b i).mp hi).1).symm

end

structure Slot.Empty (e : Slot β) : Prop where
  valid : e.valid = false
  busy : e.busy = false
  dirty : e.dirty = false
  hashed : e.hashed = false

def vacate (cfg : Config β) (i : Nat) (e : Slot β) (m : Cache β) : Cache β :=
  (bcacheHashRemove cfg i m).edit i fun _ => e

@[simp] lemma vacate_self : (vacate cfg i e m).slot i = e := edit_self

lemma vacate_of_ne (h : j ≠ i) : (vacate cfg i e m).slot j = m.slot j := by
  rw [vacate,edit_of_ne h,hashRemove_slot,update_of_ne h]

lemma vacate_flag {p : Slot β → Bool} (he : p e = false) (h : p ((vacate cfg i e m).slot j) = true) :
    j ≠ i ∧ (vacate cfg i e m).slot j = m.slot j := by
  have hj : j ≠ i := by
    rintro rfl
    rw [vacate_self,he] at h
    cases h
  exact ⟨hj,vacate_of_ne hj⟩

lemma Shape.vacate (h : Shape cfg m) (he : e.Empty) : Shape cfg (vacate cfg i e m) where
  hand := by
    rw [BlockCache.vacate,edit_hand,hashRemove_hand]
    exact h.hand
  linked b j := by
    rw [BlockCache.vacate,edit_chain,h.hashRemove_chain,(h.nodup b).mem_erase_iff,h.linked]
    by_cases hj : j = i
    · subst hj
      simp [he.hashed]
    rw [edit_of_ne hj,hashRemove_slot,update_of_ne hj]
    simp [hj]
  nodup b := by
    rw [BlockCache.vacate,edit_chain,h.hashRemove_chain]
    exact (h.nodup b).erase i
  bound j hj := by
    obtain ⟨-,hsl⟩ := vacate_flag he.hashed hj
    rw [hsl] at hj
    exact h.bound j hj
  used j := by
    by_cases hj : j = i
    · subst hj
      simp [he.hashed,he.valid,he.busy]
    rw [vacate_of_ne hj]
    exact h.used j
  unique a b ha hb hkey := by
    obtain ⟨-,hsa⟩ := vacate_flag he.hashed ha
    obtain ⟨-,hsb⟩ := vacate_flag he.hashed hb
    rw [hsa] at ha hkey
    rw [hsb] at hb hkey
    exact h.unique a b ha hb hkey
  dirty j hj := by
    obtain ⟨-,hsl⟩ := vacate_flag he.dirty hj
    rw [hsl] at hj ⊢
    exact h.dirty j hj

def occupy (cfg : Config β) (i : Nat) (e : Slot β) (m : Cache β) : Cache β :=
  bcacheHashInsert cfg i (m.edit i fun _ => e)

@[simp] lemma occupy_self : (occupy cfg i e m).slot i = { e with hashed := true } := by
  simp [occupy,bcacheHashInsert]

lemma occupy_of_ne (h : j ≠ i) : (occupy cfg i e m).slot j = m.slot j := by
  change (Cache.edit (m.edit i fun _ => e) i fun e => { e with hashed := true }).slot j = _
  rw [edit_of_ne h,edit_of_ne h]

lemma occupy_chain (b : Nat) : (occupy cfg i e m).chain b =
    if b = bcacheBucket cfg.mask e.key then i :: m.chain b else m.chain b := by
  simp only [occupy,bcacheHashInsert]
  by_cases hb : b = bcacheBucket cfg.mask e.key
  · subst hb
    simp
  simp [hb]

lemma Shape.occupy (h : Shape cfg m) (hi : i < cfg.entries) (hfe : (m.slot i).hashed = false)
    (hkey : Absent m e.key) (hus : e.valid = true ∨ e.busy = true)
    (hdt : e.dirty = true → e.valid = true) : Shape cfg (occupy cfg i e m) := by
  have hout : ∀ b, i ∉ m.chain b := by
    intro b hb
    have hhs := ((h.linked b i).mp hb).1
    rw [hfe] at hhs
    cases hhs
  refine ⟨h.hand,fun b j => ?_,fun b => ?_,fun j hj => ?_,fun j => ?_,fun a b ha hb hab => ?_, fun j hj => ?_⟩
  · rw [occupy_chain]
    by_cases hj : j = i
    · subst hj
      by_cases hb : b = bcacheBucket cfg.mask e.key
      · simp [hb]
      simp [hb,hout b,Ne.symm hb]
    rw [occupy_of_ne hj,← h.linked b j]
    by_cases hb : b = bcacheBucket cfg.mask e.key
    · simp [hb,hj]
    simp [hb]
  · rw [occupy_chain]
    split
    · exact nodup_cons.mpr ⟨hout b,h.nodup b⟩
    exact h.nodup b
  · by_cases hji : j = i
    · rw [hji]
      exact hi
    rw [occupy_of_ne hji] at hj
    exact h.bound j hj
  · by_cases hji : j = i
    · subst hji
      simp [hus]
    rw [occupy_of_ne hji]
    exact h.used j
  · by_cases hai : a = i
    · by_cases hbi : b = i
      · rw [hai,hbi]
      subst hai
      rw [occupy_of_ne hbi] at hb hab
      rw [occupy_self] at hab
      exact absurd hab.symm (hkey b hb)
    rw [occupy_of_ne hai] at ha hab
    by_cases hbi : b = i
    · subst hbi
      rw [occupy_self] at hab
      exact absurd hab (hkey a ha)
    rw [occupy_of_ne hbi] at hb hab
    exact h.unique a b ha hb hab
  · by_cases hji : j = i
    · subst hji
      rw [occupy_self] at hj ⊢
      exact hdt hj
    rw [occupy_of_ne hji] at hj ⊢
    exact h.dirty j hj

end B1nix.BlockCache
