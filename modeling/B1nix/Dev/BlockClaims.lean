import B1nix.Basic.Claims
import B1nix.Dev.BlockCache

namespace B1nix.BlockCache

open Function B1nix.Claims List Option

structure Filling (β : Type) where
  slot : Nat
  key : Key
  data : Option β

structure Ahead (β : Type) where
  gen : Nat
  dev : Nat
  next : Nat
  buf : List β

def Ahead.key {β : Type} (a : Ahead β) (j : Nat) : Key := ⟨a.dev,a.next + j⟩

structure Progress where
  scope : Scope
  upto : Nat
  base : Nat
  seen : Bool

structure Hold (β : Type) where
  fill : Option (Filling β) := none
  flight : Option (Flight β) := none
  anchor : Option Nat := none
  set : List Nat := []
  runs : List (List Nat) := []
  zero : Option (Span × Nat) := none
  ahead : Option (Ahead β) := none
  since : Option (Key → Nat) := none
  sweep : Option Progress := none

variable {β : Type}

def Hold.slots (x : Hold β) : List Nat :=
  (x.fill.map (·.slot)).toList ++ ((x.flight.map (·.slots)).getD [] ++ x.set)

def Hold.zeroes (x : Hold β) (k : Key) : Bool := x.zero.any fun z => z.1.has k

structure World (β : Type) where
  mem : Cache β
  hold : Nat → Hold β
  delivered : List (Delivery β)
  dirtied : List Dirtied
  synced : List (Scope × Nat)

variable (w : World β)

def World.put (τ : Nat) (m : Cache β) (x : Hold β) : World β :=
  { w with mem := m, hold := update w.hold τ x }

def Clear (k : Key) : Prop := ∀ σ, (w.hold σ).zeroes k = false

def Owner.covers (o : Owner) (file : Option Owner) : Prop :=
  o.ino = 0 ∨ ∀ f ∈ file, f = o

def Durable (m : Cache β) (d : Dirtied) : Prop :=
  (m.history d.key).Since d.version (m.medium d.key)

def Stamping (stamp : Owner) (file : Option Owner) (k : Key) : Prop :=
  stamp.covers file ∧ ∀ d ∈ w.dirtied, d.key = k → ¬Durable w.mem d → stamp.covers d.file

def Zeroed (a : Span) (bytes : Key → β) (m : Cache β) : Cache β :=
  { m with
    medium := fun k => if a.has k then bytes k else m.medium k
    history := fun k => if a.has k then (m.history k).push (bytes k) else m.history k }

structure Flown (m : Cache β) (f : Flight β) : Prop where
  slot : ∀ j i, f.slots[j]? = some i → (m.slot i).valid = true ∧ (m.slot i).dirty = true ∧
    (m.slot i).key = ⟨f.dev,f.base + j⟩
  source : f.source m = f.slots.map fun i => (m.slot i).data
  landed : f.landed = true → ∀ i ∈ f.slots, m.medium (m.slot i).key = (m.slot i).data

def Row (m : Cache β) (run : List Nat) : Prop :=
  ∀ n i j, run[n]? = some i → run.head? = some j →
    (m.slot i).key = ⟨(m.slot j).key.dev,(m.slot j).key.block + n⟩

structure Hold.Weaker (x y : Hold β) : Prop where
  fill : y.fill = x.fill
  flight : y.flight = x.flight
  zero : y.zero = x.zero
  set : y.set.Perm x.set
  runs : ∀ run ∈ y.runs, run ∈ x.runs
  anchor : y.anchor = x.anchor
  ahead : y.ahead = none ∨ y.ahead = x.ahead
  since : y.since = none ∨ y.since = x.since
  sweep : y.sweep = none ∨ y.sweep = x.sweep

structure Actor where
  task : Nat
  stamp : Owner
  file : Option Owner
  coherent : Prop
  durable : Prop
  lossless : Prop

inductive Move (cfg : Config β) (q : Actor) : World β → World β → Prop where
  | tick {w : World β} (m : Cache β) (slot : m.slot = w.mem.slot) (chain : m.chain = w.mem.chain)
      (medium : m.medium = w.mem.medium) (history : m.history = w.mem.history)
      (gen : m.gen = w.mem.gen) (hand : 0 < cfg.entries → m.hand < cfg.entries) :
      Move cfg q w { w with mem := m }
  | vacate {w : World β} (i : Nat) (e : Slot β) (empty : e.Empty)
      (busy : (w.mem.slot i).busy = false)
      (dirty : (w.mem.slot i).dirty = true → (w.hold q.task).zeroes (w.mem.slot i).key = true) :
      Move cfg q w { w with mem := vacate cfg i e w.mem }
  | claimFill {w : World β} (i : Nat) (k : Key) (free : Free cfg w.mem i) (absent : Absent w.mem k)
      (fill : (w.hold q.task).fill = none) (flight : (w.hold q.task).flight = none)
      (set : (w.hold q.task).set = []) :
      Move cfg q w
        (w.put q.task
          (occupy cfg i
            { w.mem.slot i with key := k, busy := true, valid := false, dirty := false } w.mem)
          { w.hold q.task with
            fill := some ⟨i,k,none⟩
            ahead := some ⟨w.mem.gen k.dev,k.dev,k.block + 1,[]⟩ })
  | readFill {w : World β} (p : Filling β) (a : Ahead β) (b : β) (bs : List β)
      (fill : (w.hold q.task).fill = some p) (flight : (w.hold q.task).flight = none)
      (set : (w.hold q.task).set = []) (ahead : (w.hold q.task).ahead = some a)
      (first : b = w.mem.medium p.key)
      (rest : ∀ (j : Nat) (c : β), bs[j]? = some c → c = w.mem.medium (a.key j))
      (clear : q.coherent → Clear w p.key ∧ ∀ j < bs.length, Clear w (a.key j) ∧
        ∀ i, (w.mem.slot i).hashed = true → (w.mem.slot i).key = a.key j →
          (w.mem.slot i).dirty = false) :
      Move cfg q w
        (w.put q.task (w.mem.edit p.slot fun e => { e with data := b })
          { w.hold q.task with
            fill := some { p with data := some b }
            ahead := some { a with buf := bs } })
  | publishFill {w : World β} (p : Filling β) (fill : (w.hold q.task).fill = some p)
      (flight : (w.hold q.task).flight = none) (set : (w.hold q.task).set = [])
      (read : p.data.isSome = true) (clear : Clear w p.key) :
      Move cfg q w
        (w.put q.task (publishFill p.slot w.mem) { w.hold q.task with fill := none })
  | publishAhead {w : World β} (i : Nat) (a : Ahead β) (b : β) (bs : List β)
      (ahead : (w.hold q.task).ahead = some a) (buf : a.buf = b :: bs)
      (gen : w.mem.gen a.dev = a.gen) (free : Free cfg w.mem i) (absent : Absent w.mem (a.key 0))
      (clear : Clear w (a.key 0)) :
      Move cfg q w
        (w.put q.task
          (occupy cfg i
            { w.mem.slot i with
              key := a.key 0, valid := true, busy := false, dirty := false, data := b } w.mem)
          { w.hold q.task with ahead := some { a with next := a.next + 1, buf := bs } })
  | skipAhead {w : World β} (a : Ahead β) (b : β) (bs : List β)
      (ahead : (w.hold q.task).ahead = some a) (buf : a.buf = b :: bs) :
      Move cfg q w
        (w.put q.task w.mem { w.hold q.task with ahead := some { a with next := a.next + 1, buf := bs } })
  | hit {w : World β} (i : Nat) (since : Key → Nat) (reading : (w.hold q.task).since = some since)
      (valid : (w.mem.slot i).valid = true) :
      Move cfg q w
        { w with
          delivered := w.delivered ++
            [⟨(w.mem.slot i).key,since (w.mem.slot i).key,(w.mem.slot i).data⟩] }
  | write {w : World β} (i : Nat) (k : Key) (b : β) (valid : (w.mem.slot i).valid = true)
      (busy : (w.mem.slot i).busy = false) (key : (w.mem.slot i).key = k)
      (owned : q.durable → Stamping w q.stamp q.file k) :
      Move cfg q w
        { w with
          mem := dirtyBlock q.stamp k b i w.mem
          dirtied := w.dirtied ++ [⟨k,(w.mem.history k).top + 1,q.file⟩] }
  | writeNew {w : World β} (i : Nat) (k : Key) (b : β) (free : Free cfg w.mem i)
      (absent : Absent w.mem k) (clear : Clear w k) (owned : q.durable → Stamping w q.stamp q.file k) :
      Move cfg q w
        { w with
          mem := dirtyBlock q.stamp k b i (install cfg i k w.mem)
          dirtied := w.dirtied ++ [⟨k,(w.mem.history k).top + 1,q.file⟩] }
  | fly {w : World β} (f : Flight β) (anchor : Option Nat)
      (bound : ∀ i, anchor = some i → i < cfg.entries) (flight : (w.hold q.task).flight = none)
      (nodup : f.slots.Nodup)
      (landed : f.landed = false) (flown : Flown w.mem f)
      (busy : ∀ i ∈ f.slots, (w.mem.slot i).busy = false) :
      Move cfg q w
        (w.put q.task (w.mem.claim f.slots)
          { w.hold q.task with flight := some f, anchor := anchor })
  | collect {w : World β} (i : Nat) (valid : (w.mem.slot i).valid = true)
      (dirty : (w.mem.slot i).dirty = true) (busy : (w.mem.slot i).busy = false) :
      Move cfg q w
        (w.put q.task (w.mem.claim [i]) { w.hold q.task with set := (w.hold q.task).set ++ [i] })
  | order {w : World β} (runs : List (List Nat))
      (rows : ∀ run ∈ runs, (∀ i ∈ run, i ∈ (w.hold q.task).set) ∧ Row w.mem run) :
      Move cfg q w
        (w.put q.task w.mem { w.hold q.task with runs := runs })
  | dispatch {w : World β} (f : Flight β) (rest : List Nat) (runs : List (List Nat))
      (flight : (w.hold q.task).flight = none) (set : (w.hold q.task).set.Perm (f.slots ++ rest))
      (landed : f.landed = false) (flown : Flown w.mem f)
      (rows : ∀ run ∈ runs, run ∈ (w.hold q.task).runs ∧ ∀ i ∈ run, i ∈ rest) :
      Move cfg q w
        (w.put q.task w.mem { w.hold q.task with flight := some f, set := rest, runs := runs })
  | land {w : World β} (f : Flight β) (flight : (w.hold q.task).flight = some f)
      (landed : f.landed = false) :
      Move cfg q w
        (w.put q.task (blkDevWrite f w.mem) { w.hold q.task with flight := some { f with landed := true } })
  | finish {w : World β} (f : Flight β) (flight : (w.hold q.task).flight = some f)
      (landed : f.landed = true) :
      Move cfg q w
        (w.put q.task (w.mem.release f.slots)
          { w.hold q.task with flight := none, anchor := none })
  | startZero {w : World β} (a : Span) (zero : (w.hold q.task).zero = none) (lossy : ¬q.lossless) :
      Move cfg q w
        (w.put q.task w.mem { w.hold q.task with zero := some (a, 0) })
  | passZero {w : World β} (a : Span) (i j : Nat) (zero : (w.hold q.task).zero = some (a, i))
      (gone : (w.mem.slot i).valid = true → a.has (w.mem.slot i).key = false) (next : j ≤ i + 1) :
      Move cfg q w
        (w.put q.task w.mem { w.hold q.task with zero := some (a, j) })
  | landZero {w : World β} (a : Span) (i : Nat) (bytes : Key → β)
      (zero : (w.hold q.task).zero = some (a, i)) (passed : cfg.entries ≤ i)
      (apart : q.coherent → ∀ σ,
        (∀ p, (w.hold σ).fill = some p → a.has p.key = false) ∧
        ∀ h, (w.hold σ).ahead = some h → ∀ j < h.buf.length, a.has (h.key j) = false) :
      Move cfg q w
        (w.put q.task (Zeroed a bytes w.mem) { w.hold q.task with zero := none })
  | startRead {w : World β} :
      Move cfg q w
        (w.put q.task w.mem { w.hold q.task with since := some fun k => (w.mem.history k).top })
  | startSweep {w : World β} (scope : Scope) :
      Move cfg q w
        (w.put q.task w.mem { w.hold q.task with sweep := some ⟨scope,w.dirtied.length,0,false⟩ })
  | restart {w : World β} (y : Progress) (scope : Scope) (sweep : (w.hold q.task).sweep = some y) :
      Move cfg q w
        (w.put q.task w.mem { w.hold q.task with sweep := some ⟨scope,y.upto,0,false⟩ })
  | pass {w : World β} (y : Progress) (seen : Bool) (sweep : (w.hold q.task).sweep = some y)
      (kept : y.seen = true → seen = true)
      (passed : q.durable → seen = true ∨ y.scope.wants (w.mem.slot y.base) = false ∨
        y.base ∈ (w.hold q.task).slots ∨ y.scope = .drainAll false) :
      Move cfg q w
        (w.put q.task w.mem { w.hold q.task with sweep := some { y with base := y.base + 1, seen := seen } })
  | synced {w : World β} (y : Progress) (sweep : (w.hold q.task).sweep = some y)
      (passed : cfg.entries ≤ y.base) (seen : y.seen = false) (slots : (w.hold q.task).slots = [])
      (scope : y.scope ≠ .drainAll false) :
      Move cfg q w
        { w with
          hold := update w.hold q.task { w.hold q.task with sweep := none }
          synced := w.synced ++ [(y.scope, y.upto)] }
  | forget {w : World β} (x : Hold β) (weaker : (w.hold q.task).Weaker x) :
      Move cfg q w (w.put q.task w.mem x)

structure HoldOk (m : Cache β) (x : Hold β) : Prop where
  busy : ∀ i ∈ x.slots, (m.slot i).busy = true
  fill : ∀ p, x.fill = some p → (m.slot p.slot).key = p.key ∧ (m.slot p.slot).valid = false ∧
    ∀ b, p.data = some b → (m.slot p.slot).data = b
  flight : ∀ f, x.flight = some f → Flown m f
  set : ∀ i ∈ x.set, (m.slot i).valid = true ∧ (m.slot i).dirty = true
  runs : ∀ run ∈ x.runs, (∀ i ∈ run, i ∈ x.set) ∧ Row m run
  zero : ∀ z, x.zero = some z → ∀ j < z.2, (m.slot j).valid = true → z.1.has (m.slot j).key = false

structure Bytes (m : Cache β) (pending : Key → Prop) : Prop where
  newest : ∀ i, (m.slot i).dirty = true → (m.slot i).data = (m.history (m.slot i).key).newest
  settled : ∀ k, (∀ i, (m.slot i).dirty = true → (m.slot i).key ≠ k) → ¬pending k →
    m.medium k = (m.history k).newest

def Pending (hold : Nat → Hold β) (k : Key) : Prop := ∃ σ, (hold σ).zeroes k = true

structure Inv (cfg : Config β) (w : World β) : Prop where
  shape : Shape cfg w.mem
  holds : ∀ τ, HoldOk w.mem (w.hold τ)
  exclusive : Exclusive fun τ => (w.hold τ).slots
  anchored : ∀ τ i, (w.hold τ).anchor = some i → i < cfg.entries
  bytes : Bytes w.mem (Pending w.hold)

variable {cfg : Config β} {q : Actor} {τ : Nat} {stamp : Owner} {w w' : World β} {m m' : Cache β}
  {x y : Hold β} {f : Flight β} {i σ n j : Nat} {k : Key}

lemma Hold.mem_slots : i ∈ x.slots ↔ (∃ p, x.fill = some p ∧ p.slot = i) ∨
    (∃ f, x.flight = some f ∧ i ∈ f.slots) ∨ i ∈ x.set := by
  rw [Hold.slots]
  cases hfill : x.fill with
  | none =>
    cases hfl : x.flight with
    | none => simp
    | some => simp
  | some =>
    cases hfl : x.flight with
    | none | some => simp [eq_comm]

lemma Hold.flight_mem (hf : x.flight = some f) (hi : i ∈ f.slots) : i ∈ x.slots :=
  Hold.mem_slots.mpr (.inr (.inl ⟨f,hf,hi⟩))

variable {p : Filling β} {pending pending' : Key → Prop} {e : Slot β} {a : Option (Ahead β)} {b : β}
  {l run rest : List Nat}

lemma Hold.fill_mem (hp : x.fill = some p) : p.slot ∈ x.slots := Hold.mem_slots.mpr (.inl ⟨p,hp,rfl⟩)

lemma Hold.set_mem (hi : i ∈ x.set) : i ∈ x.slots := Hold.mem_slots.mpr (.inr (.inr hi))

lemma Hold.zeroes_of_some {z : Span × Nat} (hz : x.zero = some z) : x.zeroes k = z.1.has k := by
  rw [Hold.zeroes,hz,any_some]

structure Agree (m m' : Cache β) (i : Nat) : Prop where
  valid : (m'.slot i).valid = (m.slot i).valid
  dirty : (m'.slot i).dirty = (m.slot i).dirty
  key : (m'.slot i).key = (m.slot i).key
  data : (m'.slot i).data = (m.slot i).data

lemma Agree.of_eq (h : m'.slot i = m.slot i) : Agree m m' i :=
  ⟨by rw [h],by rw [h],by rw [h],by rw [h]⟩

lemma Flown.congr (h : Flown m f) (hslot : ∀ i ∈ f.slots, Agree m m' i)
    (hmed : f.landed = true → ∀ i ∈ f.slots, m'.medium (m.slot i).key = m.medium (m.slot i).key) :
    Flown m' f := by
  have hda : (f.slots.map fun i => (m'.slot i).data) = f.slots.map fun i => (m.slot i).data :=
    map_congr_left fun i hi => (hslot i hi).data
  refine ⟨fun j i hj => ?_,?_,fun hl i hi => ?_⟩
  · have hag := hslot i (mem_of_getElem? hj)
    rw [hag.valid,hag.dirty,hag.key]
    exact h.slot j i hj
  · have hsrc := h.source
    rw [Flight.source] at hsrc ⊢
    rw [hda,hsrc]
  rw [(hslot i hi).key,(hslot i hi).data,hmed hl i hi]
  exact h.landed hl i hi

lemma Row.congr (h : Row m run)
    (hkey : ∀ i ∈ run, (m'.slot i).key = (m.slot i).key) : Row m' run := by
  intro n i j hi hj
  rw [hkey i (mem_of_getElem? hi),hkey j (mem_of_mem_head? hj)]
  exact h n i j hi hj

lemma HoldOk.congr (h : HoldOk m x) (hslot : ∀ i ∈ x.slots, Agree m m' i)
    (hbz : ∀ i ∈ x.slots, (m'.slot i).busy = true)
    (hmed : ∀ f, x.flight = some f → f.landed = true → ∀ i ∈ f.slots,
      m'.medium (m.slot i).key = m.medium (m.slot i).key)
    (hze : ∀ j, (m'.slot j).valid = true →
      (m.slot j).valid = true ∧ (m'.slot j).key = (m.slot j).key ∨
        x.zeroes (m'.slot j).key = false) : HoldOk m' x where
  busy := hbz
  fill p hp := by
    have hag := hslot p.slot (Hold.fill_mem hp)
    rw [hag.key,hag.valid,hag.data]
    exact h.fill p hp
  flight f hf := (h.flight f hf).congr (fun i hi => hslot i (Hold.flight_mem hf hi)) (hmed f hf)
  set i hi := by
    have hag := hslot i (Hold.set_mem hi)
    rw [hag.valid,hag.dirty]
    exact h.set i hi
  runs run hrun := by
    obtain ⟨hin,hrow⟩ := h.runs run hrun
    refine ⟨hin,hrow.congr fun i hi => (hslot i (Hold.set_mem (hin i hi))).key⟩
  zero z hz j hj hv := by
    obtain ⟨hold,hkey⟩ | hno := hze j hv
    · rw [hkey]
      exact h.zero z hz j hj hold
    rwa [Hold.zeroes_of_some hz] at hno

section

variable (h : Bytes m pending) (hmed : m'.medium = m.medium)
  (hhis : m'.history = m.history)

include h hmed hhis

lemma Bytes.congr (hdt : ∀ i, (m'.slot i).dirty = true → (m.slot i).dirty = true ∧
      (m'.slot i).key = (m.slot i).key ∧ (m'.slot i).data = (m.slot i).data)
    (hba : ∀ i, (m.slot i).dirty = true →
      (m'.slot i).dirty = true ∧ (m'.slot i).key = (m.slot i).key ∨ pending' (m.slot i).key)
    (hpd : ∀ k, pending k → pending' k) : Bytes m' pending' where
  newest i hi := by
    obtain ⟨hd,hkey,hda⟩ := hdt i hi
    rw [hkey,hda,hhis]
    exact h.newest i hd
  settled k hk hno := by
    rw [hmed,hhis]
    refine h.settled k (fun i hi hkey => ?_) fun hp => hno (hpd k hp)
    obtain ⟨hd,hsa⟩ | hp := hba i hi
    · exact hk i hd (hsa.trans hkey)
    exact hno (hkey ▸ hp)

lemma Bytes.agree (hdt : ∀ i, (m'.slot i).dirty = (m.slot i).dirty)
    (hslot : ∀ i, (m.slot i).dirty = true →
      (m'.slot i).key = (m.slot i).key ∧ (m'.slot i).data = (m.slot i).data)
    (hpd : ∀ k, pending k → pending' k) : Bytes m' pending' := by
  refine h.congr hmed hhis (fun i hi => ?_) (fun i hi => .inl ?_) hpd
  · rw [hdt i] at hi
    exact ⟨hi,hslot i hi⟩
  rw [hdt i]
  exact ⟨hi,(hslot i hi).1⟩

end

lemma Inv.idle_slot (h : Inv cfg w) (hbz : (w.mem.slot i).busy = false) (σ : Nat) :
    i ∉ (w.hold σ).slots := by
  intro hi
  have hb := (h.holds σ).busy i hi
  rw [hbz] at hb
  cases hb

lemma World.put_all {p : Hold β → Prop} (hse : p x) (hot : ∀ σ, σ ≠ τ → p (w.hold σ))
    (σ : Nat) : p ((w.put τ m x).hold σ) :=
  (forall_update_iff w.hold fun _ y => p y).mpr ⟨hse,hot⟩ σ

lemma Inv.put (h : Inv cfg w) (hsh : Shape cfg m) (hots : ∀ σ, σ ≠ τ → HoldOk m (w.hold σ))
    (hse : HoldOk m x) (hnd : x.slots.Nodup) (hapt : ∀ σ, σ ≠ τ → ∀ i ∈ x.slots, i ∉ (w.hold σ).slots)
    (han : ∀ i, x.anchor = some i → i < cfg.entries) (hby : Bytes m (Pending (update w.hold τ x))) :
    Inv cfg (w.put τ m x) where
  shape := hsh
  holds := World.put_all hse hots
  exclusive := by
    have hup := h.exclusive.assign hnd hapt
    have heq : (fun σ => ((w.put τ m x).hold σ).slots) =
        update (fun σ => (w.hold σ).slots) τ x.slots := by
      funext σ
      change (update w.hold τ x σ).slots = _
      obtain rfl | hσ := eq_or_ne σ τ
      · rw [update_self,update_self]
      rw [update_of_ne hσ,update_of_ne hσ]
    rw [heq]
    exact hup
  anchored := World.put_all (p := fun x => ∀ i, x.anchor = some i → i < cfg.entries) han
    fun σ _ => h.anchored σ
  bytes := hby

lemma pending_update (hz : x.zero = (w.hold τ).zero) :
    Pending (update w.hold τ x) k ↔ Pending w.hold k := by
  have hzeroes : ∀ σ, (update w.hold τ x σ).zeroes k = (w.hold σ).zeroes k := by
    intro σ
    obtain rfl | hσ := eq_or_ne σ τ
    · rw [update_self,Hold.zeroes,hz,Hold.zeroes]
    rw [update_of_ne hσ]
  rw [Pending,Pending]
  simp [hzeroes]

lemma Inv.other (h : Inv cfg w) (hσ : σ ≠ τ)
    (hslot : ∀ i, (w.mem.slot i).busy = true → i ∉ (w.hold τ).slots →
      Agree w.mem m i ∧ (m.slot i).busy = true)
    (hmed : ∀ i, (w.mem.slot i).valid = true → i ∉ (w.hold τ).slots →
      m.medium (w.mem.slot i).key = w.mem.medium (w.mem.slot i).key)
    (hze : ∀ j, (m.slot j).valid = true →
      (w.mem.slot j).valid = true ∧ (m.slot j).key = (w.mem.slot j).key ∨ Clear w (m.slot j).key) :
    HoldOk m (w.hold σ) := by
  have hout := h.exclusive.apart σ τ hσ
  refine (h.holds σ).congr (fun i hi => (hslot i ((h.holds σ).busy i hi) (hout i hi)).1)
    (fun i hi => (hslot i ((h.holds σ).busy i hi) (hout i hi)).2) (fun f hf _ i hi => ?_)
    fun j hj => ?_
  · obtain ⟨n,hn⟩ := getElem?_of_mem hi
    exact hmed i (((h.holds σ).flight f hf).slot n i hn).1 (hout i (Hold.flight_mem hf hi))
  obtain hsa | hclr := hze j hj
  · exact .inl hsa
  exact .inr (hclr σ)

section Remem

variable (h : Inv cfg w) (hsh : Shape cfg m)
  (hslot : ∀ i, (w.mem.slot i).busy = true → Agree w.mem m i ∧ (m.slot i).busy = true)
  (hmed : m.medium = w.mem.medium)
  (hze : ∀ j, (m.slot j).valid = true →
    (w.mem.slot j).valid = true ∧ (m.slot j).key = (w.mem.slot j).key ∨ Clear w (m.slot j).key)

include h hslot hmed hze

lemma Inv.kept (σ : Nat) : HoldOk m (w.hold σ) := by
  refine (h.holds σ).congr (fun i hi => (hslot i ((h.holds σ).busy i hi)).1)
    (fun i hi => (hslot i ((h.holds σ).busy i hi)).2) (fun f _ _ i _ => by rw [hmed])
    fun j hj => ?_
  obtain hsa | hclr := hze j hj
  · exact .inl hsa
  exact .inr (hclr σ)

include hsh in
lemma Inv.remem (hby : Bytes m (Pending w.hold)) : Inv cfg { w with mem := m } :=
  ⟨hsh,h.kept hslot hmed hze,h.exclusive,h.anchored,hby⟩

end Remem

lemma Inv.rehold (h : Inv cfg w) (hse : HoldOk w.mem x) (hsl : x.slots.Perm (w.hold τ).slots)
    (han : x.anchor = (w.hold τ).anchor)
    (hpd : ∀ k, Pending w.hold k → Pending (update w.hold τ x) k) : Inv cfg (w.put τ w.mem x) := by
  refine h.put h.shape (fun σ _ => h.holds σ) hse
    (hsl.nodup_iff.mpr (h.exclusive.once τ)) (fun σ hσ i hi => ?_)
    (fun i hi => h.anchored τ i (han ▸ hi)) ?_
  · exact h.exclusive.apart τ σ hσ.symm i (hsl.mem_iff.mp hi)
  exact h.bytes.agree rfl rfl (fun _ => rfl) (fun _ _ => ⟨rfl,rfl⟩) hpd

lemma HoldOk.of_eq (h : HoldOk m x) (hfill : y.fill = x.fill) (hfl : y.flight = x.flight)
    (hze : y.zero = x.zero) (hset : y.set.Perm x.set) (hrn : ∀ run ∈ y.runs, run ∈ x.runs) :
    HoldOk m y where
  busy i hi := by
    refine h.busy i ?_
    rw [Hold.mem_slots,hfill,hfl,hset.mem_iff] at hi
    exact Hold.mem_slots.mpr hi
  fill p hp := h.fill p (hfill ▸ hp)
  flight f hf := h.flight f (hfl ▸ hf)
  set i hi := h.set i (hset.mem_iff.mp hi)
  runs run hrun :=
    ⟨fun i hi => hset.mem_iff.mpr ((h.runs run (hrn run hrun)).1 i hi), (h.runs run (hrn run hrun)).2⟩
  zero z hz := h.zero z (hze ▸ hz)

lemma Hold.slots_perm (hfill : y.fill = x.fill) (hfl : y.flight = x.flight)
    (hset : y.set.Perm x.set) : y.slots.Perm x.slots := by
  rw [Hold.slots,hfill,hfl]
  exact (hset.append_left _).append_left _

section

variable (h : Inv cfg w)

include h

lemma Inv.weaken (hfill : x.fill = (w.hold τ).fill)
    (hfl : x.flight = (w.hold τ).flight) (hze : x.zero = (w.hold τ).zero)
    (hset : x.set.Perm (w.hold τ).set) (hrn : ∀ run ∈ x.runs, run ∈ (w.hold τ).runs)
    (han : x.anchor = (w.hold τ).anchor) : Inv cfg (w.put τ w.mem x) :=
  h.rehold ((h.holds τ).of_eq hfill hfl hze hset hrn) (Hold.slots_perm hfill hfl hset)
    han
    fun _ hk => (pending_update hze).mpr hk

lemma Inv.tick (hslot : m.slot = w.mem.slot) (hch : m.chain = w.mem.chain)
    (hmed : m.medium = w.mem.medium) (hhis : m.history = w.mem.history)
    (hha : 0 < cfg.entries → m.hand < cfg.entries) : Inv cfg { w with mem := m } := by
  have hsh : Shape cfg m :=
    { hand := hha
      linked := by rw [hslot,hch]; exact h.shape.linked
      nodup := by rw [hch]; exact h.shape.nodup
      bound := by rw [hslot]; exact h.shape.bound
      used := by rw [hslot]; exact h.shape.used
      unique := by rw [hslot]; exact h.shape.unique
      dirty := by rw [hslot]; exact h.shape.dirty }
  refine h.remem hsh (fun i hi => ⟨.of_eq (by rw [hslot]),by rw [hslot]; exact hi⟩) hmed
    (fun j hj => .inl ?_) (h.bytes.agree hmed hhis (fun i => by rw [hslot])
      (fun i _ => by rw [hslot]; exact ⟨rfl,rfl⟩) fun _ hk => hk)
  rw [hslot] at hj ⊢
  exact ⟨hj,rfl⟩

lemma Inv.vacate (he : e.Empty) (hbz : (w.mem.slot i).busy = false)
    (hdt : (w.mem.slot i).dirty = true → Pending w.hold (w.mem.slot i).key) :
    Inv cfg { w with mem := vacate cfg i e w.mem } := by
  refine h.remem (h.shape.vacate he) (fun j hj => ?_) hashRemove_medium (fun j hj => .inl ?_)
    (h.bytes.congr hashRemove_medium hashRemove_history (fun j hj => ?_) (fun j hj => ?_) fun _ hk => hk)
  · have hne : j ≠ i := by
      rintro rfl
      rw [hbz] at hj
      cases hj
    exact ⟨.of_eq (vacate_of_ne hne),by rw [vacate_of_ne hne]; exact hj⟩
  · obtain ⟨-,hslot⟩ := vacate_flag he.valid hj
    rw [hslot] at hj ⊢
    exact ⟨hj,rfl⟩
  · obtain ⟨-,hslot⟩ := vacate_flag he.dirty hj
    rw [hslot] at hj ⊢
    exact ⟨hj,rfl,rfl⟩
  by_cases hji : j = i
  · exact .inr (hji ▸ hdt (hji ▸ hj))
  rw [vacate_of_ne hji]
  exact .inl ⟨hj,rfl⟩

lemma Inv.occupied (hfe : Free cfg w.mem i) (hnew : e.dirty = false) :
    (∀ j, (w.mem.slot j).busy = true →
      Agree w.mem (occupy cfg i e w.mem) j ∧ ((occupy cfg i e w.mem).slot j).busy = true) ∧
    ∀ {pending : Key → Prop}, (∀ k, Pending w.hold k → pending k) →
      Bytes (occupy cfg i e w.mem) pending := by
  have hcl := hfe.dirty h.shape
  refine ⟨fun j hj => ?_,h.bytes.agree rfl rfl (fun j => ?_) (fun j hj => ?_)⟩
  · have hne : j ≠ i := by
      rintro rfl
      rw [hfe.busy] at hj
      cases hj
    exact ⟨.of_eq (occupy_of_ne hne),by rw [occupy_of_ne hne]; exact hj⟩
  · obtain rfl | hji := eq_or_ne j i
    · rw [occupy_self,hcl]
      exact hnew
    rw [occupy_of_ne hji]
  have hne : j ≠ i := by
    rintro rfl
    rw [hcl] at hj
    cases hj
  rw [occupy_of_ne hne]
  exact ⟨rfl,rfl⟩

lemma Inv.occupy (hfe : Free cfg w.mem i) (hab : Absent w.mem e.key)
    (hclr : Clear w e.key) (hvl : e.valid = true) (hdt : e.dirty = false) :
    Inv cfg { w with mem := occupy cfg i e w.mem } := by
  obtain ⟨hslot,hby⟩ := h.occupied hfe hdt
  refine h.remem (h.shape.occupy hfe.bound (hfe.hashed h.shape) hab (.inl hvl)
    fun _ => hvl) hslot rfl (fun j hj => ?_) (hby fun _ hk => hk)
  by_cases hji : j = i
  · subst hji
    rw [occupy_self]
    exact .inr hclr
  rw [occupy_of_ne hji] at hj ⊢
  exact .inl ⟨hj,rfl⟩

end

lemma Hold.slots_fill (hfl : x.flight = none) (hset : x.set = []) :
    x.slots = (x.fill.map (·.slot)).toList := by
  simp [Hold.slots,hfl,hset]

lemma Inv.claimFill (h : Inv cfg w) (hfe : Free cfg w.mem i) (hab : Absent w.mem k)
    (hkey : e.key = k) (hbz : e.busy = true) (hvl : e.valid = false)
    (hdt : e.dirty = false) (hfl : (w.hold τ).flight = none) (hset : (w.hold τ).set = []) :
    Inv cfg (w.put τ (BlockCache.occupy cfg i e w.mem)
      { w.hold τ with fill := some ⟨i,k,none⟩, ahead := a }) := by
  subst hkey
  obtain ⟨hslot,hby⟩ := h.occupied hfe hdt
  have hsa : ∀ j, ((BlockCache.occupy cfg i e w.mem).slot j).valid = true →
      (w.mem.slot j).valid = true ∧
        ((BlockCache.occupy cfg i e w.mem).slot j).key = (w.mem.slot j).key := by
    intro j hj
    have hne : j ≠ i := by
      rintro rfl
      exact absurd hj (by simp [hvl])
    rw [occupy_of_ne hne] at hj ⊢
    exact ⟨hj,rfl⟩
  have hke := h.kept hslot rfl fun j hj => .inl (hsa j hj)
  have hsl : ({ w.hold τ with fill := some ⟨i,e.key,none⟩, ahead := a } : Hold β).slots = [i] :=
    Hold.slots_fill hfl hset
  refine h.put (h.shape.occupy hfe.bound (hfe.hashed h.shape) hab (.inr hbz)
      fun hd => absurd hd (by simp [hdt])) (fun σ _ => hke σ) ?_ ?_ (fun σ _ j hj => ?_)
    (h.anchored τ) (hby fun k => (pending_update (by rfl)).mpr)
  · refine ⟨fun j hj => ?_,fun p hp => ?_,fun f hf => ?_,fun j hj => ?_,(hke τ).runs,(hke τ).zero⟩
    · rw [hsl,mem_singleton] at hj
      subst hj
      rw [occupy_self]
      exact hbz
    · cases hp
      rw [occupy_self]
      exact ⟨rfl,hvl,fun b hb => by cases hb⟩
    · exact absurd (hfl.symm.trans hf) (by simp)
    rw [hset] at hj
    cases hj
  · rw [hsl]
    exact nodup_singleton i
  rw [hsl,mem_singleton] at hj
  exact hj ▸ h.idle_slot hfe.busy σ

section

variable (h : Inv cfg w) (hfill : (w.hold τ).fill = some p) (hfl : (w.hold τ).flight = none)

include h hfill hfl

lemma Inv.refill {fill : Option (Filling β)} (hset : (w.hold τ).set = []) (hkey : e.key = p.key)
    (hhs : e.hashed = (w.mem.slot p.slot).hashed) (hdt : e.dirty = false)
    (hus : e.valid = true ∨ e.busy = true) (hclr : e.valid = true → Clear w p.key)
    (hx : ∀ q, fill = some q → q.slot = p.slot ∧ q.key = p.key ∧ e.busy = true ∧
      e.valid = false ∧ ∀ b, q.data = some b → e.data = b) :
    Inv cfg (w.put τ (w.mem.edit p.slot fun _ => e) { w.hold τ with fill, ahead := a }) := by
  have hse := h.holds τ
  obtain ⟨hown,hvl,-⟩ := hse.fill p hfill
  have hsa : e.key = (w.mem.slot p.slot).key := hkey.trans hown.symm
  have hmem := Hold.fill_mem hfill
  have hbz := hse.busy _ hmem
  have hcl := h.shape.clean hvl
  have hks : ∀ j, ((w.mem.edit p.slot fun _ => e).slot j).key = (w.mem.slot j).key :=
    (forall_update_iff w.mem.slot fun j s => s.key = (w.mem.slot j).key).mpr ⟨hsa,fun _ _ => rfl⟩
  have hze : ∀ j, ((w.mem.edit p.slot fun _ => e).slot j).valid = true →
      (w.mem.slot j).valid = true ∧
        ((w.mem.edit p.slot fun _ => e).slot j).key = (w.mem.slot j).key ∨
      Clear w ((w.mem.edit p.slot fun _ => e).slot j).key := by
    refine (forall_update_iff w.mem.slot fun j s => s.valid = true → (w.mem.slot j).valid = true ∧
      s.key = (w.mem.slot j).key ∨ Clear w s.key).mpr ⟨fun hv => .inr ?_,fun j _ hv => .inl ⟨hv,rfl⟩⟩
    rw [hkey]
    exact hclr hv
  have hsl : ({ w.hold τ with fill, ahead := a } : Hold β).slots =
      (fill.map (·.slot)).toList := Hold.slots_fill hfl hset
  have hin : ∀ j ∈ ({ w.hold τ with fill, ahead := a } : Hold β).slots,
      j = p.slot ∧ e.busy = true := by
    intro j hj
    rw [hsl,mem_toList,map_eq_some_iff] at hj
    obtain ⟨q,hq,rfl⟩ := hj
    exact ⟨(hx q hq).1,(hx q hq).2.2.1⟩
  refine h.put (h.shape.edit rfl rfl rfl hsa hhs (iff_of_true hus (.inr hbz))
      fun hd => absurd hd (by simp [hdt]))
    (fun σ hσ => h.other hσ (fun j hj hout => ?_) (fun _ _ _ => rfl) hze) ?_ ?_ (fun σ hσ j hj => ?_)
    (h.anchored τ) (h.bytes.agree rfl rfl ?_ (fun j hj => ?_) fun k => (pending_update (by rfl)).mpr)
  · have hne : j ≠ p.slot := fun heq => hout (heq ▸ hmem)
    exact ⟨.of_eq (edit_of_ne hne),by rw [edit_of_ne hne]; exact hj⟩
  · refine ⟨fun j hj => ?_,fun q hq => ?_,fun f hf => ?_,fun j hj => ?_,
      fun run hrun => ⟨(hse.runs run hrun).1,(hse.runs run hrun).2.congr fun j _ => hks j⟩,
      fun z hz j hj hv => ?_⟩
    · obtain ⟨rfl,hb⟩ := hin j hj
      rw [edit_self]
      exact hb
    · obtain ⟨hslot,hq,-,hv,hda⟩ := hx q hq
      rw [hslot,edit_self]
      exact ⟨hkey.trans hq.symm,hv,hda⟩
    · exact absurd (hfl.symm.trans hf) (by simp)
    · rw [hset] at hj
      cases hj
    obtain ⟨hold,hke⟩ | hno := hze j hv
    · rw [hke]
      exact hse.zero z hz j hj hold
    have hz' := hno τ
    rwa [Hold.zeroes_of_some (x := w.hold τ) hz] at hz'
  · rw [hsl]
    cases fill <;> simp
  · rw [(hin j hj).1]
    exact h.exclusive.apart τ σ hσ.symm _ hmem
  · exact (forall_update_iff w.mem.slot fun j s => s.dirty = (w.mem.slot j).dirty).mpr
      ⟨hdt.trans hcl.symm,fun _ _ => rfl⟩
  · have hne : j ≠ p.slot := by
      rintro rfl
      cases hcl.symm.trans hj
    rw [edit_of_ne hne]
    exact ⟨rfl,rfl⟩

lemma Inv.readFill (hset : (w.hold τ).set = []) :
    Inv cfg (w.put τ (w.mem.edit p.slot fun e => { e with data := b })
      { w.hold τ with fill := some { p with data := some b }, ahead := a }) := by
  obtain ⟨hkey,hvl,-⟩ := (h.holds τ).fill p hfill
  have hbz := (h.holds τ).busy _ (Hold.fill_mem hfill)
  refine h.refill hfill hfl hset hkey rfl
    (h.shape.clean hvl) (.inr hbz) (fun hv => by cases hvl.symm.trans hv) fun q hq => ?_
  cases hq
  exact ⟨rfl,rfl,hbz,hvl,fun c => some.inj⟩

lemma Inv.publishFill (hset : (w.hold τ).set = []) (hclr : Clear w p.key) :
    Inv cfg (w.put τ (BlockCache.publishFill p.slot w.mem) { w.hold τ with fill := none }) :=
  h.refill hfill
    hfl hset ((h.holds τ).fill p hfill).1 rfl rfl (.inl rfl) (fun _ => hclr) nofun

end

section

variable (h : Inv cfg w)

include h

lemma Inv.write (hvl : (w.mem.slot i).valid = true)
    (hbz : (w.mem.slot i).busy = false) (hkey : (w.mem.slot i).key = k) :
    Inv cfg { w with mem := dirtyBlock stamp k b i w.mem } := by
  have hown : (dirtyBlock stamp k b i w.mem).slot i =
      { w.mem.slot i with data := b, dirty := true, owner := stamp } := update_self ..
  have hot : ∀ j, j ≠ i → (dirtyBlock stamp k b i w.mem).slot j = w.mem.slot j :=
    fun j hj => update_of_ne hj ..
  have hhis : ∀ k', k' ≠ k → (dirtyBlock stamp k b i w.mem).history k' = w.mem.history k' :=
    fun k' hk' => update_of_ne hk' ..
  have hsh : Shape cfg (dirtyBlock stamp k b i w.mem) :=
    h.shape.edit rfl rfl rfl rfl rfl .rfl fun _ => hvl
  refine h.remem hsh (fun j hj => ?_) rfl (fun j hj => .inl ?_)
    ⟨fun j hj => ?_,fun k' hk' hno => ?_⟩
  · have hne : j ≠ i := by
      rintro rfl
      rw [hbz] at hj
      cases hj
    exact ⟨.of_eq (hot j hne),by rw [hot j hne]; exact hj⟩
  · by_cases hji : j = i
    · rw [hji,hown]
      exact ⟨hvl,rfl⟩
    rw [hot j hji] at hj ⊢
    exact ⟨hj,rfl⟩
  · by_cases hji : j = i
    · rw [hji,hown,hkey]
      change b = (update w.mem.history k _ k).newest
      rw [update_self,Versions.newest_push]
    rw [hot j hji] at hj ⊢
    have hne : (w.mem.slot j).key ≠ k := fun heq => hji (h.shape.unique j i
      (h.shape.hashed (h.shape.dirty j hj)) (h.shape.hashed hvl) (heq.trans hkey.symm))
    rw [hhis _ hne]
    exact h.bytes.newest j hj
  have hne : k' ≠ k := by
    rintro rfl
    refine hk' i ?_ ?_
    · rw [hown]
    rw [hown]
    exact hkey
  rw [hhis k' hne]
  refine h.bytes.settled k' (fun j hj => ?_) hno
  by_cases hji : j = i
  · rw [hji,hkey]
    exact hne.symm
  have hd := hk' j
  rw [hot j hji] at hd
  exact hd hj

omit h in
lemma claim_agree (j : Nat) : Agree m (m.claim l) j := by
  constructor <;> simp

omit h in
lemma Shape.claim (h : Shape cfg m) (hl : ∀ i ∈ l, (m.slot i).valid = true) : Shape cfg (m.claim l) := by
  refine h.flags rfl rfl (fun j => by simp) (fun j => by simp) (fun j => ?_) fun j hj => ?_
  · by_cases hj : j ∈ l
    · simp [hl j hj]
    simp [hj]
  rw [claim_slot] at hj ⊢
  exact h.dirty j hj

lemma Inv.claimed (σ : Nat) : HoldOk (w.mem.claim l) (w.hold σ) := by
  refine h.kept (fun j hj => ⟨claim_agree j,?_⟩) rfl (fun j hj => .inl ?_) σ
  · simp [hj]
  rw [claim_slot] at hj ⊢
  exact ⟨hj,rfl⟩

lemma Inv.claim (hl : ∀ i ∈ l, (w.mem.slot i).valid = true)
    (hbz : ∀ i ∈ l, (w.mem.slot i).busy = false) (hnd : l.Nodup)
    (hsl : x.slots.Perm (l ++ (w.hold τ).slots)) (hze : x.zero = (w.hold τ).zero)
    (hfill : x.fill = (w.hold τ).fill) (hfl : ∀ f, x.flight = some f → Flown w.mem f)
    (hset : ∀ i ∈ x.set, (w.mem.slot i).valid = true ∧ (w.mem.slot i).dirty = true)
    (hrn : ∀ run ∈ x.runs, (∀ i ∈ run, i ∈ x.set) ∧ Row w.mem run)
    (han : ∀ i, x.anchor = some i → i < cfg.entries) : Inv cfg (w.put τ (w.mem.claim l) x) := by
  have hse : HoldOk (w.mem.claim l) (w.hold τ) := h.claimed τ
  refine h.put (h.shape.claim hl) (fun σ _ => h.claimed σ) ?_ ?_ (fun σ hσ j hj => ?_) han
    (h.bytes.agree rfl rfl (fun j => by simp) (fun j _ => by simp) fun k => (pending_update hze).mpr)
  · refine ⟨fun j hj => ?_,fun p hp => ?_,fun f hf => ?_,fun j hj => ?_,
      fun run hrun => ⟨(hrn run hrun).1,(hrn run hrun).2.congr fun j _ => (claim_agree j).key⟩,
      fun z hz => ?_⟩
    · obtain hjl | hjx := mem_append.mp (hsl.mem_iff.mp hj)
      · simp [hjl]
      exact hse.busy j hjx
    · exact hse.fill p (hfill ▸ hp)
    · exact (hfl f hf).congr (fun j _ => claim_agree j) fun _ _ _ => rfl
    · rw [claim_slot]
      exact hset j hj
    exact hse.zero z (hze ▸ hz)
  · refine hsl.nodup_iff.mpr (nodup_append.mpr ⟨hnd,h.exclusive.once τ,?_⟩)
    rintro a ha b hb rfl
    exact h.idle_slot (hbz a ha) τ hb
  obtain hjl | hjx := mem_append.mp (hsl.mem_iff.mp hj)
  · exact h.idle_slot (hbz j hjl) σ
  exact h.exclusive.apart τ σ hσ.symm j hjx

lemma Inv.fly {anchor : Option Nat}
    (han : ∀ i, anchor = some i → i < cfg.entries) (hfl : (w.hold τ).flight = none) (hnd : f.slots.Nodup)
    (hfw : Flown w.mem f) (hbz : ∀ i ∈ f.slots, (w.mem.slot i).busy = false) :
    Inv cfg (w.put τ (w.mem.claim f.slots)
      { w.hold τ with flight := some f, anchor }) := by
  refine h.claim (fun i hi => ?_) hbz hnd ?_ rfl rfl (fun g hg => ?_) (h.holds τ).set
    (h.holds τ).runs han
  · obtain ⟨n,hn⟩ := getElem?_of_mem hi
    exact (hfw.slot n i hn).1
  · rw [Hold.slots,Hold.slots,hfl]
    exact (perm_append_comm_assoc ..)
  cases hg
  exact hfw

lemma Inv.collect (hvl : (w.mem.slot i).valid = true)
    (hdt : (w.mem.slot i).dirty = true) (hbz : (w.mem.slot i).busy = false) :
    Inv cfg (w.put τ (w.mem.claim [i]) { w.hold τ with set := (w.hold τ).set ++ [i] }) := by
  have hsl : ({ w.hold τ with set := (w.hold τ).set ++ [i] } : Hold β).slots =
      (w.hold τ).slots ++ [i] := by simp [Hold.slots]
  refine h.claim (by simpa using hvl) (by simpa using hbz) (nodup_singleton i) ?_ rfl rfl
    (h.holds τ).flight (fun j hj => ?_) (fun run hrun =>
      ⟨fun j hj => mem_append_left _ (((h.holds τ).runs run hrun).1 j hj),
        ((h.holds τ).runs run hrun).2⟩) (h.anchored τ)
  · rw [hsl]
    exact perm_append_comm
  obtain hj | hj := mem_append.mp hj
  · exact (h.holds τ).set j hj
  rw [mem_singleton.mp hj]
  exact ⟨hvl,hdt⟩

lemma Inv.dispatch {runs : List (List Nat)}
    (hfl : (w.hold τ).flight = none) (hset : (w.hold τ).set.Perm (f.slots ++ rest))
    (hfw : Flown w.mem f) (hrn : ∀ run ∈ runs, run ∈ (w.hold τ).runs ∧ ∀ i ∈ run, i ∈ rest) :
    Inv cfg (w.put τ w.mem { w.hold τ with flight := some f, set := rest, runs }) := by
  have hsl : ({ w.hold τ with flight := some f, set := rest, runs } : Hold β).slots.Perm
      (w.hold τ).slots := by
    rw [Hold.slots,Hold.slots,hfl]
    exact List.Perm.append_left _ hset.symm
  refine h.rehold ⟨fun j hj => (h.holds τ).busy j (hsl.mem_iff.mp hj),(h.holds τ).fill,
    fun g hg => ?_,fun j hj => ?_,fun run hrun =>
      ⟨(hrn run hrun).2,((h.holds τ).runs run (hrn run hrun).1).2⟩,(h.holds τ).zero⟩ hsl rfl
    fun k => (pending_update (by rfl)).mpr
  · cases hg
    exact hfw
  exact (h.holds τ).set j (hset.mem_iff.mpr (mem_append_right _ hj))

end

lemma Flown.mem_slot (h : Flown m f) (hi : i ∈ f.slots) :
    (m.slot i).valid = true ∧ (m.slot i).dirty = true := by
  obtain ⟨j,hj⟩ := getElem?_of_mem hi
  exact ⟨(h.slot j i hj).1,(h.slot j i hj).2.1⟩

lemma Flown.devWrite_self (h : Flown m f) (hi : i ∈ f.slots) :
    (blkDevWrite f m).medium (m.slot i).key = (m.slot i).data := by
  obtain ⟨j,hj⟩ := getElem?_of_mem hi
  obtain ⟨-,-,hkey⟩ := h.slot j i hj
  change (if (m.slot i).key.dev = f.dev ∧ f.base ≤ (m.slot i).key.block then _ else _) = _
  rw [hkey,if_pos ⟨rfl,le_self_add⟩,h.source,Nat.add_sub_cancel_left,getElem?_map,hj]
  rfl

lemma Flown.devWrite_of_ne (h : Flown m f) (hk : ∀ i ∈ f.slots, (m.slot i).key ≠ k) :
    (blkDevWrite f m).medium k = m.medium k := by
  change (if k.dev = f.dev ∧ f.base ≤ k.block then _ else _) = _
  split_ifs with hin
  · rw [h.source,getElem?_map]
    cases hj : f.slots[k.block - f.base]? with
    | none => rfl
    | some i =>
      obtain ⟨-,-,hkey⟩ := h.slot _ i hj
      refine absurd (hkey.trans ?_) (hk i (mem_of_getElem? hj))
      rw [← hin.1,Nat.add_sub_cancel' hin.2]
  rfl

section

variable (h : Inv cfg w) (hfl : (w.hold τ).flight = some f)

include h hfl

lemma Inv.land :
    Inv cfg (w.put τ (blkDevWrite f w.mem)
      { w.hold τ with flight := some { f with landed := true } }) := by
  have hse := h.holds τ
  have hfw := hse.flight f hfl
  have hsl : ({ w.hold τ with flight := some { f with landed := true } } : Hold β).slots =
      (w.hold τ).slots := by
    rw [Hold.slots,Hold.slots,hfl]
    rfl
  refine h.put (h.shape.flags rfl rfl (fun _ => rfl) (fun _ => rfl) (fun _ => .rfl) h.shape.dirty)
    (fun σ hσ => h.other hσ (fun j hj _ => ⟨.of_eq rfl,hj⟩) (fun j hj hout => ?_)
      fun j hj => .inl ⟨hj,rfl⟩) ?_ ?_ (fun σ hσ j hj => ?_) (h.anchored τ)
    ⟨h.bytes.newest,fun k hk hno => ?_⟩
  · refine hfw.devWrite_of_ne fun i hi heq => hout ?_
    have hii := h.shape.unique i j (h.shape.hashed (hfw.mem_slot hi).1) (h.shape.hashed hj) heq
    exact hii ▸ Hold.flight_mem hfl hi
  · refine ⟨fun j hj => hse.busy j (hsl ▸ hj),hse.fill,fun g hg => ?_,hse.set,hse.runs, hse.zero⟩
    cases hg
    exact ⟨hfw.slot,hfw.source,fun _ i => hfw.devWrite_self⟩
  · rw [hsl]
    exact h.exclusive.once τ
  · rw [hsl] at hj
    exact h.exclusive.apart τ σ hσ.symm j hj
  have hsa : (blkDevWrite f w.mem).medium k = w.mem.medium k :=
    hfw.devWrite_of_ne fun i hi => hk i (hfw.mem_slot hi).2
  rw [hsa]
  exact h.bytes.settled k hk fun hp => hno ((pending_update (by rfl)).mpr hp)

lemma Inv.freed {d : Nat → Bool} (hslot : ∀ j, m.slot j = { w.mem.slot j with
      busy := (w.mem.slot j).busy && decide (j ∉ f.slots), dirty := d j })
    (hout : ∀ j, j ∉ f.slots → d j = (w.mem.slot j).dirty)
    (hd : ∀ j, d j = true → (w.mem.slot j).dirty = true) (hch : m.chain = w.mem.chain)
    (hha : m.hand = w.mem.hand) (hmed : m.medium = w.mem.medium)
    (hby : Bytes m
      (Pending (update w.hold τ { w.hold τ with flight := none, anchor := none }))) :
    Inv cfg (w.put τ m { w.hold τ with flight := none, anchor := none }) := by
  have hse := h.holds τ
  have hpm : (w.hold τ).slots.Perm
      (f.slots ++ ({ w.hold τ with flight := none, anchor := none } : Hold β).slots) := by
    rw [Hold.slots,hfl]
    exact perm_append_comm_assoc ..
  have hnd := nodup_append.mp (hpm.nodup_iff.mp (h.exclusive.once τ))
  have hagr : ∀ j, j ∉ f.slots → m.slot j = w.mem.slot j := by
    intro j hj
    simp [hslot,hout j hj,hj]
  have hrs : ∀ j ∈ ({ w.hold τ with flight := none, anchor := none } : Hold β).slots,
      j ∉ f.slots ∧ j ∈ (w.hold τ).slots := fun j hj =>
    ⟨fun hjf => hnd.2.2 j hjf j hj rfl,hpm.mem_iff.mpr (mem_append_right _ hj)⟩
  refine h.put (h.shape.flags hch hha (fun j => by rw [hslot]) (fun j => by rw [hslot])
    (fun j => ?_) fun j hj => ?_) (fun σ hσ => h.other hσ (fun j hj hnot => ?_)
      (fun _ _ _ => by rw [hmed]) fun j hj => .inl ?_) ?_ hnd.2.1
    (fun σ hσ j hj => h.exclusive.apart τ σ hσ.symm j (hrs j hj).2) nofun hby
  · by_cases hj : j ∈ f.slots
    · simp [hslot,((hse.flight f hfl).mem_slot hj).1]
    rw [hagr j hj]
  · rw [hslot] at hj ⊢
    exact h.shape.dirty j (hd j hj)
  · have hj' : j ∉ f.slots := fun hjf => hnot (Hold.flight_mem hfl hjf)
    exact ⟨.of_eq (hagr j hj'),by rw [hagr j hj']; exact hj⟩
  · rw [hslot] at hj ⊢
    exact ⟨hj,rfl⟩
  refine ⟨fun j hj => ?_,fun p hp => ?_,nofun,fun j hj => ?_,
    fun run hrun => ⟨(hse.runs run hrun).1,(hse.runs run hrun).2.congr fun j _ => by rw [hslot]⟩,
    fun z hz j hj hv => ?_⟩
  · rw [hagr j (hrs j hj).1]
    exact hse.busy j (hrs j hj).2
  · rw [hagr p.slot (hrs _ (Hold.fill_mem hp)).1]
    exact hse.fill p hp
  · rw [hagr j (hrs j (Hold.set_mem hj)).1]
    exact hse.set j hj
  rw [hslot] at hv ⊢
  exact hse.zero z hz j hj hv

lemma Inv.finish (hld : f.landed = true) :
    Inv cfg (w.put τ (w.mem.release f.slots)
      { w.hold τ with flight := none, anchor := none }) := by
  have hfw := (h.holds τ).flight f hfl
  have hold : ∀ j, ((w.mem.slot j).dirty && decide (j ∉ f.slots)) = true → (w.mem.slot j).dirty = true :=
    fun j hj => (Bool.and_eq_true _ _ ▸ hj).1
  refine h.freed hfl (fun _ => release_slot) (fun j hj => by simp [hj]) hold rfl rfl rfl
    ⟨fun j hj => ?_,fun k hk hno => ?_⟩
  · rw [release_slot] at hj ⊢
    exact h.bytes.newest j (hold j hj)
  by_cases hin : ∃ i ∈ f.slots, (w.mem.slot i).key = k
  · obtain ⟨i,hi,rfl⟩ := hin
    exact (hfw.landed hld i hi).trans (h.bytes.newest i (hfw.mem_slot hi).2)
  refine h.bytes.settled k (fun j hj heq => ?_) fun hp => hno ((pending_update (by rfl)).mpr hp)
  have hjf : j ∉ f.slots := fun hjf => hin ⟨j,hjf,heq⟩
  have hgo := hk j
  rw [release_slot] at hgo
  exact hgo (by simp [hj,hjf]) heq

end

lemma Inv.startZero {a : Span} (h : Inv cfg w) (hze : (w.hold τ).zero = none) :
    Inv cfg (w.put τ w.mem { w.hold τ with zero := some (a, 0) }) := by
  refine h.rehold { h.holds τ with zero := fun z hz j hj => ?_ } (List.Perm.refl _) rfl fun k hk => ?_
  · cases hz
    cases not_lt_zero hj
  obtain ⟨σ,hσ⟩ := hk
  have hne : σ ≠ τ := by
    rintro rfl
    rw [Hold.zeroes,hze] at hσ
    cases hσ
  exact ⟨σ,by rwa [update_of_ne hne]⟩

lemma Inv.passZero {a : Span} (h : Inv cfg w) (hze : (w.hold τ).zero = some (a, i))
    (hgo : (w.mem.slot i).valid = true → a.has (w.mem.slot i).key = false) (hn : n ≤ i + 1) :
    Inv cfg (w.put τ w.mem { w.hold τ with zero := some (a, n) }) := by
  refine h.rehold { h.holds τ with zero := fun z hz j hj hv => ?_ } (List.Perm.refl _) rfl
    fun k hk => ?_
  · cases hz
    obtain hlt | rfl := Nat.lt_succ_iff_lt_or_eq.mp (hj.trans_le hn)
    · exact (h.holds τ).zero _ hze j hlt hv
    exact hgo hv
  obtain ⟨σ,hσ⟩ := hk
  refine ⟨σ,?_⟩
  obtain rfl | hne := eq_or_ne σ τ
  · rw [update_self]
    rwa [Hold.zeroes_of_some hze] at hσ
  rwa [update_of_ne hne]

lemma Inv.gone {a : Span} (h : Inv cfg w) (hze : (w.hold τ).zero = some (a, i))
    (hps : cfg.entries ≤ i) (hv : (w.mem.slot j).valid = true) :
    a.has (w.mem.slot j).key = false :=
  (h.holds τ).zero _ hze j
    (lt_of_lt_of_le (h.shape.bound j (h.shape.hashed hv)) hps) hv

lemma Inv.landZero {a : Span} {bytes : Key → β} (h : Inv cfg w)
    (hze : (w.hold τ).zero = some (a, i)) (hps : cfg.entries ≤ i) :
    Inv cfg (w.put τ (Zeroed a bytes w.mem) { w.hold τ with zero := none }) := by
  have hse := h.holds τ
  have hgo : ∀ {j : Nat}, (w.mem.slot j).valid = true → a.has (w.mem.slot j).key = false :=
    (h.gone hze hps)
  have hmed : ∀ {j : Nat}, (w.mem.slot j).valid = true →
      (Zeroed a bytes w.mem).medium (w.mem.slot j).key = w.mem.medium (w.mem.slot j).key :=
    fun hv => if_neg (by rw [hgo hv]; simp)
  refine h.put (h.shape.flags rfl rfl (fun _ => rfl) (fun _ => rfl) (fun _ => .rfl) h.shape.dirty)
    (fun σ hσ => h.other hσ (fun j hj _ => ⟨.of_eq rfl,hj⟩) (fun j hj _ => hmed hj)
      fun j hj => .inl ⟨hj,rfl⟩) ?_ (h.exclusive.once τ)
    (fun σ hσ => h.exclusive.apart τ σ hσ.symm) (h.anchored τ)
    ⟨fun j hj => ?_,fun k hk hno => ?_⟩
  · refine { hse with flight := fun g hg => ?_, zero := nofun }
    have hfw := hse.flight g hg
    exact hfw.congr (fun j _ => .of_eq rfl) fun _ j hj => hmed (hfw.mem_slot hj).1
  · change (w.mem.slot j).data = (if a.has (w.mem.slot j).key then _ else _ : Versions β).newest
    rw [if_neg (by rw [hgo (h.shape.dirty j hj)]; simp)]
    exact h.bytes.newest j hj
  change (if a.has k then bytes k else _) =
    (if a.has k then (w.mem.history k).push (bytes k) else _ : Versions β).newest
  by_cases hin : a.has k = true
  · rw [if_pos hin,if_pos hin,Versions.newest_push]
  rw [if_neg hin,if_neg hin]
  refine h.bytes.settled k hk fun hp => hno ?_
  obtain ⟨σ,hσ⟩ := hp
  have hne : σ ≠ τ := by
    rintro rfl
    rw [Hold.zeroes_of_some hze] at hσ
    exact hin hσ
  exact ⟨σ,by rwa [update_of_ne hne]⟩

lemma install_eq : install cfg i k m =
    occupy cfg i { m.slot i with key := k, valid := true, busy := false } m := rfl

lemma Inv.install (h : Inv cfg w) (hfe : Free cfg w.mem i) (hab : Absent w.mem k)
    (hclr : Clear w k) : Inv cfg { w with mem := install cfg i k w.mem } := by
  exact h.occupy hfe hab hclr rfl (hfe.dirty h.shape)

lemma install_self : (install cfg i k m).slot i =
    { m.slot i with key := k, valid := true, busy := false, hashed := true } := occupy_self

lemma Inv.writeNew (h : Inv cfg w) (hfe : Free cfg w.mem i) (hab : Absent w.mem k)
    (hclr : Clear w k) :
    Inv cfg { w with mem := dirtyBlock stamp k b i (BlockCache.install cfg i k w.mem) } := by
  have hinst := h.install hfe hab hclr
  exact hinst.write (by rw [install_self]) (by rw [install_self]) (by rw [install_self])

lemma Inv.move (h : Inv cfg w) (hm : Move cfg q w w') : Inv cfg w' := by
  cases hm with
  | tick _ slot chain medium history _ hand => exact h.tick slot chain medium history hand
  | vacate i e empty busy dirty => exact h.vacate empty busy fun hd => ⟨q.task,dirty hd⟩
  | claimFill _ _ free absent _ flight set =>
    exact h.claimFill free absent rfl rfl rfl rfl flight set
  | readFill _ _ _ _ fill flight set => exact h.readFill fill flight set
  | publishFill _ fill flight set _ clear => exact h.publishFill fill flight set clear
  | publishAhead _ _ _ _ _ _ _ free absent clear =>
    exact (h.occupy free absent clear rfl rfl).weaken rfl rfl rfl (List.Perm.refl _) (fun _ hr => hr) rfl
  | skipAhead => exact h.weaken rfl rfl rfl (List.Perm.refl _) (fun _ hr => hr) rfl
  | hit => exact { h with }
  | write i k b valid busy key =>
    have hw : Inv cfg { w with mem := dirtyBlock q.stamp k b i w.mem } := h.write valid busy key
    exact { hw with }
  | writeNew i k b free absent clear =>
    have hw : Inv cfg { w with mem := dirtyBlock q.stamp k b i (BlockCache.install cfg i k w.mem) } :=
      h.writeNew free absent clear
    exact { hw with }
  | fly _ _ bound flight nodup _ flown busy =>
    exact h.fly bound flight nodup flown busy
  | collect i valid dirty busy => exact h.collect valid dirty busy
  | order runs rows =>
    exact h.rehold { h.holds q.task with runs := rows } (List.Perm.refl _) rfl fun k hk =>
      (pending_update (by rfl)).mpr hk
  | dispatch _ _ _ flight set _ flown rows => exact h.dispatch flight set flown rows
  | land _ flight => exact h.land flight
  | finish f flight landed => exact h.finish flight landed
  | startZero _ zero => exact h.startZero zero
  | passZero a i j zero gone next => exact h.passZero zero gone next
  | landZero _ _ _ zero passed => exact h.landZero zero passed
  | startRead => exact h.weaken rfl rfl rfl (List.Perm.refl _) (fun _ hr => hr) rfl
  | startSweep => exact h.weaken rfl rfl rfl (List.Perm.refl _) (fun _ hr => hr) rfl
  | restart => exact h.weaken rfl rfl rfl (List.Perm.refl _) (fun _ hr => hr) rfl
  | pass => exact h.weaken rfl rfl rfl (List.Perm.refl _) (fun _ hr => hr) rfl
  | synced _ sweep =>
    have hw : Inv cfg (w.put q.task w.mem { w.hold q.task with sweep := none }) :=
      h.weaken rfl rfl rfl (List.Perm.refl _) (fun _ hr => hr) rfl
    exact { hw with }
  | forget x weaker =>
    exact h.weaken weaker.fill weaker.flight weaker.zero weaker.set weaker.runs weaker.anchor

end B1nix.BlockCache
