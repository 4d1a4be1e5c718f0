import B1nix.Page
import B1nix.Basic.Transition
import B1nix.Basic.Ring
import B1nix.Basic.Masks

namespace B1nix.BpfRingbuf

open Nat Prod Option

def busyBit : UInt32 := 0x80000000

def discardBit : UInt32 := 0x40000000

def hdrSz : UInt64 := 8

structure Ringbuf where
  size : UInt64
  prod : UInt64
  prodPage : UInt64
  cons : UInt64
  data : Nat → UInt8
  sized : ∃ k, 12 ≤ k ∧ k ≤ 24 ∧ size.toNat = 2 ^ k

def Sizable (size : UInt32) : Prop :=
  ¬(size.toNat < pageSize ∨ size &&& (size - 1) ≠ 0 ∨ (16 : UInt32) <<< (20 : UInt32) < size)

instance (size : UInt32) : Decidable (Sizable size) := inferInstanceAs (Decidable (¬_))

lemma sizable_pow {size : UInt32} (h : Sizable size) :
    ∃ k, 12 ≤ k ∧ k ≤ 24 ∧ size.toUInt64.toNat = 2 ^ k := by
  unfold Sizable at h
  simp only [not_or,not_not] at h
  obtain ⟨hpg,hand,hmost⟩ := h
  have hpos : size.toNat ≠ 0 := by
    rw [pageSize_eq] at hpg
    omega
  have hsub : (size - 1).toNat = size.toNat - 1 := by
    rw [UInt32.toNat_sub_of_le]
    · rfl
    exact one_le_iff_ne_zero.mpr hpos
  have hbits : size.toNat &&& (size.toNat - 1) = 0 := by
    rw [← hsub,← UInt32.toNat_and,hand]
    rfl
  obtain ⟨k,hk⟩ := (and_sub_one_eq_zero_iff_isPowerOfTwo hpos).mp hbits
  rw [hk] at hpg
  rw [UInt32.lt_iff_toNat_lt,hk] at hmost
  refine ⟨k,?_,?_,hk⟩
  · exact (Nat.pow_le_pow_iff_right (by decide)).mp (le_of_not_gt hpg : 2 ^ 12 ≤ 2 ^ k)
  exact (Nat.pow_le_pow_iff_right (by decide)).mp (le_of_not_gt hmost : 2 ^ k ≤ 2 ^ 24)

def ringbufAlloc (size : UInt32) (frames : Nat → UInt8) : Option Ringbuf :=
  if h : Sizable size then
    some
      { size := size.toUInt64
        prod := 0
        prodPage := 0
        cons := 0
        data := frames
        sized := sizable_pow h }
  else none

def get32 (d : Nat → UInt8) (off : Nat) : UInt32 :=
  UInt32.ofNat ((d off).toNat + 256 * (d (off + 1)).toNat + 65536 * (d (off + 2)).toNat +
    16777216 * (d (off + 3)).toNat)

def put32 (d : Nat → UInt8) (off : Nat) (v : UInt32) : Nat → UInt8 :=
  fun i => if off ≤ i ∧ i < off + 4 then UInt8.ofNat (v.toNat / 256 ^ (i - off)) else d i

def recordLen (size : UInt64) : UInt64 := (size + hdrSz + 7) &&& ~~~7

variable (rb : Ringbuf)

def place (prod off size : UInt64) : Ringbuf × Option Nat :=
  let paged := put32 rb.data (off.toNat + 4) (UInt32.ofNat (off.toNat / pageSize))
  ({ rb with
      data := put32 paged off.toNat (size.toUInt32 ||| busyBit)
      prod := prod + recordLen size
      prodPage := prod + recordLen size },
    some (off.toNat + 8))

def writePad (off pad : UInt64) : Ringbuf :=
  { rb with data := put32 rb.data off.toNat ((pad - hdrSz).toUInt32 ||| discardBit) }

def ringbufReserve (size : UInt64) : Ringbuf × Option Nat :=
  if size = 0 ∨ (busyBit - 1).toUInt64 < size ∨ rb.size < recordLen size then (rb, none)
  else
    let off := rb.prod &&& (rb.size - 1)
    if rb.size < off + recordLen size then
      let pad := rb.size - off
      if rb.size < rb.prod + pad + recordLen size - rb.cons then (rb, none)
      else place (writePad rb off pad) (rb.prod + pad) 0 size
    else if rb.size < rb.prod + recordLen size - rb.cons then (rb, none)
    else place rb rb.prod off size

def ringbufCommit (rec : Nat) (discard : Bool) : Ringbuf :=
  let len := get32 rb.data (rec - 8) &&& ~~~busyBit
  { rb with data := put32 rb.data (rec - 8) (if discard then len ||| discardBit else len) }

def storeByte (at' : Nat) (b : UInt8) : Ringbuf :=
  { rb with data := fun i => if i = at' then b else rb.data i }

def headerLen (hdr : UInt32) : UInt32 := hdr &&& 0x3fffffff

def sampleAt (off len : Nat) : List UInt8 := (List.range len).map fun j => rb.data (off + 8 + j)

def readNext : Option (Ringbuf × Option (List UInt8)) :=
  let off := (rb.cons &&& (rb.size - 1)).toNat
  let hdr := get32 rb.data off
  if rb.cons = rb.prodPage then none
  else if hdr &&& busyBit ≠ 0 then none
  else
    some ({ rb with cons := rb.cons + recordLen (headerLen hdr).toUInt64 },
      if hdr &&& discardBit ≠ 0 then none else some (sampleAt rb off (headerLen hdr).toNat))

def readAll : Nat → Ringbuf → List (List UInt8)
  | 0, _ => []
  | fuel + 1, rb =>
    match readNext rb with
    | none => []
    | some (rb', sample) => sample.toList ++ readAll fuel rb'

inductive RecState where
  | busy | submitted | discarded | padding
  deriving DecidableEq

structure Rec where
  pos : Nat
  len : Nat
  state : RecState
  bytes : List UInt8

variable (r : Rec)

def Rec.span : Nat := (r.len + 15) / 8 * 8

def Rec.off (rb : Ringbuf) : Nat := r.pos % rb.size.toNat

structure Stream where
  ring : Ringbuf
  tail : Nat
  head : Nat
  consumed : List Rec
  queue : List Rec
  seen : List (List UInt8)

inductive Event where
  | reserve (size : UInt64)
  | store (rec j : Nat) (b : UInt8)
  | commit (rec : Nat) (discard : Bool)
  | consume

variable (s : Stream)

def Stream.Owned (rec : Nat) (r : Rec) : Prop :=
  r ∈ s.queue ∧ r.state = .busy ∧ r.off s.ring + 8 = rec

def padRec (n head : Nat) : Rec where
  pos := head
  len := n - head % n - 8
  state := .padding
  bytes := []

def padFor (n head size : Nat) : List Rec :=
  if n < head % n + (size + 15) / 8 * 8 then [padRec n head] else []

def startFor (n head size : Nat) : Nat :=
  if n < head % n + (size + 15) / 8 * 8 then head + (n - head % n) else head

def freshRec (start : Nat) (size : UInt64) (ring : Ringbuf) (rec : Nat) : Rec where
  pos := start
  len := size.toNat
  state := .busy
  bytes := (List.range size.toNat).map fun j => ring.data (rec + j)

def Stream.reserved (size : UInt64) (ring : Ringbuf) (rec : Nat) : Stream :=
  let n := s.ring.size.toNat
  let r := freshRec (startFor n s.head size.toNat) size ring rec
  { s with
    ring := ring
    head := r.pos + r.span
    queue := s.queue ++ padFor n s.head size.toNat ++ [r] }

def Stream.edit (rec : Nat) (g : Rec → Rec) : List Rec :=
  s.queue.map fun r => if r.off s.ring + 8 = rec then g r else r

def Stream.consumedOne (ring : Ringbuf) (sample : Option (List UInt8)) : Stream :=
  match s.queue with
  | [] => { s with ring := ring, seen := s.seen ++ sample.toList }
  | r :: rs =>
    { s with
      ring := ring
      tail := s.tail + r.span
      consumed := s.consumed ++ [r]
      queue := rs
      seen := s.seen ++ sample.toList }

inductive Stepped (s : Stream) : Event → Stream → Prop where
  | full {size : UInt64} {ring : Ringbuf} (h : ringbufReserve s.ring size = (ring, none)) :
      Stepped s (.reserve size) { s with ring := ring }
  | reserve {size : UInt64} {ring : Ringbuf} {rec : Nat}
      (h : ringbufReserve s.ring size = (ring, some rec)) :
      Stepped s (.reserve size) (s.reserved size ring rec)
  | store {rec j : Nat} {b : UInt8} {r : Rec} (h : s.Owned rec r) (hj : j < r.len) :
      Stepped s (.store rec j b)
        { s with
          ring := storeByte s.ring (rec + j) b
          queue := s.edit rec fun r => { r with bytes := r.bytes.set j b } }
  | commit {rec : Nat} {discard : Bool} {r : Rec} (h : s.Owned rec r) :
      Stepped s (.commit rec discard)
        { s with
          ring := ringbufCommit s.ring rec discard
          queue := s.edit rec fun r =>
            { r with state := if discard then .discarded else .submitted } }
  | consume {ring : Ringbuf} {sample : Option (List UInt8)}
      (h : readNext s.ring = some (ring, sample)) :
      Stepped s .consume (s.consumedOne ring sample)

def Opened : Prop :=
  (∃ size frames, ringbufAlloc size frames = some s.ring) ∧ s.tail = 0 ∧ s.head = 0 ∧
    s.consumed = [] ∧ s.queue = [] ∧ s.seen = []

open B1nix.Transition B1nix.Ring List UInt64

variable {d d' : Nat → UInt8} {rb' ring : Ringbuf} {size prod x : UInt64} {s s' : Stream}

lemma put32_out {off i : Nat} (v : UInt32) (h : ¬(off ≤ i ∧ i < off + 4)) : put32 d off v i = d i :=
  if_neg h

lemma get32_congr (off : Nat) (h : ∀ i, off ≤ i → i < off + 4 → d' i = d i) :
    get32 d' off = get32 d off := by
  unfold get32
  rw [h off (by omega) (by omega),h (off + 1) (by omega) (by omega),
    h (off + 2) (by omega) (by omega),h (off + 3) (by omega) (by omega)]

lemma get32_put32 (d : Nat → UInt8) (off : Nat) (v : UInt32) : get32 (put32 d off v) off = v := by
  have hbyte : ∀ i, i < 4 → (put32 d off v (off + i)).toNat = v.toNat / 256 ^ i % 256 := by
    intro i hi
    have hin : off ≤ off + i ∧ off + i < off + 4 := by omega
    rw [put32,if_pos hin,Nat.add_sub_cancel_left,UInt8.toNat_ofNat']
  have h0 := hbyte 0 (by decide)
  have h1 := hbyte 1 (by decide)
  have h2 := hbyte 2 (by decide)
  have h3 := hbyte 3 (by decide)
  have hlt := v.toNat_lt
  unfold get32
  rw [add_zero] at h0
  apply UInt32.toNat.inj
  rw [UInt32.toNat_ofNat']
  omega

lemma recordLen_toNat (size : UInt64) (h : size.toNat + 15 < 2 ^ 64) :
    (recordLen size).toNat = (size.toNat + 15) / 8 * 8 := by
  have hsum : (size + hdrSz + 7).toNat = size.toNat + 15 := by
    have h8 : (size + hdrSz).toNat = size.toNat + 8 := by
      rw [UInt64.toNat_add,mod_eq_of_lt]
      · rfl
      exact (Nat.add_le_add_left (by decide) _).trans_lt h
    rw [UInt64.toNat_add,h8,mod_eq_of_lt]
    · rfl
    exact h
  rw [recordLen,UInt64.toNat_and,hsum]
  exact Masks.and_not_low (k := 3) h (by decide)

def Rec.header : UInt32 :=
  match r.state with
  | .busy => UInt32.ofNat r.len ||| busyBit
  | .submitted => UInt32.ofNat r.len
  | .discarded | .padding => UInt32.ofNat r.len ||| discardBit

lemma or_and_distrib (a b m : UInt32) : (a ||| b) &&& m = a &&& m ||| b &&& m := by
  apply UInt32.toNat.inj
  simp [and_or_distrib_right]

section

variable {len : Nat} (h : len < 2 ^ 30)

include h

lemma len_toNat : (UInt32.ofNat len).toNat = len := UInt32.toNat_ofNat_of_lt' (h.trans_le (by decide))

lemma len_and_busy : UInt32.ofNat len &&& busyBit = 0 := by
  apply UInt32.toNat.inj
  rw [UInt32.toNat_and,len_toNat h]
  exact Masks.and_bit_of_lt (i := 31) h (by decide)

lemma len_and_discard : UInt32.ofNat len &&& discardBit = 0 := by
  apply UInt32.toNat.inj
  rw [UInt32.toNat_and,len_toNat h]
  exact Masks.and_bit_of_lt (i := 30) h (by decide)

lemma len_and_low {m : UInt32} (hm : m.toNat = 2 ^ 30 - 1 ∨ m.toNat = 2 ^ 31 - 1) :
    UInt32.ofNat len &&& m = UInt32.ofNat len := by
  apply UInt32.toNat.inj
  rw [UInt32.toNat_and,len_toNat h]
  obtain hm | hm := hm
  · rw [hm,and_two_pow_sub_one_of_lt_two_pow h]
  rw [hm,and_two_pow_sub_one_of_lt_two_pow (h.trans_le (by decide))]

end

variable {r : Rec} {rb : Ringbuf} {data data' : Nat → UInt8} {n tail head fuel rec j : Nat}
  {queue : List Rec}

namespace Rec

variable (h : r.len < 2 ^ 30)

include h

lemma header_len : headerLen r.header = UInt32.ofNat r.len := by
  have hlow := len_and_low h (m := 0x3fffffff) (.inl (by decide))
  have hbz : busyBit &&& 0x3fffffff = 0 := by decide
  have hdis : discardBit &&& 0x3fffffff = 0 := by decide
  unfold headerLen header
  cases r.state with
  | busy => rw [or_and_distrib,hlow,hbz,UInt32.or_zero]
  | submitted => exact hlow
  | discarded | padding => rw [or_and_distrib,hlow,hdis,UInt32.or_zero]

lemma header_busy : r.header &&& busyBit ≠ 0 ↔ r.state = .busy := by
  unfold header
  cases r.state with
  | busy =>
    rw [or_and_distrib,len_and_busy h]
    decide
  | submitted =>
    rw [len_and_busy h]
    decide
  | discarded | padding =>
    rw [or_and_distrib,len_and_busy h]
    decide

lemma header_discard (hbz : r.state ≠ .busy) : r.header &&& discardBit ≠ 0 ↔ r.state ≠ .submitted := by
  unfold header
  cases hst : r.state with
  | busy => cases hbz hst
  | submitted =>
    rw [len_and_discard h]
    decide
  | discarded | padding =>
    rw [or_and_distrib,len_and_discard h]
    decide

lemma header_commit (hbz : r.state = .busy) : r.header &&& ~~~busyBit = UInt32.ofNat r.len := by
  have hlow := len_and_low h (m := ~~~busyBit) (.inr (by decide))
  have hze : busyBit &&& ~~~busyBit = 0 := by decide
  simp only [header,hbz]
  rw [or_and_distrib,hlow,hze,UInt32.or_zero]

end Rec

structure Placed (data : Nat → UInt8) (n : Nat) (r : Rec) : Prop where
  inside : r.pos % n + r.span ≤ n
  header : get32 data (r.pos % n) = r.header
  bytes : r.state ≠ .padding →
    r.bytes = (range r.len).map fun j => data (r.pos % n + 8 + j)

lemma Rec.room (r : Rec) : r.len + 8 ≤ r.span := by
  unfold Rec.span
  omega

lemma Placed.congr (h : Placed data n r)
    (hsa : ∀ i, r.pos % n ≤ i → i < r.pos % n + r.span → data' i = data i) : Placed data' n r := by
  have hro := r.room
  refine ⟨h.inside,?_,?_⟩
  · rw [get32_congr _ fun i hlo hhi => hsa i hlo (by omega),h.header]
  intro hpad
  rw [h.bytes hpad]
  refine map_congr_left fun j hj => ?_
  have hlt := mem_range.mp hj
  exact (hsa _ (by omega) (by omega)).symm

structure Laid (data : Nat → UInt8) (n tail : Nat) (queue : List Rec) (head : Nat) : Prop where
  runs : Runs Rec.pos Rec.span tail queue head
  room : head ≤ tail + n
  aligned : head % 8 = 0
  placed : ∀ r ∈ queue, Placed data n r

namespace Laid

lemma eq_or_apart (h : Laid data n tail queue head) {x : Rec} (hr : r ∈ queue)
    (hx : x ∈ queue) : x = r ∨ Apart (x.pos % n) x.span (r.pos % n) r.span :=
  h.runs.eq_or_apart h.room (fun y hy => (h.placed y hy).inside) hx hr

lemma push (h : Laid data n tail queue head) (hpos : r.pos = head)
    (hro : head + r.span ≤ tail + n) (hpl : Placed data' n r)
    (hfm : ∀ i, ¬(r.pos % n ≤ i ∧ i < r.pos % n + r.span) → data' i = data i) :
    Laid data' n tail (queue ++ [r]) (head + r.span) := by
  refine ⟨?_,hro,?_,?_⟩
  · exact runs_append.mpr ⟨head,h.runs,hpos,rfl⟩
  · have halg := h.aligned
    unfold Rec.span
    omega
  intro x hx
  obtain hx | hx := mem_append.mp hx
  · have hin := h.runs.within hx
    have hfar := apart_mod (by omega) (by omega) (h.placed x hx).inside hpl.inside
    refine (h.placed x hx).congr fun i hlo hhi => hfm i ?_
    rcases hfar with hfar | hfar <;> omega
  rw [mem_singleton.mp hx]
  exact hpl

lemma pop (h : Laid data n tail (r :: queue) head) :
    Laid data n (tail + r.span) queue head where
  runs := h.runs.2
  room := h.room.trans (by omega)
  aligned := h.aligned
  placed := fun x hx => h.placed x (.tail r hx)

lemma edit (h : Laid data n tail queue head) (hr : r ∈ queue) {g : Rec → Rec}
    (hpos : ∀ x, (g x).pos = x.pos) (hlen : ∀ x, (g x).len = x.len) (hpl : Placed data' n (g r))
    (hfm : ∀ i, ¬(r.pos % n ≤ i ∧ i < r.pos % n + r.span) → data' i = data i) :
    Laid data' n tail (queue.map fun x => if x.pos % n + 8 = r.pos % n + 8 then g x else x)
      head := by
  have hsn : ∀ x, (g x).span = x.span := fun x => by rw [Rec.span,Rec.span,hlen]
  refine ⟨h.runs.map ?_ ?_,h.room,h.aligned,?_⟩
  · intro x
    split
    · exact hpos x
    rfl
  · intro x
    split
    · exact hsn x
    rfl
  intro y hy
  obtain ⟨x,hx,rfl⟩ := mem_map.mp hy
  have hro := x.room
  have hroom' := r.room
  obtain rfl | hfar := h.eq_or_apart hr hx
  · rw [if_pos rfl]
    exact hpl
  have hne : ¬(x.pos % n + 8 = r.pos % n + 8) := by rcases hfar with hfar | hfar <;> omega
  rw [if_neg hne]
  refine (h.placed x hx).congr fun i hlo hhi => hfm i ?_
  rcases hfar with hfar | hfar <;> omega

end Laid

structure Ringbuf.Sized (rb : Ringbuf) : Prop where
  pos : 0 < rb.size.toNat
  le : rb.size.toNat ≤ 2 ^ 24
  eight : 8 ∣ rb.size.toNat

lemma Ringbuf.bounds (rb : Ringbuf) : rb.Sized := by
  obtain ⟨k,hlo,hhi,hk⟩ := rb.sized
  refine ⟨?_,?_,?_⟩
  · rw [hk]
    exact Nat.two_pow_pos k
  · rw [hk]
    exact Nat.pow_le_pow_right (by decide) hhi
  rw [hk]
  exact pow_dvd_pow 2 ((by decide : 3 ≤ 12).trans hlo)

lemma Ringbuf.offset (rb : Ringbuf) (p : Nat) :
    (UInt64.ofNat p &&& (rb.size - 1)).toNat = p % rb.size.toNat := by
  have hpos := rb.bounds.pos
  obtain ⟨k,-,hhi,hk⟩ := rb.sized
  have hmask : (rb.size - 1).toNat = 2 ^ k - 1 := by
    have hone : (1 : UInt64) ≤ rb.size := le_iff_toNat_le.mpr hpos
    rw [UInt64.toNat_sub_of_le _ _ hone,hk]
    rfl
  have hdvd : 2 ^ k ∣ 2 ^ 64 := pow_dvd_pow 2 (hhi.trans (by decide))
  rw [UInt64.toNat_and,hmask,and_two_pow_sub_one_eq_mod,UInt64.toNat_ofNat',hk, mod_mod_of_dvd p hdvd]

lemma toNat_ofNat_sub {a b : Nat} (hab : b ≤ a) (h : a - b < 2 ^ 64) :
    (ofNat a - ofNat b).toNat = a - b := by
  rw [← ofNat_sub hab,toNat_ofNat_of_lt' h]

structure Synced (rb : Ringbuf) (tail : Nat) (queue : List Rec) (head : Nat) : Prop where
  laid : Laid rb.data rb.size.toNat tail queue head
  prod : rb.prod = ofNat head
  page : rb.prodPage = rb.prod
  cons : rb.cons = ofNat tail

lemma Placed.small (h : Placed data n r) (hn : n ≤ 2 ^ 24) : r.len < 2 ^ 30 := by
  have hin := h.inside
  have hro := r.room
  omega

lemma recordLen_span (h : r.len < 2 ^ 30) :
    recordLen (UInt32.ofNat r.len).toUInt64 = ofNat r.span := by
  have hlen : (UInt32.ofNat r.len).toUInt64.toNat = r.len := len_toNat h
  apply toNat.inj
  rw [recordLen_toNat _ (by omega),hlen,toNat_ofNat_of_lt']
  · rfl
  have hsn : r.span ≤ r.len + 15 := div_mul_le_self ..
  exact hsn.trans_lt (by omega : r.len + 15 < 2 ^ 64)

namespace Synced

lemma cons_ne (h : Synced rb tail (r :: queue) head) : rb.cons ≠ rb.prodPage := by
  have hle := h.laid.runs.2.le
  have hro := h.laid.room
  have hsn := r.room
  have hn := rb.bounds.le
  rw [h.page,h.prod,h.cons]
  intro heq
  have hze := toNat_ofNat_sub (a := head) (b := tail) (by omega) (by omega)
  rw [heq,sub_self] at hze
  have : head - tail = 0 := hze.symm
  omega

lemma readNext_empty (h : Synced rb tail [] head) : readNext rb = none := by
  have heq : rb.cons = rb.prodPage := by rw [h.page,h.prod,h.cons,(h.laid.runs : tail = head)]
  exact if_pos heq

lemma readNext_cons (h : Synced rb tail (r :: queue) head) :
    readNext rb = if r.state = .busy then none
      else some ({ rb with cons := ofNat (tail + r.span) },
        if r.state = .submitted then some r.bytes else none) := by
  have hpl := h.laid.placed r (.head _)
  have hsm := hpl.small rb.bounds.le
  have hpos : r.pos = tail := h.laid.runs.1
  have hoff : (rb.cons &&& (rb.size - 1)).toNat = r.pos % rb.size.toNat := by rw [h.cons,rb.offset,hpos]
  have hstep : rb.cons + recordLen (UInt32.ofNat r.len).toUInt64 = ofNat (tail + r.span) := by
    rw [recordLen_span hsm,h.cons,ofNat_add]
  unfold readNext
  simp only [hoff,hpl.header,Rec.header_len hsm,hstep]
  rw [if_neg h.cons_ne]
  by_cases hbz : r.state = .busy
  · rw [if_pos ((Rec.header_busy hsm).mpr hbz),if_pos hbz]
  rw [if_neg (mt (Rec.header_busy hsm).mp hbz),if_neg hbz]
  by_cases hsub : r.state = .submitted
  · have hkp : ¬(r.header &&& discardBit ≠ 0) :=
      fun hne => (Rec.header_discard hsm hbz).mp hne hsub
    have hby := hpl.bytes (by rw [hsub]; decide)
    rw [if_neg hkp,if_pos hsub,len_toNat hsm,hby]
    rfl
  rw [if_pos ((Rec.header_discard hsm hbz).mpr hsub),if_neg hsub]

lemma pop (h : Synced rb tail (r :: queue) head) :
    Synced { rb with cons := ofNat (tail + r.span) } (tail + r.span) queue head where
  laid := h.laid.pop
  prod := h.prod
  page := h.page
  cons := rfl

end Synced

def samples (rs : List Rec) : List (List UInt8) :=
  (rs.filter fun r => r.state = .submitted).map Rec.bytes

lemma samples_cons (r : Rec) (rs : List Rec) :
    samples (r :: rs) =
      (if r.state = .submitted then some r.bytes else none).toList ++ samples rs := by
  unfold samples
  rw [filter_cons]
  by_cases h : r.state = .submitted
  · rw [if_pos (by simpa using h),if_pos h]
    rfl
  rw [if_neg (by simpa using h),if_neg h]
  rfl

lemma Synced.readAll_eq (h : Synced rb tail queue head) (hfuel : queue.length ≤ fuel) :
    readAll fuel rb = samples (queue.takeWhile fun r => r.state ≠ .busy) := by
  induction queue generalizing rb tail fuel with
  | nil =>
    cases fuel with
    | zero => rfl
    | succ =>
      rw [readAll,h.readNext_empty]
      rfl
  | cons r _ ih =>
    cases fuel with
    | zero => cases hfuel
    | succ =>
      rw [readAll,h.readNext_cons]
      by_cases hbz : r.state = .busy
      · rw [if_pos hbz,takeWhile_cons_of_neg (by simpa using hbz)]
        rfl
      rw [if_neg hbz,takeWhile_cons_of_pos (by simpa using hbz),samples_cons,
        ← ih h.pop (le_of_succ_le_succ hfuel)]

lemma Laid.put (h : Laid data n tail queue head) (hpos : r.pos = head) (hin : head % n + r.span ≤ n)
    (hro : head + r.span ≤ tail + n) (hhdr : get32 data' (head % n) = r.header)
    (hby : r.state ≠ .padding → r.bytes = (range r.len).map fun j => data' (head % n + 8 + j))
    (hfm : ∀ i, ¬(head % n ≤ i ∧ i < head % n + 8) → data' i = data i) :
    Laid data' n tail (queue ++ [r]) (head + r.span) := by
  subst hpos
  have hsn := r.room
  exact h.push rfl hro ⟨hin,hhdr,hby⟩ fun i hi => hfm i (by omega)

lemma toUInt32_eq (x : UInt64) : x.toUInt32 = UInt32.ofNat x.toNat := by
  apply UInt32.toNat.inj
  rw [toNat_toUInt32,UInt32.toNat_ofNat']

lemma place_synced (rb : Ringbuf) (off size : UInt64)
    (h : Laid rb.data rb.size.toNat tail queue head) (hcons : rb.cons = ofNat tail)
    (hprod : prod = ofNat head) (hoff : off.toNat = head % rb.size.toNat) (hsz : size.toNat < 2 ^ 30)
    (hin : head % rb.size.toNat + (size.toNat + 15) / 8 * 8 ≤ rb.size.toNat)
    (hro : head + (size.toNat + 15) / 8 * 8 ≤ tail + rb.size.toNat) :
    ∃ rb', place rb prod off size = (rb', some (head % rb.size.toNat + 8)) ∧
      rb'.size = rb.size ∧
      Synced rb' tail
        (queue ++ [freshRec head size rb' (head % rb.size.toNat + 8)])
        (head + (size.toNat + 15) / 8 * 8) := by
  have hlen : recordLen size = ofNat ((size.toNat + 15) / 8 * 8) := by
    apply toNat.inj
    rw [recordLen_toNat _ (by omega),toNat_ofNat_of_lt' (by omega : _ < 2 ^ 64)]
  unfold place
  rw [hoff]
  refine ⟨_,rfl,rfl,?_,?_,rfl,hcons⟩
  · refine h.put rfl hin hro ?_ ?_ ?_
    · rw [get32_put32]
      change size.toUInt32 ||| busyBit = UInt32.ofNat size.toNat ||| busyBit
      rw [toUInt32_eq]
    · intro _
      rfl
    intro i hi
    exact (put32_out _ (by omega)).trans (put32_out _ (by omega))
  rw [hprod,hlen,← ofNat_add]

lemma reserve_full (h : ringbufReserve rb size = (rb', none)) : rb' = rb := by
  unfold ringbufReserve at h
  split at h
  case isTrue => exact (congrArg fst h).symm
  case isFalse =>
    dsimp only at h
    split at h
    case isTrue =>
      split at h
      case isTrue => exact (congrArg fst h).symm
      case isFalse => cases (congrArg snd h)
    case isFalse =>
      split at h
      case isTrue => exact (congrArg fst h).symm
      case isFalse => cases (congrArg snd h)

namespace Synced

section

variable (h : Synced rb tail queue head)

include h

lemma free_iff (hx : x.toNat ≤ 2 ^ 32) :
    rb.size < rb.prod + x - rb.cons ↔ tail + rb.size.toNat < head + x.toNat := by
  have hle := h.laid.runs.le
  have hro := h.laid.room
  have hn := rb.bounds.le
  have hsum : rb.prod + x = ofNat (head + x.toNat) := by
    rw [h.prod,UInt64.ofNat_add,UInt64.ofNat_toNat]
  rw [lt_iff_toNat_lt,hsum,h.cons,toNat_ofNat_sub (by omega) (by omega)]
  omega

lemma offset_eq : (rb.prod &&& (rb.size - 1)).toNat = head % rb.size.toNat := by
  rw [h.prod,rb.offset]

lemma crosses_iff (len : UInt64) (hlen : len.toNat ≤ 2 ^ 32) :
    rb.size < (rb.prod &&& (rb.size - 1)) + len ↔ rb.size.toNat < head % rb.size.toNat + len.toNat := by
  have hn := rb.bounds
  have hoff : head % rb.size.toNat < rb.size.toNat := mod_lt _ hn.pos
  have hle := hn.le
  rw [UInt64.lt_iff_toNat_lt,UInt64.toNat_add,h.offset_eq,mod_eq_of_lt (by omega)]

lemma pad_toNat : (rb.size - (rb.prod &&& (rb.size - 1))).toNat = rb.size.toNat - head % rb.size.toNat := by
  have hoff : head % rb.size.toNat < rb.size.toNat := mod_lt _ rb.bounds.pos
  rw [UInt64.toNat_sub_of_le,h.offset_eq]
  rw [UInt64.le_iff_toNat_le,h.offset_eq]
  exact hoff.le

lemma pad_aligned :
    8 ≤ rb.size.toNat - head % rb.size.toNat ∧ (rb.size.toNat - head % rb.size.toNat) % 8 = 0 := by
  have halg := h.laid.aligned
  have hoff : head % rb.size.toNat < rb.size.toNat := mod_lt _ rb.bounds.pos
  have hmod : head % rb.size.toNat % 8 = head % 8 := mod_mod_of_dvd _ rb.bounds.eight
  have height := mod_eq_zero_of_dvd rb.bounds.eight
  omega

lemma padded {off pad : UInt64} (hoff : off.toNat = head % rb.size.toNat)
    (hpad : pad.toNat = rb.size.toNat - head % rb.size.toNat)
    (hro : head + (rb.size.toNat - head % rb.size.toNat) ≤ tail + rb.size.toNat) :
    Laid (writePad rb off pad).data rb.size.toNat tail (queue ++ [padRec rb.size.toNat head])
      (head + (rb.size.toNat - head % rb.size.toNat)) := by
  obtain ⟨hmin,hali⟩ := h.pad_aligned
  have hsn : (padRec rb.size.toNat head).span = rb.size.toNat - head % rb.size.toNat := by
    change (rb.size.toNat - head % rb.size.toNat - 8 + 15) / 8 * 8 = _
    omega
  have hlen : (pad - hdrSz).toNat = rb.size.toNat - head % rb.size.toNat - 8 := by
    have hle : hdrSz ≤ pad := by
      rw [le_iff_toNat_le,hpad]
      exact hmin
    rw [UInt64.toNat_sub_of_le _ _ hle,hpad]
    rfl
  rw [← hsn] at hro ⊢
  simp only [writePad,hoff]
  refine h.laid.put rfl ?_ hro ?_ ?_ ?_
  · omega
  · rw [get32_put32,toUInt32_eq,hlen]
    rfl
  · exact (absurd rfl)
  intro i hi
  exact put32_out _ (by omega)

lemma reserve (hr : ringbufReserve rb size = (rb', some rec)) :
    rec = startFor rb.size.toNat head size.toNat % rb.size.toNat + 8 ∧ rb'.size = rb.size ∧
    Synced rb' tail
      (queue ++ padFor rb.size.toNat head size.toNat ++
        [freshRec (startFor rb.size.toNat head size.toNat) size rb' rec])
      (startFor rb.size.toNat head size.toNat + (size.toNat + 15) / 8 * 8) := by
  have hn := rb.bounds
  have hle := hn.le
  unfold ringbufReserve at hr
  split at hr
  case isTrue => cases congrArg snd hr
  case isFalse hok =>
    simp only [not_or] at hok
    obtain ⟨-,hmax,hfit⟩ := hok
    have hmax' : size.toNat ≤ 2 ^ 31 - 1 := le_of_not_gt fun hlt => hmax (lt_iff_toNat_lt.mpr hlt)
    have hlen := recordLen_toNat size (by omega)
    have hfit' : (size.toNat + 15) / 8 * 8 ≤ rb.size.toNat := by
      rw [← hlen]
      exact le_of_not_gt fun hlt => hfit (lt_iff_toNat_lt.mpr hlt)
    have hcx := h.crosses_iff (recordLen size) (by omega)
    rw [hlen] at hcx
    dsimp only at hr
    split at hr
    case isTrue hov =>
      have hover' := hcx.mp hov
      have hpad := h.pad_toNat
      have hsum : (rb.size - (rb.prod &&& (rb.size - 1)) + recordLen size).toNat =
          rb.size.toNat - head % rb.size.toNat + (size.toNat + 15) / 8 * 8 := by
        rw [UInt64.toNat_add,hpad,hlen,mod_eq_of_lt (by omega)]
      split at hr
      case isTrue => cases congrArg snd hr
      case isFalse hfe =>
        rw [add_assoc,h.free_iff (by omega)] at hfe
        have hld := h.padded h.offset_eq hpad (by omega)
        have hsta := next_lap hn.pos head
        have hin : (head + (rb.size.toNat - head % rb.size.toNat)) % rb.size.toNat +
            (size.toNat + 15) / 8 * 8 ≤ rb.size.toNat := by
          omega
        have hro : head + (rb.size.toNat - head % rb.size.toNat) + (size.toNat + 15) / 8 * 8 ≤
            tail + rb.size.toNat := by
          omega
        have hprod : rb.prod + (rb.size - (rb.prod &&& (rb.size - 1))) =
            ofNat (head + (rb.size.toNat - head % rb.size.toNat)) := by
          rw [UInt64.ofNat_add,← h.prod,← hpad,UInt64.ofNat_toNat]
        obtain ⟨rb'',hpc,hsa,hsy⟩ := place_synced
          (writePad rb (rb.prod &&& (rb.size - 1)) (rb.size - (rb.prod &&& (rb.size - 1)))) 0 size
          hld h.cons hprod hsta.symm (by omega) hin hro
        rw [hpc] at hr
        obtain ⟨rfl,hrec⟩ := mk.inj hr
        rw [startFor,padFor,if_pos hover',if_pos hover',← some.inj hrec]
        exact ⟨rfl,hsa,hsy⟩
    case isFalse hov =>
      have hin := mt hcx.mpr hov
      split at hr
      case isTrue => cases congrArg snd hr
      case isFalse hfe =>
        rw [h.free_iff (by omega),hlen] at hfe
        obtain ⟨rb'',hpc,hsa,hsy⟩ := place_synced rb _ size h.laid h.cons h.prod
          h.offset_eq (by omega) (le_of_not_gt hin) (le_of_not_gt hfe)
        rw [hpc] at hr
        obtain ⟨rfl,hrec⟩ := mk.inj hr
        rw [startFor,padFor,if_neg hin,if_neg hin,append_nil,← some.inj hrec]
        exact ⟨rfl,hsa,hsy⟩

lemma commit (hr : r ∈ queue) (hbz : r.state = .busy) (discard : Bool) :
    Synced (ringbufCommit rb (r.off rb + 8) discard) tail
      (queue.map fun x => if x.off rb + 8 = r.off rb + 8 then
        { x with state := if discard then .discarded else .submitted } else x) head := by
  have hpl := h.laid.placed r hr
  have hsm := hpl.small rb.bounds.le
  have hsn := r.room
  have hlen : get32 rb.data (r.pos % rb.size.toNat) &&& ~~~busyBit = UInt32.ofNat r.len := by
    rw [hpl.header,Rec.header_commit hsm hbz]
  have hda : (ringbufCommit rb (r.off rb + 8) discard).data =
      put32 rb.data (r.pos % rb.size.toNat)
        (if discard then UInt32.ofNat r.len ||| discardBit else UInt32.ofNat r.len) := by
    rw [← hlen]
    rfl
  refine { h with laid := ?_ }
  rw [hda]
  refine h.laid.edit hr (fun _ => rfl) (fun _ => rfl) ⟨hpl.inside,?_,?_⟩ ?_
  · rw [get32_put32]
    cases discard <;> rfl
  · intro _
    have hpad : r.state ≠ .padding := by rw [hbz]; decide
    rw [hpl.bytes hpad]
    exact map_congr_left fun j _ => (put32_out _ (by omega)).symm
  intro i hi
  exact put32_out _ (by omega)

lemma store (hr : r ∈ queue) (hbz : r.state = .busy) (hj : j < r.len) (b : UInt8) :
    Synced (storeByte rb (r.off rb + 8 + j) b) tail
      (queue.map fun x => if x.off rb + 8 = r.off rb + 8 then
        { x with bytes := x.bytes.set j b } else x) head := by
  have hpl := h.laid.placed r hr
  have hsn := r.room
  have hout : ∀ i, i ≠ r.pos % rb.size.toNat + 8 + j →
      (storeByte rb (r.off rb + 8 + j) b).data i = rb.data i := fun i hi => if_neg hi
  have hat : (storeByte rb (r.off rb + 8 + j) b).data (r.pos % rb.size.toNat + 8 + j) = b := if_pos rfl
  refine { h with laid := ?_ }
  refine h.laid.edit hr (fun _ => rfl) (fun _ => rfl) ⟨hpl.inside,?_,?_⟩ ?_
  · exact (get32_congr (r.pos % rb.size.toNat) fun i hlo hhi => hout i (by omega)).trans
      hpl.header
  · intro _
    have hpad : r.state ≠ .padding := by rw [hbz]; decide
    have hby := hpl.bytes hpad
    apply ext_getElem
    · simp [hby]
    intro i hi hi'
    simp only [getElem_set,getElem_map,getElem_range]
    split
    case isTrue heq => rw [← heq,hat]
    case isFalse hne =>
      rw [hout _ (by omega)]
      simp [hby]
  intro i hi
  exact hout i (by omega)

end

end Synced

structure Stream.Inv (s : Stream) : Prop where
  synced : Synced s.ring s.tail s.queue s.head
  past : Runs Rec.pos Rec.span 0 s.consumed s.tail
  settled : ∀ r ∈ s.consumed, r.state ≠ .busy
  seen : s.seen = samples s.consumed

lemma samples_append (xs ys : List Rec) : samples (xs ++ ys) = samples xs ++ samples ys := by
  rw [samples,filter_append,map_append]
  rfl

lemma Opened.inv (h : Opened s) : s.Inv := by
  obtain ⟨⟨size,frames,hal⟩,hta,hhd,hcon,hqu,hseen⟩ := h
  have hring : s.ring.prod = 0 ∧ s.ring.prodPage = 0 ∧ s.ring.cons = 0 := by
    unfold ringbufAlloc at hal
    split at hal
    case isTrue =>
      rw [← some.inj hal]
      exact ⟨rfl,rfl,rfl⟩
    case isFalse => cases hal
  obtain ⟨hprod,hpg,hcons⟩ := hring
  constructor
  · rw [hta,hhd,hqu]
    refine ⟨⟨rfl,zero_le,rfl,nofun⟩,?_,?_,?_⟩
    · rw [hprod]
      rfl
    · rw [hprod,hpg]
    rw [hcons]
    rfl
  · rw [hcon,hta]
    rfl
  · rw [hcon]
    exact nofun
  rw [hcon,hseen]
  rfl

lemma Stream.Inv.consume (h : s.Inv) {sample : Option (List UInt8)}
    (hra : readNext s.ring = some (ring, sample)) : (s.consumedOne ring sample).Inv := by
  have hsy := h.synced
  unfold Stream.consumedOne
  cases hqu : s.queue with
  | nil =>
    rw [hqu] at hsy
    rw [hsy.readNext_empty] at hra
    cases hra
  | cons r =>
    rw [hqu] at hsy
    rw [hsy.readNext_cons] at hra
    split at hra
    case isTrue => cases hra
    case isFalse hbz =>
      obtain ⟨rfl,rfl⟩ := Prod.mk.inj (some.inj hra)
      refine ⟨hsy.pop,?_,?_,?_⟩
      · exact runs_append.mpr ⟨s.tail,h.past,hsy.laid.runs.1,rfl⟩
      · intro x hx
        obtain hx | hx := mem_append.mp hx
        · exact h.settled x hx
        rw [mem_singleton.mp hx]
        exact hbz
      have hnil : samples [] = [] := rfl
      rw [h.seen,samples_append,samples_cons r [],hnil,append_nil]

lemma Stream.Inv.step {e : Event} (h : s.Inv) (hstep : Stepped s e s') : s'.Inv := by
  cases hstep with
  | full hfu =>
    rw [reserve_full hfu]
    exact h
  | reserve hrsv =>
    obtain ⟨-,-,hsy⟩ := h.synced.reserve hrsv
    exact { h with synced := hsy }
  | @store rec j b r hown hj =>
    obtain ⟨hr,hbz,rfl⟩ := hown
    exact { h with synced := h.synced.store hr hbz hj b }
  | @commit rec discard r hown =>
    obtain ⟨hr,hbz,rfl⟩ := hown
    exact { h with synced := h.synced.commit hr hbz discard }
  | consume hra => exact h.consume hra

structure Stream.InOrder (s : Stream) : Prop where
  inside : ∀ r ∈ s.queue, r.off s.ring + r.span ≤ s.ring.size.toNat
  apart : s.queue.Pairwise fun x y => Apart (x.off s.ring) x.span (y.off s.ring) y.span
  reserved : ∀ size rec ring, ringbufReserve s.ring size = (ring, some rec) →
    8 ≤ rec ∧ rec - 8 + (size.toNat + 15) / 8 * 8 ≤ s.ring.size.toNat ∧
    ∀ r ∈ s.queue, Apart (rec - 8) ((size.toNat + 15) / 8 * 8) (r.off s.ring) r.span
  order : (s.consumed ++ s.queue).Pairwise fun x y => x.pos + x.span ≤ y.pos
  passed : ∀ r ∈ s.consumed, r.state ≠ .busy
  seen : s.seen = samples s.consumed
  ahead : readAll s.ring.size.toNat s.ring =
    samples (s.queue.takeWhile fun r => r.state ≠ .busy)

lemma Synced.pairwise_apart (h : Synced rb tail queue head) :
    queue.Pairwise fun x y => Apart (x.off rb) x.span (y.off rb) y.span := by
  refine List.Pairwise.imp_of_mem ?_ h.laid.runs.pairwise
  intro x y hx hy hxy
  have hx' := h.laid.runs.within hx
  have hy' := h.laid.runs.within hy
  have hro := h.laid.room
  exact apart_mod hxy (by omega) (h.laid.placed x hx).inside (h.laid.placed y hy).inside

theorem stream_in_order {s : Stream} (h : Reach Opened Stepped s) : s.InOrder := by
  have hinv : s.Inv := h.invariant (fun _ => Opened.inv) fun _ _ _ hi hstep => hi.step hstep
  have hsy := hinv.synced
  refine ⟨fun r hr => (hsy.laid.placed r hr).inside,hsy.pairwise_apart,?_,?_,
    hinv.settled,hinv.seen,hsy.readAll_eq ?_⟩
  · intro size rec ring hrsv
    obtain ⟨hrec,hsz,hnx⟩ := hsy.reserve hrsv
    have hla := hnx.laid.placed _ (mem_append_right _ (mem_singleton_self _))
    have hapt := (pairwise_append.mp hnx.pairwise_apart).2.2
    have hat : rec - 8 = startFor s.ring.size.toNat s.head size.toNat % s.ring.size.toNat := by omega
    refine ⟨by omega,?_,fun r hr => ?_⟩
    · have hin := hla.inside
      rw [hsz] at hin
      rw [hat]
      exact hin
    have hfar := hapt r (mem_append_left _ hr) _ (mem_singleton_self _)
    rw [Rec.off,Rec.off,hsz] at hfar
    rw [hat]
    exact hfar.symm
  · exact (runs_append.mpr ⟨s.tail,hinv.past,hsy.laid.runs⟩).pairwise
  have hlen := hsy.laid.runs.length_le fun r _ =>
    (le_add_left 8 r.len).trans r.room
  have hro := hsy.laid.room
  omega

def onePage : Ringbuf where
  size := 4096
  prod := 0
  prodPage := 0
  cons := 0
  data := fun _ => 0
  sized := ⟨12,by decide⟩

def onePage.opened : Stream := ⟨onePage,0,0,[],[],[]⟩

def onePage.reserved : Stream :=
  onePage.opened.reserved 20 (ringbufReserve onePage 20).1 8

theorem onePage_in_order :
    onePage.reserved.InOrder ∧ onePage.reserved.queue.map Rec.span = [32] ∧
    (ringbufReserve onePage.reserved.ring 4056).2 = some 40 ∧
    (ringbufReserve onePage.reserved.ring 4057).2 = none := by
  have hop : Reach Opened Stepped onePage.opened := by
    refine .start ⟨⟨4096,fun _ => 0,?_⟩,rfl,rfl,rfl,rfl,rfl⟩
    exact dif_pos (by decide)
  have hstep : Stepped onePage.opened (.reserve 20) onePage.reserved :=
    .reserve (Prod.ext rfl (by decide))
  exact ⟨stream_in_order (hop.next hstep),by decide,by decide +kernel,by decide +kernel⟩

end B1nix.BpfRingbuf
