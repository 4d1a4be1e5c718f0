import B1nix.Basic.Transition

namespace B1nix.Pipe

open Function List Transition Nat

def eagain : Int := 11
def epipe : Int := 32
def erestartsys : Int := 512

def pipeBufferSize : Nat := 65536

structure VfsPipe where
  buffer : Nat → UInt8
  readPos : Nat
  writePos : Nat
  size : Nat
  readers : Nat
  writers : Nat

def copyOut (buffer : Nat → UInt8) : Nat → Nat → List UInt8 × Nat
  | 0, pos => ([], pos)
  | n + 1, pos =>
    let r := copyOut buffer n ((pos + 1) % pipeBufferSize)
    (buffer pos :: r.1, r.2)

def copyIn : List UInt8 → (Nat → UInt8) × Nat → (Nat → UInt8) × Nat
  | [], b => b
  | x :: xs, b => copyIn xs (update b.1 b.2 x, (b.2 + 1) % pipeBufferSize)

def copyAcross (src : Nat → UInt8) : Nat → Nat → (Nat → UInt8) × Nat → (Nat → UInt8) × Nat
  | 0, _, b => b
  | n + 1, pos, b => copyAcross src n ((pos + 1) % pipeBufferSize)
      (update b.1 b.2 (src pos), (b.2 + 1) % pipeBufferSize)

variable (nonblock signal : Bool)

def waits : Option Int :=
  if nonblock then some (-eagain) else if signal then some (-erestartsys) else none

def pipeRead (size : Nat) (p : VfsPipe) : Option Int × List UInt8 × VfsPipe :=
  if p.size = 0 then (if p.writers = 0 then some 0 else waits nonblock signal, [], p)
  else
    let r := copyOut p.buffer (min size p.size) p.readPos
    (some (min size p.size), r.1, { p with readPos := r.2, size := p.size - min size p.size })

def pipeWrite (buf : List UInt8) (p : VfsPipe) : Option Int × List UInt8 × VfsPipe :=
  if p.readers = 0 then (some (-epipe), [], p)
  else if pipeBufferSize - p.size = 0 then (waits nonblock signal, [], p)
  else
    let taken := buf.take (pipeBufferSize - p.size)
    let b := copyIn taken (p.buffer, p.writePos)
    (some taken.length, taken, { p with
      buffer := b.1
      writePos := b.2
      size := p.size + taken.length })

def vfsPipeTee (len : Nat) (src dst : VfsPipe) : Int × Nat × VfsPipe :=
  let n := min (min len src.size) (pipeBufferSize - dst.size)
  if dst.readers = 0 then (-epipe, 0, dst)
  else if n = 0 then (if src.size = 0 ∧ src.writers = 0 then 0 else -eagain, 0, dst)
  else
    let b := copyAcross src.buffer n src.readPos (dst.buffer, dst.writePos)
    (n, n, { dst with buffer := b.1, writePos := b.2, size := dst.size + n })

structure Pipes where
  pipe : Nat → VfsPipe
  accepted : Nat → List UInt8
  returned : Nat → List UInt8

inductive Event where
  | read (i : Nat) (nonblock signal : Bool) (size : Nat)
  | write (i : Nat) (nonblock signal : Bool) (buf : List UInt8)
  | tee (i j len : Nat)
  | ends (i readers writers : Nat)

def view (buffer : Nat → UInt8) (pos n : Nat) : List UInt8 :=
  (range n).map fun k => buffer ((pos + k) % pipeBufferSize)

variable (w : Pipes)

def Pipes.put (i : Nat) (p : VfsPipe) (accepted returned : List UInt8) : Pipes where
  pipe := update w.pipe i p
  accepted := update w.accepted i (w.accepted i ++ accepted)
  returned := update w.returned i (w.returned i ++ returned)

def Pipes.step : Event → Pipes
  | .read i nonblock signal size =>
    let r := pipeRead nonblock signal size (w.pipe i)
    w.put i r.2.2 [] r.2.1
  | .write i nonblock signal buf =>
    let r := pipeWrite nonblock signal buf (w.pipe i)
    w.put i r.2.2 r.2.1 []
  | .tee i j len =>
    if i = j ∨ len = 0 then w
    else
      let r := vfsPipeTee len (w.pipe i) (w.pipe j)
      w.put j r.2.2 (view (w.pipe i).buffer (w.pipe i).readPos r.2.1) []
  | .ends i readers writers => w.put i { w.pipe i with readers := readers, writers := writers } [] []

def Pipes.opened (buffer : Nat → Nat → UInt8) : Pipes :=
  ⟨fun i => ⟨buffer i,0,0,0,1,1⟩,fun _ => [],fun _ => []⟩

structure Streams (accepted returned : List UInt8) (p : VfsPipe) : Prop where
  stream : accepted = returned ++ view p.buffer p.readPos p.size
  room : p.size ≤ pipeBufferSize
  place : p.readPos < pipeBufferSize
  agree : p.writePos = (p.readPos + p.size) % pipeBufferSize

variable {buf : Nat → UInt8} {pos n i : Nat} {p src : VfsPipe} {acc ret xs : List UInt8}

lemma view_add (buf : Nat → UInt8) (pos a b : Nat) :
    view buf pos (a + b) = view buf pos a ++ view buf ((pos + a) % pipeBufferSize) b := by
  simp only [view,range_add,map_append,map_map]
  congr 2
  funext k
  simp [add_assoc]

lemma view_succ (h : pos < pipeBufferSize) :
    view buf pos (n + 1) = buf pos :: view buf ((pos + 1) % pipeBufferSize) n := by
  rw [add_comm,view_add]
  simp [view,mod_eq_of_lt h]

lemma view_push (x : UInt8) (h : n < pipeBufferSize) :
    view (update buf ((pos + n) % pipeBufferSize) x) pos (n + 1) = view buf pos n ++ [x] := by
  simp only [view,range_succ,map_append,map_cons,update_self]
  congr 1
  refine map_congr_left fun k hk => update_of_ne (fun heq => ?_) ..
  have hk := mem_range.mp hk
  have hmod : k % pipeBufferSize = n % pipeBufferSize := Nat.ModEq.add_left_cancel' pos heq
  rw [mod_eq_of_lt h,mod_eq_of_lt (hk.trans h)] at hmod
  omega

lemma copyOut_eq (h : pos < pipeBufferSize) :
    copyOut buf n pos = (view buf pos n, (pos + n) % pipeBufferSize) := by
  induction n generalizing pos with
  | zero => simp [copyOut,view,mod_eq_of_lt h]
  | succ n ih =>
    rw [copyOut,ih (mod_lt _ (by decide)),view_succ h]
    simp [add_assoc,add_comm 1]

lemma copyAcross_eq (b : (Nat → UInt8) × Nat) (h : pos < pipeBufferSize) :
    copyAcross buf n pos b = copyIn (view buf pos n) b := by
  induction n generalizing pos b with
  | zero => rfl
  | succ n ih => rw [copyAcross,ih _ (mod_lt _ (by decide)),view_succ h,copyIn]

lemma copyIn_view (buf : Nat → UInt8) (pos : Nat)
    (h : n + xs.length ≤ pipeBufferSize) :
    let b := copyIn xs (buf, (pos + n) % pipeBufferSize)
    view b.1 pos (n + xs.length) = view buf pos n ++ xs ∧
      b.2 = (pos + (n + xs.length)) % pipeBufferSize := by
  induction xs generalizing buf n with
  | nil => simp [copyIn]
  | cons x xs ih =>
    rw [length_cons] at h
    have hnx := ih (update buf ((pos + n) % pipeBufferSize) x) (n := n + 1) (by omega)
    rw [view_push x (by omega)] at hnx
    simpa [copyIn,add_assoc,add_comm 1] using hnx

section

variable (h : Streams acc ret p)

include h

lemma Streams.push (xs : List UInt8)
    (hro : p.size + xs.length ≤ pipeBufferSize) :
    let b := copyIn xs (p.buffer, p.writePos)
    Streams (acc ++ xs) ret
      { p with buffer := b.1, writePos := b.2, size := p.size + xs.length } := by
  obtain ⟨hvw,hpos⟩ := copyIn_view p.buffer p.readPos hro
  rw [← h.agree] at hvw hpos
  exact ⟨by simp only [hvw,h.stream,append_assoc],hro,h.place,hpos⟩

lemma Streams.read (nonblock signal : Bool) (size : Nat) :
    let r := pipeRead nonblock signal size p
    Streams acc (ret ++ r.2.1) r.2.2 := by
  unfold pipeRead
  split
  · simpa using h
  have hsp : p.size = min size p.size + (p.size - min size p.size) := by omega
  have hvw := view_add p.buffer p.readPos (min size p.size) (p.size - min size p.size)
  rw [← hsp] at hvw
  simp only [copyOut_eq h.place]
  refine ⟨?_,tsub_le_self.trans h.room,mod_lt _ (by decide),?_⟩
  · rw [append_assoc,← hvw,h.stream]
  rw [h.agree,mod_add_mod,add_assoc,← hsp]

lemma Streams.write (nonblock signal : Bool) (buf : List UInt8) :
    let r := pipeWrite nonblock signal buf p
    Streams (acc ++ r.2.1) ret r.2.2 := by
  unfold pipeWrite
  iterate 2
    split
    · simpa using h
  refine h.push _ ?_
  rw [length_take]
  omega

lemma Streams.tee (hsrc : src.readPos < pipeBufferSize)
    (len : Nat) :
    let r := vfsPipeTee len src p
    Streams (acc ++ view src.buffer src.readPos r.2.1) ret r.2.2 := by
  unfold vfsPipeTee
  dsimp only
  iterate 2
    split
    · simpa [view] using h
  have hlen : ∀ n, (view src.buffer src.readPos n).length = n := fun n => by simp [view]
  have hpu := h.push (view src.buffer src.readPos
    (min (min len src.size) (pipeBufferSize - p.size))) (by have := h.room; rw [hlen]; omega)
  rw [hlen] at hpu
  rw [copyAcross_eq _ hsrc]
  exact hpu

end

def Pipes.Sound : Prop := ∀ i, Streams (w.accepted i) (w.returned i) (w.pipe i)

lemma Pipes.Sound.put {w : Pipes} {more gone : List UInt8} (h : w.Sound)
    (hi : Streams (w.accepted i ++ more) (w.returned i ++ gone) p) : (w.put i p more gone).Sound := by
  intro k
  obtain rfl | hk := eq_or_ne k i
  · simpa [Pipes.put] using hi
  simpa [Pipes.put,hk] using h k

lemma Pipes.Sound.step {w : Pipes} (h : w.Sound) (e : Event) : (w.step e).Sound := by
  cases e with
  | read i nonblock signal size => exact h.put (by simpa using (h i).read nonblock signal size)
  | write i nonblock signal buf => exact h.put (by simpa using (h i).write nonblock signal buf)
  | tee i j len =>
    rw [Pipes.step]
    split
    · exact h
    exact h.put (by simpa using (h j).tee (h i).place len)
  | ends i readers writers => exact h.put (by simpa using { h i with })

theorem pipes_stream (buffer : Nat → Nat → UInt8) (events : List Event) :
    (events.foldl Pipes.step (.opened buffer)).Sound := by
  have hin : (Pipes.opened buffer).Sound := fun _ =>
    ⟨rfl,zero_le _,succ_pos 65535,rfl⟩
  exact foldlRecOn events _ hin fun _ hw e _ => hw.step e

def pipeBuf : Nat := 4096

def Whole (w : Pipes) : Event → Prop
  | .write i nonblock signal buf => buf.length ≤ pipeBuf →
      (w.step (.write i nonblock signal buf)).accepted i = w.accepted i ++ buf ∨
        (w.step (.write i nonblock signal buf)).accepted i = w.accepted i
  | _ => True

def Roomy (w : Pipes) : Event → Prop
  | .write i _ _ buf => buf.length ≤ pipeBuf → (w.pipe i).readers = 0 ∨
      pipeBufferSize ≤ (w.pipe i).size ∨ buf.length ≤ pipeBufferSize - (w.pipe i).size
  | _ => True

lemma pipeWrite_taken (buf : List UInt8) : (pipeWrite nonblock signal buf p).2.1 =
      if p.readers = 0 ∨ pipeBufferSize ≤ p.size then [] else buf.take (pipeBufferSize - p.size) := by
  unfold pipeWrite
  split
  · next hgo => rw [if_pos (.inl hgo)]
  next hends =>
  split
  · next hfu => rw [if_pos (.inr (Nat.sub_eq_zero_iff_le.mp hfu))]
  next hro => rw [if_neg (not_or.mpr ⟨hends,fun hle => hro (Nat.sub_eq_zero_of_le hle)⟩)]

lemma whole_iff_roomy (e : Event) : Whole w e ↔ Roomy w e := by
  cases e with
  | write i nonblock signal buf =>
    refine imp_congr_right fun _ => ?_
    simp only [Pipes.step,Pipes.put,update_self,append_right_inj,append_right_eq_self,pipeWrite_taken]
    split
    · next hnone => exact iff_of_true (.inr rfl) (hnone.imp_right .inl)
    next hsm =>
    obtain ⟨hends,hfu⟩ := not_or.mp hsm
    simp only [take_eq_self_iff,take_eq_nil_iff,hends,hfu,false_or]
    refine or_iff_left_of_imp fun hnil => ?_
    rw [hnil.resolve_left (by omega)]
    exact zero_le
  | read | tee | ends => exact .rfl

theorem small_writes_whole_iff (buffer : Nat → Nat → UInt8) (events : List Event) :
    Along Whole Pipes.step (.opened buffer) events ↔ Along Roomy Pipes.step (.opened buffer) events :=
  Along.congr (P := fun _ => True) (fun w e _ => whole_iff_roomy w e) (fun _ _ _ _ => trivial) trivial

lemma accepted_after_fill (h : xs.length = 65535) (x y : UInt8) :
    ([.write 0 true false xs,.write 0 true false [x,y]].foldl Pipes.step
      (.opened fun _ _ => 0)).accepted 0 = xs ++ [x] := by
  simp [Pipes.step,Pipes.put,pipeWrite,Pipes.opened,pipeBufferSize,h]

theorem small_write_split :
    ([.write 0 true false (replicate 65535 0),.write 0 true false [1,2]].foldl Pipes.step
      (.opened fun _ _ => 0)).accepted 0 = replicate 65535 0 ++ [1] :=
  accepted_after_fill length_replicate 1 2

end B1nix.Pipe
