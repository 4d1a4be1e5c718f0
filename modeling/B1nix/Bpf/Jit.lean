import B1nix.Bpf.Insn
import B1nix.Basic.Serial

namespace B1nix.Bpf.Jit

open Nat

def jitReg : Nat → UInt8
  | 0 => 0
  | 1 => 7
  | 2 => 6
  | 3 => 2
  | 4 => 1
  | 5 => 8
  | 6 => 3
  | 7 => 13
  | 8 => 14
  | 9 => 15
  | _ => 5

def x86Rax : UInt8 := 0

def x86Rcx : UInt8 := 1

structure JitReq where
  insns : List Insn
  maps : List (BitVec 64)
  helperFn : BitVec 64
  loaded : insns.length ≤ maxInsns

structure Jit where
  buf : List UInt8
  cap : Nat
  fail : Bool

variable (req : JitReq) (pc : Nat) (i : Insn) (digit : UInt8) (w : Bool) (dst : UInt8)
  (imm : BitVec 32) (j : Jit)

def e8 (b : UInt8) : Jit :=
  if j.cap < j.buf.length + 1 then { j with fail := true } else { j with buf := j.buf ++ [b] }

def emit (bs : List UInt8) : Jit := bs.foldl e8 j

def byteOf {w : Nat} (v : BitVec w) (i : Nat) : UInt8 := ⟨(v >>> (8 * i)).setWidth 8⟩

def e32 (v : BitVec 32) : List UInt8 := [byteOf v 0,byteOf v 1,byteOf v 2,byteOf v 3]

def e64 (v : BitVec 64) : List UInt8 :=
  [byteOf v 0,byteOf v 1,byteOf v 2,byteOf v 3,byteOf v 4,byteOf v 5,byteOf v 6,byteOf v 7]

def rex (r x b force : Bool) : List UInt8 :=
  let v : UInt8 :=
    (0x40 : UInt8) ||| (w.toUInt8 <<< 3) ||| (r.toUInt8 <<< 2) ||| (x.toUInt8 <<< 1) ||| b.toUInt8
  if v ≠ 0x40 ∨ force then [v] else []

def high (r : UInt8) : Bool := decide (8 ≤ r)

def modrm (mode reg rm : UInt8) : UInt8 := mode ||| (reg <<< 3) ||| (rm &&& 7)

def aluRr (op : UInt8) (w : Bool) (dst src : UInt8) : List UInt8 :=
  rex w (high src) false (high dst) false ++
    [op,modrm 0xC0 (src &&& 7) dst]

def aluRi : List UInt8 :=
  rex w false false (high dst) false ++ [0x81,modrm 0xC0 digit dst] ++ e32 imm

def movRi32 : List UInt8 := rex w false false (high dst) false ++ [0xC7,modrm 0xC0 0 dst] ++ e32 imm

def movRi64 (imm : BitVec 64) : List UInt8 :=
  rex true false false (high dst) false ++ [(0xB8 : UInt8) ||| (dst &&& 7)] ++ e64 imm

def imulRr (src : UInt8) : List UInt8 :=
  rex w (high dst) false (high src) false ++
    [0x0F,0xAF,modrm 0xC0 (dst &&& 7) src]

def imulRi : List UInt8 :=
  rex w (high dst) false (high dst) false ++
    [0x69,modrm 0xC0 (dst &&& 7) dst] ++ e32 imm

def grp3 : List UInt8 := rex w false false (high dst) false ++ [0xF7,modrm 0xC0 digit dst]

def shiftRi (amount : UInt8) : List UInt8 :=
  rex w false false (high dst) false ++ [0xC1,modrm 0xC0 digit dst,amount]

def shiftCl : List UInt8 := rex w false false (high dst) false ++ [0xD3,modrm 0xC0 digit dst]

def memOperand (reg base : UInt8) (off : BitVec 32) : List UInt8 :=
  [modrm 0x80 (reg &&& 7) base] ++
    (if base &&& 7 = 4 then [0x24] else []) ++ e32 off

def emitLoad (size : Nat) (dst base : UInt8) (off : BitVec 32) : List UInt8 :=
  (match size with
    | 8 => rex true (high dst) false (high base) false ++ [0x8B]
    | 4 => rex false (high dst) false (high base) false ++ [0x8B]
    | 2 => rex false (high dst) false (high base) false ++ [0x0F,0xB7]
    | _ => rex false (high dst) false (high base) false ++ [0x0F,0xB6]) ++
    memOperand dst base off

def emitStore (size : Nat) (base : UInt8) (off : BitVec 32) (src : UInt8) : List UInt8 :=
  (match size with
    | 8 => rex true (high src) false (high base) false ++ [0x89]
    | 4 => rex false (high src) false (high base) false ++ [0x89]
    | 2 => [0x66] ++ rex false (high src) false (high base) false ++ [0x89]
    | _ => rex false (high src) false (high base) (decide (4 ≤ src)) ++ [0x88]) ++
    memOperand src base off

def emitStoreImm (size : Nat) (base : UInt8) (off imm : BitVec 32) : List UInt8 :=
  match size with
  | 8 => rex true false false (high base) false ++ [0xC7] ++ memOperand 0 base off ++ e32 imm
  | 4 => rex false false false (high base) false ++ [0xC7] ++ memOperand 0 base off ++ e32 imm
  | 2 =>
    [0x66] ++ rex false false false (high base) false ++ [0xC7] ++ memOperand 0 base off ++
      [byteOf imm 0,byteOf imm 1]
  | _ =>
    rex false false false (high base) false ++ [0xC6] ++ memOperand 0 base off ++ [byteOf imm 0]

@[irreducible] def prologue : List UInt8 :=
  [0x55] ++ aluRr 0x89 true 5 4 ++ aluRi 5 true 4 (BitVec.ofNat 32 stackSize) ++
    ((List.range (stackSize / 8)).flatMap fun i =>
      emitStoreImm 8 5 (-BitVec.ofNat 32 (8 * (i + 1))) 0) ++
    [0x53,0x41,0x55,0x41,0x56,0x41,0x57]

@[irreducible] def epilogue : List UInt8 :=
  [0x41,0x5F,0x41,0x5E,0x41,0x5D,0x5B] ++ aluRi 0 true 4 (BitVec.ofNat 32 stackSize) ++
    [0x5D,0xC3]

def helperCall (id : BitVec 32) (fn : BitVec 64) : List UInt8 :=
  aluRr 0x89 true 9 8 ++ aluRr 0x89 true 8 1 ++ aluRr 0x89 true 1 2 ++ aluRr 0x89 true 2 6 ++
    aluRr 0x89 true 6 7 ++ movRi32 false 7 id ++ movRi64 x86Rax fn ++ [0xFF,0xD0]

def jitCc : JmpOp → Option (UInt8 × Bool)
  | .jeq => some (0x4, false)
  | .jne => some (0x5, false)
  | .jgt => some (0x7, false)
  | .jge => some (0x3, false)
  | .jlt => some (0x2, false)
  | .jle => some (0x6, false)
  | .jsgt => some (0xF, false)
  | .jsge => some (0xD, false)
  | .jslt => some (0xC, false)
  | .jsle => some (0xE, false)
  | .jset => some (0x5, true)
  | .ja | .call | .exit => none

inductive Lowered where
  | unsupported
  | code (bytes : List UInt8)
  | wide (bytes : List UInt8)
  | branch (lead : List UInt8) (target : Nat)

def binary (op digit : UInt8) (w isX : Bool) (dst src : UInt8) (imm : BitVec 32) : Lowered :=
  .code (if isX then aluRr op w dst src else aluRi digit w dst imm)

def lowerShift (isX : Bool) (dst src : UInt8) (imm : BitVec 32) : Lowered :=
  if isX = false then
    .code (shiftRi digit w dst (byteOf (imm &&& (if w then 63 else 31)) 0))
  else if src = x86Rcx then .code (shiftCl digit w dst)
  else if dst = x86Rcx then .unsupported
  else .code ([0x51] ++ aluRr 0x89 true x86Rcx src ++ shiftCl digit w dst ++ [0x59])

def lowerAlu (src : UInt8) : Lowered :=
  match i.aluOp with
  | some .add => binary 0x01 0 w i.fromReg dst src i.imm
  | some .sub => binary 0x29 5 w i.fromReg dst src i.imm
  | some .or => binary 0x09 1 w i.fromReg dst src i.imm
  | some .and => binary 0x21 4 w i.fromReg dst src i.imm
  | some .xor => binary 0x31 6 w i.fromReg dst src i.imm
  | some .mul => .code (if i.fromReg then imulRr w dst src else imulRi w dst i.imm)
  | some .mov => .code (if i.fromReg then aluRr 0x89 w dst src else movRi32 w dst i.imm)
  | some .neg => .code (grp3 3 w dst)
  | some .lsh => lowerShift 4 w i.fromReg dst src i.imm
  | some .rsh => lowerShift 5 w i.fromReg dst src i.imm
  | some .arsh => lowerShift 7 w i.fromReg dst src i.imm
  | _ => .unsupported

def compareCode (useTest w : Bool) (dst src : UInt8) : List UInt8 :=
  if useTest then
    if i.fromReg then aluRr 0x85 w dst src else grp3 0 w dst ++ e32 i.imm
  else if i.fromReg then aluRr 0x39 w dst src
  else aluRi 7 w dst i.imm

def lowerJump (op : JmpOp) (w : Bool) (dst src : UInt8) : Lowered :=
  let target : Int := (pc : Int) + 1 + i.off.toInt
  if target < 0 ∨ (req.insns.length : Int) ≤ target then .unsupported
  else if op = .ja then .branch [0xE9] target.toNat
  else
    match jitCc op with
    | none => .unsupported
    | some (cc, useTest) =>
      .branch (compareCode i useTest w dst src ++ [0x0F,(0x80 : UInt8) ||| cc]) target.toNat

def wideValue : BitVec 64 :=
  if i.src = 1 then
    if 0 ≤ i.off.toInt then req.maps.getD i.off.toInt.toNat 0 else 0
  else wideImm i (req.insns.getD (pc + 1) ⟨0,0,0,0⟩)

def lower : Lowered :=
  let dst := jitReg i.dst
  let src := jitReg i.src
  if 10 < i.dst ∨ 10 < i.src then .unsupported
  else
    match i.cls with
    | .alu => lowerAlu i false dst src
    | .alu64 => lowerAlu i true dst src
    | .ldx =>
      if i.mode = .mem then .code (emitLoad i.bytes dst src (i.off.signExtend 32))
      else .unsupported
    | .st =>
      if i.mode = .mem then .code (emitStoreImm i.bytes dst (i.off.signExtend 32) i.imm)
      else .unsupported
    | .stx =>
      if i.mode = .mem then .code (emitStore i.bytes dst (i.off.signExtend 32) src)
      else .unsupported
    | .ld => if i.loadImm then .wide (movRi64 dst (wideValue req pc i)) else .unsupported
    | .jmp | .jmp32 =>
      match i.jmpOp with
      | none => .unsupported
      | some .exit => .code epilogue
      | some .call => .code (helperCall i.imm req.helperFn)
      | some op => lowerJump req pc i op (decide (i.cls = .jmp)) dst src

abbrev Offs : Type := Nat → BitVec 32

def len32 : BitVec 32 := BitVec.ofNat 32 j.buf.length

def emitBranch (offs : Offs) (final : Bool) (lead : List UInt8) (target : Nat) : Jit :=
  let j := emit j lead
  emit j (e32 (if final then offs target - (len32 j + 4) else 0))

def jitLoop (req : JitReq) (final : Bool) : Nat → Nat → Jit → Offs → Jit × Offs
  | 0, _, j, offs => (j, offs)
  | fuel + 1, pc, j, offs =>
    match req.insns[pc]? with
    | none => (j, offs)
    | some i =>
      if j.fail then (j, offs)
      else
        let offs := Function.update offs pc (len32 j)
        match lower req pc i with
        | .unsupported => ({ j with fail := true }, offs)
        | .code bytes => jitLoop req final fuel (pc + 1) (emit j bytes) offs
        | .wide bytes =>
          let offs :=
            if pc + 1 < req.insns.length then Function.update offs (pc + 1) (offs pc)
            else offs
          jitLoop req final fuel (pc + 2) (emit j bytes) offs
        | .branch lead target =>
          jitLoop req final fuel (pc + 1) (emitBranch j offs final lead target) offs

def jitPass (final : Bool) (j : Jit) (offs : Offs) : Jit × Offs :=
  let r := jitLoop req final req.insns.length 0 (emit { j with buf := [] } prologue) offs
  (emit r.1 epilogue, r.2)

def capacity : Nat := req.insns.length * 64 + 128

def sizing : Jit × Offs :=
  jitPass req false { buf := [], cap := capacity req, fail := false } fun _ => 0

def emitting : Jit × Offs := jitPass req true (sizing req).1 (sizing req).2

def bpfJitCompile (offsOk codeOk protOk : Bool) : Option (List UInt8) :=
  if req.insns = [] ∨ req.helperFn = 0 ∨ offsOk = false ∨ codeOk = false then none
  else if (sizing req).1.fail then none
  else if (emitting req).1.fail then none
  else if protOk then some (emitting req).1.buf
  else none

open Function List

structure Alike (j j' : Jit) : Prop where
  len : j'.buf.length = j.buf.length
  cap : j'.cap = j.cap
  fail : j'.fail = j.fail

variable {j j' : Jit} {bs lead bytes buf out : List UInt8} {n target x k fuel pc pc' m rest : Nat}
  {req : JitReq} {f : Bool} {offs o : Offs}

lemma Alike.e8 (h : Alike j j') (b b' : UInt8) : Alike (e8 j b) (e8 j' b') := by
  unfold Jit.e8
  rw [h.cap,h.len]
  split
  · exact ⟨h.len,rfl,rfl⟩
  exact ⟨by simp [h.len],rfl,h.fail⟩

lemma Alike.emit (h : Alike j j') {bs' : List UInt8} (hlen : bs'.length = bs.length) :
    Alike (emit j bs) (emit j' bs') := by
  induction bs generalizing j j' bs' with
  | nil =>
    rw [length_eq_zero_iff.mp hlen]
    exact h
  | cons b _ ih =>
    cases bs' with
    | nil => cases hlen
    | cons b' => exact ih (h.e8 b b') (succ.inj hlen)

lemma Alike.len32 (h : Alike j j') : len32 j' = len32 j := by
  rw [Jit.len32,h.len]
  rfl

structure Within (n : Nat) (j : Jit) : Prop where
  cap : j.cap = n
  room : j.buf.length ≤ n

lemma Within.emit (h : Within n j) (bs : List UInt8) : Within n (emit j bs) := by
  induction bs generalizing j with
  | nil => exact h
  | cons _ _ ih =>
    apply ih
    have hcap := h.cap
    unfold e8
    split
    · exact ⟨h.cap,h.room⟩
    exact ⟨h.cap,by simp only [length_append,length_singleton]; omega⟩

lemma emit_ok (h : (emit j bs).fail = false) : j.fail = false ∧ (emit j bs).buf = j.buf ++ bs := by
  induction bs generalizing j with
  | nil => exact ⟨h,(append_nil _).symm⟩
  | cons b bs ih =>
    obtain ⟨hfail,hbuf⟩ := ih h
    have hro : ¬j.cap < j.buf.length + 1 := by
      intro hfu
      rw [e8,if_pos hfu] at hfail
      cases hfail
    rw [e8,if_neg hro] at hfail hbuf
    refine ⟨hfail,?_⟩
    change (Jit.emit (e8 j b) bs).buf = _
    rw [e8,if_neg hro,hbuf,append_assoc]
    rfl

def width (req : JitReq) (pc : Nat) : Nat :=
  match req.insns[pc]? with
  | none => 1
  | some i =>
    match lower req pc i with
    | .wide _ => 2
    | _ => 1

inductive Starts (req : JitReq) : Nat → Nat → Prop where
  | here (pc : Nat) : Starts req pc pc
  | next {pc pc' : Nat} (h : Starts req (pc + width req pc) pc') : Starts req pc pc'

def encode (req : JitReq) (offs : Offs) (pc at' : Nat) (i : Insn) : List UInt8 :=
  match lower req pc i with
  | .unsupported => []
  | .code bytes => bytes
  | .wide bytes => bytes
  | .branch lead target =>
    lead ++ e32 (offs target - (BitVec.ofNat 32 (at' + lead.length) + 4))

def Lowered.size : Lowered → Option Nat
  | .unsupported => none
  | .code bytes | .wide bytes => some bytes.length
  | .branch lead _ => some (lead.length + 4)

def halfSet (req : JitReq) (pc : Nat) (offs : Offs) : Offs :=
  if pc + 1 < req.insns.length then update offs (pc + 1) (offs pc) else offs

def stepCode (f : Bool) (offs : Offs) (j : Jit) : Lowered → List UInt8
  | .unsupported => []
  | .code bytes | .wide bytes => bytes
  | .branch lead target =>
    lead ++ e32 (if f then offs target - (len32 (emit j lead) + 4) else 0)

lemma stepCode_length (f : Bool) (offs : Offs) (j : Jit) (l : Lowered) :
    (stepCode f offs j l).length = l.size.getD 0 := by
  cases l with
  | unsupported | code | wide => rfl
  | branch => exact length_append

def marked (req : JitReq) (pc : Nat) (i : Insn) (j : Jit) (offs : Offs) : Offs :=
  match lower req pc i with
  | .wide _ => halfSet req pc (update offs pc (len32 j))
  | _ => update offs pc (len32 j)

section

variable {i : Insn}

lemma jitLoop_end (hi : req.insns[pc]? = none) : jitLoop req f (fuel + 1) pc j offs = (j, offs) := by
  rw [jitLoop,hi]

lemma jitLoop_failed (hi : req.insns[pc]? = some i) (hfail : j.fail = true) :
    jitLoop req f (fuel + 1) pc j offs = (j, offs) := by
  rw [jitLoop,hi]
  exact if_pos hfail

variable (hi : req.insns[pc]? = some i) (hok : j.fail = false)

include hi hok

lemma jitLoop_unsupported (hlow : lower req pc i = .unsupported) :
    jitLoop req f (fuel + 1) pc j offs =
      ({ j with fail := true }, update offs pc (len32 j)) := by
  rw [jitLoop,hi]
  simp [hok,hlow]

lemma jitLoop_step (hlow : lower req pc i ≠ .unsupported) :
    jitLoop req f (fuel + 1) pc j offs =
      jitLoop req f fuel (pc + width req pc)
        (emit j (stepCode f (marked req pc i j offs) j (lower req pc i)))
        (marked req pc i j offs) := by
  rw [jitLoop]
  simp only [hok,width,hi,marked]
  cases hl : lower req pc i with
  | unsupported => cases hlow hl
  | code | wide => rfl
  | branch => exact congrArg (jitLoop req f fuel (pc + 1) · _) foldl_append.symm

end

lemma halfSet_kept (req : JitReq) (offs : Offs) (hx : x ≠ pc + 1) : halfSet req pc offs x = offs x := by
  unfold halfSet
  split
  · exact update_of_ne hx ..
  rfl

lemma width_pos (req : JitReq) (pc : Nat) : 0 < width req pc := by
  unfold width
  split
  · exact one_pos
  split <;> omega

lemma jitLoop_invariant {P : Nat → Jit → Offs → Prop}
    (hbad : ∀ pc j offs, P pc j offs → P pc { j with fail := true } (update offs pc (len32 j)))
    (hstep : ∀ pc i j offs bytes, P pc j offs → P (pc + width req pc) (emit j bytes) (marked req pc i j offs))
    (h : P pc j offs) : ∃ pc', P pc' (jitLoop req f fuel pc j offs).1 (jitLoop req f fuel pc j offs).2 := by
  induction fuel generalizing pc j offs with
  | zero => exact ⟨pc,h⟩
  | succ _ ih =>
    cases hi : req.insns[pc]? with
    | none =>
      rw [jitLoop_end hi]
      exact ⟨pc,h⟩
    | some i =>
      cases hok : j.fail with
      | true =>
        rw [jitLoop_failed hi hok]
        exact ⟨pc,h⟩
      | false =>
        by_cases hlow : lower req pc i = .unsupported
        · rw [jitLoop_unsupported hi hok hlow]
          exact ⟨pc,hbad pc j offs h⟩
        rw [jitLoop_step hi hok hlow]
        exact ih (hstep pc i j offs _ h)

lemma marked_cases (req : JitReq) (pc : Nat) (i : Insn) :
    (∀ j offs, marked req pc i j offs = halfSet req pc (update offs pc (len32 j))) ∧
      (req.insns[pc]? = some i → width req pc = 2) ∨
    ∀ j offs, marked req pc i j offs = update offs pc (len32 j) := by
  unfold marked width
  cases hlow : lower req pc i with
  | wide => exact .inl ⟨fun _ _ => rfl,fun hi => by rw [hi]; simp only [hlow]⟩
  | unsupported | code | branch => exact .inr fun _ _ => rfl

lemma marked_self (j : Jit) (offs : Offs) : marked req pc i j offs pc = len32 j := by
  obtain ⟨hwide,-⟩ | hone := marked_cases req pc i
  · rw [hwide,halfSet_kept req _ (by omega),update_self]
  rw [hone,update_self]

lemma marked_kept (j : Jit) (offs : Offs) (hx : x < pc) : marked req pc i j offs x = offs x := by
  obtain ⟨hwide,-⟩ | hone := marked_cases req pc i
  · rw [hwide,halfSet_kept req _ (by omega),update_of_ne hx.ne]
  rw [hone,update_of_ne hx.ne]

lemma jitLoop_kept (req : JitReq) (f : Bool) (fuel : Nat) (j : Jit) (offs : Offs)
    (hx : x < pc) : (jitLoop req f fuel pc j offs).2 x = offs x := by
  obtain ⟨_,-,hke⟩ : ∃ pc', x < pc' ∧ (jitLoop req f fuel pc j offs).2 x = offs x := by
    refine jitLoop_invariant (P := fun pc _ o => x < pc ∧ o x = offs x) ?_ ?_ ⟨hx,rfl⟩
    · exact fun pc _ o h => ⟨h.1,(update_of_ne h.1.ne _ o).trans h.2⟩
    exact fun pc i j o _ h => ⟨h.1.trans_le le_self_add,(marked_kept i j o h.1).trans h.2⟩
  exact hke

lemma update_noop {v : BitVec 32} (h : offs x = v) : update offs x v = offs := by
  rw [← h]
  exact update_eq_self x offs

lemma halfSet_noop
    (h : pc + 1 < req.insns.length → offs (pc + 1) = offs pc) : halfSet req pc offs = offs := by
  unfold halfSet
  split
  case isTrue hin => exact update_noop (h hin)
  case isFalse => rfl

lemma halfSet_at (offs : Offs) (h : pc + 1 < req.insns.length) :
    halfSet req pc offs (pc + 1) = offs pc := by
  unfold halfSet
  rw [if_pos h,update_self]

lemma marked_fixed {i : Insn} (hlen : len32 j' = len32 j)
    (h : ∀ x < pc + width req pc, o x = marked req pc i j offs x)
    (hi : req.insns[pc]? = some i) : marked req pc i j' o = o := by
  have hpos := width_pos req pc
  have hse : o pc = len32 j' := by rw [h pc (by omega),marked_self,hlen]
  obtain ⟨hwide,htwo⟩ | hone := marked_cases req pc i
  · rw [hwide,update_noop hse]
    refine halfSet_noop fun hin => ?_
    rw [h (pc + 1) (by have := htwo hi; omega),hwide,halfSet_at _ hin,update_self,hse,hlen]
  rw [hone,update_noop hse]

lemma jitLoop_fixed (req : JitReq) (fuel : Nat) (hj : Alike j j') (offs : Offs) :
    Alike (jitLoop req false fuel pc j offs).1
      (jitLoop req true fuel pc j' (jitLoop req false fuel pc j offs).2).1 ∧
    (jitLoop req true fuel pc j' (jitLoop req false fuel pc j offs).2).2 =
      (jitLoop req false fuel pc j offs).2 := by
  induction fuel generalizing pc j j' offs with
  | zero => exact ⟨hj,rfl⟩
  | succ fuel ih =>
    cases hi : req.insns[pc]? with
    | none =>
      rw [jitLoop_end hi,jitLoop_end hi]
      exact ⟨hj,rfl⟩
    | some i =>
      cases hok : j.fail with
      | true =>
        rw [jitLoop_failed hi hok,jitLoop_failed hi (hj.fail.trans hok)]
        exact ⟨hj,rfl⟩
      | false =>
        have hok' := hj.fail.trans hok
        by_cases hlow : lower req pc i = .unsupported
        · rw [jitLoop_unsupported hi hok hlow,jitLoop_unsupported hi hok' hlow]
          refine ⟨⟨hj.len,hj.cap,rfl⟩,update_noop ?_⟩
          exact (update_self ..).trans hj.len32.symm
        rw [jitLoop_step hi hok hlow,jitLoop_step hi hok' hlow,
          marked_fixed hj.len32 (fun x => jitLoop_kept _ _ _ _ _) hi]
        refine ih (hj.emit ?_) _
        rw [stepCode_length,stepCode_length]

lemma Starts.cases (h : Starts req pc pc') : pc' = pc ∨ Starts req (pc + width req pc) pc' := by
  cases h with
  | here => exact .inl rfl
  | next h => exact .inr h

lemma Starts.le (h : Starts req pc pc') : pc ≤ pc' := by
  induction h with
  | here => exact le_rfl
  | next _ ih => exact le_self_add.trans ih

lemma jitLoop_ok (h : (jitLoop req f fuel pc j offs).1.fail = false) : j.fail = false := by
  cases hok : j.fail with
  | false => rfl
  | true =>
    cases fuel with
    | zero => exact hok.symm.trans h
    | succ =>
      cases hi : req.insns[pc]? with
      | none =>
        rw [jitLoop_end hi] at h
        exact hok.symm.trans h
      | some =>
        rw [jitLoop_failed hi hok] at h
        exact hok.symm.trans h

structure Listing (req : JitReq) (offs : Offs) (pc : Nat) (buf : List UInt8) : Prop where
  placed : ∀ pc' i, Starts req pc pc' → req.insns[pc']? = some i →
    encode req offs pc' (offs pc').toNat i <+: buf.drop (offs pc').toNat

lemma Listing.past (h : req.insns.length ≤ pc) : Listing req offs pc buf := by
  refine ⟨fun pc' i hsts hi => ?_⟩
  have hlt := (List.getElem?_eq_some_iff.mp hi).1
  exact absurd hsts.le (by omega)

lemma Listing.mono
    (h : Listing req offs pc buf) (hpre : buf <+: out) : Listing req offs pc out :=
  ⟨fun pc' i hsts hi => (h.placed pc' i hsts hi).trans (hpre.drop _)⟩

lemma Listing.cons {i : Insn} {code : List UInt8} (hi : req.insns[pc]? = some i)
    (hoff : (offs pc).toNat = buf.length) (hcode : encode req offs pc buf.length i = code)
    (h : buf ++ code <+: out ∧ Listing req offs (pc + width req pc) out) :
    buf <+: out ∧ Listing req offs pc out := by
  obtain ⟨⟨rest,rfl⟩,hnx⟩ := h
  refine ⟨⟨code ++ rest,(append_assoc ..).symm⟩,⟨fun pc' i' hsts hi' => ?_⟩⟩
  obtain rfl | hlat := hsts.cases
  · cases hi.symm.trans hi'
    rw [hoff,hcode,append_assoc,drop_left]
    exact prefix_append code rest
  exact hnx.placed pc' i' hlat hi'

lemma stepCode_emitted {i : Insn} (h : (emit j (stepCode true offs j (lower req pc i))).fail = false) :
    stepCode true offs j (lower req pc i) = encode req offs pc j.buf.length i := by
  unfold encode
  cases hlow : lower req pc i with
  | unsupported | code | wide => rfl
  | branch lead target =>
    rw [hlow,stepCode,emit,foldl_append] at h
    have hlead := (emit_ok (emit_ok h).1).2
    rw [stepCode,len32,hlead,length_append]
    rfl

lemma jitLoop_listing (hfuel : req.insns.length ≤ pc + fuel) (hcap : Within n j) (hn : n < 2 ^ 32)
    (hok : (jitLoop req true fuel pc j offs).1.fail = false)
    (hfix : (jitLoop req true fuel pc j offs).2 = offs) :
    j.buf <+: (jitLoop req true fuel pc j offs).1.buf ∧
    Listing req offs pc (jitLoop req true fuel pc j offs).1.buf := by
  induction fuel generalizing pc j with
  | zero => exact ⟨prefix_rfl,.past hfuel⟩
  | succ _ ih =>
    cases hi : req.insns[pc]? with
    | none =>
      rw [jitLoop_end hi]
      exact ⟨prefix_rfl,.past (getElem?_eq_none_iff.mp hi)⟩
    | some i =>
      have hj := jitLoop_ok hok
      by_cases hlow : lower req pc i = .unsupported
      · rw [jitLoop_unsupported hi hj hlow] at hok
        cases hok
      have hpos := width_pos req pc
      rw [jitLoop_step hi hj hlow] at hok hfix ⊢
      have hmk : ∀ x < pc + width req pc, offs x = marked req pc i j offs x := by
        intro x hx
        rw [← jitLoop_kept req true _ _ (marked req pc i j offs) hx,hfix]
      have hse : offs pc = len32 j := by rw [hmk pc (by omega),marked_self]
      rw [marked_fixed rfl hmk hi] at hok hfix ⊢
      have hbuf := (emit_ok (jitLoop_ok hok)).2
      have hnx := ih (by omega) (hcap.emit _) hok hfix
      rw [hbuf] at hnx
      refine Listing.cons hi ?_ (stepCode_emitted (jitLoop_ok hok)).symm hnx
      have hro := hcap.room
      rw [hse,len32,BitVec.toNat_ofNat,mod_eq_of_lt (by omega)]

lemma jitLoop_within (h : Within n j) : Within n (jitLoop req f fuel pc j offs).1 :=
  (jitLoop_invariant (P := fun _ j _ => Within n j) (fun _ _ _ h => ⟨h.cap,h.room⟩)
    (fun _ _ _ _ bytes h => h.emit bytes) h).choose_spec

lemma jitPass_within (h : j.cap = n) : Within n (jitPass req f j offs).1 := by
  have hsta : Within n { j with buf := [] } := ⟨h,zero_le⟩
  exact (jitLoop_within (hsta.emit prologue)).emit epilogue

lemma sizing_within (req : JitReq) : Within (capacity req) (sizing req).1 := jitPass_within rfl

lemma capacity_lt (req : JitReq) : capacity req < 2 ^ 31 := by
  have hloaded := req.loaded
  have hmax : maxInsns = 4096 := rfl
  unfold capacity
  omega

lemma emitting_fixed (req : JitReq) (hok : (sizing req).1.fail = false) :
    Alike (sizing req).1 (emitting req).1 ∧ (emitting req).2 = (sizing req).2 := by
  have hsta : Alike { buf := [], cap := capacity req, fail := false }
      { (sizing req).1 with buf := [] } := ⟨rfl,(sizing_within req).cap,hok⟩
  obtain ⟨hloop,hoffs⟩ := jitLoop_fixed req req.insns.length (hsta.emit rfl) fun _ => 0
  exact ⟨hloop.emit rfl,hoffs⟩

lemma emitting_listing (req : JitReq) (hok : (sizing req).1.fail = false) :
    Listing req (emitting req).2 0 (emitting req).1.buf := by
  obtain ⟨halk,hoffs⟩ := emitting_fixed req hok
  obtain ⟨hfail,hbuf⟩ := emit_ok (halk.fail.trans hok)
  have hsta : Within (capacity req) { (sizing req).1 with buf := [] } :=
    ⟨(sizing_within req).cap,zero_le⟩
  have hlt := capacity_lt req
  obtain ⟨-,hlst⟩ := jitLoop_listing (le_of_eq (zero_add _).symm)
    (hsta.emit prologue) (by omega) hfail hoffs
  rw [hoffs]
  exact hlst.mono (hbuf ▸ prefix_append ..)

lemma marked_le (req : JitReq) (pc : Nat) (hcap : Within n j) (h : ∀ x, (offs x).toNat ≤ n) (x : Nat) :
    (update offs pc (len32 j) x).toNat ≤ n ∧ ∀ i, (marked req pc i j offs x).toNat ≤ n := by
  have hset : ∀ y, (update offs pc (len32 j) y).toNat ≤ n := by
    intro y
    obtain rfl | hne := eq_or_ne y pc
    · rw [update_self]
      exact (mod_le ..).trans hcap.room
    rw [update_of_ne hne]
    exact h y
  refine ⟨hset x,fun i => ?_⟩
  obtain ⟨hwide,-⟩ | hone := marked_cases req pc i
  · rw [hwide]
    obtain rfl | hne := eq_or_ne x (pc + 1)
    · unfold halfSet
      split
      · rw [update_self]
        exact hset pc
      exact hset (pc + 1)
    rw [halfSet_kept req _ hne]
    exact hset x
  rw [hone]
  exact hset x

lemma jitLoop_offs_le (hcap : Within n j) (h : ∀ x, (offs x).toNat ≤ n) (x : Nat) :
    ((jitLoop req f fuel pc j offs).2 x).toNat ≤ n := by
  refine (jitLoop_invariant (P := fun _ j o => Within n j ∧ ∀ x, (o x).toNat ≤ n) ?_ ?_
    ⟨hcap,h⟩).choose_spec.2 x
  · exact fun pc j o h => ⟨⟨h.1.cap,h.1.room⟩,fun x => (marked_le req pc h.1 h.2 x).1⟩
  exact fun pc i j o bytes h => ⟨h.1.emit bytes,fun x => (marked_le req pc h.1 h.2 x).2 i⟩

lemma displacement {a : BitVec 32} (ha : a.toNat < 2 ^ 31) (hm : m + 4 < 2 ^ 31) :
    (a - (BitVec.ofNat 32 m + 4)).toInt = (a.toNat : Int) - (m + 4 : Nat) := by
  have hgap := Serial.gap_mark (0 : BitVec 32) (m := a.toNat) (n := m + 4) (by omega) (by omega)
  have hsrc : Serial.mark (0 : BitVec 32) (m + 4) = BitVec.ofNat 32 m + 4 := by
    rw [← Serial.mark_add]
    simp [Serial.mark]
  have htar : Serial.mark (0 : BitVec 32) a.toNat = a := by simp [Serial.mark]
  rw [hsrc,htar] at hgap
  exact hgap

structure Fixpoint (req : JitReq) : Prop where
  emitted : (emitting req).1.fail = false
  offsets : (emitting req).2 = (sizing req).2
  length : (emitting req).1.buf.length = (sizing req).1.buf.length
  room : (emitting req).1.buf.length ≤ capacity req
  listing : Listing req (emitting req).2 0 (emitting req).1.buf
  jumps : ∀ pc i lead target, Starts req 0 pc → req.insns[pc]? = some i →
    lower req pc i = .branch lead target →
    ∃ rel : BitVec 32, lead ++ e32 rel <+: (emitting req).1.buf.drop ((emitting req).2 pc).toNat ∧
      rel.toInt = (((emitting req).2 target).toNat : Int) -
        (((emitting req).2 pc).toNat + lead.length + 4 : Nat)

theorem layout_fixpoint (req : JitReq) :
    (sizing req).1.buf.length ≤ capacity req ∧
    ((sizing req).1.fail = false → Fixpoint req) := by
  refine ⟨(sizing_within req).room,fun hok => ?_⟩
  obtain ⟨halk,hoffs⟩ := emitting_fixed req hok
  have hro : (emitting req).1.buf.length ≤ capacity req := by
    rw [halk.len]
    exact (sizing_within req).room
  have hlst := emitting_listing req hok
  refine ⟨halk.fail.trans hok,hoffs,halk.len,hro,hlst,?_⟩
  intro pc i lead target hsts hi hlow
  have hpl := hlst.placed pc i hsts hi
  rw [encode,hlow] at hpl
  refine ⟨_,hpl,?_⟩
  have hlt := capacity_lt req
  have htar : ((sizing req).2 target).toNat ≤ capacity req := by
    have hsta : Within (capacity req) { buf := [], cap := capacity req, fail := false } :=
      ⟨rfl,zero_le⟩
    exact jitLoop_offs_le (hsta.emit prologue) (fun _ => zero_le) target
  have hlen := hpl.length_le
  have hfour : ∀ v : BitVec 32, (e32 v).length = 4 := fun _ => rfl
  rw [length_append,hfour,length_drop] at hlen
  rw [hoffs] at hlen ⊢
  exact displacement (by omega) (by omega)

lemma emit_room (h : j.buf.length + bs.length ≤ j.cap) :
    emit j bs = { j with buf := j.buf ++ bs } := by
  induction bs generalizing j with
  | nil =>
    rw [append_nil]
    rfl
  | cons b bs ih =>
    rw [length_cons] at h
    have hro : ¬j.cap < j.buf.length + 1 := by omega
    change emit (e8 j b) bs = _
    rw [e8,if_neg hro,ih (by simp only [length_append,length_singleton]; omega),append_assoc]
    rfl

structure Roomy (j : Jit) (k : Nat) : Prop where
  ok : j.fail = false
  room : j.buf.length + k ≤ j.cap

lemma Roomy.emit (h : Roomy j (m + k)) (hbs : bs.length ≤ m) : Roomy (emit j bs) k := by
  have hro := h.room
  rw [emit_room (by omega)]
  refine ⟨h.ok,?_⟩
  rw [length_append]
  change _ ≤ j.cap
  omega

lemma jitLoop_roomy (f : Bool) (pc : Nat) (offs : Offs)
    (hsz : ∀ pc i, req.insns[pc]? = some i → ∃ m ≤ k, (lower req pc i).size = some m)
    (h : Roomy j (fuel * k + rest)) : Roomy (jitLoop req f fuel pc j offs).1 rest := by
  induction fuel generalizing pc j offs with
  | zero =>
    rw [zero_mul,zero_add] at h
    exact h
  | succ fuel ih =>
    have hstep : Roomy j (k + (fuel * k + rest)) := by
      rwa [succ_mul,add_comm (fuel * k) k,add_assoc] at h
    cases hi : req.insns[pc]? with
    | none =>
      rw [jitLoop_end hi]
      exact ⟨h.ok,(Nat.add_le_add_left le_add_self _).trans h.room⟩
    | some i =>
      obtain ⟨m,hm,hsm⟩ := hsz pc i hi
      have hlow : lower req pc i ≠ .unsupported := by
        intro hlow
        rw [hlow] at hsm
        cases hsm
      rw [jitLoop_step hi h.ok hlow]
      refine ih _ _ (hstep.emit ?_)
      rw [stepCode_length,hsm]
      exact hm

lemma sizing_ok (hsz : ∀ pc i, req.insns[pc]? = some i → ∃ m ≤ k, (lower req pc i).size = some m)
    (hro : prologue.length + (req.insns.length * k + epilogue.length) ≤ capacity req) :
    (sizing req).1.fail = false := by
  have hsta : Roomy { buf := [], cap := capacity req, fail := false }
      (prologue.length + (req.insns.length * k + epilogue.length)) :=
    ⟨rfl,(Nat.zero_add _).symm ▸ hro⟩
  have hloop := jitLoop_roomy false 0 (fun _ => 0) hsz (hsta.emit le_rfl)
  exact (hloop.emit (k := 0) (le_refl epilogue.length)).ok

def idling : JitReq where
  insns := replicate 12 ⟨0xb7,0,0,0⟩ ++ [⟨0x05,0,0,0⟩,⟨0x95,0,0,0⟩]
  maps := []
  helperFn := 1
  loaded := by decide

lemma idling_sizes (pc : Nat) (i : Insn) (h : idling.insns[pc]? = some i) :
    ∃ m ≤ 16, (lower idling pc i).size = some m := by
  have hpc : pc < 14 := (List.getElem?_eq_some_iff.mp h).1
  have hall : ∀ n < 14, ∃ m ≤ 16,
      (idling.insns[n]?.bind fun i => (lower idling n i).size) = some m := by
    decide +kernel
  obtain ⟨m,hm,hsz⟩ := hall pc hpc
  rw [h] at hsz
  exact ⟨m,hm,hsz⟩

theorem idling_fixpoint : Fixpoint idling :=
  (layout_fixpoint idling).2 (sizing_ok idling_sizes (by decide +kernel))

end B1nix.Bpf.Jit
