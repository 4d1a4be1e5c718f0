import B1nix.Basic.Transition

namespace B1nix.SockFilter

open UInt32 Nat

def bpfMemwords : Nat := 16

def bpfMaxinsns : Nat := 4096

inductive Class where
  | ld | ldx | st | stx | alu | jmp | ret | misc
  deriving DecidableEq

inductive Mode where
  | imm | abs | ind | mem | len | msh | other
  deriving DecidableEq

inductive Size where
  | w | h | b | other
  deriving DecidableEq

inductive AluOp where
  | add | sub | mul | div | or | and | lsh | rsh | neg | mod | xor | other
  deriving DecidableEq

inductive JmpOp where
  | ja | jeq | jgt | jge | jset | other
  deriving DecidableEq

inductive Rval where
  | k | a | other
  deriving DecidableEq

inductive MiscOp where
  | tax | txa | other
  deriving DecidableEq

structure Insn where
  code : UInt16
  jt : UInt8
  jf : UInt8
  k : UInt32

variable (i : Insn)

def bpfClass : Class :=
  match (i.code &&& 0x07).toNat with
  | 0x00 => .ld
  | 0x01 => .ldx
  | 0x02 => .st
  | 0x03 => .stx
  | 0x04 => .alu
  | 0x05 => .jmp
  | 0x06 => .ret
  | _ => .misc

def bpfMode : Mode :=
  match (i.code &&& 0xe0).toNat with
  | 0x00 => .imm
  | 0x20 => .abs
  | 0x40 => .ind
  | 0x60 => .mem
  | 0x80 => .len
  | 0xa0 => .msh
  | _ => .other

def bpfSize : Size :=
  match (i.code &&& 0x18).toNat with
  | 0x00 => .w
  | 0x08 => .h
  | 0x10 => .b
  | _ => .other

def bpfAluOp : AluOp :=
  match (i.code &&& 0xf0).toNat with
  | 0x00 => .add
  | 0x10 => .sub
  | 0x20 => .mul
  | 0x30 => .div
  | 0x40 => .or
  | 0x50 => .and
  | 0x60 => .lsh
  | 0x70 => .rsh
  | 0x80 => .neg
  | 0x90 => .mod
  | 0xa0 => .xor
  | _ => .other

def bpfJmpOp : JmpOp :=
  match (i.code &&& 0xf0).toNat with
  | 0x00 => .ja
  | 0x10 => .jeq
  | 0x20 => .jgt
  | 0x30 => .jge
  | 0x40 => .jset
  | _ => .other

def bpfSrcX : Bool := i.code &&& 0x08 == 0x08

def bpfRval : Rval :=
  match (i.code &&& 0x18).toNat with
  | 0x00 => .k
  | 0x10 => .a
  | _ => .other

def bpfMiscOp : MiscOp :=
  match (i.code &&& 0xf8).toNat with
  | 0x00 => .tax
  | 0x80 => .txa
  | _ => .other

def checkLoad : Bool :=
  match bpfMode i with
  | .imm | .abs | .ind | .len => true
  | .msh => bpfClass i == .ldx && bpfSize i == .b
  | .mem => decide (i.k.toNat < bpfMemwords)
  | .other => false

def checkAlu : Bool :=
  match bpfAluOp i with
  | .div | .mod => !(!bpfSrcX i && i.k == 0)
  | .other => false
  | _ => true

def checkJmp (rest : Nat) (i : Insn) : Bool :=
  match bpfJmpOp i with
  | .ja => decide (i.k.toNat < rest)
  | .other => false
  | _ => decide (i.jt.toNat < rest) && decide (i.jf.toNat < rest)

def checkInsn (len pc : Nat) (i : Insn) : Bool :=
  match bpfClass i with
  | .ld | .ldx => checkLoad i
  | .st | .stx => decide (i.k.toNat < bpfMemwords)
  | .alu => checkAlu i
  | .jmp => checkJmp (len - pc - 1) i
  | .ret => bpfRval i != .other
  | .misc => bpfMiscOp i != .other

def sockFilterCheck (f : List Insn) : Bool :=
  !f.isEmpty && decide (f.length ≤ bpfMaxinsns) &&
    f.zipIdx.all (fun x => checkInsn f.length x.2 x.1) &&
    (f.getLast?.any fun i => bpfClass i == .ret)

structure Packet where
  data : List UInt8
  fits : data.length < 2 ^ 32

def received (data : Option Packet) : Packet := data.getD ⟨[],by decide⟩

def Packet.len (p : Packet) : UInt32 := ofNat p.data.length

structure Machine where
  pc : UInt32
  a : UInt32
  x : UInt32
  mem : Vector UInt32 bpfMemwords

inductive Halt where
  | returned (pc v : UInt32)
  | dropped (pc : UInt32)
  | fellOff
  | badScratch (k : UInt32)
  | badPacket (off : UInt32)
  deriving DecidableEq

variable (f : List Insn) (p : Packet) (off : UInt32) (i : Insn) (m : Machine)

def packetByte : Except Halt UInt32 :=
  match p.data[off.toNat]? with
  | some b => .ok b.toUInt32
  | none => .error (.badPacket off)

def bpfLoad (pc off : UInt32) : Size → Except Halt UInt32
  | .w =>
    if p.len < off + 4 ∨ off + 4 < off then .error (.dropped pc)
    else do
      let b0 ← packetByte p off
      let b1 ← packetByte p (off + 1)
      let b2 ← packetByte p (off + 2)
      let b3 ← packetByte p (off + 3)
      .ok ((b0 <<< 24) ||| (b1 <<< 16) ||| (b2 <<< 8) ||| b3)
  | .h =>
    if p.len < off + 2 ∨ off + 2 < off then .error (.dropped pc)
    else do
      let b0 ← packetByte p off
      let b1 ← packetByte p (off + 1)
      .ok ((b0 <<< 8) ||| b1)
  | .b | .other => if p.len ≤ off then .error (.dropped pc) else packetByte p off

def loadScratch (k : UInt32) : Except Halt UInt32 :=
  if h : k.toNat < bpfMemwords then .ok m.mem[k.toNat] else .error (.badScratch k)

def storeScratch (k v : UInt32) : Except Halt Machine :=
  if h : k.toNat < bpfMemwords then .ok { m with mem := m.mem.set k.toNat v h }
  else .error (.badScratch k)

def loadValue : Except Halt UInt32 :=
  match bpfMode i with
  | .imm => .ok i.k
  | .len => .ok p.len
  | .mem => loadScratch m i.k
  | .abs => bpfLoad p m.pc i.k (bpfSize i)
  | .ind => bpfLoad p m.pc (m.x + i.k) (bpfSize i)
  | .msh | .other => .error (.dropped m.pc)

def loadIndex : Except Halt UInt32 :=
  match bpfMode i with
  | .msh => do
      let v ← bpfLoad p m.pc i.k .b
      .ok ((v &&& 0x0f) <<< 2)
  | _ => loadValue p i m

def operand : UInt32 := if bpfSrcX i then m.x else i.k

def alu : Except Halt UInt32 :=
  let src := operand i m
  match bpfAluOp i with
  | .add => .ok (m.a + src)
  | .sub => .ok (m.a - src)
  | .mul => .ok (m.a * src)
  | .div => if src = 0 then .error (.dropped m.pc) else .ok (m.a / src)
  | .mod => if src = 0 then .error (.dropped m.pc) else .ok (m.a % src)
  | .or => .ok (m.a ||| src)
  | .and => .ok (m.a &&& src)
  | .lsh => .ok (if 32 ≤ src then 0 else m.a <<< src)
  | .rsh => .ok (if 32 ≤ src then 0 else m.a >>> src)
  | .xor => .ok (m.a ^^^ src)
  | .neg => .ok (-m.a)
  | .other => .error (.dropped m.pc)

def jumpOffset : Except Halt UInt32 :=
  let src := operand i m
  let branch (taken : Bool) : Except Halt UInt32 := .ok (if taken then i.jt.toUInt32 else i.jf.toUInt32)
  match bpfJmpOp i with
  | .ja => .ok i.k
  | .jeq => branch (m.a == src)
  | .jgt => branch (src < m.a)
  | .jge => branch (src ≤ m.a)
  | .jset => branch (m.a &&& src != 0)
  | .other => .error (.dropped m.pc)

def exec : Except Halt Machine :=
  match bpfClass i with
  | .ld => do
      let v ← loadValue p i m
      .ok { m with a := v }
  | .ldx => do
      let v ← loadIndex p i m
      .ok { m with x := v }
  | .st => storeScratch m i.k m.a
  | .stx => storeScratch m i.k m.x
  | .alu => do
      let v ← alu i m
      .ok { m with a := v }
  | .jmp => do
      let off ← jumpOffset i m
      .ok { m with pc := m.pc + off }
  | .ret => .error (.returned m.pc (if bpfRval i = .a then m.a else i.k))
  | .misc => .ok (if bpfMiscOp i = .tax then { m with x := m.a } else { m with a := m.x })

def step : Except Halt Machine :=
  match f[m.pc.toNat]? with
  | none => .error .fellOff
  | some i => do
      let m ← exec p i m
      .ok { m with pc := m.pc + 1 }

def start : Machine := ⟨0,0,0,Vector.replicate bpfMemwords 0⟩

def runFrom : Nat → Machine → Option Halt
  | 0, _ => none
  | fuel + 1, m =>
    match step f p m with
    | .error h => some h
    | .ok m => runFrom fuel m

def Halt.value : Halt → UInt32
  | .returned _ v => v
  | _ => 0

def sockFilterRun (prog : Option (List Insn)) (data : Option Packet) (fuel : Nat) : Option UInt32 :=
  match prog with
  | none => some 0xffffffff
  | some f => (runFrom f (received data) fuel start).map Halt.value

def Stepped (_ : Unit) (m' : Machine) : Prop := step f p m = .ok m'

open B1nix.Transition List

def Size.bytes : Size → Nat
  | .w => 4
  | .h => 2
  | .b | .other => 1

def Packet.Short (size : Size) : Prop := p.data.length < off.toNat + size.bytes

def packetOffset : Option UInt32 :=
  match bpfClass i, bpfMode i with
  | .ld, .abs | .ldx, .abs | .ldx, .msh => some i.k
  | .ld, .ind | .ldx, .ind => some (m.x + i.k)
  | _, _ => none

structure DividesByZero (i : Insn) (m : Machine) : Prop where
  alu : bpfClass i = .alu
  op : bpfAluOp i = .div ∨ bpfAluOp i = .mod
  register : bpfSrcX i = true
  zero : m.x = 0

def Dropping : Prop := (∃ off ∈ packetOffset i m, p.Short off (bpfSize i)) ∨ DividesByZero i m

def Yields {α : Type} (pc : UInt32) (why : Prop) (r : Except Halt α) : Prop :=
  (∃ v, r = .ok v) ∨ (r = .error (.dropped pc) ∧ why)

variable {α β : Type} {pc k n : UInt32} {why why' : Prop} {r : Except Halt α}

lemma Yields.ok (v : α) : Yields pc why (.ok v : Except Halt α) := .inl ⟨v,rfl⟩

lemma Yields.imp (h : Yields pc why r) (himp : why → why') : Yields pc why' r :=
  Or.imp id (And.imp_right himp) h

lemma Yields.bind (h : Yields pc why r) (f : α → β) :
    Yields pc why (r >>= fun v => .ok (f v)) := by
  obtain ⟨v,rfl⟩ | ⟨rfl,hwhy⟩ := h
  · exact .ok (f v)
  exact .inr ⟨rfl,hwhy⟩

lemma Packet.len_toNat (p : Packet) : p.len.toNat = p.data.length := toNat_ofNat_of_lt' p.fits

variable {p : Packet} {i : Insn} {f : List Insn} {m : Machine}

lemma packetByte_inside (h : off.toNat < p.data.length) : ∃ v, packetByte p off = .ok v := by
  unfold packetByte
  rw [getElem?_eq_getElem h]
  exact ⟨_,rfl⟩

lemma toNat_add_of_lt {off : UInt32} (h : off.toNat + n.toNat < 2 ^ 32) :
    (off + n).toNat = off.toNat + n.toNat := by
  rw [UInt32.toNat_add,mod_eq_of_lt h]

lemma bounds_checked (p : Packet) (off : UInt32) (hn : 0 < n.toNat) :
    (p.len < off + n ∨ off + n < off) ↔ p.data.length < off.toNat + n.toNat := by
  have hft := p.fits
  have hlt := n.toNat_lt
  rw [UInt32.lt_iff_toNat_lt,UInt32.lt_iff_toNat_lt,p.len_toNat,UInt32.toNat_add]
  obtain hsum | hsum := lt_or_ge (off.toNat + n.toNat) (2 ^ 32)
  · omega
  omega

lemma bpfLoad_yields (p : Packet) (pc off : UInt32) (size : Size) :
    Yields pc (p.Short off size) (bpfLoad p pc off size) := by
  have hft := p.fits
  cases size with
  | w =>
    rw [bpfLoad]
    have hck := bounds_checked p off (n := 4) (by decide)
    split
    case isTrue hsr => exact .inr ⟨rfl,hck.mp hsr⟩
    case isFalse hro =>
      have hins : off.toNat + 4 ≤ p.data.length := le_of_not_gt (mt hck.mpr hro)
      have h1 : (off + 1).toNat = off.toNat + 1 := toNat_add_of_lt (by simp; omega)
      have h2 : (off + 2).toNat = off.toNat + 2 := toNat_add_of_lt (by simp; omega)
      have h3 : (off + 3).toNat = off.toNat + 3 := toNat_add_of_lt (by simp; omega)
      obtain ⟨b0,e0⟩ := packetByte_inside (p := p) off (by omega)
      obtain ⟨b1,e1⟩ := packetByte_inside (p := p) (off + 1) (by omega)
      obtain ⟨b2,e2⟩ := packetByte_inside (p := p) (off + 2) (by omega)
      obtain ⟨b3,e3⟩ := packetByte_inside (p := p) (off + 3) (by omega)
      rw [e0,e1,e2,e3]
      exact .ok _
  | h =>
    rw [bpfLoad]
    have hck := bounds_checked p off (n := 2) (by decide)
    split
    case isTrue hsr => exact .inr ⟨rfl,hck.mp hsr⟩
    case isFalse hro =>
      have hins : off.toNat + 2 ≤ p.data.length := le_of_not_gt (mt hck.mpr hro)
      have h1 : (off + 1).toNat = off.toNat + 1 := toNat_add_of_lt (by simp; omega)
      obtain ⟨b0,e0⟩ := packetByte_inside (p := p) off (by omega)
      obtain ⟨b1,e1⟩ := packetByte_inside (p := p) (off + 1) (by omega)
      rw [e0,e1]
      exact .ok _
  | b | other =>
    rw [bpfLoad]
    have hck : p.len ≤ off ↔ p.data.length ≤ off.toNat := by rw [le_iff_toNat_le,p.len_toNat]
    split
    case isTrue hsr => exact .inr ⟨rfl,lt_succ_of_le (hck.mp hsr)⟩
    case isFalse hro =>
      exact .inl (packetByte_inside off (lt_of_not_ge (mt hck.mpr hro)))

lemma storeScratch_ok (m : Machine) (v : UInt32) (h : k.toNat < bpfMemwords) :
    ∃ mem, storeScratch m k v = .ok { m with mem } := by
  unfold storeScratch
  rw [dif_pos h]
  exact ⟨_,rfl⟩

section

variable (p : Packet) (m : Machine)

lemma loadValue_yields (hcs : bpfClass i = .ld ∨ bpfClass i = .ldx) (hck : checkLoad i = true)
    (hmsh : bpfMode i ≠ .msh) : Yields m.pc (Dropping p i m) (loadValue p i m) := by
  unfold loadValue
  unfold checkLoad at hck
  cases hmd : bpfMode i with
  | imm | len => exact .ok _
  | mem =>
    rw [hmd] at hck
    dsimp only
    rw [loadScratch,dif_pos (of_decide_eq_true hck)]
    exact .ok _
  | abs =>
    have hoff : packetOffset i m = some i.k := by
      rcases hcs with h | h <;> simp [packetOffset,h,hmd]
    exact (bpfLoad_yields p m.pc i.k (bpfSize i)).imp fun h => .inl ⟨i.k,hoff,h⟩
  | ind =>
    have hoff : packetOffset i m = some (m.x + i.k) := by
      rcases hcs with h | h <;> simp [packetOffset,h,hmd]
    exact (bpfLoad_yields p m.pc _ (bpfSize i)).imp fun h => .inl ⟨_,hoff,h⟩
  | msh => cases hmsh hmd
  | other =>
    rw [hmd] at hck
    cases hck

lemma loadIndex_yields (hcs : bpfClass i = .ldx)
    (hck : checkLoad i = true) : Yields m.pc (Dropping p i m) (loadIndex p i m) := by
  unfold loadIndex
  split
  case h_1 hmd =>
    have hsz : bpfSize i = .b := by simpa [checkLoad,hmd,hcs] using hck
    have hoff : packetOffset i m = some i.k := by simp [packetOffset,hcs,hmd]
    apply Yields.bind
    exact (bpfLoad_yields p m.pc i.k .b).imp fun h => .inl ⟨i.k,hoff,hsz ▸ h⟩
  case h_2 hmd => exact loadValue_yields p m (.inr hcs) hck hmd

lemma divisor_yields (hcs : bpfClass i = .alu)
    (hop : bpfAluOp i = .div ∨ bpfAluOp i = .mod) (hk : bpfSrcX i = false → i.k ≠ 0)
        (v : UInt32) : Yields m.pc (Dropping p i m)
      (if operand i m = 0 then .error (.dropped m.pc) else .ok v) := by
  split
  case isTrue hze =>
    unfold operand at hze
    cases hsrc : bpfSrcX i with
    | true =>
      rw [hsrc] at hze
      exact .inr ⟨rfl,.inr ⟨hcs,hop,hsrc,hze⟩⟩
    | false =>
      rw [hsrc] at hze
      cases hk hsrc hze
  case isFalse => exact .ok v

lemma alu_yields (hcs : bpfClass i = .alu)
    (hck : checkAlu i = true) : Yields m.pc (Dropping p i m) (alu i m) := by
  unfold alu
  unfold checkAlu at hck
  cases hop : bpfAluOp i with
  | add | sub | mul | or | and | lsh | rsh | neg | xor => exact .ok _
  | div | mod =>
    have hk : bpfSrcX i = false → i.k ≠ 0 := by
      intro hsrc
      simpa [hop,hsrc] using hck
    exact divisor_yields p m hcs (by simp [hop]) hk _
  | other =>
    rw [hop] at hck
    cases hck

end

lemma jumpOffset_inside {rest : Nat} (m : Machine) (hck : checkJmp rest i = true) :
    ∃ off, jumpOffset i m = .ok off ∧ off.toNat < rest := by
  have hbra : ∀ taken : Bool, (decide (i.jt.toNat < rest) && decide (i.jf.toNat < rest)) = true →
      (if taken then i.jt.toUInt32 else i.jf.toUInt32).toNat < rest := by
    intro taken h
    rw [Bool.and_eq_true,decide_eq_true_eq,decide_eq_true_eq] at h
    cases taken with
    | true => exact h.1
    | false => exact h.2
  unfold jumpOffset
  unfold checkJmp at hck
  cases hop : bpfJmpOp i with
  | ja =>
    rw [hop] at hck
    exact ⟨i.k,rfl,of_decide_eq_true hck⟩
  | jeq | jgt | jge | jset =>
    rw [hop] at hck
    exact ⟨_,rfl,hbra _ hck⟩
  | other =>
    rw [hop] at hck
    cases hck

structure Accepted (f : List Insn) : Prop where
  short : f.length ≤ bpfMaxinsns
  insn : ∀ pc i, f[pc]? = some i → checkInsn f.length pc i = true
  last : ∀ i, f[f.length - 1]? = some i → bpfClass i = .ret

lemma accepted_of_check (h : sockFilterCheck f = true) : f ≠ [] ∧ Accepted f := by
  unfold sockFilterCheck at h
  simp only [Bool.and_eq_true,decide_eq_true_eq,all_eq_true] at h
  obtain ⟨⟨⟨hne,hsr⟩,hall⟩,hla⟩ := h
  refine ⟨by simpa using hne,hsr,?_,?_⟩
  · intro pc i hi
    exact hall (i, pc) (mk_mem_zipIdx_iff_getElem?.mpr hi)
  intro i hi
  rw [getLast?_eq_getElem?,hi] at hla
  simpa using hla

inductive Advances (f : List Insn) (p : Packet) (i : Insn) (m : Machine) :
    Except Halt Machine → Prop where
  | next {m' : Machine} (hback : m.pc.toNat < m'.pc.toNat) (hin : m'.pc.toNat < f.length) :
      Advances f p i m (.ok m')
  | returned {v : UInt32} (h : bpfClass i = .ret) : Advances f p i m (.error (.returned m.pc v))
  | dropped (h : Dropping p i m) : Advances f p i m (.error (.dropped m.pc))

lemma Advances.of_yields (g : α → Machine) (hg : ∀ v, (g v).pc = m.pc + 1)
    (hpc : m.pc.toNat + 1 < f.length) (hsr : f.length ≤ bpfMaxinsns)
    (h : Yields m.pc (Dropping p i m) r) : Advances f p i m (r >>= fun v => .ok (g v)) := by
  have hbd : bpfMaxinsns < 2 ^ 32 := by decide
  have hnx : (m.pc + 1).toNat = m.pc.toNat + 1 :=
    toNat_add_of_lt (hpc.trans_le (hsr.trans hbd.le))
  obtain ⟨v,rfl⟩ | ⟨rfl,hdp⟩ := h
  · have hv : (g v).pc.toNat = m.pc.toNat + 1 := by rw [hg,hnx]
    exact .next (by omega) (by omega)
  exact .dropped hdp

section

variable (h : Accepted f)

include h

lemma Accepted.before_last {pc : Nat} (hi : f[pc]? = some i)
    (hcs : bpfClass i ≠ .ret) : pc + 1 < f.length := by
  have hpc : pc < f.length := (List.getElem?_eq_some_iff.mp hi).1
  obtain hlt | hge := lt_or_ge (pc + 1) f.length
  · exact hlt
  have hla : pc = f.length - 1 := by omega
  cases hcs (h.last i (hla ▸ hi))

lemma Accepted.jump_inside {off : UInt32} (hpc : pc.toNat < f.length)
    (hoff : off.toNat < f.length - pc.toNat - 1) :
    pc.toNat < (pc + off + 1).toNat ∧ (pc + off + 1).toNat < f.length := by
  have hsr := h.short
  have hbd : bpfMaxinsns < 2 ^ 32 := by decide
  have hsum : (pc + off).toNat = pc.toNat + off.toNat := toNat_add_of_lt (by omega)
  have hnx : (pc + off + 1).toNat = pc.toNat + off.toNat + 1 := by
    rw [toNat_add_of_lt (by rw [toNat_one]; omega),hsum,toNat_one]
  omega

lemma step_advances (p : Packet) (hi : f[m.pc.toNat]? = some i) :
    Advances f p i m (step f p m) := by
  have hck := h.insn _ i hi
  have hpc : m.pc.toNat < f.length := (List.getElem?_eq_some_iff.mp hi).1
  have hfall : ∀ {α : Type} (r : Except Halt α) (g : α → Machine), bpfClass i ≠ .ret →
      (∀ v, (g v).pc = m.pc + 1) → Yields m.pc (Dropping p i m) r →
      Advances f p i m (r >>= fun v => .ok (g v)) :=
    fun r g hcs hg => .of_yields g hg (h.before_last hi hcs) h.short
  unfold checkInsn at hck
  simp only [step,hi,exec]
  cases hcs : bpfClass i with
  | ld =>
    rw [hcs] at hck
    simp only [bind_assoc]
    refine hfall _ (fun v => { m with a := v, pc := m.pc + 1 }) (by simp [hcs])
      (fun _ => rfl) (loadValue_yields p m (.inl hcs) hck ?_)
    intro hmd
    simp [checkLoad,hmd,hcs] at hck
  | ldx =>
    rw [hcs] at hck
    simp only [bind_assoc]
    exact hfall _ (fun v => { m with x := v, pc := m.pc + 1 }) (by simp [hcs])
      (fun _ => rfl) (loadIndex_yields p m hcs hck)
  | st =>
    rw [hcs] at hck
    obtain ⟨mem,hmem⟩ := storeScratch_ok m m.a (of_decide_eq_true hck)
    simp only [hmem]
    exact hfall (.ok mem) (fun mem => { m with mem, pc := m.pc + 1 }) (by simp [hcs])
      (fun _ => rfl) (.ok mem)
  | stx =>
    rw [hcs] at hck
    obtain ⟨mem,hmem⟩ := storeScratch_ok m m.x (of_decide_eq_true hck)
    simp only [hmem]
    exact hfall (.ok mem) (fun mem => { m with mem, pc := m.pc + 1 }) (by simp [hcs])
      (fun _ => rfl) (.ok mem)
  | alu =>
    rw [hcs] at hck
    simp only [bind_assoc]
    exact hfall _ (fun v => { m with a := v, pc := m.pc + 1 }) (by simp [hcs])
      (fun _ => rfl) (alu_yields p m hcs hck)
  | jmp =>
    rw [hcs] at hck
    obtain ⟨off,hoff,hin⟩ := jumpOffset_inside m hck
    obtain ⟨hba,hlt⟩ := h.jump_inside hpc hin
    simp only [hoff]
    exact .next hba hlt
  | ret => exact .returned hcs
  | misc =>
    have hmv : ∀ m' : Machine, m'.pc = m.pc →
        Advances f p i m (.ok { m' with pc := m'.pc + 1 }) :=
      fun m' hm' => hfall (.ok ()) (fun _ => { m' with pc := m'.pc + 1 }) (by simp [hcs])
        (fun _ => by rw [hm']) (.ok ())
    apply hmv
    split <;> rfl

def Ends (f : List Insn) (p : Packet) : Halt → Prop
  | .returned pc _ => ∃ i, f[pc.toNat]? = some i ∧ bpfClass i = .ret
  | .dropped pc => ∃ m i, Reach (· = start) (Stepped f p) m ∧ m.pc = pc ∧
      f[pc.toNat]? = some i ∧ Dropping p i m
  | .fellOff | .badScratch _ | .badPacket _ => False

lemma Accepted.pc_inside (hne : f ≠ [])
    (hm : Reach (· = start) (Stepped f p) m) : m.pc.toNat < f.length := by
  induction hm with
  | start h => exact h ▸ length_pos_iff.mpr hne
  | @next m m' _ _ hstep ih =>
    have hadv := step_advances h p (getElem?_eq_getElem ih)
    rw [hstep] at hadv
    cases hadv with
    | next _ hin => exact hin

lemma Accepted.runFrom_ends (hne : f ≠ []) (fuel : Nat)
    (hm : Reach (· = start) (Stepped f p) m) (hfu : f.length ≤ m.pc.toNat + fuel) :
    ∃ e, runFrom f p fuel m = some e ∧ Ends f p e := by
  have hpc := h.pc_inside hne hm
  have hi := getElem?_eq_getElem hpc
  have hadv := step_advances h p hi
  induction fuel generalizing m with
  | zero => omega
  | succ _ ih =>
    unfold runFrom
    generalize hr : step f p m = r at hadv
    cases hadv with
    | @next m' hba hin =>
      have hm' : Reach (· = start) (Stepped f p) m' := hm.next (e := ()) hr
      exact ih hm' (by omega) hin (getElem?_eq_getElem hin)
        (step_advances h p (getElem?_eq_getElem hin))
    | returned hret => exact ⟨_,rfl,_,hi,hret⟩
    | dropped hdp => exact ⟨_,rfl,m,_,hm,rfl,hi,hdp⟩

end

theorem checked_run_ends_inside {f : List Insn} (hcheck : sockFilterCheck f = true)
    (data : Option Packet) :
    (∀ m, Reach (· = start) (Stepped f (received data)) m → m.pc.toNat < f.length) ∧
    ∃ e, runFrom f (received data) f.length start = some e ∧ Ends f (received data) e ∧
      sockFilterRun (some f) data f.length = some e.value := by
  obtain ⟨hne,h⟩ := accepted_of_check hcheck
  refine ⟨fun m => h.pc_inside hne,?_⟩
  obtain ⟨e,he,hends⟩ := h.runFrom_ends hne f.length (.start rfl)
    (le_add_left _ _)
  refine ⟨e,he,hends,?_⟩
  rw [sockFilterRun,he]
  rfl

def loadFirstWord : List Insn := [⟨0x20,0,0,0⟩,⟨0x16,0,0,0⟩]

theorem loadFirstWord_ends :
    sockFilterCheck loadFirstWord = true ∧
    ∃ e, runFrom loadFirstWord (received (some ⟨[1, 2, 3, 4], by decide⟩)) 2 start = some e ∧
      Ends loadFirstWord (received (some ⟨[1, 2, 3, 4], by decide⟩)) e := by
  have hck : sockFilterCheck loadFirstWord = true := by decide
  obtain ⟨-,e,he,hends,-⟩ := checked_run_ends_inside hck (some ⟨[1,2,3,4],by decide⟩)
  exact ⟨hck,e,he,hends⟩

theorem short_packet_ends_at_load :
    sockFilterCheck loadFirstWord = true ∧
    runFrom loadFirstWord (received none) 2 start = some (.dropped 0) ∧
    loadFirstWord[0]?.map bpfClass = some .ld := by
  decide

end B1nix.SockFilter
