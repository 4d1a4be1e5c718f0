import Mathlib
namespace B1nix.Bpf

def stackSize : Nat := 512

def maxInsns : Nat := 4096

structure Insn where
  code : BitVec 8
  dstSrc : BitVec 8
  off : BitVec 16
  imm : BitVec 32
  deriving DecidableEq

inductive Cls where
  | ld
  | ldx
  | st
  | stx
  | alu
  | jmp
  | jmp32
  | alu64
  deriving DecidableEq

inductive AluOp where
  | add
  | sub
  | mul
  | div
  | or
  | and
  | lsh
  | rsh
  | neg
  | mod
  | xor
  | mov
  | arsh
  | byteSwap
  deriving DecidableEq

inductive JmpOp where
  | ja
  | jeq
  | jgt
  | jge
  | jset
  | jne
  | jsgt
  | jsge
  | call
  | exit
  | jlt
  | jle
  | jslt
  | jsle
  deriving DecidableEq

inductive StoreMode where
  | mem
  | atomic
  | other
  deriving DecidableEq

variable (i : Insn)

def Insn.cls : Cls :=
  match (i.code &&& 0x07).toNat with
  | 0 => .ld
  | 1 => .ldx
  | 2 => .st
  | 3 => .stx
  | 4 => .alu
  | 5 => .jmp
  | 6 => .jmp32
  | _ => .alu64

def Insn.dst : Nat := (i.dstSrc &&& 0x0f).toNat

def Insn.src : Nat := (i.dstSrc >>> 4 &&& 0x0f).toNat

def Insn.fromReg : Bool := i.code &&& 0x08 = 0x08

def Insn.opBits : Nat := (i.code &&& 0xf0).toNat

def Insn.aluOp : Option AluOp :=
  match i.opBits with
  | 0x00 => some .add
  | 0x10 => some .sub
  | 0x20 => some .mul
  | 0x30 => some .div
  | 0x40 => some .or
  | 0x50 => some .and
  | 0x60 => some .lsh
  | 0x70 => some .rsh
  | 0x80 => some .neg
  | 0x90 => some .mod
  | 0xa0 => some .xor
  | 0xb0 => some .mov
  | 0xc0 => some .arsh
  | 0xd0 => some .byteSwap
  | _ => none

def Insn.jmpOp : Option JmpOp :=
  match i.opBits with
  | 0x00 => some .ja
  | 0x10 => some .jeq
  | 0x20 => some .jgt
  | 0x30 => some .jge
  | 0x40 => some .jset
  | 0x50 => some .jne
  | 0x60 => some .jsgt
  | 0x70 => some .jsge
  | 0x80 => some .call
  | 0x90 => some .exit
  | 0xa0 => some .jlt
  | 0xb0 => some .jle
  | 0xc0 => some .jslt
  | 0xd0 => some .jsle
  | _ => none

def Insn.bytes : Nat :=
  match (i.code &&& 0x18).toNat with
  | 0x10 => 1
  | 0x08 => 2
  | 0x00 => 4
  | _ => 8

def Insn.mode : StoreMode :=
  match (i.code &&& 0xe0).toNat with
  | 0x60 => .mem
  | 0xc0 => .atomic
  | _ => .other

def Insn.loadImm : Bool := i.code = 0x18

def Insn.srcBits : BitVec 8 := i.dstSrc >>> 4

def u32 (x : BitVec 64) : BitVec 64 := (x.setWidth 32).setWidth 64

def Insn.imm64 : BitVec 64 := i.imm.signExtend 64

def wideImm (second : Insn) : BitVec 64 := i.imm.setWidth 64 ||| (second.imm.setWidth 64 <<< 32)

inductive MapType where
  | hash
  | array
  | perfEventArray
  | percpuHash
  | percpuArray
  | stackTrace
  | ringbuf
  deriving DecidableEq

def MapType.isArray : MapType → Bool
  | .array | .percpuArray => true
  | _ => false

def MapType.isHash : MapType → Bool
  | .hash | .percpuHash => true
  | _ => false

def MapType.isPercpu : MapType → Bool
  | .percpuArray | .percpuHash => true
  | _ => false

end B1nix.Bpf
