import B1nix.Bpf.Insn

namespace B1nix.Bpf

open Function BitVec

inductive Reg where
  | notInit
  | scalar (known : Option (BitVec 64))
  | ctx (off : Int)
  | stack (off : Int)
  | mapValue (map : Nat) (off : Int)
  | mapValueOk (map : Nat) (off : Int)
  | map (m : Nat)
  | mem (ref size : Nat) (off : Int)
  | memOk (ref size : Nat) (off : Int)
  deriving DecidableEq

def Reg.isPtr : Reg → Bool
  | .notInit | .scalar _ => false
  | _ => true

structure VErr where
  pc : Nat
  msg : String

variable (pc : Nat) (i : Insn) (op : AluOp) (is64 : Bool) (x : BitVec 64) (d sv : Reg)
  (st : Nat → Reg) (regs : Nat → BitVec 64)

abbrev Checked (α : Type) : Type := Except VErr α

def verr {α : Type} (pc : Nat) (msg : String) : Checked α := .error ⟨pc,msg⟩

def narrow : BitVec 64 := if is64 then x else u32 x

def shiftMask : BitVec 64 := if is64 then 63 else 31

def arsh (a b : BitVec 64) : BitVec 64 :=
  if is64 then a.sshiftRight (b &&& 63).toNat
  else ((a.setWidth 32).sshiftRight (b &&& 31).toNat).setWidth 64

def aluFold (y : BitVec 64) : Option (BitVec 64) :=
  let a := narrow is64 x
  let b := narrow is64 y
  let out (v : BitVec 64) : Option (BitVec 64) := some (narrow is64 v)
  match op with
  | .add => out (a + b)
  | .sub => out (a - b)
  | .mul => out (a * b)
  | .div => out (if b ≠ 0 then a / b else 0)
  | .mod => out (if b ≠ 0 then a % b else a)
  | .or => out (a ||| b)
  | .and => out (a &&& b)
  | .xor => out (a ^^^ b)
  | .lsh => out (a <<< (b &&& shiftMask is64).toNat)
  | .rsh => out (a >>> (b &&& shiftMask is64).toNat)
  | .arsh => out (arsh is64 a b)
  | .neg | .mov | .byteSwap => none

def signed (a : BitVec 64) : Int := if is64 then a.toInt else (a.setWidth 32).toInt

def jmpFold (op : JmpOp) (is64 : Bool) (x y : BitVec 64) : Option Bool :=
  let a := narrow is64 x
  let b := narrow is64 y
  let sa := signed is64 a
  let sb := signed is64 b
  match op with
  | .jeq => some (decide (a = b))
  | .jne => some (decide (a ≠ b))
  | .jgt => some (decide (a > b))
  | .jge => some (decide (a ≥ b))
  | .jlt => some (decide (a < b))
  | .jle => some (decide (a ≤ b))
  | .jset => some (decide (a &&& b ≠ 0))
  | .jsgt => some (decide (sa > sb))
  | .jsge => some (decide (sa ≥ sb))
  | .jslt => some (decide (sa < sb))
  | .jsle => some (decide (sa ≤ sb))
  | .ja | .call | .exit => none

def verifyEnd : Checked Reg :=
  if is64 ∨ ¬(i.imm = 16 ∨ i.imm = 32 ∨ i.imm = 64) then verr pc "unsupported byte swap"
  else
    match d with
    | .scalar _ => .ok (.scalar none)
    | _ => verr pc "byte swap of something that is not a number"

def negated (v : BitVec 64) : BitVec 64 :=
  if is64 then -v else (-(v.setWidth 32)).setWidth 64

def verifyNeg : Checked Reg :=
  match i.fromReg, d with
  | false, .scalar k => .ok (.scalar (k.map (negated is64)))
  | _, _ => verr pc "negation of something that is not a number"

def aluOperand : Checked Reg :=
  if i.fromReg then
    if st i.src = .notInit then verr pc "reading a register that was never written"
    else .ok (st i.src)
  else if i.srcBits ≠ 0 then verr pc "reserved source register field is not zero"
  else .ok (.scalar (some (if is64 then i.imm64 else i.imm.setWidth 64)))

def movResult : Reg :=
  if is64 then sv
  else
    match sv with
    | .scalar (some v) => .scalar (some (u32 v))
    | _ => .scalar none

def Reg.moved (delta : Int) : Option Reg :=
  match d with
  | .stack o => some (.stack (o + delta))
  | .mapValueOk m o => some (.mapValueOk m (o + delta))
  | .memOk r s o => some (.memOk r s (o + delta))
  | _ => none

def pointerArith : Checked Reg :=
  match is64, sv with
  | true, .scalar (some v) =>
    if op ≠ .add ∧ op ≠ .sub then verr pc "pointer arithmetic this cannot follow"
    else
      match d.moved (if op = .add then v.toInt else -v.toInt) with
      | none => verr pc "pointer arithmetic this cannot follow"
      | some d =>
        if v.toInt > 2 ^ 20 ∨ v.toInt < -2 ^ 20 then verr pc "pointer moved too far"
        else .ok d
  | _, _ => verr pc "pointer arithmetic this cannot follow"

def scalarArith : Reg → Reg → Reg
  | .scalar (some a), .scalar (some b) => .scalar (aluFold op is64 a b)
  | _, _ => .scalar none

def verifyBinary : Checked Reg :=
  if op = .mov then .ok (movResult is64 sv)
  else if d = .notInit then verr pc "arithmetic on a register that was never written"
  else if d.isPtr then pointerArith pc op is64 d sv
  else if sv.isPtr then verr pc "arithmetic with a pointer as the operand"
  else if (op = .div ∨ op = .mod) ∧ i.fromReg = false ∧ i.imm = 0 then
    verr pc "division by a literal zero"
  else .ok (scalarArith op is64 d sv)

def verifyAlu : Checked (Nat → Reg) :=
  let is64 : Bool := i.cls = .alu64
  if i.off ≠ 0 then
    verr pc "signed division and sign-extending moves are not supported"
  else
    match i.aluOp with
    | some .byteSwap => (verifyEnd pc i is64 (st i.dst)).map (update st i.dst)
    | some .neg => (verifyNeg pc i is64 (st i.dst)).map (update st i.dst)
    | none => verr pc "unknown arithmetic operation"
    | some op =>
      (aluOperand pc i is64 st).bind fun sv =>
        (verifyBinary pc i op is64 (st i.dst) sv).map (update st i.dst)

def jumpTo : Nat := ((pc + 1 + i.off.toInt) % 2 ^ 32).toNat

inductive Branch where
  | one (pc : Nat)
  | both (pc target : Nat)

def jumpOperand : Checked Reg :=
  if i.fromReg then
    if st i.src = .notInit then verr pc "comparing a register that was never written"
    else .ok (st i.src)
  else .ok (.scalar (some i.imm64))

def branchOn (op : JmpOp) (is64 : Bool) (next target : Nat) : Reg → Reg → Branch
  | .scalar (some a), .scalar (some b) =>
    match jmpFold op is64 a b with
    | some true => .one target
    | some false => .one next
    | none => .both next target
  | _, _ => .both next target

def verifyBranch (cnt pc : Nat) (i : Insn) (op : JmpOp) (st : Nat → Reg) : Checked Branch :=
  let target : Int := pc + 1 + i.off.toInt
  if target < 0 ∨ target ≥ cnt then verr pc "jump outside the program"
  else if i.off.toInt < 0 then verr pc "backward jump: this verifier proves no loops"
  else
    (jumpOperand pc i st).bind fun sv =>
      if st i.dst = .notInit then verr pc "comparing a register that was never written"
      else .ok (branchOn op (i.cls = .jmp) (pc + 1) (jumpTo pc i) (st i.dst) sv)

def bswap (bytes : Nat) (v : BitVec 64) : BitVec 64 :=
  (List.range bytes).foldl (fun acc k => acc <<< 8 ||| ((v >>> (8 * k)) &&& 0xff)) 0

def runEnd (v : BitVec 64) : BitVec 64 :=
  let v := if i.imm = 16 then (v.setWidth 16).setWidth 64 else if i.imm = 32 then u32 v else v
  if i.fromReg then bswap (if i.imm = 16 then 2 else if i.imm = 32 then 4 else 8) v else v

def Insn.operand : BitVec 64 :=
  if i.fromReg then regs i.src else i.imm64

def runAlu : Option (Nat → BitVec 64) :=
  let is32 : Bool := i.cls = .alu
  let sv := if is32 then u32 (i.operand regs) else i.operand regs
  let a := if is32 then u32 (regs i.dst) else regs i.dst
  let out (v : BitVec 64) := some (update regs i.dst (if is32 then u32 v else v))
  match i.aluOp with
  | some .add => out (a + sv)
  | some .sub => out (a - sv)
  | some .mul => out (a * sv)
  | some .div => out (if sv ≠ 0 then a / sv else 0)
  | some .mod => out (if sv ≠ 0 then a % sv else a)
  | some .or => out (a ||| sv)
  | some .and => out (a &&& sv)
  | some .xor => out (a ^^^ sv)
  | some .lsh => out (a <<< (sv &&& (if is32 then 31 else 63)).toNat)
  | some .rsh => out (a >>> (sv &&& (if is32 then 31 else 63)).toNat)
  | some .arsh =>
    out (if is32 then ((a.setWidth 32).sshiftRight (sv &&& 31).toNat).setWidth 64
      else a.sshiftRight (sv &&& 63).toNat)
  | some .neg => out (-a)
  | some .mov => out sv
  | some .byteSwap => some (update regs i.dst (runEnd i (regs i.dst)))
  | none => none

def runJmp : Option Nat :=
  let is32 : Bool := i.cls = .jmp32
  let a := if is32 then u32 (regs i.dst) else regs i.dst
  let b := if is32 then u32 (i.operand regs) else i.operand regs
  let sa : Int := if is32 then (a.setWidth 32).toInt else (regs i.dst).toInt
  let sb : Int := if is32 then (b.setWidth 32).toInt else (i.operand regs).toInt
  let go (take : Bool) : Option Nat := some (if take then jumpTo pc i else pc + 1)
  match i.jmpOp with
  | some .ja => go true
  | some .jeq => go (a = b)
  | some .jne => go (a ≠ b)
  | some .jgt => go (a > b)
  | some .jge => go (a ≥ b)
  | some .jlt => go (a < b)
  | some .jle => go (a ≤ b)
  | some .jset => go (a &&& b ≠ 0)
  | some .jsgt => go (sa > sb)
  | some .jsge => go (sa ≥ sb)
  | some .jslt => go (sa < sb)
  | some .jsle => go (sa ≤ sb)
  | some .call | some .exit | none => none

def Agrees : Prop := ∀ r v, st r = .scalar (some v) → regs r = v

variable {st st' : Nat → Reg} {regs : Nat → BitVec 64} {i : Insn} {pc : Nat}
  {v : BitVec 64} {is64 take : Bool} {op : AluOp} {sv d : Reg}

lemma Agrees.update (h : Agrees st regs) {d : Nat} {x : Reg} (hx : ∀ w, x = .scalar (some w) → v = w) :
    Agrees (update st d x) (update regs d v) := by
  intro r w hr
  by_cases hd : r = d
  · subst hd
    rw [update_self] at hr ⊢
    exact hx w hr
  rw [update_of_ne hd] at hr ⊢
  exact h r w hr

@[simp] lemma u32_u32 : u32 (u32 x) = u32 x := by
  simp [u32]

lemma u32_imm (i : Insn) : u32 i.imm64 = i.imm.setWidth 64 := by
  apply eq_of_getLsbD_eq
  intro k hk
  by_cases h : k < 32
  · simp [u32,Insn.imm64,getElem_signExtend,h,hk]
  simp [u32,h,getLsbD_of_ge i.imm k (by omega)]

lemma aluOperand_runs (h : Agrees st regs) (hv : aluOperand pc i is64 st = .ok (.scalar (some v))) :
    narrow is64 (i.operand regs) = narrow is64 v := by
  rw [aluOperand] at hv
  split at hv
  case isTrue hreg =>
    split at hv
    · cases hv
    injection hv with hv
    rw [Insn.operand,if_pos hreg,h _ _ hv]
  case isFalse himm =>
    split at hv
    · cases hv
    cases hv
    rw [Insn.operand,if_neg himm]
    cases is64
    · simp [narrow,← u32_imm]
    rfl

lemma jumpOperand_runs (h : Agrees st regs) (hv : jumpOperand pc i st = .ok (.scalar (some v))) :
    i.operand regs = v := by
  rw [jumpOperand] at hv
  split at hv
  case isTrue hreg =>
    split at hv
    · cases hv
    injection hv with hv
    rw [Insn.operand,if_pos hreg,h _ _ hv]
  case isFalse himm =>
    cases hv
    rw [Insn.operand,if_neg himm]

section

variable (hcls : i.cls = .alu ∨ i.cls = .alu64)

include hcls

lemma runAlu_of_fold {x : BitVec 64} (hop : i.aluOp = some op)
    (hsv : narrow (i.cls = .alu64) (i.operand regs) = narrow (i.cls = .alu64) x)
    (hv : aluFold op (i.cls = .alu64) (regs i.dst) x = some v) :
    runAlu i regs = some (update regs i.dst v) := by
  obtain hcls | hcls := hcls
  · cases op <;> simp_all [runAlu,aluFold,narrow,shiftMask,arsh]
  cases op <;> simp_all [runAlu,aluFold,narrow,shiftMask,arsh]

lemma runAlu_neg (hop : i.aluOp = some .neg) :
    runAlu i regs = some (update regs i.dst (negated (i.cls = .alu64) (regs i.dst))) := by
  obtain hcls | hcls := hcls
  · simp [runAlu,hop,hcls,negated,u32]
  simp [runAlu,hop,hcls,negated]

lemma runAlu_mov (hop : i.aluOp = some .mov) :
    runAlu i regs = some (update regs i.dst (narrow (i.cls = .alu64) (i.operand regs))) := by
  obtain hcls | hcls := hcls
  · simp [runAlu,hop,hcls,narrow]
  simp [runAlu,hop,hcls,narrow]

end

lemma movResult_known (h : movResult is64 sv = .scalar (some v)) :
    ∃ x, sv = .scalar (some x) ∧ narrow is64 x = v := by
  unfold movResult at h
  split at h
  case isTrue his => exact ⟨v,h,if_pos his⟩
  case isFalse his =>
    split at h
    · cases h
      exact ⟨_,rfl,if_neg his⟩
    cases h

lemma pointerArith_known : pointerArith pc op is64 d sv ≠ .ok (.scalar (some v)) := by
  intro h
  unfold pointerArith at h
  split at h
  · split at h
    · cases h
    split at h
    · cases h
    rename_i hd
    split at h
    · cases h
    cases h
    cases d <;> cases hd
  cases h

lemma scalarArith_known (h : scalarArith op is64 d sv = .scalar (some v)) :
    ∃ a b, d = .scalar (some a) ∧ sv = .scalar (some b) ∧ aluFold op is64 a b = some v := by
  unfold scalarArith at h
  split at h
  · injection h with h
    exact ⟨_,_,rfl,rfl,h⟩
  cases h

lemma verifyBinary_runs (h : Agrees st regs) (hcls : i.cls = .alu ∨ i.cls = .alu64)
    (hop : i.aluOp = some op) (hsv : aluOperand pc i (i.cls = .alu64) st = .ok sv)
    (hv : verifyBinary pc i op (i.cls = .alu64) (st i.dst) sv = .ok (.scalar (some v))) :
    runAlu i regs = some (update regs i.dst v) := by
  rw [verifyBinary] at hv
  split at hv
  case isTrue hmov =>
    subst hmov
    injection hv with hv
    obtain ⟨x,rfl,rfl⟩ := movResult_known hv
    rw [runAlu_mov hcls hop,aluOperand_runs h hsv]
  case isFalse =>
    split at hv
    · cases hv
    split at hv
    · cases pointerArith_known hv
    split at hv
    · cases hv
    split at hv
    · cases hv
    injection hv with hv
    obtain ⟨a,b,ha,rfl,hfold⟩ := scalarArith_known hv
    apply runAlu_of_fold hcls hop (aluOperand_runs h hsv)
    rw [h _ _ ha]
    exact hfold

lemma Agrees.ran (h : Agrees st regs) (hop : i.aluOp = some op) {x : Checked Reg}
    (hx : ∀ w, x = .ok (.scalar (some w)) → runAlu i regs = some (Function.update regs i.dst w))
    (hok : x.map (Function.update st i.dst) = .ok st') :
    ∃ regs', runAlu i regs = some regs' ∧ Agrees st' regs' := by
  cases x with
  | error => cases hok
  | ok =>
    cases hok
    obtain ⟨v,hrun⟩ : ∃ v, runAlu i regs = some (Function.update regs i.dst v) := by
      cases op <;> simp [runAlu,hop]
    refine ⟨_,hrun,h.update fun w hw => ?_⟩
    have hsa := (hx w (congrArg _ hw)).symm.trans hrun
    have hat := congrFun (Option.some.inj hsa) i.dst
    simpa using hat.symm

lemma verifyEnd_known : verifyEnd pc i is64 d ≠ .ok (.scalar (some v)) := by
  intro h
  unfold verifyEnd at h
  split at h
  · cases h
  cases d <;> cases h

lemma verifyNeg_known (h : verifyNeg pc i is64 d = .ok (.scalar (some v))) :
    ∃ a, d = .scalar (some a) ∧ negated is64 a = v := by
  unfold verifyNeg at h
  split at h
  · simpa using h
  cases h

lemma verifyAlu_runs (h : Agrees st regs) (hcls : i.cls = .alu ∨ i.cls = .alu64)
    (hok : verifyAlu pc i st = .ok st') : ∃ regs', runAlu i regs = some regs' ∧ Agrees st' regs' := by
  rw [verifyAlu] at hok
  split at hok
  · cases hok
  split at hok
  case h_1 hop => exact h.ran hop (fun _ hw => absurd hw verifyEnd_known) hok
  case h_2 hop =>
    refine h.ran hop (fun w hw => ?_) hok
    obtain ⟨a,ha,rfl⟩ := verifyNeg_known hw
    rw [runAlu_neg hcls hop,h _ _ ha]
  case h_3 => cases hok
  case h_4 op _ _ hop =>
    cases hsv : aluOperand pc i (i.cls = .alu64) st with
    | error =>
      rw [hsv] at hok
      cases hok
    | ok =>
      rw [hsv] at hok
      exact h.ran hop (fun w => verifyBinary_runs h hcls hop hsv) hok

lemma runJmp_of_fold {op : JmpOp} (hcls : i.cls = .jmp ∨ i.cls = .jmp32)
    (hop : i.jmpOp = some op) (hv : jmpFold op (i.cls = .jmp) (regs i.dst) (i.operand regs) = some take) :
    runJmp pc i regs = some (if take then jumpTo pc i else pc + 1) := by
  obtain hcls | hcls := hcls
  · cases op <;> simp_all [runJmp,jmpFold,narrow,signed]
  cases op <;> simp_all [runJmp,jmpFold,narrow,signed]

lemma branchOn_one {op : JmpOp} {next target n : Nat} (h : branchOn op is64 next target d sv = .one n) :
    ∃ a b take, d = .scalar (some a) ∧ sv = .scalar (some b) ∧ jmpFold op is64 a b = some take ∧
      n = if take then target else next := by
  unfold branchOn at h
  split at h
  · split at h
    · rename_i hfold
      cases h
      exact ⟨_,_,_,rfl,rfl,hfold,rfl⟩
    · rename_i hfold
      cases h
      exact ⟨_,_,_,rfl,rfl,hfold,rfl⟩
    cases h
  cases h

lemma verifyBranch_runs (h : Agrees st regs) {cnt n : Nat} {op : JmpOp}
    (hcls : i.cls = .jmp ∨ i.cls = .jmp32) (hop : i.jmpOp = some op)
    (hok : verifyBranch cnt pc i op st = .ok (.one n)) : runJmp pc i regs = some n := by
  rw [verifyBranch] at hok
  split at hok
  · cases hok
  split at hok
  · cases hok
  cases hsv : jumpOperand pc i st with
  | error =>
    rw [hsv] at hok
    cases hok
  | ok =>
    simp only [hsv] at hok
    split at hok
    · cases hok
    injection hok with hone
    obtain ⟨a,b,take,ha,rfl,hfold,rfl⟩ := branchOn_one hone
    apply runJmp_of_fold hcls hop
    rw [h _ _ ha,jumpOperand_runs h hsv]
    exact hfold

theorem folding_agrees_with_run (st : Nat → Reg) (regs : Nat → BitVec 64) (h : Agrees st regs)
    (pc : Nat) (i : Insn) :
    ((i.cls = .alu ∨ i.cls = .alu64) → ∀ st', verifyAlu pc i st = .ok st' →
      ∃ regs', runAlu i regs = some regs' ∧ Agrees st' regs') ∧
    ((i.cls = .jmp ∨ i.cls = .jmp32) → ∀ op cnt n, i.jmpOp = some op →
      verifyBranch cnt pc i op st = .ok (.one n) → runJmp pc i regs = some n) := by
  constructor
  · intro hcls st' hok
    exact verifyAlu_runs h hcls hok
  intro hcls op cnt n hop hok
  exact verifyBranch_runs h hcls hop hok

def allKnown (v : BitVec 64) : Nat → Reg := fun _ => .scalar (some v)

lemma allKnown_agrees (v : BitVec 64) : Agrees (allKnown v) fun _ => v := by
  intro r w h
  cases h
  rfl

theorem sign_bit_folds :
    (∃ regs', runAlu ⟨0xc4, 0, 0, 4⟩ (fun _ => 0x80000000) = some regs' ∧
      Agrees (update (allKnown 0x80000000) 0 (.scalar (some 0xf8000000))) regs') ∧
    runJmp 3 ⟨0xc6, 0, 2, 0⟩ (fun _ => 0x80000000) = some 6 :=
  ⟨(folding_agrees_with_run _ _ (allKnown_agrees 0x80000000) 0 ⟨0xc4,0,0,4⟩).1 (by decide) _ rfl,
    (folding_agrees_with_run _ _ (allKnown_agrees 0x80000000) 3 ⟨0xc6,0,2,0⟩).2 (by decide)
      .jslt 8 6 (by decide) rfl⟩

end B1nix.Bpf
