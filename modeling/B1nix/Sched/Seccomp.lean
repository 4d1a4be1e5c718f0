import B1nix.Basic.Transition
import B1nix.Basic.Shared

namespace B1nix.Seccomp

open Function

structure SockFilter where
  code : UInt16
  jt : UInt8
  jf : UInt8
  k : UInt32

inductive Arch where
  | x86_64
  | aarch64

structure SeccompData where
  nr : UInt32
  arch : UInt32
  instructionPointer : UInt64
  args : Fin 6 → UInt64

def bytes4 (v : UInt32) : List UInt8 :=
  [v.toUInt8,(v >>> 8).toUInt8,(v >>> 16).toUInt8,(v >>> 24).toUInt8]

def bytes8 (v : UInt64) : List UInt8 :=
  bytes4 v.toUInt32 ++ bytes4 (v >>> 32).toUInt32

def SeccompData.bytes (d : SeccompData) : List UInt8 :=
  bytes4 d.nr ++ bytes4 d.arch ++ bytes8 d.instructionPointer ++ (List.ofFn d.args).flatMap bytes8

def dlen : UInt32 := 64

def load4 (base : List UInt8) (off : Nat) : UInt32 :=
  (base.getD off 0).toUInt32 ||| (base.getD (off + 1) 0).toUInt32 <<< 8 |||
    (base.getD (off + 2) 0).toUInt32 <<< 16 ||| (base.getD (off + 3) 0).toUInt32 <<< 24

def retKillProcess : UInt32 := 0x80000000
def retKillThread : UInt32 := 0x00000000
def retTrap : UInt32 := 0x00030000
def retErrno : UInt32 := 0x00050000
def retTrace : UInt32 := 0x7ff00000
def retLog : UInt32 := 0x7ffc0000
def retAllow : UInt32 := 0x7fff0000
def retActionFull : UInt32 := 0xffff0000
def retData : UInt32 := 0x0000ffff

def bpfMemwords : UInt32 := 16

structure Regs where
  a : UInt32
  x : UInt32
  mem : List UInt32

inductive Executed where
  | ret (verdict : UInt32)
  | next (jump : Nat) (r : Regs)

def loaded : Option UInt32 → (UInt32 → Regs) → Executed
  | none, _ => .ret retKillProcess
  | some v, store => .next 0 (store v)

def bpfMem (r : Regs) (k : UInt32) : Option UInt32 :=
  if k ≥ bpfMemwords then none else some (r.mem.getD k.toNat 0)

def bpfLd (data : SeccompData) (i : SockFilter) (r : Regs) : Option UInt32 :=
  match i.code &&& 0xe0 with
  | 0x20 => if i.k + 4 > dlen ∨ i.k + 4 < i.k then none else some (load4 data.bytes i.k.toNat)
  | 0x00 => some i.k
  | 0x60 => bpfMem r i.k
  | 0x80 => some dlen
  | _ => none

def bpfLdx (i : SockFilter) (r : Regs) : Option UInt32 :=
  match i.code &&& 0xe0 with
  | 0x00 => some i.k
  | 0x60 => bpfMem r i.k
  | 0x80 => some dlen
  | _ => none

def bpfStore (v : UInt32) (i : SockFilter) (r : Regs) : Executed :=
  if i.k ≥ bpfMemwords then .ret retKillProcess else .next 0 { r with mem := r.mem.set i.k.toNat v }

def bpfSrc (i : SockFilter) (r : Regs) : UInt32 :=
  if i.code &&& 0x08 = 0x08 then r.x else i.k

def bpfAlu (i : SockFilter) (r : Regs) : Option UInt32 :=
  let src := bpfSrc i r
  match i.code &&& 0xf0 with
  | 0x00 => some (r.a + src)
  | 0x10 => some (r.a - src)
  | 0x20 => some (r.a * src)
  | 0x30 => if src = 0 then none else some (r.a / src)
  | 0x90 => if src = 0 then none else some (r.a % src)
  | 0x40 => some (r.a ||| src)
  | 0x50 => some (r.a &&& src)
  | 0xa0 => some (r.a ^^^ src)
  | 0x60 => some (r.a <<< (src &&& 31))
  | 0x70 => some (r.a >>> (src &&& 31))
  | 0x80 => some (0 - r.a)
  | _ => none

def bpfTest (i : SockFilter) (r : Regs) : Option Bool :=
  let cmp := bpfSrc i r
  match i.code &&& 0xf0 with
  | 0x10 => some (r.a == cmp)
  | 0x20 => some (decide (r.a > cmp))
  | 0x30 => some (decide (r.a ≥ cmp))
  | 0x40 => some ((r.a &&& cmp) != 0)
  | _ => none

def bpfJmp (left : Nat) (i : SockFilter) (r : Regs) : Executed :=
  if i.code &&& 0xf0 = 0x00 then
    if i.k.toNat ≥ left then .ret retKillProcess else .next i.k.toNat r
  else
    match bpfTest i r with
    | none => .ret retKillProcess
    | some t =>
      let jmp := (if t then i.jt else i.jf).toNat
      if jmp > left then .ret retKillProcess else .next jmp r

def bpfMisc (i : SockFilter) (r : Regs) : Executed :=
  if i.code &&& 0xf8 = 0x00 then .next 0 { r with x := r.a }
  else if i.code &&& 0xf8 = 0x80 then .next 0 { r with a := r.x }
  else .ret retKillProcess

def bpfExec (data : SeccompData) (left : Nat) (i : SockFilter) (r : Regs) : Executed :=
  match i.code &&& 0x07 with
  | 0x00 => loaded (bpfLd data i r) fun v => { r with a := v }
  | 0x01 => loaded (bpfLdx i r) fun v => { r with x := v }
  | 0x02 => bpfStore r.a i r
  | 0x03 => bpfStore r.x i r
  | 0x04 => loaded (bpfAlu i r) fun v => { r with a := v }
  | 0x05 => bpfJmp left i r
  | 0x06 => .ret (if i.code &&& 0x18 = 0x10 then r.a else i.k)
  | 0x07 => bpfMisc i r
  | _ => .ret retKillProcess

def bpfRunFrom (prog : List SockFilter) (data : SeccompData) (pc : Nat) (r : Regs) : UInt32 :=
  if h : pc < prog.length then
    match bpfExec data (prog.length - pc - 1) prog[pc] r with
    | .ret v => v
    | .next jump r => bpfRunFrom prog data (pc + jump + 1) r
  else retKillProcess
termination_by prog.length - pc

def bpfRun (prog : List SockFilter) (data : SeccompData) : UInt32 :=
  bpfRunFrom prog data 0 ⟨0,0,List.replicate bpfMemwords.toNat 0⟩

structure Filter where
  prog : Option (List SockFilter)
  prev : Nat
  refcount : Int

structure State where
  filter : Nat → Filter
  allocated : Finset Nat
  head : Nat → Nat
  noNewPrivs : Nat → Bool
  tasks : Finset Nat
  exited : Nat → Bool

structure Call where
  number : UInt64
  args : Fin 6 → UInt64
  instructionPointer : UInt64

def auditArch : Arch → UInt32
  | .x86_64 => 0xC000003E
  | .aarch64 => 0xC00000B7

def strictNumbers : Arch → List UInt64
  | .x86_64 => [0,1,60,15]
  | .aarch64 => [63,64,93,139]

variable (t : Nat) (arch : Arch)

def strictAllows (nr : UInt64) : Bool := decide (nr ∈ strictNumbers arch)

def seccompData (c : Call) : SeccompData where
  nr := c.number.toUInt32
  arch := auditArch arch
  instructionPointer := c.instructionPointer
  args := c.args

def answer (c : Call) : Option (List SockFilter) → UInt32
  | none => if strictAllows arch c.number then retAllow else retKillProcess
  | some prog => bpfRun prog (seccompData arch c)

def severity (r : UInt32) : Nat :=
  let action := r &&& retActionFull
  if action = retKillProcess then 0
  else if action = retKillThread then 1
  else if action = retTrap then 2
  else if action = retErrno then 3
  else if action = retTrace then 4
  else if action = retLog then 5
  else if action = retAllow then 6
  else 0

def pick (best : UInt32 × Nat) (r : UInt32) : UInt32 × Nat :=
  if severity r < best.2 then (r, severity r) else best

def runFilters (arch : Arch) (c : Call) (s : State) : Nat → Nat → UInt32 × Nat → Option UInt32
  | fuel, cur, best =>
    if cur = 0 then some best.1
    else if cur ∉ s.allocated then none
    else
      match fuel with
      | 0 => none
      | fuel + 1 =>
        runFilters arch c s fuel (s.filter cur).prev
          (pick best (answer arch c (s.filter cur).prog))

variable (s : State)

def verdict (t : Nat) (c : Call) : Option UInt32 :=
  if s.head t = 0 then some retAllow
  else runFilters arch c s s.allocated.card (s.head t) (retAllow, 100)

inductive Outcome where
  | allowed
  | blocked (ret : Int)
  | trapped (ret : Int)
  | killed
  deriving DecidableEq

def enforce (verdict : UInt32) : Outcome :=
  let action := verdict &&& retActionFull
  if action = retAllow ∨ action = retLog then .allowed
  else if action = retErrno then .blocked (-(min (verdict &&& retData).toNat 4095))
  else if action = retTrap then .trapped (-1)
  else if action = retTrace then .blocked (-38)
  else .killed

def seccompFilterSyscall (t : Nat) (c : Call) : Option Outcome := (verdict arch s t c).map enforce

def State.setCount (f : Nat) (n : Int) : State :=
  { s with filter := update s.filter f { s.filter f with refcount := n } }

def filterUnref : Nat → Nat → State → Option State
  | fuel, f, s =>
    if f = 0 then some s
    else if f ∉ s.allocated then none
    else
      match fuel with
      | 0 => none
      | fuel + 1 =>
        let left := (s.filter f).refcount - 1
        if left < 0 then none
        else if left ≠ 0 then some (s.setCount f left)
        else
          filterUnref fuel (s.filter f).prev
            { s.setCount f left with allocated := s.allocated.erase f }

def seccompInherit (parent child : Nat) (s : State) : State :=
  let f := s.head parent
  let counted := if f = 0 then s else s.setCount f ((s.filter f).refcount + 1)
  { counted with
    head := update s.head child f
    noNewPrivs := update s.noNewPrivs child (s.noNewPrivs parent) }

def seccompRelease : Option State :=
  if s.head t = 0 then some s
  else filterUnref s.allocated.card (s.head t) { s with head := update s.head t 0 }

def seccompSetNoNewPrivs : State := { s with noNewPrivs := update s.noNewPrivs t true }

def install (prog : Option (List SockFilter)) (t f : Nat) (s : State) : State :=
  { s with
    filter := update s.filter f ⟨prog,s.head t,1⟩
    allocated := insert f s.allocated
    head := update s.head t f }

structure UserProg where
  len : Option UInt16
  insns : Option (Nat → SockFilter)

structure Alloc where
  prog : Bool
  filter : Option Nat

def seccompSetModeFilter (user : UserProg) (capable : Bool) (alloc : Alloc) (t : Nat) (s : State) :
    Int × State :=
  match user.len with
  | none => (-14, s)
  | some len =>
    if len = 0 ∨ len > 4096 then (-22, s)
    else if !alloc.prog then (-12, s)
    else
      match user.insns with
      | none => (-14, s)
      | some insns =>
        if !s.noNewPrivs t && !capable then (-13, s)
        else
          match alloc.filter with
          | none => (-12, s)
          | some f => (0, install (some ((List.range len.toNat).map insns)) t f s)

def seccompSetModeStrict (alloc : Option Nat) (t : Nat) (s : State) : Int × State :=
  match alloc with
  | none => (-12, s)
  | some f => (0, install none t f s)

inductive Event where
  | strict (t : Nat) (alloc : Option Nat)
  | filter (t : Nat) (user : UserProg) (capable : Bool) (alloc : Alloc)
  | noNewPrivs (t : Nat)
  | syscall (t : Nat) (c : Call)
  | fork (parent child : Nat)
  | exit (t : Nat)
  | reap (t : Nat)

def State.Running (t : Nat) : Prop := t ∈ s.tasks ∧ s.exited t = false

def State.Fresh (alloc : Option Nat) : Prop := ∀ f, alloc = some f → f ≠ 0 ∧ f ∉ s.allocated

def Event.Enabled : Event → Prop
  | .strict t alloc => s.Running t ∧ s.Fresh alloc
  | .filter t _ _ alloc => s.Running t ∧ s.Fresh alloc.filter
  | .noNewPrivs t => s.Running t
  | .syscall t _ => s.Running t
  | .fork parent child => s.Running parent ∧ child ∉ s.tasks
  | .exit t => s.Running t
  | .reap t => t ∈ s.tasks ∧ s.exited t = true

def exitCurrent : State := { s with exited := update s.exited t true }

def step : Event → Option State
  | .strict t alloc => some (seccompSetModeStrict alloc t s).2
  | .filter t user capable alloc => some (seccompSetModeFilter user capable alloc t s).2
  | .noNewPrivs t => some (seccompSetNoNewPrivs t s)
  | .syscall t c =>
    (seccompFilterSyscall arch s t c).map fun o => if o = .killed then exitCurrent t s else s
  | .fork parent child =>
    some { seccompInherit parent child s with
      tasks := insert child s.tasks
      exited := update s.exited child false }
  | .exit t => some (exitCurrent t s)
  | .reap t => (seccompRelease t s).map fun s => { s with tasks := s.tasks.erase t }

def Stepped (e : Event) (s' : State) : Prop := e.Enabled s ∧ step arch s e = some s'

def State.Initial : Prop := s.allocated = ∅ ∧ ∀ t, s.head t = 0

open B1nix.Linked B1nix.Shared B1nix.Transition List

variable {arch : Arch} {s s' : State} {t u fuel : Nat} {c : Call}

lemma severity_le (r : UInt32) : severity r ≤ 6 := by
  unfold severity
  dsimp only
  repeat' split
  all_goals omega

def mostSevere (answers : List UInt32) : UInt32 := (answers.foldl pick (retAllow, 100)).1

lemma foldl_pick (answers : List UInt32) (best : UInt32 × Nat) :
    (answers.foldl pick best).2 ≤ best.2 ∧
      (∀ r ∈ answers, (answers.foldl pick best).2 ≤ severity r) ∧
      (answers.foldl pick best = best ∨ (answers.foldl pick best).1 ∈ answers ∧
        (answers.foldl pick best).2 = severity (answers.foldl pick best).1) := by
  induction answers generalizing best with
  | nil => exact ⟨le_rfl,by simp,.inl rfl⟩
  | cons r _ ih =>
    obtain ⟨hle,hall,hsrc⟩ := ih (pick best r)
    have hpick : (pick best r).2 ≤ best.2 ∧ (pick best r).2 ≤ severity r := by
      unfold pick
      split
      · next hlt => exact ⟨hlt.le,le_rfl⟩
      next hge => exact ⟨le_rfl,not_lt.mp hge⟩
    rw [foldl_cons]
    refine ⟨hle.trans hpick.1,fun r' hr' => ?_,?_⟩
    · obtain rfl | hr' := mem_cons.mp hr'
      · exact hle.trans hpick.2
      exact hall r' hr'
    obtain heq | ⟨hmem,hsev⟩ := hsrc
    · rw [heq]
      unfold pick
      split
      · exact .inr ⟨.head _,rfl⟩
      exact .inl rfl
    exact .inr ⟨.tail r hmem,hsev⟩

variable {answers more : List UInt32} {l : List Nat} {f : Nat} {kin : Finset Nat}

lemma mostSevere_mem (hne : answers ≠ []) :
    mostSevere answers ∈ answers ∧ ∀ r ∈ answers, severity (mostSevere answers) ≤ severity r := by
  obtain ⟨-,hall,hsrc⟩ := foldl_pick answers (retAllow, 100)
  obtain ⟨r,hr⟩ := exists_mem_of_ne_nil answers hne
  have hlow := (hall r hr).trans (severity_le r)
  obtain heq | ⟨hmem,hsev⟩ := hsrc
  · rw [heq] at hlow
    omega
  refine ⟨hmem,fun r' hr' => ?_⟩
  rw [mostSevere,← hsev]
  exact hall r' hr'

lemma mostSevere_suffix (h : answers <:+ more) :
    severity (mostSevere more) ≤ severity (mostSevere answers) := by
  by_cases hem : answers = []
  · rw [hem]
    exact (severity_le _).trans (by decide)
  have hmem := h.subset (mostSevere_mem hem).1
  exact (mostSevere_mem (ne_nil_of_mem hmem)).2 _ hmem

def State.prev (s : State) (a : Nat) : Nat := (s.filter a).prev

def State.count (s : State) (a : Nat) : Int := (s.filter a).refcount

def State.prog (s : State) (a : Nat) : Option (List SockFilter) := (s.filter a).prog

def Owed (s : State) (f : Nat) : Prop := Counted s.allocated s.prev s.count s.tasks s.head f

def Sound (s : State) : Prop := Owed s 0

def Policy (s : State) (t : Nat) (ps : List (Option (List SockFilter))) : Prop :=
  ∃ l, Chain s.prev (s.head t) l ∧ l.map s.prog = ps

lemma runFilters_chain {cur : Nat} {best : UInt32 × Nat} (hch : Chain s.prev cur l)
    (hl : ∀ x ∈ l, x ∈ s.allocated) (hfu : l.length ≤ fuel) :
    runFilters arch c s fuel cur best = some (((l.map s.prog).map (answer arch c)).foldl pick best).1 := by
  induction l generalizing fuel cur best with
  | nil =>
    have hcur : cur = 0 := hch
    cases fuel with
    | zero | succ => simp [runFilters,hcur]
  | cons _ _ ih =>
    obtain ⟨rfl,hne,hrs⟩ := hch
    obtain ⟨fuel,rfl⟩ : ∃ k, fuel = k + 1 := ⟨fuel - 1,by
      rw [length_cons] at hfu
      omega⟩
    rw [runFilters,if_neg hne,if_neg (not_not.mpr (hl cur (.head _)))]
    exact ih hrs (fun y hy => hl y (.tail cur hy)) (Nat.le_of_succ_le_succ hfu)

lemma Sound.chain (h : Sound s) (ht : t ∈ s.tasks) (hch : Chain s.prev (s.head t) l) :
    ∀ x ∈ l, x ∈ s.allocated :=
  (h.roots t ht).chain hch

variable {ps : List (Option (List SockFilter))} {e : Event}

lemma Sound.verdict_eq (h : Sound s) (ht : t ∈ s.tasks) (hp : Policy s t ps) :
    verdict arch s t c = some (mostSevere (ps.map (answer arch c))) := by
  obtain ⟨l,hch,rfl⟩ := hp
  unfold verdict
  split_ifs with hze
  · rw [hze] at hch
    cases l with
    | nil => rfl
    | cons => cases hch.2.1 hch.1.symm
  exact runFilters_chain hch (h.chain ht hch) (Rooted.length_le hch (h.chain ht hch))

lemma Sound.policy (h : Sound s) (ht : t ∈ s.tasks) : ∃ ps, Policy s t ps := by
  obtain ⟨l,hch,-⟩ := h.roots t ht
  exact ⟨_,l,hch,rfl⟩

@[simp] lemma setCount_prev (f : Nat) (n : Int) : (s.setCount f n).prev = s.prev :=
  (comp_update Filter.prev s.filter f _).trans (update_eq_self f s.prev)

@[simp] lemma setCount_prog (f : Nat) (n : Int) : (s.setCount f n).prog = s.prog :=
  (comp_update Filter.prog s.filter f _).trans (update_eq_self f s.prog)

@[simp] lemma setCount_count (f : Nat) (n : Int) : (s.setCount f n).count = update s.count f n :=
  comp_update Filter.refcount s.filter f _

structure Kept (s s' : State) : Prop where
  prev : s'.prev = s.prev
  prog : s'.prog = s.prog
  head : s'.head = s.head
  tasks : s'.tasks = s.tasks

lemma filterUnref_spec (h : Owed s f) (hfu : s.allocated.card ≤ fuel) :
    ∃ s', filterUnref fuel f s = some s' ∧ Sound s' ∧ Kept s s' := by
  induction fuel generalizing f s with
  | zero =>
    have hem := Finset.card_eq_zero.mp (Nat.le_zero.mp hfu)
    obtain rfl | hf := eq_or_ne f 0
    · exact ⟨s,by simp [filterUnref],h,rfl,rfl,rfl,rfl⟩
    have hmem := h.owing.mem hf
    rw [hem] at hmem
    cases hmem
  | succ _ ih =>
    obtain rfl | hf := eq_or_ne f 0
    · exact ⟨s,by simp [filterUnref],h,rfl,rfl,rfl,rfl⟩
    have hmem := h.owing.mem hf
    have hpos : 1 ≤ s.count f := by
      rw [h.counts f hmem,owners,points_self]
      omega
    have hlf : ¬(s.filter f).refcount - 1 < 0 := not_lt.mpr (by
      rw [State.count] at hpos
      omega)
    rw [filterUnref,if_neg hf,if_neg (not_not.mpr hmem)]
    rw [if_neg hlf]
    split_ifs with hla
    · refine ⟨_,rfl,?_,setCount_prev ..,setCount_prog ..,rfl,rfl⟩
      have hkp := h.keep hf
      rw [Sound,Owed,setCount_prev,setCount_count]
      exact hkp
    have hone : s.count f = 1 := by
      rw [State.count]
      omega
    have hfe := h.free hf hone
    have hoe : Owed { s.setCount f ((s.filter f).refcount - 1) with
        allocated := s.allocated.erase f } (s.filter f).prev := by
      change Counted (s.allocated.erase f) (s.setCount f _).prev (s.setCount f _).count
        s.tasks s.head (s.prev f)
      rw [setCount_prev,setCount_count]
      exact hfe.recount fun a ha => update_of_ne (Finset.ne_of_mem_erase ha) ..
    obtain ⟨s',hs',hsd,hke⟩ := ih hoe (by
      rw [Finset.card_erase_of_mem hmem]
      omega)
    exact ⟨s',hs',hsd,hke.prev.trans (setCount_prev f _),
      hke.prog.trans (setCount_prog f _),hke.head,hke.tasks⟩

def Event.tasks (tasks : Finset Nat) : Event → Finset Nat
  | .fork _ child => insert child tasks
  | .reap t => tasks.erase t
  | _ => tasks

structure Advances (s : State) (e : Event) (s' : State) : Prop where
  sound : Sound s'
  tasks : s'.tasks = e.tasks s.tasks
  grows : ∀ u ∈ s.tasks, u ∈ s'.tasks → ∀ ps, Policy s u ps → ∃ ps', Policy s' u ps' ∧ ps <:+ ps'
  inherits : ∀ parent child, e = .fork parent child → ∀ ps, Policy s parent ps → Policy s' child ps

lemma Policy.kept (hp : Policy s u ps) (hhd : s'.head u = s.head u)
    (hsa : ∀ l, Chain s.prev (s.head u) l → ∀ x ∈ l, s'.prev x = s.prev x ∧ s'.prog x = s.prog x) :
    Policy s' u ps := by
  obtain ⟨l,hch,rfl⟩ := hp
  refine ⟨l,?_,map_congr_left fun x hx => (hsa l hch x hx).2⟩
  rw [hhd]
  exact hch.congr fun x hx => (hsa l hch x hx).1

lemma Advances.of_kept (hsd : Sound s') (hts : s'.tasks = e.tasks s.tasks)
    (hprev : s'.prev = s.prev) (hpg : s'.prog = s.prog) (hhd : ∀ u ∈ s'.tasks, s'.head u = s.head u)
    (hfork : ∀ p c, e ≠ .fork p c) : Advances s e s' := by
  refine ⟨hsd,hts,fun u _ hu ps hp => ⟨ps,?_,suffix_rfl⟩,fun p c he => absurd he (hfork p c)⟩
  exact hp.kept (hhd u hu) fun l _ x _ => ⟨congrFun hprev x,congrFun hpg x⟩

section

variable (prog : Option (List SockFilter)) (t f : Nat)

@[simp] lemma install_prev : (install prog t f s).prev = update s.prev f (s.head t) :=
  comp_update Filter.prev s.filter f _

@[simp] lemma install_count : (install prog t f s).count = update s.count f 1 :=
  comp_update Filter.refcount s.filter f _

@[simp] lemma install_prog : (install prog t f s).prog = update s.prog f prog :=
  comp_update Filter.prog s.filter f _

end

lemma Sound.install (h : Sound s) (ht : t ∈ s.tasks) (hf : f ≠ 0) (hnew : f ∉ s.allocated)
    (prog : Option (List SockFilter)) : Sound (install prog t f s) := by
  have hpu := h.push hf hnew ht
  rw [Sound,Owed,install_prev,install_count]
  exact hpu

lemma Sound.install_policy (h : Sound s) (hf : f ≠ 0) (hnew : f ∉ s.allocated)
    (prog : Option (List SockFilter)) (hu : u ∈ s.tasks) (hp : Policy s u ps) :
    ∃ ps', Policy (Seccomp.install prog t f s) u ps' ∧ ps <:+ ps' := by
  have hfr : ∀ l, Chain s.prev (s.head u) l → ∀ x ∈ l, x ≠ f := fun l hl x hx =>
    ne_of_mem_of_not_mem (h.chain hu hl x hx) hnew
  obtain rfl | hut := eq_or_ne u t
  · obtain ⟨l,hch,rfl⟩ := hp
    have hsa : l.map (Seccomp.install prog u f s).prog = l.map s.prog :=
      map_congr_left fun x hx => by simp [hfr l hch x hx]
    refine ⟨prog :: l.map s.prog,⟨f :: l,?_,?_⟩,suffix_cons prog _⟩
    · have hhd : (Seccomp.install prog u f s).head u = f := by simp [Seccomp.install]
      rw [hhd]
      exact hch.push hf (by simp) fun x hx => by simp [hfr l hch x hx]
    rw [map_cons,hsa,install_prog,update_self]
  refine ⟨ps,hp.kept (update_of_ne hut ..) fun l hl x hx => ?_,suffix_rfl⟩
  simp [hfr l hl x hx]

lemma Sound.installed (h : Sound s) (ht : t ∈ s.tasks) (hf : f ≠ 0) (hnew : f ∉ s.allocated)
    (prog : Option (List SockFilter)) (he : e.tasks s.tasks = s.tasks)
    (hfork : ∀ p c, e ≠ .fork p c) : Advances s e (Seccomp.install prog t f s) :=
  ⟨h.install ht hf hnew prog,he.symm,fun _ hu _ _ hp => h.install_policy hf hnew prog hu hp,
    fun p c heq => absurd heq (hfork p c)⟩

lemma Sound.unchanged (h : Sound s) (he : e.tasks s.tasks = s.tasks)
    (hfork : ∀ p c, e ≠ .fork p c) : Advances s e s :=
  .of_kept h he.symm rfl rfl (fun _ _ => rfl) hfork

lemma seccompInherit_kept (parent child : Nat) :
    (seccompInherit parent child s).prev = s.prev ∧
      (seccompInherit parent child s).prog = s.prog ∧
      (seccompInherit parent child s).allocated = s.allocated := by
  unfold seccompInherit
  dsimp only
  split
  · exact ⟨rfl,rfl,rfl⟩
  exact ⟨setCount_prev ..,setCount_prog ..,rfl⟩

section

variable (h : Sound s)

include h

lemma Sound.inherit_count (parent child : Nat) :
    ∀ b ∈ s.allocated, (seccompInherit parent child s).count b = s.count b + points b (s.head parent) := by
  intro b hb
  unfold seccompInherit
  dsimp only
  split_ifs with hze
  · rw [hze,h.points_zero hb]
    simp [State.count]
  change (s.setCount (s.head parent) _).count b = _
  rw [setCount_count]
  by_cases hbh : b = s.head parent
  · subst hbh
    simp [State.count]
  simp [hbh,points_of_ne (Ne.symm hbh)]

lemma Sound.inherit {parent child : Nat} (hpar : parent ∈ s.tasks)
    (hchd : child ∉ s.tasks) (exited : Nat → Bool) :
    Advances s (.fork parent child) { seccompInherit parent child s with
      tasks := insert child s.tasks
      exited } := by
  obtain ⟨hprev,hpg,hal⟩ := seccompInherit_kept parent child
  have hhd : (seccompInherit parent child s).head =
      update s.head child (s.head parent) := rfl
  have hshr := h.share hpar hchd (h.inherit_count parent child)
  refine ⟨?_,rfl,fun u hu _ ps hp => ⟨ps,hp.kept ?_ ?_,suffix_rfl⟩,?_⟩
  · change Counted (seccompInherit parent child s).allocated (seccompInherit parent child s).prev
      (seccompInherit parent child s).count (insert child s.tasks)
      (seccompInherit parent child s).head 0
    rw [hprev,hal]
    exact hshr
  · exact update_of_ne (ne_of_mem_of_not_mem hu hchd) ..
  · exact fun l _ x _ => ⟨congrFun hprev x,congrFun hpg x⟩
  rintro p c ⟨rfl,rfl⟩ ps ⟨l,hch,rfl⟩
  refine ⟨l,?_,map_congr_left fun x _ => congrFun hpg x⟩
  have htop : (seccompInherit parent child s).head child = s.head parent := by rw [hhd,update_self]
  change Chain (seccompInherit parent child s).prev ((seccompInherit parent child s).head child) l
  rw [htop,hprev]
  exact hch

lemma Sound.release (ht : t ∈ s.tasks) :
    ∃ s', seccompRelease t s = some s' ∧ Sound s' ∧ s'.prev = s.prev ∧ s'.prog = s.prog ∧
      s'.head = update s.head t 0 ∧ s'.tasks = s.tasks := by
  unfold seccompRelease
  split_ifs with hze
  · refine ⟨s,rfl,h,rfl,rfl,?_,rfl⟩
    rw [← hze,update_eq_self]
  have hoe : Owed { s with head := update s.head t 0 } (s.head t) := h.leave ht
  obtain ⟨s',hs',hsd,hke⟩ := filterUnref_spec hoe le_rfl
  exact ⟨s',hs',hsd,hke.prev,hke.prog,hke.head,hke.tasks⟩

lemma Sound.reap (ht : t ∈ s.tasks) : ∃ s', step arch s (.reap t) = some s' ∧ Advances s (.reap t) s' := by
  obtain ⟨s1,hs1,hsd,hprev,hpg,hhd,hts⟩ := h.release ht
  refine ⟨{ s1 with tasks := s1.tasks.erase t },by rw [step,hs1]; rfl,?_⟩
  have hrt : s1.head t = 0 := by rw [hhd,update_self]
  refine .of_kept (hsd.forget (hts ▸ ht) hrt) ?_ hprev hpg (fun u hu => ?_) (by simp)
  · change s1.tasks.erase t = s.tasks.erase t
    rw [hts]
  rw [hhd,update_of_ne (Finset.ne_of_mem_erase hu)]

lemma Sound.step (he : e.Enabled s) : ∃ s', step arch s e = some s' ∧ Advances s e s' := by
  cases e with
  | strict =>
    refine ⟨_,rfl,?_⟩
    unfold seccompSetModeStrict
    split
    · exact h.unchanged rfl (by simp)
    next f =>
    obtain ⟨hf,hnew⟩ := he.2 f rfl
    exact h.installed he.1.1 hf hnew none rfl (by simp)
  | filter =>
    refine ⟨_,rfl,?_⟩
    unfold seccompSetModeFilter
    iterate 6
      split
      · exact h.unchanged rfl (by simp)
    · next f hf =>
      obtain ⟨hne,hnew⟩ := he.2 f hf
      exact h.installed he.1.1 hne hnew _ rfl (by simp)
  | noNewPrivs | exit => exact ⟨_,rfl,.of_kept h rfl rfl rfl (fun _ _ => rfl) (by simp)⟩
  | syscall =>
    obtain ⟨ps,hp⟩ := h.policy he.1
    rw [Seccomp.step,seccompFilterSyscall,h.verdict_eq he.1 hp]
    refine ⟨_,rfl,?_⟩
    dsimp only
    split
    · exact .of_kept h rfl rfl rfl (fun _ _ => rfl) (by simp)
    exact h.unchanged rfl (by simp)
  | fork => exact ⟨_,rfl,h.inherit he.1.1 he.2 _⟩
  | reap => exact h.reap he.1

lemma Sound.stepped (hs : Stepped arch s e s') : Advances s e s' := by
  obtain ⟨s1,hs1,hadv⟩ := h.step hs.1
  cases hs1.symm.trans hs.2
  exact hadv

end

lemma sound_of_initial (h : s.Initial) : Sound s := by
  refine ⟨by simp [h.1],fun i _ => ?_,by simp [h.1],Rooted.zero,by simp [h.1]⟩
  rw [h.2 i]
  exact Rooted.zero

lemma sound_of_reach (hs : Reach State.Initial (Stepped arch) s) : Sound s :=
  Reach.invariant (P := Sound) (fun _ h => sound_of_initial h)
    (fun _ _ _ h hstep => (h.stepped hstep).sound) hs

def Event.line (kin : Finset Nat) : Event → Finset Nat
  | .fork parent child => if parent ∈ kin then insert child kin else kin
  | .reap t => kin.erase t
  | _ => kin

lemma Event.mem_line (e : Event) (hu : u ∈ e.line kin) :
    u ∈ kin ∨ ∃ parent, e = .fork parent u ∧ parent ∈ kin := by
  cases e with
  | fork parent =>
    rw [Event.line] at hu
    split_ifs at hu with hpar
    · obtain rfl | hu := Finset.mem_insert.mp hu
      · exact .inr ⟨parent,rfl,hpar⟩
      exact .inl hu
    exact .inl hu
  | reap => exact .inl (Finset.mem_of_mem_erase hu)
  | strict | filter | noNewPrivs | syscall | exit => exact .inl hu

lemma Event.line_subset {tasks : Finset Nat} (e : Event) (h : kin ⊆ tasks) :
    e.line kin ⊆ e.tasks tasks := by
  intro u hu
  obtain hkin | ⟨parent,rfl,-⟩ := e.mem_line hu
  · cases e with
    | fork => exact Finset.mem_insert_of_mem (h hkin)
    | reap => exact Finset.mem_erase.mpr ⟨Finset.ne_of_mem_erase hu,h hkin⟩
    | strict | filter | noNewPrivs | syscall | exit => exact h hkin
  exact Finset.mem_insert_self u tasks

def Descends (arch : Arch) (x : State × Finset Nat) (e : Event) (y : State × Finset Nat) : Prop :=
  Stepped arch x.1 e y.1 ∧ y.2 = e.line x.2

def Lineage (arch : Arch) (s : State) (t : Nat) (s' : State) (kin : Finset Nat) : Prop :=
  Reach (· = (s, {t})) (Descends arch) (s', kin)

structure Inherits (ps : List (Option (List SockFilter))) (x : State × Finset Nat) : Prop where
  sound : Sound x.1
  tasks : x.2 ⊆ x.1.tasks
  policy : ∀ u ∈ x.2, ∃ ps', Policy x.1 u ps' ∧ ps <:+ ps'

lemma Inherits.step {x y : State × Finset Nat} (h : Inherits ps x) (hs : Descends arch x e y) :
    Inherits ps y := by
  obtain ⟨hstep,hln⟩ := hs
  have hadv := h.sound.stepped hstep
  have hold : ∀ u ∈ x.2, u ∈ y.1.tasks → ∃ ps', Policy y.1 u ps' ∧ ps <:+ ps' := by
    intro u hu hu'
    obtain ⟨ps',hp,hsf⟩ := h.policy u hu
    obtain ⟨ps'',hp',hmr⟩ := hadv.grows u (h.tasks hu) hu' ps' hp
    exact ⟨ps'',hp',hsf.trans hmr⟩
  have hts : y.2 ⊆ y.1.tasks := by
    rw [hln,hadv.tasks]
    exact e.line_subset h.tasks
  refine ⟨hadv.sound,hts,fun u hu => ?_⟩
  obtain hux | ⟨parent,rfl,hpar⟩ := e.mem_line (hln ▸ hu)
  · exact hold u hux (hts hu)
  obtain ⟨ps',hp,hsf⟩ := h.policy parent hpar
  exact ⟨ps',hadv.inherits parent u rfl ps' hp,hsf⟩

lemma Inherits.run (h : Sound s) (ht : t ∈ s.tasks) (hp : Policy s t ps)
    (hrun : Lineage arch s t s' kin) : Inherits ps (s', kin) := by
  refine Reach.invariant ?_ (fun _ _ _ h => h.step) hrun
  rintro x rfl
  refine ⟨h,Finset.singleton_subset_iff.mpr ht,fun u hu => ?_⟩
  rw [Finset.mem_singleton.mp hu]
  exact ⟨ps,hp,suffix_rfl⟩

def MostSevere (arch : Arch) (s : State) (t : Nat) (c : Call) (v : UInt32) : Prop :=
  (∀ a, Follows s.prev (s.head t) a → severity v ≤ severity (answer arch c (s.prog a))) ∧
    (s.head t = 0 ∧ v = retAllow ∨
      ∃ a, Follows s.prev (s.head t) a ∧ v = answer arch c (s.prog a))

lemma Policy.mostSevere (hp : Policy s t ps) :
    MostSevere arch s t c (Seccomp.mostSevere (ps.map (answer arch c))) := by
  obtain ⟨l,hch,rfl⟩ := hp
  rw [map_map]
  refine ⟨fun a ha => ?_,?_⟩
  · have hmem : answer arch c (s.prog a) ∈ l.map (answer arch c ∘ s.prog) :=
      mem_map_of_mem (hch.mem_of_follows ha)
    exact (mostSevere_mem (ne_nil_of_mem hmem)).2 _ hmem
  by_cases hem : l = []
  · subst hem
    exact .inl ⟨hch,rfl⟩
  have hmem := (mostSevere_mem (mt map_eq_nil_iff.mp hem) :
    Seccomp.mostSevere (l.map (answer arch c ∘ s.prog)) ∈ _ ∧ _).1
  obtain ⟨a,ha,heq⟩ := mem_map.mp hmem
  exact .inr ⟨a,hch.follows_of_mem ha,heq.symm⟩

theorem seccomp_monotone {kin : Finset Nat} (hs : Reach State.Initial (Stepped arch) s)
    (ht : t ∈ s.tasks) (hrun : Lineage arch s t s' kin) (hu : u ∈ kin) (c : Call) :
    ∃ v v', verdict arch s t c = some v ∧ verdict arch s' u c = some v' ∧
      severity v' ≤ severity v ∧ MostSevere arch s' u c v' := by
  have hsd := sound_of_reach hs
  obtain ⟨ps,hp⟩ := hsd.policy ht
  have hln := Inherits.run hsd ht hp hrun
  obtain ⟨ps',hp',hsf⟩ := hln.policy u hu
  refine ⟨_,_,hsd.verdict_eq ht hp,hln.sound.verdict_eq (hln.tasks hu) hp',?_, hp'.mostSevere⟩
  exact mostSevere_suffix (hsf.map (answer arch c))

def unfiltered : State where
  filter _ := ⟨none,0,0⟩
  allocated := ∅
  head _ := 0
  noNewPrivs _ := false
  tasks := {1}
  exited _ := false

def pointerTest : Nat → SockFilter
  | 0 => ⟨0x20,0,0,8⟩
  | 1 => ⟨0x15,0,1,0x1000⟩
  | 2 => ⟨0x06,0,0,0x00050001⟩
  | _ => ⟨0x06,0,0,0x7fff0000⟩

def installTest : Event := .filter 1 ⟨some 4,some pointerTest⟩ true ⟨true,some 100⟩

def filtered : State := install (some ((List.range 4).map pointerTest)) 1 100 unfiltered

def forked : State :=
  { seccompInherit 1 2 filtered with
    tasks := {2, 1}
    exited := update filtered.exited 2 false }

def callAt (instructionPointer : UInt64) : Call := ⟨39,fun _ => 0,instructionPointer⟩

lemma filtered_reach : Reach State.Initial (Stepped .x86_64) filtered := by
  have hsta : Reach State.Initial (Stepped .x86_64) unfiltered := .start ⟨rfl,fun _ => rfl⟩
  refine hsta.next (e := installTest) ⟨⟨⟨by decide,rfl⟩,fun f hf => ?_⟩,rfl⟩
  cases hf
  exact ⟨by decide,by decide⟩

theorem seccomp_monotone_forked : verdict .x86_64 filtered 1 (callAt 0x1000) = some 0x00050001 ∧
    ∃ v v', verdict .x86_64 filtered 1 (callAt 0x1000) = some v ∧
      verdict .x86_64 forked 2 (callAt 0x1000) = some v' ∧ severity v' ≤ severity v ∧
      MostSevere .x86_64 forked 2 (callAt 0x1000) v' := by
  have hln : Lineage .x86_64 filtered 1 forked {2, 1} :=
    Reach.next (e := .fork 1 2) (.start rfl) ⟨⟨⟨⟨by decide,rfl⟩,by decide⟩,rfl⟩,rfl⟩
  exact ⟨by decide +kernel,seccomp_monotone filtered_reach (by decide) hln (by decide) _⟩

theorem verdict_follows_pointer : Reach State.Initial (Stepped .x86_64) filtered ∧
    Lineage .x86_64 filtered 1 filtered {1} ∧
    (callAt 0x1000).number = (callAt 0x2000).number ∧ (callAt 0x1000).args = (callAt 0x2000).args ∧
    verdict .x86_64 filtered 1 (callAt 0x1000) = some 0x00050001 ∧
    verdict .x86_64 filtered 1 (callAt 0x2000) = some retAllow ∧
    severity 0x00050001 < severity retAllow := by
  have hbkd : verdict .x86_64 filtered 1 (callAt 0x1000) = some 0x00050001 := by decide +kernel
  have hstep : step .x86_64 filtered (.syscall 1 (callAt 0x1000)) = some filtered := by
    rw [step,seccompFilterSyscall,hbkd]
    rfl
  have hln : Lineage .x86_64 filtered 1 filtered {1} :=
    Reach.next (e := .syscall 1 (callAt 0x1000)) (.start rfl) ⟨⟨⟨by decide,rfl⟩,hstep⟩,rfl⟩
  exact ⟨filtered_reach,hln,rfl,rfl,hbkd,by decide +kernel,by decide⟩

open Finset

def Used (s : State) : Prop := ∀ a ∈ s.allocated, 0 < s.count a

section

variable (h : Used s)

include h

lemma Used.setCount {n : Int} (hn : 0 < n) : Used (s.setCount f n) := by
  intro a ha
  rw [setCount_count]
  by_cases haf : a = f
  · rwa [haf,update_self]
  rw [update_of_ne haf]
  exact h a ha

lemma Used.filterUnref (hs : filterUnref fuel f s = some s') : Used s' := by
  induction fuel generalizing f s with
  | zero =>
    unfold Seccomp.filterUnref at hs
    split at hs
    · cases hs
      exact h
    split at hs <;> cases hs
  | succ _ ih =>
    unfold Seccomp.filterUnref at hs
    split at hs
    · cases hs
      exact h
    split at hs
    · cases hs
    dsimp only at hs
    split at hs
    · cases hs
    split at hs
    · cases hs
      exact h.setCount (by omega)
    refine ih (fun a ha => ?_) hs
    change 0 < (s.setCount f _).count a
    rw [setCount_count,update_of_ne (ne_of_mem_erase ha)]
    exact h a (mem_of_mem_erase ha)

lemma Used.install (prog : Option (List SockFilter)) (t : Nat) :
    Used (install prog t f s) := by
  intro a ha
  rw [install_count]
  by_cases haf : a = f
  · rw [haf,update_self]
    exact Int.one_pos
  rw [update_of_ne haf]
  exact h a ((mem_insert.mp ha).resolve_left haf)

lemma Used.inherit {parent : Nat} (hsd : Sound s) (hpar : parent ∈ s.tasks)
    (child : Nat) : Used (seccompInherit parent child s) := by
  unfold seccompInherit
  dsimp only
  split_ifs with hne
  · exact h
  have hct := h _ ((hsd.roots parent hpar).mem hne)
  rw [State.count] at hct
  exact h.setCount (by omega)

lemma Used.step {e : Event} (hsd : Sound s) (hs : Stepped arch s e s') : Used s' := by
  obtain ⟨he,hs⟩ := hs
  cases e with
  | strict t =>
    cases hs
    unfold seccompSetModeStrict
    split
    · exact h
    exact h.install none t
  | filter t =>
    cases hs
    unfold seccompSetModeFilter
    repeat' split
    all_goals first | exact h | exact h.install _ t
  | noNewPrivs | exit =>
    cases hs
    exact h
  | syscall =>
    obtain ⟨o,-,rfl⟩ := Option.map_eq_some_iff.mp hs
    split
    · exact h
    exact h
  | fork _ child =>
    cases hs
    exact h.inherit hsd he.1.1 child
  | reap t =>
    obtain ⟨s1,hs1,rfl⟩ := Option.map_eq_some_iff.mp hs
    unfold seccompRelease at hs1
    split at hs1
    · cases hs1
      exact h
    have hunref : Used s1 := Used.filterUnref (s := { s with head := update s.head t 0 }) h hs1
    exact hunref

end

lemma used_of_reach (hs : Reach State.Initial (Stepped arch) s) : Sound s ∧ Used s := by
  refine Reach.invariant (P := fun s => Sound s ∧ Used s) (fun s hin => ?_)
    (fun _ _ _ h hstep => ⟨(h.1.stepped hstep).sound,h.2.step h.1 hstep⟩) hs
  exact ⟨sound_of_initial hin,by simp [Used,hin.1]⟩

def State.refs (s : State) (f : Nat) : Nat :=
  #{t ∈ s.tasks | s.head t = f} + #{g ∈ s.allocated | (s.filter g).prev = f}

lemma Sound.refs_eq (h : Sound s) (hf : f ∈ s.allocated) : s.count f = s.refs f := by
  have hze := h.points_zero hf
  rw [h.counts f hf,owners,hze,State.refs,card_filter,card_filter]
  rfl

lemma Sound.refs_zero (h : Sound s) (hne : f ≠ 0) (hf : f ∉ s.allocated) : s.refs f = 0 := by
  rw [State.refs,Nat.add_eq_zero_iff,card_eq_zero,card_eq_zero,filter_eq_empty_iff,filter_eq_empty_iff]
  refine ⟨fun t ht heq => ?_,fun g hg heq => ?_⟩
  · exact hf ((heq ▸ h.roots t ht : Rooted _ _ f).mem hne)
  have hbh := (h.links g hg).behind (ne_of_mem_of_not_mem hg h.zero)
  rw [show s.prev g = f from heq] at hbh
  exact hf (hbh.mem hne)

theorem seccomp_counts (hs : Reach State.Initial (Stepped arch) s) :
    (∀ f ∈ s.allocated, (s.filter f).refcount = s.refs f) ∧
      (∀ f, f ∈ s.allocated ↔ ∃ t ∈ s.tasks, Follows s.prev (s.head t) f) ∧
      ∀ e, e.Enabled s → ∃ s', step arch s e = some s' ∧
        ∀ f ∈ s.allocated, f ∉ s'.allocated ↔ s'.refs f = 0 := by
  obtain ⟨hsd,hus⟩ := used_of_reach hs
  refine ⟨fun f => hsd.refs_eq,fun f => ⟨fun hf => ?_,?_⟩,fun e he => ?_⟩
  · exact hsd.reached hus hf
  · rintro ⟨t,ht,hfol⟩
    exact (hsd.roots t ht).follows hfol
  obtain ⟨s',hstep,hnx⟩ := hsd.step he
  have hused' := hus.step hsd ⟨he,hstep⟩
  refine ⟨s',hstep,fun f hf => ⟨fun hgo => ?_,fun hze hke => ?_⟩⟩
  · exact hnx.sound.refs_zero (ne_of_mem_of_not_mem hf hsd.zero) hgo
  have hpos := hused' f hke
  rw [hnx.sound.refs_eq hke,hze] at hpos
  cases lt_irrefl _ hpos

theorem seccomp_counts_filtered : (filtered.filter 100).refcount = 1 ∧
    100 ∈ filtered.allocated ∧ (filtered.filter 100).refcount = filtered.refs 100 :=
  ⟨rfl,by decide,(seccomp_counts filtered_reach).1 100 (by decide)⟩

end B1nix.Seccomp
