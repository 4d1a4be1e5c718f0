import B1nix.Mm.PmmTree

namespace B1nix.Mm

open Function

def pmmPcpLimit : Nat := 128

def pmmPcpRefillBatch : Nat := 32

def pmmPcpZeroLimit : Nat := 64

def pmmPcpZeroDrainBatch : Nat := 32

def pmmPcpQLimit : Nat := 32

def pmmPcpQAge : Nat := 16

def pmmPcpQScrub : Nat := 8

def pmmPoisonWord : Nat := 0xDFDFDFDFDFDFDFDF

def pmmPoisonCanary : Nat := 0xCAFE0DF00DFACEFE

def pmmZeroMagic : Nat := 0x5A1DE4E4E4E45A11

structure Pcp where
  head : Nat
  count : Nat
  zeroHead : Nat
  zeroCount : Nat
  qHead : Nat
  qTail : Nat
  qCount : Nat
deriving DecidableEq, Repr

def Pcp.empty : Pcp := ⟨0,0,0,0,0,0,0⟩

variable (cfg : PmmConfig) (hidden : Nat → Bool) (p : Pcp) (frame : Nat) (s : PmmState)

def pmmPcpRefill (here : Nat) : Nat → Pcp → PmmState → Pcp × PmmState
  | 0, p, s => (p, s)
  | n + 1, p, s =>
    if p.count < pmmPcpLimit then
      let r := buddyAlloc cfg here 0 s
      if r.1 = 0 then (p, r.2)
      else pmmPcpRefill here n { p with head := r.1, count := p.count + 1 }
        (r.2.store r.1 0 p.head)
    else (p, s)

def zeroPop : Option (Nat × Pcp × PmmState) :=
  let frame := p.zeroHead
  if s.mem frame 2 ≠ pmmZeroMagic then none
  else some (frame, { p with zeroHead := s.mem frame 0, zeroCount := p.zeroCount - 1 },
    (s.store frame 0 0).store frame 2 0)

def pmmPcpZeroDrain : Nat → Pcp → PmmState → Option (Pcp × PmmState)
  | 0, p, s => some (p, s)
  | n + 1, p, s =>
    if 0 < p.zeroCount then
      match zeroPop p s with
      | none => none
      | some (frame, p, s) =>
        if frame = 0 then some (p, s)
        else
          match pmmReturnFrame cfg (hidden frame) frame s with
          | none => none
          | some s => pmmPcpZeroDrain n p s
    else some (p, s)

def qPush : Pcp × PmmState :=
  if s.mem frame 1 = pmmPoisonCanary ∨ s.mem frame 2 = pmmZeroMagic then (p, s)
  else
    let s := (s.store frame 0 0).store frame 1 pmmPoisonCanary
    if p.qTail ≠ 0 then
      ({ p with qTail := frame, qCount := p.qCount + 1 }, s.store p.qTail 0 frame)
    else ({ p with qHead := frame, qTail := frame, qCount := p.qCount + 1 }, s)

def qPop : Nat × Pcp :=
  if p.qHead = 0 then (0, p)
  else
    (p.qHead, { p with
      qHead := s.mem p.qHead 0
      qTail := if s.mem p.qHead 0 = 0 then 0 else p.qTail
      qCount := p.qCount - 1 })

def zeroPush : Pcp × PmmState :=
  if s.mem frame 2 = pmmZeroMagic then (p, s)
  else
    ({ p with zeroHead := frame, zeroCount := p.zeroCount + 1 },
      (s.store frame 0 p.zeroHead).store frame 2 pmmZeroMagic)

def parkZeroed (p : Pcp) (s : PmmState) : Option (Pcp × PmmState) :=
  let s := zeroFrames frame 1 s
  let drained := if pmmPcpZeroLimit ≤ p.zeroCount then
    pmmPcpZeroDrain cfg hidden pmmPcpZeroDrainBatch p s else some (p, s)
  drained.map fun r => zeroPush r.1 frame r.2

def drainPlain : Nat → Pcp → PmmState → Option (Pcp × PmmState)
  | 0, p, s => some (p, s)
  | n + 1, p, s =>
    match pmmReturnFrame cfg (hidden p.head) p.head s with
    | none => none
    | some t => drainPlain n { p with head := s.mem p.head 0, count := p.count - 1 } t

def drainQuarantine : Nat → Pcp → PmmState → Option (Pcp × PmmState)
  | 0, p, s => some (p, s)
  | n + 1, p, s =>
    let r := qPop p s
    match pmmReturnFrame cfg (hidden r.1) r.1 (zeroFrames r.1 1 s) with
    | none => none
    | some s => drainQuarantine n r.2 s

def drainZero : Nat → Pcp → PmmState → Option (Pcp × PmmState)
  | 0, p, s => some (p, s)
  | n + 1, p, s =>
    match zeroPop p s with
    | none => none
    | some (frame, p, s) =>
      if frame = 0 then some (p, s)
      else
        match pmmReturnFrame cfg (hidden frame) frame s with
        | none => none
        | some s => drainZero n p s

def pmmPcpDrain : Option (Pcp × PmmState) :=
  match drainPlain cfg hidden p.count p s with
  | none => none
  | some (p, s) =>
    match drainQuarantine cfg hidden p.qCount p s with
    | none => none
    | some (p, s) => drainZero cfg hidden p.zeroCount p s

def pmmScrubQuarantine : Nat → Pcp → PmmState → Option (Pcp × PmmState)
  | 0, p, s => some (p, s)
  | n + 1, p, s =>
    if pmmPcpQAge < p.qCount then
      let r := qPop p s
      if s.mem r.1 1 ≠ pmmPoisonCanary then none
      else
        match parkZeroed cfg hidden r.1 r.2 s with
        | none => none
        | some (p, s) => pmmScrubQuarantine n p s
    else some (p, s)

def pmmRefFrame : Option PmmState :=
  if 0 < s.refcounts frame ∧ s.refcounts frame < 0xFFFF then
    some { s with refcounts := update s.refcounts frame (s.refcounts frame + 1) }
  else none

def pmmDropRef : Option (Bool × PmmState) :=
  if s.ptFrames frame = true then none
  else if s.refcounts frame = 0 then none
  else some (s.refcounts frame - 1 = 0,
    { s with refcounts := update s.refcounts frame (s.refcounts frame - 1) })

def poisoned (poison : Bool) (frame : Nat) (s : PmmState) : PmmState :=
  if poison then { s with mem := update s.mem frame fun _ => pmmPoisonWord } else s

def pmmParkFrame (poison : Bool) (hidden : Nat → Bool) (frame : Nat) (p : Pcp) (s : PmmState) : Option (Pcp × PmmState) :=
  if hidden frame = true then none
  else if s.mem frame 1 = pmmPoisonCanary ∨ s.mem frame 2 = pmmZeroMagic then none
  else
    let r := qPush p frame (poisoned poison frame s)
    if pmmPcpQLimit < r.1.qCount then
      let oldest := qPop r.1 r.2
      parkZeroed cfg hidden oldest.1 oldest.2 r.2
    else some r

def dirty (page : Fin 512 → Nat) : Prop := ∃ i : Fin 512, i < 32 ∧ i ≠ 2 ∧ page i ≠ 0

instance (page : Fin 512 → Nat) : Decidable (dirty page) :=
  inferInstanceAs (Decidable (∃ i : Fin 512, i < 32 ∧ i ≠ 2 ∧ page i ≠ 0))

inductive Popped where
  | ready (frame : Nat)
  | unzeroed (frame : Nat)
  | empty
deriving DecidableEq, Repr

def PmmState.claim (frame : Nat) : PmmState := { s with refcounts := update s.refcounts frame 1 }

def popZeroed : Option (Popped × Pcp × PmmState) :=
  match zeroPop p s with
  | none => none
  | some (frame, p, s) =>
    (pmmCheckHandout frame (s.claim frame)).map fun s =>
      (.ready frame, p, if dirty (s.mem frame) then zeroFrames frame 1 s else s)

def pmmPcpAlloc (here : Nat) (p : Pcp) (s : PmmState) : Option (Popped × Pcp × PmmState) :=
  if 0 < p.zeroCount then popZeroed p s
  else
    let r := if p.count = 0 then pmmPcpRefill cfg here pmmPcpRefillBatch p s else (p, s)
    if 0 < r.1.count then
      let frame := r.1.head
      (pmmCheckHandout frame (r.2.claim frame)).map fun s =>
        (.unzeroed frame, { r.1 with head := r.2.mem frame 0, count := r.1.count - 1 }, s)
    else some (.empty, r.1, r.2)

def pmmOwnedFreeFrames (maxCpus : Nat) (pcp : Nat → Pcp) (s : PmmState) : Nat :=
  s.freeFrames + ∑ c ∈ Finset.range maxCpus, ((pcp c).count + (pcp c).qCount + (pcp c).zeroCount)

open Transition

structure PcpConfig extends PmmConfig where
  maxCpus : Nat
  poison : Bool

inductive Hold where
  | idle
  | owned (refs : Nat)
  | parking
  | clearing
deriving DecidableEq, Repr

structure FrameWorld where
  glob : PmmState
  pcp : Nat → Pcp
  hold : Nat → Hold
  zeroPage : Nat

def FrameWorld.boot (cfg : PcpConfig) (boot : PmmState) : FrameWorld :=
  ⟨seeded cfg.toPmmConfig boot,fun _ => .empty,fun _ => .idle,0⟩

variable (cfg : PcpConfig) (w : FrameWorld) (frame : Nat)

def FrameWorld.setCpu (cpu : Nat) (p : Pcp) (s : PmmState) : FrameWorld :=
  { w with glob := s, pcp := update w.pcp cpu p }

def FrameWorld.setHold (h : Hold) : FrameWorld := { w with hold := update w.hold frame h }

def FrameWorld.setGlob (s : PmmState) : FrameWorld := { w with glob := s }

inductive FrameEvent where
  | alloc (cpu here : Nat)
  | clear (frame : Nat)
  | allocSlow (here count : Nat)
  | ref (frame : Nat)
  | drop (frame : Nat)
  | park (cpu frame : Nat) (hidden : Nat → Bool)
  | parkEarly (frame : Nat) (hidden : Nat → Bool)
  | drain (cpu : Nat) (hidden : Nat → Bool)
  | scrub (cpu : Nat) (hidden : Nat → Bool)
  | write (frame : Nat) (page : Fin 512 → Nat)
  | notePageTable (frame : Nat) (owned : Bool)
  | keepZeroPage (frame : Nat)

abbrev StepResult := Option (FrameWorld × Option (Nat × Nat))

def allocStep (cpu here : Nat) : StepResult :=
  (pmmPcpAlloc cfg.toPmmConfig here (w.pcp cpu) w.glob).map fun r =>
    match r.1 with
    | .ready frame => ((w.setCpu cpu r.2.1 r.2.2).setHold frame (.owned 1), some (frame, 1))
    | .unzeroed frame => ((w.setCpu cpu r.2.1 r.2.2).setHold frame .clearing, none)
    | .empty => (w.setCpu cpu r.2.1 r.2.2, none)

def allocSlowStep (here count : Nat) : StepResult :=
  (pmmAllocAttempt cfg.toPmmConfig here count w.glob).map fun r =>
    if r.1 = 0 then (w.setGlob r.2, none)
    else
      ({ w with
        glob := r.2
        hold := fun f => if r.1 ≤ f ∧ f < r.1 + max 1 count then .owned 1 else w.hold f },
        some (r.1, max 1 count))

def refStep : StepResult :=
  match w.hold frame with
  | .owned n => (pmmRefFrame frame w.glob).map fun s =>
    ((w.setGlob s).setHold frame (.owned (n + 1)), none)
  | _ => none

def dropStep : StepResult :=
  if w.zeroPage ≠ 0 ∧ frame = w.zeroPage then some (w, none)
  else if cfg.frameCount ≤ frame then some (w, none)
  else
    match w.hold frame with
    | .owned n => (pmmDropRef frame w.glob).map fun r =>
      ((w.setGlob r.2).setHold frame (if r.1 then .parking else .owned (n - 1)), none)
    | _ => none

def frameStep : FrameEvent → StepResult
  | .alloc cpu here => if cpu < cfg.maxCpus then allocStep cfg w cpu here else none
  | .clear frame =>
    if w.hold frame = .clearing then
      some ((w.setGlob (zeroFrames frame 1 w.glob)).setHold frame (.owned 1), some (frame, 1))
    else none
  | .allocSlow here count => allocSlowStep cfg w here count
  | .ref frame => refStep w frame
  | .drop frame => dropStep cfg w frame
  | .park cpu frame hidden =>
    if cpu < cfg.maxCpus ∧ w.hold frame = .parking then
      (pmmParkFrame cfg.toPmmConfig cfg.poison hidden frame (w.pcp cpu) w.glob).map fun r =>
        ((w.setCpu cpu r.1 r.2).setHold frame .idle, none)
    else none
  | .parkEarly frame hidden =>
    if w.hold frame = .parking ∧ hidden frame = false then
      some ((w.setGlob (markFrameFree cfg.toPmmConfig frame w.glob)).setHold frame .idle, none)
    else none
  | .drain cpu hidden =>
    if cpu < cfg.maxCpus then
      (pmmPcpDrain cfg.toPmmConfig hidden (w.pcp cpu) w.glob).map fun r =>
        (w.setCpu cpu r.1 r.2, none)
    else none
  | .scrub cpu hidden =>
    if cpu < cfg.maxCpus then
      (pmmScrubQuarantine cfg.toPmmConfig hidden pmmPcpQScrub (w.pcp cpu) w.glob).map fun r =>
        (w.setCpu cpu r.1 r.2, none)
    else none
  | .write frame page =>
    match w.hold frame with
    | .owned _ => some (w.setGlob { w.glob with mem := update w.glob.mem frame page },
        none)
    | _ => none
  | .notePageTable frame owned =>
    some (w.setGlob { w.glob with ptFrames := update w.glob.ptFrames frame owned },
      none)
  | .keepZeroPage frame =>
    match w.hold frame with
    | .owned _ => if w.zeroPage = 0 then some ({ w with zeroPage := frame }, none) else none
    | _ => none

def FrameRun (boot : PmmState) : FrameWorld → Prop :=
  Reach (· = FrameWorld.boot cfg boot)
    (fun w e w' => ∃ handed, frameStep cfg w e = some (w', handed))

end B1nix.Mm
