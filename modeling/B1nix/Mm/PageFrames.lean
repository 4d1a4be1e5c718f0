import Mathlib

namespace B1nix.PageFrames

open Function List

abbrev Key := UInt32 × UInt64 × UInt64

inductive Holder where
  | filler
  | entry (k : Key) (orphan : Bool)
  | mapping
  deriving DecidableEq

structure State where
  refcounts : Nat → Nat
  holders : List (Holder × Nat)

variable (s : State) (f : Nat) (h : Holder)

def pmmAllocFrame (s : State) : State := ⟨update s.refcounts f 1,(.filler,f) :: s.holders⟩

def pmmRefFrame (f : Nat) (s : State) : State :=
  ⟨update s.refcounts f (s.refcounts f + 1),(h,f) :: s.holders⟩

def pmmFreeFrame (f : Nat) (s : State) : State :=
  ⟨update s.refcounts f (s.refcounts f - 1),s.holders.erase (h,f)⟩

def State.pass (h' : Holder) : State := { s with holders := (h',f) :: s.holders.erase (h,f) }

def pageCacheGetPage (k : Key) (s : State) : Option Nat :=
  (s.holders.find? (·.1 = .entry k false)).map (·.2)

inductive Added where
  | added
  | enomem
  | eexist

def pageCacheAddPage (memory : Bool) (k : Key) (f : Nat) (s : State) : Added × State :=
  if !memory then (.enomem,s)
  else if (pageCacheGetPage k s).isSome then (.eexist,s)
  else (.added,pmmRefFrame (.entry k false) f s)

def fill (k : Key) (f : Nat) (read memory : Bool) (s : State) : State :=
  if !read then pmmFreeFrame .filler f s
  else match pageCacheAddPage memory k f s with
    | (.added, s) => s
    | (_, s) => pmmFreeFrame .filler f s

def pageCacheFaultInstall (memory : Bool) (evicted : Nat → Bool) (k : Key) (f : Nat) :
    Nat → State → State
  | 0, s => s.pass f .filler .mapping
  | n + 1, s => match pageCacheAddPage memory k f s with
    | (.added, s) => pmmRefFrame .mapping f s
    | (.enomem, s) => s.pass f .filler .mapping
    | (.eexist, s) => match evicted n, pageCacheGetPage k s with
      | false, some g => pmmRefFrame .mapping g (pmmFreeFrame .filler f s)
      | _, _ => pageCacheFaultInstall memory evicted k f n s

inductive Event where
  | fill (k : Key) (f : Nat) (read memory : Bool)
  | fault (k : Key) (f : Nat) (memory : Bool) (evicted : Nat → Bool)
  | hit (k : Key)
  | orphan (k : Key) (f : Nat)
  | release (h : Holder) (f : Nat)

def step : Event → State
  | .fill k f read memory => if s.refcounts f = 0 then fill k f read memory (pmmAllocFrame f s) else s
  | .fault k f memory evicted =>
    if s.refcounts f = 0 then pageCacheFaultInstall memory evicted k f 4 (pmmAllocFrame f s) else s
  | .hit k => (pageCacheGetPage k s).elim s fun f => pmmRefFrame .mapping f s
  | .orphan k f =>
    if (.entry k false,f) ∈ s.holders then s.pass f (.entry k false) (.entry k true) else s
  | .release h f => if h ≠ .filler ∧ (h,f) ∈ s.holders then pmmFreeFrame h f s else s

def State.Held : Prop := ∃ x ∈ s.holders, x.1 ≠ .filler ∧ x.2 = f

def Balanced : Prop := ∀ f, s.refcounts f = (s.holders.map (·.2)).count f

variable {s t : State} {f : Nat} {k : Key} {memory read : Bool} {h h' : Holder}

section

variable (hs : Balanced s)

include hs

lemma Balanced.ref : Balanced (pmmRefFrame h f s) := by
  intro g
  rw [pmmRefFrame,map_cons,count_cons,← hs g]
  obtain rfl | hg := eq_or_ne f g
  · simp
  simp [hg,Ne.symm hg]

lemma Balanced.alloc (hf : s.refcounts f = 0) : Balanced (pmmAllocFrame f s) := by
  have href : pmmAllocFrame f s = pmmRefFrame .filler f s := by rw [pmmAllocFrame,pmmRefFrame,hf]
  exact href ▸ hs.ref

section

variable (hf : (h,f) ∈ s.holders)

include hf

lemma Balanced.split (g : Nat) :
    s.refcounts g = ((s.holders.erase (h,f)).map (·.2)).count g + if f = g then 1 else 0 := by
  rw [hs g,((perm_cons_erase hf).map _).count_eq g,map_cons,count_cons]
  simp

lemma Balanced.free : Balanced (pmmFreeFrame h f s) := by
  intro g
  have hg := hs.split hf g
  obtain rfl | hfg := eq_or_ne f g
  · simp [pmmFreeFrame,hg]
  simpa [pmmFreeFrame,hfg,Ne.symm hfg] using hg

lemma Balanced.pass : Balanced (s.pass f h h') := by
  intro g
  rw [State.pass,map_cons,count_cons]
  simpa using hs.split hf g

end

lemma Balanced.fill (hf : (.filler,f) ∈ s.holders) :
    Balanced (fill k f read memory s) := by
  rw [PageFrames.fill,pageCacheAddPage]
  split
  · exact hs.free hf
  cases memory with
  | false => exact hs.free hf
  | true =>
    cases (pageCacheGetPage k s).isSome with
    | false => exact hs.ref
    | true => exact hs.free hf

lemma Balanced.install {evicted : Nat → Bool} (n : Nat) (hf : (.filler,f) ∈ s.holders) :
    Balanced (pageCacheFaultInstall memory evicted k f n s) := by
  induction n with
  | zero => exact hs.pass hf
  | succ n ih =>
    rw [pageCacheFaultInstall,pageCacheAddPage]
    cases memory with
    | false => exact hs.pass hf
    | true =>
      cases (pageCacheGetPage k s).isSome with
      | false => exact hs.ref.ref
      | true =>
        change Balanced (match evicted n, pageCacheGetPage k s with
          | false, some _ => _
          | _, _ => _)
        split
        · exact (hs.free hf).ref
        exact ih

lemma Balanced.ite {p : Prop} [Decidable p] (ht : p → Balanced t) : Balanced (if p then t else s) := by
  split
  · next hp => exact ht hp
  exact hs

lemma Balanced.step (e : Event) : Balanced (step s e) := by
  cases e with
  | fill => exact hs.ite fun hf => (hs.alloc hf).fill mem_cons_self
  | fault => exact hs.ite fun hf => (hs.alloc hf).install 4 mem_cons_self
  | hit k =>
    rw [PageFrames.step]
    cases pageCacheGetPage k s with
    | none => exact hs
    | some => exact hs.ref
  | orphan => exact hs.ite hs.pass
  | release => exact hs.ite fun hf => hs.free hf.2

end

def unused : State := ⟨fun _ => 0,[]⟩

end B1nix.PageFrames
