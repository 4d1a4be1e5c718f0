import B1nix.Basic.Transition

namespace B1nix.Eventfd

open Transition Nat

def eventfdMax : UInt64 := 0xfffffffffffffffe

variable (semaphore : Bool)

def eventfdRead (count : UInt64) : Option (UInt64 × UInt64) :=
  if count = 0 then none
  else if semaphore then some (1, count - 1)
  else some (count, 0)

def eventfdWrite (add count : UInt64) : Option UInt64 :=
  if add = 0xffffffffffffffff then none
  else if count + add ≤ eventfdMax then some (count + add)
  else none

def vfsEventfdSignal (n count : UInt64) : UInt64 × UInt64 :=
  let n := if eventfdMax - count < n then eventfdMax - count else n
  (n, count + n)

def vfsEventfdTake (count : UInt64) : UInt64 × UInt64 :=
  let out := if semaphore ∧ count ≠ 0 then 1 else count
  (out, count - out)

-- The totals are over the integers: what was accepted, and what reads and takes returned.
structure State where
  semaphore : Bool
  count : UInt64
  added : Nat
  returned : Nat

def vfsEventfd (initval : UInt32) : State := ⟨semaphore,initval.toUInt64,initval.toNat,0⟩

inductive Event where
  | read
  | write (add : UInt64)
  | signal (n : UInt64)
  | take

variable (s : State)

def step : Event → State
  | .read => match eventfdRead s.semaphore s.count with
    | none => s
    | some (out, count) => { s with count, returned := s.returned + out.toNat }
  | .write add => match eventfdWrite add s.count with
    | none => s
    | some count => { s with count, added := s.added + add.toNat }
  | .signal n =>
    let (n, count) := vfsEventfdSignal n s.count
    { s with count, added := s.added + n.toNat }
  | .take =>
    let (out, count) := vfsEventfdTake s.semaphore s.count
    { s with count, returned := s.returned + out.toNat }

structure Conserved (s : State) : Prop where
  total : s.count.toNat + s.returned = s.added
  bounded : s.count.toNat ≤ eventfdMax.toNat

def Completes : Event → Prop
  | .write add => (eventfdWrite add s.count).isSome → s.count.toNat + add.toNat ≤ eventfdMax.toNat
  | _ => True

def Exact (e : Event) : Prop := Completes s e ∧ Conserved (step s e)

def Fits : Event → Prop
  | .write add => add = 0xffffffffffffffff ∨ s.count.toNat + add.toNat < 2 ^ 64
  | _ => True

variable {s : State}

lemma Conserved.start (initval : UInt32) : Conserved (vfsEventfd semaphore initval) := by
  have hlt := initval.toNat_lt
  refine ⟨rfl,?_⟩
  change initval.toNat ≤ 2 ^ 64 - 2
  omega

lemma Conserved.add (h : Conserved s) {n : UInt64} (hn : s.count.toNat + n.toNat ≤ eventfdMax.toNat) :
    Conserved { s with count := s.count + n, added := s.added + n.toNat } := by
  have hsum : (s.count + n).toNat = s.count.toNat + n.toNat :=
    (UInt64.toNat_add ..).trans (mod_eq_of_lt (hn.trans_lt (by decide)))
  refine ⟨?_,hsum.le.trans hn⟩
  dsimp only
  rw [hsum,← h.total,add_right_comm]

lemma Conserved.remove (h : Conserved s) {out : UInt64} (hout : out.toNat ≤ s.count.toNat) :
    Conserved { s with count := s.count - out, returned := s.returned + out.toNat } := by
  have hdiff := UInt64.toNat_sub_of_le _ _ (UInt64.le_iff_toNat_le.mpr hout)
  have htot := h.total
  refine ⟨?_,(hdiff.le.trans (sub_le ..)).trans h.bounded⟩
  dsimp only
  omega

lemma one_le {count : UInt64} (h : count ≠ 0) : (1 : UInt64).toNat ≤ count.toNat :=
  one_le_iff_ne_zero.mpr fun hze => h (UInt64.toNat_inj.mp hze)

lemma Conserved.exact_iff (h : Conserved s) (e : Event) : Exact s e ↔ Fits s e := by
  have hbd := h.bounded
  cases e with
  | read =>
    refine iff_of_true ⟨trivial,?_⟩ trivial
    dsimp only [step]
    rw [eventfdRead]
    split_ifs with hze hsem
    · exact h
    · exact h.remove (one_le hze)
    simpa using h.remove le_rfl
  | take =>
    refine iff_of_true ⟨trivial,h.remove ?_⟩ trivial
    split_ifs with hsem
    · exact one_le hsem.2
    exact le_rfl
  | signal n =>
    refine iff_of_true ⟨trivial,h.add ?_⟩ trivial
    have hro := UInt64.toNat_sub_of_le _ _ (UInt64.le_iff_toNat_le.mpr hbd)
    split_ifs with hn <;> rw [UInt64.lt_iff_toNat_lt] at hn <;> omega
  | write add =>
    dsimp only [Exact,Completes,Fits,step]
    have hlt := add.toNat_lt
    rw [eventfdWrite]
    have hmax : eventfdMax.toNat = 2 ^ 64 - 2 := rfl
    by_cases hones : add = 0xffffffffffffffff
    · simp [hones,h]
    rw [or_iff_right hones,if_neg hones]
    split_ifs with hle <;> rw [UInt64.le_iff_toNat_le,UInt64.toNat_add] at hle
    · refine ⟨fun hex => (hex.1 rfl).trans_lt (by decide),fun hft => ?_⟩
      rw [mod_eq_of_lt hft] at hle
      exact ⟨fun _ => hle,h.add hle⟩
    refine iff_of_true ⟨by simp,h⟩ ?_
    have hadd : add.toNat ≠ 2 ^ 64 - 1 := fun heq => hones (UInt64.toNat_inj.mp heq)
    omega

theorem count_exact_iff (semaphore : Bool) (initval : UInt32) (events : List Event) :
    Along Exact step (vfsEventfd semaphore initval) events ↔
      Along Fits step (vfsEventfd semaphore initval) events :=
  Along.congr (P := Conserved) (fun _ e h => h.exact_iff e) (fun _ e h hft => ((h.exact_iff e).mpr hft).2)
    (.start semaphore initval)

theorem wrapped_write : ¬Exact (vfsEventfd false 5) (.write 0xfffffffffffffffd) := fun h =>
  absurd (h.1 rfl) (by decide)

end B1nix.Eventfd
