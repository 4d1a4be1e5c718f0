import Mathlib

namespace B1nix.Ksym

open Function

structure Entry where
  addr : Nat
  name : Nat

variable (idx : Nat → Entry) (blob : List UInt8) (addr : Nat)

def u64At (p : Nat) : Nat := ((blob.drop p).take 8).foldr (fun b a => b.toNat + 256 * a) 0

-- What the loops of ksym_scan, ksym_count and ksym_index_init read; a name is the offset of its first byte.
def records (p : Nat) : List Entry :=
  if p + 8 < blob.length then
    ⟨u64At blob p,p + 8⟩ :: records (p + 8 + ((blob.drop (p + 8)).takeWhile (· ≠ 0)).length + 1)
  else []
termination_by blob.length - p

-- best_addr and best_name
def better (b : Nat × Option Nat) (e : Entry) : Nat × Option Nat :=
  if e.addr ≤ addr ∧ b.1 ≤ e.addr then (e.addr, some e.name) else b

def ksymScan : Option (Nat × Nat) :=
  let b := (records blob 0).foldl (better addr) (0, none)
  b.2.map fun name => (name, addr - b.1)

def ksymCount : Nat := (records blob 0).length

def place (e : Entry) (idx : Nat → Entry) : Nat → Nat → Entry
  | 0 => update idx 0 e
  | j + 1 => if e.addr < (idx j).addr then place e (update idx (j + 1) (idx j)) j else update idx (j + 1) e

structure Index where
  entries : Option (Nat → Entry)
  n : Nat
  tried : Bool

-- kmalloc gives nothing or memory of any content.
def ksymIndexInit (s : Index) (kmalloc : Option (Nat → Entry)) : Index :=
  if s.tried then s
  else if ksymCount blob = 0 then { s with tried := true }
  else match kmalloc with
    | none => { s with tried := true }
    | some m =>
      let r := ((records blob 0).take (ksymCount blob)).foldl
        (fun r e => (place e r.1 r.2, r.2 + 1)) (m, 0)
      ⟨some r.1,r.2,true⟩

def bisect (lo hi best : Nat) : Nat :=
  if lo < hi then
    let mid := lo + (hi - lo) / 2
    if (idx mid).addr ≤ addr then bisect (mid + 1) hi mid else bisect lo mid best
  else best
termination_by hi - lo

def ksymLookup (s : Index) (addr : Nat) : Option (Nat × Nat) :=
  match s.entries with
  | none => ksymScan blob addr
  | some idx =>
    let best := bisect idx addr 0 s.n s.n
    if s.n ≤ best then none else some ((idx best).name, addr - (idx best).addr)

-- The first c of the n entries are at or below the address.
def Cut (n addr c : Nat) : Prop := c ≤ n ∧ ∀ k < n, (idx k).addr ≤ addr ↔ k < c

def last : Nat → Nat × Option Nat
  | 0 => (0, none)
  | c + 1 => ((idx c).addr, some (idx c).name)

-- The scan's answer after the same records is the last entry of the cut.
def Agrees (n : Nat) (best : Nat → Nat × Option Nat) : Prop :=
  ∀ addr, ∃ c, Cut idx n addr c ∧ best addr = last idx c

variable {idx : Nat → Entry} {e : Entry} {n addr c : Nat} {best : Nat → Nat × Option Nat}
  {s : Index}

lemma place_apply (hc : Cut idx n e.addr c) (k : Nat) : place e idx n k =
    if k < c then idx k else if k = c then e else if k ≤ n then idx (k - 1) else idx k := by
  obtain ⟨hn,hc⟩ := hc
  induction n generalizing idx with
  | zero =>
    rw [place]
    grind
  | succ j ih =>
    have hj := hc j (by omega)
    rw [place]
    split
    · rw [ih (by omega) fun k hk => by grind]
      grind
    · grind

lemma Agrees.place (h : Agrees idx n best) (e : Entry) :
    Agrees (place e idx n) (n + 1) fun a => better a (best a) e := by
  intro a
  obtain ⟨c,⟨hn,hc⟩,hb⟩ := h a
  obtain ⟨d,hd,-⟩ := h e.addr
  have hp := place_apply hd
  obtain ⟨hdn,hd⟩ := hd
  dsimp only
  rw [hb,better]
  by_cases hle : e.addr ≤ a
  · have hdc : d ≤ c := by grind
    refine ⟨c + 1,⟨by omega,fun k hk => by grind⟩,?_⟩
    cases c with
    | zero => grind [last]
    | succ c => grind [last]
  · have hcd : c ≤ d := by grind
    refine ⟨c,⟨by omega,fun k hk => by grind⟩,?_⟩
    cases c with
    | zero => grind [last]
    | succ c => grind [last]

lemma bisect_cut (hc : Cut idx n addr c) {lo hi : Nat} (hlo : lo ≤ c) (hhi : c ≤ hi) (hn : hi ≤ n) :
    bisect idx addr lo hi (if lo = 0 then n else lo - 1) = if c = 0 then n else c - 1 := by
  generalize hb : (if lo = 0 then n else lo - 1) = best
  fun_induction bisect idx addr lo hi best with
  | case1 lo hi best hlt mid hm ih =>
    have := (hc.2 mid (by omega)).mp hm
    exact ih this hhi hn rfl
  | case2 lo hi best hlt mid hm ih =>
    have := (hc.2 mid (by omega)).not.mp hm
    exact ih hlo (by omega) (by omega) hb
  | case3 lo hi best hlt =>
    obtain rfl : lo = c := by omega
    exact hb.symm

lemma agrees_foldl (es : List Entry) (h : Agrees idx n best) :
    let r := es.foldl (fun r e => (place e r.1 r.2, r.2 + 1)) (idx, n)
    Agrees r.1 r.2 fun a => es.foldl (better a) (best a) := by
  induction es generalizing idx n best with
  | nil => exact h
  | cons e es ih => exact ih (h.place e)

def Sound (blob : List UInt8) (s : Index) : Prop :=
  ∀ idx ∈ s.entries, Agrees idx s.n fun a => (records blob 0).foldl (better a) (0, none)

lemma Sound.ksymIndexInit {blob : List UInt8} (h : Sound blob s)
    (kmalloc : Option (Nat → Entry)) : Sound blob (ksymIndexInit blob s kmalloc) := by
  unfold Ksym.ksymIndexInit
  split
  · exact h
  split
  · exact h
  cases kmalloc with
  | none => exact h
  | some m =>
    rintro idx ⟨⟩
    rw [ksymCount,List.take_length]
    exact agrees_foldl _ fun a => ⟨0,⟨le_rfl,by simp⟩,rfl⟩

lemma Sound.ksymLookup {blob : List UInt8} (h : Sound blob s) (addr : Nat) :
    ksymLookup blob s addr = ksymScan blob addr := by
  rw [Ksym.ksymLookup]
  cases hs : s.entries with
  | none => rfl
  | some idx =>
    obtain ⟨c,hc,hb⟩ := h idx hs addr
    have hbi := bisect_cut hc c.zero_le hc.1 le_rfl
    rw [if_pos rfl] at hbi
    dsimp only at hb ⊢
    rw [ksymScan,hb,hbi]
    cases c with
    | zero => simp [last]
    | succ c => simp [last,Nat.not_le.mpr hc.1]

theorem ksymLookup_eq_scan (blob : List UInt8) (calls : List (Option (Nat → Entry))) (addr : Nat) :
    ksymLookup blob (calls.foldl (ksymIndexInit blob) ⟨none,0,false⟩) addr = ksymScan blob addr := by
  have h := List.foldlRecOn (motive := Sound blob) calls (ksymIndexInit blob) (b := ⟨none,0,false⟩)
    (fun _ h => nomatch h) fun _ h m _ => h.ksymIndexInit m
  exact h.ksymLookup addr

end B1nix.Ksym
