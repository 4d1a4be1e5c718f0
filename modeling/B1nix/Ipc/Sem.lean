import Mathlib

namespace B1nix.Sem

open Function List

def semmni : Nat := 32
def semvmx : Int := 32767

structure SemSlot where
  used : Bool
  ns : Nat
  nsems : Nat
  vals : Nat → Nat

structure SemUndo where
  pid : Nat
  semid : Nat
  semnum : Nat
  adjust : Int
deriving DecidableEq

structure SemState where
  sets : Nat → SemSlot
  undo : List (Option SemUndo)

def semIdValid (ns : Nat) (sets : Nat → SemSlot) (semid : Nat) : Bool :=
  semid < semmni && (sets semid).used && (sets semid).ns == ns

def SemUndo.key (u : SemUndo) : Nat × Nat := (u.semid, u.semnum)

def SemUndo.live (ns : Nat) (sets : Nat → SemSlot) (u : SemUndo) : Bool :=
  semIdValid ns sets u.semid && u.semnum < (sets u.semid).nsems

def giveTo (val : Nat) (adjust : Int) : Nat :=
  (max 0 (min semvmx (Int.bmod (val + adjust) (2 ^ 32)))).toNat

def giveBack (ns : Nat) (s : (Nat → SemSlot) × Option Nat) (u : SemUndo) :
    (Nat → SemSlot) × Option Nat :=
  if u.live ns s.1 then
    let slot := s.1 u.semid
    (update s.1 u.semid { slot with
      vals := update slot.vals u.semnum (giveTo (slot.vals u.semnum) u.adjust) }, some u.semid)
  else s

def owed (pid : Nat) (undo : List (Option SemUndo)) : List SemUndo :=
  undo.filterMap (·.filter (·.pid = pid))

def sysvSemTaskCleanup (pid ns : Nat) (s : SemState) : SemState × Option Nat :=
  let r := (owed pid s.undo).foldl (giveBack ns) (s.sets, none)
  ({ sets := r.1, undo := s.undo.map (·.filter (·.pid ≠ pid)) }, r.2)

def WakesChanged (s : SemState) (r : SemState × Option Nat) : Prop :=
  ∀ i n, (r.1.sets i).vals n ≠ (s.sets i).vals n → r.2 = some i

section

variable {ns : Nat} {s : (Nat → SemSlot) × Option Nat} {us : List SemUndo} {u : SemUndo}

lemma giveBack_live (u v : SemUndo) : v.live ns (giveBack ns s u).1 = v.live ns s.1 := by
  unfold giveBack
  split
  · by_cases h : v.semid = u.semid <;> simp [SemUndo.live,semIdValid,h]
  rfl

lemma giveBack_woke (us : List SemUndo) (s : (Nat → SemSlot) × Option Nat) :
    (us.foldl (giveBack ns) s).2 =
      (((us.filter (·.live ns s.1)).getLast?.map (·.semid)).or s.2) := by
  induction us generalizing s with
  | nil => rfl
  | cons u us ih =>
    simp only [foldl_cons,ih,giveBack_live,filter_cons]
    unfold giveBack
    split
    · simp [getLast?_cons]
    rfl

lemma giveBack_vals (u : SemUndo) (i n : Nat) : ((giveBack ns s u).1 i).vals n =
    if u.live ns s.1 ∧ u.semid = i ∧ u.semnum = n then giveTo ((s.1 i).vals n) u.adjust
    else (s.1 i).vals n := by
  unfold giveBack
  split
  · next hli =>
    obtain rfl | hi := eq_or_ne u.semid i
    · by_cases hn : u.semnum = n
      · simp [hli,hn]
      simp [hn,update_of_ne (Ne.symm hn)]
    simp [hi,update_of_ne (Ne.symm hi)]
  next hde => simp [hde]

lemma vals_kept {i n : Nat} (h : ∀ u ∈ us, u.live ns s.1 → u.key ≠ (i, n)) :
    ((us.foldl (giveBack ns) s).1 i).vals n = (s.1 i).vals n := by
  induction us generalizing s with
  | nil => rfl
  | cons u us ih =>
    have hu := h u (.head us)
    rw [foldl_cons,ih,giveBack_vals,if_neg]
    · rintro ⟨hli,rfl,rfl⟩
      exact hu hli rfl
    intro v hv hli
    exact h v (.tail u hv) (giveBack_live u v ▸ hli)

lemma vals_given (hks : (us.map SemUndo.key).Nodup) (hu : u ∈ us)
    (hli : u.live ns s.1) : ((us.foldl (giveBack ns) s).1 u.semid).vals u.semnum =
      giveTo ((s.1 u.semid).vals u.semnum) u.adjust := by
  induction us generalizing s with
  | nil => cases hu
  | cons v us ih =>
    obtain ⟨hfr,hks⟩ := nodup_cons.mp hks
    rw [foldl_cons]
    obtain rfl | hu := mem_cons.mp hu
    · rw [vals_kept,giveBack_vals,if_pos ⟨hli,rfl,rfl⟩]
      exact fun v hv _ heq => hfr (mem_map.mpr ⟨v,hv,heq⟩)
    rw [ih hks hu ((giveBack_live v u).trans hli),giveBack_vals,if_neg]
    rintro ⟨-,hid,hnum⟩
    exact hfr (mem_map.mpr ⟨u,hu,Prod.ext hid.symm hnum.symm⟩)

end

theorem cleanup_wakes_iff {pid ns : Nat} {s : SemState}
    (hkeys : ((owed pid s.undo).map SemUndo.key).Nodup) :
    WakesChanged s (sysvSemTaskCleanup pid ns s) ↔
      let live := (owed pid s.undo).filter (·.live ns s.sets)
      ∀ u ∈ live, giveTo ((s.sets u.semid).vals u.semnum) u.adjust ≠
        (s.sets u.semid).vals u.semnum → live.getLast?.map (·.semid) = some u.semid := by
  have hwoke : (sysvSemTaskCleanup pid ns s).2 = _ := giveBack_woke (owed pid s.undo) (s.sets, none)
  rw [Option.or_none] at hwoke
  rw [WakesChanged,hwoke]
  constructor
  · intro h live u hu hmvs
    obtain ⟨hmem,hli⟩ := mem_filter.mp hu
    refine h u.semid u.semnum fun hsa => hmvs ?_
    exact (vals_given (s := (s.sets, none)) hkeys hmem hli).symm.trans hsa
  intro h i n hmv
  by_contra hla
  refine hmv (vals_kept fun u hmem hli heq => hla ?_)
  cases heq
  refine h u (mem_filter.mpr ⟨hmem,hli⟩) fun hsa => hmv ?_
  exact (vals_given hkeys hmem hli).trans hsa

def heldBy (pid : Nat) (semids : List Nat) : SemState :=
  ⟨fun _ => ⟨true,0,1,fun _ => 0⟩,semids.map fun i => some ⟨pid,i,0,1⟩⟩

theorem cleanup_wakes_single : WakesChanged (heldBy 7 [4]) (sysvSemTaskCleanup 7 0 (heldBy 7 [4])) :=
  (cleanup_wakes_iff (by decide)).mpr (by decide)

theorem cleanup_misses_first :
    let r := sysvSemTaskCleanup 7 0 (heldBy 7 [4,5])
    (r.1.sets 4).vals 0 = 1 ∧ (r.1.sets 5).vals 0 = 1 ∧ r.2 = some 5 := by
  decide

def semopDeadline (hz entry timeoutMs : Nat) : Nat :=
  (entry + timeoutMs * hz % 2 ^ 64 / 1000 + 1) % 2 ^ 64

def schedulerBlockOnTimeout (ticks timeoutTicks : Nat) : Option Nat :=
  if timeoutTicks = 0 then none else some ((ticks + timeoutTicks) % 2 ^ 64)

def timedSleeps (hz entry timeoutMs : Nat) (nows : List Nat) : List (Option Nat) :=
  nows.map fun now => schedulerBlockOnTimeout now (semopDeadline hz entry timeoutMs)

def InTime (hz entry timeoutMs : Nat) (wake : Option Nat) : Prop :=
  ∃ tick, wake = some tick ∧ tick ≤ entry + timeoutMs * hz / 1000 + 1

theorem timed_sleeps_in_time_iff {hz entry timeoutMs : Nat} {nows : List Nat}
    (hfits : ∀ now ∈ nows, now + entry + timeoutMs * hz + 1 < 2 ^ 64) :
    (∀ wake ∈ timedSleeps hz entry timeoutMs nows, InTime hz entry timeoutMs wake) ↔
      ∀ now ∈ nows, now = 0 := by
  rw [timedSleeps,forall_mem_map]
  refine forall₂_congr fun now hnow => ?_
  have hfit := hfits now hnow
  have hdl : semopDeadline hz entry timeoutMs = entry + timeoutMs * hz / 1000 + 1 := by
    rw [semopDeadline,Nat.mod_eq_of_lt (by omega),Nat.mod_eq_of_lt (by omega)]
  rw [hdl]
  constructor
  · rintro ⟨tick,heq,hle⟩
    cases heq
    omega
  intro h
  exact ⟨_,rfl,by omega⟩

theorem timed_sleep_at_boot : timedSleeps 1000 0 10 [0] = [some 11] ∧ InTime 1000 0 10 (some 11) :=
  ⟨by decide,(@timed_sleeps_in_time_iff 1000 0 10 [0] (by decide)).mpr (by decide) _ (by decide)⟩

theorem timed_sleep_late : timedSleeps 1000 5000 10 [5000] = [some 10011] ∧
    ¬InTime 1000 5000 10 (some 10011) :=
  ⟨by decide,fun ⟨_,heq,hle⟩ => absurd (Option.some.inj heq ▸ hle) (by decide)⟩

end B1nix.Sem
