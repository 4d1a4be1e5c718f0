import B1nix.Basic.Transition

namespace B1nix.Futex

open Function Transition Nat Prod

structure Key where
  pml4 : Nat
  uaddr : Nat
deriving DecidableEq, Repr

def futexBuckets : Nat := 64

def futexHash (k : Key) : Nat :=
  (k.pml4 / 2 ^ 12 ^^^ (k.uaddr / 2 ^ 2 ^^^ k.uaddr / 2 ^ 14)) % futexBuckets

structure Waiter where
  key : Key
  taskId : Nat
  woken : Bool
  bucket : Nat
  expect : Int
  wakesSeen : Nat
deriving DecidableEq, Repr

inductive Phase where
  | free
  | parked
  | own (h : Nat)
  | sweep (h : Nat)
deriving DecidableEq, Repr

structure FutexState where
  waiter : Nat → Waiter
  bucket : Nat → List Nat
  phase : Nat → Phase
  waking : Nat → Option (Key × Nat)
  word : Nat → Option Int

inductive Errno where
  | einval
  | efault
  | eagain
deriving DecidableEq, Repr

variable (call w : Nat) (key1 key2 key : Key) (s : FutexState) (encoded old : BitVec 32)

def setPhase (p : Phase) (s : FutexState) : FutexState := { s with phase := update s.phase w p }

def waitLink (task : Nat) (key : Key) (val : Int) (s : FutexState) : FutexState :=
  { s with
    waiter := update s.waiter w ⟨key,task,false,futexHash key,val,0⟩
    bucket := update s.bucket (futexHash key) (w :: s.bucket (futexHash key))
    phase := update s.phase w .parked }

def futexWait (task uaddr : Nat) (key : Key) (val : Int) (s : FutexState) :
    Except Errno FutexState :=
  if uaddr % 4 ≠ 0 then .error .einval
  else
    match s.word uaddr with
    | none => .error .efault
    | some cur => if cur ≠ val then .error .eagain else .ok (waitLink w task key val s)

def removeFrom (h : Nat) (s : FutexState) : FutexState :=
  { s with bucket := update s.bucket h ((s.bucket h).erase w) }

def futexUnlinkStep : FutexState :=
  match s.phase w with
  | .own h =>
    if w ∈ s.bucket h then setPhase w .free (removeFrom w h s)
    else setPhase w (.sweep 0) s
  | .sweep h =>
    if w ∈ s.bucket h then setPhase w .free (removeFrom w h s)
    else if h + 1 < futexBuckets then setPhase w (.sweep (h + 1)) s
    else setPhase w .free s
  | _ => s

def futexResume : FutexState := setPhase w (.own (s.waiter w).bucket) s

def noteSeen : FutexState :=
  { s with waiter := fun w =>
      if w ∈ s.bucket (futexHash key) ∧ (s.waiter w).key.uaddr = key.uaddr then
        { s.waiter w with wakesSeen := (s.waiter w).wakesSeen + 1 }
      else s.waiter w }

def markWoken : FutexState :=
  let woken := { s.waiter w with woken := true }
  { s with waiter := update s.waiter w woken }

def firstMatch : Option Nat := (s.bucket (futexHash key)).find? fun w => (s.waiter w).key = key

def wakeOne : Option Nat × FutexState :=
  match firstMatch key s with
  | none => (none, s)
  | some w => (some w, markWoken w (removeFrom w (futexHash key) s))

def wakeSection (left : Nat) (s : FutexState) : FutexState :=
  let r := wakeOne key s
  let next := if r.1.isSome ∧ 1 < left then some (key, left - 1) else none
  { r.2 with waking := update r.2.waking call next }

def futexWake (val : Int) (s : FutexState) : FutexState :=
  if val ≤ 0 then s else wakeSection call key val.toNat (noteSeen key s)

def futexWakeMore : FutexState :=
  match s.waking call with
  | none => s
  | some (key, left) => wakeSection call key left s

def wakeLoop : Nat → FutexState → FutexState
  | 0, s => s
  | left + 1, s =>
    match wakeOne key s with
    | (none, s) => s
    | (some _, s) => wakeLoop left s

def futexWakeAlone (val : Int) (s : FutexState) : FutexState :=
  if val ≤ 0 then s else wakeLoop key val.toNat (noteSeen key s)

structure Moving where
  waiter : Nat → Waiter
  passed : List Nat
  rest : List Nat
  dest : List Nat

def requeueWalk (wake move : Nat) (m : Moving) : Moving :=
  match hrest : m.rest with
  | [] => m
  | w :: ws =>
    if (m.waiter w).key ≠ key1 then
      requeueWalk wake move { m with passed := m.passed ++ [w], rest := ws }
    else if 0 < wake then
      let woken := { m.waiter w with woken := true }
      requeueWalk (wake - 1) move
        { m with waiter := update m.waiter w woken, rest := ws }
    else if 0 < move then
      let moved := { m.waiter w with key := key2, bucket := futexHash key2 }
      let waiter := update m.waiter w moved
      if futexHash key1 ≠ futexHash key2 then
        requeueWalk 0 (move - 1)
          { m with waiter := waiter, rest := ws, dest := w :: m.dest }
      else if m.passed = [] then
        requeueWalk 0 (move - 1) { m with waiter := waiter }
      else
        requeueWalk 0 (move - 1)
          { m with waiter := waiter, passed := w :: m.passed, rest := ws }
    else m
termination_by wake + move + m.rest.length
decreasing_by
  all_goals
    simp only [hrest, List.length_cons]
    omega

def requeueStart : Moving where
  waiter := s.waiter
  passed := []
  rest := s.bucket (futexHash key1)
  dest := if futexHash key1 = futexHash key2 then [] else s.bucket (futexHash key2)

def requeueFinish (m : Moving) (s : FutexState) : FutexState :=
  let bucket := update s.bucket (futexHash key1) (m.passed ++ m.rest)
  { s with
    waiter := m.waiter
    bucket := if futexHash key1 = futexHash key2 then bucket
      else update bucket (futexHash key2) m.dest }

def futexRequeue (uaddr1 uaddr2 : Nat) (key1 key2 : Key) (nrWake nrRequeue : Int)
    (s : FutexState) : Except Errno FutexState :=
  if uaddr1 % 4 ≠ 0 ∨ uaddr2 % 4 ≠ 0 then .error .einval
  else
    .ok (requeueFinish key1 key2
      (requeueWalk key1 key2 nrWake.toNat nrRequeue.toNat (requeueStart key1 key2 s)) s)

inductive FutexEvent where
  | wait (w task uaddr : Nat) (key : Key) (val : Int)
  | resume (w : Nat)
  | unlink (w : Nat)
  | wake (call : Nat) (key : Key) (val : Int)
  | wakeMore (call : Nat)
  | requeue (uaddr1 uaddr2 : Nat) (key1 key2 : Key) (nrWake nrRequeue : Int)
  | store (uaddr : Nat) (val : Option Int)

def orUnchanged : Except Errno FutexState → FutexState
  | .ok s' => s'
  | .error _ => s

def futexStep : FutexEvent → FutexState
  | .wait w task uaddr key val => orUnchanged s (futexWait w task uaddr key val s)
  | .resume w => futexResume w s
  | .unlink w => futexUnlinkStep w s
  | .wake call key val => futexWake call key val s
  | .wakeMore call => futexWakeMore call s
  | .requeue uaddr1 uaddr2 key1 key2 nrWake nrRequeue =>
    orUnchanged s (futexRequeue uaddr1 uaddr2 key1 key2 nrWake nrRequeue s)
  | .store uaddr val => { s with word := update s.word uaddr val }

def FutexEvent.Enabled : FutexEvent → Prop
  | .wait w _ _ _ _ => s.phase w = .free
  | .resume w => s.phase w = .parked
  | .wake call _ _ => s.waking call = none
  | _ => True

def FutexStepped (e : FutexEvent) (s' : FutexState) : Prop := e.Enabled s ∧ s' = futexStep s e

structure FutexState.Initial (s : FutexState) : Prop where
  bucket : ∀ h, s.bucket h = []
  phase : ∀ w, s.phase w = .free
  waking : ∀ call, s.waking call = none

open List

variable {s s' : FutexState} {w h u task n : Nat} {key key1 key2 : Key}

structure Placed (s : FutexState) (h w : Nat) : Prop where
  bucket : (s.waiter w).bucket = h
  hash : futexHash (s.waiter w).key = h
  woken : (s.waiter w).woken = false
  live : s.phase w = .parked ∨ s.phase w = .own h

structure Queued (s : FutexState) : Prop where
  nodup : ∀ h, (s.bucket h).Nodup
  placed : ∀ h, ∀ w ∈ s.bucket h, Placed s h w
  linked : ∀ w, s.phase w = .parked ∨ (∃ h, s.phase w = .own h) →
    (s.waiter w).woken = false → w ∈ s.bucket (s.waiter w).bucket

lemma Placed.congr (hp : Placed s h w) (hwa : s'.waiter w = s.waiter w)
    (hph : s'.phase w = s.phase w) : Placed s' h w :=
  ⟨hwa ▸ hp.bucket,hwa ▸ hp.hash,hwa ▸ hp.woken,hph ▸ hp.live⟩

section

variable (hq : Queued s)

include hq

lemma Queued.not_linked (hpk : s.phase w ≠ .parked)
    (hown : ∀ h, s.phase w ≠ .own h) (h : Nat) : w ∉ s.bucket h := by
  intro hw
  obtain hp | hp := (hq.placed h w hw).live
  · exact hpk hp
  exact hown h hp

lemma Queued.one (w : Nat) (hnd : ∀ h, (s'.bucket h).Nodup)
    (hwa : ∀ u, u ≠ w → s'.waiter u = s.waiter u)
    (hph : ∀ u, u ≠ w → s'.phase u = s.phase u)
    (hmem : ∀ h u, u ≠ w → (u ∈ s'.bucket h ↔ u ∈ s.bucket h))
    (hpl : ∀ h, w ∈ s'.bucket h → Placed s' h w)
    (hlk : s'.phase w = .parked ∨ (∃ h, s'.phase w = .own h) →
      (s'.waiter w).woken = false → w ∈ s'.bucket (s'.waiter w).bucket) : Queued s' := by
  refine ⟨hnd,fun h u hu => ?_,fun u hli hwk => ?_⟩
  · obtain rfl | huw := eq_or_ne u w
    · exact hpl h hu
    exact (hq.placed h u ((hmem h u huw).mp hu)).congr (hwa u huw) (hph u huw)
  obtain rfl | huw := eq_or_ne u w
  · exact hlk hli hwk
  rw [hph u huw] at hli
  rw [hwa u huw] at hwk ⊢
  exact (hmem _ u huw).mpr (hq.linked u hli hwk)

lemma Queued.wait {val : Int} (hfe : s.phase w = .free) :
    Queued (waitLink w task key val s) := by
  have hnew := hq.not_linked (w := w) (by simp [hfe]) (by simp [hfe])
  refine hq.one w (fun h => ?_) (fun u hu => ?_) (fun u hu => ?_) (fun h u hu => ?_)
    (fun h hw => ?_) fun _ _ => ?_
  · simp only [waitLink,update_apply]
    split
    · exact nodup_cons.mpr ⟨hnew _,hq.nodup _⟩
    exact hq.nodup h
  · simp [waitLink,hu]
  · simp [waitLink,hu]
  · obtain rfl | hh := eq_or_ne h (futexHash key)
    · simp [waitLink,hu]
    simp [waitLink,hh]
  · have hh : h = futexHash key := by
      by_contra hne
      simp only [waitLink,update_of_ne hne] at hw
      exact hnew h hw
    subst hh
    exact ⟨by simp [waitLink],by simp [waitLink],by simp [waitLink],by simp [waitLink]⟩
  · simp [waitLink]

lemma Queued.rephase {p : Phase}
    (hpl : ∀ h, w ∈ s.bucket h → p = .parked ∨ p = .own h)
    (hlk : p = .parked ∨ (∃ h, p = .own h) → (s.waiter w).woken = false →
      w ∈ s.bucket (s.waiter w).bucket) : Queued (setPhase w p s) := by
  refine hq.one w hq.nodup (fun _ _ => rfl) (fun u hu => ?_) (fun _ _ _ => .rfl)
    (fun h hw => ?_) fun hli => ?_
  · simp [setPhase,hu]
  · obtain ⟨hb,hh,hk,-⟩ := hq.placed h w hw
    exact ⟨hb,hh,hk,by simpa [setPhase] using hpl h hw⟩
  simp only [setPhase,update_self] at hli ⊢
  exact hlk hli

lemma Queued.resume (hpk : s.phase w = .parked) : Queued (futexResume w s) := by
  refine hq.rephase (fun h hw => .inr ?_) fun _ hwk => ?_
  · rw [(hq.placed h w hw).bucket]
  exact hq.linked w (.inl hpk) hwk

end

lemma mem_removeFrom {h' : Nat} (hu : u ≠ w) : u ∈ (removeFrom w h s).bucket h' ↔ u ∈ s.bucket h' := by
  obtain rfl | hh := eq_or_ne h' h
  · simp [removeFrom,mem_erase_of_ne hu]
  simp [removeFrom,hh]

section

variable (hq : Queued s)

include hq

lemma Queued.nodup_removeFrom (w h h' : Nat) : ((removeFrom w h s).bucket h').Nodup := by
  simp only [removeFrom,update_apply]
  split
  · exact (hq.nodup h).erase w
  exact hq.nodup h'

lemma Queued.removed (hw : w ∈ s.bucket h) (h' : Nat) : w ∉ (removeFrom w h s).bucket h' := by
  simp only [removeFrom,update_apply]
  split_ifs with hne
  · exact (hq.nodup h).not_mem_erase
  intro hw'
  exact hne ((hq.placed h' w hw').bucket.symm.trans (hq.placed h w hw).bucket)

lemma Queued.released (hw : w ∈ s.bucket h) : Queued (setPhase w .free (removeFrom w h s)) := by
  refine hq.one w (hq.nodup_removeFrom w h) (fun _ _ => rfl) (fun u hu => ?_)
    (fun h' u => mem_removeFrom) (fun h' hw' => ?_) fun hli => ?_
  · simp [setPhase,removeFrom,hu]
  · cases hq.removed hw h' hw'
  simp [setPhase] at hli

lemma Queued.unlinkStep : Queued (futexUnlinkStep w s) := by
  have hgo : ∀ p, (∀ h, w ∉ s.bucket h) → (p = .free ∨ ∃ h, p = .sweep h) →
      Queued (setPhase w p s) := by
    intro p hnone hp
    refine hq.rephase (fun h hw => absurd hw (hnone h)) fun hli => ?_
    obtain rfl | ⟨h,rfl⟩ := hp
    · simp at hli
    simp at hli
  unfold futexUnlinkStep
  split
  · next h hown =>
    split
    · next hw => exact hq.released hw
    next hw =>
    refine hgo _ (fun h' hw' => ?_) (.inr ⟨0,rfl⟩)
    obtain hp | hp := (hq.placed h' w hw').live
    · rw [hp] at hown
      cases hown
    rw [hp] at hown
    injection hown with hown
    exact hw (hown ▸ hw')
  · next h hsw =>
    have hnone : ∀ h', w ∉ s.bucket h' := hq.not_linked (by simp [hsw]) (by simp [hsw])
    split
    · next hw => exact hq.released hw
    split
    · exact hgo _ hnone (.inr ⟨h + 1,rfl⟩)
    exact hgo _ hnone (.inl rfl)
  exact hq

lemma Queued.noteSeen (key : Key) : Queued (noteSeen key s) := by
  have hsa : ∀ u, ((Futex.noteSeen key s).waiter u).key = (s.waiter u).key ∧
      ((Futex.noteSeen key s).waiter u).bucket = (s.waiter u).bucket ∧
      ((Futex.noteSeen key s).waiter u).woken = (s.waiter u).woken := by
    intro u
    simp only [Futex.noteSeen]
    split
    · exact ⟨rfl,rfl,rfl⟩
    exact ⟨rfl,rfl,rfl⟩
  refine ⟨hq.nodup,fun h u hu => ?_,fun u hli hwk => ?_⟩
  · obtain ⟨hb,hh,hk,hl⟩ := hq.placed h u hu
    exact ⟨(hsa u).2.1.trans hb,(congrArg futexHash (hsa u).1).trans hh,(hsa u).2.2.trans hk,hl⟩
  rw [(hsa u).2.2] at hwk
  rw [(hsa u).2.1]
  exact hq.linked u hli hwk

end

lemma firstMatch_mem (hw : firstMatch key s = some w) : w ∈ s.bucket (futexHash key) :=
  mem_of_find?_eq_some hw

lemma Queued.marked (hq : Queued s) (hw : w ∈ s.bucket h) : Queued (markWoken w (removeFrom w h s)) := by
  refine hq.one w (hq.nodup_removeFrom w h) (fun u hu => ?_) (fun _ _ => rfl)
    (fun h' u => mem_removeFrom) (fun h' hw' => ?_) fun _ hwk => ?_
  · simp [markWoken,removeFrom,hu]
  · cases hq.removed hw h' hw'
  simp [markWoken] at hwk

lemma Queued.wakeOne (hq : Queued s) (key : Key) : Queued (wakeOne key s).2 := by
  unfold Futex.wakeOne
  split
  · exact hq
  next w hw => exact hq.marked (firstMatch_mem hw)

lemma Queued.wakeSection (hq : Queued s) (call : Nat) (key : Key) (left : Nat) :
    Queued (wakeSection call key left s) :=
  have hq := hq.wakeOne key
  ⟨hq.nodup,fun h w hw => (hq.placed h w hw).congr rfl rfl,hq.linked⟩

def Moving.source (m : Moving) : List Nat := m.passed ++ m.rest

structure Settled (waiter : Nat → Waiter) (h w : Nat) : Prop where
  bucket : (waiter w).bucket = h
  hash : futexHash (waiter w).key = h
  woken : (waiter w).woken = false

structure MovingOk (h1 h2 : Nat) (m : Moving) : Prop where
  nodup : m.source.Nodup
  dest : m.dest.Nodup
  apart : ∀ w ∈ m.source, w ∉ m.dest
  here : ∀ w ∈ m.source, Settled m.waiter h1 w
  there : ∀ w ∈ m.dest, Settled m.waiter h2 w

structure Moved (key1 : Key) (differ : Prop) (m m' : Moving) : Prop where
  waiter : ∀ w, w ∉ m.source ∨ (m.waiter w).key ≠ key1 → m'.waiter w = m.waiter w
  here : ∀ w, w ∈ m'.source → w ∈ m.source
  stays : ∀ w ∈ m.source, (m.waiter w).key ≠ key1 → w ∈ m'.source
  kept : ∀ w ∈ m.source, w ∈ m'.source ∨ w ∈ m'.dest ∨ (m'.waiter w).woken = true
  there : ∀ w, w ∈ m'.dest → w ∈ m.dest ∨ (differ ∧ w ∈ m.source)
  dest : ∀ w ∈ m.dest, w ∈ m'.dest

lemma Moved.refl (key1 : Key) (differ : Prop) (m : Moving) : Moved key1 differ m m :=
  ⟨fun _ _ => rfl,fun _ hw => hw,fun _ hw _ => hw,fun _ hw => .inl hw,fun _ hw => .inl hw, fun _ hw => hw⟩

variable {differ : Prop} {m m' : Moving} {waiter : Nat → Waiter} {ws ms : List Nat}

lemma Moved.trans {m1 m2 : Moving} (h : Moved key1 differ m m1) (h' : Moved key1 differ m1 m2) :
    Moved key1 differ m m2 := by
  refine ⟨fun w hw => ?_,fun w hw => h.here w (h'.here w hw),fun w hw hkey => ?_,
    fun w hw => ?_,fun w hw => ?_,fun w hw => h'.dest w (h.dest w hw)⟩
  · have hfst := h.waiter w hw
    refine (h'.waiter w ?_).trans hfst
    obtain hw | hw := hw
    · exact .inl fun hin => hw (h.here w hin)
    exact .inr (hfst ▸ hw)
  · refine h'.stays w (h.stays w hw hkey) ?_
    rwa [h.waiter w (.inr hkey)]
  · by_cases hin : w ∈ m1.source
    · exact h'.kept w hin
    obtain hs | hd | hk := h.kept w hw
    · cases hin hs
    · exact .inr (.inl (h'.dest w hd))
    refine .inr (.inr ?_)
    rwa [h'.waiter w (.inl hin)]
  obtain hd | ⟨hdf,hs⟩ := h'.there w hw
  · exact h.there w hd
  exact .inr ⟨hdf,h.here w hs⟩

lemma Settled.update (hs : Settled waiter h u) (hne : u ≠ w) (new : Waiter) :
    Settled (update waiter w new) h u := by
  have hsa : Function.update waiter w new u = waiter u := update_of_ne hne _ _
  exact ⟨hsa ▸ hs.bucket,hsa ▸ hs.hash,hsa ▸ hs.woken⟩

lemma MovingOk.perm {h1 h2 : Nat} (hm : MovingOk h1 h2 m) (hpm : m'.source.Perm m.source)
    (hdest : m'.dest = m.dest) (hwa : m'.waiter = m.waiter) : MovingOk h1 h2 m' := by
  refine ⟨hpm.nodup_iff.mpr hm.nodup,hdest ▸ hm.dest,fun w hw => ?_,fun w hw => ?_,fun w hw => ?_⟩
  · rw [hdest]
    exact hm.apart w (hpm.mem_iff.mp hw)
  · rw [hwa]
    exact hm.here w (hpm.mem_iff.mp hw)
  rw [hwa]
  exact hm.there w (hdest ▸ hw)

lemma MovingOk.step {h1 h2 : Nat} {r : Moving} {new : Waiter} (hm : MovingOk h1 h2 m)
    (hrs : MovingOk h1 h2 m' → MovingOk h1 h2 r ∧ Moved key1 differ m' r) (hw : w ∈ m.source)
    (hkey : (m.waiter w).key = key1) (hwa : m'.waiter = update m.waiter w new) (hnd : m'.source.Nodup)
    (hdnodup : m'.dest.Nodup) (hots : ∀ u, u ≠ w → (u ∈ m'.source ↔ u ∈ m.source))
    (hdest : ∀ u, u ≠ w → (u ∈ m'.dest ↔ u ∈ m.dest))
    (hhr : w ∈ m'.source → w ∉ m'.dest ∧ Settled m'.waiter h1 w)
    (hthr : w ∈ m'.dest → differ ∧ Settled m'.waiter h2 w)
    (hke : w ∈ m'.source ∨ w ∈ m'.dest ∨ new.woken = true) : MovingOk h1 h2 r ∧ Moved key1 differ m r := by
  suffices hstep : MovingOk h1 h2 m' ∧ Moved key1 differ m m' from
    ⟨(hrs hstep.1).1,hstep.2.trans (hrs hstep.1).2⟩
  refine ⟨⟨hnd,hdnodup,fun u hu => ?_,fun u hu => ?_,fun u hu => ?_⟩,
    fun u hu => ?_,fun u hu => ?_,fun u hu hukey => ?_,fun u hu => ?_,fun u hu => ?_,fun u hu => ?_⟩
  · obtain rfl | huw := eq_or_ne u w
    · exact (hhr hu).1
    rw [hdest u huw]
    exact hm.apart u ((hots u huw).mp hu)
  · obtain rfl | huw := eq_or_ne u w
    · exact (hhr hu).2
    rw [hwa]
    exact (hm.here u ((hots u huw).mp hu)).update huw new
  · obtain rfl | huw := eq_or_ne u w
    · exact (hthr hu).2
    rw [hwa]
    exact (hm.there u ((hdest u huw).mp hu)).update huw new
  · rw [hwa]
    refine update_of_ne ?_ ..
    rintro rfl
    exact hu.elim (fun h => h hw) (fun h => h hkey)
  · by_cases huw : u = w
    · exact huw ▸ hw
    exact (hots u huw).mp hu
  · have huw : u ≠ w := by
      rintro rfl
      exact hukey hkey
    exact (hots u huw).mpr hu
  · obtain rfl | huw := eq_or_ne u w
    · rw [hwa,update_self]
      exact hke
    exact .inl ((hots u huw).mpr hu)
  · obtain rfl | huw := eq_or_ne u w
    · exact .inr ⟨(hthr hu).1,hw⟩
    exact .inl ((hdest u huw).mp hu)
  · have huw : u ≠ w := by
      rintro rfl
      exact hm.apart u hw hu
    exact (hdest u huw).mpr hu

lemma source_split (hrs : m.rest = w :: ws) (hnd : m.source.Nodup) :
    w ∈ m.source ∧ w ∉ m.passed ++ ws ∧ (m.passed ++ ws).Nodup ∧
      ∀ u, u ≠ w → (u ∈ m.passed ++ ws ↔ u ∈ m.source) := by
  have hpm : m.source.Perm (w :: (m.passed ++ ws)) := by
    rw [Moving.source,hrs]
    exact perm_middle
  obtain ⟨hni,hrs⟩ := nodup_cons.mp (hpm.nodup_iff.mp hnd)
  refine ⟨hpm.mem_iff.mpr (.head _),hni,hrs,fun u hu => ?_⟩
  rw [hpm.mem_iff,mem_cons,or_iff_right hu]

lemma settled_rekeyed (hsa : futexHash key1 = futexHash key2) (hwk : (waiter w).woken = false) :
    Settled (update waiter w { waiter w with key := key2, bucket := futexHash key2 })
      (futexHash key1) w := by
  rw [hsa]
  exact ⟨by simp,by simp,by simpa using hwk⟩

lemma requeueWalk_spec (key1 key2 : Key) (wake move : Nat) (m : Moving)
    (hm : MovingOk (futexHash key1) (futexHash key2) m) :
    MovingOk (futexHash key1) (futexHash key2) (requeueWalk key1 key2 wake move m) ∧
      Moved key1 (futexHash key1 ≠ futexHash key2) m (requeueWalk key1 key2 wake move m) := by
  fun_induction requeueWalk key1 key2 wake move m with
  | case1 _ _ m | case7 _ _ m => exact ⟨hm,Moved.refl _ _ m⟩
  | case2 _ _ m w ws hrs _ ih =>
    have hsrc : (m.passed ++ [w]) ++ ws = m.source := by
      rw [Moving.source,hrs,append_assoc]
      rfl
    obtain ⟨hok,hmv⟩ := ih (hm.perm (by rw [← hsrc]; rfl) rfl rfl)
    refine ⟨hok,Moved.trans ?_ hmv⟩
    have hsa : ∀ u, u ∈ Moving.source { m with passed := m.passed ++ [w], rest := ws } ↔
        u ∈ m.source := fun u => by rw [← hsrc]; rfl
    exact ⟨fun _ _ => rfl,fun u => (hsa u).mp,fun u hu _ => (hsa u).mpr hu,
      fun u hu => .inl ((hsa u).mpr hu),fun u => .inl,fun u hu => hu⟩
  | case3 _ _ _ w _ hrs hkey _ _ ih =>
    obtain ⟨hw,hni,hnd,hots⟩ := source_split hrs hm.nodup
    have hout := hm.apart w hw
    exact hm.step ih hw (not_not.mp hkey) rfl hnd hm.dest hots
      (fun _ _ => .rfl) (fun hin => absurd hin hni) (fun hin => absurd hin hout) (.inr (.inr rfl))
  | case4 _ _ _ w _ hrs hkey _ _ moved waiter hdf ih =>
    obtain ⟨hw,hni,hnd,hots⟩ := source_split hrs hm.nodup
    have hnew : Settled waiter (futexHash key2) w :=
      ⟨by simp [waiter,moved],by simp [waiter,moved],
        by simpa [waiter] using (hm.here w hw).woken⟩
    exact hm.step ih hw (not_not.mp hkey) rfl hnd
      (nodup_cons.mpr ⟨hm.apart w hw,hm.dest⟩) hots (fun u hu => by simp [hu])
      (fun hin => absurd hin hni) (fun _ => ⟨hdf,hnew⟩) (.inr (.inl (.head _)))
  | case5 _ _ _ w _ hrs hkey _ _ _ _ hsa _ ih =>
    obtain ⟨hw,-,-,-⟩ := source_split hrs hm.nodup
    have hout := hm.apart w hw
    exact hm.step ih hw (not_not.mp hkey) rfl hm.nodup hm.dest (fun _ _ => .rfl)
      (fun _ _ => .rfl) (fun _ => ⟨hout,settled_rekeyed (not_not.mp hsa) (hm.here w hw).woken⟩)
      (fun hin => absurd hin hout) (.inl hw)
  | case6 _ _ m w ws hrs hkey _ _ _ _ hsa _ ih =>
    obtain ⟨hw,hni,hnd,hots⟩ := source_split hrs hm.nodup
    have hout := hm.apart w hw
    have hfro : ∀ u, u ≠ w → (u ∈ w :: (m.passed ++ ws) ↔ u ∈ m.source) := fun u hu => by
      rw [mem_cons,or_iff_right hu]
      exact hots u hu
    exact hm.step ih hw (not_not.mp hkey) rfl (nodup_cons.mpr ⟨hni,hnd⟩)
      hm.dest hfro (fun _ _ => .rfl)
      (fun _ => ⟨hout,settled_rekeyed (not_not.mp hsa) (hm.here w hw).woken⟩)
      (fun hin => absurd hin hout) (.inl (.head _))

def FutexEvent.Settled (s : FutexState) : FutexEvent → Prop
  | .requeue _ _ key1 _ _ _ =>
    ∀ w ∈ s.bucket (futexHash key1), (s.waiter w).key = key1 → s.phase w = .parked
  | _ => True

lemma Queued.moving (hq : Queued s) (key1 key2 : Key) :
    MovingOk (futexHash key1) (futexHash key2) (requeueStart key1 key2 s) := by
  have hpl : ∀ h, ∀ w ∈ s.bucket h, Futex.Settled s.waiter h w := fun h w hw =>
    ⟨(hq.placed h w hw).bucket,(hq.placed h w hw).hash,(hq.placed h w hw).woken⟩
  by_cases hh : futexHash key1 = futexHash key2
  · refine ⟨hq.nodup _,?_,fun w _ => ?_,hpl _,fun w hw => ?_⟩
    · simp [requeueStart,hh]
    · simp [requeueStart,hh]
    simp [requeueStart,hh] at hw
  refine ⟨hq.nodup _,?_,fun w hw => ?_,hpl _,fun w hw => ?_⟩
  · simpa [requeueStart,hh] using hq.nodup (futexHash key2)
  · have hw' : w ∈ s.bucket (futexHash key1) := hw
    intro hd
    simp only [requeueStart,if_neg hh] at hd
    exact hh ((hpl _ w hw').bucket.symm.trans (hpl _ w hd).bucket)
  simp only [requeueStart,if_neg hh] at hw
  exact hpl _ w hw

lemma requeueFinish_bucket (m : Moving) (h : Nat) : (requeueFinish key1 key2 m s).bucket h =
      if h = futexHash key1 then m.source else if h = futexHash key2 then m.dest
      else s.bucket h := by
  unfold requeueFinish
  dsimp only
  by_cases hh : futexHash key1 = futexHash key2
  · rw [if_pos hh,update_apply]
    split
    · rfl
    next hne => rw [if_neg (hh ▸ hne)]
  rw [if_neg hh,update_apply,update_apply]
  by_cases h2 : h = futexHash key2
  · rw [if_pos h2,if_neg (fun e => hh (e.symm.trans h2)),if_pos h2]
  rw [if_neg h2,if_neg h2]
  rfl

lemma Queued.requeue (hq : Queued s)
    (hpk : ∀ w ∈ s.bucket (futexHash key1), (s.waiter w).key = key1 → s.phase w = .parked)
    (wake move : Nat) :
    Queued (requeueFinish key1 key2 (requeueWalk key1 key2 wake move (requeueStart key1 key2 s)) s) := by
  obtain ⟨hok,hmv⟩ := requeueWalk_spec key1 key2 wake move _ (hq.moving key1 key2)
  generalize requeueWalk key1 key2 wake move (requeueStart key1 key2 s) = m at hok hmv ⊢
  have hsrc : ∀ w, w ∈ m.source → w ∈ s.bucket (futexHash key1) := hmv.here
  have hsta : futexHash key1 ≠ futexHash key2 →
      (requeueStart key1 key2 s).dest = s.bucket (futexHash key2) := fun hne => if_neg hne
  have hem : futexHash key1 = futexHash key2 → m.dest = [] := by
    intro hh
    refine eq_nil_iff_forall_not_mem.mpr fun w hw => ?_
    obtain hd | ⟨hne,-⟩ := hmv.there w hw
    · simp [requeueStart,hh] at hd
    exact hne hh
  have hbu : ∀ h, (requeueFinish key1 key2 m s).bucket h = _ := requeueFinish_bucket m
  have huq : ∀ h h' u, u ∈ s.bucket h → u ∈ s.bucket h' → h = h' := fun h h' u hu hu' =>
    (hq.placed h u hu).bucket.symm.trans (hq.placed h' u hu').bucket
  refine ⟨fun h => ?_,fun h u hu => ?_,fun u hli hwk => ?_⟩
  · rw [hbu]
    split
    · exact hok.nodup
    split
    · exact hok.dest
    exact hq.nodup h
  · rw [hbu] at hu
    split at hu
    · next hh =>
      obtain ⟨hb,hk,hw⟩ := hok.here u hu
      exact ⟨hb.trans hh.symm,hk.trans hh.symm,hw,hh ▸ (hq.placed _ u (hsrc u hu)).live⟩
    split at hu
    · next hne hh =>
      have hdf : futexHash key1 ≠ futexHash key2 := fun e => hne (hh.trans e.symm)
      obtain ⟨hb,hk,hw⟩ := hok.there u hu
      refine ⟨hb.trans hh.symm,hk.trans hh.symm,hw,?_⟩
      obtain hd | ⟨-,hs⟩ := hmv.there u hu
      · rw [hsta hdf] at hd
        exact hh ▸ (hq.placed _ u hd).live
      by_cases hkey : (s.waiter u).key = key1
      · exact .inl (hpk u hs hkey)
      cases hok.apart u (hmv.stays u hs hkey) hu
    next hne _ =>
    have hout : u ∉ s.bucket (futexHash key1) := fun hs => hne (huq _ _ u hu hs)
    exact (hq.placed h u hu).congr (hmv.waiter u (.inl hout)) rfl
  have hwk : (m.waiter u).woken = false := hwk
  change u ∈ (requeueFinish key1 key2 m s).bucket (m.waiter u).bucket
  rw [hbu]
  by_cases hs : u ∈ s.bucket (futexHash key1)
  · obtain hin | hin | hk := hmv.kept u hs
    · rw [if_pos (hok.here u hin).bucket]
      exact hin
    · rw [(hok.there u hin).bucket]
      have hdf : futexHash key2 ≠ futexHash key1 := by
        intro e
        rw [hem e.symm] at hin
        cases hin
      rw [if_neg hdf,if_pos rfl]
      exact hin
    rw [hk] at hwk
    cases hwk
  have hsa : m.waiter u = s.waiter u := hmv.waiter u (.inl hs)
  rw [hsa] at hwk ⊢
  have hin := hq.linked u hli hwk
  have hne : (s.waiter u).bucket ≠ futexHash key1 := fun e => hs (e ▸ hin)
  rw [if_neg hne]
  split_ifs with hh
  · refine hmv.dest u ?_
    rw [hsta fun e => hne (hh.trans e.symm),← hh]
    exact hin
  exact hin

lemma Queued.step {e : FutexEvent} (hq : Queued s) (he : e.Settled s)
    (hs : FutexStepped s e s') : Queued s' := by
  obtain ⟨hen,rfl⟩ := hs
  cases e with
  | wait =>
    simp only [futexStep,futexWait]
    split
    · exact hq
    split
    · exact hq
    split
    · exact hq
    exact hq.wait hen
  | resume => exact hq.resume hen
  | unlink => exact hq.unlinkStep
  | wake call key =>
    simp only [futexStep,futexWake]
    split
    · exact hq
    exact (hq.noteSeen key).wakeSection call key _
  | wakeMore call =>
    simp only [futexStep,futexWakeMore]
    split
    · exact hq
    exact hq.wakeSection call ..
  | requeue =>
    simp only [futexStep,futexRequeue]
    split
    · exact hq
    exact hq.requeue he ..
  | store =>
    exact ⟨hq.nodup,fun h w hw => (hq.placed h w hw).congr rfl rfl,hq.linked⟩

lemma FutexState.Initial.queued (h : s.Initial) : Queued s := by
  refine ⟨fun b => ?_,fun b w hw => ?_,fun w hli => ?_⟩
  · rw [h.bucket]
    exact nodup_nil
  · rw [h.bucket] at hw
    cases hw
  simp [h.phase] at hli

def SettledRun : FutexState → Prop :=
  Reach FutexState.Initial (guarded (fun s (e : FutexEvent) => e.Settled s) FutexStepped)

lemma SettledRun.queued (h : SettledRun s) : Queued s :=
  Reach.invariant (fun _ hs => hs.queued) (fun _ _ _ hq hstep => hq.step hstep.1 hstep.2) h

def matching (key : Key) (s : FutexState) : List Nat :=
  (s.bucket (futexHash key)).filter fun w => (s.waiter w).key = key

structure WakesExactly (key : Key) (n : Nat) (s s' : FutexState) (marked : List Nat) : Prop where
  nodup : marked.Nodup
  length : marked.length = min n (matching key s).length
  subset : ∀ w ∈ marked, w ∈ matching key s
  woken : ∀ w ∈ marked, (s'.waiter w).woken = true
  others : ∀ w, w ∉ marked →
    { s'.waiter w with wakesSeen := 0 } = { s.waiter w with wakesSeen := 0 }
  buckets : ∀ h, s'.bucket h = (s.bucket h).filter fun w => w ∉ marked

lemma wakesExactly_none (key : Key) (s : FutexState)
    (hnone : min n (matching key s).length = 0) : WakesExactly key n s s [] := by
  refine ⟨nodup_nil,hnone.symm,fun w hw => ?_,fun w hw => ?_,fun w _ => rfl,fun h => ?_⟩
  · cases hw
  · cases hw
  simp

lemma Queued.matching_nodup (hq : Queued s) (key : Key) : (matching key s).Nodup :=
  (hq.nodup _).filter _

lemma Queued.marked_bucket (hq : Queued s) (hw : w ∈ s.bucket h) (h' : Nat) :
    (markWoken w (removeFrom w h s)).bucket h' = (s.bucket h').filter fun u => u ≠ w := by
  simp only [markWoken,removeFrom,update_apply]
  split_ifs with hh
  · subst hh
    rw [(hq.nodup h').erase_eq_filter w]
    refine filter_congr fun u _ => ?_
    rw [Bool.eq_iff_iff]
    simp
  refine (filter_eq_self.mpr fun u hu => decide_eq_true ?_).symm
  rintro rfl
  exact hh ((hq.placed h' u hu).bucket.symm.trans (hq.placed h u hw).bucket)

lemma Queued.matching_marked (hq : Queued s) (hw : w ∈ s.bucket (futexHash key))
    (hms : matching key s = w :: ms) : matching key (markWoken w (removeFrom w (futexHash key) s)) = ms := by
  have hnd := hq.matching_nodup key
  rw [hms] at hnd
  have hks : ∀ u, ((markWoken w (removeFrom w (futexHash key) s)).waiter u).key =
      (s.waiter u).key := by
    intro u
    simp only [markWoken,update_apply]
    split
    · next hu => rw [hu]; rfl
    rfl
  rw [matching,hq.marked_bucket hw]
  simp only [hks]
  rw [filter_comm,← matching,hms,filter_cons_of_neg (by simp)]
  refine filter_eq_self.mpr fun u hu => decide_eq_true ?_
  rintro rfl
  exact (nodup_cons.mp hnd).1 hu

lemma Queued.wakeLoop (hq : Queued s) (key : Key) (n : Nat) :
    ∃ marked, WakesExactly key n s (wakeLoop key n s) marked := by
  induction n generalizing s with
  | zero => exact ⟨[],wakesExactly_none key s (by simp)⟩
  | succ n ih =>
    unfold Futex.wakeLoop Futex.wakeOne
    have hhd : (matching key s).head? = firstMatch key s := head?_filter
    cases hfst : firstMatch key s with
    | none =>
      rw [hfst,head?_eq_none_iff] at hhd
      exact ⟨[],wakesExactly_none key s (by simp [hhd])⟩
    | some w =>
      rw [hfst] at hhd
      obtain ⟨ms,hms⟩ := head?_eq_some_iff.mp hhd
      have hw := firstMatch_mem hfst
      have hnx := hq.matching_marked hw hms
      have hbu := hq.marked_bucket hw
      obtain ⟨marked,hnodup,hlen,hsub,hwk,hots,hbks⟩ := ih (hq.marked hw)
      rw [hnx] at hlen hsub
      have hni : w ∉ marked := by
        intro hin
        have hnd := hq.matching_nodup key
        rw [hms] at hnd
        exact (nodup_cons.mp hnd).1 (hsub w hin)
      refine ⟨w :: marked,nodup_cons.mpr ⟨hni,hnodup⟩,?_,fun u hu => ?_,
        fun u hu => ?_,fun u hu => ?_,fun h => ?_⟩
      · simp only [length_cons,hlen,hms]
        omega
      · rw [hms]
        rcases mem_cons.mp hu with rfl | hu
        · exact .head _
        exact .tail w (hsub u hu)
      · rcases mem_cons.mp hu with rfl | hu
        · have hsa := congrArg Waiter.woken (hots u hni)
          simpa [markWoken] using hsa
        exact hwk u hu
      · obtain ⟨huw,hu⟩ := not_or.mp fun e => hu (mem_cons.mpr e)
        refine (hots u hu).trans ?_
        simp [markWoken,removeFrom,huw]
      rw [hbks,hbu,filter_filter]
      refine filter_congr fun u _ => ?_
      simp [Bool.and_comm]

lemma Queued.wakeAlone (hq : Queued s) (key : Key) (val : Int) :
    ∃ marked, WakesExactly key val.toNat s (futexWakeAlone key val s) marked := by
  unfold futexWakeAlone
  split
  · next hval => exact ⟨[],wakesExactly_none key s (by simp [Int.toNat_of_nonpos hval])⟩
  obtain ⟨marked,hnd,hlen,hsub,hwk,hots,hbks⟩ :=
    (hq.noteSeen key).wakeLoop key val.toNat
  have hsa : ∀ u, { (Futex.noteSeen key s).waiter u with wakesSeen := 0 } =
      { s.waiter u with wakesSeen := 0 } := by
    intro u
    simp only [Futex.noteSeen]
    split <;> rfl
  have hmtc : matching key (Futex.noteSeen key s) = matching key s := by
    refine filter_congr fun u _ => ?_
    have hkey := congrArg Waiter.key (hsa u)
    simp only at hkey
    rw [hkey]
  rw [hmtc] at hlen hsub
  exact ⟨marked,hnd,hlen,hsub,hwk,fun u hu => (hots u hu).trans (hsa u),hbks⟩

def Waiting (s : FutexState) (w : Nat) : Prop :=
  (s.phase w = .parked ∨ ∃ h, s.phase w = .own h) ∧ (s.waiter w).woken = false

structure Conserved (s : FutexState) : Prop where
  queued : ∀ w, Waiting s w → w ∈ s.bucket (futexHash (s.waiter w).key)
  once : ∀ h, (s.bucket h).Nodup
  current : ∀ h, ∀ w ∈ s.bucket h, h = futexHash (s.waiter w).key ∧ Waiting s w
  returned : ∀ w, s.phase w = .free → ∀ h, w ∉ s.bucket h
  wakes : ∀ key val, ∃ marked, WakesExactly key val.toNat s (futexWakeAlone key val s) marked
  each : ∀ key, ∃ marked, WakesExactly key 1 s (wakeOne key s).2 marked

theorem futex_conserved (h : SettledRun s) : Conserved s := by
  have hq := h.queued
  refine ⟨fun w hw => ?_,hq.nodup,fun b w hw => ?_,fun w hfe => hq.not_linked
      (by simp [hfe]) (by simp [hfe]), hq.wakeAlone,fun key => ?_⟩
  · have hin := hq.linked w hw.1 hw.2
    rwa [(hq.placed _ w hin).hash]
  · obtain ⟨-,hhs,hwk,hli⟩ := hq.placed b w hw
    exact ⟨hhs.symm,hli.imp id fun hl => ⟨b,hl⟩,hwk⟩
  have hone := hq.wakeLoop key 1
  have hsct : wakeLoop key 1 s = (wakeOne key s).2 := by
    simp only [wakeLoop]
    split <;> simp_all
  rwa [hsct] at hone

instance (s : FutexState) (e : FutexEvent) : Decidable (e.Enabled s) := by
  cases e <;> unfold FutexEvent.Enabled <;> infer_instance

def noWaiters : FutexState where
  waiter _ := ⟨⟨0,0⟩,0,false,0,0,0⟩
  bucket _ := []
  phase _ := .free
  waking _ := none
  word _ := some 0

lemma noWaiters_initial : noWaiters.Initial := ⟨fun _ => rfl,fun _ => rfl,fun _ => rfl⟩

lemma reach_enabled {es : List FutexEvent}
    (h : Along (fun s (e : FutexEvent) => e.Enabled s) futexStep noWaiters es) :
    Reach FutexState.Initial FutexStepped (es.foldl futexStep noWaiters) :=
  Reach.along _ (fun _ _ he => ⟨he,rfl⟩) (.start noWaiters_initial) h

def keyAt (h : Nat) : Key := ⟨0,4 * h⟩

def waitTwice : List FutexEvent := [.wait 1 10 20 (keyAt 5) 0,.wait 2 11 20 (keyAt 5) 0]

def waitedTwice : FutexState := waitTwice.foldl futexStep noWaiters

theorem futex_conserved_two : waitedTwice.bucket 5 = [2, 1] ∧ Conserved waitedTwice := by
  have hone : SettledRun (futexStep noWaiters (.wait 1 10 20 (keyAt 5) 0)) :=
    Reach.next (e := .wait 1 10 20 (keyAt 5) 0) (.start noWaiters_initial) ⟨trivial,rfl,rfl⟩
  have htwo : SettledRun waitedTwice :=
    Reach.next (e := .wait 2 11 20 (keyAt 5) 0) hone ⟨trivial,by decide +kernel,rfl⟩
  exact ⟨by decide +kernel,futex_conserved htwo⟩

def moveTwice : List FutexEvent :=
  [.wait 1 10 20 (keyAt 5) 0,.resume 1,.requeue 20 28 (keyAt 5) (keyAt 7) 0 1] ++
    replicate 5 (.unlink 1) ++
    [.requeue 28 4 (keyAt 7) (keyAt 1) 0 1] ++ replicate 60 (.unlink 1)

def movedTwice : FutexState := moveTwice.foldl futexStep noWaiters

theorem returned_waiter_still_linked : Reach FutexState.Initial FutexStepped movedTwice ∧
    movedTwice.phase 1 = .free ∧ 1 ∈ movedTwice.bucket 1 :=
  ⟨reach_enabled (by decide +kernel),by decide +kernel,by decide +kernel⟩

theorem unlink_complete (h : SettledRun s) (hdone : (futexUnlinkStep w s).phase w = .free)
    (b : Nat) : w ∉ (futexUnlinkStep w s).bucket b :=
  h.queued.unlinkStep.not_linked (by simp [hdone]) (by simp [hdone]) b

def resumedOnce : FutexState :=
  [FutexEvent.wait 1 10 20 (keyAt 5) 0,.resume 1].foldl futexStep noWaiters

lemma resumedOnce_run : SettledRun resumedOnce := by
  have hone : SettledRun (futexStep noWaiters (.wait 1 10 20 (keyAt 5) 0)) :=
    Reach.next (e := .wait 1 10 20 (keyAt 5) 0) (.start noWaiters_initial) ⟨trivial,rfl,rfl⟩
  exact Reach.next (e := .resume 1) hone ⟨trivial,by decide +kernel,rfl⟩

theorem unlink_complete_resumed : 1 ∈ resumedOnce.bucket 5 ∧
    1 ∉ (futexUnlinkStep 1 resumedOnce).bucket 5 :=
  ⟨by decide +kernel,unlink_complete resumedOnce_run (by decide +kernel) 5⟩

def lastSweep : FutexState := moveTwice.dropLast.foldl futexStep noWaiters

theorem unlink_misses_moved_waiter : Reach FutexState.Initial FutexStepped lastSweep ∧
    (futexUnlinkStep 1 lastSweep).phase 1 = .free ∧
    1 ∈ (futexUnlinkStep 1 lastSweep).bucket 1 :=
  ⟨reach_enabled (by decide +kernel),by decide +kernel,by decide +kernel⟩

def futexCleanupTask (task : Nat) (s : FutexState) : List Nat × FutexState :=
  ((range futexBuckets).flatMap fun h => (s.bucket h).filter fun w => (s.waiter w).taskId = task,
    { s with bucket := fun h =>
        if h < futexBuckets then (s.bucket h).filter fun w => (s.waiter w).taskId ≠ task
        else s.bucket h })

lemma Queued.cleanup_nodup (hq : Queued s) (task : Nat) : (futexCleanupTask task s).1.Nodup := by
  refine nodup_flatMap.mpr ⟨fun h _ => (hq.nodup h).filter _,?_⟩
  refine nodup_range.imp fun {h h'} hne w hw hw' => hne ?_
  rw [← (hq.placed h w (mem_filter.mp hw).1).bucket,(hq.placed h' w (mem_filter.mp hw').1).bucket]

theorem cleanup_frees_allocations (h : SettledRun s) {place : Nat → Nat × Nat}
    (hplace : Injective place) (task : Nat) :
    ((∀ p ∈ (futexCleanupTask task s).1.map place, p.2 = 0) ∧
      ((futexCleanupTask task s).1.map place).Nodup) ↔
    ∀ b < futexBuckets, ∀ w ∈ s.bucket b, (s.waiter w).taskId = task → (place w).2 = 0 := by
  rw [and_iff_left ((h.queued.cleanup_nodup task).map hplace)]
  simp only [futexCleanupTask,forall_mem_map,mem_flatMap,mem_range,mem_filter, decide_eq_true_eq]
  exact ⟨fun hp b hb w hw ht => hp w ⟨b,hb,hw,ht⟩,fun hp w ⟨b,hb,hw,ht⟩ => hp b hb w hw ht⟩

theorem cleanup_frees_allocations_single : (futexCleanupTask 10 resumedOnce).1 = [1] ∧
    ((futexCleanupTask 10 resumedOnce).1.map fun w => (w, 0)).Nodup :=
  ⟨by decide +kernel,((cleanup_frees_allocations resumedOnce_run (mk_left_injective 0) 10).mpr
    fun _ _ _ _ _ => rfl).2⟩

def waitedVec : FutexState :=
  [FutexEvent.wait 0 10 20 (keyAt 5) 0,.wait 1 10 28 (keyAt 7) 0].foldl futexStep noWaiters

theorem cleanup_frees_array_element : Reach FutexState.Initial FutexStepped waitedVec ∧
    (0, 1) ∈ (futexCleanupTask 10 waitedVec).1.map fun w => (0, w) :=
  ⟨reach_enabled (by decide +kernel),by decide +kernel⟩

def wakeIdsMax : Nat := 8

def wakeIds (key : Key) (waiter : Nat → Waiter) : Nat → List Nat → List Nat → List Nat
  | 0, _, ids => ids
  | _, [], ids => ids
  | wake + 1, w :: ws, ids =>
    if (waiter w).key ≠ key then wakeIds key waiter (wake + 1) ws ids
    else
      wakeIds key waiter wake ws
        (if ids.length < wakeIdsMax then ids ++ [(waiter w).taskId] else ids)

def requeueWakes (key1 : Key) (nrWake : Int) (s : FutexState) : List Nat :=
  wakeIds key1 s.waiter nrWake.toNat (s.bucket (futexHash key1)) []

lemma wakeIds_eq (key : Key) (waiter : Nat → Waiter) (wake : Nat) (l ids : List Nat) :
    wakeIds key waiter wake l ids = ids ++ (((l.filter fun w => (waiter w).key = key).take wake).take
      (wakeIdsMax - ids.length)).map fun w => (waiter w).taskId := by
  fun_induction wakeIds key waiter wake l ids with
  | case1 | case2 => simp
  | case3 _ _ _ _ hkey ih => rw [ih,filter_cons_of_neg (by simpa using hkey)]
  | case4 _ _ _ ids hkey ih =>
    rw [ih,filter_cons_of_pos (by simpa using hkey)]
    split
    · next hro =>
      obtain ⟨n,hn⟩ := Nat.exists_eq_add_of_lt hro
      have hlf : wakeIdsMax - ids.length = n + 1 := by omega
      simp [hlf]
      omega
    next hfu => simp [Nat.sub_eq_zero_of_le (le_of_not_gt hfu)]

lemma marked_key (waiter : Nat → Waiter) (u v : Nat) :
    (update waiter u { waiter u with woken := true } v).key = (waiter v).key := by
  rw [update_apply]
  split
  · next hv => rw [hv]
  rfl

lemma requeueWalk_woken {wake move : Nat} {m : Moving} (w : Nat) :
    ((requeueWalk key1 key2 wake move m).waiter w).woken = true ↔ (m.waiter w).woken = true ∨
      w ∈ (m.rest.filter fun w => (m.waiter w).key = key1).take wake := by
  have hrk : ∀ (waiter : Nat → Waiter) (u : Nat), (update waiter u
      { waiter u with key := key2, bucket := futexHash key2 } w).woken = (waiter w).woken := by
    intro waiter u
    rw [update_apply]
    split
    · next hw => rw [hw]
    rfl
  fun_induction requeueWalk key1 key2 wake move m with
  | case1 _ _ _ hrs => simp [hrs]
  | case2 _ _ _ _ _ hrs hkey ih =>
    refine ih.trans ?_
    rw [hrs,filter_cons_of_neg (by simpa using hkey)]
  | case3 _ _ m u _ hrs hkey hwake woken ih =>
    obtain ⟨n,rfl⟩ := Nat.exists_eq_add_of_lt hwake
    have hsa : ∀ v, (update m.waiter u woken v).key = (m.waiter v).key := marked_key m.waiter u
    refine ih.trans ?_
    simp only [hrs,hsa]
    rw [filter_cons_of_pos (by simpa using hkey),update_apply]
    split
    · next hw => simp [hw,woken]
    next hw => simp [hw]
  | case4 _ _ _ _ _ _ _ hwake _ moved waiter _ ih =>
    simpa [Nat.eq_zero_of_not_pos hwake,waiter,moved,hrk] using ih
  | case5 _ _ _ _ _ _ _ hwake _ moved waiter _ _ ih =>
    simpa [Nat.eq_zero_of_not_pos hwake,waiter,moved,hrk] using ih
  | case6 _ _ _ _ _ _ _ hwake _ moved waiter _ _ ih =>
    simpa [Nat.eq_zero_of_not_pos hwake,waiter,moved,hrk] using ih
  | case7 _ _ _ _ _ _ _ hwake => simp [Nat.eq_zero_of_not_pos hwake]

theorem requeue_wakes_dequeued {uaddr1 uaddr2 : Nat} {nrWake nrRequeue : Int}
    (hidle : ∀ w ∈ s.bucket (futexHash key1), (s.waiter w).woken = false)
    (hdone : futexRequeue uaddr1 uaddr2 key1 key2 nrWake nrRequeue s = .ok s') :
    (∀ w, (s.waiter w).woken = false → (s'.waiter w).woken = true →
      (s.waiter w).taskId ∈ requeueWakes key1 nrWake s) ↔
    ∀ w ∈ (matching key1 s).take nrWake.toNat, (s.waiter w).taskId ∈
      ((matching key1 s).take wakeIdsMax).map fun w => (s.waiter w).taskId := by
  have hids : requeueWakes key1 nrWake s = (((matching key1 s).take nrWake.toNat).take
      wakeIdsMax).map fun w => (s.waiter w).taskId := wakeIds_eq key1 s.waiter _ _ []
  unfold futexRequeue at hdone
  split at hdone
  · cases hdone
  cases hdone
  have hmk : ∀ w, ((requeueWalk key1 key2 nrWake.toNat nrRequeue.toNat
      (requeueStart key1 key2 s)).waiter w).woken = true ↔ (s.waiter w).woken = true ∨
        w ∈ (matching key1 s).take nrWake.toNat := requeueWalk_woken
  simp only [requeueFinish,hmk,hids,take_take]
  constructor
  · intro h w hw
    have hin := mem_filter.mp (mem_of_mem_take hw)
    have hid := h w (hidle w hin.1) (.inr hw)
    exact map_subset _ (take_subset_take_left _ (min_le_left ..)) hid
  intro h w hwk hw
  rw [hwk] at hw
  have hw := hw.resolve_left Bool.false_ne_true
  obtain hle | hle := le_total wakeIdsMax nrWake.toNat
  · rw [min_eq_left hle]
    exact h w hw
  rw [min_eq_right hle]
  exact mem_map_of_mem hw

theorem requeue_wakes_dequeued_two : requeueWakes (keyAt 5) 2 waitedTwice = [11, 10] ∧
    ∀ w, (waitedTwice.waiter w).woken = false →
      ((futexStep waitedTwice (.requeue 20 28 (keyAt 5) (keyAt 7) 2 1)).waiter w).woken = true →
      (waitedTwice.waiter w).taskId ∈ requeueWakes (keyAt 5) 2 waitedTwice := by
  have hdo : futexRequeue 20 28 (keyAt 5) (keyAt 7) 2 1 waitedTwice =
    .ok (futexStep waitedTwice (.requeue 20 28 (keyAt 5) (keyAt 7) 2 1)) := rfl
  exact ⟨by decide +kernel,(requeue_wakes_dequeued (by decide +kernel) hdo).mpr
    (by decide +kernel)⟩

def nineWaiters : FutexState :=
  ((range 9).map fun w => FutexEvent.wait w (10 + w) 20 (keyAt 5) 0).foldl futexStep noWaiters

theorem requeue_forgets_ninth : Reach FutexState.Initial FutexStepped nineWaiters ∧
    ((futexStep nineWaiters (.requeue 20 28 (keyAt 5) (keyAt 7) 9 0)).waiter 0).woken = true ∧
    (nineWaiters.waiter 0).taskId ∉ requeueWakes (keyAt 5) 9 nineWaiters :=
  ⟨reach_enabled (by decide +kernel),by decide +kernel,by decide +kernel⟩

def logged (w : Nat) (moved : Bool) (r : Moving × List (Nat × Bool)) :
    Moving × List (Nat × Bool) := (r.1, (w, moved) :: r.2)

def requeueMove (key1 key2 : Key) (w : Nat) (ws : List Nat) (m : Moving) : Moving :=
  let moved := { m.waiter w with key := key2, bucket := futexHash key2 }
  let waiter := update m.waiter w moved
  if futexHash key1 ≠ futexHash key2 then
    { m with waiter := waiter, rest := ws, dest := w :: m.dest }
  else if m.passed = [] then { m with waiter := waiter }
  else { m with waiter := waiter, passed := w :: m.passed, rest := ws }

def requeueVisits (key1 key2 : Key) (wake move : Nat) (m : Moving) :
    Moving × List (Nat × Bool) :=
  match hrest : m.rest with
  | [] => (m, [])
  | w :: ws =>
    if (m.waiter w).key ≠ key1 then
      logged w false (requeueVisits key1 key2 wake move
        { m with passed := m.passed ++ [w], rest := ws })
    else if 0 < wake then
      let woken := { m.waiter w with woken := true }
      logged w false (requeueVisits key1 key2 (wake - 1) move
        { m with waiter := update m.waiter w woken, rest := ws })
    else if 0 < move then
      logged w true (requeueVisits key1 key2 0 (move - 1) (requeueMove key1 key2 w ws m))
    else (m, [(w, false)])
termination_by wake + move + m.rest.length
decreasing_by all_goals grind [requeueMove]

def Moving.leading (key1 : Key) (m : Moving) : List Nat :=
  m.rest.takeWhile fun w => (m.waiter w).key = key1

def Rewinds (key1 key2 : Key) (wake move : Nat) (m : Moving) : Prop :=
  futexHash key1 = futexHash key2 ∧ m.passed = [] ∧ 0 < move ∧ wake < (m.leading key1).length

section

variable {wake move : Nat} {m : Moving}

lemma requeueMove_waiter (hne : u ≠ w) :
    (requeueMove key1 key2 w ws m).waiter u = m.waiter u := by
  unfold requeueMove
  split
  · exact update_of_ne hne ..
  split <;> exact update_of_ne hne ..

lemma requeueVisits_straight (hnd : m.rest.Nodup) (h : ¬Rewinds key1 key2 wake move m) :
    (requeueVisits key1 key2 wake move m).2.map fst <+: m.rest ∧
      (requeueVisits key1 key2 wake move m).2.countP snd ≤
        (m.rest.filter fun w => (m.waiter w).key = key1).length := by
  fun_induction requeueVisits key1 key2 wake move m with
  | case1 => simp
  | case2 _ _ _ w _ hrs hkey ih =>
    rw [hrs] at hnd
    obtain ⟨hvs,hmv⟩ := ih hnd.of_cons fun hr => by simpa using hr.2.1
    rw [hrs,filter_cons_of_neg (by simpa using hkey)]
    exact ⟨(prefix_cons_inj w).mpr hvs,hmv⟩
  | case3 _ _ m w _ hrs hkey _ woken ih =>
    rw [hrs] at hnd
    have hsa : ∀ v, (update m.waiter w woken v).key = (m.waiter v).key := marked_key m.waiter w
    obtain ⟨hvs,hmv⟩ := ih hnd.of_cons fun hr => by
      refine h ⟨hr.1,hr.2.1,hr.2.2.1,?_⟩
      have hlt := hr.2.2.2
      simp only [Moving.leading,hsa] at hlt
      rw [Moving.leading,hrs,takeWhile_cons_of_pos (by simpa using hkey),length_cons]
      omega
    simp only [hsa] at hmv
    rw [hrs,filter_cons_of_pos (by simpa using hkey)]
    exact ⟨(prefix_cons_inj w).mpr hvs,le_succ_of_le hmv⟩
  | case4 _ move m w ws hrs hkey _ hmo ih =>
    rw [hrs] at hnd
    have hstraight : futexHash key1 ≠ futexHash key2 ∨ m.passed ≠ [] := by
      by_contra hnot
      obtain ⟨hsa,hps⟩ := not_or.mp hnot
      refine h ⟨not_not.mp hsa,not_not.mp hps,hmo,?_⟩
      rw [Moving.leading,hrs,takeWhile_cons_of_pos (by simpa using hkey),length_cons]
      omega
    have hnx : (requeueMove key1 key2 w ws m).rest = ws ∧
        ¬Rewinds key1 key2 0 (move - 1) (requeueMove key1 key2 w ws m) := by
      grind [requeueMove,Rewinds]
    have hks : (ws.filter fun v => ((requeueMove key1 key2 w ws m).waiter v).key = key1) =
        ws.filter fun v => (m.waiter v).key = key1 := by
      refine filter_congr fun v hv => ?_
      have hne : v ≠ w := fun e => (nodup_cons.mp hnd).1 (e ▸ hv)
      rw [requeueMove_waiter hne]
    obtain ⟨hvs,hmv⟩ := ih (by rw [hnx.1]; exact hnd.of_cons) hnx.2
    rw [hnx.1] at hvs hmv
    rw [hrs,filter_cons_of_pos (by simpa using hkey),← hks]
    exact ⟨(prefix_cons_inj w).mpr hvs,by simpa [logged] using hmv⟩
  | case5 _ _ _ _ _ hrs => simp [hrs]

lemma requeueVisits_again (h : Rewinds key1 key2 wake move m) :
    ¬((requeueVisits key1 key2 wake move m).2.map fst).Nodup := by
  fun_induction requeueVisits key1 key2 wake move m with
  | case1 _ _ _ hrs => simp [Rewinds,Moving.leading,hrs] at h
  | case2 _ _ _ _ _ hrs hkey =>
    have hlt := h.2.2.2
    simp [Moving.leading,hrs,hkey] at hlt
  | case3 _ _ m w _ hrs hkey _ woken ih =>
    refine fun hnd => ih ⟨h.1,h.2.1,h.2.2.1,?_⟩ (nodup_cons.mp hnd).2
    have hsa : ∀ v, (update m.waiter w woken v).key = (m.waiter v).key := marked_key m.waiter w
    have hlt := h.2.2.2
    rw [Moving.leading,hrs,takeWhile_cons_of_pos (by simpa using hkey),length_cons] at hlt
    simp only [Moving.leading,hsa]
    omega
  | case4 _ _ m w ws hrs =>
    have hag : (requeueMove key1 key2 w ws m).rest = w :: ws := by
      rw [requeueMove,if_neg (not_not.mpr h.1),if_pos h.2.1,hrs]
    exact fun hnd => (nodup_cons.mp hnd).1 (by grind [requeueVisits,logged])
  | case5 _ _ _ _ _ _ _ _ hmo => cases hmo h.2.2.1

end

theorem requeue_visits_once (hnodup : (s.bucket (futexHash key1)).Nodup) (nrWake nrRequeue : Int) :
    ((((requeueVisits key1 key2 nrWake.toNat nrRequeue.toNat (requeueStart key1 key2 s)).2.map
        fst).Nodup ∧
      (requeueVisits key1 key2 nrWake.toNat nrRequeue.toNat (requeueStart key1 key2 s)).2.countP
        snd ≤ (matching key1 s).length) ↔
    ¬(futexHash key1 = futexHash key2 ∧ 0 < nrRequeue ∧ nrWake.toNat <
      ((s.bucket (futexHash key1)).takeWhile fun w => (s.waiter w).key = key1).length)) := by
  have hrew : Rewinds key1 key2 nrWake.toNat nrRequeue.toNat (requeueStart key1 key2 s) ↔
      futexHash key1 = futexHash key2 ∧ 0 < nrRequeue ∧ nrWake.toNat <
        ((s.bucket (futexHash key1)).takeWhile fun w => (s.waiter w).key = key1).length := by
    rw [Int.pos_iff_toNat_pos]
    exact ⟨fun h => ⟨h.1,h.2.2.1,h.2.2.2⟩,fun h => ⟨h.1,rfl,h.2.1,h.2.2⟩⟩
  rw [← hrew]
  constructor
  · exact fun h hr => requeueVisits_again hr h.1
  intro h
  obtain ⟨hvs,hmv⟩ := requeueVisits_straight hnodup h
  exact ⟨hvs.sublist.nodup hnodup,hmv⟩

theorem requeue_visits_once_two : ((requeueVisits (keyAt 5) (keyAt 7) 1 1
    (requeueStart (keyAt 5) (keyAt 7) waitedTwice)).2.map fst).Nodup :=
  ((requeue_visits_once (by decide +kernel) 1 1).mpr (by decide +kernel)).1

theorem requeue_moves_twice : Reach FutexState.Initial FutexStepped waitedTwice ∧
    (matching (keyAt 5) waitedTwice).length = 2 ∧
    (requeueVisits (keyAt 5) (keyAt 5) 0 3 (requeueStart (keyAt 5) (keyAt 5) waitedTwice)).2 =
      [(2, true), (2, true), (2, true), (2, false)] :=
  ⟨reach_enabled (by decide +kernel),by decide +kernel,by decide +kernel⟩

def wakeOpArg : Option (BitVec 32) :=
  let oparg := (encoded.extractLsb' 12 12).signExtend 32
  if encoded.getLsbD 31 = false then some oparg
  else if oparg.slt 0 ∨ BitVec.slt 31 oparg then none
  else some (1#32 <<< oparg.toNat)

def wakeOpNew (oparg : BitVec 32) : Option (BitVec 32) :=
  match (encoded.extractLsb' 28 3).toNat with
  | 0 => some oparg
  | 1 => some (old + oparg)
  | 2 => some (old ||| oparg)
  | 3 => some (old &&& ~~~oparg)
  | 4 => some (old ^^^ oparg)
  | _ => none

def wakeOpFires : Option Bool :=
  let cmparg := (encoded.extractLsb' 0 12).signExtend 32
  match (encoded.extractLsb' 24 4).toNat with
  | 0 => some (old == cmparg)
  | 1 => some (old != cmparg)
  | 2 => some (old.slt cmparg)
  | 3 => some (old.sle cmparg)
  | 4 => some (cmparg.slt old)
  | 5 => some (cmparg.sle old)
  | _ => none

def wakeCount (key : Key) : Nat → FutexState → Nat
  | 0, _ => 0
  | left + 1, s =>
    match wakeOne key s with
    | (none, _) => 0
    | (some _, s) => wakeCount key left s + 1

def wakeAt (uaddr : Nat) (key : Key) (val : Int) (s : FutexState) : Nat × FutexState :=
  if uaddr % 4 ≠ 0 then (0, s) else (wakeCount key val.toNat s, futexWakeAlone key val s)

inductive WakeOp where
  | woken (count : Nat)
  | einval
  | efault
  | enosys
deriving DecidableEq

def futexWakeOp (uaddr1 uaddr2 : Nat) (key1 key2 : Key) (val val2 : Int) (writable : Bool)
    (s : FutexState) : WakeOp × FutexState :=
  match wakeOpArg encoded with
  | none => (.einval, s)
  | some oparg =>
    match if uaddr2 = 0 then none else s.word uaddr2 with
    | none => (.efault, s)
    | some old =>
      match wakeOpNew encoded (.ofInt 32 old) oparg with
      | none => (.enosys, s)
      | some new =>
        if writable = false then (.efault, s)
        else
          let first := wakeAt uaddr1 key1 val
            { s with word := update s.word uaddr2 (some new.toInt) }
          match wakeOpFires encoded (.ofInt 32 old) with
          | none => (.enosys, first.2)
          | some false => (.woken first.1, first.2)
          | some true =>
            let second := wakeAt uaddr2 key2 val2 first.2
            (.woken (first.1 + second.1), second.2)

lemma wakeOpNew_none (oparg : BitVec 32) :
    wakeOpNew encoded old oparg = none ↔ 4 < (encoded.extractLsb' 28 3).toNat := by
  unfold wakeOpNew
  split <;> grind

lemma wakeOpFires_none : wakeOpFires encoded old = none ↔ 5 < (encoded.extractLsb' 24 4).toNat := by
  unfold wakeOpFires
  split <;> grind

theorem wake_op_all_or_nothing (encoded : BitVec 32) :
    (∀ uaddr1 uaddr2 key1 key2 val val2 writable s s',
      futexWakeOp encoded uaddr1 uaddr2 key1 key2 val val2 writable s = (.enosys, s') →
      s'.word uaddr2 = s.word uaddr2 ∧ ∀ w, (s'.waiter w).woken = (s.waiter w).woken) ↔
    wakeOpArg encoded = none ∨ 4 < (encoded.extractLsb' 28 3).toNat ∨
      (encoded.extractLsb' 24 4).toNat ≤ 5 := by
  constructor
  · intro h
    by_contra hbad
    obtain ⟨harg,hop,hcmp⟩ : wakeOpArg encoded ≠ none ∧ ¬4 < (encoded.extractLsb' 28 3).toNat ∧
        5 < (encoded.extractLsb' 24 4).toNat := by grind
    obtain ⟨oparg,harg⟩ := Option.ne_none_iff_exists'.mp harg
    obtain ⟨new,hnew⟩ := Option.ne_none_iff_exists'.mp
      (mt (wakeOpNew_none encoded 0#32 oparg).mp hop)
    have hfir := (wakeOpFires_none encoded 0#32).mpr hcmp
    have hlate : futexWakeOp encoded 20 4 (keyAt 5) (keyAt 5) 1 0 true waitedTwice = (.enosys,
        futexWakeAlone (keyAt 5) 1
          { waitedTwice with word := update waitedTwice.word 4 (some new.toInt) }) := by
      have hwd : waitedTwice.word 4 = some 0 := rfl
      simp [futexWakeOp,harg,hwd,hnew,hfir,wakeAt]
    have hwk := (h _ _ _ _ _ _ _ _ _ hlate).2 2
    exact Bool.noConfusion (hwk : true = false)
  intro h uaddr1 uaddr2 key1 key2 val val2 writable s s' hs
  unfold futexWakeOp at hs
  split at hs
  · cases hs
  split at hs
  · cases hs
  split at hs
  · cases hs
    exact ⟨rfl,fun _ => rfl⟩
  split at hs
  · cases hs
  split at hs
  · next oparg harg _ old _ _ new hnew _ _ hfir =>
    have hcmp := (wakeOpFires_none encoded _).mp hfir
    have hop := mt (wakeOpNew_none encoded (.ofInt 32 old) oparg).mpr (by simp [hnew])
    grind
  · cases hs
  cases hs

theorem wake_op_refused_late :
    let r := futexWakeOp 0x06001000 20 28 (keyAt 5) (keyAt 7) 1 1 true waitedTwice
    r.1 = .enosys ∧ r.2.word 28 = some 1 ∧ waitedTwice.word 28 = some 0 ∧
      (r.2.waiter 2).woken = true ∧ (waitedTwice.waiter 2).woken = false := by
  decide +kernel

end B1nix.Futex
