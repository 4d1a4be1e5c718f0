import B1nix.Basic.Transition
import B1nix.Basic.Linked

namespace B1nix.Runqueue

open Function Transition Option

inductive Queue where
  | global
  | cpu (id : Nat)
deriving DecidableEq, Repr

structure Rq where
  head : Nat
  tail : Nat
deriving DecidableEq, Repr

inductive TaskState where
  | ready
  | running
  | blocked
deriving DecidableEq, Repr

structure Task where
  state : TaskState
  stealable : Bool
  stackReleased : Bool
  runningSomewhere : Bool
  allowed : Nat → Bool

inductive Steal where
  | idle
  | scan (i : Nat)
  | hold (i t : Nat)
deriving DecidableEq, Repr

structure RqState where
  next : Nat → Nat
  rq : Queue → Rq
  task : Nat → Task
  steal : Nat → Steal

structure Machine where
  maxCpus : Nat
  online : Nat → Bool
  tasks : List Nat

def rqWalkLimit : Nat := 4096

variable (m : Machine)

variable (q : Queue) (cpu t : Nat) (s : RqState)

def Machine.taskPtrValid : Bool := decide (t ∈ m.tasks)

def rqWalk (next : Nat → Nat) (t : Nat) : Nat → Nat → Option Bool
  | fuel, c =>
    if c = 0 then some false
    else if c = t then some true
    else
      match fuel with
      | 0 => none
      | fuel + 1 =>
        if next c ≠ 0 ∧ m.taskPtrValid (next c) = false then none
        else rqWalk next t fuel (next c)

def rqLink : RqState :=
  let r := s.rq q
  let next := update s.next t 0
  if r.tail ≠ 0 then
    { s with
      next := update next r.tail t
      rq := update s.rq q ⟨r.head,t⟩ }
  else { s with next := next, rq := update s.rq q ⟨t,t⟩ }

def rqEnqueue : Option RqState :=
  (rqWalk m s.next t rqWalkLimit (s.rq q).head).map fun queued =>
    if queued then s else rqLink q t s

def rqDequeue : Option (Nat × RqState) :=
  let t := (s.rq q).head
  if t = 0 then some (0, s)
  else if m.taskPtrValid t = false then none
  else if s.next t ≠ 0 ∧ m.taskPtrValid (s.next t) = false then none
  else
    some (t, { s with
      next := update s.next t 0
      rq := update s.rq q
        ⟨s.next t,if s.next t = 0 then 0 else (s.rq q).tail⟩ })

structure Links where
  next : Nat → Nat
  rq : Rq

def unlinkAt (prev cur : Nat) (k : Links) : Links where
  next := update
    (if prev ≠ 0 then update k.next prev (k.next cur) else k.next) cur 0
  rq := ⟨if prev ≠ 0 then k.rq.head else k.next cur,if k.rq.tail = cur then prev else k.rq.tail⟩

def rqRemoveFrom : Nat → Nat → Nat → Bool → Links → Option (Bool × Links)
  | fuel, prev, cur, removed, k =>
    if cur = 0 then some (removed, k)
    else
      match fuel with
      | 0 => none
      | fuel + 1 =>
        if k.next cur ≠ 0 ∧ m.taskPtrValid (k.next cur) = false then none
        else if cur = t then
          rqRemoveFrom fuel prev (k.next cur) true (unlinkAt prev cur k)
        else rqRemoveFrom fuel cur (k.next cur) removed k

def rqRemove : Option (Bool × RqState) :=
  (rqRemoveFrom m t rqWalkLimit 0 (s.rq q).head false ⟨s.next,s.rq q⟩).map fun r =>
    (r.1, { s with next := r.2.next, rq := update s.rq q r.2.rq })

def schedRqEnqueueCurrent : Option RqState :=
  if (s.task t).stealable then rqEnqueue m (.cpu cpu) t s else rqEnqueue m .global t s

def setSteal (p : Steal) (s : RqState) : RqState := { s with steal := update s.steal cpu p }

def taskClaim : RqState :=
  let claimed := { s.task t with state := .running, stackReleased := false }
  { s with task := update s.task t claimed }

def claimable (task : Task) : Bool :=
  task.allowed cpu && (task.state == .ready && task.stealable && task.stackReleased &&
    !task.runningSomewhere)

def schedStealScan (i : Nat) (s : RqState) : Option RqState :=
  if m.maxCpus ≤ i then some (setSteal cpu .idle s)
  else if m.online i = false ∨ i = cpu ∨ (s.rq (.cpu i)).head = 0 then
    some (setSteal cpu (.scan (i + 1)) s)
  else
    (rqDequeue m (.cpu i) s).map fun r =>
      if r.1 = 0 then setSteal cpu (.scan (i + 1)) r.2 else setSteal cpu (.hold i r.1) r.2

def schedStealSettle (i t : Nat) (s : RqState) : Option RqState :=
  if claimable cpu (s.task t) then some (setSteal cpu .idle (taskClaim t s))
  else (rqEnqueue m (.cpu i) t s).map (setSteal cpu (.scan (i + 1)))

def schedStealTask : Option RqState :=
  match s.steal cpu with
  | .idle => some (setSteal cpu (.scan 0) s)
  | .scan i => schedStealScan m cpu i s
  | .hold i t => schedStealSettle m cpu i t s

inductive RqEvent where
  | enqueue (q : Queue) (t : Nat)
  | dequeue (q : Queue)
  | remove (q : Queue) (t : Nat)
  | enqueueCurrent (cpu t : Nat)
  | steal (cpu : Nat)
  | taskChanged (t : Nat) (task : Task)

def rqStep : RqEvent → Option RqState
  | .enqueue q t => rqEnqueue m q t s
  | .dequeue q => (rqDequeue m q s).map Prod.snd
  | .remove q t => (rqRemove m q t s).map Prod.snd
  | .enqueueCurrent cpu t => schedRqEnqueueCurrent m cpu t s
  | .steal cpu => schedStealTask m cpu s
  | .taskChanged t task => some { s with task := update s.task t task }

def RqEvent.Called : RqEvent → Prop
  | .enqueue _ t => t ∈ m.tasks
  | .enqueueCurrent _ t => t ∈ m.tasks
  | _ => True

structure RqState.Initial (s : RqState) : Prop where
  rq : ∀ q, s.rq q = ⟨0,0⟩
  steal : ∀ cpu, s.steal cpu = .idle

def RqStepped (e : RqEvent) (s' : RqState) : Prop := e.Called m ∧ rqStep m s e = some s'

open Linked List

variable {m : Machine} {s s' : RqState} {q : Queue} {t : Nat}

structure Integrity (m : Machine) (s : RqState) (lists : Queue → List Nat) : Prop where
  queue : ∀ q, Tailed s.next (s.rq q).head (s.rq q).tail (lists q)
  apart : ∀ q q' t, t ∈ lists q → t ∈ lists q' → q = q'
  tasks : ∀ q, ∀ t ∈ lists q, t ∈ m.tasks
  held : ∀ cpu i t, s.steal cpu = .hold i t → t ∈ m.tasks

variable {next : Nat → Nat} {l : List Nat} {lists : Queue → List Nat} {fuel c prev cur x : Nat}
  {removed queued : Bool} {k : Links} {r : Bool × Links} {rest pre : List Nat}

section

variable (h : Chain next c l) (hvl : ∀ x ∈ l, x ∈ m.tasks)

include h hvl

lemma rqWalk_chain
    (hwl : rqWalk m next t fuel c = some queued) : queued = true ↔ t ∈ l := by
  induction l generalizing fuel c with
  | nil =>
    have hc : c = 0 := h
    unfold rqWalk at hwl
    rw [if_pos hc] at hwl
    injection hwl with hwl
    simp [← hwl]
  | cons _ _ ih =>
    obtain ⟨rfl,hx,hxs⟩ := h
    unfold rqWalk at hwl
    rw [if_neg hx] at hwl
    split at hwl
    · next hct =>
      injection hwl with hwl
      simp [← hwl,hct]
    next hct =>
    split at hwl
    · cases hwl
    split at hwl
    · cases hwl
    rw [ih hxs (fun y hy => hvl y (mem_cons_of_mem c hy)) hwl]
    simp [Ne.symm hct]

lemma next_valid : ¬(c ≠ 0 ∧ m.taskPtrValid c = false) := by
  rintro ⟨hne,hbad⟩
  cases l with
  | nil => exact hne h
  | cons y => simp [Machine.taskPtrValid,h.1,hvl y (.head _)] at hbad

lemma rqWalk_safe (hfu : l.length ≤ fuel) : rqWalk m next t fuel c ≠ none := by
  induction l generalizing fuel c with
  | nil =>
    have hc : c = 0 := h
    unfold rqWalk
    simp [hc]
  | cons x xs ih =>
    obtain ⟨rfl,hx,hxs⟩ := h
    unfold rqWalk
    rw [if_neg hx]
    split
    · simp
    cases fuel with
    | zero => simp at hfu
    | succ =>
      simp only [length_cons,Nat.add_le_add_iff_right] at hfu
      have hvalid' : ∀ y ∈ xs, y ∈ m.tasks := fun y hy => hvl y (.tail c hy)
      dsimp only
      rw [if_neg (next_valid hxs hvalid')]
      exact ih hxs hvalid' hfu

end

lemma Integrity.withQueue (h : Integrity m s lists) {r : Rq} (hq : Tailed next r.head r.tail l)
    (hot : ∀ q', q' ≠ q → ∀ x ∈ lists q', next x = s.next x)
    (hmem : ∀ x ∈ l, x ∈ m.tasks ∧ ∀ q', q' ≠ q → x ∉ lists q') :
    Integrity m { s with next, rq := update s.rq q r }
      (update lists q l) := by
  refine ⟨fun q' => ?_,fun q' q'' x hx hx' => ?_,fun q' x hx => ?_,h.held⟩
  · obtain rfl | hqq := eq_or_ne q' q
    · simpa using hq
    simpa [hqq] using (h.queue q').congr (hot q' hqq)
  · obtain rfl | h' := eq_or_ne q' q
    · by_cases h'' : q'' = q'
      · exact h''.symm
      simp only [update_self,update_of_ne h''] at hx hx'
      cases (hmem x hx).2 q'' h'' hx'
    obtain rfl | h'' := eq_or_ne q'' q
    · simp only [update_self,update_of_ne h'] at hx hx'
      cases (hmem x hx').2 q' h' hx
    simp only [update_of_ne h',update_of_ne h''] at hx hx'
    exact h.apart q' q'' x hx hx'
  obtain rfl | hqq := eq_or_ne q' q
  · rw [update_self] at hx
    exact (hmem x hx).1
  rw [update_of_ne hqq] at hx
  exact h.tasks q' x hx

lemma Integrity.outside (h : Integrity m s lists) (hx : x ∈ lists q) :
    ∀ q', q' ≠ q → x ∉ lists q' :=
  fun q' hne hx' => hne (h.apart q' q x hx' hx)

def OnQueue (s : RqState) (q : Queue) (t : Nat) : Prop := Follows s.next (s.rq q).head t

section

variable (h : Integrity m s lists)

include h

lemma Integrity.onQueue_iff : OnQueue s q t ↔ t ∈ lists q := (h.queue q).chain.follows_iff

lemma Integrity.link (ht : t ∈ m.tasks) (hze : t ≠ 0) (hnew : t ∉ lists q)
    (hout : ∀ q', q' ≠ q → t ∉ lists q') : Integrity m (rqLink q t s) (update lists q (lists q ++ [t])) := by
  have hq := h.queue q
  have hmem : ∀ x ∈ lists q ++ [t], x ∈ m.tasks ∧ ∀ q', q' ≠ q → x ∉ lists q' := by
    intro x hx
    obtain hx | hx := mem_append.mp hx
    · exact ⟨h.tasks q x hx,h.outside hx⟩
    rw [mem_singleton.mp hx]
    exact ⟨ht,hout⟩
  have hne : ∀ q', ∀ x ∈ lists q', x ≠ t := by
    rintro q' x hx rfl
    by_cases hqq : q' = q
    · exact hnew (hqq ▸ hx)
    exact hout q' hqq hx
  unfold rqLink
  dsimp only
  split_ifs with hta
  · have hla := hq.tail_mem hta
    refine h.withQueue ?_ (fun q' hqq x hx => ?_) hmem
    · have hpu : Tailed (update (update s.next t 0) (s.rq q).tail t) _ t _ :=
        hq.push hze hnew (by simp [(hne q _ hla).symm]) (by simp)
        (fun x hx hx' => by simp [hx',hne q x hx])
      rwa [if_neg hta] at hpu
    have hx' : x ≠ (s.rq q).tail := by
      rintro rfl
      exact h.outside hla q' hqq hx
    simp [hx',hne q' x hx]
  refine h.withQueue ?_ (fun q' hqq x hx => ?_) hmem
  · have hpu : Tailed (update s.next t 0) _ t _ :=
      hq.push hze hnew (by simp) (fun e => absurd e hta) (fun x hx _ => by simp [hne q x hx])
    rwa [if_pos (not_not.mp hta)] at hpu
  simp [hne q' x hx]

lemma Integrity.enqueue (ht : t ∈ m.tasks) (hze : t ≠ 0) (hout : ∀ q', q' ≠ q → ¬OnQueue s q' t)
    (hs : rqEnqueue m q t s = some s') : ∃ lists', Integrity m s' lists' := by
  obtain ⟨queued,hwl,rfl⟩ := map_eq_some_iff.mp hs
  have hin := rqWalk_chain (h.queue q).chain (h.tasks q) hwl
  cases queued with
  | true => exact ⟨lists,h⟩
  | false =>
    refine ⟨_,h.link ht hze (fun hmem => ?_) fun q' hne hmem => ?_⟩
    · cases hin.mpr hmem
    exact hout q' hne (h.onQueue_iff.mpr hmem)

lemma Integrity.dequeue {r : Nat × RqState} (hs : rqDequeue m q s = some r) :
    (∃ lists', Integrity m r.2 lists') ∧ (r.1 ≠ 0 → r.1 ∈ m.tasks) ∧ r.2.steal = s.steal := by
  unfold rqDequeue at hs
  dsimp only at hs
  split at hs
  · cases hs
    exact ⟨⟨lists,h⟩,absurd rfl,rfl⟩
  next hhd =>
  split at hs
  · cases hs
  next hvl =>
  split at hs
  · cases hs
  cases hs
  have hq := h.queue q
  cases hl : lists q with
  | nil =>
    rw [hl] at hq
    cases hhd hq.chain
  | cons x xs =>
    rw [hl] at hq
    obtain ⟨hx,-,-⟩ := hq.chain
    have hmem : ∀ y ∈ xs, y ∈ lists q := fun y => hl ▸ .tail x
    have hxs : ∀ y ∈ xs, y ≠ x := by
      rintro y hy rfl
      exact (nodup_cons.mp hq.nodup).1 hy
    have hxq : x ∈ lists q := hl ▸ (.head _)
    refine ⟨⟨_,h.withQueue ?_ (fun q' hqq y hy => ?_) fun y hy =>
      ⟨h.tasks q y (hmem y hy),h.outside (hmem y hy)⟩⟩,fun _ => ?_,rfl⟩
    · rw [hx]
      exact hq.pop fun y hy => by simp [hxs y hy]
    · have hne : y ≠ x := by
        rintro rfl
        exact h.outside hxq q' hqq hy
      simp [hx,hne]
    rw [hx]
    exact h.tasks q x hxq

end

lemma rqRemoveFrom_absent (h : Chain k.next cur l) (ht : t ∉ l)
    (hs : rqRemoveFrom m t fuel prev cur removed k = some r) : r = (removed, k) := by
  induction l generalizing fuel prev cur with
  | nil =>
    have hc : cur = 0 := h
    unfold rqRemoveFrom at hs
    rw [if_pos hc] at hs
    exact (some.inj hs).symm
  | cons _ _ ih =>
    obtain ⟨rfl,hx,hxs⟩ := h
    unfold rqRemoveFrom at hs
    rw [if_neg hx] at hs
    split at hs
    · cases hs
    split at hs
    · cases hs
    split at hs
    · next heq => cases ht (heq ▸ (.head _))
    exact ih hxs (fun hmem => ht (.tail cur hmem)) hs

lemma unlinkAt_tailed (h : Tailed k.next k.rq.head k.rq.tail (pre ++ t :: rest))
    (hprev : prev = pre.getLast?.getD 0) :
    Tailed (unlinkAt prev t k).next (unlinkAt prev t k).rq.head (unlinkAt prev t k).rq.tail
        (pre ++ rest) ∧
      ∀ x, x ∉ pre → x ≠ t → (unlinkAt prev t k).next x = k.next x := by
  obtain ⟨-,hmid,hdj⟩ := nodup_append.mp h.nodup
  have hpre : t ∉ pre := fun hmem => hdj t hmem t (.head _) rfl
  have hrs : t ∉ rest := (nodup_cons.mp hmid).1
  have hnot : ∀ x ∈ pre ++ rest, x ≠ t := by
    rintro x hx rfl
    exact (mem_append.mp hx).elim hpre hrs
  by_cases hp : prev = 0
  · have hul : Tailed (unlinkAt prev t k).next _ _ _ := h.unlink hprev (absurd hp)
      fun y hy _ => by simp [unlinkAt,hp,hnot y hy]
    refine ⟨?_,fun x _ hx => by simp [unlinkAt,hp,hx]⟩
    simpa [unlinkAt] using hul
  have hmem : prev ∈ pre := by
    obtain rfl | ⟨ps,p,rfl⟩ := eq_nil_or_concat pre
    · exact absurd (by simpa using hprev) hp
    simp [hprev]
  have hpt : prev ≠ t := fun e => hpre (e ▸ hmem)
  have hul : Tailed (unlinkAt prev t k).next _ _ _ := h.unlink hprev
    (fun _ => by simp [unlinkAt,hp,hpt]) fun y hy hyp => by
      simp [unlinkAt,hp,hnot y hy,hyp]
  refine ⟨by simpa [unlinkAt] using hul,fun x hx hxt => ?_⟩
  have hxp : x ≠ prev := fun e => hx (e ▸ hmem)
  simp [unlinkAt,hp,hxt,hxp]

lemma rqRemoveFrom_spec (pre : List Nat) (h : Tailed k.next k.rq.head k.rq.tail (pre ++ rest))
    (hcur : Chain k.next cur rest) (hprev : prev = pre.getLast?.getD 0) (hpre : t ∉ pre)
    (hs : rqRemoveFrom m t fuel prev cur removed k = some r) :
    Tailed r.2.next r.2.rq.head r.2.rq.tail ((pre ++ rest).erase t) ∧
      ∀ x, x ∉ pre ++ rest → r.2.next x = k.next x := by
  induction rest generalizing fuel prev cur pre with
  | nil =>
    rw [rqRemoveFrom_absent hcur (by simp) hs,erase_of_not_mem (by simpa using hpre)]
    exact ⟨h,fun _ _ => rfl⟩
  | cons x xs ih =>
    obtain ⟨rfl,hx,hxs⟩ := hcur
    unfold rqRemoveFrom at hs
    rw [if_neg hx] at hs
    split at hs
    · cases hs
    split at hs
    · cases hs
    split_ifs at hs with heq
    · subst heq
      obtain ⟨htl,hot⟩ := unlinkAt_tailed h hprev
      obtain ⟨-,hmid,hdj⟩ := nodup_append.mp h.nodup
      have hrs : Chain (unlinkAt prev cur k).next (k.next cur) xs := by
        refine hxs.congr fun y hy => hot y (fun hyp => ?_) ?_
        · exact hdj y hyp y (.tail cur hy) rfl
        rintro rfl
        exact (nodup_cons.mp hmid).1 hy
      rw [rqRemoveFrom_absent hrs (nodup_cons.mp hmid).1 hs,erase_append_right _ hpre,erase_cons_head]
      refine ⟨htl,fun y hy => ?_⟩
      simp only [mem_append,mem_cons,not_or] at hy
      exact hot y hy.1 hy.2.1
    rw [append_cons] at h ⊢
    exact ih _ h hxs (by simp) (by simpa [hpre] using Ne.symm heq) hs

lemma Integrity.remove {r : Bool × RqState} (h : Integrity m s lists) (hs : rqRemove m q t s = some r) :
    ∃ lists', Integrity m r.2 lists' := by
  obtain ⟨r,hr,rfl⟩ := map_eq_some_iff.mp hs
  have hq := h.queue q
  obtain ⟨htl,hot⟩ := rqRemoveFrom_spec []
    (by simpa using hq) hq.chain rfl (by simp) hr
  refine ⟨_,h.withQueue htl (fun q' hne x hx => hot x fun hmem => ?_) fun x hx => ?_⟩
  · exact h.outside hmem q' hne hx
  have hmem := mem_of_mem_erase hx
  exact ⟨h.tasks q x hmem,h.outside hmem⟩

def target (s : RqState) (cpu t : Nat) : Queue :=
  if (s.task t).stealable then .cpu cpu else .global

def RqEvent.Apart (s : RqState) : RqEvent → Prop
  | .enqueue q t => ∀ q', q' ≠ q → ¬OnQueue s q' t
  | .enqueueCurrent cpu t => ∀ q', q' ≠ target s cpu t → ¬OnQueue s q' t
  | .steal cpu => ∀ i t, s.steal cpu = .hold i t → ∀ q', q' ≠ .cpu i → ¬OnQueue s q' t
  | _ => True

lemma Integrity.setSteal (h : Integrity m s lists) (cpu : Nat) {p : Steal}
    (hp : ∀ i t, p = .hold i t → t ∈ m.tasks) : Integrity m (setSteal cpu p s) lists := by
  refine { h with held := fun cpu' i t hhe => ?_ }
  simp only [Runqueue.setSteal,update_apply] at hhe
  split at hhe
  · exact hp i t hhe
  exact h.held cpu' i t hhe

lemma Integrity.setTask (h : Integrity m s lists) (task : Nat → Task) :
    Integrity m { s with task } lists :=
  { h with }

lemma Integrity.steal {cpu : Nat} (h : Integrity m s lists) (hze : 0 ∉ m.tasks)
    (happ : (RqEvent.steal cpu).Apart s) (hs : schedStealTask m cpu s = some s') :
    ∃ lists', Integrity m s' lists' := by
  unfold schedStealTask at hs
  split at hs
  · cases hs
    exact ⟨lists,h.setSteal cpu nofun⟩
  · unfold schedStealScan at hs
    split at hs
    · cases hs
      exact ⟨lists,h.setSteal cpu nofun⟩
    split at hs
    · cases hs
      exact ⟨lists,h.setSteal cpu nofun⟩
    obtain ⟨r,hr,rfl⟩ := map_eq_some_iff.mp hs
    obtain ⟨⟨lists',h'⟩,hmem,-⟩ := h.dequeue hr
    split_ifs with hne
    · exact ⟨lists',h'.setSteal cpu nofun⟩
    refine ⟨lists',h'.setSteal cpu fun i t e => ?_⟩
    injection e with _ e
    exact e ▸ hmem hne
  next i t hho =>
  have ht := h.held cpu i t hho
  unfold schedStealSettle at hs
  split at hs
  · cases hs
    exact ⟨lists,(h.setTask _).setSteal cpu nofun⟩
  obtain ⟨u,hu,rfl⟩ := map_eq_some_iff.mp hs
  obtain ⟨lists',h'⟩ := h.enqueue ht (fun e => hze (e ▸ ht)) (happ i t hho) hu
  exact ⟨lists',h'.setSteal cpu nofun⟩

lemma schedRqEnqueueCurrent_eq (t : Nat) (s : RqState) :
    schedRqEnqueueCurrent m cpu t s = rqEnqueue m (target s cpu t) t s := by
  unfold schedRqEnqueueCurrent target
  split <;> rfl

lemma Integrity.step {e : RqEvent} (h : Integrity m s lists) (hze : 0 ∉ m.tasks)
    (happ : e.Apart s) (hs : RqStepped m s e s') : ∃ lists', Integrity m s' lists' := by
  obtain ⟨hcld,hs⟩ := hs
  cases e with
  | enqueue => exact h.enqueue hcld (fun e => hze (e ▸ hcld)) happ hs
  | dequeue =>
    obtain ⟨r,hr,rfl⟩ := map_eq_some_iff.mp hs
    exact (h.dequeue hr).1
  | remove =>
    obtain ⟨r,hr,rfl⟩ := map_eq_some_iff.mp hs
    exact h.remove hr
  | enqueueCurrent cpu t =>
    have hs' := (schedRqEnqueueCurrent_eq cpu t s).symm.trans hs
    exact h.enqueue hcld (fun e => hze (e ▸ hcld)) happ hs'
  | steal => exact h.steal hze happ hs
  | taskChanged =>
    cases hs
    exact ⟨lists,h.setTask _⟩

lemma RqState.Initial.integrity (h : s.Initial) : Integrity m s fun _ => [] := by
  refine ⟨fun q => ?_,nofun,nofun,fun cpu i t hhe => ?_⟩
  · rw [h.rq]
    exact ⟨rfl,nodup_nil,rfl⟩
  rw [h.steal] at hhe
  cases hhe

def ApartRun (m : Machine) : RqState → Prop :=
  Reach RqState.Initial (guarded (fun s (e : RqEvent) => e.Apart s) (RqStepped m))

lemma ApartRun.integrity (hze : 0 ∉ m.tasks) (h : ApartRun m s) : ∃ lists, Integrity m s lists :=
  Reach.invariant (P := fun s => ∃ lists, Integrity m s lists)
    (fun _ hs => ⟨_,hs.integrity⟩)
    (fun _ _ _ hs hstep => hs.elim fun _ hi => hi.step hze hstep.1 hstep.2) h

lemma rqRemoveFrom_safe (h : Chain k.next cur l) (hnd : l.Nodup)
    (hprev : prev ∉ l) (hvl : ∀ x ∈ l, x ∈ m.tasks) (hfu : l.length ≤ fuel) :
    rqRemoveFrom m t fuel prev cur removed k ≠ none := by
  induction l generalizing fuel prev cur removed k with
  | nil =>
    have hc : cur = 0 := h
    unfold rqRemoveFrom
    simp [hc]
  | cons x xs ih =>
    obtain ⟨rfl,hx,hxs⟩ := h
    obtain ⟨hni,hnd⟩ := nodup_cons.mp hnd
    have hvalid' : ∀ y ∈ xs, y ∈ m.tasks := fun y hy => hvl y (.tail cur hy)
    unfold rqRemoveFrom
    rw [if_neg hx]
    cases fuel with
    | zero => simp at hfu
    | succ =>
      simp only [length_cons,Nat.add_le_add_iff_right] at hfu
      dsimp only
      rw [if_neg (next_valid hxs hvalid')]
      split
      · refine ih (hxs.congr fun y hy => ?_) hnd
          (fun hmem => hprev (.tail cur hmem)) hvalid' hfu
        have hyc : y ≠ cur := fun e => hni (e ▸ hy)
        have hyp : y ≠ prev := fun e => hprev (e ▸ .tail cur hy)
        unfold unlinkAt
        split <;> simp [hyc,hyp]
      exact ih hxs hnd hni hvalid' hfu

section

variable (h : Integrity m s lists)

include h

lemma Integrity.length_le (q : Queue) : (lists q).length ≤ m.tasks.length :=
  (subperm_of_subset (h.queue q).nodup (h.tasks q)).length_le

lemma Integrity.enqueue_safe (hlim : m.tasks.length ≤ rqWalkLimit)
    (q : Queue) (t : Nat) : rqEnqueue m q t s ≠ none := by
  have hwl := rqWalk_safe (t := t) (h.queue q).chain (h.tasks q)
    ((h.length_le q).trans hlim)
  simpa [rqEnqueue] using hwl

lemma Integrity.dequeue_safe (q : Queue) : rqDequeue m q s ≠ none := by
  have hch := (h.queue q).chain
  have hvl := h.tasks q
  unfold rqDequeue
  dsimp only
  split
  · simp
  next hne =>
  generalize lists q = l at hch hvl
  rw [if_neg fun hbad => next_valid hch hvl ⟨hne,hbad⟩]
  cases l with
  | nil => cases hne hch
  | cons x =>
    rw [hch.1,if_neg (next_valid hch.2.2 fun y hy => hvl y (.tail x hy))]
    simp

lemma Integrity.step_safe (hlim : m.tasks.length ≤ rqWalkLimit) (hze : 0 ∉ m.tasks) (e : RqEvent) :
    rqStep m s e ≠ none := by
  cases e with
  | enqueue q t => exact h.enqueue_safe hlim q t
  | dequeue q => simpa [rqStep] using h.dequeue_safe q
  | remove q t =>
    have hrm : rqRemoveFrom m t rqWalkLimit 0 (s.rq q).head false ⟨s.next,s.rq q⟩ ≠ none :=
      rqRemoveFrom_safe (h.queue q).chain (h.queue q).nodup (fun hmem => hze (h.tasks q 0 hmem)) (h.tasks q)
      ((h.length_le q).trans hlim)
    simpa [rqStep,rqRemove] using hrm
  | enqueueCurrent cpu t =>
    have hsf := h.enqueue_safe hlim (target s cpu t) t
    rwa [← schedRqEnqueueCurrent_eq] at hsf
  | steal cpu =>
    simp only [rqStep,schedStealTask]
    split
    · simp
    · next i _ =>
      unfold schedStealScan
      split
      · simp
      split
      · simp
      simpa using h.dequeue_safe (.cpu i)
    next i t _ =>
    unfold schedStealSettle
    split
    · simp
    simpa using h.enqueue_safe hlim (.cpu i) t
  | taskChanged => simp [rqStep]

end

structure QueuesIntact (m : Machine) (s : RqState) : Prop where
  queues : ∀ q, ∃ l, Tailed s.next (s.rq q).head (s.rq q).tail l
  apart : ∀ q q' t, OnQueue s q t → OnQueue s q' t → q = q'
  safe : m.tasks.length ≤ rqWalkLimit → ∀ e, rqStep m s e ≠ none

theorem run_queues_intact (hzero : 0 ∉ m.tasks) (h : ApartRun m s) : QueuesIntact m s := by
  obtain ⟨lists,hi⟩ := h.integrity hzero
  refine ⟨fun q => ⟨lists q,hi.queue q⟩,fun q q' t hq hq' => ?_,fun hlim e => ?_⟩
  · exact hi.apart q q' t (hi.onQueue_iff.mp hq) (hi.onQueue_iff.mp hq')
  exact hi.step_safe hlim hzero e

def twoCpus : Machine := ⟨2,fun i => decide (i < 2),[1,2]⟩

def idleQueues : RqState where
  next _ := 0
  rq _ := ⟨0,0⟩
  task _ := ⟨.ready,true,true,false,fun _ => true⟩
  steal _ := .idle

lemma idleQueues_initial : idleQueues.Initial := ⟨fun _ => rfl,fun _ => rfl⟩

lemma enqueueCurrent_stepped (ht : t ∈ m.tasks)
    (hnew : rqWalk m s.next t rqWalkLimit (s.rq (target s cpu t)).head = some false) :
    RqStepped m s (.enqueueCurrent cpu t) (rqLink (target s cpu t) t s) := by
  refine ⟨ht,(schedRqEnqueueCurrent_eq cpu t s).trans ?_⟩
  rw [rqEnqueue,hnew]
  rfl

def twoQueued : RqState := rqLink (.cpu 0) 2 (rqLink (.cpu 0) 1 idleQueues)

theorem run_queues_intact_two : (twoQueued.rq (.cpu 0)) = ⟨1, 2⟩ ∧ QueuesIntact twoCpus twoQueued := by
  have hnone : ∀ q t, ¬OnQueue idleQueues q t := fun q t hq =>
    not_mem_nil (Chain.mem_of_follows rfl hq)
  have hone : ApartRun twoCpus (rqLink (.cpu 0) 1 idleQueues) :=
    Reach.next (e := .enqueueCurrent 0 1) (.start idleQueues_initial)
      ⟨fun q' _ => hnone q' 1,enqueueCurrent_stepped 0 (by decide) (by decide +kernel)⟩
  have hot : ∀ q', q' ≠ Queue.cpu 0 → ¬OnQueue (rqLink (.cpu 0) 1 idleQueues) q' 2 := by
    intro q' hq' hon
    have hhd : ((rqLink (.cpu 0) 1 idleQueues).rq q').head = 0 := by simp [rqLink,idleQueues,hq']
    exact not_mem_nil (Chain.mem_of_follows hhd hon)
  have htwo : ApartRun twoCpus twoQueued :=
    Reach.next (e := .enqueueCurrent 0 2) hone
      ⟨hot,enqueueCurrent_stepped 0 (by decide) (by decide +kernel)⟩
  exact ⟨by decide +kernel,run_queues_intact (by decide) htwo⟩

def queuedTwice : RqState := rqLink (.cpu 1) 1 twoQueued

theorem task_on_two_queues : Reach RqState.Initial (RqStepped twoCpus) queuedTwice ∧
    OnQueue queuedTwice (.cpu 0) 1 ∧ OnQueue queuedTwice (.cpu 1) 1 ∧
    (queuedTwice.rq (.cpu 0)).tail = 2 ∧ ¬OnQueue queuedTwice (.cpu 0) 2 := by
  have hze : Chain queuedTwice.next (queuedTwice.rq (.cpu 0)).head [1] :=
    ⟨by decide +kernel,by decide,(by decide +kernel : queuedTwice.next 1 = 0)⟩
  have hone : Chain queuedTwice.next (queuedTwice.rq (.cpu 1)).head [1] :=
    ⟨by decide +kernel,by decide,(by decide +kernel : queuedTwice.next 1 = 0)⟩
  refine ⟨?_,hze.follows_of_mem (by decide),hone.follows_of_mem (by decide),
    by decide +kernel,fun hon => by simpa using hze.mem_of_follows hon⟩
  have hfst := Reach.next (.start idleQueues_initial)
    (enqueueCurrent_stepped (m := twoCpus) (t := 1) 0 (by decide) (by decide +kernel))
  have hsec := hfst.next (enqueueCurrent_stepped (t := 2) 0 (by decide) (by decide +kernel))
  exact hsec.next (enqueueCurrent_stepped 1 (by decide) (by decide +kernel))

end B1nix.Runqueue
