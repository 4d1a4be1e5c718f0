import B1nix.Basic.Transition

namespace B1nix.Ipc

open Function List Transition

def einval : Int := 22
def eidrm : Int := 43

inductive TaskState where
  | running
  | blocked
  | ready
deriving DecidableEq

structure Task where
  state : TaskState
  waitChan : Option Nat
  checked : Option Nat
  signalled : Bool

variable (chan : Nat) (t : Task)

def schedulerBlockOn : Task :=
  if t.state = .ready then { t with state := .running, waitChan := none }
  else { t with state := .blocked, waitChan := some chan }

def schedulerWakeAll : Task :=
  if t.waitChan = some chan ∧ t.state = .blocked then { t with state := .ready } else t

inductive Step where
  | check (i chan : Nat)
  | block (i chan : Nat)
  | wake (chan : Nat)
  | run (i : Nat)

def Task.check : Task :=
  if t.state = .running then { t with checked := some chan, signalled := false } else t

def Task.block : Task :=
  if t.checked = some chan then { schedulerBlockOn chan t with checked := none } else t

def Task.wake : Task :=
  { schedulerWakeAll chan t with
    signalled := t.signalled || t.checked = some chan || t.state = .blocked && t.waitChan = some chan }

def Task.run : Task := if t.state = .ready then { t with state := .running } else t

def step (tasks : Nat → Task) : Step → Nat → Task
  | .check i chan => update tasks i ((tasks i).check chan)
  | .block i chan => update tasks i ((tasks i).block chan)
  | .wake chan => fun i => (tasks i).wake chan
  | .run i => update tasks i (tasks i).run

def idle (_ : Nat) : Task := ⟨.running,none,none,false⟩

def Unhurried (tasks : Nat → Task) : Step → Prop
  | .wake chan => ∀ i, (tasks i).checked ≠ some chan
  | _ => True

structure Heard (t : Task) : Prop where
  awake : t.signalled = true → t.state ≠ .blocked ∧ t.checked = none
  asleep : t.state = .blocked → t.checked = none

section

variable {t : Task} {chan : Nat} (h : Heard t)

include h

lemma Heard.check : Heard (t.check chan) := by
  rw [Task.check]
  split
  · next hrun => exact ⟨by simp,by simp [hrun]⟩
  exact h

lemma Heard.block : Heard (t.block chan) := by
  rw [Task.block]
  split_ifs with hchk
  · rw [schedulerBlockOn]
    split
    · exact ⟨by simp,by simp⟩
    refine ⟨fun hsig => ?_,by simp⟩
    cases hchk.symm.trans (h.awake hsig).2
  exact h

lemma Heard.wake (hchk : t.checked ≠ some chan) : Heard (t.wake chan) := by
  rw [Task.wake,schedulerWakeAll]
  split
  · next hwk => exact ⟨by simp [h.asleep hwk.2],by simp⟩
  next hke =>
  refine ⟨fun hsig => h.awake ?_,h.asleep⟩
  have hout : ¬(t.state = .blocked ∧ t.waitChan = some chan) := fun hb => hke hb.symm
  simpa [hchk,hout] using hsig

lemma Heard.run : Heard t.run := by
  rw [Task.run]
  split
  · exact ⟨fun hsig => ⟨by simp,(h.awake hsig).2⟩,by simp⟩
  exact h

end

lemma heard_step {tasks : Nat → Task} {e : Step} (h : ∀ i, Heard (tasks i)) (he : Unhurried tasks e) :
    ∀ i, Heard (step tasks e i) := by
  have hset : ∀ i t, Heard t → ∀ j, Heard (update tasks i t j) := fun _ _ ht =>
    (forall_update_iff tasks fun _ => Heard).mpr ⟨ht,fun j _ => h j⟩
  cases e with
  | check i chan => exact hset i _ (h i).check
  | block i chan => exact hset i _ (h i).block
  | wake chan => exact fun i => (h i).wake (he i)
  | run i => exact hset i _ (h i).run

theorem unhurried_wakes_heard {es : List Step} (h : Along Unhurried step idle es) (i : Nat) :
    (es.foldl step idle i).signalled = true → (es.foldl step idle i).state ≠ .blocked := by
  have hhrd := h.invariant (fun _ _ => heard_step) fun _ => ⟨by simp [idle],by simp [idle]⟩
  exact fun hsig => ((hhrd i).awake hsig).1

theorem unhurried_wake_heard :
    ([.check 1 7,.block 1 7,.wake 7].foldl step idle 1).state ≠ .blocked := by
  have hlate : Along Unhurried step idle [.check 1 7,.block 1 7,.wake 7] := by
    refine ⟨trivial,trivial,fun i => ?_,trivial⟩
    obtain rfl | hi := eq_or_ne i 1
    · decide
    simp [step,hi,idle]
  exact unhurried_wakes_heard hlate 1 (by decide)

theorem hurried_wake_lost :
    let t := [.check 1 7,.wake 7,.block 1 7].foldl step idle 1
    t.signalled = true ∧ t.state = .blocked := by
  decide

inductive Family where
  | sem
  | msg

def Family.slots : Family → Nat
  | .sem => 32
  | .msg => 16

def Family.gone : Family → Int
  | .sem => -eidrm
  | .msg => -einval

structure Slot where
  used : Bool
  key : Nat
  ns : Nat
  made : Nat

structure Sleeper where
  id : Nat
  ns : Nat
  object : Nat

structure Table where
  slot : Nat → Slot
  sleepers : List Sleeper

variable (f : Family) (w : Table)

def Table.idValid (ns id : Nat) : Bool := id < f.slots && (w.slot id).used && (w.slot id).ns == ns

def Table.free : Option Nat := (range f.slots).find? fun i => !(w.slot i).used

def Table.get (key ns : Nat) (creat : Bool) (w : Table) : Table :=
  if key ≠ 0 ∧ ((range f.slots).any (fun i => w.idValid f ns i && (w.slot i).key == key) ∨ !creat)
  then w
  else match w.free f with
    | none => w
    | some i => { w with slot := update w.slot i ⟨true,key,ns,(w.slot i).made + 1⟩ }

inductive Outcome where
  | returns (rc : Int)
  | touches (object : Nat)
deriving DecidableEq

def Table.resume (b : Sleeper) : Outcome :=
  if w.idValid f b.ns b.id then .touches (w.slot b.id).made else .returns f.gone

inductive Event where
  | get (key ns : Nat) (creat : Bool)
  | rmid (ns id : Nat)
  | sleep (ns id : Nat)
  | wake (sleeper : Nat)

def Table.step : Event → Table
  | .get key ns creat => w.get f key ns creat
  | .rmid ns id =>
    if w.idValid f ns id then { w with slot := update w.slot id { w.slot id with used := false } }
    else w
  | .sleep ns id =>
    if w.idValid f ns id then { w with sleepers := ⟨id,ns,(w.slot id).made⟩ :: w.sleepers } else w
  | .wake sleeper => { w with sleepers := w.sleepers.eraseIdx sleeper }

def Table.unused : Table := ⟨fun _ => ⟨false,0,0,0⟩,[]⟩

def StayRemoved : Prop :=
  ∀ b ∈ w.sleepers, w.resume f b =
    if (w.slot b.id).used ∧ (w.slot b.id).made = b.object then .touches b.object
    else .returns (-eidrm)

def Unreused : Event → Prop
  | .get _ ns _ => ∀ b ∈ w.sleepers, b.ns = ns → w.free f ≠ some b.id
  | .rmid _ id => f = .msg → ∀ b ∈ w.sleepers, b.id ≠ id
  | _ => True

structure Sleeper.Sound (f : Family) (s : Slot) (b : Sleeper) : Prop where
  place : b.id < f.slots
  old : b.object ≤ s.made
  own : s.made = b.object → s.ns = b.ns
  same : s.used = true → s.ns = b.ns → s.made = b.object
  kept : f = .msg → s.used = true ∧ s.ns = b.ns

def Table.Sound : Prop := ∀ b ∈ w.sleepers, b.Sound f (w.slot b.id)

section

variable {f : Family} {w : Table}

lemma Table.Sound.get {ns key : Nat} {creat : Bool} (h : w.Sound f)
    (hfe : ∀ b ∈ w.sleepers, b.ns = ns → w.free f ≠ some b.id) :
    (w.get f key ns creat).Sound f := by
  unfold Table.get
  split
  · exact h
  split
  · exact h
  next i hi =>
  intro b hb
  dsimp only at hb ⊢
  obtain rfl | hid := eq_or_ne b.id i
  · have huu : (w.slot b.id).used = false := by simpa using find?_some hi
    have hns : ns ≠ b.ns := fun hns => hfe b hb hns.symm hi
    have hold := (h b hb).old
    rw [update_self]
    refine ⟨(h b hb).place,Nat.le_succ_of_le hold,fun hmd => ?_,fun _ hsa => (hns hsa).elim,
      fun hmsg => ?_⟩
    · cases Nat.not_succ_le_self _ (hmd.trans_le hold)
    cases huu.symm.trans ((h b hb).kept hmsg).1
  rw [update_of_ne hid]
  exact h b hb

lemma Table.Sound.rmid {id : Nat} (h : w.Sound f)
    (hmsg : f = .msg → ∀ b ∈ w.sleepers, b.id ≠ id) :
    Table.Sound f { w with slot := update w.slot id { w.slot id with used := false } } := by
  intro b hb
  dsimp only at hb ⊢
  obtain rfl | hid := eq_or_ne b.id id
  · rw [update_self]
    exact { h b hb with
      same := fun hus => (Bool.false_ne_true hus).elim
      kept := fun hf => (hmsg hf b hb rfl).elim }
  rw [update_of_ne hid]
  exact h b hb

lemma Table.idValid_iff {ns id : Nat} : w.idValid f ns id = true ↔
    id < f.slots ∧ (w.slot id).used = true ∧ (w.slot id).ns = ns := by
  simp [idValid,and_assoc]

lemma Table.Sound.step {e : Event} (h : w.Sound f) (he : Unreused f w e) :
    (w.step f e).Sound f := by
  cases e with
  | get key ns creat => exact h.get he
  | rmid ns id =>
    rw [Table.step]
    split
    · exact h.rmid he
    exact h
  | sleep ns id =>
    rw [Table.step]
    split_ifs with hvl
    · obtain ⟨hid,hus,hns⟩ := idValid_iff.mp hvl
      exact forall_mem_cons.mpr ⟨⟨hid,le_rfl,fun _ => hns,fun _ _ => rfl,fun _ => ⟨hus,hns⟩⟩,h⟩
    exact h
  | wake sleeper => exact fun b hb => h b (mem_of_mem_eraseIdx hb)

lemma Table.Sound.stayRemoved (h : w.Sound f) : StayRemoved f w := by
  intro b hb
  obtain ⟨hpc,-,hown,hsa,hke⟩ := h b hb
  have hiff : w.idValid f b.ns b.id = true ↔
      (w.slot b.id).used = true ∧ (w.slot b.id).made = b.object := by
    rw [idValid_iff,and_iff_right hpc]
    exact and_congr_right fun hus => ⟨hsa hus,hown⟩
  simp only [resume,hiff]
  split
  · next hboth => rw [hboth.2]
  next hgo =>
  cases f with
  | sem => rfl
  | msg =>
    obtain ⟨hus,hns⟩ := hke rfl
    exact absurd ⟨hus,hsa hus hns⟩ hgo

end

end B1nix.Ipc
