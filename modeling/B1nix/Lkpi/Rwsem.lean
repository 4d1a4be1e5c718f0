import B1nix.Basic.Tally
import B1nix.Basic.Transition

namespace B1nix.Rwsem

open Function Transition Bool Option

variable {T : Type} [DecidableEq T]

structure Rwsem (T : Type) where
  readers : Nat
  writer : Bool
  writersWaiting : Nat
  readersWaiting : Nat
  owner : Option T

def init : Rwsem T := ⟨0,false,0,0,none⟩

variable (s : Rwsem T)

def downReadTrylock : Option (Rwsem T) :=
  if s.writer = false ∧ s.writersWaiting = 0 then some { s with readers := s.readers + 1 } else none

def upRead : Rwsem T × Bool :=
  let s' := { s with readers := s.readers - 1 }
  (s', s'.readers == 0 && s'.writersWaiting != 0)

def downWriteTrylock (t : T) (s : Rwsem T) : Option (Rwsem T) :=
  if s.writer = false ∧ s.readers = 0 then some { s with writer := true, owner := some t } else none

def announce : Rwsem T := { s with writersWaiting := s.writersWaiting + 1 }

def downWriteTake (t : T) (s : Rwsem T) : Option (Rwsem T) :=
  (downWriteTrylock t s).map fun s => { s with writersWaiting := s.writersWaiting - 1 }

def upWrite : Rwsem T × Bool :=
  let s' := { s with writer := false, owner := none }
  (s', s'.writersWaiting != 0 || s'.readersWaiting != 0)

def downgradeWrite : Rwsem T := { s with writer := false, owner := none, readers := s.readers + 1 }

inductive Mode where
  | read | write
  deriving DecidableEq

def blocked : Mode → Bool
  | .read => s.writer || s.writersWaiting != 0
  | .write => s.writer || s.readers != 0

def parkReader : Mode → Rwsem T
  | .read => { s with readersWaiting := s.readersWaiting + 1 }
  | .write => s

inductive Phase where
  | idle
  | waking
  | want (m : Mode)
  | refused (m : Mode)
  | prepared (m : Mode)
  | parked (m : Mode)
  | asleep (m : Mode)
  | clear (m : Mode)
  | returned
  deriving DecidableEq

structure Task where
  reads : Nat
  writes : Bool
  phase : Phase
  woken : Bool

def Task.at (k : Task) (p : Phase) : Task := { k with phase := p }

structure State (T : Type) where
  sem : Rwsem T
  task : T → Task

variable (s : State T) (t : T)

def State.put (sem : Rwsem T) (k : Task) : State T := ⟨sem,update s.task t k⟩

inductive Op where
  | readTrylock
  | writeTrylock
  | downRead
  | downWrite
  | take
  | spin
  | prepare
  | test
  | commit
  | resume
  | settle
  | cancel
  | upRead
  | upWrite
  | downgradeWrite
  | wakeAll

def readTake (miss : Phase) : State T :=
  match downReadTrylock s.sem with
  | some sem =>
    s.put t sem { s.task t with phase := .idle, reads := (s.task t).reads + 1 }
  | none => s.put t s.sem ((s.task t).at miss)

def writeTake (miss : Phase) : Option (Rwsem T) → State T
  | some sem => s.put t sem { s.task t with phase := .idle, writes := true }
  | none => s.put t s.sem ((s.task t).at miss)

def Phase.listens : Phase → Bool
  | .prepared _ | .parked _ | .asleep _ => true
  | _ => false

def wakeAll (k : Task) : Task := if k.phase.listens then { k with woken := true } else k

def step (op : Op) : Option (State T) :=
  let k := s.task t
  match op, k.phase with
  | .readTrylock, .idle => some (readTake s t .idle)
  | .writeTrylock, .idle => some (writeTake s t .idle (downWriteTrylock t s.sem))
  | .downRead, .idle => some (s.put t s.sem (k.at (.want .read)))
  | .downWrite, .idle => some (s.put t (announce s.sem) (k.at (.want .write)))
  | .take, .want .read => some (readTake s t (.refused .read))
  | .take, .want .write => some (writeTake s t (.refused .write) (downWriteTake t s.sem))
  | .spin, .refused m => some (s.put t s.sem (k.at (.want m)))
  | .prepare, .refused m => some (s.put t s.sem { k with phase := .prepared m, woken := false })
  | .test, .prepared m =>
    if blocked s.sem m then some (s.put t (parkReader s.sem m) (k.at (.parked m)))
    else some (s.put t s.sem (k.at (.clear m)))
  | .commit, .parked m => some (s.put t s.sem (k.at (.asleep m)))
  | .resume, .asleep .read => some (s.put t s.sem (k.at .returned))
  | .resume, .asleep .write => some (s.put t s.sem (k.at (.want .write)))
  | .settle, .returned =>
    some (s.put t { s.sem with readersWaiting := s.sem.readersWaiting - 1 } (k.at (.want .read)))
  | .cancel, .clear m => some (s.put t s.sem (k.at (.want m)))
  | .upRead, .idle =>
    if k.reads = 0 then none
    else
      let r := upRead s.sem
      some (s.put t r.1 { k with reads := k.reads - 1, phase := if r.2 then .waking else .idle })
  | .upWrite, .idle =>
    if k.writes = false then none
    else
      let r := upWrite s.sem
      some (s.put t r.1 { k with writes := false, phase := if r.2 then .waking else .idle })
  | .downgradeWrite, .idle =>
    if k.writes = false then none
    else
      some (s.put t (downgradeWrite s.sem)
        { k with writes := false, reads := k.reads + 1, phase := .waking })
  | .wakeAll, .waking => some ⟨s.sem,update (fun u => wakeAll (s.task u)) t (k.at .idle)⟩
  | _, _ => none

def Stepped (e : T × Op) (s' : State T) : Prop := step s e.1 e.2 = some s'

def fresh : State T := ⟨init,fun _ => ⟨0,false,.idle,false⟩⟩

def Phase.request : Phase → Option Mode
  | .idle | .waking => none
  | .want m | .refused m | .prepared m | .parked m | .asleep m | .clear m => some m
  | .returned => some .read

def Task.sleeps (k : Task) : Bool :=
  match k.phase with
  | .asleep _ => !k.woken
  | _ => false

structure Stuck (s : State T) : Prop where
  free : ∀ t, (s.task t).reads = 0 ∧ (s.task t).writes = false
  silent : ∀ t, (s.task t).phase ≠ .waking
  waiting : ∃ t, (s.task t).phase.request ≠ none
  asleep : ∀ t, (s.task t).phase.request ≠ none → (s.task t).sleeps = true

open Finset Tally

variable {s s' : State T} {sem : Rwsem T} {t u : T} {k : Task} {m : Mode}

inductive Counter where
  | readers | writer | writersWaiting | readersWaiting

def Rwsem.count (s : Rwsem T) : Counter → Nat
  | .readers => s.readers
  | .writer => s.writer.toNat
  | .writersWaiting => s.writersWaiting
  | .readersWaiting => s.readersWaiting

def Phase.parksReader : Phase → Bool
  | .parked .read | .asleep .read | .returned => true
  | _ => false

def Task.share (k : Task) : Counter → Nat
  | .readers => k.reads
  | .writer => k.writes.toNat
  | .writersWaiting => if k.phase.request = some .write then 1 else 0
  | .readersWaiting => k.phase.parksReader.toNat

def Task.Waits (k : Task) (m : Mode) : Prop :=
  k.woken = false ∧ (k.phase = .parked m ∨ k.phase = .asleep m)

attribute [simp] Rwsem.count Phase.parksReader Task.share Task.Waits Task.at Phase.request

lemma share_released (k : Task) (b : Bool) (c : Counter) :
    (k.at (if b then .waking else .idle)).share c = (k.at .idle).share c := by
  cases b <;> cases c <;> rfl

lemma not_waits_released (k : Task) (b : Bool) (m : Mode) :
    ¬(k.at (if b then .waking else .idle)).Waits m := by
  cases b <;> simp

structure Inv [Fintype T] (s : State T) : Prop where
  counts : ∀ c, s.sem.count c = ∑ t, (s.task t).share c
  apart : s.sem.writer = true → s.sem.readers = 0
  parked : ∀ t m, (s.task t).Waits m →
    blocked s.sem m = true ∨ ∃ u, (s.task u).phase = .waking

section Counts

variable [Fintype T]

section

variable (h : Inv s)

include h

lemma Inv.share_le (t : T) (c : Counter) : (s.task t).share c ≤ s.sem.count c := by
  rw [h.counts]
  exact single_le_sum (f := fun u => (s.task u).share c) (fun _ _ => zero_le) (mem_univ t)

lemma Inv.counted (hw : (s.task t).Waits m) :
    match m with
    | .read => s.sem.readersWaiting ≠ 0
    | .write => s.sem.writersWaiting ≠ 0 := by
  cases m with
  | read =>
    have hle := h.share_le t .readersWaiting
    rcases hw.2 with hp | hp <;> simp_all <;> omega
  | write =>
    have hle := h.share_le t .writersWaiting
    rcases hw.2 with hp | hp <;> simp_all <;> omega

lemma Inv.writes_eq (hhe : (s.task t).writes = true) : s.sem.writer = true := by
  have hle := h.share_le t .writer
  cases hw : s.sem.writer with
  | true => rfl
  | false => simp [hhe,hw] at hle

lemma Inv.one_writer (ht : (s.task t).writes = true) (hu : (s.task u).writes = true) : t = u := by
  by_contra hne
  have hle := add_le_sum (f := fun v => (s.task v).share .writer) (fun _ _ => zero_le)
    (mem_univ t) (mem_univ u) hne
  rw [← h.counts] at hle
  have hone := toNat_le s.sem.writer
  simp only [Task.share,Rwsem.count,ht,hu,toNat_true] at hle
  omega

lemma Inv.writer_iff : s.sem.writer = true ↔ ∃ t, (s.task t).writes = true := by
  refine ⟨fun hw => ?_,fun ⟨t,ht⟩ => h.writes_eq ht⟩
  by_contra hnone
  have hsum := h.counts .writer
  rw [sum_eq_zero fun t _ => by simpa using fun ht => hnone ⟨t,ht⟩] at hsum
  simp [hw] at hsum

lemma Inv.not_stuck : ¬Stuck s := by
  intro hstk
  have hrds : s.sem.readers = 0 :=
    (h.counts .readers).trans (sum_eq_zero fun t _ => (hstk.free t).1)
  have hwr : s.sem.writer = false := by
    rw [← not_eq_true,h.writer_iff]
    exact fun ⟨t,ht⟩ => by simp [(hstk.free t).2] at ht
  have hasl : ∀ t m, (s.task t).phase.request = some m → blocked s.sem m = true := by
    intro t m ht
    have hs := hstk.asleep t (ne_of_eq_of_ne ht (some_ne_none m))
    unfold Task.sleeps at hs
    split at hs
    · next m' hm =>
      obtain rfl : m' = m := by simpa [hm] using ht
      obtain hb | ⟨u,hu⟩ := h.parked t m' ⟨by simpa using hs,.inr hm⟩
      · exact hb
      cases hstk.silent u hu
    cases hs
  have hnone : s.sem.writersWaiting = 0 := by
    refine (h.counts .writersWaiting).trans (sum_eq_zero fun t _ => if_neg fun hwt => ?_)
    simpa [blocked,hwr,hrds] using hasl t .write hwt
  obtain ⟨t,ht⟩ := hstk.waiting
  obtain ⟨m,hm⟩ := ne_none_iff_exists'.mp ht
  have hb := hasl t m hm
  cases m <;> simp [blocked,hwr,hrds,hnone] at hb

end

end Counts

variable [Fintype T]

section

variable (h : Inv s)

include h

section

variable (hph : (s.task t).phase ≠ .waking)

include hph

lemma Inv.put (hcts : ∀ c, sem.count c + (s.task t).share c = s.sem.count c + k.share c)
    (hapt : sem.writer = true → sem.readers = 0)
    (hse : ∀ m, k.Waits m → (s.task t).Waits m ∨ blocked sem m = true)
    (hots : ∀ u m, (s.task u).Waits m → blocked s.sem m = true →
      blocked sem m = true ∨ k.phase = .waking) : Inv (s.put t sem k) := by
  have hwake : ∀ u m, (s.task u).Waits m → blocked sem m = true ∨
      ∃ v, (update s.task t k v).phase = .waking := by
    intro u m hu
    obtain hbkd | ⟨v,hv⟩ := h.parked u m hu
    · exact (hots u m hu hbkd).imp_right fun hk => ⟨t,by rwa [update_self]⟩
    have hne : v ≠ t := fun heq => hph (heq ▸ hv)
    exact .inr ⟨v,by rwa [update_of_ne hne]⟩
  refine ⟨fun c => ?_,hapt,fun u m hu => ?_⟩
  · have htot := sum_update_add (mem_univ t) s.task k (Task.share · c)
    have hold := h.counts c
    have hnew := hcts c
    simp only [State.put]
    omega
  obtain rfl | hut := eq_or_ne u t
  · simp only [State.put,update_self] at hu
    exact (hse m hu).elim (hwake u m) .inl
  simp only [State.put,update_of_ne hut] at hu
  exact hwake u m hu

lemma Inv.move (hshr : ∀ c, k.share c = (s.task t).share c)
    (hse : ∀ m, k.Waits m → (s.task t).Waits m) : Inv (s.put t s.sem k) :=
  h.put hph (fun c => by rw [hshr]) h.apart (fun m hm => .inl (hse m hm))
    fun _ _ _ hb => .inl hb

lemma Inv.readTake {miss : Phase} (hshr : ∀ c, ((s.task t).at miss).share c = (s.task t).share c)
    (hid : ∀ c, ((s.task t).at .idle).share c = (s.task t).share c)
    (hms : ∀ m, ¬((s.task t).at miss).Waits m) : Inv (readTake s t miss) := by
  unfold Rwsem.readTake downReadTrylock
  split
  · next sem hsem =>
    split at hsem
    · next hfe =>
      cases hsem
      refine h.put hph (fun c => ?_) (by simp [hfe]) (by simp) ?_
      · rw [← hid c]
        cases c <;> simp
        omega
      rintro u (_ | _) - hb
      · simp [blocked,hfe] at hb
      simp [blocked]
    cases hsem
  exact h.move hph hshr fun m hm => absurd hm (hms m)

end

lemma Inv.writeTake (miss : Phase) (hph : (s.task t).phase ≠ .waking)
    (hshr : ∀ c, ((s.task t).at miss).share c = (s.task t).share c)
    (hid : (s.task t).phase.parksReader = false) (hms : ∀ m, ¬((s.task t).at miss).Waits m) :
    Inv (writeTake s t miss ((downWriteTrylock t s.sem).map fun sem =>
      { sem with writersWaiting := sem.writersWaiting - (s.task t).share .writersWaiting })) := by
  unfold downWriteTrylock
  split
  · next hfe =>
    have hhd := h.share_le t .writer
    have hle := h.share_le t .writersWaiting
    refine h.put hph (fun c => ?_) (by simp [hfe]) (by simp) ?_
    · cases c <;> simp_all
    rintro u (_ | _) - - <;> simp [blocked]
  exact h.move hph hshr fun m hm => absurd hm (hms m)

section

variable (hph : (s.task t).phase = .idle)

include hph

lemma Inv.upRead (hhe : (s.task t).reads ≠ 0) :
    Inv (s.put t (upRead s.sem).1 { s.task t with
      reads := (s.task t).reads - 1, phase := if (upRead s.sem).2 then .waking else .idle }) := by
  have hle : (s.task t).reads ≤ s.sem.readers := h.share_le t .readers
  have hnone : s.sem.writer = false := by
    rw [← not_eq_true]
    intro hw
    have hze := h.apart hw
    omega
  refine h.put (by simp [hph]) (fun c => ?_) (by simp [Rwsem.upRead,hnone])
    (fun m hm => absurd hm (not_waits_released { s.task t with reads := (s.task t).reads - 1 } _ m))
    fun u m hu hb => ?_
  · refine Eq.trans ?_ (congrArg _ (share_released { s.task t with reads := _ } _ c).symm)
    cases c <;> simp [Rwsem.upRead,hph]
    omega
  cases m with
  | read => exact .inl hb
  | write =>
    have hwts := h.counted hu
    by_cases hla : s.sem.readers - 1 = 0
    · exact .inr (by simp_all [Rwsem.upRead])
    exact .inl (by simp [Rwsem.upRead,blocked,hla])

lemma Inv.upWrite (hhe : (s.task t).writes = true) :
    Inv (s.put t (upWrite s.sem).1 { s.task t with
      writes := false, phase := if (upWrite s.sem).2 then .waking else .idle }) := by
  refine h.put (by simp [hph]) (fun c => ?_) nofun
    (fun m hm => absurd hm (not_waits_released { s.task t with writes := false } _ m))
    fun u m hu _ => .inr ?_
  · have hwr := h.writes_eq hhe
    refine Eq.trans ?_ (congrArg _ (share_released { s.task t with writes := false } _ c).symm)
    cases c <;> simp [Rwsem.upWrite,hph,hhe,hwr]
  have hwts := h.counted hu
  cases m <;> simp_all [Rwsem.upWrite]

lemma Inv.downgrade (hhe : (s.task t).writes = true) :
    Inv (s.put t (downgradeWrite s.sem) { s.task t with
      writes := false, reads := (s.task t).reads + 1, phase := .waking }) := by
  refine h.put (by simp [hph]) (fun c => ?_) nofun (by simp) fun _ _ _ _ => .inr rfl
  have hwr := h.writes_eq hhe
  cases c <;> simp [downgradeWrite, *]
  omega

end

lemma Inv.wakeAll (hph : (s.task t).phase = .waking) :
    Inv ⟨s.sem,update (fun u => wakeAll (s.task u)) t ((s.task t).at .idle)⟩ := by
  have hfie : ∀ k : Task, (Rwsem.wakeAll k).share = k.share ∧
      (Rwsem.wakeAll k).phase = k.phase := by
    intro k
    unfold Rwsem.wakeAll
    split <;> exact ⟨rfl,rfl⟩
  refine ⟨fun c => (h.counts c).trans (sum_congr rfl fun u _ => ?_),h.apart,fun u m hu => ?_⟩
  · dsimp only
    by_cases hut : u = t
    · rw [hut,update_self]
      cases c <;> simp [hph]
    rw [update_of_ne hut,(hfie _).1]
  by_cases hut : u = t
  · simp [hut] at hu
  simp only [update_of_ne hut] at hu
  obtain ⟨hwk,hp⟩ := hu
  rw [(hfie _).2] at hp
  rcases hp with hp | hp <;> simp [Rwsem.wakeAll,Phase.listens,hp] at hwk

lemma Inv.test (hph : (s.task t).phase = .prepared m) (hb : blocked s.sem m = true) :
    Inv (s.put t (parkReader s.sem m) ((s.task t).at (.parked m))) := by
  have hsa : ∀ m', blocked (parkReader s.sem m) m' = blocked s.sem m' := by
    cases m <;> rintro (_ | _) <;> rfl
  refine h.put (by simp [hph]) (fun c => ?_) (by cases m <;> exact h.apart) (fun m' hm => ?_)
    fun _ m' _ hb' => .inl ((hsa m').trans hb')
  · cases m <;> cases c <;> simp [parkReader,hph]
  obtain rfl : m = m' := by simpa using hm.2
  exact .inr ((hsa m).trans hb)

lemma Inv.step {e : T × Op} (hstep : Stepped s e s') : Inv s' := by
  obtain ⟨t,op⟩ := e
  unfold Stepped Rwsem.step at hstep
  dsimp only at hstep
  split at hstep
  case h_1 hp | h_5 hp =>
    cases hstep
    apply h.readTake <;> (try rintro (_ | _ | _ | _)) <;>
      simp [hp]
  case h_2 hp =>
    cases hstep
    have htk := h.writeTake (t := t) .idle
    simp only [Task.share,hp,Phase.request,reduceCtorEq,if_false,Nat.sub_zero,map_id'] at htk
    apply htk <;> simp
  case h_6 hp =>
    cases hstep
    have htk := h.writeTake (t := t) (.refused .write)
    simp only [Task.share,hp] at htk
    apply htk <;> (try rintro (_ | _ | _ | _)) <;>
      simp
  case h_4 hp =>
    cases hstep
    refine h.put (by simp [hp]) (fun c => ?_) h.apart (by simp)
      fun u m _ hb => .inl ?_
    · cases c <;> simp [announce,hp]
    cases m <;> simp_all [announce,blocked]
  case h_9 m hp =>
    split_ifs at hstep with hb
    · cases hstep
      exact h.test hp hb
    cases hstep
    apply h.move <;> (try rintro (_ | _ | _ | _)) <;> cases m <;>
      simp [hp]
  case h_13 hp =>
    cases hstep
    have hle := h.share_le t .readersWaiting
    refine h.put (by simp [hp]) (fun c => ?_) h.apart (by simp)
      fun u m _ hb => .inl (by cases m <;> exact hb)
    cases c <;> simp_all
  case h_15 hp =>
    split at hstep
    · cases hstep
    next hhe =>
    cases hstep
    exact h.upRead hp hhe
  case h_16 hp =>
    split at hstep
    · cases hstep
    next hhe =>
    cases hstep
    exact h.upWrite hp (not_eq_false _ ▸ hhe)
  case h_17 hp =>
    split at hstep
    · cases hstep
    next hhe =>
    cases hstep
    exact h.downgrade hp (not_eq_false _ ▸ hhe)
  case h_18 hp =>
    cases hstep
    exact h.wakeAll hp
  case h_19 => cases hstep
  case h_7 m hp | h_8 m hp | h_10 m hp | h_14 m hp =>
    cases hstep
    apply h.move <;> (try rintro (_ | _ | _ | _)) <;> cases m <;>
      simp [hp]
  case h_3 hp | h_11 hp | h_12 hp =>
    cases hstep
    apply h.move <;> (try rintro (_ | _ | _ | _)) <;>
      simp [hp]

end

lemma Inv.fresh : Inv (fresh : State T) := by
  refine ⟨?_,nofun,by simp [Rwsem.fresh]⟩
  rintro (_ | _ | _ | _) <;>
    simp [Rwsem.fresh,init]

theorem rwsem_excludes_and_progresses (hs : Reach (· = fresh) Stepped s) :
    (∀ t u, (s.task t).writes = true → (s.task u).writes = true → t = u) ∧
      (∀ t u, (s.task t).writes = true → (s.task u).reads = 0) ∧
      s.sem.readers = ∑ t, (s.task t).reads ∧
      (s.sem.writer = true ↔ ∃ t, (s.task t).writes = true) ∧
      s.sem.writersWaiting = #{t | (s.task t).phase.request = some .write} ∧ ¬Stuck s := by
  have h : Inv s := hs.invariant (fun s hs => hs ▸ Inv.fresh) fun _ _ _ hi => hi.step
  refine ⟨fun t u => h.one_writer,fun t u ht => ?_,h.counts .readers,h.writer_iff,?_,h.not_stuck⟩
  · have hze := (h.counts .readers).symm.trans (h.apart (h.writes_eq ht))
    exact sum_eq_zero_iff.mp hze u (mem_univ u)
  rw [card_filter]
  exact h.counts .writersWaiting

local instance neZero_tasks : NeZero 2 := ⟨by decide⟩

def parking : List (Fin 2 × Op) :=
  [(0, .writeTrylock),(1, .downRead),(1, .take),(1, .prepare),(1, .test),(1, .commit)]

theorem parking_excludes : ∃ s : State (Fin 2), parking.foldlM (fun s e => step s e.1 e.2) fresh =
    some s ∧ (s.task 0).writes = true ∧ (s.task 1).sleeps = true ∧ ¬Stuck s := by
  have hend : (parking.foldlM (fun s e => step s e.1 e.2) fresh).map
      (fun s => ((s.task 0).writes, (s.task 1).sleeps)) = some (true, true) := by decide
  obtain ⟨s,hs,hvw⟩ := map_eq_some_iff.mp hend
  obtain ⟨hwts,hsle⟩ := Prod.mk.inj hvw
  exact ⟨s,hs,hwts,hsle,
    (rwsem_excludes_and_progresses (Reach.foldlM (fun _ _ _ h => h) (.start rfl) hs)).2.2.2.2.2⟩

end B1nix.Rwsem
