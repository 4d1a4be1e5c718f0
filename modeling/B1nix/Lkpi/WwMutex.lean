import B1nix.Basic.Transition

namespace B1nix.WwMutex

open Function Transition Option

inductive Call where
  | lock | slow
  deriving DecidableEq

inductive Phase (L : Type) where
  | idle
  | want (call : Call) (l : L)
  | wounding (l chan : L)
  | decided (call : Call) (l : L)
  | parking (l : L)
  | prepared (call : Call) (l : L)
  | held (call : Call) (l : L)
  | committing (call : Call) (l : L)
  | asleep (call : Call) (l : L)
  | clear (call : Call) (l : L)
  | leaving (l : L)
  | unlocking (l : L)
  deriving DecidableEq

structure State (C L : Type) where
  holder : L → Option C
  wounded : C → Bool
  acquired : C → Nat
  parkedOn : C → Option L
  phase : C → Phase L
  woken : C → Bool

inductive Op (L : Type) where
  | trylock (l : L)
  | lock (l : L)
  | lockSlow (l : L)
  | unlock (l : L)
  | acquire
  | wake
  | spin
  | park
  | prepare
  | test
  | check
  | commit
  | resume
  | leave
  deriving DecidableEq

variable {C L : Type} [DecidableEq C] [DecidableEq L] {call : Call}

variable (stamp : C → Nat) (s : State C L) (e : C × Op L) (c : C)

def State.goto (p : Phase L) : State C L := { s with phase := update s.phase c p }

variable (l : L)

def takeLocked : Option (State C L) :=
  if s.holder l = none then
    some { s with
      holder := update s.holder l (some c)
      acquired := update s.acquired c (s.acquired c + 1) }
  else none

def Phase.listens (chan : L) : Phase L → Bool
  | .prepared _ l | .held _ l | .committing _ l | .asleep _ l => l = chan
  | _ => false

def wakeAll (chan : L) (s : State C L) : State C L :=
  { s with woken := fun c => s.woken c || (s.phase c).listens chan }

def contend : State C L :=
  match s.holder l with
  | none => s
  | some h =>
    if h = c then s.goto c .idle
    else if stamp c < stamp h ∧ s.wounded h = false then
      let s' := { s with wounded := update s.wounded h true }
      match s.parkedOn h with
      | some chan => s'.goto c (.wounding l chan)
      | none => s'.goto c (.decided .lock l)
    else s.goto c (.decided .lock l)

def released : State C L :=
  { s with
    holder := update s.holder l none
    acquired := update s.acquired c (s.acquired c - 1)
    phase := update s.phase c (.unlocking l) }

def rejoin (call : Call) (l : L) : Phase L :=
  match call with
  | .lock => .leaving l
  | .slow => .want .slow l

def step (op : Op L) : Option (State C L) :=
  match op, s.phase c with
  | .trylock l, .idle => some ((takeLocked s c l).getD s)
  | .lock l, .idle => some (s.goto c (.want .lock l))
  | .lockSlow l, .idle =>
    some ({ s with wounded := update s.wounded c false }.goto c (.want .slow l))
  | .unlock l, .idle => if s.holder l = some c then some (released s c l) else none
  | .acquire, .want call l =>
    match takeLocked s c l, call with
    | some s', _ => some (s'.goto c .idle)
    | none, .lock => some (contend stamp s c l)
    | none, .slow => some (s.goto c (.decided .slow l))
  | .wake, .unlocking l => some ((wakeAll l s).goto c .idle)
  | .wake, .wounding l chan => some ((wakeAll chan s).goto c (.decided .lock l))
  | .spin, .decided call l =>
    if call = .lock ∧ s.wounded c = true then some (s.goto c .idle)
    else some (s.goto c (.want call l))
  | .park, .decided .lock l =>
    if s.wounded c = true then some (s.goto c .idle)
    else some ({ s with parkedOn := update s.parkedOn c (some l) }.goto c (.parking l))
  | .prepare, .decided .slow l =>
    some ({ s with woken := update s.woken c false }.goto c (.prepared .slow l))
  | .prepare, .parking l =>
    some ({ s with woken := update s.woken c false }.goto c (.prepared .lock l))
  | .test, .prepared call l =>
    if s.holder l = none then some (s.goto c (.clear call l)) else some (s.goto c (.held call l))
  | .check, .held call l =>
    if call = .lock ∧ s.wounded c = true then some (s.goto c (.clear call l))
    else some (s.goto c (.committing call l))
  | .commit, .committing call l => some (s.goto c (.asleep call l))
  | .resume, .asleep call l => some (s.goto c (rejoin call l))
  | .resume, .clear call l => some (s.goto c (rejoin call l))
  | .leave, .leaving l =>
    some ({ s with parkedOn := update s.parkedOn c none }.goto c (.want .lock l))
  | _, _ => none

def fresh : State C L := ⟨fun _ => none,fun _ => false,fun _ => 0,fun _ => none,fun _ => .idle,
  fun _ => false⟩

def Disciplined : Prop := ∀ l, e.2 = .lockSlow l → ∀ m, s.holder m ≠ some e.1

def Stepped (s' : State C L) : Prop := Disciplined s e ∧ step stamp s e.1 e.2 = some s'

def Phase.pendingWake : Phase L → Option L
  | .unlocking l => some l
  | .wounding _ chan => some chan
  | _ => none

def Pending : Prop := ∃ u, (s.phase u).pendingWake = some l

def Deadlocked (members : Set C) : Prop :=
  members.Nonempty ∧ ∀ c ∈ members, ∃ call l h, s.phase c = .asleep call l ∧ s.woken c = false ∧
    s.holder l = some h ∧ h ∈ members ∧ h ≠ c ∧ ¬Pending s l

def Fair : Prop :=
  ∀ l h, s.phase e.1 = .prepared .lock l → s.holder l = some h →
    stamp h < stamp e.1 ∨ s.wounded h = true ∨ Pending s l

instance [Fintype L] (s : State C L) (e : C × Op L) : Decidable (Disciplined s e) :=
  inferInstanceAs (Decidable (∀ l, e.2 = .lockSlow l → ∀ m, s.holder m ≠ some e.1))

instance [Fintype C] [Fintype L] (stamp : C → Nat) (s : State C L) (e : C × Op L) :
    Decidable (Fair stamp s e) :=
  inferInstanceAs (Decidable (∀ l h, s.phase e.1 = .prepared .lock l → s.holder l = some h →
    stamp h < stamp e.1 ∨ s.wounded h = true ∨ ∃ u, (s.phase u).pendingWake = some l))

variable {stamp : C → Nat} {s s' : State C L} {c : C} {l chan : L} {p : Phase L}

def Phase.waitsOn : Phase L → Option L
  | .held .lock l | .committing .lock l | .asleep .lock l => some l
  | _ => none

def Phase.committed : Phase L → Option L
  | .committing .lock l | .asleep .lock l => some l
  | _ => none

def Phase.parks : Phase L → Option L
  | .parking l | .leaving l => some l
  | .prepared .lock l | .clear .lock l => some l
  | .held .lock l | .committing .lock l | .asleep .lock l => some l
  | _ => none

def Phase.slow : Phase L → Bool
  | .want .slow _ | .decided .slow _ | .prepared .slow _ | .held .slow _ => true
  | .committing .slow _ | .asleep .slow _ | .clear .slow _ => true
  | _ => false

attribute [simp] Phase.pendingWake Phase.waitsOn Phase.committed Phase.parks Phase.slow

def Yields (stamp : C → Nat) (s : State C L) (c : C) (l : L) : Prop :=
  ∃ h, s.holder l = some h ∧ (stamp h < stamp c ∨ s.wounded h = true)

structure Inv (stamp : C → Nat) (s : State C L) : Prop where
  waits : ∀ c l, (s.phase c).waitsOn = some l → s.woken c = false → Yields stamp s c l ∨ Pending s l
  heard : ∀ c l, (s.phase c).committed = some l → s.woken c = false → s.wounded c = true → Pending s l
  parked : ∀ c l, (s.phase c).parks = some l → s.parkedOn c = some l
  bare : ∀ c, (s.phase c).slow = true → ∀ l, s.holder l ≠ some c

lemma parks_of_committed (h : p.committed = some l) : p.parks = some l := by
  cases p with
  | committing call | asleep call => cases call <;> simp_all
  | _ => simp at h

lemma listens_of_waitsOn (h : p.waitsOn = some l) : p.listens l = true := by
  cases p with
  | held call | committing call | asleep call =>
    cases call <;> simp_all [Phase.listens]
  | _ => simp at h

lemma waitsOn_of_committed (h : p.committed = some l) : p.waitsOn = some l := by
  cases p with
  | committing call | asleep call => cases call <;> simp_all
  | _ => simp at h

lemma Pending.goto {f : C → Phase L} (h : Pending s l) (hs : s'.phase = update f c p) (hf : f = s.phase)
    (hc : (s.phase c).pendingWake = some l → p.pendingWake = some l) : Pending s' l := by
  obtain ⟨u,hu⟩ := h
  by_cases huc : u = c
  · exact ⟨c,by rw [hs,update_self]; exact hc (huc ▸ hu)⟩
  exact ⟨u,by rw [hs,update_of_ne huc,hf]; exact hu⟩

structure Moved (stamp : C → Nat) (s : State C L) (c : C) (p : Phase L) (s' : State C L) : Prop where
  phase : s'.phase = update s.phase c p
  silent : (s.phase c).pendingWake = none
  woken : ∀ d, d ≠ c → s'.woken d = s.woken d
  parkedOn : ∀ d, d ≠ c → s'.parkedOn d = s.parkedOn d
  yields : ∀ d m, Yields stamp s d m → Yields stamp s' d m ∨ p.pendingWake = some m
  wounded : ∀ d m, d ≠ c → (s.phase d).committed = some m → s'.wounded d = true →
    s.wounded d = true ∨ p.pendingWake = some m
  holder : ∀ d m, d ≠ c → s'.holder m = some d → s.holder m = some d
  waits : ∀ m, p.waitsOn = some m → s'.woken c = false →
    (s.phase c).waitsOn = some m ∧ s.woken c = false ∨ Yields stamp s' c m ∨ Pending s m
  heard : ∀ m, p.committed = some m → s'.woken c = false → s'.wounded c = true →
    (s.phase c).committed = some m ∧ s.woken c = false ∧ s.wounded c = true
  parked : ∀ m, p.parks = some m → s'.parkedOn c = some m
  bare : p.slow = true → ∀ m, s'.holder m ≠ some c

section

variable (h : Inv stamp s)

include h

lemma Inv.moved (hm : Moved stamp s c p s') : Inv stamp s' := by
  have hpd : ∀ {m}, Pending s m → Pending s' m := fun hp =>
    hp.goto hm.phase rfl (by rw [hm.silent]; exact nofun)
  have hnew : ∀ {m}, p.pendingWake = some m → Pending s' m := fun hp =>
    ⟨c,by rwa [hm.phase,update_self]⟩
  have hkp : ∀ d m, Yields stamp s d m ∨ Pending s m → Yields stamp s' d m ∨ Pending s' m := by
    rintro d m (hy | hp)
    · exact (hm.yields d m hy).imp_right hnew
    exact .inr (hpd hp)
  refine ⟨fun d m hd hw => ?_,fun d m hd hw hwo => ?_,fun d m hd => ?_,fun d hd m => ?_⟩
  · obtain rfl | hdc := eq_or_ne d c
    · rw [hm.phase,update_self] at hd
      obtain ⟨hold,hwk⟩ | hy | hp := hm.waits m hd hw
      · exact hkp d m (h.waits d m hold hwk)
      · exact .inl hy
      exact .inr (hpd hp)
    rw [hm.phase,update_of_ne hdc] at hd
    rw [hm.woken d hdc] at hw
    exact hkp d m (h.waits d m hd hw)
  · obtain rfl | hdc := eq_or_ne d c
    · rw [hm.phase,update_self] at hd
      obtain ⟨hold,hwk,hwnd⟩ := hm.heard m hd hw hwo
      exact hpd (h.heard d m hold hwk hwnd)
    rw [hm.phase,update_of_ne hdc] at hd
    rw [hm.woken d hdc] at hw
    obtain hold | hp := hm.wounded d m hdc hd hwo
    · exact hpd (h.heard d m hd hw hold)
    exact hnew hp
  · obtain rfl | hdc := eq_or_ne d c
    · rw [hm.phase,update_self] at hd
      exact hm.parked m hd
    rw [hm.phase,update_of_ne hdc] at hd
    rw [hm.parkedOn d hdc]
    exact h.parked d m hd
  obtain rfl | hdc := eq_or_ne d c
  · rw [hm.phase,update_self] at hd
    exact hm.bare hd m
  rw [hm.phase,update_of_ne hdc] at hd
  exact fun hhe => h.bare d hd m (hm.holder d m hdc hhe)

lemma Inv.goto (hsn : (s.phase c).pendingWake = none)
    (hwts : ∀ m, p.waitsOn = some m → s.woken c = false →
      (s.phase c).waitsOn = some m ∨ Yields stamp s c m ∨ Pending s m)
    (hhrd : ∀ m, p.committed = some m → s.wounded c = true → (s.phase c).committed = some m)
    (hpk : ∀ m, p.parks = some m → (s.phase c).parks = some m)
    (hbare : p.slow = true → (s.phase c).slow = true) : Inv stamp (s.goto c p) := by
  refine h.moved ⟨rfl,hsn,fun _ _ => rfl,fun _ _ => rfl,fun _ _ => .inl,
    fun _ _ _ _ => .inl,fun _ _ _ hd => hd,fun m hm hw => ?_,fun m hm hw hd => ?_,
    fun m hm => h.parked c m (hpk m hm),fun hp => h.bare c (hbare hp)⟩
  · exact (hwts m hm hw).imp_left fun hold => ⟨hold,hw⟩
  exact ⟨hhrd m hm hd,hw,hd⟩

lemma Inv.take (htk : takeLocked s c l = some s')
    (hsn : (s.phase c).pendingWake = none) : Inv stamp (s'.goto c .idle) := by
  unfold takeLocked at htk
  split at htk
  · next hfe =>
    cases htk
    refine h.moved ⟨rfl,hsn,fun _ _ => rfl,fun _ _ => rfl,?_,fun _ _ _ _ => .inl,
      fun d m hdc hd => ?_,nofun,nofun,nofun,nofun⟩
    · rintro d m ⟨o,ho,hy⟩
      have hne : m ≠ l := fun heq => by simp [heq,hfe] at ho
      exact .inl ⟨o,(update_of_ne hne ..).trans ho,hy⟩
    by_cases hml : m = l
    · simp only [State.goto,hml,update_self,some.injEq] at hd
      cases hdc hd.symm
    exact (update_of_ne hml ..).symm.trans hd
  cases htk

lemma Inv.contend (hph : s.phase c = .want .lock l) : Inv stamp (contend stamp s c l) := by
  have hid : Inv stamp (s.goto c .idle) := h.goto (by simp [hph])
    nofun nofun nofun nofun
  unfold WwMutex.contend
  split
  · exact h
  next o ho =>
  split
  · exact hid
  split
  · next hne hwo =>
    have hyld : ∀ d m, Yields stamp s d m →
        Yields stamp { s with wounded := update s.wounded o true } d m := by
      rintro d m ⟨u,hu,hy⟩
      refine ⟨u,hu,hy.imp_right fun hw => ?_⟩
      by_cases huo : u = o
      · rw [huo]
        exact update_self _ _ _
      exact (update_of_ne huo _ _).trans hw
    split
    · next chan hchan =>
      refine h.moved ⟨rfl,by simp [hph],
        fun _ _ => rfl,fun _ _ => rfl,fun d m hy => .inl (hyld d m hy),
        fun d m _ hd hw => ?_,fun _ _ _ hd => hd,nofun,nofun,nofun,nofun⟩
      by_cases hdo : d = o
      · rw [hdo] at hd
        exact .inr (hchan.symm.trans (h.parked o m (parks_of_committed hd)))
      exact .inl ((update_of_ne hdo _ _).symm.trans hw)
    next hnone =>
    refine h.moved ⟨rfl,by simp [hph],
      fun _ _ => rfl,fun _ _ => rfl,fun d m hy => .inl (hyld d m hy),
      fun d m _ hd hw => ?_,fun _ _ _ hd => hd,nofun,nofun,nofun,nofun⟩
    by_cases hdo : d = o
    · rw [hdo] at hd
      cases hnone.symm.trans (h.parked o m (parks_of_committed hd))
    exact .inl ((update_of_ne hdo _ _).symm.trans hw)
  exact h.goto (by simp [hph]) nofun nofun nofun nofun

lemma Inv.released (hph : s.phase c = .idle) : Inv stamp (released s c l) := by
  refine h.moved ⟨rfl,by simp [hph],fun _ _ => rfl,
    fun _ _ => rfl,?_,fun _ _ _ _ hw => .inl hw,fun d m _ hd => ?_,nofun,nofun,nofun,nofun⟩
  · rintro d m ⟨o,ho,hy⟩
    by_cases hml : m = l
    · exact .inr (by rw [hml]; rfl)
    exact .inl ⟨o,(update_of_ne hml _ _).trans ho,hy⟩
  by_cases hml : m = l
  · simp [WwMutex.released,hml] at hd
  exact (update_of_ne hml _ _).symm.trans hd

lemma Inv.wake (hph : (s.phase c).pendingWake = some chan)
    (hp : p.waitsOn = none ∧ p.parks = none ∧ p.slow = false) : Inv stamp ((wakeAll chan s).goto c p) := by
  have hpd : ∀ d m, (s.phase d).waitsOn = some m → ((wakeAll chan s).woken d) = false →
      s.woken d = false ∧ (Pending s m → Pending ((wakeAll chan s).goto c p) m) := by
    intro d m hd hw
    simp only [wakeAll,Bool.or_eq_false_iff] at hw
    refine ⟨hw.1,fun hpe => hpe.goto rfl rfl fun hc => ?_⟩
    cases hph.symm.trans hc
    rw [listens_of_waitsOn hd] at hw
    cases hw.2
  have hold : ∀ d, ((wakeAll chan s).goto c p).phase d = if d = c then p else s.phase d :=
    fun d => update_apply ..
  refine ⟨fun d m hd hw => ?_,fun d m hd hw hwo => ?_,fun d m hd => ?_,fun d hd => ?_⟩
  · rw [hold] at hd
    split at hd
    · cases hp.1.symm.trans hd
    obtain ⟨hwk,hkp⟩ := hpd d m hd hw
    exact (h.waits d m hd hwk).imp_right hkp
  · rw [hold] at hd
    split at hd
    · cases hp.1.symm.trans (waitsOn_of_committed hd)
    obtain ⟨hwk,hkp⟩ := hpd d m (waitsOn_of_committed hd) hw
    exact hkp (h.heard d m hd hwk hwo)
  · rw [hold] at hd
    split at hd
    · cases hp.2.1.symm.trans hd
    exact h.parked d m hd
  rw [hold] at hd
  split at hd
  · cases hp.2.2.symm.trans hd
  exact h.bare d hd

lemma Inv.lockSlow (hph : s.phase c = .idle) (hbare : ∀ m, s.holder m ≠ some c) :
    Inv stamp ({ s with wounded := update s.wounded c false }.goto c (.want .slow l)) := by
  refine h.moved ⟨rfl,by simp [hph],fun _ _ => rfl,fun _ _ => rfl,?_,
    fun d m hdc _ hw => .inl ((update_of_ne hdc ..).symm.trans hw),fun _ _ _ hd => hd,nofun,nofun,
    nofun,fun _ => hbare⟩
  rintro d m ⟨o,ho,hy⟩
  have hne : o ≠ c := fun heq => hbare m (heq ▸ ho)
  exact .inl ⟨o,ho,hy.imp_right (update_of_ne hne ..).trans⟩

lemma Inv.prepare (hsn : (s.phase c).pendingWake = none)
    (hpk : call = .lock → (s.phase c).parks = some l) (hbare : call = .slow → (s.phase c).slow = true) :
    Inv stamp ({ s with woken := update s.woken c false }.goto c (.prepared call l)) := by
  refine h.moved ⟨rfl,hsn,fun d hd => update_of_ne hd ..,fun _ _ => rfl,
    fun _ _ => .inl,fun _ _ _ _ => .inl,fun _ _ _ hd => hd,nofun,nofun,
    fun m hm => ?_,fun hp => ?_⟩
  · cases call with
    | lock => exact h.parked c m ((hpk rfl).trans hm)
    | slow => cases hm
  cases call with
  | lock => cases hp
  | slow => exact h.bare c (hbare rfl)

lemma Inv.setParked {o : Option L} (hsn : (s.phase c).pendingWake = none)
    (hp : p.waitsOn = none ∧ p.slow = false) (hpk : ∀ m, p.parks = some m → o = some m) :
    Inv stamp ({ s with parkedOn := update s.parkedOn c o }.goto c p) := by
  refine h.moved ⟨rfl,hsn,fun _ _ => rfl,fun d hd => update_of_ne hd ..,
    fun _ _ => .inl,fun _ _ _ _ => .inl,fun _ _ _ hd => hd,fun m hm => ?_,
    fun m hm => ?_,fun m hm => ?_,fun hs => ?_⟩
  · cases hp.1.symm.trans hm
  · cases hp.1.symm.trans (waitsOn_of_committed hm)
  · exact (update_self ..).trans (hpk m hm)
  cases hp.2.symm.trans hs

lemma Inv.trylock (hph : s.phase c = .idle) : Inv stamp ((takeLocked s c l).getD s) := by
  cases htk : takeLocked s c l with
  | none => exact h
  | some s' =>
    have hsa : s'.phase = s.phase := by
      unfold takeLocked at htk
      split at htk
      · rw [← some.inj htk]
      cases htk
    have hinv := h.take htk (by simp [hph])
    rwa [State.goto,hsa,← hph,update_eq_self,← hsa] at hinv

lemma Inv.test (hph : s.phase c = .prepared call l) (hfair : Fair stamp s (c, .test))
    (hhe : s.holder l ≠ none) : Inv stamp (s.goto c (.held call l)) := by
  obtain ⟨o,ho⟩ := ne_none_iff_exists'.mp hhe
  apply h.goto
  · simp [hph]
  · intro m hm _
    cases call with
    | slow => cases hm
    | lock =>
      cases hm
      obtain hlt | hw | hp := hfair l o hph ho
      · exact .inr (.inl ⟨o,ho,.inl hlt⟩)
      · exact .inr (.inl ⟨o,ho,.inr hw⟩)
      exact .inr (.inr hp)
  · exact nofun
  · cases call <;> simp [hph]
  cases call <;> simp [hph]

lemma Inv.step {e : C × Op L} (hfair : Fair stamp s e) (hstep : Stepped stamp s e s') : Inv stamp s' := by
  obtain ⟨c,op⟩ := e
  obtain ⟨hdisc,hstep⟩ := hstep
  unfold WwMutex.step at hstep
  dsimp only at hstep
  split at hstep
  case h_1 l hp =>
    cases hstep
    exact h.trylock hp
  case h_3 l hp =>
    cases hstep
    exact h.lockSlow hp (hdisc l rfl)
  case h_4 l hp =>
    split at hstep
    · cases hstep
      exact h.released hp
    cases hstep
  case h_5 call l hp =>
    split at hstep
    · next s'' htk =>
      cases hstep
      exact h.take htk (by simp [hp])
    · cases hstep
      exact h.contend hp
    cases hstep
    apply h.goto <;> simp [hp]
  case h_6 l hp =>
    cases hstep
    exact h.wake (by simp [hp]) ⟨rfl,rfl,rfl⟩
  case h_7 l chan hp =>
    cases hstep
    exact h.wake (by simp [hp]) ⟨rfl,rfl,rfl⟩
  case h_9 l hp =>
    split at hstep
    · cases hstep
      exact h.goto (by simp [hp]) nofun nofun nofun nofun
    cases hstep
    exact h.setParked (by simp [hp]) ⟨rfl,rfl⟩ fun _ hm => hm
  case h_10 l hp =>
    cases hstep
    exact h.prepare (by simp [hp]) nofun (by simp [hp])
  case h_11 l hp =>
    cases hstep
    exact h.prepare (by simp [hp]) (by simp [hp]) nofun
  case h_12 call l hp =>
    split_ifs at hstep with hhe
    · cases hstep
      apply h.goto <;> cases call <;> simp [hp]
    cases hstep
    exact h.test hp hfair hhe
  case h_17 l hp =>
    cases hstep
    exact h.setParked (by simp [hp]) ⟨rfl,rfl⟩ nofun
  case h_18 => cases hstep
  case h_2 l hp =>
    cases hstep
    exact h.goto (by simp [hp]) nofun nofun nofun nofun
  case h_8 call l hp | h_13 call l hp =>
    split at hstep
    all_goals
      cases hstep
      apply h.goto <;> cases call <;> simp_all
  case h_14 call l hp | h_15 call l hp | h_16 call l hp =>
    cases hstep
    apply h.goto <;> cases call <;> simp_all [rejoin]

lemma Inv.no_deadlock (members : Set C) : ¬Deadlocked s members := by
  rintro ⟨⟨c,hc⟩,hall⟩
  -- a member that another member waits for holds a lock, so it sleeps in the plain call
  have hnx : ∀ d ∈ members, (∃ m, s.holder m = some d) →
      ∃ o ∈ members, (∃ m, s.holder m = some o) ∧ stamp o < stamp d := by
    rintro d hd ⟨m,hm⟩
    have hpn : ∀ u ∈ members, (∃ m, s.holder m = some u) → ∃ k, s.phase u = .asleep .lock k ∧
        s.woken u = false ∧ ¬Pending s k ∧ ∃ o ∈ members, s.holder k = some o := by
      rintro u hu ⟨n,hn⟩
      obtain ⟨call,k,o,hp,hw,hk,ho,-,hq⟩ := hall u hu
      cases call with
      | slow => cases h.bare u (by rw [hp]; rfl) n hn
      | lock => exact ⟨k,hp,hw,hq,o,ho,hk⟩
    obtain ⟨k,hp,hw,hq,o,ho,hk⟩ := hpn d hd ⟨m,hm⟩
    refine ⟨o,ho,⟨k,hk⟩,?_⟩
    obtain ⟨u,hu,hy⟩ | hpe := h.waits d k (by rw [hp]; rfl) hw
    · cases hk.symm.trans hu
      obtain hlt | hwound := hy
      · exact hlt
      obtain ⟨n,hpo,hwo,hqo,-⟩ := hpn o ho ⟨k,hk⟩
      cases hqo (h.heard o n (by rw [hpo]; rfl) hwo hwound)
    cases hq hpe
  obtain ⟨call,l,o,-,-,hl,ho,-⟩ := hall c hc
  have hnone : ∀ n, ∀ d ∈ members, (∃ m, s.holder m = some d) → stamp d = n → False := by
    intro n
    induction n using Nat.strong_induction_on with
    | _ n ih =>
      intro d hd hm hn
      obtain ⟨u,hu,hum,hlt⟩ := hnx d hd hm
      exact ih (stamp u) (hn ▸ hlt) u hu hum rfl
  exact hnone _ o ho ⟨l,hl⟩ rfl

end

lemma Inv.fresh : Inv stamp (fresh : State C L) := ⟨nofun,nofun,nofun,nofun⟩

theorem fair_runs_never_deadlock {members : Set C}
    (hs : Reach (· = fresh) (guarded (Fair stamp) (Stepped stamp)) s) : ¬Deadlocked s members :=
  (hs.invariant (P := Inv stamp) (fun _ hs => hs ▸ Inv.fresh)
    fun _ _ _ hi he => hi.step he.1 he.2).no_deadlock members

def age (c : Fin 3) : Nat := c.val + 1

def sleep (c : Fin 3) : List (Fin 3 × Op (Fin 2)) :=
  [(c, .park),(c, .prepare),(c, .test),(c, .check),(c, .commit)]

def queueing : List (Fin 3 × Op (Fin 2)) :=
  [(0, .trylock 0),(1, .lock 0),(1, .acquire)] ++ sleep 1

theorem queueing_never_deadlocks : ∃ s : State (Fin 3) (Fin 2),
    queueing.foldlM (fun s e => if Fair age s e ∧ Disciplined s e then step age s e.1 e.2 else none)
      fresh = some s ∧ s.phase 1 = .asleep .lock 0 ∧ ¬Deadlocked s Set.univ := by
  have hend : (queueing.foldlM (fun s e => if Fair age s e ∧ Disciplined s e then
      step age s e.1 e.2 else none) fresh).map (fun s => s.phase 1) = some (.asleep .lock 0) := by
    decide
  obtain ⟨s,hs,hph⟩ := map_eq_some_iff.mp hend
  have hrch : Reach (· = fresh) (guarded (Fair age) (Stepped age)) s := by
    refine Reach.foldlM (fun s e t h => ?_) (.start rfl) hs
    split at h
    · next hok => exact ⟨hok.1,hok.2,h⟩
    cases h
  exact ⟨s,hs,hph,fair_runs_never_deadlock hrch⟩

def handover : List (Fin 3 × Op (Fin 2)) :=
  [(0, .trylock 1),(1, .trylock 0),(0, .lock 0),(0, .acquire),(1, .unlock 0),(1, .wake),
    (2, .trylock 0)] ++ sleep 0 ++ [(2, .lock 1),(2, .acquire)] ++ sleep 2

theorem handover_deadlocks : Injective age ∧
    ∃ s, Reach (· = fresh) (Stepped age) s ∧ Deadlocked (s : State (Fin 3) (Fin 2)) {0, 2} := by
  refine ⟨fun a b h => Fin.ext (Nat.succ.inj h),?_⟩
  have hend : (handover.foldlM (fun s e => if Disciplined s e then step age s e.1 e.2 else none)
      fresh).map (fun s => (s.phase, s.woken, s.holder)) =
        some (![.asleep .lock 0,.idle,.asleep .lock 1], fun _ => false, ![some 2,some 0]) := by
    decide
  obtain ⟨s,hs,hvw⟩ := map_eq_some_iff.mp hend
  obtain ⟨hph,hwk,hhol⟩ : s.phase = _ ∧ s.woken = _ ∧ s.holder = _ := by
    simpa only [Prod.mk.injEq] using hvw
  have hsn : ∀ l, ¬Pending s l := by
    unfold Pending
    rw [hph]
    decide
  refine ⟨s,Reach.foldlM (fun s e t h => ?_) (.start rfl) hs,⟨0,.inl rfl⟩,?_⟩
  · split at h
    · next hok => exact ⟨hok,h⟩
    cases h
  rintro c (rfl | rfl)
  · exact ⟨.lock,0,2,by rw [hph]; rfl,by rw [hwk],by rw [hhol]; rfl,.inr rfl,
      by decide,hsn 0⟩
  exact ⟨.lock,1,0,by rw [hph]; rfl,by rw [hwk],by rw [hhol]; rfl,.inl rfl,
    by decide,hsn 1⟩

end B1nix.WwMutex
