import B1nix.Basic.Transition

namespace B1nix.Ktimer

open Transition Function List

structure Cancel where
  me : Nat
  t : Nat
  was : Bool
  deriving DecidableEq

-- For each CPU: the clock it read in ktimer_tick, the timer whose callback it is in.
structure State where
  head : List Nat
  expires : Nat → Nat
  next : Nat
  running : Nat → Nat
  now : Nat → Option Nat
  due : Nat → Option Nat
  waiting : List Cancel
  returned : List Cancel

variable (s : State)

def ktRecomputeNext : State :=
  { s with next := s.head.foldl (fun next t => if s.expires t < next then s.expires t else next) (2 ^ 64 - 1) }

def ktimerArm (t ns : Nat) : State :=
  ktRecomputeNext { s with head := t :: s.head.erase t, expires := update s.expires t ns }

def ktimerCancel (cpu t : Nat) : State :=
  let was := s.head.contains t
  let s := { s with waiting := ⟨cpu + 1,t,was⟩ :: s.waiting }
  if was then ktRecomputeNext { s with head := s.head.erase t } else s

def passes (c : Cancel) : Bool :=
  s.waiting.contains c && (s.running c.t == 0 || s.running c.t == c.me)

def firstDue (now : Nat) : Option Nat := s.head.find? (s.expires · ≤ now)

-- One step of a CPU in ktimer_tick: the callback returns, the lock is taken, or the tick comes.
def ktimerTick (cpu clock : Nat) : State :=
  match s.due cpu, s.now cpu with
  | some t, _ => { s with running := update s.running t 0, due := update s.due cpu none }
  | none, some now => ktRecomputeNext <| match firstDue s now with
    | none => { s with now := update s.now cpu none }
    | some t =>
      { s with
        head := s.head.erase t
        running := update s.running t (cpu + 1)
        due := update s.due cpu (some t) }
  | none, none => if s.next = 2 ^ 64 - 1 ∨ s.head = [] ∨ clock < s.next then s
    else { s with now := update s.now cpu (some clock) }

inductive Event where
  | arm (t ns : Nat)
  | rearm (cpu ns : Nat)
  | cancel (cpu t : Nat)
  | poll (c : Cancel)
  | tick (cpu clock : Nat)

def step : Event → State
  | .arm t ns => ktimerArm s t ns
  | .rearm cpu ns => match s.due cpu with
    | none => s
    | some t => ktimerArm s t ns
  | .cancel cpu t => ktimerCancel s cpu t
  | .poll c => if passes s c then { s with waiting := s.waiting.erase c, returned := c :: s.returned } else s
  | .tick cpu clock => ktimerTick s cpu clock

def boot : State := ⟨[],fun _ => 0,0,fun _ => 0,fun _ => none,fun _ => none,[],[]⟩

structure Final (s : State) : Prop where
  alone : ∀ i j t, s.due i = some t → s.due j = some t → i = j
  gone : ∀ c ∈ s.returned, c.t ∉ s.head ∧ ∀ i, s.due i ≠ some c.t

def Careful : Event → Prop
  | .arm t _ => ∀ c ∈ s.returned, c.t ≠ t
  | .poll c => passes s c → s.running c.t = 0 ∧ c.t ∉ s.head
  | .tick cpu _ => ∀ now t, s.due cpu = none → s.now cpu = some now → firstDue s now = some t → s.running t = 0
  | _ => True

structure Marked (s : State) : Prop where
  mark : ∀ i t, s.due i = some t ↔ s.running t = i + 1
  gone : ∀ c ∈ s.returned, c.t ∉ s.head ∧ s.running c.t = 0

variable {s : State} {t cpu : Nat}

lemma Marked.final (h : Marked s) : Final s := by
  refine ⟨fun i j t hi hj => ?_,fun c hc => ⟨(h.gone c hc).1,fun i hi => ?_⟩⟩
  · exact Nat.succ.inj (((h.mark i t).mp hi).symm.trans ((h.mark j t).mp hj))
  cases (h.gone c hc).2.symm.trans ((h.mark i c.t).mp hi)

lemma Marked.arm (h : Marked s) {ns : Nat} (ht : ∀ c ∈ s.returned, c.t ≠ t) : Marked (ktimerArm s t ns) := by
  refine ⟨h.mark,fun c hc => ⟨fun hin => ?_,(h.gone c hc).2⟩⟩
  obtain heq | hin := mem_cons.mp hin
  · exact ht c hc heq
  exact (h.gone c hc).1 (mem_of_mem_erase hin)

lemma Marked.unlink (h : Marked s) (t : Nat) : Marked { s with head := s.head.erase t } :=
  ⟨h.mark,fun c hc => (h.gone c hc).imp_left fun hg hin => hg (mem_of_mem_erase hin)⟩

section

variable (h : Marked s) {e : Event}

include h

lemma Marked.call (hn : s.due cpu = none) (hr : s.running t = 0)
    (ht : ∀ c ∈ s.returned, c.t ≠ t) :
    Marked { s with running := update s.running t (cpu + 1), due := update s.due cpu (some t) } := by
  refine ⟨fun i u => ?_,fun c hc => (h.gone c hc).imp_right (update_of_ne (ht c hc) ..).trans⟩
  have := h.mark
  grind [update_apply]

lemma Marked.finish (hd : s.due cpu = some t) :
    Marked { s with running := update s.running t 0, due := update s.due cpu none } := by
  refine ⟨fun i u => ?_,fun c hc => (h.gone c hc).imp_right fun hze => ?_⟩
  · have := h.mark
    grind [update_apply]
  grind [update_apply]

lemma Marked.tick {clock : Nat} (hok : Careful s (.tick cpu clock)) :
    Marked (ktimerTick s cpu clock) := by
  rw [ktimerTick]
  split
  · next hd => exact h.finish hd
  · next now hd hnow =>
    cases hdu : firstDue s now with
    | none => exact ⟨h.mark,h.gone⟩
    | some t =>
      have hin : t ∈ s.head := mem_of_find?_eq_some hdu
      have hca := (h.unlink t).call hd (hok now t hd hnow hdu) fun c hc heq => (h.gone c hc).1 (heq ▸ hin)
      exact ⟨hca.mark,hca.gone⟩
  · split
    · exact h
    exact ⟨h.mark,h.gone⟩

lemma Marked.step (hok : Careful s e) : Marked (step s e) := by
  cases e with
  | arm t ns => exact h.arm hok
  | rearm cpu ns =>
    rw [Ktimer.step]
    split
    · exact h
    next t ht => exact h.arm fun c hc heq => (h.final.gone c hc).2 cpu (heq ▸ ht)
  | cancel cpu t =>
    rw [Ktimer.step,ktimerCancel]
    dsimp only
    split
    · exact ⟨h.mark,(h.unlink t).gone⟩
    exact ⟨h.mark,h.gone⟩
  | poll c =>
    rw [Ktimer.step]
    split
    · next hp => exact ⟨h.mark,forall_mem_cons.mpr ⟨(hok hp).symm,h.gone⟩⟩
    exact h
  | tick cpu clock => exact h.tick hok

lemma Marked.idle (ht : ∀ i, s.due i ≠ some t) : s.running t = 0 := by
  cases hr : s.running t with
  | zero => rfl
  | succ i => cases ht i ((h.mark i t).mpr hr)

lemma Marked.careful (hf : Final (Ktimer.step s e)) : Careful s e := by
  cases e with
  | arm t ns => exact fun c hc heq => (hf.gone c hc).1 (heq ▸ mem_cons_self ..)
  | poll c =>
    intro hp
    rw [Ktimer.step,if_pos hp] at hf
    obtain ⟨hq,hr⟩ := hf.gone c (mem_cons_self ..)
    exact ⟨h.idle hr,hq⟩
  | tick cpu clock =>
    intro now t hd hnow hdu
    rw [Ktimer.step,ktimerTick,hd,hnow] at hf
    dsimp only at hf
    rw [hdu] at hf
    -- Another CPU in the callback would share it with this one after the step.
    refine h.idle fun i hi => ?_
    have hne : i ≠ cpu := by
      rintro rfl
      cases hd.symm.trans hi
    exact hne (hf.alone i cpu t ((update_of_ne hne ..).trans hi) (update_self ..))
  | rearm cpu ns | cancel cpu t => trivial

end

def called : List Event := [.arm 0 1,.tick 0 1,.tick 0 1]

def shared : List Event := [.rearm 0 1,.tick 1 1,.tick 1 1]

def missed : List Event := [.cancel 1 0,.rearm 0 1,.tick 0 1,.poll ⟨2,0,false⟩]

end B1nix.Ktimer
