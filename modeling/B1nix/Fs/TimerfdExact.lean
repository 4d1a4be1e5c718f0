import B1nix.Basic.Tally
import B1nix.Fs.Timerfd

namespace B1nix.Timerfd

open Function B1nix.Tally B1nix.Transition Finset Nat

variable {m : Machine} {w w' : World} {now : Now} {t t' : TimerfdState} {g g' : Globals}
  {al : Alarm} {fd x : Nat} {r : TimerfdState × Globals}

def AtOrAfter (m : Machine) (tick : Int) (time : Int) : Prop := time ≤ tick * m.tickNs - m.phase

lemma tickNs_ge (m : Machine) : 1000 ≤ m.tickNs := by
  have h := div_le_div_left (a := nsPerSec) m.hz_le m.hz_pos
  exact h

lemma tickNs_le (m : Machine) : m.tickNs ≤ nsPerSec := div_le_self _ _

lemma u64_of_lt (h : x < 2 ^ 64) : u64 x = x := mod_eq_of_lt h

variable {ns delay deadline : Nat} {asked : Option Alarm} {ts : Timespec} {T : Int}

lemma ticksUp_bounds (h : ns < 2 ^ 63) :
    ns ≤ ticksUp m ns * m.tickNs ∧ ticksUp m ns * m.tickNs < ns + m.tickNs := by
  have hge := tickNs_ge m
  have hle : m.tickNs ≤ 1000000000 := tickNs_le m
  have hdiv := div_add_mod (ns + m.tickNs - 1) m.tickNs
  have hmod := mod_lt (ns + m.tickNs - 1) (by omega : 0 < m.tickNs)
  rw [ticksUp,u64_of_lt (by omega),mul_comm]
  omega

structure OnTime (m : Machine) (now : Now) : Prop where
  user : now.user < 2 ^ 62
  kernel : now.kernel < 2 ^ 62
  tick : now.tick * m.tickNs ≤ now.user + m.phase

lemma OnTime.tick_lt (h : OnTime m now) : now.tick < 2 ^ 60 := by
  have hge := tickNs_ge m
  have hle := m.phase_le
  have huser := h.user
  have htk := h.tick
  have hmul : now.tick * 1000 ≤ now.tick * m.tickNs := mul_le_mul_left _ hge
  omega

lemma OnTime.look_le (h : OnTime m now) (hdel : delay < 2 ^ 63)
    (hT : AtOrAfter m T (now.user + delay)) : (now.tick + ticksUp m delay : Int) ≤ T := by
  have htk := h.tick
  have hup := (ticksUp_bounds (m := m) hdel).2
  have hpos : (0 : Int) < m.tickNs := by
    have := tickNs_ge m
    omega
  rw [AtOrAfter] at hT
  have hmul : (now.tick + ticksUp m delay : Int) * m.tickNs < (T + 1) * m.tickNs := by
    linarith [add_mul (now.tick : Int) (ticksUp m delay) m.tickNs,add_mul T 1 (m.tickNs : Int)]
  have := lt_of_mul_lt_mul_right hmul hpos.le
  omega

lemma ticksUp_lt (h : delay < 2 ^ 63) : ticksUp m delay < 2 ^ 60 := by
  have hup := (ticksUp_bounds (m := m) h).2
  have hge := tickNs_ge m
  have hle : m.tickNs ≤ 1000000000 := tickNs_le m
  have hmul : ticksUp m delay * 1000 ≤ ticksUp m delay * m.tickNs := mul_le_mul_left _ hge
  omega

lemma ticksUp_pos (hpos : 0 < delay) (h : delay < 2 ^ 63) : 0 < ticksUp m delay := by
  have hup := (ticksUp_bounds (m := m) h).1
  obtain hze | hpos := Nat.eq_zero_or_pos (ticksUp m delay)
  · rw [hze] at hup
    omega
  exact hpos

structure Tracks (m : Machine) (t : TimerfdState) (al : Alarm) : Prop where
  armed : t.armed = true
  deadline : (t.deadlineNs : Int) = al.deadline
  positive : 0 < t.deadlineNs
  bound : t.deadlineNs < 2 ^ 63
  interval : t.intervalNs = al.interval
  short : al.interval < 2 ^ 62
  aligned : t.intervalNs = t.intervalTicks * m.tickNs
  next : 0 < t.nextTick
  early : ∀ T : Int, AtOrAfter m T al.deadline → (t.nextTick : Int) ≤ T

def Holds (m : Machine) (t : TimerfdState) : Option Alarm → Prop
  | none => t.armed = false
  | some al => Tracks m t al

lemma noteDeadline_due (tick : Nat) (g : Globals) :
    (timerfdNoteDeadline tick g).due ≤ g.due ∧
    (0 < tick → (timerfdNoteDeadline tick g).due ≤ tick) ∧
    (timerfdNoteDeadline tick g).armedTimerfds = g.armedTimerfds := by
  unfold timerfdNoteDeadline
  split
  · next h => exact ⟨h.2.le,fun _ => le_rfl,rfl⟩
  next h =>
  refine ⟨le_rfl,fun hpos => ?_,rfl⟩
  by_contra hlt
  exact h ⟨hpos.ne',by omega⟩

lemma Tracks.next_le (h : Tracks m t al) : t.nextTick ≤ t.deadlineNs + 2 ^ 62 := by
  have hge := tickNs_ge m
  have hph := m.phase_le
  have hdl := h.deadline
  have hea := h.early (t.deadlineNs + 2 ^ 62) (by
    rw [AtOrAfter]
    have hmul : ((t.deadlineNs : Int) + 2 ^ 62) * 1 ≤ ((t.deadlineNs : Int) + 2 ^ 62) * m.tickNs :=
      mul_le_mul_of_nonneg_left (by omega) (by omega)
    omega)
  omega

lemma Tracks.look (h : Tracks m t al) (hnow : OnTime m now) (hbf : now.user < t.deadlineNs) :
    u64 (now.tick + ticksUp m (t.deadlineNs - now.user)) =
        now.tick + ticksUp m (t.deadlineNs - now.user) ∧
      now.tick < now.tick + ticksUp m (t.deadlineNs - now.user) ∧
      ∀ T : Int, AtOrAfter m T al.deadline →
        ((now.tick + ticksUp m (t.deadlineNs - now.user) : Nat) : Int) ≤ T := by
  have hbd := h.bound
  have htk := hnow.tick_lt
  have hdel : t.deadlineNs - now.user < 2 ^ 63 := by omega
  have hup := ticksUp_lt (m := m) hdel
  have hpos := ticksUp_pos (m := m) (by omega) hdel
  refine ⟨u64_of_lt (by omega),by omega,fun T hT => ?_⟩
  rw [← h.deadline] at hT
  have hsum : (now.user : Int) + (t.deadlineNs - now.user : Nat) = t.deadlineNs := by omega
  rw [← hsum] at hT
  exact_mod_cast hnow.look_le hdel hT

def armedOne (t : TimerfdState) : Nat := if t.armed then 1 else 0

structure Advanced (m : Machine) (now : Now) (t : TimerfdState) (g : Globals) (al : Alarm)
    (r : TimerfdState × Globals) : Prop where
  due : r.2.due ≤ g.due
  count : r.2.armedTimerfds - armedOne r.1 = g.armedTimerfds - armedOne t
  reported : r.1.expirations = if al.deadline ≤ now.user then al.expirations now.user else 0
  holds : Holds m r.1 (askedAfter now (some al))
  wakes : al.deadline ≤ now.user → ∀ al', askedAfter now (some al) = some al' →
    ∀ T : Int, AtOrAfter m T al'.deadline → (r.2.due : Int) ≤ T

section

variable (h : Tracks m t al)

include h

lemma Tracks.wait (hnow : OnTime m now) (hid : t.expirations = 0) (hbf : now.user < t.deadlineNs) :
    Advanced m now t g al (timerfdAdvance m now t g) := by
  have hlate : ¬al.deadline ≤ now.user := by
    rw [← h.deadline]
    omega
  have hask : askedAfter now (some al) = some al := if_neg hlate
  obtain ⟨hex,hah,hlk⟩ := h.look hnow hbf
  rw [timerfdAdvance,if_neg (by simp [h.armed,h.next.ne']),if_pos h.positive.ne',if_pos hbf]
  split
  · rw [hex]
    obtain ⟨hdue,-,hct⟩ := noteDeadline_due
      (now.tick + ticksUp m (t.deadlineNs - now.user)) g
    refine ⟨hdue,by rw [hct]; rfl,by rw [if_neg hlate]; exact hid,?_,
      fun hd => absurd hd hlate⟩
    rw [hask]
    exact { h with next := by dsimp only; omega, early := hlk }
  refine ⟨le_rfl,rfl,by rw [if_neg hlate]; exact hid,?_,fun hd => absurd hd hlate⟩
  rw [hask]
  exact h

lemma Tracks.fireOnce (hid : t.expirations = 0) (hdue : t.deadlineNs ≤ now.user)
    (honce : t.intervalNs = 0) : Advanced m now t g al (timerfdAdvance m now t g) := by
  have hrc : al.deadline ≤ now.user := by
    rw [← h.deadline]
    omega
  have honce' : al.interval = 0 := h.interval ▸ honce
  have hask : askedAfter now (some al) = none := by
    rw [askedAfter,if_pos hrc,Alarm.after,if_pos honce']
  rw [timerfdAdvance,if_neg (by simp [h.armed,h.next.ne']),if_pos h.positive.ne',
    if_neg (by omega),if_pos honce]
  refine ⟨le_rfl,by simp [armedOne,h.armed],?_,?_,fun _ al' hal' => ?_⟩
  · rw [if_pos hrc,Alarm.expirations,if_pos honce',hid]
    rfl
  · rw [hask]
    rfl
  rw [hask] at hal'
  cases hal'

lemma Tracks.firePeriodic (hnow : OnTime m now) (hid : t.expirations = 0) (hdue : t.deadlineNs ≤ now.user)
    (hper : t.intervalNs ≠ 0) : Advanced m now t g al (timerfdAdvance m now t g) := by
  have hrc : al.deadline ≤ now.user := by
    rw [← h.deadline]
    omega
  have huser := hnow.user
  have hsr := h.short
  have hiv := h.interval
  have hnextLe := h.next_le
  have htic : t.intervalTicks ≠ 0 := fun hze => hper (by rw [h.aligned,hze,zero_mul])
  obtain ⟨n,hn⟩ : ∃ n, n = 1 + (now.user - t.deadlineNs) / t.intervalNs := ⟨_,rfl⟩
  have hct : al.expirations now.user = n := by
    rw [Alarm.expirations,if_neg (hiv ▸ hper),← hiv,← h.deadline,hn]
    congr 2
    omega
  have hn_le : n * t.intervalNs ≤ now.user - t.deadlineNs + t.intervalNs := by
    rw [hn,add_mul]
    have := div_mul_le_self (now.user - t.deadlineNs) t.intervalNs
    omega
  have hn_lt : n < 2 ^ 63 := by
    have := div_le_self (now.user - t.deadlineNs) t.intervalNs
    omega
  have hdl : u64 (t.deadlineNs + n * t.intervalNs) = t.deadlineNs + n * t.intervalNs :=
    u64_of_lt (by omega)
  have hask : askedAfter now (some al) =
      some { al with deadline := al.deadline + n * al.interval } := by
    rw [askedAfter,if_pos hrc,Alarm.after,if_neg (hiv ▸ hper),hct]
  have hea : ∀ T : Int, AtOrAfter m T (al.deadline + n * al.interval) →
      ((t.nextTick + n * t.intervalTicks : Nat) : Int) ≤ T := by
    intro T hT
    have hba := h.early (T - n * t.intervalTicks) (by
      rw [AtOrAfter] at hT ⊢
      have hcast : (al.interval : Int) = t.intervalTicks * m.tickNs := by
        rw [← hiv,h.aligned]
        rfl
      rw [hcast] at hT
      linarith [sub_mul T (n * t.intervalTicks : Int) (m.tickNs : Int),
        mul_assoc (n : Int) t.intervalTicks m.tickNs])
    omega
  have hnx : u64 (t.nextTick + n * t.intervalTicks) = t.nextTick + n * t.intervalTicks := by
    have hge := tickNs_ge m
    have hmul : n * t.intervalTicks ≤ n * t.intervalNs := by
      rw [h.aligned]
      exact Nat.mul_le_mul_left _ (Nat.le_mul_of_pos_right _ (by omega))
    exact u64_of_lt (by omega)
  rw [timerfdAdvance,if_neg (by simp [h.armed,h.next.ne']),if_pos h.positive.ne',
    if_neg (by omega),if_neg hper]
  dsimp only
  rw [← hn,u64_of_lt (by omega : n < 2 ^ 64),if_pos htic,hnx,hdl,hid,zero_add,
    u64_of_lt (by omega)]
  obtain ⟨hlow,hno,harm⟩ := noteDeadline_due (t.nextTick + n * t.intervalTicks) g
  have hpos : 0 < t.nextTick + n * t.intervalTicks := by
    have := h.next
    omega
  refine ⟨hlow,by rw [harm]; rfl,?_,?_,fun _ al' hal' T hT => ?_⟩
  · rw [if_pos hrc,hct]
  · rw [hask]
    refine ⟨h.armed,?_,?_,?_,h.interval,h.short,h.aligned,hpos,hea⟩
    · rw [← h.deadline,← hiv]
      rfl
    · have := h.positive
      dsimp only
      omega
    dsimp only
    omega
  rw [hask] at hal'
  cases hal'
  exact (Int.ofNat_le.mpr (hno hpos)).trans (hea T hT)

lemma Tracks.advance (hnow : OnTime m now) (hid : t.expirations = 0)
    (g : Globals) : Advanced m now t g al (timerfdAdvance m now t g) := by
  obtain hbf | hdue := lt_or_ge now.user t.deadlineNs
  · exact h.wait hnow hid hbf
  by_cases honce : t.intervalNs = 0
  · exact h.fireOnce hid hdue honce
  exact h.firePeriodic hnow hid hdue honce

end

lemma advance_disarmed (h : t.armed = false) : timerfdAdvance m now t g = (t, g) := by
  rw [timerfdAdvance,if_pos (.inl h)]

structure Served (m : Machine) (w : World) (fd : Nat) (r : TimerfdState × Globals)
    (asked : Option Alarm) : Prop where
  idle : r.1.expirations = 0
  due : r.2.due ≤ w.globals.due
  count : r.2.armedTimerfds - armedOne r.1 = w.globals.armedTimerfds - armedOne (w.timer fd)
  holds : Holds m r.1 asked
  wakes : asked = w.asked fd ∨ ∀ al, asked = some al →
    ∀ T : Int, AtOrAfter m T al.deadline → (r.2.due : Int) ≤ T

def Wakes (m : Machine) (w : World) (al : Alarm) : Prop :=
  (∀ T : Int, AtOrAfter m T al.deadline → (w.globals.due : Int) ≤ T) ∨ al.deadline ≤ w.lastWake

structure Sound (m : Machine) (w : World) : Prop where
  onTime : OnTime m w.now
  woken : w.lastWake ≤ w.now.user
  idle : ∀ fd ∈ w.fds, (w.timer fd).expirations = 0
  holds : ∀ fd ∈ w.fds, Holds m (w.timer fd) (w.asked fd)
  wakes : ∀ fd ∈ w.fds, ∀ al, w.asked fd = some al → Wakes m w al
  count : w.globals.armedTimerfds = (∑ fd ∈ w.fds, armedOne (w.timer fd) : Nat)

lemma Wakes.lower (h : Wakes m w al) (hdue : w'.globals.due ≤ w.globals.due)
    (hwk : w.lastWake ≤ w'.lastWake) : Wakes m w' al := by
  obtain hea | hla := h
  · refine .inl fun T hT => ?_
    have := hea T hT
    omega
  exact .inr (by omega)

lemma timerfdRead_fst (m : Machine) (now : Now) (t : TimerfdState) (g : Globals) :
    (timerfdRead m now t g).1 =
      if (timerfdAdvance m now t g).1.expirations ≠ 0 then
        some (timerfdAdvance m now t g).1.expirations else none := by
  rw [timerfdRead]
  dsimp only
  split
  · rfl
  rfl

lemma timerfdRead_snd (m : Machine) (now : Now) (t : TimerfdState) (g : Globals) :
    (timerfdRead m now t g).2 =
      ({ (timerfdAdvance m now t g).1 with expirations := 0 }, (timerfdAdvance m now t g).2) := by
  rw [timerfdRead]
  dsimp only
  split_ifs with hze
  · rfl
  rw [not_not] at hze
  rw [← hze]

lemma Holds.report (h : Holds m t asked) :
    Holds m { t with expirations := 0 } asked := by
  cases asked with
  | none => exact h
  | some => exact { h with }

lemma Sound.read (h : Sound m w) (hfd : fd ∈ w.fds) :
    Served m w fd (timerfdRead m w.now (w.timer fd) w.globals).2 (askedAfter w.now (w.asked fd)) := by
  have hhd := h.holds fd hfd
  rw [timerfdRead_snd]
  cases hask : w.asked fd with
  | none =>
    rw [hask] at hhd
    rw [advance_disarmed hhd]
    exact ⟨rfl,le_rfl,rfl,hhd,.inl hask.symm⟩
  | some al =>
    rw [hask] at hhd
    have hadv := Tracks.advance hhd h.onTime (h.idle fd hfd) w.globals
    refine ⟨rfl,hadv.due,hadv.count,hadv.holds.report,?_⟩
    by_cases hrc : al.deadline ≤ w.now.user
    · exact .inr (hadv.wakes hrc)
    rw [hask]
    exact .inl (if_neg hrc)

lemma timespecToTicks_eq (hvl : ts.Valid) (hbd : ts.ns < 2 ^ 62) :
    timespecToTicks m ts =
      ts.sec.toNat * m.hz + if 0 < ts.nsec then ticksUp m ts.nsec.toNat else 0 := by
  obtain ⟨hsec,-,hnsec,hlt⟩ := hvl
  rw [Timespec.ns] at hbd
  have hns : (nsPerSec : Int) = 1000000000 := rfl
  rw [hns] at hbd hlt
  have hhz := m.hz_le
  have hmul : ts.sec.toNat * m.hz ≤ ts.sec.toNat * 1000000 := mul_le_mul_left _ hhz
  have hmax : timerfdTicksMax = 2 ^ 62 - 1 := rfl
  have hdiv : timerfdTicksMax / 1000000 ≤ timerfdTicksMax / m.hz := div_le_div_left hhz m.hz_pos
  rw [hmax] at hdiv
  have hup := ticksUp_lt (m := m) (by omega : ts.nsec.toNat < 2 ^ 63)
  rw [timespecToTicks,if_neg (by omega),hmax,if_neg (by omega)]
  dsimp only
  rw [u64_of_lt (by omega : ts.sec.toNat * m.hz < 2 ^ 64)]
  split
  · rw [u64_of_lt (by omega),if_neg (by omega)]
  rw [if_neg (by omega),add_zero]

lemma timespecToTicks_pos (hvl : ts.Valid) (hbd : ts.ns < 2 ^ 62)
    (hne : ¬(ts.sec = 0 ∧ ts.nsec = 0)) : timespecToTicks m ts ≠ 0 := by
  rw [timespecToTicks_eq hvl hbd]
  obtain ⟨hsec,-,hnsec,hlt⟩ := hvl
  have hlt' : ts.nsec < 1000000000 := hlt
  split_ifs with hpos
  · have := ticksUp_pos (m := m) (by omega : 0 < ts.nsec.toNat) (by omega)
    omega
  have hpos : 0 < ts.sec.toNat := by omega
  have := mul_pos hpos m.hz_pos
  omega

lemma ticksUp_exact (hbd : ns < 2 ^ 63) (h : ns % m.tickNs = 0) : ticksUp m ns * m.tickNs = ns := by
  obtain ⟨hlow,hhg⟩ := ticksUp_bounds (m := m) hbd
  obtain ⟨k,rfl⟩ := dvd_of_mod_eq_zero h
  have hpos : 0 < m.tickNs := by omega
  have hle : k ≤ ticksUp m (m.tickNs * k) := by
    refine le_of_mul_le_mul_right ?_ hpos
    rw [mul_comm k]
    exact hlow
  have hlt : ticksUp m (m.tickNs * k) < k + 1 := by
    refine Nat.lt_of_mul_lt_mul_right (a := m.tickNs) ?_
    rw [add_mul,one_mul,mul_comm k]
    exact hhg
  rw [(le_of_lt_succ hlt).antisymm hle,mul_comm]

def Timespec.Aligned (m : Machine) (ts : Timespec) : Prop :=
  ts.nsec.toNat % m.tickNs = 0 ∧ (ts.sec = 0 ∨ m.hz * m.tickNs = nsPerSec)

lemma Timespec.Aligned.ticks (h : ts.Aligned m) (hvl : ts.Valid) (hbd : ts.ns < 2 ^ 62) :
    ts.ns.toNat = timespecToTicks m ts * m.tickNs := by
  rw [timespecToTicks_eq hvl hbd,add_mul]
  obtain ⟨hsec,-,hnsec,hlt⟩ := hvl
  have hlt' : ts.nsec < 1000000000 := hlt
  have hrs : (if 0 < ts.nsec then ticksUp m ts.nsec.toNat else 0) * m.tickNs = ts.nsec.toNat := by
    split
    · exact ticksUp_exact (by omega) h.1
    omega
  have hwh : ts.sec.toNat * m.hz * m.tickNs = ts.sec.toNat * nsPerSec := by
    obtain hze | hrate := h.2
    · simp [hze]
    rw [mul_assoc,hrate]
  have hns : nsPerSec = 1000000000 := rfl
  rw [hwh,Timespec.ns,hns]
  omega

@[mk_iff]
structure Itimerspec.Exact (m : Machine) (now : Now) (clock : Clock) (abstime : Bool)
    (offset : Int) (spec : Itimerspec) : Prop where
  steady : clock.wall = false
  ahead : now.user < spec.deadline now clock abstime offset
  bound : spec.deadline now clock abstime offset < 2 ^ 62
  interval : spec.interval.ns < 2 ^ 62
  offset_ge : -2 ^ 62 ≤ offset
  offset_le : offset ≤ 2 ^ 62
  aligned : spec.interval.Aligned m

structure Plan.Meets (m : Machine) (now : Now) (plan : Plan) (deadline : Nat) : Prop where
  value : plan.value ≠ 0
  target : plan.targetTick = now.tick + ticksUp m (deadline - now.user)
  deadlineNs : plan.deadlineNs = deadline

variable {spec : Itimerspec} {clock : Clock} {offset : Int}

lemma Itimerspec.Exact.absolute (h : spec.Exact m now clock true offset) (hnow : OnTime m now) :
    (planAbsolute m now clock offset spec).Meets m now (spec.deadline now clock true offset).toNat := by
  have hdl : spec.deadline now clock true offset =
      spec.value.sec * nsPerSec + spec.value.nsec - offset := by
    simp [Itimerspec.deadline,h.steady,Timespec.ns]
  have hah := h.ahead
  have hbd := h.bound
  have htk := hnow.tick_lt
  obtain ⟨d,hd⟩ : ∃ d, d = spec.deadline now clock true offset := ⟨_,rfl⟩
  rw [← hd] at hah hbd hdl ⊢
  have hsig : d.bmod (2 ^ 64) = d := Int.bmod_eq_of_le (by omega) (by omega)
  have hup := ticksUp_lt (m := m) (by omega : d.toNat - now.user < 2 ^ 63)
  have hpos := ticksUp_pos (m := m) (by omega : 0 < d.toNat - now.user) (by omega)
  rw [planAbsolute,if_neg (by simp [h.steady]),← hdl]
  dsimp only
  rw [hsig,if_pos (by omega : 0 < d),if_pos (by omega : now.user < d.toNat),
    if_neg hpos.ne',u64_of_lt (by omega),if_pos (by omega)]
  exact ⟨hpos.ne',rfl,rfl⟩

lemma Itimerspec.Exact.relative (h : spec.Exact m now clock false offset) (hnow : OnTime m now)
    (hvl : spec.value.Valid) (hne : ¬(spec.value.sec = 0 ∧ spec.value.nsec = 0)) :
    (planRelative m now clock spec).Meets m now (spec.deadline now clock false offset).toNat := by
  have hdl : spec.deadline now clock false offset = now.user + spec.value.ns := rfl
  have hah := h.ahead
  have hbd := h.bound
  have htk := hnow.tick_lt
  have hkernel := hnow.kernel
  rw [hdl] at hah hbd ⊢
  obtain ⟨d,hd⟩ : ∃ d, d = spec.value.ns := ⟨_,rfl⟩
  have hval := timespecToTicks_pos (m := m) hvl (by omega) hne
  rw [← hd] at hah hbd ⊢
  have hup := ticksUp_lt (m := m) (by omega : d.toNat < 2 ^ 63)
  have hmax : u64Max = 2 ^ 64 - 1 := rfl
  have htic : timerfdTicksMax = 2 ^ 62 - 1 := rfl
  have hdel : (now.user + d).toNat - now.user = d.toNat := by omega
  rw [planRelative,if_neg (by simp [h.steady])]
  dsimp only
  rw [Timespec.ns] at hd
  rw [← hd,u64_of_lt (by omega),
    if_pos ⟨hvl.1,hvl.2.2.1,by omega⟩,u64_of_lt (by omega),if_pos (by omega), if_pos (by omega)]
  refine ⟨hval,?_,?_⟩
  · rw [hdel]
  dsimp only
  omega

lemma Plan.Meets.arm {plan : Plan} (h : plan.Meets m now deadline)
    (hnow : OnTime m now) (hah : now.user < deadline) (hbd : deadline < 2 ^ 62)
    (hvl : spec.interval.Valid) (hsr : spec.interval.ns < 2 ^ 62)
    (halg : spec.interval.Aligned m) (t : TimerfdState) (g : Globals) :
    Tracks m (timerfdArm m now spec plan t g).1 ⟨deadline,spec.interval.ns.toNat⟩ ∧
      (timerfdArm m now spec plan t g).1.expirations = 0 ∧
      (timerfdArm m now spec plan t g).2.due ≤ g.due ∧
      (timerfdArm m now spec plan t g).2.due ≤ now.tick + ticksUp m (deadline - now.user) ∧
      (timerfdArm m now spec plan t g).2.armedTimerfds - 1 =
        g.armedTimerfds - armedOne t := by
  have hpos := ticksUp_pos (m := m) (by omega : 0 < deadline - now.user) (by omega)
  have hnx : (if plan.targetTick ≠ 0 then
      if now.tick < plan.targetTick then plan.targetTick else u64 (now.tick + 1)
      else if u64 (timerfdTicksMax + 2 ^ 64 - now.tick) < plan.value then timerfdTicksMax
      else u64 (now.tick + plan.value)) = now.tick + ticksUp m (deadline - now.user) := by
    rw [h.target,if_pos (by omega),if_pos (by omega)]
  have hiv : u64 (spec.interval.sec * nsPerSec + spec.interval.nsec).toNat =
      spec.interval.ns.toNat := u64_of_lt (by rw [Timespec.ns] at hsr; omega)
  rw [timerfdArm,hnx,h.deadlineNs,if_pos (by omega),
    if_pos ⟨hvl.1,hvl.2.2.1⟩,hiv]
  obtain ⟨hlow,hno,harm⟩ := noteDeadline_due (now.tick + ticksUp m (deadline - now.user))
    (if t.armed then g else { g with armedTimerfds := g.armedTimerfds + 1 })
  refine ⟨⟨rfl,rfl,by dsimp only; omega,by dsimp only; omega,rfl,by dsimp only; omega,
    halg.ticks hvl hsr,by dsimp only; omega,fun T hT => ?_⟩,rfl,?_,hno (by omega),?_⟩
  · have hsum : (deadline : Int) = now.user + (deadline - now.user : Nat) := by omega
    have hlk := hnow.look_le (by omega) (hsum ▸ hT)
    exact_mod_cast hlk
  · refine hlow.trans ?_
    split
    · exact le_rfl
    exact le_rfl
  rw [harm,armedOne]
  split
  · rfl
  dsimp only
  omega

section

variable (h : Sound m w)

include h

lemma Sound.disarm (hfd : fd ∈ w.fds) : Served m w fd (timerfdDisarm (w.timer fd) w.globals) none := by
  refine ⟨h.idle fd hfd,?_,?_,rfl,.inr fun al hal => by cases hal⟩
  · rw [timerfdDisarm]
    split
    · exact le_rfl
    exact le_rfl
  rw [timerfdDisarm]
  split
  · next harm => simp [armedOne,harm]
  next harm => simp [armedOne,harm]

lemma Sound.settime (hfd : fd ∈ w.fds) {abstime : Bool}
    (hval : spec.value.Valid) (hiv : spec.interval.Valid)
    (hex : (spec.value.sec = 0 ∧ spec.value.nsec = 0) ∨
      spec.Exact m w.now (w.timer fd).clock abstime offset) :
    Served m w fd (vfsTimerfdSettime m w.now abstime offset spec (w.timer fd) w.globals)
      (spec.alarm w.now (w.timer fd).clock abstime offset) := by
  rw [vfsTimerfdSettime,Itimerspec.alarm]
  by_cases hze : spec.value.sec = 0 ∧ spec.value.nsec = 0
  · rw [if_pos (.inl (decide_eq_true hze)),if_pos hze]
    exact h.disarm hfd
  have hspec := hex.resolve_left hze
  have hmee : (if decide (spec.value.sec = 0 ∧ spec.value.nsec = 0) = true then
      (⟨timespecToTicks m spec.value,0,0⟩ : Plan)
      else if abstime = true then planAbsolute m w.now (w.timer fd).clock offset spec
      else planRelative m w.now (w.timer fd).clock spec).Meets m w.now
        (spec.deadline w.now (w.timer fd).clock abstime offset).toNat := by
    rw [if_neg (by simpa using hze)]
    cases abstime with
    | true => exact hspec.absolute h.onTime
    | false => exact hspec.relative h.onTime hval hze
  have hah := hspec.ahead
  have hbd := hspec.bound
  obtain ⟨htra,hid,hdue,hlk,hct⟩ := hmee.arm h.onTime (by omega) (by omega)
    hiv hspec.interval hspec.aligned (w.timer fd) w.globals
  have hdl : ((spec.deadline w.now (w.timer fd).clock abstime offset).toNat : Int) =
      spec.deadline w.now (w.timer fd).clock abstime offset := by omega
  rw [hdl] at htra
  rw [if_neg hze,if_neg (not_or.mpr ⟨by simpa using hze,hmee.value⟩)]
  refine ⟨hid,hdue,?_,htra,.inr fun al hal T hT => ?_⟩
  · exact hct
  cases hal
  have hsum : (w.now.user : Int) +
      ((spec.deadline w.now (w.timer fd).clock abstime offset).toNat - w.now.user : Nat) =
        spec.deadline w.now (w.timer fd).clock abstime offset := by omega
  have hnx := h.onTime.look_le (by omega) (hsum ▸ hT)
  exact (Int.ofNat_le.mpr hlk).trans (by exact_mod_cast hnx)

lemma Sound.set (hfd : fd ∈ w.fds) (hs : Served m w fd r asked) : Sound m (w.set fd r asked) := by
  have hot : ∀ x, x ≠ fd → (w.set fd r asked).timer x = w.timer x ∧
      (w.set fd r asked).asked x = w.asked x := fun x hx =>
    ⟨update_of_ne hx ..,update_of_ne hx ..⟩
  have hse : (w.set fd r asked).timer fd = r.1 ∧ (w.set fd r asked).asked fd = asked :=
    ⟨update_self ..,update_self ..⟩
  refine ⟨h.onTime,h.woken,fun x hx => ?_,fun x hx => ?_,fun x hx al hal => ?_,?_⟩
  · by_cases hxf : x = fd
    · rw [hxf,hse.1]
      exact hs.idle
    rw [(hot x hxf).1]
    exact h.idle x hx
  · by_cases hxf : x = fd
    · rw [hxf,hse.1,hse.2]
      exact hs.holds
    rw [(hot x hxf).1,(hot x hxf).2]
    exact h.holds x hx
  · by_cases hxf : x = fd
    · rw [hxf,hse.2] at hal
      obtain hsa | hea := hs.wakes
      · exact (h.wakes fd hfd al (hsa ▸ hal)).lower hs.due le_rfl
      exact .inl (hea al hal)
    rw [(hot x hxf).2] at hal
    exact (h.wakes x hx al hal).lower hs.due le_rfl
  have hsum := sum_update_add hfd w.timer r.1 armedOne
  have hct := hs.count
  have hbf := h.count
  change r.2.armedTimerfds = (∑ x ∈ w.fds, armedOne (update w.timer fd r.1 x) : Nat)
  omega

lemma Sound.pass (huser : w.now.user ≤ now.user) (hnow : OnTime m now) :
    Sound m { w with now } :=
  ⟨hnow,h.woken.trans huser,h.idle,h.holds,h.wakes,h.count⟩

lemma Sound.create (hfd : fd ∉ w.fds) (clock : Clock) : Sound m (step m w (.create fd clock)) := by
  have hot : ∀ x ∈ w.fds, x ≠ fd := fun x hx => ne_of_mem_of_not_mem hx hfd
  have htm : ∀ x ∈ w.fds, (step m w (.create fd clock)).timer x = w.timer x := fun x hx =>
    update_of_ne (hot x hx) ..
  have hask : ∀ x ∈ w.fds, (step m w (.create fd clock)).asked x = w.asked x := fun x hx =>
    update_of_ne (hot x hx) ..
  have hse : (step m w (.create fd clock)).timer fd = ⟨false,clock,0,0,0,0,0⟩ := update_self ..
  have hnone : (step m w (.create fd clock)).asked fd = none := update_self ..
  refine ⟨h.onTime,h.woken,fun x hx => ?_,fun x hx => ?_,fun x hx al hal => ?_,?_⟩
  · obtain rfl | hx := mem_insert.mp hx
    · rw [hse]
    rw [htm x hx]
    exact h.idle x hx
  · obtain rfl | hx := mem_insert.mp hx
    · rw [hse,hnone]
      rfl
    rw [htm x hx,hask x hx]
    exact h.holds x hx
  · obtain rfl | hx := mem_insert.mp hx
    · cases hnone.symm.trans hal
    exact h.wakes x hx al ((hask x hx).symm.trans hal)
  have hsum : ∑ x ∈ w.fds, armedOne ((step m w (.create fd clock)).timer x) =
      ∑ x ∈ w.fds, armedOne (w.timer x) :=
    sum_congr rfl fun x hx => by rw [htm x hx]
  change w.globals.armedTimerfds =
    (∑ x ∈ insert fd w.fds, armedOne ((step m w (.create fd clock)).timer x) : Nat)
  rw [sum_insert hfd,hsum,hse,h.count,armedOne]
  simp

lemma Sound.release (hfd : fd ∈ w.fds) : Sound m (step m w (.release fd)) := by
  have hdue : (step m w (.release fd)).globals.due = w.globals.due := by
    rw [step]
    split
    · rfl
    rfl
  refine ⟨h.onTime,h.woken,fun x hx => h.idle x (mem_of_mem_erase hx),
    fun x hx => h.holds x (mem_of_mem_erase hx),fun x hx al hal => ?_,?_⟩
  · exact (h.wakes x (mem_of_mem_erase hx) al hal).lower hdue.le le_rfl
  have hsp := add_sum_erase w.fds (fun x => armedOne (w.timer x)) hfd
  have hct := h.count
  rw [step]
  dsimp only at hsp ⊢
  split_ifs with harm
  · have hone : armedOne (w.timer fd) = 1 := if_pos harm
    dsimp only
    omega
  have hze : armedOne (w.timer fd) = 0 := if_neg harm
  omega

end

lemma candidate_pos (m : Machine) (now : Now) (t : TimerfdState) : 0 < candidate m now t := by
  have hmax : 0 < u64Max := by decide
  unfold candidate
  split
  · exact hmax
  split
  · next hah => exact zero_lt_of_lt hah
  exact hmax

lemma Tracks.candidate_le (h : Tracks m t al) (hnow : OnTime m now) (hlate : ¬al.deadline ≤ now.user) (hT : AtOrAfter m T al.deadline) : (candidate m now t : Int) ≤ T := by
  have hbf : now.user < t.deadlineNs := by
    have := h.deadline
    omega
  obtain ⟨hex,hah,hlk⟩ := h.look hnow hbf
  rw [candidate,if_neg (by simp [h.armed])]
  by_cases hpast : t.nextTick ≤ now.tick
  · have hwk : wakeTick m now t = now.tick + ticksUp m (t.deadlineNs - now.user) := by
      rw [wakeTick,if_pos ⟨h.positive.ne',hpast,hbf⟩,hex]
    rw [hwk,if_pos hah]
    exact hlk T hT
  have hwk : wakeTick m now t = t.nextTick := if_neg fun hc => hpast hc.2.1
  rw [hwk,if_pos (lt_of_not_ge hpast)]
  exact h.early T hT

lemma Sound.tick (h : Sound m w) : Sound m (eventpollTimerTick m w) := by
  unfold eventpollTimerTick
  split
  · exact h
  split
  · exact h
  obtain ⟨next,hnx⟩ : ∃ next, next = w.fds.fold min u64Max fun fd =>
    candidate m w.now (w.timer fd) := ⟨_,rfl⟩
  have hpos : 0 < next := by
    rw [hnx,lt_fold_min]
    exact ⟨by decide,fun x _ => candidate_pos m w.now (w.timer x)⟩
  obtain ⟨-,hno,harm⟩ := noteDeadline_due next { w.globals with due := u64Max }
  rw [← hnx]
  refine ⟨h.onTime,le_rfl,h.idle,h.holds,fun x hx al hal => ?_,harm.trans h.count⟩
  by_cases hrc : al.deadline ≤ w.now.user
  · exact .inr hrc
  refine .inl fun T hT => ?_
  have hhd := h.holds x hx
  rw [hal] at hhd
  have hfold : next ≤ candidate m w.now (w.timer x) := by
    rw [hnx]
    exact (fold_min_le _).mpr (.inr ⟨x,hx,le_rfl⟩)
  exact (Int.ofNat_le.mpr ((hno hpos).trans hfold)).trans
    (Tracks.candidate_le hhd h.onTime hrc hT)

def Event.Exact (m : Machine) (w : World) : Event → Prop
  | .pass now => now.user < 2 ^ 62 ∧ now.kernel < 2 ^ 62
  | .settime fd abstime offset spec =>
    (spec.value.sec = 0 ∧ spec.value.nsec = 0) ∨
      spec.Exact m w.now (w.timer fd).clock abstime offset
  | _ => True

lemma Sound.step {e : Event} (h : Sound m w) (hex : e.Exact m w) (he : e.Enabled m w) :
    Sound m (step m w e) := by
  cases e with
  | pass => exact h.pass he.1 ⟨hex.1,hex.2,he.2.2⟩
  | create _ clock => exact h.create he clock
  | release => exact h.release he
  | settime => exact h.set he.1 (h.settime he.1 he.2.1 he.2.2 hex)
  | read => exact h.set he (h.read he)
  | timerTick => exact h.tick

structure World.Booted (m : Machine) (w : World) : Prop where
  initial : w.Initial m
  user : w.now.user < 2 ^ 62
  kernel : w.now.kernel < 2 ^ 62

lemma World.Booted.sound (h : w.Booted m) : Sound m w := by
  have hfds := h.initial.fds
  refine ⟨⟨h.user,h.kernel,h.initial.tick⟩,by rw [h.initial.lastWake]; exact zero_le,
    ?_,?_,?_,?_⟩
  · simp [hfds]
  · simp [hfds]
  · simp [hfds]
  rw [hfds,h.initial.globals]
  rfl

def Runs (m : Machine) : World → Prop :=
  Reach (World.Booted m) (guarded (Event.Exact m) (Stepped m))

lemma Runs.sound (h : Runs m w) : Sound m w := by
  refine Reach.invariant (fun _ hw => hw.sound) ?_ h
  rintro w e w' hw ⟨hex,he,rfl⟩
  exact hw.step hex he

lemma Alarm.expirations_pos (al : Alarm) (t : Nat) : al.expirations t ≠ 0 := by
  rw [Alarm.expirations]
  split
  · exact one_ne_zero
  rw [add_comm]
  exact succ_ne_zero _

lemma Tracks.poll (h : Tracks m t al) (hid : t.expirations = 0) :
    timerfdPoll now t = true ↔ al.deadline ≤ now.user := by
  rw [timerfdPoll,if_neg (not_not.mpr hid),if_pos ⟨h.armed,h.positive.ne'⟩,decide_eq_true_iff, ← h.deadline]
  omega

def Exact (m : Machine) (w : World) (fd : Nat) : Prop :=
  match w.asked fd with
  | none =>
    timerfdPoll w.now (w.timer fd) = false ∧
      (timerfdRead m w.now (w.timer fd) w.globals).1 = none
  | some al =>
    (timerfdPoll w.now (w.timer fd) = true ↔ al.deadline ≤ w.now.user) ∧
      (timerfdRead m w.now (w.timer fd) w.globals).1 =
        (if al.deadline ≤ w.now.user then some (al.expirations w.now.user) else none) ∧
      Wakes m w al

theorem timerfd_exact (h : Runs m w) (hfd : fd ∈ w.fds) : Exact m w fd := by
  have hsd := h.sound
  have hhd := hsd.holds fd hfd
  have hid := hsd.idle fd hfd
  unfold Exact
  cases hal : w.asked fd with
  | none =>
    rw [hal] at hhd
    have hdsm : (w.timer fd).armed = false := hhd
    refine ⟨by simp [timerfdPoll,hid,hdsm],?_⟩
    rw [timerfdRead_fst,advance_disarmed hdsm,if_neg (not_not.mpr hid)]
  | some al =>
    rw [hal] at hhd
    refine ⟨Tracks.poll hhd hid,?_,hsd.wakes fd hfd al hal⟩
    have hhd := hsd.holds fd hfd
    rw [hal] at hhd
    rw [timerfdRead_fst,(Tracks.advance hhd hsd.onTime (hsd.idle fd hfd) w.globals).reported]
    split
    · next hrc =>
      rw [if_pos (Alarm.expirations_pos al _)]
    rw [if_neg (not_not.mpr rfl)]

instance Timespec.Valid.decide (ts : Timespec) : Decidable ts.Valid :=
  inferInstanceAs (Decidable (0 ≤ ts.sec ∧ ts.sec < 2 ^ 63 ∧ 0 ≤ ts.nsec ∧ ts.nsec < nsPerSec))

instance Event.Enabled.decide (m : Machine) (w : World) (e : Event) : Decidable (e.Enabled m w) := by
  cases e <;> (dsimp only [Event.Enabled]; infer_instance)

instance Timespec.Aligned.decide (m : Machine) (ts : Timespec) : Decidable (ts.Aligned m) :=
  inferInstanceAs (Decidable (ts.nsec.toNat % m.tickNs = 0 ∧
    (ts.sec = 0 ∨ m.hz * m.tickNs = nsPerSec)))

instance Itimerspec.Exact.decide (m : Machine) (now : Now) (clock : Clock) (abstime : Bool)
    (offset : Int) (spec : Itimerspec) : Decidable (spec.Exact m now clock abstime offset) :=
  decidable_of_iff _ (Itimerspec.exact_iff ..).symm

instance Event.Exact.decide (m : Machine) (w : World) (e : Event) : Decidable (e.Exact m w) := by
  cases e <;> (dsimp only [Event.Exact]; infer_instance)

def kilohertz : Machine := ⟨1000,0,by decide,by decide,by decide,by decide⟩

def quiet : World where
  timer _ := ⟨false,.monotonic,0,0,0,0,0⟩
  fds := ∅
  globals := ⟨0,u64Max⟩
  now := ⟨0,0,0,0⟩
  asked _ := none
  lastWake := 0

lemma quiet_booted : quiet.Booted kilohertz := ⟨⟨rfl,rfl,rfl,by decide⟩,by decide,by decide⟩

def everyNs (ns : Int) : Itimerspec := ⟨⟨0,ns⟩,⟨0,ns⟩⟩

def atMs (ms : Nat) : Event := .pass ⟨ms * 1000000,ms * 1000000,0,ms⟩

def steadyRun : List Event :=
  [.create 3 .monotonic,.settime 3 false 0 (everyNs 2000000),atMs 2,.timerTick,.read 3,atMs 7]

def steadied : World := steadyRun.foldl (step kilohertz) quiet

theorem timerfd_exact_steadied : Exact kilohertz steadied 3 ∧
    (timerfdRead kilohertz steadied.now (steadied.timer 3) steadied.globals).1 = some 2 := by
  have hrun : Runs kilohertz steadied := by
    refine Reach.along (fun w e => e.Exact kilohertz w ∧ e.Enabled kilohertz w)
      (fun _ _ h => ⟨h.1,h.2,rfl⟩) (.start quiet_booted) ?_
    decide +kernel
  exact ⟨timerfd_exact hrun (by decide +kernel),by decide +kernel⟩

def driftRun : List Event :=
  [.create 3 .monotonic,.settime 3 false 0 (everyNs 1500000),atMs 2,.timerTick,.read 3]

def drifted : World := driftRun.foldl (step kilohertz) quiet

def farAway : Itimerspec := ⟨⟨0,0⟩,⟨18446744074,0⟩⟩

def wrapRun : List Event := [.create 3 .monotonic,.settime 3 false 0 farAway,atMs 1000]

def wrapped : World := wrapRun.foldl (step kilohertz) quiet

lemma reach_run {es : List Event} (h : Along (fun w e => e.Enabled kilohertz w) (step kilohertz) quiet es) :
    Reach (World.Booted kilohertz) (Stepped kilohertz) (es.foldl (step kilohertz) quiet) :=
  Reach.along (fun w e => e.Enabled kilohertz w) (fun _ _ he => ⟨he,rfl⟩) (.start quiet_booted) h

theorem late_wake_and_early_expiry :
    (Reach (World.Booted kilohertz) (Stepped kilohertz) drifted ∧ ¬Exact kilohertz drifted 3) ∧
      Reach (World.Booted kilohertz) (Stepped kilohertz) wrapped ∧ ¬Exact kilohertz wrapped 3 := by
  have hdue : drifted.globals.due = 4 := by decide +kernel
  have hpoll : timerfdPoll wrapped.now (wrapped.timer 3) = true := by decide +kernel
  refine ⟨⟨reach_run (by decide +kernel),fun h => ?_⟩,reach_run (by decide +kernel),fun h => ?_⟩
  · obtain hea | hlate := h.2.2
    · have hthree := hea 3 (by rw [AtOrAfter]; decide)
      omega
    exact absurd hlate (by decide)
  have hrc := h.1.mp hpoll
  exact absurd hrc (by decide)

end B1nix.Timerfd
