import B1nix.Basic.Transition

namespace B1nix.Timerfd

inductive Clock where
  | realtime
  | monotonic
  | boottime
  | realtimeAlarm
  | boottimeAlarm
deriving DecidableEq

def Clock.wall : Clock → Bool
  | .realtime | .realtimeAlarm => true
  | .monotonic | .boottime | .boottimeAlarm => false

def u64 (x : Nat) : Nat := x % 2 ^ 64

def u64Max : Nat := 2 ^ 64 - 1

def nsPerSec : Nat := 1000000000

def timerfdTicksMax : Nat := u64Max / 4

structure Machine where
  hz : Nat
  phase : Int
  hz_pos : 0 < hz
  hz_le : hz ≤ 1000000
  phase_ge : -2 ^ 62 ≤ phase
  phase_le : phase ≤ 2 ^ 62

variable (m : Machine)

def Machine.tickNs : Nat := nsPerSec / m.hz

structure Now where
  user : Nat
  kernel : Nat
  wall : Nat
  tick : Nat

structure Timespec where
  sec : Int
  nsec : Int

structure Itimerspec where
  interval : Timespec
  value : Timespec

structure TimerfdState where
  armed : Bool
  clock : Clock
  nextTick : Nat
  intervalTicks : Nat
  deadlineNs : Nat
  intervalNs : Nat
  expirations : Nat

structure Globals where
  armedTimerfds : Int
  due : Nat

def timerfdNoteDeadline (tick : Nat) (g : Globals) : Globals :=
  if tick ≠ 0 ∧ tick < g.due then { g with due := tick } else g

def ticksUp (ns : Nat) : Nat := u64 (ns + m.tickNs - 1) / m.tickNs

variable (ts : Timespec) (now : Now) (clock : Clock) (spec : Itimerspec) (t : TimerfdState)
  (g : Globals)

def timerfdAdvance : TimerfdState × Globals :=
  if t.armed = false ∨ t.nextTick = 0 then (t, g)
  else if t.deadlineNs ≠ 0 then
    if now.user < t.deadlineNs then
      if t.nextTick ≤ now.tick then
        let next := u64 (now.tick + ticksUp m (t.deadlineNs - now.user))
        ({ t with nextTick := next }, timerfdNoteDeadline next g)
      else (t, g)
    else if t.intervalNs = 0 then
      ({ t with
        expirations := u64 (t.expirations + 1)
        nextTick := 0
        deadlineNs := 0
        armed := false }, { g with armedTimerfds := g.armedTimerfds - 1 })
    else
      let n := u64 (1 + (now.user - t.deadlineNs) / t.intervalNs)
      let next := u64 (t.nextTick + n * (if t.intervalTicks ≠ 0 then t.intervalTicks else 1))
      ({ t with
        expirations := u64 (t.expirations + n)
        deadlineNs := u64 (t.deadlineNs + n * t.intervalNs)
        nextTick := next }, timerfdNoteDeadline next g)
  else if now.tick < t.nextTick then (t, g)
  else if t.intervalTicks = 0 then
    ({ t with expirations := u64 (t.expirations + 1), nextTick := 0, armed := false },
      { g with armedTimerfds := g.armedTimerfds - 1 })
  else
    let ticks := u64 (1 + (now.tick - t.nextTick) / t.intervalTicks)
    let next := u64 (t.nextTick + ticks * t.intervalTicks)
    ({ t with expirations := u64 (t.expirations + ticks), nextTick := next },
      timerfdNoteDeadline next g)

def timerfdRead : Option Nat × TimerfdState × Globals :=
  let (t, g) := timerfdAdvance m now t g
  if t.expirations ≠ 0 then (some t.expirations, { t with expirations := 0 }, g) else (none, t, g)

def timerfdPoll : Bool :=
  if t.expirations ≠ 0 then true
  else if t.armed ∧ t.deadlineNs ≠ 0 then decide (t.deadlineNs ≤ now.user)
  else decide (t.armed ∧ t.nextTick ≠ 0 ∧ t.nextTick ≤ now.tick)

def timespecToTicks : Nat :=
  if ts.sec < 0 ∨ ts.nsec < 0 then 0
  else if timerfdTicksMax / m.hz < ts.sec.toNat then timerfdTicksMax
  else
    let ticks := u64 (ts.sec.toNat * m.hz)
    let ticks := if 0 < ts.nsec then u64 (ticks + ticksUp m ts.nsec.toNat) else ticks
    if timerfdTicksMax < ticks then timerfdTicksMax else ticks

def timerfdNowTicks : Nat :=
  if clock.wall then u64 (now.wall / nsPerSec * m.hz) else now.tick

structure Plan where
  value : Nat
  targetTick : Nat
  deadlineNs : Nat

def planAbsolute (offset : Int) (spec : Itimerspec) : Plan :=
  if clock.wall then
    let value := timespecToTicks m spec.value
    let nowClock := timerfdNowTicks m now clock
    ⟨if nowClock < value then value - nowClock else 1,0,0⟩
  else
    let signed := (spec.value.sec * nsPerSec + spec.value.nsec - offset).bmod (2 ^ 64)
    let want := if 0 < signed then signed.toNat else 0
    let delay := if now.user < want then want - now.user else 0
    let value := ticksUp m delay
    let value := if value = 0 then 1 else value
    ⟨value,u64 (now.tick + value),if want ≠ 0 then want else 1⟩

def planRelative : Plan :=
  let value := timespecToTicks m spec.value
  if clock.wall then ⟨value,0,0⟩
  else
    let delay := u64 (spec.value.sec * nsPerSec + spec.value.nsec).toNat
    if 0 ≤ spec.value.sec ∧ 0 ≤ spec.value.nsec ∧ delay < u64Max - now.kernel then
      let want := u64 (now.tick + ticksUp m delay)
      ⟨value,if want ≤ timerfdTicksMax then want else 0,
        if delay < u64Max - now.user then now.user + delay else 0⟩
    else ⟨value,0,0⟩

def timerfdDisarm : TimerfdState × Globals :=
  ({ t with armed := false, nextTick := 0, intervalTicks := 0, deadlineNs := 0, intervalNs := 0 },
    if t.armed then { g with armedTimerfds := g.armedTimerfds - 1 } else g)

def timerfdArm (plan : Plan) (t : TimerfdState) (g : Globals) : TimerfdState × Globals :=
  let wantIntervalNs := if 0 ≤ spec.interval.sec ∧ 0 ≤ spec.interval.nsec then
    u64 (spec.interval.sec * nsPerSec + spec.interval.nsec).toNat else 0
  let next :=
    if plan.targetTick ≠ 0 then
      if now.tick < plan.targetTick then plan.targetTick else u64 (now.tick + 1)
    else if u64 (timerfdTicksMax + 2 ^ 64 - now.tick) < plan.value then timerfdTicksMax
    else u64 (now.tick + plan.value)
  let g := if t.armed then g else { g with armedTimerfds := g.armedTimerfds + 1 }
  ({ t with
    nextTick := next
    intervalTicks := timespecToTicks m spec.interval
    deadlineNs := plan.deadlineNs
    intervalNs := if plan.deadlineNs ≠ 0 then wantIntervalNs else 0
    armed := true
    expirations := 0 }, timerfdNoteDeadline next g)

def vfsTimerfdSettime (abstime : Bool) (offset : Int) (spec : Itimerspec) (t : TimerfdState)
    (g : Globals) : TimerfdState × Globals :=
  let disarm : Bool := spec.value.sec = 0 ∧ spec.value.nsec = 0
  let plan :=
    if disarm then ⟨timespecToTicks m spec.value,0,0⟩
    else if abstime then planAbsolute m now t.clock offset spec
    else planRelative m now t.clock spec
  if disarm ∨ plan.value = 0 then timerfdDisarm t g else timerfdArm m now spec plan t g

structure Alarm where
  deadline : Int
  interval : Nat
deriving DecidableEq

def Alarm.expirations (al : Alarm) (t : Nat) : Nat :=
  if al.interval = 0 then 1 else 1 + (t - al.deadline).toNat / al.interval

def Alarm.after (al : Alarm) (t : Nat) : Option Alarm :=
  if al.interval = 0 then none
  else some { al with deadline := al.deadline + al.expirations t * al.interval }

def Timespec.ns : Int := ts.sec * nsPerSec + ts.nsec

def Timespec.Valid : Prop := 0 ≤ ts.sec ∧ ts.sec < 2 ^ 63 ∧ 0 ≤ ts.nsec ∧ ts.nsec < nsPerSec

def Itimerspec.deadline (now : Now) (clock : Clock) (abstime : Bool) (offset : Int) : Int :=
  if !abstime then now.user + spec.value.ns
  else if clock.wall then now.user + (spec.value.ns - now.wall)
  else spec.value.ns - offset

def Itimerspec.alarm (now : Now) (clock : Clock) (abstime : Bool) (offset : Int) : Option Alarm :=
  if spec.value.sec = 0 ∧ spec.value.nsec = 0 then none
  else some ⟨spec.deadline now clock abstime offset,spec.interval.ns.toNat⟩

structure World where
  timer : Nat → TimerfdState
  fds : Finset Nat
  globals : Globals
  now : Now
  asked : Nat → Option Alarm
  lastWake : Nat

def wakeTick : Nat :=
  if t.deadlineNs ≠ 0 ∧ t.nextTick ≤ now.tick ∧ now.user < t.deadlineNs then
    u64 (now.tick + ticksUp m (t.deadlineNs - now.user))
  else t.nextTick

def candidate : Nat :=
  if !t.armed then u64Max
  else if now.tick < wakeTick m now t then wakeTick m now t else u64Max

variable (w : World)

def eventpollTimerTick : World :=
  if w.globals.armedTimerfds = 0 then w
  else if w.now.tick < w.globals.due then w
  else
    let next := w.fds.fold min u64Max fun fd => candidate m w.now (w.timer fd)
    { w with
      globals := timerfdNoteDeadline next { w.globals with due := u64Max }
      lastWake := w.now.user }

inductive Event where
  | pass (now : Now)
  | create (fd : Nat) (clock : Clock)
  | release (fd : Nat)
  | settime (fd : Nat) (abstime : Bool) (offset : Int) (spec : Itimerspec)
  | read (fd : Nat)
  | timerTick

def Event.Enabled : Event → Prop
  | .pass now =>
    w.now.user ≤ now.user ∧ w.now.tick ≤ now.tick ∧ now.tick * m.tickNs ≤ now.user + m.phase
  | .create fd _ => fd ∉ w.fds
  | .release fd => fd ∈ w.fds
  | .settime fd _ _ spec => fd ∈ w.fds ∧ spec.value.Valid ∧ spec.interval.Valid
  | .read fd => fd ∈ w.fds
  | .timerTick => True

def World.set (fd : Nat) (r : TimerfdState × Globals) (asked : Option Alarm) : World :=
  { w with
    timer := Function.update w.timer fd r.1
    globals := r.2
    asked := Function.update w.asked fd asked }

def askedAfter : Option Alarm → Option Alarm
  | none => none
  | some al => if al.deadline ≤ now.user then al.after now.user else some al

def step : Event → World
  | .pass now => { w with now := now }
  | .create fd clock =>
    { w.set fd (⟨false,clock,0,0,0,0,0⟩, w.globals) none with fds := insert fd w.fds }
  | .release fd =>
    { w with
      fds := w.fds.erase fd
      globals := if (w.timer fd).armed then
        { w.globals with armedTimerfds := w.globals.armedTimerfds - 1 } else w.globals }
  | .settime fd abstime offset spec =>
    w.set fd (vfsTimerfdSettime m w.now abstime offset spec (w.timer fd) w.globals)
      (spec.alarm w.now (w.timer fd).clock abstime offset)
  | .read fd =>
    w.set fd (timerfdRead m w.now (w.timer fd) w.globals).2 (askedAfter w.now (w.asked fd))
  | .timerTick => eventpollTimerTick m w

def Stepped (e : Event) (w' : World) : Prop := e.Enabled m w ∧ w' = step m w e

structure World.Initial (m : Machine) (w : World) : Prop where
  fds : w.fds = ∅
  globals : w.globals = ⟨0,u64Max⟩
  lastWake : w.lastWake = 0
  tick : w.now.tick * m.tickNs ≤ w.now.user + m.phase

end B1nix.Timerfd
