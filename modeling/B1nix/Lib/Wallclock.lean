import B1nix.Basic.Transition

namespace B1nix.Wallclock

open Transition

def i64 (x : Int) : Int := x.bmod (2 ^ 64)

structure Clock where
  base : Int
  slew : Int
  slewMono : Nat
  mono : Nat
  inited : Bool
  past : slewMono ≤ mono

variable (c : Clock)

-- The divisor is 1000000 / SLEW_PPM.
def Clock.slewApplied : Int :=
  if c.slew = 0 then 0
  else
    let limit := min ((c.mono - c.slewMono) / 2000) c.slew.natAbs
    if c.slew < 0 then -limit else limit

def Clock.init (seconds : Nat) : Clock :=
  if c.inited then c else { c with base := i64 (seconds * 1000000000 - c.mono), inited := true }

def Clock.ns : Int := i64 (c.base + c.mono + c.slewApplied)

def Clock.nowNs : Nat := if c.ns < 0 then 0 else c.ns.toNat

def Clock.setNs (unix : Nat) : Clock :=
  { c with base := i64 (unix - c.mono), slew := 0, inited := true }

def Clock.slewNs (delta : Int) : Clock :=
  ⟨i64 (c.base + c.slewApplied),i64 (c.slew - c.slewApplied + delta),c.mono,c.mono,c.inited,le_rfl⟩

def Clock.tick (d : Nat) : Clock :=
  { c with mono := c.mono + d, past := c.past.trans (Nat.le_add_right ..) }

inductive Op where
  | init (seconds : Nat)
  | set (unix : Nat)
  | slew (delta : Int)
  | now

-- An operation and how far ktime_monotonic_ns went since the last one.
def step : Nat × Op → Clock
  | (d, .init seconds) => (c.tick d).init seconds
  | (d, .set unix) => (c.tick d).setNs unix
  | (d, .slew delta) => (c.tick d).slewNs delta
  | (d, .now) => c.tick d

-- Not a step of the clock.
def Quiet : Nat × Op → Prop
  | (_, .init _) => c.inited = true
  | (_, .set _) => False
  | _ => True

def correction : Nat × Op → Int
  | (_, .slew delta) => delta
  | _ => 0

variable {c : Clock} {e : Nat × Op} {es : List (Nat × Op)}

lemma i64_spec (x : Int) : -2 ^ 63 ≤ i64 x ∧ i64 x < 2 ^ 63 ∧ ∃ k, i64 x = x + 2 ^ 64 * k := by
  unfold i64
  refine ⟨?_,?_,?_⟩
  · have := Int.le_bmod (x := x) (m := 2 ^ 64) (by simp)
    omega
  · have := Int.bmod_lt (x := x) (m := 2 ^ 64) (by simp)
    omega
  · obtain ⟨k,hk⟩ := Int.dvd_bmod_sub_self (x := x) (m := 2 ^ 64)
    exact ⟨k,sub_eq_iff_eq_add'.mp hk⟩

-- What a stretch without a step gains; the time since the last whole unit of the divisor pays for it.
structure Gains (c t : Clock) (sum gain : Int) : Prop where
  mono : c.mono ≤ t.mono
  wall : ∃ k, t.base + t.slewApplied = c.base + c.slewApplied + gain + 2 ^ 64 * k
  bound : 2000 * gain.natAbs + (t.mono - t.slewMono) % 2000 ≤ (c.mono - c.slewMono) % 2000 + (t.mono - c.mono)
  total : ∃ k, t.base + t.slew = c.base + c.slew + sum + 2 ^ 64 * k

lemma Gains.trans {t u : Clock} {m n g h : Int} (hg : Gains c t m g) (hh : Gains t u n h) :
    Gains c u (m + n) (g + h) := by
  obtain ⟨hm,⟨k,hk⟩,hb,⟨l,hl⟩⟩ := hg
  obtain ⟨hm',⟨k',hk'⟩,hb',⟨l',hl'⟩⟩ := hh
  exact ⟨hm.trans hm',⟨k + k',by omega⟩,by omega,⟨l + l',by omega⟩⟩

lemma gains_tick (c : Clock) (d : Nat) :
    Gains c (c.tick d) 0 ((c.tick d).slewApplied - c.slewApplied) := by
  have := c.past
  refine ⟨Nat.le_add_right ..,⟨0,?_⟩,?_,⟨0,?_⟩⟩
  · simp [Clock.tick]
  · simp only [Clock.tick,Clock.slewApplied]
    split_ifs <;> omega
  · simp [Clock.tick]

lemma gains_slew (c : Clock) (delta : Int) : Gains c (c.slewNs delta) delta 0 := by
  obtain ⟨-,-,k,hk⟩ := i64_spec (c.base + c.slewApplied)
  obtain ⟨-,-,l,hl⟩ := i64_spec (c.slew - c.slewApplied + delta)
  have h0 : (c.slewNs delta).slewApplied = 0 := by simp [Clock.slewApplied,Clock.slewNs]
  refine ⟨le_rfl,⟨k,?_⟩,?_,⟨k + l,?_⟩⟩
  · rw [h0]
    simpa [Clock.slewNs] using hk
  · simp [Clock.slewNs]
  · simp only [Clock.slewNs]
    omega

lemma gains_step (hq : Quiet c e) : ∃ g, Gains c (step c e) (correction e) g := by
  obtain ⟨d,op⟩ := e
  have ht := gains_tick c d
  cases op with
  | init s =>
    have hi : step c (d, .init s) = c.tick d := if_pos hq
    exact ⟨_,hi ▸ ht⟩
  | set => exact hq.elim
  | slew delta => exact ⟨_,zero_add delta ▸ ht.trans (gains_slew _ delta)⟩
  | now => exact ⟨_,ht⟩

lemma gains_run (h : Along Quiet step c es) : ∃ g, Gains c (es.foldl step c) (es.map correction).sum g := by
  induction es generalizing c with
  | nil => exact ⟨0,le_rfl,⟨0,by simp⟩,by simp,⟨0,by simp⟩⟩
  | cons e es ih =>
    obtain ⟨g,hg⟩ := gains_step h.1
    obtain ⟨g',hg'⟩ := ih h.2
    exact ⟨g + g',by simpa using hg.trans hg'⟩

def boot : Clock := ⟨0,0,0,1,false,zero_le_one⟩

end B1nix.Wallclock
