import Mathlib

namespace B1nix.Ring

open Nat List

universe u

variable {α : Type u} (pos span : α → Nat) {x : α}

def Runs : Nat → List α → Nat → Prop
  | p, [], e => p = e
  | p, r :: rs, e => pos r = p ∧ Runs (p + span r) rs e

variable {pos span} {p e n k : Nat} {xs ys : List α}

lemma runs_append : Runs pos span p (xs ++ ys) e ↔ ∃ q, Runs pos span p xs q ∧ Runs pos span q ys e := by
  induction xs generalizing p with
  | nil => exact ⟨fun h => ⟨p,rfl,h⟩,fun ⟨q,hq,h⟩ => hq ▸ h⟩
  | cons _ _ ih =>
    constructor
    · intro h
      obtain ⟨q,hxs,hys⟩ := ih.mp h.2
      exact ⟨q,⟨h.1,hxs⟩,hys⟩
    rintro ⟨q,hxs,hys⟩
    exact ⟨hxs.1,ih.mpr ⟨q,hxs.2,hys⟩⟩

lemma Runs.map {f : α → α} (hpos : ∀ x, pos (f x) = pos x) (hsn : ∀ x, span (f x) = span x)
    (h : Runs pos span p xs e) : Runs pos span p (xs.map f) e := by
  induction xs generalizing p with
  | nil => exact h
  | cons x _ ih =>
    refine ⟨(hpos x).trans h.1,?_⟩
    rw [hsn x]
    exact ih h.2

section

variable (h : Runs pos span p xs e)

include h

lemma Runs.le : p ≤ e := by
  induction xs generalizing p with
  | nil => exact h.le
  | cons _ _ ih => exact le_self_add.trans (ih h.2)

lemma Runs.within (hx : x ∈ xs) : p ≤ pos x ∧ pos x + span x ≤ e := by
  induction xs generalizing p with
  | nil => cases hx
  | cons _ _ ih =>
    obtain ⟨rfl,hta⟩ := h
    obtain rfl | hx := mem_cons.mp hx
    · exact ⟨le_rfl,hta.le⟩
    have hin := ih hta hx
    exact ⟨by omega,hin.2⟩

lemma Runs.pairwise : xs.Pairwise fun x y => pos x + span x ≤ pos y := by
  induction xs generalizing p with
  | nil => exact .nil
  | cons _ _ ih =>
    obtain ⟨rfl,hta⟩ := h
    exact .cons (fun y hy => (hta.within hy).1) (ih hta)

lemma Runs.ordered {y : α} (hx : x ∈ xs) (hy : y ∈ xs) :
    x = y ∨ pos x + span x ≤ pos y ∨ pos y + span y ≤ pos x := by
  induction xs generalizing p with
  | nil => cases hx
  | cons _ _ ih =>
    obtain ⟨rfl,hta⟩ := h
    obtain rfl | hxs := mem_cons.mp hx
    · obtain rfl | hys := mem_cons.mp hy
      · exact .inl rfl
      exact .inr (.inl (hta.within hys).1)
    obtain rfl | hys := mem_cons.mp hy
    · exact .inr (.inr (hta.within hxs).1)
    exact ih hta hxs hys

end

lemma Runs.length_le (hsn : ∀ x ∈ xs, k ≤ span x) (h : Runs pos span p xs e) :
    p + k * xs.length ≤ e := by
  induction xs generalizing p with
  | nil => exact h.le
  | cons x _ ih =>
    have hx := hsn x (.head _)
    have hta := ih (fun y hy => hsn y (.tail x hy)) h.2
    rw [length_cons,mul_succ]
    omega

def Apart (a m b n : Nat) : Prop := a + m ≤ b ∨ b + n ≤ a

lemma Apart.symm {a m b : Nat} (h : Apart a m b n) : Apart b n a m := Or.symm h

lemma apart_mod {q a b : Nat} (hpq : p + a ≤ q) (hqp : q + b ≤ p + n)
    (ha : p % n + a ≤ n) (hb : q % n + b ≤ n) : Apart (p % n) a (q % n) b := by
  obtain rfl | hn := Nat.eq_zero_or_pos n
  · exact .inl (by omega)
  have hp := div_add_mod p n
  have hq := div_add_mod q n
  have hle : p / n ≤ q / n := Nat.div_le_div_right (by omega)
  have hge : q / n ≤ p / n + 1 := by
    rw [← add_div_right p hn]
    exact Nat.div_le_div_right (by omega)
  obtain heq | hlt := eq_or_lt_of_le hle
  · rw [heq] at hp
    exact .inl (by omega)
  have hnx : q / n = p / n + 1 := by omega
  rw [hnx,mul_succ] at hq
  exact .inr (by omega)

lemma next_lap (hn : 0 < n) (p : Nat) : (p + (n - p % n)) % n = 0 := by
  have hlap := div_add_mod p n
  have hlt := mod_lt p hn
  have heq : p + (n - p % n) = n * (p / n + 1) := by
    rw [mul_succ]
    omega
  rw [heq,mul_mod_right]

lemma Runs.eq_or_apart (h : Runs pos span p xs e) (he : e ≤ p + n)
    (hin : ∀ x ∈ xs, pos x % n + span x ≤ n) {y : α} (hx : x ∈ xs) (hy : y ∈ xs) :
    x = y ∨ Apart (pos x % n) (span x) (pos y % n) (span y) := by
  have hfar : ∀ u ∈ xs, ∀ v ∈ xs, pos u + span u ≤ pos v →
      Apart (pos u % n) (span u) (pos v % n) (span v) := by
    intro u hu v hv huv
    have hu' := h.within hu
    have hv' := h.within hv
    exact apart_mod huv (by omega) (hin u hu) (hin v hv)
  obtain heq | hxy | hyx := h.ordered hx hy
  · exact .inl heq
  · exact .inr (hfar x hx y hy hxy)
  exact .inr (hfar y hy x hx hyx).symm

end B1nix.Ring
