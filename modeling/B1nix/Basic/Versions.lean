import Mathlib

namespace B1nix

open Function

structure Versions (β : Type) where
  top : Nat
  bytes : Nat → β

namespace Versions

variable {β : Type} {v : Versions β} {a b : β} {i j : Nat}

def initial (b : β) : Versions β := ⟨0,fun _ => b⟩

def newest (v : Versions β) : β := v.bytes v.top

def push (v : Versions β) (b : β) : Versions β :=
  ⟨v.top + 1,update v.bytes (v.top + 1) b⟩

@[simp] lemma newest_initial : (initial b).newest = b := rfl

@[simp] lemma top_push : (v.push b).top = v.top + 1 := rfl

@[simp] lemma newest_push : (v.push b).newest = b := update_self _ _ _

def Since (v : Versions β) (j : Nat) (b : β) : Prop := ∃ i ≤ v.top, j ≤ i ∧ v.bytes i = b

instance [DecidableEq β] : Decidable (Since v j b) :=
  inferInstanceAs (Decidable (∃ i ≤ v.top, j ≤ i ∧ v.bytes i = b))

lemma Since.newest (hj : j ≤ v.top) : Since v j v.newest := ⟨v.top,le_rfl,hj,rfl⟩

lemma Since.push (h : Since v j a) : Since (v.push b) j a := by
  obtain ⟨i,hi,hj,hby⟩ := h
  exact ⟨i,Nat.le_succ_of_le hi,hj,(update_of_ne (by omega) ..).trans hby⟩

end Versions

end B1nix
