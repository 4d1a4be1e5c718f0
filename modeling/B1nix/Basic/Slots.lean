import Mathlib

namespace B1nix.Slots

open List

variable {α β : Type} {p q gone : α → Bool} {l l' : List α} {i : Nat} {e blank : α}

def spot (same free : α → Bool) (l : List α) : Option Nat :=
  match l.findIdx? same with
  | some i => some i
  | none => l.findIdx? free

def wipe (gone : α → Bool) (blank : α) (l : List α) : List α :=
  l.map fun e => if gone e then blank else e

lemma filter_set (hold : ∀ x, l[i]? = some x → p x = false) (hnew : p e = false) :
    (l.set i e).filter p = l.filter p := by
  induction l generalizing i with
  | nil => rfl
  | cons x _ ih =>
    cases i with
    | zero =>
      have hx : p x = false := hold x rfl
      simp [hx,hnew]
    | succ =>
      rw [set_cons_succ,filter_cons,filter_cons,ih hold]

lemma findIdx?_holds (h : l.findIdx? q = some i) : ∀ x, l[i]? = some x → q x = true := by
  intro x hx
  obtain ⟨hlt,hq,-⟩ := findIdx?_eq_some_iff_getElem.mp h
  rw [getElem?_eq_getElem hlt] at hx
  rwa [← Option.some.inj hx]

lemma spot_hidden {same free : α → Bool} (hsa : ∀ x, same x = true → p x = false)
    (hfe : ∀ x, free x = true → p x = false) (h : spot same free l = some i) :
    ∀ x, l[i]? = some x → p x = false := by
  intro x hx
  unfold spot at h
  split at h
  · next j hj =>
    cases h
    exact hsa x (findIdx?_holds hj x hx)
  exact hfe x (findIdx?_holds h x hx)

lemma filter_wipe (hgo : ∀ x ∈ l, gone x = true → p x = false)
    (hbn : p blank = false) : (wipe gone blank l).filter p = l.filter p := by
  induction l with
  | nil => rfl
  | cons x _ ih =>
    have hta := ih fun y hy => hgo y (.tail x hy)
    rw [wipe] at hta ⊢
    rw [map_cons,filter_cons,filter_cons,hta]
    split
    · next h => simp [hbn,hgo x (.head _) h]
    rfl

lemma foldl_filter {f : β → α → β} (hsk : ∀ acc x, p x = false → f acc x = acc) (acc : β) :
    l.foldl f acc = (l.filter p).foldl f acc := by
  induction l generalizing acc with
  | nil => rfl
  | cons x _ ih =>
    rw [foldl_cons,ih,filter_cons]
    cases hx : p x with
    | true => rfl
    | false => rw [hsk acc x hx]; rfl

end B1nix.Slots
