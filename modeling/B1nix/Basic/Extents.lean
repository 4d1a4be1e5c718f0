import Mathlib

namespace B1nix.Extents

structure Extent where
  first : Nat
  lower : Nat
  count : Nat

def Extent.Sends (e : Extent) (a k : Nat) : Prop :=
  e.first ≤ a ∧ a < e.first + e.count ∧ k = e.lower + (a - e.first)

def Sends (m : List Extent) (a k : Nat) : Prop := ∃ e ∈ m, e.Sends a k

def Apart (a an b bn : Nat) : Prop := a + an ≤ b ∨ b + bn ≤ a

def Through (parent : List Extent) (e e' : Extent) : Prop :=
  e'.first = e.first ∧ e'.count = e.count ∧ ∃ p ∈ parent, p.first ≤ e.lower ∧
    e.lower + e.count ≤ p.first + p.count ∧ e'.lower = p.lower + (e.lower - p.first)

variable {m m' parent : List Extent} {e e' : Extent} {a b k : Nat}

lemma sends_nil : ¬Sends [] a k := by
  rintro ⟨e,he,-⟩
  cases he

lemma sends_cons : Sends (e :: m) a k ↔ e.Sends a k ∨ Sends m a k := by
  simp [Sends]

lemma sends_append : Sends (m ++ m') a k ↔ Sends m a k ∨ Sends m' a k := by
  simp [Sends,or_and_right,exists_or]

lemma sends_singleton : Sends [e] a k ↔ e.Sends a k := by
  simp [Sends]

lemma biUnique_push (hm : Relator.BiUnique (Sends m))
    (hfst : ∀ x ∈ m, Apart x.first x.count e.first e.count)
    (hlo : ∀ x ∈ m, Apart x.lower x.count e.lower e.count) : Relator.BiUnique (Sends (m ++ [e])) := by
  constructor
  · intro a k b ha hb
    rw [sends_append,sends_singleton] at ha hb
    rcases ha with ⟨x,hx,ha⟩ | ha <;> rcases hb with ⟨y,hy,hb⟩ | hb
    · exact hm.1 ⟨x,hx,ha⟩ ⟨y,hy,hb⟩
    · have hap := hlo x hx
      simp only [Extent.Sends,Apart] at ha hb hap
      omega
    · have hap := hlo y hy
      simp only [Extent.Sends,Apart] at ha hb hap
      omega
    simp only [Extent.Sends] at ha hb
    omega
  intro a k k' hk hk'
  rw [sends_append,sends_singleton] at hk hk'
  rcases hk with ⟨x,hx,hk⟩ | hk <;> rcases hk' with ⟨y,hy,hk'⟩ | hk'
  · exact hm.2 ⟨x,hx,hk⟩ ⟨y,hy,hk'⟩
  · have hap := hfst x hx
    simp only [Extent.Sends,Apart] at hk hk' hap
    omega
  · have hap := hfst y hy
    simp only [Extent.Sends,Apart] at hk hk' hap
    omega
  simp only [Extent.Sends] at hk hk'
  omega

lemma Through.sends (h : Through parent e e') (hs : e'.Sends a k) :
    ∃ b, e.Sends a b ∧ Sends parent b k := by
  obtain ⟨hfst,hct,p,hp,hlow,hhg,hlo⟩ := h
  obtain ⟨hge,hlt,hk⟩ := hs
  refine ⟨e.lower + (a - e.first),⟨by omega,by omega,rfl⟩,p,hp,?_⟩
  exact ⟨by omega,by omega,by omega⟩

lemma sends_through (h : List.Forall₂ (Through parent) m m') (hs : Sends m' a k) :
    ∃ b, Sends m a b ∧ Sends parent b k := by
  induction h with
  | nil => cases sends_nil hs
  | cons hhd _ ih =>
    obtain hs | hs := sends_cons.mp hs
    · obtain ⟨b,hb,hk⟩ := hhd.sends hs
      exact ⟨b,sends_cons.mpr (.inl hb),hk⟩
    obtain ⟨b,hb,hk⟩ := ih hs
    exact ⟨b,sends_cons.mpr (.inr hb),hk⟩

lemma biUnique_through (hpar : Relator.BiUnique (Sends parent)) (hm : Relator.BiUnique (Sends m))
    (h : List.Forall₂ (Through parent) m m') : Relator.BiUnique (Sends m') := by
  constructor
  · intro a k b ha hb
    obtain ⟨x,hax,hxk⟩ := sends_through h ha
    obtain ⟨y,hby,hyk⟩ := sends_through h hb
    obtain rfl := hpar.1 hxk hyk
    exact hm.1 hax hby
  intro a k k' hk hk'
  obtain ⟨x,hax,hxk⟩ := sends_through h hk
  obtain ⟨y,hay,hyk⟩ := sends_through h hk'
  obtain rfl := hm.2 hax hay
  exact hpar.2 hxk hyk

end B1nix.Extents
