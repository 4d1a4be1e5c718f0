import B1nix.Basic.Transition

namespace B1nix.Lineage

open B1nix.Transition Finset

structure Kinship (ε ι : Type) where
  born : ε → Option (ι × ι)
  gone : ε → Option ι

variable {σ ε ι : Type} [DecidableEq ι]

variable (k : Kinship ε ι)

def Kinship.children (kin : Finset ι) (e : ε) : Finset ι :=
  match k.born e with
  | some (parent, child) => if parent ∈ kin then {child} else ∅
  | none => ∅

def Kinship.line (kin : Finset ι) (e : ε) : Finset ι :=
  k.children kin e ∪ kin.filter fun t => k.gone e ≠ some t

def Descends (step : σ → ε → σ → Prop) (x : σ × Finset ι) (e : ε) (y : σ × Finset ι) : Prop :=
  step x.1 e y.1 ∧ y.2 = k.line x.2 e

def Later (step : σ → ε → σ → Prop) (s : σ) (t : ι) (s' : σ) (kin : Finset ι) : Prop :=
  Reach (· = (s, {t})) (Descends k step) (s', kin)

variable {k : Kinship ε ι} {step : σ → ε → σ → Prop} {kin : Finset ι} {e : ε} {t u : ι} {s s' : σ}

lemma Kinship.mem_line (hu : u ∈ k.line kin e) :
    (u ∈ kin ∧ k.gone e ≠ some u) ∨ ∃ parent ∈ kin, k.born e = some (parent, u) := by
  obtain hchd | hkin := mem_union.mp hu
  · refine .inr ?_
    unfold Kinship.children at hchd
    split at hchd
    · next parent child hbo =>
      split_ifs at hchd with hpar
      · rw [mem_singleton] at hchd
        exact ⟨parent,hpar,hchd ▸ hbo⟩
      simp at hchd
    simp at hchd
  exact .inl (mem_filter.mp hkin)

lemma Later.invariant {P : σ → Prop} {Q : σ → ι → Prop}
    (hP : ∀ s e s', P s → step s e s' → P s')
    (hsy : ∀ s e s' u, P s → step s e s' → Q s u → k.gone e ≠ some u → Q s' u)
    (hbo : ∀ s e s' parent child, P s → step s e s' → k.born e = some (parent, child) →
      Q s parent → Q s' child) (hs : P s) (ht : Q s t) (h : Later k step s t s' kin) :
    P s' ∧ ∀ u ∈ kin, Q s' u := by
  refine Reach.invariant (P := fun x : σ × Finset ι => P x.1 ∧ ∀ u ∈ x.2, Q x.1 u) ?_ ?_ h
  · rintro x rfl
    refine ⟨hs,fun v hv => ?_⟩
    rw [mem_singleton.mp hv]
    exact ht
  rintro x e y ⟨hx,hkin⟩ ⟨hstep,hln⟩
  refine ⟨hP _ _ _ hx hstep,fun v hv => ?_⟩
  rw [hln] at hv
  obtain ⟨hin,hgo⟩ | ⟨parent,hin,hpar⟩ := Kinship.mem_line hv
  · exact hsy _ _ _ _ hx hstep (hkin v hin) hgo
  exact hbo _ _ _ _ _ hx hstep hpar (hkin parent hin)

end B1nix.Lineage
