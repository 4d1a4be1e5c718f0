import Mathlib
namespace B1nix.Transition

universe u v

variable {σ : Type u} {ε ω : Type v}

inductive Reach (init : σ → Prop) (step : σ → ε → σ → Prop) : σ → Prop where
  | start {s : σ} (h : init s) : Reach init step s
  | next {s t : σ} {e : ε} (hs : Reach init step s) (h : step s e t) : Reach init step t

variable {init P : σ → Prop} {step : σ → ε → σ → Prop}
  {s t : σ} {ok ok' : σ → ε → Prop} {f : σ → ε → σ} {es : List ε}

lemma Reach.invariant (hin : ∀ s, init s → P s)
    (hstep : ∀ s e t, P s → step s e t → P t) {s : σ} (hs : Reach init step s) : P s := by
  induction hs with
  | start h => exact hin _ h
  | next _ h ih => exact hstep _ _ _ ih h

def guarded (ok : σ → ε → Prop) (step : σ → ε → σ → Prop) (s : σ) (e : ε) (t : σ) : Prop :=
  ok s e ∧ step s e t

lemma Reach.unguard (hs : Reach init (guarded ok step) s) : Reach init step s := by
  induction hs with
  | start h => exact .start h
  | next _ h ih => exact .next ih h.2

def Along (ok : σ → ε → Prop) (f : σ → ε → σ) : σ → List ε → Prop
  | _, [] => True
  | s, e :: es => ok s e ∧ Along ok f (f s e) es

instance Along.decide {ok : σ → ε → Prop} [∀ s e,Decidable (ok s e)] {f : σ → ε → σ} :
    (s : σ) → (es : List ε) → Decidable (Along ok f s es)
  | _, [] => inferInstanceAs (Decidable True)
  | s, e :: es =>
    have : Decidable (Along ok f (f s e) es) := Along.decide (f s e) es
    inferInstanceAs (Decidable (ok s e ∧ Along ok f (f s e) es))

lemma Reach.along (ok : σ → ε → Prop) (hstep : ∀ s e, ok s e → step s e (f s e))
    (hs : Reach init step s) (h : Along ok f s es) : Reach init step (es.foldl f s) := by
  induction es generalizing s with
  | nil => exact hs
  | cons e _ ih => exact ih (hs.next (hstep s e h.1)) h.2

lemma Reach.foldlM {f : σ → ε → Option σ} (hstep : ∀ s e t, f s e = some t → step s e t)
    (hs : Reach init step s) (h : es.foldlM f s = some t) : Reach init step t := by
  induction es generalizing s with
  | nil => exact Option.some.inj h ▸ hs
  | cons e _ ih =>
    obtain ⟨u,hu,hrs⟩ := Option.bind_eq_some_iff.mp h
    exact ih (hs.next (hstep s e u hu)) hrs

lemma Along.invariant (hstep : ∀ s e, P s → ok s e → P (f s e))
    (h : Along ok f s es) (hs : P s) : P (es.foldl f s) := by
  induction es generalizing s with
  | nil => exact hs
  | cons e _ ih => exact ih h.2 (hstep s e hs h.1)

lemma Along.same (view : σ → ω) (hstep : ∀ s e, ok s e → view (f s e) = view s)
    (h : Along ok f s es) : view (es.foldl f s) = view s :=
  h.invariant (P := fun t => view t = view s) (fun t e ht he => (hstep t e he).trans ht) rfl

lemma Along.congr (hok : ∀ s e, P s → (ok s e ↔ ok' s e))
    (hstep : ∀ s e, P s → ok' s e → P (f s e)) (hs : P s) : Along ok f s es ↔ Along ok' f s es := by
  induction es generalizing s with
  | nil => exact .rfl
  | cons e _ ih =>
    rw [Along,Along,hok s e hs]
    exact and_congr_right fun h => ih (hstep s e hs h)

end B1nix.Transition
