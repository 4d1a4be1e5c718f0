import B1nix.Basic.Ring

namespace B1nix.Tiling

def Tiles (width : Nat → Nat) : Nat → List Nat → Nat → Prop
  | p, [], e => p = e
  | p, b :: bs, e => b = p ∧ Tiles width (p + width p) bs e

def Tags (size tag : Nat → Nat) : Nat → List Nat → Prop
  | _, [] => True
  | before, b :: bs => tag b = before ∧ Tags size tag (size b) bs

def tagAfter (size : Nat → Nat) : Nat → List Nat → Nat
  | before, [] => before
  | _, b :: bs => tagAfter size (size b) bs

variable {width width' size size' tag tag' : Nat → Nat} {p e before x d after : Nat}
  {xs ys : List Nat}

lemma tiles_iff_runs : Tiles width p xs e ↔ Ring.Runs id width p xs e := by
  induction xs generalizing p with
  | nil => exact .rfl
  | cons _ _ ih =>
    refine and_congr_right fun hx => ?_
    subst hx
    exact ih

lemma tiles_append : Tiles width p (xs ++ ys) e ↔ ∃ q, Tiles width p xs q ∧ Tiles width q ys e := by
  simp only [tiles_iff_runs]
  exact Ring.runs_append

section

variable (h : Tiles width p xs e)

include h

lemma Tiles.congr (hsa : ∀ x ∈ xs, width' x = width x) : Tiles width' p xs e := by
  induction xs generalizing p with
  | nil => exact h
  | cons x _ ih =>
    have hx : width' p = width p := h.1 ▸ hsa x (.head _)
    refine ⟨h.1,?_⟩
    rw [hx]
    exact ih h.2 fun y hy => hsa y (.tail x hy)

lemma Tiles.within (hx : x ∈ xs) : p ≤ x ∧ x + width x ≤ e := (tiles_iff_runs.mp h).within hx

lemma Tiles.sorted : xs.Pairwise fun x y => x + width x ≤ y := (tiles_iff_runs.mp h).pairwise

lemma Tiles.apart {y : Nat} (hx : x ∈ xs) (hy : y ∈ xs)
    (hne : x ≠ y) : x + width x ≤ y ∨ y + width y ≤ x :=
  ((tiles_iff_runs.mp h).ordered hx hy).resolve_left hne

lemma Tiles.nodup (hpos : ∀ x, 0 < width x) : xs.Nodup := by
  refine h.sorted.imp ?_
  intro x y hxy heq
  have := hpos x
  omega

lemma Tiles.dvd (hp : d ∣ p) (hw : ∀ x ∈ xs, d ∣ width x) : d ∣ e ∧ ∀ x ∈ xs, d ∣ x := by
  induction xs generalizing p with
  | nil => exact ⟨h ▸ hp,fun x hx => by cases hx⟩
  | cons x _ ih =>
    obtain ⟨rfl,hta⟩ := h
    have hnx := (Nat.dvd_add_iff_right hp).mp (hw x (.head _))
    have hrs := ih hta hnx fun y hy => hw y (.tail x hy)
    exact ⟨hrs.1,List.forall_mem_cons.mpr ⟨hp,hrs.2⟩⟩

end

lemma tagAfter_append : tagAfter size before (xs ++ ys) = tagAfter size (tagAfter size before xs) ys := by
  induction xs generalizing before with
  | nil => rfl
  | cons _ _ ih => exact ih

lemma tagAfter_congr (before : Nat) (hsa : ∀ x ∈ xs, size' x = size x) :
    tagAfter size' before xs = tagAfter size before xs := by
  induction xs generalizing before with
  | nil => rfl
  | cons x _ ih =>
    rw [tagAfter,hsa x (.head _)]
    exact ih _ fun y hy => hsa y (.tail x hy)

lemma tagAfter_concat (x : Nat) : tagAfter size before (xs ++ [x]) = size x := tagAfter_append

lemma tags_append : Tags size tag before (xs ++ ys) ↔
    Tags size tag before xs ∧ Tags size tag (tagAfter size before xs) ys := by
  induction xs generalizing before with
  | nil => simp [Tags,tagAfter]
  | cons _ _ ih =>
    rw [List.cons_append,Tags,Tags,tagAfter,ih,and_assoc]

lemma Tags.congr (h : Tags size tag before xs) (hsz : ∀ x ∈ xs, size' x = size x)
    (htag : ∀ x ∈ xs, tag' x = tag x) : Tags size' tag' before xs := by
  induction xs generalizing before with
  | nil => trivial
  | cons x _ ih =>
    refine ⟨(htag x (.head _)).trans h.1,?_⟩
    rw [hsz x (.head _)]
    exact ih h.2 (fun y hy => hsz y (.tail x hy))
      fun y hy => htag y (.tail x hy)

lemma Tags.retag (h : Tags size tag before xs) (hsz : ∀ x ∈ xs, size' x = size x)
    (hhd : ∀ x ∈ xs.head?, tag' x = after) (hta : ∀ x ∈ xs.tail, tag' x = tag x) :
    Tags size' tag' after xs := by
  cases xs with
  | nil => trivial
  | cons x =>
    refine ⟨hhd x rfl,?_⟩
    rw [hsz x (.head _)]
    exact h.2.congr (fun y hy => hsz y (.tail x hy)) hta

lemma Tiles.replace {pre post : List Nat} (mid mid' : List Nat) (h : Tiles width p (pre ++ (mid ++ post)) e)
    (hpre : ∀ x ∈ pre, width' x = width x) (hpo : ∀ x ∈ post, width' x = width x)
    (hmid : ∀ q r, Tiles width q mid r → Tiles width' q mid' r) :
    Tiles width' p (pre ++ (mid' ++ post)) e := by
  obtain ⟨q,hp,hrs⟩ := tiles_append.mp h
  obtain ⟨r,hm,hq⟩ := tiles_append.mp hrs
  exact tiles_append.mpr ⟨q,hp.congr hpre,tiles_append.mpr ⟨r,hmid q r hm,hq.congr hpo⟩⟩

end B1nix.Tiling
