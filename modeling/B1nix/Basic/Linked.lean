import Mathlib

namespace B1nix.Linked

open List

def Chain (next : Nat → Nat) : Nat → List Nat → Prop
  | head, [] => head = 0
  | head, x :: xs => head = x ∧ x ≠ 0 ∧ Chain next (next x) xs

def Doubly (next prev : Nat → Nat) : Nat → Nat → List Nat → Prop
  | _, head, [] => head = 0
  | before, head, x :: xs =>
    head = x ∧ x ≠ 0 ∧ prev x = before ∧ Doubly next prev x (next x) xs

inductive Follows (next : Nat → Nat) (head : Nat) : Nat → Prop where
  | first (h : head ≠ 0) : Follows next head head
  | after {x : Nat} (hx : Follows next head x) (h : next x ≠ 0) : Follows next head (next x)

variable {next prev next' prev' : Nat → Nat} {before head x : Nat} {l pre rest l' : List Nat}

lemma Chain.ne_zero (h : Chain next head l) (hx : x ∈ l) : x ≠ 0 := by
  induction l generalizing head with
  | nil => cases hx
  | cons _ _ ih =>
    obtain rfl | hx := mem_cons.mp hx
    · exact h.2.1
    exact ih h.2.2 hx

lemma Chain.congr (h : Chain next head l) (hsa : ∀ y ∈ l, next' y = next y) : Chain next' head l := by
  induction l generalizing head with
  | nil => exact h
  | cons y _ ih =>
    refine ⟨h.1,h.2.1,?_⟩
    rw [hsa y (.head _)]
    exact ih h.2.2 fun z hz => hsa z (.tail y hz)

lemma Chain.push (h : Chain next head l) (hx : x ≠ 0) (hln : next' x = head)
    (hsa : ∀ y ∈ l, next' y = next y) : Chain next' x (x :: l) := by
  refine ⟨rfl,hx,?_⟩
  rw [hln]
  exact h.congr hsa

lemma Chain.pop (h : Chain next head (x :: l)) (hsa : ∀ y ∈ l, next' y = next y) :
    head = x ∧ Chain next' (next head) l := by
  obtain ⟨rfl,-,hta⟩ := h
  exact ⟨rfl,hta.congr hsa⟩

variable {y tail p : Nat}

lemma Chain.append (h : Chain next head (l ++ [x])) (hy : y ≠ 0) (hln : next' x = y)
    (hend : next' y = 0) (hsa : ∀ z ∈ l, next' z = next z) : Chain next' head (l ++ [x] ++ [y]) := by
  induction l generalizing head with
  | nil => exact ⟨h.1,h.2.1,hln,hy,hend⟩
  | cons z _ ih =>
    refine ⟨h.1,h.2.1,?_⟩
    rw [hsa z (.head _)]
    exact ih h.2.2 fun w hw => hsa w (.tail z hw)

lemma Chain.relink {mid : List Nat} (h : Chain next head (pre ++ p :: mid))
    (hsa : ∀ y ∈ pre, next' y = next y) (hrs : Chain next' (next' p) rest) :
    Chain next' head (pre ++ p :: rest) := by
  induction pre generalizing head with
  | nil => exact ⟨h.1,h.2.1,hrs⟩
  | cons z _ ih =>
    refine ⟨h.1,h.2.1,?_⟩
    rw [hsa z (.head _)]
    exact ih h.2.2 fun w hw => hsa w (.tail z hw)

lemma Chain.after (h : Chain next head (pre ++ x :: rest)) :
    Chain next (next x) rest := by
  induction pre generalizing head with
  | nil => exact h.2.2
  | cons _ _ ih => exact ih h.2.2

lemma Chain.unique (h : Chain next head l) (h' : Chain next head l') : l = l' := by
  induction l generalizing head l' with
  | nil =>
    cases l' with
    | nil => rfl
    | cons => cases h'.2.1 (h'.1.symm.trans h)
  | cons x _ ih =>
    cases l' with
    | nil => cases h.2.1 (h.1.symm.trans h')
    | cons y =>
      obtain rfl : x = y := h.1.symm.trans h'.1
      rw [ih h.2.2 h'.2.2]

lemma Chain.nodup (h : Chain next head l) : l.Nodup := by
  induction l generalizing head with
  | nil => exact nodup_nil
  | cons _ _ ih =>
    refine nodup_cons.mpr ⟨fun hx => ?_,ih h.2.2⟩
    obtain ⟨pre,rest,rfl⟩ := append_of_mem hx
    have hrs := h.2.2.unique h.2.2.after
    have hlen := congrArg length hrs
    simp only [length_append,length_cons] at hlen
    omega

structure Tailed (next : Nat → Nat) (head tail : Nat) (l : List Nat) : Prop where
  chain : Chain next head l
  nodup : l.Nodup
  tail : tail = l.getLast?.getD 0

section

variable (h : Tailed next head tail l)

include h

lemma Tailed.congr (hsa : ∀ y ∈ l, next' y = next y) : Tailed next' head tail l :=
  ⟨h.chain.congr hsa,h.nodup,h.tail⟩

lemma Tailed.tail_eq_zero : tail = 0 ↔ l = [] := by
  obtain rfl | ⟨pre,y,rfl⟩ := eq_nil_or_concat l
  · simp [h.tail]
  simp [h.tail,h.chain.ne_zero]

lemma Tailed.tail_mem (hne : tail ≠ 0) : tail ∈ l := by
  obtain rfl | ⟨pre,y,rfl⟩ := eq_nil_or_concat l
  · cases hne h.tail
  simp [h.tail]

lemma Tailed.push (hx : x ≠ 0) (hnew : x ∉ l) (hend : next' x = 0)
    (hln : tail ≠ 0 → next' tail = x) (hsa : ∀ y ∈ l, y ≠ tail → next' y = next y) :
    Tailed next' (if tail = 0 then x else head) x (l ++ [x]) := by
  obtain rfl | ⟨pre,y,rfl⟩ := eq_nil_or_concat l
  · rw [if_pos (h.tail_eq_zero.mpr rfl)]
    exact ⟨⟨rfl,hx,hend⟩,(by simp),rfl⟩
  have hta : tail = y := by simp [h.tail]
  have hne : tail ≠ 0 := (by simpa using h.tail_eq_zero.mp)
  have hnd := h.nodup
  rw [concat_eq_append] at hnd hsa hnew ⊢
  have hch := h.chain
  rw [concat_eq_append] at hch
  rw [if_neg hne]
  refine ⟨?_,?_,by simp⟩
  · rw [append_assoc]
    refine hch.relink (fun z hz => hsa z (mem_append_left _ hz) ?_) ?_
    · rintro rfl
      exact (nodup_append.mp hnd).2.2 z hz y (.head _) hta
    rw [← hta,hln hne]
    exact ⟨rfl,hx,hend⟩
  exact nodup_append.mpr ⟨hnd,(by simp),by
    rintro a ha b hb rfl
    exact hnew (mem_singleton.mp hb ▸ ha)⟩

end

lemma Tailed.pop (h : Tailed next head tail (x :: l)) (hsa : ∀ y ∈ l, next' y = next y) :
    Tailed next' (next x) (if next x = 0 then 0 else tail) l := by
  have hch := h.chain.2.2
  refine ⟨hch.congr hsa,(nodup_cons.mp h.nodup).2,?_⟩
  cases l with
  | nil => exact if_pos hch
  | cons =>
    rw [if_neg (hch.1 ▸ hch.2.1),h.tail,getLast?_cons_cons]

lemma Tailed.unlink {prev : Nat} (h : Tailed next head tail (pre ++ x :: rest))
    (hprev : prev = pre.getLast?.getD 0) (hln : prev ≠ 0 → next' prev = next x)
    (hsa : ∀ y ∈ pre ++ rest, y ≠ prev → next' y = next y) :
    Tailed next' (if prev = 0 then next x else head) (if tail = x then prev else tail)
      (pre ++ rest) := by
  obtain ⟨hpre,hmid,hdj⟩ := nodup_append.mp h.nodup
  obtain ⟨hxrest,hrs⟩ := nodup_cons.mp hmid
  have hnd : (pre ++ rest).Nodup := nodup_append.mpr
    ⟨hpre,hrs,fun a ha b hb => hdj a ha b (.tail x hb)⟩
  have haf := h.chain.after
  have hnx : Chain next' (next x) rest := haf.congr fun y hy =>
    hsa y (mem_append_right pre hy) (by
      rintro rfl
      obtain rfl | ⟨ps,p,rfl⟩ := eq_nil_or_concat pre
      · exact haf.ne_zero hy (by simpa using hprev)
      have hp : y = p := by simpa using hprev
      exact hdj p (by simp) y (.tail x hy) hp.symm)
  have hta : (if tail = x then prev else tail) = (pre ++ rest).getLast?.getD 0 := by
    obtain rfl | ⟨rs,r,rfl⟩ := eq_nil_or_concat rest
    · rw [if_pos (by simp [h.tail]),append_nil,hprev]
    have hr : tail = r := by
      rw [h.tail]
      simp [getLast?_cons]
    rw [if_neg (by rintro rfl; exact hxrest (by simp [hr])),hr]
    simp
  refine ⟨?_,hnd,hta⟩
  obtain rfl | ⟨ps,p,rfl⟩ := eq_nil_or_concat pre
  · rw [if_pos (by simpa using hprev)]
    exact hnx
  have hp : prev = p := by simpa using hprev
  have hpne : prev ≠ 0 := hp ▸ h.chain.ne_zero (by simp)
  have hch := h.chain
  rw [concat_eq_append,append_assoc] at hch
  rw [if_neg hpne,concat_eq_append,append_assoc]
  refine hch.relink (fun y hy => hsa y (by simp [hy]) ?_) ?_
  · rintro rfl
    rw [concat_eq_append] at hpre
    exact (nodup_append.mp hpre).2.2 y hy p (.head _) hp
  rw [← hp,hln hpne]
  exact hnx

lemma Doubly.chain (h : Doubly next prev before head l) : Chain next head l := by
  induction l generalizing before head with
  | nil => exact h
  | cons _ _ ih => exact ⟨h.1,h.2.1,ih h.2.2.2⟩

lemma Doubly.congr (h : Doubly next prev before head l)
    (hsa : ∀ y ∈ l, next' y = next y ∧ prev' y = prev y) : Doubly next' prev' before head l := by
  induction l generalizing before head with
  | nil => exact h
  | cons y _ ih =>
    obtain ⟨hn,hp⟩ := hsa y (.head _)
    refine ⟨h.1,h.2.1,hp.trans h.2.2.1,?_⟩
    rw [hn]
    exact ih h.2.2.2 fun z hz => hsa z (.tail y hz)

lemma Doubly.push (h : Doubly next prev 0 head l) (hx : x ≠ 0) (hnd : l.Nodup)
    (hln : next' x = head) (hfst : prev' x = 0) (hnx : ∀ y ∈ l, next' y = next y)
    (hprev : ∀ y ∈ l, prev' y = if y = head then x else prev y) : Doubly next' prev' 0 x (x :: l) := by
  refine ⟨rfl,hx,hfst,?_⟩
  rw [hln]
  cases l with
  | nil => exact h
  | cons =>
    obtain ⟨rfl,hy,-,hta⟩ := h
    have hys := (nodup_cons.mp hnd).1
    refine ⟨rfl,hy,(hprev head (.head _)).trans (if_pos rfl),?_⟩
    rw [hnx head (.head _)]
    refine hta.congr fun z hz => ⟨hnx z (.tail head hz),?_⟩
    rw [hprev z (.tail head hz),if_neg]
    rintro rfl
    exact hys hz

section

variable (h : Doubly next prev before head l)

include h

lemma Doubly.next_mem (hx : x ∈ l) : next x = 0 ∨ next x ∈ l.tail := by
  induction l generalizing before head with
  | nil => cases hx
  | cons y ys ih =>
    obtain rfl | hx := mem_cons.mp hx
    · cases ys with
      | nil => exact .inl h.2.2.2
      | cons =>
        refine .inr ?_
        rw [h.2.2.2.1]
        exact .head _
    obtain hz | hz := ih h.2.2.2 hx
    · exact .inl hz
    exact .inr (mem_of_mem_tail hz)

lemma Doubly.prev_mem (hx : x ∈ l) : (head = x ∧ prev x = before) ∨ prev x ∈ l := by
  induction l generalizing before head with
  | nil => cases hx
  | cons y _ ih =>
    obtain rfl | hx := mem_cons.mp hx
    · exact .inl ⟨h.1,h.2.2.1⟩
    obtain ⟨-,hp⟩ | hp := ih h.2.2.2 hx
    · exact .inr (hp ▸ (.head _))
    exact .inr (.tail y hp)

lemma Doubly.prev_ne (hnd : l.Nodup) (hbf : before ∉ l) (hx : x ∈ l) : prev x ≠ x := by
  induction l generalizing before head with
  | nil => cases hx
  | cons y ys ih =>
    obtain ⟨-,-,hp,hta⟩ := h
    obtain ⟨hni,hnd⟩ := nodup_cons.mp hnd
    obtain rfl | hx := mem_cons.mp hx
    · intro e
      refine hbf ?_
      rw [← hp,e]
      exact .head _
    exact ih hta hnd hni hx

lemma Doubly.unlink (hx : x ∈ l) (hnd : l.Nodup) (hbf : before ∉ l)
    (hnx : ∀ y ∈ l, y ≠ x → next' y = if y = prev x then next x else next y)
    (hprev : ∀ y ∈ l, y ≠ x → prev' y = if y = next x then prev x else prev y) :
    Doubly next' prev' before (if prev x = before then next x else head) (l.erase x) := by
  induction l generalizing before head with
  | nil => cases hx
  | cons y ys ih =>
    obtain ⟨rfl,hy,hp,hta⟩ := h
    obtain ⟨hni,hnd⟩ := nodup_cons.mp hnd
    obtain rfl | hxy := eq_or_ne head x
    · rw [erase_cons_head,if_pos hp]
      cases ys with
      | nil => exact hta
      | cons z zs =>
        obtain ⟨hz,hz0,-,hrs⟩ := hta
        have hznotin := (nodup_cons.mp hnd).1
        have hne : ∀ w ∈ z :: zs, w ≠ head ∧ w ≠ before := fun w hw =>
          ⟨fun e => hni (e ▸ hw),fun e => hbf (e ▸ .tail head hw)⟩
        have hn : ∀ w ∈ z :: zs, next' w = next w := fun w hw => by
          rw [hnx w (.tail head hw) (hne w hw).1,if_neg]
          rw [hp]
          exact (hne w hw).2
        refine ⟨hz,hz0,?_,?_⟩
        · rw [hprev z (by simp) (hne z (by simp)).1,if_pos hz.symm,hp]
        rw [hn z (by simp)]
        refine hrs.congr fun w hw => ⟨hn w (by simp [hw]),?_⟩
        rw [hprev w (by simp [hw]) (hne w (by simp [hw])).1,if_neg]
        rw [hz]
        rintro rfl
        exact hznotin hw
    have hxs : x ∈ ys := (mem_cons.mp hx).resolve_left (Ne.symm hxy)
    have hpx : prev x ≠ before := by
      obtain ⟨-,e⟩ | e := hta.prev_mem hxs
      · rw [e]
        rintro rfl
        exact hbf (.head _)
      intro e'
      exact hbf (e' ▸ .tail head e)
    rw [erase_cons_tail (by simpa using hxy),if_neg hpx]
    refine ⟨rfl,hy,?_,?_⟩
    · rw [hprev head (.head _) hxy,if_neg,hp]
      intro e
      obtain e' | e' := hta.next_mem hxs
      · exact hy (e.trans e')
      exact hni (e ▸ mem_of_mem_tail e')
    have hrs := ih hta hxs hnd hni
      (fun w hw => hnx w (.tail head hw))
      (fun w hw => hprev w (.tail head hw))
    rw [hnx head (.head _) hxy]
    by_cases hla : prev x = head
    · rw [if_pos hla] at hrs
      rwa [if_pos hla.symm]
    rw [if_neg hla] at hrs
    rwa [if_neg (Ne.symm hla)]

end

lemma Chain.mem_of_follows (h : Chain next head l) (hy : Follows next head y) : y ∈ l := by
  have hstep : ∀ (l : List Nat) (head : Nat), Chain next head l → ∀ z ∈ l, next z ≠ 0 →
      next z ∈ l := by
    intro l
    induction l with
    | nil => intro head _ z hz; cases hz
    | cons w ws ih =>
      intro head hc z hz hne
      obtain rfl | hz := mem_cons.mp hz
      · cases ws with
        | nil => cases hne hc.2.2
        | cons =>
          rw [hc.2.2.1]
          simp
      exact .tail w (ih _ hc.2.2 z hz hne)
  induction hy with
  | first hne =>
    cases l with
    | nil => cases hne h
    | cons => exact h.1 ▸ (.head _)
  | after _ hne ih => exact hstep l head h _ ih hne

lemma Follows.trans (hx : Follows next head x) (hy : Follows next x y) : Follows next head y := by
  induction hy with
  | first => exact hx
  | after _ hne ih => exact ih.after hne

lemma Chain.follows_of_mem (h : Chain next head l) (hy : y ∈ l) : Follows next head y := by
  induction l generalizing head with
  | nil => cases hy
  | cons z zs ih =>
    obtain ⟨rfl,hz,hta⟩ := h
    obtain rfl | hy := mem_cons.mp hy
    · exact .first hz
    have hne : next head ≠ 0 := by
      intro e
      cases zs with
      | nil => cases hy
      | cons => exact hta.2.1 (hta.1.symm.trans e)
    exact Follows.trans (.after (.first hz) hne) (ih hta hy)

lemma Chain.follows_iff (h : Chain next head l) : Follows next head y ↔ y ∈ l :=
  ⟨h.mem_of_follows,h.follows_of_mem⟩

end B1nix.Linked
