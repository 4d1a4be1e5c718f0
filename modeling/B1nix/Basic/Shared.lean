import B1nix.Basic.Linked
import B1nix.Basic.Tally

namespace B1nix.Shared

open Function B1nix.Linked B1nix.Tally Finset List

def Rooted (nodes : Finset Nat) (prev : Nat → Nat) (a : Nat) : Prop :=
  ∃ l, Chain prev a l ∧ ∀ x ∈ l, x ∈ nodes

variable {ι : Type} {nodes nodes' : Finset Nat} {prev prev' : Nat → Nat}
  {count : Nat → Int} {live : Finset ι} {root : ι → Nat} {owed a x f b : Nat} {i j : ι}

def points (a x : Nat) : Nat := if x = a then 1 else 0

def owners (nodes : Finset Nat) (prev : Nat → Nat) (live : Finset ι) (root : ι → Nat)
    (owed a : Nat) : Nat :=
  ∑ i ∈ live, points a (root i) + ∑ x ∈ nodes, points a (prev x) + points a owed

structure Counted (nodes : Finset Nat) (prev : Nat → Nat) (count : Nat → Int) (live : Finset ι)
    (root : ι → Nat) (owed : Nat) : Prop where
  zero : 0 ∉ nodes
  roots : ∀ i ∈ live, Rooted nodes prev (root i)
  links : ∀ a ∈ nodes, Rooted nodes prev a
  owing : Rooted nodes prev owed
  counts : ∀ a ∈ nodes, count a = owners nodes prev live root owed a

lemma Rooted.zero : Rooted nodes prev 0 := ⟨[],rfl,fun x hx => by cases hx⟩

lemma Rooted.mem (h : Rooted nodes prev a) (ha : a ≠ 0) : a ∈ nodes := by
  obtain ⟨l,hch,hl⟩ := h
  cases l with
  | nil => cases ha hch
  | cons => exact hl a (hch.1 ▸ (.head _))

lemma Rooted.behind (h : Rooted nodes prev a) (ha : a ≠ 0) : Rooted nodes prev (prev a) := by
  obtain ⟨l,hch,hl⟩ := h
  cases l with
  | nil => cases ha hch
  | cons x xs =>
    obtain rfl := hch.1
    exact ⟨xs,hch.2.2,fun y hy => hl y (.tail _ hy)⟩

variable {l : List Nat} {count' : Nat → Int}

lemma Rooted.chain (h : Rooted nodes prev a) (hch : Chain prev a l) : ∀ x ∈ l, x ∈ nodes := by
  obtain ⟨l',hchain',hl⟩ := h
  rwa [hch.unique hchain']

lemma Rooted.congr (h : Rooted nodes prev a) (hsub : ∀ x ∈ nodes, x ∈ nodes')
    (hsa : ∀ x ∈ nodes, prev' x = prev x) : Rooted nodes' prev' a := by
  obtain ⟨l,hch,hl⟩ := h
  exact ⟨l,hch.congr fun x hx => hsa x (hl x hx),fun x hx => hsub x (hl x hx)⟩

lemma Rooted.length_le (hch : Chain prev a l) (hl : ∀ x ∈ l, x ∈ nodes) : l.length ≤ nodes.card := by
  rw [← toFinset_card_of_nodup hch.nodup]
  exact card_le_card fun x hx => hl x (mem_toFinset.mp hx)

lemma Chain.has_owner (h : Chain prev a l) (hx : x ∈ l) : x = a ∨ ∃ y ∈ l, prev y = x := by
  induction l generalizing a with
  | nil => cases hx
  | cons z _ ih =>
    obtain rfl | hx := mem_cons.mp hx
    · exact .inl h.1.symm
    obtain rfl | ⟨y,hy,hprev⟩ := ih h.2.2 hx
    · exact .inr ⟨z,.head _,rfl⟩
    exact .inr ⟨y,.tail z hy,hprev⟩

lemma Rooted.without (h : Rooted nodes prev a) (ha : a ≠ f)
    (hfe : ∀ x ∈ nodes, prev x ≠ f) : Rooted (nodes.erase f) prev a := by
  obtain ⟨l,hch,hl⟩ := h
  refine ⟨l,hch,fun x hx => mem_erase.mpr ⟨?_,hl x hx⟩⟩
  rintro rfl
  obtain rfl | ⟨y,hy,hprev⟩ := Chain.has_owner hch hx
  · exact ha rfl
  exact hfe y (hl y hy) hprev

@[simp] lemma points_self : points a a = 1 := if_pos rfl

lemma points_of_ne (h : x ≠ a) : points a x = 0 := if_neg h

lemma owners_fresh (hroots : ∀ i ∈ live, root i ≠ a) (hlks : ∀ x ∈ nodes, prev x ≠ a)
    (hoe : owed ≠ a) : owners nodes prev live root owed a = 0 := by
  have hli : ∑ i ∈ live, points a (root i) = 0 := sum_eq_zero fun i hi => points_of_ne (hroots i hi)
  have hnds : ∑ x ∈ nodes, points a (prev x) = 0 := sum_eq_zero fun x hx => points_of_ne (hlks x hx)
  rw [owners,hli,hnds,points_of_ne hoe]

lemma Counted.recount (h : Counted nodes prev count live root owed)
    (hsa : ∀ a ∈ nodes, count' a = count a) : Counted nodes prev count' live root owed :=
  { h with counts := fun a ha => (hsa a ha).trans (h.counts a ha) }

section

variable [DecidableEq ι] (h : Counted nodes prev count live root 0)

include h

lemma Counted.push (ha : a ≠ 0) (hnew : a ∉ nodes) (hi : i ∈ live) :
    Counted (insert a nodes) (update prev a (root i)) (update count a 1) live (update root i a) 0 := by
  have hfr : ∀ {b}, Rooted nodes prev b → b ≠ a := by
    rintro b hb rfl
    exact hnew (hb.mem ha)
  have hsa : ∀ x ∈ nodes, update prev a (root i) x = prev x := fun x hx =>
    update_of_ne (ne_of_mem_of_not_mem hx hnew) ..
  have hold : ∀ {b}, Rooted nodes prev b →
      Rooted (insert a nodes) (update prev a (root i)) b := fun hb =>
    hb.congr (fun x => mem_insert_of_mem) hsa
  have htop : Rooted (insert a nodes) (update prev a (root i)) a := by
    obtain ⟨l,hch,hl⟩ := hold (h.roots i hi)
    refine ⟨a :: l,hch.push ha (update_self ..) fun _ _ => rfl,?_⟩
    rintro x (_ | ⟨_,hx⟩)
    · exact mem_insert_self a nodes
    exact hl x hx
  have hows : ∀ b, owners (insert a nodes) (update prev a (root i)) live
      (update root i a) 0 b = owners nodes prev live root 0 b + points b a := by
    intro b
    have hli := sum_update_add hi root a (points b)
    have hnds := sum_update_of_notMem hnew prev (root i) (points b)
    rw [owners,owners,sum_insert hnew,update_self]
    omega
  refine ⟨?_,fun k hk => ?_,fun b hb => ?_,Rooted.zero,fun b hb => ?_⟩
  · rw [mem_insert,not_or]
    exact ⟨ha.symm,h.zero⟩
  · by_cases hki : k = i
    · rw [hki,update_self]
      exact htop
    rw [update_of_ne hki]
    exact hold (h.roots k hk)
  · obtain rfl | hb := mem_insert.mp hb
    · exact htop
    exact hold (h.links b hb)
  rw [hows]
  obtain rfl | hb := mem_insert.mp hb
  · rw [owners_fresh (fun k hk => hfr (h.roots k hk))
      (fun x hx => hfr ((h.links x hx).behind (ne_of_mem_of_not_mem hx h.zero))) ha.symm]
    simp
  have hba := ne_of_mem_of_not_mem hb hnew
  rw [update_of_ne hba,h.counts b hb,points_of_ne hba.symm,add_zero]

lemma Counted.share (hi : i ∈ live)
    (hj : j ∉ live) (hct : ∀ b ∈ nodes, count' b = count b + points b (root i)) :
    Counted nodes prev count' (insert j live) (update root j (root i)) 0 := by
  refine ⟨h.zero,fun k hk => ?_,h.links,Rooted.zero,fun b hb => ?_⟩
  · by_cases hkj : k = j
    · rw [hkj,update_self]
      exact h.roots i hi
    rw [update_of_ne hkj]
    exact h.roots k ((mem_insert.mp hk).resolve_left hkj)
  rw [hct b hb,h.counts b hb,owners,owners,sum_insert hj,update_self,
    sum_update_of_notMem hj root (root i) (points b)]
  omega

end

lemma Counted.points_zero (h : Counted nodes prev count live root owed)
    (hb : b ∈ nodes) : points b 0 = 0 :=
  points_of_ne ((ne_of_mem_of_not_mem hb h.zero).symm)

lemma Counted.hold (h : Counted nodes prev count live root 0) (ha : Rooted nodes prev a)
    (hct : ∀ b ∈ nodes, count' b = count b + points b a) : Counted nodes prev count' live root a := by
  refine ⟨h.zero,h.roots,h.links,ha,fun b hb => ?_⟩
  have hze := h.points_zero hb
  rw [hct b hb,h.counts b hb,owners,owners]
  omega

lemma Counted.leave [DecidableEq ι] (h : Counted nodes prev count live root 0) (hi : i ∈ live) :
    Counted nodes prev count live (update root i 0) (root i) := by
  refine ⟨h.zero,fun k hk => ?_,h.links,h.roots i hi,fun b hb => ?_⟩
  · by_cases hki : k = i
    · rw [hki,update_self]
      exact Rooted.zero
    rw [update_of_ne hki]
    exact h.roots k hk
  have hsum := sum_update_add hi root 0 (points b)
  rw [h.counts b hb,owners,owners]
  omega

lemma Counted.forget [DecidableEq ι] (h : Counted nodes prev count live root owed) (hi : i ∈ live)
    (hrt : root i = 0) : Counted nodes prev count (live.erase i) root owed := by
  refine ⟨h.zero,fun k hk => h.roots k (mem_of_mem_erase hk),h.links,h.owing,fun b hb => ?_⟩
  have hsp := add_sum_erase live (fun k => points b (root k)) hi
  have hze := h.points_zero hb
  rw [h.counts b hb,owners,owners,← hsp,hrt,hze,zero_add]

section

variable (h : Counted nodes prev count live root owed) (hne : owed ≠ 0)

include h hne

lemma Counted.keep : Counted nodes prev (update count owed (count owed - 1)) live root 0 := by
  refine ⟨h.zero,h.roots,h.links,Rooted.zero,fun b hb => ?_⟩
  have hct := h.counts b hb
  have hze := h.points_zero hb
  rw [owners] at hct ⊢
  obtain rfl | hbo := eq_or_ne b owed
  · rw [update_self,hct,points_self]
    omega
  rw [update_of_ne hbo,hct,hze,points_of_ne (Ne.symm hbo)]

lemma Counted.last (hone : count owed = 1) : (∀ i ∈ live, root i ≠ owed) ∧ ∀ x ∈ nodes, prev x ≠ owed := by
  have hct := h.counts owed (h.owing.mem hne)
  rw [owners,points_self] at hct
  have hsum : ∑ i ∈ live, points owed (root i) = 0 ∧ ∑ x ∈ nodes, points owed (prev x) = 0 := by omega
  refine ⟨fun i hi heq => ?_,fun x hx heq => ?_⟩
  · have hterm := sum_eq_zero_iff.mp hsum.1 i hi
    rw [heq,points_self] at hterm
    cases hterm
  have hterm := sum_eq_zero_iff.mp hsum.2 x hx
  rw [heq,points_self] at hterm
  cases hterm

lemma Counted.free (hone : count owed = 1) :
    Counted (nodes.erase owed) prev count live root (prev owed) := by
  obtain ⟨hroots,hlks⟩ := h.last hne hone
  have hmem := h.owing.mem hne
  refine ⟨fun h0 => h.zero (mem_of_mem_erase h0),
    fun i hi => (h.roots i hi).without (hroots i hi) hlks,fun a ha => ?_,
    (h.owing.behind hne).without (hlks owed hmem) hlks,fun b hb => ?_⟩
  · obtain ⟨hao,ha⟩ := mem_erase.mp ha
    exact (h.links a ha).without hao hlks
  obtain ⟨hbo,hb⟩ := mem_erase.mp hb
  have hsp := add_sum_erase nodes (fun x => points b (prev x)) hmem
  rw [h.counts b hb,owners,owners,points_of_ne hbo.symm]
  omega

end

lemma Counted.owner (h : Counted nodes prev count live root 0) (ha : a ∈ nodes)
    (hpos : 0 < count a) : (∃ i ∈ live, root i = a) ∨ ∃ x ∈ nodes, prev x = a := by
  have hct := h.counts a ha
  have hze := h.points_zero ha
  rw [owners] at hct
  by_cases hli : ∑ i ∈ live, points a (root i) = 0
  · obtain ⟨x,hx,hne⟩ := exists_ne_zero_of_sum_ne_zero
      (show ∑ x ∈ nodes, points a (prev x) ≠ 0 by omega)
    exact .inr ⟨x,hx,by_contra fun hxa => hne (points_of_ne hxa)⟩
  obtain ⟨i,hi,hne⟩ := exists_ne_zero_of_sum_ne_zero hli
  exact .inl ⟨i,hi,by_contra fun hia => hne (points_of_ne hia)⟩

lemma Counted.reached (h : Counted nodes prev count live root 0)
    (hpos : ∀ x ∈ nodes, 0 < count x) (ha : a ∈ nodes) : ∃ i ∈ live, Follows prev (root i) a := by
  obtain ⟨l,hch,hl⟩ := h.links a ha
  induction hk : nodes.card - l.length using Nat.strongRecOn generalizing a l with
  | ind k ih =>
    obtain ⟨i,hi,rfl⟩ | ⟨x,hx,rfl⟩ := h.owner ha (hpos a ha)
    · exact ⟨i,hi,.first (ne_of_mem_of_not_mem ha h.zero)⟩
    have hlong := hch.push (ne_of_mem_of_not_mem hx h.zero) rfl fun _ _ => rfl
    have hin := forall_mem_cons.mpr ⟨hx,hl⟩
    have hlen := Rooted.length_le hlong hin
    rw [length_cons] at hlen
    obtain ⟨i,hi,hfol⟩ := ih _ (by rw [length_cons]; omega) hx (x :: l) hlong
      hin rfl
    exact ⟨i,hi,hfol.after (ne_of_mem_of_not_mem ha h.zero)⟩

lemma Rooted.follows (h : Rooted nodes prev a) (hx : Follows prev a x) : x ∈ nodes := by
  obtain ⟨l,hch,hl⟩ := h
  exact hl x (hch.mem_of_follows hx)

end B1nix.Shared
