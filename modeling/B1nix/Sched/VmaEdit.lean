import B1nix.Sched.Vma

namespace B1nix.Sched

open List VmArea Nat Option

structure Mapped where
  prot : Nat
  flags : Nat
  node : Option Nat
  position : Int
deriving DecidableEq, Repr

variable (v : VmArea)

def VmArea.Covers (a : Nat) (m : Mapped) : Prop :=
  v.start ≤ a ∧ a < v.stop ∧ m = ⟨v.prot,v.flags,v.node,v.offset + ((a : Int) - v.start)⟩

variable (heapStart cut : Nat) (l : List VmArea)

def Coverage (a : Nat) (m : Mapped) : Prop := ∃ v ∈ l, v.Covers a m

def SortedByStart : Prop := l.Pairwise fun v b => v.start ≤ b.start

def CutOk : Prop := l.Pairwise fun v b => v.start < cut → cut < v.stop → cut ≤ b.start

instance (l : List VmArea) : Decidable (SortedByStart l) :=
  inferInstanceAs (Decidable (l.Pairwise _))

instance (cut : Nat) (l : List VmArea) : Decidable (CutOk cut l) :=
  inferInstanceAs (Decidable (l.Pairwise _))

def VmArea.below : VmArea := { v with stop := cut }

def VmArea.above : VmArea := { v with start := cut, offset := v.offset + ((cut : Int) - v.start) }

def VmArea.right (stop : Nat) : List VmArea :=
  if stop < v.stop then [v.above stop] else []

def VmArea.left (start : Nat) : List VmArea :=
  if v.start < start then [v.below start] else []

def VmArea.without (start stop : Nat) (v : VmArea) : List VmArea :=
  if stop ≤ v.start ∨ v.stop ≤ start then [v] else v.left start ++ v.right stop

variable {start stop cut : Nat} {l : List VmArea} {v area b : VmArea} {a : Nat} {m : Mapped}

lemma covers_above (h : v.start ≤ cut) : (v.above cut).Covers a m ↔ v.Covers a m ∧ cut ≤ a := by
  have hoff : v.offset + ((cut : Int) - v.start) + ((a : Int) - cut) =
      v.offset + ((a : Int) - v.start) := by omega
  simp only [VmArea.Covers,above,hoff]
  constructor
  · rintro ⟨hlo,hhi,hm⟩
    exact ⟨⟨h.trans hlo,hhi,hm⟩,hlo⟩
  rintro ⟨⟨-,hhi,hm⟩,hlo⟩
  exact ⟨hlo,hhi,hm⟩

lemma covers_below (h : cut ≤ v.stop) : (v.below cut).Covers a m ↔ v.Covers a m ∧ a < cut := by
  constructor
  · rintro ⟨hlo,hhi,hm⟩
    exact ⟨⟨hlo,hhi.trans_le h,hm⟩,hhi⟩
  rintro ⟨⟨hlo,-,hm⟩,hhi⟩
  exact ⟨hlo,hhi,hm⟩

lemma coverage_left (h : start < v.stop) : Coverage (v.left start) a m ↔ v.Covers a m ∧ a < start := by
  unfold left
  split_ifs with hlt
  · rw [Coverage]
    simp only [mem_singleton,exists_eq_left]
    exact covers_below h.le
  constructor
  · rintro ⟨b,hb,-⟩
    cases hb
  rintro ⟨⟨hlo,-,-⟩,ha⟩
  cases hlt (lt_of_le_of_lt hlo ha)

lemma coverage_right (h : v.start < stop) : Coverage (v.right stop) a m ↔ v.Covers a m ∧ stop ≤ a := by
  unfold right
  split_ifs with hlt
  · rw [Coverage]
    simp only [mem_singleton,exists_eq_left]
    exact covers_above h.le
  constructor
  · rintro ⟨b,hb,-⟩
    cases hb
  rintro ⟨⟨-,hhi,-⟩,ha⟩
  cases hlt (lt_of_le_of_lt ha hhi)

lemma coverage_without (v : VmArea) :
    Coverage (v.without start stop) a m ↔ v.Covers a m ∧ ¬(start ≤ a ∧ a < stop) := by
  unfold without
  split_ifs with hout
  · rw [Coverage]
    simp only [mem_singleton,exists_eq_left]
    refine ⟨fun hv => ⟨hv,fun ha => ?_⟩,fun hv => hv.1⟩
    obtain ⟨hlo,hhi,-⟩ := hv
    omega
  obtain ⟨hsta,hstop⟩ := not_or.mp hout
  have hsp : Coverage (v.left start ++ v.right stop) a m ↔
      Coverage (v.left start) a m ∨ Coverage (v.right stop) a m := by
    simp [Coverage,or_and_right,exists_or]
  rw [hsp,coverage_left (lt_of_not_ge hstop),coverage_right (lt_of_not_ge hsta), ← and_or_left]
  refine and_congr_right fun _ => ?_
  omega

lemma coverage_flatMap (l : List VmArea) (a : Nat) (m : Mapped) :
    Coverage (l.flatMap (without start stop)) a m ↔ Coverage l a m ∧ ¬(start ≤ a ∧ a < stop) := by
  constructor
  · rintro ⟨b,hb,hcov⟩
    obtain ⟨v,hv,hb⟩ := mem_flatMap.mp hb
    obtain ⟨hv',ha⟩ := (coverage_without v).mp ⟨b,hb,hcov⟩
    exact ⟨⟨v,hv,hv'⟩,ha⟩
  rintro ⟨⟨v,hv,hcov⟩,ha⟩
  obtain ⟨b,hb,hb'⟩ := (coverage_without v).mpr ⟨hcov,ha⟩
  exact ⟨b,mem_flatMap.mpr ⟨v,hv,hb⟩,hb'⟩

lemma mem_without (h : b ∈ v.without start stop) :
    b.start = v.start ∨ (b.start = stop ∧ v.start < stop ∧ stop < v.stop) := by
  unfold VmArea.without at h
  split_ifs at h with hin
  · exact .inl (congrArg VmArea.start (mem_singleton.mp h))
  obtain h | h := mem_append.mp h
  · unfold VmArea.left at h
    split at h
    · rw [mem_singleton.mp h]
      exact .inl rfl
    cases h
  unfold VmArea.right at h
  split_ifs at h with hlt
  · exact .inr ⟨congrArg VmArea.start (mem_singleton.mp h),by omega,hlt⟩
  cases h

lemma sorted_without (h : start ≤ stop) (v : VmArea) : SortedByStart (v.without start stop) := by
  unfold VmArea.without VmArea.left VmArea.right SortedByStart
  split
  · exact pairwise_singleton ..
  split
  · next hlt =>
    split
    · simp only [cons_append,nil_append,pairwise_cons,mem_singleton,
        forall_eq,not_mem_nil,false_imp_iff,implies_true,List.Pairwise.nil,and_true]
      exact (le_of_lt hlt).trans h
    exact pairwise_singleton ..
  split
  · exact pairwise_singleton ..
  exact List.Pairwise.nil

lemma sorted_flatMap (h : start ≤ stop) (hs : SortedByStart l) (hc : CutOk stop l) :
    SortedByStart (l.flatMap (without start stop)) := by
  refine pairwise_flatMap.mpr ⟨fun v _ => sorted_without h v,?_⟩
  refine (hs.and hc).imp ?_
  rintro v b ⟨hle,hcut⟩ x hx y hy
  obtain hx | ⟨hx,-,hhi⟩ := mem_without hx
  · obtain hy | ⟨hy,hylt,-⟩ := mem_without hy
    · omega
    omega
  obtain hy | ⟨hy,-,-⟩ := mem_without hy
  · omega
  omega

open Function

def areas (s : VmaState) (p : Nat) : List VmArea := (s.list p).map s.area

variable {spaces : List Nat} {al : VmaAlloc} {t : VmaTask} {s s' : VmaState} {v n addr : Nat}
  {pre rest : List Nat}

lemma splitAfter_append (l : List Nat) (b : Option Nat) : (splitAfter l b).1 ++ (splitAfter l b).2 = l := by
  cases b with
  | none => rfl
  | some =>
    simp only [splitAfter]
    rw [append_assoc,take_append_drop,takeWhile_append_dropWhile]

lemma splitAfter_some {l : List Nat} {b : Nat} (h : b ∈ l) :
    (splitAfter l (some b)).1 = l.takeWhile (· ≠ b) ++ [b] := by
  have hdp : (l.dropWhile (· ≠ b)).take 1 = [b] := by
    induction l with
    | nil => cases h
    | cons x _ ih =>
      obtain rfl | hx := eq_or_ne x b
      · simp
      obtain rfl | h := mem_cons.mp h
      · cases hx rfl
      simpa [hx] using ih h
  exact congrArg (l.takeWhile (· ≠ b) ++ ·) hdp

lemma insertAfter_split (hv : v ∉ pre) : insertAfter v n (pre ++ v :: rest) = pre ++ v :: n :: rest := by
  induction pre with
  | nil => exact if_pos rfl
  | cons _ _ ih =>
    obtain ⟨hx,hxs⟩ := not_or.mp fun e => hv (mem_cons.mpr e)
    rw [cons_append,insertAfter,if_neg fun e => hx e.symm,ih hxs]
    rfl

structure SplitAt (s s' : VmaState) (p v n addr : Nat) : Prop where
  fresh : ∀ q, n ∉ s.list q
  others : ∀ q, q ≠ p → s'.list q = s.list q
  list : ∀ pre rest, s.list p = pre ++ v :: rest → s'.list p = pre ++ v :: n :: rest
  below : s'.area v = (s.area v).below addr
  above : s'.area n = (s.area v).above addr
  same : ∀ u, u ≠ v → u ≠ n → s'.area u = s.area u

lemma Linked.split (h : Linked spaces s) (hal : al.Ok spaces) (hp : t.pml4 ∈ spaces)
    (hv : v ∈ s.list t.pml4) (addr : Nat) : ∃ n, (vmaSplit al t v addr s).1 = some n ∧
      Linked spaces (vmaSplit al t v addr s).2 ∧
      SplitAt s (vmaSplit al t v addr s).2 t.pml4 v n addr := by
  obtain ⟨n,hn,hfr⟩ := hal s h.used
  obtain ⟨pre,rest,hls⟩ := append_of_mem hv
  have hnv : v ≠ n := by
    rintro rfl
    exact hfr _ hv
  have hsp : ∀ pre rest, s.list t.pml4 = pre ++ v :: rest →
      insertAfter v n (s.list t.pml4) = pre ++ v :: n :: rest := by
    intro pre rest hls
    have hnd := h.nodup t.pml4
    rw [hls] at hnd ⊢
    refine insertAfter_split fun hpre => ?_
    exact (nodup_append.mp hnd).2.2 v hpre v (.head _) rfl
  have hpm : (insertAfter v n (s.list t.pml4)).Perm (n :: s.list t.pml4) := by
    rw [hsp pre rest hls,hls]
    have hmo := List.Perm.swap n v rest
    exact (hmo.append_left pre).trans perm_middle
  simp only [vmaSplit,hn]
  refine ⟨n,rfl,h.link hp hfr hpm,?_⟩
  rw [idxInsert_frame]
  refine ⟨hfr,fun q hq => update_of_ne hq ..,fun pre rest hl => ?_,?_,?_,fun u huv hun => ?_⟩
  · exact (update_self ..).trans (hsp pre rest hl)
  · dsimp only
    rw [update_of_ne hnv,update_self]
    rfl
  · exact update_self ..
  dsimp only
  rw [update_of_ne hun,update_of_ne huv]

variable {p q length steps candidate userBrk : Nat} {c : VmaCall} {noHint : Bool}

lemma SplitAt.map {l : List Nat} (h : SplitAt s s' p v n addr) (hl : ∀ u ∈ l, u ∈ s.list q)
    (hv : v ∉ l) : l.map s'.area = l.map s.area := by
  refine map_congr_left fun u hu => h.same u (fun e => hv (e ▸ hu)) ?_
  rintro rfl
  exact h.fresh q (hl u hu)

lemma Linked.notin (h : Linked spaces s) (hls : s.list p = pre ++ v :: rest) : v ∉ pre ∧ v ∉ rest := by
  have hnd := h.nodup p
  rw [hls] at hnd
  obtain ⟨-,hrs,hdj⟩ := nodup_append.mp hnd
  exact ⟨fun hv => hdj v hv v (.head _) rfl,(nodup_cons.mp hrs).1⟩

section

variable (h : SplitAt s s' p v n addr) (hs : Linked spaces s)

include h hs

lemma SplitAt.others_areas (hv : v ∈ s.list p) (hq : q ≠ p) : areas s' q = areas s q := by
  rw [areas,h.others q hq]
  exact h.map (fun _ hu => hu) fun hvq => hq (hs.apart q p v hvq hv)

lemma SplitAt.parts (hls : s.list p = pre ++ v :: rest) :
    pre.map s'.area = pre.map s.area ∧ rest.map s'.area = rest.map s.area := by
  obtain ⟨hpre,hrs⟩ := hs.notin hls
  refine ⟨h.map (q := p) (fun u hu => ?_) hpre,h.map (q := p) (fun u hu => ?_) hrs⟩
  · rw [hls]
    exact mem_append_left _ hu
  rw [hls]
  exact mem_append_right _ (.tail v hu)

lemma SplitAt.areas (hls : s.list p = pre ++ v :: rest) :
    areas s' p = pre.map s.area ++ (s.area v).below addr :: (s.area v).above addr :: rest.map s.area := by
  obtain ⟨hpre,hrs⟩ := h.parts hs hls
  rw [Sched.areas,h.list pre rest hls]
  simp only [map_append,map_cons,hpre,hrs,h.below,h.above]

end

lemma unlink_list_self (h : Linked spaces s) (hls : s.list t.pml4 = pre ++ v :: rest) :
    (vmaUnlink al t v s).list t.pml4 = pre ++ rest := by
  rw [vmaUnlink_list,update_self,hls,erase_append_right _ (h.notin hls).1,erase_cons_head]

lemma unlink_list_other (hq : q ≠ t.pml4) : (vmaUnlink al t v s).list q = s.list q := by
  rw [vmaUnlink_list,update_of_ne hq]

structure Dropped (s s' : VmaState) (p stop : Nat) (pre : List Nat) (v : Nat)
    (next : Option Nat) (rest : List Nat) : Prop where
  list : s'.list p = pre ++ (next.toList ++ rest)
  pre : pre.map s'.area = pre.map s.area
  next : next.toList.map s'.area = (s.area v).right stop
  rest : rest.map s'.area = rest.map s.area
  others : ∀ q, q ≠ p → areas s' q = areas s q

lemma Linked.dropped (h : Linked spaces s) (stop : Nat) (hal : al.Ok spaces)
    (hp : t.pml4 ∈ spaces) (hls : s.list t.pml4 = pre ++ v :: rest) :
    Linked spaces (vmaUnlink al t v (trimEnd al t v stop s).2) ∧
      Dropped s (vmaUnlink al t v (trimEnd al t v stop s).2) t.pml4 stop pre v
        (trimEnd al t v stop s).1 rest := by
  have hv : v ∈ s.list t.pml4 := hls ▸ mem_append_cons_self
  unfold trimEnd
  split_ifs with hlt
  · obtain ⟨n,hn,hlk,hsp⟩ := h.split hal hp hv stop
    obtain ⟨hpre,hrs⟩ := hsp.parts h hls
    have hlist' := hsp.list pre rest hls
    refine ⟨hlk.unlink hp,?_,?_,?_,?_,fun q hq => ?_⟩
    · rw [unlink_list_self hlk hlist',hn]
      rfl
    · rw [vmaUnlink_area,hpre]
    · rw [vmaUnlink_area,hn,right,if_pos hlt,← hsp.above]
      rfl
    · rw [vmaUnlink_area,hrs]
    rw [areas,unlink_list_other hq,vmaUnlink_area]
    exact hsp.others_areas h hv hq
  refine ⟨h.unlink hp,unlink_list_self h hls,?_,?_,?_,fun q hq => ?_⟩
  · rw [vmaUnlink_area]
  · rw [right,if_neg hlt]
    rfl
  · rw [vmaUnlink_area]
  rw [areas,unlink_list_other hq,vmaUnlink_area]
  rfl

def StopOk (stop : Nat) (l : List VmArea) : Prop :=
  l.Pairwise fun v b => stop ≤ v.start ∨ stop < v.stop → stop ≤ b.start

lemma stopOk_of_sorted (hs : SortedByStart l) (hc : CutOk stop l) : StopOk stop l := by
  refine (hs.and hc).imp ?_
  rintro v b ⟨hle,hcut⟩ hv
  by_cases hsta : stop ≤ v.start
  · exact hsta.trans hle
  exact hcut (lt_of_not_ge hsta) (hv.resolve_left hsta)

lemma without_outside (h : ∀ b ∈ l, stop ≤ b.start ∨ b.stop ≤ start) :
    l.flatMap (without start stop) = l := by
  induction l with
  | nil => rfl
  | cons b _ ih =>
    rw [flatMap_cons,ih fun x hx => h x (.tail b hx),without,if_pos (h b (.head _))]
    rfl

lemma above_without {v : VmArea} (hle : start ≤ stop) (hstop : start < v.stop) :
    (v.above start).without start stop = v.right stop := by
  unfold without right left
  simp only [above,lt_irrefl]
  by_cases heq : stop ≤ start
  · have : stop = start := heq.antisymm hle
    subst this
    rw [if_pos (.inl heq),if_pos hstop]
  rw [if_neg (not_or.mpr ⟨heq,hstop.not_ge⟩)]
  have hoff : v.offset + ((start : Int) - v.start) + ((stop : Int) - start) =
      v.offset + ((stop : Int) - v.start) := by omega
  rw [hoff]
  rfl

structure Removed (s s' : VmaState) (p start stop : Nat) (pre rest : List Nat) : Prop where
  here : areas s' p = pre.map s.area ++ (rest.map s.area).flatMap (VmArea.without start stop)
  others : ∀ q, q ≠ p → areas s' q = areas s q

lemma vmaDeleteWalk_spec (hal : al.Ok spaces) (hp : t.pml4 ∈ spaces) (hle : start ≤ stop)
    (rest : List Nat) (s : VmaState) (pre : List Nat) (h : Linked spaces s)
    (hls : s.list t.pml4 = pre ++ rest) (hstop : StopOk stop (rest.map s.area)) :
    Linked spaces (vmaDeleteWalk al t start stop rest s) ∧
      Removed s (vmaDeleteWalk al t start stop rest s) t.pml4 start stop pre rest := by
  fun_induction vmaDeleteWalk al t start stop rest s generalizing pre with
  | case1 =>
    refine ⟨h,?_,fun _ _ => rfl⟩
    rw [areas,hls,map_append]
    rfl
  | case2 _ _ _ hbr =>
    refine ⟨h,?_,fun _ _ => rfl⟩
    rw [areas,hls,map_append,without_outside]
    refine fun b hb => .inl ?_
    obtain rfl | hb := mem_cons.mp hb
    · exact hbr
    exact (pairwise_cons.mp hstop).1 b hb (.inl hbr)
  | case3 v _ s _ hsk ih =>
    obtain ⟨hlk,hhr,hots⟩ := ih (pre ++ [v]) h (by rw [hls,append_cons])
      (pairwise_cons.mp hstop).2
    have hkp : (s.area v).without start stop = [s.area v] := if_pos (.inr hsk)
    refine ⟨hlk,?_,hots⟩
    simp [hhr,hkp]
  | case4 v rest s hbr hsk hcut r ih =>
    have hv : v ∈ s.list t.pml4 := hls ▸ mem_append_cons_self
    obtain ⟨n,hn,hlk,hsp⟩ := h.split hal hp hv start
    obtain ⟨hpre,hrs⟩ := hsp.parts h hls
    have hlt := lt_of_not_ge hsk
    obtain ⟨hfst,hta⟩ := pairwise_cons.mp hstop
    simp only [r,hn,toList_some,singleton_append] at ih ⊢
    obtain ⟨hlinked',hhr,hots⟩ := ih (pre ++ [v]) hlk
      (by rw [hsp.list pre rest hls,append_cons]) (by
        rw [map_cons,hsp.above,hrs]
        refine pairwise_cons.mpr ⟨fun b hb hor => hfst b hb ?_,hta⟩
        obtain hor | hor := hor
        · exact Or.inr (hor.trans_lt hlt)
        exact .inr hor)
    refine ⟨hlinked',?_,fun q hq => (hots q hq).trans (hsp.others_areas h hv hq)⟩
    have hpts : (s.area v).without start stop =
        (s.area v).below start :: (s.area v).right stop := by
      rw [without,if_neg (not_or.mpr ⟨hbr,hsk⟩),left,if_pos hcut]
      rfl
    simp [hhr,hpts,hpre,hrs,hsp.below,hsp.above,above_without hle hlt]
  | case5 v rest s hbr hsk hcut r ih =>
    obtain ⟨hlk,hdp⟩ := h.dropped stop hal hp hls
    obtain ⟨hfst,hta⟩ := pairwise_cons.mp hstop
    have hrt : ∀ b ∈ (s.area v).right stop, b.start = stop ∧ stop < (s.area v).stop := by
      intro b hb
      unfold right at hb
      split_ifs at hb with hlt
      · rw [mem_singleton.mp hb]
        exact ⟨rfl,hlt⟩
      cases hb
    obtain ⟨hlinked',hhr,hots⟩ := ih pre hlk hdp.list (by
      rw [map_append,hdp.next,hdp.rest]
      refine pairwise_append.mpr ⟨?_,hta,fun a ha b hb _ => ?_⟩
      · unfold right
        split
        · exact pairwise_singleton ..
        exact List.Pairwise.nil
      exact hfst b hb (.inr (hrt a ha).2))
    refine ⟨hlinked',?_,fun q hq => (hots q hq).trans (hdp.others q hq)⟩
    have hpts : (s.area v).without start stop = (s.area v).right stop := by
      rw [without,if_neg (not_or.mpr ⟨hbr,hsk⟩),left,if_neg hcut]
      rfl
    have hkp : ((s.area v).right stop).flatMap (without start stop) =
        (s.area v).right stop :=
      without_outside fun b hb => .inl (le_of_eq (hrt b hb).1.symm)
    rw [hhr,map_append,hdp.pre,hdp.next,hdp.rest,flatMap_append,hkp, map_cons,flatMap_cons,hpts]

open Transition

structure VmaInv (spaces : List Nat) (s : VmaState) : Prop extends Linked spaces s where
  sorted : ∀ p, SortedByStart (areas s p)

variable {u : Nat} {l : List Nat} {last origin last' o prev : Option Nat}

lemma splitAfter_related {R : VmArea → VmArea → Prop} {p b : Nat} (hb : b ∈ s.list p)
    (hrlt : (areas s p).Pairwise R) (hu : u ∈ (splitAfter (s.list p) (some b)).1) :
    u = b ∨ R (s.area u) (s.area b) := by
  have hap := splitAfter_append (s.list p) (some b)
  rw [splitAfter_some hb] at hu hap
  obtain hu | hu := mem_append.mp hu
  · rw [areas,← hap,append_assoc,map_append] at hrlt
    exact .inr ((pairwise_append.mp hrlt).2.2 _ (mem_map_of_mem hu) _ (.head _))
  exact .inl (mem_singleton.mp hu)

section

variable (h : VmaInv spaces s)

include h

lemma VmaInv.skipped (hcut : CutOk start (areas s t.pml4)) :
    ∀ u ∈ (splitAfter (s.list t.pml4) (vmaKnownBefore s t start true)).1, (s.area u).stop ≤ start := by
  intro u hu
  cases hb : vmaKnownBefore s t start true with
  | none =>
    rw [hb] at hu
    cases hu
  | some =>
    have hbf := h.knownBefore hb
    rw [hb] at hu
    obtain rfl | ⟨hle,hcx⟩ := splitAfter_related hbf.linked ((h.sorted t.pml4).and hcut) hu
    · exact hbf.stop rfl
    have hsta := hbf.start
    refine le_of_not_gt fun hlt => ?_
    omega

section

variable (hal : al.Ok spaces) (hp : t.pml4 ∈ spaces)

include hal hp

section

variable {stop : Nat} (hle : start ≤ stop) (hsta : CutOk start (areas s t.pml4))
  (hstop : CutOk stop (areas s t.pml4))

include hle hsta hstop

lemma VmaInv.delete :
    Linked spaces (vmaDeleteRange al t start stop s) ∧
      areas (vmaDeleteRange al t start stop s) t.pml4 =
        (areas s t.pml4).flatMap (VmArea.without start stop) ∧
      ∀ q, q ≠ t.pml4 → areas (vmaDeleteRange al t start stop s) q = areas s q := by
  have hsk := h.skipped hsta
  have hap := splitAfter_append (s.list t.pml4) (vmaKnownBefore s t start true)
  have hstopOk := stopOk_of_sorted (h.sorted t.pml4) hstop
  unfold vmaDeleteRange
  generalize splitAfter (s.list t.pml4) (vmaKnownBefore s t start true) = r at hsk hap ⊢
  rw [areas,← hap,map_append] at hstopOk
  obtain ⟨hlk,hhr,hots⟩ := vmaDeleteWalk_spec hal hp hle r.2 s r.1 h.toLinked
    hap.symm (pairwise_append.mp hstopOk).2.1
  refine ⟨hlk,?_,hots⟩
  have hpre : (r.1.map s.area).flatMap (VmArea.without start stop) = r.1.map s.area := by
    refine without_outside fun b hb => .inr ?_
    obtain ⟨u,hu,rfl⟩ := mem_map.mp hb
    exact hsk u hu
  rw [hhr,areas,← hap,map_append,flatMap_append,hpre]

lemma VmaInv.deleteRange : VmaInv spaces (vmaDeleteRange al t start stop s) := by
  obtain ⟨hlk,hhr,hots⟩ := h.delete hal hp hle hsta hstop
  refine ⟨hlk,fun p => ?_⟩
  by_cases hpq : p = t.pml4
  · rw [hpq,hhr]
    exact sorted_flatMap hle (h.sorted _) hstop
  rw [hots p hpq]
  exact h.sorted p

end

lemma VmaInv.split (hv : v ∈ s.list t.pml4) (hlo : (s.area v).start < addr) (hhi : addr < (s.area v).stop)
    (hcut : CutOk addr (areas s t.pml4)) : VmaInv spaces (vmaSplit al t v addr s).2 := by
  obtain ⟨n,-,hlk,hsp⟩ := h.toLinked.split hal hp hv addr
  refine ⟨hlk,fun p => ?_⟩
  by_cases hpq : p = t.pml4
  · obtain ⟨pre,rest,hls⟩ := append_of_mem hv
    have hso := (h.sorted t.pml4).and hcut
    rw [areas,hls,map_append] at hso
    obtain ⟨hpre,hmid,hcx⟩ := pairwise_append.mp hso
    obtain ⟨hfst,hrs⟩ := pairwise_cons.mp hmid
    rw [hpq,hsp.areas h.toLinked hls]
    refine pairwise_append.mpr ⟨hpre.imp And.left,?_,fun a ha b hb => ?_⟩
    · refine pairwise_cons.mpr ⟨fun b hb => ?_,pairwise_cons.mpr ⟨fun b hb => ?_,hrs.imp And.left⟩⟩
      · obtain rfl | hb := mem_cons.mp hb
        · exact hlo.le
        exact (hfst b hb).1
      exact (hfst b hb).2 hlo hhi
    have hle := (hcx a ha _ (.head _)).1
    obtain rfl | hb := mem_cons.mp hb
    · exact hle
    obtain rfl | hb := mem_cons.mp hb
    · exact hle.trans hlo.le
    exact (hcx a ha b (.tail _ hb)).1
  rw [hsp.others_areas h.toLinked hv hpq]
  exact h.sorted p

end

lemma VmaInv.setFresh (hv : ∀ p, v ∉ s.list p) : VmaInv spaces (setArea v area s) := by
  refine ⟨{ h with },fun p => ?_⟩
  have hsa : areas (setArea v area s) p = areas s p := by
    refine map_congr_left fun u hu => update_of_ne ?_ ..
    rintro rfl
    exact hv p hu
  rw [hsa]
  exact h.sorted p

lemma VmaInv.setStop (v stop : Nat) :
    VmaInv spaces (setArea v { s.area v with stop } s) := by
  refine ⟨{ h with },fun p => ?_⟩
  have hsta : ∀ u, ((setArea v { s.area v with stop } s).area u).start =
      (s.area u).start := by
    intro u
    simp only [setArea,update_apply]
    split
    · next hu => rw [hu]
    rfl
  refine pairwise_map.mpr ((pairwise_map.mp (h.sorted p)).imp fun hle => ?_)
  rw [hsta,hsta]
  exact hle

lemma VmaInv.splitAfter_start (t : VmaTask) (start : Nat) :
    ∀ u ∈ (splitAfter (s.list t.pml4) (vmaKnownBefore s t start false)).1, (s.area u).start ≤ start := by
  intro u hu
  cases hb : vmaKnownBefore s t start false with
  | none =>
    rw [hb] at hu
    cases hu
  | some =>
    have hbf := h.knownBefore hb
    rw [hb] at hu
    obtain rfl | hle := splitAfter_related hbf.linked (h.sorted t.pml4) hu
    · exact hbf.start.le
    exact hle.trans hbf.start.le

end

lemma dropWhile_start (h : SortedByStart (l.map s.area)) :
    ∀ u ∈ l.dropWhile (fun v => decide ((s.area v).start < start)), start ≤ (s.area u).start := by
  induction l with
  | nil =>
    intro u hu
    cases hu
  | cons x _ ih =>
    obtain ⟨hfst,hrs⟩ := pairwise_cons.mp h
    intro u hu
    by_cases hx : (s.area x).start < start
    · rw [dropWhile_cons,if_pos (decide_eq_true hx)] at hu
      exact ih hrs u hu
    rw [dropWhile_cons,if_neg fun e => hx (of_decide_eq_true e)] at hu
    obtain rfl | hu := mem_cons.mp hu
    · exact le_of_not_gt hx
    exact (le_of_not_gt hx).trans (hfst _ (mem_map_of_mem hu))

lemma splitAfter_insert (below : Nat → Bool) (l : List Nat) (b : Option Nat) (v : Nat) :
    ((splitAfter l b).1 ++ ((splitAfter l b).2.takeWhile below ++
      v :: (splitAfter l b).2.dropWhile below)).Perm (v :: l) := by
  have hap := splitAfter_append l b
  generalize splitAfter l b = r at hap ⊢
  rw [← hap,← append_assoc]
  nth_rewrite 3 [← takeWhile_append_dropWhile (l := r.2)]
  rw [← append_assoc]
  exact perm_middle

lemma Linked.insert (h : Linked spaces s) (hp : t.pml4 ∈ spaces) (hv : ∀ p, v ∉ s.list p) :
    Linked spaces (vmaInsert al t v s) :=
  h.link hp hv (splitAfter_insert _ _ _ _)

lemma VmaInv.insert (h : VmaInv spaces s) (hp : t.pml4 ∈ spaces) (hv : ∀ p, v ∉ s.list p) :
    VmaInv spaces (vmaInsert al t v s) := by
  refine ⟨h.toLinked.insert hp hv,fun p => ?_⟩
  have hbl := h.splitAfter_start t (s.area v).start
  have hap := splitAfter_append (s.list t.pml4) (vmaKnownBefore s t (s.area v).start false)
  have hso := h.sorted t.pml4
  unfold vmaInsert
  dsimp only
  generalize splitAfter (s.list t.pml4) (vmaKnownBefore s t (s.area v).start false) = r
    at hbl hap ⊢
  generalize hkp : r.2.takeWhile (fun u => decide ((s.area u).start < (s.area v).start)) = keep
  generalize hdp : r.2.dropWhile (fun u => decide ((s.area u).start < (s.area v).start)) = drop
  have hsp : keep ++ drop = r.2 := by rw [← hkp,← hdp,takeWhile_append_dropWhile]
  have hall : (r.1 ++ keep) ++ drop = s.list t.pml4 := by rw [append_assoc,hsp,hap]
  rw [idxInsert_frame]
  obtain rfl | hpq := eq_or_ne p t.pml4
  · rw [areas,← hall,map_append] at hso
    obtain ⟨hfro,hba,hcx⟩ := pairwise_append.mp hso
    have hls : areas { s with
        list := update s.list t.pml4 (r.1 ++ (keep ++ v :: drop)) } t.pml4 =
        (r.1 ++ keep).map s.area ++ s.area v :: drop.map s.area := by
      rw [areas]
      dsimp only
      rw [update_self,← append_assoc,map_append,map_cons]
    have hlow : ∀ u ∈ r.1 ++ keep, (s.area u).start ≤ (s.area v).start := by
      intro u hu
      obtain hu | hu := mem_append.mp hu
      · exact hbl u hu
      rw [← hkp] at hu
      have hlt := mem_takeWhile_imp hu
      exact (of_decide_eq_true hlt).le
    have hhg : ∀ u ∈ drop, (s.area v).start ≤ (s.area u).start := by
      have hsorted2 := h.sorted t.pml4
      rw [areas,← hap,map_append] at hsorted2
      rw [← hdp]
      exact dropWhile_start (pairwise_append.mp hsorted2).2.1
    refine hls ▸ pairwise_append.mpr ⟨hfro,pairwise_cons.mpr ⟨fun b hb => ?_, hba⟩,fun a ha b hb => ?_⟩
    · obtain ⟨u,hu,rfl⟩ := mem_map.mp hb
      exact hhg u hu
    obtain rfl | hb := mem_cons.mp hb
    · obtain ⟨u,hu,rfl⟩ := mem_map.mp ha
      exact hlow u hu
    exact hcx a ha b hb
  have hls : areas { s with
      list := update s.list t.pml4 (r.1 ++ (keep ++ v :: drop)) } p = areas s p := by
    rw [areas]
    dsimp only
    rw [update_of_ne hpq]
    rfl
  exact hls ▸ h.sorted p

lemma VmaInv.breakGrow (h : VmaInv spaces s) (hal : al.Ok spaces) (hp : t.pml4 ∈ spaces)
    (low high : Nat) : VmaInv spaces (breakGrow al t low high s) := by
  fun_induction Sched.breakGrow al t low high s with
  | case1 | case4 | case6 => exact h
  | case2 _ _ _ _ _ _ ih => exact ih h
  | case3 _ _ _ _ _ v _ ih => exact ih (h.setStop v _)
  | case5 _ s _ _ _ _ _ hn ih =>
    obtain ⟨m,hm,hfr⟩ := hal s h.used
    cases hm.symm.trans hn
    exact ih ((h.setFresh hfr).insert hp hfr)

lemma listFrom_subset (h : u ∈ listFrom l o) : u ∈ l := by
  cases o with
  | none => cases h
  | some => exact (dropWhile_sublist _).subset h

lemma walkTo_mem (h : walkTo s addr l = some u) : u ∈ l :=
  (takeWhile_sublist _).subset (mem_of_find?_eq_some h)

section

variable (h : Linked spaces s)

include h

lemma Linked.withCaches {u : VmaState} (hls : u.list = s.list)
    (hix : IndexOk s.list u.idx) (hcc : ∀ slot w, CachedOk s.list u.gen (u.cache slot w))
    (hhin : ∀ slot, CachedOk s.list u.gen (u.freeHint slot)) : Linked spaces u := by
  refine ⟨?_,?_,?_,hls ▸ hix,hls ▸ hcc,hls ▸ hhin⟩
  · rw [hls]
    exact h.used
  · rw [hls]
    exact h.nodup
  rw [hls]
  exact h.apart

omit h in
lemma cachedOk_new (s : VmaState) {t : VmaTask} (hv : v ∈ s.list t.pml4) :
    CachedOk s.list s.gen ⟨some v,s.gen (vmaGenOf t.pml4),t.pml4⟩ := by
  refine ⟨le_rfl,fun _ u hu => ?_⟩
  injection hu with hu
  exact hu ▸ hv

lemma Linked.cacheFound (hv : v ∈ s.list t.pml4) :
    Linked spaces (cacheFound t v s) := by
  refine h.withCaches rfl h.index (fun slot w => ?_) h.hinted
  simp only [Sched.cacheFound,update_apply]
  split
  · rw [update_apply]
    split
    · exact cachedOk_new s hv
    exact h.cached t.slot w
  exact h.cached slot w

lemma Linked.lookupIndex
    (hu : (lookupIndex s t addr origin).1 = some u) : u ∈ s.list t.pml4 := by
  unfold Sched.lookupIndex at hu
  split at hu
  · cases hu
  next v hv =>
  have hmem := h.idxBefore hv
  split at hu
  · injection hu with hu
    exact hu ▸ hmem
  split at hu
  · cases hu
  cases hu

lemma Linked.lookup (addr : Nat) : Linked spaces (vmaLookup t addr s).2 := by
  unfold vmaLookup
  dsimp only
  split
  · exact h
  generalize Sched.lookupCache s addr (s.list t.pml4).head? (Sched.cachedAreas s t) = hit
  generalize hix : Sched.lookupIndex s t addr hit.2 = ixv
  generalize hfo : (if (ixv.1 <|> walkTo s addr (listFrom (s.list t.pml4) ixv.2)).isNone = true
    ∧ ixv.2 ≠ (s.list t.pml4).head? then walkTo s addr (s.list t.pml4)
    else (ixv.1 <|> walkTo s addr (listFrom (s.list t.pml4) ixv.2))) = found
  cases found with
  | none => exact h
  | some =>
    refine h.cacheFound ?_
    split at hfo
    · exact walkTo_mem hfo
    cases hfst : ixv.1 with
    | none =>
      rw [hfst] at hfo
      exact listFrom_subset (walkTo_mem hfo)
    | some =>
      rw [hfst] at hfo
      injection hfo with hfo
      exact hfo ▸ h.lookupIndex (hix ▸ hfst)

end

lemma freeWalk_passed {hi candidate' : Nat}
    {m : List Nat} (hl : ∀ u ∈ l, u ∈ m) (hla : ∀ u, last = some u → u ∈ m)
    (h : freeWalk s length hi steps candidate last l = .fits candidate' last') :
    ∀ u, last' = some u → u ∈ m := by
  induction l generalizing steps candidate last with
  | nil =>
    injection h with _ h
    exact h ▸ hla
  | cons x xs ih =>
    have hxs : ∀ u ∈ xs, u ∈ m := fun u hu => hl u (.tail x hu)
    have hx : ∀ u, some x = some u → u ∈ m := fun u hu =>
      some.inj hu ▸ hl x (.head _)
    simp only [freeWalk] at h
    split at h
    · cases h
    split at h
    · exact ih hxs hx h
    split at h
    · injection h with _ h
      exact h ▸ hla
    split at h
    · cases h
    exact ih hxs hx h

section

variable (h : Linked spaces s)

include h

lemma Linked.searchStart (win : SearchWindow) (noHint : Bool) :
    (∀ u ∈ (searchStart win t noHint s).origin, u ∈ s.list t.pml4) ∧
      ∀ u, (searchStart win t noHint s).lastPassed = some u → u ∈ s.list t.pml4 := by
  have hbt : (∀ u ∈ s.list t.pml4, u ∈ s.list t.pml4) ∧
      ∀ u, (none : Option Nat) = some u → u ∈ s.list t.pml4 :=
    ⟨fun _ hu => hu,by rintro _ ⟨⟩⟩
  unfold Sched.searchStart
  split
  · exact hbt
  split
  · next ix hix =>
    split
    · refine ⟨fun u hu => ?_,hbt.2⟩
      cases hb : vmaIdxBefore s t.pml4 ix.freeHint false with
      | none =>
        rw [hb] at hu
        exact hu
      | some b =>
        rw [hb] at hu
        exact listFrom_subset (o := some b) hu
    exact hbt
  split
  · next v hv =>
    split
    · refine ⟨fun u hu => ?_,fun u hu => some.inj hu ▸ h.hintArea hv⟩
      rw [← splitAfter_append (s.list t.pml4) (some v)]
      exact mem_append_right _ hu
    exact hbt
  exact hbt

lemma Linked.searchFrom {win : SearchWindow}
    (hs : searchFrom win t length (Sched.searchStart win t noHint s) s = .at candidate last) :
    ∀ u, last = some u → u ∈ s.list t.pml4 := by
  obtain ⟨hori,hla⟩ := h.searchStart win noHint
  unfold Sched.searchFrom at hs
  split at hs
  · cases hs
  · split at hs
    · cases hs
    cases hs
  next c l hwl =>
  have hps := freeWalk_passed hori hla hwl
  split at hs
  · cases hs
  split at hs
  · split at hs
    · cases hs
    cases hs
  injection hs with _ hs
  exact hs ▸ hps

lemma Linked.forgetHint : Linked spaces (forgetHint t s) := by
  refine h.withCaches rfl h.index h.cached fun slot => ?_
  simp only [Sched.forgetHint,update_apply]
  split
  · exact (h.hinted t.slot).forget
  exact h.hinted slot

lemma Linked.noteIndexHint (candidate : Nat) : Linked spaces (noteIndexHint t candidate s) := by
  unfold Sched.noteIndexHint
  split
  · exact h
  next ix hix =>
  obtain ⟨h0,hsl,hnd,hmem⟩ := h.index _ ix (idxOf_spec hix).1
  refine h.withCaches rfl ?_ h.cached h.hinted
  have hpub := h.index.publish { ix with freeHint := candidate } h0 hnd hmem
  rw [← hsl]
  exact hpub

end

lemma noteIndexHint_frame (t : VmaTask) (candidate : Nat) (s : VmaState) :
    noteIndexHint t candidate s = { s with idx := (noteIndexHint t candidate s).idx } := by
  unfold Sched.noteIndexHint
  split <;> rfl

lemma Linked.noteHint (h : Linked spaces s) (candidate : Nat)
    (hla : ∀ u, last = some u → u ∈ s.list t.pml4) : Linked spaces (noteHint t candidate last s) := by
  unfold Sched.noteHint
  split
  · exact h
  have hno := h.noteIndexHint (t := t) candidate
  dsimp only
  split
  · exact hno
  next v =>
  split
  · refine hno.withCaches rfl hno.index hno.cached fun slot => ?_
    simp only [update_apply]
    split
    · refine cachedOk_new _ ?_
      rw [noteIndexHint_frame]
      exact hla v rfl
    exact hno.hinted slot
  exact hno

lemma Linked.findFree (h : Linked spaces s) (win : SearchWindow) (length : Nat) :
    Linked spaces (vmFindFreeArea win t length s).2 := by
  unfold vmFindFreeArea
  split
  · exact h
  · next candidate last hsea => exact h.noteHint candidate (h.searchFrom hsea)
  have hfg := h.forgetHint (t := t)
  dsimp only
  split
  · next candidate last hsea => exact hfg.noteHint candidate (hfg.searchFrom hsea)
  exact hfg

lemma cacheFound_frame (t : VmaTask) (s : VmaState) (found : Option Nat) :
    (found.elim s fun v => cacheFound t v s) = { s with
      cacheNext := (found.elim s fun v => cacheFound t v s).cacheNext
      cache := (found.elim s fun v => cacheFound t v s).cache } := by
  cases found <;> rfl

lemma vmaLookup_frame (t : VmaTask) (addr : Nat) (s : VmaState) :
    (vmaLookup t addr s).2 = { s with
      cacheNext := (vmaLookup t addr s).2.cacheNext, cache := (vmaLookup t addr s).2.cache } := by
  unfold vmaLookup
  dsimp only
  split
  · rfl
  exact cacheFound_frame t s _

lemma noteHint_frame (t : VmaTask) (candidate : Nat) (last : Option Nat) (s : VmaState) :
    noteHint t candidate last s = { s with
      idx := (noteHint t candidate last s).idx
      freeHint := (noteHint t candidate last s).freeHint } := by
  unfold Sched.noteHint
  split
  · rfl
  rw [noteIndexHint_frame]
  dsimp only
  split
  · rfl
  split <;> rfl

lemma vmFindFreeArea_frame (win : SearchWindow) (t : VmaTask) (length : Nat) (s : VmaState) :
    (vmFindFreeArea win t length s).2 = { s with
      idx := (vmFindFreeArea win t length s).2.idx
      freeHint := (vmFindFreeArea win t length s).2.freeHint } := by
  unfold vmFindFreeArea
  split
  · rfl
  · exact noteHint_frame t _ _ s
  dsimp only
  split
  · rw [noteHint_frame]
    rfl
  rfl

lemma VmaInv.lookup (h : VmaInv spaces s) (addr : Nat) : VmaInv spaces (vmaLookup t addr s).2 := by
  refine ⟨h.toLinked.lookup addr,fun p => ?_⟩
  rw [vmaLookup_frame]
  exact h.sorted p

lemma VmaInv.findFree (h : VmaInv spaces s) (win : SearchWindow) (length : Nat) :
    VmaInv spaces (vmFindFreeArea win t length s).2 := by
  refine ⟨h.toLinked.findFree win length,fun p => ?_⟩
  rw [vmFindFreeArea_frame]
  exact h.sorted p

def VmaEvent.Clean (t : VmaTask) (s : VmaState) : VmaEvent → Prop
  | .split _ addr => CutOk addr (areas s t.pml4)
  | .delete start stop => CutOk start (areas s t.pml4) ∧ CutOk stop (areas s t.pml4)
  | .brk addr => addr < s.userBrk t.pml4 →
      CutOk (pageUp addr) (areas s t.pml4) ∧ CutOk (pageUp (s.userBrk t.pml4)) (areas s t.pml4)
  | _ => True

def CleanRun (spaces : List Nat) : VmaState → Prop :=
  Reach VmaState.Initial
    (guarded (fun s (c : VmaCall) => c.event.Clean c.task s) (VmaCall.Made spaces))

lemma VmaInv.setBrk (h : VmaInv spaces s) (userBrk : Nat → Nat) :
    VmaInv spaces { s with userBrk } :=
  ⟨{ h with },h.sorted⟩

lemma VmaInv.brk {addr : Nat} (h : VmaInv spaces s) (hal : al.Ok spaces) (hp : t.pml4 ∈ spaces)
    (hcl : (VmaEvent.brk addr).Clean t s) : VmaInv spaces (sysBrk al t addr s) := by
  unfold sysBrk
  split
  · exact h
  dsimp only
  split_ifs with _ hshk
  · exact (h.setBrk _).breakGrow hal hp ..
  · obtain ⟨hsta,hstop⟩ := hcl hshk.1
    exact (h.setBrk _).deleteRange hal hp hshk.2.le hsta hstop
  exact h.setBrk _

lemma VmaInv.step (h : VmaInv spaces s) (hcl : c.event.Clean c.task s)
    (hmd : c.Made spaces s s') : VmaInv spaces s' := by
  obtain ⟨hp,hal,hcld,rfl⟩ := hmd
  obtain ⟨t,al,e⟩ := c
  cases e with
  | insert => exact (h.setFresh hcld).insert hp hcld
  | split => exact h.split hal hp hcld.1 hcld.2.1 hcld.2.2 hcl
  | delete => exact h.deleteRange hal hp hcld hcl.1 hcl.2
  | brk => exact h.brk hal hp hcl
  | lookup addr => exact h.lookup addr
  | findFree win length => exact h.findFree win length

lemma VmaState.Initial.inv (h : s.Initial) : VmaInv spaces s := by
  refine ⟨⟨fun p _ => h.list p,fun p => ?_,fun p q v hv => ?_,fun slot ix hix => ?_,
    fun slot w => ⟨?_,fun _ v hv => ?_⟩,fun slot => ⟨?_,fun _ v hv => ?_⟩⟩,fun p => ?_⟩
  · rw [h.list]
    exact nodup_nil
  · rw [h.list] at hv
    cases hv
  · rw [h.idx] at hix
    cases hix
  · rw [(h.cache slot w).2]
    exact zero_le
  · rw [(h.cache slot w).1] at hv
    cases hv
  · rw [(h.freeHint slot).2]
    exact zero_le
  · rw [(h.freeHint slot).1] at hv
    cases hv
  · rw [areas,h.list]
    exact List.Pairwise.nil

lemma CleanRun.inv (h : CleanRun spaces s) : VmaInv spaces s :=
  Reach.invariant (fun _ hs => hs.inv) (fun _ _ _ hs hstep => hs.step hstep.1 hstep.2) h

structure DeletedExactly (s s' : VmaState) (p start stop : Nat) : Prop where
  coverage : ∀ a m, Coverage (areas s' p) a m ↔
    Coverage (areas s p) a m ∧ ¬(start ≤ a ∧ a < stop)
  sorted : SortedByStart (areas s' p)
  others : ∀ q, q ≠ p → areas s' q = areas s q

theorem delete_range_exact {start stop : Nat} (h : CleanRun spaces s) (hal : al.Ok spaces)
    (hp : t.pml4 ∈ spaces) (hle : start ≤ stop)
    (hclean : (VmaEvent.delete start stop).Clean t s) :
    DeletedExactly s (vmaDeleteRange al t start stop s) t.pml4 start stop := by
  obtain ⟨-,hhr,hots⟩ := h.inv.delete hal hp hle hclean.1 hclean.2
  refine ⟨fun a m => ?_,?_,hots⟩
  · rw [hhr]
    exact coverage_flatMap _ a m
  rw [hhr]
  exact sorted_flatMap hle (h.inv.sorted _) hclean.2

def bumpAlloc (spaces : List Nat) : VmaAlloc where
  area s := some ((spaces.flatMap s.list).sum + 1)
  index _ := true

lemma bumpAlloc_ok (spaces : List Nat) : (bumpAlloc spaces).Ok spaces := by
  refine fun s hs => ⟨_,rfl,fun p hmem => ?_⟩
  by_cases hp : p ∈ spaces
  · have hle := le_sum_of_mem (mem_flatMap.mpr ⟨p,hp,hmem⟩)
    omega
  rw [hs p hp] at hmem
  cases hmem

def noMappings : VmaState where
  area _ := ⟨0,0,0,0,none,0⟩
  list _ := []
  idx _ := none
  gen _ := 0
  cache _ _ := ⟨none,0,0⟩
  cacheNext _ := 0
  freeHint _ := ⟨none,0,0⟩
  heapStart _ := 0
  userBrk _ := 0

lemma noMappings_initial : noMappings.Initial :=
  ⟨fun _ => rfl,fun _ => rfl,fun _ _ => ⟨rfl,rfl⟩,fun _ => ⟨rfl,rfl⟩⟩

def mainThread : VmaTask := ⟨0,0x1000⟩

def heapAt (start stop : Nat) : VmArea := ⟨start,stop,0x3,0x22,none,0⟩

def kernelAlloc : VmaAlloc := bumpAlloc [0x1000]

def mapAt (v : Nat) (area : VmArea) (s : VmaState) : VmaState :=
  vmaStep kernelAlloc mainThread s (.insert v area)

lemma mapAt_made {v : Nat} (hv : ∀ p, v ∉ s.list p) :
    (VmaCall.mk mainThread kernelAlloc (.insert v area)).Made [0x1000] s (mapAt v area s) :=
  ⟨mem_singleton.mpr rfl,bumpAlloc_ok _,hv,rfl⟩

lemma mapAt_fresh {v u : Nat} (hu : ∀ p, u ∉ s.list p)
    (hhr : u ∉ (mapAt v area s).list 0x1000) : ∀ p, u ∉ (mapAt v area s).list p := by
  intro p
  by_cases hp : p = 0x1000
  · rw [hp]
    exact hhr
  have hls : (mapAt v area s).list p = s.list p := by
    simp only [mapAt,vmaStep,vmaInsert]
    rw [idxInsert_frame]
    exact Function.update_of_ne hp ..
  rw [hls]
  exact hu p

def twoMappings : VmaState :=
  mapAt 2 (heapAt 0x14000 0x15000) (mapAt 1 (heapAt 0x10000 0x13000) noMappings)

theorem delete_range_exact_hole : SortedByStart (areas twoMappings 0x1000) ∧
    DeletedExactly twoMappings (vmaDeleteRange kernelAlloc mainThread 0x11000 0x12000 twoMappings)
      0x1000 0x11000 0x12000 := by
  have hem : ∀ v p, v ∉ noMappings.list p := nofun
  have hfr : ∀ p, 2 ∉ (mapAt 1 (heapAt 0x10000 0x13000) noMappings).list p :=
    mapAt_fresh (hem 2) (by decide +kernel)
  have hone : CleanRun [0x1000] (mapAt 1 (heapAt 0x10000 0x13000) noMappings) :=
    Reach.next (e := ⟨mainThread,kernelAlloc,.insert 1 _⟩) (.start noMappings_initial)
      ⟨trivial,mapAt_made (hem 1)⟩
  have hrun : CleanRun [0x1000] twoMappings :=
    Reach.next (e := ⟨mainThread,kernelAlloc,.insert 2 _⟩) hone ⟨trivial,mapAt_made hfr⟩
  have hcut : CutOk 0x11000 (areas twoMappings 0x1000) ∧
      CutOk 0x12000 (areas twoMappings 0x1000) := by decide +kernel
  exact ⟨by decide +kernel,delete_range_exact hrun (bumpAlloc_ok _)
    (mem_singleton.mpr rfl) (by decide) hcut⟩

def sharedStart : VmaState :=
  mapAt 2 (heapAt 0x10000 0x13000) (mapAt 1 (heapAt 0x10000 0x10000) noMappings)

theorem shared_start_survives_delete :
    Reach VmaState.Initial (VmaCall.Made [0x1000]) sharedStart ∧
      Coverage (areas (vmaDeleteRange kernelAlloc mainThread 0x11000 0x12000 sharedStart) 0x1000)
        0x11000 ⟨0x3, 0x22, none, 0x1000⟩ ∧
      ¬SortedByStart (areas (vmaDeleteRange kernelAlloc mainThread 0x10000 0x11000 sharedStart)
        0x1000) := by
  have hem : ∀ v p, v ∉ noMappings.list p := nofun
  have hfr : ∀ p, 2 ∉ (mapAt 1 (heapAt 0x10000 0x10000) noMappings).list p :=
    mapAt_fresh (hem 2) (by decide +kernel)
  refine ⟨?_,⟨heapAt 0x10000 0x13000,?_,by decide,by decide,rfl⟩,by decide +kernel⟩
  · exact Reach.next (Reach.next (.start noMappings_initial) (mapAt_made (hem 1))) (mapAt_made hfr)
  decide +kernel

def StartsOk (area : Nat → VmArea) (idx : Nat → Option VmaIndex) : Prop :=
  ∀ slot ix, idx slot = some ix → ∀ e ∈ ix.e, e.start = (area e.v).start

structure Indexed (spaces : List Nat) (s : VmaState) : Prop extends Linked spaces s where
  starts : StartsOk s.area s.idx

variable {area : Nat → VmArea}

section

variable {idx : Nat → Option VmaIndex} (h : StartsOk area idx) (slot : Nat)

include h

lemma StartsOk.assign {new : Option VmaIndex}
    (hnew : ∀ ix, new = some ix → ∀ e ∈ ix.e, e.start = (area e.v).start) :
    StartsOk area (update idx slot new) := by
  intro slot' ix hix
  rw [update_apply] at hix
  split at hix
  · exact hnew ix hix
  exact h slot' ix hix

lemma StartsOk.clear : StartsOk area (update idx slot none) := h.assign slot nofun

end

lemma orderedEntries_start {e : IdxEntry} (h : e ∈ orderedEntries s prev l) :
    e.start = (s.area e.v).start := by
  induction l generalizing prev with
  | nil => cases h
  | cons _ _ ih =>
    simp only [orderedEntries] at h
    split at h
    · exact ih h
    obtain rfl | h := mem_cons.mp h
    · rfl
    exact ih h

lemma StartsOk.insertLocked (h : StartsOk s.area s.idx) (v : Nat) :
    StartsOk s.area (vmaIdxInsertLocked al t v s).idx := by
  unfold vmaIdxInsertLocked
  split
  · exact h
  split
  · split
    · exact h
    split
    · refine h.assign _ fun ix hix e he => ?_
      cases hix
      exact orderedEntries_start he
    exact h
  next ix hix =>
  split
  · exact h
  split
  · refine h.assign _ fun ix' hix' e he => ?_
    cases hix'
    obtain he | he := mem_append.mp he
    · exact h _ ix hix e (mem_of_mem_take he)
    obtain rfl | he := mem_cons.mp he
    · rfl
    exact h _ ix hix e (mem_of_mem_drop he)
  exact h.clear _

lemma StartsOk.removeLocked (h : StartsOk s.area s.idx) (p v : Nat) :
    StartsOk s.area (vmaIdxRemoveLocked al p v s).idx := by
  unfold vmaIdxRemoveLocked
  split
  · exact h
  next ix hix =>
  split
  · exact h
  split
  · refine h.assign _ fun ix' hix' e he => ?_
    cases hix'
    exact h _ ix (idxOf_spec hix).1 e ((eraseIdx_sublist ..).subset he)
  exact h.clear _

section

variable (h : Indexed spaces s)

include h

lemma Indexed.withArea (hsa : ∀ p, ∀ v ∈ s.list p, (area v).start = (s.area v).start) :
    Indexed spaces { s with area } := by
  refine ⟨{ h with },fun slot ix hix e he => ?_⟩
  exact (h.starts slot ix hix e he).trans
    (hsa _ _ ((h.index slot ix hix).2.2.2 e he)).symm

lemma Indexed.setFresh (hv : ∀ p, v ∉ s.list p) (area : VmArea) : Indexed spaces (setArea v area s) := by
  refine h.withArea fun p u hu => ?_
  rw [update_of_ne]
  rintro rfl
  exact hv p hu

lemma Indexed.setStop (v stop : Nat) :
    Indexed spaces (setArea v { s.area v with stop } s) := by
  refine h.withArea fun p u hu => ?_
  rw [update_apply]
  split
  · next huv => rw [huv]
  rfl

lemma Indexed.setBrk (userBrk : Nat → Nat) :
    Indexed spaces { s with userBrk } :=
  ⟨{ h with },h.starts⟩

lemma Indexed.insert
    (hp : t.pml4 ∈ spaces) (hv : ∀ p, v ∉ s.list p) : Indexed spaces (vmaInsert al t v s) := by
  refine ⟨h.toLinked.insert hp hv,?_⟩
  unfold vmaInsert
  rw [vmaIdxInsertLocked_area]
  refine StartsOk.insertLocked ?_ v
  exact h.starts

lemma Indexed.split (hal : al.Ok spaces) (hp : t.pml4 ∈ spaces) (hv : v ∈ s.list t.pml4) (addr : Nat) :
    Indexed spaces (vmaSplit al t v addr s).2 := by
  obtain ⟨n,hn,hfr⟩ := hal s h.used
  obtain ⟨-,-,hlk,-⟩ := h.toLinked.split hal hp hv addr
  refine ⟨hlk,?_⟩
  simp only [vmaSplit,hn]
  rw [vmaIdxInsertLocked_area]
  refine StartsOk.insertLocked ?_ n
  refine (h.withArea fun p u hu => ?_).starts
  have hne : u ≠ n := by
    rintro rfl
    exact hfr p hu
  rw [update_of_ne hne,update_apply]
  split
  · next huv => rw [huv]
  rfl

lemma Indexed.unlink (hp : t.pml4 ∈ spaces) (v : Nat) : Indexed spaces (vmaUnlink al t v s) := by
  refine ⟨h.toLinked.unlink hp,?_⟩
  rw [vmaUnlink_area]
  exact StartsOk.removeLocked
    (s := { s with list := update s.list t.pml4 ((s.list t.pml4).erase v) })
    h.starts t.pml4 v

lemma Indexed.trimEnd (hal : al.Ok spaces) (hp : t.pml4 ∈ spaces) (hv : v ∈ s.list t.pml4) (stop : Nat) :
    Indexed spaces (trimEnd al t v stop s).2 := by
  unfold Sched.trimEnd
  split
  · exact h.split hal hp hv stop
  exact h

end

lemma Indexed.deleteWalk (hal : al.Ok spaces) (hp : t.pml4 ∈ spaces) (start stop : Nat)
    (rest : List Nat) (s : VmaState) (pre : List Nat) (h : Indexed spaces s)
    (hls : s.list t.pml4 = pre ++ rest) : Indexed spaces (vmaDeleteWalk al t start stop rest s) := by
  fun_induction vmaDeleteWalk al t start stop rest s generalizing pre with
  | case1 | case2 => exact h
  | case3 v _ _ _ _ ih => exact ih (pre ++ [v]) h (by rw [hls,append_cons])
  | case4 v rest s _ _ _ r ih =>
    have hv : v ∈ s.list t.pml4 := hls ▸ mem_append_cons_self
    obtain ⟨n,hn,-,hsp⟩ := h.toLinked.split hal hp hv start
    have hixd := h.split hal hp hv start
    simp only [r,hn,toList_some,singleton_append] at ih ⊢
    exact ih (pre ++ [v]) hixd (by rw [hsp.list pre rest hls,append_cons])
  | case5 v _ s _ _ _ _ ih =>
    have hv : v ∈ s.list t.pml4 := hls ▸ mem_append_cons_self
    have hdp := (h.toLinked.dropped stop hal hp hls).2
    exact ih pre ((h.trimEnd hal hp hv stop).unlink hp v) hdp.list

section

variable (h : Indexed spaces s) (hal : al.Ok spaces) (hp : t.pml4 ∈ spaces)

include h hal hp

lemma Indexed.deleteRange (start stop : Nat) : Indexed spaces (vmaDeleteRange al t start stop s) :=
  Indexed.deleteWalk hal hp start stop _ s _ h (splitAfter_append _ _).symm

lemma Indexed.breakGrow (low high : Nat) : Indexed spaces (breakGrow al t low high s) := by
  fun_induction Sched.breakGrow al t low high s with
  | case1 | case4 | case6 => exact h
  | case2 _ _ _ _ _ _ ih => exact ih h
  | case3 _ _ _ _ _ v _ ih => exact ih (h.setStop v _)
  | case5 _ s _ _ _ _ _ hn ih =>
    obtain ⟨m,hm,hfr⟩ := hal s h.used
    cases hm.symm.trans hn
    exact ih ((h.setFresh hfr _).insert hp hfr)

lemma Indexed.brk (addr : Nat) : Indexed spaces (sysBrk al t addr s) := by
  unfold sysBrk
  split
  · exact h
  dsimp only
  split
  · exact (h.setBrk _).breakGrow hal hp ..
  split
  · exact (h.setBrk _).deleteRange hal hp ..
  exact h.setBrk _

end

lemma StartsOk.noteHint (h : StartsOk s.area s.idx) (candidate : Nat) (last : Option Nat) :
    StartsOk s.area (noteHint t candidate last s).idx := by
  have hno : StartsOk s.area (noteIndexHint t candidate s).idx := by
    unfold noteIndexHint
    split
    · exact h
    next ix hix =>
    refine h.assign _ fun ix' hix' e he => ?_
    cases hix'
    exact h _ ix (idxOf_spec hix).1 e he
  unfold Sched.noteHint
  split
  · exact h
  dsimp only
  split
  · exact hno
  split
  · exact hno
  exact hno

lemma Indexed.findFree (h : Indexed spaces s) (win : SearchWindow) (length : Nat) :
    Indexed spaces (vmFindFreeArea win t length s).2 := by
  refine ⟨h.toLinked.findFree win length,?_⟩
  rw [vmFindFreeArea_frame]
  unfold vmFindFreeArea
  split
  · exact h.starts
  · exact h.starts.noteHint _ _
  dsimp only
  split
  · exact StartsOk.noteHint (s := forgetHint t s) h.starts _ _
  exact h.starts

lemma Indexed.lookup (h : Indexed spaces s) (addr : Nat) : Indexed spaces (vmaLookup t addr s).2 := by
  refine ⟨h.toLinked.lookup addr,?_⟩
  rw [vmaLookup_frame]
  exact h.starts

lemma Indexed.step (h : Indexed spaces s) (hmd : c.Made spaces s s') :
    Indexed spaces s' := by
  obtain ⟨hp,hal,hcld,rfl⟩ := hmd
  obtain ⟨t,al,e⟩ := c
  cases e with
  | insert v area => exact (h.setFresh hcld area).insert hp hcld
  | split v addr => exact h.split hal hp hcld.1 addr
  | delete start stop => exact h.deleteRange hal hp start stop
  | brk addr => exact h.brk hal hp addr
  | lookup addr => exact h.lookup addr
  | findFree win length => exact h.findFree win length

lemma indexed_of_reach (h : Reach VmaState.Initial (VmaCall.Made spaces) s) : Indexed spaces s := by
  refine Reach.invariant (fun u hu => ?_) (fun _ _ _ hs => hs.step) h
  refine ⟨hu.inv.toLinked,fun slot ix hix => ?_⟩
  rw [hu.idx] at hix
  cases hix

def VmArea.Contains (v : VmArea) (addr : Nat) : Prop := v.start ≤ addr ∧ addr < v.stop

instance (v : VmArea) (addr : Nat) : Decidable (v.Contains addr) :=
  inferInstanceAs (Decidable (_ ∧ _))

lemma lookupCache_found (h : (lookupCache s addr origin l).1 = some v) :
    v ∈ l ∧ (s.area v).Contains addr := by
  induction l generalizing origin with
  | nil => cases h
  | cons x _ ih =>
    simp only [lookupCache] at h
    split at h
    · exact ⟨.tail x (ih h).1,(ih h).2⟩
    next hsta =>
    split at h
    · next hstop =>
      cases h
      exact ⟨.head _,le_of_not_gt hsta,hstop⟩
    split at h
    · exact ⟨.tail x (ih h).1,(ih h).2⟩
    exact ⟨.tail x (ih h).1,(ih h).2⟩

lemma walkTo_contains (h : walkTo s addr l = some v) : (s.area v).Contains addr := by
  have hsta := mem_takeWhile_imp (mem_of_find?_eq_some h)
  have hstop := find?_some h
  exact ⟨of_decide_eq_true hsta,of_decide_eq_true hstop⟩

lemma walkTo_none (hso : SortedByStart (l.map s.area)) (h : walkTo s addr l = none) :
    ∀ v ∈ l, ¬(s.area v).Contains addr := by
  induction l with
  | nil =>
    intro v hv
    cases hv
  | cons x _ ih =>
    obtain ⟨hfst,hrs⟩ := pairwise_cons.mp hso
    intro v hv hin
    by_cases hx : (s.area x).start ≤ addr
    · rw [walkTo,takeWhile_cons,if_pos (decide_eq_true hx),find?_cons] at h
      cases hend : decide (addr < (s.area x).stop) with
      | true =>
        rw [hend] at h
        cases h
      | false =>
        rw [hend] at h
        obtain rfl | hv := mem_cons.mp hv
        · exact of_decide_eq_false hend hin.2
        exact ih hrs h v hv hin
    obtain rfl | hv := mem_cons.mp hv
    · exact hx hin.1
    exact hx ((hfst _ (mem_map_of_mem hv)).trans hin.1)

lemma vmaIdxUpper_start {e : List IdxEntry} {lo hi : Nat}
    (hlo : 0 < lo → (e.getD (lo - 1) ⟨0,0⟩).start ≤ addr) (hpos : 0 < vmaIdxUpper e addr lo hi) :
    (e.getD (vmaIdxUpper e addr lo hi - 1) ⟨0,0⟩).start ≤ addr := by
  fun_induction vmaIdxUpper e addr lo hi with
  | case1 _ _ _ _ hmid ih => exact ih (fun _ => hmid) hpos
  | case2 _ _ _ _ _ ih => exact ih hlo hpos
  | case3 => exact hlo hpos

lemma Indexed.idxBefore_start {p : Nat} (h : Indexed spaces s)
    (hv : vmaIdxBefore s p addr false = some v) : (s.area v).start ≤ addr := by
  unfold vmaIdxBefore at hv
  split at hv
  · cases hv
  next ix hix =>
  have hle := vmaIdxUpper_le ix.e addr (zero_le ix.e.length)
  have hsta : 0 < vmaIdxUpper ix.e addr 0 ix.e.length → _ :=
    vmaIdxUpper_start fun h0 => absurd h0 (lt_irrefl 0)
  generalize vmaIdxUpper ix.e addr 0 ix.e.length = up at hv hle hsta
  cases up with
  | zero => cases hv
  | succ up =>
    injection hv with hv
    have het := hsta (succ_pos up)
    rw [Nat.add_sub_cancel,getD_eq_getElem _ _ hle] at het
    rw [getD_eq_getElem _ _ hle] at hv
    rw [← hv,← h.starts _ ix (idxOf_spec hix).1 _ (getElem_mem hle)]
    exact het

lemma Indexed.lookupIndex_contains (h : Indexed spaces s)
    (hv : (lookupIndex s t addr origin).1 = some v) : (s.area v).Contains addr := by
  unfold Sched.lookupIndex at hv
  split at hv
  · cases hv
  next u hu =>
  split at hv
  · next hstop =>
    cases hv
    exact ⟨h.idxBefore_start hu,hstop⟩
  split at hv
  · cases hv
  cases hv

lemma listFrom_head (l : List Nat) : listFrom l l.head? = l := by
  cases l with
  | nil => rfl
  | cons =>
    rw [head?_cons,listFrom,dropWhile_cons]
    exact if_neg (by simp)

lemma Indexed.lookup_found (h : Indexed spaces s) (hv : (vmaLookup t addr s).1 = some v) :
    v ∈ s.list t.pml4 ∧ (s.area v).Contains addr := by
  unfold vmaLookup at hv
  dsimp only at hv
  split at hv
  · obtain ⟨hmem,hin⟩ := lookupCache_found hv
    exact ⟨h.cachedAreas hmem,hin⟩
  generalize lookupCache s addr (s.list t.pml4).head? (cachedAreas s t) = hit at hv
  split at hv
  · exact ⟨walkTo_mem hv,walkTo_contains hv⟩
  cases hix : (lookupIndex s t addr hit.2).1 with
  | none =>
    rw [hix] at hv
    exact ⟨listFrom_subset (walkTo_mem hv),walkTo_contains hv⟩
  | some =>
    rw [hix] at hv
    cases hv
    exact ⟨h.lookupIndex hix,h.lookupIndex_contains hix⟩

lemma lookup_none (hso : SortedByStart (areas s t.pml4)) (hnone : (vmaLookup t addr s).1 = none) :
    ∀ v ∈ s.list t.pml4, ¬(s.area v).Contains addr := by
  unfold vmaLookup at hnone
  dsimp only at hnone
  split at hnone
  · next hhit =>
    rw [hnone] at hhit
    cases hhit
  generalize lookupCache s addr (s.list t.pml4).head? (cachedAreas s t) = hit at hnone
  generalize lookupIndex s t addr hit.2 = ixv at hnone
  obtain ⟨found,origin⟩ := ixv
  split_ifs at hnone with hms
  · exact walkTo_none hso hnone
  cases found with
  | some => cases hnone
  | none =>
    have hori : origin = (s.list t.pml4).head? := by
      by_contra hne
      exact hms ⟨isNone_iff_eq_none.mpr hnone,hne⟩
    rw [hori,listFrom_head] at hnone
    exact walkTo_none hso hnone

structure LooksUp (s : VmaState) (t : VmaTask) (addr : Nat) (found : Option Nat) : Prop where
  linked : ∀ v, found = some v → v ∈ s.list t.pml4 ∧ (s.area v).Contains addr
  complete : found = none → ∀ v ∈ s.list t.pml4, ¬(s.area v).Contains addr

lemma fresh_of_reach {p : Nat} (h : Reach VmaState.Initial (VmaCall.Made [p]) s)
    (hv : v ∉ s.list p) : ∀ q, v ∉ s.list q := by
  intro q hq
  by_cases hpq : q = p
  · exact hv (hpq ▸ hq)
  rw [(indexed_of_reach h).used q fun hmem => hpq (mem_singleton.mp hmem)] at hq
  cases hq

def oneMapping : VmaState := mapAt 1 (heapAt 0x10000 0x13000) noMappings

lemma oneMapping_clean : CleanRun [0x1000] oneMapping :=
  Reach.next (e := ⟨mainThread,kernelAlloc,.insert 1 _⟩) (.start noMappings_initial)
    ⟨trivial,mapAt_made nofun⟩

def breakAt : VmaState :=
  { noMappings with heapStart := fun _ => heapStart, userBrk := fun _ => heapStart }

lemma breakAt_initial (heapStart : Nat) : (breakAt heapStart).Initial :=
  ⟨fun _ => rfl,fun _ => rfl,fun _ _ => ⟨rfl,rfl⟩,fun _ => ⟨rfl,rfl⟩⟩

def noIndexAlloc : VmaAlloc := { kernelAlloc with index := fun _ => false }

def mainCall (al : VmaAlloc) (e : VmaEvent) : VmaCall := ⟨mainThread,al,e⟩

lemma mainCall_made {e : VmaEvent} (index : VmaState → Bool) (he : e.Called mainThread s) :
    (mainCall { kernelAlloc with index } e).Made [0x1000] s
      (vmaStep { kernelAlloc with index } mainThread s e) :=
  ⟨mem_singleton.mpr rfl,bumpAlloc_ok [0x1000],he,rfl⟩

def heapBehindMapping : VmaState :=
  [VmaEvent.insert 1 (heapAt 0x10000 0x10000),.insert 2 (heapAt 0x10000 0x13000),
    .delete 0x10000 0x11000,.brk 0x11000].foldl (vmaStep noIndexAlloc mainThread)
    (breakAt 0x10000)

inductive Arch where
  | x86
  | x8664
  | aarch64
deriving DecidableEq, Repr

def userWindow : Arch → SearchWindow
  | .x86 => ⟨0x40000000,0x80000000⟩
  | .x8664 => ⟨0x100000000,0x7FFFFFFFFFFF⟩
  | .aarch64 => ⟨0x10000000000,0x7FFFFFFFFFFF⟩

@[mk_iff]
structure InOrder (l : List VmArea) : Prop where
  proper : ∀ v ∈ l, v.start ≤ v.stop
  apart : l.Pairwise fun v b => v.stop ≤ b.start

instance (l : List VmArea) : Decidable (InOrder l) :=
  decidable_of_iff _ (inOrder_iff l).symm

variable {length hi : Nat}

lemma InOrder.tail {v : VmArea} {l : List VmArea} (h : InOrder (v :: l)) : InOrder l :=
  ⟨fun b hb => h.proper b (.tail v hb),(pairwise_cons.mp h.apart).2⟩

lemma InOrder.start_le {v : VmArea} {l : List VmArea} (h : InOrder (v :: l))
    (hb : b ∈ v :: l) : v.start ≤ b.start := by
  obtain rfl | hb := mem_cons.mp hb
  · exact le_rfl
  exact (h.proper v (.head _)).trans ((pairwise_cons.mp h.apart).1 b hb)

def Clear (s : VmaState) (length candidate : Nat) (l : List Nat) : Prop :=
  ∀ v ∈ l, (s.area v).stop ≤ candidate ∨ u64 (candidate + length) ≤ (s.area v).start

variable {candidate x candidate' : Nat} {win : SearchWindow}

lemma Clear.past (h : Clear s length candidate l) (hx : (s.area x).stop ≤ candidate) :
    Clear s length candidate (x :: l) := by
  intro v hv
  obtain rfl | hv := mem_cons.mp hv
  · exact .inl hx
  exact h v hv

lemma aboveBreak_clear (hl : InOrder (l.map s.area))
    (h : aboveBreak s length hi candidate l = some candidate') :
    candidate ≤ candidate' ∧ Clear s length candidate' l := by
  induction l generalizing candidate with
  | nil =>
    injection h with h
    exact ⟨h.le,nofun⟩
  | cons _ _ ih =>
    simp only [aboveBreak] at h
    split at h
    · next hbl =>
      obtain ⟨hle,hclr⟩ := ih hl.tail h
      exact ⟨hle,hclr.past (hbl.trans hle)⟩
    split at h
    · next hgap =>
      cases h
      exact ⟨le_rfl,fun _ hv => .inr (hgap.trans (hl.start_le (mem_map_of_mem hv)))⟩
    split at h
    · cases h
    obtain ⟨hle,hclr⟩ := ih hl.tail h
    exact ⟨by omega,hclr.past hle⟩

lemma aboveBreak_of_freeWalk
    (h : freeWalk s length hi steps candidate last l = .fits candidate' last') :
    aboveBreak s length hi candidate l = some candidate' := by
  induction l generalizing steps candidate last with
  | nil =>
    injection h with h
    exact congrArg some h
  | cons _ _ ih =>
    simp only [freeWalk] at h
    rw [aboveBreak]
    split at h
    · cases h
    split at h
    · next hbl => rw [if_pos hbl,ih h]
    next habove =>
    rw [if_neg habove]
    split at h
    · next hgap =>
      cases h
      exact if_pos hgap
    next hgap =>
    rw [if_neg hgap]
    split at h
    · cases h
    next hro => rw [if_neg hro,ih h]

structure Resumes (s : VmaState) (t : VmaTask) (win : SearchWindow) (r : SearchStart) : Prop where
  low : win.lo ≤ r.candidate
  skipped : ∃ pre, s.list t.pml4 = pre ++ r.origin ∧ ∀ v ∈ pre, (s.area v).stop ≤ r.candidate

lemma InOrder.before {pre rest : List Nat} {b : Nat} (h : InOrder ((pre ++ b :: rest).map s.area)) :
    ∀ v ∈ pre, (s.area v).stop ≤ (s.area b).start := by
  intro v hv
  have hapt := h.apart
  rw [map_append] at hapt
  exact (pairwise_append.mp hapt).2.2 _ (mem_map_of_mem hv) _ (.head _)

lemma listFrom_some {b : Nat} (hb : b ∈ l) :
    ∃ pre rest, l = pre ++ b :: rest ∧ listFrom l (some b) = b :: rest := by
  induction l with
  | nil => cases hb
  | cons x xs ih =>
    obtain rfl | hx := eq_or_ne x b
    · exact ⟨[],xs,rfl,listFrom_head (x :: xs)⟩
    obtain ⟨pre,rest,hxs,hfm⟩ := ih ((mem_cons.mp hb).resolve_left fun e => hx e.symm)
    refine ⟨x :: pre,rest,congrArg (x :: ·) hxs,?_⟩
    rw [listFrom,dropWhile_cons,if_pos (decide_eq_true hx)]
    exact hfm

lemma Indexed.resumes (h : Indexed spaces s) (hord : InOrder (areas s t.pml4))
    (win : SearchWindow) (noHint : Bool) : Resumes s t win (searchStart win t noHint s) := by
  have hbt : Resumes s t win ⟨false,win.lo,s.list t.pml4,none⟩ := ⟨le_rfl,[],rfl,nofun⟩
  unfold searchStart
  split
  · exact hbt
  split
  · next ix hix =>
    split_ifs with hlo
    · refine ⟨hlo.le,?_⟩
      cases hb : vmaIdxBefore s t.pml4 ix.freeHint false with
      | none => exact ⟨[],rfl,nofun⟩
      | some =>
        obtain ⟨pre,rest,hls,hfm⟩ := listFrom_some (h.idxBefore hb)
        rw [areas,hls] at hord
        refine ⟨pre,hls.trans (congrArg (pre ++ ·) hfm.symm),fun v hv => ?_⟩
        exact (hord.before v hv).trans (h.idxBefore_start hb)
    exact hbt
  split
  · next b hb =>
    split_ifs with hlo
    · have hmem := h.hintArea hb
      have hap := splitAfter_append (s.list t.pml4) (some b)
      have hpro := hord.proper _ (mem_map_of_mem hmem)
      rw [areas,← hap,splitAfter_some hmem,append_assoc] at hord
      refine ⟨hlo,_,hap.symm,fun v hv => ?_⟩
      rw [splitAfter_some hmem] at hv
      obtain hv | hv := mem_append.mp hv
      · exact (hord.before v hv).trans hpro
      rw [mem_singleton.mp hv]
    exact hbt
  exact hbt

def breakGuard (brkEnd : Nat) : Nat :=
  u64 (brkEnd + if brkEnd - heapStart < pageSize then pageSize else brkEnd - heapStart)

lemma breakGuard_ge {heapStart brkEnd : Nat} (h : brkEnd < 2 ^ 47) :
    brkEnd ≤ pageUp (breakGuard heapStart brkEnd) := by
  have hgd : brkEnd ≤ breakGuard heapStart brkEnd ∧
      breakGuard heapStart brkEnd + 4095 < 2 ^ 64 := by
    unfold breakGuard u64 pageSize
    split <;> omega
  refine hgd.1.trans ?_
  unfold pageUp u64 pageSize
  omega

lemma userBrk_guarded (h : userBrk < 2 ^ 47) :
    userBrk ≤ pageUp (breakGuard heapStart (if heapStart < userBrk then userBrk else heapStart)) ∨
      2 ^ 47 ≤ heapStart := by
  by_cases hhg : 2 ^ 47 ≤ heapStart
  · exact .inr hhg
  refine .inl ?_
  split_ifs with hle
  · exact breakGuard_ge h
  exact (le_of_not_gt hle).trans (breakGuard_ge (lt_of_not_ge hhg))

structure Placed (s : VmaState) (t : VmaTask) (length candidate candidate' : Nat) : Prop where
  le : candidate ≤ candidate'
  mappings : candidate' = candidate ∨ Clear s length candidate' (s.list t.pml4)
  heap : s.heapStart t.pml4 = 0 ∨ u64 (candidate' + length) ≤ s.heapStart t.pml4 ∨
    s.userBrk t.pml4 ≤ candidate' ∨ 2 ^ 47 ≤ s.heapStart t.pml4

lemma pastBreak_placed (hord : InOrder (areas s t.pml4)) (hbrk : s.userBrk t.pml4 < 2 ^ 47)
    (h : pastBreak s t length hi candidate = some candidate') : Placed s t length candidate candidate' := by
  unfold pastBreak at h
  dsimp only at h
  have hgd := userBrk_guarded (s.heapStart t.pml4) hbrk
  split at h
  · generalize (if s.heapStart t.pml4 < s.userBrk t.pml4 then s.userBrk t.pml4
      else s.heapStart t.pml4) = brkEnd at h hgd
    change (if breakGuard (s.heapStart t.pml4) brkEnd < brkEnd then none
      else if candidate < pageUp (breakGuard (s.heapStart t.pml4) brkEnd) then
        aboveBreak s length hi (pageUp (breakGuard (s.heapStart t.pml4) brkEnd)) (s.list t.pml4)
      else some candidate) = some candidate' at h
    split at h
    · cases h
    split_ifs at h with hlow
    · obtain ⟨hge,hclr⟩ := aboveBreak_clear hord h
      refine ⟨(hlow.le).trans hge,.inr hclr,.inr (.inr ?_)⟩
      exact hgd.imp (fun hle => hle.trans hge) id
    cases h
    refine ⟨le_rfl,.inl rfl,.inr (.inr ?_)⟩
    exact hgd.imp (fun hle => hle.trans (le_of_not_gt hlow)) id
  next hheap =>
  cases h
  exact ⟨le_rfl,.inl rfl,by omega⟩

structure FreeRange (s : VmaState) (t : VmaTask) (win : SearchWindow) (length a : Nat) :
    Prop where
  low : win.lo ≤ a
  high : a + length ≤ win.hi
  wraps : a + length < 2 ^ 64
  mappings : ∀ v ∈ s.list t.pml4, ∀ x, a ≤ x → x < a + length → ¬(s.area v).Contains x
  heap : ∀ x, a ≤ x → x < a + length → ¬(s.heapStart t.pml4 ≤ x ∧ x < s.userBrk t.pml4)

structure BreakInWindow (s : VmaState) (t : VmaTask) (win : SearchWindow) : Prop where
  high : s.userBrk t.pml4 ≤ win.hi
  none : s.heapStart t.pml4 = 0 → s.userBrk t.pml4 ≤ win.lo

lemma Clear.freeRange {a : Nat} (hclr : Clear s length a (s.list t.pml4)) (hlo : win.lo ≤ a)
    (hhi : u64 (a + length) ≤ win.hi) (hwrap : a ≤ u64 (a + length)) (hlen : length < 2 ^ 64)
    (hwin : win.hi < 2 ^ 47) (hbrk : BreakInWindow s t win)
    (hheap : s.heapStart t.pml4 = 0 ∨ u64 (a + length) ≤ s.heapStart t.pml4 ∨
      s.userBrk t.pml4 ≤ a ∨ 2 ^ 47 ≤ s.heapStart t.pml4) : FreeRange s t win length a := by
  have hex : u64 (a + length) = a + length := by
    unfold u64 at hwrap hhi ⊢
    omega
  rw [hex] at hhi hheap
  refine ⟨hlo,hhi,by omega,fun v hv x hax hx hin => ?_,fun x hax hx hin => ?_⟩
  · have hout := hclr v hv
    unfold VmArea.Contains at hin
    omega
  have hnone := hbrk.none
  omega

lemma Indexed.searchFrom_free {a : Nat} (h : Indexed spaces s)
    (hord : InOrder (areas s t.pml4)) (hlen : length < 2 ^ 64) (hwin : win.hi < 2 ^ 47)
    (hbrk : BreakInWindow s t win)
    (hs : searchFrom win t length (searchStart win t noHint s) s = .at a last) :
    FreeRange s t win length a := by
  obtain ⟨hlow,pre,hls,hpre⟩ := h.resumes hord win noHint
  generalize searchStart win t noHint s = r at hs hlow hls hpre
  unfold searchFrom at hs
  split at hs
  · cases hs
  · split at hs
    · cases hs
    cases hs
  next candidate last' hwl =>
  have hsf : InOrder (r.origin.map s.area) := by
    rw [areas,hls,map_append] at hord
    exact ⟨fun b hb => hord.proper b (mem_append_right _ hb),(pairwise_append.mp hord.apart).2.1⟩
  obtain ⟨hle,hclr⟩ := aboveBreak_clear hsf (aboveBreak_of_freeWalk hwl)
  split at hs
  · cases hs
  next candidate' hpast =>
  obtain ⟨hle',hmps,hheap⟩ := pastBreak_placed hord (hbrk.high.trans_lt hwin) hpast
  split at hs
  · split at hs
    · cases hs
    cases hs
  next hft =>
  cases hs
  obtain ⟨hhi,hwrap⟩ := not_or.mp hft
  refine Clear.freeRange ?_ (by omega) (le_of_not_gt hhi) (le_of_not_gt hwrap)
    hlen hwin hbrk hheap
  obtain rfl | hmps := hmps
  · intro v hv
    rw [hls] at hv
    obtain hv | hv := mem_append.mp hv
    · exact .inl ((hpre v hv).trans hle)
    exact hclr v hv
  exact hmps

def firstMapping : VmaState := mapAt 1 (heapAt 0x100000000 0x100003000) noMappings

def mappingBehindTail : VmaState :=
  [VmaEvent.insert 1 (heapAt 0x100000000 0x100000000),
    .insert 2 (heapAt 0x100000000 0x100005000),.delete 0x100000000 0x100003000,
    .insert 9 (heapAt 0x100001000 0x100002000)].foldl (vmaStep kernelAlloc mainThread)
    (breakAt 0x100000000)

end B1nix.Sched
