import B1nix.Basic.Linked
import B1nix.Mm.Pmm
import B1nix.Basic.Transition

namespace B1nix.Mm

open Function Blocks Linked PmmState Option Nat Prod

section

variable (s : PmmState) (node frame : Nat)

def PmmState.next : Nat := s.mem frame 0

def PmmState.prev : Nat := s.mem frame 1

structure Holds (cfg : PmmConfig) (s : PmmState) (B : Nat → Nat → Prop) : Prop where
  lists : ∀ node < numaMaxNodes, ∀ k ≤ buddyMaxOrder, ∃ l : List Nat,
    Doubly s.next s.prev 0 (s.freeArea node k) l ∧ l.Nodup ∧
      ∀ x, x ∈ l ↔ pmmNodeOf cfg s x = node ∧ B x k
  head : ∀ x, s.heads x = true ↔ ∃ k, B x k
  header : ∀ x k, B x k → s.mem x 2 = k ∧ s.mem x 3 = buddyMagic
  order : ∀ x k, B x k → k ≤ buddyMaxOrder

structure SameFrames (s t : PmmState) : Prop where
  bitmap : t.bitmap = s.bitmap
  refcounts : t.refcounts = s.refcounts
  freeFrames : t.freeFrames = s.freeFrames
  nodes : t.nodes = s.nodes
  ptFrames : t.ptFrames = s.ptFrames
  scanCursor : t.scanCursor = s.scanCursor
  buddyReady : t.buddyReady = s.buddyReady

lemma SameFrames.refl (s : PmmState) : SameFrames s s := ⟨rfl,rfl,rfl,rfl,rfl,rfl,rfl⟩

lemma SameFrames.trans {s t u : PmmState} (h : SameFrames s t) (h' : SameFrames t u) : SameFrames s u :=
  ⟨h'.bitmap.trans h.bitmap,h'.refcounts.trans h.refcounts,h'.freeFrames.trans h.freeFrames,
    h'.nodes.trans h.nodes,h'.ptFrames.trans h.ptFrames,h'.scanCursor.trans h.scanCursor,
    h'.buddyReady.trans h.buddyReady⟩

lemma store_mem (word : Fin 512) (value f : Nat) (w : Fin 512) :
    (s.store frame word value).mem f w = if f = frame ∧ w = word then value else s.mem f w := by
  simp only [store]
  obtain rfl | hf := eq_or_ne f frame
  · by_cases hw : w = word <;> simp [hw]
  simp [hf]

variable (order : Nat)

lemma setArea_area (frame n k : Nat) : (s.setArea node order frame).freeArea n k =
      if n = node ∧ k = order then frame else s.freeArea n k := by
  simp only [setArea]
  obtain rfl | hn := eq_or_ne n node
  · by_cases hk : k = order <;> simp [hk]
  simp [hn]

lemma pmmNodeOf_lt (cfg : PmmConfig) (s : PmmState) (frame : Nat) :
    pmmNodeOf cfg s frame < numaMaxNodes := by
  unfold pmmNodeOf
  split
  · exact cfg.node_lt frame
  decide

lemma store_same (s : PmmState) (frame : Nat) (word : Fin 512) (value : Nat) :
    SameFrames s (s.store frame word value) :=
  ⟨rfl,rfl,rfl,rfl,rfl,rfl,rfl⟩

lemma linkBack_same (next : Nat) : SameFrames s (linkBack frame next s) := by
  unfold linkBack
  split
  · exact store_same ..
  exact .refl s

lemma writeHeader_same (frame order next : Nat) (s : PmmState) :
    SameFrames s (writeHeader frame order next s) :=
  ((store_same s _ _ _).trans (store_same _ _ _ _)).trans
    ((store_same _ _ _ _).trans (store_same _ _ _ _))

lemma setArea_same (s : PmmState) (node order frame : Nat) : SameFrames s (s.setArea node order frame) :=
  ⟨rfl,rfl,rfl,rfl,rfl,rfl,rfl⟩

lemma headSet_same (s : PmmState) (frame : Nat) : SameFrames s (s.headSet frame) :=
  ⟨rfl,rfl,rfl,rfl,rfl,rfl,rfl⟩

lemma headClear_same (s : PmmState) (frame : Nat) : SameFrames s (s.headClear frame) :=
  ⟨rfl,rfl,rfl,rfl,rfl,rfl,rfl⟩

lemma buddyInsert_same (cfg : PmmConfig) (frame order : Nat) (s : PmmState) :
    SameFrames s (buddyInsert cfg frame order s) :=
  ((writeHeader_same _ _ _ s).trans (linkBack_same _ _ _)).trans
    ((setArea_same _ _ _ _).trans (headSet_same _ _))

lemma unlinkForward_same (s : PmmState) : SameFrames s (unlinkForward node frame order s) := by
  unfold unlinkForward
  split
  · exact store_same ..
  split
  · exact setArea_same ..
  exact .refl s

lemma unlinkBack_same (s : PmmState) : SameFrames s (unlinkBack frame s) := by
  unfold unlinkBack
  split
  · exact store_same ..
  exact .refl s

lemma buddyUnlink_same (cfg : PmmConfig) (frame order : Nat) (s : PmmState) :
    SameFrames s (buddyUnlink cfg frame order s) :=
  ((unlinkForward_same (pmmNodeOf cfg s frame) frame order s).trans (unlinkBack_same frame _)).trans
    (((store_same _ _ _ _).trans (store_same _ _ _ _)).trans (headClear_same _ _))

lemma SameFrames.nodeOf {s t : PmmState} (h : SameFrames s t) (cfg : PmmConfig) (x : Nat) :
    pmmNodeOf cfg t x = pmmNodeOf cfg s x := by
  rw [pmmNodeOf,pmmNodeOf,h.nodes]

section Insert

variable {cfg : PmmConfig} {s : PmmState} {frame order f : Nat}

section

variable (frame next : Nat) (s : PmmState)

lemma linkBack_heads : (linkBack frame next s).heads = s.heads := by
  unfold linkBack
  split <;> rfl

lemma linkBack_area : (linkBack frame next s).freeArea = s.freeArea := by
  unfold linkBack
  split <;> rfl

lemma linkBack_mem (f : Nat) (w : Fin 512) :
    (linkBack frame next s).mem f w = if next ≠ 0 ∧ f = next ∧ w = 1 then frame else s.mem f w := by
  unfold linkBack
  split
  · next h => simp [store_mem,h]
  next h => simp [h]

end

lemma writeHeader_mem (frame order next : Nat) (s : PmmState) (f : Nat) (w : Fin 512) :
    (writeHeader frame order next s).mem f w =
      if f = frame ∧ w = 1 then 0
      else if f = frame ∧ w = 0 then next
      else if f = frame ∧ w = 3 then buddyMagic
      else if f = frame ∧ w = 2 then order
      else s.mem f w := by
  simp [writeHeader,store_mem]

lemma buddyInsert_heads (x : Nat) : (buddyInsert cfg frame order s).heads x =
    if x = frame then true else s.heads x := by
  simp only [buddyInsert,headSet,setArea,linkBack_heads,update_apply]
  rfl

lemma buddyInsert_area (n k : Nat) : (buddyInsert cfg frame order s).freeArea n k =
    if n = pmmNodeOf cfg s frame ∧ k = order then frame else s.freeArea n k := by
  simp only [buddyInsert,headSet,setArea_area,linkBack_area]
  rfl

lemma buddyInsert_mem (f : Nat) (w : Fin 512) : (buddyInsert cfg frame order s).mem f w =
    (linkBack frame (s.freeArea (pmmNodeOf cfg s frame) order)
      (writeHeader frame order (s.freeArea (pmmNodeOf cfg s frame) order) s)).mem f w := rfl

lemma buddyInsert_mem_other (hf : f ≠ frame) (w : Fin 512) :
    (buddyInsert cfg frame order s).mem f w =
      if f = s.freeArea (pmmNodeOf cfg s frame) order ∧ f ≠ 0 ∧ w = 1 then frame
      else s.mem f w := by
  rw [buddyInsert_mem,linkBack_mem,writeHeader_mem]
  simp only [hf]
  refine if_congr ⟨?_,?_⟩ rfl rfl
  · rintro ⟨h,rfl,hw⟩
    exact ⟨rfl,h,hw⟩
  rintro ⟨rfl,h,hw⟩
  exact ⟨h,rfl,hw⟩

lemma buddyInsert_mem_self (hne : s.freeArea (pmmNodeOf cfg s frame) order ≠ frame)
    (w : Fin 512) : (buddyInsert cfg frame order s).mem frame w =
      (writeHeader frame order (s.freeArea (pmmNodeOf cfg s frame) order) s).mem frame w := by
  rw [buddyInsert_mem,linkBack_mem,if_neg]
  rintro ⟨-,h,-⟩
  exact hne h.symm

end Insert

section Tree

variable {cfg : PmmConfig} {s : PmmState} {B : Nat → Nat → Prop} {x k f j : Nat}

section

variable (h : Holds cfg s B)

include h

lemma Holds.unique (hj : B x j) (hk : B x k) : j = k :=
  (h.header x j hj).1.symm.trans (h.header x k hk).1

lemma Holds.ne_zero (hk : B x k) : x ≠ 0 := by
  obtain ⟨l,hl,-,hmem⟩ := h.lists _ (pmmNodeOf_lt cfg s x) k (h.order x k hk)
  exact hl.chain.ne_zero ((hmem x).mpr ⟨rfl,hk⟩)

lemma Holds.area {node : Nat} (hn : node < numaMaxNodes) (hk : k ≤ buddyMaxOrder)
    (hne : s.freeArea node k ≠ 0) : pmmNodeOf cfg s (s.freeArea node k) = node ∧ B (s.freeArea node k) k := by
  obtain ⟨l,hl,-,hmem⟩ := h.lists node hn k hk
  cases l with
  | nil => cases hne hl
  | cons y =>
    have hy := hl.1
    rw [hy]
    exact (hmem y).mp (.head _)

lemma Holds.insert (hx : x ≠ 0) (hk : k ≤ buddyMaxOrder) (hnew : ∀ j, ¬B x j) :
    Holds cfg (buddyInsert cfg x k s) (fun y j => B y j ∨ (y = x ∧ j = k)) := by
  have hnode := (buddyInsert_same cfg x k s).nodeOf cfg
  have harea : ∀ {n j}, n < numaMaxNodes → j ≤ buddyMaxOrder → s.freeArea n j ≠ x := by
    intro n j hn hj he
    exact hnew j (he ▸ (h.area hn hj (he ▸ hx)).2)
  have hse := buddyInsert_mem_self (harea (pmmNodeOf_lt cfg s x) hk)
  have hwd : ∀ {y j}, B y j → ∀ w, w ≠ 1 → (buddyInsert cfg x k s).mem y w = s.mem y w := by
    intro y j hy w hw
    have hne : y ≠ x := fun e => hnew j (e ▸ hy)
    rw [buddyInsert_mem_other hne,if_neg]
    rintro ⟨-,-,rfl⟩
    exact hw rfl
  refine ⟨fun node hn j hj => ?_,fun y => ?_,fun y j hy => ?_,fun y j hy => ?_⟩
  · obtain ⟨l,hl,hnd,hmem⟩ := h.lists node hn j hj
    have hBl : ∀ y ∈ l, B y j := fun y hy => ((hmem y).mp hy).2
    by_cases hsa : node = pmmNodeOf cfg s x ∧ j = k
    · obtain ⟨rfl,rfl⟩ := hsa
      have hxl : x ∉ l := fun hin => hnew j (hBl x hin)
      refine ⟨x :: l,?_,List.nodup_cons.mpr ⟨hxl,hnd⟩,fun y => ?_⟩
      · rw [buddyInsert_area,if_pos ⟨rfl,rfl⟩]
        refine hl.push hx hnd ?_ ?_ (fun y hy => hwd (hBl y hy) 0 (by decide)) fun y hy => ?_
        · exact (hse 0).trans (by simp [writeHeader_mem])
        · exact (hse 1).trans (by simp [writeHeader_mem])
        have hne : y ≠ x := fun e => hxl (e ▸ hy)
        have hy0 := hl.chain.ne_zero hy
        exact (buddyInsert_mem_other hne 1).trans (by simp [hy0,prev])
      rw [hnode,List.mem_cons,hmem]
      constructor
      · rintro (rfl | ⟨hy,hB⟩)
        · exact ⟨rfl,.inr ⟨rfl,rfl⟩⟩
        exact ⟨hy,.inl hB⟩
      rintro ⟨hy,hB | ⟨rfl,-⟩⟩
      · exact .inr ⟨hy,hB⟩
      exact .inl rfl
    refine ⟨l,?_,hnd,fun y => ?_⟩
    · rw [buddyInsert_area,if_neg hsa]
      refine hl.congr fun y hy => ⟨hwd (hBl y hy) 0 (by decide),?_⟩
      have hne : y ≠ x := fun e => hnew j (e ▸ hBl y hy)
      refine (buddyInsert_mem_other hne 1).trans (if_neg ?_)
      rintro ⟨rfl,hne0,-⟩
      obtain ⟨hny,hBy⟩ := h.area (pmmNodeOf_lt cfg s x) hk hne0
      exact hsa ⟨((hmem _).mp hy).1.symm.trans hny,h.unique (hBl _ hy) hBy⟩
    rw [hnode,hmem]
    refine and_congr_right fun hy => ⟨.inl,?_⟩
    rintro (hB | ⟨rfl,rfl⟩)
    · exact hB
    exact absurd ⟨hy.symm,rfl⟩ hsa
  · rw [buddyInsert_heads]
    split
    · next hyx => exact ⟨fun _ => ⟨k,.inr ⟨hyx,rfl⟩⟩,fun _ => rfl⟩
    next hyx =>
    rw [h.head]
    refine exists_congr fun j => ⟨.inl,?_⟩
    rintro (hB | ⟨hy,-⟩)
    · exact hB
    cases hyx hy
  · obtain hB | ⟨rfl,rfl⟩ := hy
    · rw [hwd hB 2 (by decide),hwd hB 3 (by decide)]
      exact h.header y j hB
    rw [hse,hse]
    simp [writeHeader_mem]
  obtain hB | ⟨rfl,rfl⟩ := hy
  · exact h.order y j hB
  exact hk

end

lemma unlinkForward_mem (s : PmmState) (f : Nat) (w : Fin 512) :
    (unlinkForward node frame order s).mem f w =
      if s.mem frame 1 ≠ 0 ∧ f = s.mem frame 1 ∧ w = 0 then s.mem frame 0 else s.mem f w := by
  unfold unlinkForward
  split
  · next h => simp [store_mem,h]
  next h =>
  have hmem : ¬(s.mem frame 1 ≠ 0 ∧ f = s.mem frame 1 ∧ w = 0) := fun hc => h hc.1
  split <;> rfl

lemma unlinkForward_area (s : PmmState) (n k : Nat) :
    (unlinkForward node frame order s).freeArea n k =
      if s.mem frame 1 = 0 ∧ s.freeArea node order = frame ∧ n = node ∧ k = order then
        s.mem frame 0
      else s.freeArea n k := by
  unfold unlinkForward
  split
  · next h => rw [if_neg (fun hc => h hc.1),store]
  next h =>
  split
  · next ha => simp [setArea_area,not_not.mp h,ha]
  next ha => rw [if_neg (fun hc => ha hc.2.1)]

lemma unlinkBack_mem (s : PmmState) (f : Nat) (w : Fin 512) : (unlinkBack frame s).mem f w =
      if s.mem frame 0 ≠ 0 ∧ f = s.mem frame 0 ∧ w = 1 then s.mem frame 1 else s.mem f w := by
  unfold unlinkBack
  split
  · next h => simp [store_mem,h]
  next h => rw [if_neg (fun hc => h hc.1)]

lemma unlinkBack_area (s : PmmState) : (unlinkBack frame s).freeArea = s.freeArea := by
  unfold unlinkBack
  split <;> rfl

lemma buddyUnlink_mem (hp : s.mem x 1 ≠ x) (f : Nat) (hf : f ≠ x) (w : Fin 512) :
    (buddyUnlink cfg x k s).mem f w =
      if w = 0 then if f = s.mem x 1 ∧ f ≠ 0 then s.mem x 0 else s.mem f 0
      else if w = 1 then if f = s.mem x 0 ∧ f ≠ 0 then s.mem x 1 else s.mem f 1
      else s.mem f w := by
  have hclr : ∀ t : PmmState, (((t.store x 1 0).store x 0 0).headClear x).mem f w = t.mem f w :=
    fun t => by simp [headClear,store_mem,hf]
  rw [buddyUnlink,hclr]
  simp only [unlinkBack_mem,unlinkForward_mem,hp.symm]
  obtain rfl | h0 := eq_or_ne w 0
  · simp only [Fin.reduceEq,and_false,and_true,if_false,if_true]
    refine if_congr ⟨?_,?_⟩ rfl rfl
    · rintro ⟨h,rfl⟩
      exact ⟨rfl,h⟩
    rintro ⟨rfl,h⟩
    exact ⟨h,rfl⟩
  obtain rfl | h1 := eq_or_ne w 1
  · simp only [Fin.reduceEq,and_false,and_true,if_false,if_true]
    refine if_congr ⟨?_,?_⟩ rfl rfl
    · rintro ⟨h,rfl⟩
      exact ⟨rfl,h⟩
    rintro ⟨rfl,h⟩
    exact ⟨h,rfl⟩
  simp [h0,h1]

lemma buddyUnlink_heads (y : Nat) : (buddyUnlink cfg x k s).heads y =
    if y = x then false else s.heads y := by
  have hba : ∀ t : PmmState, (unlinkBack x t).heads = t.heads := fun t => by
    unfold unlinkBack
    split <;> rfl
  have hfwd : ∀ n, (unlinkForward n x k s).heads = s.heads := fun n => by
    unfold unlinkForward
    split
    · rfl
    split <;> rfl
  rw [← hfwd (pmmNodeOf cfg s x),← hba (unlinkForward _ x k s)]
  exact update_apply _ x false y

lemma buddyUnlink_area (n j : Nat) : (buddyUnlink cfg x k s).freeArea n j =
    if s.mem x 1 = 0 ∧ s.freeArea (pmmNodeOf cfg s x) k = x ∧ n = pmmNodeOf cfg s x ∧ j = k then
      s.mem x 0
    else s.freeArea n j := by
  rw [← unlinkForward_area,← unlinkBack_area x (unlinkForward ..)]
  rfl

lemma Holds.unlink (h : Holds cfg s B) (hB : B x k) :
    Holds cfg (buddyUnlink cfg x k s) (fun y j => B y j ∧ ¬(y = x ∧ j = k)) := by
  have hnode := (buddyUnlink_same cfg x k s).nodeOf cfg
  have hk := h.order x k hB
  obtain ⟨l,hl,hnd,hmem⟩ := h.lists _ (pmmNodeOf_lt cfg s x) k hk
  have hxl : x ∈ l := (hmem x).mpr ⟨rfl,hB⟩
  have h0 : (0 : Nat) ∉ l := fun hz => hl.chain.ne_zero hz rfl
  have hpx := hl.prev_ne hnd h0 hxl
  have hot : ∀ y, y ≠ x → ∀ w, w ≠ 0 → w ≠ 1 →
      (buddyUnlink cfg x k s).mem y w = s.mem y w := by
    intro y hy w hw0 hw1
    rw [buddyUnlink_mem hpx y hy,if_neg hw0,if_neg hw1]
  have hnx : ∀ y, y ≠ x → y ≠ 0 → (buddyUnlink cfg x k s).next y =
      if y = s.prev x then s.next x else s.next y := by
    intro y hy hy0
    refine (buddyUnlink_mem hpx y hy 0).trans ?_
    simp only [hy0,ne_eq,not_false_eq_true,and_true]
    rfl
  have hprev : ∀ y, y ≠ x → y ≠ 0 → (buddyUnlink cfg x k s).prev y =
      if y = s.next x then s.prev x else s.prev y := by
    intro y hy hy0
    refine (buddyUnlink_mem hpx y hy 1).trans ?_
    simp only [hy0,ne_eq,not_false_eq_true,and_true]
    rfl
  refine ⟨fun node hn j hj => ?_,fun y => ?_,fun y j hy => ?_,fun y j hy => h.order y j hy.1⟩
  · by_cases hsa : node = pmmNodeOf cfg s x ∧ j = k
    · obtain ⟨rfl,rfl⟩ := hsa
      refine ⟨l.erase x,?_,hnd.erase x,fun y => ?_⟩
      · have hrs := hl.unlink hxl hnd h0
          (fun y hy hne => hnx y hne (hl.chain.ne_zero hy))
          (fun y hy hne => hprev y hne (hl.chain.ne_zero hy))
        have harea : (buddyUnlink cfg x j s).freeArea (pmmNodeOf cfg s x) j =
            if s.prev x = 0 then s.next x else s.freeArea (pmmNodeOf cfg s x) j := by
          rw [buddyUnlink_area]
          by_cases hp : s.prev x = 0
          · obtain ⟨hhead,-⟩ | hin := hl.prev_mem hxl
            · rw [if_pos ⟨hp,hhead,rfl,rfl⟩,if_pos hp]
              rfl
            cases h0 (hp ▸ hin)
          rw [if_neg (fun hc => hp hc.1),if_neg hp]
        rw [harea]
        exact hrs
      rw [hnd.mem_erase_iff,hmem,hnode]
      constructor
      · rintro ⟨hne,hy,hBy⟩
        exact ⟨hy,hBy,fun hc => hne hc.1⟩
      rintro ⟨hy,hBy,hne⟩
      exact ⟨fun e => hne ⟨e,rfl⟩,hy,hBy⟩
    obtain ⟨l',hl',hnodup',hmem'⟩ := h.lists node hn j hj
    have hapt : ∀ y ∈ l', y ∉ l := by
      intro y hy hyl
      exact hsa ⟨((hmem' y).mp hy).1.symm.trans ((hmem y).mp hyl).1,
        h.unique ((hmem' y).mp hy).2 ((hmem y).mp hyl).2⟩
    refine ⟨l',?_,hnodup',fun y => ?_⟩
    · rw [buddyUnlink_area,if_neg (fun hc => hsa hc.2.2)]
      refine hl'.congr fun y hy => ?_
      have hne : y ≠ x := fun e => hapt y hy (e ▸ hxl)
      have hy0 := hl'.chain.ne_zero hy
      constructor
      · rw [hnx y hne hy0,if_neg]
        rintro rfl
        obtain ⟨-,hz⟩ | hin := hl.prev_mem hxl
        · exact hy0 hz
        exact hapt _ hy hin
      rw [hprev y hne hy0,if_neg]
      rintro rfl
      obtain hz | hin := hl.next_mem hxl
      · exact hy0 hz
      exact hapt _ hy (List.mem_of_mem_tail hin)
    rw [hnode,hmem']
    refine and_congr_right fun hy => ⟨fun hBy => ⟨hBy,?_⟩,fun hc => hc.1⟩
    rintro ⟨rfl,rfl⟩
    exact hsa ⟨hy.symm,rfl⟩
  · rw [buddyUnlink_heads]
    split
    · next hyx =>
      subst hyx
      refine ⟨fun hc => absurd hc Bool.false_ne_true,?_⟩
      rintro ⟨j,hBj,hne⟩
      exact absurd ⟨rfl,h.unique hBj hB⟩ hne
    next hyx =>
    rw [h.head]
    exact exists_congr fun j => ⟨fun hBj => ⟨hBj,fun hc => hyx hc.1⟩,fun hc => hc.1⟩
  have hne : y ≠ x := by
    rintro rfl
    exact hy.2 ⟨rfl,h.unique hy.1 hB⟩
  rw [hot y hne 2 (by decide) (by decide),hot y hne 3 (by decide) (by decide)]
  exact h.header y j hy.1

lemma Holds.insert_mem (h : Holds cfg s B) (hk : k ≤ buddyMaxOrder) (hf : f ≠ x)
    (hB : ∀ j, ¬B f j) : (buddyInsert cfg x k s).mem f = s.mem f := by
  funext w
  rw [buddyInsert_mem_other hf,if_neg]
  rintro ⟨rfl,hne,-⟩
  exact hB k (h.area (pmmNodeOf_lt cfg s x) hk hne).2

lemma Holds.unlink_mem (h : Holds cfg s B) (hB : B x k) (hf : ∀ j, ¬B f j) :
    (buddyUnlink cfg x k s).mem f = s.mem f := by
  obtain ⟨l,hl,hnd,hmem⟩ := h.lists _ (pmmNodeOf_lt cfg s x) k (h.order x k hB)
  have hxl : x ∈ l := (hmem x).mpr ⟨rfl,hB⟩
  have hfl : f ∉ l := fun hin => hf k ((hmem f).mp hin).2
  have h0 : (0 : Nat) ∉ l := fun hz => hl.chain.ne_zero hz rfl
  have hne : f ≠ x := fun e => hfl (e ▸ hxl)
  have hprev : ¬(f = s.mem x 1 ∧ f ≠ 0) := by
    rintro ⟨rfl,hf0⟩
    obtain ⟨-,hz⟩ | hin := hl.prev_mem hxl
    · exact hf0 hz
    exact hfl hin
  have hnx : ¬(f = s.mem x 0 ∧ f ≠ 0) := by
    rintro ⟨rfl,hf0⟩
    obtain hz | hin := hl.next_mem hxl
    · exact hf0 hz
    exact hfl (List.mem_of_mem_tail hin)
  funext w
  rw [buddyUnlink_mem (hl.prev_ne hnd h0 hxl) f hne]
  split
  · next hw => rw [hw]
  split
  · next hw => rw [hw]
  rfl

end Tree

end

open Transition Finset

def FreeFrame (cfg : PmmConfig) (s : PmmState) (i : Nat) : Prop :=
  i < cfg.frameCount ∧ s.bitmap i = false

def Canonical (cfg : PmmConfig) (s : PmmState) : Prop :=
  Holds cfg s (Largest (FreeFrame cfg s) buddyMaxOrder)

structure Rebuilt (cfg : PmmConfig) (free : Nat → Prop) (s t : PmmState) : Prop where
  holds : Holds cfg t (Largest free buddyMaxOrder)
  same : SameFrames s t
  mem : ∀ f, ¬free f → t.mem f = s.mem f

variable {cfg : PmmConfig} {s u : PmmState} {x n last pos order idx : Nat}

section Merge

variable {free : Nat → Prop} {k : Nat}
  {B : Nat → Nat → Prop} {t : PmmState} {order ref i : Nat} {used : Bool}

lemma Holds.of_isFreeBlock (h : Holds cfg s B) (hx : buddyIsFreeBlock cfg x k s) : B x k := by
  obtain ⟨-,hhead,-,-,hord⟩ := hx
  obtain ⟨j,hj⟩ := (h.head x).mp hhead
  rwa [← hord,(h.header x j hj).1]

lemma Holds.isFreeBlock (h : Holds cfg s B) (hB : B x k) (hvl : buddyRegionValid cfg x k)
    (hbit : s.bitmap x = false) : buddyIsFreeBlock cfg x k s :=
  ⟨hvl,(h.head x).mpr ⟨k,hB⟩,hbit,(h.header x k hB).2,(h.header x k hB).1⟩

lemma Block.valid (hfe : ∀ i, free i → FreeFrame cfg s i) (hb : Block free x k)
    (hk : k ≤ buddyMaxOrder) : buddyRegionValid cfg x k := by
  have hpow := Nat.two_pow_pos k
  have hla := (hfe _ (hb.2 (x + 2 ^ k - 1) ⟨by omega,by omega⟩)).1
  exact ⟨hk,Nat.mod_eq_zero_of_dvd hb.1,by omega⟩

lemma Holds.insertBlock (h : Holds cfg s (Largest (Without free x k) buddyMaxOrder)) (hx : x ≠ 0)
    (hm : Largest free buddyMaxOrder x k) : Rebuilt cfg free s (buddyInsert cfg x k s) := by
  have hnew : ∀ j, ¬Largest (Without free x k) buddyMaxOrder x j := fun j =>
    not_largest_without x j inside_self
  refine ⟨?_,buddyInsert_same cfg x k s,fun f hf => ?_⟩
  · rw [← largest_insert hm]
    exact h.insert hx hm.1 hnew
  refine h.insert_mem hm.1 ?_ fun j hj => hf (hj.2.1.2 f inside_self).1
  rintro rfl
  exact hf (hm.2.1.2 f inside_self)

lemma Rebuilt.after (h : Rebuilt cfg free t u) (hsa : SameFrames s t)
    (hmem : ∀ f, ¬free f → t.mem f = s.mem f) : Rebuilt cfg free s u :=
  ⟨h.holds,hsa.trans h.same,fun f hf => (h.mem f hf).trans (hmem f hf)⟩

lemma FreeFrame.of_same (h : FreeFrame cfg s i) (hsa : SameFrames s t) : FreeFrame cfg t i := by
  rwa [FreeFrame,hsa.bitmap]

section

variable (hfe : ∀ i, free i → FreeFrame cfg s i) (h0 : ¬free 0) (hb : Block free x k)
  (hk : k ≤ buddyMaxOrder) (h : Holds cfg s (Largest (Without free x k) buddyMaxOrder))

include hfe h0 hb hk h

lemma buddyMergeLoop_spec : Rebuilt cfg free s (buddyMergeLoop cfg x k s) := by
  have hx0 : ∀ {y j}, Block free y j → y ≠ 0 := fun hy e => h0 (e ▸ hy.2 _ inside_self)
  fun_induction buddyMergeLoop with
  | case1 x k s hlt other hot ih =>
    have hB := h.of_isFreeBlock hot
    have hpair := hb.merge hB.2.1.of_without
    have hmin : (if other < x then other else x) = parent x k := by
      rw [← min_buddy hb.1]
      obtain hlo | hhi := lt_or_ge other x
      · rw [if_pos hlo]
        exact (min_eq_right hlo.le).symm
      rw [if_neg hhi.not_gt]
      exact (min_eq_left hhi).symm
    have hsa := buddyUnlink_same cfg other k s
    have hrs := h.unlink hB
    rw [largest_erase hB,without_buddy hb.1] at hrs
    simp only [dite_eq_ite] at ih
    rw [hmin] at ih ⊢
    refine (ih (fun i hi => (hfe i hi).of_same hsa) hpair hlt hrs).after hsa ?_
    exact fun f hf => h.unlink_mem hB fun j hj => hf (hj.2.1.2 f inside_self).1
  | case2 _ _ _ _ _ hot =>
    refine h.insertBlock (hx0 hb) (largest_of_buddy hk hb (.inr fun hm => hot ?_))
    have hbk := hm.2.1.of_without
    exact h.isFreeBlock hm (Block.valid hfe hbk hk) (hfe _ (hbk.2 _ inside_self)).2
  | case3 =>
    exact h.insertBlock (hx0 hb) (largest_of_buddy hk hb (.inl (by omega)))

lemma buddyMergeInsert_spec : Rebuilt cfg free s (buddyMergeInsert cfg x k s) := by
  have hhead : ¬s.heads x = true := fun hx => by
    obtain ⟨j,hj⟩ := (h.head x).mp hx
    exact not_largest_without x j inside_self hj
  rw [buddyMergeInsert,if_neg (not_not.mpr (Block.valid hfe hb hk)),if_neg hhead]
  exact buddyMergeLoop_spec hfe h0 hb hk h

end

lemma splitBlock_spec (hb : Block free x k) (hord : order ≤ k) (hk : k ≤ buddyMaxOrder)
    (h : Holds cfg s (Largest (Without free x k) buddyMaxOrder)) :
    Holds cfg (splitBlock cfg x order k s) (Largest (Without free x order) buddyMaxOrder) ∧
      SameFrames s (splitBlock cfg x order k s) ∧
      ∀ f, ¬free f → (splitBlock cfg x order k s).mem f = s.mem f := by
  induction k generalizing s with
  | zero =>
    obtain rfl : order = 0 := le_zero.mp hord
    exact ⟨h,.refl s,fun _ _ => rfl⟩
  | succ k ih =>
    by_cases hlt : order < k + 1
    · have hp : 2 ^ k ∣ x := dvd_trans (pow_dvd_pow 2 (le_succ k)) hb.1
      have hlow : Block free x k :=
        hb.sub hp (le_rfl) (Nat.add_le_add_left (Nat.pow_le_pow_right (by decide) (Nat.le_succ k)) x)
      have hpar := parent_of_dvd hb.1
      have hbud := buddy_of_dvd hb.1
      have hm : Largest (Without free x k) buddyMaxOrder (x + 2 ^ k) k := by
        rw [← hbud]
        rw [← hpar] at hb
        exact hb.buddy_largest hp (le_of_succ_le hk)
      have hhole : Without (Without free x k) (x + 2 ^ k) k = Without free x (k + 1) := by
        rw [← hbud,without_buddy hp,hpar]
      rw [← hhole] at h
      have hins := h.insertBlock (Nat.add_pos_right x (Nat.two_pow_pos k)).ne' hm
      obtain ⟨hhd,hsa,hmem⟩ := ih hlow (le_of_lt_succ hlt) (le_of_succ_le hk)
        hins.holds
      rw [splitBlock,if_pos hlt]
      exact ⟨hhd,hins.same.trans hsa,fun f hf => (hmem f hf).trans (hins.mem f fun hw => hf hw.1)⟩
    obtain rfl : order = k + 1 := by omega
    rw [splitBlock,if_neg hlt]
    exact ⟨h,.refl s,fun _ _ => rfl⟩

end Merge

structure SameEnv (s t : PmmState) : Prop where
  nodes : t.nodes = s.nodes
  ptFrames : t.ptFrames = s.ptFrames
  buddyReady : t.buddyReady = s.buddyReady

lemma SameEnv.trans (h : SameEnv s t) (h' : SameEnv t u) : SameEnv s u :=
  ⟨h'.nodes.trans h.nodes,h'.ptFrames.trans h.ptFrames,h'.buddyReady.trans h.buddyReady⟩

lemma SameFrames.env (h : SameFrames s t) : SameEnv s t := { h with }

structure Moved (used : Bool) (ref x n : Nat) (s t : PmmState) : Prop where
  bitmap : ∀ i, t.bitmap i = if x ≤ i ∧ i < x + n then used else s.bitmap i
  refs : ∀ i, x ≤ i → i < x + n → t.refcounts i = ref
  kept : ∀ i, ¬(x ≤ i ∧ i < x + n) → t.bitmap i = true → t.refcounts i = s.refcounts i
  idle : ∀ i, t.bitmap i = false → t.refcounts i = 0 ∨ t.refcounts i = s.refcounts i
  env : SameEnv s t

lemma Moved.of_fun (hus : used = false → ref = 0)
    (hbit : ∀ i, t.bitmap i = if x ≤ i ∧ i < x + n then used else s.bitmap i)
    (href : ∀ i, t.refcounts i = if x ≤ i ∧ i < x + n then ref else s.refcounts i)
    (henv : SameEnv s t) : Moved used ref x n s t := by
  refine ⟨hbit,fun i hlo hhi => ?_,fun i hi _ => ?_,fun i hi => ?_,henv⟩
  · rw [href,if_pos ⟨hlo,hhi⟩]
  · rw [href,if_neg hi]
  rw [hbit] at hi
  rw [href]
  split_ifs with hin
  · rw [if_pos hin] at hi
    exact .inl (hus hi)
  exact .inr rfl

lemma update_range {α : Type} {f g h : Nat → α} {v : α}
    (hg : ∀ i, g i = if x ≤ i ∧ i < x + n then v else f i) (hh : h = update g (x + n) v) (i : Nat) :
    h i = if x ≤ i ∧ i < x + (n + 1) then v else f i := by
  rw [hh]
  by_cases hi : i = x + n
  · rw [hi,update_self,if_pos (by omega)]
  rw [update_of_ne hi,hg]
  exact if_congr (by omega) rfl rfl

structure SameTree (s t : PmmState) : Prop where
  mem : t.mem = s.mem
  heads : t.heads = s.heads
  freeArea : t.freeArea = s.freeArea
  nodes : t.nodes = s.nodes

lemma Holds.congr (h : Holds cfg s B) (hmem : ∀ x k, B x k → t.mem x = s.mem x) (hheads : t.heads = s.heads)
    (harea : t.freeArea = s.freeArea) (hnds : t.nodes = s.nodes) : Holds cfg t B := by
  have hnode : ∀ x, pmmNodeOf cfg t x = pmmNodeOf cfg s x := fun x => by
    rw [pmmNodeOf,pmmNodeOf,hnds]
  refine ⟨fun node hn k hk => ?_,fun x => ?_,fun x k hB => ?_,h.order⟩
  · obtain ⟨l,hl,hnd,hl'⟩ := h.lists node hn k hk
    refine ⟨l,?_,hnd,fun x => ?_⟩
    · rw [harea]
      refine hl.congr fun y hy => ?_
      simp [PmmState.next,PmmState.prev,hmem y k ((hl' y).mp hy).2]
    rw [hl',hnode]
  · rw [hheads]
    exact h.head x
  rw [hmem x k hB]
  exact h.header x k hB

lemma Holds.of_sameTree (h : Holds cfg s B) (hsa : SameTree s t) : Holds cfg t B :=
  h.congr (fun x _ _ => congrFun hsa.mem x) hsa.heads hsa.freeArea hsa.nodes

lemma SameTree.refl (s : PmmState) : SameTree s s := ⟨rfl,rfl,rfl,rfl⟩

lemma SameTree.trans (h : SameTree s t) (h' : SameTree t u) : SameTree s u :=
  ⟨h'.mem.trans h.mem,h'.heads.trans h.heads,h'.freeArea.trans h.freeArea,h'.nodes.trans h.nodes⟩

structure Ranged (used : Bool) (ref x n : Nat) (s t : PmmState) : Prop where
  bitmap : ∀ i, t.bitmap i = if x ≤ i ∧ i < x + n then used else s.bitmap i
  refcounts : ∀ i, t.refcounts i = if x ≤ i ∧ i < x + n then ref else s.refcounts i
  tree : SameTree s t
  env : SameEnv s t

lemma Ranged.zero (used : Bool) (ref x : Nat) (s : PmmState) : Ranged used ref x 0 s s := by
  have hnone : ∀ i, ¬(x ≤ i ∧ i < x + 0) := fun i hi => by omega
  exact ⟨fun i => (if_neg (hnone i)).symm,fun i => (if_neg (hnone i)).symm,.refl s,⟨rfl,rfl,rfl⟩⟩

lemma Ranged.extend (h : Ranged used ref x n s u) (hbit : t.bitmap = update u.bitmap (x + n) used)
    (href : t.refcounts = update u.refcounts (x + n) ref) (htr : SameTree u t) (henv : SameEnv u t) :
    Ranged used ref x (n + 1) s t :=
  ⟨update_range h.bitmap hbit,update_range h.refcounts href,h.tree.trans htr,h.env.trans henv⟩

lemma Ranged.moved (h : Ranged used ref x n s t)
    (hus : used = false → ref = 0) : Moved used ref x n s t :=
  .of_fun hus h.bitmap h.refcounts h.env

lemma claimPages_spec (cfg : PmmConfig) (x n : Nat) (s : PmmState) :
    Ranged true 1 x n s (claimPages cfg x n s) ∧ (claimPages cfg x n s).freeFrames = s.freeFrames := by
  induction n with
  | zero => exact ⟨.zero _ _ _ s,rfl⟩
  | succ n ih =>
    exact ⟨ih.1.extend rfl rfl ⟨rfl,rfl,rfl,rfl⟩ ⟨rfl,rfl,rfl⟩,ih.2⟩

lemma releasePages_spec (cfg : PmmConfig) (x n : Nat) (s : PmmState) :
    Ranged false 0 x n s (releasePages cfg x n s) ∧ (releasePages cfg x n s).freeFrames = s.freeFrames := by
  induction n with
  | zero => exact ⟨.zero _ _ _ s,rfl⟩
  | succ n ih =>
    exact ⟨ih.1.extend rfl rfl ⟨rfl,rfl,rfl,rfl⟩ ⟨rfl,rfl,rfl⟩,ih.2⟩

def freeCount (cfg : PmmConfig) (bitmap : Nat → Bool) : Nat :=
  ((range cfg.frameCount).filter fun i => bitmap i = false).card

def PagesCounted (cfg : PmmConfig) (extra : Nat) (s : PmmState) : Prop :=
  s.freeFrames = freeCount cfg s.bitmap + extra

lemma freeCount_add {b b' : Nat → Bool} (h : ∀ i, b' i = if x ≤ i ∧ i < x + n then true else b i)
    (hfe : ∀ i, x ≤ i → i < x + n → i < cfg.frameCount ∧ b i = false) :
    freeCount cfg b' + n = freeCount cfg b := by
  have hsp : ((range cfg.frameCount).filter fun i => b i = false) =
      ((range cfg.frameCount).filter fun i => b' i = false) ∪ Finset.Ico x (x + n) := by
    ext i
    simp only [mem_filter,mem_union,h]
    by_cases hi : x ≤ i ∧ i < x + n
    · simp [hi,hfe i hi.1 hi.2]
    simp [hi]
  have hdj : Disjoint ((range cfg.frameCount).filter fun i => b' i = false)
      (Finset.Ico x (x + n)) := by
    refine disjoint_left.mpr fun i hi hin => ?_
    have hbit := (mem_filter.mp hi).2
    rw [h,if_pos (mem_Ico.mp hin)] at hbit
    cases hbit
  rw [freeCount,freeCount,hsp,card_union_of_disjoint hdj,Nat.card_Ico,Nat.add_sub_cancel_left]

structure Took (cfg : PmmConfig) (x n : Nat) (s t : PmmState) : Prop where
  canonical : Canonical cfg t
  moved : Moved true 1 x n s t
  free : ∀ i, x ≤ i → i < x + n → FreeFrame cfg s i
  counted : ∀ extra, PagesCounted cfg extra s → PagesCounted cfg extra t
  mem : ∀ f, s.bitmap f = true → t.mem f = s.mem f

structure Gave (cfg : PmmConfig) (ref x n : Nat) (s t : PmmState) : Prop where
  canonical : Canonical cfg t
  moved : Moved false ref x n s t
  used : ∀ i, x ≤ i → i < x + n → i < cfg.frameCount ∧ s.bitmap i = true
  counted : ∀ extra, PagesCounted cfg extra s → PagesCounted cfg extra t
  mem : ∀ f, t.bitmap f = true → t.mem f = s.mem f

lemma Moved.counted_take (h : Moved true ref x n s t)
    (hfe : ∀ i, x ≤ i → i < x + n → FreeFrame cfg s i) (hct : t.freeFrames = s.freeFrames - n)
    (extra : Nat) (hs : PagesCounted cfg extra s) : PagesCounted cfg extra t := by
  have hadd := freeCount_add h.bitmap hfe
  unfold PagesCounted at *
  omega

lemma Moved.counted_give (h : Moved false ref x n s t)
    (hus : ∀ i, x ≤ i → i < x + n → i < cfg.frameCount ∧ s.bitmap i = true)
    (hct : t.freeFrames = s.freeFrames + n) (extra : Nat) (hs : PagesCounted cfg extra s) :
    PagesCounted cfg extra t := by
  have hba : ∀ i, s.bitmap i = if x ≤ i ∧ i < x + n then true else t.bitmap i := fun i => by
    rw [h.bitmap]
    split
    · next hi => exact (hus i hi.1 hi.2).2
    rfl
  have hadd : freeCount cfg s.bitmap + n = freeCount cfg t.bitmap :=
    freeCount_add hba fun i hlo hhi =>
      ⟨(hus i hlo hhi).1,by rw [h.bitmap,if_pos ⟨hlo,hhi⟩]⟩
  unfold PagesCounted at *
  omega

lemma Canonical.zero (h : Canonical cfg s) : ¬FreeFrame cfg s 0 := by
  intro h0
  obtain ⟨q,j,hq,hin⟩ := exists_largest h0
  exact h.ne_zero hq (le_zero.mp hin.1)

lemma freeFrame_taken (h : Moved true 1 x (2 ^ order) s t) :
    FreeFrame cfg t = Without (FreeFrame cfg s) x order := by
  funext i
  simp only [FreeFrame,Without,Inside,h.bitmap]
  split
  · next hi => simp [hi]
  next hi => simp [hi]

lemma freeFrame_given (h : Moved false ref x (2 ^ order) s t)
    (hus : ∀ i, x ≤ i → i < x + 2 ^ order → s.bitmap i = true) :
    Without (FreeFrame cfg t) x order = FreeFrame cfg s := by
  funext i
  simp only [FreeFrame,Without,Inside,h.bitmap]
  split
  · next hi => simp [hi,hus i hi.1 hi.2]
  next hi => simp [hi]

lemma Moved.of_same (h : Moved used ref x n s t) (hsa : SameFrames t u) : Moved used ref x n s u := by
  refine ⟨fun i => ?_,?_,?_,?_,h.env.trans hsa.env⟩
  · rw [hsa.bitmap]
    exact h.bitmap i
  · rw [hsa.refcounts]
    exact h.refs
  · rw [hsa.refcounts,hsa.bitmap]
    exact h.kept
  rw [hsa.refcounts,hsa.bitmap]
  exact h.idle

lemma Moved.after_same (h : Moved used ref x n t u) (hsa : SameFrames s t) : Moved used ref x n s u := by
  refine ⟨fun i => ?_,h.refs,?_,?_,hsa.env.trans h.env⟩
  · rw [← hsa.bitmap]
    exact h.bitmap i
  · rw [← hsa.refcounts]
    exact h.kept
  rw [← hsa.refcounts]
  exact h.idle

lemma SameFrames.freeFrame (h : SameFrames s t) (cfg : PmmConfig) : FreeFrame cfg t = FreeFrame cfg s := by
  funext i
  rw [FreeFrame,FreeFrame,h.bitmap]

lemma Moved.gave (hmv : Moved false ref x (2 ^ order) s t) (htr : SameTree s t)
    (h : Canonical cfg s) (hx : x ≠ 0) (hvl : buddyRegionValid cfg x order)
    (hus : ∀ i, x ≤ i → i < x + 2 ^ order → s.bitmap i = true)
    (hct : t.freeFrames = s.freeFrames + 2 ^ order) :
    Gave cfg ref x (2 ^ order) s (buddyMergeInsert cfg x order t) := by
  obtain ⟨hord,hali,hend⟩ := hvl
  have hhole : Without (FreeFrame cfg t) x order = FreeFrame cfg s := freeFrame_given hmv hus
  have hbk : Block (FreeFrame cfg t) x order := by
    refine ⟨dvd_of_mod_eq_zero hali,fun i hi => ⟨hi.2.trans_le hend,?_⟩⟩
    rw [hmv.bitmap]
    exact if_pos hi
  have hze : ¬FreeFrame cfg t 0 := fun hz => by
    refine h.zero (hhole ▸ ⟨hz,fun hin => hx (le_zero.mp hin.1)⟩)
  have hhd : Holds cfg t (Largest (Without (FreeFrame cfg t) x order) buddyMaxOrder) := by
    rw [hhole]
    exact Holds.of_sameTree h htr
  have hmr := buddyMergeInsert_spec (fun _ hi => hi) hze hbk hord hhd
  have hall := hmv.of_same hmr.same
  have hrn : ∀ i, x ≤ i → i < x + 2 ^ order → i < cfg.frameCount ∧ s.bitmap i = true :=
    fun i hlo hhi => ⟨hhi.trans_le hend,hus i hlo hhi⟩
  refine ⟨?_,hall,hrn,hall.counted_give hrn (hmr.same.freeFrames.trans hct),fun f hf => ?_⟩
  · rw [Canonical,hmr.same.freeFrame]
    exact hmr.holds
  rw [hmr.same.bitmap] at hf
  rw [hmr.mem f (fun hfe => absurd (hf.symm.trans hfe.2) (by decide)),htr.mem]

lemma buddyRelease_spec (h : Canonical cfg s) (hx : x ≠ 0) (ht : buddyRelease cfg x order s = some t) :
    Gave cfg 0 x (2 ^ order) s t := by
  unfold buddyRelease at ht
  split at ht
  · cases ht
  next hvl =>
  split at ht
  · cases ht
  next hus =>
  obtain ⟨hrg,hct⟩ := releasePages_spec cfg x (2 ^ order) s
  have hmv := hrg.moved fun _ => rfl
  cases ht
  refine Moved.gave { hmv with env := { hmv.env with } } { hrg.tree with } h hx
    (not_not.mp hvl) (fun i hlo hhi => ?_) (congrArg (· + 2 ^ order) hct)
  by_contra hbit
  exact hus ⟨i - x,by omega,by
    rw [Nat.add_sub_cancel' hlo]
    exact Bool.not_eq_true _ ▸ hbit⟩

lemma buddyAllocFrom_spec {node k : Nat} (h : Canonical cfg s) (hn : node < numaMaxNodes) (hk : order ≤ k) :
    ((buddyAllocFrom cfg order node k s).1 = 0 ∧ (buddyAllocFrom cfg order node k s).2 = s) ∨
      ((buddyAllocFrom cfg order node k s).1 ≠ 0 ∧
        Took cfg (buddyAllocFrom cfg order node k s).1 (2 ^ order) s
          (buddyAllocFrom cfg order node k s).2) := by
  fun_induction buddyAllocFrom with
  | case1 _ _ _ _ _ ih => exact ih h (Nat.le_succ_of_le hk)
  | case2 _ _ hle _ hz hbad =>
    have hB := (h.area hn hle hz).2
    cases hbad (h.isFreeBlock hB (Block.valid (fun _ hi => hi) hB.2.1 hle) (hB.2.1.2 _ inside_self).2)
  | case3 k s hle frame hz _ u v =>
    right
    have hB := (h.area hn hle hz).2
    have hcut := h.unlink hB
    rw [largest_erase hB] at hcut
    obtain ⟨hhd,hsa,hmem⟩ := splitBlock_spec hB.2.1 hk hle hcut
    obtain ⟨hrg,hct⟩ := claimPages_spec cfg frame (2 ^ order) u
    have hall := (hrg.moved (by decide)).after_same
      ((buddyUnlink_same cfg frame k s).trans hsa)
    have hbk : ∀ i, frame ≤ i → i < frame + 2 ^ order → FreeFrame cfg s i :=
      fun i hlo hhi => hB.2.1.2 i ⟨hlo,lt_of_lt_of_le hhi (Nat.add_le_add_left
        (Nat.pow_le_pow_right (by decide) hk) frame)⟩
    have hdo : Moved true 1 frame (2 ^ order) s { v with
        freeFrames := v.freeFrames - 2 ^ order } :=
      { hall with env := { hall.env with } }
    refine ⟨hz,?_,hdo,hbk,hdo.counted_take hbk ?_,fun f hf => ?_⟩
    · have hfe : FreeFrame cfg v = Without (FreeFrame cfg s) frame order := freeFrame_taken hall
      have hv : Holds cfg v (Largest (FreeFrame cfg v) buddyMaxOrder) := by
        rw [hfe]
        exact hhd.of_sameTree hrg.tree
      exact { hv with }
    · exact congrArg (· - 2 ^ order) (hct.trans (hsa.freeFrames.trans
        (buddyUnlink_same cfg frame k s).freeFrames))
    have hus : ¬FreeFrame cfg s f := fun hfe =>
      absurd (hf.symm.trans hfe.2) (by decide)
    exact (congrFun hrg.tree.mem f).trans ((hmem f hus).trans
      (h.unlink_mem hB fun j hj => hus (hj.2.1.2 f inside_self)))
  | case4 => exact .inl ⟨rfl,rfl⟩

def Outcome (cfg : PmmConfig) (n : Nat) (s : PmmState) (r : Nat × PmmState) : Prop :=
  (r.1 = 0 ∧ r.2 = s) ∨ (r.1 ≠ 0 ∧ Took cfg r.1 n s r.2)

lemma buddyAllocNode_spec (h : Canonical cfg s)
    (order node : Nat) : Outcome cfg (2 ^ order) s (buddyAllocNode cfg order node s) := by
  unfold buddyAllocNode
  split
  · exact .inl ⟨rfl,rfl⟩
  split
  · exact .inl ⟨rfl,rfl⟩
  next hn => exact buddyAllocFrom_spec h (lt_of_not_ge hn) (le_rfl)

lemma buddyAllocNodes_spec (h : Canonical cfg s) (order : Nat) (nodes : List Nat) :
    Outcome cfg (2 ^ order) s (buddyAllocNodes cfg order nodes s) := by
  induction nodes with
  | nil => exact .inl ⟨rfl,rfl⟩
  | cons node _ ih =>
    have hnode := buddyAllocNode_spec h order node
    simp only [buddyAllocNodes]
    split_ifs with hz
    · exact hnode
    obtain ⟨-,hsa⟩ | ⟨hne,-⟩ := hnode
    · rw [hsa]
      exact ih
    cases hz hne

lemma buddyAllocPref_spec (h : Canonical cfg s) (here order : Nat) (pref : Option Nat) (strict : Bool) :
    Outcome cfg (2 ^ order) s (buddyAllocPref cfg here order pref strict s) := by
  unfold buddyAllocPref
  split
  · exact buddyAllocNode_spec h order 0
  split
  · exact buddyAllocNode_spec h order _
  exact buddyAllocNodes_spec h order _

variable {free : Nat → Prop}

lemma seedOrder_spec (hrun : ∀ i, pos ≤ i → i < last → free i) (hstop : ¬free last)
    (hord : order ≤ buddyMaxOrder) (hali : 2 ^ order ∣ pos) (hfit : pos + 2 ^ order ≤ last) :
    seedOrder pos last order ≤ buddyMaxOrder ∧ Block free pos (seedOrder pos last order) ∧
      pos + 2 ^ seedOrder pos last order ≤ last ∧
      (seedOrder pos last order = buddyMaxOrder ∨
        ¬Block free pos (seedOrder pos last order + 1)) := by
  have hbk : ∀ k, 2 ^ k ∣ pos → pos + 2 ^ k ≤ last → Block free pos k := fun k hk hle =>
    ⟨hk,fun i hi => hrun i hi.1 (hi.2.trans_le hle)⟩
  fun_induction seedOrder with
  | case1 order _ hov =>
    exact ⟨hord,hbk order hali hfit,hfit,.inr fun hb => hstop (hb.2 last ⟨by omega,hov⟩)⟩
  | case2 order _ _ hodd =>
    exact ⟨hord,hbk order hali hfit,hfit,.inr fun hb => hodd (mod_eq_zero_of_dvd hb.1)⟩
  | case3 _ hlt hov heven ih =>
    exact ih hlt (dvd_of_mod_eq_zero (not_not.mp heven)) (le_of_not_gt hov)
  | case4 order =>
    exact ⟨hord,hbk order hali hfit,hfit,.inl (by omega)⟩

def Below (free : Nat → Prop) (pos q j : Nat) : Prop := Largest free buddyMaxOrder q j ∧ q < pos

lemma below_next {k : Nat} (hm : Largest free buddyMaxOrder pos k) :
    (fun q j => Below free pos q j ∨ (q = pos ∧ j = k)) = Below free (pos + 2 ^ k) := by
  funext q j
  exact propext (largest_lt_next hm).symm

lemma below_skip (hle : pos ≤ last)
    (hus : ∀ i, pos ≤ i → i < last → ¬free i) : Below free last = Below free pos := by
  funext q j
  refine propext (and_congr_right fun hq => ⟨fun hlt => ?_,fun hlt => hlt.trans_le hle⟩)
  by_contra hpos
  exact hus q (le_of_not_gt hpos) hlt (hq.2.1.2 q inside_self)

structure Seeded (cfg : PmmConfig) (free : Nat → Prop) (pos : Nat) (s t : PmmState) : Prop where
  holds : Holds cfg t (Below free pos)
  edge : Edge free buddyMaxOrder pos
  same : SameFrames s t
  mem : ∀ f, ¬free f → t.mem f = s.mem f

lemma seedRun_spec (h0 : ¬free 0) (hle : pos ≤ last)
    (hrun : ∀ i, pos ≤ i → i < last → free i) (hstop : ¬free last) (heg : Edge free buddyMaxOrder pos)
    (h : Holds cfg s (Below free pos)) : Seeded cfg free last s (seedRun cfg pos last s) := by
  fun_induction seedRun with
  | case1 pos s hlt order ih =>
    obtain ⟨hk,hbk,hfit,hmax⟩ := seedOrder_spec hrun hstop zero_le
      (one_dvd pos) (succ_le_of_lt hlt)
    have hm := heg.largest hk hbk hmax
    have hpos : pos ≠ 0 := fun e => h0 (e ▸ hrun pos (le_rfl) hlt)
    have hins := h.insert hpos hk fun j hj => lt_irrefl pos hj.2
    rw [below_next hm] at hins
    have hnx := ih hfit (fun i hi => hrun i (le_self_add.trans hi))
      (heg.next hm) hins
    refine ⟨hnx.holds,hnx.edge,(buddyInsert_same cfg pos order s).trans hnx.same,
      fun f hf => (hnx.mem f hf).trans (h.insert_mem hk ?_ fun j hj => ?_)⟩
    · rintro rfl
      exact hf (hrun f (le_rfl) hlt)
    exact hf (hj.1.2.1.2 f inside_self)
  | case2 pos s =>
    obtain rfl : pos = last := by omega
    exact ⟨h,heg,.refl s,fun _ _ => rfl⟩

lemma runEnd_spec (cfg : PmmConfig) (s : PmmState) (idx : Nat) :
    (∀ i, idx ≤ i → i < runEnd cfg s idx → FreeFrame cfg s i) ∧ ¬FreeFrame cfg s (runEnd cfg s idx) := by
  fun_induction runEnd with
  | case1 _ h ih =>
    refine ⟨fun i hlo hhi => ?_,ih.2⟩
    obtain rfl | hlt := eq_or_lt_of_le hlo
    · exact h
    exact ih.1 i hlt hhi
  | case2 _ h => exact ⟨fun i hlo hhi => absurd hlo hhi.not_ge,h⟩

lemma seedFrom_spec (hfe : free = FreeFrame cfg s) (h0 : ¬free 0)
    (heg : Edge free buddyMaxOrder idx) (h : Holds cfg s (Below free idx)) :
    Rebuilt cfg free s (seedFrom cfg idx s) := by
  fun_induction seedFrom with
  | case1 idx _ _ hwd ih =>
    have hus : ∀ i, idx ≤ i → i < idx + 64 → ¬free i := fun i hlo hhi hf => by
      have hbit := hwd.2.2 (i - idx) (by omega)
      rw [Nat.add_sub_cancel' hlo] at hbit
      rw [hfe] at hf
      exact absurd (hbit.symm.trans hf.2) (by decide)
    refine ih hfe (Edge.of_not_free (hus (idx + 63) (by omega) (by omega))) ?_
    rw [below_skip le_self_add hus]
    exact h
  | case2 idx _ _ _ hbit ih =>
    have hus : ¬free idx := fun hf => by
      rw [hfe] at hf
      exact absurd (hbit.symm.trans hf.2) (by decide)
    refine ih hfe (Edge.of_not_free hus) ?_
    rw [below_skip (Nat.le_succ idx) fun i hlo hhi => ?_]
    · exact h
    obtain rfl : i = idx := by omega
    exact hus
  | case3 idx s hlt _ hbit ih =>
    obtain ⟨hrun,hstop⟩ := runEnd_spec cfg s (idx + 1)
    have hle := le_runEnd cfg s (idx + 1)
    rw [← hfe] at hrun hstop
    have hfst : free idx := by
      rw [hfe]
      exact ⟨hlt,Bool.not_eq_true _ ▸ hbit⟩
    have hsd := seedRun_spec h0 (Nat.le_of_succ_le hle) (fun i hlo hhi => by
      obtain rfl | hi := Nat.eq_or_lt_of_le hlo
      · exact hfst
      exact hrun i hi hhi) hstop heg h
    have hrs := ih (by rw [hsd.same.freeFrame,hfe]) hsd.edge hsd.holds
    exact hrs.after hsd.same hsd.mem
  | case4 idx s hge =>
    refine ⟨?_,.refl s,fun _ _ => rfl⟩
    have hall : Below free idx = Largest free buddyMaxOrder := by
      funext q j
      refine propext ⟨fun hq => hq.1,fun hq => ⟨hq,?_⟩⟩
      have hin := hq.2.1.2 q inside_self
      rw [hfe] at hin
      exact hin.1.trans_le (le_of_not_gt hge)
    rw [← hall]
    exact h

lemma buddySeedFromBitmap_spec (cfg : PmmConfig) (s : PmmState) (h0 : ¬FreeFrame cfg s 0) :
    Rebuilt cfg (FreeFrame cfg s) s (buddySeedFromBitmap cfg s) := by
  have hsta : Holds cfg (dropLists s) (Below (FreeFrame cfg (dropLists s)) 0) := by
    refine ⟨fun node hn k hk => ⟨[],if_pos ⟨hn,hk⟩,List.nodup_nil,fun x => ?_⟩,fun x => ?_,
      fun x k hB => absurd hB.2 not_lt_zero,fun x k hB => absurd hB.2 not_lt_zero⟩
    · exact ⟨fun hx => absurd hx List.not_mem_nil,fun hx => absurd hx.2.2 not_lt_zero⟩
    exact ⟨fun hx => absurd hx Bool.false_ne_true,fun ⟨k,hB⟩ => absurd hB.2 not_lt_zero⟩
  have hsd : Rebuilt cfg (FreeFrame cfg s) (dropLists s) (seedFrom cfg 0 (dropLists s)) :=
    seedFrom_spec rfl h0 edge_zero hsta
  exact hsd.after ⟨rfl,rfl,rfl,rfl,rfl,rfl,rfl⟩ fun _ _ => rfl

variable {t boot : PmmState} {idx hi run first runStart count here m spot hi' lo limit y r : Nat}

lemma nextFree_le (s : PmmState) (h : idx ≤ last) : nextFree s idx last ≤ last := by
  fun_induction nextFree with
  | case1 _ hus ih => exact ih hus.1
  | case2 => exact h

lemma scanStart_lt (hidx : idx < hi) (hsk : ¬(run = 0 ∧ idx / 64 * 64 + 64 ≤ hi ∧
      scanStart s hi idx run = idx / 64 * 64 + 64)) : scanStart s hi idx run < hi := by
  unfold scanStart at hsk ⊢
  split_ifs with hwd
  · rw [if_pos hwd] at hsk
    have hw64 : idx ≤ idx / 64 * 64 + 64 := by omega
    have hle := nextFree_le s hw64
    omega
  exact hidx

lemma scanStart_run (h : run ≠ 0) : scanStart s hi idx run = idx := if_neg fun hc => h hc.1

def Run (s : PmmState) (hi first n : Nat) : Prop :=
  ∀ i, first ≤ i → i < first + n → i < hi ∧ s.bitmap i = false

lemma Run.extend (h : Run s hi first n) (hlt : first + n < hi)
    (hbit : s.bitmap (first + n) = false) : Run s hi first (n + 1) := by
  intro i hlo hhi
  by_cases he : i = first + n
  · rw [he]
    exact ⟨hlt,hbit⟩
  exact h i hlo (by omega)

lemma Run.step (hrun : Run s hi runStart run) (hat : run = 0 ∨ runStart + run = idx)
    (hspot : run ≠ 0 → spot = idx) (hlt : spot < hi) (hbit : s.bitmap spot = false) :
    Run s hi (if run = 0 then spot else runStart) (run + 1) ∧
      (if run = 0 then spot else runStart) + (run + 1) = spot + 1 := by
  obtain rfl | hz := eq_or_ne run 0
  · refine ⟨fun i hlo hhi => ?_,rfl⟩
    obtain rfl : i = spot := (le_of_lt_succ hhi).antisymm hlo
    exact ⟨hlt,hbit⟩
  have he : runStart + run = spot := (hat.resolve_left hz).trans (hspot hz).symm
  rw [if_neg hz]
  exact ⟨hrun.extend (he ▸ hlt) (he ▸ hbit),by omega⟩

section

variable (hct : run < count) (hrun : Run s hi runStart run)
  (hat : run = 0 ∨ runStart + run = idx)

include hct hrun hat

lemma scanWindow_spec (h : scanWindow s hi count idx run runStart = some first) : Run s hi first count := by
  have hnone : ∀ n, Run s hi n 0 := fun n i hlo hhi => by omega
  fun_induction scanWindow with
  | case1 _ _ _ _ _ ih => exact ih (by omega) (hnone _) (.inl rfl) h
  | case2 _ _ _ _ _ _ _ ih =>
    exact ih (by omega) (hnone _) (.inl rfl) h
  | case3 _ run _ hlt _ _ hsk hbit =>
    obtain rfl : count = run + 1 := by omega
    simp only [some.injEq] at h
    rw [← h]
    exact (hrun.step hat scanStart_run (scanStart_lt hlt hsk) hbit).1
  | case4 _ _ _ hlt _ _ hsk hbit _ _ ih =>
    have hnx := hrun.step hat scanStart_run (scanStart_lt hlt hsk) hbit
    exact ih (by omega) hnx.1 (.inr hnx.2) h
  | case5 _ _ _ _ _ _ _ _ ih =>
    exact ih (by omega) (hnone _) (.inl rfl) h
  | case6 => cases h

lemma scanBelow_spec (h : scanBelow s hi count idx run runStart = some first) : Run s hi first count := by
  have hnone : ∀ n, Run s hi n 0 := fun n i hlo hhi => by omega
  fun_induction scanBelow with
  | case1 _ _ _ _ _ ih => exact ih (by omega) (hnone _) (.inl rfl) h
  | case2 _ run _ hlt hbit =>
    obtain rfl : count = run + 1 := by omega
    simp only [some.injEq] at h
    rw [← h]
    exact (hrun.step hat (fun _ => rfl) hlt (Bool.not_eq_true _ ▸ hbit)).1
  | case3 _ _ _ hlt hbit _ _ ih =>
    have hnx := hrun.step hat (fun _ => rfl) hlt (Bool.not_eq_true _ ▸ hbit)
    exact ih (by omega) hnx.1 (.inr hnx.2) h
  | case4 => cases h

end

lemma claimRun_spec (hrun : Run s cfg.frameCount x n) :
    Ranged true 1 x n s (claimRun cfg x n s) ∧ (claimRun cfg x n s).freeFrames = s.freeFrames - n := by
  induction n with
  | zero => exact ⟨.zero _ _ _ s,rfl⟩
  | succ n ih =>
    obtain ⟨hrg,hct⟩ := ih fun i hlo hhi => hrun i hlo (by omega)
    obtain ⟨hlt,hbit⟩ := hrun (x + n) le_self_add (by omega)
    have hfe : (claimRun cfg x n s).bitmap (x + n) = false := by
      rw [hrg.bitmap,if_neg (by omega),hbit]
    have hma : markFrameUsed cfg (x + n) (claimRun cfg x n s) =
        { bitmapSet cfg (x + n) (claimRun cfg x n s) with
          freeFrames := if 0 < (claimRun cfg x n s).freeFrames then
            (claimRun cfg x n s).freeFrames - 1 else (claimRun cfg x n s).freeFrames } := by
      rw [markFrameUsed,if_neg hlt.not_ge,if_pos hfe]
    rw [claimRun,claimFrame,hma]
    refine ⟨hrg.extend rfl rfl ⟨rfl,rfl,rfl,rfl⟩ ⟨rfl,rfl,rfl⟩,?_⟩
    dsimp only
    split <;> omega

structure Handed (cfg : PmmConfig) (x n : Nat) (s t : PmmState) : Prop extends
    Took cfg x n s t where
  zeroed : ∀ f, x ≤ f → f < x + n → t.mem f = fun _ => 0

lemma Took.handed (h : Took cfg x n s u) (ht : pmmCheckHandout x u = some t) :
    Handed cfg x n s (zeroFrames x n t) := by
  unfold pmmCheckHandout at ht
  split at ht
  · cases ht
  simp only [some.injEq] at ht
  subst ht
  have hus : ∀ f, x ≤ f ∧ f < x + n → u.bitmap f = true := fun f hf => by
    rw [h.moved.bitmap,if_pos hf]
  refine ⟨⟨?_,{ h.moved with env := { h.moved.env with } },h.free,h.counted,
    fun f hf => ?_⟩,fun f hlo hhi => if_pos ⟨hlo,hhi⟩⟩
  · refine Holds.congr h.canonical (fun f k hf => if_neg fun hin => ?_) rfl rfl rfl
    exact absurd ((hus f hin).symm.trans (hf.2.1.2 f inside_self).2) (by decide)
  refine Eq.trans (if_neg fun hin => ?_) (h.mem f hf)
  exact absurd (hf.symm.trans (h.free f hin.1 hin.2).2) (by decide)

def Idle (s t : PmmState) : Prop := t = { s with scanCursor := t.scanCursor }

def Allocated (cfg : PmmConfig) (n : Nat) (s : PmmState) (x : Nat) (t : PmmState) : Prop :=
  (x = 0 ∧ Idle s t) ∨ (x ≠ 0 ∧ Handed cfg x n s t)

lemma takeRun_spec (h : Canonical cfg s) (hrd : s.buddyReady = true) (hrun : Run s cfg.frameCount x n)
    (hn : 0 < n) (ht : takeRun cfg x n s = some t) : x ≠ 0 ∧ Handed cfg x n s t := by
  obtain ⟨hrg,hct⟩ := claimRun_spec hrun
  have hmv := hrg.moved (by decide)
  have hze : ¬FreeFrame cfg (claimRun cfg x n s) 0 := fun hf => by
    refine h.zero ⟨hf.1,?_⟩
    have hbit := hf.2
    rw [hmv.bitmap] at hbit
    split at hbit
    · cases hbit
    exact hbit
  have hsd := buddySeedFromBitmap_spec cfg (claimRun cfg x n s) hze
  have hx : x ≠ 0 := by
    rintro rfl
    exact h.zero (hrun 0 (le_rfl) (by omega))
  have hall := hmv.of_same hsd.same
  have htk : Took cfg x n s (buddySeedFromBitmap cfg (claimRun cfg x n s)) := by
    refine ⟨?_,hall,hrun,hall.counted_take hrun (hsd.same.freeFrames.trans hct),fun f hf => ?_⟩
    · rw [Canonical,hsd.same.freeFrame]
      exact hsd.holds
    have hus : ¬FreeFrame cfg (claimRun cfg x n s) f := fun hfe => by
      have hbit := hfe.2
      rw [hmv.bitmap,hf,ite_self] at hbit
      cases hbit
    rw [hsd.mem f hus,hrg.tree.mem]
  simp only [takeRun,hmv.env.buddyReady,hrd,map_eq_some_iff] at ht
  obtain ⟨u,hu,rfl⟩ := ht
  exact ⟨hx,htk.handed hu⟩

lemma Run.mono (h : Run s hi first n) (hle : hi ≤ hi') : Run s hi' first n :=
  fun i hlo hhi => ⟨lt_of_lt_of_le (h i hlo hhi).1 hle,(h i hlo hhi).2⟩

section

variable (h : Canonical cfg s) (hrd : s.buddyReady = true)

include h hrd

lemma bitmapScanWindow_spec (hhi : hi ≤ cfg.frameCount) (hct : 0 < count)
    (ht : bitmapScanWindow cfg lo hi count s = some (x, t)) :
    (x = 0 ∧ t = s) ∨ (x ≠ 0 ∧ Handed cfg x count s t) := by
  unfold bitmapScanWindow at ht
  split at ht
  · simp only [some.injEq,Prod.mk.injEq] at ht
    exact .inl ⟨ht.1.symm,ht.2.symm⟩
  next first hscan =>
  have hrun := (scanWindow_spec hct (fun i hlo hhi => absurd hhi (by omega)) (.inl rfl) hscan).mono hhi
  simp only [map_eq_some_iff] at ht
  obtain ⟨u,hu,rfl,rfl⟩ := ht
  obtain ⟨hx,hha⟩ := takeRun_spec h hrd hrun hct hu
  exact .inr ⟨hx,⟨Holds.congr hha.canonical (fun _ _ _ => rfl) rfl rfl rfl,
    { hha.moved with env := { hha.moved.env with } },hha.free,hha.counted,hha.mem⟩,hha.zeroed⟩

lemma bitmapScanAlloc_spec
    (ht : bitmapScanAlloc cfg count s = some (x, t)) : Allocated cfg count s x t := by
  unfold bitmapScanAlloc at ht
  split at ht
  · cases ht
    exact .inl ⟨rfl,rfl⟩
  next hct =>
  have hpos : 0 < count := by omega
  dsimp only at ht
  generalize hsta : (if cfg.frameCount ≤ s.scanCursor then 0 else s.scanCursor) = start at ht
  have hle : start ≤ cfg.frameCount := by
    rw [← hsta]
    split <;> omega
  split at ht
  · cases ht
  next x' u hfst =>
  rcases bitmapScanWindow_spec h hrd le_rfl hpos hfst with
    ⟨rfl,rfl⟩ | ⟨hne,hha⟩
  · rw [if_neg (not_not.mpr rfl)] at ht
    split at ht
    · cases ht
      exact .inl ⟨rfl,rfl⟩
    split at ht
    · cases ht
    next x'' v hsec =>
    obtain ⟨rfl,rfl⟩ | ⟨hne,hha⟩ := bitmapScanWindow_spec h hrd hle hpos hsec
    · cases ht
      exact .inl ⟨rfl,rfl⟩
    rw [if_neg hne] at ht
    cases ht
    exact .inr ⟨hne,hha⟩
  rw [if_pos hne] at ht
  cases ht
  exact .inr ⟨hne,hha⟩

lemma pmmAllocFramesBelow_spec (ht : pmmAllocFramesBelow cfg count limit s = some (x, t)) :
    Allocated cfg count s x t := by
  unfold pmmAllocFramesBelow at ht
  split_ifs at ht with hct
  · cases ht
    exact .inl ⟨rfl,rfl⟩
  dsimp only at ht
  split at ht
  · cases ht
    exact .inl ⟨rfl,rfl⟩
  next first hscan =>
  have hrun := (scanBelow_spec (pos_of_ne_zero fun e => hct (.inl e))
    (fun i hlo hhi => absurd hhi (by omega)) (.inl rfl) hscan).mono (min_le_right ..)
  simp only [map_eq_some_iff] at ht
  obtain ⟨u,hu,rfl,rfl⟩ := ht
  exact .inr (takeRun_spec h hrd hrun (pos_of_ne_zero fun e => hct (.inl e)) hu)

end

lemma handOut_spec (h : Took cfg x n s u) (ht : handOut x n u = some (y, t)) :
    y = x ∧ Handed cfg x n s t := by
  simp only [handOut,map_eq_some_iff] at ht
  obtain ⟨v,hv,rfl,rfl⟩ := ht
  exact ⟨rfl,h.handed hv⟩

lemma pmmAllocBlockNode_spec {node : Option Nat} {strict : Bool}
    (h : Canonical cfg s) (ht : pmmAllocBlockNode cfg here order node strict s = some (x, t)) :
    Allocated cfg (2 ^ order) s x t := by
  unfold pmmAllocBlockNode at ht
  split at ht
  · cases ht
    exact .inl ⟨rfl,rfl⟩
  split at ht
  · cases ht
    exact .inl ⟨rfl,rfl⟩
  obtain ⟨hz,hsa⟩ | ⟨hne,htk⟩ := buddyAllocPref_spec h here order node strict
  · rw [if_pos hz] at ht
    simp only [some.injEq] at ht
    rw [ht] at hz hsa
    exact .inl ⟨hz,hsa ▸ rfl⟩
  rw [if_neg hne] at ht
  obtain ⟨rfl,hha⟩ := handOut_spec htk ht
  exact .inr ⟨hne,hha⟩

lemma Gave.append (h : Gave cfg 0 x n s u) (h' : Gave cfg 0 (x + n) m u t) :
    Gave cfg 0 x (n + m) s t := by
  have hbit : ∀ i, t.bitmap i = if x ≤ i ∧ i < x + (n + m) then false else s.bitmap i := fun i => by
    rw [h'.moved.bitmap,h.moved.bitmap]
    split_ifs <;> first | rfl | omega
  have hus : ∀ f, t.bitmap f = true → u.bitmap f = true := fun f hf => by
    rw [h'.moved.bitmap] at hf
    split at hf
    · cases hf
    exact hf
  refine ⟨h'.canonical,⟨hbit,fun i hlo hhi => ?_,fun i hout hi => ?_,fun i hi => ?_,
    h.moved.env.trans h'.moved.env⟩,fun i hlo hhi => ?_,fun extra hc => h'.counted extra (h.counted extra hc),
    fun f hf => (h'.mem f hf).trans (h.mem f (hus f hf))⟩
  · obtain hlt | hge := lt_or_ge i (x + n)
    · obtain hz | hz := h'.moved.idle i (by rw [hbit,if_pos ⟨hlo,hhi⟩])
      · exact hz
      exact hz.trans (h.moved.refs i hlo hlt)
    exact h'.moved.refs i hge (by omega)
  · rw [h'.moved.kept i (by omega) hi]
    exact h.moved.kept i (by omega) (hus i hi)
  · obtain hz | hz := h'.moved.idle i hi
    · exact .inl hz
    by_cases hin : x + n ≤ i ∧ i < x + n + m
    · exact .inl (h'.moved.refs i hin.1 hin.2)
    rw [h'.moved.bitmap,if_neg hin] at hi
    rw [hz]
    exact h.moved.idle i hi
  obtain hlt | hge := lt_or_ge i (x + n)
  · exact h.used i hlo hlt
  obtain ⟨hlt,hbit'⟩ := h'.used i hge (by omega)
  rw [h.moved.bitmap,if_neg (by omega)] at hbit'
  exact ⟨hlt,hbit'⟩

lemma Took.trim (h : Took cfg x (n + m) s u) (h' : Gave cfg 0 (x + n) m u t) :
    Took cfg x n s t := by
  have hbit : ∀ i, t.bitmap i = if x ≤ i ∧ i < x + n then true else s.bitmap i := fun i => by
    rw [h'.moved.bitmap,h.moved.bitmap]
    by_cases hta : x + n ≤ i ∧ i < x + n + m
    · rw [if_pos hta,if_neg (by omega),(h.free i (by omega) (by omega)).2]
    rw [if_neg hta]
    exact if_congr (by omega) rfl rfl
  have hke : ∀ i, t.bitmap i = true → t.refcounts i = u.refcounts i := fun i hi => by
    refine h'.moved.kept i (fun hin => ?_) hi
    rw [h'.moved.bitmap,if_pos hin] at hi
    cases hi
  have hus : ∀ f, s.bitmap f = true → t.bitmap f = true := fun f hf => by
    rw [hbit,hf,ite_self]
  refine ⟨h'.canonical,⟨hbit,fun i hlo hhi => ?_,fun i hout hi => ?_,fun i hi => ?_,
    h.moved.env.trans h'.moved.env⟩,fun i hlo hhi => h.free i hlo (by omega),
    fun extra hc => h'.counted extra (h.counted extra hc),fun f hf => (h'.mem f (hus f hf)).trans (h.mem f hf)⟩
  · rw [hke i (by rw [hbit,if_pos ⟨hlo,hhi⟩])]
    exact h.moved.refs i hlo (by omega)
  · rw [hke i hi]
    have hta : ¬(x + n ≤ i ∧ i < x + n + m) := fun hin => by
      rw [h'.moved.bitmap,if_pos hin] at hi
      cases hi
    refine h.moved.kept i (by omega) ?_
    rwa [h'.moved.bitmap,if_neg hta] at hi
  by_cases hin : x + n ≤ i ∧ i < x + n + m
  · exact .inl (h'.moved.refs i hin.1 hin.2)
  obtain hz | hz := h'.moved.idle i hi
  · exact .inl hz
  rw [h'.moved.bitmap,if_neg hin] at hi
  rw [hz]
  exact h.moved.idle i hi

lemma gave_one (h : Canonical cfg s) (hx : x ≠ 0) (hlt : x < cfg.frameCount)
    (hbit : s.bitmap x = true) (hr : r = 0 ∨ r = s.refcounts x) :
    Gave cfg r x 1 s (buddyMergeInsert cfg x 0
      { bitmapClear cfg x s with
        refcounts := update s.refcounts x r
        freeFrames := s.freeFrames + 1 }) := by
  have hrg : Ranged false r x 1 s { bitmapClear cfg x s with
      refcounts := update s.refcounts x r
      freeFrames := s.freeFrames + 1 } :=
    (Ranged.zero false r x s).extend rfl rfl ⟨rfl,rfl,rfl,rfl⟩ ⟨rfl,rfl,rfl⟩
  have hid : ∀ i, update s.refcounts x r i = 0 ∨ update s.refcounts x r i = s.refcounts i := by
    intro i
    obtain rfl | hne := eq_or_ne i x
    · rwa [update_self]
    exact .inr (update_of_ne hne ..)
  have hus : ∀ i, x ≤ i → i < x + 2 ^ 0 → s.bitmap i = true := fun i hlo hhi => by
    obtain rfl : i = x := by omega
    exact hbit
  have hgave : Gave cfg r x (2 ^ 0) s _ := Moved.gave ⟨hrg.bitmap,
    fun i hlo hhi => (hrg.refcounts i).trans (if_pos ⟨hlo,hhi⟩),
    fun i hi _ => (hrg.refcounts i).trans (if_neg hi),fun i _ => hid i,hrg.env⟩
    hrg.tree h hx ⟨zero_le,mod_one x,hlt⟩ hus rfl
  exact hgave

lemma releaseTail_spec {e : Nat} (h : Canonical cfg s) (hx : x ≠ 0) (hle : e ≤ last)
    (hus : ∀ i, x + e ≤ i → i < x + last → i < cfg.frameCount ∧ s.bitmap i = true) :
    Gave cfg 0 (x + e) (last - e) s (releaseTail cfg x e last s) := by
  fun_induction releaseTail with
  | case1 e s hlt u v ih =>
    obtain ⟨hidx,hbit⟩ := hus (x + e) le_rfl (by omega)
    have hone : Gave cfg 0 (x + e) 1 s (buddyMergeInsert cfg (x + e) 0 v) :=
      gave_one h (by omega) hidx hbit (.inl rfl)
    have hrs := ih hone.canonical hlt fun i hlo hhi => by
      rw [hone.moved.bitmap,if_neg (by omega)]
      exact hus i (by omega) hhi
    have hsp : last - e = 1 + (last - (e + 1)) := by omega
    rw [hsp]
    exact hone.append hrs
  | case2 e s =>
    obtain rfl : e = last := by omega
    rw [Nat.sub_self]
    exact ⟨h,(Ranged.zero false 0 _ s).moved fun _ => rfl,fun i hlo hhi => by omega,
      fun _ hc => hc,fun _ _ => rfl⟩

lemma le_orderFor (count order : Nat) : count ≤ 2 ^ orderFor count order := by
  fun_induction orderFor with
  | case1 _ _ ih => exact ih
  | case2 _ h => exact le_of_not_gt h

section

variable (h : Canonical cfg s)

include h

lemma pmmAllocAttempt_spec (hrd : s.buddyReady = true)
    (ht : pmmAllocAttempt cfg here count s = some (x, t)) : Allocated cfg (max 1 count) s x t := by
  unfold pmmAllocAttempt at ht
  split at ht
  · next hone =>
    rw [hone.1]
    obtain ⟨hz,hsa⟩ | ⟨hne,htk⟩ := buddyAllocPref_spec h here 0 none false
    · rw [buddyAlloc,if_neg (not_not.mpr hz),hsa] at ht
      split at ht
      · exact bitmapScanAlloc_spec h hrd ht
      simp only [some.injEq] at ht
      rw [ht] at hz hsa
      exact .inl ⟨hz,hsa ▸ rfl⟩
    rw [buddyAlloc,if_pos hne] at ht
    obtain ⟨rfl,hha⟩ := handOut_spec htk ht
    exact .inr ⟨hne,hha⟩
  split at ht
  · next hmany =>
    rw [max_eq_right hmany.le]
    dsimp only at ht
    rcases buddyAllocPref_spec h here (orderFor count 0) none false with
      ⟨hz,hsa⟩ | ⟨hne,htk⟩
    · rw [buddyAlloc,if_neg (not_not.mpr hz),hsa] at ht
      split at ht
      · exact bitmapScanAlloc_spec h hrd ht
      simp only [some.injEq] at ht
      rw [ht] at hz hsa
      exact .inl ⟨hz,hsa ▸ rfl⟩
    rw [buddyAlloc,if_pos hne] at ht
    have hle := le_orderFor count 0
    have hsp : 2 ^ orderFor count 0 = count + (2 ^ orderFor count 0 - count) := by omega
    have hta := releaseTail_spec htk.canonical hne hle fun i hlo hhi =>
      ⟨(htk.free i (by omega) hhi).1,by rw [htk.moved.bitmap,if_pos (by omega)]⟩
    rw [hsp] at htk
    obtain ⟨rfl,hha⟩ := handOut_spec (htk.trim hta) ht
    exact .inr ⟨hne,hha⟩
  next hnone hfew =>
  have hmax : max 1 count = 1 := max_eq_left (by omega)
  rw [hmax]
  exact bitmapScanAlloc_spec h hrd ht

lemma pmmReturnFrame_spec {hidden : Bool} (hx : x ≠ 0) (hlt : x < cfg.frameCount)
    (ht : pmmReturnFrame cfg hidden x s = some t) : Gave cfg 0 x 1 s t := by
  have hvl : buddyRegionValid cfg x 0 := ⟨zero_le,mod_one x,hlt⟩
  unfold pmmReturnFrame at ht
  split at ht
  · cases ht
  split at ht
  · cases ht
  split at ht
  · next u hu =>
    cases ht
    exact buddyRelease_spec h hx hu
  next hnone =>
  have hbit : s.bitmap x = false := by
    unfold buddyRelease at hnone
    rw [if_neg (not_not.mpr hvl)] at hnone
    split at hnone
    · next hfe =>
      obtain ⟨i,hi,hbit⟩ := hfe
      obtain rfl : i = 0 := by omega
      exact hbit
    cases hnone
  rw [if_pos ⟨hvl,hbit⟩] at ht
  cases ht

lemma markFrameFree_spec (hrd : s.buddyReady = true) (hx : x ≠ 0) (hlt : x < cfg.frameCount)
    (hbit : s.bitmap x = true) : Gave cfg (s.refcounts x) x 1 s (markFrameFree cfg x s) := by
  have hgave := gave_one h hx hlt hbit (.inr rfl)
  rw [update_eq_self] at hgave
  rw [markFrameFree,if_pos hbit]
  exact (if_pos hrd).symm ▸ hgave

lemma pmmNumaReseed_spec (hrd : s.buddyReady = true) :
    Canonical cfg (pmmNumaReseed cfg s) ∧ (pmmNumaReseed cfg s).buddyReady = true := by
  unfold pmmNumaReseed
  split
  · exact ⟨h,hrd⟩
  rw [if_pos hrd]
  have hsd := buddySeedFromBitmap_spec cfg { s with
    nodes := cfg.numaNodeCount
    nodeFreePages := fun node =>
      if node < numaMaxNodes then
        ((List.range cfg.bitmapBits).filter fun idx =>
          s.bitmap idx = false ∧
            pmmNodeOf cfg { s with nodes := cfg.numaNodeCount } idx = node).length
      else s.nodeFreePages node } h.zero
  refine ⟨?_,hsd.same.buddyReady.trans hrd⟩
  rw [Canonical,hsd.same.freeFrame]
  exact hsd.holds

end

inductive PmmEvent where
  | allocBlock (here order : Nat) (node : Option Nat) (strict : Bool)
  | allocFrames (here count : Nat)
  | allocBelow (count limit : Nat)
  | release (frame order : Nat)
  | returnFrame (hidden : Bool) (frame : Nat)
  | markFree (frame : Nat)
  | notePageTable (frame : Nat) (owned : Bool)
  | numaReseed

def pmmStep (cfg : PmmConfig) (s : PmmState) : PmmEvent → Option PmmState
  | .allocBlock here order node strict =>
    (pmmAllocBlockNode cfg here order node strict s).map snd
  | .allocFrames here count => (pmmAllocAttempt cfg here count s).map snd
  | .allocBelow count limit => (pmmAllocFramesBelow cfg count limit s).map snd
  | .release frame order => some ((buddyRelease cfg frame order s).getD s)
  | .returnFrame hidden frame => pmmReturnFrame cfg hidden frame s
  | .markFree frame => some (markFrameFree cfg frame s)
  | .notePageTable frame owned =>
    some { s with ptFrames := Function.update s.ptFrames frame owned }
  | .numaReseed => some (pmmNumaReseed cfg s)

def PmmEvent.Frame (cfg : PmmConfig) : PmmEvent → Prop
  | .release frame _ => frame ≠ 0
  | .returnFrame _ frame => frame ≠ 0 ∧ frame < cfg.frameCount
  | .markFree frame => frame ≠ 0 ∧ frame < cfg.frameCount
  | _ => True

def seeded (cfg : PmmConfig) (s : PmmState) : PmmState :=
  { buddySeedFromBitmap cfg s with buddyReady := true }

def BuddyRun (cfg : PmmConfig) : PmmState → Prop :=
  Reach (fun s => ∃ boot : PmmState, boot.bitmap 0 = true ∧ s = seeded cfg boot)
    (fun s e t => e.Frame cfg ∧ pmmStep cfg s e = some t)

structure TreeInv (cfg : PmmConfig) (s : PmmState) : Prop where
  canonical : Canonical cfg s
  ready : s.buddyReady = true

lemma Allocated.inv {n x : Nat} {t : PmmState} (h : TreeInv cfg s) (ht : Allocated cfg n s x t) :
    TreeInv cfg t := by
  obtain ⟨-,hid⟩ | ⟨-,hha⟩ := ht
  · rw [hid]
    exact ⟨Holds.congr h.canonical (fun _ _ _ => rfl) rfl rfl rfl,h.ready⟩
  exact ⟨hha.canonical,hha.moved.env.buddyReady.trans h.ready⟩

lemma Gave.inv {ref x n : Nat} {t : PmmState} (h : TreeInv cfg s) (ht : Gave cfg ref x n s t) :
    TreeInv cfg t :=
  ⟨ht.canonical,ht.moved.env.buddyReady.trans h.ready⟩

lemma TreeInv.step {t : PmmState} {e : PmmEvent} (h : TreeInv cfg s) (hfm : e.Frame cfg)
    (ht : pmmStep cfg s e = some t) : TreeInv cfg t := by
  cases e with
  | allocBlock =>
    obtain ⟨⟨x,u⟩,hu,rfl⟩ := map_eq_some_iff.mp ht
    exact (pmmAllocBlockNode_spec h.canonical hu).inv h
  | allocFrames =>
    obtain ⟨⟨x,u⟩,hu,rfl⟩ := map_eq_some_iff.mp ht
    exact (pmmAllocAttempt_spec h.canonical h.ready hu).inv h
  | allocBelow =>
    obtain ⟨⟨x,u⟩,hu,rfl⟩ := map_eq_some_iff.mp ht
    exact (pmmAllocFramesBelow_spec h.canonical h.ready hu).inv h
  | release frame order =>
    cases ht
    cases hr : buddyRelease cfg frame order s with
    | none => exact h
    | some => exact (buddyRelease_spec h.canonical hfm hr).inv h
  | returnFrame => exact (pmmReturnFrame_spec h.canonical hfm.1 hfm.2 ht).inv h
  | markFree frame =>
    cases ht
    by_cases hbit : s.bitmap frame = true
    · exact (markFrameFree_spec h.canonical h.ready hfm.1 hfm.2 hbit).inv h
    rw [markFrameFree,if_neg hbit]
    exact h
  | notePageTable =>
    cases ht
    exact ⟨Holds.congr h.canonical (fun _ _ _ => rfl) rfl rfl rfl,h.ready⟩
  | numaReseed =>
    cases ht
    obtain ⟨hcan,hrd⟩ := pmmNumaReseed_spec h.canonical h.ready
    exact ⟨hcan,hrd⟩

lemma seeded_inv (h0 : boot.bitmap 0 = true) : TreeInv cfg (seeded cfg boot) := by
  have hsd := buddySeedFromBitmap_spec cfg boot fun hf =>
    absurd (h0.symm.trans hf.2) (by decide)
  refine ⟨?_,rfl⟩
  have hcan : Canonical cfg (buddySeedFromBitmap cfg boot) := by
    rw [Canonical,hsd.same.freeFrame]
    exact hsd.holds
  exact Holds.congr hcan (fun _ _ _ => rfl) rfl rfl rfl

lemma BuddyRun.inv (h : BuddyRun cfg s) : TreeInv cfg s := by
  refine Reach.invariant (fun s hs => ?_) (fun s e t hs hstep => hs.step hstep.1 hstep.2) h
  obtain ⟨boot,h0,rfl⟩ := hs
  exact seeded_inv h0

def freeBlocks (s : PmmState) : Set (Nat × Nat) :=
  { b | b.2 ≤ buddyMaxOrder ∧ ∃ node < numaMaxNodes, Follows s.next (s.freeArea node b.2) b.1 }

lemma Holds.freeBlocks {B : Nat → Nat → Prop} (h : Holds cfg s B) (x k : Nat) :
    (x, k) ∈ freeBlocks s ↔ B x k := by
  constructor
  · rintro ⟨hk,node,hn,hfw⟩
    obtain ⟨l,hl,-,hmem⟩ := h.lists node hn k hk
    exact ((hmem x).mp (hl.chain.mem_of_follows hfw)).2
  intro hB
  have hk := h.order x k hB
  obtain ⟨l,hl,-,hmem⟩ := h.lists _ (pmmNodeOf_lt cfg s x) k hk
  exact ⟨hk,_,pmmNodeOf_lt cfg s x,hl.chain.follows_of_mem ((hmem x).mpr ⟨rfl,hB⟩)⟩

structure BuddyForm (cfg : PmmConfig) (s : PmmState) : Prop where
  seed : freeBlocks s = freeBlocks (buddySeedFromBitmap cfg s)
  seedHeads : s.heads = (buddySeedFromBitmap cfg s).heads
  heads : ∀ x, s.heads x = true ↔ ∃ k, (x, k) ∈ freeBlocks s
  aligned : ∀ x k, (x, k) ∈ freeBlocks s → 2 ^ k ∣ x ∧ x + 2 ^ k ≤ cfg.frameCount
  clear : ∀ x k, (x, k) ∈ freeBlocks s → ∀ i, Inside x k i → s.bitmap i = false
  disjoint : ∀ x k y j, (x, k) ∈ freeBlocks s → (y, j) ∈ freeBlocks s → (x, k) ≠ (y, j) →
    ∀ i, Inside x k i → ¬Inside y j i
  cover : ∀ i < cfg.frameCount, s.bitmap i = false → ∃ x k, (x, k) ∈ freeBlocks s ∧ Inside x k i
  merged : ∀ x k, k < buddyMaxOrder → (x, k) ∈ freeBlocks s → (buddy x k, k) ∉ freeBlocks s

lemma Canonical.reseeded (h : Canonical cfg s) :
    Holds cfg (buddySeedFromBitmap cfg s) (Largest (FreeFrame cfg s) buddyMaxOrder) :=
  (buddySeedFromBitmap_spec cfg s h.zero).holds

lemma Canonical.form (h : Canonical cfg s) : BuddyForm cfg s where
  seed := by
    ext ⟨x,k⟩
    rw [Holds.freeBlocks h,Holds.freeBlocks h.reseeded]
  seedHeads := by
    funext x
    rw [Bool.eq_iff_iff,h.head,h.reseeded.head]
  heads x := by
    rw [h.head]
    exact exists_congr fun k => (Holds.freeBlocks h x k).symm
  aligned x k hx := by
    have hb := ((Holds.freeBlocks h x k).mp hx).2.1
    have hpow := Nat.two_pow_pos k
    have hla := (hb.2 (x + 2 ^ k - 1) ⟨by omega,by omega⟩).1
    exact ⟨hb.1,by omega⟩
  clear x k hx i hi := (((Holds.freeBlocks h x k).mp hx).2.1.2 i hi).2
  disjoint x k y j hx hy hne i hi hi' := by
    obtain ⟨rfl,rfl⟩ := ((Holds.freeBlocks h x k).mp hx).unique
      ((Holds.freeBlocks h y j).mp hy) hi hi'
    exact hne rfl
  cover i hi hbit := by
    have hfe : FreeFrame cfg s i := ⟨hi,hbit⟩
    obtain ⟨x,k,hx,hin⟩ : ∃ x k, Largest (FreeFrame cfg s) buddyMaxOrder x k ∧ Inside x k i :=
      exists_largest hfe
    exact ⟨x,k,(Holds.freeBlocks h x k).mpr hx,hin⟩
  merged x k hk hx hbud := by
    have hlow := (Holds.freeBlocks h x k).mp hx
    have hhg := (Holds.freeBlocks h _ k).mp hbud
    exact (hlow.2.2.resolve_left hk.ne) (hlow.2.1.merge hhg.2.1)

theorem buddy_tree_canonical {cfg : PmmConfig} {s : PmmState} (h : BuddyRun cfg s) :
    BuddyForm cfg s :=
  h.inv.canonical.form

def flatPmm : PmmConfig where
  frameCount := 16
  bitmapBits := 32768
  numaNodeOfFrame := fun _ => 0
  numaNodeOrder := fun _ => [0]
  numaNodeCount := 1
  bits_ge := by decide
  node_lt := fun _ => by decide

def usedPmm : PmmState where
  bitmap := fun _ => true
  heads := fun _ => false
  ptFrames := fun _ => false
  refcounts := fun _ => 1
  freeFrames := 0
  nodeFreePages := fun _ => 0
  freeArea := fun _ _ => 0
  nodes := 1
  mem := fun _ _ => 0
  scanCursor := 0
  buddyReady := false

theorem buddy_tree_canonical_release : ∃ s, s.bitmap 5 = false ∧ BuddyForm flatPmm s := by
  have hsta : BuddyRun flatPmm (seeded flatPmm usedPmm) := .start ⟨usedPmm,rfl,rfl⟩
  have hbit : (seeded flatPmm usedPmm).bitmap = fun _ => true :=
    (buddySeedFromBitmap_spec flatPmm usedPmm fun hf => absurd hf.2 (by decide)).same.bitmap
  have hrel : buddyRelease flatPmm 5 0 (seeded flatPmm usedPmm) ≠ none := by
    rw [buddyRelease,if_neg (by decide),if_neg (by simp [hbit])]
    exact some_ne_none _
  obtain ⟨t,ht⟩ := ne_none_iff_exists'.mp hrel
  have hgave := buddyRelease_spec (seeded_inv rfl).canonical (by decide) ht
  have hstep : BuddyRun flatPmm t := hsta.next (e := .release 5 0)
    ⟨show (5 : Nat) ≠ 0 by decide,by rw [pmmStep,ht]; rfl⟩
  exact ⟨t,by rw [hgave.moved.bitmap,if_pos (by decide)],buddy_tree_canonical hstep⟩

end B1nix.Mm
