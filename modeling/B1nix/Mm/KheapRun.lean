import B1nix.Mm.KheapFree
import B1nix.Basic.Transition

namespace B1nix.Kheap

open Function Tiling List

variable {cfg : KheapConfig} {h h' : KheapState} {blocks : List Nat} {b size p : Nat}

lemma searchList_spec {l : List Nat} (hfi : searchList cfg h size l = some (some b)) :
    b ∈ l ∧ size ≤ h.size b := by
  induction l with
  | nil => cases hfi
  | cons x _ ih =>
    unfold searchList at hfi
    split at hfi
    · split at hfi
      · next hfit =>
        split at hfi
        · cases hfi
          exact ⟨.head _,hfit⟩
        cases hfi
      exact ⟨.tail x (ih hfi).1,(ih hfi).2⟩
    cases hfi

variable {bkt want frames large : Nat} {cpu : Option Nat}

lemma searchBuckets_spec {bkts : List Nat} (hfi : searchBuckets cfg h size bkts = some (some (bkt, b))) :
    b ∈ h.freeLists bkt ∧ size ≤ h.size b := by
  induction bkts with
  | nil => cases hfi
  | cons _ _ ih =>
    unfold searchBuckets at hfi
    split at hfi
    · cases hfi
    · next found hlist =>
      cases hfi
      exact searchList_spec hlist
    exact ih hfi

lemma Sound.take (hs : Sound h blocks) (hb : b ∈ h.freeLists bkt) :
    Sound ((h.setList bkt ((h.freeLists bkt).erase b)).setMagic b kheapMagic) blocks := by
  obtain ⟨⟨-,hfe⟩,hbkt⟩ := (hs.listed.mem_iff bkt b).mp hb
  have hsz := setMagic_size (h.setList bkt ((h.freeLists bkt).erase b)) b kheapMagic
  have hmg := setMagic_magic (h.setList bkt ((h.freeLists bkt).erase b)) b kheapMagic
  refine hs.remark hsz (setMagic_tag ..) hmg (.inl rfl) rfl rfl le_rfl rfl ?_ ?_
  · exact (hs.listed.erase bkt hbkt).congr (fun _ => .rfl) (fun _ _ => congrFun hsz _) rfl
  refine hs.parked.congr (fun x => and_congr_right fun _ => ?_) (fun _ _ => congrFun hsz _) rfl
  rw [KheapState.Cached,hmg]
  obtain rfl | hx := eq_or_ne x b
  · refine ⟨fun hc => ?_,fun hc => absurd hc (free_not_cached hfe)⟩
    simp [kheapMagic,kheapMagMagic] at hc
  rw [update_of_ne hx]
  rfl

lemma Sound.reuse (hs : Sound h blocks) (hb : b ∈ h.freeLists bkt) (hfit : size ≤ h.size b)
    (hpos : 0 < size) (halg : 16 ∣ size) :
    ∃ blocks', Served h blocks (kheapSplitBlock b size
      ((h.setList bkt ((h.freeLists bkt).erase b)).setMagic b kheapMagic)) blocks'
        (b + headerSize) size := by
  obtain ⟨⟨hmem,hfe⟩,-⟩ := (hs.listed.mem_iff bkt b).mp hb
  have htk := hs.take hb
  have hsz := setMagic_size (h.setList bkt ((h.freeLists bkt).erase b)) b kheapMagic
  have hmg := setMagic_magic (h.setList bkt ((h.freeLists bkt).erase b)) b kheapMagic
  generalize (h.setList bkt ((h.freeLists bkt).erase b)).setMagic b kheapMagic = g at *
  have hot : ∀ x, x ≠ b → g.magic x = h.magic x := fun x hx => by
    rw [hmg,update_of_ne hx]
    rfl
  have hli : g.Live b := by rw [KheapState.Live,hmg,update_self]
  obtain ⟨pre,post,rfl⟩ := append_of_mem hmem
  have hnx : ∀ x ∈ post.head?, ¬ g.Free x := by
    intro x hx hf
    have hxb : x ≠ b := ne_of_mem_of_not_mem (mem_of_mem_head? hx) hs.toGeometry.notin.2
    have hjoin := (isChain_cons.mp (isChain_append.mp hs.apart).2.1).1 x hx
    exact hjoin ⟨hfe,(hot x hxb).symm.trans hf⟩
  obtain ⟨blocks',s,hsd,hro,hsp⟩ := htk.splitBlock hli hnx hpos halg (hsz ▸ hfit)
  refine ⟨blocks',hsd,b,s,rfl,hro,fun t hl => live_not_free hl.2.1 hfe,?_⟩
  intro x t
  rw [hsp x t]
  refine or_congr_right ?_
  constructor
  · rintro ⟨hx,hin,hl,hz⟩
    exact ⟨hin,(hot x hx).symm.trans hl,(congrFun hsz x).symm.trans hz⟩
  rintro ⟨hin,hl,hz⟩
  have hx : x ≠ b := by
    rintro rfl
    exact live_not_free hl hfe
  exact ⟨hx,hin,(hot x hx).trans hl,(congrFun hsz x).trans hz⟩

lemma Sound.grow (hs : Sound h blocks) {stop : Nat} (hstop : h.stop ≤ stop) :
    Sound { h with stop } blocks :=
  ⟨hs.toShape.congr (fun _ _ => rfl) (fun _ _ => rfl) rfl rfl hstop rfl,hs.classes,hs.apart,
    ⟨hs.listed.mem_iff,hs.listed.nodup⟩,{ hs.parked with }⟩

lemma Shape.prevSize (hs : Shape h blocks) :
    (if h.lastBlock = 0 then 0 else (h.hdr h.lastBlock).size) = tagAfter h.size 0 blocks := by
  have hla := hs.last
  obtain rfl | ⟨pre,x,rfl⟩ := eq_nil_or_concat blocks
  · exact if_pos hla
  rw [concat_eq_append] at hs hla ⊢
  rw [getLast?_append] at hla
  have hx : h.lastBlock = x := hla
  have hbs := (hs.tiles.within (mem_append_right pre (mem_singleton_self x))).1
  have hpos := hs.base_pos
  rw [tagAfter_concat,hx,if_neg (by omega)]
  rfl

lemma Shape.bump (hs : Shape h blocks) (hpos : 0 < size) (halg : 16 ∣ size)
    (hro : h.current + headerSize + size ≤ h.stop) (hsz : h'.size = update h.size h.current size)
    (htag : h'.tag = update h.tag h.current (tagAfter h.size 0 blocks)) (hbs : h'.base = h.base)
    (hcur : h'.current = h.current + headerSize + size) (hstop : h'.stop = h.stop)
    (hla : h'.lastBlock = h.current) : Shape h' (blocks ++ [h.current]) := by
  have hnew : h.current ∉ blocks := by
    intro hx
    have := (hs.tiles.within hx).2
    have := width_pos h h.current
    omega
  have hse : h'.size h.current = size := by rw [hsz,update_self]
  have hot : ∀ x ∈ blocks, h'.size x = h.size x := hsz ▸ update_of_notin hnew
  refine ⟨⟨hbs ▸ hs.base_pos,hbs ▸ hs.base_aligned,?_,?_,?_⟩,?_,?_⟩
  · rw [hbs,hcur]
    refine tiles_append.mpr ⟨h.current,hs.tiles.congr fun x hx => width_congr (hot x hx),rfl,?_⟩
    have hwd : h'.width h.current = headerSize + h'.size h.current := rfl
    show h.current + h'.width h.current = h.current + headerSize + size
    omega
  · intro x hx
    obtain hx | hx := mem_append.mp hx
    · rw [hot x hx]
      exact hs.sized x hx
    rw [mem_singleton.mp hx,hse]
    exact ⟨hpos,halg⟩
  · rw [hcur,hstop]
    exact hro
  · refine tags_append.mpr ⟨hs.tags.congr hot (htag ▸ update_of_notin hnew),?_,trivial⟩
    rw [htag,update_self,tagAfter_congr 0 hot]
  rw [hla,getLast?_append]
  rfl

lemma Sound.bump (hs : Sound h blocks) (hpos : 0 < size) (halg : 16 ∣ size)
    (hro : alignUp h.current 16 + headerSize + size ≤ h.stop) :
    Served h blocks (bumpBlock size h).2 (blocks ++ [h.current]) (bumpBlock size h).1 size := by
  have hcur : alignUp h.current 16 = h.current := alignUp_of_dvd (by decide) hs.toGeometry.aligned.1
  have hnew : h.current ∉ blocks := by
    intro hx
    have := (hs.tiles.within hx).2
    have := width_pos h h.current
    omega
  rw [hcur] at hro
  unfold bumpBlock
  rw [hcur,hs.toShape.prevSize]
  have hsz := setHdr_size h h.current ⟨size,tagAfter h.size 0 blocks,kheapMagic⟩
  have htag := setHdr_tag h h.current ⟨size,tagAfter h.size 0 blocks,kheapMagic⟩
  have hmg := setHdr_magic h h.current ⟨size,tagAfter h.size 0 blocks,kheapMagic⟩
  have hsa : ∀ x ∈ blocks, (h.setHdr h.current ⟨size,tagAfter h.size 0 blocks,kheapMagic⟩).magic x =
      h.magic x := hmg ▸ update_of_notin hnew
  have hli : (h.setHdr h.current ⟨size,tagAfter h.size 0 blocks,kheapMagic⟩).Live h.current := by
    rw [KheapState.Live,hmg,update_self]
  have hsame_size : ∀ x ∈ blocks,
      (h.setHdr h.current ⟨size,tagAfter h.size 0 blocks,kheapMagic⟩).size x = h.size x :=
    hsz ▸ update_of_notin hnew
  have hke : ∀ v, kheapMagic ≠ v → ∀ x, x ∈ blocks ++ [h.current] ∧
      (h.setHdr h.current ⟨size,tagAfter h.size 0 blocks,kheapMagic⟩).magic x = v ↔
      x ∈ blocks ∧ h.magic x = v := by
    intro v hv x
    rw [mem_append,mem_singleton]
    constructor
    · rintro ⟨hx | rfl,hf⟩
      · exact ⟨hx,(hsa x hx).symm.trans hf⟩
      cases hv (hli.symm.trans hf)
    exact fun hx => ⟨.inl hx.1,(hsa x hx.1).trans hx.2⟩
  refine ⟨⟨hs.toShape.bump hpos halg hro hsz htag rfl rfl rfl rfl,?_,?_,?_,?_⟩,h.current,size,
    rfl,le_rfl,fun t hl => hnew hl.1,?_⟩
  · intro x hx
    obtain hx | hx := mem_append.mp hx
    · have := hs.classes x hx
      rw [KheapState.Live,KheapState.Free,KheapState.Cached,← hsa x hx] at this
      exact this
    rw [mem_singleton.mp hx]
    exact .inl hli
  · refine isChain_append.mpr ⟨?_,isChain_singleton _,?_⟩
    · exact isChain_congr hs.apart fun x hx => (hsa x hx).symm.trans
    rintro x - y hy hf
    cases hy
    exact live_not_free hli hf.2
  · exact hs.listed.congr (hke _ (by decide)) (fun x hx => hsame_size x hx.1) rfl
  · exact hs.parked.congr (hke _ (by decide)) (fun x hx => hsame_size x hx.1) rfl
  intro x t
  rw [LiveBlock,mem_append,mem_singleton]
  constructor
  · rintro ⟨hx | rfl,hl,hz⟩
    · exact .inr ⟨hx,(hsa x hx).symm.trans hl,(hsame_size x hx).symm.trans hz⟩
    refine .inl ⟨rfl,hz.symm.trans ?_⟩
    exact (congrFun hsz _).trans (update_self ..)
  rintro (⟨rfl,rfl⟩ | ⟨hx,hl,hz⟩)
  · exact ⟨.inr rfl,hli,(congrFun hsz _).trans (update_self ..)⟩
  exact ⟨.inl hx,(hsa x hx).trans hl,(hsame_size x hx).trans hz⟩

def Handed (h : KheapState) (blocks : List Nat) (h' : KheapState) (p want : Nat) : Prop :=
  ∃ blocks', (p = 0 ∧ Sound h' blocks' ∧
    ∀ x t, LiveBlock h' blocks' x t ↔ LiveBlock h blocks x t) ∨ Served h blocks h' blocks' p want

lemma Served.handed {blocks' : List Nat} (hs : Served h blocks h' blocks' p size)
    (hle : want ≤ size) : Handed h blocks h' p want := by
  obtain ⟨b,s,hp,hro,hrs⟩ := hs.room
  exact ⟨blocks',.inr ⟨hs.sound,b,s,hp,hle.trans hro,hrs⟩⟩

section

variable (hs : Sound h blocks)

include hs

lemma Sound.bumpAlloc (hpos : 0 < size) (halg : 16 ∣ size)
    (hal : Kheap.bumpAlloc frames size h = some (p, h')) : Handed h blocks h' p size := by
  unfold Kheap.bumpAlloc at hal
  dsimp only at hal
  have hgr : Sound (heapGrow (headerSize + size) frames h).2 blocks := hs.grow le_self_add
  split at hal
  · split at hal
    · split at hal
      · cases hal
      next hro =>
      cases hal
      have hsvd := hgr.bump hpos halg (le_of_not_gt hro)
      exact ⟨_,.inr ⟨hsvd.sound,hsvd.room⟩⟩
    cases hal
    exact ⟨blocks,.inl ⟨rfl,hgr,fun _ _ => .rfl⟩⟩
  next hro =>
  cases hal
  exact (hs.bump hpos halg (le_of_not_gt hro)).handed le_rfl

lemma Sound.lockedAlloc (hpos : 0 < size) (halg : 16 ∣ size)
    (hal : Kheap.lockedAlloc cfg frames size h = some (p, h')) : Handed h blocks h' p size := by
  unfold Kheap.lockedAlloc at hal
  split at hal
  · cases hal
  · next bkt b hfi =>
    cases hal
    obtain ⟨hb,hfit⟩ := searchBuckets_spec hfi
    obtain ⟨blocks',hsvd⟩ := hs.reuse hb hfit hpos halg
    exact hsvd.handed le_rfl
  exact hs.bumpAlloc hpos halg hal

lemma Sound.kmallocInternal (hsm : size < klargeThreshold)
    (hal : Kheap.kmallocInternal cfg cpu frames large size h = some (p, h')) : Handed h blocks h' p size := by
  unfold Kheap.kmallocInternal at hal
  split at hal
  · cases hal
    exact ⟨blocks,.inl ⟨rfl,hs,fun _ _ => .rfl⟩⟩
  next hze =>
  rw [if_neg (Nat.not_le_of_lt hsm)] at hal
  obtain ⟨hle,-,halg⟩ := alignUp_spec size (show 0 < 16 by decide)
  dsimp only at hal
  split at hal
  · cases hal
  next q g hmag =>
  have hmagazine := hs.magAlloc hmag
  split_ifs at hal with hq
  · cases hal
    exact (hmagazine.resolve_left fun hnone => hq hnone.1).handed hle
  have hms : g = h := by
    obtain ⟨-,hg⟩ | hsvd := hmagazine
    · exact hg
    obtain ⟨b,s,hb,-⟩ := hsvd.room
    exact absurd (hb.trans (add_comm b headerSize)) (by
      simp only [headerSize]
      omega)
  subst hms
  obtain ⟨blocks',hnone | hsvd⟩ := hs.lockedAlloc (by omega) halg hal
  · exact ⟨blocks',.inl hnone⟩
  exact hsvd.handed hle

lemma Sound.memset (q v n : Nat) : Sound (h.memset q v n) blocks :=
  ⟨hs.toShape.congr (fun _ _ => rfl) (fun _ _ => rfl) rfl rfl le_rfl rfl,hs.classes,
    hs.apart,⟨hs.listed.mem_iff,hs.listed.nodup⟩,{ hs.parked with }⟩

end

lemma Handed.memset (hh : Handed h blocks h' p want) (q v n : Nat) :
    Handed h blocks (h'.memset q v n) p want := by
  obtain ⟨blocks',⟨hp,hs,hsa⟩ | hsvd⟩ := hh
  · exact ⟨blocks',.inl ⟨hp,hs.memset q v n,hsa⟩⟩
  exact ⟨blocks',.inr ⟨hsvd.sound.memset q v n,hsvd.room⟩⟩

lemma Sound.kmalloc (hs : Sound h blocks) (hsm : size < klargeThreshold)
    (hal : Kheap.kmalloc cfg cpu frames large size h = some (p, h')) : Handed h blocks h' p size := by
  obtain ⟨⟨q,g⟩,hint,hr⟩ := Option.map_eq_some_iff.mp hal
  have hh := hs.kmallocInternal hsm hint
  split at hr <;> cases hr
  · exact hh.memset ..
  exact hh

lemma Sound.kzalloc (hs : Sound h blocks) (hsm : size < klargeThreshold)
    (hal : Kheap.kzalloc cfg cpu frames large size h = some (p, h')) : Handed h blocks h' p size := by
  obtain ⟨⟨q,g⟩,hint,hr⟩ := Option.map_eq_some_iff.mp hal
  have hh := hs.kmallocInternal hsm hint
  split at hr <;> cases hr
  · exact hh.memset ..
  exact hh

lemma Sound.kfree (hs : Sound h blocks) (hmem : b ∈ blocks) (hb : h.Live b)
    (hfr : Kheap.kfree cfg cpu (b + headerSize) h = some h') :
    ∃ blocks', Sound h' blocks' ∧ ∀ x s, LiveBlock h' blocks' x s ↔ x ≠ b ∧ LiveBlock h blocks x s := by
  have hmg : (h.hdr b).magic = kheapMagic := hb
  have hp : b + headerSize ≠ 0 := (Nat.add_pos_right b (by decide)).ne'
  have hbk := Nat.add_sub_cancel b headerSize
  unfold Kheap.kfree at hfr
  rw [if_neg hp] at hfr
  split at hfr
  · cases hfr
  split at hfr
  · cases hfr
  split at hfr
  · cases hfr
  rw [hbk,if_pos hmg] at hfr
  cases hmag : kheapMagFree cfg cpu b h with
  | none =>
    rw [hmag] at hfr
    exact hs.lockedFree hmem hb hfr
  | some =>
    rw [hmag] at hfr
    cases hfr
    exact ⟨blocks,hs.magFree hmem hb hmag⟩

open Transition Option

structure Allocation where
  ptr : Nat
  size : Nat
  deriving DecidableEq

structure HeapWorld where
  heap : KheapState
  live : List Allocation

inductive HeapCall where
  | kmalloc (cpu : Option Nat) (frames size : Nat)
  | kzalloc (cpu : Option Nat) (frames size : Nat)
  | kfree (cpu : Option Nat) (ptr : Nat)
  | write (addr v : Nat)

def HeapWorld.handOut (w : HeapWorld) (size : Nat) (r : Nat × KheapState) : HeapWorld :=
  { heap := r.2, live := if r.1 = 0 then w.live else ⟨r.1,size⟩ :: w.live }

def heapStep (cfg : KheapConfig) (w : HeapWorld) : HeapCall → Option HeapWorld
  | .kmalloc cpu frames size => (kmalloc cfg cpu frames 0 size w.heap).map (w.handOut size)
  | .kzalloc cpu frames size => (kzalloc cfg cpu frames 0 size w.heap).map (w.handOut size)
  | .kfree cpu ptr => (kfree cfg cpu ptr w.heap).map fun h =>
    ⟨h,w.live.filter fun a => a.ptr ≠ ptr⟩
  | .write addr v => some { w with heap := w.heap.memset addr v 1 }

def headroom : Nat := 2 ^ 20

def InWindow (h : KheapState) (frames : Nat) : Prop :=
  h.stop + pageSize * frames + headroom ≤ 2 ^ 64

def HeapCall.Made (w : HeapWorld) : HeapCall → Prop
  | .kmalloc _ frames size | .kzalloc _ frames size =>
    size < klargeThreshold ∧ InWindow w.heap frames
  | .kfree _ ptr => ptr = 0 ∨ ∃ a ∈ w.live, a.ptr = ptr
  | .write addr _ => ∃ a ∈ w.live, a.ptr ≤ addr ∧ addr < a.ptr + a.size

def Booted (cfg : KheapConfig) (w : HeapWorld) : Prop :=
  w.live = [] ∧ ∃ hdr mem frames, kheapInit cfg hdr mem frames = some w.heap

def HeapRun (cfg : KheapConfig) : HeapWorld → Prop :=
  Reach (Booted cfg) (guarded (fun w e => e.Made w) fun w e w' => heapStep cfg w e = some w')

def payload (h : KheapState) (a : Allocation) : Nat := h.size (a.ptr - headerSize)

structure WellFormed (w : HeapWorld) (blocks : List Nat) : Prop where
  tiled : Tiles w.heap.width w.heap.base blocks w.heap.current
  mapped : w.heap.current ≤ w.heap.stop ∧ w.heap.stop + headroom ≤ 2 ^ 64
  tagged : Tags w.heap.size w.heap.tag 0 blocks
  topmost : w.heap.lastBlock = blocks.getLast?.getD 0
  apart : blocks.IsChain fun a b => ¬ (w.heap.Free a ∧ w.heap.Free b)
  classes : ∀ b ∈ blocks, w.heap.Free b ∨ (w.heap.Cached b ∧ ∃ id cls, b ∈ w.heap.mag id cls) ∨
    ∃ a ∈ w.live, a.ptr = b + headerSize
  free_listed : ∀ b ∈ blocks, w.heap.Free b → ∀ bkt, (w.heap.freeLists bkt).count b =
    if sizeToBucket (w.heap.size b) = bkt then 1 else 0
  listed_free : ∀ bkt, ∀ b ∈ w.heap.freeLists bkt, b ∈ blocks ∧ w.heap.Free b
  served : ∀ a ∈ w.live, ∃ b ∈ blocks, a.ptr = b + headerSize ∧ w.heap.Live b ∧
    a.size ≤ w.heap.size b
  disjoint : w.live.Pairwise fun a c =>
    a.ptr + payload w.heap a ≤ c.ptr ∨ c.ptr + payload w.heap c ≤ a.ptr

structure HeapInv (w : HeapWorld) (blocks : List Nat) : Prop where
  sound : Sound w.heap blocks
  bounded : w.heap.stop + headroom ≤ 2 ^ 64
  owner : ∀ b, b ∈ blocks → w.heap.Live b → ∃ a ∈ w.live, a.ptr = b + headerSize
  served : ∀ a ∈ w.live, ∃ b s, a.ptr = b + headerSize ∧ LiveBlock w.heap blocks b s ∧ a.size ≤ s
  distinct : w.live.Pairwise fun a c => a.ptr ≠ c.ptr

variable {w : HeapWorld}

lemma HeapInv.wellFormed (hi : HeapInv w blocks) : WellFormed w blocks := by
  have hs := hi.sound
  have hsvd : ∀ a ∈ w.live, ∃ b ∈ blocks, a.ptr = b + headerSize ∧ w.heap.Live b ∧
      a.size ≤ w.heap.size b := by
    intro a ha
    obtain ⟨b,s,hb,⟨hmem,hl,rfl⟩,hle⟩ := hi.served a ha
    exact ⟨b,hmem,hb,hl,hle⟩
  refine ⟨hs.tiles,⟨hs.fits,hi.bounded⟩,hs.tags,hs.last,hs.apart,?_,?_,?_,hsvd,?_⟩
  · intro b hb
    obtain hl | hf | hc := hs.classes b hb
    · exact .inr (.inr (hi.owner b hb hl))
    · exact .inl hf
    exact .inr (.inl ⟨hc,hs.parked.slot b ⟨hb,hc⟩⟩)
  · intro b hb hf bkt
    split_ifs with hbkt
    · exact count_eq_one_of_mem (hs.listed.nodup bkt)
        ((hs.listed.mem_iff bkt b).mpr ⟨⟨hb,hf⟩,hbkt⟩)
    exact count_eq_zero_of_not_mem fun hx => hbkt ((hs.listed.mem_iff bkt b).mp hx).2
  · exact fun bkt b hb => ((hs.listed.mem_iff bkt b).mp hb).1
  refine hi.distinct.imp_of_mem ?_
  intro a c ha hc hne
  obtain ⟨x,hx,hax,-⟩ := hsvd a ha
  obtain ⟨y,hy,hcy,-⟩ := hsvd c hc
  have hwx : w.heap.width x = headerSize + w.heap.size x := rfl
  have hwy : w.heap.width y = headerSize + w.heap.size y := rfl
  have hpa : payload w.heap a = w.heap.size x := by rw [payload,hax,Nat.add_sub_cancel]
  have hpc : payload w.heap c = w.heap.size y := by rw [payload,hcy,Nat.add_sub_cancel]
  have hsep := hs.tiles.apart hx hy (by omega)
  omega

variable {w' : HeapWorld}

lemma kheapMagAlloc_stop (hal : kheapMagAlloc cfg cpu size h = some (p, h')) : h'.stop = h.stop := by
  unfold kheapMagAlloc at hal
  split at hal
  · cases hal
    rfl
  split at hal
  · cases hal
    rfl
  split at hal <;> cases hal
  rfl

lemma retag_stop {after : Nat} : (h.retag b after).stop = h.stop := (retag_frame after).2.2.1

lemma kheapSplitBlock_stop (b want : Nat) (h : KheapState) : (kheapSplitBlock b want h).stop = h.stop := by
  unfold kheapSplitBlock
  dsimp only
  split
  · rfl
  exact retag_stop

lemma bumpAlloc_stop (hal : bumpAlloc frames size h = some (p, h')) :
    h'.stop ≤ h.stop + pageSize * frames := by
  have hgrow : (heapGrow (headerSize + size) frames h).2.stop ≤ h.stop + pageSize * frames :=
    Nat.add_le_add_left (Nat.mul_le_mul_left _ (min_le_right ..)) _
  unfold bumpAlloc at hal
  dsimp only at hal
  split at hal
  · split at hal
    · split at hal <;> cases hal
      exact hgrow
    cases hal
    exact hgrow
  cases hal
  exact le_self_add

lemma kmallocInternal_stop {large : Nat}
    (hal : kmallocInternal cfg cpu frames large size h = some (p, h')) :
    h'.stop ≤ h.stop + pageSize * frames := by
  unfold kmallocInternal at hal
  split at hal
  · cases hal
    exact le_self_add
  split at hal
  · cases hal
    exact le_self_add
  dsimp only at hal
  split at hal
  · cases hal
  next q g hmag =>
  have hsa := kheapMagAlloc_stop hmag
  split at hal
  · cases hal
    exact hsa ▸ le_self_add
  rw [← hsa]
  unfold lockedAlloc at hal
  split at hal
  · cases hal
  · cases hal
    rw [kheapSplitBlock_stop]
    exact le_self_add
  exact bumpAlloc_stop hal

lemma bucketUnlink_stop (hun : bucketUnlink b h = some h') : h'.stop = h.stop := by
  unfold bucketUnlink at hun
  dsimp only at hun
  split at hun <;> cases hun
  rfl

lemma absorb_stop (b next after : Nat) (h : KheapState) : (absorb b next after h).stop = h.stop :=
  retag_stop

lemma coalesceLeft_stop {b' : Nat} (hc : coalesceLeft b h = some (b', h')) : h'.stop = h.stop := by
  unfold coalesceLeft at hc
  dsimp only at hc
  split at hc
  · obtain ⟨g,hun,hg⟩ := map_eq_some_iff.mp hc
    cases hg
    exact (absorb_stop ..).trans (bucketUnlink_stop hun)
  cases hc
  rfl

lemma coalesceRight_stop (hc : coalesceRight b h = some h') : h'.stop = h.stop := by
  unfold coalesceRight at hc
  dsimp only at hc
  split at hc
  · obtain ⟨g,hun,hg⟩ := map_eq_some_iff.mp hc
    cases hg
    exact (absorb_stop ..).trans (bucketUnlink_stop hun)
  cases hc
  rfl

lemma returnTail_stop (hr : returnTail cfg b h = some h') : h'.stop ≤ h.stop := by
  unfold returnTail at hr
  split at hr
  · split at hr
    · dsimp only at hr
      split_ifs at hr with hlt
      · cases hr
        exact hlt.le
      cases hr
      exact le_rfl
    cases hr
  cases hr
  exact le_rfl

lemma lockedFree_stop (hfr : lockedFree cfg b h = some h') : h'.stop ≤ h.stop := by
  unfold lockedFree at hfr
  split at hfr
  · dsimp only at hfr
    split at hfr
    · cases hfr
    next b₁ h₁ hlf =>
    split at hfr
    · cases hfr
    next h₂ hrt =>
    obtain ⟨h₃,hret,hpu⟩ := map_eq_some_iff.mp hfr
    cases hpu
    have hta := returnTail_stop hret
    rw [coalesceRight_stop hrt,coalesceLeft_stop hlf] at hta
    exact hta
  cases hfr

lemma kfree_stop (hfr : kfree cfg cpu p h = some h') : h'.stop ≤ h.stop := by
  unfold kfree at hfr
  split at hfr
  · cases hfr
    exact le_rfl
  split at hfr
  · cases hfr
  split at hfr
  · cases hfr
  split at hfr
  · cases hfr
  dsimp only at hfr
  split at hfr
  · cases hmag : kheapMagFree cfg cpu (p - headerSize) h with
    | none =>
      rw [hmag] at hfr
      exact lockedFree_stop hfr
    | some =>
      rw [hmag] at hfr
      cases hfr
      unfold kheapMagFree at hmag
      split at hmag
      · cases hmag
      split at hmag <;> cases hmag
      exact le_rfl
  exact lockedFree_stop hfr

lemma HeapInv.handOut (hi : HeapInv w blocks) (hh : Handed w.heap blocks h' p size)
    (hbd : h'.stop + headroom ≤ 2 ^ 64) : ∃ blocks', HeapInv (w.handOut size (p, h')) blocks' := by
  obtain ⟨blocks',⟨rfl,hs,hsa⟩ | hsvd⟩ := hh
  · refine ⟨blocks',hs,hbd,?_,?_,hi.distinct⟩
    · intro b hb hl
      obtain ⟨hb',hl',-⟩ := (hsa b _).mp ⟨hb,hl,rfl⟩
      exact hi.owner b hb' hl'
    intro a ha
    obtain ⟨b,s,hp,hl,hle⟩ := hi.served a ha
    exact ⟨b,s,hp,(hsa b s).mpr hl,hle⟩
  obtain ⟨b,s,rfl,hro,hfr,hli⟩ := hsvd.room
  refine ⟨blocks',hsvd.sound,hbd,?_,?_,?_⟩
  · intro x hx hl
    obtain ⟨rfl,-⟩ | ⟨hx',hl',-⟩ := (hli x _).mp ⟨hx,hl,rfl⟩
    · exact ⟨_,.head _,rfl⟩
    obtain ⟨a,ha,hp⟩ := hi.owner x hx' hl'
    exact ⟨a,.tail _ ha,hp⟩
  · intro a ha
    obtain rfl | ha := mem_cons.mp ha
    · exact ⟨b,s,rfl,(hli b s).mpr (.inl ⟨rfl,rfl⟩),hro⟩
    obtain ⟨x,t,hp,hl,hle⟩ := hi.served a ha
    exact ⟨x,t,hp,(hli x t).mpr (.inr hl),hle⟩
  refine pairwise_cons.mpr ⟨fun a ha heq => ?_,hi.distinct⟩
  obtain ⟨x,t,hp,hl,-⟩ := hi.served a ha
  obtain rfl : x = b := Nat.add_right_cancel (hp.symm.trans heq.symm)
  exact hfr t hl

lemma HeapInv.freed (hi : HeapInv w blocks) {a : Allocation} (ha : a ∈ w.live)
    (hfr : kfree cfg cpu a.ptr w.heap = some h') :
    ∃ blocks', HeapInv ⟨h',w.live.filter fun c => c.ptr ≠ a.ptr⟩ blocks' := by
  obtain ⟨b,s,hp,⟨hmem,hl,-⟩,-⟩ := hi.served a ha
  rw [hp] at hfr ⊢
  obtain ⟨blocks',hs,hli⟩ := hi.sound.kfree hmem hl hfr
  refine ⟨blocks',hs,?_,?_,?_,hi.distinct.sublist filter_sublist⟩
  · exact (Nat.add_le_add_right (kfree_stop hfr) _).trans hi.bounded
  · intro x hx hlx
    obtain ⟨hne,hx',hl',-⟩ := (hli x _).mp ⟨hx,hlx,rfl⟩
    obtain ⟨c,hc,hpc⟩ := hi.owner x hx' hl'
    refine ⟨c,mem_filter.mpr ⟨hc,decide_eq_true ?_⟩,hpc⟩
    exact fun heq => hne (Nat.add_right_cancel (hpc.symm.trans heq))
  intro c hc
  obtain ⟨hc,hne⟩ := mem_filter.mp hc
  obtain ⟨x,t,hpc,hlx,hle⟩ := hi.served c hc
  refine ⟨x,t,hpc,(hli x t).mpr ⟨?_,hlx⟩,hle⟩
  rintro rfl
  exact of_decide_eq_true hne hpc

lemma kzalloc_stop {large : Nat} (hal : kzalloc cfg cpu frames large size h = some (p, h')) :
    h'.stop ≤ h.stop + pageSize * frames := by
  obtain ⟨⟨q,g⟩,hint,hr⟩ := map_eq_some_iff.mp hal
  have hle := kmallocInternal_stop hint
  split at hr <;> cases hr <;> exact hle

lemma InWindow.after (hw : InWindow h frames) (hle : h'.stop ≤ h.stop + pageSize * frames) :
    h'.stop + headroom ≤ 2 ^ 64 :=
  (Nat.add_le_add_right hle _).trans hw

lemma HeapInv.freedNull (hi : HeapInv w blocks) :
    HeapInv ⟨w.heap,w.live.filter fun a => a.ptr ≠ 0⟩ blocks := by
  have hall : (w.live.filter fun a => a.ptr ≠ 0) = w.live := by
    refine filter_eq_self.mpr fun a ha => decide_eq_true ?_
    obtain ⟨b,s,hp,-⟩ := hi.served a ha
    rw [hp]
    exact (Nat.add_pos_right b (by decide)).ne'
  rw [hall]
  exact hi

lemma HeapInv.step {e : HeapCall} (hi : HeapInv w blocks) (hmd : e.Made w)
    (hstep : heapStep cfg w e = some w') : ∃ blocks', HeapInv w' blocks' := by
  cases e with
  | kmalloc =>
    obtain ⟨⟨p,h'⟩,hal,rfl⟩ := map_eq_some_iff.mp hstep
    refine hi.handOut (hi.sound.kmalloc hmd.1 hal) (hmd.2.after ?_)
    obtain ⟨⟨q,g⟩,hint,hr⟩ := map_eq_some_iff.mp hal
    have hle := kmallocInternal_stop hint
    split at hr <;> cases hr <;> exact hle
  | kzalloc =>
    obtain ⟨⟨p,h'⟩,hal,rfl⟩ := map_eq_some_iff.mp hstep
    exact hi.handOut (hi.sound.kzalloc hmd.1 hal) (hmd.2.after (kzalloc_stop hal))
  | kfree =>
    obtain ⟨h',hfr,rfl⟩ := map_eq_some_iff.mp hstep
    obtain rfl | ⟨a,ha,rfl⟩ := hmd
    · cases hfr
      exact ⟨blocks,hi.freedNull⟩
    exact hi.freed ha hfr
  | write addr v =>
    cases hstep
    exact ⟨blocks,hi.sound.memset addr v 1,hi.bounded,hi.owner,hi.served,hi.distinct⟩

lemma sound_nil (hpos : 0 < h.base) (halg : 16 ∣ h.base) (hcur : h.base = h.current)
    (hft : h.current ≤ h.stop) (hla : h.lastBlock = 0) (hls : ∀ bkt, h.freeLists bkt = [])
    (hmag : ∀ id cls, h.mag id cls = []) : Sound h [] := by
  have hnil : ∀ b, b ∉ ([] : List Nat) := fun _ => not_mem_nil
  refine ⟨⟨⟨hpos,halg,hcur,fun b hb => absurd hb (hnil b),hft⟩,trivial,hla⟩,
    fun b hb => absurd hb (hnil b),List.IsChain.nil,⟨fun bkt b => ?_,fun bkt => ?_⟩,
    ⟨fun b hb => absurd hb.1 (hnil b),fun id cls b hb => ?_,fun id cls => ?_,
      fun b id id' cls cls' hb _ => ?_⟩⟩
  · rw [hls bkt]
    exact ⟨fun hb => absurd hb (hnil b),fun hb => absurd hb.1.1 (hnil b)⟩
  · rw [hls bkt]
    exact nodup_nil
  · rw [hmag id cls] at hb
    cases hnil b hb
  · rw [hmag id cls]
    exact nodup_nil
  rw [hmag id cls] at hb
  cases hnil b hb

lemma Booted.inv (hboot : Booted cfg w) : HeapInv w [] := by
  obtain ⟨hli,hdr,mem,frames,hinit⟩ := hboot
  have hlow := cfg.start_low
  unfold kheapInit at hinit
  dsimp only at hinit
  split at hinit
  · obtain ⟨heap,live⟩ := w
    cases hinit
    cases hli
    refine ⟨sound_nil cfg.start_pos (Nat.dvd_trans (by decide) cfg.start_aligned) rfl
      le_self_add rfl (fun _ => rfl) fun _ _ => rfl,?_,?_,?_,List.Pairwise.nil⟩
    · simp only [headroom,pageSize] at *
      omega
    · exact fun b hb _ => absurd hb not_mem_nil
    exact fun a ha => absurd ha not_mem_nil
  cases hinit

lemma HeapRun.inv (hr : HeapRun cfg w) : ∃ blocks, HeapInv w blocks := by
  refine Reach.invariant (P := fun w => ∃ blocks, HeapInv w blocks)
    (fun w hw => ⟨[],hw.inv⟩) ?_ hr
  rintro w e w' ⟨blocks,hi⟩ ⟨hmd,hstep⟩
  exact hi.step hmd hstep

theorem heap_well_formed (cfg : KheapConfig) {w : HeapWorld} (hr : HeapRun cfg w) :
    ∃ blocks, WellFormed w blocks := by
  obtain ⟨blocks,hi⟩ := hr.inv
  exact ⟨blocks,hi.wellFormed⟩

instance (w : HeapWorld) (e : HeapCall) : Decidable (e.Made w) :=
  match e with
  | .kmalloc _ _ _ | .kzalloc _ _ _ => inferInstanceAs (Decidable (_ < _ ∧ _ ≤ _))
  | .kfree _ ptr => inferInstanceAs (Decidable (ptr = 0 ∨ ∃ a ∈ w.live, a.ptr = ptr))
  | .write addr _ =>
    inferInstanceAs (Decidable (∃ a ∈ w.live, a.ptr ≤ addr ∧ addr < a.ptr + a.size))

def heapCalls (cfg : KheapConfig) (w : HeapWorld) (calls : List HeapCall) : Option HeapWorld :=
  calls.foldlM (fun w e => if e.Made w then heapStep cfg w e else none) w

lemma HeapRun.calls (hr : HeapRun cfg w) {calls : List HeapCall}
    (hc : heapCalls cfg w calls = some w') : HeapRun cfg w' := by
  refine Reach.foldlM (fun u e t h => ?_) hr hc
  exact ite_none_right_eq_some.mp h

def bootedHeap (cfg : KheapConfig) : Option HeapWorld :=
  (kheapInit cfg (fun _ => ⟨0,0,0⟩) (fun _ => 0) 1).map fun h => ⟨h,[]⟩

def carve (cfg : KheapConfig) : List HeapCall :=
  [.kmalloc (some 0) 0 100,.kmalloc (some 0) 0 200,.kzalloc (some 0) 0 100,
    .kfree (some 0) (cfg.start + 176),.kmalloc (some 0) 0 64,.write (cfg.start + 176) 7,
    .kfree none (cfg.start + 176),.kmalloc (some 0) 0 30,.kfree (some 0) (cfg.start + 176)]

theorem heap_well_formed_carved : ∃ w, (bootedHeap x8664).bind (heapCalls x8664 · (carve x8664)) =
      some w ∧ w.live.length = 2 ∧ ∃ blocks, WellFormed w blocks := by
  have hsome : (((bootedHeap x8664).bind (heapCalls x8664 · (carve x8664))).map fun w =>
      w.live.length) = some 2 := by decide +kernel
  obtain ⟨w,hw,hlen⟩ := map_eq_some_iff.mp hsome
  obtain ⟨u,hu,hrun⟩ := bind_eq_some_iff.mp hw
  obtain ⟨h,hinit,rfl⟩ := map_eq_some_iff.mp hu
  exact ⟨w,hw,hlen,heap_well_formed x8664 (HeapRun.calls (.start ⟨rfl,_,_,_,hinit⟩) hrun)⟩

end B1nix.Kheap
