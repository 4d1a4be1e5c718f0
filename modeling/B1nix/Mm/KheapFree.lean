import B1nix.Mm.Kheap

namespace B1nix.Kheap

open Function Tiling List KheapState Option

structure Open (live : Nat → Nat → Prop) (h : KheapState) (pre mid post : List Nat) : Prop where
  shape : Shape h (pre ++ (mid ++ post))
  classes : ∀ b ∈ pre ++ post, h.Live b ∨ h.Free b ∨ h.Cached b
  free : ∀ b ∈ mid, h.Free b
  left : pre.IsChain (Apart h)
  right : post.IsChain (Apart h)
  listed : Listed h fun b => b ∈ pre ++ post ∧ h.Free b
  parked : Parked h fun b => b ∈ pre ++ post ∧ h.Cached b
  live : ∀ b s, LiveBlock h (pre ++ post) b s ↔ live b s

section Lists

variable {h : KheapState} {free : Nat → Prop} {b : Nat}

lemma Listed.erase (hl : Listed h free) (bkt : Nat) (hb : sizeToBucket (h.size b) = bkt) :
    Listed (h.setList bkt ((h.freeLists bkt).erase b)) fun x => free x ∧ x ≠ b := by
  refine ⟨fun k x => ?_,fun k => ?_⟩
  · obtain rfl | hk := eq_or_ne k bkt
    · simp only [setList,update_self]
      rw [(hl.nodup k).mem_erase_iff,hl.mem_iff]
      exact ⟨fun hx => ⟨⟨hx.2.1,hx.1⟩,hx.2.2⟩,fun hx => ⟨hx.1.2,hx.1.1,hx.2⟩⟩
    simp only [setList,update_of_ne hk]
    rw [hl.mem_iff]
    refine ⟨fun hx => ⟨⟨hx.1,?_⟩,hx.2⟩,fun hx => ⟨hx.1.1,hx.2⟩⟩
    rintro rfl
    exact hk (hx.2.symm.trans hb)
  obtain rfl | hk := eq_or_ne k bkt
  · simp only [setList,update_self]
    exact (hl.nodup k).erase b
  simp only [setList,update_of_ne hk]
  exact hl.nodup k

lemma Listed.push (hl : Listed h free) (hb : ¬ free b) : Listed (h.pushFree b) fun x => free x ∨ x = b := by
  have hse : (h.pushFree b).freeLists (sizeToBucket (h.size b)) =
      b :: h.freeLists (sizeToBucket (h.size b)) := update_self ..
  have hot : ∀ k ≠ sizeToBucket (h.size b), (h.pushFree b).freeLists k = h.freeLists k :=
    fun k hk => update_of_ne hk ..
  refine ⟨fun k x => ?_,fun k => ?_⟩
  · obtain rfl | hk := eq_or_ne k (sizeToBucket (h.size b))
    · rw [hse,mem_cons,hl.mem_iff]
      constructor
      · rintro (rfl | hx)
        · exact ⟨.inr rfl,rfl⟩
        exact ⟨.inl hx.1,hx.2⟩
      rintro ⟨hx | rfl,hs⟩
      · exact .inr ⟨hx,hs⟩
      exact .inl rfl
    rw [hot k hk,hl.mem_iff]
    refine ⟨fun hx => ⟨.inl hx.1,hx.2⟩,?_⟩
    rintro ⟨hx | rfl,hs⟩
    · exact ⟨hx,hs⟩
    cases hk hs.symm
  by_cases hk : k = sizeToBucket (h.size b)
  · subst hk
    rw [hse]
    exact nodup_cons.mpr ⟨fun hmem => hb ((hl.mem_iff ..).mp hmem).1,hl.nodup _⟩
  rw [hot k hk]
  exact hl.nodup k

lemma Listed.unlink (hl : Listed h free) (hb : free b) :
    bucketUnlink b h = some (h.setList (sizeToBucket (h.size b))
      ((h.freeLists (sizeToBucket (h.size b))).erase b)) :=
  if_pos ((hl.mem_iff _ _).mpr ⟨hb,rfl⟩)

end Lists

section Merge

variable {live : Nat → Nat → Prop} {h : KheapState} {pre mid mid' post blocks : List Nat}
  {a b c after stop : Nat}

lemma Open.unlink (ho : Open live h pre mid post) (pre' mid' post' : List Nat) (hfe : h.Free a)
    (hsa : pre' ++ (mid' ++ post') = pre ++ (mid ++ post))
    (hmem : ∀ x, x ∈ pre ++ post ↔ x ∈ pre' ++ post' ∨ x = a) (hout : a ∉ pre' ++ post')
    (hmid : ∀ x ∈ mid', x ∈ mid ∨ x = a) (hlf : pre'.IsChain (Apart h)) (hrt : post'.IsChain (Apart h)) :
    ∃ h', bucketUnlink a h = some h' ∧ h'.hdr = h.hdr ∧ Open live h' pre' mid' post' := by
  have ha : a ∈ pre ++ post := (hmem a).mpr (.inr rfl)
  refine ⟨_,ho.listed.unlink ⟨ha,hfe⟩,rfl,?_⟩
  have hin : ∀ x, x ∈ pre' ++ post' → x ∈ pre ++ post := fun x hx => (hmem x).mpr (.inl hx)
  refine ⟨?_,fun x hx => ho.classes x (hin x hx),?_,hlf,hrt,?_,?_,?_⟩
  · rw [hsa]
    exact ho.shape.congr (fun _ _ => rfl) (fun _ _ => rfl) rfl rfl le_rfl rfl
  · intro x hx
    obtain hx | rfl := hmid x hx
    · exact ho.free x hx
    exact hfe
  · refine (ho.listed.erase _ rfl).congr (fun x => ?_) (fun _ _ => rfl) rfl
    rw [hmem x]
    constructor
    · rintro ⟨hx,hf⟩
      exact ⟨⟨.inl hx,hf⟩,ne_of_mem_of_not_mem hx hout⟩
    rintro ⟨⟨hx | rfl,hf⟩,hne⟩
    · exact ⟨hx,hf⟩
    cases hne rfl
  · refine ho.parked.congr (fun x => ?_) (fun _ _ => rfl) rfl
    rw [hmem x]
    constructor
    · rintro ⟨hx,hf⟩
      exact ⟨.inl hx,hf⟩
    rintro ⟨hx | rfl,hf⟩
    · exact ⟨hx,hf⟩
    cases free_not_cached hfe hf
  intro x s
  rw [← ho.live x s,LiveBlock,LiveBlock,hmem x]
  constructor
  · rintro ⟨hx,hf⟩
    exact ⟨.inl hx,hf⟩
  rintro ⟨hx | rfl,hf⟩
  · exact ⟨hx,hf⟩
  cases live_not_free hf.1 hfe

variable {h' : KheapState} {cfg : KheapConfig}

lemma Open.congr (ho : Open live h pre mid post) (hsh : Shape h' (pre ++ (mid' ++ post)))
    (hmid : mid' ⊆ mid) (hmg : ∀ x ∈ pre ++ (mid' ++ post), h'.magic x = h.magic x)
    (hsz : ∀ x ∈ pre ++ post, h'.size x = h.size x) (hls : h'.freeLists = h.freeLists)
    (hmag : h'.mag = h.mag) : Open live h' pre mid' post := by
  have hrs : ∀ x ∈ pre ++ post, h'.magic x = h.magic x := by
    intro x hx
    refine hmg x ?_
    obtain hx | hx := mem_append.mp hx
    · exact mem_append_left _ hx
    exact mem_append_right _ (mem_append_right _ hx)
  refine ⟨hsh,?_,?_,?_,?_,?_,?_,?_⟩
  · intro x hx
    rw [KheapState.Live,KheapState.Free,KheapState.Cached,hrs x hx]
    exact ho.classes x hx
  · intro x hx
    rw [KheapState.Free,hmg x (mem_append_right _ (mem_append_left _ hx))]
    exact ho.free x (hmid hx)
  · exact isChain_congr ho.left fun x hx hf =>
      (hrs x (mem_append_left _ hx)).symm.trans hf
  · exact isChain_congr ho.right fun x hx hf =>
      (hrs x (mem_append_right _ hx)).symm.trans hf
  · refine ho.listed.congr (fun x => ?_) (fun x hx => hsz x hx.1) hls
    exact and_congr_right fun hx => by rw [KheapState.Free,hrs x hx]; rfl
  · refine ho.parked.congr (fun x => ?_) (fun x hx => hsz x hx.1) hmag
    exact and_congr_right fun hx => by rw [KheapState.Cached,hrs x hx]; rfl
  · intro x s
    rw [← ho.live x s]
    exact and_congr_right fun hx => by rw [KheapState.Live,hrs x hx,hsz x hx]; rfl

lemma absorb_size (after : Nat) : (absorb a b after h).size =
    update (update h.size a (h.size a + h.width b)) b junkHeader.size := by
  have : (absorb a b after h).size = update
      ((h.setSize a (h.size a + h.width b)).retag a after).size b junkHeader.size :=
    setHdr_size _ b junkHeader
  rw [this,retag_size,setSize_size]

lemma absorb_magic (after : Nat) : (absorb a b after h).magic = update h.magic b junkHeader.magic := by
  have : (absorb a b after h).magic = update
      ((h.setSize a (h.size a + h.width b)).retag a after).magic b junkHeader.magic :=
    setHdr_magic _ b junkHeader
  rw [this,retag_magic,setSize_magic]

lemma Geometry.pair_notin (hg : Geometry h (pre ++ a :: b :: post)) :
    b ∉ pre ++ a :: post ∧ a ∉ pre ++ post := by
  have ha := hg.notin
  rw [append_cons] at hg
  have hb := hg.notin
  rw [append_cons]
  refine ⟨fun h => (mem_append.mp h).elim hb.1 hb.2,fun h => ?_⟩
  exact (mem_append.mp h).elim ha.1 fun h => ha.2 (.tail b h)

lemma Geometry.merge (hg : Geometry h (pre ++ a :: b :: post)) :
    Geometry (h.setSize a (h.size a + h.width b)) (pre ++ a :: post) := by
  have hpre := hg.notin.1
  have hpo : a ∉ post := fun ha => hg.notin.2 (.tail b ha)
  have hsz := setSize_size h a (h.size a + h.width b)
  have hot : ∀ x, x ≠ a → (h.setSize a (h.size a + h.width b)).size x = h.size x := by
    intro x hx
    rw [hsz,update_of_ne hx]
  have hse : (h.setSize a (h.size a + h.width b)).size a = h.size a + h.width b := by
    rw [hsz,update_self]
  refine { hg with tiles := ?_, sized := ?_ }
  · refine Tiles.replace [a,b] [a] hg.tiles ?_ ?_ ?_
    · exact fun x hx => width_congr (hot x (ne_of_mem_of_not_mem hx hpre))
    · exact fun x hx => width_congr (hot x (ne_of_mem_of_not_mem hx hpo))
    rintro q r ⟨rfl,rfl,rfl⟩
    have hwd : (h.setSize a (h.size a + h.width (a + h.width a))).width a =
        h.width a + h.width (a + h.width a) :=
      (congrArg (headerSize + ·) hse).trans (add_assoc ..).symm
    exact ⟨rfl,(congrArg (a + ·) hwd).trans (add_assoc ..).symm⟩
  have ha := hg.sized a (by simp)
  have hb := hg.sized b (by simp)
  intro x hx
  obtain rfl | hxa := eq_or_ne x a
  · rw [hse]
    exact ⟨Nat.add_pos_left ha.1 _,Nat.dvd_add ha.2 (Nat.dvd_add (by decide) hb.2)⟩
  rw [hot x hxa]
  refine hg.sized x ?_
  obtain hx | hx := mem_append.mp hx
  · exact mem_append_left _ hx
  exact mem_append_right _ (mem_cons_of_mem a (.tail b ((mem_cons.mp hx).resolve_left hxa)))

lemma Shape.absorb (hs : Shape h (pre ++ a :: b :: post))
    (haf : after = b + h.width b) : Shape (absorb a b after h) (pre ++ a :: post) := by
  have hnx := hs.toGeometry.after_cons.1
  have hpre := hs.toGeometry.notin.1
  have hpo : a ∉ post := fun ha => hs.toGeometry.notin.2 (.tail b ha)
  have hsz := setSize_size h a (h.size a + h.width b)
  have htag := setSize_tag h a (h.size a + h.width b)
  obtain ⟨htp,hta,-,htq⟩ := tags_append.mp hs.tags
  have hmrg : Shape ((h.setSize a (h.size a + h.width b)).retag a after) (pre ++ a :: post) := by
    refine hs.toGeometry.merge.retag (v := h.size b) ?_ ?_ ?_ ?_
    · rw [hsz,htag]
      refine tags_append.mpr ⟨htp.congr (update_of_notin hpre) fun _ _ => rfl,?_,trivial⟩
      rw [tagAfter_congr 0 (update_of_notin hpre)]
      exact hta
    · rw [hsz,htag]
      exact htq.congr (update_of_notin hpo) fun _ _ => rfl
    · intro x hx
      have hla : h.lastBlock = _ := hs.last
      rw [getLast?_append,getLast?_cons,getLast?_cons,mem_def.mp hx] at hla
      exact hla
    have hse : (h.setSize a (h.size a + h.width b)).size a = h.size a + h.width b := by
      rw [hsz,update_self]
    have hwd : (h.setSize a (h.size a + h.width b)).width a =
        headerSize + (h.size a + h.width b) := congrArg (headerSize + ·) hse
    have hwa : h.width a = headerSize + h.size a := rfl
    omega
  have hnot := hs.toGeometry.pair_notin.1
  refine hmrg.congr ?_ ?_ rfl rfl le_rfl rfl
  · intro x hx
    exact (congrFun (setHdr_size _ b junkHeader) x).trans (update_of_notin hnot x hx)
  intro x hx
  exact (congrFun (setHdr_tag _ b junkHeader) x).trans (update_of_notin hnot x hx)

lemma Open.absorb (ho : Open live h pre [a,b] post)
    (haf : after = b + h.width b) : Open live (absorb a b after h) pre [a] post := by
  obtain ⟨hb,ha⟩ := ho.shape.toGeometry.pair_notin
  obtain ⟨-,-,-,hls,hmag⟩ := retag_frame after
  refine ho.congr (ho.shape.absorb haf) (by simp) ?_ ?_ hls hmag
  · rw [absorb_magic]
    exact update_of_notin hb
  intro x hx
  have hxb : x ≠ b := by
    rintro rfl
    refine hb (mem_append.mpr ?_)
    exact (mem_append.mp hx).imp_right (mem_cons_of_mem a)
  rw [absorb_size,update_of_ne hxb]
  exact update_of_notin ha x hx

section

variable (ho : Open live h pre [b] post)

include ho

lemma Open.coalesceLeft :
    ∃ b' h' pre', Kheap.coalesceLeft b h = some (b', h') ∧ Open live h' pre' [b'] post ∧
      ∀ x ∈ pre'.getLast?, ¬ h'.Free x := by
  unfold Kheap.coalesceLeft
  obtain ⟨rfl,htag⟩ | ⟨pre',a,rfl,htag,hb,hbase⟩ := ho.shape.before
  · refine ⟨b,h,[],if_neg ?_,ho,fun x hx => by cases hx⟩
    exact fun hc => Nat.lt_irrefl 0 (htag ▸ hc.1)
  have hwd : h.width a = headerSize + h.size a := rfl
  have htag' : (h.hdr b).prevSize = h.size a := htag
  have hprev : b - headerSize - (h.hdr b).prevSize = a := by omega
  have hsized := ho.shape.sized a (by simp)
  rw [hprev]
  by_cases hfe : h.Free a
  · have hgeo := ho.shape.toGeometry
    rw [append_assoc] at hgeo
    have hnot : a ∉ pre' ++ post := hgeo.pair_notin.2
    obtain ⟨h',hun,hhdr,ho'⟩ := ho.unlink pre' [a,b] post hfe
      (by simp) (fun x => by grind) hnot (by simp)
      (isChain_append.mp ho.left).1 ho.right
    have hmg : ∀ x, h'.Free x → h.Free x := by
      intro x hx
      rw [KheapState.Free,magic,hhdr] at hx
      exact hx
    rw [if_pos ⟨htag' ▸ hsized.1,hbase,hfe⟩,hun]
    refine ⟨_,_,pre',rfl,ho'.absorb ?_,?_⟩
    · have hnx := ho'.shape.toGeometry.after_cons.1
      have hwa : h'.width a = headerSize + (h'.hdr a).size := rfl
      have hwb : h'.width b = headerSize + (h'.hdr b).size := rfl
      omega
    intro x hx hf
    refine (isChain_append.mp ho.left).2.2 x hx a rfl ⟨hmg x ?_,hfe⟩
    have hxb : x ≠ b := by
      rintro rfl
      exact ho'.shape.toGeometry.pair_notin.1
        (mem_append_left _ (mem_of_mem_getLast? hx))
    have hsa := congrFun (absorb_magic (h := h') (a := a) (b := b)
      (a + headerSize + ((h'.hdr a).size + (headerSize + (h'.hdr b).size)))) x
    rw [update_of_ne hxb] at hsa
    exact hsa.symm.trans hf
  refine ⟨b,h,pre' ++ [a],if_neg fun hc => hfe hc.2.2,ho,?_⟩
  intro x hx
  rw [getLast?_append] at hx
  cases hx
  exact hfe

lemma Open.coalesceRight (hlf : ∀ x ∈ pre.getLast?, ¬ h.Free x) :
    ∃ h' post', Kheap.coalesceRight b h = some h' ∧ Open live h' pre [b] post' ∧
      (∀ x ∈ pre.getLast?, ¬ h'.Free x) ∧ ∀ x ∈ post'.head?, ¬ h'.Free x := by
  unfold Kheap.coalesceRight
  have hwd : b + headerSize + (h.hdr b).size = b + h.width b := add_assoc ..
  rw [hwd]
  cases post with
  | nil =>
    have htop := ho.shape.toGeometry.after_nil
    refine ⟨h,[],if_neg fun hc => ?_,ho,hlf,fun x hx => by cases hx⟩
    omega
  | cons c post =>
    obtain ⟨hc,hlt⟩ := ho.shape.toGeometry.after_cons
    rw [← hc]
    by_cases hfe : h.Free c
    · have hgeo := ho.shape.toGeometry
      have hnotc := hgeo.pair_notin.1
      have hnot : c ∉ pre ++ post := fun hx => hnotc
        (mem_append.mpr ((mem_append.mp hx).imp_right (mem_cons_of_mem b)))
      obtain ⟨h',hun,hhdr,ho'⟩ := ho.unlink pre [b,c] post hfe
        (by simp) (fun x => by grind) hnot (by simp)
        ho.left (isChain_cons.mp ho.right).2
      have hmg : ∀ x, x ≠ c → ∀ after, (Kheap.absorb b c after h').Free x → h.Free x := by
        intro x hx after hf
        rw [KheapState.Free,absorb_magic,update_of_ne hx] at hf
        rw [KheapState.Free,magic,← hhdr]
        exact hf
      rw [if_pos ⟨hlt,hfe⟩,hun]
      refine ⟨_,post,rfl,ho'.absorb (add_assoc ..),?_,?_⟩
      · intro x hx hf
        have hxc : x ≠ c := by
          rintro rfl
          exact hnot (mem_append_left _ (mem_of_mem_getLast? hx))
        exact hlf x hx (hmg x hxc _ hf)
      intro x hx hf
      have hxc : x ≠ c := by
        rintro rfl
        exact hnot (mem_append_right _ (mem_of_mem_head? hx))
      exact (isChain_cons.mp ho.right).1 x hx ⟨hfe,hmg x hxc _ hf⟩
    refine ⟨h,c :: post,if_neg fun hcd => hfe hcd.2,ho,hlf,?_⟩
    intro x hx
    cases hx
    exact hfe

omit ho in
lemma Shape.post_nil (hs : Shape h (pre ++ b :: post)) (hla : h.lastBlock = b) : post = [] := by
  obtain rfl | ⟨post',x,rfl⟩ := eq_nil_or_concat post
  · rfl
  have hx := hs.last
  rw [concat_eq_append,← cons_append,← append_assoc,getLast?_append,hla] at hx
  have hb := hs.toGeometry.notin.2
  rw [concat_eq_append] at hb
  cases hb (mem_append_right _ (mem_singleton.mpr hx))

omit ho in
lemma evict_mag {lo hi : Nat} (hbl : ∀ id cls, ∀ x ∈ h.mag id cls, x + h.width x ≤ lo) :
    (kheapMagEvictRange cfg lo hi h).mag = h.mag := by
  funext id cls
  simp only [kheapMagEvictRange]
  split
  · refine filter_eq_self.mpr fun x hx => decide_eq_true fun hov => ?_
    have hle := hbl id cls x hx
    have hwd : x + h.width x = x + headerSize + (h.hdr x).size := (add_assoc ..).symm
    omega
  rfl

omit ho in
lemma Shape.truncate (hs : Shape h (pre ++ [b])) (hsp : b + headerSize < stop)
    (halg : 16 ∣ stop) (hsz : h'.size = update h.size b (stop - b - headerSize))
    (htag : h'.tag = h.tag) (hbase : h'.base = h.base) (hcur : h'.current = stop)
    (hend : h'.stop = stop) (hla : h'.lastBlock = h.lastBlock) : Shape h' (pre ++ [b]) := by
  have hb := hs.toGeometry.notin.1
  have hse : h'.size b = stop - b - headerSize := by rw [hsz,update_self]
  have hot : ∀ x ∈ pre, h'.size x = h.size x := hsz ▸ update_of_notin hb
  refine ⟨⟨hbase ▸ hs.base_pos,hbase ▸ hs.base_aligned,?_,?_,?_⟩,?_,hla.trans hs.last⟩
  · obtain ⟨q,hpre,rfl,-⟩ := tiles_append.mp hs.tiles
    rw [hbase,hcur]
    refine tiles_append.mpr ⟨b,hpre.congr fun x hx => width_congr (hot x hx),rfl,?_⟩
    have hwd : h'.width b = headerSize + h'.size b := rfl
    show b + h'.width b = stop
    omega
  · intro x hx
    obtain hx | hx := mem_append.mp hx
    · rw [hot x hx]
      exact hs.sized x (mem_append_left _ hx)
    obtain rfl := mem_singleton.mp hx
    have hxa := hs.toGeometry.aligned.2 x (by simp)
    rw [hse]
    exact ⟨by omega,Nat.dvd_sub (Nat.dvd_sub halg hxa) (by decide)⟩
  · rw [hcur,hend]
  obtain ⟨hpre,htb,-⟩ := tags_append.mp hs.tags
  refine tags_append.mpr ⟨hpre.congr hot fun x _ => by rw [htag],?_,trivial⟩
  rw [htag,tagAfter_congr 0 hot]
  exact htb

omit ho in
lemma setSize_of_hdr {g : KheapState} (hhdr : g.hdr = h.hdr) (v : Nat) :
    (g.setSize b v).size = update h.size b v ∧ (g.setSize b v).tag = h.tag ∧
      (g.setSize b v).magic = h.magic := by
  have hsz : g.size = h.size := funext fun x => congrArg (fun f => (f x).size) hhdr
  have htag : g.tag = h.tag := funext fun x => congrArg (fun f => (f x).prevSize) hhdr
  have hmg : g.magic = h.magic := funext fun x => congrArg (fun f => (f x).magic) hhdr
  rw [setSize_size,setSize_tag,setSize_magic,hsz,htag,hmg]
  exact ⟨rfl,rfl,rfl⟩

lemma Open.returnTail (hret : Kheap.returnTail cfg b h = some h') :
    Open live h' pre [b] post ∧ h'.magic = h.magic := by
  unfold Kheap.returnTail at hret
  split at hret
  · next hcd =>
    obtain rfl : post = [] := ho.shape.post_nil hcd.2.1
    split at hret
    · obtain ⟨hle,-,hdvd⟩ := alignUp_spec (b + headerSize + 16) (show 0 < pageSize by decide)
      simp only at hret
      generalize alignUp (b + headerSize + 16) pageSize = freeStart at hret hle hdvd
      split at hret
      · cases hret
        have hmag : (kheapMagEvictRange cfg freeStart h.stop h).mag = h.mag := by
          refine evict_mag fun id cls x hx => ?_
          have hx := (ho.parked.cached id cls x hx).1.1
          rw [append_nil] at hx
          have hso := ho.shape.tiles.sorted
          have := (pairwise_append.mp hso).2.2 x hx b (by simp)
          omega
        obtain ⟨hsz,htag,hmg⟩ := setSize_of_hdr (g := { kheapMagEvictRange cfg freeStart
          h.stop h with stop := freeStart, current := freeStart }) (h := h) rfl
          (freeStart - b - headerSize)
        refine ⟨ho.congr ?_ (List.Subset.refl _) (fun x _ => congrFun hmg x) ?_ rfl hmag,hmg⟩
        · exact ho.shape.truncate (by omega) (Nat.dvd_trans (by decide) hdvd) hsz htag
            rfl rfl rfl rfl
        intro x hx
        rw [append_nil] at hx
        rw [hsz]
        exact update_of_notin ho.shape.toGeometry.notin.1 x hx
      cases hret
      exact ⟨ho,rfl⟩
    cases hret
  cases hret
  exact ⟨ho,rfl⟩

lemma Open.close (hlf : ∀ x ∈ pre.getLast?, ¬ h.Free x)
    (hrt : ∀ x ∈ post.head?, ¬ h.Free x) :
    Sound (h.pushFree b) (pre ++ b :: post) ∧
      ∀ x s, LiveBlock (h.pushFree b) (pre ++ b :: post) x s ↔ live x s := by
  have hb := ho.shape.toGeometry.notin
  have hfe := ho.free b (by simp)
  have hnot : b ∉ pre ++ post := fun hx => (mem_append.mp hx).elim hb.1 hb.2
  have hmem : ∀ x, x ∈ pre ++ b :: post ↔ x ∈ pre ++ post ∨ x = b := by grind
  refine ⟨⟨ho.shape.congr (fun _ _ => rfl) (fun _ _ => rfl) rfl rfl le_rfl rfl,?_,?_,?_,?_⟩,?_⟩
  · intro x hx
    obtain hx | rfl := (hmem x).mp hx
    · exact ho.classes x hx
    exact .inr (.inl hfe)
  · refine isChain_append.mpr ⟨ho.left,isChain_cons.mpr ⟨?_,ho.right⟩,?_⟩
    · exact fun y hy hf => hrt y hy hf.2
    exact fun x hx y _ hf => hlf x hx hf.1
  · refine (ho.listed.push fun hx => hnot hx.1).congr (fun x => ?_) (fun _ _ => rfl) rfl
    rw [hmem x]
    constructor
    · rintro ⟨hx | rfl,hf⟩
      · exact .inl ⟨hx,hf⟩
      exact .inr rfl
    rintro (hx | rfl)
    · exact ⟨.inl hx.1,hx.2⟩
    exact ⟨.inr rfl,hfe⟩
  · refine ho.parked.congr (fun x => ?_) (fun _ _ => rfl) rfl
    rw [hmem x]
    constructor
    · rintro ⟨hx | rfl,hf⟩
      · exact ⟨hx,hf⟩
      cases free_not_cached hfe hf
    exact fun hx => ⟨.inl hx.1,hx.2⟩
  intro x s
  rw [← ho.live x s,LiveBlock,hmem x]
  constructor
  · rintro ⟨hx | rfl,hf⟩
    · exact ⟨hx,hf⟩
    cases live_not_free hf.1 hfe
  exact fun hx => ⟨.inl hx.1,hx.2⟩

end

lemma Sound.open (hs : Sound h (pre ++ b :: post)) (hb : h.Live b) (n : Nat) :
    Open (fun x s => x ≠ b ∧ LiveBlock h (pre ++ b :: post) x s)
      ((h.setMagic b kheapFreedMagic).memset (b + headerSize) junkFree n) pre [b] post := by
  have hnb := hs.toGeometry.notin
  have hnot : b ∉ pre ++ post := fun hx => (mem_append.mp hx).elim hnb.1 hnb.2
  have hin : ∀ x ∈ pre ++ post, x ∈ pre ++ b :: post := fun x hx =>
    mem_append.mpr ((mem_append.mp hx).imp_right (mem_cons_of_mem b))
  have hmem : ∀ x, x ∈ pre ++ post ↔ x ≠ b ∧ x ∈ pre ++ b :: post := by
    intro x
    refine ⟨fun hx => ⟨ne_of_mem_of_not_mem hx hnot,hin x hx⟩,?_⟩
    rintro ⟨hne,hx⟩
    refine mem_append.mpr ((mem_append.mp hx).imp_right fun hx => ?_)
    exact (mem_cons.mp hx).resolve_left hne
  have hsz := setMagic_size h b kheapFreedMagic
  have hmg := setMagic_magic h b kheapFreedMagic
  have hsa : ∀ x ∈ pre ++ post, (h.setMagic b kheapFreedMagic).magic x = h.magic x :=
    hmg ▸ update_of_notin hnot
  generalize hg : h.setMagic b kheapFreedMagic = g at hsz hmg hsa
  have hma : g.Free b := by rw [KheapState.Free,hmg,update_self]
  have hch : ∀ l : List Nat, (∀ x ∈ l, x ∈ pre ++ post) → l.IsChain (Apart h) →
      l.IsChain (Apart (g.memset (b + headerSize) junkFree n)) := fun l hl hc =>
    isChain_congr hc fun x hx => (hsa x (hl x hx)).symm.trans
  have hke : ∀ v, h.magic b ≠ v → ∀ x, (x ∈ pre ++ post ∧ g.magic x = v) ↔
      x ∈ pre ++ b :: post ∧ h.magic x = v := by
    intro v hv x
    refine ⟨fun hx => ⟨hin x hx.1,(hsa x hx.1).symm.trans hx.2⟩,?_⟩
    rintro ⟨hx,hf⟩
    have hx := (hmem x).mpr ⟨fun heq => hv (heq ▸ hf),hx⟩
    exact ⟨hx,(hsa x hx).trans hf⟩
  obtain ⟨hlf,hrt,-⟩ := isChain_append.mp hs.apart
  refine ⟨?_,?_,?_,?_,?_,?_,?_,?_⟩
  · subst hg
    exact hs.toShape.congr (fun x _ => congrFun (setMagic_size h b _) x)
      (fun x _ => congrFun (setMagic_tag h b _) x) rfl rfl le_rfl rfl
  · intro x hx
    have := hs.classes x (hin x hx)
    rw [KheapState.Live,KheapState.Free,KheapState.Cached,← hsa x hx] at this
    exact this
  · intro x hx
    rw [mem_singleton.mp hx]
    exact hma
  · exact hch pre (fun x => mem_append_left _) hlf
  · exact hch post (fun x => mem_append_right _) (isChain_cons.mp hrt).2
  · exact hs.listed.congr (hke _ (live_not_free hb)) (fun x _ => congrFun hsz x)
      (by subst hg; rfl)
  · exact hs.parked.congr (hke _ (live_not_cached hb)) (fun x _ => congrFun hsz x)
      (by subst hg; rfl)
  · intro x s
    constructor
    · rintro ⟨hx,hl,hz⟩
      exact ⟨ne_of_mem_of_not_mem hx hnot,hin x hx,(hsa x hx).symm.trans hl,
        (congrFun hsz x).symm.trans hz⟩
    rintro ⟨hne,hx,hl,hz⟩
    have hx := (hmem x).mpr ⟨hne,hx⟩
    exact ⟨hx,(hsa x hx).trans hl,(congrFun hsz x).trans hz⟩

lemma Sound.lockedFree (hs : Sound h blocks) (hmem : b ∈ blocks) (hb : h.Live b)
    (hfe : Kheap.lockedFree cfg b h = some h') :
    ∃ blocks', Sound h' blocks' ∧ ∀ x s, LiveBlock h' blocks' x s ↔ x ≠ b ∧ LiveBlock h blocks x s := by
  obtain ⟨pre,post,rfl⟩ := append_of_mem hmem
  have hmg : (h.hdr b).magic = kheapMagic := hb
  obtain ⟨b₁,h₁,pre₁,hlf,ho₁,hl₁⟩ := (hs.open hb (h.hdr b).size).coalesceLeft
  obtain ⟨h₂,post₂,hrt,ho₂,hl₂,hr₂⟩ := ho₁.coalesceRight hl₁
  simp only [Kheap.lockedFree,if_pos hmg,hlf,hrt] at hfe
  cases hret : Kheap.returnTail cfg b₁ h₂ with
  | none => rw [hret] at hfe; cases hfe
  | some h₃ =>
    rw [hret] at hfe
    cases hfe
    obtain ⟨ho₃,hsa⟩ := ho₂.returnTail hret
    have hkp : ∀ x, ¬ h₂.Free x → ¬ h₃.Free x := fun x hx hf =>
      hx ((congrFun hsa x).symm.trans hf)
    exact ⟨_,ho₃.close (fun x hx => hkp x (hl₂ x hx)) fun x hx => hkp x (hr₂ x hx)⟩

end Merge

structure Served (h : KheapState) (blocks : List Nat) (h' : KheapState) (blocks' : List Nat)
    (p want : Nat) : Prop where
  sound : Sound h' blocks'
  room : ∃ b s, p = b + headerSize ∧ want ≤ s ∧ (∀ t, ¬ LiveBlock h blocks b t) ∧
    ∀ x t, LiveBlock h' blocks' x t ↔ (x = b ∧ t = s) ∨ LiveBlock h blocks x t

section Magazines

variable {h : KheapState} {cached : Nat → Prop} {b id cls id' cls' : Nat}

lemma setMag_self (l : List Nat) : (h.setMag id cls l).mag id cls = l := by
  simp [KheapState.setMag]

lemma setMag_other (l : List Nat) (hne : ¬ (id' = id ∧ cls' = cls)) :
    (h.setMag id cls l).mag id' cls' = h.mag id' cls' := by
  obtain rfl | hid := eq_or_ne id' id
  · have hcls : cls' ≠ cls := fun hcls => hne ⟨rfl,hcls⟩
    simp [KheapState.setMag,update_of_ne hcls]
  simp [KheapState.setMag,update_of_ne hid]

lemma Parked.one_slot (hp : Parked h cached) (hb : b ∈ h.mag id cls)
    (hb' : b ∈ h.mag id' cls') : id' = id ∧ cls' = cls := by
  have hcls := (hp.cached id cls b hb).2.symm.trans (hp.cached id' cls' b hb').2
  exact ⟨hp.unique b id' id cls' cls hb' hb,(some.inj hcls).symm⟩

lemma Parked.pop (hp : Parked h cached) {rest : List Nat} (hm : h.mag id cls = b :: rest) :
    Parked (h.setMag id cls rest) fun x => cached x ∧ x ≠ b := by
  have hnd := hp.nodup id cls
  rw [hm] at hnd
  have hb : b ∈ h.mag id cls := hm ▸ (.head _)
  have hmem : ∀ x i c, x ∈ (h.setMag id cls rest).mag i c ↔ x ∈ h.mag i c ∧ x ≠ b := by
    intro x i c
    by_cases hsl : i = id ∧ c = cls
    · obtain ⟨rfl,rfl⟩ := hsl
      rw [setMag_self,hm,mem_cons]
      refine ⟨fun hx => ⟨.inr hx,?_⟩,fun hx => hx.1.resolve_left hx.2⟩
      exact ne_of_mem_of_not_mem hx (nodup_cons.mp hnd).1
    rw [setMag_other _ hsl]
    refine ⟨fun hx => ⟨hx,?_⟩,fun hx => hx.1⟩
    rintro rfl
    exact hsl (hp.one_slot hb hx)
  refine ⟨?_,?_,?_,?_⟩
  · rintro x ⟨hx,hne⟩
    obtain ⟨i,c,hsl⟩ := hp.slot x hx
    exact ⟨i,c,(hmem x i c).mpr ⟨hsl,hne⟩⟩
  · intro i c x hx
    obtain ⟨hx,hne⟩ := (hmem x i c).mp hx
    exact ⟨⟨(hp.cached i c x hx).1,hne⟩,(hp.cached i c x hx).2⟩
  · intro i c
    by_cases hsl : i = id ∧ c = cls
    · obtain ⟨rfl,rfl⟩ := hsl
      rw [setMag_self]
      exact (nodup_cons.mp hnd).2
    rw [setMag_other _ hsl]
    exact hp.nodup i c
  intro x i i' c c' hx hx'
  exact hp.unique x i i' c c' ((hmem x i c).mp hx).1 ((hmem x i' c').mp hx').1

lemma Parked.push (hp : Parked h cached) (id : Nat) (hb : ¬ cached b)
    (hcls : magClass (h.size b) = some cls) :
    Parked (h.setMag id cls (b :: h.mag id cls)) fun x => cached x ∨ x = b := by
  have hmem : ∀ x i c, x ∈ (h.setMag id cls (b :: h.mag id cls)).mag i c ↔
      x ∈ h.mag i c ∨ (x = b ∧ i = id ∧ c = cls) := by
    intro x i c
    by_cases hsl : i = id ∧ c = cls
    · obtain ⟨rfl,rfl⟩ := hsl
      rw [setMag_self,or_comm]
      simp
    rw [setMag_other _ hsl]
    exact ⟨.inl,fun hx => hx.resolve_right fun hc => hsl hc.2⟩
  have hnew : ∀ i c, b ∉ h.mag i c := fun i c hx => hb (hp.cached i c b hx).1
  refine ⟨?_,?_,?_,?_⟩
  · rintro x (hx | rfl)
    · obtain ⟨i,c,hsl⟩ := hp.slot x hx
      exact ⟨i,c,(hmem x i c).mpr (.inl hsl)⟩
    exact ⟨id,cls,(hmem x id cls).mpr (.inr ⟨rfl,rfl,rfl⟩)⟩
  · intro i c x hx
    obtain hx | ⟨rfl,rfl,rfl⟩ := (hmem x i c).mp hx
    · exact ⟨.inl (hp.cached i c x hx).1,(hp.cached i c x hx).2⟩
    exact ⟨.inr rfl,hcls⟩
  · intro i c
    by_cases hsl : i = id ∧ c = cls
    · obtain ⟨rfl,rfl⟩ := hsl
      rw [setMag_self]
      exact nodup_cons.mpr ⟨hnew _ _,hp.nodup ..⟩
    rw [setMag_other _ hsl]
    exact hp.nodup i c
  intro x i i' c c' hx hx'
  rcases (hmem x i c).mp hx with hold | ⟨hxb,hi,-⟩ <;>
    obtain hold' | ⟨hxb',hi',-⟩ := (hmem x i' c').mp hx'
  · exact hp.unique x i i' c c' hold hold'
  · exact absurd hold (hxb' ▸ hnew i c)
  · exact absurd hold' (hxb ▸ hnew i' c')
  rw [hi,hi']

end Magazines

section Remark

variable {h h' : KheapState} {blocks : List Nat} {b v cls size : Nat}

lemma Sound.remark (hs : Sound h blocks) (hsz : h'.size = h.size) (htag : h'.tag = h.tag)
    (hmg : h'.magic = update h.magic b v) (hv : v = kheapMagic ∨ v = kheapMagMagic)
    (hbase : h'.base = h.base) (hcur : h'.current = h.current) (hsp : h.stop ≤ h'.stop)
    (hla : h'.lastBlock = h.lastBlock) (hlsd : Listed h' fun x => (x ∈ blocks ∧ h.Free x) ∧ x ≠ b)
    (hpk : Parked h' fun x => x ∈ blocks ∧ h'.Cached x) : Sound h' blocks := by
  have hfe : ∀ x, h'.Free x ↔ h.Free x ∧ x ≠ b := by
    intro x
    rw [KheapState.Free,hmg]
    obtain rfl | hx := eq_or_ne x b
    · refine ⟨fun hf => ?_,fun hx => absurd rfl hx.2⟩
      rcases hv with rfl | rfl <;> simp [kheapMagic,kheapMagMagic,kheapFreedMagic] at hf
    rw [update_of_ne hx]
    exact ⟨fun hf => ⟨hf,hx⟩,fun hf => hf.1⟩
  refine ⟨?_,?_,?_,?_,hpk⟩
  · exact hs.toShape.congr (fun x _ => congrFun hsz x) (fun x _ => congrFun htag x)
      hbase hcur hsp hla
  · intro x hx
    rw [KheapState.Live,KheapState.Free,KheapState.Cached,hmg]
    obtain rfl | hxb := eq_or_ne x b
    · rw [update_self]
      exact hv.imp_right .inr
    rw [update_of_ne hxb]
    exact hs.classes x hx
  · exact isChain_congr hs.apart fun x _ hf => ((hfe x).mp hf).1
  refine hlsd.congr (fun x => ?_) (fun _ _ => rfl) rfl
  rw [hfe x,and_assoc]

lemma magClass_size {s : Nat} (hs : magClass s = some cls) : s = 16 * 2 ^ cls := by
  unfold magClass at hs
  grind

variable {cfg : KheapConfig} {cpu : Option Nat}

lemma magSlot_class {id : Nat} (hsl : magSlot cfg cpu size = some (id, cls)) :
    magClass size = some cls := by
  unfold magSlot at hsl
  split at hsl
  · next cls' id' hcls =>
    split at hsl
    · cases hsl
      exact hcls
    cases hsl
  cases hsl

lemma Sound.magAlloc (hs : Sound h blocks) {p : Nat}
    (hal : kheapMagAlloc cfg cpu size h = some (p, h')) :
    (p = 0 ∧ h' = h) ∨ Served h blocks h' blocks p size := by
  unfold kheapMagAlloc at hal
  split at hal
  · cases hal
    exact .inl ⟨rfl,rfl⟩
  next id cls hsl =>
  split at hal
  · cases hal
    exact .inl ⟨rfl,rfl⟩
  next b rest hmag =>
  split at hal
  · cases hal
    right
    obtain ⟨⟨hmem,hcc⟩,hcls⟩ := hs.parked.cached id cls b (hmag ▸ (.head _))
    have hcs := magSlot_class hsl
    have hmg := setMagic_magic (h.setMag id cls rest) b kheapMagic
    have hsz := setMagic_size (h.setMag id cls rest) b kheapMagic
    have hot : ∀ x, x ≠ b → ((h.setMag id cls rest).setMagic b kheapMagic).magic x =
        h.magic x := by
      intro x hx
      rw [hmg,update_of_ne hx]
      rfl
    have hse : ((h.setMag id cls rest).setMagic b kheapMagic).Live b := by
      rw [KheapState.Live,hmg,update_self]
    refine ⟨?_,b,h.size b,rfl,?_,?_,?_⟩
    · refine hs.remark hsz (setMagic_tag ..) hmg (.inl rfl) rfl rfl
        le_rfl rfl ?_ ?_
      · refine hs.listed.congr (fun x => ?_) (fun _ _ => congrFun hsz _) rfl
        refine ⟨fun hx => hx.1,fun hx => ⟨hx,?_⟩⟩
        rintro rfl
        exact free_not_cached hx.2 hcc
      refine (hs.parked.pop hmag).congr (fun x => ?_) (fun _ _ => congrFun hsz _) rfl
      constructor
      · rintro ⟨hx,hc⟩
        have hne : x ≠ b := by
          rintro rfl
          exact live_not_cached hse hc
        exact ⟨⟨hx,(hot x hne).symm.trans hc⟩,hne⟩
      rintro ⟨⟨hx,hc⟩,hne⟩
      exact ⟨hx,(hot x hne).trans hc⟩
    · exact ((magClass_size hcs).trans (magClass_size hcls).symm).le
    · exact fun t hl => live_not_cached hl.2.1 hcc
    intro x t
    rw [LiveBlock,hsz]
    obtain rfl | hx := eq_or_ne x b
    · constructor
      · exact fun hl => .inl ⟨rfl,hl.2.2.symm⟩
      rintro (⟨-,rfl⟩ | hl)
      · exact ⟨hmem,hse,rfl⟩
      cases live_not_cached hl.2.1 hcc
    rw [KheapState.Live,hot x hx]
    exact ⟨.inr,fun hl => hl.resolve_left fun hb => hx hb.1⟩
  cases hal

lemma Sound.magFree (hs : Sound h blocks) (hmem : b ∈ blocks) (hb : h.Live b)
    (hfr : kheapMagFree cfg cpu b h = some h') :
    Sound h' blocks ∧ ∀ x s, LiveBlock h' blocks x s ↔ x ≠ b ∧ LiveBlock h blocks x s := by
  unfold kheapMagFree at hfr
  split at hfr
  · cases hfr
  next id cls hsl =>
  split at hfr
  · cases hfr
    have hmg := setMagic_magic h b kheapMagMagic
    have hsz := setMagic_size h b kheapMagMagic
    have hcs : magClass ((h.setMagic b kheapMagMagic).size b) = some cls := by
      rw [hsz]
      exact magSlot_class hsl
    have hot : ∀ x, x ≠ b → (h.setMagic b kheapMagMagic).magic x = h.magic x := by
      intro x hx
      rw [hmg,update_of_ne hx]
    have hse : (h.setMagic b kheapMagMagic).Cached b := by rw [KheapState.Cached,hmg,update_self]
    have hnot : ¬ (b ∈ blocks ∧ h.Cached b) := fun hx => live_not_cached hb hx.2
    have hpk : Parked (h.setMagic b kheapMagMagic) fun x => x ∈ blocks ∧ h.Cached x :=
      hs.parked.congr (fun _ => .rfl) (fun x _ => congrFun hsz x) rfl
    constructor
    · refine hs.remark hsz (setMagic_tag ..) hmg (.inr rfl) rfl rfl
        le_rfl rfl ?_ ?_
      · refine hs.listed.congr (fun x => ?_) (fun x _ => congrFun hsz x) rfl
        refine ⟨fun hx => hx.1,fun hx => ⟨hx,?_⟩⟩
        rintro rfl
        exact live_not_free hb hx.2
      refine (hpk.push id hnot hcs).congr (fun x => ?_) (fun _ _ => rfl) rfl
      obtain rfl | hx := eq_or_ne x b
      · exact ⟨fun _ => .inr rfl,fun _ => ⟨hmem,hse⟩⟩
      refine ⟨fun hc => .inl ⟨hc.1,(hot x hx).symm.trans hc.2⟩,fun hc => ?_⟩
      have hc := hc.resolve_right hx
      exact ⟨hc.1,(hot x hx).trans hc.2⟩
    intro x s
    obtain rfl | hx := eq_or_ne x b
    · exact ⟨fun hl => absurd hse (live_not_cached hl.2.1),fun hl => absurd rfl hl.1⟩
    constructor
    · rintro ⟨hin,hl,hz⟩
      exact ⟨hx,hin,(hot x hx).symm.trans hl,(congrFun hsz x).symm.trans hz⟩
    rintro ⟨-,hin,hl,hz⟩
    exact ⟨hin,(hot x hx).trans hl,(congrFun hsz x).trans hz⟩
  cases hfr

end Remark

section Split

variable {h g : KheapState} {pre post : List Nat} {b want tail rest t : Nat}

lemma retag_setSize {after : Nat} (hta : tail ≠ b) (haf : after ≠ b) :
    (h.retag tail after).setSize b want = (h.setSize b want).retag tail after := by
  have hsz : (h.setSize b want).size tail = h.size tail := by rw [setSize_size,update_of_ne hta]
  by_cases hlt : after < h.current
  · rw [retag_inner hlt,retag_inner (h := h.setSize b want) hlt,hsz]
    simp only [KheapState.setSize,KheapState.setPrevSize,KheapState.setHdr,
      update_of_ne haf,update_of_ne haf.symm]
    rw [update_comm haf.symm]
  rw [retag_top hlt,retag_top (h := h.setSize b want) hlt]
  rfl

structure SplitFacts (h g : KheapState) (b tail want rest : Nat) : Prop where
  size : g.size = update (update h.size tail (rest - headerSize)) b want
  tag : g.tag = update h.tag tail want
  magic : g.magic = update h.magic tail kheapFreedMagic
  base : g.base = h.base
  current : g.current = h.current
  stop : g.stop = h.stop
  last : g.lastBlock = h.lastBlock

lemma splitFacts (tail rest : Nat) : SplitFacts h
    ((h.setHdr tail ⟨rest - headerSize,want,kheapFreedMagic⟩).setSize b want)
      b tail want rest := by
  refine ⟨?_,?_,?_,rfl,rfl,rfl,rfl⟩
  · rw [setSize_size,setHdr_size]
  · rw [setSize_tag,setHdr_tag]
  rw [setSize_magic,setHdr_magic]

lemma Geometry.inside_notin (hg : Geometry h (pre ++ b :: post)) (hlo : b < t)
    (hhi : t < b + h.width b) : t ∉ pre ∧ t ∉ post := by
  have hso := pairwise_append.mp hg.tiles.sorted
  refine ⟨fun ht => ?_,fun ht => ?_⟩
  · have := hso.2.2 t ht b (.head _)
    omega
  have := (hg.after.within ht).1
  omega

structure Cut (h : KheapState) (b tail want rest : Nat) : Prop where
  tail : tail = b + headerSize + want
  whole : h.size b = want + rest
  large : headerSize + minSplitPayload ≤ rest
  pos : 0 < want
  aligned : 16 ∣ want

lemma Cut.inside (hc : Cut h b tail want rest) : b < tail ∧ tail < b + h.width b := by
  have hwd : h.width b = headerSize + h.size b := rfl
  have := hc.tail
  have := hc.whole
  have := hc.large
  simp only [headerSize] at *
  omega

lemma Geometry.split (hg : Geometry h (pre ++ b :: post))
    (hf : SplitFacts h g b tail want rest) (hc : Cut h b tail want rest) :
    Geometry g (pre ++ b :: tail :: post) := by
  obtain ⟨hlo,hhi⟩ := hc.inside
  obtain ⟨htpre,htp⟩ := hg.inside_notin hlo hhi
  obtain ⟨hbpre,hbpost⟩ := hg.notin
  have hot : ∀ x, x ≠ b → x ≠ tail → g.size x = h.size x := by
    intro x hxb hxt
    rw [hf.size,update_of_ne hxb,update_of_ne hxt]
  have hb : g.size b = want := by rw [hf.size,update_self]
  have ht : g.size tail = rest - headerSize := by rw [hf.size,update_of_ne hlo.ne',update_self]
  have hsb := hg.sized b (by simp)
  have hlarge := hc.large
  have hsum := hc.whole
  refine ⟨hf.base ▸ hg.base_pos,hf.base ▸ hg.base_aligned,?_,?_,?_⟩
  · rw [hf.base,hf.current]
    refine Tiles.replace [b] [b,tail] hg.tiles ?_ ?_ ?_
    · exact fun x hx => width_congr
        (hot x (ne_of_mem_of_not_mem hx hbpre) (ne_of_mem_of_not_mem hx htpre))
    · exact fun x hx => width_congr
        (hot x (ne_of_mem_of_not_mem hx hbpost) (ne_of_mem_of_not_mem hx htp))
    rintro q r ⟨rfl,rfl⟩
    have hwb : g.width b = headerSize + g.size b := rfl
    have hwt : g.width tail = headerSize + g.size tail := rfl
    have hw : h.width b = headerSize + h.size b := rfl
    have hta := hc.tail
    have hnx : b + g.width b = tail := by omega
    refine ⟨rfl,hnx.symm,?_⟩
    show b + g.width b + g.width (b + g.width b) = b + h.width b
    rw [hnx]
    omega
  · intro x hx
    obtain rfl | hxb := eq_or_ne x b
    · rw [hb]
      exact ⟨hc.pos,hc.aligned⟩
    obtain rfl | hxt := eq_or_ne x tail
    · have hrs : 16 ∣ rest := (Nat.dvd_add_right hc.aligned).mp (hsum ▸ hsb.2)
      simp only [headerSize,minSplitPayload] at *
      omega
    rw [hot x hxb hxt]
    refine hg.sized x ?_
    grind
  rw [hf.current,hf.stop]
  exact hg.fits

lemma Shape.split {after : Nat} (hs : Shape h (pre ++ b :: post))
    (hf : SplitFacts h g b tail want rest) (hc : Cut h b tail want rest)
    (haf : after = tail + headerSize + (rest - headerSize)) :
    Shape (g.retag tail after) (pre ++ b :: tail :: post) := by
  obtain ⟨hlo,hhi⟩ := hc.inside
  obtain ⟨htpre,htpost⟩ := hs.toGeometry.inside_notin hlo hhi
  obtain ⟨hbpre,hbpost⟩ := hs.toGeometry.notin
  have hgeo := hs.toGeometry.split hf hc
  rw [append_cons] at hgeo ⊢
  have hne : tail ≠ b := hlo.ne'
  have hsz : ∀ x ∈ pre, g.size x = h.size x := by
    intro x hx
    rw [hf.size,update_of_ne (ne_of_mem_of_not_mem hx hbpre), update_of_ne (ne_of_mem_of_not_mem hx htpre)]
  obtain ⟨htp,htb,htq⟩ := tags_append.mp hs.tags
  refine hgeo.retag (v := h.size b) ?_ ?_ ?_ ?_
  · rw [append_assoc]
    refine tags_append.mpr ⟨htp.congr hsz ?_,?_,?_,trivial⟩
    · rw [hf.tag]
      exact update_of_notin htpre
    · rw [hf.tag,update_of_ne hne.symm,tagAfter_congr 0 hsz]
      exact htb
    rw [hf.tag,update_self,hf.size,update_self]
  · refine htq.congr ?_ ?_
    · intro x hx
      rw [hf.size,update_of_ne (ne_of_mem_of_not_mem hx hbpost),
        update_of_ne (ne_of_mem_of_not_mem hx htpost)]
    rw [hf.tag]
    exact update_of_notin htpost
  · intro x hx
    have hla := hs.last
    rw [getLast?_append,getLast?_cons,mem_def.mp hx] at hla
    exact hf.last.trans hla
  have ht : g.size tail = rest - headerSize := by rw [hf.size,update_of_ne hne,update_self]
  rw [haf,← ht]
  exact add_assoc ..

lemma Sound.splitOpen {after : Nat} (hs : Sound h (pre ++ b :: post))
    (hb : h.Live b) (hf : SplitFacts h g b tail want rest) (hc : Cut h b tail want rest)
    (hls : g.freeLists = h.freeLists) (hmag : g.mag = h.mag)
    (haf : after = tail + headerSize + (rest - headerSize)) :
    Open (fun x t => (x = b ∧ t = want) ∨ (x ≠ b ∧ LiveBlock h (pre ++ b :: post) x t))
      (g.retag tail after) (pre ++ [b]) [tail] post := by
  obtain ⟨hlo,hhi⟩ := hc.inside
  have hne : tail ≠ b := hlo.ne'
  obtain ⟨htpre,htp⟩ := hs.toGeometry.inside_notin hlo hhi
  obtain ⟨-,-,-,hl,hm⟩ := retag_frame after
  have hbs : pre ++ [b] ++ post = pre ++ b :: post := (append_cons ..).symm
  have hnot : tail ∉ pre ++ b :: post := by
    intro hx
    obtain hx | hx := mem_append.mp hx
    · exact htpre hx
    exact (mem_cons.mp hx).elim hne htp
  have hmg : ∀ x ∈ pre ++ b :: post, (g.retag tail after).magic x = h.magic x := by
    rw [retag_magic,hf.magic]
    exact update_of_notin hnot
  have hsz : ∀ x ∈ pre ++ b :: post, x ≠ b → (g.retag tail after).size x = h.size x := by
    intro x hx hxb
    rw [retag_size,hf.size,update_of_ne hxb]
    exact update_of_notin hnot x hx
  have hse : (g.retag tail after).size b = want := by rw [retag_size,hf.size,update_self]
  obtain ⟨hlf,hrt,hjoin⟩ := isChain_append.mp hs.apart
  rw [← singleton_append] at hrt
  obtain ⟨hone,hrt,-⟩ := isChain_append.mp hrt
  have hpre : (pre ++ [b]).IsChain (Apart h) :=
    isChain_append.mpr ⟨hlf,hone,hjoin⟩
  refine ⟨?_,?_,?_,?_,?_,?_,?_,?_⟩
  · rw [← append_cons]
    exact hs.toShape.split hf hc haf
  · rw [hbs]
    intro x hx
    rw [KheapState.Live,KheapState.Free,KheapState.Cached,hmg x hx]
    exact hs.classes x hx
  · intro x hx
    rw [mem_singleton.mp hx,KheapState.Free,retag_magic,hf.magic,update_self]
  · refine isChain_congr hpre fun x hx hfe => ?_
    exact (hmg x (hbs ▸ mem_append_left _ hx)).symm.trans hfe
  · refine isChain_congr hrt fun x hx hfe => ?_
    exact (hmg x (hbs ▸ mem_append_right _ hx)).symm.trans hfe
  · rw [hbs]
    refine hs.listed.congr (fun x => ?_) (fun x hx => ?_) (hl.trans hls)
    · exact and_congr_right fun hx => by rw [KheapState.Free,hmg x hx]; rfl
    refine hsz x hx.1 ?_
    rintro rfl
    exact live_not_free hb hx.2
  · rw [hbs]
    refine hs.parked.congr (fun x => ?_) (fun x hx => ?_) (hm.trans hmag)
    · exact and_congr_right fun hx => by rw [KheapState.Cached,hmg x hx]; rfl
    refine hsz x hx.1 ?_
    rintro rfl
    exact live_not_cached hb hx.2
  · rw [hbs]
    intro x t
    obtain rfl | hx := eq_or_ne x b
    · have hin : x ∈ pre ++ x :: post := by simp
      constructor
      · exact fun hl => .inl ⟨rfl,hl.2.2.symm.trans hse⟩
      rintro (⟨-,rfl⟩ | hl)
      · exact ⟨hin,(hmg x hin).trans hb,hse⟩
      cases hl.1 rfl
    constructor
    · rintro ⟨hin,hl,hz⟩
      exact .inr ⟨hx,hin,(hmg x hin).symm.trans hl,(hsz x hin hx).symm.trans hz⟩
    rintro (⟨rfl,-⟩ | ⟨-,hin,hl,hz⟩)
    · cases hx rfl
    exact ⟨hin,(hmg x hin).trans hl,(hsz x hin hx).trans hz⟩

lemma Sound.splitBlock (hs : Sound h (pre ++ b :: post)) (hb : h.Live b)
    (hnx : ∀ x ∈ post.head?, ¬ h.Free x) (hpos : 0 < want) (halg : 16 ∣ want) (hle : want ≤ h.size b) :
    ∃ blocks s, Sound (kheapSplitBlock b want h) blocks ∧ want ≤ s ∧
      ∀ x t, LiveBlock (kheapSplitBlock b want h) blocks x t ↔
        (x = b ∧ t = s) ∨ (x ≠ b ∧ LiveBlock h (pre ++ b :: post) x t) := by
  unfold kheapSplitBlock
  dsimp only
  split_ifs with hbig
  · refine ⟨pre ++ b :: post,h.size b,hs,hle,fun x t => ?_⟩
    obtain rfl | hx := eq_or_ne x b
    · constructor
      · exact fun hl => .inl ⟨rfl,hl.2.2.symm⟩
      rintro (⟨-,rfl⟩ | hl)
      · exact ⟨by simp,hb,rfl⟩
      cases hl.1 rfl
    exact ⟨fun hl => .inr ⟨hx,hl⟩,fun hl => (hl.resolve_left fun h => hx h.1).2⟩
  have hrs := (not_or.mp hbig).2
  have hsz : (h.hdr b).size = h.size b := rfl
  have hcut : Cut h b (b + headerSize + want) want ((h.hdr b).size - want) :=
    ⟨rfl,by omega,le_of_not_gt hrs,hpos,halg⟩
  have hlo := hcut.inside.1
  rw [retag_setSize hlo.ne' (by omega)]
  have ho := hs.splitOpen hb (splitFacts ..) hcut rfl rfl rfl
  have hkp : ∀ x ∈ pre ++ b :: post, (((h.setHdr (b + headerSize + want)
      ⟨(h.hdr b).size - want - headerSize,want,kheapFreedMagic⟩).setSize b want).retag
      (b + headerSize + want) (b + headerSize + want + headerSize +
        ((h.hdr b).size - want - headerSize))).magic x = h.magic x := by
    intro x hx
    have hnot := hs.toGeometry.inside_notin hlo hcut.inside.2
    rw [retag_magic,setSize_magic,setHdr_magic]
    refine update_of_ne ?_ ..
    rintro rfl
    obtain hx | hx := mem_append.mp hx
    · exact hnot.1 hx
    exact (mem_cons.mp hx).elim hlo.ne' hnot.2
  obtain ⟨hsd,hli⟩ := ho.close (fun x hx hf => by
    rw [getLast?_append] at hx
    cases hx
    exact live_not_free hb ((hkp b (by simp)).symm.trans hf)) fun x hx hf =>
      hnx x hx ((hkp x (mem_append_right _ (.tail b (mem_of_mem_head? hx)))).symm.trans hf)
  exact ⟨_,want,hsd,le_rfl,hli⟩

end Split

end B1nix.Kheap
