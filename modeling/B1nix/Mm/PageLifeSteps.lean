import B1nix.Mm.PageLife

namespace B1nix.PageLife

open Function List Inode State Option

variable {s : State} {e i : Nat} {x : Inode} {j z left : Nat} {offset newSize : UInt64}

lemma Pages.alloc (h : Pages s) (hbo : s.inodes ⊆ s.bornInodes) (hi : i ∉ s.bornInodes)
    (hx : x.cachedPages = 0) :
    Pages { s.setInode i x with
      inodes := insert i s.inodes, bornInodes := insert i s.bornInodes, holders := i :: s.holders } := by
  have hfr : ∀ j ∈ s.inodes, j ≠ i := fun j hj heq => hi (hbo (heq ▸ hj))
  have hold : ∀ j ∈ s.inodes, (s.setInode i x).inode j = s.inode j := fun j hj =>
    update_of_ne (hfr j hj) ..
  refine { h with resident := ?_, cached := ?_ }
  · intro z hz
    obtain ⟨hli,hhe,hke,j,hj,hown,hkey⟩ := h.resident z hz
    refine ⟨hli,hhe,hke,j,Finset.mem_insert_of_mem hj,hown,?_⟩
    exact (congrArg key (hold j hj)).trans hkey
  intro j hj
  obtain rfl | hj := Finset.mem_insert.mp hj
  · have hze : s.resident.countP (fun z => (s.entry z).inode = some j) = 0 := by
      refine countP_eq_zero.mpr fun z hz => ?_
      obtain ⟨-,-,-,k,hk,hown,-⟩ := h.resident z hz
      simpa [hown] using hfr k hk
    exact ((congrArg cachedPages (update_self j x s.inode)).trans hx).trans
      hze.symm
  exact (congrArg cachedPages (hold j hj)).trans (h.cached j hj)

lemma Inv.alloc (h : Inv s) (hi : i ∉ s.bornInodes) (hx : x.cachedPages = 0) (href : x.refcount = 1) :
    Inv { s.setInode i x with
      inodes := insert i s.inodes, bornInodes := insert i s.bornInodes, holders := i :: s.holders } := by
  have hne : ∀ j ∈ s.inodes, j ≠ i := fun j hj heq => hi (h.refs.born (heq ▸ hj))
  have hnot : i ∉ s.holders ∧ i ∉ s.dirtyList :=
    ⟨fun hmem => hne i (h.refs.held i (.inl hmem)) rfl, fun hmem => hne i (h.refs.held i (.inr hmem)) rfl⟩
  refine ⟨h.pages.alloc h.refs.born hi hx,⟨?_,?_,?_,h.refs.nodup,?_,?_⟩,{ h.walks with }⟩
  · exact Finset.insert_subset_insert i h.refs.born
  · intro j hj
    change (update s.inode i x j).refcount =
      ((i :: s.holders).count j : Int) + s.dirtyList.count j
    obtain rfl | hj := Finset.mem_insert.mp hj
    · rw [update_self,href,count_cons_self,count_eq_zero.mpr hnot.1,count_eq_zero.mpr hnot.2]
      rfl
    rw [update_of_ne (hne j hj),count_cons_of_ne (hne j hj).symm]
    exact h.refs.count j hj
  · intro j hj
    obtain hj | hj := hj
    · obtain rfl | hj := mem_cons.mp hj
      · exact Finset.mem_insert_self ..
      exact Finset.mem_insert_of_mem (h.refs.held j (.inl hj))
    exact Finset.mem_insert_of_mem (h.refs.held j (.inr hj))
  · intro j hj
    obtain ⟨hin,hze,hln⟩ := h.refs.dead j hj
    change j ∈ insert i s.inodes ∧ (update s.inode i x j).refcount = 0 ∧ _
    rw [update_of_ne (hne j hin)]
    refine ⟨Finset.mem_insert_of_mem hin,hze,?_⟩
    change (update s.inode i x j).nlink = 0
    rw [update_of_ne (hne j hin)]
    exact hln
  intro j
  exact (h.refs.borrowed j).trans (count_le_count_cons)

lemma Inv.setInode (h : Inv s) (hkey : x.key = (s.inode i).key)
    (hcc : x.cachedPages = (s.inode i).cachedPages) (hre : x.refcount = (s.inode i).refcount)
    (hnl : i ∈ s.dying ++ s.drained → x.nlink = (s.inode i).nlink) : Inv (s.setInode i x) := by
  refine ⟨h.pages.congr (fun _ => rfl) (fun _ => rfl) (update_view key hkey)
    (update_view cachedPages hcc),{ h.refs with count := ?_, dead := ?_ },{ h.walks with }⟩
  · intro j hj
    exact (update_view refcount hre j).trans (h.refs.count j hj)
  intro j hj
  obtain ⟨hin,hze,hln⟩ := h.refs.dead j hj
  refine ⟨hin,(update_view refcount hre j).trans hze,?_⟩
  change (update s.inode i x j).nlink = 0
  obtain rfl | hji := eq_or_ne j i
  · rw [update_self,hnl hj]
    exact hln
  rw [update_of_ne hji]
  exact hln

lemma Inv.reference (h : Inv s) (holders dirtyList : List Nat) (hi : i ∈ s.inodes)
    (hli : i ∉ s.dying ++ s.drained)
    (hkey : x.key = (s.inode i).key) (hcc : x.cachedPages = (s.inode i).cachedPages)
    (hre : x.refcount = (s.inode i).refcount + 1)
    (hadd : ∀ j, holders.count j + dirtyList.count j =
      s.holders.count j + s.dirtyList.count j + if j = i then 1 else 0)
    (hmono : ∀ j, s.holders.count j ≤ holders.count j) :
    Inv { s.setInode i x with holders, dirtyList } := by
  refine ⟨h.pages.congr (fun _ => rfl) (fun _ => rfl) (update_view key hkey)
    (update_view cachedPages hcc),⟨h.refs.born,?_,?_,h.refs.nodup,?_,?_⟩,{ h.walks with }⟩
  · intro j hj
    have hold := h.refs.count j hj
    have hnew := hadd j
    change (update s.inode i x j).refcount = (holders.count j : Int) + dirtyList.count j
    obtain rfl | hji := eq_or_ne j i
    · rw [if_pos rfl] at hnew
      rw [update_self,hre]
      omega
    rw [if_neg hji] at hnew
    rw [update_of_ne hji]
    omega
  · intro j (hj : j ∈ holders ∨ j ∈ dirtyList)
    by_cases hji : j = i
    · exact hji ▸ hi
    have hnew := hadd j
    rw [if_neg hji] at hnew
    refine h.refs.held j ?_
    rw [← count_pos_iff,← count_pos_iff] at hj ⊢
    omega
  · intro j hj
    have hne : j ≠ i := fun heq => hli (heq ▸ hj)
    change j ∈ s.inodes ∧ (update s.inode i x j).refcount = 0 ∧ (update s.inode i x j).nlink = 0
    rw [update_of_ne hne]
    exact h.refs.dead j hj
  exact fun j => (h.refs.borrowed j).trans (hmono j)

lemma count_joined (l : List Nat) (i j : Nat) :
    (i :: l).count j = l.count j + if j = i then 1 else 0 := by
  simp only [count_cons,beq_iff_eq,eq_comm (a := i)]

lemma Inv.get (h : Inv s) (hen : (Event.get i).Enabled s) : Fine (vfsInodeGet i s) := by
  obtain ⟨hin,hpos⟩ : i ∈ s.inodes ∧ (0 < (s.inode i).refcount ∨ 0 < (s.inode i).nlink) := by
    obtain hhe | ⟨hin,hln⟩ := hen
    · exact ⟨(h.refs.alive hhe).1,.inl (h.refs.alive hhe).2⟩
    exact ⟨hin,.inr hln⟩
  refine ⟨_,?_,h.reference (i :: s.holders) s.dirtyList hin (h.refs.not_dead hpos) (x := { s.inode i with
    refcount := (s.inode i).refcount + 1 }) rfl rfl rfl (fun j => ?_) fun _ => count_le_count_cons⟩
  · rw [vfsInodeGet,derefInode_ok hin]
    rfl
  rw [count_joined]
  omega

lemma Spare.mem (h : s.Spare i) : i ∈ s.holders := count_pos_iff.mp (zero_le.trans_lt h)

section

variable (h : Inv s)

include h

lemma Inv.dereference (hspr : s.Spare i) (hkey : x.key = (s.inode i).key)
    (hcc : x.cachedPages = (s.inode i).cachedPages) (hre : x.refcount = (s.inode i).refcount - 1)
    {dying : List Nat} (hdy : dying = s.dying ∨ dying = i :: s.dying ∧ x.refcount = 0 ∧ x.nlink = 0) :
    Inv { s.setInode i x with holders := s.holders.erase i, dying } := by
  obtain ⟨hin,hpos⟩ := h.refs.alive (Spare.mem hspr)
  have hde := h.refs.not_dead (.inl hpos)
  have hmono : s.dying ⊆ dying := by
    obtain rfl | ⟨rfl,-⟩ := hdy
    · exact List.Subset.refl _
    exact subset_cons_self ..
  refine ⟨h.pages.congr (fun _ => rfl) (fun _ => rfl) (update_view key hkey)
    (update_view cachedPages hcc),⟨h.refs.born,?_,?_,?_,?_,?_⟩,
    h.walks.keep (.inl rfl) hmono rfl (fun _ => .rfl) (fun _ _ => rfl) h.walks.launched⟩
  · intro j hj
    have hold := h.refs.count j hj
    change (update s.inode i x j).refcount = ((s.holders.erase i).count j : Int) + s.dirtyList.count j
    obtain rfl | hji := eq_or_ne j i
    · have hct := count_pos_iff.mpr (Spare.mem hspr)
      rw [update_self,hre,hold,count_erase_self]
      omega
    rw [update_of_ne hji,hold,count_erase_of_ne hji]
  · intro j hj
    exact h.refs.held j (hj.imp mem_of_mem_erase id)
  · obtain rfl | ⟨rfl,-⟩ := hdy
    · exact h.refs.nodup
    exact nodup_cons.mpr ⟨hde,h.refs.nodup⟩
  · intro j hj
    change j ∈ s.inodes ∧ (update s.inode i x j).refcount = 0 ∧ (update s.inode i x j).nlink = 0
    have hcase : j ∈ s.dying ++ s.drained ∨ j = i ∧ x.refcount = 0 ∧ x.nlink = 0 := by
      obtain rfl | ⟨rfl,hze⟩ := hdy
      · exact .inl hj
      obtain heq | hj := mem_cons.mp hj
      · exact .inr ⟨heq,hze⟩
      exact .inl hj
    obtain hold | ⟨rfl,hze⟩ := hcase
    · rw [update_of_ne (ne_of_mem_of_not_mem hold hde)]
      exact h.refs.dead j hold
    rw [update_self]
    exact ⟨hin,hze⟩
  intro j
  obtain rfl | hji := eq_or_ne j i
  · rw [count_erase_self]
    exact Nat.le_sub_one_of_lt hspr
  rw [count_erase_of_ne hji]
  exact h.refs.borrowed j

lemma Inv.put (hspr : s.Spare i) : Fine (vfsInodePut i s) := by
  have hin := (h.refs.alive (Spare.mem hspr)).1
  rw [vfsInodePut,derefInode_ok hin,ok_bind]
  dsimp only
  split
  · rename_i hla
    exact ⟨_,rfl,h.dereference hspr (x := { s.inode i with
      refcount := (s.inode i).refcount - 1 }) rfl rfl rfl (.inr ⟨rfl,hla⟩)⟩
  exact ⟨_,rfl,h.dereference hspr (x := { s.inode i with
    refcount := (s.inode i).refcount - 1 }) rfl rfl rfl (.inl rfl)⟩

lemma Inv.drain (hi : i ∈ s.dying) {owner : Option Walk}
    (how : owner = none ∨ owner = s.owner ∧ ∀ w ∈ s.owner, w.job ≠ .invalidate i)
    (hgo : ∀ z ∈ s.resident, (s.entry z).inode ≠ some i) :
    Inv { s with owner, dying := s.dying.erase i, drained := i :: s.drained } := by
  have hpm : (s.dying.erase i ++ i :: s.drained).Perm (s.dying ++ s.drained) :=
    perm_middle.trans ((perm_cons_erase hi).symm.append_right s.drained)
  refine ⟨{ h.pages with }, ⟨h.refs.born,h.refs.count,h.refs.held,hpm.nodup_iff.mpr h.refs.nodup,?_,?_⟩,
    ⟨?_,?_,?_,h.walks.launched⟩⟩
  · intro j hj
    exact h.refs.dead j (hpm.mem_iff.mp hj)
  · intro j
    refine le_trans ?_ (h.refs.borrowed j)
    obtain rfl | ⟨rfl,-⟩ := how
    · rw [borrowed,borrowed,count_append,count_append]
      exact Nat.add_le_add_right zero_le _
    exact le_rfl
  · intro w hw
    obtain rfl | ⟨rfl,-⟩ := how
    · cases hw
    exact h.walks.todo w hw
  · intro j hj
    obtain rfl | hj := mem_cons.mp hj
    · exact hgo
    exact h.walks.drained j hj
  intro w hw j hjob
  obtain rfl | ⟨rfl,hne⟩ := how
  · cases hw
  obtain ⟨hmem,hall⟩ := h.walks.invalidating w hw j hjob
  have hji : j ≠ i := fun heq => hne w hw (heq ▸ hjob)
  exact ⟨(mem_erase_of_ne hji).mpr hmem,hall⟩

lemma Inv.skip (hen : (Event.skip i).Enabled s) : Fine (skipInvalidate i s) := by
  obtain ⟨hi,hnone,hjob⟩ := hen
  have hin := (h.refs.dead i (mem_append_left _ hi)).1
  refine ⟨_,?_,h.drain hi (.inr ⟨rfl,hjob⟩) fun z hz hown => ?_⟩
  · rw [skipInvalidate,derefInode_ok hin]
    rfl
  rw [h.pages.cached i hin] at hnone
  exact countP_eq_zero.mp hnone z hz (by simpa using hown)

lemma Inv.free (hi : i ∈ s.drained) : Fine (vfsFreeInode i s) := by
  have hde := mem_append_right s.dying hi
  obtain ⟨hin,-,-⟩ := h.refs.dead i hde
  obtain ⟨hhds,hdt⟩ := h.refs.not_held hde
  have hgo := h.walks.drained i hi
  have hpm : (s.dying ++ s.drained).Perm (i :: (s.dying ++ s.drained.erase i)) :=
    ((perm_cons_erase hi).append_left s.dying).trans perm_middle
  have hnd := hpm.nodup_iff.mp h.refs.nodup
  have hstl : ∀ j ∈ s.dying ++ s.drained.erase i, j ∈ s.dying ++ s.drained ∧ j ≠ i := by
    intro j hj
    exact ⟨hpm.mem_iff.mpr (.tail i hj),fun heq => (nodup_cons.mp hnd).1 (heq ▸ hj)⟩
  refine ⟨{ s with inodes := s.inodes.erase i, drained := s.drained.erase i },?_,⟨?_,?_,?_⟩⟩
  · rw [vfsFreeInode,derefInode_ok hin]
    rfl
  · refine { h.pages with resident := ?_, cached := ?_ }
    · intro z hz
      obtain ⟨hli,hhe,hke,j,hj,hown,hkey⟩ := h.pages.resident z hz
      have hne : j ≠ i := fun heq => hgo z hz (heq ▸ hown)
      exact ⟨hli,hhe,hke,j,Finset.mem_erase.mpr ⟨hne,hj⟩,hown,hkey⟩
    intro j hj
    exact h.pages.cached j (Finset.mem_of_mem_erase hj)
  · refine ⟨?_,?_,?_,(nodup_cons.mp hnd).2,?_,h.refs.borrowed⟩
    · exact (Finset.erase_subset i s.inodes).trans h.refs.born
    · intro j hj
      exact h.refs.count j (Finset.mem_of_mem_erase hj)
    · intro j hj
      refine Finset.mem_erase.mpr ⟨?_,h.refs.held j hj⟩
      rintro rfl
      exact hj.elim hhds hdt
    intro j hj
    obtain ⟨hold,hne⟩ := hstl j hj
    obtain ⟨hjin,hrs⟩ := h.refs.dead j hold
    exact ⟨Finset.mem_erase.mpr ⟨hne,hjin⟩,hrs⟩
  refine { h.walks with drained := ?_ }
  intro j hj
  exact h.walks.drained j (mem_of_mem_erase hj)

omit h in
lemma leaveDirtyList_all {l : List Nat} (hl : ∀ j ∈ l, j ∈ s.inodes) :
    ∃ inode, l.foldlM (fun s j => leaveDirtyList j s) s = .ok { s with inode } ∧
      ∀ j, (inode j).key = (s.inode j).key ∧ (inode j).cachedPages = (s.inode j).cachedPages ∧
        (inode j).refcount = (s.inode j).refcount ∧ (inode j).nlink = (s.inode j).nlink := by
  induction l generalizing s with
  | nil => exact ⟨s.inode,rfl,fun _ => ⟨rfl,rfl,rfl,rfl⟩⟩
  | cons a l ih =>
    obtain ⟨inode,hrs,hsa⟩ := ih (s := s.setInode a { s.inode a with onDirtyList := false })
      fun j hj => hl j (.tail a hj)
    refine ⟨inode,?_,fun j => ?_⟩
    · rw [foldlM_cons,leaveDirtyList,derefInode_ok (hl a (.head _))]
      exact hrs
    obtain ⟨hkey,hcc,hre,hnl⟩ := hsa j
    exact ⟨hkey.trans (update_view key (by rfl) j), hcc.trans (update_view cachedPages (by rfl) j),
      hre.trans (update_view refcount (by rfl) j), hnl.trans (update_view nlink (by rfl) j)⟩

lemma Inv.takeDirty : Fine (pageCacheTakeDirtyInodes s) := by
  obtain ⟨inode,hall,hsa⟩ := leaveDirtyList_all fun j hj => h.refs.held j (.inr hj)
  refine ⟨{ s with inode, holders := s.dirtyList ++ s.holders, dirtyList := [] },?_,
    h.pages.congr (fun _ => rfl) (fun _ => rfl) (fun j => (hsa j).1) (fun j => (hsa j).2.1),
    ⟨h.refs.born,?_,?_,h.refs.nodup,?_,?_⟩,{ h.walks with }⟩
  · rw [pageCacheTakeDirtyInodes,hall]
    rfl
  · intro j hj
    have hold := h.refs.count j hj
    rw [(hsa j).2.2.1,hold,count_append,count_nil]
    omega
  · intro j hj
    obtain hj | hj := hj
    · exact h.refs.held j (mem_append.mp hj).symm
    cases hj
  · intro j hj
    obtain ⟨hin,hze,hln⟩ := h.refs.dead j hj
    exact ⟨hin,(hsa j).2.2.1.trans hze,(hsa j).2.2.2.trans hln⟩
  intro j
  refine (h.refs.borrowed j).trans ?_
  rw [count_append]
  exact le_add_self

lemma Inv.takeFree :
    Inv { s with freeing := s.toFree :: s.freeing, toFree := [] } := by
  exact ⟨{ h.pages with },{ h.refs with },{ h.walks with }⟩

omit h in
lemma flatten_set {l : List (List Nat)} {rest : List Nat} (hj : l[j]? = some (e :: rest)) :
    l.flatten.Perm (e :: (l.set j rest).flatten) := by
  induction l generalizing j with
  | nil => cases hj
  | cons a l ih =>
    cases j with
    | zero =>
      cases hj
      exact List.Perm.refl _
    | succ =>
      have hrs := ih (by simpa using hj)
      exact (hrs.append_left a).trans perm_middle

lemma Inv.kfree (j : Nat) : Fine (kfreeDeferred j s) := by
  rw [kfreeDeferred]
  split
  · rename_i e rest hj
    have hpm : s.condemned.Perm
        (e :: (s.toFree ++ (s.freeing.set j rest).flatten)) :=
      ((flatten_set hj).append_left s.toFree).trans perm_middle
    have hcond : e ∈ s.condemned := hpm.mem_iff.mpr (.head _)
    obtain ⟨hli,hze⟩ := h.pages.condemned e hcond
    have hall := (hpm.append_left s.resident).nodup_iff.mp h.pages.nodup
    have hnd := perm_middle.nodup_iff.mp hall
    obtain ⟨hfr,hta⟩ := nodup_cons.mp hnd
    have hpin := h.pages.unpinned hli hze
    refine ⟨_,if_pos hli,{ h.pages with
      born := ?_, nodup := hta, resident := ?_, condemned := ?_, pinned := ?_, count := ?_ },
      { h.refs with },{ h.walks with }⟩
    · exact (Finset.erase_subset e s.live).trans h.pages.born
    · intro z hz
      obtain ⟨hzl,hown⟩ := h.pages.resident z hz
      have hne : z ≠ e := fun heq => hfr (mem_append_left _ (heq ▸ hz))
      exact ⟨Finset.mem_erase.mpr ⟨hne,hzl⟩,hown⟩
    · intro z hz
      have hne : z ≠ e := fun heq => hfr (mem_append_right _ (heq ▸ hz))
      obtain ⟨hzl,hzzero⟩ := h.pages.condemned z (hpm.mem_iff.mpr (.tail e hz))
      exact ⟨Finset.mem_erase.mpr ⟨hne,hzl⟩,hzzero⟩
    · intro z hz
      have hne : z ≠ e := fun heq => hpin (heq ▸ hz)
      obtain ⟨hzl,hwe⟩ := h.pages.pinned z hz
      exact ⟨Finset.mem_erase.mpr ⟨hne,hzl⟩,hwe⟩
    intro z hz
    exact h.pages.count z (Finset.mem_of_mem_erase hz)
  exact ⟨s,rfl,h⟩

lemma Inv.lookup (hi : i ∈ s.holders) (offset : UInt64) :
    Fine (pageCacheGetPage i offset s) := by
  rw [pageCacheGetPage,derefInode_ok (h.refs.alive hi).1,ok_bind]
  dsimp only
  rw [touchAll_ok h.pages.table_live,ok_bind]
  split
  · exact ⟨s,rfl,h⟩
  rename_i e hfo
  have hres := ((h.pages.chain _ e).mp (mem_of_find?_eq_some hfo)).1
  have hli := h.pages.live hres
  have hpgs := h.pages.recount ((s.entry e).refcount + 1) true
    (e :: s.pins) s.flights s.owner hli (.inl hres)
    (h.pages.not_condemned hres) (by
      rw [h.pages.count e hli,cons_append,count_cons_self]
      rfl) (fun z hz => by
      rw [cons_append,count_cons_of_ne hz.symm]
      rfl) h.pages.flights
  exact ⟨_,rfl,hpgs,{ h.refs with }, h.walks.keep (.inl rfl) (List.Subset.refl _) rfl (fun _ => .rfl)
      (fun z _ => update_view Entry.inode (by rfl) z) h.walks.launched⟩

end

def Inode.core (x : Inode) : Key × Nat × Int × Nat := (x.key, x.cachedPages, x.refcount, x.nlink)

variable {inode : Nat → Inode} {w w' : Walk} {f : Flight} {p : Phase}

lemma Inv.reskin (h : Inv s) (entry : Nat → Entry) (het : ∀ z, (entry z).core = (s.entry z).core)
    (hact : ∀ z, (entry z).active = (s.entry z).active) (hin : ∀ j, (inode j).core = (s.inode j).core) :
    Inv { s with entry, inode } := by
  refine ⟨h.pages.congr het hact (fun j => ?_) (fun j => ?_),h.refs.congr rfl (fun j => ?_)
    (fun j => ?_) (fun _ => le_rfl),h.walks.keep (.inl rfl) (List.Subset.refl _) rfl
    (fun _ => .rfl) (fun z _ => core_inode (het z)) h.walks.launched⟩
  · exact (congrArg (·.1) (hin j) :)
  · exact (congrArg (·.2.1) (hin j) :)
  · exact (congrArg (·.2.2.1) (hin j) :)
  exact (congrArg (·.2.2.2) (hin j) :)

lemma Inv.owner_inode (h : Inv s) (he : e ∈ s.pinned ∨ e ∈ s.resident)
    (hown : (s.entry e).inode = some j) : j ∈ s.inodes := by
  have hres : e ∈ s.resident := by
    obtain hpin | hres := he
    · obtain hres | ho := (h.pages.pinned e hpin).2
      · exact hres
      rw [ho.inode] at hown
      cases hown
    exact hres
  obtain ⟨-,-,-,k,hk,hkown,-⟩ := h.pages.resident e hres
  cases hkown.symm.trans hown
  exact hk

section

variable (hown : ∀ j, (s.entry e).inode = some j → j ∈ s.inodes)

include hown

lemma onOwner_core {f : Inode → Inode} (hf : ∀ x, (f x).core = x.core) :
    ∃ inode, onOwner e f s = .ok { s with inode } ∧
      ∀ j, (inode j).core = (s.inode j).core := by
  cases hin : (s.entry e).inode with
  | none =>
    refine ⟨s.inode,?_,fun _ => rfl⟩
    rw [onOwner,hin]
  | some i => exact ⟨_,onOwner_ok f hin (hown i hin),update_view core (hf _)⟩

lemma dropDirty_ok :
    ∃ inode, dropDirty e s = .ok { s with inode } ∧
      ∀ j, (inode j).core = (s.inode j).core := by
  rw [dropDirty]
  split
  · exact onOwner_core hown fun _ => rfl
  exact ⟨s.inode,rfl,fun _ => rfl⟩

lemma cleanPage_ok :
    ∃ inode, cleanPage e s = .ok { s with
      entry := update s.entry e { s.entry e with dirty := false }, inode := inode } ∧
      ∀ j, (inode j).core = (s.inode j).core := by
  obtain ⟨inode,hdp,hcr⟩ := dropDirty_ok hown
  refine ⟨inode,?_,hcr⟩
  rw [cleanPage,hdp]
  rfl

end

lemma Inv.cleaned (h : Inv s) (hin : ∀ j, (inode j).core = (s.inode j).core) :
    Inv { s with
      entry := update s.entry e { s.entry e with dirty := false }, inode := inode } :=
  h.reskin _ (update_view Entry.core (by rfl)) (update_view Entry.active (by rfl)) hin

lemma Inv.enlist (h : Inv s) (he : e ∈ s.pinned)
    (hre : ∀ j, (s.entry e).inode = some j → 0 < (s.inode j).refcount) :
    Fine (enlistOwner e s) := by
  rw [enlistOwner]
  split
  · exact ⟨s,rfl,h⟩
  rename_i i hin
  have hi := h.owner_inode (.inl he) hin
  rw [derefInode_ok hi,ok_bind]
  split
  · exact ⟨s,rfl,h⟩
  exact ⟨_,rfl,h.reference s.holders (i :: s.dirtyList) hi (h.refs.not_dead (.inl (hre i hin)))
    rfl rfl rfl (fun j => by rw [count_joined,add_assoc]) fun _ => le_rfl⟩

lemma Inv.mark (h : Inv s) (he : e ∈ s.pins)
    (hre : ∀ j, (s.entry e).inode = some j → 0 < (s.inode j).refcount) :
    Fine (pageCacheMarkDirty e s) := by
  have hpin : e ∈ s.pinned := mem_append_left _ he
  obtain ⟨inode,hct,hcr⟩ : ∃ inode, countDirty e s = .ok { s with inode } ∧
      ∀ j, (inode j).core = (s.inode j).core := by
    rw [countDirty]
    split
    · exact ⟨s.inode,rfl,fun _ => rfl⟩
    exact onOwner_core (fun j hin => (h.owner_inode (.inl hpin) hin)) fun _ => rfl
  have hmk := h.reskin (update s.entry e { s.entry e with dirty := true })
    (update_view Entry.core rfl) (update_view Entry.active rfl) hcr
  rw [pageCacheMarkDirty,touch_ok (h.pages.pinned e hpin).1,ok_bind,hct,ok_bind]
  refine hmk.enlist hpin fun j hin => ?_
  rw [update_view Entry.inode (by rfl)] at hin
  rw [show (inode j).refcount = (s.inode j).refcount from (congrArg (·.2.2.1) (hcr j) :)]
  exact hre j hin

def State.installed (s : State) (i : Nat) (offset : UInt64) (e : Nat) (active : Bool) : State :=
  { insertPage i offset e s with
    entry := update s.entry e { newEntry i offset s with active := active }
    inactive := if active then s.inactive else s.inactive ++ [e]
    active := if active then s.active ++ [e] else s.active }

lemma lruAppend_inserted (h : Pages s) (offset : UInt64) :
    lruAppend e (insertPage i offset e s) = .ok (s.installed i offset e false) := by
  rw [lruAppend,touchAll_ok,ok_bind]
  · rw [setEntry,insertPage,setEntry,setInode]
    dsimp only
    rw [update_idem,update_self]
    rfl
  intro z hz
  exact Finset.mem_insert_of_mem (h.live (mem_resident.mpr (.inl hz)))

lemma activeAppend_inserted (h : Pages s) (offset : UInt64) :
    activeAppend e (insertPage i offset e s) = .ok (s.installed i offset e true) := by
  rw [activeAppend,touchAll_ok,ok_bind]
  · rw [setEntry,insertPage,setEntry,setInode]
    dsimp only
    rw [update_idem,update_self]
    rfl
  intro z hz
  exact Finset.mem_insert_of_mem (h.live (mem_resident.mpr (.inr hz)))

section Install

variable {offset : UInt64} {b : Bool}

lemma installed_perm : (s.installed i offset e b).resident.Perm (e :: s.resident) := by
  cases b with
  | false =>
    change ((s.inactive ++ [e]) ++ s.active).Perm _
    rw [append_assoc]
    exact perm_middle
  | true =>
    change (s.inactive ++ (s.active ++ [e])).Perm _
    rw [← append_assoc]
    exact perm_append_singleton e s.resident

lemma installed_self :
    (s.installed i offset e b).entry e = { newEntry i offset s with active := b } :=
  update_self _ _ _

lemma installed_ne (hz : z ≠ e) : (s.installed i offset e b).entry z = s.entry z :=
  update_of_ne hz _ _

lemma installed_key (j : Nat) : ((s.installed i offset e b).inode j).key = (s.inode j).key :=
  update_view key (by rfl) j

lemma installed_table (k : UInt32) (z : Nat) :
    z ∈ (s.installed i offset e b).table k ↔ z ∈ s.table k ∨ z = e ∧ k = s.bucket i offset := by
  change z ∈ update s.table (s.bucket i offset) (e :: s.table (s.bucket i offset)) k ↔ _
  by_cases hk : k = s.bucket i offset
  · rw [hk,update_self,mem_cons]
    tauto
  rw [update_of_ne hk]
  tauto

lemma Pages.installed_cached (h : Pages s) (he : e ∉ s.resident) (hj : j ∈ s.inodes) :
    ((s.installed i offset e b).inode j).cachedPages = (s.installed i offset e b).resident.countP
      fun z => ((s.installed i offset e b).entry z).inode = some j := by
  have hcgr : s.resident.countP (fun z => ((s.installed i offset e b).entry z).inode = some j) =
      s.resident.countP fun z => (s.entry z).inode = some j := by
    refine countP_congr fun z hz => ?_
    have hne : z ≠ e := fun heq => he (heq ▸ hz)
    rw [installed_ne hne]
  have hcc : ((s.installed i offset e b).inode j).cachedPages =
      (s.inode j).cachedPages + if i = j then 1 else 0 := by
    change (update s.inode i _ j).cachedPages = _
    obtain rfl | hij := eq_or_ne i j
    · rw [update_self,if_pos rfl]
    rw [update_of_ne (Ne.symm hij),if_neg hij]
    rfl
  rw [installed_perm.countP_eq,countP_cons,hcgr,hcc,h.cached j hj,installed_self]
  simp [newEntry]

lemma Pages.installed (h : Pages s) (hi : i ∈ s.inodes) (he : e ∉ s.born) :
    Pages (s.installed i offset e b) := by
  have hold : ∀ z ∈ s.live, z ≠ e := fun z hz heq => he (h.born (heq ▸ hz))
  have hnew : e ∉ s.resident := fun hmem => hold e (h.live hmem) rfl
  have hsl : ((s.installed i offset e b).entry e).slot s.mask = s.bucket i offset := by
    rw [installed_self]
    rfl
  refine ⟨Finset.insert_subset_insert e h.born,?_,?_,?_,?_,?_,?_,?_,?_,?_,?_,?_⟩
  · refine (installed_perm.append_right s.condemned).nodup_iff.mpr (nodup_cons.mpr ⟨?_,h.nodup⟩)
    intro hmem
    obtain hmem | hmem := mem_append.mp hmem
    · exact hnew hmem
    exact hold e (h.condemned e hmem).1 rfl
  · intro z hz
    obtain rfl | hze := eq_or_ne z e
    · rw [installed_self]
      cases b with
      | false => rfl
      | true => cases hnew ((mem_resident (s := s)).mpr (.inl hz))
    rw [installed_ne hze]
    cases b with
    | false =>
      refine h.inactive z ((mem_append.mp hz).resolve_right ?_)
      exact fun hsgl => hze (mem_singleton.mp hsgl)
    | true => exact h.inactive z hz
  · intro z hz
    obtain rfl | hze := eq_or_ne z e
    · rw [installed_self]
      cases b with
      | true => rfl
      | false => cases hnew ((mem_resident (s := s)).mpr (.inr hz))
    rw [installed_ne hze]
    cases b with
    | true =>
      refine h.active z ((mem_append.mp hz).resolve_right ?_)
      exact fun hsgl => hze (mem_singleton.mp hsgl)
    | false => exact h.active z hz
  · intro z hz
    obtain rfl | hz := mem_cons.mp (installed_perm.mem_iff.mp hz)
    · rw [installed_self]
      exact ⟨Finset.mem_insert_self ..,rfl,rfl,i,hi,rfl,installed_key i⟩
    obtain ⟨hli,hhe,hke,j,hj,hown,hkey⟩ := h.resident z hz
    rw [installed_ne (hold z hli)]
    exact ⟨Finset.mem_insert_of_mem hli,hhe,hke,j,hj,hown,(installed_key j).trans hkey⟩
  · intro z hz
    obtain ⟨hli,hzero⟩ := h.condemned z hz
    rw [installed_ne (hold z hli)]
    exact ⟨Finset.mem_insert_of_mem hli,hzero⟩
  · intro z hz
    obtain ⟨hli,hwe⟩ := h.pinned z hz
    rw [installed_ne (hold z hli)]
    exact ⟨Finset.mem_insert_of_mem hli,
      hwe.imp (fun hres => installed_perm.mem_iff.mpr (.tail e hres)) id⟩
  · intro z hz
    obtain rfl | hz := Finset.mem_insert.mp hz
    · have hnone : z ∉ s.pinned := fun hpin => hold z (h.pinned z hpin).1 rfl
      rw [installed_self]
      change (0 : Int) = s.pinned.count z
      rw [count_eq_zero.mpr hnone]
      rfl
    rw [installed_ne (hold z hz)]
    exact h.count z hz
  · intro k z
    change z ∈ (s.installed i offset e b).table k ↔ _ ∧ ((s.installed i offset e b).entry z).slot s.mask = k
    rw [installed_table,installed_perm.mem_iff,mem_cons]
    obtain rfl | hze := eq_or_ne z e
    · rw [hsl]
      constructor
      · rintro (hz | ⟨-,hk⟩)
        · exact absurd ((h.chain k z).mp hz).1 hnew
        exact ⟨.inl rfl,hk.symm⟩
      rintro ⟨-,hk⟩
      exact .inr ⟨rfl,hk.symm⟩
    rw [installed_ne hze,h.chain k z]
    tauto
  · intro k
    change (update s.table (s.bucket i offset) (e :: s.table (s.bucket i offset)) k).Nodup
    by_cases hk : k = s.bucket i offset
    · rw [hk,update_self]
      exact nodup_cons.mpr ⟨fun hmem => hnew ((h.chain _ e).mp hmem).1,h.chainNodup _⟩
    rw [update_of_ne hk]
    exact h.chainNodup k
  · intro j hj
    exact h.installed_cached hnew hj
  · intro f hf hph
    obtain ⟨hres,hown⟩ := h.flights f hf hph
    rw [installed_ne (hold _ (h.live hres))]
    exact ⟨installed_perm.mem_iff.mpr (.tail e hres),hown⟩

end Install

lemma Inv.installed {b : Bool} (h : Inv s) (hi : i ∈ s.holders)
    (he : e ∉ s.born) (how : s.owner = none) : Inv (s.installed i offset e b) := by
  obtain ⟨hin,hpos⟩ := h.refs.alive hi
  refine ⟨h.pages.installed hin he,h.refs.congr rfl (update_view refcount rfl)
    (update_view nlink rfl) (fun _ => le_rfl),⟨?_,?_,?_,h.walks.launched⟩⟩
  · intro w hw
    cases how.symm.trans hw
  · intro j hj z hz
    obtain rfl | hz := mem_cons.mp (installed_perm.mem_iff.mp hz)
    · rw [installed_self]
      intro heq
      cases heq
      exact h.refs.not_dead (.inl hpos) (mem_append_right _ hj)
    have hne : z ≠ e := fun heq => he (h.pages.born (h.pages.live (heq ▸ hz)))
    rw [installed_ne hne]
    exact h.walks.drained j hj z hz
  intro w hw
  cases how.symm.trans hw

lemma Inv.add (h : Inv s) {refault : Bool}
    (hen : (Event.add i offset e refault).Enabled s) :
    Fine (pageCacheAddPage i offset e refault s) := by
  obtain ⟨hi,he,how⟩ := hen
  have hnone := isNone_iff_eq_none.mp how
  rw [pageCacheAddPage,derefInode_ok (h.refs.alive hi).1,ok_bind]
  dsimp only
  rw [touchAll_ok h.pages.table_live,ok_bind]
  split
  · exact ⟨s,rfl,h⟩
  split
  · exact ⟨_,activeAppend_inserted h.pages offset,h.installed hi he hnone⟩
  exact ⟨_,lruAppend_inserted h.pages offset,h.installed hi he hnone⟩

lemma Pages.condemn {x : Entry} (h : Pages s) (hli : e ∈ s.live) (hres : e ∉ s.resident)
    (hcond : e ∉ s.condemned) (hzero : (s.entry e).refcount = 0) (hx : x.refcount = 0) :
    Pages { s with entry := update s.entry e x, toFree := e :: s.toFree } := by
  have hpin := h.unpinned hli hzero
  have hke : ∀ z ∈ s.resident, update s.entry e x z = s.entry z := fun z hz =>
    update_of_ne (ne_of_mem_of_not_mem hz hres) ..
  refine ⟨h.born,?_,?_,?_,?_,?_,?_,?_,?_,h.chainNodup,?_,?_⟩
  · refine perm_middle.nodup_iff.mpr (nodup_cons.mpr ⟨?_,h.nodup⟩)
    intro hmem
    exact (mem_append.mp hmem).elim hres hcond
  · intro z hz
    exact (congrArg Entry.active (hke z (mem_resident.mpr (.inl hz)))).trans (h.inactive z hz)
  · intro z hz
    exact (congrArg Entry.active (hke z (mem_resident.mpr (.inr hz)))).trans (h.active z hz)
  · intro z hz
    have hsa := hke z hz
    dsimp only
    rw [hsa]
    exact h.resident z hz
  · intro z hz
    dsimp only
    by_cases hze : z = e
    · rw [hze,update_self]
      exact ⟨hli,hx⟩
    rw [update_of_ne hze]
    exact h.condemned z ((mem_cons.mp hz).resolve_left hze)
  · intro z hz
    dsimp only
    rw [update_of_ne (ne_of_mem_of_not_mem hz hpin)]
    exact h.pinned z hz
  · intro z hz
    have hold := h.count z hz
    dsimp only
    obtain rfl | hze := eq_or_ne z e
    · rw [update_self,hx,← hzero]
      exact hold
    rw [update_of_ne hze]
    exact hold
  · intro k z
    refine (h.chain k z).trans (and_congr_right fun hz => ?_)
    dsimp only
    rw [hke z hz]
  · intro j hj
    refine (h.cached j hj).trans (countP_congr fun z hz => ?_)
    change _ ↔ decide ((update s.entry e x z).inode = some j) = true
    rw [hke z hz]
  · intro f hf hph
    obtain ⟨hin,hown⟩ := h.flights f hf hph
    exact ⟨hin,(congrArg Entry.inode (hke _ hin)).trans hown⟩

lemma unpin_ok (h : Pages s) (he : e ∈ s.pinned) : unpin e s =
    .ok (s.setEntry e { s.entry e with refcount := (s.entry e).refcount - 1 }) := by
  have hli := (h.pinned e he).1
  have hct := h.count e hli
  have hpos := count_pos_iff.mpr he
  rw [unpin,touch_ok hli,ok_bind]
  exact if_neg (by omega)

lemma Pages.orphaned (h : Pages s) (he : e ∈ s.pinned) (horp : (s.entry e).orphan = true) :
    Orphaned (s.entry e) ∧ e ∉ s.resident := by
  have hout : e ∉ s.resident := by
    intro hres
    have hown := (h.resident e hres).2
    rw [hown.kept] at horp
    cases horp
  exact ⟨(h.pinned e he).2.resolve_left hout,hout⟩

lemma release_orphan (ho : Orphaned (s.entry e)) : release e s = .ok { s with
    entry := update s.entry e { s.entry e with held := false }
    toFree := e :: s.toFree } := by
  have hfe : pmmFreeFrame e s = .ok (s.setEntry e { s.entry e with held := false }) := if_pos ho.held
  have hdp : dropCached e (s.setEntry e { s.entry e with held := false }) =
      .ok (s.setEntry e { s.entry e with held := false }) := by
    rw [dropCached,onOwner,setEntry]
    dsimp only
    rw [update_self]
    rw [ho.inode]
  rw [release,hfe,ok_bind,hdp]
  rfl

lemma Inv.unpin (h : Inv s) (he : e ∈ s.pins) : Fine (pageCachePutPage e s) := by
  have hpin : e ∈ s.pinned := mem_append_left _ he
  obtain ⟨hli,hpc⟩ := h.pages.pinned e hpin
  have hcond := h.pages.pinned_not_condemned hpin
  have hct := h.pages.count e hli
  have hpos := count_pos_iff.mpr he
  have hpgs := h.pages.recount ((s.entry e).refcount - 1)
    (s.entry e).referenced (s.pins.erase e) s.flights s.owner hli hpc hcond (by
      rw [hct,pinned,count_append,count_append,count_erase_self]
      omega) (fun z hz => by
      rw [pinned,count_append,count_append,count_erase_of_ne hz])
    h.pages.flights
  have hwks := h.walks
  have hse := update_self e
    { s.entry e with refcount := (s.entry e).refcount - 1 } s.entry
  rw [pageCachePutPage,unpin_ok h.pages hpin,ok_bind]
  dsimp only
  split
  · rename_i hla
    have hze : (s.entry e).refcount - 1 = 0 := (congrArg Entry.refcount hse).symm.trans hla.1
    obtain ⟨ho,hout⟩ := h.pages.orphaned hpin ((congrArg Entry.orphan hse).symm.trans hla.2)
    refine ⟨_,release_orphan ⟨?_,?_,?_⟩,hpgs.condemn hli hout hcond ?_ ?_,{ h.refs with },
      hwks.keep (.inl rfl) (List.Subset.refl _) rfl (fun _ => .rfl) (fun z hz => ?_) hwks.launched⟩
    · exact (congrArg Entry.orphan hse).trans ho.orphan
    · exact (congrArg Entry.inode hse).trans ho.inode
    · exact (congrArg Entry.held hse).trans ho.held
    · exact (congrArg Entry.refcount hse).trans hze
    · exact (congrArg Entry.refcount hse).trans hze
    · have hne : z ≠ e := fun heq => hout (heq ▸ hz)
      exact (congrArg Entry.inode (update_of_ne hne ..)).trans
        (congrArg Entry.inode (update_of_ne hne ..))
  exact ⟨_,rfl,hpgs,{ h.refs with }, hwks.keep (.inl rfl) (List.Subset.refl _) rfl (fun _ => .rfl)
      (fun z _ => update_view Entry.inode (by rfl) z) hwks.launched⟩

lemma Inv.rescan (hpgs : Pages s) (hre : Refs s)
    (hdr : ∀ j ∈ s.drained, ∀ z ∈ s.resident, (s.entry z).inode ≠ some j)
    (hlau : ∀ f ∈ s.flights, ∀ j, f.walk.job ≠ .invalidate j)
    (hjob : ∀ j, w.job = .invalidate j → j ∈ s.dying)
    (hbw : ∀ j, (w.job.borrows ++ s.flights.flatMap fun f => f.walk.job.borrows).count j ≤
      s.holders.count j) : Inv (s.rescan w) := by
  have hwks := Walks.rescan hpgs hdr hjob hlau
  obtain ⟨todo,-,-,-,heq⟩ := rescan_todo w s
  rw [heq] at hwks ⊢
  refine ⟨hpgs.congr (fun _ => rfl) (fun _ => rfl) (fun _ => rfl) (fun _ => rfl),
    { hre with borrowed := fun j => ?_ },hwks⟩
  exact hbw j

lemma wrote_job (w : Walk) : w.wrote.job = w.job := by
  rw [Walk.wrote]
  split <;> rfl

lemma borrowed_flights (hnone : s.owner = none) :
    s.borrowed = s.flights.flatMap fun f => f.walk.job.borrows := by
  rw [borrowed,hnone]
  rfl

lemma borrowed_owner (hw : w ∈ s.owner) :
    s.borrowed = w.job.borrows ++ s.flights.flatMap fun f => f.walk.job.borrows := by
  rw [borrowed,show s.owner = some w from hw]
  rfl

lemma Inv.lock (h : Inv s) {job : Job} (hen : (Event.lock job left).Enabled s) :
    Fine (lockPc job left s) := by
  obtain ⟨hnone,hjob⟩ := hen
  have hfls := borrowed_flights (isNone_iff_eq_none.mp hnone)
  have hinv : Inv (s.rescan ⟨job,left,[]⟩) := by
    refine Inv.rescan h.pages h.refs h.walks.drained h.walks.launched ?_ ?_
    · rintro j rfl
      exact hjob
    intro j
    have hold := h.refs.borrowed j
    rw [hfls] at hold
    rw [count_append]
    have hcase : ∀ i, s.Spare i → ([i] : List Nat).count j +
        (s.flights.flatMap fun f => f.walk.job.borrows).count j ≤ s.holders.count j := by
      intro i hspr
      obtain rfl | hij := eq_or_ne i j
      · rw [State.Spare,hfls] at hspr
        rw [count_singleton_self]
        omega
      rw [count_eq_zero.mpr fun hmem => hij (mem_singleton.mp hmem).symm]
      omega
    cases job with
    | truncate i => exact hcase i hjob
    | flush i => exact hcase i hjob.1
    | invalidate i | stale k keep | evict | evictClean =>
      simpa [Job.borrows] using hold
  have hsbj : ∀ i, job.subject = some i → i ∈ s.inodes := by
    intro i hi
    cases job with
    | invalidate =>
      cases hi
      exact (h.refs.dead _ (mem_append_left _ hjob)).1
    | stale =>
      cases hi
      exact (h.refs.alive hjob.1).1
    | truncate =>
      cases hi
      exact (h.refs.alive (Spare.mem hjob)).1
    | flush =>
      cases hi
      exact (h.refs.alive (Spare.mem hjob.1)).1
    | evict | evictClean => cases hi
  rw [lockPc]
  split
  · exact ⟨_,rfl,hinv⟩
  rename_i i hi
  rw [derefInode_ok (hsbj i hi)]
  exact ⟨_,rfl,hinv⟩

lemma Inv.release (h : Inv s) : Inv { s with owner := none } := by
  refine ⟨{ h.pages with },h.refs.congr rfl (fun _ => rfl) (fun _ => rfl) (fun j => ?_),
    h.walks.keep (.inr rfl) (List.Subset.refl _) rfl (fun _ => .rfl) (fun _ _ => rfl) h.walks.launched⟩
  rw [borrowed,borrowed,count_append,count_append]
  exact Nat.add_le_add_right zero_le _

lemma Inv.unlock (h : Inv s) (hen : Event.unlock.Enabled s) : Fine (unlockPc s) := by
  obtain ⟨w,hw,hdo⟩ := hen
  rw [unlockPc,show s.owner = some w from hw]
  dsimp only
  split
  · rename_i i hjob
    obtain ⟨hdy,hall⟩ := h.walks.invalidating w hw i hjob
    refine ⟨_,rfl,h.drain hdy (.inl rfl) fun z hz hown => ?_⟩
    have hmem := hall z hz hown
    obtain hnil | ⟨-,hbd⟩ := hdo
    · rw [hnil] at hmem
      cases hmem
    rw [hjob] at hbd
    cases hbd
  exact ⟨_,rfl,h.release⟩

lemma map_set_same {α β : Type} {l : List α} {a b : α} (g : α → β) (hj : l[j]? = some a)
    (hg : g b = g a) : (l.set j b).map g = l.map g := by
  rw [map_set,hg]
  refine ext_getElem? fun k => ?_
  obtain rfl | hk := eq_or_ne j k
  · rw [getElem?_set_self',getElem?_map,hj]
    rfl
  rw [getElem?_set_ne hk]

lemma Inv.rephase (h : Inv s) (hj : s.flights[j]? = some f) (hph : f.phase ≠ .written) :
    Inv { s with flights := s.flights.set j { f with phase := p } } := by
  have hf := mem_of_getElem? hj
  have hets : (s.flights.set j { f with phase := p }).map (·.entry) = s.flights.map (·.entry) :=
    map_set_same (·.entry) hj (by rfl)
  have hbow : (s.flights.set j { f with phase := p }).flatMap (fun f => f.walk.job.borrows) =
      s.flights.flatMap fun f => f.walk.job.borrows := by
    rw [flatMap_def,map_set_same (fun f => f.walk.job.borrows) hj (by rfl),← flatMap_def]
  have hpin : pinned { s with flights := s.flights.set j { f with phase := p } } =
      s.pinned := congrArg (s.pins ++ ·) hets
  refine ⟨{ h.pages with pinned := ?_, count := ?_, flights := ?_ },
    h.refs.congr rfl (fun _ => rfl) (fun _ => rfl) (fun k => ?_),{ h.walks with launched := ?_ }⟩
  · rw [hpin]
    exact h.pages.pinned
  · rw [hpin]
    exact h.pages.count
  · intro g hg hgphase
    obtain hg | rfl := mem_or_eq_of_mem_set hg
    · exact h.pages.flights g hg hgphase
    exact h.pages.flights f hf hph
  · rw [borrowed,borrowed,hbow]
  intro g hg
  obtain hg | rfl := mem_or_eq_of_mem_set hg
  · exact h.walks.launched g hg
  exact h.walks.launched f hf

lemma Inv.flightIn (h : Inv s) (hen : s.flightIn j p) (hp : p ≠ .written) :
    ∃ f, s.flights[j]? = some f ∧ f.phase ≠ .written ∧ f.entry ∈ s.resident ∧
      (s.entry f.entry).inode = some f.inode ∧ f.inode ∈ s.inodes := by
  obtain ⟨f,hj,rfl⟩ := hen
  obtain ⟨hres,hown⟩ := h.pages.flights f (mem_of_getElem? hj) hp
  exact ⟨f,hj,hp,hres,hown,(h.owner_inode (.inr hres) hown)⟩

lemma Inv.submit (h : Inv s) (hen : s.flightIn j .pinned) : Fine (submit j s) := by
  obtain ⟨f,hj,hwt,hres,hown,hin⟩ := h.flightIn hen nofun
  refine ⟨_,?_,h.rephase (p := .writing) hj hwt⟩
  rw [PageLife.submit,hj]
  dsimp only
  rw [touch_ok (h.pages.live hres),ok_bind,ownInode_ok hown hin]
  rfl

lemma Inv.complete (h : Inv s) (hen : s.flightIn j .writing) : Fine (complete j s) := by
  obtain ⟨f,hj,hwt,-,-,hin⟩ := h.flightIn hen nofun
  refine ⟨_,?_,h.rephase (p := .written) hj hwt⟩
  rw [PageLife.complete,hj]
  dsimp only
  rw [derefInode_ok hin]
  rfl

lemma perm_eraseIdx {α : Type} {l : List α} {a : α} (hj : l[j]? = some a) : l.Perm (a :: l.eraseIdx j) := by
  obtain ⟨hlt,heq⟩ := List.getElem?_eq_some_iff.mp hj
  rw [← heq]
  exact (getElem_cons_eraseIdx_perm hlt).symm

lemma Inv.landed (h : Inv s) (hj : s.flights[j]? = some f) (hnone : s.owner = none) :
    Inv { s with
      entry := update s.entry f.entry
        { s.entry f.entry with refcount := (s.entry f.entry).refcount - 1 }
      flights := s.flights.eraseIdx j } ∧
      ∀ k, (f.walk.job.borrows ++ (s.flights.eraseIdx j).flatMap
        fun f => f.walk.job.borrows).count k ≤ s.holders.count k := by
  have hpm := perm_eraseIdx hj
  have hmem : ∀ g ∈ s.flights.eraseIdx j, g ∈ s.flights := fun g hg =>
    hpm.mem_iff.mpr (.tail f hg)
  have hpin : f.entry ∈ s.pinned := mem_append_right _ (mem_map_of_mem (mem_of_getElem? hj))
  obtain ⟨hli,hpc⟩ := h.pages.pinned _ hpin
  have hets : ∀ z, (s.flights.map (·.entry)).count z =
      (f.entry :: (s.flights.eraseIdx j).map (·.entry)).count z := fun z =>
    (hpm.map (·.entry)).count_eq z
  have hbw : ∀ k, (f.walk.job.borrows ++ (s.flights.eraseIdx j).flatMap
      fun f => f.walk.job.borrows).count k = s.borrowed.count k := by
    intro k
    rw [borrowed_flights hnone]
    exact ((hpm.flatMap_right fun f => f.walk.job.borrows).count_eq k).symm
  have hpgs := h.pages.recount ((s.entry f.entry).refcount - 1)
    (s.entry f.entry).referenced s.pins (s.flights.eraseIdx j) s.owner hli hpc
        (h.pages.pinned_not_condemned hpin) (by
      rw [h.pages.count _ hli,pinned,count_append,count_append,
        hets,count_cons_self]
      omega) (fun z hz => by
      rw [pinned,count_append,count_append,hets,
        count_cons_of_ne hz.symm]) fun g hg => h.pages.flights g (hmem g hg)
  refine ⟨⟨hpgs,h.refs.congr rfl (fun _ => rfl) (fun _ => rfl) (fun k => ?_),
    h.walks.keep (.inl rfl) (List.Subset.refl _) rfl (fun _ => .rfl)
      (fun z _ => update_view Entry.inode (by rfl) z) fun g hg => h.walks.launched g (hmem g hg)⟩,
    fun k => hbw k ▸ h.refs.borrowed k⟩
  rw [← hbw k,count_append]
  refine (le_of_eq ?_).trans le_add_self
  exact congrArg (count k) (borrowed_flights hnone)

def andRescan (w : Walk) (s : State) : Except Fault State := .ok (s.rescan w)

lemma Inv.resume (h : Inv s) (hen : (Event.resume j).Enabled s) : Fine (resume j s) := by
  obtain ⟨⟨f,hj,-⟩,how⟩ := hen
  have hnone := isNone_iff_eq_none.mp how
  have hf := mem_of_getElem? hj
  have hpin : f.entry ∈ s.pinned := mem_append_right _ (mem_map_of_mem hf)
  obtain ⟨hld,hbw⟩ := h.landed hj hnone
  have hse := update_self f.entry
    { s.entry f.entry with refcount := (s.entry f.entry).refcount - 1 } s.entry
  have hjob : ∀ k, f.walk.wrote.job = .invalidate k → k ∈ s.dying := fun k hk =>
    absurd ((wrote_job f.walk).symm.trans hk) (h.walks.launched f hf k)
  rw [PageLife.resume,show s.flights[j]? = some f from hj]
  dsimp only
  rw [unpin_ok h.pages hpin,ok_bind]
  split
  · rename_i hla
    have hze : (s.entry f.entry).refcount - 1 = 0 := (congrArg Entry.refcount hse).symm.trans hla.1
    obtain ⟨ho,hout⟩ := h.pages.orphaned hpin ((congrArg Entry.orphan hse).symm.trans hla.2)
    have hcond := h.pages.pinned_not_condemned hpin
    have hpgs := hld.pages.condemn (x := { update s.entry f.entry
      { s.entry f.entry with refcount := (s.entry f.entry).refcount - 1 } f.entry with held := false })
      (h.pages.pinned _ hpin).1 hout hcond ((congrArg Entry.refcount hse).trans hze)
      ((congrArg Entry.refcount hse).trans hze)
    have hrel := release_orphan (s := { s with
      entry := update s.entry f.entry
        { s.entry f.entry with refcount := (s.entry f.entry).refcount - 1 }
      flights := s.flights.eraseIdx j })
      ⟨(congrArg Entry.orphan hse).trans ho.orphan,(congrArg Entry.inode hse).trans ho.inode,
        (congrArg Entry.held hse).trans ho.held⟩
    refine ⟨_,congrArg (· >>= andRescan f.walk.wrote) hrel,
      Inv.rescan hpgs ?_ ?_ hld.walks.launched hjob ?_⟩
    · exact hld.refs.congr rfl (fun _ => rfl) (fun _ => rfl) fun _ => le_rfl
    · intro k hk z hz
      have hne : z ≠ f.entry := fun heq => hout (heq ▸ hz)
      refine fun hown => hld.walks.drained k hk z hz ?_
      exact (congrArg Entry.inode (update_of_ne hne _ _)).symm.trans hown
    rw [wrote_job]
    exact hbw
  obtain ⟨inode,hcl,hcr⟩ := cleanPage_ok (s := { s with
    entry := update s.entry f.entry
      { s.entry f.entry with refcount := (s.entry f.entry).refcount - 1 }
    flights := s.flights.eraseIdx j }) fun k hk =>
      (h.owner_inode (.inl hpin) ((congrArg Entry.inode hse).symm.trans hk))
  have hcln := hld.cleaned (e := f.entry) hcr
  refine ⟨_,congrArg (· >>= andRescan f.walk.wrote) hcl,
    Inv.rescan hcln.pages hcln.refs hcln.walks.drained hcln.walks.launched hjob ?_⟩
  rw [wrote_job]
  exact hbw

variable {rest : List Nat}

lemma Inv.advance (h : Inv s) (hw : w ∈ s.owner) (htd : w.todo = e :: rest)
    (hgo : ∀ j, w.job = .invalidate j → (s.entry e).inode ≠ some j) :
    Inv (s.advance { w with todo := rest }) := by
  refine ⟨{ h.pages with },h.refs.congr rfl (fun _ => rfl) (fun _ => rfl) (fun j => ?_),
    h.walks.advance hw htd rfl rfl rfl (fun z hz _ => hz) (fun z hz => ⟨hz,rfl⟩)
      (fun j hj _ => hgo j hj) h.walks.launched⟩
  rw [borrowed_owner hw]
  exact le_rfl

lemma Inv.restart (h : Inv s) (w' : Walk) (hw : w ∈ s.owner) (hjob : w'.job = w.job) :
    Inv (s.rescan w') := by
  refine Inv.rescan h.pages h.refs h.walks.drained h.walks.launched (fun j hj => ?_) fun j => ?_
  · exact (h.walks.invalidating w hw j (hjob.symm.trans hj)).1
  rw [hjob,← borrowed_owner hw]
  exact h.refs.borrowed j

section Retired

variable {x : Entry} {y : Inode} {out : List Nat}

lemma Inv.retired_drained (h : Inv s) (he : e ∈ s.resident) :
    ∀ j ∈ s.drained, ∀ z ∈ (s.retire e i x y out).resident,
      ((s.retire e i x y out).entry z).inode ≠ some j := by
  intro j hj z hz
  obtain ⟨hres,hne⟩ := (h.pages.mem_retire he).mp hz
  rw [retire_entry_ne hne]
  exact h.walks.drained j hj z hres

lemma Inv.retired_advance (h : Inv s) (hw : w ∈ s.owner) (htd : w.todo = e :: rest)
    (hpgs : Pages (s.retire e i x y out)) (he : e ∈ s.resident)
    (hre : y.refcount = (s.inode i).refcount) (hnl : y.nlink = (s.inode i).nlink) :
    Inv ((s.retire e i x y out).advance { w with todo := rest }) := by
  have hmem : ∀ z, z ∈ (s.retire e i x y out).resident ↔ z ∈ s.resident ∧ z ≠ e := fun z =>
    h.pages.mem_retire he
  refine ⟨hpgs.congr (fun _ => rfl) (fun _ => rfl) (fun _ => rfl) (fun _ => rfl),
    h.refs.congr rfl (update_view Inode.refcount hre) (update_view Inode.nlink hnl) (fun j => ?_),
    h.walks.advance hw htd rfl rfl rfl (fun z hz hne => (hmem z).mpr ⟨hz,hne⟩)
      (fun z hz => ?_) (fun j _ hin => absurd rfl ((hmem e).mp hin).2) h.walks.launched⟩
  · rw [borrowed_owner hw]
    exact le_rfl
  obtain ⟨hres,hne⟩ := (hmem z).mp hz
  have hsa : (s.retire e i x y out).entry z = s.entry z := retire_entry_ne hne
  exact ⟨hres,congrArg Entry.inode hsa⟩

lemma Inv.retired_restart (h : Inv s) (hw : w ∈ s.owner) (hjob : w'.job = w.job)
    (hpgs : Pages (s.retire e i x y out)) (he : e ∈ s.resident) (hre : y.refcount = (s.inode i).refcount)
    (hnl : y.nlink = (s.inode i).nlink) : Inv ((s.retire e i x y out).rescan w') := by
  have hrf : Refs (s.retire e i x y out) :=
    h.refs.congr rfl (update_view Inode.refcount hre) (update_view Inode.nlink hnl) fun _ => le_rfl
  refine Inv.rescan hpgs hrf (h.retired_drained he) h.walks.launched (fun j hj => ?_) fun j => ?_
  · exact (h.walks.invalidating w hw j (hjob.symm.trans hj)).1
  rw [hjob]
  exact borrowed_owner hw ▸ h.refs.borrowed j

end Retired

def dropped (x : Inode) : Inode := { x with cachedPages := x.cachedPages - 1 }

lemma evictPage_ok (h : Pages s) (he : e ∈ s.resident) (hown : (s.entry e).inode = some i)
    (hi : i ∈ s.inodes) : evictPage e s =
      .ok (s.retire e i { s.entry e with held := false } (dropped (s.inode i)) [e]) := by
  have hhe := (h.resident e he).2.held
  have hfe : pmmFreeFrame e (s.unlist e) =
      .ok ((s.unlist e).setEntry e { s.entry e with held := false }) := if_pos hhe
  have hse := update_self e { s.entry e with held := false } s.entry
  have hdp : dropCached e ((s.unlist e).setEntry e { s.entry e with held := false }) =
      .ok (((s.unlist e).setEntry e { s.entry e with held := false }).setInode i (dropped (s.inode i))) :=
    onOwner_ok _ ((congrArg Entry.inode hse).trans hown) hi
  rw [evictPage,unlist_ok h he,release,hfe,ok_bind,hdp]
  rfl

lemma Inv.no_flight (h : Inv s) (he : e ∈ s.resident) (hze : (s.entry e).refcount = 0) :
    ∀ f ∈ s.flights, f.entry = e → f.phase = .written := by
  intro f hf heq
  have hpin : e ∈ s.pinned := by
    rw [← heq]
    exact mem_append_right _ (mem_map_of_mem hf)
  cases h.pages.unpinned (h.pages.live he) hze hpin

lemma Inv.evicted (h : Inv s) (hw : w ∈ s.owner) (hjob : w'.job = w.job)
    (he : e ∈ s.resident) (hze : (s.entry e).refcount = 0) :
    ∃ t, (do
      let s ← evictPage e s
      Except.ok (s.rescan w')) = .ok t ∧ Inv t := by
  obtain ⟨-,-,-,i,hi,hown,-⟩ := h.pages.resident e he
  have hpgs := h.pages.retire { s.entry e with held := false }
    (dropped (s.inode i)) [e] he hown rfl rfl rfl (.inr ⟨rfl,hze⟩)
    (fun hpin => absurd hpin (h.pages.unpinned (h.pages.live he) hze)) (h.no_flight he hze)
  refine ⟨_,?_,h.retired_restart hw hjob hpgs he rfl rfl⟩
  rw [evictPage_ok h.pages he hown hi]
  rfl

lemma Inv.cleanVisit (h : Inv s) (hw : w ∈ s.owner) (htd : w.todo = e :: rest)
    (hjob : w.job = .evictClean) : Fine (evictCleanVisit e w rest s) := by
  have he := (h.walks.todo w hw).1 e (htd ▸ (.head _))
  rw [evictCleanVisit]
  split
  · exact ⟨_,rfl,h.advance hw htd fun j hj => absurd (hjob.symm.trans hj) nofun⟩
  rename_i hfe
  exact h.evicted hw rfl he (by_contra fun hne => hfe (.inl hne))

lemma promote_ok (h : Pages s) (he : e ∈ s.resident) : promote e s = .ok { s with
    entry := update s.entry e { s.entry e with referenced := false, active := true }
    inactive := s.inactive.erase e
    active := s.active.erase e ++ [e] } := by
  have hse := update_self e { s.entry e with referenced := false } s.entry
  have hrm := lruRemove_ok (t := s.setEntry e { s.entry e with referenced := false }) h he rfl
    (congrArg Entry.active hse :) rfl rfl
  rw [promote]
  rw [hrm,ok_bind,activeAppend,touchAll_ok,ok_bind]
  · rw [State.setEntry,State.setEntry]
    dsimp only
    rw [update_self,update_idem]
  intro z hz
  exact h.live (mem_resident.mpr (.inr (mem_of_mem_erase hz)))

lemma Pages.erased (h : Pages s) (he : e ∈ s.resident)
    (hz : z ∈ s.inactive.erase e ∨ z ∈ s.active.erase e) : z ≠ e :=
  ((h.mem_unlist he).mp (mem_resident.mpr hz)).2

lemma Inv.relisted {x : Entry} {inactive active : List Nat} (h : Inv s) (he : e ∈ s.resident)
    (hcr : x.core = (s.entry e).core) (hinode : x.inode = (s.entry e).inode)
    (hpm : (inactive ++ active).Perm s.resident)
    (hin : ∀ z ∈ inactive, z ∈ s.inactive.erase e ∨ z ∈ [e] ∧ x.active = false)
    (hact : ∀ z ∈ active, z ∈ s.active.erase e ∨ z ∈ [e] ∧ x.active = true) :
    Inv { s with entry := update s.entry e x, inactive, active } := by
  refine ⟨h.pages.relist (update_view Entry.core hcr) (fun _ => rfl) (fun _ => rfl) hpm ?_ ?_,
    { h.refs with },h.walks.keep (.inl rfl) (List.Subset.refl _) rfl (fun _ => hpm.mem_iff)
      (fun z _ => update_view Entry.inode hinode z) h.walks.launched⟩
  · intro z hz
    obtain hz | ⟨hz,hx⟩ := hin z hz
    · rw [update_of_ne (h.pages.erased he (.inl hz))]
      exact h.pages.inactive z (mem_of_mem_erase hz)
    rw [mem_singleton.mp hz,update_self,hx]
  intro z hz
  obtain hz | ⟨hz,hx⟩ := hact z hz
  · rw [update_of_ne (h.pages.erased he (.inr hz))]
    exact h.pages.active z (mem_of_mem_erase hz)
  rw [mem_singleton.mp hz,update_self,hx]

lemma Inv.promoted (h : Inv s) (he : e ∈ s.resident) : Inv { s with
    entry := update s.entry e { s.entry e with referenced := false, active := true }
    inactive := s.inactive.erase e
    active := s.active.erase e ++ [e] } := by
  refine h.relisted he rfl rfl ?_ (fun _ => .inl) fun _ hz =>
    (mem_append.mp hz).imp_right fun hz => ⟨hz,rfl⟩
  rw [← append_assoc]
  exact (perm_append_singleton e _).trans (h.pages.perm_unlist he).symm

lemma demote_ok (h : Pages s) (he : e ∈ s.resident) : demote e s = .ok { s with
    entry := update s.entry e { s.entry e with active := false }
    inactive := s.inactive.erase e ++ [e]
    active := s.active.erase e } := by
  rw [demote,touch_ok (h.live he),ok_bind,lruRemove_ok h he rfl rfl rfl rfl,ok_bind,lruAppend,
    touchAll_ok]
  · rfl
  intro z hz
  exact h.live (mem_resident.mpr (.inl (mem_of_mem_erase hz)))

lemma Pages.perm_demoted (h : Pages s) (he : e ∈ s.resident) :
    ((s.inactive.erase e ++ [e]) ++ s.active.erase e).Perm s.resident := by
  rw [append_assoc]
  exact perm_middle.trans (h.perm_unlist he).symm

lemma Inv.demoted (h : Inv s) (he : e ∈ s.resident) : Inv { s with
    entry := update s.entry e { s.entry e with active := false }
    inactive := s.inactive.erase e ++ [e]
    active := s.active.erase e } :=
  h.relisted he rfl rfl (h.pages.perm_demoted he) (fun _ hz =>
    (mem_append.mp hz).imp_right fun hz => ⟨hz,rfl⟩) fun _ hz => .inl hz

lemma Inv.demoteAll (h : Inv s) (es : List Nat) (hes : ∀ e ∈ es, e ∈ s.resident) :
    ∃ t, es.foldlM (fun s e => demote e s) s = .ok t ∧ Inv t ∧ t.owner = s.owner := by
  induction es generalizing s with
  | nil => exact ⟨s,rfl,h,rfl⟩
  | cons e _ ih =>
    have he := hes e (.head _)
    have hdem := h.demoted he
    obtain ⟨t,hrun,ht,how⟩ := ih hdem fun z hz =>
      (h.pages.perm_demoted he).mem_iff.mpr (hes z (.tail e hz))
    refine ⟨t,?_,ht,how⟩
    rw [foldlM_cons,demote_ok h.pages he]
    exact hrun

lemma Inv.demote (h : Inv s) (hen : Event.demote.Enabled s) : Fine (demoteActive s) := by
  obtain ⟨w,hw,-,-⟩ := hen
  obtain ⟨t,hrun,ht,how⟩ := h.demoteAll (s.active.take w.left) fun z hz =>
    mem_resident.mpr (.inr (mem_of_mem_take hz))
  refine ⟨t.rescan w,?_,ht.restart w (how ▸ hw) rfl⟩
  rw [demoteActive,show s.owner = some w from hw]
  dsimp only
  rw [hrun]
  rfl

section

variable (h : Inv s) (hw : w ∈ s.owner) (hjob : ∀ j, w.job ≠ .invalidate j) (he : e ∈ s.resident)

include h hw hjob he

lemma Inv.launched (hown : (s.entry e).inode = some i) : Inv (launch e i w s) := by
  have hli := h.pages.live he
  have hpgs := h.pages.recount ((s.entry e).refcount + 1)
    (s.entry e).referenced s.pins (⟨e,i,w,.pinned⟩ :: s.flights) none hli (.inl he)
        (h.pages.not_condemned he) (by
      rw [h.pages.count e hli,State.pinned,map_cons,count_append,count_append,
        count_cons_self]
      omega) (fun z hz => by
      rw [State.pinned,map_cons,count_append,count_append,
        count_cons_of_ne hz.symm]) (fun f hf hph => by
      obtain rfl | hf := mem_cons.mp hf
      · exact ⟨he,hown⟩
      exact h.pages.flights f hf hph)
  refine ⟨hpgs,h.refs.congr rfl (fun _ => rfl) (fun _ => rfl) (fun j => ?_),
    h.walks.keep (.inr rfl) (List.Subset.refl _) rfl (fun _ => .rfl)
      (fun z _ => update_view Entry.inode (by rfl) z) fun f hf => ?_⟩
  · rw [borrowed_owner hw]
    exact le_rfl
  obtain rfl | hf := mem_cons.mp hf
  · exact hjob
  exact h.walks.launched f hf

lemma Inv.writeback : Fine (writebackPageLocked e w s) := by
  have hrst := h.restart w.wrote hw (wrote_job w)
  rw [writebackPageLocked]
  split
  · split
    · exact ⟨_,rfl,hrst⟩
    rename_i i hown
    have hi := h.owner_inode (.inr he) hown
    rw [derefInode_ok hi,ok_bind]
    split
    · split
      · obtain ⟨inode,hcl,hcr⟩ := cleanPage_ok fun j hj =>
          (h.owner_inode (.inr he) hj)
        refine ⟨_,congrArg (· >>= andRescan w.wrote) hcl,?_⟩
        exact (h.cleaned hcr).restart _ hw (wrote_job w)
      exact ⟨_,rfl,h.launched hw hjob he hown⟩
    exact ⟨_,rfl,hrst⟩
  exact ⟨_,rfl,hrst⟩

end

lemma Inv.evictVisit (h : Inv s) (hw : w ∈ s.owner) (htd : w.todo = e :: rest)
    (hjob : w.job = .evict) : Fine (evictVisit e w rest s) := by
  have he := (h.walks.todo w hw).1 e (htd ▸ (.head _))
  have hnot : ∀ j, w.job ≠ .invalidate j := fun j hj => absurd (hjob.symm.trans hj) nofun
  have hadv := h.advance hw htd fun j hj => absurd hj (hnot j)
  rw [PageLife.evictVisit]
  split
  · exact ⟨_,rfl,hadv⟩
  rename_i hze
  split
  · rw [promote_ok h.pages he]
    exact ⟨_,rfl,(h.promoted he).advance hw htd fun j hj => absurd hj (hnot j)⟩
  split
  · split
    · exact ⟨_,rfl,hadv⟩
    rename_i i hown
    rw [derefInode_ok (h.owner_inode (.inr he) hown),ok_bind]
    split
    · exact h.writeback hw hnot he
    exact ⟨_,rfl,hadv⟩
  exact h.evicted hw rfl he (by_contra hze)

lemma discard_ok (hhe : (s.entry e).held = true) (hown : (s.entry e).inode = some i) (hi : i ∈ s.inodes) :
    (do
      let s ← pmmFreeFrame e s
      let s ← dropCached e s
      defer e (s.setEntry e { s.entry e with inode := none })) = .ok { s with
        entry := update s.entry e { s.entry e with held := false, inode := none }
        inode := update s.inode i (dropped (s.inode i))
        toFree := e :: s.toFree } := by
  have hse := update_self e { s.entry e with held := false } s.entry
  have hfe : pmmFreeFrame e s = .ok (s.setEntry e { s.entry e with held := false }) := if_pos hhe
  have hdp : dropCached e (s.setEntry e { s.entry e with held := false }) =
      .ok ((s.setEntry e { s.entry e with held := false }).setInode i (dropped (s.inode i))) :=
    onOwner_ok _ ((congrArg Entry.inode hse).trans hown) hi
  rw [hfe,ok_bind,hdp,ok_bind,defer,State.setEntry,State.setInode,State.setEntry]
  dsimp only
  rw [update_self,update_idem]

lemma Inv.truncateVisit (h : Inv s) (hw : w ∈ s.owner)
    (htd : w.todo = e :: rest) (hjob : ∀ j, w.job ≠ .invalidate j) :
    ∃ t, (do
      let s ← truncatePage e newSize s
      Except.ok (s.advance { w with todo := rest })) = .ok t ∧ Inv t := by
  have he := (h.walks.todo w hw).1 e (htd ▸ (.head _))
  obtain ⟨-,hhe,-,i,hi,hown,-⟩ := h.pages.resident e he
  have hino : ∀ j, (s.entry e).inode = some j → j ∈ s.inodes := fun j hj =>
    (h.owner_inode (.inr he) hj)
  rw [truncatePage]
  split
  · exact ⟨_,rfl,h.advance hw htd fun j hj => absurd hj (hjob j)⟩
  rw [ownInode_ok hown hi,ok_bind]
  split
  · obtain ⟨inode,hcl,hcr⟩ := cleanPage_ok hino
    rw [hcl]
    exact ⟨_,rfl,(h.cleaned hcr).advance hw htd fun j hj => absurd hj (hjob j)⟩
  rename_i hre
  have hze := by_contra hre
  obtain ⟨inode,hdp,hcr⟩ := dropDirty_ok (s := s.unlist e) hino
  have hpgs := (h.reskin s.entry (fun _ => rfl) (fun _ => rfl) hcr).pages.retire
    { s.entry e with held := false, inode := none } (dropped (inode i)) [e] he hown rfl rfl
        rfl (.inr ⟨rfl,hze⟩)
    (fun hpin => absurd hpin (h.pages.unpinned (h.pages.live he) hze)) (h.no_flight he hze)
  have hdis := discard_ok (s := { s.unlist e with inode }) hhe hown hi
  rw [unlist_ok h.pages he,hdp,ok_bind,hdis]
  refine ⟨_,rfl,Inv.retired_advance
    (h.reskin s.entry (fun _ => rfl) (fun _ => rfl) hcr) hw htd hpgs he rfl rfl⟩

lemma entry_setEntry {x : Entry} : (s.setEntry e x).entry e = x := update_self _ _ _

lemma setEntry_setEntry {x x' : Entry} : (s.setEntry e x).setEntry e x' = s.setEntry e x' := by
  rw [State.setEntry,State.setEntry,State.setEntry,update_idem]

lemma discardOrOrphan_zero (hhe : (s.entry e).held = true)
    (hze : (s.entry e).refcount = 0) : discardOrOrphan e s =
      .ok { s.setEntry e { s.entry e with held := false } with toFree := e :: s.toFree } := by
  have hfe : pmmFreeFrame e s = .ok (s.setEntry e { s.entry e with held := false }) := if_pos hhe
  rw [discardOrOrphan,if_pos hze,hfe]
  rfl

section

variable (hown : (s.entry e).inode = some i) (hi : i ∈ s.inodes)

include hown hi

lemma disown_eq :
    disown e s = discardOrOrphan e ((s.setInode i (dropped (s.inode i))).setEntry e
      { s.entry e with inode := none }) := by
  rw [disown,dropCached,onOwner_ok _ hown hi]
  rfl

lemma disown_free (hhe : (s.entry e).held = true) (hze : (s.entry e).refcount = 0) :
    disown e s = .ok { s with
      entry := update s.entry e { s.entry e with inode := none, held := false }
      inode := update s.inode i (dropped (s.inode i))
      toFree := e :: s.toFree } := by
  rw [disown_eq hown hi,discardOrOrphan_zero,entry_setEntry,setEntry_setEntry]
  · rfl
  · rwa [entry_setEntry]
  rwa [entry_setEntry]

end

lemma Inv.invalidateVisit (h : Inv s) (hw : w ∈ s.owner) (htd : w.todo = e :: rest)
    (hfl : ∀ f ∈ s.flights, f.entry = e → f.phase = .written) :
    ∃ t, (do
      let s ← invalidatePage e s
      Except.ok (s.advance { w with todo := rest })) = .ok t ∧ Inv t := by
  have he := (h.walks.todo w hw).1 e (htd ▸ (.head _))
  obtain ⟨-,hhe,-,i,hi,hown,-⟩ := h.pages.resident e he
  rw [invalidatePage,show (unchain e s >>= fun s => lruRemove e s >>= (disown e)) = _ from
    unlist_ok h.pages he _]
  by_cases hze : (s.entry e).refcount = 0
  · have hpgs := h.pages.retire { s.entry e with inode := none, held := false }
      (dropped (s.inode i)) [e] he hown rfl rfl rfl (.inr ⟨rfl,hze⟩)
      (fun hpin => absurd hpin (h.pages.unpinned (h.pages.live he) hze)) hfl
    refine ⟨_,?_,h.retired_advance hw htd hpgs he rfl rfl⟩
    rw [disown_free (s := s.unlist e) hown hi hhe hze]
    rfl
  have hpgs := h.pages.retire { s.entry e with inode := none, orphan := true }
    (dropped (s.inode i)) [] he hown rfl rfl rfl (.inl rfl)
    (fun _ => ⟨rfl,rfl,hhe⟩) hfl
  refine ⟨_,?_,h.retired_advance hw htd hpgs he rfl rfl⟩
  have hpin : ((s.unlist e).entry e).refcount ≠ 0 := hze
  rw [disown_eq (s := s.unlist e) hown hi,discardOrOrphan,entry_setEntry,if_neg hpin,setEntry_setEntry]
  rfl

open Transition

def Job.disowns : Job → Bool
  | .invalidate _ | .stale _ _ => true
  | _ => false

def State.Quiet (s : State) : Event → Prop
  | .visit => ∀ w ∈ s.owner, ∀ e ∈ w.todo.head?, w.job.disowns → w.job.matches s e →
      ∀ f ∈ s.flights, f.entry = e → f.phase = .written
  | .mark e => ∀ i ∈ (s.entry e).inode, 0 < (s.inode i).refcount
  | _ => True

lemma State.Initial.inv (h : s.Initial) : Inv s := by
  have hrsd : s.resident = [] := by
    rw [State.resident,h.inactive,h.active]
    rfl
  have hcd : s.condemned = [] := by
    rw [State.condemned,h.toFree,h.freeing]
    rfl
  have hpin : s.pinned = [] := by
    rw [State.pinned,h.pins,h.flights]
    rfl
  refine ⟨⟨?_,?_,?_,?_,?_,?_,?_,?_,?_,?_,?_,?_⟩,⟨?_,?_,?_,?_,?_,?_⟩,⟨?_,?_,?_,?_⟩⟩
  · simp [h.live]
  · simp [hrsd,hcd]
  · simp [h.inactive]
  · simp [h.active]
  · simp [hrsd]
  · simp [hcd]
  · simp [hpin]
  · simp [h.live]
  · simp [h.table,hrsd]
  · simp [h.table]
  · simp [h.inodes]
  · simp [h.flights]
  · simp [h.inodes]
  · simp [h.inodes]
  · simp [h.holders,h.dirtyList]
  · simp [h.dying,h.drained]
  · simp [h.dying,h.drained]
  · simp [State.borrowed,h.owner,h.flights]
  · simp [h.owner]
  · simp [h.drained]
  · simp [h.owner]
  · simp [h.flights]

lemma Inv.visitPage {e : Nat} {w : Walk} {rest : List Nat} (h : Inv s) (hw : w ∈ s.owner)
    (htd : w.todo = e :: rest)
    (hqt : w.job.disowns → w.job.matches s e → ∀ f ∈ s.flights, f.entry = e → f.phase = .written) :
    Fine (visitPage e w rest s) := by
  have he := (h.walks.todo w hw).1 e (htd ▸ (.head _))
  have hot : ∀ {job : Job}, w.job = job → (∀ j, job ≠ .invalidate j) →
      ∀ j, w.job ≠ .invalidate j := fun hjob hne j hj => hne j (hjob.symm.trans hj)
  rw [PageLife.visitPage]
  split
  · rename_i hjob
    exact h.evictVisit hw htd hjob
  · rename_i hjob
    exact h.cleanVisit hw htd hjob
  · rename_i i hjob
    have hne := hot hjob nofun
    split
    · exact h.writeback hw hne he
    exact ⟨_,rfl,h.advance hw htd fun j hj => absurd hj (hne j)⟩
  · rename_i i newSize hjob
    have hne := hot hjob nofun
    split
    · exact h.truncateVisit hw htd hne
    exact ⟨_,rfl,h.advance hw htd fun j hj => absurd hj (hne j)⟩
  · rename_i i hjob
    split
    · rename_i hmt
      exact h.invalidateVisit hw htd (hqt (by rw [hjob]; rfl) hmt)
    rename_i hmt
    refine ⟨_,rfl,h.advance hw htd fun j hj heq => hmt ?_⟩
    rw [hj]
    simp [Job.matches,heq]
  · rename_i k keep hjob
    have hne := hot hjob nofun
    split
    · rename_i hmt
      exact h.invalidateVisit hw htd (hqt (by rw [hjob]; rfl) hmt)
    exact ⟨_,rfl,h.advance hw htd fun j hj => absurd hj (hne j)⟩

lemma Inv.visit (h : Inv s) (hqt : s.Quiet .visit) : Fine (visit s) := by
  rw [PageLife.visit]
  split
  · rename_i w hw
    split
    · rename_i e rest htd
      have he := (h.walks.todo w hw).1 e (htd ▸ (.head _))
      rw [touch_ok (h.pages.live he),ok_bind]
      refine h.visitPage hw htd (hqt w hw e ?_)
      rw [htd]
      rfl
    exact ⟨s,rfl,h⟩
  exact ⟨s,rfl,h⟩

lemma Inv.borrower (h : Inv s) {w : Walk} {i : Nat} (hw : w ∈ s.owner) (hjob : w.job = .flush i) :
    i ∈ s.inodes := by
  have hct := h.refs.borrowed i
  rw [borrowed_owner hw,hjob,Job.borrows,count_append,count_singleton_self] at hct
  exact (h.refs.alive (count_pos_iff.mp (by omega))).1

lemma Inv.probe (h : Inv s) (offset : UInt64) : Fine (probe offset s) := by
  rw [PageLife.probe]
  split
  · rename_i w hw
    split
    · rename_i i hjob
      rw [derefInode_ok (h.borrower hw hjob),ok_bind]
      dsimp only
      rw [touchAll_ok h.pages.table_live,ok_bind]
      split
      · rename_i e hfo
        split
        · refine h.writeback hw (fun j hj => absurd (hjob.symm.trans hj) nofun) ?_
          exact ((h.pages.chain _ e).mp (mem_of_find?_eq_some hfo)).1
        exact ⟨s,rfl,h⟩
      exact ⟨s,rfl,h⟩
    exact ⟨s,rfl,h⟩
  exact ⟨s,rfl,h⟩

lemma Inv.step {e : Event} (h : Inv s) (hok : s.Quiet e) (hen : e.Enabled s) :
    Fine (step s e) := by
  cases e with
  | alloc => exact ⟨_,rfl,h.alloc hen rfl rfl⟩
  | get => exact h.get hen
  | put => exact h.put hen
  | link =>
    have hli := h.refs.not_dead (.inl (h.refs.alive hen).2)
    exact ⟨_,rfl,h.setInode rfl rfl rfl fun hde => absurd hde hli⟩
  | resize => exact ⟨_,rfl,h.setInode rfl rfl rfl fun _ => rfl⟩
  | skip => exact h.skip hen
  | free => exact h.free hen
  | lookup i offset => exact h.lookup hen offset
  | add => exact h.add hen
  | mark => exact h.mark hen.1 hok
  | unpin => exact h.unpin hen.1
  | takeDirty => exact h.takeDirty
  | takeFree => exact ⟨_,rfl,h.takeFree⟩
  | kfree j => exact h.kfree j
  | lock => exact h.lock hen
  | visit => exact h.visit hok
  | probe offset => exact h.probe offset
  | demote => exact h.demote hen
  | unlock => exact h.unlock hen
  | submit => exact h.submit hen
  | complete => exact h.complete hen
  | resume => exact h.resume hen

lemma Inv.reached (hs : Reach State.Initial (guarded State.Quiet Stepped) s) : Inv s := by
  refine hs.invariant (fun s h => h.inv) ?_
  rintro s e t h ⟨hok,hen,hstep⟩
  obtain ⟨t',hstep',ht'⟩ := h.step hok hen
  obtain rfl := Except.ok.inj (hstep.symm.trans hstep')
  exact ht'

theorem quiet_steps_never_fault (hs : Reach State.Initial (guarded State.Quiet Stepped) s)
    {e : Event} (hen : e.Enabled s) (hok : s.Quiet e) : ∃ t, step s e = .ok t := by
  obtain ⟨t,hstep,-⟩ := (Inv.reached hs).step hok hen
  exact ⟨t,hstep⟩

instance (s : State) (job : Job) : Decidable (job.Enabled s) := by
  cases job <;> (dsimp only [Job.Enabled]; infer_instance)

instance (s : State) (j : Nat) (p : Phase) : Decidable (s.flightIn j p) :=
  inferInstanceAs (Decidable (∃ f ∈ s.flights[j]?, f.phase = p))

instance (s : State) (e : Event) : Decidable (e.Enabled s) := by
  cases e <;> (dsimp only [Event.Enabled]; infer_instance)

instance (s : State) (e : Event) : Decidable (s.Quiet e) := by
  cases e <;> (dsimp only [State.Quiet]; infer_instance)

def next (s : State) (e : Event) : State := (step s e).toOption.getD s

def Taken (s : State) (e : Event) : Prop := e.Enabled s ∧ (step s e).isOk

instance (s : State) (e : Event) : Decidable (Taken s e) := inferInstanceAs (Decidable (_ ∧ _))

lemma Taken.stepped {e : Event} (h : Taken s e) : Stepped s e (next s e) := by
  refine ⟨h.1,?_⟩
  have hok := h.2
  rw [next]
  cases hstep : step s e with
  | ok => rfl
  | error =>
    rw [hstep] at hok
    cases hok

def booted : State where
  mask := 1023
  entry := fun _ => ⟨none,⟨0,0⟩,0,0,false,false,false,false,false⟩
  live := ∅
  born := ∅
  table := fun _ => []
  inactive := []
  active := []
  toFree := []
  freeing := []
  inode := fun _ => ⟨⟨0,0⟩,0,0,0,false,false,0,0,false⟩
  inodes := ∅
  bornInodes := ∅
  dirtyList := []
  holders := []
  dying := []
  drained := []
  pins := []
  flights := []
  owner := none

lemma booted_initial : booted.Initial := by
  constructor <;> intros <;> rfl

def writtenPage : List Event :=
  [.alloc 1 ⟨1,12⟩ 4096 1 true false,.add 1 0 10 false,.lookup 1 0,.mark 10,.unpin 10]

def reclaimed : List Event :=
  writtenPage ++ [.lock .evict 1,.visit,.demote,.visit,.submit 0,.complete 0]

theorem reclaimed_never_faults : ∃ t, step (reclaimed.foldl next booted) (.resume 0) = .ok t :=
  quiet_steps_never_fault (Reach.along (fun s e => s.Quiet e ∧ Taken s e)
    (fun _ _ h => ⟨h.1,h.2.stepped⟩) (.start booted_initial) (by decide +kernel))
    (by decide +kernel) trivial

theorem pages_indexed (hs : Reach State.Initial (guarded State.Quiet Stepped) s) :
    s.resident.Nodup ∧ (∀ h e, e ∈ s.table h ↔ e ∈ s.resident ∧ (s.entry e).slot s.mask = h) ∧
      (∀ e ∈ s.live, (s.entry e).refcount = s.pinned.count e) ∧
      ∀ i ∈ s.inodes, (s.inode i).refcount = s.holders.count i + s.dirtyList.count i ∧
        (s.inode i).cachedPages = s.resident.countP fun e => (s.entry e).inode = some i := by
  obtain ⟨hp,hr,-⟩ := Inv.reached hs
  exact ⟨hp.nodup.of_append_left,hp.chain,hp.count,fun i hi =>
    ⟨hr.count i hi,hp.cached i hi⟩⟩

theorem reclaimed_indexed : (reclaimed.foldl next booted).resident.Nodup :=
  (pages_indexed (Reach.along (fun s e => s.Quiet e ∧ Taken s e) (fun _ _ h => ⟨h.1,h.2.stepped⟩)
    (.start booted_initial) (by decide +kernel))).1

def invalidatedInFlight : List Event :=
  writtenPage ++ [.lock .evict 1,.visit,.demote,.visit,.takeDirty,.link 1 0,.put 1,
    .lock (.flush 1) 1,.visit,.submit 0,.complete 0,.resume 0,.visit,.unlock,.put 1,
    .lock (.invalidate 1) 0,.visit,.unlock]

theorem writeback_reads_cleared_inode :
    Reach State.Initial Stepped (invalidatedInFlight.foldl next booted) ∧
      (Event.submit 0).Enabled (invalidatedInFlight.foldl next booted) ∧
      step (invalidatedInFlight.foldl next booted) (.submit 0) = .error (.clearedInode 10) := by
  refine ⟨Reach.along Taken (fun _ _ h => h.stepped) (.start booted_initial) ?_,?_,?_⟩
  · decide +kernel
  · decide +kernel
  rfl

end B1nix.PageLife
