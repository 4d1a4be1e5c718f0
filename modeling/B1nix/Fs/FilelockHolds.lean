import B1nix.Fs.Filelock

namespace B1nix.Fs

open List UInt64

inductive Owner where
  | process (pid : Int)
  | description (ofd : Nat)
deriving DecidableEq, Repr

variable (l : FileLock) (pid : Int)

def ownerOf (ofd : Nat) : Owner := if ofd = 0 then .process pid else .description ofd

def FileLock.owner : Owner := ownerOf l.pid l.ofd

def FileLock.covers (b : Nat) : Prop := Fs.covers l.start l.len b

def FileLock.fits : Prop := Fs.fits l.start l.len

structure Within (m l : FileLock) : Prop where
  inode : m.inode = l.inode
  owner : m.owner = l.owner
  lockType : m.lockType = l.lockType
  bytes : ∀ b, m.covers b → l.covers b

lemma Within.refl (l : FileLock) : Within l l := ⟨rfl,rfl,rfl,fun _ h => h⟩

variable {l m : FileLock} {t t' : LockTable} {a : Ask}
  {k r l' : FileLock} {rest t₁ t₂ t₃ done : LockTable} {inode b : Nat} {o : Owner} {ty ty' : Int}

lemma Within.trans (h : Within m l) (h' : Within l k) : Within m k :=
  ⟨h.inode.trans h'.inode,h.owner.trans h'.owner,h.lockType.trans h'.lockType,
    fun b hb => h'.bytes b (h.bytes b hb)⟩

lemma lockIsMine_iff (l : FileLock) (pid : Int) (ofd : Nat) :
    lockIsMine l pid ofd = true ↔ l.owner = ownerOf pid ofd := by
  unfold lockIsMine FileLock.owner ownerOf
  by_cases h : ofd = 0
  · by_cases hl : l.ofd = 0 <;> simp [h,hl]
  by_cases hl : l.ofd = 0
  · simp [h,hl,Ne.symm h]
  simp [h,hl]

lemma mine_iff (a : Ask) (l : FileLock) :
    a.mine l = true ↔ l.active = true ∧ l.inode = a.inode ∧ l.owner = ownerOf a.pid a.ofd := by
  simp [Ask.mine,lockIsMine_iff,and_assoc]

lemma mem_allocLock (h : allocLock r t = some t') (hm : m ∈ t') : m = r ∨ m ∈ t := by
  obtain ⟨pre,l,rest,rfl,-,rfl⟩ := allocLock_eq_some h
  simp only [mem_append,mem_cons] at hm ⊢
  tauto

structure Piece (m l : FileLock) : Prop where
  active : l.active = true
  within : Within m l
  fits : m.fits

lemma Piece.trans (h : Piece m l) (h' : Piece l k) : Piece m k :=
  ⟨h'.active,h.within.trans h'.within,h.fits⟩

lemma head_piece {stop : UInt64} (hact : l.active = true) (hl : l.fits) (hlt : l.start < stop)
    (hle : stop.toNat ≤ l.last.toNat) :
    Piece { l with len := stop - l.start } l := by
  obtain ⟨hfit,hla⟩ := headLen_spec hlt
  refine ⟨hact,⟨rfl,rfl,rfl,fun b hb => ?_⟩,hfit⟩
  have hb := (covers_iff hfit).mp hb
  refine (covers_iff hl).mpr ⟨hb.1,?_⟩
  unfold FileLock.last at hle
  omega

lemma tail_piece (hact : l.active = true) (hl : l.fits) (hin : m.inode = l.inode)
    (how : m.owner = l.owner) (htype : m.lockType = l.lockType) (hlen : m.len = tailLen l.last m.start)
    (hlo : l.start.toNat ≤ m.start.toNat) (hhi : m.start.toNat ≤ l.last.toNat) : Piece m l := by
  obtain ⟨hfit,hla⟩ := tailLen_spec hhi
  rw [← hlen] at hfit hla
  refine ⟨hact,⟨hin,how,htype,fun b hb => ?_⟩,hfit⟩
  have hb := (covers_iff hfit).mp hb
  rw [hla] at hb
  exact (covers_iff hl).mpr ⟨hlo.trans hb.1,hb.2⟩

lemma carveSlot_piece (hft : l.active = true → l.fits)
    (hm : m = (carveSlot a l).1 ∨ (carveSlot a l).2 = some m) (hact : m.active = true) : Piece m l := by
  unfold carveSlot at hm
  split at hm
  · next hmi =>
    simp only [Bool.and_eq_true,lockOverlaps,decide_eq_true_eq] at hmi
    obtain ⟨hmi,hlo,hhi⟩ := hmi
    obtain ⟨hactive,hin,how⟩ := (mine_iff a l).mp hmi
    have hl := hft hactive
    have hta : a.last < l.last → l.start.toNat ≤ (a.last + 1).toNat ∧
        (a.last + 1).toNat ≤ l.last.toNat := by
      intro hlt
      rw [toNat_add_one hlt]
      exact ⟨Nat.le_succ_of_le hlo,lt_iff_toNat_lt.mp hlt⟩
    split at hm
    · next hsp =>
      obtain rfl | hm := hm
      · exact head_piece hactive hl hsp.1 hhi
      cases hm
      exact tail_piece hactive hl hin.symm how.symm rfl rfl (hta hsp.2).1
        (hta hsp.2).2
    split at hm
    · next htrim =>
      obtain rfl | hm := hm
      · exact head_piece hactive hl htrim.1 hhi
      cases hm
    split_ifs at hm with htrim
    · obtain rfl | hm := hm
      · exact tail_piece hactive hl rfl rfl rfl rfl (hta htrim.2).1 (hta htrim.2).2
      cases hm
    obtain rfl | hm := hm
    · cases hact
    cases hm
  obtain rfl | hm := hm
  · exact ⟨hact,Within.refl m,hft hact⟩
  cases hm

def AllFit (t : LockTable) : Prop := ∀ l ∈ t, l.active = true → l.fits

def Refines (t' t : LockTable) : Prop := ∀ m ∈ t', m.active = true → ∃ l ∈ t, Piece m l

lemma Refines.refl (ht : AllFit t) : Refines t t :=
  fun m hm hact => ⟨m,hm,hact,Within.refl m,ht m hm hact⟩

lemma Refines.trans (h : Refines t₁ t₂) (h' : Refines t₂ t₃) : Refines t₁ t₃ := by
  intro m hm hact
  obtain ⟨l,hl,hp⟩ := h m hm hact
  obtain ⟨k,hk,hp'⟩ := h' l hl hp.active
  exact ⟨k,hk,hp.trans hp'⟩

lemma Refines.allFit (h : Refines t' t) : AllFit t' :=
  fun m hm hact => (h m hm hact).choose_spec.2.fits

lemma slot_refines (ht : AllFit (done ++ l :: rest))
    (ht' : ∀ m ∈ t', m ∈ done ∨ m ∈ rest ∨ m = (carveSlot a l).1 ∨ (carveSlot a l).2 = some m) :
    Refines t' (done ++ l :: rest) := by
  intro m hm hact
  have hse := Refines.refl ht
  obtain h | h | h := ht' m hm
  · exact hse m (mem_append_left _ h) hact
  · exact hse m (mem_append_right _ (.tail _ h)) hact
  have hmem : l ∈ done ++ l :: rest := mem_append_right _ (.head _)
  exact ⟨l,hmem,carveSlot_piece (ht l hmem) h hact⟩

lemma carve_refines (ht : AllFit (done ++ rest)) :
    Refines (carve a done rest).2 (done ++ rest) := by
  fun_induction carve a done rest with
  | case1 =>
    rw [append_nil] at ht ⊢
    exact Refines.refl ht
  | case2 done l rest l' hsl ih =>
    have hstep : Refines (done ++ [l'] ++ rest) (done ++ l :: rest) := by
      refine slot_refines (a := a) ht fun m hm => ?_
      simp only [mem_append,mem_singleton] at hm
      rw [hsl]
      tauto
    exact (ih hstep.allFit).trans hstep
  | case3 done l rest l' _ hsl done' hal ih =>
    have hstep : Refines (done' ++ [l'] ++ rest) (done ++ l :: rest) := by
      refine slot_refines (a := a) ht fun m hm => ?_
      simp only [mem_append,mem_singleton] at hm
      rw [hsl]
      obtain (h | h) | h := hm
      · obtain h | h := mem_allocLock hal h
        · exact .inr (.inr (.inr (by rw [h])))
        exact .inl h
      · exact .inr (.inr (.inl h))
      exact .inr (.inl h)
    exact (ih hstep.allFit).trans hstep
  | case4 done l rest l' _ hsl _ rest' hal ih =>
    have hstep : Refines (done ++ [l'] ++ rest') (done ++ l :: rest) := by
      refine slot_refines (a := a) ht fun m hm => ?_
      simp only [mem_append,mem_singleton] at hm
      rw [hsl]
      obtain (h | h) | h := hm
      · exact .inl h
      · exact .inr (.inr (.inl h))
      obtain h | h := mem_allocLock hal h
      · exact .inr (.inr (.inr (by rw [h])))
      exact .inr (.inl h)
    exact (ih hstep.allFit).trans hstep
  | case5 => exact Refines.refl ht

lemma newEnd_toNat (l m : FileLock) : (newEnd l m).toNat = max l.last.toNat m.last.toNat := by
  have hl := toNat_le_eof l.last
  have hm := toNat_le_eof m.last
  unfold newEnd
  split_ifs with h h
  · obtain h | h := h
    · rw [h] at hl ⊢
      omega
    rw [h] at hm ⊢
    omega
  · rw [lt_iff_toNat_lt] at h
    omega
  rw [lt_iff_toNat_lt] at h
  omega

lemma mergePair_spec (hl : l.fits) (hm : m.fits) (h : canMerge l.start l.len m.start m.len = true) :
    (mergePair l m).fits ∧ ∀ b, (mergePair l m).covers b ↔ l.covers b ∨ m.covers b := by
  obtain ⟨hlm,hml⟩ := canMerge_spec hl hm h
  have hme := start_le_lastByte hm
  have hsta : (newStart l m).toNat = min l.start.toNat m.start.toNat := by
    unfold newStart
    split_ifs with h
    · rw [lt_iff_toNat_lt] at h
      omega
    rw [lt_iff_toNat_lt] at h
    omega
  have hend := newEnd_toNat l m
  simp only [FileLock.last] at hend
  have hord : (newStart l m).toNat ≤ (newEnd l m).toNat := by omega
  obtain ⟨hfit,hla⟩ := tailLen_spec hord
  refine ⟨hfit,fun b => ?_⟩
  have hcov := covers_iff hfit (b := b)
  rw [hla] at hcov
  simp only [FileLock.covers,mergePair,hcov,covers_iff hl,covers_iff hm]
  omega

structure FileLock.Holds (l : FileLock) (inode : Nat) (o : Owner) (ty : Int) (b : Nat) : Prop where
  active : l.active = true
  inode : l.inode = inode
  owner : l.owner = o
  lockType : l.lockType = ty
  bytes : l.covers b

def Holds (t : LockTable) (inode : Nat) (o : Owner) (ty : Int) (b : Nat) : Prop :=
  ∃ l ∈ t, l.Holds inode o ty b

lemma holds_cons : Holds (l :: t) inode o ty b ↔ l.Holds inode o ty b ∨ Holds t inode o ty b := by
  simp [Holds]

lemma allFit_cons : AllFit (l :: t) ↔ (l.active = true → l.fits) ∧ AllFit t := by
  simp [AllFit]

lemma Refines.holds (h : Refines t' t) (hb : Holds t' inode o ty b) : Holds t inode o ty b := by
  obtain ⟨m,hm,hho⟩ := hb
  obtain ⟨l,hl,hp⟩ := h m hm hho.active
  exact ⟨l,hl,hp.active,hp.within.inode ▸ hho.inode,hp.within.owner ▸ hho.owner,
    hp.within.lockType ▸ hho.lockType,hp.within.bytes b hho.bytes⟩

def SameHolds (t' t : LockTable) : Prop :=
  AllFit t' ∧ ∀ inode o ty b, Holds t' inode o ty b ↔ Holds t inode o ty b

lemma SameHolds.refl (ht : AllFit t) : SameHolds t t := ⟨ht,fun _ _ _ _ => Iff.rfl⟩

lemma SameHolds.trans (h : SameHolds t₁ t₂) (h' : SameHolds t₂ t₃) :
    SameHolds t₁ t₃ :=
  ⟨h.1,fun inode o ty b => (h.2 inode o ty b).trans (h'.2 inode o ty b)⟩

lemma SameHolds.cons (hl : l.active = true → l.fits) (h : SameHolds t' t) :
    SameHolds (l :: t') (l :: t) := by
  refine ⟨allFit_cons.mpr ⟨hl,h.1⟩,fun inode o ty b => ?_⟩
  rw [holds_cons,holds_cons,h.2]

lemma SameHolds.swap (ht : AllFit (k :: l :: t)) : SameHolds (k :: l :: t) (l :: k :: t) := by
  refine ⟨ht,fun inode o ty b => ?_⟩
  simp only [holds_cons]
  tauto

lemma merge_holds (hl : a.mine l = true) (hm : mergeable a l m = true) (ht : AllFit (l :: m :: rest)) :
    SameHolds (mergePair l m :: { m with active := false } :: rest) (l :: m :: rest) := by
  simp only [mergeable,Bool.and_eq_true,beq_iff_eq] at hm
  obtain ⟨⟨hmi,htype⟩,hcan⟩ := hm
  obtain ⟨hact,hin,how⟩ := (mine_iff a l).mp hl
  obtain ⟨hact',hinode',howner'⟩ := (mine_iff a m).mp hmi
  obtain ⟨hfl,hrs⟩ := allFit_cons.mp ht
  obtain ⟨hfm,hrs⟩ := allFit_cons.mp hrs
  obtain ⟨hfit,hcov⟩ := mergePair_spec (hfl hact) (hfm hact') hcan
  refine ⟨allFit_cons.mpr ⟨fun _ => hfit,allFit_cons.mpr ⟨fun h => absurd h (by simp),hrs⟩⟩,
    fun inode o ty b => ?_⟩
  simp only [holds_cons,← or_assoc]
  refine or_congr ?_ .rfl
  constructor
  · rintro (⟨-,hi,ho,hty,hb⟩ | ⟨h,-,-,-,-⟩)
    · obtain hb | hb := (hcov b).mp hb
      · exact .inl ⟨hact,hi,ho,hty,hb⟩
      refine .inr ⟨hact',?_,?_,htype ▸ hty,hb⟩
      · rw [hinode',← hin]
        exact hi
      rw [howner',← how]
      exact ho
    cases h
  rintro (⟨-,hi,ho,hty,hb⟩ | ⟨-,hi,ho,hty,hb⟩)
  · exact .inl ⟨hact,hi,ho,hty,(hcov b).mpr (.inl hb)⟩
  refine .inl ⟨hact,?_,?_,htype.trans hty,(hcov b).mpr (.inr hb)⟩
  · rw [← hi,hinode']
    exact hin
  rw [← ho,howner']
  exact how

lemma absorb_holds (hl : a.mine l = true) (h : absorb a l t = some (l', t'))
    (ht : AllFit (l :: t)) : SameHolds (l' :: t') (l :: t) := by
  induction t generalizing t' with
  | nil => simp [absorb] at h
  | cons _ _ ih =>
    simp only [absorb] at h
    split_ifs at h with hm
    · cases h
      exact merge_holds hl hm ht
    obtain ⟨⟨l₁,t₁⟩,hrs,heq⟩ := Option.map_eq_some_iff.mp h
    cases heq
    obtain ⟨hfl,hrest'⟩ := allFit_cons.mp ht
    obtain ⟨hfm,hrest'⟩ := allFit_cons.mp hrest'
    have hsa := ih hrs (allFit_cons.mpr ⟨hfl,hrest'⟩)
    obtain ⟨hfl₁,hft₁⟩ := allFit_cons.mp hsa.1
    have hswap := SameHolds.swap (allFit_cons.mpr ⟨hfl₁,allFit_cons.mpr ⟨hfm,hft₁⟩⟩)
    exact (hswap.trans (hsa.cons hfm)).trans
      (SameHolds.swap (allFit_cons.mpr ⟨hfm,allFit_cons.mpr ⟨hfl,hrest'⟩⟩))

lemma mergeOnce_holds (h : mergeOnce a t = some t') (ht : AllFit t) : SameHolds t' t := by
  induction t generalizing t' with
  | nil => simp [mergeOnce] at h
  | cons _ _ ih =>
    simp only [mergeOnce] at h
    split at h
    · next l' rest' hab =>
      cases h
      split at hab
      · next hmi => exact absorb_holds hmi hab ht
      cases hab
    obtain ⟨t₁,hrs,rfl⟩ := Option.map_eq_some_iff.mp h
    obtain ⟨hfl,hrest'⟩ := allFit_cons.mp ht
    exact (ih hrs hrest').cons hfl

lemma mergeAdjacentLocks_holds (ht : AllFit t) : SameHolds (mergeAdjacentLocks a t) t := by
  fun_induction mergeAdjacentLocks a t with
  | case1 => exact SameHolds.refl ht
  | case2 _ _ h ih =>
    have hsa := mergeOnce_holds h ht
    exact (ih hsa.1).trans hsa

open Transition

def Ask.Fits (a : Ask) : Prop := a.lType ≠ fUnlck → fits a.start a.len

lemma record_owner (a : Ask) : a.record.owner = ownerOf a.pid a.ofd := rfl

variable {s : LockState} {c : Call} {r : FileLock}

lemma alloc_holds (ha : fits a.start a.len) (ht : AllFit t) (h : allocLock a.record t = some t') :
    AllFit t' ∧ ∀ inode o ty b, Holds t' inode o ty b →
      Holds t inode o ty b ∨ a.record.Holds inode o ty b := by
  constructor
  · intro m hm hact
    obtain rfl | hm := mem_allocLock h hm
    · exact ha
    exact ht m hm hact
  rintro inode o ty b ⟨m,hm,hho⟩
  obtain rfl | hm := mem_allocLock h hm
  · exact .inr hho
  exact .inl ⟨m,hm,hho⟩

lemma applyLock_holds (ha : a.Fits) (ht : AllFit t) :
    AllFit (applyLock a t).2 ∧ ∀ inode o ty b, Holds (applyLock a t).2 inode o ty b →
      Holds t inode o ty b ∨ (a.lType ≠ fUnlck ∧ a.record.Holds inode o ty b) := by
  have hcr : Refines (carve a [] t).2 t := carve_refines ht
  unfold applyLock
  split
  · exact ⟨ht,fun _ _ _ _ => .inl⟩
  split
  · next t' heq =>
    rw [heq] at hcr
    exact ⟨hcr.allFit,fun _ _ _ _ h => .inl (hcr.holds h)⟩
  next t' heq =>
  rw [heq] at hcr
  split_ifs with hty
  · split
    · exact ⟨hcr.allFit,fun _ _ _ _ h => .inl (hcr.holds h)⟩
    next t'' hal =>
    obtain ⟨hfit,hhd⟩ := alloc_holds (ha hty) hcr.allFit hal
    have hmr := mergeAdjacentLocks_holds (a := a) hfit
    refine ⟨hmr.1,fun inode o ty b h => ?_⟩
    obtain h | h := hhd inode o ty b ((hmr.2 inode o ty b).mp h)
    · exact .inl (hcr.holds h)
    exact .inr ⟨hty,h⟩
  exact ⟨hcr.allFit,fun _ _ _ _ h => .inl (hcr.holds h)⟩

def Exclusive (t : LockTable) : Prop :=
  ∀ inode b o o' ty ty', Holds t inode o ty b → Holds t inode o' ty' b → o ≠ o' →
    ty = fRdlck ∧ ty' = fRdlck

lemma no_conflict (ha : fits a.start a.len) (ht : AllFit t) (h : filelockConflictExists a t = false)
    {inode : Nat} {o o' : Owner} {ty : Int} (hold : Holds t inode o ty b)
    (hnew : a.record.Holds inode o' ty' b) (hne : o ≠ o') : ty = fRdlck ∧ ty' = fRdlck := by
  obtain ⟨l,hl,hho⟩ := hold
  have hnot := any_eq_false.mp h l hl
  have hov : lockOverlaps l.start l.len a.start a.len = true :=
    (lockOverlaps_iff (ht l hl hho.active) ha).mpr ⟨b,hho.bytes,hnew.bytes⟩
  have hmi : lockIsMine l a.pid a.ofd = false := by
    rw [← Bool.not_eq_true,lockIsMine_iff,hho.owner,← record_owner,hnew.owner]
    exact hne
  have hin : l.inode = a.inode := hho.inode.trans hnew.inode.symm
  have hty : a.lType = ty' := hnew.lockType
  simp only [conflicting,hho.active,hin,hmi,hov,lockConflicts,hho.lockType,hty,
    beq_self_eq_true,Bool.not_false,Bool.true_and,Bool.not_eq_true,
    Bool.not_eq_false',Bool.and_eq_true,beq_iff_eq] at hnot
  exact hnot

lemma applyLock_exclusive (ha : a.Fits) (ht : AllFit t) (hx : Exclusive t)
    (h : a.lType = fUnlck ∨ filelockConflictExists a t = false) : Exclusive (applyLock a t).2 := by
  have hhd := (applyLock_holds ha ht).2
  have hnew : ∀ {inode b o o' ty ty'}, Holds t inode o ty b →
      a.lType ≠ fUnlck ∧ a.record.Holds inode o' ty' b → o ≠ o' → ty = fRdlck ∧ ty' = fRdlck := by
    intro inode b o o' ty ty' hold hrec hne
    exact no_conflict (ha hrec.1) ht (h.resolve_left hrec.1) hold hrec.2 hne
  intro inode b o o' ty ty' h1 h2 hne
  rcases hhd _ _ _ _ h1 with h1 | h1 <;> rcases hhd _ _ _ _ h2 with h2 | h2
  · exact hx _ _ _ _ _ _ h1 h2 hne
  · exact hnew h1 h2 hne
  · exact (hnew h2 h1 hne.symm).symm
  cases hne (h1.2.owner.symm.trans h2.2.owner)

structure Safe (s : LockState) : Prop where
  allFit : AllFit s.table
  exclusive : Exclusive s.table
  sleepers : ∀ a ∈ s.sleepers, a.Fits

lemma safe_applyLock (hs : Safe s) (ha : a.Fits)
    (h : a.lType = fUnlck ∨ filelockConflictExists a s.table = false) {ss : List Ask}
    (hss : ∀ a ∈ ss, a ∈ s.sleepers) : Safe ⟨(applyLock a s.table).2,ss⟩ :=
  ⟨(applyLock_holds ha hs.allFit).1,applyLock_exclusive ha hs.allFit hs.exclusive h,
    fun a ha => hs.sleepers a (hss a ha)⟩

lemma safe_lockAttempt (hs : Safe s) (ha : a.Fits) (blocking : Bool) :
    Safe (s.enter (lockAttempt c a blocking s.table)) := by
  unfold lockAttempt
  split
  · split
    · exact hs
    split
    · exact hs
    refine ⟨hs.allFit,hs.exclusive,fun a' ha' => ?_⟩
    obtain h | h := mem_append.mp ha'
    · exact hs.sleepers a' h
    rw [mem_singleton.mp h]
    exact ha
  next hno =>
  refine safe_applyLock hs ha ?_ (fun _ h => h)
  by_cases hty : a.lType = fUnlck
  · exact .inl hty
  exact .inr (Bool.eq_false_iff.mpr fun hc => hno ⟨hty,hc⟩)

def Call.RangeFits (c : Call) : Prop :=
  c.fl.lType ≠ fUnlck → c.cmd ≠ .getlk →
    ∀ h, c.handle = some h → fits (lockStart h c.fl) c.fl.lLen

def LockEvent.RangeFits : LockEvent → Prop
  | .posix c => c.RangeFits
  | .ofd c => c.RangeFits
  | _ => True

lemma safe_filelockDo (hs : Safe s) (hc : c.RangeFits) (ofd : Nat) :
    Safe (s.enter (filelockDo c ofd s.table)) := by
  unfold filelockDo
  split
  · exact hs
  split
  · exact hs
  next h hh =>
  cases hcmd : c.cmd with
  | getlk => exact hs
  | setlk =>
    exact safe_lockAttempt hs (fun hty => hc hty (by simp [hcmd]) h hh) false
  | setlkw =>
    exact safe_lockAttempt hs (fun hty => hc hty (by simp [hcmd]) h hh) true

lemma releaseIf_refines {p : FileLock → Bool} (ht : AllFit t) : Refines (releaseIf p t) t := by
  intro m hm hact
  obtain ⟨l,hl,rfl⟩ := mem_map.mp hm
  split at hact
  · cases hact
  next hkp =>
  rw [if_neg hkp]
  exact Refines.refl ht l hl hact

lemma Safe.refine (hs : Safe s) (h : Refines t s.table) :
    Safe { s with table := t } :=
  ⟨h.allFit,fun inode b o o' ty ty' h1 h2 hne =>
    hs.exclusive inode b o o' ty ty' (h.holds h1) (h.holds h2) hne,hs.sleepers⟩

lemma safe_wake (hs : Safe s) (k : Nat) (signalPending : Bool) : Safe (s.wake k signalPending) := by
  unfold LockState.wake
  split
  · exact hs
  next a ha =>
  have hmem := mem_of_getElem? ha
  split
  · split
    · exact ⟨hs.allFit,hs.exclusive,fun a' h => hs.sleepers a' (mem_of_mem_eraseIdx h)⟩
    exact hs
  next hno =>
  exact safe_applyLock hs (hs.sleepers a hmem) (.inr (Bool.eq_false_iff.mpr hno))
    (fun _ => mem_of_mem_eraseIdx)

lemma safe_next (hs : Safe s) {e : LockEvent} (he : e.RangeFits) : Safe (s.next e) := by
  cases e with
  | posix => exact safe_filelockDo hs he 0
  | ofd =>
    simp only [LockState.next,filelockSetLockOfd]
    split
    · exact hs
    split
    · exact hs
    exact safe_filelockDo hs he _
  | wake k signalPending => exact safe_wake hs k signalPending
  | closeInode =>
    simp only [LockState.next,filelockReleaseAllByPidInode]
    split
    · exact hs
    exact hs.refine (releaseIf_refines hs.allFit)
  | closeOfd =>
    simp only [LockState.next,filelockReleaseAllByOfd]
    split
    · exact hs
    exact hs.refine (releaseIf_refines hs.allFit)

lemma safe_boot : Safe LockState.boot := by
  have hfe : ∀ l ∈ LockState.boot.table, l.active = false := by
    intro l hl
    rw [(mem_replicate.mp hl).2]
    rfl
  refine ⟨fun l hl hact => ?_,fun _ _ _ _ _ _ h1 => ?_,fun a ha => absurd ha not_mem_nil⟩
  · rw [hfe l hl] at hact
    cases hact
  obtain ⟨l,hl,hho⟩ := h1
  exact absurd hho.active (by simp [hfe l hl])

def LockRun (ok : LockState → LockEvent → Prop) : LockState → Prop :=
  Reach (· = LockState.boot) (guarded ok fun s e t => t = s.next e)

lemma safe_of_run (h : LockRun (fun _ e => e.RangeFits) s) : Safe s := by
  refine Reach.invariant (fun s hs => ?_) (fun s e t hs hstep => ?_) h
  · rw [hs]
    exact safe_boot
  rw [hstep.2]
  exact safe_next hs hstep.1

lemma carve_of_foreign {rest : LockTable} (h : ∀ l ∈ rest, a.mine l = false) (done : LockTable) :
    carve a done rest = (true, done ++ rest) := by
  induction rest generalizing done with
  | nil => rw [carve,append_nil]
  | cons l _ ih =>
    have hsl : carveSlot a l = (l, none) := by simp [carveSlot,h l (.head _)]
    rw [carve,hsl]
    dsimp only
    rw [ih (fun m hm => h m (.tail _ hm)),append_assoc]
    rfl

section

variable (h : ∀ m ∈ t, a.mine m = false)

include h

lemma absorb_of_foreign (l : FileLock) : absorb a l t = none := by
  induction t with
  | nil => rfl
  | cons m _ ih =>
    have hm : mergeable a l m = false := by simp [mergeable,h m (.head _)]
    simp [absorb,hm,ih (fun k hk => h k (.tail _ hk))]

lemma mergeOnce_of_foreign : mergeOnce a t = none := by
  induction t with
  | nil => rfl
  | cons m _ ih =>
    simp [mergeOnce,h m (.head _),ih (fun k hk => h k (.tail _ hk))]

lemma mergeOnce_of_first (hal : allocLock r t = some t') : mergeOnce a t' = none := by
  induction t generalizing t' with
  | nil => simp [allocLock] at hal
  | cons l rest ih =>
    have hrs : ∀ m ∈ rest, a.mine m = false := fun m hm => h m (.tail _ hm)
    simp only [allocLock] at hal
    split at hal
    · cases hal
      simp [mergeOnce,absorb_of_foreign hrs,mergeOnce_of_foreign hrs]
    obtain ⟨rest',hrest',rfl⟩ := Option.map_eq_some_iff.mp hal
    simp [mergeOnce,h l (.head _),ih hrs hrest']

end

lemma freeSlots_pos (h : allocLock r t = some t') : 0 < freeSlots t := by
  obtain ⟨pre,l,rest,rfl,hfe,-⟩ := allocLock_eq_some h
  exact countP_pos_iff.mpr ⟨l,mem_append_cons_self,by rw [hfe]; rfl⟩

lemma applyLock_first (h : ∀ l ∈ t, a.mine l = false) (hty : a.lType ≠ fUnlck)
    (hal : allocLock a.record t = some t') : applyLock a t = (0, t') := by
  have hsp : needsSplit a t = false := by
    simp only [needsSplit,any_eq_false]
    intro l hl
    simp [h l hl]
  have hro : ¬freeSlots t < slotsNeeded a t := by
    have := freeSlots_pos hal
    simp only [slotsNeeded,if_neg hty,hsp]
    exact not_lt.mpr this
  have hmr : mergeAdjacentLocks a t' = t' := by
    rw [mergeAdjacentLocks]
    split
    · rfl
    next t'' hsm =>
    rw [mergeOnce_of_first h hal] at hsm
    cases hsm
  simp [applyLock,if_neg hro,carve_of_foreign h,if_pos hty,hal,hmr]

def processLock (ty : Int) (start len : UInt64) : Call :=
  ⟨3,.setlk,⟨ty,.set,start,len,0⟩,some ⟨1,some (7, 0),0⟩,pid,false⟩

def processAsk (ty : Int) (start len : UInt64) : Ask := ⟨7,pid,0,ty,start,len⟩

lemma next_processLock (s : LockState) (pid ty : Int) (start len : UInt64) (t' : LockTable)
    (h : ∀ l ∈ s.table, (processAsk pid ty start len).mine l = false) (hty : ty ≠ fUnlck)
    (hfe : filelockConflictExists (processAsk pid ty start len) s.table = false)
    (hal : allocLock (processAsk pid ty start len).record s.table = some t') :
    s.next (.posix (processLock pid ty start len)) = { s with table := t' } := by
  have happly := applyLock_first h hty hal
  have hdo : filelockSetLock (processLock pid ty start len) s.table =
      lockAttempt (processLock pid ty start len) (processAsk pid ty start len) false s.table := rfl
  have hno : ¬((processAsk pid ty start len).lType ≠ fUnlck ∧
      filelockConflictExists (processAsk pid ty start len) s.table = true) := by
    simp [hfe]
  simp [LockState.next,hdo,lockAttempt,if_neg hno,happly,LockState.enter]

def twoLocks (r r' : FileLock) : LockState := ⟨r :: r' :: replicate 254 FileLock.free,[]⟩

lemma run_two_locks {ok : LockState → LockEvent → Prop} {pid pid' ty : Int}
    {start len start' len' : UInt64} (hpid : pid ≠ pid') (hty : ty ≠ fUnlck) (hty' : ty' ≠ fUnlck)
    (hfe : conflicting (processAsk pid' ty' start' len') (processAsk pid ty start len).record = false)
    (hok : ∀ s, ok s (.posix (processLock pid ty start len)))
    (hok' : ∀ s, ok s (.posix (processLock pid' ty' start' len'))) :
    LockRun ok (twoLocks (processAsk pid ty start len).record (processAsk pid' ty' start' len').record) := by
  have hqt : ∀ a : Ask, conflicting a FileLock.free = false := fun a => rfl
  have hfst := next_processLock LockState.boot pid ty start len
    ((processAsk pid ty start len).record :: replicate 255 FileLock.free)
    (fun l hl => by rw [(mem_replicate.mp hl).2]; rfl) hty
    (any_eq_false.mpr fun l hl => by rw [(mem_replicate.mp hl).2,hqt]; simp) rfl
  have hsec := next_processLock
    ⟨(processAsk pid ty start len).record :: replicate 255 FileLock.free,[]⟩
    pid' ty' start' len'
    ((processAsk pid ty start len).record :: (processAsk pid' ty' start' len').record ::
      replicate 254 FileLock.free)
    (fun l hl => by
      obtain h | h := mem_cons.mp hl
      · rw [h]
        simp [Ask.mine,Ask.record,processAsk,lockIsMine,hpid]
      rw [(mem_replicate.mp h).2]
      rfl) hty'
    (any_eq_false.mpr fun l hl => by
      obtain h | h := mem_cons.mp hl
      · rw [h,hfe]
        simp
      rw [(mem_replicate.mp h).2,hqt]
      simp) rfl
  have hone : LockRun ok
      ⟨(processAsk pid ty start len).record :: replicate 255 FileLock.free,[]⟩ :=
    Reach.next (Reach.start rfl) ⟨hok LockState.boot,hfst.symm⟩
  exact Reach.next hone ⟨hok' _,hsec.symm⟩

theorem exclusion_of_fitting_ranges {s : LockState} (h : LockRun (fun _ e => e.RangeFits) s)
    {l l' : FileLock} (hl : l ∈ s.table) (hl' : l' ∈ s.table) (hact : l.active = true)
    (hact' : l'.active = true) (hinode : l.inode = l'.inode) (howner : l.owner ≠ l'.owner)
    {b : Nat} (hb : l.covers b) (hb' : l'.covers b) :
    l.lockType = fRdlck ∧ l'.lockType = fRdlck :=
  (safe_of_run h).exclusive l.inode b l.owner l'.owner l.lockType l'.lockType
    ⟨l,hl,hact,rfl,rfl,rfl,hb⟩ ⟨l',hl',hact',hinode.symm,rfl,rfl,hb'⟩ howner

theorem exclusion_of_two_readers : ∃ s, LockRun (fun _ e => e.RangeFits) s ∧
    ∃ l ∈ s.table, ∃ l' ∈ s.table, l.owner ≠ l'.owner ∧ l.covers 5 ∧ l'.covers 5 ∧
      l.lockType = fRdlck ∧ l'.lockType = fRdlck := by
  have hrun : LockRun (fun _ e => e.RangeFits) (twoLocks (processAsk 1 fRdlck 0 10).record
      (processAsk 2 fRdlck 5 0).record) :=
    run_two_locks (by decide) (by decide) (by decide) (by decide)
      (fun _ _ _ h hh => by cases hh; exact .inr (by decide))
      (fun _ _ _ h hh => by cases hh; exact .inl rfl)
  have hb : (processAsk 1 fRdlck 0 10).record.covers 5 := ⟨by decide,by decide,by decide⟩
  have hb' : (processAsk 2 fRdlck 5 0).record.covers 5 := ⟨by decide,by decide,by decide⟩
  exact ⟨_,hrun,_,.head _,_,.tail _ (.head _),by decide,
    hb,hb',exclusion_of_fitting_ranges hrun (.head _)
      (.tail _ (.head _)) rfl rfl rfl (by decide) hb hb'⟩

theorem wrapped_range_breaks_exclusion : ∃ s, LockRun (fun _ _ => True) s ∧
    ∃ l ∈ s.table, ∃ l' ∈ s.table, l.active = true ∧ l'.active = true ∧ l.inode = l'.inode ∧
      l.owner ≠ l'.owner ∧ l.lockType = fWrlck ∧ l'.lockType = fWrlck ∧
        l.covers 11 ∧ l'.covers 11 := by
  have hrun : LockRun (fun _ _ => True) (twoLocks
      (processAsk 1 fWrlck 10 0xFFFFFFFFFFFFFFFB).record (processAsk 2 fWrlck 10 3).record) :=
    run_two_locks (by decide) (by decide) (by decide) (by decide) (fun _ => trivial)
      (fun _ => trivial)
  have hb : (processAsk 1 fWrlck 10 0xFFFFFFFFFFFFFFFB).record.covers 11 :=
    ⟨by decide,by decide,by decide⟩
  have hb' : (processAsk 2 fWrlck 10 3).record.covers 11 := ⟨by decide,by decide,by decide⟩
  exact ⟨_,hrun,_,.head _,_,.tail _ (.head _),rfl,rfl, rfl,by decide,rfl,rfl,hb,hb'⟩

end B1nix.Fs
