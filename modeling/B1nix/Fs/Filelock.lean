import B1nix.Basic.Transition

namespace B1nix.Fs

open UInt64

def maxFileLocks : Nat := 256

def fRdlck : Int := 0

def fWrlck : Int := 1

def fUnlck : Int := 2

def eagain : Int := 11

def enomem : Int := 12

def einval : Int := 22

def ebadf : Int := 9

def erestartsys : Int := 512

structure FileLock where
  active : Bool
  inode : Nat
  pid : Int
  ofd : Nat
  lockType : Int
  start : UInt64
  len : UInt64
deriving DecidableEq, Repr

def FileLock.free : FileLock := ⟨false,0,0,0,0,0,0⟩

abbrev LockTable := List FileLock

def filelockInit : LockTable := List.replicate maxFileLocks FileLock.free

def eof : UInt64 := 0xFFFFFFFFFFFFFFFF

def lastByte (start len : UInt64) : UInt64 := if len ≠ 0 then start + len - 1 else eof

def FileLock.last (l : FileLock) : UInt64 := lastByte l.start l.len

structure Ask where
  inode : Nat
  pid : Int
  ofd : Nat
  lType : Int
  start : UInt64
  len : UInt64
deriving DecidableEq, Repr

variable (a : Ask) (l m : FileLock) (t : LockTable) {r : FileLock}

def Ask.last : UInt64 := lastByte a.start a.len

def lockIsMine (myPid : Int) (myOfd : Nat) : Bool :=
  if myOfd ≠ 0 then l.ofd == myOfd else l.ofd == 0 && l.pid == myPid

def Ask.mine : Bool := l.active && l.inode == a.inode && lockIsMine l a.pid a.ofd

def lockOverlaps (start1 len1 start2 len2 : UInt64) : Bool :=
  decide (start1 ≤ lastByte start2 len2) && decide (start2 ≤ lastByte start1 len1)

def lockConflicts (existing : FileLock) (lockType : Int) : Bool :=
  !(existing.lockType == fRdlck && lockType == fRdlck)

def conflicting : Bool :=
  l.active && l.inode == a.inode && !lockIsMine l a.pid a.ofd &&
    lockOverlaps l.start l.len a.start a.len && lockConflicts l a.lType

def filelockConflictExists : Bool := t.any (conflicting a)

def allocLock (r : FileLock) : LockTable → Option LockTable
  | [] => none
  | l :: rest => if l.active = false then some (r :: rest) else (allocLock r rest).map (l :: ·)

def freeSlots : Nat := t.countP (fun l => !l.active)

def needsSplit : Bool :=
  t.any (fun l => a.mine l && decide (l.start < a.start) && decide (a.last < l.last))

def tailLen (last start : UInt64) : UInt64 := if last = eof then 0 else last - start + 1

def carveSlot : FileLock × Option FileLock :=
  if a.mine l && lockOverlaps l.start l.len a.start a.len then
    if l.start < a.start ∧ a.last < l.last then
      ({ l with len := a.start - l.start },
        some ⟨true,a.inode,a.pid,a.ofd,l.lockType,a.last + 1,tailLen l.last (a.last + 1)⟩)
    else if l.start < a.start ∧ l.last ≤ a.last then ({ l with len := a.start - l.start }, none)
    else if a.start ≤ l.start ∧ a.last < l.last then
      ({ l with start := a.last + 1, len := tailLen l.last (a.last + 1) }, none)
    else ({ l with active := false }, none)
  else (l, none)

lemma allocLock_eq_some {t t' : LockTable} (h : allocLock r t = some t') :
    ∃ pre l rest, t = pre ++ l :: rest ∧ l.active = false ∧ t' = pre ++ r :: rest := by
  induction t generalizing t' with
  | nil => simp [allocLock] at h
  | cons l rest ih =>
    simp only [allocLock] at h
    split_ifs at h with hfe
    · cases h
      exact ⟨[],l,rest,rfl,hfe,rfl⟩
    obtain ⟨rest',hrs,rfl⟩ := Option.map_eq_some_iff.mp h
    obtain ⟨pre,m,post,rfl,hfe,rfl⟩ := ih hrs
    exact ⟨l :: pre,m,post,rfl,hfe,rfl⟩

lemma length_allocLock {t t' : LockTable} (h : allocLock r t = some t') :
    t'.length = t.length := by
  obtain ⟨pre,l,rest,rfl,-,rfl⟩ := allocLock_eq_some h
  simp

def carve (done rest : LockTable) : Bool × LockTable :=
  match rest with
  | [] => (true, done)
  | l :: rest =>
    match carveSlot a l with
    | (l', none) => carve (done ++ [l']) rest
    | (l', some piece) =>
      match allocLock piece done with
      | some done' => carve (done' ++ [l']) rest
      | none =>
        match _h : allocLock piece rest with
        | some rest' => carve (done ++ [l']) rest'
        | none => (false, done ++ l :: rest)
termination_by rest.length
decreasing_by
  · simp
  · simp
  simp [length_allocLock _h]

def canMerge (start1 len1 start2 len2 : UInt64) : Bool :=
  let end1 := lastByte start1 len1
  let end2 := lastByte start2 len2
  if end1 = eof then
    if start2 < start1 then decide (end2 = eof) || decide (start1 ≤ end2 + 1) else true
  else if end2 = eof then
    if start1 < start2 then decide (start2 ≤ end1 + 1) else true
  else decide (start1 ≤ end2 + 1) && decide (start2 ≤ end1 + 1)

def newStart : UInt64 := if l.start < m.start then l.start else m.start

def newEnd : UInt64 :=
  if l.last = eof ∨ m.last = eof then eof else if m.last < l.last then l.last else m.last

def mergePair : FileLock :=
  { l with start := newStart l m, len := tailLen (newEnd l m) (newStart l m) }

def mergeable : Bool := a.mine m && l.lockType == m.lockType && canMerge l.start l.len m.start m.len

def absorb : LockTable → Option (FileLock × LockTable)
  | [] => none
  | m :: rest =>
    if mergeable a l m then some (mergePair l m, { m with active := false } :: rest)
    else (absorb rest).map (fun r => (r.1, m :: r.2))

def mergeOnce : LockTable → Option LockTable
  | [] => none
  | l :: rest =>
    match if a.mine l then absorb a l rest else none with
    | some (l', rest') => some (l' :: rest')
    | none => (mergeOnce rest).map (l :: ·)

def activeCount : Nat := t.countP (·.active)

lemma absorb_activeCount {a : Ask} {l l' : FileLock} {t t' : LockTable}
    (h : absorb a l t = some (l', t')) : activeCount t' < activeCount t ∧ l'.active = l.active := by
  induction t generalizing t' with
  | nil => simp [absorb] at h
  | cons m _ ih =>
    simp only [absorb] at h
    split_ifs at h with hm
    · have hact : m.active = true := by
        simp only [mergeable,Ask.mine,Bool.and_eq_true] at hm
        exact hm.1.1.1.1
      cases h
      simp [activeCount,hact,mergePair]
    obtain ⟨⟨l₁,t₁⟩,hrs,heq⟩ := Option.map_eq_some_iff.mp h
    cases heq
    have := ih hrs
    simp only [activeCount,List.countP_cons] at this ⊢
    exact ⟨by omega,this.2⟩

lemma mergeOnce_activeCount {a : Ask} {t t' : LockTable} (h : mergeOnce a t = some t') :
    activeCount t' < activeCount t := by
  induction t generalizing t' with
  | nil => simp [mergeOnce] at h
  | cons _ _ ih =>
    simp only [mergeOnce] at h
    split at h
    · next l' rest' hab =>
      cases h
      split at hab
      · have := absorb_activeCount hab
        simp only [activeCount,List.countP_cons,this.2] at this ⊢
        omega
      simp at hab
    obtain ⟨t₁,hrs,rfl⟩ := Option.map_eq_some_iff.mp h
    have := ih hrs
    simp only [activeCount,List.countP_cons] at this ⊢
    omega

def mergeAdjacentLocks (t : LockTable) : LockTable :=
  match _h : mergeOnce a t with
  | none => t
  | some t' => mergeAdjacentLocks t'
termination_by activeCount t
decreasing_by exact mergeOnce_activeCount _h

def Ask.record : FileLock := ⟨true,a.inode,a.pid,a.ofd,a.lType,a.start,a.len⟩

def slotsNeeded : Nat :=
  if a.lType = fUnlck then (if needsSplit a t then 1 else 0) else (if needsSplit a t then 2 else 1)

def applyLock : Int × LockTable :=
  if freeSlots t < slotsNeeded a t then (-enomem, t)
  else
    match carve a [] t with
    | (false, t') => (-enomem, t')
    | (true, t') =>
      if a.lType ≠ fUnlck then
        match allocLock a.record t' with
        | none => (-enomem, t')
        | some t'' => (0, mergeAdjacentLocks a t'')
      else (0, t')

inductive Cmd where
  | getlk
  | setlk
  | setlkw
deriving DecidableEq, Repr

inductive Whence where
  | set
  | cur
  | fromEnd
  | other
deriving DecidableEq, Repr

structure Flock where
  lType : Int
  whence : Whence
  lStart : UInt64
  lLen : UInt64
  lPid : Int
deriving DecidableEq, Repr

structure Handle where
  addr : Nat
  inode : Option (Nat × UInt64)
  offset : UInt64
deriving DecidableEq, Repr

variable (h : Handle)

def Handle.scope : Nat :=
  match h.inode with
  | some (inode, _) => inode
  | none => h.addr

def Handle.size (h : Handle) : UInt64 :=
  match h.inode with
  | some (_, size) => size
  | none => 0

def lockStart (fl : Flock) : UInt64 :=
  match fl.whence with
  | .cur => h.offset + fl.lStart
  | .fromEnd => h.size + fl.lStart
  | _ => fl.lStart

def resolve (myPid : Int) (ofd : Nat) (fl : Flock) : Ask :=
  ⟨h.scope,myPid,ofd,fl.lType,lockStart h fl,fl.lLen⟩

def getLock (a : Ask) (fl : Flock) (t : LockTable) : Flock :=
  match t.find? (conflicting a) with
  | some l => ⟨l.lockType,.set,l.start,l.len,if l.ofd ≠ 0 then -1 else l.pid⟩
  | none => { fl with lType := fUnlck }

inductive Verdict where
  | finished (rc : Int) (fl : Flock)
  | sleep (a : Ask)
deriving DecidableEq, Repr

structure Call where
  fd : Int
  cmd : Cmd
  fl : Flock
  handle : Option Handle
  myPid : Int
  signalPending : Bool

variable (c : Call)

def lockAttempt (a : Ask) (blocking : Bool) (t : LockTable) : Verdict × LockTable :=
  if a.lType ≠ fUnlck ∧ filelockConflictExists a t = true then
    if blocking = false then (.finished (-eagain) c.fl, t)
    else if c.signalPending then (.finished (-erestartsys) c.fl, t)
    else (.sleep a, t)
  else (.finished (applyLock a t).1 c.fl, (applyLock a t).2)

def filelockDo (ofd : Nat) (t : LockTable) : Verdict × LockTable :=
  if c.fd < 0 then (.finished (-einval) c.fl, t)
  else
    match c.handle with
    | none => (.finished (-ebadf) c.fl, t)
    | some h =>
      let a := resolve h c.myPid ofd c.fl
      match c.cmd with
      | .getlk => (.finished 0 (getLock a c.fl t), t)
      | .setlk => lockAttempt c a false t
      | .setlkw => lockAttempt c a true t

def filelockSetLock (t : LockTable) : Verdict × LockTable := filelockDo c 0 t

def filelockSetLockOfd (t : LockTable) : Verdict × LockTable :=
  match c.handle with
  | none => (.finished (-ebadf) c.fl, t)
  | some h =>
    if c.fl.lPid ≠ 0 then (.finished (-einval) c.fl, t) else filelockDo c h.addr t

def releaseIf (p : FileLock → Bool) (t : LockTable) : LockTable :=
  t.map (fun l => if l.active && p l then { l with active := false } else l)

def filelockReleaseAllByPidInode (pid : Int) (inode : Nat) (t : LockTable) : LockTable :=
  if inode = 0 then t else releaseIf (fun l => l.inode == inode && l.pid == pid) t

def filelockReleaseAllByOfd (ofd : Nat) (t : LockTable) : LockTable :=
  if ofd = 0 then t else releaseIf (fun l => l.ofd == ofd) t

structure LockState where
  table : LockTable
  sleepers : List Ask

def LockState.boot : LockState := ⟨filelockInit,[]⟩

inductive LockEvent where
  | posix (c : Call)
  | ofd (c : Call)
  | wake (k : Nat) (signalPending : Bool)
  | closeInode (pid : Int) (inode : Nat)
  | closeOfd (ofd : Nat)

variable (s : LockState)

def LockState.enter (r : Verdict × LockTable) : LockState :=
  match r.1 with
  | .finished _ _ => { s with table := r.2 }
  | .sleep a => ⟨r.2,s.sleepers ++ [a]⟩

def LockState.wake (k : Nat) (signalPending : Bool) : LockState :=
  match s.sleepers[k]? with
  | none => s
  | some a =>
    if filelockConflictExists a s.table then
      if signalPending then { s with sleepers := s.sleepers.eraseIdx k } else s
    else ⟨(applyLock a s.table).2,s.sleepers.eraseIdx k⟩

def LockState.next : LockEvent → LockState
  | .posix c => s.enter (filelockSetLock c s.table)
  | .ofd c => s.enter (filelockSetLockOfd c s.table)
  | .wake k signalPending => s.wake k signalPending
  | .closeInode pid inode => { s with table := filelockReleaseAllByPidInode pid inode s.table }
  | .closeOfd ofd => { s with table := filelockReleaseAllByOfd ofd s.table }

open List

def vfsCloseHandle (h : Handle) (ownerPid : Int) (t : LockTable) : LockTable :=
  filelockReleaseAllByOfd h.addr (filelockReleaseAllByPidInode ownerPid h.scope t)

def Handle.Owes (h : Handle) (refcount : Nat) (ownerPid : Int) (l : FileLock) : Prop :=
  if l.ofd = 0 then l.inode = h.scope ∧ l.pid = ownerPid else refcount = 1 ∧ l.ofd = h.addr

variable {h : Handle} {refcount b : Nat} {pid : Int} {t : LockTable}

instance Handle.decidableOwes (l : FileLock) : Decidable (h.Owes refcount pid l) :=
  inferInstanceAs (Decidable (if l.ofd = 0 then _ else _))

lemma vfsCloseHandle_eq (haddr : h.addr ≠ 0) (hsc : h.scope ≠ 0) :
    vfsCloseHandle h pid t =
      releaseIf (fun l => l.inode == h.scope && l.pid == pid || l.ofd == h.addr) t := by
  simp only [vfsCloseHandle,filelockReleaseAllByOfd,filelockReleaseAllByPidInode,if_neg haddr,
    if_neg hsc,releaseIf,map_map]
  refine map_congr_left fun l _ => ?_
  grind

theorem close_releases_process_locks (haddr : h.addr ≠ 0) (hscope : h.scope ≠ 0) :
    vfsCloseHandle h pid t = releaseIf (fun l => h.Owes refcount pid l) t ↔
      ∀ l ∈ t, l.active = true → l.ofd ≠ 0 →
        if l.ofd = h.addr then refcount = 1 else l.inode ≠ h.scope ∨ l.pid ≠ pid := by
  rw [vfsCloseHandle_eq haddr hscope,releaseIf,releaseIf,map_inj_left]
  refine forall₂_congr fun l _ => ?_
  grind [Handle.Owes]

def lockedFile : Handle := ⟨1,some (7, 0),0⟩

def heldBy (pid : Int) (ofd : Nat) : FileLock := ⟨true,7,pid,ofd,fWrlck,0,10⟩

theorem close_releases_process_locks_two :
    vfsCloseHandle lockedFile 1 [heldBy 1 0, heldBy 2 5] =
      releaseIf (fun l => lockedFile.Owes 1 1 l) [heldBy 1 0, heldBy 2 5] :=
  (close_releases_process_locks (by decide) (by decide)).mpr (by decide)

theorem close_drops_description_locks :
    ((vfsCloseHandle lockedFile 1 [heldBy 1 5]).map FileLock.active = [false] ∧
      ¬lockedFile.Owes 1 1 (heldBy 1 5)) ∧
    (vfsCloseHandle lockedFile 1 [heldBy 2 1]).map FileLock.active = [false] ∧
      ¬lockedFile.Owes 2 1 (heldBy 2 1) := by
  decide

def covers (start len : UInt64) (b : Nat) : Prop :=
  start.toNat ≤ b ∧ b < 2 ^ 64 ∧ (len = 0 ∨ b < start.toNat + len.toNat)

def fits (start len : UInt64) : Prop := len = 0 ∨ start.toNat + len.toNat ≤ 2 ^ 64

lemma eof_toNat : eof.toNat = 2 ^ 64 - 1 := by decide

variable {x start len y last stop : UInt64}

lemma toNat_pos_of_ne_zero (h : x ≠ 0) : 0 < x.toNat := by
  obtain hz | hp := Nat.eq_zero_or_pos x.toNat
  · cases h (UInt64.toNat_inj.mp (by rw [hz]; rfl))
  exact hp

lemma toNat_add_one (h : x < y) : (x + 1).toNat = x.toNat + 1 := by
  have hy := y.toNat_lt
  have hlt := UInt64.lt_iff_toNat_lt.mp h
  rw [UInt64.toNat_add,UInt64.toNat_one]
  omega

lemma toNat_le_eof (x : UInt64) : x.toNat ≤ eof.toNat := by
  have := x.toNat_lt
  rw [eof_toNat]
  omega

lemma lt_eof (h : x ≠ eof) : x < eof := by
  refine lt_iff_toNat_lt.mpr (lt_of_le_of_ne (toNat_le_eof x) ?_)
  exact fun heq => h (UInt64.toNat_inj.mp heq)

lemma lastByte_zero (start : UInt64) : lastByte start 0 = eof := by
  simp [lastByte]

lemma lastByte_toNat (hlen : len ≠ 0) (h : fits start len) :
    (lastByte start len).toNat = start.toNat + len.toNat - 1 := by
  have hpos := toNat_pos_of_ne_zero hlen
  have hfit := h.resolve_left hlen
  rw [lastByte,if_pos hlen,UInt64.toNat_sub,UInt64.toNat_add,UInt64.toNat_one]
  omega

lemma start_le_lastByte (h : fits start len) : start.toNat ≤ (lastByte start len).toNat := by
  by_cases hlen : len = 0
  · rw [hlen]
    exact toNat_le_eof start
  have := toNat_pos_of_ne_zero hlen
  rw [lastByte_toNat hlen h]
  omega

lemma covers_iff (h : fits start len) :
    covers start len b ↔ start.toNat ≤ b ∧ b ≤ (lastByte start len).toNat := by
  by_cases hlen : len = 0
  · rw [hlen,lastByte_zero,eof_toNat,covers]
    simp only [true_or,and_true]
    omega
  have hpos := toNat_pos_of_ne_zero hlen
  have hfit := h.resolve_left hlen
  rw [lastByte_toNat hlen h,covers]
  simp only [hlen,false_or]
  omega

lemma tailLen_spec (h : start.toNat ≤ last.toNat) :
    fits start (tailLen last start) ∧ lastByte start (tailLen last start) = last := by
  unfold tailLen
  split
  · next heq => exact ⟨.inl rfl,by rw [lastByte_zero,heq]⟩
  next hne =>
  have hla := UInt64.lt_iff_toNat_lt.mp (lt_eof hne)
  rw [eof_toNat] at hla
  have hlen : (last - start + 1).toNat = last.toNat - start.toNat + 1 := by
    rw [UInt64.toNat_add,UInt64.toNat_sub_of_le _ _ (UInt64.le_iff_toNat_le.mpr h),UInt64.toNat_one]
    omega
  have hne : last - start + 1 ≠ 0 := by
    intro hz
    rw [hz,UInt64.toNat_zero] at hlen
    omega
  have hfit : fits start (last - start + 1) := .inr (by rw [hlen]; omega)
  refine ⟨hfit,UInt64.toNat_inj.mp ?_⟩
  rw [lastByte_toNat hne hfit]
  omega

lemma headLen_spec (h : start < stop) :
    fits start (stop - start) ∧ (lastByte start (stop - start)).toNat = stop.toNat - 1 := by
  have hlt := lt_iff_toNat_lt.mp h
  have hsp := stop.toNat_lt
  have hlen : (stop - start).toNat = stop.toNat - start.toNat :=
    UInt64.toNat_sub_of_le _ _ (UInt64.le_iff_toNat_le.mpr hlt.le)
  have hne : stop - start ≠ 0 := by
    intro hz
    rw [hz,UInt64.toNat_zero] at hlen
    omega
  have hfit : fits start (stop - start) := .inr (by rw [hlen]; omega)
  refine ⟨hfit,?_⟩
  rw [lastByte_toNat hne hfit]
  omega

section

variable {start1 len1 start2 len2 : UInt64} (h1 : fits start1 len1) (h2 : fits start2 len2)

include h1 h2

lemma lockOverlaps_iff :
    lockOverlaps start1 len1 start2 len2 = true ↔ ∃ b, covers start1 len1 b ∧ covers start2 len2 b := by
  have hle1 := start_le_lastByte h1
  have hle2 := start_le_lastByte h2
  simp only [lockOverlaps,Bool.and_eq_true,decide_eq_true_eq,le_iff_toNat_le,
    covers_iff h1,covers_iff h2]
  constructor
  · intro h
    exact ⟨max start1.toNat start2.toNat,by omega⟩
  rintro ⟨b,hb1,hb2⟩
  omega

lemma canMerge_spec (h : canMerge start1 len1 start2 len2 = true) :
    start1.toNat ≤ (lastByte start2 len2).toNat + 1 ∧ start2.toNat ≤ (lastByte start1 len1).toNat + 1 := by
  have hle1 := start_le_lastByte h1
  have hle2 := start_le_lastByte h2
  have heof1 := toNat_le_eof start1
  have heof2 := toNat_le_eof start2
  unfold canMerge at h
  dsimp only at h
  split at h
  · next he1 =>
    refine ⟨?_,by rw [he1]; omega⟩
    split_ifs at h with hlt
    · simp only [Bool.or_eq_true,decide_eq_true_eq] at h
      by_cases he2 : lastByte start2 len2 = eof
      · rw [he2]
        omega
      have := le_iff_toNat_le.mp (h.resolve_left he2)
      rwa [toNat_add_one (lt_eof he2)] at this
    rw [lt_iff_toNat_lt] at hlt
    omega
  next he1 =>
  split at h
  · next he2 =>
    refine ⟨by rw [he2]; omega,?_⟩
    split_ifs at h with hlt
    · have := le_iff_toNat_le.mp (of_decide_eq_true h)
      rwa [toNat_add_one (lt_eof he1)] at this
    rw [lt_iff_toNat_lt] at hlt
    omega
  next he2 =>
  simp only [Bool.and_eq_true,decide_eq_true_eq,le_iff_toNat_le,
    toNat_add_one (lt_eof he1),toNat_add_one (lt_eof he2)] at h
  exact h

end

end B1nix.Fs
