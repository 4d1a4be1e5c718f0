import B1nix.Basic.Transition
import B1nix.Basic.Tally
import B1nix.Basic.Extents

namespace B1nix.UserNamespace

open Function UInt32

def nsMaxUser : Nat := 64

def nsMaxLevel : Nat := 32

def usernsMapExtents : Nat := 64

def capLast : Nat := 40

def capSetgid : Nat := 6

def capSetuid : Nat := 7

def capSysAdmin : Nat := 21

def capSetfcap : Nat := 31

def invalidId : UInt32 := 0xFFFFFFFF

inductive Errno where
  | eperm
  | einval
  | enomem
  | enospc
  | eusers
deriving DecidableEq

structure IdExtent where
  first : UInt32
  lower : UInt32
  count : UInt32
deriving DecidableEq

inductive Which where
  | uid
  | gid
  | projid
deriving DecidableEq

structure UsernsData where
  parent : Nat
  level : Nat
  ownerKuid : UInt32
  ownerKgid : UInt32
  map : Which → List IdExtent
  setgroupsAllowed : Bool
  parentCouldSetfcap : Bool

def UsernsData.cleared : UsernsData := ⟨0,0,0,0,fun _ => [],false,false⟩

def UsernsData.initial : UsernsData := ⟨0,0,0,0,fun _ => [⟨0,0,0xFFFFFFFF⟩],true,true⟩

structure NsSlot where
  used : Bool
  refs : Nat
  owner : Nat
  inum : Nat

structure Cred where
  euid : UInt32
  egid : UInt32
  capEffective : UInt64
  userNs : Nat

def Cred.holds (c : Cred) (cap : Nat) : Bool := c.capEffective &&& ((1 : UInt64) <<< UInt64.ofNat cap) != 0

structure Birth where
  inum : Nat
  parent : Nat
  owner : UInt32

structure State where
  slot : Nat → NsSlot
  userns : Nat → UsernsData
  nextInum : Nat
  panicked : Bool
  held : Nat → Nat
  births : List Birth

variable (s : State)

def State.inum (ns : Nat) : Nat := (s.slot ns).inum

section Translation

def searchDown (id count : UInt32) : List IdExtent → UInt32
  | [] => invalidId
  | e :: m =>
    let last := id + count - 1
    if last < id then invalidId
    else if e.first ≤ id ∧ last - e.first < e.count then e.lower + (id - e.first)
    else searchDown id count m

def mapDown (m : List IdExtent) (id count : UInt32) : UInt32 :=
  if id = invalidId then invalidId else searchDown id count m

def searchUp (kid : UInt32) : List IdExtent → UInt32
  | [] => invalidId
  | e :: m =>
    if e.lower ≤ kid ∧ kid - e.lower < e.count then e.first + (kid - e.lower) else searchUp kid m

def mapUp (m : List IdExtent) (kid : UInt32) : UInt32 :=
  if kid = invalidId then invalidId else searchUp kid m

variable (s : State)

def makeKid (which : Which) (ns : Nat) (id : UInt32) : UInt32 :=
  if ns = 0 ∨ nsMaxUser ≤ ns then id else mapDown ((s.userns ns).map which) id 1

def fromKid (which : Which) (ns : Nat) (kid : UInt32) : UInt32 :=
  if ns = 0 ∨ nsMaxUser ≤ ns then kid else mapUp ((s.userns ns).map which) kid

def makeKuid (ns : Nat) (uid : UInt32) : UInt32 := makeKid s .uid ns uid

def makeKgid (ns : Nat) (gid : UInt32) : UInt32 := makeKid s .gid ns gid

def fromKuid (ns : Nat) (kuid : UInt32) : UInt32 := fromKid s .uid ns kuid

def fromKgid (ns : Nat) (kgid : UInt32) : UInt32 := fromKid s .gid ns kgid

def kuidHasMapping (ns : Nat) (kuid : UInt32) : Bool := fromKuid s ns kuid != invalidId

def kgidHasMapping (ns : Nat) (kgid : UInt32) : Bool := fromKgid s ns kgid != invalidId

end Translation

def capableWalk (s : State) (c : Cred) (cap : Nat) : Nat → Nat → Bool
  | 0, _ => false
  | depth + 1, ns =>
    if ns = c.userNs then c.holds cap
    else if (s.userns ns).level ≤ (s.userns c.userNs).level then false
    else if (s.userns ns).parent = c.userNs ∧ c.euid = (s.userns ns).ownerKuid then true
    else capableWalk s c cap depth (s.userns ns).parent

def nsCapableCred (c : Cred) (ns : Nat) (cap : Int) : Bool :=
  if cap < 0 ∨ (capLast : Int) < cap ∨ nsMaxUser ≤ ns then false
  else capableWalk s c cap.toNat (nsMaxLevel + 2) ns

variable (id : Nat)

section Lifetime

def State.setRefs (refs : Nat) : State :=
  { s with slot := update s.slot id { s.slot id with refs := refs } }

def nsGetLocked (s : State) : State :=
  if id = 0 ∨ nsMaxUser ≤ id then s else s.setRefs id ((s.slot id).refs + 1)

def State.release : State :=
  { s with
    slot := update s.slot id { s.slot id with used := false, refs := 0 }
    userns := update s.userns id .cleared }

def nsPutLocked : Nat → Nat → State → State
  | 0, _, s => { s with panicked := true }
  | depth + 1, id, s =>
    if id = 0 ∨ nsMaxUser ≤ id then s
    else if !(s.slot id).used ∨ (s.slot id).refs = 0 then { s with panicked := true }
    else if (s.slot id).refs - 1 ≠ 0 then s.setRefs id ((s.slot id).refs - 1)
    else nsPutLocked depth (s.slot id).owner (s.release id)

def freeSlot : Option Nat :=
  (List.range nsMaxUser).find? fun i => decide (i ≠ 0) && !(s.slot i).used

def usernsInitLocked (parent : Nat) (creator : Cred) : UsernsData :=
  { parent := parent
    level := (s.userns parent).level + 1
    ownerKuid := creator.euid
    ownerKgid := creator.egid
    map := fun _ => []
    setgroupsAllowed := (s.userns parent).setgroupsAllowed
    parentCouldSetfcap := nsCapableCred s creator parent capSetfcap }

def State.born (parent : Nat) (creator : Cred) : State :=
  { s with
    slot := update s.slot id ⟨true,1,parent,s.nextInum⟩
    userns := update s.userns id (usernsInitLocked s parent creator)
    nextInum := s.nextInum + 1
    held := update s.held id 1
    births := ⟨s.nextInum,s.inum parent,creator.euid⟩ :: s.births }

def usernsCreate (creator : Cred) : Except Errno Nat × State :=
  let parent := creator.userNs
  if nsMaxLevel < (s.userns parent).level + 1 then (.error .eusers, s)
  else if !kuidHasMapping s parent creator.euid ∨ !kgidHasMapping s parent creator.egid then
    (.error .eperm, s)
  else
    match freeSlot s with
    | none => (.error .enospc, s)
    | some id => (.ok id, nsGetLocked parent (s.born id parent creator))

end Lifetime

section MapText

def isBlank (c : UInt8) : Bool := c == 32 || c == 9

def isDigit (c : UInt8) : Bool := decide (48 ≤ c ∧ c ≤ 57)

def digits (v : Nat) : List UInt8 → Option (UInt32 × List UInt8)
  | [] => some (ofNat v, [])
  | c :: p =>
    if isDigit c then
      let v := v * 10 + (c.toNat - 48)
      if 0xFFFFFFFF < v then none else digits v p
    else some (ofNat v, c :: p)

def parseU32 (p : List UInt8) : Option (UInt32 × List UInt8) :=
  match p.dropWhile isBlank with
  | [] => none
  | c :: q => if isDigit c then digits 0 (c :: q) else none

def lines : List UInt8 → List (List UInt8)
  | [] => []
  | c :: p =>
    if c = 10 then [] :: lines p
    else
      match lines p with
      | [] => [[c]]
      | l :: ls => (c :: l) :: ls

def lineExtent (line : List UInt8) : Option IdExtent := do
  let (first, q) ← parseU32 line
  let (lower, q) ← parseU32 q
  let (count, q) ← parseU32 q
  if q.all isBlank then some ⟨first,lower,count⟩ else none

def rangesOverlap (a an b bn : UInt32) : Bool :=
  let alast := a + an - 1
  let blast := b + bn - 1
  decide (a ≤ blast ∧ b ≤ alast)

def IdExtent.clashes (e x : IdExtent) : Bool :=
  rangesOverlap x.first x.count e.first e.count || rangesOverlap x.lower x.count e.lower e.count

def addLine (nm : List IdExtent) (line : List UInt8) : Option (List IdExtent) :=
  if line.all isBlank then some nm
  else
    match lineExtent line with
    | none => none
    | some e =>
      if e.count = 0 ∨ e.first + e.count - 1 < e.first ∨ e.lower + e.count - 1 < e.lower ∨
          usernsMapExtents ≤ nm.length then none
      else if nm.any e.clashes then none
      else some (nm ++ [e])

def parseMap (text : List UInt8) : Option (List IdExtent) := (lines text).foldlM addLine []

end MapText

section MapWrite

variable (s : State)

def verifyRootMap (c : Cred) (ns : Nat) (nm : List IdExtent) : Bool :=
  if nm.any fun e => e.lower == 0 then
    if c.userNs = ns then (s.userns ns).parentCouldSetfcap
    else nsCapableCred s c (s.userns ns).parent capSetfcap
  else true

def capSetid : Which → Option Nat
  | .uid => some capSetuid
  | .gid => some capSetgid
  | .projid => none

def mapsOwnId (c : Cred) (ns : Nat) (which : Which) : List IdExtent → Bool
  | [e] =>
    decide (e.count = 1 ∧ (s.userns ns).ownerKuid = c.euid) &&
      match which with
      | .uid => makeKuid s (s.userns ns).parent e.lower == c.euid
      | .gid =>
        !(s.userns ns).setgroupsAllowed && makeKgid s (s.userns ns).parent e.lower == c.egid
      | .projid => false
  | _ => false

def newIdmapPermitted (c : Cred) (ns : Nat) (which : Which) (nm : List IdExtent) : Bool :=
  if which = .uid ∧ !verifyRootMap s c ns nm then false
  else if mapsOwnId s c ns which nm then true
  else
    match capSetid which with
    | none => true
    | some cap => nsCapableCred s c (s.userns ns).parent cap

def kernelLower (which : Which) (parent : Nat) (e : IdExtent) : UInt32 :=
  if parent = 0 then e.lower else mapDown ((s.userns parent).map which) e.lower e.count

def lowered (which : Which) (parent : Nat) : List IdExtent → Option (List IdExtent)
  | [] => some []
  | e :: nm =>
    if kernelLower s which parent e = invalidId then none
    else
      (lowered which parent nm).map ({ e with lower := kernelLower s which parent e } :: ·)

def State.setMap (ns : Nat) (which : Which) (m : List IdExtent) : State :=
  { s with
    userns := update s.userns ns
      { s.userns ns with map := update (s.userns ns).map which m } }

def usernsMapWrite (c : Cred) (ns : Nat) (which : Which) (alloc : Bool) (text : List UInt8) :
    Except Errno Nat × State :=
  if ns = 0 then (.error .eperm, s)
  else if c.userNs ≠ ns ∧ c.userNs ≠ (s.userns ns).parent then (.error .eperm, s)
  else if 4096 ≤ text.length then (.error .einval, s)
  else if !alloc then (.error .enomem, s)
  else
    match parseMap text with
    | none | some [] => (.error .einval, s)
    | some (e :: nm) =>
      if (s.userns ns).map which ≠ [] then (.error .eperm, s)
      else if (capSetid which).isSome ∧ !nsCapableCred s c ns capSysAdmin then (.error .eperm, s)
      else if !newIdmapPermitted s c ns which (e :: nm) then (.error .eperm, s)
      else
        match lowered s which (s.userns ns).parent (e :: nm) with
        | none => (.error .eperm, s)
        | some m => (.ok text.length, s.setMap ns which m)

def trimmed (text : List UInt8) : List UInt8 :=
  (text.reverse.dropWhile fun c => c == 10 || isBlank c).reverse

def allowText : List UInt8 := [97,108,108,111,119]

def denyText : List UInt8 := [100,101,110,121]

def usernsSetgroupsWrite (c : Cred) (ns : Nat) (text : List UInt8) : Except Errno Nat × State :=
  if !nsCapableCred s c ns capSysAdmin then (.error .eperm, s)
  else if trimmed text = allowText then
    if !(s.userns ns).setgroupsAllowed then (.error .eperm, s) else (.ok text.length, s)
  else if trimmed text = denyText then
    if (s.userns ns).map .gid ≠ [] then (.error .eperm, s)
    else
      (.ok text.length,
        { s with
          userns := update s.userns ns { s.userns ns with setgroupsAllowed := false } })
  else (.error .einval, s)

end MapWrite

inductive Event where
  | create (creator : Cred)
  | hold (id : Nat)
  | own (owner : Nat)
  | drop (id : Nat)
  | mapWrite (c : Cred) (ns : Nat) (which : Which) (alloc : Bool) (text : List UInt8)
  | setgroupsWrite (c : Cred) (ns : Nat) (text : List UInt8)

def State.live : Bool := id == 0 || decide (0 < s.held id)

def Event.enabled : Event → Bool
  | .create creator => s.live creator.userNs
  | .hold id | .own id => decide (id < nsMaxUser) && (id == 0 || (s.slot id).used)
  | .drop id => s.live id
  | .mapWrite c ns _ _ _ | .setgroupsWrite c ns _ => s.live c.userNs && s.live ns

def State.take : State := { nsGetLocked id s with held := update s.held id (s.held id + 1) }

def State.give : State :=
  nsPutLocked (nsMaxLevel + 2) id { s with held := update s.held id (s.held id - 1) }

def step : Event → State
  | .create creator => (usernsCreate s creator).2
  | .hold id => s.take id
  | .own owner => { s.take owner with nextInum := (s.take owner).nextInum + 1 }
  | .drop id => s.give id
  | .mapWrite c ns which alloc text => (usernsMapWrite s c ns which alloc text).2
  | .setgroupsWrite c ns text => (usernsSetgroupsWrite s c ns text).2

def Stepped (e : Event) (s' : State) : Prop := e.enabled s = true ∧ s' = step s e

structure State.Initial (s : State) : Prop where
  root : s.slot 0 = ⟨true,1,0,0xEFFFFFFD⟩
  free : ∀ i, i ≠ 0 → (s.slot i).used = false
  userns : s.userns 0 = .initial
  cleared : ∀ i, i ≠ 0 → s.userns i = .cleared
  nextInum : s.nextInum = 0xF0000002
  panicked : s.panicked = false
  held : ∀ i, s.held i = 0
  births : s.births = []

open Relation B1nix.Tally B1nix.Transition

def childOf (i : Nat) (x : NsSlot) : Nat := if x.used = true ∧ x.owner = i then 1 else 0

def children (i : Nat) : Nat := ∑ j ∈ Finset.Ico 1 nsMaxUser, childOf i (s.slot j)

def ChildOf (births : List Birth) (a b : Nat) : Prop :=
  ∃ x ∈ births, x.inum = a ∧ x.parent = b

def Under (births : List Birth) : Nat → Nat → Prop := ReflTransGen (ChildOf births)

structure Tree (s : State) (p q : Nat) : Prop where
  root : (s.slot 0).used = true
  level0 : (s.userns 0).level = 0
  parent0 : (s.userns 0).parent = 0
  bound : ∀ i, (s.slot i).used = true → i < nsMaxUser
  dead : ∀ i, (s.slot i).used = false → s.userns i = .cleared ∧ s.held i = 0
  owner : ∀ i, i ≠ 0 → (s.slot i).used = true → (s.slot i).owner = (s.userns i).parent
  parent : ∀ i, i ≠ 0 → (s.slot i).used = true → (s.slot (s.userns i).parent).used = true
  level : ∀ i, i ≠ 0 → (s.slot i).used = true →
    (s.userns i).level = (s.userns (s.userns i).parent).level + 1 ∧ (s.userns i).level ≤ nsMaxLevel
  refs : ∀ i, i ≠ 0 → (s.slot i).used = true →
    (s.slot i).refs + (if i = q then 1 else 0) = s.held i + children s i + if i = p then 1 else 0
  birth : ∀ i, i ≠ 0 → (s.slot i).used = true →
    ⟨s.inum i,s.inum (s.userns i).parent,(s.userns i).ownerKuid⟩ ∈ s.births
  inum : ∀ i, (s.slot i).used = true → s.inum i < s.nextInum
  older : ∀ b ∈ s.births, b.parent < b.inum
  running : s.panicked = false

variable {s s' : State} {p q i j id ns d b : Nat} {c creator : Cred}

lemma Under.le {births : List Birth} {a : Nat} (holder : ∀ x ∈ births, x.parent < x.inum)
    (h : Under births a b) : b ≤ a := by
  induction h with
  | refl => exact le_rfl
  | tail _ hstep ih =>
    obtain ⟨x,hx,rfl,rfl⟩ := hstep
    exact ((holder x hx).le).trans ih

lemma children_update {x : NsSlot} (hi : i ∈ Finset.Ico 1 nsMaxUser) :
    children { s with slot := update s.slot i x } j + childOf j (s.slot i) =
      children s j + childOf j x :=
  sum_update_add hi s.slot x (childOf j)

lemma Tree.live_used (h : Tree s p q) (hli : s.live i = true) : (s.slot i).used = true := by
  rw [State.live,Bool.or_eq_true,beq_iff_eq] at hli
  obtain rfl | hhe := hli
  · exact h.root
  cases hus : (s.slot i).used with
  | true => rfl
  | false =>
    rw [(h.dead i hus).2] at hhe
    cases hhe

lemma Tree.mem_range (h : Tree s p q) (hi : i ≠ 0) (hus : (s.slot i).used = true) :
    i ∈ Finset.Ico 1 nsMaxUser :=
  Finset.mem_Ico.mpr ⟨pos_of_ne_zero hi,h.bound i hus⟩

lemma Tree.no_children (h : Tree s p q) (hze : children s i = 0) (hj : j ≠ 0)
    (hus : (s.slot j).used = true) : (s.slot j).owner ≠ i := by
  intro how
  have hterm := Finset.sum_eq_zero_iff.mp hze j (h.mem_range hj hus)
  rw [childOf,if_pos ⟨hus,how⟩] at hterm
  cases hterm

variable {r cap : Nat}

lemma setRefs_slot :
    (s.setRefs i r).slot j = { s.slot j with refs := if j = i then r else (s.slot j).refs } := by
  change update s.slot i _ j = _
  obtain rfl | hj := eq_or_ne j i
  · rw [update_self,if_pos rfl]
  rw [update_of_ne hj,if_neg hj]

lemma setRefs_used : ((s.setRefs i r).slot j).used = (s.slot j).used := by
  rw [setRefs_slot]

lemma setRefs_owner : ((s.setRefs i r).slot j).owner = (s.slot j).owner := by
  rw [setRefs_slot]

lemma setRefs_inum : (s.setRefs i r).inum j = s.inum j := by
  rw [State.inum,setRefs_slot]
  rfl

lemma setRefs_children : children (s.setRefs i r) j = children s j := by
  refine Finset.sum_congr rfl fun k _ => ?_
  rw [childOf,childOf,setRefs_used,setRefs_owner]

lemma Tree.setRefs {p' q' : Nat} (r : Nat) (held : Nat → Nat) (h : Tree s p q)
    (hhe : ∀ j, j ≠ i → held j = s.held j) (hus : (s.slot i).used = true)
    (hr : i ≠ 0 → r + (if i = q' then 1 else 0) = held i + children s i + if i = p' then 1 else 0)
    (hots : ∀ j, j ≠ i → j ≠ 0 → (j = p ↔ j = p') ∧ (j = q ↔ j = q')) :
    Tree { s.setRefs i r with held } p' q' := by
  refine ⟨setRefs_used.trans h.root,h.level0,h.parent0,fun j hj => ?_,fun j hj => ?_,fun j h0 hj => ?_,
    fun j h0 hj => ?_,fun j h0 hj => ?_,fun j h0 hj => ?_,fun j h0 hj => ?_,fun j hj => ?_, h.older,h.running⟩
  · exact h.bound j (setRefs_used.symm.trans hj)
  · have huu := setRefs_used.symm.trans hj
    have hji : j ≠ i := by
      rintro rfl
      cases hus.symm.trans huu
    exact ⟨(h.dead j huu).1,(hhe j hji).trans (h.dead j huu).2⟩
  · exact setRefs_owner.trans (h.owner j h0 (setRefs_used.symm.trans hj))
  · exact setRefs_used.trans (h.parent j h0 (setRefs_used.symm.trans hj))
  · exact h.level j h0 (setRefs_used.symm.trans hj)
  · change ((s.setRefs i r).slot j).refs + _ = held j + children (s.setRefs i r) j + _
    rw [setRefs_slot,setRefs_children]
    obtain rfl | hji := eq_or_ne j i
    · rw [if_pos rfl]
      exact hr h0
    have hold := h.refs j h0 (setRefs_used.symm.trans hj)
    obtain ⟨hp,hq⟩ := hots j hji h0
    rw [if_neg hji,hhe j hji]
    simp only [← hp,← hq]
    exact hold
  · have hbir := h.birth j h0 (setRefs_used.symm.trans hj)
    change ⟨(s.setRefs i r).inum j,(s.setRefs i r).inum _,_⟩ ∈ s.births
    rw [setRefs_inum,setRefs_inum]
    exact hbir
  · exact setRefs_inum.trans_lt (h.inum j (setRefs_used.symm.trans hj))

lemma release_slot_other (hj : j ≠ i) : (s.release i).slot j = s.slot j := update_of_ne hj _ _

lemma release_slot_self :
    (s.release i).slot i = { s.slot i with used := false, refs := 0 } := by
  change update s.slot i _ i = _
  rw [update_self]

lemma release_userns_other (hj : j ≠ i) : (s.release i).userns j = s.userns j := update_of_ne hj _ _

lemma release_inum : (s.release i).inum j = s.inum j := by
  obtain rfl | hj := eq_or_ne j i
  · rw [State.inum,release_slot_self]
    rfl
  exact congrArg NsSlot.inum (release_slot_other hj)

lemma Tree.release (h : Tree s p 0) (hp : p ≠ 0) (hus : (s.slot p).used = true)
    (hla : (s.slot p).refs = 1) : Tree (s.release p) (s.slot p).owner 0 := by
  have hct := h.refs p hp hus
  rw [if_pos rfl,if_neg hp] at hct
  have hhe : s.held p = 0 := by omega
  have hnone : children s p = 0 := by omega
  have hse : ((s.release p).slot p).used = false := congrArg NsSlot.used release_slot_self
  have hne : ∀ j, ((s.release p).slot j).used = true → j ≠ p := by
    rintro j hj rfl
    cases hse.symm.trans hj
  have hba : ∀ j, ((s.release p).slot j).used = true → (s.slot j).used = true := by
    intro j hj
    rwa [release_slot_other (hne j hj)] at hj
  have hpar : ∀ j, j ≠ 0 → ((s.release p).slot j).used = true → (s.userns j).parent ≠ p := by
    intro j h0 hj heq
    exact h.no_children hnone h0 (hba j hj) ((h.owner j h0 (hba j hj)).trans heq)
  refine ⟨?_,?_,?_,fun j hj => h.bound j (hba j hj),fun j hj => ?_,fun j h0 hj => ?_,
    fun j h0 hj => ?_,fun j h0 hj => ?_,fun j h0 hj => ?_,fun j h0 hj => ?_,fun j hj => ?_, h.older,h.running⟩
  · rw [release_slot_other hp.symm]
    exact h.root
  · rw [release_userns_other hp.symm]
    exact h.level0
  · rw [release_userns_other hp.symm]
    exact h.parent0
  · obtain rfl | hjp := eq_or_ne j p
    · exact ⟨update_self ..,hhe⟩
    rw [release_slot_other hjp] at hj
    rw [release_userns_other hjp]
    exact h.dead j hj
  · rw [release_slot_other (hne j hj),release_userns_other (hne j hj)]
    exact h.owner j h0 (hba j hj)
  · rw [release_userns_other (hne j hj),release_slot_other (hpar j h0 hj)]
    exact h.parent j h0 (hba j hj)
  · rw [release_userns_other (hne j hj),release_userns_other (hpar j h0 hj)]
    exact h.level j h0 (hba j hj)
  · have hold := h.refs j h0 (hba j hj)
    have hsum : children (s.release p) j + childOf j (s.slot p) = children s j + 0 :=
      children_update (h.mem_range hp hus)
    have hterm : childOf j (s.slot p) = if j = (s.slot p).owner then 1 else 0 := by
      rw [childOf,hus]
      simp [eq_comm]
    rw [if_neg h0,if_neg (hne j hj)] at hold
    rw [release_slot_other (hne j hj),if_neg h0]
    change _ = s.held j + _ + _
    omega
  · rw [release_inum,release_inum,release_userns_other (hne j hj)]
    exact h.birth j h0 (hba j hj)
  · exact release_inum.trans_lt (h.inum j (hba j hj))

lemma Tree.put (h : Tree s p 0) (hus : (s.slot p).used = true)
    (hdep : (s.userns p).level < d) : Tree (nsPutLocked d p s) 0 0 := by
  induction d generalizing s p with
  | zero => cases hdep
  | succ d ih =>
    rw [nsPutLocked]
    split
    · next heg =>
      have hbd := h.bound p hus
      have hze : p = 0 := by omega
      exact hze ▸ h
    next heg =>
    have hp : p ≠ 0 := fun h0 => heg (.inl h0)
    have hre := h.refs p hp hus
    rw [if_pos rfl,if_neg hp] at hre
    split_ifs with hud hla
    · rw [hus] at hud
      simp only [Bool.not_true,Bool.false_eq_true,false_or] at hud
      omega
    · refine h.setRefs _ s.held (fun _ _ => rfl) hus (fun _ => ?_) fun j hj h0 => ?_
      · omega
      exact ⟨⟨fun heq => absurd heq hj,fun heq => absurd heq h0⟩,.rfl⟩
    have hone : (s.slot p).refs = 1 := by omega
    have how := h.owner p hp hus
    have hpar := h.parent p hp hus
    have hlv := (h.level p hp hus).1
    have hne : (s.slot p).owner ≠ p := by
      intro heq
      rw [← how,heq] at hlv
      omega
    refine ih (h.release hp hus hone) ?_ ?_
    · rw [release_slot_other hne,how]
      exact hpar
    rw [release_userns_other hne,how]
    omega

lemma Tree.level_le (h : Tree s p q) : (s.userns i).level ≤ nsMaxLevel := by
  by_cases h0 : i = 0
  · rw [h0,h.level0]
    exact zero_le
  cases hus : (s.slot i).used with
  | true => exact (h.level i h0 hus).2
  | false =>
    rw [(h.dead i hus).1]
    exact zero_le

lemma Tree.hold {p' q' : Nat} (held : Nat → Nat) (h : Tree s p q)
    (hhe : ∀ j, j ≠ i → held j = s.held j) (hus : (s.slot i).used = true)
    (hre : ∀ j, j ≠ 0 → (s.slot j).used = true → (s.slot j).refs + (if j = q' then 1 else 0) =
      held j + children s j + if j = p' then 1 else 0) :
    Tree { s with held } p' q' := by
  refine { h with dead := fun j hj => ?_, refs := hre }
  have hji : j ≠ i := by
    rintro rfl
    cases hus.symm.trans hj
  exact ⟨(h.dead j hj).1,(hhe j hji).trans (h.dead j hj).2⟩

lemma Tree.take (h : Tree s 0 0) (hus : (s.slot i).used = true) : Tree (s.take i) 0 0 := by
  rw [State.take,nsGetLocked]
  split_ifs with heg
  · have hbd := h.bound i hus
    obtain rfl : i = 0 := by omega
    refine h.hold _ (fun j hj => update_of_ne hj ..) hus fun j h0 hj => ?_
    rw [update_of_ne h0]
    exact h.refs j h0 hj
  refine h.setRefs _ _ (fun j hj => update_of_ne hj ..) hus (fun h0 => ?_)
    fun j hj h0 => ⟨.rfl,.rfl⟩
  have hre := h.refs i h0 hus
  rw [update_self]
  omega

lemma Tree.give (h : Tree s 0 0) (hli : s.live i = true) : Tree (s.give i) 0 0 := by
  have hus := h.live_used hli
  have hdep : (s.userns i).level < nsMaxLevel + 2 := h.level_le.trans_lt (by omega)
  rw [State.live,Bool.or_eq_true,beq_iff_eq,decide_eq_true_eq] at hli
  refine Tree.put (h.hold _ (fun j hj => update_of_ne hj ..) hus fun j h0 hj => ?_) hus
    hdep
  have hre := h.refs j h0 hj
  rw [if_neg h0] at hre ⊢
  obtain rfl | hji := eq_or_ne j i
  · rw [update_self,if_pos rfl]
    omega
  rw [update_of_ne hji,if_neg hji]
  exact hre

lemma freeSlot_spec (h : freeSlot s = some id) : id ≠ 0 ∧ id < nsMaxUser ∧ (s.slot id).used = false := by
  have hmem := List.mem_of_find?_eq_some h
  have hfe := List.find?_some h
  rw [Bool.and_eq_true,decide_eq_true_eq,Bool.not_eq_true'] at hfe
  exact ⟨hfe.1,List.mem_range.mp hmem,hfe.2⟩

section Born

variable {parent : Nat}

lemma born_slot_other (hj : j ≠ id) : (s.born id parent creator).slot j = s.slot j :=
  update_of_ne hj _ _

lemma born_userns_other (hj : j ≠ id) : (s.born id parent creator).userns j = s.userns j :=
  update_of_ne hj _ _

lemma born_slot_self : (s.born id parent creator).slot id = ⟨true,1,parent,s.nextInum⟩ :=
  update_self _ _ _

lemma born_userns_self : (s.born id parent creator).userns id = usernsInitLocked s parent creator :=
  update_self _ _ _

lemma Tree.born (h : Tree s 0 0) (hid : id ≠ 0) (hmax : id < nsMaxUser)
    (hfe : (s.slot id).used = false) (hpar : (s.slot parent).used = true)
    (hlv : (s.userns parent).level + 1 ≤ nsMaxLevel) : Tree (s.born id parent creator) 0 parent := by
  have hpne : parent ≠ id := by
    rintro rfl
    cases hfe.symm.trans hpar
  have hmi : ∀ j, j ≠ 0 → (s.slot j).used = true → (s.userns j).parent ≠ id := by
    intro j h0 hj heq
    have hup := h.parent j h0 hj
    rw [heq] at hup
    cases hfe.symm.trans hup
  have hinum : ∀ j, j ≠ id → (s.born id parent creator).inum j = s.inum j :=
    fun j hj => congrArg NsSlot.inum (born_slot_other hj)
  have hct : ∀ j, children (s.born id parent creator) j =
      children s j + if j = parent then 1 else 0 := by
    intro j
    have hsum : children (s.born id parent creator) j + childOf j (s.slot id) =
        children s j + childOf j ⟨true,1,parent,s.nextInum⟩ :=
      children_update (Finset.mem_Ico.mpr ⟨pos_of_ne_zero hid,hmax⟩)
    have hold : childOf j (s.slot id) = 0 := by
      rw [childOf,hfe]
      simp
    have hnew : childOf j ⟨true,1,parent,s.nextInum⟩ = if j = parent then 1 else 0 := by
      simp [childOf,eq_comm]
    omega
  refine ⟨?_,?_,?_,fun j hj => ?_,fun j hj => ?_,fun j h0 hj => ?_,fun j h0 hj => ?_,
    fun j h0 hj => ?_,fun j h0 hj => ?_,fun j h0 hj => ?_,fun j hj => ?_,fun b hb => ?_,h.running⟩
  · rw [born_slot_other hid.symm]
    exact h.root
  · rw [born_userns_other hid.symm]
    exact h.level0
  · rw [born_userns_other hid.symm]
    exact h.parent0
  · by_cases hji : j = id
    · exact hji ▸ hmax
    rw [born_slot_other hji] at hj
    exact h.bound j hj
  · by_cases hji : j = id
    · rw [hji,born_slot_self] at hj
      cases hj
    rw [born_slot_other hji] at hj
    rw [born_userns_other hji]
    exact ⟨(h.dead j hj).1,(update_of_ne hji ..).trans (h.dead j hj).2⟩
  · by_cases hji : j = id
    · rw [hji,born_slot_self,born_userns_self]
      rfl
    rw [born_slot_other hji] at hj ⊢
    rw [born_userns_other hji]
    exact h.owner j h0 hj
  · by_cases hji : j = id
    · rw [hji,born_userns_self]
      change ((s.born id parent creator).slot parent).used = true
      rw [born_slot_other hpne]
      exact hpar
    rw [born_slot_other hji] at hj
    rw [born_userns_other hji,born_slot_other (hmi j h0 hj)]
    exact h.parent j h0 hj
  · by_cases hji : j = id
    · rw [hji,born_userns_self]
      change (s.userns parent).level + 1 = ((s.born id parent creator).userns parent).level + 1 ∧ _
      rw [born_userns_other hpne]
      exact ⟨rfl,hlv⟩
    rw [born_slot_other hji] at hj
    rw [born_userns_other hji,born_userns_other (hmi j h0 hj)]
    exact h.level j h0 hj
  · rw [hct,if_neg h0]
    obtain rfl | hji := eq_or_ne j id
    · have hze : children s j = 0 := by
        refine Finset.sum_eq_zero fun k hk => if_neg fun hkid => ?_
        have hk0 : k ≠ 0 := by
          have := (Finset.mem_Ico.mp hk).1
          omega
        exact hmi k hk0 hkid.1 ((h.owner k hk0 hkid.1).symm.trans hkid.2)
      rw [born_slot_self,hze,if_neg hpne.symm]
      change _ = update s.held j 1 j + _ + _
      rw [update_self]
    rw [born_slot_other hji] at hj ⊢
    have hold := h.refs j h0 hj
    change _ = update s.held id 1 j + _ + _
    rw [update_of_ne hji]
    omega
  · obtain rfl | hji := eq_or_ne j id
    · rw [born_userns_self]
      change (⟨((s.born j parent creator).slot j).inum,(s.born j parent creator).inum parent,_⟩ : Birth) ∈ _
      rw [born_slot_self,hinum parent hpne]
      exact List.mem_cons_self ..
    rw [born_slot_other hji] at hj
    rw [born_userns_other hji,hinum j hji,hinum _ (hmi j h0 hj)]
    exact .tail _ (h.birth j h0 hj)
  · by_cases hji : j = id
    · rw [hji,State.inum,born_slot_self]
      exact lt_add_one _
    rw [born_slot_other hji] at hj
    rw [hinum j hji]
    exact Nat.lt_succ_of_lt (h.inum j hj)
  · obtain rfl | hin := List.mem_cons.mp hb
    · exact h.inum parent hpar
    exact h.older b hin

lemma Tree.create (h : Tree s 0 0) (hli : s.live creator.userNs = true) :
    Tree (usernsCreate s creator).2 0 0 := by
  have hus := h.live_used hli
  rw [usernsCreate]
  split_ifs with hlv
  · exact h
  · exact h
  split
  · exact h
  next id hsl =>
  obtain ⟨hid,hmax,hfe⟩ := freeSlot_spec hsl
  have hbo : Tree (s.born id creator.userNs creator) 0 creator.userNs :=
    h.born hid hmax hfe hus (not_lt.mp hlv)
  have hpne : creator.userNs ≠ id := by
    rintro rfl
    cases hfe.symm.trans hus
  have hup : ((s.born id creator.userNs creator).slot creator.userNs).used = true := by
    rw [born_slot_other hpne]
    exact hus
  rw [nsGetLocked]
  split_ifs with heg
  · have hbd := h.bound _ hus
    have hze : creator.userNs = 0 := by omega
    rw [hze] at hbo ⊢
    exact hbo
  refine hbo.setRefs _ (s.born id creator.userNs creator).held (fun _ _ => rfl) hup
    (fun h0 => ?_) fun j hj h0 => ?_
  · have hre := hbo.refs _ h0 hup
    rw [if_pos rfl,if_neg h0] at hre
    omega
  exact ⟨.rfl,⟨fun heq => absurd heq hj,fun heq => absurd heq h0⟩⟩

end Born

lemma Tree.data (d : UsernsData) (h : Tree s p q) (hus : (s.slot ns).used = true)
    (hpar : d.parent = (s.userns ns).parent) (hlv : d.level = (s.userns ns).level)
    (how : d.ownerKuid = (s.userns ns).ownerKuid) :
    Tree { s with userns := update s.userns ns d } p q := by
  have hsa : ∀ j, (update s.userns ns d j).parent = (s.userns j).parent ∧
      (update s.userns ns d j).level = (s.userns j).level ∧
      (update s.userns ns d j).ownerKuid = (s.userns j).ownerKuid := by
    intro j
    obtain rfl | hj := eq_or_ne j ns
    · rw [update_self]
      exact ⟨hpar,hlv,how⟩
    rw [update_of_ne hj]
    exact ⟨rfl,rfl,rfl⟩
  refine ⟨h.root,(hsa 0).2.1.trans h.level0,(hsa 0).1.trans h.parent0,h.bound,fun j hj =>
      ?_,fun j h0 hj => ?_,
    fun j h0 hj => ?_,fun j h0 hj => ?_,h.refs,fun j h0 hj => ?_,h.inum,h.older,h.running⟩
  · have hj' : j ≠ ns := by
      rintro rfl
      cases hus.symm.trans hj
    exact ⟨(update_of_ne hj' ..).trans (h.dead j hj).1,(h.dead j hj).2⟩
  · exact (h.owner j h0 hj).trans (hsa j).1.symm
  · rw [(hsa j).1]
    exact h.parent j h0 hj
  · rw [(hsa j).2.1,(hsa j).1,(hsa _).2.1]
    exact h.level j h0 hj
  rw [(hsa j).1,(hsa j).2.2]
  exact h.birth j h0 hj

lemma mapWrite_cases (s : State) (c : Cred) (ns : Nat) (which : Which) (alloc : Bool) (text : List UInt8) :
    (usernsMapWrite s c ns which alloc text).2 = s ∨
      ∃ nm m, ns ≠ 0 ∧ parseMap text = some nm ∧ (s.userns ns).map which = [] ∧
        lowered s which (s.userns ns).parent nm = some m ∧
          (usernsMapWrite s c ns which alloc text).2 = s.setMap ns which m := by
  rw [usernsMapWrite]
  split
  · exact .inl rfl
  next h0 =>
  iterate 4
    split
    · exact .inl rfl
  · exact .inl rfl
  next e nm hprs =>
  split_ifs with hem
  · exact .inl rfl
  · exact .inl rfl
  · exact .inl rfl
  split
  · exact .inl rfl
  next m hlo =>
  exact .inr ⟨e :: nm,m,h0,hprs,not_not.mp hem,hlo,rfl⟩

lemma setgroupsWrite_cases (s : State) (c : Cred) (ns : Nat) (text : List UInt8) :
    (usernsSetgroupsWrite s c ns text).2 = s ∨ (s.userns ns).map .gid = [] ∧
      (usernsSetgroupsWrite s c ns text).2 =
        { s with
          userns := update s.userns ns { s.userns ns with setgroupsAllowed := false } } := by
  rw [usernsSetgroupsWrite]
  split
  · exact .inl rfl
  split
  · split <;> exact .inl rfl
  split
  · split
    · exact .inl rfl
    next hem => exact .inr ⟨not_not.mp hem,rfl⟩
  exact .inl rfl

lemma Tree.bump (h : Tree s p q) : Tree { s with nextInum := s.nextInum + 1 } p q :=
  { h with inum := fun i hi => Nat.lt_succ_of_lt (h.inum i hi) }

lemma enabled_used {i : Nat} (h : Tree s p q)
    (he : (decide (i < nsMaxUser) && (i == 0 || (s.slot i).used)) = true) : (s.slot i).used = true := by
  rw [Bool.and_eq_true,Bool.or_eq_true,beq_iff_eq] at he
  obtain rfl | hus := he.2
  · exact h.root
  exact hus

lemma Tree.step {e : Event} (h : Tree s 0 0) (hstep : Stepped s e s') : Tree s' 0 0 := by
  obtain ⟨he,rfl⟩ := hstep
  cases e with
  | create => exact h.create he
  | hold => exact h.take (enabled_used h he)
  | own => exact (h.take (enabled_used h he)).bump
  | drop => exact h.give he
  | mapWrite c ns which alloc text =>
    rw [Event.enabled,Bool.and_eq_true] at he
    change Tree (usernsMapWrite s c ns which alloc text).2 0 0
    obtain hsa | ⟨nm,m,-,-,-,-,hset⟩ := mapWrite_cases s c ns which alloc text
    · rw [hsa]
      exact h
    rw [hset]
    exact h.data _ (h.live_used he.2) rfl rfl rfl
  | setgroupsWrite c ns text =>
    rw [Event.enabled,Bool.and_eq_true] at he
    change Tree (usernsSetgroupsWrite s c ns text).2 0 0
    obtain hsa | ⟨-,hset⟩ := setgroupsWrite_cases s c ns text
    · rw [hsa]
      exact h
    rw [hset]
    exact h.data _ (h.live_used he.2) rfl rfl rfl

lemma Tree.initial (h : s.Initial) : Tree s 0 0 := by
  have hrt : ∀ i, (s.slot i).used = true → i = 0 := by
    intro i hi
    by_contra h0
    cases (h.free i h0).symm.trans hi
  have hsl : (s.slot 0).used = true := congrArg NsSlot.used h.root
  refine ⟨hsl,?_,?_,fun i hi => ?_,fun i hi => ?_,fun i h0 hi => absurd (hrt i hi) h0,
    fun i h0 hi => absurd (hrt i hi) h0,fun i h0 hi => absurd (hrt i hi) h0,
    fun i h0 hi => absurd (hrt i hi) h0,fun i h0 hi => absurd (hrt i hi) h0,
    fun i hi => ?_,fun b hb => ?_,h.panicked⟩
  · rw [h.userns]
    rfl
  · rw [h.userns]
    rfl
  · rw [hrt i hi]
    decide
  · have h0 : i ≠ 0 := by
      rintro rfl
      cases hsl.symm.trans hi
    exact ⟨h.cleared i h0,h.held i⟩
  · rw [hrt i hi,State.inum,h.root,h.nextInum]
    decide
  · rw [h.births] at hb
    cases hb

lemma Tree.reach (h : Reach State.Initial Stepped s) : Tree s 0 0 :=
  h.invariant (P := fun s => Tree s 0 0) (fun _ h0 => .initial h0) fun _ _ _ hs hstep =>
    hs.step hstep

lemma Tree.birth_of_level (h : Tree s p q) (hlv : 0 < (s.userns i).level) :
    ⟨s.inum i,s.inum (s.userns i).parent,(s.userns i).ownerKuid⟩ ∈ s.births := by
  have h0 : i ≠ 0 := by
    rintro rfl
    rw [h.level0] at hlv
    cases hlv
  cases hus : (s.slot i).used with
  | true => exact h.birth i h0 hus
  | false =>
    rw [(h.dead i hus).1] at hlv
    cases hlv

def Granted (s : State) (c : Cred) (ns cap : Nat) : Prop :=
  (Under s.births (s.inum ns) (s.inum c.userNs) ∧ c.holds cap = true) ∨
    ∃ b ∈ s.births, b.parent = s.inum c.userNs ∧ b.owner = c.euid ∧
      Under s.births (s.inum ns) b.inum

lemma Granted.up (hbir : ⟨s.inum i,s.inum (s.userns i).parent,(s.userns i).ownerKuid⟩ ∈ s.births)
    (h : Granted s c (s.userns i).parent cap) : Granted s c i cap := by
  have hup : Under s.births (s.inum i) (s.inum (s.userns i).parent) := .single ⟨_,hbir,rfl,rfl⟩
  obtain ⟨hud,hhd⟩ | ⟨b,hb,hpar,how,hud⟩ := h
  · exact .inl ⟨hup.trans hud,hhd⟩
  exact .inr ⟨b,hb,hpar,how,hup.trans hud⟩

lemma Tree.walk_granted (h : Tree s p q) (hwl : capableWalk s c cap d ns = true) :
    Granted s c ns cap := by
  induction d generalizing ns with
  | zero => cases hwl
  | succ d ih =>
    rw [capableWalk] at hwl
    split at hwl
    · next hmi => exact .inl ⟨hmi ▸ .refl,hwl⟩
    split at hwl
    · cases hwl
    next hlv =>
    have hbir := h.birth_of_level (zero_le.trans_lt (not_le.mp hlv))
    split_ifs at hwl with hown
    · exact .inr ⟨_,hbir,congrArg s.inum hown.1,hown.2.symm,.refl⟩
    exact (ih hwl).up hbir

lemma Granted.inside (h : Granted s c ns cap) : Under s.births (s.inum ns) (s.inum c.userNs) := by
  obtain ⟨hud,-⟩ | ⟨b,hb,hpar,-,hud⟩ := h
  · exact hud
  exact hud.tail ⟨b,hb,rfl,hpar⟩

theorem capable_inside (h : Reach State.Initial Stepped s) (c : Cred) (ns : Nat) (cap : Int) :
    (nsCapableCred s c ns cap = true → Granted s c ns cap.toNat) ∧
      (¬Under s.births (s.inum ns) (s.inum c.userNs) → nsCapableCred s c ns cap = false) ∧
      (Under s.births (s.inum c.userNs) (s.inum ns) → s.inum ns ≠ s.inum c.userNs →
        nsCapableCred s c ns cap = false) := by
  have htr := Tree.reach h
  have hgra : nsCapableCred s c ns cap = true → Granted s c ns cap.toNat := by
    intro hcap
    rw [nsCapableCred] at hcap
    split at hcap
    · cases hcap
    exact htr.walk_granted hcap
  have hout : ¬Under s.births (s.inum ns) (s.inum c.userNs) →
      nsCapableCred s c ns cap = false := by
    intro hnot
    cases hcap : nsCapableCred s c ns cap with
    | true => exact absurd (hgra hcap).inside hnot
    | false => rfl
  refine ⟨hgra,hout,fun hup hne => hout fun hdown => hne ?_⟩
  exact (hup.le htr.older).antisymm (hdown.le htr.older)

def booted : State :=
  { slot := fun i => if i = 0 then ⟨true,1,0,0xEFFFFFFD⟩ else ⟨false,0,0,0⟩
    userns := fun i => if i = 0 then .initial else .cleared
    nextInum := 0xF0000002
    panicked := false
    held := fun _ => 0
    births := [] }

lemma booted_initial : booted.Initial :=
  ⟨rfl,fun _ h => congrArg NsSlot.used (if_neg h),rfl,fun _ h => if_neg h,rfl,rfl,fun _ => rfl,rfl⟩

def plainUser : Cred := ⟨1000,1000,0,0⟩

def ownRoot : Cred := ⟨1000,1000,0x1FFFFFFFFFF,1⟩

def ownIdText : List UInt8 := [48,32,49,48,48,48,32,49]

def nested : List Event :=
  [.create plainUser,.drop 1,.create plainUser,.mapWrite plainUser 1 .uid true ownIdText,
    .setgroupsWrite plainUser 1 denyText,.mapWrite plainUser 1 .gid true ownIdText,
    .create ownRoot]

lemma nested_reach : Reach State.Initial Stepped (nested.foldl step booted) := by
  refine Reach.along (fun s e => e.enabled s = true) (fun s e h => ⟨h,rfl⟩)
    (.start booted_initial) ?_
  decide +kernel

theorem namespace_refs_exact (h : Reach State.Initial Stepped s) :
    (i ≠ 0 → (s.slot i).used = true → (s.slot i).refs = s.held i + children s i ∧
      (s.slot (s.userns i).parent).used = true ∧ (s.userns i).level ≤ nsMaxLevel) ∧
    ((s.slot i).used = false → s.held i = 0 ∧ children s i = 0) := by
  have ht := Tree.reach h
  refine ⟨fun h0 hi => ⟨by simpa [h0] using ht.refs i h0 hi,ht.parent i h0 hi,ht.level_le⟩,
    fun hi => ⟨(ht.dead i hi).2,Finset.sum_eq_zero fun j hj => if_neg ?_⟩⟩
  rintro ⟨hus,rfl⟩
  have h0 : j ≠ 0 := by grind
  simp [ht.owner j h0 hus,ht.parent j h0 hus] at hi

theorem namespace_refs_nested : let s := nested.foldl step booted
    (s.slot 1).refs = s.held 1 + children s 1 :=
  ((namespace_refs_exact nested_reach).1 one_ne_zero rfl).1

theorem capable_inside_nested :
    nsCapableCred (nested.foldl step booted) plainUser 2 capSysAdmin = true ∧
      Granted (nested.foldl step booted) plainUser 2 capSysAdmin := by
  have hcap : nsCapableCred (nested.foldl step booted) plainUser 2 capSysAdmin = true := by
    decide +kernel
  exact ⟨hcap,(capable_inside nested_reach plainUser 2 capSysAdmin).1 hcap⟩

open B1nix.Extents List IdExtent

def IdExtent.nat (e : IdExtent) : Extent := ⟨e.first.toNat,e.lower.toNat,e.count.toNat⟩

structure IdExtent.Fits (e : IdExtent) : Prop where
  some : 0 < e.count.toNat
  first : e.first.toNat + e.count.toNat ≤ 2 ^ 32
  lower : e.lower.toNat + e.count.toNat ≤ 2 ^ 32

structure MapOk (m : List IdExtent) : Prop where
  fits : ∀ e ∈ m, e.Fits
  exact : Relator.BiUnique (Sends (m.map IdExtent.nat))

variable {e : IdExtent} {m nm : List IdExtent} {id k count : UInt32}

lemma last_toNat (hpos : 0 < count.toNat) (hle : ¬id + count - 1 < id) :
    (id + count - 1).toNat = id.toNat + count.toNat - 1 ∧ id.toNat + count.toNat ≤ 2 ^ 32 := by
  have hct := count.toNat_lt
  rw [UInt32.lt_iff_toNat_lt,UInt32.toNat_sub,UInt32.toNat_add,UInt32.toNat_one] at hle
  rw [UInt32.toNat_sub,UInt32.toNat_add,UInt32.toNat_one]
  omega

lemma invalidId_toNat : invalidId.toNat = 2 ^ 32 - 1 := rfl

lemma searchDown_range (hpos : 0 < count.toNat) (h : searchDown id count m ≠ invalidId) :
    ∃ e ∈ m, e.first.toNat ≤ id.toNat ∧
      id.toNat + count.toNat ≤ e.first.toNat + e.count.toNat ∧
        searchDown id count m = e.lower + (id - e.first) := by
  induction m with
  | nil => cases h rfl
  | cons e m ih =>
    rw [searchDown] at h ⊢
    split at h
    · cases h rfl
    next hle =>
    have hla := (last_toNat hpos hle).1
    rw [if_neg hle]
    split_ifs at h with hin
    · rw [if_pos hin]
      obtain ⟨hfst,hlt⟩ := hin
      rw [le_iff_toNat_le] at hfst
      have hsub : e.first ≤ id + count - 1 := by
        rw [le_iff_toNat_le]
        omega
      rw [UInt32.lt_iff_toNat_lt,UInt32.toNat_sub_of_le _ _ hsub] at hlt
      exact ⟨e,mem_cons_self ..,hfst,by omega,rfl⟩
    rw [if_neg hin]
    obtain ⟨x,hx,hsp⟩ := ih h
    exact ⟨x,.tail _ hx,hsp⟩

lemma IdExtent.Fits.shift (h : e.Fits) (hfst : e.first.toNat ≤ id.toNat)
    (hla : id.toNat < e.first.toNat + e.count.toNat) :
    (e.lower + (id - e.first)).toNat = e.lower.toNat + (id.toNat - e.first.toNat) := by
  have hbd := h.lower
  rw [UInt32.toNat_add,UInt32.toNat_sub_of_le _ _ (UInt32.le_iff_toNat_le.mpr hfst),
    Nat.mod_eq_of_lt (by omega)]

variable {a : Nat} {text line : List UInt8} {parent : List IdExtent} {w : Which}

lemma sends_map : Sends (m.map nat) a k.toNat ↔ ∃ e ∈ m, e.nat.Sends a k.toNat := by
  simp [Sends]

lemma mapDown_sends (hm : ∀ e ∈ m, e.Fits) (h : mapDown m id 1 ≠ invalidId) :
    id ≠ invalidId ∧ Sends (m.map nat) id.toNat (mapDown m id 1).toNat := by
  rw [mapDown] at h ⊢
  split_ifs at h with hid
  · cases h rfl
  rw [if_neg hid]
  obtain ⟨e,he,hfst,hla,heq⟩ := searchDown_range (by decide) h
  have hlt : id.toNat < e.first.toNat + e.count.toNat := hla
  refine ⟨hid,sends_map.mpr ⟨e,he,hfst,hlt,?_⟩⟩
  rw [heq]
  exact (hm e he).shift hfst hlt

lemma searchDown_sends (hm : ∀ e ∈ m, e.Fits) (h : Sends (m.map nat) id.toNat a) :
    Sends (m.map nat) id.toNat (searchDown id 1 m).toNat := by
  induction m with
  | nil => cases sends_nil h
  | cons e m ih =>
    have hone : id + 1 - 1 = id := UInt32.add_sub_cancel ..
    rw [searchDown,hone,if_neg (UInt32.lt_irrefl id),map_cons,sends_cons]
    split_ifs with hin
    · obtain ⟨hfst,hlt⟩ := hin
      rw [UInt32.lt_iff_toNat_lt,UInt32.toNat_sub_of_le _ _ hfst] at hlt
      have hla : id.toNat < e.first.toNat + e.count.toNat := by omega
      exact .inl ⟨hfst,hla,(hm e (mem_cons_self ..)).shift hfst hla⟩
    refine .inr (ih (fun x hx => hm x (.tail _ hx)) ?_)
    rw [map_cons,sends_cons] at h
    refine h.resolve_left fun hhr => hin ?_
    obtain ⟨hfst,hla,-⟩ := hhr
    have hle := le_iff_toNat_le.mpr hfst
    refine ⟨hle,?_⟩
    rw [UInt32.lt_iff_toNat_lt,UInt32.toNat_sub_of_le _ _ hle]
    change id.toNat < e.first.toNat + e.count.toNat at hla
    change e.first.toNat ≤ id.toNat at hfst
    omega

def IdExtent.flip (e : IdExtent) : IdExtent := ⟨e.lower,e.first,e.count⟩

lemma IdExtent.Fits.flip (h : e.Fits) : e.flip.Fits := ⟨h.some,h.lower,h.first⟩

lemma fits_flip (hm : ∀ e ∈ m, e.Fits) : ∀ e ∈ m.map flip, e.Fits := by
  intro e he
  obtain ⟨x,hx,rfl⟩ := mem_map.mp he
  exact (hm x hx).flip

lemma searchUp_flip : searchUp id m = searchDown id 1 (m.map flip) := by
  induction m with
  | nil => rfl
  | cons e m ih =>
    have hone : id + 1 - 1 = id := UInt32.add_sub_cancel ..
    rw [searchUp,map_cons,searchDown,hone,if_neg (UInt32.lt_irrefl id),ih]
    rfl

lemma mapUp_flip : mapUp m id = mapDown (m.map flip) id 1 := by
  rw [mapUp,mapDown,searchUp_flip]

lemma sends_flip :
    Sends ((m.map IdExtent.flip).map IdExtent.nat) a b ↔ Sends (m.map IdExtent.nat) b a := by
  simp only [Sends,mem_map,exists_exists_and_eq_and]
  refine exists_congr fun e => and_congr_right fun _ => ?_
  simp only [IdExtent.flip,IdExtent.nat,Extent.Sends]
  omega

lemma mapUp_sends (hm : ∀ e ∈ m, e.Fits) (h : mapUp m k ≠ invalidId) :
    Sends (m.map IdExtent.nat) (mapUp m k).toNat k.toNat := by
  rw [mapUp_flip] at h ⊢
  exact sends_flip.mp (mapDown_sends (fits_flip hm) h).2

lemma MapOk.down (hm : MapOk m) (hid : id ≠ invalidId)
    (h : Sends (m.map nat) id.toNat k.toNat) : mapDown m id 1 = k := by
  rw [mapDown,if_neg hid]
  exact UInt32.toNat_inj.mp (hm.exact.2 (searchDown_sends hm.fits h) h)

lemma MapOk.up (hm : MapOk m) (hk : k ≠ invalidId)
    (h : Sends (m.map nat) id.toNat k.toNat) : mapUp m k = id := by
  rw [mapUp_flip,mapDown,if_neg hk]
  refine UInt32.toNat_inj.mp (hm.exact.1 ?_ h)
  exact sends_flip.mp (searchDown_sends (fits_flip hm.fits) (sends_flip.mpr h))

lemma not_overlap {a an b bn : UInt32} (han : 0 < an.toNat) (hbn : 0 < bn.toNat)
    (ha : ¬a + an - 1 < a) (hb : ¬b + bn - 1 < b) (h : rangesOverlap a an b bn = false) :
    Apart a.toNat an.toNat b.toNat bn.toNat := by
  have halast := (last_toNat han ha).1
  have hblast := (last_toNat hbn hb).1
  rw [rangesOverlap] at h
  rw [decide_eq_false_iff_not,le_iff_toNat_le,le_iff_toNat_le] at h
  rw [Apart]
  omega

lemma IdExtent.Fits.no_wrap (h : e.Fits) :
    ¬e.first + e.count - 1 < e.first ∧ ¬e.lower + e.count - 1 < e.lower := by
  obtain ⟨hpos,hfst,hlo⟩ := h
  rw [UInt32.lt_iff_toNat_lt,UInt32.lt_iff_toNat_lt,UInt32.toNat_sub,UInt32.toNat_sub,
    UInt32.toNat_add,UInt32.toNat_add,UInt32.toNat_one]
  omega

lemma MapOk.push (hm : MapOk m) (he : e.Fits) (hcsh : m.any e.clashes = false) : MapOk (m ++ [e]) := by
  have hapt : ∀ x ∈ m, Apart x.first.toNat x.count.toNat e.first.toNat e.count.toNat ∧
      Apart x.lower.toNat x.count.toNat e.lower.toNat e.count.toNat := by
    intro x hx
    have hnot := any_eq_false.mp hcsh x hx
    rw [clashes,Bool.not_eq_true,Bool.or_eq_false_iff] at hnot
    have hxf := (hm.fits x hx).no_wrap
    have hef := he.no_wrap
    exact ⟨not_overlap (hm.fits x hx).some he.some hxf.1 hef.1 hnot.1,
      not_overlap (hm.fits x hx).some he.some hxf.2 hef.2 hnot.2⟩
  refine ⟨fun x hx => ?_,?_⟩
  · obtain hin | hnew := mem_append.mp hx
    · exact hm.fits x hin
    rw [mem_singleton] at hnew
    exact hnew ▸ he
  rw [map_append]
  refine biUnique_push hm.exact (fun x hx => ?_) fun x hx => ?_
  · obtain ⟨y,hy,rfl⟩ := mem_map.mp hx
    exact (hapt y hy).1
  obtain ⟨y,hy,rfl⟩ := mem_map.mp hx
  exact (hapt y hy).2

lemma MapOk.nil : MapOk [] :=
  ⟨nofun,fun _ _ _ h => absurd h sends_nil,fun _ _ _ h => absurd h sends_nil⟩

lemma addLine_cases (h : addLine m line = some nm) :
    nm = m ∨ ∃ e, lineExtent line = some e ∧ e.Fits ∧ m.any e.clashes = false ∧ nm = m ++ [e] := by
  rw [addLine] at h
  split at h
  · exact .inl (Option.some.inj h).symm
  split at h
  · cases h
  next e hln =>
  split at h
  · cases h
  next hsh =>
  simp only [not_or] at hsh
  obtain ⟨hct,hfst,hlo,-⟩ := hsh
  split at h
  · cases h
  next hcsh =>
  have hpos : 0 < e.count.toNat := by
    refine pos_of_ne_zero fun hze => hct ?_
    exact UInt32.toNat_inj.mp hze
  exact .inr ⟨e,hln,⟨hpos,(last_toNat hpos hfst).2,(last_toNat hpos hlo).2⟩,Bool.not_eq_true _ ▸ hcsh, (Option.some.inj h).symm⟩

lemma foldlM_addLine {ls : List (List UInt8)} (hm : MapOk m) (h : ls.foldlM addLine m = some nm) :
    MapOk nm ∧ ∀ e ∈ nm, e ∈ m ∨ ∃ line ∈ ls, lineExtent line = some e := by
  induction ls generalizing m with
  | nil =>
    cases h
    exact ⟨hm,fun e => .inl⟩
  | cons line _ ih =>
    obtain ⟨mid,hmid,hrs⟩ := Option.bind_eq_some_iff.mp h
    obtain rfl | ⟨e,hln,hft,hcsh,rfl⟩ := addLine_cases hmid
    · obtain ⟨hok,hfm⟩ := ih hm hrs
      refine ⟨hok,fun x hx => (hfm x hx).imp_right ?_⟩
      rintro ⟨l,hl,hx⟩
      exact ⟨l,.tail _ hl,hx⟩
    obtain ⟨hok,hfm⟩ := ih (hm.push hft hcsh) hrs
    refine ⟨hok,fun x hx => ?_⟩
    obtain hin | ⟨l,hl,hx⟩ := hfm x hx
    · obtain hin | hnew := mem_append.mp hin
      · exact .inl hin
      rw [mem_singleton] at hnew
      exact .inr ⟨line,mem_cons_self ..,hnew ▸ hln⟩
    exact .inr ⟨l,.tail _ hl,hx⟩

lemma parseMap_ok (h : parseMap text = some nm) :
    MapOk nm ∧ ∀ e ∈ nm, ∃ line ∈ lines text, lineExtent line = some e := by
  obtain ⟨hok,hfm⟩ := foldlM_addLine .nil h
  exact ⟨hok,fun e he => (hfm e he).resolve_left nofun⟩

def Inside (parent : List IdExtent) (e : IdExtent) : Prop :=
  ∃ x ∈ parent, x.lower.toNat ≤ e.lower.toNat ∧
    e.lower.toNat + e.count.toNat ≤ x.lower.toNat + x.count.toNat ∧
      x.first.toNat + (e.lower.toNat - x.lower.toNat) + e.count.toNat < 2 ^ 32

variable {which : Which}

lemma lowered_step (hpar : ∀ e ∈ parent, e.Fits) (he : e.Fits)
    (h : mapDown parent e.lower e.count ≠ invalidId) :
    ∃ x ∈ parent, x.first.toNat ≤ e.lower.toNat ∧
      e.lower.toNat + e.count.toNat ≤ x.first.toNat + x.count.toNat ∧
        (mapDown parent e.lower e.count).toNat =
          x.lower.toNat + (e.lower.toNat - x.first.toNat) := by
  rw [mapDown] at h ⊢
  split_ifs at h with hid
  · cases h rfl
  rw [if_neg hid]
  obtain ⟨x,hx,hfst,hla,heq⟩ := searchDown_range he.some h
  have hpos := he.some
  refine ⟨x,hx,hfst,hla,?_⟩
  rw [heq]
  exact (hpar x hx).shift hfst (by omega)

lemma lowered_forall {parent : Nat} (h : lowered s which parent nm = some m) :
    List.Forall₂ (fun e e' => kernelLower s which parent e ≠ invalidId ∧
      e' = { e with lower := kernelLower s which parent e }) nm m := by
  induction nm generalizing m with
  | nil =>
    cases h
    exact .nil
  | cons _ _ ih =>
    rw [lowered] at h
    split at h
    · cases h
    next hk =>
    obtain ⟨rest,hrs,rfl⟩ := Option.map_eq_some_iff.mp h
    exact .cons ⟨hk,rfl⟩ (ih hrs)

lemma lowered_initial (h : lowered s which 0 nm = some m) : m = nm := by
  have hsa : List.Forall₂ Eq nm m := (lowered_forall h).imp fun e e' he => he.2.symm
  exact (forall₂_eq_eq_eq ▸ hsa).symm

lemma lowered_through {parent : Nat} (hpar : parent ≠ 0) (hp : ∀ e ∈ (s.userns parent).map which, e.Fits)
    (hnm : ∀ e ∈ nm, e.Fits) (h : lowered s which parent nm = some m) :
    List.Forall₂ (Through (((s.userns parent).map which).map nat))
        (nm.map nat) (m.map nat) ∧
      (∀ e ∈ m, e.Fits) ∧ ((∀ e ∈ nm, e.lower.toNat + e.count.toNat < 2 ^ 32) →
        ∀ e ∈ m, Inside ((s.userns parent).map which) e) := by
  have hall := lowered_forall h
  clear h
  induction hall with
  | nil => exact ⟨.nil,nofun,fun _ => nofun⟩
  | @cons e e' nm m hhead _ ih =>
    obtain ⟨hk,rfl⟩ := hhead
    rw [kernelLower,if_neg hpar] at hk ⊢
    have hft := hnm e (mem_cons_self ..)
    obtain ⟨x,hx,hfst,hla,hlo⟩ := lowered_step hp hft hk
    obtain ⟨hrs,hfit,hin⟩ := ih fun y hy => hnm y (.tail _ hy)
    have hxf := hp x hx
    refine ⟨.cons ⟨rfl,rfl,x.nat,mem_map_of_mem hx,hfst,hla,hlo⟩ hrs,?_,?_⟩
    · intro y hy
      obtain rfl | hy := mem_cons.mp hy
      · refine ⟨hft.some,hft.first,?_⟩
        have hbd := hxf.lower
        dsimp only
        omega
      exact hfit y hy
    intro hbl y hy
    obtain rfl | hy := mem_cons.mp hy
    · have htop := hbl e (mem_cons_self ..)
      refine ⟨x,hx,?_,?_,?_⟩ <;> dsimp only <;> omega
    exact hin (fun z hz => hbl z (.tail _ hz)) y hy

structure MapsOk (s : State) : Prop where
  ok : ∀ ns, ns ≠ 0 → ∀ which, MapOk ((s.userns ns).map which)

def Contained (s : State) : Prop :=
  ∀ ns, ns ≠ 0 → (s.userns ns).parent ≠ 0 → ∀ which, which ≠ .projid →
    ∀ e ∈ (s.userns ns).map which, Inside ((s.userns (s.userns ns).parent).map which) e

def Framed (s s' : State) : Prop :=
  ∀ j, (s'.slot j).used = true →
    ((s.slot j).used = true ∧ (s'.userns j).parent = (s.userns j).parent ∧
        (s'.userns j).map = (s.userns j).map) ∨
      ((s.slot j).used = false ∧ ∀ w, (s'.userns j).map w = [])

lemma Framed.same (hsl : ∀ j, (s'.slot j).used = (s.slot j).used) (huse : s'.userns = s.userns) :
    Framed s s' := by
  intro j hj
  rw [huse]
  exact .inl ⟨(hsl j).symm.trans hj,rfl,rfl⟩

lemma put_kept {p : Nat} (hj : ((nsPutLocked d p s).slot j).used = true) :
    (s.slot j).used = true ∧ (nsPutLocked d p s).userns j = s.userns j := by
  induction d generalizing s p with
  | zero => exact ⟨hj,rfl⟩
  | succ d ih =>
    rw [nsPutLocked] at hj ⊢
    split at hj
    · next heg =>
      rw [if_pos heg]
      exact ⟨hj,rfl⟩
    next heg =>
    rw [if_neg heg]
    split at hj
    · next hud =>
      rw [if_pos hud]
      exact ⟨hj,rfl⟩
    next hud =>
    rw [if_neg hud]
    split_ifs at hj with hmr
    · rw [if_pos hmr]
      exact ⟨setRefs_used.symm.trans hj,rfl⟩
    rw [if_neg hmr]
    obtain ⟨hus,hsa⟩ := ih hj
    have hjp : j ≠ p := by
      rintro rfl
      rw [release_slot_self] at hus
      cases hus
    rw [release_slot_other hjp] at hus
    rw [release_userns_other hjp] at hsa
    exact ⟨hus,hsa⟩

lemma get_used {i : Nat} : ((nsGetLocked i s).slot j).used = (s.slot j).used := by
  rw [nsGetLocked]
  split
  · rfl
  exact setRefs_used

lemma get_userns {i : Nat} : (nsGetLocked i s).userns = s.userns := by
  rw [nsGetLocked]
  split <;> rfl

lemma create_data {creator : Cred} (hj : ((usernsCreate s creator).2.slot j).used = true) :
    (s.slot j).used = true ∧ (usernsCreate s creator).2.userns j = s.userns j ∨
      (s.slot j).used = false ∧ kgidHasMapping s creator.userNs creator.egid = true ∧
        (usernsCreate s creator).2.userns j = usernsInitLocked s creator.userNs creator := by
  revert hj
  rw [usernsCreate]
  split_ifs with _ hm
  · exact fun hj => .inl ⟨hj,rfl⟩
  · exact fun hj => .inl ⟨hj,rfl⟩
  split
  · exact fun hj => .inl ⟨hj,rfl⟩
  next id hsl =>
  intro hj
  rw [get_used] at hj
  rw [get_userns]
  obtain rfl | hji := eq_or_ne j id
  · exact .inr ⟨(freeSlot_spec hsl).2.2,by simpa using (not_or.mp hm).2,born_userns_self⟩
  rw [born_slot_other hji] at hj
  exact .inl ⟨hj,born_userns_other hji⟩

lemma create_framed {creator : Cred} : Framed s (usernsCreate s creator).2 := by
  intro j hj
  rcases create_data hj with ⟨hus,h⟩ | ⟨hfe,-,h⟩ <;> rw [h]
  · exact .inl ⟨hus,rfl,rfl⟩
  exact .inr ⟨hfe,fun _ => rfl⟩

lemma setgroups_framed {c : Cred} : Framed s (usernsSetgroupsWrite s c ns text).2 := by
  obtain hsa | ⟨-,hset⟩ := setgroupsWrite_cases s c ns text
  · rw [hsa]
    exact .same (fun _ => rfl) rfl
  rw [hset]
  intro j hj
  refine .inl ⟨hj,?_⟩
  dsimp only
  obtain rfl | hjn := eq_or_ne j ns
  · rw [update_self]
    exact ⟨rfl,rfl⟩
  rw [update_of_ne hjn]
  exact ⟨rfl,rfl⟩

lemma step_framed {e : Event} (hstep : Stepped s e s') :
    Framed s s' ∨ ∃ c ns which alloc text nm m, e = .mapWrite c ns which alloc text ∧ ns ≠ 0 ∧
      parseMap text = some nm ∧ (s.userns ns).map which = [] ∧
        lowered s which (s.userns ns).parent nm = some m ∧ s' = s.setMap ns which m := by
  obtain ⟨-,rfl⟩ := hstep
  cases e with
  | create => exact .inl create_framed
  | hold | own => exact .inl (.same (fun _ => get_used) get_userns)
  | drop =>
    refine .inl fun j hj => .inl ?_
    obtain ⟨hus,hsa⟩ := put_kept hj
    exact ⟨hus,congrArg UsernsData.parent hsa,congrArg UsernsData.map hsa⟩
  | mapWrite c ns which alloc text =>
    rcases mapWrite_cases s c ns which alloc text with
      hsa | ⟨nm,m,h0,hprs,hem,hlo,hset⟩
    · left
      change Framed s (usernsMapWrite s c ns which alloc text).2
      rw [hsa]
      exact .same (fun _ => rfl) rfl
    exact .inr ⟨c,ns,which,alloc,text,nm,m,rfl,h0,hprs,hem,hlo,hset⟩
  | setgroupsWrite => exact .inl setgroups_framed

lemma Tree.map_dead {p q : Nat} (h : Tree s p q) (hj : (s.slot j).used = false) :
    (s.userns j).map w = [] := by
  rw [(h.dead j hj).1]
  rfl

lemma MapsOk.frame (h : MapsOk s) (ht : Tree s' 0 0) (hf : Framed s s') : MapsOk s' := by
  refine ⟨fun j h0 w => ?_⟩
  cases hj : (s'.slot j).used with
  | false =>
    rw [ht.map_dead hj]
    exact .nil
  | true =>
    obtain ⟨-,-,hmap⟩ | ⟨-,hmap⟩ := hf j hj
    · rw [hmap]
      exact h.ok j h0 w
    rw [hmap w]
    exact .nil

lemma Contained.frame (h : Contained s) (ht : Tree s 0 0) (ht' : Tree s' 0 0)
    (hf : Framed s s') : Contained s' := by
  intro j h0 hp w hw e he
  cases hj : (s'.slot j).used with
  | false =>
    rw [ht'.map_dead hj] at he
    cases he
  | true =>
    obtain ⟨hus,hpar,hmap⟩ | ⟨-,hmap⟩ := hf j hj
    · have hup := ht.parent j h0 hus
      have hup' := ht'.parent j h0 hj
      rw [hpar] at hp hup' ⊢
      rw [hmap] at he
      obtain ⟨-,-,hpmap⟩ | ⟨hde,-⟩ := hf _ hup'
      · rw [hpmap]
        exact h j h0 hp w hw e he
      cases hup.symm.trans hde
    rw [hmap w] at he
    cases he

lemma setMap_userns :
    (s.setMap ns which m).userns j = if j = ns then
      { s.userns ns with map := update (s.userns ns).map which m } else s.userns j := by
  change update s.userns ns _ j = _
  obtain rfl | hj := eq_or_ne j ns
  · rw [update_self,if_pos rfl]
  rw [update_of_ne hj,if_neg hj]

lemma setMap_map :
    ((s.setMap ns which m).userns j).map w =
      if j = ns ∧ w = which then m else (s.userns j).map w := by
  rw [setMap_userns]
  obtain rfl | hj := eq_or_ne j ns
  · by_cases hw : w = which
    · subst hw
      rw [if_pos rfl,if_pos ⟨rfl,rfl⟩]
      exact update_self ..
    rw [if_pos rfl,if_neg fun h => hw h.2]
    exact update_of_ne hw ..
  rw [if_neg hj,if_neg fun h => hj h.1]

lemma setMap_parent : ((s.setMap ns which m).userns j).parent = (s.userns j).parent := by
  rw [setMap_userns]
  split
  · next hj => rw [hj]
  rfl

lemma MapsOk.write (h : MapsOk s) (hprs : parseMap text = some nm)
    (hlo : lowered s which (s.userns ns).parent nm = some m) : MapsOk (s.setMap ns which m) := by
  refine ⟨fun j h0 w => ?_⟩
  rw [setMap_map]
  split
  · have hnm := (parseMap_ok hprs).1
    by_cases hp : (s.userns ns).parent = 0
    · rw [hp] at hlo
      rw [lowered_initial hlo]
      exact hnm
    obtain ⟨hok,hex⟩ := h.ok _ hp which
    obtain ⟨hthu,hft,-⟩ := lowered_through hp hok hnm.fits hlo
    exact ⟨hft,biUnique_through hex hnm.exact hthu⟩
  exact h.ok j h0 w

def belowTop (text : List UInt8) : Bool :=
  (lines text).all fun line =>
    match lineExtent line with
    | none => true
    | some e => decide (e.lower.toNat + e.count.toNat < 2 ^ 32)

def BelowTop (s : State) : Event → Prop
  | .mapWrite _ ns which _ text =>
    which = .projid ∨ (s.userns ns).parent = 0 ∨ belowTop text = true
  | _ => True

lemma belowTop_lower (h : belowTop text = true) (hprs : parseMap text = some nm) :
    ∀ e ∈ nm, e.lower.toNat + e.count.toNat < 2 ^ 32 := by
  intro e he
  obtain ⟨line,hln,hext⟩ := (parseMap_ok hprs).2 e he
  have hthis := all_eq_true.mp h line hln
  rw [hext] at hthis
  exact of_decide_eq_true hthis

lemma Contained.write (h : Contained s) (hm : MapsOk s) (hprs : parseMap text = some nm)
    (hem : (s.userns ns).map which = []) (hlo : lowered s which (s.userns ns).parent nm = some m)
    (hbl : which = .projid ∨ (s.userns ns).parent = 0 ∨ belowTop text = true)
    (hse : (s.userns ns).parent ≠ ns) : Contained (s.setMap ns which m) := by
  intro j h0 hp w hw e he
  rw [setMap_parent] at hp ⊢
  rw [setMap_map] at he
  rw [setMap_map]
  split_ifs at he with hj
  · obtain ⟨rfl,rfl⟩ := hj
    rw [if_neg fun h => hse h.1]
    have hbl := (hbl.resolve_left hw).resolve_left hp
    exact (lowered_through hp (hm.ok _ hp w).fits (parseMap_ok hprs).1.fits hlo).2.2
      (belowTop_lower hbl hprs) e he
  have hin := h j h0 hp w hw e he
  split_ifs with hpar
  · obtain ⟨hpar,rfl⟩ := hpar
    rw [hpar,hem] at hin
    obtain ⟨x,hx,-⟩ := hin
    cases hx
  exact hin

structure Mapped (s : State) : Prop where
  tree : Tree s 0 0
  maps : MapsOk s
  contained : Contained s

lemma Mapped.step {e : Event} (h : Mapped s) (hstep : Stepped s e s') (hbl : BelowTop s e) :
    Mapped s' := by
  have htr := h.tree.step hstep
  have hen := hstep.1
  rcases step_framed hstep with
    hfmd | ⟨c,ns,which,alloc,text,nm,m,rfl,h0,hprs,hem,hlo,rfl⟩
  · exact ⟨htr,h.maps.frame htr hfmd,h.contained.frame h.tree htr hfmd⟩
  rw [Event.enabled,Bool.and_eq_true] at hen
  have hlv := (h.tree.level ns h0 (h.tree.live_used hen.2)).1
  refine ⟨htr,h.maps.write hprs hlo,
    h.contained.write h.maps hprs hem hlo hbl fun hse => ?_⟩
  rw [hse] at hlv
  omega

lemma Mapped.initial (h : s.Initial) : Mapped s := by
  have hem : ∀ ns, ns ≠ 0 → ∀ which, (s.userns ns).map which = [] := by
    intro ns h0 which
    rw [h.cleared ns h0]
    rfl
  refine ⟨.initial h,⟨fun ns h0 which => ?_⟩,fun ns h0 _ which _ e he => ?_⟩
  · rw [hem ns h0]
    exact .nil
  rw [hem ns h0] at he
  cases he

lemma Mapped.reach (h : Reach State.Initial (guarded BelowTop Stepped) s) : Mapped s :=
  h.invariant (fun _ h0 => .initial h0) fun _ _ _ hs hstep => hs.step hstep.2 hstep.1

structure IdMapped (s : State) (which : Which) (ns : Nat) : Prop where
  down : ∀ a b, makeKid s which ns a ≠ invalidId →
    makeKid s which ns a = makeKid s which ns b → a = b
  up : ∀ k l, fromKid s which ns k ≠ invalidId →
    fromKid s which ns k = fromKid s which ns l → k = l
  parent : ∀ a, makeKid s which ns a ≠ invalidId →
    fromKid s which (s.userns ns).parent (makeKid s which ns a) ≠ invalidId
  there : ∀ a, makeKid s which ns a ≠ invalidId →
    fromKid s which ns (makeKid s which ns a) = a
  back : ∀ k, fromKid s which ns k ≠ invalidId →
    makeKid s which ns (fromKid s which ns k) = k

lemma MapOk.there (hm : MapOk m) (h : mapDown m id 1 ≠ invalidId) : mapUp m (mapDown m id 1) = id :=
  hm.up h (mapDown_sends hm.fits h).2

lemma MapOk.back (hm : MapOk m) (h : mapUp m k ≠ invalidId) : mapDown m (mapUp m k) 1 = k :=
  hm.down h (mapUp_sends hm.fits h)

lemma MapOk.inside (hpar : MapOk parent) (hm : MapOk m) (hin : ∀ e ∈ m, Inside parent e)
    (h : mapDown m id 1 ≠ invalidId) : mapUp parent (mapDown m id 1) ≠ invalidId := by
  obtain ⟨e,he,hfst,hla,hlo⟩ := sends_map.mp (mapDown_sends hm.fits h).2
  obtain ⟨x,hx,hlow,hhg,htop⟩ := hin e he
  change (mapDown m id 1).toNat = e.lower.toNat + (id.toNat - e.first.toNat) at hlo
  change e.first.toNat ≤ id.toNat at hfst
  change id.toNat < e.first.toNat + e.count.toNat at hla
  have hsm : x.first.toNat + ((mapDown m id 1).toNat - x.lower.toNat) < 2 ^ 32 - 1 := by omega
  obtain ⟨b,hb⟩ : ∃ b : UInt32,
      b.toNat = x.first.toNat + ((mapDown m id 1).toNat - x.lower.toNat) := by
    refine ⟨ofNat _,toNat_ofNat_of_lt' ?_⟩
    exact hsm.trans (by decide)
  have hup : mapUp parent (mapDown m id 1) = b := by
    refine hpar.up h (sends_map.mpr ⟨x,hx,?_,?_,?_⟩)
    · change x.first.toNat ≤ b.toNat
      omega
    · change b.toNat < x.first.toNat + x.count.toNat
      omega
    change _ = x.lower.toNat + (b.toNat - x.first.toNat)
    omega
  rw [hup]
  intro heq
  rw [heq,invalidId_toNat] at hb
  omega

lemma mapped_plain (which : Which) (hpar : (s.userns ns).parent = 0)
    (hns : ns = 0 ∨ nsMaxUser ≤ ns) : IdMapped s which ns := by
  have hmk : ∀ a, makeKid s which ns a = a := fun a => if_pos hns
  have hfm : ∀ k, fromKid s which ns k = k := fun k => if_pos hns
  refine ⟨fun a b _ h => ?_,fun k l _ h => ?_,fun a h => ?_,fun a _ => ?_,fun k _ => ?_⟩
  · rwa [hmk,hmk] at h
  · rwa [hfm,hfm] at h
  · rw [hpar]
    exact h
  · rw [hmk,hfm]
  rw [hfm,hmk]

lemma Mapped.idMapped (h : Mapped s) (hwi : which ≠ .projid) : IdMapped s which ns := by
  by_cases hns : ns = 0 ∨ nsMaxUser ≤ ns
  · refine mapped_plain which ?_ hns
    by_cases h0 : ns = 0
    · rw [h0]
      exact h.tree.parent0
    have hde : (s.slot ns).used = false := by
      rw [← Bool.not_eq_true]
      intro hus
      have hbd := h.tree.bound ns hus
      omega
    rw [(h.tree.dead ns hde).1]
    rfl
  have h0 : ns ≠ 0 := fun h0 => hns (.inl h0)
  have hok := h.maps.ok ns h0 which
  have hmk : ∀ a, makeKid s which ns a = mapDown ((s.userns ns).map which) a 1 :=
    fun a => if_neg hns
  have hfm : ∀ k, fromKid s which ns k = mapUp ((s.userns ns).map which) k :=
    fun k => if_neg hns
  refine ⟨fun a b ha hab => ?_,fun k l hk hkl => ?_,fun a ha => ?_,fun a ha => ?_,fun k hk => ?_⟩
  · rw [hmk] at ha hab
    rw [hmk] at hab
    have hb := hab ▸ ha
    rw [← hok.there ha,hab,hok.there hb]
  · rw [hfm] at hk hkl
    rw [hfm] at hkl
    have hl := hkl ▸ hk
    rw [← hok.back hk,hkl,hok.back hl]
  · rw [hmk] at ha ⊢
    rw [fromKid]
    split_ifs with hpar
    · exact ha
    have hp0 : (s.userns ns).parent ≠ 0 := fun hp => hpar (.inl hp)
    exact (h.maps.ok _ hp0 which).inside hok (h.contained ns h0 hp0 which hwi) ha
  · rw [hmk] at ha ⊢
    rw [hfm]
    exact hok.there ha
  rw [hfm] at hk ⊢
  rw [hmk]
  exact hok.back hk

lemma written_once {e : Event} (h : Tree s 0 0) (hstep : Stepped s e s') (hus : (s'.slot ns).used = true)
    (hmap : (s.userns ns).map which ≠ []) : (s'.userns ns).map which = (s.userns ns).map which := by
  rcases step_framed hstep with
    hfmd | ⟨c,ns',which',alloc,text,nm,m,rfl,h0,hprs,hem,hlo,rfl⟩
  · obtain ⟨-,-,hsa⟩ | ⟨hde,-⟩ := hfmd ns hus
    · rw [hsa]
    cases hmap (h.map_dead hde)
  rw [setMap_map,if_neg]
  rintro ⟨rfl,rfl⟩
  exact hmap hem

theorem idMaps_of_belowTop (h : Reach State.Initial (guarded BelowTop Stepped) s) (which : Which)
    (hwhich : which ≠ .projid) (ns : Nat) :
    IdMapped s which ns ∧ ∀ e s', Stepped s e s' → (s'.slot ns).used = true →
      (s.userns ns).map which ≠ [] → (s'.userns ns).map which = (s.userns ns).map which := by
  have hmp := Mapped.reach h
  exact ⟨hmp.idMapped hwhich,fun e s' => written_once hmp.tree⟩

instance (e : Event) : Decidable (BelowTop s e) := by
  cases e <;> (dsimp only [BelowTop]; infer_instance)

theorem idMaps_after_nested :
    IdMapped (nested.foldl step booted) .uid 1 ∧
      makeKuid (nested.foldl step booted) 1 0 = 1000 := by
  refine ⟨(idMaps_of_belowTop ?_ .uid nofun 1).1,by decide +kernel⟩
  refine Reach.along (fun s e => BelowTop s e ∧ e.enabled s = true) (fun s e h => ⟨h.1,h.2,rfl⟩)
    (.start booted_initial) ?_
  decide +kernel

def hostRoot : Cred := ⟨0,0,0x1FFFFFFFFFF,0⟩

def topText : List UInt8 := [52,50,57,52,57,54,55,50,57,52,32,49,48,48,48,32,50]

def innerText : List UInt8 := [48,32,52,50,57,52,57,54,55,50,57,52,32,50]

def topRange : List Event :=
  [.create hostRoot,.mapWrite hostRoot 1 .uid true topText,.mapWrite hostRoot 1 .gid true topText,
    .create ownRoot,.mapWrite ownRoot 2 .uid true innerText]

theorem topRange_unmapped :
    Reach State.Initial Stepped (topRange.foldl step booted) ∧
      ¬IdMapped (topRange.foldl step booted) .uid 2 := by
  refine ⟨?_,fun h => ?_⟩
  · refine Reach.along (fun s e => e.enabled s = true) (fun s e h => ⟨h,rfl⟩)
      (.start booted_initial) ?_
    decide +kernel
  exact h.parent 1 (by decide +kernel) (by decide +kernel)

end B1nix.UserNamespace
