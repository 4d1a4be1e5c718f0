import B1nix.Basic.Splice
import B1nix.Basic.Transition

namespace B1nix.MemFile

open B1nix.Splice Function Option

def enomem : Int := 12

def efbig : Int := 27

structure Inode where
  data : Option (List UInt8)
  capacity : Nat
  size : Nat

structure Handle where
  offset : Nat
  append : Bool

inductive Op where
  | write (off : Nat) (buf : List UInt8)
  | cut (length : Nat)

def lastWritten : List Op → Nat → UInt8
  | [], _ => 0
  | .write off buf :: history, p =>
    if off ≤ p ∧ p < off + buf.length then buf.getD (p - off) 0 else lastWritten history p
  | .cut length :: history, p => if length ≤ p then 0 else lastWritten history p

structure State where
  inode : Inode
  handle : Nat → Handle
  history : List Op

variable (limit : Nat) (s : State) (h : Nat)

def State.seek (off : Nat) : State :=
  { s with handle := update s.handle h { s.handle h with offset := off } }

def copyOut (i : Inode) (off len : Nat) : Option (List UInt8) :=
  match i.data with
  | some d => if off + len ≤ d.length then some (slice d off len) else none
  | none => some (List.replicate len 0)

def nodeReadImpl (len : Nat) (posp : Option Nat) (s : State) : Option (List UInt8 × State) :=
  let off := posp.getD (s.handle h).offset
  let rem := if off < s.inode.size then s.inode.size - off else 0
  let toR := if len < rem then len else rem
  if 0 < toR then
    (copyOut s.inode off toR).map fun bytes =>
      (bytes, if posp.isSome then s else s.seek h (off + toR))
  else some ([], s)

def grow : Nat → Nat → Nat → Nat
  | 0, cap, _ => cap
  | fuel + 1, cap, need => if cap < need then grow fuel (cap * 2) need else cap

def reserve (alloc : Bool) (need : Nat) (i : Inode) : Option (Except Int Inode) :=
  let newCap := grow 64 (if i.capacity = 0 then 1024 else i.capacity * 2) need
  if !alloc then some (.error (-enomem))
  else
    match i.data with
    | none => some (.ok { i with data := some (List.replicate newCap 0), capacity := newCap })
    | some d =>
      let keep := if newCap < i.size then newCap else i.size
      if keep ≤ d.length then
        some (.ok { i with
          data := some (splice (List.replicate newCap 0) 0 (slice d 0 keep))
          capacity := newCap })
      else none

def ensure (alloc : Bool) (need : Nat) (i : Inode) : Option (Except Int Inode) :=
  if i.capacity < need then reserve alloc need i else some (.ok i)

def copyIn (i : Inode) (off : Nat) (buf : List UInt8) : Option Inode :=
  match i.data with
  | some d =>
    if off + buf.length ≤ d.length then some { i with data := some (splice d off buf) } else none
  | none => if off + buf.length = 0 then some i else none

def State.target (posp : Option Nat) : Nat :=
  if (s.handle h).append then s.inode.size else posp.getD (s.handle h).offset

def stored (off : Nat) (buf : List UInt8) (posp : Option Nat) (s : State) (i : Inode) : State :=
  let s := { s with
    inode := { i with size := if i.size < off + buf.length then off + buf.length else i.size }
    history := .write off buf :: s.history }
  if posp.isSome then s else s.seek h (off + buf.length)

def nodeWriteImpl (buf : List UInt8) (posp : Option Nat) (alloc : Bool) (s : State) : Option (Int × State) :=
  let off := s.target h posp
  let s := if posp.isNone ∧ (s.handle h).append then s.seek h s.inode.size else s
  if limit < off + buf.length then some (-efbig, s)
  else
    match ensure alloc (off + buf.length) s.inode with
    | none => none
    | some (.error err) => some (err, s)
    | some (.ok i) => (copyIn i off buf).map fun i => (buf.length, stored h off buf posp s i)

def zeroTail (length : Nat) (i : Inode) : Option Inode :=
  if i.size < length then
    match i.data with
    | some d =>
      if length ≤ d.length then
        some { i with data := some (splice d i.size (List.replicate (length - i.size) 0)) }
      else none
    | none => some i
  else some i

def vfsFtruncate (length : Nat) (alloc : Bool) (s : State) : Option (Int × State) :=
  if limit < length then some (-efbig, s)
  else
    match if s.inode.capacity < length then reserve alloc length s.inode
      else (zeroTail length s.inode).map .ok with
    | none => none
    | some (.error err) => some (err, s)
    | some (.ok i) =>
      some (0, { s with inode := { i with size := length }, history := .cut length :: s.history })

def openTrunc : Option State :=
  let cut (i : Inode) : State := { s with inode := { i with size := 0 }, history := .cut 0 :: s.history }
  match s.inode.data with
  | some d =>
    if 0 < d.length then some (cut { s.inode with data := some (splice d 0 [0]) }) else none
  | none => some (cut s.inode)

inductive Event where
  | openFile (h : Nat) (append trunc : Bool)
  | seek (h off : Nat)
  | read (h len : Nat) (posp : Option Nat)
  | write (h : Nat) (buf : List UInt8) (posp : Option Nat) (alloc : Bool)
  | ftruncate (length : Nat) (alloc : Bool)

def Event.Enabled : Event → Prop
  | .openFile _ _ _ => True
  | .seek _ _ => True
  | .read h len posp => posp.getD (s.handle h).offset + len ≤ limit
  | .write h buf posp _ => s.target h posp + buf.length ≤ limit
  | .ftruncate length _ => length ≤ limit

def step : Event → Option State
  | .openFile h append trunc =>
    (if trunc then openTrunc s else some s).map fun s =>
      { s with handle := update s.handle h ⟨0,append⟩ }
  | .seek h off => some (s.seek h off)
  | .read h len posp => (nodeReadImpl h len posp s).map (·.2)
  | .write h buf posp alloc => (nodeWriteImpl limit h buf posp alloc s).map (·.2)
  | .ftruncate length alloc => (vfsFtruncate limit length alloc s).map (·.2)

def Stepped (e : Event) (s' : State) : Prop := e.Enabled limit s ∧ step limit s e = some s'

structure State.Fresh (s : State) : Prop where
  data : s.inode.data = none
  capacity : s.inode.capacity = 0
  size : s.inode.size = 0
  history : s.history = []

open B1nix.Transition List

variable {limit h off need len : Nat} {buf : List UInt8} {posp : Option Nat} {alloc : Bool}
  {s s' : State} {i i' : Inode}

def Inode.byte (i : Inode) (p : Nat) : UInt8 :=
  match i.data with
  | some d => d.getD p 0
  | none => 0

structure Shape (i : Inode) : Prop where
  null : i.data = none → i.capacity = 0
  length : ∀ d, i.data = some d → d.length = i.capacity
  positive : ∀ d, i.data = some d → 0 < i.capacity
  size_le : i.size ≤ i.capacity

structure Sound (s : State) : Prop where
  shape : Shape s.inode
  content : ∀ p, p < s.inode.size → s.inode.byte p = lastWritten s.history p
  beyond : ∀ p, s.inode.size ≤ p → lastWritten s.history p = 0

lemma getD_zeros (n p : Nat) : (replicate n (0 : UInt8)).getD p 0 = 0 := by
  rw [getD_eq_getElem?_getD,getElem?_getD_replicate_default_eq]

lemma grow_ge (fuel cap need : Nat) : cap ≤ grow fuel cap need := by
  induction fuel generalizing cap with
  | zero => exact le_rfl
  | succ _ ih =>
    rw [grow]
    split
    · have := ih (cap * 2)
      omega
    exact le_rfl

lemma grow_enough {fuel cap : Nat} (h : need ≤ cap * 2 ^ fuel) : need ≤ grow fuel cap need := by
  induction fuel generalizing cap with
  | zero => simpa [grow] using h
  | succ _ ih =>
    rw [grow]
    split
    · refine ih ?_
      rw [Nat.mul_assoc,Nat.mul_comm 2]
      exact h
    omega

section

variable (hs : Shape i)

include hs

lemma reserve_spec (hnd : need < 2 ^ 64) :
    ∃ i', reserve true need i = some (.ok i') ∧ Shape i' ∧ need ≤ i'.capacity ∧ i'.size = i.size ∧
      ∀ p, i'.byte p = if p < i.size then i.byte p else 0 := by
  obtain ⟨cap,hcap⟩ : ∃ cap, cap = grow 64 (if i.capacity = 0 then 1024 else i.capacity * 2) need :=
    ⟨_,rfl⟩
  have hsta : 1 ≤ (if i.capacity = 0 then 1024 else i.capacity * 2) ∧
      i.capacity ≤ (if i.capacity = 0 then 1024 else i.capacity * 2) := by
    split <;> omega
  have hge : (if i.capacity = 0 then 1024 else i.capacity * 2) ≤ cap := hcap ▸ grow_ge ..
  have heno : need ≤ cap := by
    rw [hcap]
    refine grow_enough (le_trans hnd.le ?_)
    exact Nat.le_mul_of_pos_left _ hsta.1
  have hsz := hs.size_le
  rw [reserve,← hcap]
  cases hda : i.data with
  | none =>
    have hze := hs.null hda
    refine ⟨_,rfl,⟨nofun,fun d hd => ?_,fun d _ => ?_,?_⟩,heno,rfl,fun p => ?_⟩
    · cases hd
      exact length_replicate
    · dsimp only
      omega
    · dsimp only
      omega
    rw [if_neg (by omega)]
    exact getD_zeros cap p
  | some d =>
    have hlen := hs.length d hda
    have hkp : (if cap < i.size then cap else i.size) = i.size := if_neg (by omega)
    have hslice : (slice d 0 i.size).length = i.size := length_slice (by omega)
    have hro : 0 + (slice d 0 i.size).length ≤ (replicate cap (0 : UInt8)).length := by
      rw [length_replicate]
      omega
    dsimp only
    rw [Bool.not_true,if_neg Bool.false_ne_true,hkp,if_pos (by omega)]
    refine ⟨_,rfl,⟨nofun,fun d' hd => ?_,fun d' _ => ?_,?_⟩,heno,rfl,fun p => ?_⟩
    · cases hd
      rw [length_splice _ hro,length_replicate]
    · dsimp only
      omega
    · dsimp only
      omega
    simp only [Inode.byte,hda]
    rw [getD_splice hro]
    by_cases hp : p < i.size
    · rw [if_pos (by omega),if_pos hp,slice_eq_map (by omega) 0,
        getD_eq_getElem _ _ (by simpa using hp)]
      simp
    rw [if_neg (by omega),if_neg hp,getD_zeros]

lemma copyIn_spec (hfit : off + buf.length ≤ i.capacity) :
    ∃ i', copyIn i off buf = some i' ∧ Shape i' ∧ i'.capacity = i.capacity ∧ i'.size = i.size ∧
      ∀ p, i'.byte p = if off ≤ p ∧ p < off + buf.length then buf.getD (p - off) 0 else i.byte p := by
  unfold copyIn
  split
  · next d hda =>
    have hlen := hs.length d hda
    rw [if_pos (by omega)]
    refine ⟨_,rfl,⟨nofun,fun d' hd => ?_,fun d' _ => hs.positive d hda, hs.size_le⟩,rfl,rfl,fun p => ?_⟩
    · cases hd
      rw [length_splice _ (by omega)]
      exact hlen
    simp only [Inode.byte,hda]
    exact getD_splice (by omega) p 0
  next hda =>
  have hze := hs.null hda
  rw [if_pos (by omega)]
  exact ⟨i,rfl,hs,rfl,rfl,fun p => by rw [if_neg (by omega)]⟩

lemma zeroTail_spec (hfit : len ≤ i.capacity) :
    ∃ i', zeroTail len i = some i' ∧ Shape i' ∧ i'.capacity = i.capacity ∧ i'.size = i.size ∧
      ∀ p, p < len → i'.byte p = if p < i.size then i.byte p else 0 := by
  unfold zeroTail
  split
  · split
    · next d hda =>
      have hlen := hs.length d hda
      have hro : i.size + (replicate (len - i.size) (0 : UInt8)).length ≤ d.length := by
        rw [length_replicate]
        omega
      rw [if_pos (by omega)]
      refine ⟨_,rfl,⟨nofun,fun d' hd => ?_,fun d' _ => hs.positive d hda,
        hs.size_le⟩,rfl,rfl,fun p hp => ?_⟩
      · obtain rfl := some.inj hd
        rw [length_splice _ hro]
        exact hlen
      simp only [Inode.byte,hda]
      rw [getD_splice hro,length_replicate]
      by_cases hps : p < i.size
      · rw [if_neg (by omega),if_pos hps]
      rw [if_pos (by omega),if_neg hps,getD_zeros]
    next hda =>
    have hze := hs.null hda
    omega
  exact ⟨i,rfl,hs,rfl,rfl,fun p hp => by rw [if_pos (by omega)]⟩

structure Room (need : Nat) (i i' : Inode) : Prop where
  shape : Shape i'
  fits : need ≤ i'.capacity
  size : i'.size = i.size
  kept : ∀ p, p < i.size → i'.byte p = i.byte p
  rest : ∀ p, i.size ≤ p → i'.byte p = if i.capacity < need then 0 else i.byte p

lemma reserve_room (hnd : need < 2 ^ 64) (hmr : i.capacity < need)
    (alloc : Bool) : (∃ err, reserve alloc need i = some (.error err)) ∨
      ∃ i', reserve alloc need i = some (.ok i') ∧ Room need i i' := by
  cases alloc with
  | false => exact .inl ⟨_,rfl⟩
  | true =>
    obtain ⟨i',hi',hsh,hft,hsz,hby⟩ := reserve_spec hs hnd
    refine .inr ⟨i',hi',hsh,hft,hsz,fun p hp => ?_,fun p hp => ?_⟩
    · rw [hby,if_pos hp]
    rw [hby,if_neg (by omega),if_pos hmr]

lemma ensure_room (hnd : need < 2 ^ 64) (alloc : Bool) :
    (∃ err, ensure alloc need i = some (.error err)) ∨
      ∃ i', ensure alloc need i = some (.ok i') ∧ Room need i i' := by
  unfold ensure
  split
  · next hmr => exact reserve_room hs hnd hmr alloc
  next hless =>
  exact .inr ⟨i,rfl,hs,le_of_not_gt hless,rfl,fun _ _ => rfl,fun p _ => by rw [if_neg hless]⟩

end

lemma Sound.seek (hs : Sound s) (h off : Nat) : Sound (s.seek h off) := { hs with }

lemma Sound.stored (hs : Sound s) (hro : Room (off + buf.length) s.inode i)
    (hcy : copyIn i off buf = some i')
    (hcl : off + buf.length ≤ s.inode.capacity → ∀ p, s.inode.size ≤ p → p < off → s.inode.byte p = 0)
    (h : Nat) (posp : Option Nat) : Sound (stored h off buf posp s i') := by
  obtain ⟨j,hj,hsh,hcap,hsz,hby⟩ := copyIn_spec hro.shape hro.fits
  obtain rfl : j = i' := some.inj (hj.symm.trans hcy)
  have hft := hro.fits
  have hsa := hsz.trans hro.size
  have hgap : ∀ p, s.inode.size ≤ p → p < off → i.byte p = 0 := by
    intro p hp hoff
    rw [hro.rest p hp]
    split
    · rfl
    next hless => exact hcl (by omega) p hp hoff
  have hsd : Sound { s with
      inode := { j with size := if j.size < off + buf.length then off + buf.length else j.size }
      history := .write off buf :: s.history } := by
    refine ⟨⟨hsh.null,hsh.length,hsh.positive,?_⟩,fun p hp => ?_,fun p hp => ?_⟩
    · have hle := hsh.size_le
      dsimp only
      split <;> omega
    · change j.byte p = _
      rw [hby,lastWritten]
      split
      · rfl
      next hout =>
      by_cases hold : p < s.inode.size
      · rw [hro.kept p hold]
        exact hs.content p hold
      have hoff : p < off := by
        dsimp only at hp
        split at hp <;> omega
      rw [hgap p (by omega) hoff,hs.beyond p (by omega)]
    dsimp only at hp ⊢
    rw [lastWritten]
    have hbd : off + buf.length ≤ p ∧ s.inode.size ≤ p := by split at hp <;> omega
    rw [if_neg (by omega)]
    exact hs.beyond p hbd.2
  unfold MemFile.stored
  dsimp only
  split
  · exact hsd
  exact hsd.seek h _

def State.Clean (s : State) (off len : Nat) : Prop :=
  off + len ≤ s.inode.capacity → ∀ p, p < off → s.inode.size ≤ p → s.inode.byte p = 0

section

variable (hs : Sound s)

include hs

lemma Sound.nodeWrite (hlim : limit < 2 ^ 64)
    (hsum : s.target h posp + buf.length ≤ limit) (hcl : s.Clean (s.target h posp) buf.length) :
    ∃ r, nodeWriteImpl limit h buf posp alloc s = some r ∧ Sound r.2 := by
  have hmv : ∀ s₁ : State, s₁ = (if posp.isNone ∧ (s.handle h).append then
      s.seek h s.inode.size else s) → Sound s₁ ∧ s₁.inode = s.inode := by
    rintro s₁ rfl
    split
    · exact ⟨hs.seek h _,rfl⟩
    exact ⟨hs,rfl⟩
  rw [nodeWriteImpl]
  obtain ⟨hs₁,hin⟩ := hmv _ rfl
  generalize (if posp.isNone ∧ (s.handle h).append then s.seek h s.inode.size else s) = s₁ at *
  rw [if_neg (by omega),hin]
  rcases ensure_room hs.shape (by omega : s.target h posp + buf.length < 2 ^ 64) alloc with
    ⟨err,herr⟩ | ⟨i,hi,hro⟩
  · rw [herr]
    exact ⟨_,rfl,hs₁⟩
  obtain ⟨i',hcy,-⟩ := copyIn_spec hro.shape hro.fits
  rw [hi]
  dsimp only
  rw [hcy]
  refine ⟨_,rfl,hs₁.stored (hin ▸ hro) hcy ?_ h posp⟩
  rw [hin]
  exact fun hfit p hp hoff => hcl hfit p hoff hp

lemma Sound.cut (i : Inode) (len : Nat) (hsh : Shape { i with size := len })
    (hby : ∀ p, p < len → i.byte p = if p < s.inode.size then s.inode.byte p else 0) :
    Sound { s with inode := { i with size := len }, history := .cut len :: s.history } := by
  refine ⟨hsh,fun p hp => ?_,fun p hp => if_pos hp⟩
  change i.byte p = _
  have hp' : p < len := hp
  rw [hby p hp',lastWritten,if_neg (Nat.not_le_of_lt hp')]
  split
  · next hold => exact hs.content p hold
  next hnew => exact (hs.beyond p (by omega)).symm

lemma Sound.ftruncate (hlim : limit < 2 ^ 64) (hlen : len ≤ limit) :
    ∃ r, vfsFtruncate limit len alloc s = some r ∧ Sound r.2 := by
  rw [vfsFtruncate,if_neg (by omega)]
  by_cases hmr : s.inode.capacity < len
  · rw [if_pos hmr]
    obtain ⟨err,herr⟩ | ⟨i,hi,hro⟩ := reserve_room hs.shape (by omega) hmr alloc
    · rw [herr]
      exact ⟨_,rfl,hs⟩
    rw [hi]
    refine ⟨_,rfl,hs.cut i len { hro.shape with size_le := hro.fits } fun p _ => ?_⟩
    split
    · next hold => exact hro.kept p hold
    next hnew => rw [hro.rest p (by omega),if_pos hmr]
  rw [if_neg hmr]
  obtain ⟨i,hi,hsh,hcap,-,hby⟩ := zeroTail_spec hs.shape (by omega : len ≤ _)
  rw [hi]
  refine ⟨_,rfl,hs.cut i len ⟨hsh.null,hsh.length,hsh.positive,?_⟩ hby⟩
  dsimp only
  omega

lemma Sound.openTrunc : ∃ s', openTrunc s = some s' ∧ Sound s' := by
  unfold MemFile.openTrunc
  split
  · next d hda =>
    have hlen := hs.shape.length d hda
    have hpos := hs.shape.positive d hda
    have hro : 0 + [(0 : UInt8)].length ≤ d.length := by
      rw [length_singleton]
      omega
    rw [if_pos (by omega)]
    refine ⟨_,rfl,hs.cut { s.inode with data := some (splice d 0 [0]) } 0
      ⟨nofun,fun d' hd => ?_,fun _ _ => hpos,zero_le⟩ fun p hp => absurd hp not_lt_zero⟩
    cases hd
    rw [length_splice _ hro]
    exact hlen
  next hda =>
  exact ⟨_,rfl,hs.cut s.inode 0 { hs.shape with size_le := zero_le }
    fun p hp => absurd hp not_lt_zero⟩

lemma Sound.nodeRead (h len : Nat) (posp : Option Nat) :
    ∃ s', nodeReadImpl h len posp s = some ((range
      (min len (s.inode.size - posp.getD (s.handle h).offset))).map fun k =>
        lastWritten s.history (posp.getD (s.handle h).offset + k), s') ∧ Sound s' := by
  obtain ⟨off,hoff⟩ : ∃ off, off = posp.getD (s.handle h).offset := ⟨_,rfl⟩
  rw [nodeReadImpl,← hoff]
  have hn : (if len < (if off < s.inode.size then s.inode.size - off else 0) then len
      else if off < s.inode.size then s.inode.size - off else 0) =
      min len (s.inode.size - off) := by
    split <;> split <;> omega
  rw [hn]
  obtain ⟨n,hnn⟩ : ∃ n, n = min len (s.inode.size - off) := ⟨_,rfl⟩
  rw [← hnn]
  split
  · next hpos =>
    have hsz := hs.shape.size_le
    have hcy : copyOut s.inode off n =
        some ((range n).map fun k => lastWritten s.history (off + k)) := by
      unfold copyOut
      split
      · next d hda =>
        have hlen := hs.shape.length d hda
        rw [if_pos (by omega),slice_eq_map (by omega) 0]
        refine congrArg some (map_congr_left fun k hk => ?_)
        rw [mem_range] at hk
        rw [← hs.content (off + k) (by omega),Inode.byte,hda]
      next hda =>
      have := hs.shape.null hda
      omega
    rw [hcy]
    refine ⟨_,rfl,?_⟩
    split
    · exact hs
    exact hs.seek h _
  next hze =>
  obtain rfl : n = 0 := by omega
  exact ⟨s,rfl,hs⟩

end

def Event.Clean (s : State) : Event → Prop
  | .write h buf posp _ => s.Clean (s.target h posp) buf.length
  | _ => True

lemma Sound.step {e : Event} (hs : Sound s) (hlim : limit < 2 ^ 64) (hcl : e.Clean s)
    (he : e.Enabled limit s) : ∃ s', step limit s e = some s' ∧ Sound s' := by
  cases e with
  | openFile h append trunc =>
    cases trunc with
    | true =>
      obtain ⟨s',hs',hsd⟩ := hs.openTrunc
      refine ⟨_,?_,({ hsd with } : Sound
        { s' with handle := update s'.handle h ⟨0,append⟩ })⟩
      rw [MemFile.step,if_pos rfl,hs']
      rfl
    | false => exact ⟨_,rfl,{ hs with }⟩
  | seek h off => exact ⟨_,rfl,hs.seek h off⟩
  | read h len posp =>
    obtain ⟨s',hs',hsd⟩ := hs.nodeRead h len posp
    exact ⟨s',by rw [MemFile.step,hs']; rfl,hsd⟩
  | write =>
    obtain ⟨r,hr,hsd⟩ := hs.nodeWrite hlim he hcl
    exact ⟨r.2,by rw [MemFile.step,hr]; rfl,hsd⟩
  | ftruncate =>
    obtain ⟨r,hr,hsd⟩ := hs.ftruncate hlim he
    exact ⟨r.2,by rw [MemFile.step,hr]; rfl,hsd⟩

lemma State.Fresh.sound (h : s.Fresh) : Sound s := by
  refine ⟨⟨fun _ => h.capacity,fun d hd => ?_,fun d hd => ?_,?_⟩,fun p hp => ?_,fun p _ => ?_⟩
  · cases h.data.symm.trans hd
  · cases h.data.symm.trans hd
  · rw [h.size]
    exact zero_le
  · rw [h.size] at hp
    cases not_lt_zero hp
  rw [h.history,lastWritten]

def Runs (limit : Nat) : State → Prop := Reach State.Fresh (guarded Event.Clean (Stepped limit))

lemma Runs.sound (hlim : limit < 2 ^ 64) (h : Runs limit s) : Sound s := by
  refine Reach.invariant (fun _ hs => hs.sound) ?_ h
  rintro s e s' hs ⟨hcl,he,hstep⟩
  obtain ⟨s₁,hs₁,hsd⟩ := hs.step hlim hcl he
  cases hs₁.symm.trans hstep
  exact hsd

theorem memFile_refines (hlimit : limit < 2 ^ 64) (hs : Runs limit s) :
    (∀ e : Event, e.Clean s → e.Enabled limit s → ∃ s', Stepped limit s e s') ∧
      ∀ (h len : Nat) (posp : Option Nat), ∃ s', nodeReadImpl h len posp s =
        some ((range (min len (s.inode.size - posp.getD (s.handle h).offset))).map fun k =>
          lastWritten s.history (posp.getD (s.handle h).offset + k), s') := by
  have hsd := hs.sound hlimit
  refine ⟨fun e hcl he => ?_,fun h len posp => ?_⟩
  · obtain ⟨s',hs',-⟩ := hsd.step hlimit hcl he
    exact ⟨s',he,hs'⟩
  obtain ⟨s',hs',-⟩ := hsd.nodeRead h len posp
  exact ⟨s',hs'⟩

instance State.Clean.decide (s : State) (off len : Nat) : Decidable (s.Clean off len) := by
  dsimp only [State.Clean]
  infer_instance

instance Event.Clean.decide (s : State) (e : Event) : Decidable (e.Clean s) := by
  cases e <;> (dsimp only [Event.Clean]; infer_instance)

instance Event.Enabled.decide (limit : Nat) (s : State) (e : Event) :
    Decidable (e.Enabled limit s) := by
  cases e <;> (dsimp only [Event.Enabled]; infer_instance)

def advance (s : State) (e : Event) : State := (step 65536 s e).getD s

lemma stepped_advance (s : State) (e : Event)
    (h : e.Enabled 65536 s ∧ (step 65536 s e).isSome = true) : Stepped 65536 s e (advance s e) := by
  obtain ⟨s',hs'⟩ := isSome_iff_exists.mp h.2
  refine ⟨h.1,?_⟩
  rw [advance,hs']
  rfl

def created : State := ⟨⟨none,0,0⟩,fun _ => ⟨0,false⟩,[]⟩

def tidyRun : List Event :=
  [.openFile 1 true false,.write 1 [1,2,3,4,5] none true,.ftruncate 3 true,
    .write 1 [9] none true,.ftruncate 6 true,.write 0 [7] (some 2000) true]

def tidied : State := tidyRun.foldl advance created

theorem memFile_refines_tidied :
    (nodeReadImpl 0 8 (some 1) tidied).map (·.1) = some [2, 3, 9, 0, 0, 0, 0, 0] ∧
      ∃ s', nodeReadImpl 0 8 (some 1) tidied =
        some ((List.range (min 8 (tidied.inode.size - (some 1).getD (tidied.handle 0).offset))).map
          fun k => lastWritten tidied.history ((some 1).getD (tidied.handle 0).offset + k), s') := by
  have hrn : Runs 65536 tidied := by
    refine Reach.along (fun s e => e.Clean s ∧ e.Enabled 65536 s ∧ (step 65536 s e).isSome = true)
      (fun s e h => ⟨h.1,stepped_advance s e h.2⟩) (.start ⟨rfl,rfl,rfl,rfl⟩) ?_
    decide +kernel
  exact ⟨by decide +kernel,(memFile_refines (by decide) hrn).2 0 8 (some 1)⟩

def staleRun : List Event :=
  [.write 0 (replicate 10 65) (some 0) true,.ftruncate 2 true,.write 0 [66] (some 8) true]

def stale : State := staleRun.foldl advance created

theorem stale_bytes_return :
    Reach State.Fresh (Stepped 65536) stale ∧
      (nodeReadImpl 0 9 (some 0) stale).map (·.1) = some [65, 65, 65, 65, 65, 65, 65, 65, 66] ∧
      (List.range 9).map (lastWritten stale.history) = [65, 65, 0, 0, 0, 0, 0, 0, 66] := by
  refine ⟨?_,by decide +kernel,by decide +kernel⟩
  refine Reach.along (fun s e => e.Enabled 65536 s ∧ (step 65536 s e).isSome = true)
    stepped_advance (.start ⟨rfl,rfl,rfl,rfl⟩) ?_
  decide +kernel

end B1nix.MemFile
