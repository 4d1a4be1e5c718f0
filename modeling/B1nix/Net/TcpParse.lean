import B1nix.Net.Tcp

namespace B1nix.Tcp

open List

variable (bytes : List UInt8)

def halfAt (p : Nat) : Option Nat := do
  let hi ← bytes[p]?
  let lo ← bytes[p + 1]?
  return hi.toNat * 256 + lo.toNat

def wordAt (p : Nat) : Option Seq := do
  let hi ← halfAt bytes p
  let lo ← halfAt bytes (p + 2)
  return .ofNat 32 (hi * 65536 + lo)

def sackAt (q : Nat) : Nat → Option (List (Seq × Seq))
  | 0 => return []
  | n + 1 => do
    let left ← wordAt bytes q
    let right ← wordAt bytes (q + 4)
    let rest ← sackAt (q + 8) n
    return (left, right) :: rest

def parseOption (kind : UInt8) (len p : Nat) (o : TcpOpts) : Option TcpOpts :=
  if kind = 2 ∧ len = 4 then do
    let mss ← halfAt bytes (p + 2)
    return { o with mss := mss }
  else if kind = 3 ∧ len = 3 then do
    let shift ← bytes[p + 2]?
    return { o with wscale := some (min shift.toNat 14) }
  else if kind = 4 ∧ len = 2 then
    return { o with sackOk := true }
  else if kind = 5 ∧ 10 ≤ len ∧ (len - 2) % 8 = 0 then do
    let sack ← sackAt bytes (p + 2) (min ((len - 2) / 8) (tcpSackMaxBlocks + 1))
    return { o with sack := sack }
  else return o

def walkOptions (p left : Nat) (o : TcpOpts) : Option TcpOpts :=
  if left = 0 then return o
  else do
    let kind ← bytes[p]?
    if kind = 0 then return o
    else if kind = 1 then walkOptions (p + 1) (left - 1) o
    else if left < 2 then return o
    else do
      let len ← bytes[p + 1]?
      if len.toNat < 2 ∨ left < len.toNat then return o
      else do
        let o ← parseOption bytes kind len.toNat p o
        walkOptions (p + len.toNat) (left - len.toNat) o
termination_by left

def tcpParseOptions (offset : Nat) : Option TcpOpts :=
  walkOptions bytes 20 (offset - 20) ⟨0,none,false,[]⟩

structure Arrival where
  (srcPort dstPort window : Nat)
  flags : UInt8
  (seq ack : Seq)
  opts : Option TcpOpts
  payload : List UInt8

def dataOffset (b : UInt8) : Nat := b.toNat / 16 * 4

def tcpArrival (parses : Bool) : Option (Option Arrival) :=
  if bytes.length < 20 then return none
  else do
    let srcPort ← halfAt bytes 0
    let dstPort ← halfAt bytes 2
    let flags ← bytes[13]?
    let seq ← wordAt bytes 4
    let ack ← wordAt bytes 8
    let b ← bytes[12]?
    if dataOffset b < 20 then return none
    else do
      let window ← halfAt bytes 14
      let opts ← (if parses then some <$> tcpParseOptions bytes (dataOffset b) else some none)
      return some ⟨srcPort,dstPort,window,flags,seq,ack,opts,
        (bytes.drop (dataOffset b)).take (bytes.length - dataOffset b)⟩

variable {bytes} {α β : Type} {p n len left : Nat} {x : Option α}

lemma isSome_bind {f : α → Option β} (hx : x.isSome) (hf : ∀ a ∈ x, (f a).isSome) :
    (x >>= f).isSome := by
  obtain ⟨a,rfl⟩ := Option.isSome_iff_exists.mp hx
  exact hf a rfl

lemma halfAt_isSome (hp : p + 1 < bytes.length) : (halfAt bytes p).isSome :=
  isSome_bind (by simpa using Nat.lt_of_succ_lt hp) fun _ _ => isSome_bind (by simpa) fun _ _ => rfl

lemma wordAt_isSome (hp : p + 3 < bytes.length) : (wordAt bytes p).isSome :=
  isSome_bind (halfAt_isSome (by omega)) fun _ _ => isSome_bind (halfAt_isSome hp) fun _ _ => rfl

lemma sackAt_isSome (hp : p + 8 * n ≤ bytes.length) : (sackAt bytes p n).isSome := by
  induction n generalizing p with
  | zero => rfl
  | succ n ih =>
    exact isSome_bind (wordAt_isSome (by omega)) fun _ _ => isSome_bind (wordAt_isSome (by omega))
      fun _ _ => isSome_bind (ih (by omega)) fun _ _ => rfl

lemma parseOption_isSome (kind : UInt8) (hp : p + len ≤ bytes.length) (o : TcpOpts) :
    (parseOption bytes kind len p o).isSome := by
  unfold parseOption
  split
  · exact isSome_bind (halfAt_isSome (by omega)) fun _ _ => rfl
  split
  · exact isSome_bind (by simp; omega) fun _ _ => rfl
  split
  · rfl
  split
  · exact isSome_bind (sackAt_isSome (by omega)) fun _ _ => rfl
  rfl

lemma walkOptions_isSome (o : TcpOpts) (hp : p + left ≤ bytes.length) :
    (walkOptions bytes p left o).isSome := by
  induction left using Nat.strongRecOn generalizing p o with
  | ind left ih =>
    rw [walkOptions]
    split
    · rfl
    refine isSome_bind (by simp; omega) fun kind _ => ?_
    split
    · rfl
    split
    · exact ih _ (by omega) o (by omega)
    split
    · rfl
    refine isSome_bind (by simp; omega) fun len _ => ?_
    split
    · rfl
    exact isSome_bind (parseOption_isSome kind (by omega) o) fun o _ => ih _ (by omega) o (by omega)

def Confined (bytes : List UInt8) (r : Option (Option Arrival)) : Prop :=
  ∃ x ∈ r, ∀ a ∈ x, Arrival.payload a = bytes.drop (dataOffset (bytes.getD 12 0))

lemma Confined.bind {f : α → Option (Option Arrival)} (hx : x.isSome)
    (hf : ∀ a ∈ x, Confined bytes (f a)) : Confined bytes (x >>= f) := by
  obtain ⟨a,rfl⟩ := Option.isSome_iff_exists.mp hx
  exact hf a rfl

end B1nix.Tcp
