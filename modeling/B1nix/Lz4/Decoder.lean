import B1nix.Lz4.Model

namespace B1nix.Lz4.Decoder

open List

inductive Stop where
  | corrupt
  | fault
deriving DecidableEq

variable (src : List UInt8) (dstSize : Int)

def readAt (ip : Nat) : Except Stop UInt8 :=
  match src[ip]? with
  | some b => .ok b
  | none => .error .fault

def readLength (ip : Nat) (len : Int) : Except Stop (Nat × Int) :=
  if src.length ≤ ip then .error .corrupt
  else
    match readAt src ip with
    | .error e => .error e
    | .ok b =>
      if b ≠ 255 then .ok (ip + 1, i32 (len + b.toNat))
      else readLength (ip + 1) (i32 (len + b.toNat))
termination_by src.length - ip

def nibbleLength (ip nib : Nat) (len : Int) : Except Stop (Nat × Int) :=
  if nib = 15 then readLength src ip len else .ok (ip, len)

def copyLiterals (dst : List UInt8) (ip : Nat) (n : Int) : Except Stop (List UInt8) :=
  if 0 ≤ n ∧ ip + n ≤ src.length ∧ dst.length + n ≤ dstSize then
    .ok (dst ++ (src.drop ip).take n.toNat)
  else .error .fault

def copyBytes (off : Nat) : Nat → List UInt8 → Except Stop (List UInt8)
  | 0, dst => .ok dst
  | n + 1, dst =>
    if dst.length < dstSize ∧ off ≤ dst.length then do
      let b ← readAt dst (dst.length - off)
      copyBytes off n (dst ++ [b])
    else .error .fault

def decodeLoop : Nat → Nat → List UInt8 → Except Stop (List UInt8)
  | 0, _, _ => .error .fault
  | fuel + 1, ip, dst =>
    if src.length ≤ ip then .error .corrupt
    else do
      let token ← readAt src ip
      let lit ← nibbleLength src (ip + 1) (token.toNat / 16) (token.toNat / 16 : Nat)
      if i32 (dst.length + lit.2) > dstSize ∨ i32 (lit.1 + lit.2) > src.length then .error .corrupt
      else
        let dst ← copyLiterals src dstSize dst lit.1 lit.2
        let ip := lit.1 + lit.2.toNat
        if dst.length = dstSize then .ok dst
        else if i32 (ip + 2 : Nat) > src.length then .error .corrupt
        else
          let lo ← readAt src ip
          let hi ← readAt src (ip + 1)
          let off := lo.toNat + hi.toNat * 256
          if off = 0 ∨ dst.length < off then .error .corrupt
          else
            let mat ← nibbleLength src (ip + 2) (token.toNat % 16) (token.toNat % 16 + 4 : Nat)
            if i32 (dst.length + mat.2) > dstSize then .error .corrupt
            else
              let dst ← copyBytes dstSize off mat.2.toNat dst
              decodeLoop fuel mat.1 dst

def lz4Decompress (fuel : Nat) (src : List UInt8) (dstSize : Int) : Except Stop (List UInt8) :=
  if src.length = 0 ∨ dstSize ≤ 0 then .error .corrupt else decodeLoop src dstSize fuel 0 []

variable {α β : Type} {P P' : α → Prop} {Q : β → Prop} {src dst : List UInt8} {ip nib fuel : Nat}
  {len dstSize : Int} {x : Except Stop α}

def Safe (P : α → Prop) : Except Stop α → Prop
  | .ok a => P a
  | .error e => e = .corrupt

lemma Safe.bind {f : α → Except Stop β} (h : Safe P x)
    (hf : ∀ a, P a → Safe Q (f a)) : Safe Q (x >>= f) := by
  cases x with
  | ok a => exact hf a h
  | error => exact h

lemma Safe.imp (h : Safe P x) (himp : ∀ a, P a → P' a) : Safe P' x := by
  cases x with
  | ok a => exact himp a h
  | error => exact h

lemma readAt_safe (h : ip < src.length) : Safe (fun _ => True) (readAt src ip) := by
  rw [readAt,getElem?_eq_getElem h]
  trivial

lemma i32_of_range {x : Int} (hpos : 0 ≤ x) (h : x < 2 ^ 31) : i32 x = x := by
  lift x to Nat using hpos
  exact i32_of_lt (by omega)

def Measured (src : List UInt8) (ip : Nat) (len : Int) (r : Nat × Int) : Prop :=
  ip ≤ r.1 ∧ r.1 ≤ src.length ∧ len ≤ r.2 ∧ r.2 + 255 * ip ≤ len + 255 * r.1

section

variable (hip : ip ≤ src.length) (hlen : 0 ≤ len)
  (hro : len + 255 * src.length < 2 ^ 31 + 255 * ip)

include hip hlen hro

lemma readLength_safe : Safe (Measured src ip len) (readLength src ip len) := by
  fun_induction readLength src ip len with
  | case1 => rfl
  | case2 ip _ _ _ hra =>
    have hsf := readAt_safe (show ip < src.length by omega)
    rwa [hra] at hsf
  | case3 _ _ _ b =>
    have hb := b.toNat_lt
    rw [i32_of_range (by omega) (by omega)]
    exact ⟨by omega,by omega,by omega,by dsimp only; omega⟩
  | case4 _ len _ b _ _ ih =>
    have hb := b.toNat_lt
    have hsum : i32 (len + b.toNat) = len + b.toNat := i32_of_range (by omega) (by omega)
    refine (ih (by omega) (by omega) (by omega)).imp fun r hr => ?_
    obtain ⟨hle,hin,hgrow,hsz⟩ := hr
    exact ⟨by omega,hin,by omega,by omega⟩

lemma nibbleLength_safe : Safe (Measured src ip len) (nibbleLength src ip nib len) := by
  unfold nibbleLength
  split
  · exact readLength_safe hip hlen hro
  exact ⟨le_rfl,hip,le_rfl,le_rfl⟩

end

lemma copyBytes_safe {off n : Nat} (hpos : 0 < off) (hoff : off ≤ dst.length)
    (hro : dst.length + n ≤ dstSize) :
    Safe (fun out => out.length = dst.length + n) (copyBytes dstSize off n dst) := by
  induction n generalizing dst with
  | zero => rfl
  | succ n ih =>
    rw [copyBytes,if_pos ⟨by omega,hoff⟩]
    refine (readAt_safe (by omega)).bind fun b _ => ?_
    have hlen : (dst ++ [b]).length = dst.length + 1 := by simp
    refine (ih (by omega) (by omega)).imp fun out hout => ?_
    omega

lemma decodeLoop_safe (hpg : src.length ≤ pageSize) (hip : ip ≤ src.length)
    (hfuel : src.length < fuel + ip) (hdst : dst.length ≤ 255 * ip) :
    Safe (fun out => out.length = dstSize) (decodeLoop src dstSize fuel ip dst) := by
  rw [pageSize_eq] at hpg
  induction fuel generalizing ip dst with
  | zero => omega
  | succ _ ih =>
    rw [decodeLoop]
    split
    · rfl
    refine (readAt_safe (by omega)).bind fun token _ => ?_
    have htoken := token.toNat_lt
    refine (nibbleLength_safe (by omega) (by omega) (by omega)).bind fun lit hlit => ?_
    obtain ⟨hsta,hin,hpos,hsz⟩ := hlit
    rw [i32_of_range (by omega) (by omega),i32_of_range (by omega) (by omega)]
    split
    · rfl
    have hcy : copyLiterals src dstSize dst lit.1 lit.2 =
        .ok (dst ++ (src.drop lit.1).take lit.2.toNat) := if_pos (by omega)
    have hlen : (dst ++ (src.drop lit.1).take lit.2.toNat).length = dst.length + lit.2.toNat := by
      rw [length_append,length_take,length_drop]
      omega
    rw [hcy]
    change Safe _ (if _ then _ else _)
    split
    · next hfu => exact hfu
    rw [i32_of_lt (by omega)]
    split
    · rfl
    refine (readAt_safe (by omega)).bind fun lo _ => ?_
    refine (readAt_safe (by omega)).bind fun hi _ => ?_
    dsimp only
    split_ifs with hoff
    · rfl
    refine (nibbleLength_safe (by omega) (by omega) (by omega)).bind fun mat hmat => ?_
    obtain ⟨hfm,hend,hmin,hgrow⟩ := hmat
    rw [i32_of_range (by omega) (by omega)]
    split
    · rfl
    refine (copyBytes_safe (by omega) (by omega) (by omega)).bind fun out hout => ?_
    exact ih (by omega) (by omega) (by omega)

theorem lz4Decompress_robust (src : List UInt8) (dstSize : Int) (fuel : Nat)
    (hpage : src.length ≤ pageSize) (hfuel : src.length < fuel) :
    lz4Decompress fuel src dstSize = .error .corrupt ∨
      ∃ out, lz4Decompress fuel src dstSize = .ok out ∧ out.length = dstSize := by
  have hsf : Safe (fun out => out.length = dstSize) (lz4Decompress fuel src dstSize) := by
    unfold lz4Decompress
    split
    · rfl
    exact decodeLoop_safe hpage (Nat.zero_le _) hfuel (Nat.zero_le _)
  cases hrun : lz4Decompress fuel src dstSize with
  | error =>
    rw [hrun] at hsf
    exact .inl (congrArg _ hsf)
  | ok out =>
    rw [hrun] at hsf
    exact .inr ⟨out,rfl,hsf⟩

def overlapping : List UInt8 := [0x10,7,1,0,0x10,8]

theorem lz4Decompress_robust_overlap :
    lz4Decompress 9 overlapping 6 = .ok [7, 7, 7, 7, 7, 8] ∧
      (lz4Decompress 9 overlapping 6 = .error .corrupt ∨
        ∃ out, lz4Decompress 9 overlapping 6 = .ok out ∧ out.length = (6 : Int)) :=
  ⟨by decide +kernel,lz4Decompress_robust _ 6 9 (by decide) (by decide)⟩

end B1nix.Lz4.Decoder
