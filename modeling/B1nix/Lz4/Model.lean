import B1nix.Basic.BackReference
import B1nix.Page

namespace B1nix.Lz4

open BackReference UInt8 Nat Option

variable (litLen mlen n : Nat) (lits src : List UInt8)

def i32 (x : Int) : Int := x.bmod (2 ^ 32)

def hashLog : Nat := 12

def load32 (p : Nat) : Nat :=
  (src.getD p 0).toNat + 2 ^ 8 * (src.getD (p + 1) 0).toNat +
    2 ^ 16 * (src.getD (p + 2) 0).toNat + 2 ^ 24 * (src.getD (p + 3) 0).toNat

def lz4Hash4 (p : Nat) : Nat :=
  load32 src p * 0x9E3779B1 % 2 ^ 32 / 2 ^ (32 - hashLog) % 2 ^ hashLog

def extBytes (e : Nat) : List UInt8 :=
  if 255 ≤ e then 255 :: extBytes (e - 255) else [ofNat e]
termination_by e
decreasing_by omega

def lenBytes : List UInt8 :=
  if 15 ≤ n then extBytes (n - 15) else []

def nibble : Nat := if 15 ≤ n then 15 else n

def token : UInt8 := ofNat (nibble litLen * 16 + nibble mlen)

def matchLen (cand ip len : Nat) : Nat :=
  if ip + len < src.length ∧ src[cand + len]? = src[ip + len]? then
    matchLen cand ip (len + 1)
  else len
termination_by src.length - (ip + len)

structure Encoder where
  ip : Nat
  anchor : Nat
  dst : List UInt8
  ht : Nat → Nat

def seqBytes (off mlen : Nat) : List UInt8 :=
  token lits.length mlen :: (lenBytes lits.length ++ (lits ++
    (ofNat off :: ofNat (off / 256) :: lenBytes mlen)))

def lastBytes : List UInt8 := token lits.length 0 :: (lenBytes lits.length ++ lits)

def candidate (s : Encoder) : Option Nat :=
  let cand := s.ht (lz4Hash4 src s.ip)
  if cand ≠ 0xFFFF ∧ cand < s.ip ∧ s.ip - cand < 0x10000 ∧
      load32 src cand = load32 src s.ip then
    some cand
  else none

def Encoder.noteIp (s : Encoder) : Nat → Nat :=
  Function.update s.ht (lz4Hash4 src s.ip) (s.ip % 2 ^ 16)

def roomFor (dstCapacity : Int) (s : Encoder) (cand : Nat) : Prop :=
  let litLen := s.ip - s.anchor
  let mlen := matchLen src cand s.ip 4 - 4
  i32 (s.dst.length + 1 + litLen / 255 + litLen + 2 + mlen / 255 : Nat) ≤ dstCapacity

instance (src : List UInt8) (dstCapacity : Int) (s : Encoder) (cand : Nat) :
    Decidable (roomFor src dstCapacity s cand) :=
  inferInstanceAs (Decidable (_ ≤ dstCapacity))

def compressStep (dstCapacity : Int) (s : Encoder) : Bool × Encoder :=
  match candidate src s with
  | none => (true, { s with ip := s.ip + 1, ht := s.noteIp src })
  | some cand =>
    let len := matchLen src cand s.ip 4
    let lits := (src.drop s.anchor).take (s.ip - s.anchor)
    if roomFor src dstCapacity s cand then
      (true, { ip := s.ip + len
               anchor := s.ip + len
               dst := s.dst ++ seqBytes lits (s.ip - cand) (len - 4)
               ht := s.noteIp src })
    else (false, { s with ht := s.noteIp src })

lemma le_matchLen (cand ip len : Nat) : len ≤ matchLen src cand ip len := by
  fun_induction matchLen with
  | case1 => omega
  | case2 => exact le_rfl

variable {src l rest dst dst' : List UInt8} {dstCapacity cap : Int} {s : Encoder}
  {nib dstSize cand acc : Nat}

lemma compressStep_none (h : candidate src s = none) : compressStep src dstCapacity s =
      (true, { s with ip := s.ip + 1, ht := s.noteIp src }) := by
  simp [compressStep,h]

lemma compressStep_some (h : candidate src s = some cand) : compressStep src dstCapacity s =
      if roomFor src dstCapacity s cand then
        (true, { ip := s.ip + matchLen src cand s.ip 4
                 anchor := s.ip + matchLen src cand s.ip 4
                 dst := s.dst ++ seqBytes ((src.drop s.anchor).take (s.ip - s.anchor)) (s.ip - cand)
                   (matchLen src cand s.ip 4 - 4)
                 ht := s.noteIp src })
      else (false, { s with ht := s.noteIp src }) := by
  simp [compressStep,h]

lemma compressStep_ip (src : List UInt8) (dstCapacity : Int) (s : Encoder)
    (h : (compressStep src dstCapacity s).1 = true) : s.ip < (compressStep src dstCapacity s).2.ip := by
  cases hc : candidate src s with
  | none =>
    rw [compressStep_none hc]
    exact lt_add_one _
  | some cand =>
    have hlen := le_matchLen src cand s.ip 4
    rw [compressStep_some hc] at h ⊢
    split at h
    · next hro =>
      rw [if_pos hro]
      dsimp only
      omega
    cases h

def compressLoop (src : List UInt8) (dstCapacity : Int) (s : Encoder) : Bool × Encoder :=
  if s.ip + 4 < src.length then
    if _h : (compressStep src dstCapacity s).1 = true then
      compressLoop src dstCapacity (compressStep src dstCapacity s).2
    else (false, (compressStep src dstCapacity s).2)
  else (true, s)
termination_by src.length - s.ip
decreasing_by
  have := compressStep_ip src dstCapacity s _h
  omega

def lz4Compress (src : List UInt8) (dstCapacity : Int) : Int × List UInt8 :=
  if src.length < 5 ∨ dstCapacity ≤ 0 then (0, [])
  else
    let r := compressLoop src dstCapacity ⟨0,0,[],fun _ => 0xFFFF⟩
    let litLen := src.length - r.2.anchor
    if r.1 = false then (0, r.2.dst)
    else if i32 (r.2.dst.length + 1 + litLen / 255 + litLen : Nat) > dstCapacity then (0, r.2.dst)
    else
      let dst := r.2.dst ++ lastBytes (src.drop r.2.anchor)
      (i32 dst.length, dst)

def readExt (acc : Nat) : List UInt8 → Option (Nat × List UInt8)
  | [] => none
  | b :: rest => if b ≠ 255 then some (acc + b.toNat, rest) else readExt (acc + b.toNat) rest

def readLen (nib : Nat) (rest : List UInt8) : Option (Nat × List UInt8) :=
  if nib = 15 then readExt nib rest else some (nib, rest)

inductive Decoded where
  | finished (dst : List UInt8)
  | more (dst rest : List UInt8)

def decodeMatch (dstSize : Nat) (dst : List UInt8) (nib : Nat) : List UInt8 → Option Decoded
  | lo :: hi :: rest =>
    let off := lo.toNat + hi.toNat * 256
    if off = 0 ∨ dst.length < off then none
    else
      match readLen nib rest with
      | none => none
      | some (n, rest) =>
        if dstSize < dst.length + (n + 4) then none
        else some (.more (copyMatch dst off (n + 4)) rest)
  | _ => none

def decodeSeq (dstSize : Nat) (dst : List UInt8) : List UInt8 → Option Decoded
  | [] => none
  | tok :: rest =>
    match readLen (tok.toNat / 16) rest with
    | none => none
    | some (litLen, rest) =>
      if dstSize < dst.length + litLen ∨ rest.length < litLen then none
      else if dst.length + litLen = dstSize then some (.finished (dst ++ rest.take litLen))
      else decodeMatch dstSize (dst ++ rest.take litLen) (tok.toNat % 16) (rest.drop litLen)

lemma readExt_length {n : Nat} (h : readExt acc l = some (n, rest)) :
    rest.length < l.length := by
  induction l generalizing acc with
  | nil => simp [readExt] at h
  | cons b l ih =>
    simp only [readExt] at h
    split at h
    · simp only [some.injEq,Prod.mk.injEq] at h
      simp [h.2]
    have := ih h
    simp only [List.length_cons]
    omega

lemma readLen_length {n : Nat} (h : readLen nib l = some (n, rest)) : rest.length ≤ l.length := by
  unfold readLen at h
  split at h
  · exact (readExt_length h).le
  simp only [some.injEq,Prod.mk.injEq] at h
  simp [h.2]

lemma decodeMatch_length
    (h : decodeMatch dstSize dst nib l = some (.more dst' rest)) : rest.length ≤ l.length := by
  unfold decodeMatch at h
  split at h
  · next lo hi tail =>
    dsimp only at h
    split at h
    · simp at h
    split at h
    · simp at h
    next n tail' hra =>
    split at h
    · simp at h
    simp only [some.injEq,Decoded.more.injEq] at h
    have := readLen_length hra
    simp only [List.length_cons,← h.2]
    omega
  simp at h

lemma decodeSeq_length
    (h : decodeSeq dstSize dst l = some (.more dst' rest)) : rest.length < l.length := by
  cases l with
  | nil => simp [decodeSeq] at h
  | cons =>
    simp only [decodeSeq] at h
    split at h
    · simp at h
    next litLen tail hra =>
    have hlen := readLen_length hra
    split at h
    · simp at h
    split at h
    · simp at h
    have := decodeMatch_length h
    simp only [List.length_drop] at this
    simp only [List.length_cons]
    omega

def decompressLoop (dstSize : Nat) (dst rest : List UInt8) : Option (List UInt8) :=
  match _h : decodeSeq dstSize dst rest with
  | none => none
  | some (.finished dst') => some dst'
  | some (.more dst' rest') => decompressLoop dstSize dst' rest'
termination_by rest.length
decreasing_by exact decodeSeq_length _h

def lz4Decompress (src : List UInt8) (dstSize : Nat) : Option (List UInt8) :=
  if src.length = 0 ∨ dstSize = 0 then none else decompressLoop dstSize [] src

open List

lemma nibble_lt : nibble n < 16 := by
  unfold nibble
  split <;> omega

lemma token_toNat : (token litLen mlen).toNat = nibble litLen * 16 + nibble mlen := by
  have hl := nibble_lt litLen
  have hm := nibble_lt mlen
  rw [token,toNat_ofNat',mod_eq_of_lt (by omega)]

lemma token_high : (token litLen mlen).toNat / 16 = nibble litLen := by
  have hm := nibble_lt mlen
  rw [token_toNat]
  omega

lemma token_low : (token litLen mlen).toNat % 16 = nibble mlen := by
  have hm := nibble_lt mlen
  rw [token_toNat]
  omega

lemma readExt_extBytes (acc e : Nat) (tail : List UInt8) :
    readExt acc (extBytes e ++ tail) = some (acc + e, tail) := by
  induction e using Nat.strongRecOn generalizing acc with
  | ind e ih =>
    rw [extBytes]
    split_ifs with he
    · have hb : (255 : UInt8).toNat = 255 := rfl
      have hsum : acc + 255 + (e - 255) = acc + e := by omega
      rw [cons_append,readExt,if_neg (by decide),ih (e - 255) (by omega),hb,hsum]
    have hb : (ofNat e).toNat = e := by rw [toNat_ofNat',mod_eq_of_lt (by omega)]
    have hne : ofNat e ≠ 255 := by
      intro h
      have hv : (255 : UInt8).toNat = 255 := rfl
      rw [h] at hb
      omega
    rw [singleton_append,readExt,if_pos hne,hb]

lemma readLen_lenBytes (tail : List UInt8) :
    readLen (nibble n) (lenBytes n ++ tail) = some (n, tail) := by
  unfold readLen nibble lenBytes
  by_cases h : 15 ≤ n
  · rw [if_pos h,if_pos h,if_pos rfl,readExt_extBytes]
    congr 2
    omega
  rw [if_neg h,if_neg h,if_neg (by omega)]
  rfl

lemma decodeSeq_lastBytes (dstSize : Nat) (dst lits tail : List UInt8)
    (h : dst.length + lits.length = dstSize) :
    decodeSeq dstSize dst (lastBytes lits ++ tail) = some (.finished (dst ++ lits)) := by
  simp only [lastBytes,cons_append,append_assoc,decodeSeq,token_high,readLen_lenBytes]
  rw [if_neg (by simp only [length_append]; omega),if_pos h,take_left]

lemma decodeSeq_seqBytes (dstSize : Nat) (dst lits tail : List UInt8) (off mlen : Nat)
    (hpos : 0 < off) (hoff : off ≤ dst.length + lits.length) (hwd : off < 65536)
    (h : dst.length + lits.length + (mlen + 4) ≤ dstSize) :
    decodeSeq dstSize dst (seqBytes lits off mlen ++ tail) =
      some (.more (copyMatch (dst ++ lits) off (mlen + 4)) tail) := by
  have hofs : (ofNat off).toNat + (ofNat (off / 256)).toNat * 256 = off := by
    simp only [toNat_ofNat']
    omega
  simp only [seqBytes,cons_append,append_assoc,decodeSeq,token_high,readLen_lenBytes]
  rw [if_neg (by simp only [length_append]; omega),if_neg (by omega),take_left,
    drop_left,token_low,decodeMatch]
  rw [hofs,if_neg (by simp only [length_append]; omega),readLen_lenBytes]
  dsimp only
  rw [if_neg (by simp only [length_append]; omega)]

lemma decompressLoop_finished {dstSize : Nat} {dst rest out : List UInt8}
    (h : decodeSeq dstSize dst rest = some (.finished out)) : decompressLoop dstSize dst rest = some out := by
  rw [decompressLoop]
  split <;> simp_all

lemma decompressLoop_more {dstSize : Nat} {dst rest rest' : List UInt8}
    (h : decodeSeq dstSize dst rest = some (.more dst' rest')) :
    decompressLoop dstSize dst rest = decompressLoop dstSize dst' rest' := by
  rw [decompressLoop]
  split <;> simp_all

lemma matchLen_bound (src : List UInt8) (cand ip len : Nat) (h : ip + len ≤ src.length) :
    ip + matchLen src cand ip len ≤ src.length := by
  fun_induction matchLen with
  | case1 _ _ ih => exact ih (by omega)
  | case2 => exact h

lemma matchLen_match (src : List UInt8) (cand ip len : Nat) (h : ∀ k < len, src[cand + k]? = src[ip + k]?) :
    ∀ k < matchLen src cand ip len, src[cand + k]? = src[ip + k]? := by
  fun_induction matchLen with
  | case1 _ hc ih =>
    apply ih
    intro k hk
    obtain hk | rfl := Nat.lt_succ_iff_lt_or_eq.mp hk
    · exact h k hk
    exact hc.2
  | case2 => exact h

lemma load32_match {ip : Nat} (hc : cand + 4 ≤ src.length) (hi : ip + 4 ≤ src.length)
    (h : load32 src cand = load32 src ip) : ∀ k < 4, src[cand + k]? = src[ip + k]? := by
  have hget : ∀ p < src.length, src[p]? = some (src.getD p 0) := by
    intro p hp
    rw [getD_eq_getElem src 0 hp,List.getElem?_eq_getElem hp]
  have hlt : ∀ p, (src.getD p 0).toNat < 256 := fun p => (src.getD p 0).toNat_lt
  have h0 := hlt cand; have h1 := hlt (cand + 1); have h2 := hlt (cand + 2)
  have h3 := hlt (cand + 3); have g0 := hlt ip; have g1 := hlt (ip + 1)
  have g2 := hlt (ip + 2); have g3 := hlt (ip + 3)
  simp only [load32] at h
  intro k hk
  rw [hget _ (by omega),hget _ (by omega)]
  congr 1
  apply UInt8.toNat_inj.mp
  interval_cases k
  · rw [add_zero,add_zero]
    omega
  all_goals omega

lemma candidate_spec (h : candidate src s = some cand) :
    cand < s.ip ∧ s.ip - cand < 65536 ∧ load32 src cand = load32 src s.ip := by
  simp only [candidate] at h
  split at h
  · next hc =>
    cases h
    exact hc.2
  simp at h

structure Encoder.Inv (src : List UInt8) (s : Encoder) : Prop where
  anchor_le : s.anchor ≤ s.ip
  ip_le : s.ip ≤ src.length
  size : s.dst.length ≤ 2 * s.anchor
  decodes : ∀ tail, decompressLoop src.length [] (s.dst ++ tail) =
    decompressLoop src.length (src.take s.anchor) tail

lemma length_extBytes (e : Nat) : (extBytes e).length = e / 255 + 1 := by
  induction e using Nat.strongRecOn with
  | ind e ih =>
    rw [extBytes]
    split
    · rw [length_cons,ih (e - 255) (by omega)]
      omega
    rw [length_singleton]
    omega

lemma length_lenBytes : (lenBytes n).length = (n + 240) / 255 := by
  unfold lenBytes
  split
  · rw [length_extBytes]
    omega
  rw [length_nil]
  omega

lemma length_seqBytes (off mlen : Nat) :
    (seqBytes lits off mlen).length = 3 + (lits.length + 240) / 255 + lits.length + (mlen + 240) / 255 := by
  simp only [seqBytes,length_cons,length_append,length_lenBytes]
  omega

lemma length_lastBytes : (lastBytes lits).length = 1 + (lits.length + 240) / 255 + lits.length := by
  simp only [lastBytes,length_cons,length_append,length_lenBytes]
  omega

lemma emit_seq_decodes (hs : s.Inv src) (hip : s.ip + 4 < src.length)
    (hc : candidate src s = some cand) (tail : List UInt8) :
    decompressLoop src.length (src.take s.anchor)
        (seqBytes ((src.drop s.anchor).take (s.ip - s.anchor)) (s.ip - cand)
          (matchLen src cand s.ip 4 - 4) ++ tail) =
      decompressLoop src.length (src.take (s.ip + matchLen src cand s.ip 4)) tail := by
  obtain ⟨hcand,hfar,hlo⟩ := candidate_spec hc
  have hlen := le_matchLen src cand s.ip 4
  have hbd := matchLen_bound src cand s.ip 4 (by omega)
  have hby := matchLen_match src cand s.ip 4 (load32_match (by omega) (by omega) hlo)
  have han : (src.take s.anchor).length = s.anchor := by
    rw [length_take]
    have := hs.anchor_le
    omega
  have hlits : ((src.drop s.anchor).take (s.ip - s.anchor)).length = s.ip - s.anchor := by
    rw [length_take,length_drop]
    omega
  have hsum := Nat.add_sub_cancel' hs.anchor_le
  have hseq := decodeSeq_seqBytes src.length (src.take s.anchor)
    ((src.drop s.anchor).take (s.ip - s.anchor)) tail (s.ip - cand)
    (matchLen src cand s.ip 4 - 4) (by omega) (by omega) hfar (by omega)
  rw [decompressLoop_more hseq,← take_add,Nat.add_sub_cancel' hs.anchor_le,Nat.sub_add_cancel hlen,
    copyMatch_of_match src s.ip (s.ip - cand) (by omega) (by omega) _ hbd]
  intro k hk
  rw [show s.ip - (s.ip - cand) = cand by omega]
  exact hby k hk

lemma compressStep_inv (hs : s.Inv src) (hip : s.ip + 4 < src.length) :
    (compressStep src dstCapacity s).2.Inv src := by
  cases hc : candidate src s with
  | none =>
    rw [compressStep_none hc]
    exact ⟨le_succ_of_le hs.anchor_le,by dsimp only; omega,hs.size,hs.decodes⟩
  | some cand =>
    rw [compressStep_some hc]
    split
    · have hlen := le_matchLen src cand s.ip 4
      have hbd := matchLen_bound src cand s.ip 4 (by omega)
      have hsz := length_seqBytes ((src.drop s.anchor).take (s.ip - s.anchor)) (s.ip - cand)
        (matchLen src cand s.ip 4 - 4)
      refine ⟨le_rfl,hbd,?_,?_⟩
      · have h := hs.size
        have ha := hs.anchor_le
        simp only [length_take] at hsz
        simp only [length_append]
        omega
      intro tail
      simp only [append_assoc]
      rw [hs.decodes,emit_seq_decodes hs hip hc]
    exact { hs with }

lemma compressLoop_inv (dstCapacity : Int) (hs : s.Inv src) :
    (compressLoop src dstCapacity s).2.Inv src := by
  fun_induction compressLoop with
  | case1 _ hip _ ih => exact ih (compressStep_inv hs hip)
  | case2 _ hip => exact compressStep_inv hs hip
  | case3 => exact hs

lemma start_inv (src : List UInt8) : (⟨0,0,[],fun _ => 0xFFFF⟩ : Encoder).Inv src :=
  ⟨le_rfl,zero_le,le_rfl,fun _ => by simp⟩

lemma encoded_decodes (hs : s.Inv src) (tail : List UInt8) :
    decompressLoop src.length [] (s.dst ++ lastBytes (src.drop s.anchor) ++ tail) = some src := by
  have hlen : (src.take s.anchor).length + (src.drop s.anchor).length = src.length := by
    rw [← length_append,take_append_drop]
  rw [append_assoc,hs.decodes,
    decompressLoop_finished (decodeSeq_lastBytes src.length _ _ tail hlen),take_append_drop]

lemma i32_eq_of_pos {n : Nat} (hn : n < 2 ^ 32) (hpos : 0 < i32 n) : i32 n = n := by
  unfold i32 at *
  rw [Int.bmod_def] at *
  split at hpos <;> split <;> omega

lemma lz4Compress_pos (h : 0 < (lz4Compress src dstCapacity).1) :
    5 ≤ src.length ∧ ∃ s : Encoder, s.Inv src ∧
      lz4Compress src dstCapacity =
        (i32 (s.dst ++ lastBytes (src.drop s.anchor)).length,
          s.dst ++ lastBytes (src.drop s.anchor)) := by
  have hinv := compressLoop_inv dstCapacity (start_inv src)
  unfold lz4Compress at h ⊢
  split_ifs at h with hsz
  · cases lt_irrefl _ h
  rw [if_neg hsz]
  dsimp only at h ⊢
  split at h
  · cases lt_irrefl _ h
  next hrun =>
  rw [if_neg hrun]
  split_ifs at h with hro
  · cases lt_irrefl _ h
  rw [if_neg hro]
  exact ⟨by omega,_,hinv,rfl⟩

lemma lz4Compress_size (hsz : src.length < 2 ^ 31) (hpos : 0 < (lz4Compress src dstCapacity).1) :
    (lz4Compress src dstCapacity).1 = (lz4Compress src dstCapacity).2.length := by
  obtain ⟨-,s,hs,heq⟩ := lz4Compress_pos hpos
  have hsr : (s.dst ++ lastBytes (src.drop s.anchor)).length < 2 ^ 32 := by
    have hdst := hs.size
    have hla := length_lastBytes (src.drop s.anchor)
    have han := hs.anchor_le
    have hip := hs.ip_le
    rw [length_drop] at hla
    rw [length_append]
    omega
  rw [heq] at hpos ⊢
  dsimp only at hpos ⊢
  rw [i32_eq_of_pos hsr hpos]

lemma roundTrip_tail (hpos : 0 < (lz4Compress src dstCapacity).1) (tail : List UInt8) :
    lz4Decompress ((lz4Compress src dstCapacity).2 ++ tail) src.length = some src := by
  obtain ⟨hlen,s,hs,heq⟩ := lz4Compress_pos hpos
  rw [heq,lz4Decompress,if_neg]
  · exact encoded_decodes hs tail
  simp only [length_append,lastBytes,length_cons]
  omega

lemma roundTrip (src : List UInt8) (dstCapacity : Int)
    (hsz : src.length < 2 ^ 31) (hpos : 0 < (lz4Compress src dstCapacity).1) :
    lz4Decompress ((lz4Compress src dstCapacity).2.take (lz4Compress src dstCapacity).1.toNat)
      src.length = some src := by
  have hdec := roundTrip_tail hpos []
  rw [append_nil] at hdec
  rw [lz4Compress_size hsz hpos,Int.toNat_natCast,take_length]
  exact hdec

theorem lz4Decompress_lz4Compress (src : List UInt8) (dstCapacity n : Int)
    (hsize : src.length < 2 ^ 31) (hn : (lz4Compress src dstCapacity).1 = n) (hpos : 0 < n) :
    lz4Decompress ((lz4Compress src dstCapacity).2.take n.toNat) src.length = some src := by
  subst hn
  exact roundTrip src dstCapacity hsize hpos

theorem lz4Decompress_lz4Compress_literals :
    lz4Decompress ((lz4Compress [1, 2, 3, 4, 5] 16).2.take 6) 5 = some [1, 2, 3, 4, 5] := by
  have hn : (lz4Compress [1,2,3,4,5] 16).1 = 6 := by
    simp [lz4Compress,compressLoop,compressStep,candidate,lastBytes,lenBytes,i32]
  exact lz4Decompress_lz4Compress [1,2,3,4,5] 16 6 (by decide) hn (by decide)

open Function

variable {n p k : Nat} {x : UInt8}

lemma load32_replicate (h : p + 4 ≤ n) :
    load32 (replicate n x) p = load32 (replicate n x) 0 := by
  have hget : ∀ i < n, (replicate n x).getD i 0 = x := by
    intro i hi
    rw [getD_eq_getElem _ _ (by rwa [length_replicate]),getElem_replicate]
  simp only [load32]
  rw [hget p (by omega),hget (p + 1) (by omega),hget (p + 2) (by omega),hget (p + 3) (by omega),
    hget 0 (by omega),hget (0 + 1) (by omega),hget (0 + 2) (by omega),hget (0 + 3) (by omega)]

lemma matchLen_replicate {ip len : Nat} (hcand : cand < ip) (h : ip + len ≤ n) :
    matchLen (replicate n x) cand ip len = n - ip := by
  fun_induction matchLen (replicate n x) cand ip len with
  | case1 _ hmt ih =>
    rw [length_replicate] at hmt
    exact ih (by omega)
  | case2 _ hsp =>
    rw [length_replicate] at hsp
    by_contra hne
    apply hsp
    rw [getElem?_replicate,getElem?_replicate,if_pos (by omega),if_pos (by omega)]
    exact ⟨by omega,rfl⟩

lemma i32_of_lt (h : k < 2 ^ 31) : i32 k = k := by
  unfold i32
  rw [Int.bmod_def]
  split <;> omega

lemma compressLoop_step {src : List UInt8} {s t : Encoder} (hip : s.ip + 4 < src.length)
    (hstep : compressStep src cap s = (true, t)) : compressLoop src cap s = compressLoop src cap t := by
  rw [compressLoop,if_pos hip,hstep]
  rfl

lemma compressLoop_replicate (x : UInt8) (cap : Int) (h : 6 ≤ n)
    (hcap : i32 (4 + (n - 5) / 255 : Nat) ≤ cap) :
    ∃ ht, compressLoop (replicate n x) cap ⟨0,0,[],fun _ => 0xFFFF⟩ =
      (true, ⟨n,n,seqBytes [x] 1 (n - 5),ht⟩) := by
  have hlen : (replicate n x).length = n := length_replicate
  have hlo := load32_replicate (x := x) (show 1 + 4 ≤ n by omega)
  have hmt := matchLen_replicate (x := x) (show 0 < 1 by omega) (show 1 + 4 ≤ n by omega)
  have hnone : candidate (replicate n x) ⟨0,0,[],fun _ => 0xFFFF⟩ = none := by simp [candidate]
  rw [compressLoop_step (by dsimp only; omega) (compressStep_none hnone)]
  dsimp only [Encoder.noteIp]
  have hsm : candidate (replicate n x) ⟨0 + 1,0,[],update (fun _ => 0xFFFF)
      (lz4Hash4 (replicate n x) 0) (0 % 2 ^ 16)⟩ = some 0 := by
    have hhs : lz4Hash4 (replicate n x) (0 + 1) = lz4Hash4 (replicate n x) 0 := by
      rw [lz4Hash4,lz4Hash4,hlo]
    simp only [candidate,hhs,update_self,zero_mod]
    rw [if_pos ⟨by decide,by decide,by decide,hlo.symm⟩]
  have hro : roomFor (replicate n x) cap ⟨0 + 1,0,[],update (fun _ => 0xFFFF)
      (lz4Hash4 (replicate n x) 0) (0 % 2 ^ 16)⟩ 0 := by
    simp only [roomFor,hmt]
    omega
  rw [compressLoop_step (by dsimp only; omega) ((compressStep_some hsm).trans (if_pos hro)), compressLoop]
  dsimp only
  have hlits : ((replicate n x).drop 0).take (0 + 1 - 0) = [x] := by
    rw [drop_zero,take_replicate,min_eq_left (by omega)]
    rfl
  have hend : 0 + 1 + (n - 1) = n := by omega
  rw [hmt,if_neg (by omega),hend,hlits]
  exact ⟨_,rfl⟩

lemma lz4Compress_replicate (x : UInt8) (h : 6 ≤ n) (hn : n < 2 ^ 16)
    (hcap : 6 + (n : Int) / 255 ≤ cap) :
    0 < (lz4Compress (replicate n x) cap).1 ∧
      (lz4Compress (replicate n x) cap).1 ≤ 6 + n / 255 := by
  have hlen : (replicate n x).length = n := length_replicate
  obtain ⟨ht,hloop⟩ := compressLoop_replicate x cap h
    (by rw [i32_of_lt (by omega)]; omega)
  have hseq : (seqBytes [x] 1 (n - 5)).length ≤ 5 + n / 255 := by
    rw [length_seqBytes,length_singleton]
    omega
  rw [lz4Compress,if_neg (by omega)]
  dsimp only
  rw [hloop,hlen]
  have hdp := drop_eq_nil_of_le hlen.le
  have hsz : (seqBytes [x] 1 (n - 5) ++ lastBytes []).length =
      (seqBytes [x] 1 (n - 5)).length + 1 := by
    rw [length_append]
    rfl
  have hfit : ¬i32 ((seqBytes [x] 1 (n - 5)).length + 1 + (n - n) / 255 + (n - n) : Nat) > cap := by
    rw [i32_of_lt (by omega)]
    omega
  dsimp only
  rw [if_neg (by decide),if_neg hfit,hdp,i32_of_lt (by omega)]
  omega

def Encoder.Tight (s : Encoder) : Prop := s.dst.length ≤ s.anchor + s.anchor / 255

lemma compressStep_tight (hs : s.Inv src) (h : s.Tight) :
    (compressStep src dstCapacity s).2.Tight := by
  cases hc : candidate src s with
  | none =>
    rw [compressStep_none hc]
    exact h
  | some cand =>
    rw [compressStep_some hc]
    split
    · have hlen := le_matchLen src cand s.ip 4
      have han := hs.anchor_le
      simp only [Encoder.Tight,length_append,length_seqBytes,length_take] at h ⊢
      omega
    exact h

lemma compressLoop_tight (dstCapacity : Int) (hs : s.Inv src) (h : s.Tight) :
    (compressLoop src dstCapacity s).2.Tight := by
  fun_induction compressLoop with
  | case1 _ hip _ ih => exact ih (compressStep_inv hs hip) (compressStep_tight hs h)
  | case2 => exact compressStep_tight hs h
  | case3 => exact h

def fifteen : List UInt8 := [0,1,2,3,4,5,6,7,8,9,10,11,12,13,14]

end B1nix.Lz4
