import Mathlib

namespace B1nix.Fat

open List

abbrev Entry := Fin 32 → UInt8

def field (e : Entry) (at_ n : Nat) : List UInt8 := ((finRange 32).map e).drop at_ |>.take n

def trimSpaces (s : List UInt8) : List UInt8 := (s.reverse.dropWhile (· == 32)).reverse

def fatNameToNormal (e : Entry) : List UInt8 :=
  let normal := trimSpaces ((field e 0 8).takeWhile (· != 0))
  if e 8 = 32 then normal else trimSpaces ((normal ++ 46 :: field e 8 3).takeWhile (· != 0))

structure LfnAcc where
  units : Nat → UInt16
  count : Nat
  checksum : UInt8
  valid : Bool

variable (cap : Nat) (acc : LfnAcc) (e : Entry)

def fatLfnReset : LfnAcc := ⟨acc.units,0,0,false⟩

def fatShortChecksum : UInt8 :=
  (field e 0 11).foldl (fun sum c => (if sum &&& 1 ≠ 0 then 0x80 else 0 : UInt8) + (sum >>> 1) + c) 0

def seq : Nat := (e 0 &&& 0x3F).toNat

def last : Prop := e 0 &&& 0x40 ≠ 0

instance last.decide (e : Entry) : Decidable (last e) := inferInstanceAs (Decidable (_ ≠ _))

def codeUnits : List UInt16 :=
  ([1,3,5,7,9,14,16,18,20,22,24,28,30] : List (Fin 32)).map fun o =>
    (e o).toUInt16 ||| (e (o + 1)).toUInt16 <<< 8

def LfnAcc.write : LfnAcc :=
  { acc with units := fun i => if i / 13 + 1 = seq e ∧ i < 260 then (codeUnits e).getD (i % 13) 0 else acc.units i }

def fatLfnAbsorb : LfnAcc :=
  if e 0 = 0xE5 ∨ seq e = 0 ∨ 20 < seq e then fatLfnReset acc
  else if last e then { acc with checksum := e 13, valid := true, count := seq e * 13 }.write e
  else if !acc.valid ∨ e 13 ≠ acc.checksum then fatLfnReset acc
  else acc.write e

def utf8 (u : UInt16) : List UInt8 :=
  let low : UInt8 := 0x80 ||| (u &&& 0x3F).toUInt8
  if u < 0x80 then [u.toUInt8]
  else if u < 0x800 then [(0xC0 : UInt8) ||| (u >>> 6).toUInt8,low]
  else [(0xE0 : UInt8) ||| (u >>> 12).toUInt8,(0x80 : UInt8) ||| (u >>> 6 &&& 0x3F).toUInt8,low]

def encode : List UInt8 → List UInt16 → Option (List UInt8)
  | out, [] => some out
  | out, u :: us =>
    if u = 0 ∨ u = 0xFFFF then some out
    else if 0xD800 ≤ u ∧ u ≤ 0xDFFF then none
    else if cap ≤ out.length + (utf8 u).length then none
    else encode (out ++ utf8 u) us

def fatLfnTake : Option (List UInt8) :=
  if !acc.valid ∨ acc.count = 0 ∨ acc.checksum ≠ fatShortChecksum e then none
  else (encode cap [] ((range acc.count).map acc.units)).filter (· ≠ [])

-- What the loop of fat32_vfs_readdir makes of an entry that is not the end of the directory.
def pass : LfnAcc :=
  if e 0 ≠ 0xE5 ∧ e 11 = 0x0F then fatLfnAbsorb acc e else fatLfnReset acc

def entryName : List UInt8 := (fatLfnTake cap acc e).getD (fatNameToNormal e)

structure Fragment (sum : UInt8) (e : Entry) : Prop where
  kind : e 0 ≠ 0xE5 ∧ e 11 = 0x0F
  seq : 0 < seq e ∧ seq e ≤ 20
  checksum : e 13 = sum

-- A marked fragment and unmarked ones after it.
def Chain (sum : UInt8) (f : Entry) (fs : List Entry) : Prop :=
  last f ∧ (∀ g ∈ f :: fs, Fragment sum g) ∧ ∀ g ∈ fs, ¬last g

-- The fragments are numbered down to 1.
def Numbered (f : Entry) (fs : List Entry) : Prop := (f :: fs).reverse.map seq = range' 1 (fs.length + 1)

def Written (l : List Entry) : Prop :=
  (l.map seq).Nodup → ∀ g ∈ l, ∀ k < 13, acc.units (13 * (seq g - 1) + k) = (codeUnits g).getD k 0

def Held (es : List Entry) : Prop := acc.valid = true → ∃ pre f fs,
  es = pre ++ f :: fs ∧ Chain acc.checksum f fs ∧ acc.count = seq f * 13 ∧ Written acc (f :: fs)

variable {acc : LfnAcc} {e f : Entry} {l fs es : List Entry}

lemma written_write (hs : 0 < seq e ∧ seq e ≤ 20) (hl : Written acc l) (hpos : ∀ g ∈ l, 0 < seq g) :
    Written (acc.write e) (l ++ [e]) := by
  intro hnd g hg k hk
  rw [map_append,nodup_append] at hnd
  simp only [LfnAcc.write]
  obtain hg | hg := mem_append.mp hg
  · have hne : seq g ≠ seq e := hnd.2.2 _ (mem_map_of_mem hg) _ (mem_singleton_self _)
    have := hpos g hg
    rw [if_neg (by omega)]
    exact hl hnd.1 g hg k hk
  · rw [mem_singleton.mp hg,if_pos (by omega)]
    congr 1
    omega

lemma Held.pass (h : Held acc es) (e : Entry) : Held (pass acc e) (es ++ [e]) := by
  rw [Fat.pass,fatLfnAbsorb]
  split_ifs with hk hm hl hv
  · exact nofun
  · have hs : 0 < seq e ∧ seq e ≤ 20 := by omega
    refine fun _ => ⟨es,e,[],rfl,⟨hl,by simpa using ⟨hk,hs,rfl⟩,nofun⟩,rfl,?_⟩
    exact written_write (l := []) hs (fun _ => nofun) nofun
  · exact nofun
  · have hs : 0 < seq e ∧ seq e ≤ 20 := by omega
    simp only [Bool.not_eq_true',not_or,Bool.not_eq_false,not_not] at hv
    obtain ⟨pre,f,fs,rfl,⟨hf,hfr,hun⟩,hct,hw⟩ := h hv.1
    refine fun _ => ⟨pre,f,fs ++ [e],by simp,⟨hf,?_,?_⟩,hct,?_⟩
    · intro g hg
      rcases mem_append.mp (cons_append ▸ hg : g ∈ (f :: fs) ++ [e]) with hg | hg
      · exact hfr g hg
      · rw [mem_singleton.mp hg]
        exact ⟨hk,hs,hv.2⟩
    · simpa [or_imp,forall_and] using ⟨hun,hl⟩
    · exact written_write hs hw fun g hg => (hfr g hg).seq.1
  · exact nofun

lemma range_units (hl : l.map seq = range' 1 l.length)
    (hw : ∀ g ∈ l, ∀ k < 13, acc.units (13 * (seq g - 1) + k) = (codeUnits g).getD k 0) :
    (range (l.length * 13)).map acc.units = l.flatMap codeUnits := by
  induction l using reverseRecOn with
  | nil => rfl
  | append_singleton l g ih =>
    simp only [map_append,length_append,length_singleton,range'_concat,map_cons,map_nil] at hl
    obtain ⟨hi,hg⟩ := append_inj' hl rfl
    have hg : seq g - 1 = l.length := by simp at hg; omega
    have hla : ∀ k ∈ range 13, (acc.units ∘ (l.length * 13 + ·)) k = (codeUnits g).getD k 0 := by
      intro k hk
      have hk := hw g (by simp) k (mem_range.mp hk)
      rwa [hg,mul_comm] at hk
    rw [length_append,length_singleton,add_mul,range_add,map_append,map_map,flatMap_append,
      ih hi fun g hg => hw g (mem_append_left _ hg),one_mul,map_congr_left hla]
    simp [codeUnits,range_succ]

def short : Entry := fun i => if i = 0 then 65 else 0

def lone : Entry := fun i => if i = 0 then 0x42 else if i = 11 then 0x0F else if i = 13 then 80 else 0

end B1nix.Fat
