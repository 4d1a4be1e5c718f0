import B1nix.Basic.Transition
import B1nix.Bpf.Insn

namespace B1nix.BpfMap

open B1nix.Bpf (MapType)

structure Params where
  type : MapType
  keySize : Nat
  valueSize : Nat
  maxEntries : Nat
  ncpu : Nat

def Params.stride (a : Params) : Nat := (a.valueSize + 7) / 8 * 8

structure Params.Valid (a : Params) : Prop where
  keyed : a.type.isArray ∨ a.type.isHash
  value : 0 < a.valueSize ∧ a.valueSize ≤ 4096
  entries : 0 < a.maxEntries ∧ a.maxEntries ≤ 65536
  arrayKey : a.type.isArray → a.keySize = 4
  hashKey : a.type.isHash → 0 < a.keySize ∧ a.keySize ≤ 64
  cpus : 0 < a.ncpu
  percpu : a.type.isPercpu → a.ncpu * a.stride ≤ 65536

structure Shape extends Params where
  valid : toParams.Valid

variable (σ : Shape) {n c off : Nat}

def Shape.mapElemSize : Nat :=
  if σ.type.isPercpu then σ.ncpu * σ.stride else σ.valueSize

abbrev Key : Type := Vector UInt8 σ.keySize

abbrev Value : Type := Vector UInt8 σ.valueSize

abbrev Elem : Type := Vector UInt8 σ.mapElemSize

structure Table (σ : Shape) where
  keys : Vector (Key σ) σ.maxEntries
  values : Vector (Elem σ) σ.maxEntries
  present : Vector Bool σ.maxEntries

def mapAlloc : Table σ where
  keys := Vector.replicate _ (Vector.replicate _ 0)
  values := Vector.replicate _ (Vector.replicate _ 0)
  present := Vector.replicate _ σ.type.isArray

inductive Errno where
  | einval | eexist | enoent | e2big
  deriving DecidableEq

def bpfNoexist : UInt64 := 1

def bpfExist : UInt64 := 2

def peek {n : Nat} (e : Vector UInt8 n) (off k : Nat) (h : off + k ≤ n) : Vector UInt8 k :=
  Vector.ofFn fun i => e[off + i]

def poke {n k : Nat} (e : Vector UInt8 n) (off : Nat) (v : Vector UInt8 k) : Vector UInt8 n :=
  Vector.ofFn fun i => if h : off ≤ i ∧ i - off < k then v[i.val - off] else e[i]

def Shape.copies : Nat := if σ.type.isPercpu then σ.ncpu else 1

lemma Shape.copies_pos : 0 < σ.copies := by
  unfold Shape.copies
  split
  · exact σ.valid.cpus
  exact one_pos

def Shape.copy (cpu : Nat) : Fin σ.copies :=
  if h : cpu < σ.copies then ⟨cpu,h⟩ else ⟨0,σ.copies_pos⟩

lemma Shape.valueSize_le_stride : σ.valueSize ≤ σ.stride := by
  unfold Params.stride
  omega

lemma Shape.copy_inside (hc : c < σ.copies) :
    c * σ.stride + σ.valueSize ≤ σ.mapElemSize := by
  unfold Shape.copies at hc
  unfold Shape.mapElemSize
  split
  case isTrue h =>
    rw [if_pos h] at hc
    calc
      c * σ.stride + σ.valueSize ≤ c * σ.stride + σ.stride :=
        Nat.add_le_add_left σ.valueSize_le_stride _
      _ = (c + 1) * σ.stride := (Nat.succ_mul ..).symm
      _ ≤ σ.ncpu * σ.stride := Nat.mul_le_mul_right _ hc
  case isFalse h =>
    rw [if_neg h] at hc
    have hze : c = 0 := by omega
    rw [hze,zero_mul,zero_add]

namespace Table

variable {σ : Shape}

variable (t : Table σ) (key : Key σ)

def arrayIndex : Nat := Nat.ofDigits 256 (key.toList.map UInt8.toNat)

def mapFind : Option (Fin σ.maxEntries) :=
  if σ.type.isArray then
    if h : arrayIndex key < σ.maxEntries then some ⟨arrayIndex key,h⟩ else none
  else (List.finRange σ.maxEntries).find? fun i => t.present[i] && t.keys[i] == key

def copyAt (slot : Fin σ.maxEntries) (c : Fin σ.copies) : Value σ :=
  peek t.values[slot] (c * σ.stride) σ.valueSize (σ.copy_inside c.isLt)

def mapLookup (cpu : Nat) (key : Key σ) : Option (Value σ) :=
  (t.mapFind key).map fun slot => t.copyAt slot (σ.copy cpu)

def elemLookup : Except Errno (Elem σ) :=
  match t.mapFind key with
  | some slot => .ok t.values[slot]
  | none => .error .enoent

end Table

inductive Writer (σ : Shape) where
  | allCpus (value : Elem σ)
  | program (cpu : Nat) (value : Value σ)

def Writer.store {σ : Shape} (w : Writer σ) (e : Elem σ) : Elem σ :=
  match w with
  | .allCpus value => poke e 0 value
  | .program cpu value =>
    if σ.type.isPercpu then poke e ((σ.copy cpu).val * σ.stride) value else poke e 0 value

namespace Table

variable {σ : Shape}

variable (t : Table σ)

def freeSlot : Option (Fin σ.maxEntries) :=
  (List.finRange σ.maxEntries).find? fun i => !t.present[i]

variable (slot : Fin σ.maxEntries) (key : Key σ)

def claim : Table σ where
  keys := t.keys.set slot key
  values := t.values.set slot (Vector.replicate _ 0)
  present := t.present.set slot true

def write (w : Writer σ) : Table σ :=
  { t with values := t.values.set slot (w.store t.values[slot]) }

def drop : Table σ :=
  { t with
    values := t.values.set slot (Vector.replicate _ 0)
    present := t.present.set slot false }

def mapUpdate (w : Writer σ) (flags : UInt64) : Table σ × Except Errno Unit :=
  if bpfExist < flags then (t, .error .einval)
  else
    match t.mapFind key with
    | some slot =>
      if flags = bpfNoexist then (t, .error .eexist) else (t.write slot w, .ok ())
    | none =>
      if flags = bpfExist then (t, .error .enoent)
      else if σ.type.isHash = false then (t, .error .e2big)
      else
        match t.freeSlot with
        | none => (t, .error .e2big)
        | some slot => ((t.claim slot key).write slot w, .ok ())

def mapDelete : Table σ × Except Errno Unit :=
  match t.mapFind key with
  | none => (t, .error .enoent)
  | some slot =>
    if σ.type.isArray then (t, .error .einval) else (t.drop slot, .ok ())

end Table

open B1nix.Transition Finset Option

abbrev Copies : Type := Fin σ.copies → Value σ

abbrev Contents : Type := Key σ → Option (Copies σ)

def blank : Copies σ := fun _ => Vector.replicate _ 0

def Elem.copies {σ : Shape} (e : Elem σ) : Copies σ :=
  fun c => peek e (c * σ.stride) σ.valueSize (σ.copy_inside c.isLt)

def Writer.assign {σ : Shape} (w : Writer σ) (old : Copies σ) : Copies σ :=
  match w with
  | .allCpus value => Elem.copies value
  | .program cpu value => Function.update old (σ.copy cpu) value

inductive Op (σ : Shape) where
  | lookup (cpu : Nat) (key : Key σ)
  | elemLookup (key : Key σ)
  | update (key : Key σ) (w : Writer σ) (flags : UInt64)
  | delete (key : Key σ)

def Op.exec {σ : Shape} (t : Table σ) : Op σ → Table σ × Bool
  | .lookup cpu key => (t, (t.mapLookup cpu key).isSome)
  | .elemLookup key => (t, (t.elemLookup key).isOk)
  | .update key w flags => ((t.mapUpdate key w flags).1, (t.mapUpdate key w flags).2.isOk)
  | .delete key => ((t.mapDelete key).1, (t.mapDelete key).2.isOk)

def Op.note {σ : Shape} (a : Contents σ) (done : Bool) : Op σ → Contents σ
  | .update key w _ =>
    if done then Function.update a key (some (w.assign ((a key).getD (blank σ)))) else a
  | .delete key => if done then Function.update a key none else a
  | .lookup _ _ | .elemLookup _ => a

structure History (σ : Shape) where
  table : Table σ
  kept : Contents σ

def Created {σ : Shape} (s : History σ) : Prop :=
  s.table = mapAlloc σ ∧
  s.kept = fun key =>
    if σ.type.isArray ∧ Table.arrayIndex key < σ.maxEntries then some (blank σ) else none

def Stepped {σ : Shape} (s : History σ) (op : Op σ) (s' : History σ) : Prop :=
  s' = ⟨(op.exec s.table).1,op.note s.kept (op.exec s.table).2⟩

def Table.contents {σ : Shape} (t : Table σ) : Contents σ :=
  fun key => (t.mapFind key).map t.copyAt

lemma peek_poke_same {k : Nat} (e : Vector UInt8 n) (v : Vector UInt8 k)
    (h : off + k ≤ n) : peek (poke e off v) off k h = v := by
  simp [peek,poke]

lemma peek_poke_apart {k j : Nat} (e : Vector UInt8 n) {at' : Nat} (v : Vector UInt8 k)
    (h : at' + j ≤ n) (hapt : at' + j ≤ off ∨ off + k ≤ at') :
    peek (poke e off v) at' j h = peek e at' j h := by
  ext i hi
  have hout : ¬(off ≤ at' + i ∧ at' + i - off < k) := by omega
  simp [peek,poke,hout]

lemma poke_whole (e v : Vector UInt8 n) : poke e 0 v = v := by
  simp [poke]

section

variable {σ : Shape} {t u : Table σ}

lemma stride_apart {d : Nat} (h : c ≠ d) :
    c * σ.stride + σ.valueSize ≤ d * σ.stride ∨ d * σ.stride + σ.valueSize ≤ c * σ.stride := by
  have hle := σ.valueSize_le_stride
  have hfar : ∀ a b : Nat, a < b → a * σ.stride + σ.valueSize ≤ b * σ.stride := by
    intro a b hab
    calc
      a * σ.stride + σ.valueSize ≤ (a + 1) * σ.stride := by
        rw [Nat.succ_mul]
        exact Nat.add_le_add_left hle _
      _ ≤ b * σ.stride := Nat.mul_le_mul_right _ hab
  exact (lt_or_gt_of_ne h).imp (hfar c d) (hfar d c)

lemma copy_single (h : σ.type.isPercpu = false) (c : Fin σ.copies) : (c : Nat) = 0 := by
  have hone : σ.copies = 1 := by simp [Shape.copies,h]
  have hc : (c : Nat) < 1 := hone ▸ c.isLt
  exact Nat.lt_one_iff.mp hc

lemma Writer.copies_store (w : Writer σ) (e : Elem σ) :
    Elem.copies (w.store e) = w.assign (Elem.copies e) := by
  cases w with
  | allCpus => rw [Writer.store,poke_whole,Writer.assign]
  | program cpu value =>
    funext c
    have hsto : Writer.store (.program cpu value) e =
        poke e ((σ.copy cpu).val * σ.stride) value := by
      rw [Writer.store]
      split
      · rfl
      next h => rw [copy_single (by simpa using h) (σ.copy cpu),zero_mul]
    rw [Writer.assign,hsto,Elem.copies]
    obtain rfl | hc := eq_or_ne c (σ.copy cpu)
    · rw [Function.update_self,peek_poke_same]
    rw [Function.update_of_ne hc,peek_poke_apart]
    · rfl
    exact stride_apart fun heq => hc (Fin.ext heq)

namespace Table

def Holds (t : Table σ) (slot : Fin σ.maxEntries) (key : Key σ) : Prop :=
  if σ.type.isArray then arrayIndex key = slot
  else t.present[slot] = true ∧ t.keys[slot] = key

def Distinct (t : Table σ) : Prop :=
  ∀ i j key, t.Holds i key → t.Holds j key → i = j

variable {key key' : Key σ} {slot : Fin σ.maxEntries}

lemma holds_of_find (h : t.mapFind key = some slot) : t.Holds slot key := by
  unfold mapFind at h
  unfold Holds
  split at h
  case isTrue har =>
    rw [if_pos har]
    split at h
    case isTrue => exact (congrArg Fin.val (some.inj h) :)
    case isFalse => cases h
  case isFalse har =>
    rw [if_neg har]
    simpa using List.find?_some h

lemma find_of_holds (hd : t.Distinct) (h : t.Holds slot key) : t.mapFind key = some slot := by
  cases hfi : t.mapFind key with
  | some i => rw [hd i slot key (holds_of_find hfi) h]
  | none =>
    unfold mapFind at hfi
    unfold Holds at h
    split at hfi
    case isTrue har =>
      rw [if_pos har] at h
      rw [dif_pos (h ▸ slot.isLt)] at hfi
      cases hfi
    case isFalse har =>
      rw [if_neg har] at h
      have hms := List.find?_eq_none.mp hfi slot (List.mem_finRange slot)
      simp [h.1,h.2] at hms

lemma find_eq_some (hd : t.Distinct) : t.mapFind key = some slot ↔ t.Holds slot key :=
  ⟨holds_of_find,find_of_holds hd⟩

lemma arrayIndex_injective (h : arrayIndex key = arrayIndex key') : key = key' := by
  have hsm : ∀ (k : Key σ), ∀ d ∈ k.toList.map UInt8.toNat, d < 256 := by
    intro k d hd
    obtain ⟨b,-,rfl⟩ := List.mem_map.mp hd
    exact b.toNat_lt
  have hdig := Nat.ofDigits_inj_of_len_eq (by decide) (by simp) (hsm key) (hsm key') h
  have hls : key.toList = key'.toList :=
    (List.map_injective_iff.mpr fun _ _ => UInt8.toNat.inj) hdig
  exact Vector.toList_inj.mp hls

lemma holds_injective (h : t.Holds slot key) (h' : t.Holds slot key') : key = key' := by
  unfold Holds at h h'
  split at h
  case isTrue har =>
    rw [if_pos har] at h'
    exact arrayIndex_injective (h.trans h'.symm)
  case isFalse har =>
    rw [if_neg har] at h'
    exact h.2.symm.trans h'.2

lemma copyAt_set {e : Elem σ} (h : u.values = t.values.set slot e) (i : Fin σ.maxEntries) :
    u.copyAt i = if i = slot then Elem.copies e else t.copyAt i := by
  have hcy : u.copyAt i = Elem.copies u.values[i] := rfl
  rw [hcy,h]
  split
  case isTrue hi => simp [hi]
  case isFalse hi =>
    have hne : slot.val ≠ i.val := fun heq => hi (Fin.ext heq.symm)
    simp [Vector.getElem_set_ne _ _ hne]
    rfl

lemma contents_write (h : t.mapFind key = some slot) (w : Writer σ) :
    (t.write slot w).contents =
      Function.update t.contents key (some (w.assign ((t.contents key).getD (blank σ)))) := by
  have hold : t.contents key = some (t.copyAt slot) := by rw [contents,h,map_some]
  have hfi : ∀ k, (t.write slot w).mapFind k = t.mapFind k := fun _ => rfl
  have hcy := copyAt_set (u := t.write slot w) rfl
  funext k
  obtain rfl | hk := eq_or_ne k key
  · rw [Function.update_self,hold,contents,hfi,h,map_some,hcy,if_pos rfl,Writer.copies_store]
    rfl
  rw [Function.update_of_ne hk,contents,contents,hfi]
  cases hj : t.mapFind k with
  | none => rfl
  | some j =>
    have hne : j ≠ slot := by
      rintro rfl
      exact hk (holds_injective (holds_of_find hj) (holds_of_find h))
    rw [map_some,map_some,hcy,if_neg hne]

lemma contents_eq_some (hd : t.Distinct) {e : Copies σ} :
    t.contents key = some e ↔ ∃ slot, t.Holds slot key ∧ t.copyAt slot = e := by
  simp [contents,find_eq_some hd]

section

variable (hhs : σ.type.isArray = false) (i : Fin σ.maxEntries) (k : Key σ)

include hhs

lemma holds_claim :
    (t.claim slot key).Holds i k ↔ if i = slot then k = key else t.Holds i k := by
  simp only [Holds,hhs,Bool.false_eq_true,if_false,claim]
  split
  case isTrue hi => simp [hi,eq_comm]
  case isFalse hi =>
    have hne : slot.val ≠ i.val := fun heq => hi (Fin.ext heq.symm)
    simp [Vector.getElem_set_ne _ _ hne]

lemma holds_drop : (t.drop slot).Holds i k ↔ i ≠ slot ∧ t.Holds i k := by
  simp only [Holds,hhs,drop]
  by_cases hi : i = slot
  · simp [hi]
  have hne : slot.val ≠ i.val := fun heq => hi (Fin.ext heq.symm)
  simp [Vector.getElem_set_ne _ _ hne,hi]

end

lemma not_holds_of_find_none (hd : t.Distinct) (h : t.mapFind key = none)
    (i : Fin σ.maxEntries) : ¬t.Holds i key := by
  intro hi
  rw [find_of_holds hd hi] at h
  cases h

section

variable (hhs : σ.type.isArray = false) (hd : t.Distinct) (slot : Fin σ.maxEntries)

include hhs hd

lemma distinct_claim (h : t.mapFind key = none) : (t.claim slot key).Distinct := by
  have hnone := not_holds_of_find_none hd h
  intro i j k hi hj
  rw [holds_claim hhs] at hi hj
  split at hi
  case isTrue his =>
    split at hj
    case isTrue hjs => rw [his,hjs]
    case isFalse hjs => cases hnone j (hi ▸ hj)
  case isFalse his =>
    split at hj
    case isTrue hjs => cases hnone i (hj ▸ hi)
    case isFalse hjs => exact hd i j k hi hj

lemma distinct_drop : (t.drop slot).Distinct := by
  intro i j k hi hj
  rw [holds_drop hhs] at hi hj
  exact hd i j k hi.2 hj.2

end

lemma copies_zero : Elem.copies (Vector.replicate σ.mapElemSize 0) = blank σ := by
  ext i hi
  simp [Elem.copies,peek,blank]

lemma contents_claim (hhs : σ.type.isArray = false) (hd : t.Distinct)
    (h : t.mapFind key = none) (hfe : t.present[slot] = false) :
    (t.claim slot key).contents = Function.update t.contents key (some (blank σ)) := by
  have hcy := copyAt_set (u := t.claim slot key) rfl
  have hvac : ∀ k, ¬t.Holds slot k := by
    intro k hk
    simp [Holds,hhs,hfe] at hk
  funext k
  apply Option.ext
  intro e
  rw [contents_eq_some (distinct_claim hhs hd slot h)]
  simp only [holds_claim hhs,hcy]
  obtain rfl | hk := eq_or_ne k key
  · rw [Function.update_self]
    constructor
    · rintro ⟨i,hi,rfl⟩
      split at hi
      case isTrue his => rw [if_pos his,copies_zero]
      case isFalse => cases not_holds_of_find_none hd h i hi
    intro he
    refine ⟨slot,by rw [if_pos rfl],?_⟩
    rw [if_pos rfl,copies_zero]
    exact some.inj he
  rw [Function.update_of_ne hk,contents_eq_some hd]
  constructor
  · rintro ⟨i,hi,rfl⟩
    split at hi
    case isTrue => cases hk hi
    case isFalse his => exact ⟨i,hi,by rw [if_neg his]⟩
  rintro ⟨i,hi,rfl⟩
  have his : i ≠ slot := fun heq => hvac k (heq ▸ hi)
  exact ⟨i,by rwa [if_neg his],by rw [if_neg his]⟩

lemma contents_drop (hhs : σ.type.isArray = false) (hd : t.Distinct) (h : t.mapFind key = some slot) :
    (t.drop slot).contents = Function.update t.contents key none := by
  have hcy := copyAt_set (u := t.drop slot) rfl
  have hsl := holds_of_find h
  funext k
  apply Option.ext
  intro e
  rw [contents_eq_some (distinct_drop hhs hd slot)]
  simp only [holds_drop hhs,hcy]
  obtain rfl | hk := eq_or_ne k key
  · rw [Function.update_self]
    constructor
    · rintro ⟨i,⟨his,hi⟩,-⟩
      cases his (hd i slot k hi hsl)
    intro he
    cases he
  rw [Function.update_of_ne hk,contents_eq_some hd]
  constructor
  · rintro ⟨i,⟨his,hi⟩,rfl⟩
    exact ⟨i,hi,by rw [if_neg his]⟩
  rintro ⟨i,hi,rfl⟩
  have his : i ≠ slot := fun heq => hk (holds_injective (heq ▸ hi) hsl)
  exact ⟨i,⟨his,hi⟩,by rw [if_neg his]⟩

end Table

def Full (a : Contents σ) : Prop :=
  ∃ ks : Finset (Key σ), ks.card = σ.maxEntries ∧ ∀ k ∈ ks, (a k).isSome

namespace Table

lemma card_le (hd : t.Distinct) {ks : Finset (Key σ)} (free : Finset (Fin σ.maxEntries))
    (hks : ∀ k ∈ ks, (t.contents k).isSome) (hfe : ∀ i ∈ free, ∀ k, ¬t.Holds i k) :
    ks.card + free.card ≤ σ.maxEntries := by
  have : Nonempty (Fin σ.maxEntries) := ⟨⟨0,σ.valid.entries.1⟩⟩
  have hsl : ∀ k ∈ ks, ∃ i, t.Holds i k := by
    intro k hk
    obtain ⟨e,he⟩ := isSome_iff_exists.mp (hks k hk)
    obtain ⟨i,hi,-⟩ := (contents_eq_some hd).mp he
    exact ⟨i,hi⟩
  choose! f hf using hsl
  have hinj : Set.InjOn f ks := by
    intro k hk k' hk' heq
    exact holds_injective (hf k hk) (heq ▸ hf k' hk')
  have hdj : Disjoint (ks.image f) free := by
    rw [disjoint_left]
    intro i hi hfi
    obtain ⟨k,hk,rfl⟩ := mem_image.mp hi
    exact hfe _ hfi k (hf k hk)
  calc
    ks.card + free.card = (ks.image f).card + free.card := by rw [card_image_of_injOn hinj]
    _ = (ks.image f ∪ free).card := (card_union_of_disjoint hdj).symm
    _ ≤ (univ : Finset (Fin σ.maxEntries)).card := card_le_card (subset_univ _)
    _ = σ.maxEntries := card_fin _

lemma full_of_all (hd : t.Distinct) (h : ∀ i, ∃ k, t.Holds i k) : Full t.contents := by
  choose f hf using h
  have hinj : Function.Injective f := fun i j heq => hd i j (f i) (hf i) (heq ▸ hf j)
  refine ⟨univ.image f,?_,?_⟩
  · rw [card_image_of_injective _ hinj,card_fin]
  intro k hk
  obtain ⟨i,-,rfl⟩ := mem_image.mp hk
  rw [contents,find_of_holds hd (hf i)]
  rfl

lemma arrayIndex_surjective (har : σ.type.isArray = true) (i : Fin σ.maxEntries) :
    ∃ key : Key σ, arrayIndex key = i := by
  have hsz := σ.valid.arrayKey har
  have hi : i.val < 256 ^ σ.keySize := by
    have hle := σ.valid.entries.2
    rw [hsz]
    omega
  have hlen : (Nat.digits 256 i).length ≤ σ.keySize := (Nat.digits_length_le_iff (by decide) _).mpr hi
  let digits := Nat.digits 256 i ++ List.replicate (σ.keySize - (Nat.digits 256 i).length) 0
  have hsm : ∀ d ∈ digits, d < 256 := by
    intro d hd
    obtain hd | hd := List.mem_append.mp hd
    · exact Nat.digits_lt_base (by decide) hd
    rw [List.eq_of_mem_replicate hd]
    decide
  have hby : (digits.map UInt8.ofNat).map UInt8.toNat = digits := by
    rw [List.map_map]
    conv_rhs => rw [← List.map_id digits]
    exact List.map_congr_left fun d hd => UInt8.toNat_ofNat_of_lt' (hsm d hd)
  refine ⟨⟨(digits.map UInt8.ofNat).toArray,by simp [digits,hlen]⟩,?_⟩
  change Nat.ofDigits 256 ((digits.map UInt8.ofNat).map UInt8.toNat) = i.val
  rw [hby,Nat.ofDigits_append_replicate_zero,Nat.ofDigits_digits]

lemma freeSlot_some (h : t.freeSlot = some slot) : t.present[slot] = false := by
  simpa using List.find?_some h

lemma freeSlot_none (h : t.freeSlot = none) (i : Fin σ.maxEntries) : t.present[i] = true := by
  simpa using List.find?_eq_none.mp h i (List.mem_finRange i)

end Table

lemma Shape.isHash_eq (σ : Shape) : σ.type.isHash = !σ.type.isArray := by
  have hkeyed := σ.valid.keyed
  cases htype : σ.type <;> simp_all [Bpf.MapType.isArray,Bpf.MapType.isHash]

open Classical in
noncomputable def updateAnswer (a : Contents σ) (key : Key σ) (flags : UInt64) :
    Except Errno Unit :=
  if bpfExist < flags then .error .einval
  else if (a key).isSome then
    if flags = bpfNoexist then .error .eexist else .ok ()
  else if flags = bpfExist then .error .enoent
  else if Full a then .error .e2big
  else .ok ()

def deleteAnswer (a : Contents σ) (key : Key σ) : Except Errno Unit :=
  if (a key).isSome then if σ.type.isArray then .error .einval else .ok ()
  else .error .enoent

namespace Table

lemma isSome_contents (t : Table σ) (key : Key σ) : (t.contents key).isSome = (t.mapFind key).isSome := by
  rw [contents,isSome_map]

lemma mapUpdate_cases (t : Table σ) (key : Key σ) (w : Writer σ) (flags : UInt64) :
    (∃ e, t.mapUpdate key w flags = (t, .error e)) ∨
    (∃ slot, t.mapFind key = some slot ∧ t.mapUpdate key w flags = (t.write slot w, .ok ())) ∨
    (σ.type.isArray = false ∧ t.mapFind key = none ∧ ∃ slot, t.freeSlot = some slot ∧
      t.mapUpdate key w flags = ((t.claim slot key).write slot w, .ok ())) := by
  unfold mapUpdate
  split
  case isTrue => exact .inl ⟨_,rfl⟩
  case isFalse =>
    split
    case h_1 slot hfi =>
      split
      case isTrue => exact .inl ⟨_,rfl⟩
      case isFalse => exact .inr (.inl ⟨slot,hfi,rfl⟩)
    case h_2 hfi =>
      split
      case isTrue => exact .inl ⟨_,rfl⟩
      case isFalse =>
        split
        case isTrue => exact .inl ⟨_,rfl⟩
        case isFalse hhs =>
          split
          case h_1 => exact .inl ⟨_,rfl⟩
          case h_2 slot hfe =>
            refine .inr (.inr ⟨?_,hfi,slot,hfe,rfl⟩)
            simpa [σ.isHash_eq] using hhs

lemma mapDelete_cases (t : Table σ) (key : Key σ) :
    (∃ e, t.mapDelete key = (t, .error e)) ∨
    (σ.type.isArray = false ∧ ∃ slot, t.mapFind key = some slot ∧
      t.mapDelete key = (t.drop slot, .ok ())) := by
  unfold mapDelete
  split
  case h_1 => exact .inl ⟨_,rfl⟩
  case h_2 slot hfi =>
    split
    case isTrue => exact .inl ⟨_,rfl⟩
    case isFalse har => exact .inr ⟨by simpa using har,slot,hfi,rfl⟩

lemma mapUpdate_answer (hd : t.Distinct) (key : Key σ) (w : Writer σ)
    (flags : UInt64) : (t.mapUpdate key w flags).2 = updateAnswer t.contents key flags := by
  have hfu : t.freeSlot = none → σ.type.isArray = false → Full t.contents := by
    intro hnone hhs
    refine full_of_all hd fun i => ⟨t.keys[i],?_⟩
    simp [Holds,hhs,freeSlot_none hnone i]
  have hro : ∀ slot, t.freeSlot = some slot → σ.type.isArray = false → ¬Full t.contents := by
    rintro slot hfe hhs ⟨ks,hcard,hks⟩
    have hvac : ∀ i ∈ ({slot} : Finset _), ∀ k, ¬t.Holds i k := by
      intro i hi k hk
      rw [mem_singleton.mp hi] at hk
      simp [Holds,hhs,freeSlot_some hfe] at hk
    have hle := card_le hd _ hks hvac
    rw [card_singleton] at hle
    omega
  unfold mapUpdate updateAnswer
  rw [isSome_contents]
  split
  case isTrue => rfl
  case isFalse =>
    cases hfi : t.mapFind key with
    | some =>
      dsimp only [isSome_some]
      split <;> rfl
    | none =>
      dsimp only [isSome_none]
      rw [if_neg Bool.false_ne_true]
      split
      case isTrue => rfl
      case isFalse =>
        cases har : σ.type.isArray with
        | true =>
          have hall : Full t.contents := by
            refine full_of_all hd fun i => ?_
            obtain ⟨k,hk⟩ := arrayIndex_surjective har i
            exact ⟨k,by rwa [Holds,if_pos har]⟩
          rw [if_pos (by rw [σ.isHash_eq,har]; rfl),if_pos hall]
        | false =>
          rw [if_neg (by rw [σ.isHash_eq,har]; decide)]
          cases hfe : t.freeSlot with
          | none => rw [if_pos (hfu hfe har)]
          | some slot => rw [if_neg (hro slot hfe har)]

lemma mapDelete_answer (t : Table σ) (key : Key σ) : (t.mapDelete key).2 = deleteAnswer t.contents key := by
  unfold mapDelete deleteAnswer
  rw [isSome_contents]
  cases t.mapFind key with
  | none => rfl
  | some =>
    dsimp only [isSome_some]
    split <;> rfl

end Table

structure Op.Served (t : Table σ) (op : Op σ) : Prop where
  failed : (op.exec t).2 = false → (op.exec t).1 = t
  distinct : (op.exec t).1.Distinct
  contents : (op.exec t).1.contents = op.note t.contents (op.exec t).2

lemma Op.served_update (hd : t.Distinct) (key : Key σ) (w : Writer σ)
    (flags : UInt64) : Op.Served t (.update key w flags) := by
  rcases t.mapUpdate_cases key w flags with ⟨e,he⟩ | ⟨slot,hfi,he⟩ |
    ⟨hhs,hfi,slot,hfe,he⟩
  · constructor <;> simp only [Op.exec,he]
    · intro _
      trivial
    · exact hd
    rfl
  · constructor <;> simp only [Op.exec,he]
    · exact nofun
    · exact hd
    exact Table.contents_write hfi w
  have hclm := Table.distinct_claim hhs hd slot hfi
  have hsl := Table.find_of_holds hclm ((Table.holds_claim hhs slot key).mpr (by rw [if_pos rfl]))
  have hnone : t.contents key = none := by rw [Table.contents,hfi,map_none]
  constructor <;> simp only [Op.exec,he]
  · exact nofun
  · exact hclm
  rw [Table.contents_write hsl w,Table.contents_claim hhs hd hfi (Table.freeSlot_some hfe)]
  simp [Op.note,hnone,Except.toBool]

lemma Op.served (hd : t.Distinct) (op : Op σ) : op.Served t := by
  cases op with
  | lookup | elemLookup => exact ⟨fun _ => rfl,hd,rfl⟩
  | update key w flags => exact Op.served_update hd key w flags
  | delete key =>
    obtain ⟨e,he⟩ | ⟨hhs,slot,hfi,he⟩ := t.mapDelete_cases key
    · constructor <;> simp only [Op.exec,he]
      · intro _
        trivial
      · exact hd
      rfl
    constructor <;> simp only [Op.exec,he]
    · exact nofun
    · exact Table.distinct_drop hhs hd slot
    exact Table.contents_drop hhs hd hfi

lemma mapAlloc_contents (σ : Shape) : (mapAlloc σ).contents = fun key =>
    if σ.type.isArray ∧ Table.arrayIndex key < σ.maxEntries then some (blank σ) else none := by
  have hcy : ∀ i, (mapAlloc σ).copyAt i = blank σ := by
    intro i
    rw [← Table.copies_zero]
    change Elem.copies (mapAlloc σ).values[i] = _
    simp [mapAlloc]
  funext key
  cases har : σ.type.isArray with
  | true =>
    rw [Table.contents,Table.mapFind,if_pos har]
    split
    case isTrue h => rw [if_pos ⟨rfl,h⟩,map_some,hcy]
    case isFalse h => rw [if_neg fun hand => h hand.2,map_none]
  | false =>
    have hnone : (mapAlloc σ).mapFind key = none := by
      rw [Table.mapFind]
      simp [mapAlloc,har]
    rw [Table.contents,hnone,if_neg (by simp),map_none]

lemma reached {s : History σ} (h : Reach Created Stepped s) :
    s.table.Distinct ∧ s.kept = s.table.contents := by
  induction h with
  | @start s h =>
    obtain ⟨table,kept⟩ := s
    obtain ⟨rfl,rfl⟩ := h
    refine ⟨?_,(mapAlloc_contents σ).symm⟩
    cases har : σ.type.isArray with
    | true =>
      intro i j key hi hj
      rw [Table.Holds,if_pos har] at hi hj
      exact Fin.ext (hi.symm.trans hj)
    | false =>
      intro i j key hi
      simp [Table.Holds,mapAlloc,har] at hi
  | @next s s' op _ h ih =>
    have hsvd := op.served ih.1
    obtain rfl := h
    refine ⟨hsvd.distinct,?_⟩
    rw [hsvd.contents,ih.2]

structure Refines (s : History σ) : Prop where
  lookup : ∀ cpu key, s.table.mapLookup cpu key = (s.kept key).map fun e => e (σ.copy cpu)
  elemLookup : ∀ key, (s.table.elemLookup key).map Elem.copies =
    (s.kept key).elim (.error .enoent) .ok
  distinct : s.table.Distinct
  bounded : ∀ ks : Finset (Key σ), (∀ k ∈ ks, (s.kept k).isSome) → ks.card ≤ σ.maxEntries
  update : ∀ key w flags, (s.table.mapUpdate key w flags).2 = updateAnswer s.kept key flags
  delete : ∀ key, (s.table.mapDelete key).2 = deleteAnswer s.kept key
  failed : ∀ op : Op σ, (op.exec s.table).2 = false → (op.exec s.table).1 = s.table

theorem map_refines_history {s : History σ} (h : Reach Created Stepped s) : Refines s := by
  obtain ⟨hd,hke⟩ := reached h
  constructor
  · intro cpu key
    rw [hke,Table.contents,Option.map_map]
    rfl
  · intro key
    rw [hke,Table.elemLookup,Table.contents]
    cases s.table.mapFind key with
    | none | some => rfl
  · exact hd
  · intro ks hks
    rw [hke] at hks
    exact Table.card_le hd ∅ hks nofun
  · intro key w flags
    rw [hke]
    exact Table.mapUpdate_answer hd key w flags
  · intro key
    rw [hke]
    exact s.table.mapDelete_answer key
  · exact fun op => (op.served hd).failed

def pairHash : Shape where
  type := .percpuHash
  keySize := 2
  valueSize := 1
  maxEntries := 2
  ncpu := 2
  valid := by constructor <;> decide

def pairHash.opened : History pairHash := ⟨mapAlloc pairHash,fun _ => none⟩

def pairHash.put : Op pairHash := .update #v[7,8] (.program 1 #v[9]) bpfNoexist

def pairHash.stored : History pairHash :=
  ⟨(pairHash.put.exec pairHash.opened.table).1,
    pairHash.put.note pairHash.opened.kept (pairHash.put.exec pairHash.opened.table).2⟩

theorem stored_refines :
    Refines pairHash.stored ∧
    (pairHash.stored.table.mapLookup 1 #v[7, 8]).map Vector.toList = some [9] ∧
    (pairHash.stored.table.mapLookup 0 #v[7, 8]).map Vector.toList = some [0] := by
  have hop : Reach Created Stepped pairHash.opened := .start ⟨rfl,rfl⟩
  have hstd : Reach Created Stepped pairHash.stored := hop.next rfl
  exact ⟨map_refines_history hstd,by decide +kernel,by decide +kernel⟩

end

end B1nix.BpfMap
