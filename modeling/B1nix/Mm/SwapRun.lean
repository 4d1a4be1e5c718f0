import B1nix.Basic.Tally
import B1nix.Basic.Transition
import B1nix.Mm.Swap

namespace B1nix.Mm

open Function Splice Lz4 Tally Transition Multiset Option Nat Prod

def Flight.slot : Flight → Option Slot
  | .claimed _ _ idx => some (.disk idx)
  | .stored _ slot => some slot
  | .owned slot => some slot
  | .loaded slot => some slot
  | .freeing slot _ => some slot
  | .taken slot _ _ => some slot
  | _ => none

def Flight.on (slot : Slot) (flights : Multiset Flight) : Multiset Flight :=
  flights.filter (fun f => f.slot = some slot)

variable {slot : Slot} {flights : Multiset Flight} {s s' : SwapState} {cfg : SwapConfig}
  {idx owner id : Nat} {f : Flight} {m m' : SwapMap} {flights' rest : Multiset Flight} {b : Bool}
  {blob : Option (List UInt8)}

lemma on_cons_self (h : f.slot = some slot) :
    Flight.on slot (f ::ₘ flights) = f ::ₘ Flight.on slot flights :=
  filter_cons_of_pos _ h

lemma on_cons_other (h : f.slot ≠ some slot) : Flight.on slot (f ::ₘ flights) = Flight.on slot flights :=
  filter_cons_of_neg _ h

def SwapWorld.Quiet (w : SwapWorld) (slot : Slot) : Prop := Flight.on slot w.flights = 0

def Settled (busy : Bool) (owner : Nat) (m : Option (Page × Nat)) : Prop :=
  (busy = true ∧ ∃ page, m = some (page, owner)) ∨ (busy = false ∧ owner = 0 ∧ m = none)

def Phase (o : Option Flight) (busy : Bool) (owner : Nat) (m : Option (Page × Nat)) : Prop :=
  match o with
  | some (.claimed _ _ _) => busy = true ∧ owner = 0 ∧ m = none
  | some (.stored id _) => busy = true ∧ owner = 0 ∧ ∃ page, m = some (page, id)
  | some (.owned _) => busy = true ∧ ∃ page, m = some (page, owner)
  | some (.loaded _) => busy = false ∧ m = none
  | some (.freeing (.disk _) _) => Settled busy owner m ∨ (busy = true ∧ owner = 0 ∧ m = none)
  | some (.taken (.disk _) id _) =>
    busy = true ∧ owner = 0 ∧ ((m = none ∧ id = 0) ∨ ∃ page, m = some (page, id))
  | some (.taken (.pool _) id _) => owner = 0 ∧ Settled busy id m
  | _ => Settled busy owner m

def SlotsOk (flights : Multiset Flight) (s : SwapState) (m : SwapMap) : Prop :=
  ∀ slot, ∃ o : Option Flight, Flight.on slot flights = o.elim 0 (fun f => {f}) ∧
    Phase o (s.busy slot) (s.owner slot) (m slot)

lemma SlotsOk.phase (h : SlotsOk (f ::ₘ rest) s m) (hf : f.slot = some slot) :
    Flight.on slot rest = 0 ∧ Phase (some f) (s.busy slot) (s.owner slot) (m slot) := by
  obtain ⟨o,hon,hph⟩ := h slot
  rw [on_cons_self hf] at hon
  cases o with
  | none => cases cons_ne_zero hon
  | some =>
    obtain ⟨rfl,hrs⟩ := (singleton_eq_cons_iff _).mp hon.symm
    exact ⟨hrs,hph⟩

lemma SlotsOk.quiet (h : SlotsOk flights s m) (hq : Flight.on slot flights = 0) :
    Settled (s.busy slot) (s.owner slot) (m slot) := by
  obtain ⟨o,hon,hph⟩ := h slot
  rw [hq] at hon
  cases o with
  | none => exact hph
  | some f => cases singleton_ne_zero f hon.symm

def poolSlots (cfg : SwapConfig) : Finset Slot := (Finset.range cfg.poolCount).image .pool

def diskSlots (cfg : SwapConfig) : Finset Slot := (Finset.range cfg.slotCount).image .disk

lemma mem_poolSlots : slot ∈ poolSlots cfg ↔ ∃ idx, slot = .pool idx ∧ cfg.valid slot := by
  simp only [poolSlots,Finset.mem_image,Finset.mem_range]
  constructor
  · rintro ⟨idx,hidx,rfl⟩
    exact ⟨idx,rfl,hidx⟩
  rintro ⟨idx,rfl,hidx⟩
  exact ⟨idx,hidx,rfl⟩

lemma mem_diskSlots : slot ∈ diskSlots cfg ↔ ∃ idx, slot = .disk idx ∧ cfg.valid slot := by
  simp only [diskSlots,Finset.mem_image,Finset.mem_range]
  constructor
  · rintro ⟨idx,hidx,rfl⟩
    exact ⟨idx,rfl,hidx⟩
  rintro ⟨idx,rfl,hidx⟩
  exact ⟨idx,hidx,rfl⟩

def allSlots (cfg : SwapConfig) : Finset Slot := poolSlots cfg ∪ diskSlots cfg

lemma mem_allSlots : slot ∈ allSlots cfg ↔ cfg.valid slot := by
  rw [allSlots,Finset.mem_union,mem_poolSlots,mem_diskSlots]
  cases slot with
  | pool | disk => simp

def owed (id : Nat) (owner : Nat) : Nat := if owner = id then 1 else 0

def Flight.pending (id : Nat) : Flight → Nat
  | .charged c _ => owed id c
  | .missed c _ => owed id c
  | .claimed c _ _ => owed id c
  | .stored c _ => owed id c
  | .owned _ => 0
  | .loaded _ => 0
  | .freeing _ refund => owed id refund
  | .taken _ owner refund => owed id owner + owed id refund
  | .uncharging ids => (ids.map (owed id)).sum

def pendingSum (id : Nat) (flights : Multiset Flight) : Nat := (flights.map (Flight.pending id)).sum

lemma pendingSum_cons (id : Nat) (f : Flight) (flights : Multiset Flight) :
    pendingSum id (f ::ₘ flights) = f.pending id + pendingSum id flights := by
  rw [pendingSum,map_cons,sum_cons,pendingSum]

def Balanced (cfg : SwapConfig) (s : SwapState) (flights : Multiset Flight) : Prop :=
  ∀ id, id ≠ 0 → s.swapCur id = ∑ k ∈ allSlots cfg, owed id (s.owner k) + pendingSum id flights

def slotPage (cfg : SwapConfig) (s : SwapState) : Slot → Option (List UInt8)
  | .pool idx => entryPage (s.pool idx)
  | .disk idx => some (readBlocks s.dev (cfg.lba idx))

def Counted (cfg : SwapConfig) (s : SwapState) : Prop :=
  s.poolUsedN = ∑ k ∈ poolSlots cfg, (s.busy k).toNat ∧
    s.used = ∑ k ∈ diskSlots cfg, (s.busy k).toNat

structure SwapInv (cfg : SwapConfig) (w : SwapWorld) : Prop where
  slots : SlotsOk w.flights w.mem w.map
  invalid : ∀ slot, ¬cfg.valid slot → w.mem.busy slot = false ∧ w.mem.owner slot = 0
  data : ∀ slot page id, w.map slot = some (page, id) →
    slotPage cfg w.mem slot = some page.bytes
  counted : Counted cfg w.mem
  balanced : Balanced cfg w.mem w.flights

lemma SlotsOk.update (h : SlotsOk flights s m) (slot : Slot)
    (hfm : ∀ k, k ≠ slot → Flight.on k flights' = Flight.on k flights ∧
      s'.busy k = s.busy k ∧ s'.owner k = s.owner k ∧ m' k = m k) (o : Option Flight)
    (hon : Flight.on slot flights' = o.elim 0 (fun f => {f}))
    (hph : Phase o (s'.busy slot) (s'.owner slot) (m' slot)) : SlotsOk flights' s' m' := by
  intro k
  obtain rfl | hk := eq_or_ne k slot
  · exact ⟨o,hon,hph⟩
  obtain ⟨hfls,hbz,how,hmap⟩ := hfm k hk
  rw [hfls,hbz,how,hmap]
  exact h k

lemma Counted.pool (h : Counted cfg s) (hidx : idx < cfg.poolCount)
    (hbz : s'.busy = update s.busy (.pool idx) b)
    (hn : s'.poolUsedN = s.poolUsedN + b.toNat - (s.busy (.pool idx)).toNat)
    (hu : s'.used = s.used) : Counted cfg s' := by
  have hpool := sum_update_add (mem_poolSlots.mpr ⟨idx,rfl,hidx⟩) s.busy b Bool.toNat
  have hdisk := sum_update_of_notMem (s := diskSlots cfg) (i := .pool idx)
    (fun hmem => by simp [mem_diskSlots] at hmem) s.busy b Bool.toNat
  rw [Counted,hbz,hdisk,hn,hu,h.1,← h.2]
  exact ⟨by omega,rfl⟩

lemma Counted.disk (h : Counted cfg s) (hidx : idx < cfg.slotCount)
    (hbz : s'.busy = update s.busy (.disk idx) b) (hn : s'.poolUsedN = s.poolUsedN)
    (hu : s'.used = s.used + b.toNat - (s.busy (.disk idx)).toNat) : Counted cfg s' := by
  have hdisk := sum_update_add (mem_diskSlots.mpr ⟨idx,rfl,hidx⟩) s.busy b Bool.toNat
  have hpool := sum_update_of_notMem (s := poolSlots cfg) (i := .disk idx)
    (fun hmem => by simp [mem_poolSlots] at hmem) s.busy b Bool.toNat
  rw [Counted,hbz,hpool,hn,hu,h.2,← h.1]
  exact ⟨rfl,by omega⟩

lemma Balanced.same (h : Balanced cfg s flights) (hcur : s'.swapCur = s.swapCur)
    (how : s'.owner = s.owner) (hpe : ∀ id, id ≠ 0 → pendingSum id flights' = pendingSum id flights) :
    Balanced cfg s' flights' := by
  intro id hid
  rw [hcur,how,hpe id hid]
  exact h id hid

lemma Balanced.setOwner (h : Balanced cfg s flights) (hvl : cfg.valid slot)
    (hcur : s'.swapCur = s.swapCur) (how : s'.owner = update s.owner slot owner)
    (hpe : ∀ id, id ≠ 0 → pendingSum id flights' + owed id owner =
      pendingSum id flights + owed id (s.owner slot)) : Balanced cfg s' flights' := by
  intro id hid
  have hsum := sum_update_add (mem_allSlots.mpr hvl) s.owner owner (owed id)
  have hbal := h id hid
  have hp := hpe id hid
  rw [hcur,how]
  omega

lemma owed_zero (h : id ≠ 0) : owed id 0 = 0 := if_neg h.symm

lemma find_first {p : Nat → Bool} {n k : Nat} (h : (List.range n).find? p = some k) : k < n ∧ p k = true :=
  ⟨List.mem_range.mp (List.mem_of_find?_eq_some h),List.find?_some h⟩

lemma scanSlots_spec {busy : Nat → Bool} {next i : Nat}
    (h : scanSlots cfg busy next i = some idx) : idx < cfg.slotCount ∧ busy idx = false := by
  fun_induction scanSlots cfg busy next i with
  | case1 _ _ _ _ _ ih | case3 _ _ _ _ _ ih => exact ih h
  | case2 _ _ _ _ _ hk =>
    obtain ⟨hlt,hp⟩ := find_first hk
    cases h
    exact ⟨by omega,by simpa using hp⟩
  | case4 _ _ _ _ hbz =>
    rw [some.injEq] at h
    rw [← h]
    exact ⟨mod_lt _ (by omega),by simpa using hbz⟩
  | case5 => cases h

lemma entryPage_blob {page : Page} (junk : List UInt8) (hpos : 0 < zswapSize page) :
    entryPage ⟨zswapBlob junk page,(zswapSize page).toNat⟩ = some page.bytes := by
  have hsz : page.bytes.length < 2 ^ 31 := by
    rw [page.size]
    decide
  have hc : 0 < (lz4Compress page.bytes (lz4CompressBound pageSize)).1 := by
    unfold zswapSize at hpos
    dsimp only at hpos
    split at hpos
    · next h => exact h.1
    exact hpos
  have hlen := lz4Compress_size hsz hc
  have hle : (lz4Compress page.bytes (lz4CompressBound pageSize)).2.length ≤
      (zswapSize page).toNat := by
    unfold zswapSize
    dsimp only
    split <;> omega
  rw [entryPage,zswapBlob]
  rw [List.take_append,List.take_of_length_le hle]
  have hta := roundTrip_tail hc
  rw [page.size] at hta
  exact hta _

lemma readBlocks_writeBlocks (dev : Nat → List UInt8) (lba : Nat) (page : Page) :
    readBlocks (writeBlocks dev lba page.sector) lba = page.bytes := by
  have hsec : ∀ i ∈ List.range sectorsPerPage,
      writeBlocks dev lba page.sector (lba + i) = page.sector i := by
    intro i hi
    rw [List.mem_range] at hi
    rw [writeBlocks,if_pos (by omega),Nat.add_sub_cancel_left]
  have hfu : page.bytes.length ≤ sectorsPerPage * sectorSize := page.size.le
  rw [readBlocks,List.flatMap_congr hsec]
  exact (flatMap_slice page.bytes sectorSize sectorsPerPage).trans (List.take_of_length_le hfu)

lemma readBlocks_other (cfg : SwapConfig) (dev : Nat → List UInt8) {i j : Nat} (h : i ≠ j)
    (data : Nat → List UInt8) :
    readBlocks (writeBlocks dev (cfg.lba i) data) (cfg.lba j) = readBlocks dev (cfg.lba j) := by
  refine List.flatMap_congr fun k hk => ?_
  rw [List.mem_range,sectorsPerPage_eq] at hk
  rw [writeBlocks,if_neg]
  simp only [SwapConfig.lba,sectorsPerPage_eq]
  omega

lemma SwapInv.evict {w : SwapWorld} (h : SwapInv cfg w) (id : Nat) (page : Page) :
    SwapInv cfg ⟨cgroupSwapCharge id w.mem,.charged id page ::ₘ w.flights,w.map⟩ := by
  have hsa : cgroupSwapCharge id w.mem =
      { w.mem with swapCur := (cgroupSwapCharge id w.mem).swapCur } := by
    unfold cgroupSwapCharge
    split <;> rfl
  have hcur : ∀ c, c ≠ 0 → (cgroupSwapCharge id w.mem).swapCur c = w.mem.swapCur c + owed c id := by
    intro c hc
    unfold cgroupSwapCharge owed
    split
    · next hz => rw [hz,if_neg hc.symm,add_zero]
    obtain rfl | heq := eq_or_ne id c
    · simp
    simp [heq,update_of_ne (Ne.symm heq)]
  rw [hsa]
  refine ⟨?_,h.invalid,h.data,h.counted,?_⟩
  · intro slot
    rw [on_cons_other (by simp [Flight.slot])]
    exact h.slots slot
  intro c hc
  have hbal := h.balanced c hc
  have hcharge := hcur c hc
  dsimp only at hbal ⊢
  rw [pendingSum_cons,Flight.pending]
  omega

open Flight

def Flight.At (slot : Slot) (f : Flight) : Prop := f.slot = some slot ∨ f.slot = none

variable {rest : Multiset Flight} {w w' : SwapWorld} {id refund : Nat} {page : Page}
  {k : Slot} {f' : Flight} {m' : SwapMap} {busy : Bool} {owner : Nat} {data : Nat → List UInt8}

lemma on_cons_at (hf : f.At slot) (hk : k ≠ slot) : Flight.on k (f ::ₘ rest) = Flight.on k rest := by
  refine on_cons_other ?_
  obtain h | h := hf
  · rw [h]
    exact fun heq => hk (some.inj heq).symm
  rw [h]
  exact some_ne_none k |>.symm

section Reslot

variable (h : SlotsOk (f ::ₘ rest) s m) (slot : Slot) (hf : f.At slot)
  (hrs : Flight.on slot rest = 0)
  (hfm : ∀ k, k ≠ slot → s'.busy k = s.busy k ∧ s'.owner k = s.owner k ∧ m' k = m k)

include h hf hrs hfm

lemma SlotsOk.replace (hf' : f'.slot = some slot)
    (hph : Phase (some f') (s'.busy slot) (s'.owner slot) (m' slot)) : SlotsOk (f' ::ₘ rest) s' m' := by
  refine h.update slot (fun k hk => ⟨?_,hfm k hk⟩) (some f') ?_ hph
  · rw [on_cons_at (.inl hf') hk,on_cons_at hf hk]
  rw [on_cons_self hf',hrs]
  rfl

lemma SlotsOk.settle (hf' : f'.slot = none) (hph : Settled (s'.busy slot) (s'.owner slot) (m' slot)) :
    SlotsOk (f' ::ₘ rest) s' m' := by
  refine h.update slot (fun k hk => ⟨?_,hfm k hk⟩) none ?_ hph
  · rw [on_cons_at (.inr hf') hk,on_cons_at hf hk]
  rw [on_cons_other (by rw [hf']; exact (some_ne_none slot).symm),hrs]
  rfl

end Reslot

lemma Balanced.turn (h : Balanced cfg s (f ::ₘ rest)) (hcur : s'.swapCur = s.swapCur)
    (how : s'.owner = s.owner) (hpe : ∀ id, id ≠ 0 → f'.pending id = f.pending id) :
    Balanced cfg s' (f' ::ₘ rest) := by
  refine h.same hcur how fun c hc => ?_
  rw [pendingSum_cons,pendingSum_cons,hpe c hc]

lemma SwapInv.shift (h : SwapInv cfg ⟨s,f ::ₘ rest,m⟩) (hsl : SlotsOk (f' ::ₘ rest) s m)
    (hpe : ∀ id, id ≠ 0 → f'.pending id = f.pending id) : SwapInv cfg ⟨s,f' ::ₘ rest,m⟩ :=
  ⟨hsl,h.invalid,h.data,h.counted,h.balanced.turn rfl rfl hpe⟩

lemma SwapInv.unused (h : SwapInv cfg w) (hv : cfg.valid slot)
    (hfm : ∀ k, k ≠ slot → s'.busy k = w.mem.busy k ∧ s'.owner k = w.mem.owner k) (k : Slot)
    (hk : ¬cfg.valid k) : s'.busy k = false ∧ s'.owner k = 0 := by
  obtain ⟨hbz,how⟩ := hfm k (fun heq => hk (heq ▸ hv))
  rw [hbz,how]
  exact h.invalid k hk

lemma SwapInv.busy_valid (h : SwapInv cfg w) (hb : w.mem.busy slot = true) : cfg.valid slot := by
  by_contra hv
  rw [(h.invalid slot hv).1] at hb
  cases hb

lemma Settled.free {m : Option (Page × Nat)} (h : Settled busy owner m) (hb : busy = false) :
    owner = 0 ∧ m = none := by
  obtain ⟨hbz,-⟩ | ⟨-,h⟩ := h
  · rw [hb] at hbz
    cases hbz
  exact h

lemma Settled.live {m : Option (Page × Nat)} (h : Settled busy owner m) (hb : busy = true) :
    ∃ page, m = some (page, owner) := by
  obtain ⟨-,h⟩ | ⟨hbz,-⟩ := h
  · exact h
  rw [hb] at hbz
  cases hbz

lemma SwapInv.data_stored {k : Slot} (h : SwapInv cfg ⟨s,flights,m⟩)
    (hk : slotPage cfg s' k = some page.bytes)
    (hot : ∀ slot, slot ≠ k → slotPage cfg s' slot = slotPage cfg s slot) :
    ∀ slot page' id', update m k (some (page, id)) slot = some (page', id') →
      slotPage cfg s' slot = some page'.bytes := by
  intro slot page' id' hm
  obtain rfl | hs := eq_or_ne slot k
  · simp only [update_self] at hm
    obtain ⟨rfl,rfl⟩ := hm
    exact hk
  rw [update_of_ne hs] at hm
  rw [hot slot hs]
  exact h.data slot page' id' hm

lemma SwapInv.store (h : SwapInv cfg ⟨s,.charged id page ::ₘ rest,m⟩)
    (hsto : zswapPoolStore cfg blob page s = some (idx, s')) (hq : Flight.on (.pool idx) rest = 0) :
    SwapInv cfg ⟨s',.stored id (.pool idx) ::ₘ rest,update m (.pool idx) (some (page, id))⟩ := by
  cases blob with
  | none => cases hsto
  | some junk =>
  simp only [zswapPoolStore] at hsto
  split at hsto
  · cases hsto
  next i hfst =>
  split at hsto
  · cases hsto
  next hsz =>
  obtain ⟨hlt,hp⟩ := find_first hfst
  have hfe : s.busy (.pool i) = false := by simpa using hp
  simp only [some.injEq,mk.injEq] at hsto
  obtain ⟨rfl,rfl⟩ := hsto
  have hslot : Flight.on (.pool i) (.charged id page ::ₘ rest) = 0 := by
    rw [on_cons_other (by simp [Flight.slot]),hq]
  have how := ((h.slots.quiet hslot).free hfe).1
  refine ⟨?_,?_,?_,?_,?_⟩
  · refine h.slots.replace (.pool i) (.inr rfl) hq (fun k hk => ?_) rfl ?_
    · simp [update_of_ne hk]
    exact ⟨update_self ..,how,page,update_self ..⟩
  · exact h.unused (show cfg.valid (.pool i) from hlt) fun k hk => ⟨update_of_ne hk ..,rfl⟩
  · refine h.data_stored ?_ fun slot hk => ?_
    · simp only [slotPage,update_self]
      exact entryPage_blob junk (by omega)
    cases slot with
    | pool j =>
      have hj : j ≠ i := fun heq => hk (heq ▸ rfl)
      simp [slotPage,update_of_ne hj]
    | disk => rfl
  · exact h.counted.pool hlt rfl (by simp [hfe]) rfl
  exact h.balanced.turn rfl rfl fun _ _ => rfl

lemma SwapInv.alloc (h : SwapInv cfg ⟨s,.missed id page ::ₘ rest,m⟩)
    (hal : swapAllocSlot cfg s = some (idx, s')) (hq : Flight.on (.disk idx) rest = 0) :
    SwapInv cfg ⟨s',.claimed id page idx ::ₘ rest,m⟩ := by
  simp only [swapAllocSlot] at hal
  split at hal
  · cases hal
  next i hscan =>
  obtain ⟨hlt,hfe⟩ := scanSlots_spec hscan
  simp only [some.injEq,mk.injEq] at hal
  obtain ⟨rfl,rfl⟩ := hal
  have hslot : Flight.on (.disk i) (.missed id page ::ₘ rest) = 0 := by
    rw [on_cons_other (by simp [Flight.slot]),hq]
  obtain ⟨how,hmap⟩ := (h.slots.quiet hslot).free hfe
  refine ⟨?_,?_,h.data,h.counted.disk hlt rfl rfl (by simp [hfe]),?_⟩
  · refine h.slots.replace (.disk i) (.inr rfl) hq (fun k hk => ?_) rfl ?_
    · simp [update_of_ne hk]
    exact ⟨update_self ..,how,hmap⟩
  · exact h.unused (show cfg.valid (.disk i) from hlt) fun k hk => ⟨update_of_ne hk ..,rfl⟩
  exact h.balanced.turn rfl rfl fun _ _ => rfl

lemma slotPage_write (h : slot ≠ .disk idx) :
    slotPage cfg { s with dev := writeBlocks s.dev (cfg.lba idx) data } slot =
      slotPage cfg s slot := by
  cases slot with
  | pool => rfl
  | disk j =>
    have hj : idx ≠ j := fun heq => h (heq ▸ rfl)
    simp [slotPage,readBlocks_other cfg s.dev hj]

section

variable (h : SwapInv cfg ⟨s,.claimed id page idx ::ₘ rest,m⟩)

include h

lemma SwapInv.wrote :
    SwapInv cfg ⟨{ s with dev := writeBlocks s.dev (cfg.lba idx) page.sector },
      .stored id (.disk idx) ::ₘ rest,update m (.disk idx) (some (page, id))⟩ := by
  obtain ⟨hrs,hbz,how,-⟩ := h.slots.phase rfl
  refine ⟨?_,h.invalid,?_,h.counted,?_⟩
  · refine h.slots.replace (.disk idx) (.inl rfl) hrs (fun k hk => ?_) rfl ?_
    · exact ⟨rfl,rfl,update_of_ne hk ..⟩
    exact ⟨hbz,how,page,update_self ..⟩
  · refine h.data_stored ?_ fun _ => slotPage_write
    simp [slotPage,readBlocks_writeBlocks]
  exact h.balanced.turn rfl rfl fun _ _ => rfl

lemma SwapInv.writeFailed :
    SwapInv cfg ⟨{ s with dev := writeBlocks s.dev (cfg.lba idx) data },
      .freeing (.disk idx) id ::ₘ rest,m⟩ := by
  obtain ⟨hrs,hbz,how,hmap⟩ := h.slots.phase rfl
  refine ⟨?_,h.invalid,?_,h.counted,?_⟩
  · refine h.slots.replace (.disk idx) (.inl rfl) hrs (fun k hk => ⟨rfl,rfl,rfl⟩) rfl ?_
    exact .inr ⟨hbz,how,hmap⟩
  · intro slot page' id' hm
    have hk : slot ≠ .disk idx := by
      rintro rfl
      cases hmap.symm.trans hm
    rw [slotPage_write hk]
    exact h.data slot page' id' hm
  exact h.balanced.turn rfl rfl fun _ _ => rfl

lemma SwapInv.bounds : SwapInv cfg ⟨s,.freeing (.disk idx) id ::ₘ rest,m⟩ := by
  obtain ⟨hrs,hbz,how,hmap⟩ := h.slots.phase rfl
  refine h.shift ?_ fun c hc => rfl
  refine h.slots.replace (.disk idx) (.inl rfl) hrs (fun k hk => ⟨rfl,rfl,rfl⟩) rfl ?_
  exact .inr ⟨hbz,how,hmap⟩

end

lemma SwapInv.setOwner (h : SwapInv cfg ⟨s,.stored id slot ::ₘ rest,m⟩) :
    SwapInv cfg ⟨swapSetOwner cfg slot id s,.owned slot ::ₘ rest,m⟩ := by
  obtain ⟨hrs,hbz,how,page,hmap⟩ := h.slots.phase rfl
  have hvl := h.busy_valid hbz
  rw [swapSetOwner,if_pos hvl]
  refine ⟨?_,?_,?_,h.counted,?_⟩
  · refine h.slots.replace slot (.inl rfl) hrs (fun k hk => ?_) rfl ?_
    · exact ⟨rfl,update_of_ne hk ..,rfl⟩
    refine ⟨hbz,page,?_⟩
    dsimp only
    rw [update_self]
    exact hmap
  · exact h.unused hvl fun k hk => ⟨rfl,update_of_ne hk ..⟩
  · intro k page' id' hm
    have hda := h.data k page' id' hm
    cases k <;> exact hda
  refine h.balanced.setOwner hvl rfl rfl fun c hc => ?_
  dsimp only at how ⊢
  simp only [pendingSum_cons,pending,how,owed_zero hc]
  omega

section

variable (h : SwapInv cfg ⟨s,.owned slot ::ₘ rest,m⟩)

include h

lemma SwapInv.marked : SwapInv cfg ⟨s,rest,m⟩ := by
  obtain ⟨hrs,hbz,page,hmap⟩ := h.slots.phase rfl
  refine ⟨?_,h.invalid,h.data,h.counted,?_⟩
  · refine h.slots.update slot (fun k hk => ⟨?_,rfl,rfl,rfl⟩) none hrs ?_
    · rw [on_cons_at (.inl rfl) hk]
    exact .inl ⟨hbz,page,hmap⟩
  refine h.balanced.same rfl rfl fun c hc => ?_
  simp [pendingSum_cons,Flight.pending]

lemma SwapInv.unmarked :
    SwapInv cfg ⟨s,.freeing slot 0 ::ₘ rest,m⟩ := by
  obtain ⟨hrs,hbz,page,hmap⟩ := h.slots.phase rfl
  refine h.shift ?_ fun c => owed_zero
  refine h.slots.replace slot (.inl rfl) hrs (fun k hk => ⟨rfl,rfl,rfl⟩) rfl ?_
  cases slot with
  | pool => exact .inl ⟨hbz,page,hmap⟩
  | disk => exact .inl (.inl ⟨hbz,page,hmap⟩)

end

lemma SwapInv.takeOwner (h : SwapInv cfg ⟨s,f ::ₘ rest,m⟩)
    (hsl : SlotsOk (f' ::ₘ rest) (swapOwnerTake cfg slot s).2 m)
    (hpe : ∀ id, id ≠ 0 → f'.pending id = f.pending id + owed id (swapOwnerTake cfg slot s).1) :
    SwapInv cfg ⟨(swapOwnerTake cfg slot s).2,f' ::ₘ rest,m⟩ := by
  unfold swapOwnerTake at *
  by_cases hv : cfg.valid slot
  · simp only [if_pos hv] at *
    refine ⟨hsl,?_,?_,h.counted,?_⟩
    · exact h.unused hv fun k hk => ⟨rfl,update_of_ne hk ..⟩
    · intro k page id hm
      have hda := h.data k page id hm
      cases k <;> exact hda
    refine h.balanced.setOwner hv rfl rfl fun c hc => ?_
    simp only [pendingSum_cons,hpe c hc,owed_zero hc]
    omega
  simp only [if_neg hv] at *
  refine ⟨hsl,h.invalid,h.data,h.counted,?_⟩
  refine h.balanced.turn rfl rfl fun c hc => ?_
  rw [hpe c hc,owed_zero hc,add_zero]

lemma swapOwnerTake_frame (cfg : SwapConfig) (slot : Slot) (s : SwapState) :
    (swapOwnerTake cfg slot s).2.busy = s.busy ∧
      ∀ k, k ≠ slot → (swapOwnerTake cfg slot s).2.owner k = s.owner k := by
  unfold swapOwnerTake
  split
  · exact ⟨rfl,fun k hk => update_of_ne hk ..⟩
  exact ⟨rfl,fun _ _ => rfl⟩

lemma SwapInv.swapOwnerTake_spec (h : SwapInv cfg w) (slot : Slot) :
    (swapOwnerTake cfg slot w.mem).1 = w.mem.owner slot ∧
      (swapOwnerTake cfg slot w.mem).2.owner slot = 0 := by
  unfold swapOwnerTake
  split
  · exact ⟨rfl,update_self ..⟩
  next hv => exact ⟨(h.invalid slot hv).2.symm,(h.invalid slot hv).2⟩

lemma SwapInv.loaded (h : SwapInv cfg ⟨s,.loaded slot ::ₘ rest,m⟩) :
    SwapInv cfg ⟨(swapOwnerTake cfg slot s).2,.uncharging [(swapOwnerTake cfg slot s).1] ::ₘ rest,m⟩ := by
  obtain ⟨hrs,hbz,hmap⟩ := h.slots.phase rfl
  obtain ⟨hfm,hots⟩ := swapOwnerTake_frame cfg slot s
  refine h.takeOwner ?_ fun c hc => ?_
  · refine h.slots.settle slot (.inl rfl) hrs (fun k hk => ?_) rfl ?_
    · exact ⟨congrFun hfm k,hots k hk,rfl⟩
    exact .inr ⟨(congrFun hfm slot).trans hbz,(h.swapOwnerTake_spec slot).2,hmap⟩
  simp [pending]

lemma SwapInv.freeLive (h : SwapInv cfg ⟨s,.freeing slot refund ::ₘ rest,m⟩)
    (hbz : s.busy slot = true) :
    SwapInv cfg ⟨(swapOwnerTake cfg slot s).2,
      .taken slot (swapOwnerTake cfg slot s).1 refund ::ₘ rest,m⟩ := by
  obtain ⟨hrs,hph⟩ := h.slots.phase rfl
  obtain ⟨hfm,hots⟩ := swapOwnerTake_frame cfg slot s
  obtain ⟨htk,hclr⟩ := h.swapOwnerTake_spec slot
  refine h.takeOwner ?_ fun c hc => ?_
  · refine h.slots.replace slot (.inl rfl) hrs (fun k hk => ?_) rfl ?_
    · exact ⟨congrFun hfm k,hots k hk,rfl⟩
    rw [hclr,htk,hfm]
    cases slot with
    | pool => exact ⟨rfl,hph⟩
    | disk =>
      obtain hph | ⟨-,how,hnone⟩ := hph
      · exact ⟨hbz,rfl,.inr (hph.live hbz)⟩
      exact ⟨hbz,rfl,.inl ⟨hnone,how⟩⟩
  simp only [pending]
  omega

lemma SwapInv.freeDead (h : SwapInv cfg ⟨s,.freeing (.pool idx) refund ::ₘ rest,m⟩)
    (hbz : s.busy (.pool idx) = false) : SwapInv cfg ⟨s,.taken (.pool idx) 0 refund ::ₘ rest,m⟩ := by
  obtain ⟨hrs,hph⟩ := h.slots.phase rfl
  obtain ⟨how,hmap⟩ := Settled.free hph hbz
  refine h.shift ?_ fun c hc => by simp [pending,owed_zero hc]
  refine h.slots.replace (.pool idx) (.inl rfl) hrs (fun k hk => ⟨rfl,rfl,rfl⟩) rfl ?_
  exact ⟨how,.inr ⟨hbz,rfl,hmap⟩⟩

lemma SwapInv.freeNothing (h : SwapInv cfg ⟨s,.freeing (.disk idx) refund ::ₘ rest,m⟩)
    (hbz : s.busy (.disk idx) = false) : SwapInv cfg ⟨s,.uncharging [refund] ::ₘ rest,m⟩ := by
  obtain ⟨hrs,hph⟩ := h.slots.phase rfl
  refine h.shift ?_ fun c hc => by simp [pending]
  refine h.slots.settle (.disk idx) (.inl rfl) hrs (fun k hk => ⟨rfl,rfl,rfl⟩) rfl ?_
  obtain hph | ⟨hset,-⟩ := hph
  · exact hph
  cases hset.symm.trans hbz

lemma SwapInv.freeing (h : SwapInv cfg ⟨s,.freeing slot refund ::ₘ rest,m⟩) :
    SwapInv cfg ((freeTake cfg slot refund s m).join rest) := by
  unfold freeTake
  split
  · next hli => exact h.freeLive hli.2
  next hde =>
  have hbz : s.busy slot = false := by
    rw [← Bool.not_eq_true]
    exact fun hb => hde ⟨h.busy_valid hb,hb⟩
  cases slot with
  | pool => exact h.freeDead hbz
  | disk => exact h.freeNothing hbz

lemma data_dropEntry (h : SwapInv cfg w) (idx : Nat)
    (hm : update w.map (.pool idx) none k = some (page, id)) :
    slotPage cfg (w.mem.dropEntry idx) k = some page.bytes := by
  have hne : k ≠ .pool idx := by
    rintro rfl
    rw [update_self] at hm
    cases hm
  rw [update_of_ne hne] at hm
  have hda := h.data k page id hm
  cases k with
  | pool j =>
    have hj : j ≠ idx := fun heq => hne (heq ▸ rfl)
    simpa only [slotPage,SwapState.dropEntry,update_of_ne hj] using hda
  | disk => exact hda

lemma SwapInv.dropEntry (h : SwapInv cfg w) (hlt : idx < cfg.poolCount)
    (hbz : w.mem.busy (.pool idx) = true) {flights' : Multiset Flight}
    (hsl : SlotsOk flights' (w.mem.dropEntry idx) (update w.map (.pool idx) none))
    (hpe : ∀ id, id ≠ 0 → pendingSum id flights' = pendingSum id w.flights) :
    SwapInv cfg ⟨w.mem.dropEntry idx,flights',update w.map (.pool idx) none⟩ := by
  refine ⟨hsl,?_,fun k page id => data_dropEntry h idx,?_,?_⟩
  · exact h.unused (show cfg.valid (.pool idx) from hlt) fun k hk => ⟨update_of_ne hk ..,rfl⟩
  · exact h.counted.pool hlt rfl (by simp [hbz,SwapState.dropEntry]) rfl
  exact h.balanced.same rfl rfl hpe

lemma dropEntry_frame (s : SwapState) (m : SwapMap) (idx : Nat) (hk : k ≠ .pool idx) :
    (s.dropEntry idx).busy k = s.busy k ∧
      (s.dropEntry idx).owner k = s.owner k ∧ update m (.pool idx) none k = m k :=
  ⟨update_of_ne hk _ _,rfl,update_of_ne hk _ _⟩

lemma SwapInv.clearPool (h : SwapInv cfg ⟨s,.taken (.pool idx) owner refund ::ₘ rest,m⟩) :
    SwapInv cfg ⟨zswapPoolFree cfg idx s,.uncharging [owner,refund] ::ₘ rest,
      update m (.pool idx) none⟩ := by
  obtain ⟨hrs,how,hph⟩ := h.slots.phase rfl
  have hpe : ∀ id, id ≠ 0 → pendingSum id (.uncharging [owner,refund] ::ₘ rest) =
      pendingSum id (.taken (.pool idx) owner refund ::ₘ rest) := by
    simp [pendingSum_cons,pending]
  unfold zswapPoolFree
  split_ifs with hli
  · refine h.dropEntry hli.1 hli.2 ?_ hpe
    refine h.slots.settle (.pool idx) (.inl rfl) hrs
      (fun k => dropEntry_frame s m idx) rfl ?_
    exact .inr ⟨update_self ..,how,update_self ..⟩
  have hbz : s.busy (.pool idx) = false := by
    rw [← Bool.not_eq_true]
    exact fun hb => hli ⟨h.busy_valid hb,hb⟩
  have hnone : m (.pool idx) = none := (hph.free hbz).2
  have hsa : update m (.pool idx) none = m := by rw [← hnone,update_eq_self]
  rw [hsa]
  refine ⟨?_,h.invalid,h.data,h.counted,h.balanced.same rfl rfl hpe⟩
  refine h.slots.settle (.pool idx) (.inl rfl) hrs (fun k hk => ⟨rfl,rfl,rfl⟩) rfl ?_
  exact .inr ⟨hbz,how,hnone⟩

lemma SwapInv.clearDisk (h : SwapInv cfg ⟨s,.taken (.disk idx) owner refund ::ₘ rest,m⟩) :
    SwapInv cfg ⟨swapClearBit idx s,.uncharging [owner,refund] ::ₘ rest,update m (.disk idx) none⟩ := by
  obtain ⟨hrs,hbz,how,-⟩ := h.slots.phase rfl
  have hlt := h.busy_valid hbz
  refine ⟨?_,?_,?_,?_,?_⟩
  · refine h.slots.settle (.disk idx) (.inl rfl) hrs (fun k hk => ?_) rfl ?_
    · exact ⟨update_of_ne hk ..,rfl,update_of_ne hk ..⟩
    exact .inr ⟨update_self ..,how,update_self ..⟩
  · exact h.unused (show cfg.valid (.disk idx) from hlt) fun k hk => ⟨update_of_ne hk ..,rfl⟩
  · intro k page id hm
    have hne : k ≠ .disk idx := by
      rintro rfl
      simp only [update_self] at hm
      cases hm
    dsimp only at hm
    rw [update_of_ne hne] at hm
    have hda := h.data k page id hm
    cases k <;> exact hda
  · refine h.counted.disk hlt rfl rfl ?_
    dsimp only at hbz
    simp only [swapClearBit,hbz,Bool.toNat_true,Bool.toNat_false]
    split <;> omega
  refine h.balanced.same rfl rfl fun id _ => ?_
  simp [pendingSum_cons,pending]

lemma SwapInv.uncharge {ids : List Nat} (h : SwapInv cfg ⟨s,.uncharging (id :: ids) ::ₘ rest,m⟩) :
    SwapInv cfg ⟨cgroupSwapUncharge id s,.uncharging ids ::ₘ rest,m⟩ := by
  have hsa : cgroupSwapUncharge id s =
      { s with swapCur := (cgroupSwapUncharge id s).swapCur } := by
    unfold cgroupSwapUncharge
    split <;> rfl
  have hsl : SlotsOk (.uncharging ids ::ₘ rest) s m := by
    intro slot
    obtain ⟨o,hon,hph⟩ := h.slots slot
    rw [on_cons_other (by simp [Flight.slot])] at hon ⊢
    exact ⟨o,hon,hph⟩
  rw [hsa]
  refine ⟨hsl,h.invalid,h.data,h.counted,?_⟩
  intro c hc
  have hbal := h.balanced c hc
  simp only [pendingSum_cons,Flight.pending,List.map_cons,List.sum_cons] at hbal ⊢
  unfold cgroupSwapUncharge
  split_ifs with hz
  · rw [hz,owed_zero hc] at hbal
    omega
  obtain rfl | heq := eq_or_ne c id
  · simp only [owed,if_true,update_self] at hbal ⊢
    omega
  simp only [update_of_ne heq]
  rw [owed,if_neg (Ne.symm heq)] at hbal
  omega

lemma SwapInv.finish (h : SwapInv cfg ⟨s,.uncharging [] ::ₘ rest,m⟩) : SwapInv cfg ⟨s,rest,m⟩ := by
  refine ⟨?_,h.invalid,h.data,h.counted,?_⟩
  · intro slot
    obtain ⟨o,hon,hph⟩ := h.slots slot
    rw [on_cons_other (by simp [Flight.slot])] at hon
    exact ⟨o,hon,hph⟩
  refine h.balanced.same rfl rfl fun c hc => ?_
  simp [pendingSum_cons,Flight.pending]

lemma SwapInv.miss (h : SwapInv cfg ⟨s,f ::ₘ rest,m⟩) (hf : f.slot = none) (hf' : f'.slot = none)
    (hpe : ∀ id, id ≠ 0 → f'.pending id = f.pending id) : SwapInv cfg ⟨s,f' ::ₘ rest,m⟩ := by
  refine h.shift (fun slot => ?_) hpe
  obtain ⟨o,hon,hph⟩ := h.slots slot
  rw [on_cons_other (by simp [hf])] at hon
  rw [on_cons_other (by simp [hf'])]
  exact ⟨o,hon,hph⟩

lemma SwapInv.begin (h : SwapInv cfg w) (hq : w.Quiet slot) :
    SwapInv cfg ⟨w.mem,.freeing slot 0 ::ₘ w.flights,w.map⟩ := by
  have hset := h.slots.quiet hq
  refine ⟨?_,h.invalid,h.data,h.counted,?_⟩
  · refine h.slots.update slot (fun k hk => ⟨on_cons_at (.inl rfl) hk,rfl,rfl,rfl⟩)
      (some (.freeing slot 0)) ?_ ?_
    · rw [on_cons_self rfl,hq]
      rfl
    cases slot with
    | pool => exact hset
    | disk => exact .inl hset
  refine h.balanced.same rfl rfl fun c hc => ?_
  rw [pendingSum_cons,Flight.pending,owed_zero hc,zero_add]

lemma SwapInv.fetch (h : SwapInv cfg w) (hq : w.Quiet slot) {page : List UInt8} {t : Turn}
    (hf : swapFetch cfg slot w.mem w.map = some (page, t)) : SwapInv cfg (t.join w.flights) := by
  cases slot with
  | pool idx =>
    simp only [swapFetch,zswapPoolLoad] at hf
    split at hf
    · cases hf
    next page' s' hlo =>
    split at hlo
    · cases hlo
    next hli =>
    split at hlo
    · cases hlo
    cases hlo
    cases hf
    rw [not_or,not_le,Bool.not_eq_false] at hli
    refine h.dropEntry hli.1 hli.2 ?_ fun id _ => ?_
    · refine h.slots.update (.pool idx)
        (fun k hk => ⟨on_cons_at (.inl rfl) hk,dropEntry_frame w.mem w.map idx hk⟩)
        (some (.loaded (.pool idx))) ?_ ?_
      · rw [on_cons_self rfl,hq]
        rfl
      exact ⟨update_self ..,update_self ..⟩
    rw [pendingSum_cons,Flight.pending,zero_add]
  | disk =>
    simp only [swapFetch] at hf
    split at hf
    · cases hf
    cases hf
    exact h.begin hq

def SwapEvent.Alone (cfg : SwapConfig) (w : SwapWorld) : SwapEvent → Prop
  | .evict _ _ => True
  | .swapIn slot => w.Quiet (Slot.decode slot)
  | .free slot => w.Quiet (Slot.decode slot)
  | .run (.charged _ _) _ => ∀ idx, firstFreeEntry cfg w.mem = some idx → w.Quiet (.pool idx)
  | .run (.missed _ _) _ =>
    ∀ idx, scanSlots cfg (fun i => w.mem.busy (.disk i)) w.mem.nextSlot 0 = some idx →
      w.Quiet (.disk idx)
  | .run _ _ => True

variable {dev : Nat → List UInt8} {m : Option (Page × Nat)}

lemma zswapPoolStore_first
    (h : zswapPoolStore cfg blob page s = some (idx, s')) : firstFreeEntry cfg s = some idx := by
  cases blob with
  | none => cases h
  | some =>
    simp only [zswapPoolStore] at h
    split at h
    · cases h
    next i hfst =>
    split at h
    · cases h
    simp only [some.injEq,mk.injEq] at h
    rw [hfst,h.1]

lemma swapAllocSlot_scan (h : swapAllocSlot cfg s = some (idx, s')) :
    scanSlots cfg (fun i => s.busy (.disk i)) s.nextSlot 0 = some idx := by
  simp only [swapAllocSlot] at h
  split at h
  · cases h
  next i hscan =>
  simp only [some.injEq,mk.injEq] at h
  rw [hscan,h.1]

lemma SwapInv.advance {m : SwapMap} {rest : Multiset Flight} {f : Flight} {luck : Luck}
    (h : SwapInv cfg ⟨s,f ::ₘ rest,m⟩) (hao : (SwapEvent.run f luck).Alone cfg ⟨s,f ::ₘ rest,m⟩) :
    SwapInv cfg ((advance cfg luck s m f).join rest) := by
  cases f with
  | charged id page =>
    cases hsto : zswapPoolStore cfg luck.blob page s with
    | none =>
      simp only [Mm.advance,hsto]
      exact h.miss rfl rfl fun _ _ => rfl
    | some r =>
      have hq : Flight.on (.pool r.1) (.charged id page ::ₘ rest) = 0 :=
        hao r.1 (zswapPoolStore_first hsto)
      rw [on_cons_other (by simp [Flight.slot])] at hq
      simp only [Mm.advance,hsto]
      exact h.store hsto hq
  | missed id page =>
    cases hal : swapAllocSlot cfg s with
    | none =>
      simp only [Mm.advance,hal]
      exact h.miss rfl rfl fun c _ => by simp [Flight.pending]
    | some r =>
      have hq : Flight.on (.disk r.1) (.missed id page ::ₘ rest) = 0 :=
        hao r.1 (swapAllocSlot_scan hal)
      rw [on_cons_other (by simp [Flight.slot])] at hq
      simp only [Mm.advance,hal]
      exact h.alloc hal hq
  | claimed =>
    simp only [Mm.advance,writeSlot]
    split
    · split
      · exact h.wrote
      exact h.writeFailed
    exact h.bounds
  | stored => exact h.setOwner
  | owned =>
    cases hm : luck.marked with
    | true =>
      simp only [Mm.advance,hm]
      exact h.marked
    | false =>
      simp only [Mm.advance,hm]
      exact h.unmarked
  | loaded => exact h.loaded
  | freeing => exact h.freeing
  | taken slot =>
    cases slot with
    | pool => exact h.clearPool
    | disk => exact h.clearDisk
  | uncharging ids =>
    cases ids with
    | nil => exact h.finish
    | cons => exact h.uncharge

lemma SwapInv.step {e : SwapEvent} (h : SwapInv cfg w) (hao : e.Alone cfg w)
    (hstep : SwapStep cfg w e w') : SwapInv cfg w' := by
  cases hstep with
  | evict id page => exact h.evict id page
  | swapIn _ _ _ hf => exact h.fetch hao hf
  | free => exact h.begin hao
  | run _ _ _ hw =>
    obtain ⟨s,flights,m⟩ := w
    subst hw
    exact h.advance hao

lemma SwapInv.start (cfg : SwapConfig) (dev : Nat → List UInt8) : SwapInv cfg (SwapWorld.start dev) := by
  refine ⟨fun slot => ⟨none,rfl,.inr ⟨rfl,rfl,rfl⟩⟩,fun _ _ => ⟨rfl,rfl⟩,
    fun _ _ _ h => absurd h (some_ne_none _).symm,?_,fun id hid => ?_⟩
  · simp [Counted,SwapWorld.start,SwapState.start]
  simp [SwapWorld.start,SwapState.start,pendingSum,owed_zero hid]

def SwapRun (cfg : SwapConfig) (dev : Nat → List UInt8)
    (ok : SwapWorld → SwapEvent → Prop) : SwapWorld → Prop :=
  Reach (· = SwapWorld.start dev) (guarded ok (SwapStep cfg))

lemma SwapRun.inv (h : SwapRun cfg dev (fun w e => e.Alone cfg w) w) : SwapInv cfg w := by
  refine Reach.invariant (fun w hw => ?_) (fun w e w' hw hstep => hw.step hstep.1 hstep.2) h
  rw [hw]
  exact SwapInv.start cfg dev

lemma encode_pool (h : idx < zswapSlotCompressed) : (Slot.pool idx).encode = idx + zswapSlotCompressed := by
  have hor := two_pow_add_eq_or_of_lt h 1
  rw [Nat.or_comm] at hor
  rw [add_comm]
  exact hor.symm

lemma decode_encode (h : cfg.valid slot) : Slot.decode slot.encode = slot := by
  cases slot with
  | pool idx =>
    have hlt : idx < zswapSlotCompressed := h.trans_le (cfg.pool_le.trans (by decide))
    have hand : (idx + zswapSlotCompressed) &&& zswapSlotCompressed ≠ 0 := by
      rw [add_comm,zswapSlotCompressed,and_two_pow,testBit_two_pow_add_eq, testBit_lt_two_pow hlt]
      decide
    rw [encode_pool hlt,Slot.decode,if_pos hand,Nat.add_sub_cancel]
  | disk idx =>
    have hand : idx &&& zswapSlotCompressed = 0 := by
      rw [zswapSlotCompressed,and_two_pow,testBit_lt_two_pow (h.trans cfg.slot_lt)]
      rfl
    rw [Slot.encode,Slot.decode,if_neg (not_not.mpr hand)]

structure SwapRefines (cfg : SwapConfig) (w : SwapWorld) : Prop where
  fetch : ∀ slot page id, w.map slot = some (page, id) →
    ∃ t, swapFetch cfg slot w.mem w.map = some (page.bytes, t)
  absent : ∀ slot, w.map slot = none → w.Quiet slot → swapFetch cfg slot w.mem w.map = none
  named : ∀ slot, w.map slot ≠ none → Slot.decode slot.encode = slot
  apart : ∀ i j, w.map (.disk i) ≠ none → w.map (.disk j) ≠ none → i ≠ j →
    cfg.lba i + sectorsPerPage ≤ cfg.lba j ∨ cfg.lba j + sectorsPerPage ≤ cfg.lba i
  fresh : ∀ slot, w.Quiet slot → w.mem.busy slot = false → w.map slot = none
  poolUsedN : w.mem.poolUsedN = ((poolSlots cfg).filter (fun k => w.mem.busy k = true)).card
  used : w.mem.used = ((diskSlots cfg).filter (fun k => w.mem.busy k = true)).card
  carried : ∀ slot, w.Quiet slot → w.mem.owner slot = (w.map slot).elim 0 snd
  charged : ∀ id, id ≠ 0 → w.mem.swapCur id =
    ((allSlots cfg).filter (fun k => w.mem.owner k = id)).card + pendingSum id w.flights

lemma Settled.inUse (h : Settled busy owner m) (hm : m ≠ none) : busy = true := by
  obtain ⟨hb,-⟩ | ⟨-,-,hnone⟩ := h
  · exact hb
  cases hm hnone

lemma Phase.inUse {o : Option Flight} (h : Phase o busy owner m) (hm : m ≠ none) :
    busy = true := by
  cases o with
  | none => exact Settled.inUse h hm
  | some f =>
    cases f with
    | charged | missed | uncharging => exact Settled.inUse h hm
    | claimed | stored | owned => exact h.1
    | loaded => cases hm h.2
    | freeing slot =>
      cases slot with
      | pool => exact Settled.inUse h hm
      | disk =>
        obtain h | h := h
        · exact Settled.inUse h hm
        exact h.1
    | taken slot =>
      cases slot with
      | pool => exact Settled.inUse h.2 hm
      | disk => exact h.1

lemma SwapInv.live_valid (h : SwapInv cfg w) (hm : w.map slot ≠ none) : cfg.valid slot := by
  obtain ⟨o,-,hph⟩ := h.slots slot
  exact h.busy_valid (hph.inUse hm)

lemma sum_toNat (s : Finset Slot) (busy : Slot → Bool) :
    ∑ k ∈ s, (busy k).toNat = (s.filter (fun k => busy k = true)).card := by
  rw [Finset.card_filter]
  refine Finset.sum_congr rfl fun k _ => ?_
  cases busy k <;> rfl

lemma SwapInv.fetch_live (h : SwapInv cfg w) (hm : w.map slot = some (page, id)) :
    ∃ t, swapFetch cfg slot w.mem w.map = some (page.bytes, t) := by
  have hne : w.map slot ≠ none := by simp [hm]
  obtain ⟨o,-,hph⟩ := h.slots slot
  have hbz := hph.inUse hne
  have hvl := h.live_valid hne
  have hda := h.data slot page id hm
  cases slot with
  | pool idx =>
    have hidx : ¬(cfg.poolCount ≤ idx ∨ w.mem.busy (.pool idx) = false) := by
      simp only [hbz,Bool.true_eq_false,or_false,not_le]
      exact hvl
    simp only [slotPage] at hda
    simp only [swapFetch,zswapPoolLoad,if_neg hidx,hda]
    exact ⟨_,rfl⟩
  | disk idx =>
    have hidx : ¬(cfg.slotCount ≤ idx ∨ w.mem.busy (.disk idx) = false) := by
      simp only [hbz,Bool.true_eq_false,or_false,not_le]
      exact hvl
    simp only [slotPage,some.injEq] at hda
    simp only [swapFetch,if_neg hidx,hda]
    exact ⟨_,rfl⟩

lemma SwapInv.fetch_dead (h : SwapInv cfg w) (hm : w.map slot = none) (hq : w.Quiet slot) :
    swapFetch cfg slot w.mem w.map = none := by
  have hbz : w.mem.busy slot = false := by
    rw [← Bool.not_eq_true]
    intro hb
    obtain ⟨page,hli⟩ := (h.slots.quiet hq).live hb
    cases hm.symm.trans hli
  cases slot with
  | pool => simp only [swapFetch,zswapPoolLoad,hbz,or_true,if_true]
  | disk => simp [swapFetch,hbz]

lemma SwapInv.refines (h : SwapInv cfg w) : SwapRefines cfg w where
  fetch _ _ _ hm := h.fetch_live hm
  absent _ hm hq := h.fetch_dead hm hq
  named _ hm := decode_encode (h.live_valid hm)
  apart i j _ _ hne := by
    simp only [SwapConfig.lba,sectorsPerPage_eq]
    omega
  fresh _ hq hb := ((h.slots.quiet hq).free hb).2
  poolUsedN := h.counted.1.trans (sum_toNat ..)
  used := h.counted.2.trans (sum_toNat ..)
  carried slot hq := by
    obtain ⟨-,page,hm⟩ | ⟨-,how,hm⟩ := h.slots.quiet hq
    · rw [hm]
      rfl
    rw [hm]
    exact how
  charged id hid := by
    rw [h.balanced id hid,Finset.card_filter]
    rfl

lemma SwapRefines.settled (h : SwapRefines cfg w) (hidle : w.flights = 0) (hid : id ≠ 0) :
    w.mem.swapCur id = ((allSlots cfg).filter (fun k => (w.map k).elim 0 snd = id)).card := by
  have hq : ∀ slot, w.Quiet slot := fun slot => by
    rw [SwapWorld.Quiet,hidle]
    rfl
  rw [h.charged id hid,hidle]
  simp only [h.carried _ (hq _)]
  rfl

def zeroPage : Page := ⟨List.replicate pageSize 0,List.length_replicate⟩

lemma zswapSize_zeroPage : 0 < zswapSize zeroPage ∧ (zswapSize zeroPage).toNat ≤ pageSize / 2 := by
  have hcap : (6 : Int) + (pageSize : Int) / 255 ≤ lz4CompressBound pageSize := by decide
  have h := lz4Compress_replicate 0 (by decide) (by decide) hcap
  have hhalf : pageSize / 2 = 2048 := by decide
  have hmin : (zswapMinBlob : Int) = 8 := rfl
  simp only [zswapSize,zeroPage,hmin]
  split <;> omega

def SwapState.storeZero (s : SwapState) : SwapState :=
  { s with
    pool := update s.pool 0 ⟨zswapBlob [] zeroPage,(zswapSize zeroPage).toNat⟩
    busy := update s.busy (.pool 0) true
    poolUsedN := s.poolUsedN + 1 }

lemma zswapPoolStore_zeroPage (hc : cfg.valid (.pool 0)) (hfe : s.busy (.pool 0) = false) :
    zswapPoolStore cfg (some []) zeroPage s = some (0, s.storeZero) := by
  have hfst : firstFreeEntry cfg s = some 0 := by
    obtain ⟨n,hn⟩ := exists_eq_succ_of_ne_zero hc.ne'
    rw [firstFreeEntry,hn]
    simp [hfe]
  have hsz := zswapSize_zeroPage
  simp only [zswapPoolStore,hfst]
  rw [if_neg (by omega)]
  rfl

def evictZero (cfg : SwapConfig) (id : Nat) (w : SwapWorld) : SwapWorld :=
  ⟨swapSetOwner cfg (.pool 0) id (cgroupSwapCharge id w.mem).storeZero,w.flights,
    update w.map (.pool 0) (some (zeroPage, id))⟩

def smooth : Luck := ⟨some [],true,fun _ => [],true⟩

lemma SwapRun.evictZero {ok : SwapWorld → SwapEvent → Prop} (h : SwapRun cfg dev ok w)
    (id : Nat) (hok : ∀ w e, e.Alone cfg w → ok w e) (hc : cfg.valid (.pool 0))
    (hfe : w.mem.busy (.pool 0) = false)
    (hpick : ok ⟨cgroupSwapCharge id w.mem,.charged id zeroPage ::ₘ w.flights,w.map⟩
      (.run (.charged id zeroPage) smooth)) : SwapRun cfg dev ok (evictZero cfg id w) := by
  have hbz : (cgroupSwapCharge id w.mem).busy = w.mem.busy := by
    rw [cgroupSwapCharge]
    split <;> rfl
  have hchg : SwapRun cfg dev ok _ :=
    h.next ⟨hok w (.evict id zeroPage) trivial,.evict w id zeroPage⟩
  have hstd : SwapRun cfg dev ok _ := hchg.next ⟨hpick,.run _ _ smooth _ rfl⟩
  simp only [Mm.advance,smooth,zswapPoolStore_zeroPage hc (by rw [hbz,hfe])] at hstd
  have hown : SwapRun cfg dev ok _ :=
    hstd.next ⟨hok _ (.run (.stored id (.pool 0)) smooth) trivial,.run _ _ smooth _ rfl⟩
  exact hown.next ⟨hok _ (.run (.owned (.pool 0)) smooth) trivial,.run _ _ smooth _ rfl⟩

def smallSwap : SwapConfig where
  poolCount := 64
  slotCount := 8
  startLba := 0
  sectorCount := 64
  pool_le := by decide
  slot_lt := by decide
  slot_fit := by decide

lemma zswapPoolLoad_storeZero (hc : cfg.valid (.pool 0)) (hbz : s.busy (.pool 0) = true)
    (hpool : s.pool 0 = ⟨zswapBlob [] zeroPage,(zswapSize zeroPage).toNat⟩) :
    zswapPoolLoad cfg 0 s = some (zeroPage.bytes, s.dropEntry 0) := by
  have hli : ¬(cfg.poolCount ≤ 0 ∨ s.busy (.pool 0) = false) := by
    rw [hbz]
    exact not_or.mpr ⟨hc.not_ge,Bool.true_eq_false.mp⟩
  rw [zswapPoolLoad,if_neg hli,hpool,entryPage_blob [] zswapSize_zeroPage.1]

end B1nix.Mm
