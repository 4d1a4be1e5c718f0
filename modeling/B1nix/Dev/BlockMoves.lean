import B1nix.Dev.BlockSteps

namespace B1nix.BlockCache

open Function List World Hold

variable {β : Type} {cfg : Config β} {q : Actor} {w w' w₁ w₂ w₃ : World β} {i : Nat} {k k' : Key}
  {stamp : Owner} {f : Flight β} {p : Prog β} {b : β}

def Lossless (w : World β) : Prop := ∀ τ, (w.hold τ).zero = none

def Owned (w : World β) : Prop :=
  ∀ i, (w.mem.slot i).busy = true → ∃ τ, i ∈ (w.hold τ).slots

structure Slot.Same (e e' : Slot β) : Prop where
  key : e'.key = e.key
  owner : e'.owner = e.owner
  dirty : e.dirty = true

def Frame (stamp : Owner) (w w' : World β) : Prop :=
  ∃ l, w'.dirtied = w.dirtied ++ l ∧
    (∀ k, (∀ d ∈ l, d.key ≠ k) → w'.mem.history k = w.mem.history k) ∧
    ∀ i, (w'.mem.slot i).dirty = true → (w.mem.slot i).Same (w'.mem.slot i) ∨
      (∃ d ∈ l, d.key = (w'.mem.slot i).key) ∧ (w'.mem.slot i).owner = stamp

lemma Frame.refl : Frame stamp w w :=
  ⟨[],(append_nil _).symm,fun _ _ => rfl,fun _ hi => .inl ⟨rfl,rfl,hi⟩⟩

lemma Frame.trans (h : Frame stamp w₁ w₂) (h' : Frame stamp w₂ w₃) : Frame stamp w₁ w₃ := by
  obtain ⟨l,hl,hhis,hdt⟩ := h
  obtain ⟨l',hl',hhistory',hdirty'⟩ := h'
  refine ⟨l ++ l',by rw [hl',hl,append_assoc],fun k hk => ?_,fun i hi => ?_⟩
  · rw [hhistory' k fun d hd => hk d (mem_append_right _ hd),
      hhis k fun d hd => hk d (mem_append_left _ hd)]
  obtain hsa | ⟨⟨d,hd,hkey⟩,how⟩ := hdirty' i hi
  · obtain hbf | ⟨⟨d,hd,hkey⟩,how⟩ := hdt i hsa.dirty
    · exact .inl ⟨hsa.key.trans hbf.key,hsa.owner.trans hbf.owner,hbf.dirty⟩
    exact .inr ⟨⟨d,mem_append_left _ hd,hkey.trans hsa.key.symm⟩,hsa.owner.trans how⟩
  exact .inr ⟨⟨d,mem_append_right _ hd,hkey⟩,how⟩

section

variable (hdd : w'.dirtied = w.dirtied) (hhis : w'.mem.history = w.mem.history)

include hdd hhis

lemma Frame.kept (hdt : ∀ i, (w'.mem.slot i).dirty = true → (w.mem.slot i).Same (w'.mem.slot i)) :
    Frame stamp w w' :=
  ⟨[],by rw [hdd,append_nil],fun _ _ => by rw [hhis],
    fun i hi => .inl (hdt i hi)⟩

lemma Frame.slots (hslot : ∀ i, (w'.mem.slot i).dirty = true → w'.mem.slot i = w.mem.slot i) :
    Frame stamp w w' := by
  refine .kept hdd hhis fun i hi => ?_
  have hsa := hslot i hi
  rw [hsa] at hi ⊢
  exact ⟨rfl,rfl,hi⟩

end

variable {m : Cache β} {n j : Nat} {x : Hold β} {y : Scope} {file : Option Owner}

lemma Frame.write (hhis : m.history = w.mem.history)
    (hkey : (m.slot i).key = k) (hot : ∀ j, j ≠ i → m.slot j = w.mem.slot j) :
    Frame stamp w
      { w with mem := dirtyBlock stamp k b i m, dirtied := w.dirtied ++ [⟨k,n,file⟩] } := by
  refine ⟨_,rfl,fun k' hk' => ?_,fun j hj => ?_⟩
  · have hne : k' ≠ k := fun heq => hk' _ (mem_singleton_self _) heq.symm
    change update m.history k _ k' = _
    rw [update_of_ne hne,hhis]
  obtain rfl | hji := eq_or_ne j i
  · have hown : (dirtyBlock stamp k b j m).slot j =
        { m.slot j with data := b, dirty := true, owner := stamp } := update_self ..
    rw [hown]
    exact .inr ⟨⟨_,mem_singleton_self _,hkey.symm⟩,rfl⟩
  have hslot : (dirtyBlock stamp k b i m).slot j = w.mem.slot j :=
    (update_of_ne hji ..).trans (hot j hji)
  rw [hslot] at hj ⊢
  exact .inl ⟨rfl,rfl,hj⟩

lemma edit_busy (f : Slot β → Slot β) (hf : ∀ e : Slot β, (f e).busy = e.busy) :
    ((m.edit i f).slot j).busy = (m.slot j).busy := by
  by_cases hji : j = i
  · rw [hji,edit_self,hf]
  rw [edit_of_ne hji]

lemma edit_same (f : Slot β → Slot β)
    (hf : ∀ e : Slot β, (f e).key = e.key ∧ (f e).owner = e.owner ∧ (f e).dirty = e.dirty)
    (hj : ((m.edit i f).slot j).dirty = true) : (m.slot j).Same ((m.edit i f).slot j) := by
  obtain rfl | hji := eq_or_ne j i
  · rw [edit_self] at hj ⊢
    obtain ⟨hkey,how,hdt⟩ := hf (m.slot j)
    exact ⟨hkey,how,hdt ▸ hj⟩
  rw [edit_of_ne hji] at hj ⊢
  exact ⟨rfl,rfl,hj⟩

lemma Move.frame (hw : Lossless w) (hm : Move cfg q w w') : Frame q.stamp w w' := by
  cases hm with
  | tick _ slot _ _ history =>
    exact .slots rfl history fun i _ => congrFun slot i
  | vacate _ _ empty _ dirty =>
    exact .slots rfl (by simp [BlockCache.vacate]) fun j hj => (vacate_flag empty.dirty hj).2
  | claimFill | publishAhead =>
    refine .slots rfl rfl fun j hj => occupy_of_ne ?_
    rintro rfl
    change ((occupy cfg j _ w.mem).slot j).dirty = true at hj
    rw [occupy_self] at hj
    cases hj
  | readFill _ _ b =>
    exact .kept rfl rfl fun j hj =>
      edit_same (fun e => { e with data := b }) (fun _ => ⟨rfl,rfl,rfl⟩) hj
  | publishFill p =>
    have hne : ∀ j, ((BlockCache.publishFill p.slot w.mem).slot j).dirty = true → j ≠ p.slot := by
      rintro j hj rfl
      rw [BlockCache.publishFill,edit_self] at hj
      cases hj
    exact .slots rfl rfl fun j hj => update_of_ne (hne j hj) ..
  | write _ _ _ _ _ key => exact .write rfl key fun _ _ => rfl
  | writeNew =>
    refine .write rfl (by rw [install_self]) fun j hj => ?_
    exact occupy_of_ne hj
  | fly f =>
    refine .kept rfl rfl fun j hj => ?_
    change ((w.mem.claim f.slots).slot j).dirty = true at hj
    change (w.mem.slot j).Same ((w.mem.claim f.slots).slot j)
    rw [claim_slot] at hj ⊢
    exact ⟨rfl,rfl,hj⟩
  | collect i _ dirty =>
    refine .kept rfl rfl fun j hj => ?_
    change ((w.mem.claim [i]).slot j).dirty = true at hj
    change (w.mem.slot j).Same ((w.mem.claim [i]).slot j)
    rw [claim_slot] at hj ⊢
    exact ⟨rfl,rfl,hj⟩
  | finish f =>
    refine .kept rfl rfl fun j hj => ?_
    change ((w.mem.release f.slots).slot j).dirty = true at hj
    change (w.mem.slot j).Same ((w.mem.release f.slots).slot j)
    rw [release_slot] at hj ⊢
    exact ⟨rfl,rfl,(Bool.and_eq_true _ _ ▸ hj).1⟩
  | landZero _ _ _ zero =>
    rw [hw] at zero
    cases zero
  | _ => exact .slots rfl rfl fun _ _ => rfl

lemma Lossless.put (hw : Lossless w) (hx : x.zero = none) : Lossless (w.put q.task m x) :=
  put_all (p := fun x => x.zero = none) hx fun σ _ => hw σ

lemma Move.lossless (hw : Lossless w) (hq : q.lossless) (hm : Move cfg q w w') : Lossless w' := by
  have hse := hw q.task
  cases hm with
  | tick | vacate | hit | write | writeNew => exact hw
  | startZero _ _ lossy => cases lossy hq
  | passZero _ _ _ zero =>
    rw [hse] at zero
    cases zero
  | synced => exact hw.put (m := w.mem) hse
  | forget x weaker => exact hw.put (weaker.zero.trans hse)
  | landZero => exact hw.put rfl
  | _ => exact hw.put hse

lemma Move.hold_other (hm : Move cfg q w w') {σ : Nat} (hσ : σ ≠ q.task) : w'.hold σ = w.hold σ := by
  cases hm with
  | tick | vacate | hit | write | writeNew => rfl
  | _ => exact update_of_ne hσ _ _

lemma Hold.mem_landed (hfl : x.flight = some f) (hi : i ∈ x.slots) (hout : i ∉ f.slots) :
    i ∈ ({ x with flight := none, anchor := none } : Hold β).slots := by
  rw [mem_slots,hfl] at hi
  rw [mem_slots]
  obtain hfill | ⟨g,hg,hin⟩ | hset := hi
  · exact .inl hfill
  · cases hg
    cases hout hin
  exact .inr (.inr hset)

lemma Move.slots (hm : Move cfg q w w') (hi : i ∈ (w.hold q.task).slots)
    (hus : (w'.mem.slot i).busy = true ∨ (w'.mem.slot i).dirty = true) : i ∈ (w'.hold q.task).slots := by
  cases hm with
  | claimFill _ _ _ _ fill flight set =>
    rw [mem_slots,fill,flight,set] at hi
    simp at hi
  | readFill _ _ _ _ fill =>
    rw [put_hold]
    rw [slots,fill] at hi
    exact hi
  | publishFill p fill flight set =>
    rw [mem_slots,fill,flight,set] at hi
    rcases hi with ⟨g,hg,rfl⟩ | ⟨g,hg,-⟩ | hset
    · cases hg
      change ((BlockCache.publishFill p.slot w.mem).slot p.slot).busy = true ∨
        ((BlockCache.publishFill p.slot w.mem).slot p.slot).dirty = true at hus
      rw [BlockCache.publishFill,edit_self] at hus
      simp at hus
    · cases hg
    cases hset
  | fly _ _ _ flight =>
    rw [put_hold]
    rw [mem_slots,flight] at hi
    rw [mem_slots]
    rcases hi with hfill | ⟨g,hg,-⟩ | hset
    · exact .inl hfill
    · cases hg
    exact .inr (.inr hset)
  | collect =>
    rw [put_hold]
    rw [mem_slots] at hi ⊢
    exact hi.imp_right fun hi => hi.imp_right (mem_append_left _)
  | dispatch f _ _ flight set =>
    rw [put_hold]
    rw [mem_slots,flight] at hi
    rw [mem_slots]
    rcases hi with hfill | ⟨g,hg,-⟩ | hset
    · exact .inl hfill
    · cases hg
    rcases mem_append.mp (set.mem_iff.mp hset) with hf | hrs
    · exact .inr (.inl ⟨f,rfl,hf⟩)
    exact .inr (.inr hrs)
  | land _ flight =>
    rw [put_hold]
    rw [slots,flight] at hi
    exact hi
  | finish f flight =>
    change ((w.mem.release f.slots).slot i).busy = true ∨
      ((w.mem.release f.slots).slot i).dirty = true at hus
    rw [release_slot] at hus
    simp only [Bool.and_eq_true,decide_eq_true_eq] at hus
    have hout : i ∉ f.slots := by
      rcases hus with hbz | hdt
      · exact hbz.2
      exact hdt.2
    rw [put_hold]
    exact mem_landed flight hi hout
  | forget x weaker =>
    rw [put_hold]
    rw [mem_slots] at hi ⊢
    rw [weaker.fill,weaker.flight]
    exact hi.imp_right fun hi => hi.imp_right weaker.set.mem_iff.mpr
  | tick | vacate | hit | write | writeNew => exact hi
  | synced _ _ _ _ slots =>
    change i ∈ (update w.hold q.task _ q.task).slots
    rw [update_self]
    exact hi
  | _ =>
    rw [put_hold]
    exact hi

lemma Move.busy (hm : Move cfg q w w') (hi : (w'.mem.slot i).busy = true) :
    (w.mem.slot i).busy = true ∨ i ∈ (w'.hold q.task).slots := by
  cases hm with
  | tick _ slot =>
    rw [← slot]
    exact .inl hi
  | vacate j _ empty busy =>
    left
    obtain rfl | hij := eq_or_ne i j
    · rw [vacate_self,empty.busy] at hi
      cases hi
    rwa [vacate_of_ne hij] at hi
  | claimFill j =>
    change ((occupy cfg j _ w.mem).slot i).busy = true at hi
    by_cases hij : i = j
    · right
      rw [put_hold]
      exact mem_slots.mpr (.inl ⟨_,rfl,hij.symm⟩)
    left
    rwa [occupy_of_ne hij] at hi
  | readFill _ _ b =>
    exact .inl ((edit_busy (fun e => { e with data := b }) fun _ => rfl).symm.trans hi)
  | publishFill p =>
    left
    change ((BlockCache.publishFill p.slot w.mem).slot i).busy = true at hi
    by_cases hij : i = p.slot
    · rw [hij,BlockCache.publishFill,edit_self] at hi
      cases hi
    rwa [BlockCache.publishFill,edit_of_ne hij] at hi
  | publishAhead j =>
    left
    change ((occupy cfg j _ w.mem).slot i).busy = true at hi
    obtain rfl | hij := eq_or_ne i j
    · rw [occupy_self] at hi
      cases hi
    rwa [occupy_of_ne hij] at hi
  | write _ _ b =>
    exact .inl ((edit_busy (fun e => { e with data := b, dirty := true, owner := q.stamp })
      fun _ => rfl).symm.trans hi)
  | writeNew j k b =>
    left
    have hinst : ((install cfg j k w.mem).slot i).busy = true :=
      (edit_busy (fun e => { e with data := b, dirty := true, owner := q.stamp }) fun _ => rfl).symm.trans hi
    by_cases hij : i = j
    · rw [hij,install_self] at hinst
      cases hinst
    rwa [install_eq,occupy_of_ne hij] at hinst
  | fly f _ _ _ _ _ _ busy =>
    change ((w.mem.claim f.slots).slot i).busy = true at hi
    rw [claim_slot] at hi
    simp only [Bool.or_eq_true,decide_eq_true_eq] at hi
    refine hi.imp_right fun hin => ?_
    rw [put_hold]
    exact flight_mem rfl hin
  | collect j _ _ busy =>
    change ((w.mem.claim [j]).slot i).busy = true at hi
    rw [claim_slot] at hi
    simp only [Bool.or_eq_true,decide_eq_true_eq] at hi
    refine hi.imp_right fun hin => ?_
    rw [put_hold]
    exact set_mem (mem_append_right _ hin)
  | finish f =>
    left
    change ((w.mem.release f.slots).slot i).busy = true at hi
    rw [release_slot] at hi
    exact (Bool.and_eq_true _ _ ▸ hi).1
  | _ => exact .inl hi

lemma Move.owned (hw : Owned w) (hm : Move cfg q w w') : Owned w' := by
  intro i hi
  obtain hbz | hmi := hm.busy hi
  · obtain ⟨τ,hτ⟩ := hw i hbz
    obtain rfl | hq := eq_or_ne τ q.task
    · exact ⟨_,hm.slots hτ (.inl hi)⟩
    refine ⟨τ,?_⟩
    rw [hm.hold_other hq]
    exact hτ
  exact ⟨_,hmi⟩

def Combed (w : World β) (τ : Nat) : Prop :=
  ∀ y, (w.hold τ).sweep = some y → y.scope ≠ .drainAll false →
    ∀ j < y.base, y.scope.wants (w.mem.slot j) = true → j ∉ (w.hold τ).slots → y.seen = true

def Cleaned (w : World β) (n : Nat) : Prop :=
  ∀ r ∈ w.synced.drop n, ∀ j, r.1.wants (w.mem.slot j) = false

lemma Scope.wants_congr {e e' : Slot β} (hkey : e'.key = e.key) (how : e'.owner = e.owner)
    (hvl : e.valid = true) (hdt : e.dirty = true) (hw : y.wants e' = true) : y.wants e = true := by
  cases y with
  | drainAll => simp [Scope.wants,hvl,hdt]
  | matching =>
    simp only [Scope.wants,hkey,how,Bool.and_eq_true] at hw
    simp only [Scope.wants,hvl,hdt,Bool.and_eq_true,Bool.true_and,Bool.and_true]
    exact ⟨hw.1.1.2,hw.2⟩

lemma Frame.same (h : Frame stamp w w') (hsa : w'.dirtied = w.dirtied)
    (hi : (w'.mem.slot i).dirty = true) : (w.mem.slot i).Same (w'.mem.slot i) := by
  obtain ⟨l,hl,-,hdt⟩ := h
  have hnil : l = [] := by
    rw [hsa] at hl
    exact self_eq_append_right.mp hl
  obtain hke | ⟨⟨d,hd,-⟩,-⟩ := hdt i hi
  · exact hke
  rw [hnil] at hd
  cases hd

lemma Frame.wants (h : Frame stamp w w') (hinv : Inv cfg w) (hsa : w'.dirtied = w.dirtied)
    (hi : y.wants (w'.mem.slot i) = true) : y.wants (w.mem.slot i) = true := by
  have hke := h.same hsa (Scope.wants_dirty hi).2
  exact Scope.wants_congr hke.key hke.owner (hinv.shape.dirty i hke.dirty) hke.dirty hi

lemma Move.combed (h : Inv cfg w) (hl : Lossless w) (hq : q.durable) (hm : Move cfg q w w')
    (hsa : w'.dirtied = w.dirtied) (hc : Combed w q.task) : Combed w' q.task := by
  have hke : (w'.hold q.task).sweep = none ∨ (w'.hold q.task).sweep = (w.hold q.task).sweep →
      Combed w' q.task := by
    intro hsw y hy hsc j hj hwn hout
    obtain hnone | hsw := hsw
    · rw [hnone] at hy
      cases hy
    refine hc y (hsw ▸ hy) hsc j hj ((hm.frame hl).wants h hsa hwn) fun hin => hout ?_
    exact hm.slots hin (.inr (Scope.wants_dirty hwn).2)
  have hput : ∀ {m : Cache β} {x : Hold β}, ((w.put q.task m x).hold q.task).sweep = x.sweep :=
    congrArg sweep put_hold
  cases hm with
  | tick | vacate | hit | write | writeNew => exact hke (.inr rfl)
  | startSweep =>
    intro y hy _ j hj
    cases hput.symm.trans hy
    cases not_lt_zero hj
  | restart y =>
    intro y hy _ j hj
    cases hput.symm.trans hy
    cases not_lt_zero hj
  | pass y _ sweep kept passed =>
    intro z hz hsc j hj hwn hout
    cases hput.symm.trans hz
    rw [put_hold] at hout
    obtain hlt | rfl := Nat.lt_succ_iff_lt_or_eq.mp hj
    · exact kept (hc y sweep hsc j hlt hwn hout)
    obtain hsn | hno | hin | hfst := passed hq
    · exact hsn
    · cases hno.symm.trans hwn
    · cases hout hin
    cases hsc hfst
  | synced => exact hke (.inl (hput (m := w.mem)))
  | forget x weaker =>
    refine hke (weaker.sweep.imp hput.trans hput.trans)
  | _ => exact hke (.inr hput)

lemma Move.cleaned (h : Inv cfg w) (hl : Lossless w) (hm : Move cfg q w w')
    (hsa : w'.dirtied = w.dirtied) (hc : Combed w q.task) (hn : Cleaned w n) : Cleaned w' n := by
  have hke : ∀ r ∈ w.synced.drop n, ∀ j, r.1.wants (w'.mem.slot j) = false := by
    intro r hr j
    rw [← Bool.not_eq_true]
    intro hwn
    have hbf := (hm.frame hl).wants h hsa hwn
    rw [hn r hr j] at hbf
    cases hbf
  cases hm with
  | synced y sweep passed seen slots scope =>
    intro r hr j
    rw [drop_append] at hr
    obtain hold | hnew := mem_append.mp hr
    · exact hke r hold j
    obtain rfl := mem_singleton.mp (mem_of_mem_drop hnew)
    rw [← Bool.not_eq_true]
    intro hwn
    have hbd := h.shape.bound j (h.shape.hashed (Scope.wants_dirty hwn).1)
    have hag := hc y sweep scope j (hbd.trans_le passed) hwn (by rw [slots]; simp)
    cases seen.symm.trans hag
  | _ => exact hke

structure Calm (cfg : Config β) (w : World β) : Prop where
  inv : Inv cfg w
  lossless : Lossless w
  owned : Owned w

lemma Calm.move (h : Calm cfg w) (hq : q.lossless) (hm : Move cfg q w w') : Calm cfg w' :=
  ⟨h.inv.move hm,hm.lossless h.lossless hq,hm.owned h.owned⟩

lemma Calm.moves (h : Calm cfg w) (hq : q.lossless) (hm : Moves cfg q w w') :
    Calm cfg w' ∧ Frame q.stamp w w' := by
  induction hm with
  | refl => exact ⟨h,.refl⟩
  | tail _ hm ih => exact ⟨ih.1.move hq hm,ih.2.trans (hm.frame ih.1.lossless)⟩

lemma Frame.dirtied_le (h : Frame stamp w w') : w.dirtied.length ≤ w'.dirtied.length := by
  obtain ⟨l,hl,-⟩ := h
  rw [hl,length_append]
  exact le_self_add

lemma Frame.dirtied_eq (h : Frame stamp w w') (hle : w'.dirtied.length ≤ w.dirtied.length) :
    w'.dirtied = w.dirtied := by
  obtain ⟨l,hl,-⟩ := h
  rw [hl,length_append] at hle
  rw [hl,length_eq_zero_iff.mp (by omega : l.length = 0),append_nil]

lemma Calm.combed (h : Calm cfg w) (hq : q.lossless) (hd : q.durable) (hm : Moves cfg q w w')
    (hsa : w'.dirtied = w.dirtied) (hc : Combed w q.task) (hn : Cleaned w n) : Combed w' q.task ∧ Cleaned w' n := by
  induction hm with
  | refl => exact ⟨hc,hn⟩
  | @tail w₂ w₃ hhd hm ih =>
    obtain ⟨hcm,hfm⟩ := h.moves hq hhd
    have hla := hm.frame hcm.lossless
    have hfst : w₂.dirtied = w.dirtied := hfm.dirtied_eq (hsa ▸ hla.dirtied_le)
    have hstep : w₃.dirtied = w₂.dirtied := hsa.trans hfst.symm
    obtain ⟨hc₂,hn₂⟩ := ih hfst
    exact ⟨hm.combed hcm.inv hcm.lossless hd hstep hc₂, hm.cleaned hcm.inv hcm.lossless hstep hc₂ hn₂⟩

open B1nix.Transition

def Scope.asks (y : Scope) (d : Dirtied) : Prop :=
  match y with
  | .matching a o => a.has d.key = true ∧ (o.ino = 0 ∨ d.file = some o)
  | .drainAll _ => True

structure Swept (m : Cache β) (l : List Dirtied) (slots : List Nat) (y : Progress) : Prop where
  upto : y.upto ≤ l.length
  passed : y.scope ≠ .drainAll false → ∀ i < y.base, (m.slot i).dirty = true → i ∉ slots →
    y.seen = true ∨ ∀ d ∈ l.take y.upto, d.key = (m.slot i).key → y.scope.asks d → Durable m d

structure Flushed (w : World β) : Prop where
  lossless : ∀ τ, (w.hold τ).zero = none
  version : ∀ d ∈ w.dirtied, d.version ≤ (w.mem.history d.key).top
  stamped : ∀ i, (w.mem.slot i).dirty = true → ∀ d ∈ w.dirtied, d.key = (w.mem.slot i).key →
    ¬Durable w.mem d → (w.mem.slot i).owner.covers d.file
  swept : ∀ τ y, (w.hold τ).sweep = some y → Swept w.mem w.dirtied (w.hold τ).slots y
  synced : ∀ r ∈ w.synced, r.2 ≤ w.dirtied.length ∧
    ∀ d ∈ w.dirtied.take r.2, r.1.asks d → Durable w.mem d

variable {m' : Cache β} {s : State β} {τ : Nat} {y : Progress} {l l' : List Dirtied}
  {slots slots' : List Nat} {d : Dirtied}

lemma Swept.congr (h : Swept m l slots y) (hdur : ∀ d ∈ l, Durable m d → Durable m' d)
    (hslot : ∀ i, (m'.slot i).dirty = true →
      (m.slot i).dirty = true ∧ (m'.slot i).key = (m.slot i).key ∨
        ∀ d ∈ l, d.key = (m'.slot i).key → Durable m' d)
    (hsl : ∀ i ∈ slots, (m'.slot i).dirty = true → i ∈ slots') : Swept m' l slots' y := by
  refine ⟨h.upto,fun hsc i hi hd hout => ?_⟩
  obtain ⟨hold,hkey⟩ | hall := hslot i hd
  · obtain hsn | hsf := h.passed hsc i hi hold fun hin => hout (hsl i hin hd)
    · exact .inl hsn
    refine .inr fun d hmem hdk has => hdur d (mem_of_mem_take hmem) ?_
    exact hsf d hmem (hdk.trans hkey) has
  exact .inr fun d hmem hdk _ => hall d (mem_of_mem_take hmem) hdk

lemma Swept.append (h : Swept m l slots y) : Swept m (l ++ l') slots y := by
  refine ⟨?_,fun hsc i hi hd hout => ?_⟩
  · rw [length_append]
    exact h.upto.trans le_self_add
  rw [take_append_of_le_length h.upto]
  exact h.passed hsc i hi hd hout

lemma durable_of_newest (hver : d.version ≤ (m.history d.key).top)
    (hmed : m.medium d.key = (m.history d.key).newest) : Durable m d := by
  rw [Durable,hmed]
  exact .newest hver

lemma Durable.congr (h : Durable m d) (hmed : m'.medium = m.medium)
    (hhis : m'.history = m.history) : Durable m' d := by
  rw [Durable,hmed,hhis]
  exact h

section

variable (hw : Flushed w)

include hw

lemma Flushed.settled (h : Inv cfg w) (hd : d ∈ w.dirtied)
    (hcl : ∀ i, (w.mem.slot i).dirty = true → (w.mem.slot i).key ≠ d.key) : Durable w.mem d := by
  refine durable_of_newest (hw.version d hd) (h.bytes.settled d.key hcl ?_)
  rintro ⟨σ,hσ⟩
  rw [Hold.zeroes,hw.lossless σ] at hσ
  cases hσ

lemma Flushed.moved (hm : Move cfg q w w') (hkp : q.lossless)
    (hdd : w'.dirtied = w.dirtied) (hhis : w'.mem.history = w.mem.history)
    (hdurable : ∀ d ∈ w.dirtied, Durable w.mem d → Durable w'.mem d)
    (hsw : ∀ y, (w'.hold q.task).sweep = some y → (w.hold q.task).sweep = some y ∨
      Swept w'.mem w.dirtied (w'.hold q.task).slots y)
    (hsy : ∀ r ∈ w'.synced, r ∈ w.synced ∨ r.2 ≤ w.dirtied.length ∧
      ∀ d ∈ w.dirtied.take r.2, r.1.asks d → Durable w'.mem d) : Flushed w' := by
  have hsa : ∀ i, (w'.mem.slot i).dirty = true → (w.mem.slot i).Same (w'.mem.slot i) :=
    fun i => (hm.frame hw.lossless).same hdd
  have hslot : ∀ i, (w'.mem.slot i).dirty = true → (w.mem.slot i).dirty = true ∧
      (w'.mem.slot i).key = (w.mem.slot i).key := fun i hi => ⟨(hsa i hi).dirty,(hsa i hi).key⟩
  refine ⟨hm.lossless hw.lossless hkp,?_,?_,?_,?_⟩ <;> rw [hdd]
  · rw [hhis]
    exact hw.version
  · intro i hi d hd hkey hno
    rw [(hsa i hi).owner]
    exact hw.stamped i (hslot i hi).1 d hd (hkey.trans (hslot i hi).2) fun hdur =>
      hno (hdurable d hd hdur)
  · intro σ y hy
    obtain rfl | hσ := eq_or_ne σ q.task
    · obtain hold | hnew := hsw y hy
      · exact (hw.swept _ y hold).congr hdurable (fun i hi => .inl (hslot i hi)) fun i hi hd =>
          hm.slots hi (.inr hd)
      exact hnew
    rw [hm.hold_other hσ] at hy ⊢
    exact (hw.swept σ y hy).congr hdurable (fun i hi => .inl (hslot i hi)) fun i hi _ => hi
  intro r hr
  obtain hold | hnew := hsy r hr
  · obtain ⟨hle,hall⟩ := hw.synced r hold
    exact ⟨hle,fun d hd has => hdurable d (mem_of_mem_take hd) (hall d hd has)⟩
  exact hnew

lemma Flushed.land (h : Inv cfg w) (hf : (w.hold τ).flight = some f)
    (hd : d ∈ w.dirtied) (hdur : Durable w.mem d) : Durable (blkDevWrite f w.mem) d := by
  have hfw := (h.holds τ).flight f hf
  by_cases hin : ∃ i ∈ f.slots, (w.mem.slot i).key = d.key
  · obtain ⟨i,hi,hkey⟩ := hin
    refine durable_of_newest (hw.version d hd) ?_
    rw [← hkey,hfw.devWrite_self hi]
    exact h.bytes.newest i (hfw.mem_slot hi).2
  rw [Durable,hfw.devWrite_of_ne fun i hi hkey => hin ⟨i,hi,hkey⟩]
  exact hdur

omit hw in
lemma wants_of_asks {y : Scope} {e : Slot β} (hvl : e.valid = true) (hdt : e.dirty = true)
    (hkey : d.key = e.key) (has : y.asks d) (hcvs : e.owner.covers d.file) : y.wants e = true := by
  cases y with
  | drainAll => simp [Scope.wants,hvl,hdt]
  | matching a o =>
    obtain ⟨hin,hfile⟩ := has
    rw [hkey] at hin
    have how : o.ino = 0 ∨ e.owner.ino = 0 ∨ e.owner = o := by
      obtain hall | hfile := hfile
      · exact .inl hall
      obtain hnone | hsa := hcvs
      · exact .inr (.inl hnone)
      exact .inr (.inr (hsa o hfile).symm)
    rw [← or_assoc] at how
    simpa [Scope.wants,hvl,hdt,hin] using how

lemma Flushed.pass {seen : Bool} (h : Inv cfg w)
    (hsw : (w.hold τ).sweep = some y) (hke : y.seen = true → seen = true)
    (hps : seen = true ∨ y.scope.wants (w.mem.slot y.base) = false ∨
      y.base ∈ (w.hold τ).slots ∨ y.scope = .drainAll false) :
    Swept w.mem w.dirtied (w.hold τ).slots { y with base := y.base + 1, seen } := by
  have hy := hw.swept τ y hsw
  refine ⟨hy.upto,fun hsc i hi hd hout => ?_⟩
  obtain hlt | rfl := Nat.lt_succ_iff_lt_or_eq.mp hi
  · exact (hy.passed hsc i hlt hd hout).imp_left hke
  obtain hsn | hwn | hin | hfst := hps
  · exact .inl hsn
  · refine .inr fun d hmem hkey has => ?_
    have hmem' := mem_of_mem_take hmem
    by_contra hno
    have hcvs := hw.stamped _ hd d hmem' hkey hno
    rw [wants_of_asks (h.shape.dirty _ hd) hd hkey has hcvs] at hwn
    cases hwn
  · cases hout hin
  cases hsc hfst

lemma Flushed.done (h : Inv cfg w) (hsw : (w.hold τ).sweep = some y)
    (hps : cfg.entries ≤ y.base) (hsn : y.seen = false) (hsl : (w.hold τ).slots = [])
    (hsc : y.scope ≠ .drainAll false) (hd : d ∈ w.dirtied.take y.upto) (has : y.scope.asks d) :
    Durable w.mem d := by
  by_cases hdt : ∃ i, (w.mem.slot i).dirty = true ∧ (w.mem.slot i).key = d.key
  · obtain ⟨i,hi,hkey⟩ := hdt
    have hbd := h.shape.bound i (h.shape.hashed (h.shape.dirty i hi))
    have hout : i ∉ (w.hold τ).slots := by
      rw [hsl]
      exact not_mem_nil
    rcases (hw.swept τ y hsw).passed hsc i (hbd.trans_le hps) hi hout with
      hag | hsf
    · rw [hsn] at hag
      cases hag
    exact hsf d hd hkey.symm has
  exact hw.settled h (mem_of_mem_take hd) fun i hi hkey => hdt ⟨i,hi,hkey⟩

omit hw in
lemma Durable.write {stamp : Owner} (h : Durable m d) : Durable (dirtyBlock stamp k b i m) d := by
  by_cases hk : d.key = k
  · have hpu : (dirtyBlock stamp k b i m).history d.key = (m.history d.key).push b := by
      rw [hk]
      exact update_self ..
    rw [Durable,hpu]
    exact Versions.Since.push h
  have hsa : (dirtyBlock stamp k b i m).history d.key = m.history d.key := update_of_ne hk ..
  rw [Durable,hsa]
  exact h

omit hw in
lemma dirtyBlock_top {stamp : Owner} :
    (m.history k').top ≤ ((dirtyBlock stamp k b i m).history k').top := by
  change _ ≤ (update m.history k ((m.history k).push b) k').top
  obtain rfl | hk := eq_or_ne k' k
  · rw [update_self]
    exact Nat.le_succ _
  rw [update_of_ne hk]

lemma Flushed.write {stamp : Owner}
    (h : Inv cfg w) (hhis : m.history = w.mem.history) (hmed : m.medium = w.mem.medium)
    (hkey : (m.slot i).key = k) (hot : ∀ j, j ≠ i → m.slot j = w.mem.slot j)
    (hslot : ∀ j, (w.mem.slot j).dirty = true → ((w.mem.slot j).key = k ↔ j = i))
    (howned : Stamping w stamp file k) :
    Flushed { w with
      mem := dirtyBlock stamp k b i m
      dirtied := w.dirtied ++ [⟨k,(w.mem.history k).top + 1,file⟩] } := by
  have hown : (dirtyBlock stamp k b i m).slot i =
      { m.slot i with data := b, dirty := true, owner := stamp } := update_self ..
  have hke : ∀ j, j ≠ i → (dirtyBlock stamp k b i m).slot j = w.mem.slot j :=
    fun j hj => (update_of_ne hj ..).trans (hot j hj)
  have hdurable : ∀ {d}, Durable w.mem d → Durable (dirtyBlock stamp k b i m) d :=
    fun hd => (hd.congr hmed hhis).write
  refine ⟨hw.lossless,fun d hd => ?_,fun j hj d hd hdk hno => ?_,fun σ y hy => ?_,fun r hr => ?_⟩
  · obtain hold | hnew := mem_append.mp hd
    · have hle := hw.version d hold
      rw [← hhis] at hle
      exact hle.trans dirtyBlock_top
    rw [mem_singleton] at hnew
    subst hnew
    change _ ≤ (update m.history k ((m.history k).push b) k).top
    rw [update_self,Versions.top_push,hhis]
  · obtain rfl | hji := eq_or_ne j i
    · rw [hown] at hdk ⊢
      obtain hold | hnew := mem_append.mp hd
      · exact howned.2 d hold (hdk.trans hkey) fun hdur => hno (hdurable hdur)
      rw [mem_singleton] at hnew
      subst hnew
      exact howned.1
    rw [hke j hji] at hj hdk ⊢
    obtain hold | hnew := mem_append.mp hd
    · exact hw.stamped j hj d hold hdk fun hdur => hno (hdurable hdur)
    rw [mem_singleton] at hnew
    subst hnew
    cases hji ((hslot j hj).mp hdk.symm)
  · refine ((hw.swept σ y hy).congr (fun d _ => hdurable) (fun j hj => ?_) fun j hj _ => hj).append
    obtain rfl | hji := eq_or_ne j i
    · rw [hown]
      by_cases hdt : (w.mem.slot j).dirty = true
      · exact .inl ⟨hdt,hkey.trans ((hslot j hdt).mpr rfl).symm⟩
      refine .inr fun d hd hdk => hdurable (hw.settled h hd fun n hn hnk => hdt ?_)
      rwa [(hslot n hn).mp (hnk.trans (hdk.trans hkey))] at hn
    left
    rw [hke j hji] at hj ⊢
    exact ⟨hj,rfl⟩
  obtain ⟨hle,hall⟩ := hw.synced r hr
  refine ⟨?_,fun d hd has => ?_⟩
  · rw [length_append]
    exact hle.trans le_self_add
  rw [take_append_of_le_length hle] at hd
  exact hdurable (hall d hd has)

lemma Flushed.move (h : Inv cfg w) (hq : q.durable) (hkp : q.lossless)
    (hm : Move cfg q w w') : Flushed w' := by
  have hmv := hw.moved hm hkp
  cases hm with
  | tick _ _ _ medium history =>
    exact hmv rfl history (fun d _ hd => hd.congr medium history) (fun _ => .inl) fun _ => .inl
  | vacate =>
    exact hmv rfl hashRemove_history (fun d _ hd => hd.congr hashRemove_medium hashRemove_history)
      (fun _ => .inl) fun _ => .inl
  | hit =>
    exact hmv rfl rfl (fun _ _ hd => hd) (fun _ => .inl) fun _ => .inl
  | write i _ _ valid _ key owned =>
    refine hw.write h rfl rfl key (fun _ _ => rfl) (fun j hj => ⟨fun hjk => ?_,fun hji => hji ▸ key⟩)
      (owned hq)
    exact h.shape.unique j i (h.shape.hashed (h.shape.dirty j hj)) (h.shape.hashed valid)
      (hjk.trans key.symm)
  | writeNew _ _ _ free absent _ owned =>
    refine hw.write h rfl rfl (by rw [install_self]) (fun j hj => ?_) (fun j hj => ⟨fun hjk => ?_,?_⟩)
      (owned hq)
    · rw [install_eq,occupy_of_ne hj]
    · cases absent j (h.shape.hashed (h.shape.dirty j hj)) hjk
    rintro rfl
    cases (free.dirty h.shape).symm.trans hj
  | land _ flight =>
    exact hmv rfl rfl (fun d => hw.land h flight) (fun y hy => .inl (by simpa using hy))
      fun _ => .inl
  | startZero _ _ lossy => cases lossy hkp
  | passZero _ _ _ zero | landZero _ _ _ zero =>
    rw [hw.lossless] at zero
    cases zero
  | startSweep =>
    refine hmv rfl rfl (fun _ _ hd => hd) (fun y hy => .inr ?_) fun _ => .inl
    rw [World.put_hold] at hy
    cases hy
    exact ⟨le_rfl,fun _ i hi => absurd hi not_lt_zero⟩
  | restart y _ sweep =>
    refine hmv rfl rfl (fun _ _ hd => hd) (fun z hz => .inr ?_) fun _ => .inl
    rw [World.put_hold] at hz
    cases hz
    exact ⟨(hw.swept _ y sweep).upto,fun _ i hi => absurd hi not_lt_zero⟩
  | pass _ _ sweep kept passed =>
    refine hmv rfl rfl (fun _ _ hd => hd) (fun z hz => .inr ?_) fun _ => .inl
    rw [World.put_hold] at hz ⊢
    cases hz
    exact hw.pass h sweep kept (passed hq)
  | synced y sweep passed seen slots scope =>
    refine hmv rfl rfl (fun _ _ hd => hd) (fun z hz => ?_) fun r hr => ?_
    · dsimp only at hz
      rw [update_self] at hz
      cases hz
    obtain hold | hnew := mem_append.mp hr
    · exact .inl hold
    rw [mem_singleton] at hnew
    subst hnew
    exact .inr ⟨(hw.swept _ y sweep).upto,fun d hd has =>
      hw.done h sweep passed seen slots scope hd has⟩
  | forget x weaker =>
    refine hmv rfl rfl (fun _ _ hd => hd) (fun z hz => .inl ?_) fun _ => .inl
    rw [World.put_hold] at hz
    obtain hnone | hsa := weaker.sweep
    · rw [hnone] at hz
      cases hz
    exact hsa ▸ hz
  | _ =>
    exact hmv rfl rfl (fun _ _ hd => hd) (fun y hy => .inl (by simpa using hy)) fun _ => .inl

end

lemma Flushed.initial (h : s.Initial) : Flushed (view cfg s) where
  lossless τ := by
    change ((s.prog τ).hold cfg).zero = none
    rw [h.prog τ]
    rfl
  version d hd := by simp [view,h.dirtied] at hd
  stamped i hi := by simp [view,h.slot] at hi
  swept τ y hy := by
    change ((s.prog τ).hold cfg).sweep = some y at hy
    rw [h.prog τ] at hy
    cases hy
  synced r hr := by simp [view,h.synced] at hr

lemma zeroing_none (h : (p.hold cfg).zero = none) : p.zeroing = none := by
  cases p with
  | drop | command => cases h
  | _ => rfl

lemma Flushed.apart (hw : Flushed (view cfg s)) : Apart cfg s := by
  intro τ _ σ _ a _ b hb
  rw [zeroing_none (hw.lossless σ)] at hb
  cases hb

def Flushable (cfg : Config β) (s : State β) : Event β → Prop
  | .act τ _ =>
    (s.prog τ).anchorFree s.mem = true ∧ (s.prog τ).dropsClean cfg s.mem = true ∧ Tracked cfg s τ
  | .call _ _ call => call.zeroing = false
  | _ => True

instance [DecidableEq β] : (e : Event β) → Decidable (Flushable cfg s e)
  | .act τ _ => inferInstanceAs (Decidable ((s.prog τ).anchorFree s.mem = true ∧
      (s.prog τ).dropsClean cfg s.mem = true ∧ Tracked cfg s τ))
  | .call _ _ call => inferInstanceAs (Decidable (call.zeroing = false))
  | .migrate _ _ | .setDirtyOwner _ _ _ | .clearDirtyOwner _ => isTrue trivial

lemma Flushable.allowed {e : Event β} (h : Flushable cfg s e) (hw : Flushed (view cfg s)) :
    Allowed cfg False True True s e := by
  cases e with
  | act => exact ⟨⟨hw.apart,h.1,h.2.1⟩,False.elim,fun _ => h.2.2⟩
  | call => exact fun _ => h
  | _ => trivial

def OnMedium (s : State β) : Prop :=
  ∀ r ∈ s.synced, ∀ d ∈ s.dirtied.take r.2, r.1.asks d → Durable s.mem d

theorem onMedium_of_flushable (cfg : Config β)
    (h : Reach State.Initial (guarded (Flushable cfg) (Stepped cfg)) s) : OnMedium s := by
  have hrun : Standing cfg s ∧ Flushed (view cfg s) := by
    refine h.invariant (P := fun s => Standing cfg s ∧ Flushed (view cfg s)) (fun s h0 => ?_)
      fun s e s' hs hstep => ?_
    · exact ⟨.initial h0,.initial h0⟩
    refine hs.1.step (fun q w w' _ hd hl hinv hw hm => ?_) hs.2 (hstep.1.allowed hs.2) hstep.2
    exact hw.move hinv (hd ▸ trivial) (hl ▸ trivial) hm
  exact fun r hr => (hrun.2.synced r hr).2

def syncedWrites : List (Event Nat) :=
  [.setDirtyOwner 0 1 10,.call 0 true (.writeCached 0 0 [5]),.act 0 plainChoice,
    .clearDirtyOwner 0,.call 1 true (.writebackInode 0 1 10)] ++
    replicate 5 (.act 1 plainChoice) ++
  [.call 0 true (.writeCached 0 0 [6]),.act 0 plainChoice,.call 0 true .syncAll] ++
    replicate 6 (.act 0 plainChoice)

theorem onMedium_after_syncedWrites :
    OnMedium (syncedWrites.foldl (step smallCache) coldStart) ∧
      (syncedWrites.foldl (step smallCache) coldStart).synced.map (·.2) = [1, 2] := by
  refine ⟨onMedium_of_flushable smallCache ?_,by decide +kernel⟩
  refine Reach.along (fun s e => Flushable smallCache s e ∧ e.enabled smallCache s = true)
    (fun s e h => ⟨h.1,h.2,rfl⟩) (.start coldStart_initial) ?_
  decide +kernel

def movedWriter : List (Event Nat) :=
  [.setDirtyOwner 0 1 10,.setDirtyOwner 1 1 20,.migrate 0 1,
    .call 0 true (.writeCached 0 0 [5]),.act 0 plainChoice,
    .call 1 true (.writebackInode 0 1 10),.act 1 plainChoice]

instance (y : Scope) (d : Dirtied) : Decidable (y.asks d) := by
  cases y <;> (dsimp only [Scope.asks]; infer_instance)

instance [DecidableEq β] : Decidable (OnMedium s) :=
  inferInstanceAs (Decidable (∀ r ∈ s.synced, ∀ d ∈ s.dirtied.take r.2, r.1.asks d → Durable s.mem d))

theorem movedWriter_lost :
    Reach State.Initial (Stepped smallCache) (movedWriter.foldl (step smallCache) coldStart) ∧
      ¬OnMedium (movedWriter.foldl (step smallCache) coldStart) := by
  refine ⟨?_,by decide +kernel⟩
  refine Reach.along (fun s e => e.enabled smallCache s = true) (fun s e h => ⟨h,rfl⟩)
    (.start coldStart_initial) ?_
  decide +kernel

open Relation

def Cache.unclaim (m : Cache β) (l : List Nat) : Cache β :=
  { m with slot := fun i => if i ∈ l then { m.slot i with busy := false } else m.slot i }

def refused (cfg : Config β) (c : Choice β) (stamp : Owner) (k : After β) (f : Flight β)
    (m : Cache β) : Out β :=
  let freed := m.unclaim f.slots
  match k with
  | .read r anchor => blkReadClaim cfg r anchor (recycle cfg anchor (freed.clean anchor))
  | .write w anchor =>
    let dropped := recycle cfg anchor (freed.clean anchor)
    match w.data with
    | [] => { mem := dropped, prog := .write w }
    | b :: _ => blkWriteSlot cfg c stamp w b anchor dropped
  | .ahead r gen next buf anchor =>
    let dropped := recycle cfg anchor (freed.clean anchor)
    match buf with
    | [] => { mem := dropped, prog := r.resume }
    | b :: bs =>
      match aheadInto cfg gen anchor ⟨r.dev,next⟩ b dropped with
      | none => { mem := dropped, prog := r.resume }
      | some m => readAhead cfg c.alloc r gen bs (next + 1) m
  | .drain w _ => { mem := { freed with flushing := false }, prog := w.resume cfg }
  | .sweep y => sweepOn cfg c.alloc y freed
  | .sorted y runs =>
    if f.slots.length ≤ 1 then { mem := freed, prog := .sorted y runs }
    else { mem := m, prog := .sorted y (f.slots.map (fun i => [i]) ++ runs) }
  | .invalidate a i left => invalidateSlots cfg a left i freed
  | .done => { mem := freed, prog := .idle }

variable {f : Flight β} {l : List Nat} {k : After β} {c : Choice β}

@[simp] lemma unclaim_slot :
    (m.unclaim l).slot i = { m.slot i with busy := (m.slot i).busy && decide (i ∉ l) } := by
  by_cases h : i ∈ l
  · simp [Cache.unclaim,h]
  simp [Cache.unclaim,h]

inductive Miss (q : Actor) : World β → World β → Prop where
  | release {w : World β} (f : Flight β) (flight : (w.hold q.task).flight = some f) :
      Miss q w (w.put q.task (w.mem.unclaim f.slots)
        { w.hold q.task with flight := none, anchor := none })
  | regroup {w : World β} (f : Flight β) (flight : (w.hold q.task).flight = some f)
      (anchor : (w.hold q.task).anchor = none) :
      Miss q w (w.put q.task w.mem
        { w.hold q.task with
          flight := none
          set := f.slots ++ (w.hold q.task).set
          runs := f.slots.map (fun i => [i]) ++ (w.hold q.task).runs })

lemma Inv.release (h : Inv cfg w) (hfl : (w.hold τ).flight = some f) :
    Inv cfg (w.put τ (w.mem.unclaim f.slots) { w.hold τ with flight := none, anchor := none }) := by
  refine h.freed hfl (fun _ => unclaim_slot) (fun _ _ => rfl) (fun _ hj => hj) rfl rfl rfl ?_
  exact h.bytes.agree rfl rfl (fun j => by simp) (fun j _ => by simp)
    fun k => (pending_update (by rfl)).mpr

lemma row_singleton : Row m [i] := by
  intro n j a hj ha
  cases ha
  cases n with
  | zero =>
    cases hj
    rfl
  | succ => simp at hj

variable {buf : List β} {left : Nat} {y : Sweep}

lemma Hold.regroup_slots (hfl : x.flight = some f) :
    ({ x with
      flight := none
      set := f.slots ++ x.set
      runs := f.slots.map (fun i => [i]) ++ x.runs } : Hold β).slots = x.slots := by
  rw [Hold.slots,Hold.slots,hfl]
  rfl

lemma Inv.regroup (h : Inv cfg w) (hfl : (w.hold τ).flight = some f) :
    Inv cfg (w.put τ w.mem
      { w.hold τ with
        flight := none
        set := f.slots ++ (w.hold τ).set
        runs := f.slots.map (fun i => [i]) ++ (w.hold τ).runs }) := by
  have hse := h.holds τ
  have hsl := Hold.regroup_slots hfl
  refine h.rehold ⟨fun j hj => hse.busy j (hsl ▸ hj),hse.fill,nofun,
    fun j hj => ?_,fun run hrun => ?_,hse.zero⟩ (List.Perm.of_eq hsl) rfl
    fun k => (pending_update (by rfl)).mpr
  · obtain hfly | hset := mem_append.mp hj
    · exact (hse.flight f hfl).mem_slot hfly
    exact hse.set j hset
  obtain hone | hold := mem_append.mp hrun
  · obtain ⟨j,hj,rfl⟩ := mem_map.mp hone
    refine ⟨fun n hn => mem_append_left _ ?_,row_singleton⟩
    rw [mem_singleton] at hn
    exact hn ▸ hj
  obtain ⟨hin,hrow⟩ := hse.runs run hold
  exact ⟨fun n hn => mem_append_right _ (hin n hn),hrow⟩

lemma Miss.inv (h : Inv cfg w) (hm : Miss q w w') : Inv cfg w' := by
  cases hm with
  | release f flight => exact h.release flight
  | regroup _ flight => exact h.regroup flight

lemma Miss.frame (hm : Miss q w w') : Frame q.stamp w w' := by
  cases hm with
  | release f =>
    refine .kept rfl rfl fun j hj => ?_
    change ((w.mem.unclaim f.slots).slot j).dirty = true at hj
    change (w.mem.slot j).Same ((w.mem.unclaim f.slots).slot j)
    rw [unclaim_slot] at hj ⊢
    exact ⟨rfl,rfl,hj⟩
  | regroup => exact .slots rfl rfl fun _ _ => rfl

lemma Miss.calm (h : Calm cfg w) (hm : Miss q w w') : Calm cfg w' := by
  refine ⟨hm.inv h.inv,?_,fun j hj => ?_⟩
  · cases hm with
    | release | regroup => exact h.lossless.put (h.lossless q.task)
  cases hm with
  | release f flight =>
    change ((w.mem.unclaim f.slots).slot j).busy = true at hj
    rw [unclaim_slot] at hj
    simp only [Bool.and_eq_true,decide_eq_true_eq] at hj
    obtain ⟨σ,hσ⟩ := h.owned j hj.1
    refine ⟨σ,?_⟩
    change j ∈ (update w.hold q.task _ σ).slots
    obtain rfl | hq := eq_or_ne σ q.task
    · rw [update_self]
      exact Hold.mem_landed flight hσ hj.2
    rw [update_of_ne hq]
    exact hσ
  | regroup _ flight =>
    obtain ⟨σ,hσ⟩ := h.owned j hj
    refine ⟨σ,?_⟩
    change j ∈ (update w.hold q.task _ σ).slots
    obtain rfl | hq := eq_or_ne σ q.task
    · rw [update_self,Hold.regroup_slots flight]
      exact hσ
    rw [update_of_ne hq]
    exact hσ

lemma release_miss (hho : w.hold q.task = { x with flight := some f })
    (hfl : x.flight = none) (han : x.anchor = none) : Miss q w (w.put q.task (w.mem.unclaim f.slots) x) := by
  have hms : Miss q w _ := .release f (by rw [hho])
  rw [hho] at hms
  have hsa : ({ x with flight := none, anchor := none } : Hold β) = x := by rw [← hfl,← han]
  rwa [← hsa]

lemma refused_moves (h : Inv cfg w)
    (hho : w.hold q.task = { (k.hold : Hold β) with flight := some f, anchor := k.anchor })
    (han : k.anchor = none)
    (hsw : ∀ y, k = .sweep y → q.durable → y.scope = .drainAll true → Unclaimed w q.task) :
    ∃ w', Miss q w w' ∧ Moves cfg q w' (w.out cfg q (refused cfg c q.stamp k f w.mem)) := by
  have hnone : (k.hold : Hold β).flight = none ∧ (k.hold : Hold β).anchor = none := by
    cases k <;> exact ⟨rfl,rfl⟩
  have hpn : w.hold q.task = { (k.hold : Hold β) with flight := some f } := by
    rw [hho,han,← hnone.2]
  have hms := release_miss hpn hnone.1 hnone.2
  have hfe := hms.inv h
  cases k with
  | read | write | ahead => cases han
  | drain =>
    refine ⟨_,hms,?_⟩
    rw [refused,World.out_plain,hold_resume]
    exact tick_moves
      hfe rfl rfl rfl rfl rfl rfl
  | sweep y =>
    refine ⟨_,hms,?_⟩
    have hmi : q.durable → y.scope = .drainAll true →
        Unclaimed (w.put q.task (w.mem.unclaim f.slots) (y.hold [])) q.task := by
      intro hd hs j hj hb
      change ((w.mem.unclaim f.slots).slot j).dirty = true at hj
      change ((w.mem.unclaim f.slots).slot j).busy = true at hb
      rw [unclaim_slot] at hj hb
      simp only [Bool.and_eq_true,decide_eq_true_eq] at hb
      have hin := hsw y rfl hd hs j hj hb.1
      rw [hpn,Hold.mem_slots] at hin
      rw [World.put_hold,Hold.mem_slots]
      obtain hfill | ⟨g,hg,hjg⟩ | hset := hin
      · exact .inl hfill
      · cases hg
        cases hb.2 hjg
      exact .inr (.inr hset)
    have hnx : Moves cfg q (w.put q.task (w.mem.unclaim f.slots) (y.hold []))
        (World.out _ cfg q (sweepOn cfg c.alloc y (w.mem.unclaim f.slots))) :=
      sweepOn_moves hfe World.put_hold hmi
    rwa [World.out_put] at hnx
  | sorted y runs =>
    rw [refused]
    split
    · refine ⟨_,hms,?_⟩
      rw [World.out_plain]
      exact .refl
    have hreg : Miss q w _ := .regroup f (by rw [hpn]) (by rw [hpn]; rfl)
    refine ⟨_,hreg,?_⟩
    rw [World.out_plain,hpn]
    have hsa : (Prog.sorted y (f.slots.map (fun i => [i]) ++ runs) : Prog β).hold cfg =
        { ((After.sorted y runs : After β).hold : Hold β) with
          set := f.slots ++ ((After.sorted y runs : After β).hold : Hold β).set
          runs := f.slots.map (fun i => [i]) ++ ((After.sorted y runs : After β).hold : Hold β).runs } := by
      simp [Prog.hold,Sweep.hold,After.hold,← flatMap_def]
    rw [hsa]
    exact .refl
  | invalidate a i left =>
    refine ⟨_,hms,?_⟩
    have hnx : Moves cfg q (w.put q.task (w.mem.unclaim f.slots) {})
        (World.out _ cfg q (invalidateSlots cfg a left i (w.mem.unclaim f.slots))) :=
      invalidateSlots_moves hfe World.put_hold
    rwa [World.out_put] at hnx
  | done =>
    refine ⟨_,hms,?_⟩
    rw [refused,World.out_plain]
    exact .refl

inductive Task (β : Type) where
  | rest
  | read
  | write (v : Write β)
  | drop
  | sweep (y : Scope)
  | invalidate
  | invalidateRange
  | buffer

def Prog.task : Prog β → Task β
  | .idle => .rest
  | .read _ | .fill _ _ _ | .filled _ _ _ _ _ | .flight (.read _ _) _
  | .flight (.ahead _ _ _ _ _) _ => .read
  | .write v | .flushSome v | .flight (.write v _) _ | .flight (.drain v _) _ => .write v
  | .drop _ _ _ | .command _ _ => .drop
  | .sweep y | .sorted y _ | .flight (.sweep y) _ | .flight (.sorted y _) _ => .sweep y.scope
  | .invalidate _ _ _ | .flight (.invalidate _ _ _) _ => .invalidate
  | .invalidateRange _ => .invalidateRange
  | .flushBuffer _ | .flight .done _ => .buffer

def Write.rest (v : Write β) : Write β := { v with next := v.next + 1, data := v.data.tail }

inductive Next (stamp : Owner) (p : Task β) (o : Out β) : Prop where
  | stay (writes : o.writes = []) (synced : o.synced = []) (task : o.prog.task = p)
  | done (writes : o.writes = []) (synced : o.synced = []) (idle : o.prog = .idle)
      (write : ∀ v, p = .write v → v.data = []) (sweep : ∀ y, p ≠ .sweep y)
  | wrote (v : Write β) (b : β) (i n : Nat) (m : Cache β) (task : p = .write v)
      (data : v.data.head? = some b) (writes : o.writes = [(v.key, n)]) (synced : o.synced = [])
      (mem : o.mem = dirtyBlock stamp v.key b i m)
      (next : o.prog.task = .write v.rest ∨ v.data.tail = [] ∧ o.prog = .idle)
  | synced (y : Scope) (n : Nat) (task : p = .sweep y) (writes : o.writes = [])
      (synced : o.synced = [(y, n)]) (idle : o.prog = .idle)
  | second (task : p = .sweep (.drainAll false)) (writes : o.writes = []) (synced : o.synced = [])
      (next : o.prog.task = .sweep (.drainAll true))

variable {r : Read} {alloc : Bool} {v : Write β}

lemma resume_next : Next stamp .read { mem := m, prog := r.resume } := by
  rw [Read.resume]
  split
  · exact .done rfl rfl rfl (by rintro _ ⟨⟩) (by rintro _ ⟨⟩)
  exact .stay rfl rfl rfl

lemma readClaim_next : Next stamp .read (blkReadClaim cfg r i m) := by
  rw [blkReadClaim]
  split
  · exact .stay rfl rfl rfl
  exact .stay rfl rfl rfl

lemma Next.reads {p : Task β} {o : Out β} {ds : List (Delivery β)} (h : Next stamp p o) :
    Next stamp p { o with reads := ds } := by
  cases h with
  | stay writes synced task => exact .stay writes synced task
  | done writes synced idle write sweep => exact .done writes synced idle write sweep
  | wrote v b i n m task data writes synced mem next =>
    exact .wrote v b i n m task data writes synced mem next
  | synced y n task writes synced idle => exact .synced y n task writes synced idle
  | second task writes synced next => exact .second task writes synced next

lemma readAhead_next {gen next : Nat} : Next stamp .read (readAhead cfg alloc r gen buf next m) := by
  induction buf generalizing next m with
  | nil => exact resume_next
  | cons _ _ ih =>
    rw [readAhead]
    split
    · exact ih
    split
    · exact resume_next
    · exact .stay rfl rfl rfl
    split
    · exact resume_next
    exact ih

lemma readLookup_next : Next stamp .read (blkReadLookup cfg alloc r m) := by
  rw [blkReadLookup]
  split
  · split
    · exact .stay rfl rfl rfl
    exact resume_next.reads
  split
  · exact .stay rfl rfl rfl
  · exact readClaim_next
  exact .stay rfl rfl rfl

section

variable (hmr : v.more = 0)

include hmr

lemma resume_task : (v.resume cfg).task = .write v ∨ v.data = [] ∧ v.resume cfg = .idle := by
  rw [Write.resume]
  split
  · exact .inl rfl
  next hda => exact .inr ⟨not_not.mp hda,rfl⟩

lemma writeResume_next :
    Next stamp (.write v) { mem := m, prog := v.resume cfg } := by
  have hres : (v.resume cfg).task = .write v ∨ v.data = [] ∧ v.resume cfg = .idle := resume_task hmr
  obtain hts | ⟨hda,hid⟩ := hres
  · exact .stay rfl rfl hts
  refine .done rfl rfl hid (fun u hu => ?_) nofun
  obtain rfl := Task.write.inj hu
  exact hda

lemma writeInto_next (hb : v.data.head? = some b) :
    Next stamp (.write v) (blkWriteInto cfg c stamp v b i m) := by
  refine .wrote v b i _ m rfl hb rfl rfl rfl ?_
  change (v.wrote cfg c).task = _ ∨ _ ∧ v.wrote cfg c = _
  rw [Write.wrote]
  split
  · exact .inl rfl
  exact resume_task hmr

lemma writeSlot_next (hb : v.data.head? = some b) :
    Next stamp (.write v) (blkWriteSlot cfg c stamp v b i m) := by
  rw [blkWriteSlot]
  split
  · dsimp only
    split
    · exact .stay rfl rfl rfl
    exact writeInto_next hmr hb
  exact writeInto_next hmr hb

lemma writeLookup_next : Next stamp (.write v) (blkWriteLookup cfg c stamp v m) := by
  rw [blkWriteLookup]
  split
  · split
    · exact .stay rfl rfl rfl
    exact writeResume_next hmr
  next hda =>
  have hb := congrArg head? hda
  split
  · split
    · exact .stay rfl rfl rfl
    exact writeInto_next hmr hb
  split
  · exact .stay rfl rfl rfl
  · exact writeSlot_next hmr hb
  exact .stay rfl rfl rfl

lemma drainMore_next : Next stamp (.write v) (drainMore cfg alloc v left m) := by
  rw [drainMore]
  split
  · exact writeResume_next hmr
  split
  · exact writeResume_next hmr
  dsimp only
  split
  · exact writeResume_next hmr
  exact .stay rfl rfl rfl

end

lemma sweepSlots_scope : (sweepSlots m left y).2.1.scope = y.scope := by
  induction left generalizing m y with
  | zero => rfl
  | succ _ ih =>
    rw [sweepSlots]
    split
    · exact ih
    split
    · exact ih
    split
    · rfl
    split
    · rfl
    exact ih

lemma sweepNext_next : Next stamp (.sweep y.scope) (sweepNext cfg alloc y m) := by
  rw [sweepNext]
  iterate 3
    split
    · exact .stay rfl rfl rfl
  · split
    · next hsc => exact .second (congrArg Task.sweep hsc) rfl rfl rfl
    exact .synced y.scope y.upto rfl rfl rfl rfl

lemma sweepOn_next : Next stamp (.sweep y.scope) (sweepOn cfg alloc y m) := by
  have hsc : (sweepSlots m y.left y).2.1.scope = y.scope := sweepSlots_scope
  rw [sweepOn]
  generalize sweepSlots m y.left y = r at hsc
  obtain ⟨m1,y1,g⟩ := r
  rw [← hsc]
  cases g with
  | none => exact sweepNext_next
  | some => exact .stay rfl rfl rfl

lemma flushRun_next {runs : List (List Nat)} :
    Next stamp (.sweep y.scope) (blkFlushRun cfg alloc y runs m) := by
  rw [blkFlushRun.eq_def]
  split
  · exact sweepNext_next
  · exact .stay rfl rfl rfl
  · exact .stay rfl rfl rfl
  split
  · exact .stay rfl rfl rfl
  exact .stay rfl rfl rfl

lemma invalidateSlots_next {a : Span} : Next stamp .invalidate (invalidateSlots cfg a left i m) := by
  induction left generalizing i m with
  | zero =>
    rw [invalidateSlots]
    split
    · exact .stay rfl rfl rfl
    exact .done rfl rfl rfl (by rintro _ ⟨⟩) (by rintro _ ⟨⟩)
  | succ _ ih =>
    rw [invalidateSlots]
    split
    · exact ih
    split
    · exact .stay rfl rfl rfl
    split
    · exact .stay rfl rfl rfl
    exact ih

section

variable (hmr : ∀ v, (Prog.flight k f).task = .write v → v.more = 0)

include hmr

lemma afterFlight_next : Next stamp (Prog.flight k f).task (afterFlight cfg c stamp k f m) := by
  cases k with
  | read =>
    rw [afterFlight]
    split
    · exact .stay rfl rfl rfl
    exact readClaim_next
  | write v =>
    rw [afterFlight]
    split
    · exact .stay rfl rfl rfl
    split
    · exact .stay rfl rfl rfl
    next hda => exact writeSlot_next (hmr v rfl) (congrArg head? hda)
  | ahead =>
    rw [afterFlight]
    split
    · exact resume_next
    split
    · exact resume_next
    split
    · exact resume_next
    exact readAhead_next
  | drain v => exact drainMore_next (hmr v rfl)
  | sweep => exact sweepOn_next
  | sorted => exact .stay rfl rfl rfl
  | invalidate => exact invalidateSlots_next
  | done => exact .done rfl rfl rfl (by rintro _ ⟨⟩) (by rintro _ ⟨⟩)

lemma refused_next : Next stamp (Prog.flight k f).task (refused cfg c stamp k f m) := by
  cases k with
  | read => exact readClaim_next
  | write v =>
    rw [refused.eq_def]
    dsimp only
    split
    · exact .stay rfl rfl rfl
    next hda => exact writeSlot_next (hmr v rfl) (congrArg head? hda)
  | ahead =>
    rw [refused.eq_def]
    dsimp only
    split
    · exact resume_next
    split
    · exact resume_next
    exact readAhead_next
  | drain v => exact writeResume_next (hmr v rfl)
  | sweep => exact sweepOn_next
  | sorted =>
    rw [refused]
    split
    · exact .stay rfl rfl rfl
    exact .stay rfl rfl rfl
  | invalidate => exact invalidateSlots_next
  | done => exact .done rfl rfl rfl (by rintro _ ⟨⟩) (by rintro _ ⟨⟩)

end

lemma act_next (hmr : ∀ v, p.task = .write v → v.more = 0) (hdp : p.task ≠ .drop)
    (hrn : p.task ≠ .invalidateRange) : Next stamp p.task (act cfg c stamp p m) := by
  cases p with
  | idle | fill => exact .stay rfl rfl rfl
  | read => exact readLookup_next
  | filled =>
    refine Next.reads ?_
    split
    · exact readAhead_next
    exact resume_next
  | write v => exact writeLookup_next (hmr v rfl)
  | flushSome v =>
    rw [act,bcacheFlushSome]
    split
    · exact writeResume_next (hmr v rfl)
    exact drainMore_next (hmr v rfl)
  | flight k =>
    rw [act]
    split
    · exact afterFlight_next hmr
    refine .stay rfl rfl ?_
    cases k <;> rfl
  | drop | command => cases hdp rfl
  | sweep => exact sweepOn_next
  | sorted => exact flushRun_next
  | invalidate => exact invalidateSlots_next
  | invalidateRange => cases hrn rfl
  | flushBuffer =>
    rw [act,blkFlushBuffer]
    split
    · exact .stay rfl rfl rfl
    split
    · exact .stay rfl rfl rfl
    exact .done rfl rfl rfl (by rintro _ ⟨⟩) (by rintro _ ⟨⟩)

structure Alone (cfg : Config β) (s : State β) : Prop where
  calm : Calm cfg (view cfg s)
  idle : ∀ σ, cfg.tasks ≤ σ → s.prog σ = .idle
  drop : (s.prog 0).task ≠ .drop
  range : (s.prog 0).task ≠ .invalidateRange
  more : ∀ v, (s.prog 0).task = .write v → v.more = 0

structure Served (cfg : Config β) (s : State β) (o : Out β) : Prop where
  alone : Alone cfg (s.commit 0 o)
  frame : Frame (s.stamp 0) (view cfg s) (view cfg (s.commit 0 o))
  next : Next (s.stamp 0) (s.prog 0).task o

variable {o : Out β} {p : Prog β}

lemma isIdle_iff : p.isIdle = true ↔ p = .idle := by
  cases p <;> simp [Prog.isIdle]

lemma Next.alone (h : Next stamp p.task o) (hdp : p.task ≠ .drop)
    (hrn : p.task ≠ .invalidateRange) (hmr : ∀ v, p.task = .write v → v.more = 0) :
    o.prog.task ≠ .drop ∧ o.prog.task ≠ .invalidateRange ∧ ∀ v, o.prog.task = .write v → v.more = 0 := by
  have hrs : ∀ {x : Prog β}, x = .idle → x.task ≠ .drop ∧ x.task ≠ .invalidateRange ∧
      ∀ v, x.task = .write v → v.more = 0 := by
    rintro x rfl
    exact ⟨nofun,nofun,nofun⟩
  cases h with
  | stay _ _ task =>
    rw [task]
    exact ⟨hdp,hrn,hmr⟩
  | done _ _ idle => exact hrs idle
  | wrote v _ _ _ _ task _ _ _ _ next =>
    obtain hnx | ⟨-,hid⟩ := next
    · rw [hnx]
      refine ⟨nofun,nofun,fun u hu => ?_⟩
      obtain rfl := Task.write.inj hu
      exact hmr v task
    exact hrs hid
  | synced _ _ _ _ _ idle => exact hrs idle
  | second _ _ _ next =>
    rw [next]
    exact ⟨nofun,nofun,nofun⟩

variable {t : Task β} {a : Span} {w : Owner}

lemma Next.writes (h : Next stamp t o) : o.writes = [] ∨
    ∃ v b i n m, t = .write v ∧ v.data.head? = some b ∧ o.writes = [(v.key, n)] ∧
      o.mem = dirtyBlock stamp v.key b i m := by
  cases h with
  | stay writes | done writes => exact .inl writes
  | wrote v b i n m task data writes _ mem =>
    exact .inr ⟨v,b,i,n,m,task,data,writes,mem⟩
  | synced _ _ _ writes => exact .inl writes
  | second _ writes => exact .inl writes

lemma zeroing_of_task (h : p.task ≠ .drop) : p.zeroing = none := by
  cases p with
  | drop | command => cases h rfl
  | _ => rfl

lemma written_of_sweep {y : Scope} (h : p.task = .sweep y) : p.written = none := by
  cases p with
  | write => cases h
  | flight k => cases k <;> first | rfl | cases h
  | _ => rfl

lemma lastDrain_of_sweep (h : p.task = .sweep (.matching a w)) : p.lastDrain = false := by
  cases p with
  | sweep => simp [Prog.lastDrain,Task.sweep.inj h]
  | flight k =>
    cases k with
    | sweep => simp [Prog.lastDrain,Task.sweep.inj h]
    | _ => rfl
  | _ => rfl

lemma tracked_of_sweep (h : (s.prog 0).task = .sweep (.matching a w)) : Tracked cfg s 0 := by
  refine ⟨fun k hk => ?_,fun hla => ?_⟩
  · rw [written_of_sweep h] at hk
    cases hk
  rw [lastDrain_of_sweep h] at hla
  cases hla

lemma Alone.initial (h : s.Initial) : Alone cfg s := by
  have hho : ∀ τ, (view cfg s).hold τ = {} := fun τ => congrArg (Prog.hold cfg) (h.prog τ)
  refine ⟨⟨(Standing.initial h).inv,fun τ => ?_,fun i hi => ?_⟩,fun σ _ => h.prog σ,?_,?_, fun v hv => ?_⟩
  · rw [hho τ]
  · cases (h.slot i).2.1.symm.trans hi
  · rw [h.prog]
    exact nofun
  · rw [h.prog]
    exact nofun
  rw [h.prog] at hv
  cases hv

lemma Alone.stamped {owner : Nat → Owner} {file : Nat → Option Owner} (h : Alone cfg s) :
    Alone cfg { s with owner, file } :=
  { h with }

lemma resume_task_read (β : Type) (r : Read) :
    (Read.resume r : Prog β).task = .rest ∨ (Read.resume r : Prog β).task = .read := by
  rw [Read.resume]
  split
  · exact .inl rfl
  exact .inr rfl

lemma call_prog (cfg : Config β) (alloc : Bool) (s : State β) (call : Call β) :
    (step cfg s (.call 0 alloc call)).prog 0 = call.begin cfg alloc s := by
  change update s.prog 0 (call.begin cfg alloc s) 0 = _
  rw [update_self]

lemma begin_task (cfg : Config β) (alloc : Bool) (s : State β) {call : Call β}
    (hpn : call.zeroing = false) (hrn : ∀ dev lba n, call ≠ .invalidateRange dev lba n) :
    (call.begin cfg alloc s).task ≠ .drop ∧ (call.begin cfg alloc s).task ≠ .invalidateRange ∧
      ∀ v, (call.begin cfg alloc s).task = .write v → ∃ dev lba data,
        call = .writeCached dev lba data ∧
          v = ⟨(blkCacheTarget cfg dev lba).1,(blkCacheTarget cfg dev lba).2,data,0⟩ := by
  have hot : ∀ {x : Prog β}, x.task ≠ .drop → x.task ≠ .invalidateRange →
      (∀ v, x.task ≠ .write v) → x.task ≠ .drop ∧ x.task ≠ .invalidateRange ∧
        ∀ v, x.task = .write v → ∃ dev lba data, call = .writeCached dev lba data ∧
          v = ⟨(blkCacheTarget cfg dev lba).1,(blkCacheTarget cfg dev lba).2,data,0⟩ :=
    fun hd hr hw => ⟨hd,hr,fun v hv => absurd hv (hw v)⟩
  cases call with
  | zeroBlocks | discardBlocks => cases hpn
  | invalidateRange dev lba n => cases hrn dev lba n rfl
  | writeCached dev lba data =>
    rw [Call.begin]
    split
    · refine ⟨by rintro ⟨⟩,by rintro ⟨⟩,fun v hv => ⟨dev,lba,data,rfl,(Task.write.inj hv).symm⟩⟩
    exact hot (by rintro ⟨⟩) (by rintro ⟨⟩) (by rintro _ ⟨⟩)
  | readCached _ _ n =>
    rw [Call.begin]
    split
    · obtain hr | hr := resume_task_read β ⟨_,_,n,fun k => (s.mem.history k).top⟩
      · exact hot (hr ▸ by rintro ⟨⟩) (hr ▸ by rintro ⟨⟩) (hr ▸ by rintro _ ⟨⟩)
      exact hot (hr ▸ by rintro ⟨⟩) (hr ▸ by rintro ⟨⟩) (hr ▸ by rintro _ ⟨⟩)
    exact hot (by rintro ⟨⟩) (by rintro ⟨⟩) (by rintro _ ⟨⟩)
  | flushBuffer =>
    rw [Call.begin]
    split
    · exact hot (by rintro ⟨⟩) (by rintro ⟨⟩) (by rintro _ ⟨⟩)
    exact hot (by rintro ⟨⟩) (by rintro ⟨⟩) (by rintro _ ⟨⟩)
  | _ => exact hot (by rintro ⟨⟩) (by rintro ⟨⟩) (by rintro _ ⟨⟩)

section Solo

variable (hao : cfg.tasks = 1)
include hao

section

variable (h : Alone cfg s)

include h

lemma Alone.hold_other {σ : Nat} (hσ : σ ≠ 0) : (view cfg s).hold σ = {} := by
  change (s.prog σ).hold cfg = {}
  rw [h.idle σ (by omega)]
  rfl

lemma Alone.sound : Sound cfg s 0 := by
  refine ⟨fun τ hτ σ hσ a ha b hb => ?_,?_,?_⟩
  · obtain rfl : σ = 0 := by omega
    rw [zeroing_of_task h.drop] at hb
    cases hb
  · cases hp : s.prog 0 with
    | flight k f =>
      cases hl : f.landed with
      | false => simp [Prog.anchorFree,hl]
      | true =>
        simp only [Prog.anchorFree,hl]
        cases hk : k.anchor with
        | none => rfl
        | some i =>
          cases hbz : (s.mem.slot i).busy with
          | false => simp [hbz]
          | true =>
            obtain ⟨σ,hσ⟩ := h.calm.owned i hbz
            obtain rfl : σ = 0 := by
              by_contra hne
              rw [h.hold_other hao hne] at hσ
              cases hσ
            change i ∈ ((s.prog 0).hold cfg).slots at hσ
            rw [hp] at hσ
            have hin : i ∈ f.slots := by
              cases k with
              | read | write | ahead => simpa [Prog.hold,After.hold,Hold.slots] using hσ
              | _ => cases hk
            simp [hin]
    | _ => rfl
  cases hp : s.prog 0 with
  | invalidateRange => exact absurd (by rw [hp]; rfl) h.range
  | _ => rfl

lemma Alone.commit (hcm : Calm cfg (view cfg (s.commit 0 o)))
    (hnx : Next (s.stamp 0) (s.prog 0).task o) : Alone cfg (s.commit 0 o) := by
  have hse : (s.commit 0 o).prog 0 = o.prog := by
    change update s.prog 0 o.prog 0 = o.prog
    rw [update_self]
  obtain ⟨hdp,hrn,hmr⟩ := hnx.alone h.drop h.range h.more
  refine ⟨hcm,fun σ hσ => ?_,hse ▸ hdp,hse ▸ hrn,hse ▸ hmr⟩
  refine (update_of_ne (by omega) ..).trans (h.idle σ hσ)

lemma Alone.act :
    Served cfg s (act cfg c (s.stamp 0) (s.prog 0) s.mem) ∧
      ∀ a w n, (s.prog 0).task = .sweep (.matching a w) → Combed (view cfg s) 0 →
        Cleaned (view cfg s) n →
          Combed (view cfg (step cfg s (.act 0 c))) 0 ∧
            Cleaned (view cfg (step cfg s (.act 0 c))) n := by
  have hnx : Next (s.stamp 0) (s.prog 0).task (BlockCache.act cfg c (s.stamp 0) (s.prog 0) s.mem) :=
    act_next h.more h.drop h.range
  have hmvs : Moves cfg
      (actor s 0 False (∃ a w, (s.prog 0).task = .sweep (.matching a w)) True)
      (view cfg s) (view cfg (step cfg s (.act 0 c))) := by
    refine act_moves h.calm.inv h.idle (by omega) (h.sound hao) False.elim ?_
    rintro ⟨a,w,hsw⟩
    exact tracked_of_sweep hsw
  obtain ⟨hcm,hfm⟩ := h.calm.moves trivial hmvs
  refine ⟨⟨h.commit hao hcm hnx,hfm,hnx⟩,fun a w n hts hcmb hcl => ?_⟩
  have hdur : (actor s 0 False (∃ a w, (s.prog 0).task = .sweep (.matching a w)) True).durable :=
    ⟨a,w,hts⟩
  refine h.calm.combed trivial hdur hmvs ?_ hcmb hcl
  have hwts : (BlockCache.act cfg c (s.stamp 0) (s.prog 0) s.mem).writes = [] := by
    rcases hnx.writes with hnil | ⟨v,b,i,n,m,hwt,-⟩
    · exact hnil
    cases hts.symm.trans hwt
  change s.dirtied ++ map _ (BlockCache.act cfg c (s.stamp 0) (s.prog 0) s.mem).writes = s.dirtied
  rw [hwts,map_nil,append_nil]

lemma Alone.refused {k : After β} {f : Flight β} (hp : s.prog 0 = .flight k f)
    (han : k.anchor = none) : Served cfg s (refused cfg c (s.stamp 0) k f s.mem) := by
  have hnx : Next (s.stamp 0) (s.prog 0).task (BlockCache.refused cfg c (s.stamp 0) k f s.mem) := by
    rw [hp]
    exact refused_next (hp ▸ h.more)
  have hvw : view cfg (s.commit 0 (BlockCache.refused cfg c (s.stamp 0) k f s.mem)) =
      (view cfg s).out cfg (actor s 0 False False True)
        (BlockCache.refused cfg c (s.stamp 0) k f s.mem) :=
    view_commit (q := actor s 0 False False True) rfl
  have hho : (view cfg s).hold (actor s 0 False False True).task =
      { (k.hold : Hold β) with flight := some f, anchor := k.anchor } := by
    change (s.prog 0).hold cfg = _
    rw [hp]
    rfl
  obtain ⟨w,hms,hmvs⟩ := refused_moves h.calm.inv hho han
    fun _ _ hd => False.elim hd
  obtain ⟨hcm,hfm⟩ := (hms.calm h.calm).moves trivial hmvs
  refine ⟨h.commit hao ?_ hnx,?_,hnx⟩
  · rw [hvw]
    exact hcm
  rw [hvw]
  exact hms.frame.trans hfm

lemma Alone.call {alloc : Bool} {call : Call β} (hid : s.prog 0 = .idle)
    (hpn : call.zeroing = false) (hrn : ∀ dev lba n, call ≠ .invalidateRange dev lba n) :
    Alone cfg (step cfg s (.call 0 alloc call)) := by
  have hmvs : Moves cfg (actor s 0 False False True) (view cfg s)
      (view cfg (step cfg s (.call 0 alloc call))) := call_moves hid fun _ => hpn
  have hpg := call_prog cfg alloc s call
  obtain ⟨hdp,hnot,hwt⟩ := begin_task cfg alloc s hpn hrn
  refine ⟨(h.calm.moves trivial hmvs).1,fun σ hσ => ?_,hpg ▸ hdp,hpg ▸ hnot,fun v hv => ?_⟩
  · exact (update_of_ne (by omega) ..).trans (h.idle σ hσ)
  obtain ⟨dev,lba,data,-,rfl⟩ := hwt v hv
  rfl

end

end Solo

def Wrote (s : State β) (v : Write β) (b : β) : Prop :=
  (s.prog 0).task = .write v ∧ v.data.head? = some b

section

variable (h : Served cfg s o)

include h

lemma Served.dirtied {k : Key} {l : List Dirtied}
    (hl : (view cfg (s.commit 0 o)).dirtied = (view cfg s).dirtied ++ l) {d : Dirtied} (hd : d ∈ l)
    (hk : d.key = k) : ∃ v b, Wrote s v b ∧ k = v.key ∧ (o.mem.history k).newest = b := by
  rw [← append_cancel_left hl] at hd
  obtain hnil | ⟨v,b,i,n,m,hts,hda,hw,hmem⟩ := h.next.writes
  · rw [hnil] at hd
    cases hd
  rw [hw,map_singleton,mem_singleton] at hd
  subst hd hk
  refine ⟨v,b,⟨hts,hda⟩,rfl,?_⟩
  rw [hmem]
  change (update m.history v.key _ v.key).newest = b
  rw [update_self,Versions.newest_push]

lemma Served.history (k : Key) :
    o.mem.history k = s.mem.history k ∨ ∃ v b, Wrote s v b ∧ k = v.key ∧ (o.mem.history k).newest = b := by
  obtain ⟨l,hl,hhis,-⟩ := h.frame
  by_cases hk : ∀ d ∈ l, d.key ≠ k
  · exact .inl (hhis k hk)
  push Not at hk
  obtain ⟨d,hd,hkey⟩ := hk
  exact .inr (h.dirtied hl hd hkey)

lemma Served.dirty {i : Nat} (hi : (o.mem.slot i).dirty = true) :
    (s.mem.slot i).Same (o.mem.slot i) ∨
      ∃ v b, Wrote s v b ∧ (o.mem.slot i).key = v.key ∧ (o.mem.slot i).owner = s.stamp 0 := by
  obtain ⟨l,hl,-,hdt⟩ := h.frame
  obtain hsa | ⟨⟨d,hd,hkey⟩,how⟩ := hdt i hi
  · exact .inl hsa
  obtain ⟨v,b,hv,hvk,-⟩ := h.dirtied hl hd hkey
  exact .inr ⟨v,b,hv,hvk,how⟩

lemma Served.writing (hv : (s.prog 0).task = .write v) :
    o.prog.task = .write v ∨ o.prog = .idle ∧ v.data = [] ∨
      ∃ b, v.data.head? = some b ∧ (o.mem.history v.key).newest = b ∧
        (o.prog.task = .write v.rest ∨ o.prog = .idle) := by
  cases h.next with
  | stay _ _ task => exact .inl (task.trans hv)
  | done _ _ idle write => exact .inr (.inl ⟨idle,write v hv⟩)
  | wrote u b _ _ m task data _ _ mem next =>
    obtain rfl := Task.write.inj (task.symm.trans hv)
    refine .inr (.inr ⟨b,data,?_,next.imp_right And.right⟩)
    rw [mem]
    change (update m.history u.key _ u.key).newest = b
    rw [update_self,Versions.newest_push]
  | synced _ _ task => cases hv.symm.trans task
  | second task => cases hv.symm.trans task

lemma Served.resting (hrs : (s.prog 0).task = .rest) : o.prog.task = .rest := by
  cases h.next with
  | stay _ _ task => exact task.trans hrs
  | done _ _ idle => exact congrArg Prog.task idle
  | wrote _ _ _ _ _ task => cases hrs.symm.trans task
  | synced _ _ task => cases hrs.symm.trans task
  | second task => cases hrs.symm.trans task

end

lemma Next.writing (h : Next stamp t o) (hv : o.prog.task = .write v) :
    t = .write v ∨ ∃ u, t = .write u ∧ v = u.rest := by
  have hid : o.prog ≠ .idle := by
    intro hid
    rw [hid] at hv
    cases hv
  cases h with
  | stay _ _ task => exact .inl (task.symm.trans hv)
  | done _ _ idle => cases hid idle
  | wrote u _ _ _ _ task _ _ _ _ next =>
    obtain hnx | ⟨-,idle⟩ := next
    · exact .inr ⟨u,task,Task.write.inj (hv.symm.trans hnx)⟩
    cases hid idle
  | synced _ _ _ _ _ idle => cases hid idle
  | second _ _ _ next => cases next.symm.trans hv

lemma Alone.settled (h : Alone cfg s) {k : Key}
    (hcl : ∀ i, (s.mem.slot i).dirty = true → (s.mem.slot i).key ≠ k) :
    s.mem.medium k = (s.mem.history k).newest := by
  refine h.calm.inv.bytes.settled k hcl ?_
  rintro ⟨σ,hσ⟩
  rw [Hold.zeroes,h.calm.lossless σ] at hσ
  cases hσ

end B1nix.BlockCache
