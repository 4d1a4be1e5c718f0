import B1nix.Dev.BlockClaims

namespace B1nix.BlockCache

open List Option

variable {β : Type} {cfg : Config β} {m m' : Cache β} {i j n : Nat} {k first last : Key}
  {dev block left back : Nat} {f : Flight β}

lemma Shape.find_of_hashed (h : Shape cfg m) (hi : (m.slot i).hashed = true) :
    bcacheFind cfg m (m.slot i).key = some i := by
  cases hf : bcacheFind cfg m (m.slot i).key with
  | none => cases h.find_none hf i hi rfl
  | some j =>
    obtain ⟨hj,hkey⟩ := h.find_some hf
    rw [h.unique j i hj hi hkey]

lemma Slot.writable_iff {e : Slot β} : e.writable = true ↔ e.dirty = true ∧ e.busy = false := by
  simp [Slot.writable]

lemma runForward_spec (h : Shape cfg m) (hj : (runForward cfg m dev left block)[n]? = some j) :
    (m.slot j).writable = true ∧ (m.slot j).key = ⟨dev,block + n⟩ := by
  induction left generalizing block n with
  | zero => simp [runForward] at hj
  | succ _ ih =>
    rw [runForward] at hj
    split at hj
    · simp at hj
    next i hfi =>
    split_ifs at hj with hw
    · cases n with
      | zero =>
        cases hj
        exact ⟨hw,(h.find_some hfi).2⟩
      | succ n =>
        have hrs := ih hj
        rw [show block + (n + 1) = block + 1 + n by omega]
        exact hrs
    simp at hj

lemma runBack_spec
    (hw : ∃ j, bcacheFind cfg m ⟨dev,block⟩ = some j ∧ (m.slot j).writable = true) :
    ∃ j, bcacheFind cfg m ⟨dev,runBack cfg m dev back block⟩ = some j ∧ (m.slot j).writable = true := by
  induction back generalizing block with
  | zero => exact hw
  | succ _ ih =>
    cases block with
    | zero => exact hw
    | succ =>
      rw [runBack]
      split
      · exact hw
      next j hfi =>
      split
      · next hj => exact ih ⟨j,hfi,hj⟩
      exact hw

lemma runMax_pos : 0 < runMax cfg dev := by
  rw [runMax,blkMaxSectors,flushRun]
  split
  · decide
  omega

variable {l run : List Nat} {alloc seen : Bool}

lemma row_nodup (h : ∀ n j, l[n]? = some j → (m.slot j).key = ⟨dev,block + n⟩) : l.Nodup := by
  rw [nodup_iff_getElem?_ne_getElem?]
  intro a b hab hb heq
  obtain ⟨j,hj⟩ : ∃ j, l[b]? = some j := ⟨_,getElem?_eq_getElem hb⟩
  have hkb := h b j hj
  have hka := h a j (heq.trans hj)
  rw [hka] at hkb
  have hbk : block + a = block + b := congrArg Key.block hkb
  omega

lemma run_flown (h : Shape cfg m)
    (hspec : ∀ n j, run[n]? = some j → (m.slot j).writable = true ∧ (m.slot j).key = ⟨dev,block + n⟩) :
    Flown m ⟨dev,block,run,
        if 1 < run.length then some (run.map fun j => (m.slot j).data) else none,false⟩ ∧
      run.Nodup ∧ ∀ j ∈ run, (m.slot j).busy = false := by
  refine ⟨⟨fun n j hj => ?_,?_,fun hl => by cases hl⟩,row_nodup fun n j hj => (hspec n j hj).2,
    fun j hj => ?_⟩
  · obtain ⟨hw,hkey⟩ := hspec n j hj
    have hd := (Slot.writable_iff.mp hw).1
    exact ⟨h.dirty j hd,hd,hkey⟩
  · split
    · rfl
    rfl
  obtain ⟨n,hn⟩ := getElem?_of_mem hj
  exact (Slot.writable_iff.mp (hspec n j hn).1).2

lemma writebackRun_some (h : Shape cfg m)
    (hrun : bcacheWritebackRun cfg alloc i m = some (m', f)) :
    m' = m.claim f.slots ∧ f.landed = false ∧ Flown m f ∧ f.slots.Nodup ∧
      ∀ j ∈ f.slots, (m.slot j).busy = false := by
  rw [bcacheWritebackRun] at hrun
  split at hrun
  · simp only [ite_none_left_eq_some] at hrun
    obtain ⟨-,rfl,rfl⟩ := hrun
    refine ⟨rfl,rfl,run_flown h fun n j hj => ?_⟩
    split at hj
    · exact runForward_spec h hj
    rw [getElem?_take] at hj
    split at hj
    · exact runForward_spec h hj
    cases hj
  cases hrun

lemma writebackRun_none (h : Shape cfg m) (hrun : bcacheWritebackRun cfg alloc i m = none) :
    (m.slot i).writable = false := by
  rw [← Bool.not_eq_true]
  intro hw
  have hhs := h.hashed (h.dirty i (Slot.writable_iff.mp hw).1)
  rw [bcacheWritebackRun,if_pos hw] at hrun
  dsimp only at hrun
  have hba : ∃ j, bcacheFind cfg m ⟨(m.slot i).key.dev,runBack cfg m (m.slot i).key.dev
      (runMax cfg (m.slot i).key.dev - 1) (m.slot i).key.block⟩ = some j ∧
      (m.slot j).writable = true := runBack_spec ⟨i,h.find_of_hashed hhs,hw⟩
  obtain ⟨j,hfi,hj⟩ := hba
  cases hmax : runMax cfg (m.slot i).key.dev with
  | zero => exact absurd runMax_pos (by rw [hmax]; simp)
  | succ =>
    rw [hmax] at hrun hfi
    rw [runForward,hfi] at hrun
    simp [hj] at hrun

lemma clockSweep_spec {hand : Nat} {fallback : Option Nat}
    (hha : 0 < cfg.entries → hand < cfg.entries) (hlf : left ≤ cfg.entries)
    (hfall : ∀ i, fallback = some i →
      (m.slot i).busy = false ∧ (m.slot i).valid = true ∧ (m.slot i).dirty = true) :
    (0 < cfg.entries → (clockSweep cfg m left hand fallback).1 < cfg.entries) ∧
    match (clockSweep cfg m left hand fallback).2 with
    | .none => True
    | .empty i => Free cfg m i
    | .clean i => (m.slot i).busy = false ∧ (m.slot i).valid = true ∧ (m.slot i).dirty = false
    | .dirty i => (m.slot i).busy = false ∧ (m.slot i).valid = true ∧ (m.slot i).dirty = true := by
  induction left generalizing hand fallback with
  | zero =>
    cases fallback with
    | none => exact ⟨hha,trivial⟩
    | some i => exact ⟨hha,hfall i rfl⟩
  | succ _ ih =>
    have hpos : 0 < cfg.entries := by omega
    have hin : hand < cfg.entries := hha hpos
    have hnx : 0 < cfg.entries →
        (if hand + 1 ≥ cfg.entries then 0 else hand + 1) < cfg.entries := by
      split <;> omega
    rw [clockSweep]
    cases hbz : (m.slot hand).busy with
    | true => exact ih hnx (by omega) hfall
    | false =>
      cases hvl : (m.slot hand).valid with
      | false => exact ⟨hnx,hin,hvl,hbz⟩
      | true =>
        cases hdt : (m.slot hand).dirty with
        | false => exact ⟨hnx,hbz,hvl,hdt⟩
        | true =>
          refine ih hnx (by omega) fun i hi => ?_
          cases fallback with
          | none =>
            cases hi
            exact ⟨hbz,hvl,hdt⟩
          | some =>
            cases hi
            exact hfall _ rfl

lemma splitRuns_flatten : (splitRuns cfg m run first last l).flatten = run ++ l := by
  induction l generalizing run first last with
  | nil => simp [splitRuns]
  | cons i l ih =>
    rw [splitRuns]
    split
    · rw [ih,append_assoc]
      rfl
    rw [flatten_cons,ih]
    rfl

lemma splitRuns_row (hne : run ≠ [])
    (hrow : ∀ n i, run[n]? = some i → (m.slot i).key = ⟨first.dev,first.block + n⟩)
    (hla : last.dev = first.dev ∧ last.block + 1 = first.block + run.length) :
    ∀ r ∈ splitRuns cfg m run first last l, Row m r := by
  have hse : Row m run := by
    intro n i j hi hj
    rw [head?_eq_getElem?] at hj
    rw [hrow n i hi,hrow 0 j hj]
    rfl
  induction l generalizing run first last with
  | nil =>
    intro r hr
    rw [mem_singleton.mp hr]
    exact hse
  | cons i l ih =>
    have hsgl : ∀ n j, [i][n]? = some j →
        (m.slot j).key = ⟨(m.slot i).key.dev,(m.slot i).key.block + n⟩ := by
      intro n j hj
      cases n with
      | zero =>
        cases hj
        rfl
      | succ => simp at hj
    rw [splitRuns]
    split_ifs with hstep
    · have hkey : (m.slot i).key = ⟨first.dev,first.block + run.length⟩ := by
        rw [hstep.1,hla.1,hla.2]
      have hgr : ∀ n j, (run ++ [i])[n]? = some j →
          (m.slot j).key = ⟨first.dev,first.block + n⟩ := by
        intro n j hj
        obtain hn | hn := lt_or_ge n run.length
        · rw [getElem?_append_left hn] at hj
          exact hrow n j hj
        rw [getElem?_append_right hn] at hj
        have hlen := (List.getElem?_eq_some_iff.mp hj).1
        have hn' : n = run.length := by
          simp only [length_singleton] at hlen
          omega
        subst hn'
        simp only [Nat.sub_self,getElem?_cons_zero,some.injEq] at hj
        rw [← hj,hkey]
      refine ih (by simp) hgr ?_ ?_
      · rw [hkey,length_append]
        exact ⟨rfl,rfl⟩
      intro n a b ha hb
      rw [head?_eq_getElem?] at hb
      rw [hgr n a ha,hgr 0 b hb]
      rfl
    intro r hr
    obtain rfl | hr := mem_cons.mp hr
    · exact hse
    refine ih (by simp) hsgl ⟨rfl,rfl⟩ ?_ r hr
    intro n a b ha hb
    rw [hsgl n a ha,hsgl 0 b hb]
    rfl

lemma flushSorted_perm : (blkFlushSorted cfg m l).flatten.Perm l := by
  have hsort : (sortSet m l).Perm l := perm_insertionSort ..
  rw [blkFlushSorted]
  split
  · next hnil =>
    rw [hnil] at hsort
    exact hsort
  next i rest hcons =>
  rw [splitRuns_flatten]
  rw [hcons] at hsort
  exact hsort

lemma flushSorted_row : ∀ r ∈ blkFlushSorted cfg m l, Row m r := by
  rw [blkFlushSorted]
  split
  · intro r hr
    cases hr
  next i rest hcons =>
  refine splitRuns_row (by simp) (fun n j hj => ?_) ⟨rfl,rfl⟩
  cases n with
  | zero =>
    cases hj
    rfl
  | succ => simp at hj

open Function Relation World ReflTransGen

def Sweep.progress (y : Sweep) : Progress := ⟨y.scope,y.upto,y.base,y.seen⟩

def Sweep.hold (y : Sweep) (runs : List (List Nat)) : Hold β :=
  { set := runs.flatten ++ y.set.getD [], runs := runs, sweep := some y.progress }

def After.hold : After β → Hold β
  | .read r _ => { since := some r.since }
  | .ahead r gen next buf _ => { ahead := some ⟨gen,r.dev,next,buf⟩, since := some r.since }
  | .sweep y => y.hold []
  | .sorted y runs => y.hold runs
  | .write _ _ | .drain _ _ | .invalidate _ _ _ | .done => {}

def After.anchor : After β → Option Nat
  | .read _ anchor | .write _ anchor | .ahead _ _ _ _ anchor => some anchor
  | _ => none

def Prog.hold (cfg : Config β) : Prog β → Hold β
  | .read r => { since := some r.since }
  | .fill r i gen =>
    { fill := some ⟨i,r.key,none⟩
      ahead := some ⟨gen,r.dev,r.next + 1,[]⟩
      since := some r.since }
  | .filled r i gen b buf =>
    { fill := some ⟨i,r.key,some b⟩
      ahead := some ⟨gen,r.dev,r.next + 1,buf⟩
      since := some r.since }
  | .flight k f => { k.hold with flight := some f, anchor := k.anchor }
  | .drop _ a i => { zero := some (a, i) }
  | .command _ a => { zero := some (a, cfg.entries) }
  | .sweep y => y.hold []
  | .sorted y runs => y.hold runs
  | .idle | .write _ | .flushSome _ | .invalidate _ _ _ | .invalidateRange _ | .flushBuffer _ => {}

def World.out (w : World β) (cfg : Config β) (q : Actor) (o : Out β) : World β :=
  { mem := o.mem
    hold := update w.hold q.task (o.prog.hold cfg)
    delivered := w.delivered ++ o.reads
    dirtied := w.dirtied ++ o.writes.map fun d => ⟨d.1,d.2,q.file⟩
    synced := w.synced ++ o.synced }

def view (cfg : Config β) (s : State β) : World β :=
  { mem := s.mem
    hold := fun τ => (s.prog τ).hold cfg
    delivered := s.delivered
    dirtied := s.dirtied
    synced := s.synced }

variable {q : Actor} {w w' : World β} {x y : Hold β} {p : Prog β} {o : Out β} {s : State β}
  {τ : Nat}

lemma view_commit (hfile : q.file = s.file q.task) :
    view cfg (s.commit q.task o) = (view cfg s).out cfg q o := by
  have hho : (fun σ => (update s.prog q.task o.prog σ).hold cfg) =
      update (fun σ => (s.prog σ).hold cfg) q.task (o.prog.hold cfg) := by
    funext σ
    obtain rfl | hσ := eq_or_ne σ q.task
    · rw [update_self,update_self]
    rw [update_of_ne hσ,update_of_ne hσ]
  simp [view,State.commit,out,hho,hfile]

abbrev Moves (cfg : Config β) (q : Actor) : World β → World β → Prop :=
  ReflTransGen (Move cfg q)

lemma Inv.moves (h : Inv cfg w) (hm : Moves cfg q w w') : Inv cfg w' := by
  induction hm with
  | refl => exact h
  | tail _ hmo ih => exact ih.move hmo

@[simp] lemma World.out_put : (w.put q.task m x).out cfg q o = w.out cfg q o := by
  simp [out,put]

variable {m' : Cache β} {e : Slot β} {gen next left : Nat} {b : β} {bs buf : List β}
  {runs : List (List Nat)}

@[simp] lemma World.put_put : (w.put τ m' y).put τ m x = w.put τ m x := by
  simp [put]

@[simp] lemma World.put_hold : (w.put τ m x).hold τ = x := update_self _ _ _

lemma World.out_plain : w.out cfg q { mem := m, prog := p } = w.put q.task m (p.hold cfg) := by
  simp [out,put]

lemma World.put_self (hx : w.hold τ = x) : w.put τ m x = { w with mem := m } := by
  subst hx
  simp [put]

lemma World.out_stay (hx : w.hold q.task = p.hold cfg) :
    w.out cfg q { mem := m, prog := p } = { w with mem := m } := by
  rw [out_plain,put_self hx]

lemma recycle_eq (cfg : Config β) (hbz : (m.slot i).busy = false) (hdt : (m.slot i).dirty = false) :
    ∃ e : Slot β, e.Empty ∧ recycle cfg i m = vacate cfg i e m := by
  refine ⟨{ (bcacheHashRemove cfg i m).slot i with valid := false },?_,rfl⟩
  rw [hashRemove_slot,update_self]
  exact ⟨rfl,hbz,hdt,rfl⟩

lemma recycle_moves (hi : i < cfg.entries) (hbz : (w.mem.slot i).busy = false)
    (hdt : (w.mem.slot i).dirty = false) :
    Moves cfg q w { w with mem := recycle cfg i w.mem } ∧
      Free cfg (recycle cfg i w.mem) i := by
  obtain ⟨e,he,heq⟩ := recycle_eq cfg hbz hdt
  rw [heq]
  refine ⟨.single (.vacate i e he hbz fun hd => ?_),hi,by rw [vacate_self,he.valid],
    by rw [vacate_self,he.busy]⟩
  rw [hdt] at hd
  cases hd

@[simp] lemma recycle_medium : (recycle cfg i m).medium = m.medium := hashRemove_medium

@[simp] lemma recycle_history : (recycle cfg i m).history = m.history := hashRemove_history

def EvictSpec (cfg : Config β) (q : Actor) (w : World β) : Cache β × Evicted β → Prop
  | (m, .none) => Moves cfg q w { w with mem := m }
  | (m, .slot i) =>
    Moves cfg q w { w with mem := m } ∧ Free cfg m i ∧
      m.medium = w.mem.medium ∧ m.history = w.mem.history
  | (m, .flight anchor f) =>
    Moves cfg q w (w.put q.task m { w.hold q.task with flight := some f, anchor := some anchor })

lemma evict_spec (h : Inv cfg w) (hfl : (w.hold q.task).flight = none) :
    EvictSpec cfg q w (bcacheEvict cfg alloc w.mem) := by
  have hspec := clockSweep_spec (m := w.mem) h.shape.hand (le_refl cfg.entries)
    (fun i (hi : (none : Option Nat) = some i) => by cases hi)
  obtain ⟨hha,hvic⟩ := hspec
  rw [bcacheEvict]
  generalize clockSweep cfg w.mem cfg.entries w.mem.hand none = r at hha hvic
  obtain ⟨hand,victim⟩ := r
  have htk : Moves cfg q w
      { w with mem := { w.mem with hand } } :=
    .single (.tick { w.mem with hand } rfl rfl rfl rfl rfl hha)
  have hinv := h.moves htk
  cases victim with
  | none => exact htk
  | empty => exact ⟨htk,{ hvic with },rfl,rfl⟩
  | clean i =>
    obtain ⟨hbz,hvl,hdt⟩ := hvic
    obtain ⟨hmvs,hfe⟩ := recycle_moves (w := { w with mem := { w.mem with hand } })
      (hinv.shape.bound i (hinv.shape.hashed hvl)) hbz hdt
    exact ⟨htk.trans hmvs,hfe,recycle_medium,recycle_history⟩
  | dirty i =>
    obtain ⟨hbz,hvl,hdt⟩ := hvic
    dsimp only
    cases hrun : bcacheWritebackRun cfg alloc i { w.mem with hand } with
    | none =>
      have hno := writebackRun_none hinv.shape hrun
      exact absurd (Slot.writable_iff.mpr ⟨hdt,hbz⟩) (by rw [hno]; simp)
    | some r =>
      obtain ⟨m,f⟩ := r
      obtain ⟨rfl,hld,hfw,hnd,hid⟩ := writebackRun_some hinv.shape hrun
      refine htk.tail (.fly f (some i) (fun j hj => ?_) hfl hnd hld hfw hid)
      cases hj
      exact hinv.shape.bound i (hinv.shape.hashed hvl)

lemma Shape.find_valid (h : Shape cfg m) (hfi : bcacheFind cfg m k = some i)
    (hbz : (m.slot i).busy = false) : (m.slot i).valid = true ∧ (m.slot i).key = k := by
  obtain ⟨hhs,hkey⟩ := h.find_some hfi
  refine ⟨((h.used i).mp hhs).resolve_right ?_,hkey⟩
  rw [hbz]
  simp

variable {r : Read} {c ch : Choice β} {v : Write β} {a : Span} {y y1 : Sweep}

lemma readClaim_moves (h : Inv cfg w) (hho : w.hold q.task = (Prog.read r : Prog β).hold cfg)
    (hfe : Free cfg w.mem i) : Moves cfg q w (w.out cfg q (blkReadClaim cfg r i w.mem)) := by
  rw [blkReadClaim]
  split_ifs with hnone
  · rw [out_stay hho]
  have hab := h.shape.find_none (not_isSome_iff_eq_none.mp hnone)
  have hmo : Move cfg q w _ :=
    .claimFill i r.key hfe hab (by rw [hho]; rfl) (by rw [hho]; rfl) (by rw [hho]; rfl)
  rw [hho] at hmo
  rw [out_plain]
  exact .single hmo

lemma resume_moves {a : Option (Ahead β)} (hho : w.hold q.task = { ahead := a, since := some r.since }) :
    Moves cfg q w (w.put q.task w.mem ((r.resume : Prog β).hold cfg)) := by
  refine .single (.forget _ ?_)
  rw [hho,Read.resume]
  split
  · exact ⟨rfl,rfl,rfl,List.Perm.refl _,fun _ hr => hr,rfl,.inl rfl,.inl rfl,.inl rfl⟩
  exact ⟨rfl,rfl,rfl,List.Perm.refl _,fun _ hr => hr,rfl,.inl rfl,.inr rfl,.inl rfl⟩

lemma copyHits_moves {run : Nat} (h : Inv cfg w) (hsi : (w.hold q.task).since = some r.since) :
    Moves cfg q w
        { w with delivered := w.delivered ++ (copyHits cfg w.mem run r).2 } ∧
      (copyHits cfg w.mem run r).1.since = r.since := by
  induction run generalizing w r with
  | zero => exact ⟨by simp [copyHits,refl],rfl⟩
  | succ _ ih =>
    rw [copyHits]
    split
    · exact ⟨by simp [refl],rfl⟩
    split
    · exact ⟨by simp [refl],rfl⟩
    next i hfi =>
    cases hbz : (w.mem.slot i).busy with
    | true => exact ⟨by simp [refl],rfl⟩
    | false =>
      obtain ⟨hvl,hkey⟩ := h.shape.find_valid hfi hbz
      have hmo : Move cfg q w _ := .hit i r.since hsi hvl
      obtain ⟨hrs,hla⟩ := ih (r := r.advance) (h.move hmo) hsi
      rw [hkey] at hmo hrs
      refine ⟨(single hmo).trans ?_,hla⟩
      simpa using hrs

lemma readLookup_moves (h : Inv cfg w) (hho : w.hold q.task = (Prog.read r : Prog β).hold cfg) :
    Moves cfg q w (w.out cfg q (blkReadLookup cfg alloc r w.mem)) := by
  rw [blkReadLookup]
  split
  · next i hfi =>
    split
    · rw [out_stay hho]
    let w1 : World β := { w with delivered := w.delivered ++ (copyHits cfg w.mem hitRun r).2 }
    have hhits : Moves cfg q w w1 ∧ (copyHits cfg w.mem hitRun r).1.since = r.since :=
      copyHits_moves h (by rw [hho]; rfl)
    have hra : w1.hold q.task =
        { ahead := none, since := some (copyHits cfg w.mem hitRun r).1.since } := by
      rw [hhits.2]
      exact hho
    have hres : Moves cfg q w1 _ := resume_moves hra
    refine hhits.1.trans ?_
    simpa [out,put] using hres
  next hnone =>
  have hspec : EvictSpec cfg q w (bcacheEvict cfg alloc w.mem) := evict_spec h (by rw [hho]; rfl)
  cases hev : bcacheEvict cfg alloc w.mem with
  | mk m v =>
    rw [hev] at hspec
    cases v with
    | none =>
      rw [out_stay hho]
      exact hspec
    | slot => exact hspec.1.trans (readClaim_moves (h.moves hspec.1) hho hspec.2.1)
    | flight =>
      rw [out_plain]
      have hmvs : Moves cfg q w _ := hspec
      rw [hho] at hmvs
      exact hmvs

lemma clear_put (hx : x.zero = (w.hold τ).zero) : Clear (w.put τ m x) k ↔ Clear w k := by
  refine forall_congr' fun σ => ?_
  change (update w.hold τ x σ).zeroes k = false ↔ _
  obtain rfl | hσ := eq_or_ne σ τ
  · rw [update_self,Hold.zeroes,hx,Hold.zeroes]
  rw [update_of_ne hσ]

lemma readDevice_moves (hho : w.hold q.task = (Prog.fill r i gen : Prog β).hold cfg)
    (hsf : q.coherent → ∀ j < readRun cfg c r, Clear w ⟨r.dev,r.next + j⟩ ∧
      (0 < j → ∀ n, (w.mem.slot n).hashed = true → (w.mem.slot n).key = ⟨r.dev,r.next + j⟩ →
        (w.mem.slot n).dirty = false)) (hrun : 0 < readRun cfg c r) :
    Moves cfg q w (w.out cfg q (blkReadDevice cfg c r i gen w.mem)) := by
  rw [blkReadDevice,out_plain]
  have hmo : Move cfg q w _ :=
    .readFill ⟨i,r.key,none⟩ ⟨gen,r.dev,r.next + 1,[]⟩ (w.mem.medium r.key)
      ((range (readRun cfg c r - 1)).map fun j => w.mem.medium ⟨r.dev,r.next + 1 + j⟩)
      (by rw [hho]; rfl) (by rw [hho]; rfl) (by rw [hho]; rfl) (by rw [hho]; rfl) rfl
      (fun j c hj => ?_) (fun hc => ⟨(hsf hc 0 hrun).1,fun j hj => ?_⟩)
  · rw [hho] at hmo
    exact .single hmo
  · rw [getElem?_map,map_eq_some_iff] at hj
    obtain ⟨n,hn,rfl⟩ := hj
    have hlt := (List.getElem?_eq_some_iff.mp hn).1
    rw [length_range] at hlt
    rw [getElem?_range hlt] at hn
    cases hn
    rfl
  rw [length_map,length_range] at hj
  have hkey : (⟨r.dev,r.next + (j + 1)⟩ : Key) = ⟨r.dev,r.next + 1 + j⟩ := by
    rw [add_assoc,add_comm 1 j]
  have hboth := hsf hc (j + 1) (by omega)
  rw [hkey] at hboth
  exact ⟨hboth.1,hboth.2 (Nat.succ_pos j)⟩

lemma skipAhead_moves
    (hho : w.hold q.task = { ahead := some ⟨gen,r.dev,next,b :: bs⟩, since := some r.since }) :
    Moves cfg q w (w.put q.task w.mem
      { ahead := some ⟨gen,r.dev,next + 1,bs⟩, since := some r.since }) := by
  have hmo : Move cfg q w _ := .skipAhead ⟨gen,r.dev,next,b :: bs⟩ b bs (by rw [hho]) rfl
  rw [hho] at hmo
  exact .single hmo

lemma aheadInto_moves (h : Inv cfg w)
    (hho : w.hold q.task = { ahead := some ⟨gen,r.dev,next,b :: bs⟩, since := some r.since })
    (hfe : Free cfg w.mem i) (hclr : Clear w ⟨r.dev,next⟩)
    (hinto : aheadInto cfg gen i ⟨r.dev,next⟩ b w.mem = some m') :
    Moves cfg q w (w.put q.task m'
      { ahead := some ⟨gen,r.dev,next + 1,bs⟩, since := some r.since }) := by
  rw [aheadInto] at hinto
  split at hinto
  · next hgen =>
    split_ifs at hinto with hnone
    · cases hinto
      exact skipAhead_moves hho
    cases hinto
    have hab := h.shape.find_none (not_isSome_iff_eq_none.mp hnone)
    have hmo : Move cfg q w _ :=
      .publishAhead i ⟨gen,r.dev,next,b :: bs⟩ b bs (by rw [hho]) rfl hgen hfe hab hclr
    rw [hho] at hmo
    exact .single hmo
  cases hinto

lemma readAhead_moves (h : Inv cfg w)
    (hho : w.hold q.task = { ahead := some ⟨gen,r.dev,next,buf⟩, since := some r.since })
    (hclr : ∀ j < buf.length, Clear w ⟨r.dev,next + j⟩) :
    Moves cfg q w (w.out cfg q (readAhead cfg alloc r gen buf next w.mem)) := by
  induction buf generalizing next w with
  | nil =>
    rw [readAhead,out_plain]
    exact resume_moves hho
  | cons b bs ih =>
    have hrs : ∀ {w1 : World β} {m1 : Cache β}, w1.hold = w.hold →
        ∀ j < bs.length, Clear (w1.put q.task m1
          { ahead := some ⟨gen,r.dev,next + 1,bs⟩, since := some r.since })
            ⟨r.dev,next + 1 + j⟩ := by
      intro w1 m1 hw j hj
      rw [clear_put (by rw [hw,hho])]
      have hk := hclr (j + 1) (by simpa using hj)
      rw [← add_assoc,add_right_comm] at hk
      exact fun σ => hw ▸ hk σ
    have hgo : ∀ {w1 : World β} {m1 : Cache β}, w1.hold = w.hold → Inv cfg w1 →
        Moves cfg q w1 (w1.put q.task m1 { ahead := some ⟨gen,r.dev,next + 1,bs⟩, since := some r.since }) →
        Moves cfg q w1 (w1.out cfg q (readAhead cfg alloc r gen bs (next + 1) m1)) := by
      intro w1 m1 hw h1 hput
      have hnx := ih (h1.moves hput) put_hold (hrs hw)
      rw [out_put] at hnx
      exact hput.trans hnx
    rw [readAhead]
    split
    · exact hgo rfl h (skipAhead_moves hho)
    have hspec : EvictSpec cfg q w (bcacheEvict cfg alloc w.mem) := evict_spec h (by rw [hho])
    cases hev : bcacheEvict cfg alloc w.mem with
    | mk m v =>
      rw [hev] at hspec
      cases v with
      | none =>
        rw [out_plain]
        exact ReflTransGen.trans hspec (resume_moves hho)
      | flight =>
        rw [out_plain]
        have hmvs : Moves cfg q w _ := hspec
        rw [hho] at hmvs
        exact hmvs
      | slot i =>
        obtain ⟨hmvs,hfe,-,-⟩ := hspec
        have h1 := h.moves hmvs
        dsimp only
        cases hinto : aheadInto cfg gen i ⟨r.dev,next⟩ b m with
        | none =>
          rw [out_plain]
          exact hmvs.trans (resume_moves hho)
        | some =>
          have hput := aheadInto_moves h1 hho hfe
            (hclr 0 (by simp)) hinto
          exact hmvs.trans (hgo rfl h1 hput)

lemma World.out_read {d : Delivery β} :
    ({ w with delivered := w.delivered ++ [d] } : World β).out cfg q o =
      w.out cfg q { o with reads := d :: o.reads } := by
  simp [out]

lemma readPublish_moves (h : Inv cfg w)
    (hho : w.hold q.task = (Prog.filled r i gen b buf : Prog β).hold cfg)
    (hclr : ∀ j < buf.length + 1, Clear w ⟨r.dev,r.next + j⟩) :
    Moves cfg q w (w.out cfg q (blkReadPublish cfg alloc r i gen buf w.mem)) := by
  have hfill : (w.hold q.task).fill = some ⟨i,r.key,some b⟩ := by rw [hho]; rfl
  let x : Hold β := { ahead := some ⟨gen,r.dev,r.next + 1,buf⟩, since := some r.since }
  let w1 := w.put q.task (publishFill i w.mem) x
  let d : Delivery β := ⟨r.key,r.since r.key,((publishFill i w.mem).slot i).data⟩
  let w2 : World β := { w1 with delivered := w1.delivered ++ [d] }
  have hpub : Move cfg q w w1 := by
    have hmo : Move cfg q w _ :=
      .publishFill ⟨i,r.key,some b⟩ hfill (by rw [hho]; rfl) (by rw [hho]; rfl) rfl
        (hclr 0 (Nat.succ_pos _))
    rw [hho] at hmo
    exact hmo
  have hhit : Move cfg q w1 w2 := by
    have hslot : w1.mem.slot i = { w.mem.slot i with valid := true, dirty := false, busy := false } :=
      update_self ..
    have hkey : (w1.mem.slot i).key = r.key := by
      rw [hslot]
      exact ((h.holds q.task).fill _ hfill).1
    have hmo : Move cfg q w1 _ := .hit i r.since (by rw [put_hold]) (by rw [hslot])
    rw [hkey] at hmo
    exact hmo
  have hto := (single hpub).tail hhit
  have hw2 : w2.hold q.task = x := update_self ..
  have hout : ∀ o : Out β, w2.out cfg q o = w.out cfg q { o with reads := d :: o.reads } := by
    intro o
    rw [out_read,out_put]
  refine hto.trans ?_
  rw [blkReadPublish,← hout]
  split
  · refine readAhead_moves (h.moves hto) hw2 fun j hj => ?_
    have hk := hclr (j + 1) (Nat.succ_lt_succ hj)
    rw [← add_assoc,add_right_comm] at hk
    exact (clear_put (m := publishFill i w.mem) (by rw [hho]; rfl)).mpr hk
  rw [out_plain]
  exact resume_moves hw2

lemma hold_resume : (v.resume cfg).hold cfg = {} := by
  rw [Write.resume]
  split
  · rfl
  split <;> rfl

lemma hold_wrote : (v.wrote cfg c).hold cfg = {} := by
  simp only [Write.wrote]
  split
  · rfl
  exact hold_resume

lemma writeInto_moves (hho : w.hold q.task = {}) (hvl : (w.mem.slot i).valid = true)
    (hbz : (w.mem.slot i).busy = false) (hkey : (w.mem.slot i).key = v.key)
    (hown : q.durable → Stamping w q.stamp q.file v.key) :
    Moves cfg q w (w.out cfg q (blkWriteInto cfg c q.stamp v b i w.mem)) := by
  have hmo : Move cfg q w _ := .write i v.key b hvl hbz hkey hown
  refine .single ?_
  have hsa : update w.hold q.task ((v.wrote cfg c).hold cfg) = w.hold := by
    rw [hold_wrote,← hho,update_eq_self]
  simpa [out,blkWriteInto,hsa] using hmo

lemma Stamping.congr {file : Option Owner} {stamp : Owner} (h : Stamping w stamp file k)
    (hdd : w'.dirtied = w.dirtied) (hmed : w'.mem.medium = w.mem.medium)
    (hhis : w'.mem.history = w.mem.history) : Stamping w' stamp file k := by
  refine ⟨h.1,fun d hd hk hno => h.2 d (hdd ▸ hd) hk fun hdur => hno ?_⟩
  rw [Durable,hmed,hhis]
  exact hdur

@[simp] lemma install_history : (install cfg i k m).history = m.history := rfl

section

variable (h : Inv cfg w)

include h

lemma writeSlot_moves (hho : w.hold q.task = {}) (hfe : Free cfg w.mem i)
    (hclr : Clear w v.key) (hown : q.durable → Stamping w q.stamp q.file v.key) :
    Moves cfg q w (w.out cfg q (blkWriteSlot cfg c q.stamp v b i w.mem)) := by
  rw [blkWriteSlot]
  split
  · next j hfi =>
    have hsa : (w.mem.edit i fun e => { e with busy := false }) = w.mem :=
      edit_eq_self (by rw [← hfe.busy])
    rw [hsa]
    cases hbz : (w.mem.slot j).busy with
    | true =>
      simp only [hbz,if_true]
      rw [out_stay hho]
    | false =>
      obtain ⟨hvl,hkey⟩ := h.shape.find_valid hfi hbz
      simp only [hbz]
      exact writeInto_moves hho hvl hbz hkey hown
  next hnone =>
  have hmo : Move cfg q w _ := .writeNew i v.key b hfe (h.shape.find_none hnone) hclr hown
  refine .single ?_
  have hsa : update w.hold q.task ((v.wrote cfg c).hold cfg) = w.hold := by
    rw [hold_wrote,← hho,update_eq_self]
  simpa [out,blkWriteInto,hsa] using hmo

lemma writeLookup_moves (hho : w.hold q.task = {}) (hclr : Clear w v.key)
    (hown : q.durable → Stamping w q.stamp q.file v.key) :
    Moves cfg q w (w.out cfg q (blkWriteLookup cfg c q.stamp v w.mem)) := by
  rw [blkWriteLookup]
  split
  · rw [out_stay]
    split
    · exact hho
    rw [hold_resume]
    exact hho
  next b rest hda =>
  split
  · next i hfi =>
    cases hbz : (w.mem.slot i).busy with
    | true =>
      simp only [if_true]
      rw [out_stay hho]
    | false =>
      obtain ⟨hvl,hkey⟩ := h.shape.find_valid hfi hbz
      exact writeInto_moves hho hvl hbz hkey hown
  have hspec : EvictSpec cfg q w (bcacheEvict cfg c.alloc w.mem) := evict_spec h (by rw [hho])
  cases hev : bcacheEvict cfg c.alloc w.mem with
  | mk m victim =>
    rw [hev] at hspec
    cases victim with
    | none =>
      rw [out_stay hho]
      exact hspec
    | slot =>
      obtain ⟨hmvs,hfe,hmed,hhis⟩ := hspec
      exact hmvs.trans (writeSlot_moves (h.moves hmvs) hho hfe hclr
        fun hd => (hown hd).congr rfl hmed hhis)
    | flight =>
      rw [out_plain]
      have hmvs : Moves cfg q w _ := hspec
      rw [hho] at hmvs
      exact hmvs

lemma tick_moves (hslot : m.slot = w.mem.slot) (hch : m.chain = w.mem.chain)
    (hmed : m.medium = w.mem.medium) (hhis : m.history = w.mem.history)
    (hgen : m.gen = w.mem.gen) (hha : m.hand = w.mem.hand) :
    Moves cfg q w { w with mem := m } :=
  .single (.tick m hslot hch hmed hhis hgen (hha ▸ h.shape.hand))

lemma drainMore_moves (hho : w.hold q.task = {}) :
    Moves cfg q w (w.out cfg q (drainMore cfg alloc v left w.mem)) := by
  have hsp : ∀ {w1 : World β}, Inv cfg w1 → w1.hold q.task = {} →
      Moves cfg q w1 (w1.out cfg q { mem := { w1.mem with flushing := false }, prog := v.resume cfg }) := by
    intro w1 h1 hhold1
    rw [out_stay (hhold1.trans hold_resume.symm)]
    exact tick_moves h1 rfl rfl rfl rfl rfl rfl
  rw [drainMore]
  dsimp only
  split
  · exact hsp h hho
  split
  · exact hsp h hho
  next i han =>
  let m1 := { w.mem with cursor := (i + 1) % cfg.entries }
  have htk : Moves cfg q w { w with mem := m1 } := tick_moves h rfl rfl rfl rfl rfl rfl
  have h1 := h.moves htk
  refine htk.trans ?_
  split
  · exact hsp h1 hho
  next m f hrun =>
  obtain ⟨rfl,hld,hfw,hnd,hid⟩ := writebackRun_some h1.shape hrun
  have hmo : Move cfg q { w with mem := m1 } _ :=
    .fly f none nofun (by rw [hho]) hnd hld hfw hid
  rw [hho] at hmo
  rw [out_plain]
  exact .single hmo

lemma flushSome_moves (hho : w.hold q.task = {}) :
    Moves cfg q w (w.out cfg q (bcacheFlushSome cfg alloc v w.mem)) := by
  rw [bcacheFlushSome]
  split
  · rw [out_stay (hho.trans hold_resume.symm)]
  have htk : Moves cfg q w { w with mem := { w.mem with flushing := true } } :=
    tick_moves h rfl rfl rfl rfl rfl rfl
  exact htk.trans (drainMore_moves (h.moves htk) hho)

end

lemma hold_dropNext (cfg : Config β) (c : Command) (a : Span) (j : Nat) :
    ∃ n ≤ j, ((dropNext cfg c a j : Prog β).hold cfg) = { zero := some (a, n) } := by
  rw [dropNext]
  split
  · exact ⟨j,le_rfl,rfl⟩
  next hj => exact ⟨cfg.entries,le_of_not_gt hj,rfl⟩

lemma dropSlot_eq (cfg : Config β) (m : Cache β) (i : Nat) :
    ∃ e : Slot β, e.Empty ∧ dropSlot cfg i m = vacate cfg i e m := by
  refine ⟨{ (bcacheHashRemove cfg i m).slot i with
    key := ⟨0,0⟩, valid := false, busy := false, dirty := false },?_,rfl⟩
  rw [hashRemove_slot,update_self]
  exact ⟨rfl,rfl,rfl,rfl⟩

section

variable {c : Command} (hho : w.hold q.task = { zero := some (a, i) })

include hho

lemma passZero_moves (hgo : (w.mem.slot i).valid = true → a.has (w.mem.slot i).key = false) :
    Moves cfg q w (w.put q.task w.mem ((dropNext cfg c a (i + 1) : Prog β).hold cfg)) := by
  obtain ⟨n,hn,hnx⟩ := hold_dropNext cfg c a (i + 1)
  have hmo : Move cfg q w _ := .passZero a i n (by rw [hho]) hgo hn
  rw [hho] at hmo
  rw [hnx]
  exact .single hmo

lemma dropRange_moves : Moves cfg q w (w.out cfg q (bcacheDropRange cfg c a i w.mem)) := by
  rw [bcacheDropRange]
  split_ifs with hsk hbz
  · rw [out_plain]
    refine passZero_moves hho fun hv => ?_
    simpa [hv] using hsk
  · rw [out_stay hho]
  obtain ⟨e,he,heq⟩ := dropSlot_eq cfg w.mem i
  simp only [Bool.or_eq_true,Bool.not_eq_true',not_or,Bool.not_eq_false] at hsk
  have hmo : Move cfg q w _ := .vacate i e he (by simpa using hbz) fun _ => by
    rw [hho]
    exact hsk.2
  rw [out_plain,heq]
  refine (single hmo).trans
    (passZero_moves hho fun hv => ?_)
  exact absurd rfl (vacate_flag he.valid hv).1

end

lemma command_moves {c : Command}
    (hho : w.hold q.task = { zero := some (a, cfg.entries) }) (hapt : q.coherent → ∀ σ,
      (∀ p, (w.hold σ).fill = some p → a.has p.key = false) ∧
      ∀ g, (w.hold σ).ahead = some g → ∀ j < g.buf.length, a.has (g.key j) = false) :
    Moves cfg q w (w.out cfg q (blkCommand cfg c ch a w.mem)) := by
  have hmo : Move cfg q w _ :=
    .landZero a cfg.entries (c.contents cfg ch) (by rw [hho]) le_rfl hapt
  rw [hho] at hmo
  rw [blkCommand,out_plain]
  exact .single hmo

lemma flushOne_flown (hvl : (m.slot i).valid = true) (hdt : (m.slot i).dirty = true) :
    Flown m (bcacheFlushOne i m).2 := by
  refine ⟨fun n j hj => ?_,rfl,fun hl => by cases hl⟩
  cases n with
  | zero =>
    cases hj
    exact ⟨hvl,hdt,rfl⟩
  | succ => simp [bcacheFlushOne] at hj

lemma flushOne_moves (hfl : (w.hold q.task).flight = none)
    (han : (w.hold q.task).anchor = none) (hvl : (w.mem.slot i).valid = true)
    (hdt : (w.mem.slot i).dirty = true) (hbz : (w.mem.slot i).busy = false) :
    Moves cfg q w (w.put q.task (bcacheFlushOne i w.mem).1
      { w.hold q.task with flight := some (bcacheFlushOne i w.mem).2 }) := by
  have hmo : Move cfg q w _ := .fly (bcacheFlushOne i w.mem).2 none nofun hfl
    (nodup_singleton i) rfl (flushOne_flown hvl hdt) fun j hj => ?_
  · rw [← han] at hmo
    exact .single hmo
  rw [mem_singleton.mp hj]
  exact hbz

lemma Scope.wants_dirty {y : Scope} (h : y.wants e = true) : e.valid = true ∧ e.dirty = true := by
  cases y with
  | drainAll => simpa [Scope.wants] using h
  | matching =>
    simp only [Scope.wants,Bool.and_eq_true] at h
    exact ⟨h.1.1.1,h.1.2⟩

def Unclaimed (w : World β) (τ : Nat) : Prop :=
  ∀ i, (w.mem.slot i).dirty = true → (w.mem.slot i).busy = true → i ∈ (w.hold τ).slots

lemma Sweep.hold_slots : (y.hold runs : Hold β).slots = runs.flatten ++ y.set.getD [] := rfl

lemma pass_moves {g : Option (Flight β)}
    (hho : w.hold q.task = { (y.hold [] : Hold β) with flight := g })
    (hke : y.seen = true → seen = true)
    (hps : q.durable → seen = true ∨ y.scope.wants (w.mem.slot y.base) = false ∨
      y.base ∈ (w.hold q.task).slots ∨ y.scope = .drainAll false) :
    Moves cfg q w (w.put q.task w.mem
      { (({ y with base := y.base + 1, seen } : Sweep).hold [] : Hold β) with flight := g }) := by
  have hmo : Move cfg q w _ := .pass y.progress seen (by rw [hho]; rfl) hke hps
  rw [hho] at hmo
  exact .single hmo

lemma collect_moves {l : List Nat} (hho : w.hold q.task = y.hold []) (hset : y.set = some l)
    (hwn : y.scope.wants (w.mem.slot y.base) = true) (hbz : (w.mem.slot y.base).busy = false) :
    Moves cfg q w (w.put q.task (w.mem.claim [y.base])
      (({ y with base := y.base + 1, set := some (l ++ [y.base]) } : Sweep).hold [])) := by
  obtain ⟨hvl,hdt⟩ := Scope.wants_dirty hwn
  have hmo : Move cfg q w _ := .collect y.base hvl hdt hbz
  let y1 : Sweep := { y with set := some (l ++ [y.base]) }
  have hsa : ({ (y.hold [] : Hold β) with set := (y.hold [] : Hold β).set ++ [y.base] } : Hold β) =
      y1.hold [] := by
    simp [Sweep.hold,y1,hset,Sweep.progress]
  rw [hho,hsa] at hmo
  have hpass : Moves cfg q (w.put q.task (w.mem.claim [y.base]) (y1.hold [])) _ :=
    pass_moves put_hold (fun hs => hs) fun _ => ?_
  · rw [put_put] at hpass
    exact (single hmo).trans hpass
  refine .inr (.inr (.inl ?_))
  rw [put_hold,Sweep.hold_slots]
  simp [y1]

lemma sweepSlots_moves (h : Inv cfg w) (hho : w.hold q.task = y.hold [])
    (hmi : q.durable → y.scope = .drainAll true → Unclaimed w q.task) :
    Moves cfg q w (w.put q.task (sweepSlots w.mem left y).1
      { ((sweepSlots w.mem left y).2.1.hold [] : Hold β) with
        flight := (sweepSlots w.mem left y).2.2 }) := by
  induction left generalizing w y with
  | zero =>
    change Moves cfg q w (w.put q.task w.mem (y.hold []))
    rw [put_self hho]
  | succ left ih =>
    have hgo : ∀ {m1 : Cache β} {y1 : Sweep}, y1.scope = y.scope →
        (∀ j, (w.mem.slot j).dirty = true → j ∈ (y.hold [] : Hold β).slots → j ∈ y1.set.getD []) →
        (∀ j, (m1.slot j).dirty = true → (m1.slot j).busy = true →
          (w.mem.slot j).dirty = true ∧ (w.mem.slot j).busy = true ∨ j ∈ y1.set.getD []) →
        Moves cfg q w (w.put q.task m1 (y1.hold [])) →
        Moves cfg q w (w.put q.task (sweepSlots m1 left y1).1
          { ((sweepSlots m1 left y1).2.1.hold [] : Hold β) with
            flight := (sweepSlots m1 left y1).2.2 }) := by
      intro m1 y1 hsc hkp hnew hmvs
      have hrs := ih (h.moves hmvs) put_hold fun hd hs j hj hb => by
        rw [put_hold]
        obtain ⟨hdt,hbz⟩ | hin := hnew j hj hb
        · have hold := hmi hd (hsc ▸ hs) j hdt hbz
          rw [hho] at hold
          exact hkp j hdt hold
        exact hin
      rw [put_put] at hrs
      exact hmvs.trans hrs
    rw [sweepSlots]
    split
    · next hno =>
      refine hgo rfl (fun j _ hj => hj) (fun j hd hb => .inl ⟨hd,hb⟩) ?_
      exact pass_moves hho (fun hs => hs) fun _ =>
        .inr (.inl (by simpa using hno))
    next hyes =>
    have hwn : y.scope.wants (w.mem.slot y.base) = true := by simpa using hyes
    obtain ⟨hvl,hdt⟩ := Scope.wants_dirty hwn
    split_ifs with hbz
    · refine hgo rfl (fun j _ hj => hj) (fun j hd hb => .inl ⟨hd,hb⟩) ?_
      refine pass_moves hho (fun hs => by simp [hs]) fun hd => ?_
      cases hsc : y.scope with
      | matching => exact .inl (by simp [Scope.waits])
      | drainAll second =>
        cases second with
        | false => exact .inr (.inr (.inr rfl))
        | true => exact .inr (.inr (.inl (hmi hd hsc _ hdt hbz)))
    have hbz : (w.mem.slot y.base).busy = false := by simpa using hbz
    split
    · next hset =>
      have hfly : Moves cfg q w _ :=
        flushOne_moves (by rw [hho]; rfl) (by rw [hho]; rfl) hvl hdt hbz
      rw [hho] at hfly
      have hpass : Moves cfg q (w.put q.task (bcacheFlushOne y.base w.mem).1
          { (y.hold [] : Hold β) with flight := some (bcacheFlushOne y.base w.mem).2 }) _ :=
        pass_moves put_hold (fun hs => hs) fun _ => .inr (.inr (.inl ?_))
      · rw [put_put] at hpass
        exact hfly.trans hpass
      rw [put_hold]
      exact Hold.flight_mem rfl (mem_singleton.mpr rfl)
    next l hset =>
    split
    · change Moves cfg q w (w.put q.task w.mem (y.hold []))
      rw [put_self hho]
    refine hgo rfl (fun j _ hj => ?_) (fun j hd hb => ?_)
      (collect_moves hho hset hwn hbz)
    · rw [Sweep.hold_slots,hset] at hj
      exact mem_append_left _ hj
    rw [claim_slot] at hd hb
    simp only [Bool.or_eq_true,decide_eq_true_eq] at hb
    obtain hb | hb := hb
    · exact .inl ⟨hd,hb⟩
    exact .inr (mem_append_right _ hb)

section

variable (hho : w.hold q.task = y.hold [])

include hho

lemma sort_moves :
    Moves cfg q w (w.put q.task w.mem
      (({ y with set := some [] } : Sweep).hold (blkFlushSorted cfg w.mem (y.set.getD [])))) := by
  have hpm : (blkFlushSorted cfg w.mem (y.set.getD [])).flatten.Perm (y.set.getD []) :=
    flushSorted_perm
  have hord : Move cfg q w _ := .order (blkFlushSorted cfg w.mem (y.set.getD [])) fun run hrun =>
    ⟨fun i hi => ?_,flushSorted_row run hrun⟩
  · rw [hho] at hord
    have hfg : Move cfg q (w.put q.task w.mem
        { (y.hold [] : Hold β) with runs := blkFlushSorted cfg w.mem (y.set.getD []) }) _ :=
      .forget (({ y with set := some [] } : Sweep).hold (blkFlushSorted cfg w.mem (y.set.getD []))) ?_
    · rw [put_put] at hfg
      exact (single hord).tail hfg
    rw [put_hold]
    refine ⟨rfl,rfl,rfl,?_,fun _ hr => hr,rfl,.inl rfl,.inl rfl,.inr rfl⟩
    simpa [Sweep.hold] using hpm
  rw [hho]
  exact hpm.mem_iff.mp (mem_flatten.mpr ⟨run,hrun,hi⟩)

lemma restart_moves (hset : y1.set.getD [] = y.set.getD []) (hupto : y1.upto = y.upto)
    (hbs : y1.base = 0) (hsn : y1.seen = false) : Moves cfg q w (w.put q.task w.mem (y1.hold [])) := by
  have hmo : Move cfg q w _ := .restart y.progress y1.scope (by rw [hho]; rfl)
  have hsa : ({ (y.hold [] : Hold β) with
      sweep := some ⟨y1.scope,y.progress.upto,0,false⟩ } : Hold β) = y1.hold [] := by
    simp [Sweep.hold,Sweep.progress,hset,hupto,hbs,hsn]
  rw [hho,hsa] at hmo
  exact .single hmo

lemma sweepNext_moves : Moves cfg q w (w.out cfg q (sweepNext cfg alloc y w.mem)) := by
  rw [sweepNext]
  split
  · rw [out_plain]
    exact sort_moves hho
  next hsm =>
  split
  · next hbs =>
    have hsa : w.hold q.task =
        (Prog.sweep { y with left := min scanChunk (cfg.entries - y.base) } : Prog β).hold cfg :=
      hho
    rw [out_stay hsa]
  next hbs =>
  have hnil : y.set.getD [] = [] := by
    by_contra hne
    exact hsm (.inr ⟨hne,le_of_not_gt hbs⟩)
  split_ifs with hsn
  · rw [out_plain]
    exact restart_moves hho rfl rfl rfl rfl
  have hdo : y.scope ≠ .drainAll false →
      Moves cfg q w (w.out cfg q { mem := w.mem, prog := .idle, synced := [(y.scope, y.upto)] }) := by
    intro hsc
    have hmo : Move cfg q w _ := .synced y.progress (by rw [hho]; rfl)
      (le_of_not_gt hbs) (by simpa [Sweep.progress] using hsn)
      (by rw [hho,Sweep.hold_slots,hnil]; rfl) hsc
    have hsa : ({ (y.hold [] : Hold β) with sweep := none } : Hold β) = {} := by
      simp [Sweep.hold,hnil]
    rw [hho,hsa] at hmo
    refine .single ?_
    simpa [out,Prog.hold,Sweep.progress] using hmo
  split
  · rw [out_plain]
    refine restart_moves hho ?_ rfl rfl rfl
    rw [hnil]
    cases alloc <;> rfl
  next hsc => exact hdo hsc

end

lemma sweepOn_moves (h : Inv cfg w) (hho : w.hold q.task = y.hold [])
    (hmi : q.durable → y.scope = .drainAll true → Unclaimed w q.task) :
    Moves cfg q w (w.out cfg q (sweepOn cfg alloc y w.mem)) := by
  have hsl : Moves cfg q w (w.put q.task (sweepSlots w.mem y.left y).1
      { ((sweepSlots w.mem y.left y).2.1.hold [] : Hold β) with
        flight := (sweepSlots w.mem y.left y).2.2 }) := sweepSlots_moves h hho hmi
  rw [sweepOn]
  generalize sweepSlots w.mem y.left y = r at hsl
  obtain ⟨m,y1,g⟩ := r
  cases g with
  | none =>
    have hnx : Moves cfg q (w.put q.task m (y1.hold []))
        (out _ cfg q (sweepNext cfg alloc y1 m)) := sweepNext_moves put_hold
    rw [out_put] at hnx
    exact ReflTransGen.trans hsl hnx
  | some =>
    rw [out_plain]
    exact hsl

lemma flushRun_moves (h : Inv cfg w) (hho : w.hold q.task = y.hold runs) :
    Moves cfg q w (w.out cfg q (blkFlushRun cfg alloc y runs w.mem)) := by
  have hse := h.holds q.task
  rw [hho] at hse
  cases runs with
  | nil => exact sweepNext_moves hho
  | cons run rest =>
    have hin : ∀ i ∈ run, (w.mem.slot i).valid = true ∧ (w.mem.slot i).dirty = true :=
      fun i hi => hse.set i ((hse.runs run (.head _)).1 i hi)
    have hrow := (hse.runs run (.head _)).2
    have hfly : ∀ f : Flight β, f.slots = run → f.landed = false → Flown w.mem f →
        Moves cfg q w (w.put q.task w.mem { (y.hold rest : Hold β) with flight := some f }) := by
      intro f hsl hld hfw
      have hmo : Move cfg q w _ := .dispatch f (rest.flatten ++ y.set.getD []) rest
        (by rw [hho]; rfl) (by rw [hho,hsl]; simp [Sweep.hold]) hld hfw fun r hr => ?_
      · rw [hho] at hmo
        exact .single hmo
      rw [hho]
      refine ⟨.tail _ hr,fun i hi => mem_append_left _ ?_⟩
      exact mem_flatten.mpr ⟨r,hr,hi⟩
    match run, hin, hrow, hfly with
    | [], _, _, _ =>
      rw [blkFlushRun,out_plain]
      refine .single (.forget _ ?_)
      rw [hho]
      exact ⟨rfl,rfl,rfl,List.Perm.refl _,fun r => .tail _,rfl,.inl rfl,.inl rfl,.inr rfl⟩
    | [i], hin, _, hfly =>
      rw [blkFlushRun,out_plain]
      obtain ⟨hvl,hdt⟩ := hin i (.head _)
      exact hfly _ rfl rfl (flushOne_flown hvl hdt)
    | i :: j :: l, hin, hrow, hfly =>
      rw [blkFlushRun]
      split
      · rw [out_plain]
        refine hfly _ rfl rfl ⟨fun n a ha => ?_,rfl,fun hl => by cases hl⟩
        obtain ⟨hvl,hdt⟩ := hin a (mem_of_getElem? ha)
        exact ⟨hvl,hdt,hrow n a i ha rfl⟩
      have hmo : Move cfg q w _ := .order ((i :: j :: l).map (fun n => [n]) ++ rest) fun r hr => ?_
      · have hflat : ((i :: j :: l).map (fun n => [n]) ++ rest).flatten =
            ((i :: j :: l) :: rest).flatten := by
          rw [flatten_append,flatten_cons,← flatMap_def,flatMap_singleton']
        rw [hho] at hmo
        rw [out_plain]
        refine .single ?_
        rw [Prog.hold,Sweep.hold,hflat]
        exact hmo
      rw [hho]
      obtain hr | hr := mem_append.mp hr
      · obtain ⟨n,hn,rfl⟩ := mem_map.mp hr
        refine ⟨fun a ha => ?_,fun c a b ha hb => ?_⟩
        · rw [mem_singleton.mp ha]
          exact (hse.runs _ (.head _)).1 n hn
        cases c with
        | zero =>
          cases ha
          cases hb
          rfl
        | succ => simp at ha
      exact hse.runs r (.tail _ hr)

lemma invalidateSlots_moves (h : Inv cfg w) (hho : w.hold q.task = {}) :
    Moves cfg q w (w.out cfg q (invalidateSlots cfg a left i w.mem)) := by
  induction left generalizing w i with
  | zero =>
    rw [invalidateSlots,out_stay]
    split
    · exact hho
    exact hho
  | succ left ih =>
    rw [invalidateSlots]
    split
    · exact ih h hho
    split
    · rw [out_stay hho]
    next hid =>
    have hbz : (w.mem.slot i).busy = false := by simpa using hid
    split_ifs with hdt
    · simp only [Bool.and_eq_true] at hdt
      have hfly : Moves cfg q w _ :=
        flushOne_moves (by rw [hho]) (by rw [hho]) hdt.1 hdt.2 hbz
      rw [hho] at hfly
      rw [out_plain]
      exact hfly
    obtain ⟨e,he,heq⟩ := dropSlot_eq cfg w.mem i
    have hmo : Move cfg q w { w with mem := vacate cfg i e w.mem } :=
      .vacate i e he hbz fun hd => absurd (by simp [hd,h.shape.dirty i hd]) hdt
    rw [heq]
    exact (single hmo).trans (ih (h.move hmo) hho)

lemma invalidateRange_moves (hho : w.hold q.task = {})
    (hcl : ∀ i, bcacheFind cfg w.mem ⟨a.dev,a.first⟩ = some i → (w.mem.slot i).dirty = false) :
    Moves cfg q w (w.out cfg q (blkCacheInvalidateRange cfg a w.mem)) := by
  have hnx : ∀ {p : Prop} [Decidable p] {b : Span},
      w.hold q.task = (if p then Prog.invalidateRange b else .idle : Prog β).hold cfg := by
    intro p _ b
    split
    · exact hho
    exact hho
  rw [blkCacheInvalidateRange]
  split
  · rw [out_stay hnx]
  next i hfi =>
  split
  · rw [out_stay hho]
  next hid =>
  have hbz : (w.mem.slot i).busy = false := by simpa using hid
  rw [out_stay hnx]
  refine .single (.vacate i
    { (bcacheHashRemove cfg i w.mem).slot i with valid := false, dirty := false } ?_ hbz fun hd => ?_)
  · rw [hashRemove_slot,update_self]
    exact ⟨rfl,hbz,rfl,rfl⟩
  rw [hcl i hfi] at hd
  cases hd

lemma flushBuffer_moves (hho : w.hold q.task = {}) :
    Moves cfg q w (w.out cfg q (blkFlushBuffer i w.mem)) := by
  rw [blkFlushBuffer]
  split_ifs with hid hdt
  · rw [out_stay hho]
  · simp only [Bool.and_eq_true] at hdt
    have hfly : Moves cfg q w _ :=
      flushOne_moves (by rw [hho]) (by rw [hho]) hdt.1 hdt.2 (by simpa using hid)
    rw [hho] at hfly
    rw [out_plain]
    exact hfly
  rw [out_stay hho]

lemma clean_eq_self (hbz : (m.slot i).busy = false) (hdt : (m.slot i).dirty = false) :
    m.clean i = m := by
  refine edit_eq_self ?_
  generalize m.slot i = e at hbz hdt
  obtain ⟨key,data,valid,busy,dirty,hashed,owner⟩ := e
  subst hbz hdt
  rfl

lemma evictDone_cases (hi : i < cfg.entries) (hbz : (w.mem.slot i).busy = false) :
    bcacheEvictDone cfg i w.mem = (w.mem, none) ∨
    ∃ m, bcacheEvictDone cfg i w.mem = (m, some i) ∧ Moves cfg q w { w with mem := m } ∧
      Free cfg m i ∧ m.medium = w.mem.medium ∧ m.history = w.mem.history := by
  rw [bcacheEvictDone]
  split_ifs with hcl
  · have hsa : (w.mem.edit i fun e => { e with busy := false }) = w.mem :=
      edit_eq_self (by rw [← hbz])
    exact .inl (by rw [hsa])
  have hdt : (w.mem.slot i).dirty = false := by simpa using hcl
  obtain ⟨hmvs,hfe⟩ := recycle_moves hi hbz hdt
  rw [clean_eq_self hbz hdt]
  exact .inr ⟨_,rfl,hmvs,hfe,recycle_medium,recycle_history⟩

lemma afterFlight_moves {k : After β} (h : Inv cfg w) (hho : w.hold q.task = k.hold)
    (han : ∀ i, k.anchor = some i → i < cfg.entries ∧ (w.mem.slot i).busy = false)
    (hwt : ∀ v i, k = .write v i → Clear w v.key ∧ (q.durable → Stamping w q.stamp q.file v.key))
    (hah : ∀ r gen next buf i, k = .ahead r gen next buf i → ∀ j < buf.length, Clear w ⟨r.dev,next + j⟩)
    (hsw : ∀ y, k = .sweep y → q.durable → y.scope = .drainAll true → Unclaimed w q.task) :
    Moves cfg q w (w.out cfg q (afterFlight cfg c q.stamp k f w.mem)) := by
  cases k with
  | read r anchor =>
    obtain ⟨hi,hbz⟩ := han anchor rfl
    rw [afterFlight]
    obtain heq | ⟨m,heq,hmvs,hfe,-,-⟩ := evictDone_cases hi hbz
    · rw [heq]
      rw [out_stay hho]
    rw [heq]
    exact hmvs.trans (readClaim_moves (h.moves hmvs) hho hfe)
  | write v anchor =>
    obtain ⟨hi,hbz⟩ := han anchor rfl
    obtain ⟨hclr,hown⟩ := hwt v anchor rfl
    rw [afterFlight]
    obtain heq | ⟨m,heq,hmvs,hfe,hmed,hhis⟩ := evictDone_cases hi hbz
    · rw [heq]
      rw [out_stay hho]
    rw [heq]
    cases hda : v.data with
    | nil =>
      rw [out_stay hho]
      exact hmvs
    | cons =>
      exact hmvs.trans (writeSlot_moves (h.moves hmvs) hho hfe hclr
        fun hd => (hown hd).congr rfl hmed hhis)
  | ahead r gen next buf anchor =>
    obtain ⟨hi,hbz⟩ := han anchor rfl
    have hclr := hah r gen next buf anchor rfl
    rw [afterFlight]
    obtain heq | ⟨m,heq,hmvs,hfe,hmed,hhis⟩ := evictDone_cases hi hbz
    · rw [heq]
      rw [out_plain]
      exact resume_moves hho
    rw [heq]
    have h1 := h.moves hmvs
    cases buf with
    | nil =>
      rw [out_plain]
      exact hmvs.trans (resume_moves hho)
    | cons b =>
      dsimp only
      cases hinto : aheadInto cfg gen anchor ⟨r.dev,next⟩ b m with
      | none =>
        rw [out_plain]
        exact hmvs.trans (resume_moves hho)
      | some =>
        have hput := aheadInto_moves h1 hho hfe
          (hclr 0 (by simp)) hinto
        refine hmvs.trans (hput.trans ?_)
        rw [← out_put]
        refine readAhead_moves (h1.moves hput) put_hold fun j hj => ?_
        rw [clear_put (by rw [hho]; rfl)]
        have hk := hclr (j + 1) (by simpa using hj)
        rw [← add_assoc,add_right_comm] at hk
        exact hk
  | drain => exact drainMore_moves h hho
  | sweep y => exact sweepOn_moves h hho (hsw y rfl)
  | sorted y runs =>
    rw [afterFlight,out_stay hho]
  | invalidate => exact invalidateSlots_moves h hho
  | done => rw [afterFlight,out_stay hho]

end B1nix.BlockCache
