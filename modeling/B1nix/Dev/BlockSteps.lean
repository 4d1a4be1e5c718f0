import B1nix.Dev.BlockScan

namespace B1nix.BlockCache

open Function Relation List

variable {β : Type} {bs : List β}

def Prog.touches : Prog β → Option Span
  | .fill r _ _ => some ⟨r.dev,r.next,r.next + 1⟩
  | .filled r _ _ _ buf => some ⟨r.dev,r.next,r.next + 1 + buf.length⟩
  | .flight (.ahead r _ next buf _) _ => some ⟨r.dev,next,next + buf.length⟩
  | .write v | .flight (.write v _) _ => some ⟨v.dev,v.next,v.next + 1⟩
  | _ => none

def Prog.zeroing : Prog β → Option Span
  | .drop _ a _ | .command _ a => some a
  | _ => none

variable (cfg : Config β)

def Apart (s : State β) : Prop :=
  ∀ τ < cfg.tasks, ∀ σ < cfg.tasks, ∀ a ∈ (s.prog τ).touches, ∀ b ∈ (s.prog σ).zeroing,
    a.meets b = false

instance (cfg : Config β) (s : State β) : Decidable (Apart cfg s) := by
  dsimp only [Apart]
  infer_instance

def Prog.anchorFree (m : Cache β) : Prog β → Bool
  | .flight k f => !f.landed || k.anchor.all fun i => decide (i ∈ f.slots) || !(m.slot i).busy
  | _ => true

def Prog.dropsClean (m : Cache β) : Prog β → Bool
  | .invalidateRange a => (bcacheFind cfg m ⟨a.dev,a.first⟩).all fun i => !(m.slot i).dirty
  | _ => true

@[mk_iff]
structure Sound (cfg : Config β) (s : State β) (τ : Nat) : Prop where
  apart : Apart cfg s
  anchor : (s.prog τ).anchorFree s.mem = true
  clean : (s.prog τ).dropsClean cfg s.mem = true

instance (cfg : Config β) (s : State β) (τ : Nat) : Decidable (Sound cfg s τ) :=
  decidable_of_iff _ (sound_iff ..).symm

def Prog.readsSettled (c : Choice β) (s : State β) : Prog β → Prop
  | .fill r _ _ =>
    (∀ σ < cfg.tasks, ∀ b ∈ (s.prog σ).zeroing,
      Span.meets ⟨r.dev,r.next,r.next + readRun cfg c r⟩ b = false) ∧
    ∀ i < cfg.entries, (s.mem.slot i).dirty = true →
      Span.has ⟨r.dev,r.next + 1,r.next + readRun cfg c r⟩ (s.mem.slot i).key = false
  | _ => True

instance (cfg : Config β) (c : Choice β) (s : State β) (p : Prog β) :
    Decidable (p.readsSettled cfg c s) := by
  cases p <;> (dsimp only [Prog.readsSettled]; infer_instance)

def Prog.written : Prog β → Option Key
  | .write v | .flight (.write v _) _ => some v.key
  | _ => none

def Prog.lastDrain : Prog β → Bool
  | .sweep y | .flight (.sweep y) _ => decide (y.scope = .drainAll true)
  | _ => false

@[mk_iff]
structure Tracked (cfg : Config β) (s : State β) (τ : Nat) : Prop where
  stamped : ∀ k ∈ (s.prog τ).written, Stamping (view cfg s) (s.stamp τ) (s.file τ) k
  drained : (s.prog τ).lastDrain = true → ∀ i < cfg.entries, (s.mem.slot i).dirty = true →
    (s.mem.slot i).busy = true → i ∈ ((s.prog τ).hold cfg).slots

instance (o : Owner) (file : Option Owner) : Decidable (o.covers file) :=
  inferInstanceAs (Decidable (o.ino = 0 ∨ ∀ f ∈ file, f = o))

instance [DecidableEq β] (m : Cache β) (d : Dirtied) : Decidable (Durable m d) :=
  inferInstanceAs (Decidable ((m.history d.key).Since d.version (m.medium d.key)))

instance [DecidableEq β] (w : World β) (stamp : Owner) (file : Option Owner) (k : Key) :
    Decidable (Stamping w stamp file k) := by
  dsimp only [Stamping]
  infer_instance

instance [DecidableEq β] (cfg : Config β) (s : State β) (τ : Nat) : Decidable (Tracked cfg s τ) :=
  decidable_of_iff _ (tracked_iff ..).symm

variable {cfg : Config β} {q : Actor} {s : State β} {τ dev j : Nat} {k k' : Key} {c : Choice β}
  {a b : Span} {p : Prog β} {alloc : Bool} {e : Event β} {s' : State β} {P : World β → Prop}

lemma Span.not_meets (h : a.meets b = false) (hk : a.has k = true) : b.has k = false := by
  simp only [Span.meets,Span.has,Bool.and_eq_true,Bool.and_eq_false_iff,beq_iff_eq,
    decide_eq_true_eq,decide_eq_false_iff_not,beq_eq_false_iff_ne] at h hk ⊢
  omega

lemma zeroes_hold : (p.hold cfg).zeroes k = p.zeroing.any fun a => a.has k := by
  cases p with
  | flight k =>
    cases k <;> rfl
  | _ => rfl

lemma clear_view (hid : ∀ σ, cfg.tasks ≤ σ → s.prog σ = .idle)
    (hfe : ∀ σ < cfg.tasks, ∀ b ∈ (s.prog σ).zeroing, a.meets b = false) (hk : a.has k = true) :
    Clear (view cfg s) k := by
  intro σ
  change ((s.prog σ).hold cfg).zeroes k = false
  rw [zeroes_hold]
  obtain hσ | hσ := lt_or_ge σ cfg.tasks
  · cases hz : (s.prog σ).zeroing with
    | none => rfl
    | some b => exact Span.not_meets (hfe σ hσ b hz) hk
  rw [hid σ hσ]
  rfl

lemma Span.has_block {first last block : Nat} :
    Span.has ⟨dev,first,last⟩ ⟨dev,block⟩ = true ↔ first ≤ block ∧ block < last := by
  simp [Span.has]

lemma readRun_pos {r : Read} : 0 < readRun cfg c r := by
  have hpos : ∀ run : Nat, 0 < if run = 0 then 1 else if c.alloc then run else 1 := by
    intro run
    split_ifs with hne
    · exact one_pos
    · exact pos_of_ne_zero hne
    exact Nat.one_pos
  exact hpos _

lemma touches_fill {g : Filling β} (h : (p.hold cfg).fill = some g) :
    ∃ a, p.touches = some a ∧ a.has g.key = true := by
  cases p with
  | fill =>
    cases h
    exact ⟨_,rfl,Span.has_block.mpr ⟨le_rfl,lt_add_one _⟩⟩
  | filled =>
    cases h
    refine ⟨_,rfl,Span.has_block.mpr ⟨le_rfl,?_⟩⟩
    omega
  | flight k => cases k <;> cases h
  | _ => cases h

lemma touches_ahead {g : Ahead β} (h : (p.hold cfg).ahead = some g)
    (hj : j < g.buf.length) : ∃ a, p.touches = some a ∧ a.has (g.key j) = true := by
  cases p with
  | fill =>
    cases h
    cases hj
  | filled =>
    cases h
    exact ⟨_,rfl,Span.has_block.mpr ⟨(Nat.le_succ _).trans le_self_add,Nat.add_lt_add_left hj _⟩⟩
  | flight k =>
    cases k with
    | ahead =>
      cases h
      exact ⟨_,rfl,Span.has_block.mpr ⟨le_self_add,Nat.add_lt_add_left hj _⟩⟩
    | _ => cases h
  | _ => cases h

lemma Apart.landing (h : Apart cfg s) (hid : ∀ σ, cfg.tasks ≤ σ → s.prog σ = .idle)
    (hτ : τ < cfg.tasks) (ha : (s.prog τ).zeroing = some a) (σ : Nat) :
    (∀ p, ((s.prog σ).hold cfg).fill = some p → a.has p.key = false) ∧
      ∀ g, ((s.prog σ).hold cfg).ahead = some g → ∀ j < g.buf.length, a.has (g.key j) = false := by
  obtain hσ | hσ := lt_or_ge σ cfg.tasks
  · refine ⟨fun p hp => ?_,fun g hg j hj => ?_⟩
    · obtain ⟨b,hb,hin⟩ := touches_fill hp
      exact Span.not_meets (h σ hσ τ hτ b hb a ha) hin
    obtain ⟨b,hb,hin⟩ := touches_ahead hg hj
    exact Span.not_meets (h σ hσ τ hτ b hb a ha) hin
  rw [hid σ hσ]
  refine ⟨fun p hp => ?_,fun g hg => ?_⟩
  · cases hp
  cases hg

def actor (s : State β) (τ : Nat) (coherent durable lossless : Prop) : Actor :=
  ⟨τ,s.stamp τ,s.file τ,coherent,durable,lossless⟩

section Act

variable {coherent durable lossless : Prop}

lemma finish_moves {a : After β} {f : Flight β} {w : World β} (h : Inv cfg w)
    (hho : w.hold q.task = { (a.hold : Hold β) with flight := some f, anchor := a.anchor })
    (hld : f.landed = true) (han : ∀ i ∈ a.anchor, i ∈ f.slots ∨ (w.mem.slot i).busy = false)
    (hwt : ∀ v i, a = .write v i → Clear w v.key ∧ (q.durable → Stamping w q.stamp q.file v.key))
    (hah : ∀ r gen next buf i, a = .ahead r gen next buf i → ∀ j < buf.length, Clear w ⟨r.dev,next + j⟩)
    (hsw : ∀ y, a = .sweep y → q.durable → y.scope = .drainAll true → Unclaimed w q.task) :
    Moves cfg q w (w.out cfg q (afterFlight cfg c q.stamp a f (w.mem.release f.slots))) := by
  have hnone : (a.hold : Hold β).flight = none ∧ (a.hold : Hold β).anchor = none := by
    cases a <;> exact ⟨rfl,rfl⟩
  have hfin : Move cfg q w (w.put q.task (w.mem.release f.slots) a.hold) := by
    have hmo : Move cfg q w _ := .finish f (by rw [hho]) hld
    rw [hho] at hmo
    have hsa : ({ (a.hold : Hold β) with flight := none, anchor := none } : Hold β) = a.hold := by
      rw [← hnone.1,← hnone.2]
    rwa [← hsa]
  have hze : (a.hold : Hold β).zero = (w.hold q.task).zero := by rw [hho]
  refine (ReflTransGen.single hfin).trans ?_
  rw [← World.out_put]
  refine afterFlight_moves (h.move hfin) World.put_hold (fun i hi => ⟨?_,?_⟩)
    (fun v i hk => ?_) (fun r gen next buf i hk j hj => ?_) fun y hk hd hs i hi hb => ?_
  · exact h.anchored q.task i (by rw [hho]; exact hi)
  · change ((w.mem.release f.slots).slot i).busy = false
    obtain hin | hid := han i hi
    · simp [hin]
    simp [hid]
  · obtain ⟨hclr,hown⟩ := hwt v i hk
    exact ⟨(clear_put hze).mpr hclr,fun hd => (hown hd).congr rfl rfl rfl⟩
  · exact (clear_put hze).mpr (hah r gen next buf i hk j hj)
  change ((w.mem.release f.slots).slot i).dirty = true at hi
  change ((w.mem.release f.slots).slot i).busy = true at hb
  rw [release_slot] at hi hb
  simp only [Bool.and_eq_true,decide_eq_true_eq] at hi hb
  have hin := hsw y hk hd hs i hi.1 hb.1
  rw [hho,Hold.mem_slots] at hin
  rw [World.put_hold,Hold.mem_slots]
  obtain hfl | ⟨g,hg,hig⟩ | hset := hin
  · exact .inl hfl
  · cases hg
    cases hi.2 hig
  exact .inr (.inr hset)

lemma act_moves (h : Inv cfg (view cfg s)) (hid : ∀ σ, cfg.tasks ≤ σ → s.prog σ = .idle)
    (hτ : τ < cfg.tasks) (hsd : Sound cfg s τ)
    (hra : coherent → (s.prog τ).readsSettled cfg c s) (htrk : durable → Tracked cfg s τ) :
    Moves cfg (actor s τ coherent durable lossless) (view cfg s) (view cfg (step cfg s (.act τ c))) := by
  have hvw : view cfg (step cfg s (.act τ c)) =
      (view cfg s).out cfg (actor s τ coherent durable lossless)
        (act cfg c (s.stamp τ) (s.prog τ) s.mem) :=
    view_commit (q := actor s τ coherent durable lossless) rfl
  rw [hvw]
  have hmi : (view cfg s).hold τ = (s.prog τ).hold cfg := rfl
  have hclr : ∀ {a : Span}, (s.prog τ).touches = some a → ∀ {k : Key}, a.has k = true →
      Clear (view cfg s) k := fun ha _ hk =>
    clear_view hid (fun σ hσ => hsd.apart τ hτ σ hσ _ ha) hk
  have han := hsd.anchor
  have hcl := hsd.clean
  have hstm := fun hd => (htrk hd).stamped
  have hdr := fun hd => (htrk hd).drained
  have hunc : durable → (s.prog τ).lastDrain = true → Unclaimed (view cfg s) τ := by
    intro hd hla i hi hb
    exact hdr hd hla i (h.shape.bound i (h.shape.hashed (h.shape.dirty i hi))) hi hb
  generalize hp : s.prog τ = p at hmi hclr han hcl hstm hunc hra ⊢
  cases p with
  | idle =>
    rw [act,World.out_stay hmi]
    exact .refl
  | read =>
    rw [act]
    exact readLookup_moves h hmi
  | fill =>
    refine readDevice_moves hmi (fun hc j hj => ⟨?_,fun hpos n hn hkey => ?_⟩) readRun_pos
    · refine clear_view hid (hra hc).1 (Span.has_block.mpr ⟨?_,?_⟩)
      · exact le_self_add
      exact Nat.add_lt_add_left hj _
    rw [← Bool.not_eq_true]
    intro hd
    have hout := (hra hc).2 n (h.shape.bound n hn) hd
    change (s.mem.slot n).key = _ at hkey
    rw [hkey,Span.has_block.mpr ⟨Nat.add_le_add_left hpos _,Nat.add_lt_add_left hj _⟩] at hout
    cases hout
  | filled =>
    refine readPublish_moves h hmi fun j hj => hclr rfl (Span.has_block.mpr ⟨?_,?_⟩)
    · exact le_self_add
    omega
  | write v =>
    refine writeLookup_moves h hmi (hclr rfl (Span.has_block.mpr ⟨?_,?_⟩)) fun hd => ?_
    · exact le_rfl
    · exact lt_add_one _
    exact hstm hd v.key rfl
  | flushSome =>
    exact flushSome_moves h hmi
  | flight a f =>
    rw [act]
    split_ifs with hld
    · refine finish_moves h hmi hld (fun i hi => ?_) (fun v i ha => ?_)
        (fun r gen next buf i ha j hj => ?_) fun y ha hd hs => ?_
      · simp only [Prog.anchorFree,hld] at han
        rw [hi] at han
        change i ∈ f.slots ∨ (s.mem.slot i).busy = false
        simpa using han
      · subst ha
        refine ⟨hclr rfl (Span.has_block.mpr ⟨le_rfl,lt_add_one _⟩),fun hd => ?_⟩
        exact hstm hd v.key rfl
      · subst ha
        exact hclr rfl (Span.has_block.mpr ⟨le_self_add,Nat.add_lt_add_left hj _⟩)
      subst ha
      exact hunc hd (by simp [Prog.lastDrain,hs])
    have hmo : Move cfg (actor s τ coherent durable lossless) (view cfg s) _ :=
      .land f (by rw [show (actor s τ coherent durable lossless).task = τ from rfl,hmi]; rfl)
        (by simpa using hld)
    rw [show (actor s τ coherent durable lossless).task = τ from rfl,hmi] at hmo
    rw [World.out_plain]
    exact .single hmo
  | drop =>
    exact dropRange_moves hmi
  | command =>
    exact command_moves hmi fun _ =>
      hsd.apart.landing hid hτ (by rw [hp,Prog.zeroing])
  | sweep =>
    exact sweepOn_moves h hmi fun hd hs => hunc hd (by simp [Prog.lastDrain,hs])
  | sorted =>
    exact flushRun_moves h hmi
  | invalidate =>
    exact invalidateSlots_moves h hmi
  | invalidateRange =>
    refine invalidateRange_moves hmi fun i hi => ?_
    change bcacheFind cfg s.mem _ = some i at hi
    rw [Prog.dropsClean,hi] at hcl
    change (s.mem.slot i).dirty = false
    simpa using hcl
  | flushBuffer =>
    exact flushBuffer_moves hmi

lemma view_prog :
    view cfg { s with prog := update s.prog τ p } =
      (view cfg s).put τ s.mem (p.hold cfg) := by
  have hho : (fun σ => (update s.prog τ p σ).hold cfg) =
      update (fun σ => (s.prog σ).hold cfg) τ (p.hold cfg) := by
    funext σ
    rw [update_apply,update_apply]
    split <;> rfl
  rw [view,hho]
  rfl

def Call.zeroing : Call β → Bool
  | .zeroBlocks _ _ _ | .discardBlocks _ _ _ => true
  | _ => false

section Begin

variable {w : World β}

section

variable (hho : w.hold q.task = {})

include hho

lemma plain_moves (hp : p.hold cfg = {}) : Moves cfg q w (w.put q.task w.mem (p.hold cfg)) := by
  rw [hp,World.put_self hho]

lemma dropNext_moves {c : Command} (hlos : ¬q.lossless) :
    Moves cfg q w (w.put q.task w.mem ((dropNext cfg c a 0 : Prog β).hold cfg)) := by
  obtain ⟨n,hn,hnx⟩ := hold_dropNext cfg c a 0
  obtain rfl := Nat.le_zero.mp hn
  have hmo : Move cfg q w _ := .startZero a (by rw [hho]) hlos
  rw [hho] at hmo
  rw [hnx]
  exact .single hmo

lemma sweepStart_moves {scope : Scope} :
    Moves cfg q w (w.put q.task w.mem
      ((Prog.sweep (sweepStart cfg scope w.dirtied.length alloc) : Prog β).hold cfg)) := by
  have hmo : Move cfg q w _ := .startSweep scope
  rw [hho] at hmo
  have heq : (Prog.sweep (sweepStart cfg scope w.dirtied.length alloc) : Prog β).hold cfg =
      { sweep := some ⟨scope,w.dirtied.length,0,false⟩ } := by
    cases alloc <;> rfl
  rw [heq]
  exact .single hmo

lemma startRead_moves {next count : Nat} :
    Moves cfg q w (w.put q.task w.mem
      ((Read.resume ⟨dev,next,count,fun k => (w.mem.history k).top⟩ : Prog β).hold cfg)) := by
  have hmo : Move cfg q w _ := .startRead
  rw [hho] at hmo
  have hres : Moves cfg q (w.put q.task w.mem { since := some fun k => (w.mem.history k).top })
      (World.put _ q.task w.mem
        ((Read.resume ⟨dev,next,count,fun k => (w.mem.history k).top⟩ : Prog β).hold cfg)) :=
    resume_moves World.put_hold
  rw [World.put_put] at hres
  exact (ReflTransGen.single hmo).trans hres

end

end Begin

lemma call_moves {call : Call β} (hid : s.prog τ = .idle) (hpn : lossless → call.zeroing = false) :
    Moves cfg (actor s τ coherent durable lossless) (view cfg s)
      (view cfg (step cfg s (.call τ alloc call))) := by
  have hho : (view cfg s).hold (actor s τ coherent durable lossless).task = {} := by
    change (s.prog τ).hold cfg = {}
    rw [hid]
    rfl
  have hlos : call.zeroing = true → ¬lossless := by
    intro hz hd
    rw [hpn hd] at hz
    cases hz
  rw [step,view_prog]
  cases call with
  | readCached =>
    rw [Call.begin]
    split
    · exact startRead_moves hho
    exact plain_moves hho rfl
  | writeCached | invalidateRange | flushBuffer =>
    rw [Call.begin]
    split <;> exact plain_moves hho rfl
  | zeroBlocks =>
    rw [Call.begin]
    split
    · exact plain_moves hho rfl
    split
    · exact dropNext_moves hho (hlos rfl)
    exact plain_moves hho hold_resume
  | discardBlocks =>
    rw [Call.begin]
    split
    · exact plain_moves hho rfl
    exact dropNext_moves hho (hlos rfl)
  | writebackInode | flush | syncAll => exact sweepStart_moves hho
  | invalidate => exact plain_moves hho rfl

structure Standing (cfg : Config β) (s : State β) : Prop where
  inv : Inv cfg (view cfg s)
  idle : ∀ σ, cfg.tasks ≤ σ → s.prog σ = .idle

lemma Standing.initial (h : s.Initial) : Standing cfg s where
  inv := by
    have hho : ∀ τ, (view cfg s).hold τ = {} := by
      intro τ
      change (s.prog τ).hold cfg = {}
      rw [h.prog τ]
      rfl
    refine ⟨⟨fun hpos => ?_,fun b i => ?_,fun b => ?_,fun i hi => ?_,fun i => ?_,
      fun i j hi => ?_,fun i hi => ?_⟩,fun τ => ?_,?_,fun τ i hi => ?_,⟨fun i hi => ?_,?_⟩⟩
    · exact h.hand ▸ hpos
    · simp [view,h.chain,h.slot]
    · simp [view,h.chain]
    · simp [view,h.slot] at hi
    · simp [view,h.slot]
    · simp [view,h.slot] at hi
    · simp [view,h.slot] at hi
    · rw [hho τ]
      exact ⟨by simp [Hold.slots],by simp,by simp,by simp,by simp,by simp⟩
    · exact ⟨fun τ => by simp [hho,Hold.slots],fun τ σ hne i hi => by simp [hho,Hold.slots] at hi⟩
    · rw [hho τ] at hi
      cases hi
    · simp [view,h.slot] at hi
    · intro k _ _
      simp [view,h.history]
  idle σ _ := h.prog σ

lemma Standing.tasks (hs : Standing cfg s) (h : Stepped cfg s e s') :
    ∀ σ, cfg.tasks ≤ σ → s'.prog σ = .idle := by
  obtain ⟨hen,rfl⟩ := h
  have hup : ∀ τ < cfg.tasks, ∀ (p : Prog β) σ, cfg.tasks ≤ σ →
      update s.prog τ p σ = .idle := by
    intro τ hτ p σ hσ
    rw [update_of_ne (hτ.trans_le hσ).ne']
    exact hs.idle σ hσ
  cases e with
  | call τ | act τ =>
    simp only [Event.enabled,Bool.and_eq_true,decide_eq_true_eq] at hen
    exact hup τ hen.1 _
  | migrate | setDirtyOwner | clearDirtyOwner => exact hs.idle

def Allowed (cfg : Config β) (coherent durable lossless : Prop) (s : State β) : Event β → Prop
  | .act τ c =>
    Sound cfg s τ ∧ (coherent → (s.prog τ).readsSettled cfg c s) ∧ (durable → Tracked cfg s τ)
  | .call _ _ call => lossless → call.zeroing = false
  | _ => True

lemma step_moves (hs : Standing cfg s) (hok : Allowed cfg coherent durable lossless s e)
    (h : Stepped cfg s e s') :
    ∃ τ, Moves cfg (actor s τ coherent durable lossless) (view cfg s) (view cfg s') := by
  obtain ⟨hen,rfl⟩ := h
  cases e with
  | call τ =>
    simp only [Event.enabled,Bool.and_eq_true] at hen
    refine ⟨τ,call_moves ?_ hok⟩
    cases hp : s.prog τ with
    | idle => rfl
    | _ =>
      rw [hp] at hen
      cases hen.2
  | act τ =>
    simp only [Event.enabled,Bool.and_eq_true,decide_eq_true_eq] at hen
    exact ⟨τ,act_moves hs.inv hs.idle hen.1 hok.1 hok.2.1 hok.2.2⟩
  | migrate τ | setDirtyOwner τ | clearDirtyOwner τ => exact ⟨τ,.refl⟩

lemma Inv.moves_keep {w w' : World β} (hmo : ∀ w w', Inv cfg w → P w → Move cfg q w w' → P w')
    (h : Inv cfg w) (hP : P w) (hm : Moves cfg q w w') : Inv cfg w' ∧ P w' := by
  induction hm with
  | refl => exact ⟨h,hP⟩
  | tail _ hm ih => exact ⟨ih.1.move hm,hmo _ _ ih.1 ih.2 hm⟩

lemma Standing.step
    (hmo : ∀ q w w', q.coherent = coherent → q.durable = durable → q.lossless = lossless →
      Inv cfg w → P w → Move cfg q w w' → P w') (hs : Standing cfg s) (hP : P (view cfg s))
    (hok : Allowed cfg coherent durable lossless s e) (h : Stepped cfg s e s') :
    Standing cfg s' ∧ P (view cfg s') := by
  obtain ⟨τ,hmvs⟩ := step_moves hs hok h
  have hrun := hs.inv.moves_keep (fun w w' => hmo _ w w' rfl rfl rfl) hP hmvs
  exact ⟨⟨hrun.1,hs.tasks h⟩,hrun.2⟩

end Act

def diskDevice : Device := ⟨4,0,true,true,none⟩

def smallCache : Config Nat := ⟨1,0,fun _ => diskDevice,2,0⟩

def emptySlot : Slot Nat := ⟨⟨0,0⟩,0,false,false,false,false,⟨0,0⟩⟩

def coldStart : State Nat :=
  { mem :=
      { slot := fun _ => emptySlot
        chain := fun _ => []
        hand := 0
        cursor := 0
        flushing := false
        gen := fun _ => 0
        medium := fun _ => 1
        history := fun _ => .initial 1 }
    prog := fun _ => .idle
    cpu := fun τ => τ
    owner := fun _ => ⟨0,0⟩
    file := fun _ => none
    delivered := []
    dirtied := []
    synced := [] }

lemma coldStart_initial : coldStart.Initial :=
  ⟨fun _ => ⟨rfl,rfl,rfl,rfl⟩,fun _ => rfl,rfl,fun _ => rfl,fun _ => rfl,rfl,rfl,rfl⟩

def plainChoice : Choice Nat := ⟨true,0,false,fun _ => 0⟩

open B1nix.Transition

structure Ahead.Current (m : Cache β) (a : Ahead β) : Prop where
  gen : a.gen ≤ m.gen a.dev
  newest : m.gen a.dev = a.gen → ∀ (j : Nat) (b : β), a.buf[j]? = some b →
    b = (m.history (a.key j)).newest

structure HoldFresh (m : Cache β) (x : Hold β) : Prop where
  fill : ∀ p b, x.fill = some p → p.data = some b → b = (m.history p.key).newest
  ahead : ∀ a, x.ahead = some a → a.Current m
  since : ∀ since k, x.since = some since → since k ≤ (m.history k).top

structure Fresh (w : World β) : Prop where
  valid : ∀ i, (w.mem.slot i).valid = true →
    (w.mem.slot i).data = (w.mem.history (w.mem.slot i).key).newest
  holds : ∀ τ, HoldFresh w.mem (w.hold τ)
  delivered : ∀ d ∈ w.delivered, (w.mem.history d.key).Since d.since d.bytes

variable {w w' : World β} {m m' : Cache β} {x y : Hold β} {i n : Nat} {a : Ahead β}

lemma Ahead.Current.congr (h : a.Current m) (hhis : m'.history = m.history)
    (hgen : m'.gen = m.gen) : a.Current m' := by
  refine ⟨hgen ▸ h.gen,?_⟩
  rw [hgen,hhis]
  exact h.newest

variable {b : β} {p : Filling β} {stamp : Owner} {bytes : Key → β}

lemma Ahead.Current.tail (h : a.Current m) (hbuf : a.buf = b :: bs) :
    Ahead.Current m { a with next := a.next + 1, buf := bs } := by
  refine ⟨h.gen,fun hgen j c hc => ?_⟩
  have hkey : Ahead.key { a with next := a.next + 1, buf := bs } j = a.key (j + 1) := by
    simp only [Ahead.key,Key.mk.injEq,true_and]
    omega
  rw [hkey]
  refine h.newest hgen (j + 1) c ?_
  rw [hbuf]
  exact hc

lemma HoldFresh.congr (h : HoldFresh m x) (hhis : m'.history = m.history)
    (hgen : m'.gen = m.gen) : HoldFresh m' x := by
  refine ⟨?_,fun a ha => (h.ahead a ha).congr hhis hgen,?_⟩
  · rw [hhis]
    exact h.fill
  rw [hhis]
  exact h.since

lemma HoldFresh.weaken (h : HoldFresh m x) (hfl : y.fill = none ∨ y.fill = x.fill)
    (hah : y.ahead = none ∨ y.ahead = x.ahead) (hsi : y.since = none ∨ y.since = x.since) :
    HoldFresh m y where
  fill p b hp hb := by
    obtain hnone | hsa := hfl
    · rw [hnone] at hp
      cases hp
    exact h.fill p b (hsa ▸ hp) hb
  ahead a ha := by
    obtain hnone | hsa := hah
    · rw [hnone] at ha
      cases ha
    exact h.ahead a (hsa ▸ ha)
  since f k hf := by
    obtain hnone | hsa := hsi
    · rw [hnone] at hf
      cases hf
    exact h.since f k (hsa ▸ hf)

lemma HoldFresh.same (h : HoldFresh m x) (hfl : y.fill = x.fill) (hah : y.ahead = x.ahead)
    (hsi : y.since = x.since) : HoldFresh m y :=
  h.weaken (.inr hfl) (.inr hah) (.inr hsi)

lemma Fresh.put (h : Fresh w) (hhis : m.history = w.mem.history) (hgen : m.gen = w.mem.gen)
    (hsl : ∀ i, (m.slot i).valid = true →
      (w.mem.slot i).valid = true ∧ (m.slot i).key = (w.mem.slot i).key ∧
        (m.slot i).data = (w.mem.slot i).data ∨
      (m.slot i).data = (w.mem.history (m.slot i).key).newest)
    (hse : HoldFresh w.mem x) : Fresh (w.put τ m x) where
  valid i hi := by
    change (m.slot i).data = (m.history (m.slot i).key).newest
    rw [hhis]
    obtain ⟨hv,hkey,hda⟩ | hnw := hsl i hi
    · rw [hkey,hda]
      exact h.valid i hv
    exact hnw
  holds := World.put_all (hse.congr hhis hgen) fun σ _ =>
    (h.holds σ).congr hhis hgen
  delivered d hd := by
    change (m.history d.key).Since d.since d.bytes
    rw [hhis]
    exact h.delivered d hd

lemma Fresh.rehold (h : Fresh w) (hse : HoldFresh w.mem x) : Fresh (w.put τ w.mem x) :=
  h.put rfl rfl (fun _ hi => .inl ⟨hi,rfl,rfl⟩) hse

lemma Fresh.recache (h : Fresh w) (hhis : m.history = w.mem.history)
    (hgen : m.gen = w.mem.gen)
    (hsl : ∀ i, (m.slot i).valid = true →
      (w.mem.slot i).valid = true ∧ (m.slot i).key = (w.mem.slot i).key ∧
        (m.slot i).data = (w.mem.slot i).data) : Fresh { w with mem := m } := by
  have hput : Fresh (w.put 0 m (w.hold 0)) :=
    h.put hhis hgen (fun i hi => .inl (hsl i hi)) (h.holds 0)
  rwa [World.put_self rfl] at hput

lemma settled_newest (h : Inv cfg w) (hclr : Clear w k)
    (hcl : ∀ i, (w.mem.slot i).hashed = true → (w.mem.slot i).key = k → (w.mem.slot i).dirty = false) :
    w.mem.medium k = (w.mem.history k).newest := by
  refine h.bytes.settled k (fun i hi hkey => ?_) ?_
  · rw [hcl i (h.shape.hashed (h.shape.dirty i hi)) hkey] at hi
    cases hi
  rintro ⟨σ,hσ⟩
  rw [hclr σ] at hσ
  cases hσ

lemma Inv.fill_hashed (h : Inv cfg w) (hp : (w.hold τ).fill = some p) :
    (w.mem.slot p.slot).hashed = true ∧ (w.mem.slot p.slot).busy = true :=
  have hbz := (h.holds τ).busy p.slot (Hold.fill_mem hp)
  ⟨(h.shape.used p.slot).mpr (.inr hbz),hbz⟩

lemma Inv.fill_clean (h : Inv cfg w) (hp : (w.hold τ).fill = some p) (hi : (w.mem.slot i).hashed = true)
    (hkey : (w.mem.slot i).key = p.key) : (w.mem.slot i).dirty = false := by
  obtain ⟨hpkey,hinv,-⟩ := (h.holds τ).fill p hp
  obtain rfl := h.shape.unique i p.slot hi (h.fill_hashed hp).1 (hkey.trans hpkey.symm)
  exact h.shape.clean hinv

lemma Fresh.readFill (hw : Fresh w) (h : Inv cfg w)
    (hfl : (w.hold τ).fill = some p) (hah : (w.hold τ).ahead = some a)
    (hfst : b = w.mem.medium p.key)
    (hrs : ∀ (j : Nat) (c : β), bs[j]? = some c → c = w.mem.medium (a.key j))
    (hclr : Clear w p.key ∧ ∀ j < bs.length, Clear w (a.key j) ∧
      ∀ i, (w.mem.slot i).hashed = true → (w.mem.slot i).key = a.key j →
        (w.mem.slot i).dirty = false) :
    Fresh (w.put τ (w.mem.edit p.slot fun e => { e with data := b })
      { w.hold τ with
        fill := some { p with data := some b }
        ahead := some { a with buf := bs } }) := by
  refine hw.put rfl rfl (fun i hi => .inl ?_) ⟨fun g c hg hc => ?_,fun g hg => ?_,(hw.holds τ).since⟩
  · obtain ⟨-,hinv,-⟩ := (h.holds τ).fill p hfl
    have hne : i ≠ p.slot := by
      rintro rfl
      rw [edit_self,hinv] at hi
      cases hi
    rw [edit_of_ne hne] at hi ⊢
    exact ⟨hi,rfl,rfl⟩
  · cases hg
    cases hc
    rw [hfst]
    exact settled_newest h hclr.1 fun i => h.fill_clean hfl
  cases hg
  refine ⟨((hw.holds τ).ahead a hah).gen,fun _ j c hc => ?_⟩
  have hj := (List.getElem?_eq_some_iff.mp hc).1
  rw [hrs j c hc]
  exact settled_newest h (hclr.2 j hj).1 (hclr.2 j hj).2

lemma Fresh.publishFill (hw : Fresh w) (h : Inv cfg w) (hfl : (w.hold τ).fill = some p)
    (hra : p.data.isSome = true) :
    Fresh (w.put τ (publishFill p.slot w.mem) { w.hold τ with fill := none }) := by
  obtain ⟨b,hb⟩ := Option.isSome_iff_exists.mp hra
  obtain ⟨hkey,-,hda⟩ := (h.holds τ).fill p hfl
  refine hw.put rfl rfl (fun i hi => ?_) ((hw.holds τ).weaken (.inl rfl) (.inr rfl) (.inr rfl))
  by_cases hne : i = p.slot
  · subst hne
    right
    rw [BlockCache.publishFill,edit_self,hkey,hda b hb]
    exact (hw.holds τ).fill p b hfl hb
  left
  rw [BlockCache.publishFill,edit_of_ne hne] at hi ⊢
  exact ⟨hi,rfl,rfl⟩

lemma Fresh.publishAhead (hw : Fresh w) (hah : (w.hold τ).ahead = some a)
    (hbuf : a.buf = b :: bs) (hgen : w.mem.gen a.dev = a.gen) :
    Fresh (w.put τ
      (occupy cfg i
        { w.mem.slot i with
          key := a.key 0, valid := true, busy := false, dirty := false, data := b } w.mem)
      { w.hold τ with ahead := some { a with next := a.next + 1, buf := bs } }) := by
  have hcur := (hw.holds τ).ahead a hah
  refine hw.put rfl rfl (fun j hj => ?_) ⟨(hw.holds τ).fill,fun g hg => ?_,(hw.holds τ).since⟩
  · obtain rfl | hne := eq_or_ne j i
    · right
      rw [occupy_self]
      exact hcur.newest hgen 0 b (by rw [hbuf,getElem?_cons_zero])
    left
    rw [occupy_of_ne hne] at hj ⊢
    exact ⟨hj,rfl,rfl⟩
  cases hg
  exact hcur.tail hbuf

lemma Fresh.hit {since : Key → Nat} (hw : Fresh w) (hsi : (w.hold τ).since = some since)
    (hvl : (w.mem.slot i).valid = true) :
    Fresh { w with
      delivered := w.delivered ++
        [⟨(w.mem.slot i).key,since (w.mem.slot i).key,(w.mem.slot i).data⟩] } where
  valid := hw.valid
  holds := hw.holds
  delivered d hd := by
    obtain hold | hnew := mem_append.mp hd
    · exact hw.delivered d hold
    rw [mem_singleton] at hnew
    subst hnew
    rw [hw.valid i hvl]
    exact .newest ((hw.holds τ).since since _ hsi)

lemma dirtyBlock_history_ne (h : k' ≠ k) :
    (dirtyBlock stamp k b i m).history k' = m.history k' := update_of_ne h _ _

lemma dirtyBlock_history_self :
    (dirtyBlock stamp k b i m).history k = (m.history k).push b := update_self _ _ _

lemma Ahead.Current.write (h : a.Current m) : a.Current (dirtyBlock stamp k b i m) := by
  by_cases hdev : a.dev = k.dev
  · have hgen : (dirtyBlock stamp k b i m).gen a.dev = m.gen a.dev + 1 := by
      rw [hdev]
      exact update_self ..
    have hle := h.gen
    refine ⟨?_,fun heq => ?_⟩
    · omega
    omega
  have hgen : (dirtyBlock stamp k b i m).gen a.dev = m.gen a.dev := update_of_ne hdev ..
  refine ⟨hgen ▸ h.gen,fun heq j c hc => ?_⟩
  rw [hgen] at heq
  rw [dirtyBlock_history_ne fun hkey => hdev (congrArg Key.dev hkey)]
  exact h.newest heq j c hc

lemma HoldFresh.write (h : HoldFresh m x) (hfl : ∀ p, x.fill = some p → p.key ≠ k) :
    HoldFresh (dirtyBlock stamp k b i m) x where
  fill p c hp hc := by
    rw [dirtyBlock_history_ne (hfl p hp)]
    exact h.fill p c hp hc
  ahead a ha := (h.ahead a ha).write
  since f k' hf := by
    have hle := h.since f k' hf
    obtain rfl | hk := eq_or_ne k' k
    · rw [dirtyBlock_history_self]
      exact Nat.le_succ_of_le hle
    rwa [dirtyBlock_history_ne hk]

lemma Fresh.write {l : List Dirtied} (hw : Fresh w) (h : Inv cfg { w with mem := m })
    (hhis : m.history = w.mem.history) (hgen : m.gen = w.mem.gen)
    (hot : ∀ j, j ≠ i → m.slot j = w.mem.slot j) (hvl : (m.slot i).valid = true)
    (hbz : (m.slot i).busy = false) (hkey : (m.slot i).key = k) :
    Fresh { w with mem := dirtyBlock stamp k b i m, dirtied := l } where
  valid j hj := by
    obtain rfl | hne := eq_or_ne j i
    · have hsl : (dirtyBlock stamp k b j m).slot j =
          { m.slot j with data := b, dirty := true, owner := stamp } := update_self ..
      rw [hsl,hkey,dirtyBlock_history_self,Versions.newest_push]
    have hsl : (dirtyBlock stamp k b i m).slot j = m.slot j := update_of_ne hne ..
    rw [hsl] at hj ⊢
    have hk : (m.slot j).key ≠ k := fun hsa =>
      hne (h.shape.unique j i (h.shape.hashed hj) (h.shape.hashed hvl) (hsa.trans hkey.symm))
    rw [dirtyBlock_history_ne hk,hhis]
    rw [hot j hne] at hj ⊢
    exact hw.valid j hj
  holds σ := by
    refine ((hw.holds σ).congr hhis hgen).write fun p hp hpk => ?_
    obtain ⟨hhs,hclm⟩ := h.fill_hashed hp
    have hpkey := ((h.holds σ).fill p hp).1
    have heq := h.shape.unique p.slot i hhs (h.shape.hashed hvl)
      ((hpkey.trans hpk).trans hkey.symm)
    rw [heq] at hclm
    exact Bool.false_ne_true (hbz.symm.trans hclm)
  delivered d hd := by
    have hsi := hw.delivered d hd
    rw [← hhis] at hsi
    by_cases hk : d.key = k
    · rw [hk] at hsi ⊢
      rw [dirtyBlock_history_self]
      exact hsi.push
    rwa [dirtyBlock_history_ne hk]

lemma zeroed_history_out {a : Span} (h : a.has k = false) : (Zeroed a bytes m).history k = m.history k := by
  simp [Zeroed,h]

lemma zeroed_top_le {a : Span} : (m.history k).top ≤ ((Zeroed a bytes m).history k).top := by
  cases h : a.has k with
  | false => rw [zeroed_history_out h]
  | true => simp [Zeroed,h]

lemma zeroed_since {a : Span} (h : (m.history k).Since n b) :
    ((Zeroed a bytes m).history k).Since n b := by
  cases hk : a.has k with
  | false => rwa [zeroed_history_out hk]
  | true =>
    have heq : (Zeroed a bytes m).history k = (m.history k).push (bytes k) := by simp [Zeroed,hk]
    rw [heq]
    exact h.push

lemma Fresh.landZero {a : Span} (hw : Fresh w) (h : Inv cfg w)
    (hze : (w.hold τ).zero = some (a, i)) (hps : cfg.entries ≤ i)
    (hapt : ∀ σ, (∀ p, (w.hold σ).fill = some p → a.has p.key = false) ∧
      ∀ g, (w.hold σ).ahead = some g → ∀ j < g.buf.length, a.has (g.key j) = false) :
    Fresh (w.put τ (Zeroed a bytes w.mem) { w.hold τ with zero := none }) := by
  have hho : ∀ σ, HoldFresh (Zeroed a bytes w.mem) (w.hold σ) := by
    intro σ
    refine ⟨fun p b hp hb => ?_,fun g hg => ⟨((hw.holds σ).ahead g hg).gen,fun hgen j c hc => ?_⟩,
      fun f k hf => ?_⟩
    · rw [zeroed_history_out ((hapt σ).1 p hp)]
      exact (hw.holds σ).fill p b hp hb
    · have hj := (List.getElem?_eq_some_iff.mp hc).1
      rw [zeroed_history_out ((hapt σ).2 g hg j hj)]
      exact ((hw.holds σ).ahead g hg).newest hgen j c hc
    exact ((hw.holds σ).since f k hf).trans zeroed_top_le
  refine ⟨fun j hj => ?_,World.put_all ((hho τ).same rfl rfl rfl) fun σ _ => hho σ,
    fun d hd => zeroed_since (hw.delivered d hd)⟩
  have hj' : (w.mem.slot j).valid = true := hj
  change (w.mem.slot j).data = ((Zeroed a bytes w.mem).history (w.mem.slot j).key).newest
  rw [zeroed_history_out (h.gone hze hps hj')]
  exact hw.valid j hj'

lemma Fresh.move (hw : Fresh w) (h : Inv cfg w) (hq : q.coherent) (hm : Move cfg q w w') : Fresh w' := by
  have hse := hw.holds q.task
  cases hm with
  | tick _ slot _ _ history gen =>
    refine hw.recache history gen fun i hi => ?_
    rw [slot] at hi ⊢
    exact ⟨hi,rfl,rfl⟩
  | vacate _ _ empty =>
    refine hw.recache (by simp [vacate]) (by simp [vacate]) fun j hj => ?_
    have hsl := (vacate_flag empty.valid hj).2
    rw [hsl] at hj ⊢
    exact ⟨hj,rfl,rfl⟩
  | claimFill i =>
    refine hw.put rfl rfl (fun j hj => .inl ?_) ⟨fun p b hp hb => ?_,fun a ha => ?_,hse.since⟩
    · have hne : j ≠ i := by
        rintro rfl
        rw [occupy_self] at hj
        cases hj
      rw [occupy_of_ne hne] at hj ⊢
      exact ⟨hj,rfl,rfl⟩
    · cases hp
      cases hb
    cases ha
    exact ⟨le_rfl,fun _ j c hc => by cases hc⟩
  | readFill _ _ _ _ fill _ _ ahead first rest clear =>
    exact hw.readFill h fill ahead first rest (clear hq)
  | publishFill _ fill _ _ read => exact hw.publishFill h fill read
  | publishAhead _ _ _ _ ahead buf gen => exact hw.publishAhead ahead buf gen
  | skipAhead a _ _ ahead buf =>
    refine hw.rehold ⟨hse.fill,fun g hg => ?_,hse.since⟩
    cases hg
    exact (hse.ahead a ahead).tail buf
  | hit _ _ reading valid => exact hw.hit reading valid
  | write _ _ _ valid busy key => exact hw.write h rfl rfl (fun _ _ => rfl) valid busy key
  | writeNew _ _ _ free absent clear =>
    refine hw.write (h.install free absent clear) rfl rfl (fun j hj => ?_)
      (by rw [install_self]) (by rw [install_self]) (by rw [install_self])
    exact occupy_of_ne hj
  | fly =>
    refine hw.put rfl rfl (fun i hi => .inl ?_) (hse.same rfl rfl rfl)
    rw [claim_slot] at hi ⊢
    exact ⟨hi,rfl,rfl⟩
  | collect i =>
    refine hw.put rfl rfl (fun i hi => .inl ?_) (hse.same rfl rfl rfl)
    rw [claim_slot] at hi ⊢
    exact ⟨hi,rfl,rfl⟩
  | finish =>
    refine hw.put rfl rfl (fun i hi => .inl ?_) (hse.same rfl rfl rfl)
    rw [release_slot] at hi ⊢
    exact ⟨hi,rfl,rfl⟩
  | landZero _ _ _ zero passed apart => exact hw.landZero h zero passed (apart hq)
  | startRead =>
    refine hw.rehold ⟨hse.fill,hse.ahead,fun f k hf => ?_⟩
    cases hf
    exact le_rfl
  | synced _ sweep =>
    have hput : Fresh (w.put q.task w.mem { w.hold q.task with sweep := none }) :=
      hw.rehold (hse.same rfl rfl rfl)
    exact { hput with }
  | forget x weaker =>
    exact hw.rehold (hse.weaken (.inr weaker.fill) weaker.ahead weaker.since)
  | _ => exact hw.put rfl rfl (fun i hi => .inl ⟨hi,rfl,rfl⟩) (hse.same rfl rfl rfl)

lemma Fresh.initial (h : s.Initial) : Fresh (view cfg s) where
  valid i hi := by simp [view,h.slot] at hi
  holds τ := by
    change HoldFresh _ ((s.prog τ).hold cfg)
    rw [h.prog τ]
    refine ⟨fun p b hp => ?_,fun a ha => ?_,fun f k hf => ?_⟩
    · cases hp
    · cases ha
    cases hf
  delivered d hd := by simp [view,h.delivered] at hd

def Undisturbed (cfg : Config β) (s : State β) : Event β → Prop
  | .act τ c => Sound cfg s τ ∧ (s.prog τ).readsSettled cfg c s
  | _ => True

instance (e : Event β) : Decidable (Undisturbed cfg s e) := by
  cases e <;> (dsimp only [Undisturbed]; infer_instance)

lemma Undisturbed.allowed {e : Event β} (h : Undisturbed cfg s e) : Allowed cfg True False False s e := by
  cases e with
  | act => exact ⟨h.1,fun _ => h.2,False.elim⟩
  | call => exact False.elim
  | _ => trivial

structure Coherent (cfg : Config β) (s : State β) : Prop where
  single : ∀ i j, (s.mem.slot i).hashed = true → (s.mem.slot j).hashed = true →
    (s.mem.slot i).key = (s.mem.slot j).key → i = j
  claimed : ∀ τ, ∀ i ∈ ((s.prog τ).hold cfg).slots, (s.mem.slot i).busy = true ∧
    ∀ σ, σ ≠ τ → i ∉ ((s.prog σ).hold cfg).slots
  current : ∀ d ∈ s.delivered, (s.mem.history d.key).Since d.since d.bytes

theorem coherent_of_undisturbed
    (h : Reach State.Initial (guarded (Undisturbed cfg) (Stepped cfg)) s) : Coherent cfg s := by
  have hrun : Standing cfg s ∧ Fresh (view cfg s) := by
    refine h.invariant (P := fun s => Standing cfg s ∧ Fresh (view cfg s)) (fun s h0 => ?_)
      fun s e s' hs hstep => ?_
    · exact ⟨.initial h0,.initial h0⟩
    refine hs.1.step (fun q w w' hc _ _ hinv hw hm => ?_) hs.2 hstep.1.allowed hstep.2
    exact hw.move hinv (hc ▸ trivial) hm
  obtain ⟨⟨hinv,-⟩,hfr⟩ := hrun
  refine ⟨hinv.shape.unique,fun τ i hi => ⟨(hinv.holds τ).busy i hi,fun σ hσ => ?_⟩,hfr.delivered⟩
  exact hinv.exclusive.apart τ σ hσ.symm i hi

def rereads : List (Event Nat) :=
  [.call 0 true (.writeCached 0 0 [5]),.act 0 plainChoice,
    .call 1 true (.zeroBlocks 0 0 1),.act 1 plainChoice,.act 1 plainChoice,
    .call 0 true (.readCached 0 0 1),.act 0 plainChoice,.act 0 plainChoice,.act 0 plainChoice,
    .call 1 true (.readCached 0 0 1),.act 1 plainChoice]

theorem coherent_after_rereads :
    Coherent smallCache (rereads.foldl (step smallCache) coldStart) ∧
      (rereads.foldl (step smallCache) coldStart).delivered.map (·.bytes) = [0, 0] := by
  refine ⟨coherent_of_undisturbed ?_,by decide +kernel⟩
  refine Reach.along (fun s e => Undisturbed smallCache s e ∧ e.enabled smallCache s = true)
    (fun s e h => ⟨h.1,h.2,rfl⟩) (.start coldStart_initial) ?_
  decide +kernel

def readUnderZeroing : List (Event Nat) :=
  [.call 1 true (.zeroBlocks 0 0 1),.act 1 plainChoice,
    .call 0 true (.readCached 0 0 1),.act 0 plainChoice,.act 0 plainChoice,.act 0 plainChoice,
    .act 1 plainChoice,
    .call 0 true (.readCached 0 0 1),.act 0 plainChoice]

theorem readUnderZeroing_stale :
    Reach State.Initial (Stepped smallCache) (readUnderZeroing.foldl (step smallCache) coldStart) ∧
      ¬Coherent smallCache (readUnderZeroing.foldl (step smallCache) coldStart) := by
  refine ⟨?_,fun h => ?_⟩
  · refine Reach.along (fun s e => e.enabled smallCache s = true) (fun s e h => ⟨h,rfl⟩)
      (.start coldStart_initial) ?_
    decide +kernel
  have hstale : ¬∀ d ∈ (readUnderZeroing.foldl (step smallCache) coldStart).delivered,
      ((readUnderZeroing.foldl (step smallCache) coldStart).mem.history d.key).Since d.since
        d.bytes := by
    decide +kernel
  exact hstale h.current

end B1nix.BlockCache
