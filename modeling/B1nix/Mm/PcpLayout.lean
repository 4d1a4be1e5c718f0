import B1nix.Mm.Pcp

namespace B1nix.Mm

open Function Blocks Linked Nat

inductive Bucket where
  | plain
  | zero
  | quarantine
deriving DecidableEq, Repr

inductive Place where
  | reserved
  | tree
  | bucket (cpu : Nat) (b : Bucket)
  | held
deriving DecidableEq, Repr

def Pcp.top (p : Pcp) : Bucket → Nat
  | .plain => p.head
  | .zero => p.zeroHead
  | .quarantine => p.qHead

def Pcp.size (p : Pcp) : Bucket → Nat
  | .plain => p.count
  | .zero => p.zeroCount
  | .quarantine => p.qCount

def BucketPage : Bucket → (Fin 512 → Nat) → Prop
  | .plain, _ => True
  | .zero, page => page 2 = pmmZeroMagic ∧ ∀ i, i ≠ 0 → i ≠ 2 → page i = 0
  | .quarantine, page => page 1 = pmmPoisonCanary

def HoldOk : Hold → Nat → Prop
  | .idle, _ => False
  | .owned n, refs => 0 < n ∧ refs = n
  | .parking, _ => True
  | .clearing, refs => refs = 1

def FrameOk (cfg : PcpConfig) (R : Nat → Prop) (w : FrameWorld) (f : Nat) : Place → Prop
  | .reserved => R f ∧ w.hold f = .idle ∧ (f < cfg.frameCount → w.glob.bitmap f = true)
  | .tree => ¬R f ∧ f < cfg.frameCount ∧ w.glob.bitmap f = false ∧ w.hold f = .idle
  | .bucket c b => ¬R f ∧ f < cfg.frameCount ∧ w.glob.bitmap f = true ∧ w.hold f = .idle ∧
      c < cfg.maxCpus ∧ BucketPage b (w.glob.mem f)
  | .held => ¬R f ∧ f < cfg.frameCount ∧ w.glob.bitmap f = true ∧
      HoldOk (w.hold f) (w.glob.refcounts f)

def BucketOk (s : PmmState) (p : Pcp) (b : Bucket) (S : Nat → Prop) : Prop :=
  ∃ l : List Nat, Chain s.next (p.top b) l ∧ l.Nodup ∧ l.length = p.size b ∧ (∀ f, f ∈ l ↔ S f) ∧
    (b = .quarantine → p.qTail = l.getLastD 0)

structure Layout (cfg : PcpConfig) (R : Nat → Prop) (extra : Nat) (w : FrameWorld)
    (place : Nat → Place) : Prop where
  tree : TreeInv cfg.toPmmConfig w.glob
  counted : PagesCounted cfg.toPmmConfig extra w.glob
  frames : ∀ f, FrameOk cfg R w f (place f)
  buckets : ∀ c b, BucketOk w.glob (w.pcp c) b (fun f => place f = .bucket c b)

variable {cfg : PcpConfig} {R : Nat → Prop} {extra : Nat} {w w' : FrameWorld}
  {place : Nat → Place} {x f : Nat}

lemma FrameOk.congr {q : Place} (h : FrameOk cfg R w f q) (hbit : w'.glob.bitmap f = w.glob.bitmap f)
    (hho : w'.hold f = w.hold f) (href : q = .held → w'.glob.refcounts f = w.glob.refcounts f)
    (hmem : ∀ c b, q = .bucket c b → w'.glob.mem f = w.glob.mem f) : FrameOk cfg R w' f q := by
  cases q with
  | reserved | tree =>
    simp only [FrameOk] at h ⊢
    rwa [hbit,hho]
  | bucket c b =>
    simp only [FrameOk] at h ⊢
    rwa [hbit,hho,hmem c b rfl]
  | held =>
    simp only [FrameOk] at h ⊢
    rwa [hbit,hho,href rfl]

variable {s : PmmState} {b : Bucket} {p p' : Pcp} {S S' : Nat → Prop} {t s' u : PmmState} {c : Nat}
  {hold new : Hold}

lemma BucketOk.congr (h : BucketOk s p b S)
    (htop : p'.top b = p.top b) (hsz : p'.size b = p.size b) (hta : b = .quarantine → p'.qTail = p.qTail)
    (hmem : ∀ f, S f → s'.next f = s.next f) (hS : ∀ f, S' f ↔ S f) : BucketOk s' p' b S' := by
  obtain ⟨l,hl,hnd,hlen,hmem',hla⟩ := h
  refine ⟨l,?_,hnd,hlen.trans hsz.symm,fun f => (hmem' f).trans (hS f).symm,
    fun hb => (hta hb).trans (hla hb)⟩
  rw [htop]
  exact hl.congr fun y hy => hmem y ((hmem' y).mp hy)

structure MemOnly (x : Nat) (s t : PmmState) : Prop where
  same : SameFrames s t
  heads : t.heads = s.heads
  freeArea : t.freeArea = s.freeArea
  mem : ∀ f, f ≠ x → t.mem f = s.mem f

lemma MemOnly.refl (x : Nat) (s : PmmState) : MemOnly x s s := ⟨.refl s,rfl,rfl,fun _ _ => rfl⟩

lemma MemOnly.trans (h : MemOnly x s t) (h' : MemOnly x t u) : MemOnly x s u :=
  ⟨h.same.trans h'.same,h'.heads.trans h.heads,h'.freeArea.trans h.freeArea,
    fun f hf => (h'.mem f hf).trans (h.mem f hf)⟩

lemma store_memOnly (s : PmmState) (x : Nat) (word : Fin 512) (value : Nat) :
    MemOnly x s (s.store x word value) :=
  ⟨store_same s x word value,rfl,rfl,fun _ hf => update_of_ne hf _ _⟩

lemma zeroFrames_memOnly (s : PmmState) (x : Nat) : MemOnly x s (zeroFrames x 1 s) :=
  ⟨⟨rfl,rfl,rfl,rfl,rfl,rfl,rfl⟩,rfl,rfl,fun _ hf => if_neg fun hin => hf (by omega)⟩

lemma zeroFrames_self (s : PmmState) (x : Nat) : (zeroFrames x 1 s).mem x = fun _ => 0 :=
  if_pos ⟨le_refl x,lt_add_one x⟩

lemma MemOnly.canonical {c : PmmConfig} (h : MemOnly x s t) (hs : TreeInv c s)
    (hx : ¬FreeFrame c s x) : TreeInv c t := by
  refine ⟨?_,h.same.buddyReady.trans hs.ready⟩
  rw [Canonical,h.same.freeFrame]
  refine Holds.congr hs.canonical (fun f k hf => h.mem f ?_) h.heads h.freeArea h.same.nodes
  rintro rfl
  exact hx (hf.2.1.2 f inside_self)

lemma MemOnly.counted {c : PmmConfig} (h : MemOnly x s t) (hs : PagesCounted c extra s) :
    PagesCounted c extra t := by
  rw [PagesCounted,h.same.freeFrames,h.same.bitmap]
  exact hs

def Laid (cfg : PcpConfig) (R : Nat → Prop) (extra : Nat) (w : FrameWorld) : Prop :=
  ∃ place, Layout cfg R extra w place

lemma Layout.place_held (h : Layout cfg R extra w place) (hx : w.hold x ≠ .idle) : place x = .held := by
  have hok := h.frames x
  cases hp : place x with
  | reserved =>
    rw [hp] at hok
    cases hx hok.2.1
  | tree =>
    rw [hp] at hok
    cases hx hok.2.2.2
  | bucket =>
    rw [hp] at hok
    cases hx hok.2.2.2.1
  | held => rfl

lemma Layout.held_used (h : Layout cfg R extra w place) (hx : place x = .held) :
    ¬FreeFrame cfg.toPmmConfig w.glob x := by
  have hok := h.frames x
  rw [hx] at hok
  exact fun hf => absurd (hok.2.2.1.symm.trans hf.2) (by decide)

lemma Layout.bucket_ne (hx : place x = .held) (hf : place f = .bucket c b) : f ≠ x := by
  rintro rfl
  rw [hx] at hf
  cases hf

section

variable (h : Laid cfg R extra w) (hx : w.hold x ≠ .idle)

include h hx

lemma Laid.setMem (hs : MemOnly x w.glob s) : Laid cfg R extra (w.setGlob s) := by
  obtain ⟨place,h⟩ := h
  have hhe := h.place_held hx
  refine ⟨place,hs.canonical h.tree (h.held_used hhe),hs.counted h.counted,fun f => ?_,fun c b => ?_⟩
  · exact (h.frames f).congr (congrFun hs.same.bitmap f) rfl
      (fun _ => congrFun hs.same.refcounts f)
      fun c b hf => hs.mem f (Layout.bucket_ne hhe hf)
  refine (h.buckets c b).congr rfl rfl (fun _ => rfl) (fun f hf => ?_) fun _ => .rfl
  exact congrFun (hs.mem f (Layout.bucket_ne hhe hf)) 0

lemma Laid.setRef {n : Nat}
    (hok : HoldOk hold n) : Laid cfg R extra ((w.setGlob { w.glob with
      refcounts := update w.glob.refcounts x n }).setHold x hold) := by
  obtain ⟨place,h⟩ := h
  have hhe := h.place_held hx
  refine ⟨place,⟨Holds.congr h.tree.canonical (fun _ _ _ => rfl) rfl rfl rfl,h.tree.ready⟩,
    h.counted,fun f => ?_,h.buckets⟩
  obtain rfl | hf := eq_or_ne f x
  · have hx' := h.frames f
    rw [hhe] at hx' ⊢
    refine ⟨hx'.1,hx'.2.1,hx'.2.2.1,?_⟩
    simp only [FrameWorld.setHold,FrameWorld.setGlob,update_self]
    exact hok
  exact (h.frames f).congr rfl (update_of_ne hf ..)
    (fun _ => update_of_ne hf ..) fun _ _ _ => rfl

lemma Laid.setHold (hok : HoldOk hold (w.glob.refcounts x)) : Laid cfg R extra (w.setHold x hold) := by
  have hset := h.setRef hx hok
  rwa [update_eq_self] at hset

end

lemma BucketOk.first (h : BucketOk s p b S) (hpos : 0 < p.size b) : S (p.top b) ∧ p.top b ≠ 0 := by
  obtain ⟨l,hl,-,hlen,hmem,-⟩ := h
  cases l with
  | nil => cases ne_of_gt hpos hlen.symm
  | cons y =>
    rw [hl.1]
    exact ⟨(hmem y).mp (.head _),hl.2.1⟩

structure PopsFrom (b : Bucket) (s : PmmState) (p p' : Pcp) : Prop where
  top : p'.top b = s.next (p.top b)
  size : p'.size b = p.size b - 1
  others : ∀ b', b' ≠ b → p'.top b' = p.top b' ∧ p'.size b' = p.size b'
  tail : b = .quarantine → p'.qTail = if s.next (p.top b) = 0 then 0 else p.qTail
  keep : b ≠ .quarantine → p'.qTail = p.qTail

lemma setCpu_self (w : FrameWorld) (c : Nat) (p : Pcp) (s : PmmState) :
    (w.setCpu c p s).pcp c = p := update_self _ _ _

lemma setCpu_other (w : FrameWorld) {c' : Nat} (h : c' ≠ c) (p : Pcp) (s : PmmState) :
    (w.setCpu c p s).pcp c' = w.pcp c' := update_of_ne h _ _

lemma BucketOk.pop (h : BucketOk s p b S) (hpos : 0 < p.size b)
    (hp : PopsFrom b s p p') (hS : ∀ f, S' f ↔ f ≠ p.top b ∧ S f) : BucketOk s p' b S' := by
  obtain ⟨l,hl,hnd,hlen,hmem,hla⟩ := h
  cases l with
  | nil => cases ne_of_gt hpos hlen.symm
  | cons y ys =>
    obtain ⟨hy,hta⟩ := hl.pop fun _ _ => rfl
    obtain ⟨hni,hnd⟩ := List.nodup_cons.mp hnd
    refine ⟨ys,?_,hnd,?_,fun f => ?_,fun hb => ?_⟩
    · rw [hp.top]
      exact hta
    · rw [hp.size,← hlen]
      rfl
    · rw [hS,← hmem,List.mem_cons,hy]
      refine ⟨fun hf => ⟨fun e => hni (e ▸ hf),.inr hf⟩,?_⟩
      rintro ⟨hne,hf⟩
      exact hf.resolve_left hne
    rw [hp.tail hb,hla hb]
    cases ys with
    | nil =>
      rw [if_pos]
      · rfl
      exact hta
    | cons =>
      rw [if_neg,List.getLastD_cons,List.getLastD_cons,List.getLastD_cons]
      rw [hta.1]
      exact hta.2.1

lemma Layout.move (h : Layout cfg R extra w place) (x : Nat) (q : Place)
    (htr : TreeInv cfg.toPmmConfig w'.glob) (hctd : PagesCounted cfg.toPmmConfig extra w'.glob)
    (hfms : ∀ f, f ≠ x → FrameOk cfg R w' f (place f)) (hx : FrameOk cfg R w' x q)
    (hsa : ∀ c b, place x ≠ .bucket c b → q ≠ .bucket c b →
      (w'.pcp c).top b = (w.pcp c).top b ∧ (w'.pcp c).size b = (w.pcp c).size b ∧
        (b = .quarantine → (w'.pcp c).qTail = (w.pcp c).qTail) ∧
        ∀ f, place f = .bucket c b → w'.glob.next f = w.glob.next f)
    (hspe : ∀ c b, place x = .bucket c b ∨ q = .bucket c b →
      BucketOk w'.glob (w'.pcp c) b (fun f => if f = x then q = .bucket c b
        else place f = .bucket c b)) : Laid cfg R extra w' := by
  have hup : ∀ c b f, (update place x q f = .bucket c b) =
      if f = x then q = .bucket c b else place f = .bucket c b := by
    intro c b f
    rw [update_apply]
    split <;> rfl
  refine ⟨update place x q,htr,hctd,fun f => ?_,fun c b => ?_⟩
  · by_cases hf : f = x
    · rw [hf,update_self]
      exact hx
    rw [update_of_ne hf]
    exact hfms f hf
  simp only [hup]
  by_cases hb : place x = .bucket c b ∨ q = .bucket c b
  · exact hspe c b hb
  obtain ⟨hfm,hto⟩ := not_or.mp hb
  obtain ⟨htop,hsz,hta,hln⟩ := hsa c b hfm hto
  refine (h.buckets c b).congr htop hsz hta hln fun f => ?_
  split_ifs with hf
  · rw [hf]
    exact ⟨fun e => absurd e hto,fun e => absurd e hfm⟩
  rfl

lemma Laid.pop (h : Laid cfg R extra w) (hpos : 0 < (w.pcp c).size b) (hp : PopsFrom b w.glob (w.pcp c) p) :
    Laid cfg R extra ((w.setCpu c p w.glob).setHold ((w.pcp c).top b) .parking) := by
  obtain ⟨place,h⟩ := h
  have hx := ((h.buckets c b).first hpos).1
  have hok := h.frames ((w.pcp c).top b)
  rw [hx] at hok
  have hse : ((w.setCpu c p w.glob).setHold ((w.pcp c).top b) .parking).pcp c = p :=
    setCpu_self w c p w.glob
  refine h.move ((w.pcp c).top b) .held h.tree h.counted (fun f hf => ?_)
    ⟨hok.1,hok.2.1,hok.2.2.1,?_⟩ (fun c' b' hfm _ => ?_) fun c' b' hb => ?_
  · exact (h.frames f).congr rfl (update_of_ne hf ..) (fun _ => rfl) fun _ _ _ => rfl
  · simp only [FrameWorld.setHold,update_self]
    trivial
  · obtain rfl | hc := eq_or_ne c' c
    · have hne : b' ≠ b := by
        rintro rfl
        exact hfm hx
      rw [hse]
      exact ⟨(hp.others b' hne).1,(hp.others b' hne).2,
        fun hq => hp.keep fun e => hne (hq.trans e.symm),fun _ _ => rfl⟩
    have hot : ((w.setCpu c p w.glob).setHold ((w.pcp c).top b) .parking).pcp c' =
        w.pcp c' := setCpu_other w hc p w.glob
    rw [hot]
    exact ⟨rfl,rfl,fun _ => rfl,fun _ _ => rfl⟩
  obtain ⟨rfl,rfl⟩ : c = c' ∧ b = b' := by
    obtain hb | hb := hb
    · injection hx.symm.trans hb with hc hb
      exact ⟨hc,hb⟩
    cases hb
  rw [hse]
  refine (h.buckets c b).pop hpos hp fun f => ?_
  split
  · next hf => exact ⟨nofun,fun e => absurd hf e.1⟩
  next hf => exact ⟨fun e => ⟨hf,e⟩,fun e => e.2⟩

structure PushesOn (b : Bucket) (x : Nat) (p p' : Pcp) : Prop where
  top : p'.top b = x
  size : p'.size b = p.size b + 1
  others : ∀ b', b' ≠ b → p'.top b' = p.top b' ∧ p'.size b' = p.size b'
  keep : p'.qTail = p.qTail

lemma Layout.join (h : Layout cfg R extra w place) (hhe : place x = .held) (hc : c < cfg.maxCpus)
    (htr : TreeInv cfg.toPmmConfig s) (hctd : PagesCounted cfg.toPmmConfig extra s)
    (hbit : s.bitmap x = w.glob.bitmap x) (hpg : BucketPage b (s.mem x))
    (hfms : ∀ f, f ≠ x → FrameOk cfg R ((w.setCpu c p s).setHold x .idle) f (place f))
    (hots : ∀ b', b' ≠ b → p.top b' = (w.pcp c).top b' ∧ p.size b' = (w.pcp c).size b' ∧
      (b' = .quarantine → p.qTail = (w.pcp c).qTail))
    (hnx : ∀ f c' b', place f = .bucket c' b' → Place.bucket c b ≠ .bucket c' b' →
      s.next f = w.glob.next f)
    (hjoi : BucketOk s p b fun f => f = x ∨ place f = .bucket c b) :
    Laid cfg R extra ((w.setCpu c p s).setHold x .idle) := by
  have hok := h.frames x
  rw [hhe] at hok
  have hse : ((w.setCpu c p s).setHold x .idle).pcp c = p := setCpu_self w c p s
  refine h.move x (.bucket c b) htr hctd hfms
    ⟨hok.1,hok.2.1,hbit.trans hok.2.2.1,update_self ..,hc,hpg⟩
    (fun c' b' _ hto => ?_) fun c' b' hb => ?_
  · have hke := fun f hf => hnx f c' b' hf hto
    obtain rfl | he := eq_or_ne c' c
    · have hne : b' ≠ b := by
        rintro rfl
        exact hto rfl
      obtain ⟨htop,hsz,hta⟩ := hots b' hne
      rw [hse]
      exact ⟨htop,hsz,hta,hke⟩
    have hot : ((w.setCpu c p s).setHold x .idle).pcp c' = w.pcp c' := setCpu_other w he p s
    rw [hot]
    exact ⟨rfl,rfl,fun _ => rfl,hke⟩
  obtain ⟨rfl,rfl⟩ : c = c' ∧ b = b' := by
    obtain hb | hb := hb
    · rw [hhe] at hb
      cases hb
    injection hb with hc hb
    exact ⟨hc,hb⟩
  rw [hse]
  obtain ⟨l,hl,hnd,hlen,hmem,hta⟩ := hjoi
  refine ⟨l,hl,hnd,hlen,fun f => (hmem f).trans ?_,hta⟩
  dsimp only
  split
  · next hf => exact ⟨fun _ => rfl,fun _ => .inl hf⟩
  next hf => exact ⟨fun e => e.resolve_left hf,.inr⟩

lemma Laid.push (h : Laid cfg R extra w) (hx : w.hold x ≠ .idle) (hx0 : x ≠ 0) (hc : c < cfg.maxCpus)
    (hb : b ≠ .quarantine) (hp : PushesOn b x (w.pcp c) p) (hs : MemOnly x w.glob s)
    (hln : s.next x = (w.pcp c).top b) (hpg : BucketPage b (s.mem x)) :
    Laid cfg R extra ((w.setCpu c p s).setHold x .idle) := by
  obtain ⟨place,h⟩ := h
  have hhe := h.place_held hx
  have hnx : ∀ f c b, place f = .bucket c b → s.next f = w.glob.next f := fun f c b hf =>
    congrFun (hs.mem f (Layout.bucket_ne hhe hf)) 0
  refine h.join hhe hc (hs.canonical h.tree (h.held_used hhe)) (hs.counted h.counted)
    (congrFun hs.same.bitmap x) hpg (fun f hf => ?_)
    (fun b' hne => ⟨(hp.others b' hne).1,(hp.others b' hne).2,fun _ => hp.keep⟩)
    (fun f c b hf _ => hnx f c b hf) ?_
  · exact (h.frames f).congr (congrFun hs.same.bitmap f) (update_of_ne hf ..)
      (fun _ => congrFun hs.same.refcounts f) fun _ _ _ => hs.mem f hf
  obtain ⟨l,hl,hnd,hlen,hmem,-⟩ := h.buckets c b
  have hxl : x ∉ l := fun hin => Layout.bucket_ne hhe ((hmem x).mp hin) rfl
  refine ⟨x :: l,?_,List.nodup_cons.mpr ⟨hxl,hnd⟩,?_,fun f => ?_,fun e => absurd e hb⟩
  · rw [hp.top]
    exact hl.push hx0 hln fun y hy => hnx y c b ((hmem y).mp hy)
  · rw [hp.size,List.length_cons,hlen]
  rw [List.mem_cons,hmem]

open List

structure Enqueues (x : Nat) (p p' : Pcp) : Prop where
  head : p'.qHead = if p.qTail = 0 then x else p.qHead
  tail : p'.qTail = x
  size : p'.qCount = p.qCount + 1
  others : ∀ b, b ≠ .quarantine → p'.top b = p.top b ∧ p'.size b = p.size b

structure LinkedBehind (x tail : Nat) (s t : PmmState) : Prop where
  only : MemOnly tail s t
  words : ∀ i, i ≠ 0 → t.mem tail i = s.mem tail i
  link : tail ≠ 0 → t.next tail = x

variable {q : Place}

lemma BucketOk.tail_mem (h : BucketOk s p .quarantine S) (hta : p.qTail ≠ 0) : S p.qTail := by
  obtain ⟨l,-,-,-,hmem,hla⟩ := h
  have hla := hla rfl
  obtain rfl | ⟨L,y,rfl⟩ := eq_nil_or_concat l
  · cases hta hla
  rw [concat_eq_append,getLastD_concat] at hla
  rw [hla]
  refine (hmem y).mp ?_
  rw [concat_eq_append]
  exact mem_append_right L (.head _)

lemma BucketOk.enqueue {t : PmmState} (h : BucketOk s p .quarantine S)
    (hx0 : x ≠ 0) (hxS : ¬S x) (hp : Enqueues x p p') (ht : LinkedBehind x p.qTail s t)
    (hend : t.next x = 0) (hS : ∀ f, S' f ↔ f = x ∨ S f) : BucketOk t p' .quarantine S' := by
  obtain ⟨l,hl,hnd,hlen,hmem,hla⟩ := h
  have hla := hla rfl
  have hnew : ∀ f, f ∈ l ++ [x] ↔ S' f := fun f => by
    rw [hS,mem_append,hmem,mem_singleton,or_comm]
  have hnodup' : (l ++ [x]).Nodup := by
    refine nodup_append.mpr ⟨hnd,nodup_singleton x,?_⟩
    rintro y hy z hz rfl
    rw [mem_singleton.mp hz] at hy
    exact hxS ((hmem x).mp hy)
  have hsz : (l ++ [x]).length = p'.size .quarantine := by
    rw [length_append,hlen]
    exact hp.size.symm
  refine ⟨l ++ [x],?_,hnodup',hsz,hnew,fun _ => ?_⟩
  · obtain rfl | ⟨L,y,rfl⟩ := eq_nil_or_concat l
    · refine ⟨?_,hx0,hend⟩
      exact hp.head.trans (if_pos hla)
    rw [concat_eq_append] at hl hnd hla ⊢
    rw [getLastD_concat] at hla
    have hy0 : y ≠ 0 := hl.ne_zero (mem_append_right L (.head _))
    have hln : t.next y = x := hla ▸ ht.link (hla ▸ hy0)
    have hhd : p'.top .quarantine = p.top .quarantine := hp.head.trans (if_neg (hla ▸ hy0))
    rw [hhd]
    refine hl.append hx0 hln hend fun z hz => ?_
    have hne : z ≠ y := by
      rintro rfl
      exact (nodup_append.mp hnd).2.2 z hz z (.head _) rfl
    exact congrFun (ht.only.mem z (hla ▸ hne)) 0
  rw [getLastD_concat]
  exact hp.tail

section

variable (h : Layout cfg R extra w place)

include h

lemma Layout.tail_not_free (c : Nat) : ¬FreeFrame cfg.toPmmConfig w.glob (w.pcp c).qTail := by
  by_cases hta : (w.pcp c).qTail = 0
  · rw [hta]
    exact h.tree.canonical.zero
  have hok := h.frames (w.pcp c).qTail
  rw [(h.buckets c .quarantine).tail_mem hta] at hok
  exact fun hf => absurd (hok.2.2.1.symm.trans hf.2) (by decide)

lemma Layout.bucket_of_tail {c' : Nat} (hf : place f = .bucket c' b) (hta : f = (w.pcp c).qTail) :
    c' = c ∧ b = .quarantine := by
  obtain ⟨l,hl,-,-,hmem,-⟩ := h.buckets c' b
  have hq := (h.buckets c .quarantine).tail_mem (hta ▸ hl.ne_zero ((hmem f).mpr hf))
  rw [← hta,hf] at hq
  injection hq with hc hb
  exact ⟨hc,hb⟩

end

lemma Layout.frames_linked (h : Layout cfg R extra w place) (hs : LinkedBehind x (w.pcp c).qTail w.glob s)
    (hglob : w'.glob = s) (hho : w'.hold f = w.hold f) : FrameOk cfg R w' f (place f) := by
  have hbit : w'.glob.bitmap f = w.glob.bitmap f := by rw [hglob,hs.only.same.bitmap]
  by_cases hf : f = (w.pcp c).qTail
  · have hok := h.frames f
    cases hpc : place f with
    | reserved | tree =>
      rw [hpc] at hok
      exact hok.congr hbit hho (nofun) (nofun)
    | held =>
      rw [hpc] at hok
      refine hok.congr hbit hho (fun _ => ?_) (nofun)
      rw [hglob,hs.only.same.refcounts]
    | bucket =>
      obtain ⟨rfl,rfl⟩ := h.bucket_of_tail hpc hf
      rw [hpc] at hok
      refine ⟨hok.1,hok.2.1,hbit.trans hok.2.2.1,hho.trans hok.2.2.2.1,hok.2.2.2.2.1,?_⟩
      rw [hf] at hok ⊢
      rw [hglob]
      exact (hs.words 1 (by decide)).trans hok.2.2.2.2.2
  refine (h.frames f).congr hbit hho (fun _ => ?_) fun _ _ _ => ?_
  · rw [hglob,hs.only.same.refcounts]
  rw [hglob]
  exact hs.only.mem f hf

lemma Laid.enqueue (h : Laid cfg R extra w) (hx : w.hold x ≠ .idle) (hx0 : x ≠ 0) (hc : c < cfg.maxCpus)
    (hp : Enqueues x (w.pcp c) p) (hs : LinkedBehind x (w.pcp c).qTail w.glob s) (hend : w.glob.next x = 0)
    (hma : w.glob.mem x 1 = pmmPoisonCanary) : Laid cfg R extra ((w.setCpu c p s).setHold x .idle) := by
  obtain ⟨place,h⟩ := h
  have hhe := h.place_held hx
  have hxtail : x ≠ (w.pcp c).qTail := by
    intro e
    have hq := (h.buckets c .quarantine).tail_mem (e ▸ hx0)
    exact Layout.bucket_ne hhe hq e.symm
  have hpg := hs.only.mem x hxtail
  refine h.join (b := .quarantine) hhe hc (hs.only.canonical h.tree (h.tail_not_free c))
    (hs.only.counted h.counted) (congrFun hs.only.same.bitmap x) ((congrFun hpg 1).trans hma)
    (fun f hf => h.frames_linked hs rfl (update_of_ne hf ..))
    (fun b hne => ⟨(hp.others b hne).1,(hp.others b hne).2,fun e => absurd e hne⟩)
    (fun f c' b hf hto => ?_) ?_
  · refine congrFun (hs.only.mem f fun e => hto ?_) 0
    obtain ⟨rfl,rfl⟩ := h.bucket_of_tail hf e
    rfl
  exact (h.buckets c .quarantine).enqueue hx0 (fun e => Layout.bucket_ne hhe e rfl) hp hs
    ((congrFun hpg 0).trans hend) fun f => .rfl

lemma FrameOk.used (h : FrameOk cfg R w f q) (hq : q = .held ∨
    ∃ c b, q = .bucket c b) : w.glob.bitmap f = true := by
  obtain rfl | ⟨c,b,rfl⟩ := hq
  · exact h.2.2.1
  exact h.2.2.1

lemma Laid.give (h : Laid cfg R extra w) (hx : w.hold x ≠ .idle) {ref : Nat}
    (hs : Gave cfg.toPmmConfig ref x 1 w.glob s) : Laid cfg R extra ((w.setGlob s).setHold x .idle) := by
  obtain ⟨place,h⟩ := h
  have hhe := h.place_held hx
  have hok := h.frames x
  rw [hhe] at hok
  have hout : ∀ f, f ≠ x → ¬(x ≤ f ∧ f < x + 1) := fun f hf => by omega
  have hbit : ∀ f, f ≠ x → s.bitmap f = w.glob.bitmap f := fun f hf => by
    rw [hs.moved.bitmap,if_neg (hout f hf)]
  have hfe : s.bitmap x = false := by rw [hs.moved.bitmap,if_pos (by omega)]
  have hmem : ∀ f c b, place f = .bucket c b → s.mem f = w.glob.mem f := by
    intro f c b hf
    refine hs.mem f ?_
    rw [hbit f (Layout.bucket_ne hhe hf)]
    exact (h.frames f).used (.inr ⟨c,b,hf⟩)
  refine h.move x .tree (hs.inv h.tree) (hs.counted extra h.counted) (fun f hf => ?_)
    ⟨hok.1,hok.2.1,hfe,update_self ..⟩ (fun c b _ _ => ?_) fun c b hb => ?_
  · refine (h.frames f).congr (hbit f hf) (update_of_ne hf ..) (fun hp => ?_) (hmem f)
    refine hs.moved.kept f (hout f hf) ?_
    rw [hbit f hf]
    exact (h.frames f).used (.inl hp)
  · exact ⟨rfl,rfl,fun _ => rfl,fun f hf => congrFun (hmem f c b hf) 0⟩
  obtain hb | hb := hb
  · rw [hhe] at hb
    cases hb
  cases hb

lemma FrameOk.tree_of_free (h : FrameOk cfg R w f q) (hf : FreeFrame cfg.toPmmConfig w.glob f) :
    q = .tree := by
  cases q with
  | reserved => exact absurd ((h.2.2 hf.1).symm.trans hf.2) (by decide)
  | tree => rfl
  | bucket | held => exact absurd (h.2.2.1.symm.trans hf.2) (by decide)

lemma Laid.take (h : Laid cfg R extra w) {n : Nat} (hold : Hold)
    (hs : Took cfg.toPmmConfig x n w.glob s) (hold1 : HoldOk hold 1) :
    Laid cfg R extra { w with
      glob := s
      hold := fun f => if x ≤ f ∧ f < x + n then hold else w.hold f } := by
  obtain ⟨place,h⟩ := h
  have htr : ∀ f, x ≤ f ∧ f < x + n → place f = .tree := fun f hf =>
    (h.frames f).tree_of_free (hs.free f hf.1 hf.2)
  have hbit : ∀ f, ¬(x ≤ f ∧ f < x + n) → s.bitmap f = w.glob.bitmap f := fun f hf => by
    rw [hs.moved.bitmap,if_neg hf]
  have hmem : ∀ f c b, place f = .bucket c b → s.mem f = w.glob.mem f := fun f c b hf =>
    hs.mem f ((h.frames f).used (.inr ⟨c,b,hf⟩))
  refine ⟨fun f => if x ≤ f ∧ f < x + n then .held else place f,
    ⟨hs.canonical,hs.moved.env.buddyReady.trans h.tree.ready⟩,hs.counted extra h.counted,
    fun f => ?_,fun c b => ?_⟩
  · split_ifs with hf
    · have hok := h.frames f
      rw [htr f hf] at hok
      refine ⟨hok.1,hok.2.1,?_,?_⟩
      · exact (hs.moved.bitmap f).trans (if_pos hf)
      dsimp only
      rw [if_pos hf,hs.moved.refs f hf.1 hf.2]
      exact hold1
    refine (h.frames f).congr (hbit f hf) (if_neg hf) (fun hp => ?_) (hmem f)
    refine hs.moved.kept f hf ?_
    rw [hbit f hf]
    exact (h.frames f).used (.inl hp)
  refine (h.buckets c b).congr rfl rfl (fun _ => rfl)
    (fun f hf => congrFun (hmem f c b hf) 0) fun f => ?_
  split_ifs with hf
  · rw [htr f hf]
    exact ⟨nofun,nofun⟩
  rfl

lemma setCpu_setCpu (w : FrameWorld) (c : Nat) (p p' : Pcp) (s s' : PmmState) :
    (w.setCpu c p s).setCpu c p' s' = w.setCpu c p' s' := by
  simp [FrameWorld.setCpu]

variable {p' : Pcp}

lemma setHold_back {h : Hold} (w : FrameWorld) (hx : w.hold x = .idle) :
    (w.setHold x h).setHold x .idle = w := by
  simp [FrameWorld.setHold,← hx]

lemma setHold_self (w : FrameWorld) (x : Nat) (h : Hold) : (w.setHold x h).hold x = h :=
  update_self _ _ _

section

variable (h : Laid cfg R extra w)

include h

lemma Laid.top_idle (hpos : 0 < (w.pcp c).size b) :
    w.hold ((w.pcp c).top b) = .idle ∧ (w.pcp c).top b ≠ 0 ∧
      (w.pcp c).top b < cfg.frameCount ∧ BucketPage b (w.glob.mem ((w.pcp c).top b)) := by
  obtain ⟨place,h⟩ := h
  obtain ⟨hx,hx0⟩ := (h.buckets c b).first hpos
  have hok := h.frames ((w.pcp c).top b)
  rw [hx] at hok
  exact ⟨hok.2.2.2.1,hx0,hok.2.1,hok.2.2.2.2.2⟩

lemma Laid.held_used {f : Nat} (hf : w.hold f ≠ .idle) :
    ¬R f ∧ f < cfg.frameCount ∧ w.glob.bitmap f = true ∧ HoldOk (w.hold f) (w.glob.refcounts f) := by
  obtain ⟨place,h⟩ := h
  have hok := h.frames f
  rwa [h.place_held hf] at hok

lemma Laid.popHold (hpos : 0 < (w.pcp c).size b)
    (hp : PopsFrom b w.glob (w.pcp c) p) (hs : MemOnly ((w.pcp c).top b) w.glob s) :
    Laid cfg R extra ((w.setCpu c p s).setHold ((w.pcp c).top b) .parking) := by
  have hpop := h.pop hpos hp
  refine hpop.setMem ?_ hs
  rw [setHold_self]
  exact nofun

structure Keeps (cfg : PcpConfig) (R : Nat → Prop) (extra : Nat) (w : FrameWorld) (c : Nat)
    (p : Pcp) (s : PmmState) : Prop where
  laid : Laid cfg R extra (w.setCpu c p s)
  held : ∀ f, w.hold f ≠ .idle → s.mem f = w.glob.mem f

lemma Keeps.refl (c : Nat) : Keeps cfg R extra w c (w.pcp c) w.glob := by
  refine ⟨?_,fun _ _ => rfl⟩
  simp only [FrameWorld.setCpu,update_eq_self]
  exact h

omit h in
lemma Keeps.trans (h : Keeps cfg R extra w c p s)
    (h' : Keeps cfg R extra (w.setCpu c p s) c p' s') : Keeps cfg R extra w c p' s' := by
  refine ⟨?_,fun f hf => (h'.held f hf).trans (h.held f hf)⟩
  rw [← setCpu_setCpu w c p p' s s']
  exact h'.laid

lemma Laid.popReturn {hidden : Bool} (hpos : 0 < (w.pcp c).size b)
    (hp : PopsFrom b w.glob (w.pcp c) p) (hs : MemOnly ((w.pcp c).top b) w.glob s)
    (ht : pmmReturnFrame cfg.toPmmConfig hidden ((w.pcp c).top b) s = some t) :
    Keeps cfg R extra w c p t := by
  obtain ⟨hid,hx0,hlt,-⟩ := h.top_idle hpos
  have hpop := h.popHold hpos hp hs
  have hhe : ((w.setCpu c p s).setHold ((w.pcp c).top b) .parking).hold ((w.pcp c).top b) ≠
      .idle := by
    rw [setHold_self]
    exact nofun
  obtain ⟨place,hlay⟩ := id hpop
  have hgave := pmmReturnFrame_spec hlay.tree.canonical hx0 hlt ht
  refine ⟨?_,fun f hf => ?_⟩
  · have hgive := hpop.give hhe hgave
    have hba := setHold_back (h := .parking) (w.setCpu c p t) hid
    rw [← hba]
    exact hgive
  have hne : f ≠ (w.pcp c).top b := by
    rintro rfl
    exact hf hid
  rw [← hs.mem f hne]
  refine hgave.mem f ?_
  rw [hgave.moved.bitmap,if_neg (by omega)]
  have hbit := (h.held_used hf).2.2.1
  rw [← hs.same.bitmap] at hbit
  exact hbit

end

lemma popsFrom_plain (p : Pcp) (s : PmmState) :
    PopsFrom .plain s p { p with head := s.mem p.head 0, count := p.count - 1 } := by
  refine ⟨rfl,rfl,fun b hb => ?_,nofun,fun _ => rfl⟩
  cases b with
  | plain => cases hb rfl
  | zero | quarantine => exact ⟨rfl,rfl⟩

lemma popsFrom_zero (p : Pcp) (s : PmmState) :
    PopsFrom .zero s p { p with zeroHead := s.mem p.zeroHead 0, zeroCount := p.zeroCount - 1 } := by
  refine ⟨rfl,rfl,fun b hb => ?_,nofun,fun _ => rfl⟩
  cases b with
  | plain | quarantine => exact ⟨rfl,rfl⟩
  | zero => cases hb rfl

lemma popsFrom_quarantine (p : Pcp) (s : PmmState) (hp : p.qHead ≠ 0) :
    (qPop p s).1 = p.top .quarantine ∧ PopsFrom .quarantine s p (qPop p s).2 := by
  unfold qPop
  rw [if_neg hp]
  refine ⟨rfl,rfl,rfl,fun b hb => ?_,fun _ => rfl,absurd rfl⟩
  cases b with
  | plain | zero => exact ⟨rfl,rfl⟩
  | quarantine => cases hb rfl

lemma zeroPop_spec (h : zeroPop p s = some (x, p', t)) :
    x = p.top .zero ∧ PopsFrom .zero s p p' ∧ MemOnly x s t ∧
      t.mem x = update (update (s.mem x) 0 0) 2 0 := by
  unfold zeroPop at h
  dsimp only at h
  split at h
  · cases h
  injection h with h
  injection h with hx h
  injection h with hp ht
  subst hx hp ht
  refine ⟨rfl,popsFrom_zero p s,(store_memOnly ..).trans (store_memOnly ..),?_⟩
  simp [PmmState.store]

variable {hidden : Nat → Bool} {n : Nat} {r : Pcp × PmmState}

lemma drainZero_eq {cfg : PmmConfig} (hn : n ≤ p.zeroCount) (s : PmmState) :
    drainZero cfg hidden n p s = pmmPcpZeroDrain cfg hidden n p s := by
  induction n generalizing p s with
  | zero => rfl
  | succ n ih =>
    unfold drainZero pmmPcpZeroDrain
    rw [if_pos (n.succ_pos.trans_le hn)]
    split
    · rfl
    next x p' t hpop =>
    have hsz : p'.zeroCount = p.zeroCount - 1 := (zeroPop_spec hpop).2.1.size
    simp [ih (p := p') (by omega)]

section

variable (h : Laid cfg R extra w)

include h

lemma pmmPcpZeroDrain_spec (hr : pmmPcpZeroDrain cfg.toPmmConfig hidden n (w.pcp c) w.glob = some r) :
    Keeps cfg R extra w c r.1 r.2 := by
  induction n generalizing w with
  | zero =>
    cases hr
    exact .refl h c
  | succ n ih =>
    unfold pmmPcpZeroDrain at hr
    split_ifs at hr with hpos
    · split at hr
      · cases hr
      next x p s hpop =>
      obtain ⟨hx,hpo,hon,-⟩ := zeroPop_spec hpop
      have hx0 : x ≠ 0 := hx ▸ (h.top_idle (b := .zero) hpos).2.1
      rw [if_neg hx0] at hr
      split at hr
      · cases hr
      next t ht =>
      have hkp := h.popReturn (b := .zero) hpos hpo (hx ▸ hon) (hx ▸ ht)
      refine hkp.trans (ih hkp.laid ?_)
      rw [setCpu_self]
      exact hr
    cases hr
    exact .refl h c

lemma drainPlain_spec (hn : n ≤ (w.pcp c).count)
    (hr : drainPlain cfg.toPmmConfig hidden n (w.pcp c) w.glob = some r) : Keeps cfg R extra w c r.1 r.2 := by
  induction n generalizing w with
  | zero =>
    cases hr
    exact .refl h c
  | succ n ih =>
    unfold drainPlain at hr
    split at hr
    · cases hr
    next t ht =>
    have hkp := h.popReturn (b := .plain) (n.succ_pos.trans_le hn)
      (popsFrom_plain ..) (.refl ..) ht
    refine hkp.trans (ih hkp.laid ?_ ?_)
    · rw [setCpu_self]
      exact le_sub_of_add_le hn
    rw [setCpu_self]
    exact hr

lemma drainQuarantine_spec (hn : n ≤ (w.pcp c).qCount)
    (hr : drainQuarantine cfg.toPmmConfig hidden n (w.pcp c) w.glob = some r) :
    Keeps cfg R extra w c r.1 r.2 := by
  induction n generalizing w with
  | zero =>
    cases hr
    exact .refl h c
  | succ n ih =>
    have hpos : 0 < (w.pcp c).size .quarantine := n.succ_pos.trans_le hn
    obtain ⟨htop,hpo⟩ := popsFrom_quarantine (w.pcp c) w.glob (h.top_idle hpos).2.1
    unfold drainQuarantine at hr
    dsimp only at hr
    split at hr
    · cases hr
    next t ht =>
    have hkp := h.popReturn hpos hpo (htop ▸ zeroFrames_memOnly ..) (htop ▸ ht)
    refine hkp.trans (ih hkp.laid ?_ ?_)
    · rw [setCpu_self]
      exact (le_sub_of_add_le hn).trans_eq hpo.size.symm
    rw [setCpu_self]
    exact hr

lemma pmmPcpDrain_spec (hr : pmmPcpDrain cfg.toPmmConfig hidden (w.pcp c) w.glob = some r) :
    Laid cfg R extra (w.setCpu c r.1 r.2) := by
  unfold pmmPcpDrain at hr
  split at hr
  · cases hr
  next p₁ s₁ h₁ =>
  have hpn := drainPlain_spec h le_rfl h₁
  split at hr
  · cases hr
  next p₂ s₂ h₂ =>
  have hcpu₁ := setCpu_self w c p₁ s₁
  have hqr := hpn.trans
    (drainQuarantine_spec hpn.laid le_rfl (hcpu₁.symm ▸ h₂))
  have hcpu₂ := setCpu_self w c p₂ s₂
  exact (hqr.trans (pmmPcpZeroDrain_spec hqr.laid (drainZero_eq le_rfl _ ▸ (hcpu₂.symm ▸ hr)))).laid

end

lemma pushesOn_zero (p : Pcp) (x : Nat) :
    PushesOn .zero x p { p with zeroHead := x, zeroCount := p.zeroCount + 1 } := by
  refine ⟨rfl,rfl,fun b hb => ?_,rfl⟩
  cases b with
  | plain | quarantine => exact ⟨rfl,rfl⟩
  | zero => cases hb rfl

lemma pushesOn_plain (p : Pcp) (x : Nat) :
    PushesOn .plain x p { p with head := x, count := p.count + 1 } := by
  refine ⟨rfl,rfl,fun b hb => ?_,rfl⟩
  cases b with
  | plain => cases hb rfl
  | zero | quarantine => exact ⟨rfl,rfl⟩

section

variable (h : Laid cfg R extra w) (hx : w.hold x ≠ .idle) (hx0 : x ≠ 0) (hc : c < cfg.maxCpus)

include h hx hx0 hc

lemma zeroPush_spec (hze : w.glob.mem x = fun _ => 0) :
    Laid cfg R extra ((w.setCpu c (zeroPush (w.pcp c) x w.glob).1
      (zeroPush (w.pcp c) x w.glob).2).setHold x .idle) := by
  have hma : w.glob.mem x 2 ≠ pmmZeroMagic := by
    rw [hze]
    decide
  unfold zeroPush
  rw [if_neg hma]
  refine h.push (b := .zero) hx hx0 hc (nofun) (pushesOn_zero _ x)
    ((store_memOnly ..).trans (store_memOnly ..)) ?_ ⟨?_,fun i hi0 hi2 => ?_⟩
  · simp only [PmmState.next,PmmState.store,update_self]
    rfl
  · simp [PmmState.store]
  simp [PmmState.store,update_of_ne hi2,update_of_ne hi0,hze]

lemma parkZeroed_spec (hr : parkZeroed cfg.toPmmConfig hidden x (w.pcp c) w.glob = some r) :
    Laid cfg R extra ((w.setCpu c r.1 r.2).setHold x .idle) := by
  have hcl := h.setMem hx (zeroFrames_memOnly w.glob x)
  obtain ⟨q,hdrn,hq⟩ : ∃ q, (if pmmPcpZeroLimit ≤ (w.pcp c).zeroCount then
      pmmPcpZeroDrain cfg.toPmmConfig hidden pmmPcpZeroDrainBatch (w.pcp c)
        (zeroFrames x 1 w.glob) else some (w.pcp c, zeroFrames x 1 w.glob)) = some q ∧
      zeroPush q.1 x q.2 = r := by
    exact Option.map_eq_some_iff.mp hr
  have hkp : Keeps cfg R extra (w.setGlob (zeroFrames x 1 w.glob)) c q.1 q.2 := by
    split at hdrn
    · exact pmmPcpZeroDrain_spec hcl hdrn
    cases hdrn
    exact .refl hcl c
  have hze : q.2.mem x = fun _ => 0 := (hkp.held x hx).trans (zeroFrames_self w.glob x)
  have hpu := zeroPush_spec hkp.laid hx hx0 hc hze
  rw [setCpu_self,setCpu_setCpu] at hpu
  rw [← hq]
  exact hpu

end

lemma evict_spec (hidden : Nat → Bool) (h : Laid cfg R extra w) (hc : c < cfg.maxCpus)
    (hpos : 0 < (w.pcp c).qCount)
    (hr : parkZeroed cfg.toPmmConfig hidden (qPop (w.pcp c) w.glob).1 (qPop (w.pcp c) w.glob).2
      w.glob = some r) : Laid cfg R extra (w.setCpu c r.1 r.2) := by
  obtain ⟨hid,hx0,-,-⟩ := h.top_idle (b := .quarantine) hpos
  obtain ⟨htop,hpo⟩ := popsFrom_quarantine (w.pcp c) w.glob hx0
  rw [htop] at hr
  have hpop := h.pop (b := .quarantine) hpos hpo
  have hcpu := setCpu_self w c (qPop (w.pcp c) w.glob).2 w.glob
  have hpk := parkZeroed_spec hpop ?_ hx0 hc
    (hcpu.symm ▸ hr)
  have hba := setHold_back (h := .parking) (w.setCpu c r.1 r.2) hid
  · rw [← hba,← setCpu_setCpu w c (qPop (w.pcp c) w.glob).2 r.1 w.glob r.2]
    exact hpk
  rw [setHold_self]
  exact nofun

lemma pmmScrubQuarantine_spec (h : Laid cfg R extra w) (hc : c < cfg.maxCpus)
    (hr : pmmScrubQuarantine cfg.toPmmConfig hidden n (w.pcp c) w.glob = some r) :
    Laid cfg R extra (w.setCpu c r.1 r.2) := by
  induction n generalizing w with
  | zero =>
    cases hr
    exact (Keeps.refl h c).laid
  | succ n ih =>
    unfold pmmScrubQuarantine at hr
    split_ifs at hr with hage
    · dsimp only at hr
      split at hr
      · cases hr
      split at hr
      · cases hr
      next p s hpk =>
      have hld := evict_spec hidden h hc (zero_lt_of_lt hage) hpk
      rw [← setCpu_setCpu w c p r.1 s r.2]
      refine ih hld ?_
      rw [setCpu_self]
      exact hr
    cases hr
    exact (Keeps.refl h c).laid

open PmmState

lemma Laid.tree (h : Laid cfg R extra w) : TreeInv cfg.toPmmConfig w.glob := by
  obtain ⟨place,h⟩ := h
  exact h.tree

lemma Laid.free_idle (h : Laid cfg R extra w) (hx : FreeFrame cfg.toPmmConfig w.glob x) :
    w.hold x = .idle := by
  obtain ⟨place,h⟩ := h
  have hok := h.frames x
  rw [hok.tree_of_free hx] at hok
  exact hok.2.2.2

variable {q : Popped}

section

variable (h : Laid cfg R extra w)

include h

lemma Laid.take_one (hs : Took cfg.toPmmConfig x 1 w.glob s) :
    Laid cfg R extra ((w.setGlob s).setHold x .parking) := by
  have htk := h.take .parking hs trivial
  have hho : (fun f => if x ≤ f ∧ f < x + 1 then .parking else w.hold f) =
      update w.hold x .parking := by
    funext f
    rw [update_apply]
    exact if_congr (by omega) rfl rfl
  rw [hho] at htk
  exact htk

lemma pmmPcpRefill_spec {here n : Nat} (hc : c < cfg.maxCpus) :
    Laid cfg R extra (w.setCpu c (pmmPcpRefill cfg.toPmmConfig here n (w.pcp c) w.glob).1
      (pmmPcpRefill cfg.toPmmConfig here n (w.pcp c) w.glob).2) := by
  induction n generalizing w with
  | zero => exact (Keeps.refl h c).laid
  | succ n ih =>
    unfold pmmPcpRefill
    split
    · obtain ⟨hx,hs⟩ | ⟨hx,htook⟩ := buddyAllocPref_spec h.tree.canonical here 0 none false
      · rw [buddyAlloc,if_pos hx,hs]
        exact (Keeps.refl h c).laid
      rw [buddyAlloc,if_neg hx]
      have hid := h.free_idle (htook.free _ le_rfl (lt_add_one _))
      have hpu := (h.take_one htook).push
        (by rw [setHold_self]; rintro ⟨⟩) hx hc (by rintro ⟨⟩)
        (pushesOn_plain ..) (store_memOnly _ _ 0 (w.pcp c).head)
        (by simp only [PmmState.next,store,update_self]; rfl) trivial
      have hld := setHold_back (w.setCpu c ..) hid ▸ hpu
      have hrs := ih hld
      rw [setCpu_self,setCpu_setCpu] at hrs
      exact hrs
    exact (Keeps.refl h c).laid

omit h in
lemma checkHandout_eq {t : PmmState} (h : pmmCheckHandout x s = some t) : t = s := by
  unfold pmmCheckHandout at h
  split at h
  · cases h
  injection h with h
  exact h.symm

lemma Laid.popClaim {b : Bucket} (hold : Hold) (hpos : 0 < (w.pcp c).size b)
    (hp : PopsFrom b w.glob (w.pcp c) p) (hs : MemOnly ((w.pcp c).top b) w.glob s) (hok : HoldOk hold 1) :
    Laid cfg R extra ((w.setCpu c p (s.claim ((w.pcp c).top b))).setHold ((w.pcp c).top b) hold) := by
  have hpop := h.popHold hpos hp hs
  have hcla := hpop.setRef (x := (w.pcp c).top b) ?_ hok
  · simp only [FrameWorld.setHold,FrameWorld.setGlob,update_idem] at hcla
    exact hcla
  rw [setHold_self]
  rintro ⟨⟩

def Served (cfg : PcpConfig) (R : Nat → Prop) (extra : Nat) (w : FrameWorld) (c : Nat) (p : Pcp)
    (s : PmmState) : Popped → Prop
  | .ready x => w.hold x = .idle ∧ s.mem x = (fun _ => 0) ∧
      Laid cfg R extra ((w.setCpu c p s).setHold x (.owned 1))
  | .unzeroed x => w.hold x = .idle ∧ Laid cfg R extra ((w.setCpu c p s).setHold x .clearing)
  | .empty => Laid cfg R extra (w.setCpu c p s)

omit h in
lemma cleared_page {page : Fin 512 → Nat} (h : BucketPage .zero page) :
    update (update page 0 0) 2 0 = fun _ => 0 := by
  funext i
  by_cases hi2 : i = 2
  · rw [hi2,update_self]
  rw [update_of_ne hi2]
  by_cases hi0 : i = 0
  · rw [hi0,update_self]
  rw [update_of_ne hi0]
  exact h.2 i hi0 hi2

lemma popZeroed_spec (hpos : 0 < (w.pcp c).zeroCount)
    (hr : popZeroed (w.pcp c) w.glob = some (q, p, s)) : Served cfg R extra w c p s q := by
  unfold popZeroed at hr
  split at hr
  · cases hr
  next x p₁ s₁ hpop =>
  obtain ⟨t,hck,heq⟩ := Option.map_eq_some_iff.mp hr
  injection heq with hq heq
  injection heq with hp hs
  subst hq hp
  obtain ⟨rfl,hpo,hon,hpg⟩ := zeroPop_spec hpop
  obtain ⟨hid,-,-,hbu⟩ := h.top_idle (b := .zero) hpos
  have ht := checkHandout_eq hck
  have hze : t.mem ((w.pcp c).top .zero) = fun _ => 0 := by
    rw [ht]
    exact hpg.trans (cleared_page hbu)
  have hcl : ¬dirty (t.mem ((w.pcp c).top .zero)) := by
    rintro ⟨i,-,-,hi⟩
    rw [hze] at hi
    exact hi rfl
  rw [if_neg hcl] at hs
  subst hs
  refine ⟨hid,hze,?_⟩
  rw [ht]
  exact h.popClaim (.owned 1) hpos hpo hon ⟨one_pos,rfl⟩

lemma pmmPcpAlloc_spec {here : Nat} (hc : c < cfg.maxCpus)
    (hr : pmmPcpAlloc cfg.toPmmConfig here (w.pcp c) w.glob = some (q, p, s)) :
    Served cfg R extra w c p s q := by
  unfold pmmPcpAlloc at hr
  split at hr
  · next hpos => exact popZeroed_spec h hpos hr
  dsimp only at hr
  generalize hre : (if (w.pcp c).count = 0 then pmmPcpRefill cfg.toPmmConfig here pmmPcpRefillBatch (w.pcp c) w.glob
    else (w.pcp c, w.glob)) = r at hr
  have hfl : Laid cfg R extra (w.setCpu c r.1 r.2) := by
    rw [← hre]
    split
    · exact pmmPcpRefill_spec h hc
    exact (Keeps.refl h c).laid
  have hcpu := setCpu_self w c r.1 r.2
  split_ifs at hr with hpos
  · obtain ⟨t,hck,heq⟩ := Option.map_eq_some_iff.mp hr
    injection heq with hq heq
    injection heq with hp hs
    subst hq hp hs
    rw [checkHandout_eq hck]
    have hpos' : 0 < ((w.setCpu c r.1 r.2).pcp c).size .plain := hcpu.symm ▸ hpos
    have hcla := hfl.popClaim .clearing hpos' (popsFrom_plain ..)
      (.refl ..) rfl
    have hid := (hfl.top_idle hpos').1
    rw [hcpu,setCpu_setCpu] at hcla
    rw [hcpu] at hid
    exact ⟨hid,hcla⟩
  injection hr with hr
  injection hr with hq hr
  injection hr with hp hs
  subst hq hp hs
  exact hfl

omit h in
lemma store_linkedBehind (s : PmmState) (x tail : Nat) : LinkedBehind x tail s (s.store tail 0 x) := by
  refine ⟨store_memOnly ..,fun i hi => ?_,fun _ => ?_⟩
  · simp only [store,update_self]
    exact update_of_ne hi ..
  simp [PmmState.next,store]

lemma qPush_spec (hx : w.hold x ≠ .idle) (hx0 : x ≠ 0) (hc : c < cfg.maxCpus)
    (hcan : w.glob.mem x 1 ≠ pmmPoisonCanary) (hmg : w.glob.mem x 2 ≠ pmmZeroMagic) :
    Laid cfg R extra ((w.setCpu c (qPush (w.pcp c) x w.glob).1
      (qPush (w.pcp c) x w.glob).2).setHold x .idle) := by
  have hmk := h.setMem hx ((store_memOnly w.glob x 0 0).trans (store_memOnly _ x 1 pmmPoisonCanary))
  have hnx : ((w.glob.store x 0 0).store x 1 pmmPoisonCanary).next x = 0 := by
    simp only [PmmState.next,store,update_self]
    rfl
  have hma : ((w.glob.store x 0 0).store x 1 pmmPoisonCanary).mem x 1 = pmmPoisonCanary := by
    simp [store]
  unfold qPush
  rw [if_neg (not_or.mpr ⟨hcan,hmg⟩)]
  split_ifs with hta
  · refine hmk.enqueue hx hx0 hc ⟨(if_neg hta).symm,rfl,rfl,fun b hb => ?_⟩
      (store_linkedBehind ..) hnx hma
    cases b with
    | plain => exact ⟨rfl,rfl⟩
    | zero => exact ⟨rfl,rfl⟩
    | quarantine => cases hb rfl
  have hta := not_not.mp hta
  refine hmk.enqueue hx hx0 hc ⟨(if_pos hta).symm,rfl,rfl,fun b hb => ?_⟩
    ⟨.refl ..,fun _ _ => rfl,absurd hta⟩ hnx hma
  cases b with
  | plain => exact ⟨rfl,rfl⟩
  | zero => exact ⟨rfl,rfl⟩
  | quarantine => cases hb rfl

end

lemma qPush_count (hcan : s.mem x 1 ≠ pmmPoisonCanary) (hmg : s.mem x 2 ≠ pmmZeroMagic) :
    0 < (qPush p x s).1.qCount := by
  unfold qPush
  rw [if_neg (not_or.mpr ⟨hcan,hmg⟩)]
  split
  · exact succ_pos _
  exact succ_pos _

lemma poisoned_memOnly (poison : Bool) (x : Nat) (s : PmmState) : MemOnly x s (poisoned poison x s) := by
  unfold poisoned
  split
  · exact ⟨⟨rfl,rfl,rfl,rfl,rfl,rfl,rfl⟩,rfl,rfl,fun f hf => update_of_ne hf ..⟩
  exact .refl x s

lemma poisoned_unmarked (poison : Bool) (h : ¬(s.mem x 1 = pmmPoisonCanary ∨ s.mem x 2 = pmmZeroMagic)) :
    (poisoned poison x s).mem x 1 ≠ pmmPoisonCanary ∧ (poisoned poison x s).mem x 2 ≠ pmmZeroMagic := by
  unfold poisoned
  split
  · simp only [update_self]
    decide
  exact not_or.mp h

lemma pmmParkFrame_spec {hidden : Nat → Bool} {r : Pcp × PmmState} (h : Laid cfg R extra w)
    (hx : w.hold x ≠ .idle) (hx0 : x ≠ 0) (hc : c < cfg.maxCpus)
    (hr : pmmParkFrame cfg.toPmmConfig cfg.poison hidden x (w.pcp c) w.glob = some r) :
    Laid cfg R extra ((w.setCpu c r.1 r.2).setHold x .idle) := by
  unfold pmmParkFrame at hr
  split at hr
  · cases hr
  split at hr
  · cases hr
  next hmks =>
  obtain ⟨hcan,hmg⟩ := poisoned_unmarked cfg.poison hmks
  have hpoi := h.setMem hx (poisoned_memOnly cfg.poison x w.glob)
  have hpu := qPush_spec hpoi hx hx0 hc hcan hmg
  have hcount := qPush_count (p := w.pcp c) hcan hmg
  dsimp only at hr
  generalize hq : qPush (w.pcp c) x (poisoned cfg.poison x w.glob) = q at hr hcount
  have hld : Laid cfg R extra ((w.setHold x .idle).setCpu c q.1 q.2) := by
    rw [← hq]
    exact hpu
  split at hr
  · have hcpu := setCpu_self (w.setHold x .idle) c q.1 q.2
    have hevi := evict_spec hidden hld hc
      (hcpu.symm ▸ hcount) (hcpu.symm ▸ hr)
    rw [setCpu_setCpu] at hevi
    exact hevi
  cases hr
  exact hld

open Transition

structure Delivered (w w' : FrameWorld) (x n : Nat) : Prop where
  before : ∀ f, x ≤ f → f < x + n → w.hold f = .idle ∨ w.hold f = .clearing
  after : ∀ f, x ≤ f → f < x + n → w'.hold f = .owned 1
  zeroed : ∀ f, x ≤ f → f < x + n → w'.glob.mem f = fun _ => 0

lemma delivered_one (hbf : w.hold x = .idle ∨ w.hold x = .clearing) (haf : w'.hold x = .owned 1)
    (hze : w'.glob.mem x = fun _ => 0) : Delivered w w' x 1 := by
  have heq : ∀ f, x ≤ f → f < x + 1 → f = x := fun f hlo hhi => by omega
  refine ⟨fun f hlo hhi => ?_,fun f hlo hhi => ?_,fun f hlo hhi => ?_⟩
  · rwa [heq f hlo hhi]
  · rwa [heq f hlo hhi]
  rwa [heq f hlo hhi]

def OwnedAfter (e : FrameEvent) (f m : Nat) (hold : Hold) : Prop :=
  hold = .owned m ∨ (e = .ref f ∧ hold = .owned (m + 1)) ∨
    (e = .drop f ∧ hold = if m = 1 then .parking else .owned (m - 1))

structure StepOk (cfg : PcpConfig) (R : Nat → Prop) (extra : Nat) (w : FrameWorld)
    (e : FrameEvent) (w' : FrameWorld) (handed : Option (Nat × Nat)) : Prop where
  laid : Laid cfg R extra w'
  delivered : ∀ x n, handed = some (x, n) → Delivered w w' x n
  kept : ∀ f m, w.hold f = .owned m → OwnedAfter e f m (w'.hold f)

variable {e : FrameEvent} {handed : Option (Nat × Nat)}

lemma StepOk.quiet (h : Laid cfg R extra w') (hho : w'.hold = w.hold) : StepOk cfg R extra w e w' none :=
  ⟨h,nofun,fun f m hf => .inl (by rw [hho,hf])⟩

lemma StepOk.move {s : FrameWorld} {hold : Hold} (h : Laid cfg R extra (s.setHold x hold))
    (hho : s.hold = w.hold) (hx : ∀ m, w.hold x = .owned m → OwnedAfter e x m hold)
    (hd : ∀ y n, handed = some (y, n) → Delivered w (s.setHold x hold) y n) :
    StepOk cfg R extra w e (s.setHold x hold) handed := by
  refine ⟨h,hd,fun f m hf => ?_⟩
  obtain rfl | hfx := eq_or_ne f x
  · rw [setHold_self]
    exact hx m hf
  left
  simp only [FrameWorld.setHold,update_of_ne hfx,hho]
  exact hf

lemma not_owned {hold : Hold} {f : Nat} (h : w.hold f = hold)
    (hne : ∀ m, hold ≠ .owned m) (m : Nat) (hf : w.hold f = .owned m) : OwnedAfter e f m new :=
  absurd (h.symm.trans hf) (hne m)

section

variable (h : Laid cfg R extra w)

include h

lemma allocStep_ok {cpu here : Nat} (hc : cpu < cfg.maxCpus)
    (hs : allocStep cfg w cpu here = some (w', handed)) :
    StepOk cfg R extra w (.alloc cpu here) w' handed := by
  obtain ⟨⟨q,p,s⟩,hal,heq⟩ := Option.map_eq_some_iff.mp hs
  have hsvd := pmmPcpAlloc_spec h hc hal
  cases q with
  | ready =>
    cases heq
    obtain ⟨hid,hze,hld⟩ := hsvd
    refine .move hld rfl (not_owned hid nofun) fun y n hy => ?_
    cases hy
    exact delivered_one (.inl hid) (setHold_self ..) hze
  | unzeroed =>
    cases heq
    obtain ⟨hid,hld⟩ := hsvd
    exact .move hld rfl (not_owned hid nofun) nofun
  | empty =>
    cases heq
    exact .quiet hsvd rfl

lemma clearStep_ok (hx : w.hold x = .clearing) :
    StepOk cfg R extra w (.clear x)
      ((w.setGlob (zeroFrames x 1 w.glob)).setHold x (.owned 1)) (some (x, 1)) := by
  have hne : w.hold x ≠ .idle := hx.trans_ne nofun
  have hre : w.glob.refcounts x = 1 := by
    have hok := (h.held_used hne).2.2.2
    rwa [hx] at hok
  have hcl := h.setMem hne (zeroFrames_memOnly w.glob x)
  refine .move (hcl.setHold hne ⟨one_pos,hre⟩) rfl
    (not_owned hx nofun) fun y n hy => ?_
  cases hy
  exact delivered_one (.inr hx) (setHold_self ..) (zeroFrames_self w.glob x)

lemma allocSlowStep_ok {here count : Nat} (hs : allocSlowStep cfg w here count = some (w', handed)) :
    StepOk cfg R extra w (.allocSlow here count) w' handed := by
  obtain ⟨⟨x,t⟩,hal,heq⟩ := Option.map_eq_some_iff.mp hs
  obtain ⟨hx,hid⟩ | ⟨hx,hha⟩ := pmmAllocAttempt_spec h.tree.canonical h.tree.ready hal
  · rw [if_pos hx] at heq
    cases heq
    refine .quiet ?_ rfl
    obtain ⟨place,h⟩ := h
    rw [hid]
    exact ⟨place,⟨Holds.congr h.tree.canonical (fun _ _ _ => rfl) rfl rfl rfl,h.tree.ready⟩,
      h.counted,h.frames,h.buckets⟩
  rw [if_neg hx] at heq
  cases heq
  have hfe : ∀ f, x ≤ f → f < x + max 1 count → w.hold f = .idle := fun f hlo hhi =>
    h.free_idle (hha.free f hlo hhi)
  refine ⟨h.take (.owned 1) hha.toTook ⟨one_pos,rfl⟩,fun y n hy => ?_,fun f m hf => .inl ?_⟩
  · cases hy
    exact ⟨fun f hlo hhi => .inl (hfe f hlo hhi),fun f hlo hhi => if_pos ⟨hlo,hhi⟩,hha.zeroed⟩
  dsimp only
  rw [if_neg]
  · exact hf
  rintro ⟨hlo,hhi⟩
  exact absurd ((hfe f hlo hhi).symm.trans hf) (nofun)

lemma refStep_ok (hs : refStep w x = some (w', handed)) : StepOk cfg R extra w (.ref x) w' handed := by
  unfold refStep at hs
  split at hs
  · next n hx =>
    obtain ⟨t,href,heq⟩ := Option.map_eq_some_iff.mp hs
    cases heq
    have hne : w.hold x ≠ .idle := hx.trans_ne nofun
    have hre := (h.held_used hne).2.2.2
    rw [hx] at hre
    unfold pmmRefFrame at href
    split at href
    · cases href
      refine .move (h.setRef hne ⟨succ_pos n,?_⟩) rfl (fun m hm => ?_)
        nofun
      · rw [hre.2]
      injection hx.symm.trans hm with hm
      exact .inr (.inl ⟨rfl,by rw [hm]⟩)
    cases href
  cases hs

lemma dropStep_ok
    (hs : dropStep cfg w x = some (w', handed)) : StepOk cfg R extra w (.drop x) w' handed := by
  unfold dropStep at hs
  split at hs
  · cases hs
    exact .quiet h rfl
  split at hs
  · cases hs
    exact .quiet h rfl
  split at hs
  · next n hx =>
    obtain ⟨⟨last,t⟩,hdp,heq⟩ := Option.map_eq_some_iff.mp hs
    cases heq
    have hne : w.hold x ≠ .idle := hx.trans_ne nofun
    have hre := (h.held_used hne).2.2.2
    rw [hx] at hre
    unfold pmmDropRef at hdp
    split at hdp
    · cases hdp
    split at hdp
    · cases hdp
    injection hdp with hdp
    injection hdp with hla ht
    subst ht
    have hnew : (if last = true then Hold.parking else .owned (n - 1)) =
        if n = 1 then .parking else .owned (n - 1) := by
      rw [← hla,hre.2]
      refine if_congr ?_ rfl rfl
      rw [decide_eq_true_eq]
      have := hre.1
      omega
    rw [hnew]
    refine .move (h.setRef hne ?_) rfl (fun m hm => ?_) nofun
    · split_ifs with hn1
      · trivial
      have := hre.1
      exact ⟨by omega,by rw [hre.2]⟩
    injection hx.symm.trans hm with hm
    exact .inr (.inr ⟨rfl,by rw [hm]⟩)
  cases hs

end

lemma parkEarly_ok {hidden : Nat → Bool} (hR : R 0) (h : Laid cfg R extra w)
    (hx : w.hold x = .parking) : StepOk cfg R extra w (.parkEarly x hidden)
      ((w.setGlob (markFrameFree cfg.toPmmConfig x w.glob)).setHold x .idle) none := by
  have hne : w.hold x ≠ .idle := hx.trans_ne nofun
  obtain ⟨hnot,hlt,hbit,-⟩ := h.held_used hne
  have hx0 : x ≠ 0 := by
    rintro rfl
    exact hnot hR
  exact .move (h.give hne (markFrameFree_spec h.tree.canonical h.tree.ready hx0 hlt hbit)) rfl
    (not_owned hx nofun) nofun

lemma Laid.step (hR : R 0) (h : Laid cfg R extra w) (hs : frameStep cfg w e = some (w', handed)) :
    StepOk cfg R extra w e w' handed := by
  cases e <;> simp only [frameStep] at hs
  case alloc =>
    split at hs
    · next hc => exact allocStep_ok h hc hs
    cases hs
  case clear =>
    split at hs
    · next hx =>
      cases hs
      exact clearStep_ok h hx
    cases hs
  case allocSlow => exact allocSlowStep_ok h hs
  case ref => exact refStep_ok h hs
  case drop => exact dropStep_ok h hs
  case park _ x _ =>
    split at hs
    · next hpk =>
      obtain ⟨r,hr,heq⟩ := Option.map_eq_some_iff.mp hs
      cases heq
      have hne : w.hold x ≠ .idle := by
        rw [hpk.2]
        exact nofun
      have hx0 : x ≠ 0 := by
        rintro rfl
        exact (h.held_used hne).1 hR
      exact .move (pmmParkFrame_spec h hne hx0 hpk.1 hr) rfl
        (not_owned hpk.2 nofun) nofun
    cases hs
  case parkEarly =>
    split at hs
    · next hpk =>
      cases hs
      exact parkEarly_ok hR h hpk.1
    cases hs
  case drain =>
    split at hs
    · obtain ⟨r,hr,heq⟩ := Option.map_eq_some_iff.mp hs
      cases heq
      exact .quiet (pmmPcpDrain_spec h hr) rfl
    cases hs
  case scrub =>
    split at hs
    · next hc =>
      obtain ⟨r,hr,heq⟩ := Option.map_eq_some_iff.mp hs
      cases heq
      exact .quiet (pmmScrubQuarantine_spec h hc hr) rfl
    cases hs
  case write x page =>
    split at hs
    · next n hx =>
      cases hs
      refine .quiet (h.setMem ?_ ⟨⟨rfl,rfl,rfl,rfl,rfl,rfl,rfl⟩,rfl,rfl,fun _ hf => update_of_ne hf ..⟩) rfl
      rw [hx]
      exact nofun
    cases hs
  case notePageTable =>
    cases hs
    refine .quiet ?_ rfl
    obtain ⟨place,h⟩ := h
    exact ⟨place,⟨Holds.congr h.tree.canonical (fun _ _ _ => rfl) rfl rfl rfl,h.tree.ready⟩,
      h.counted,h.frames,h.buckets⟩
  case keepZeroPage =>
    split at hs
    · split at hs
      · cases hs
        obtain ⟨place,h⟩ := h
        exact .quiet ⟨place,h.tree,h.counted,h.frames,h.buckets⟩ rfl
      cases hs
    cases hs

open Finset

def Unfreed (cfg : PcpConfig) (boot : PmmState) (f : Nat) : Prop :=
  ¬FreeFrame cfg.toPmmConfig boot f

variable {boot : PmmState}

section

variable (h0 : boot.bitmap 0 = true)
  (hcount : freeCount cfg.toPmmConfig boot.bitmap ≤ boot.freeFrames)

include h0 hcount

lemma bootLayout :
    Laid cfg (Unfreed cfg boot) (boot.freeFrames - freeCount cfg.toPmmConfig boot.bitmap)
      (.boot cfg boot) := by
  classical
  have hsa := (buddySeedFromBitmap_spec cfg.toPmmConfig boot fun hf =>
    absurd (h0.symm.trans hf.2) (by decide)).same
  have hbit : (FrameWorld.boot cfg boot).glob.bitmap = boot.bitmap := hsa.bitmap
  refine ⟨fun f => if FreeFrame cfg.toPmmConfig boot f then .tree else .reserved,seeded_inv h0,
    ?_,fun f => ?_,fun c b => ?_⟩
  · have hfe : (FrameWorld.boot cfg boot).glob.freeFrames = boot.freeFrames := hsa.freeFrames
    rw [PagesCounted,hbit]
    omega
  · split
    · next hf => exact ⟨not_not.mpr hf,hf.1,hbit ▸ hf.2,rfl⟩
    next hf =>
    refine ⟨hf,rfl,fun hlt => ?_⟩
    rw [hbit]
    exact eq_true_of_ne_false fun e => hf ⟨hlt,e⟩
  refine ⟨[],?_,nodup_nil,?_,fun f => ?_,fun _ => rfl⟩
  · cases b <;> rfl
  · cases b <;> rfl
  refine ⟨fun hf => absurd hf not_mem_nil,fun hf => ?_⟩
  dsimp only at hf
  split at hf
  · cases hf
  cases hf

lemma FrameRun.laid (h : FrameRun cfg boot w) :
    Laid cfg (Unfreed cfg boot) (boot.freeFrames - freeCount cfg.toPmmConfig boot.bitmap) w := by
  refine Reach.invariant (fun s hs => ?_) (fun s e t hld hstep => ?_) h
  · rw [hs]
    exact bootLayout h0 hcount
  obtain ⟨handed,hstep⟩ := hstep
  exact (hld.step (fun hf => absurd (h0.symm.trans hf.2) (by decide)) hstep).laid

end

def buckets : Finset Bucket := {.plain, .quarantine, .zero}

def bucketPlace (b : Nat × Bucket) : Place := .bucket b.1 b.2

def places (cfg : PcpConfig) : Finset Place :=
  insert .tree (insert .held ((Finset.range cfg.maxCpus ×ˢ buckets).image bucketPlace))

def heldFrames (cfg : PcpConfig) (w : FrameWorld) : Nat :=
  ((Finset.range cfg.frameCount).filter fun f => w.hold f ≠ .idle).card

lemma sum_places (cfg : PcpConfig) (g : Place → Nat) : ∑ q ∈ places cfg, g q =
    g .tree + (g .held + ∑ c ∈ Finset.range cfg.maxCpus,
      (g (.bucket c .plain) + g (.bucket c .quarantine) + g (.bucket c .zero))) := by
  have hinj : Function.Injective bucketPlace := by
    rintro ⟨c,b⟩ ⟨c',b'⟩ he
    injection he with hc hb
    exact Prod.ext hc hb
  rw [places,sum_insert,sum_insert,sum_image hinj.injOn,sum_product]
  · refine congrArg (g .tree + ·) (congrArg (g .held + ·) (sum_congr rfl fun c _ => ?_))
    rw [buckets,sum_insert (by decide),sum_insert (by decide),← add_assoc]
    rfl
  · intro h
    obtain ⟨b,-,hb⟩ := mem_image.mp h
    cases hb
  intro h
  obtain h | h := mem_insert.mp h
  · cases h
  obtain ⟨b,-,hb⟩ := mem_image.mp h
  cases hb

section

variable (h : Layout cfg R extra w place)

include h

lemma Layout.place_mem {f : Nat} (hf : ¬R f) : place f ∈ places cfg := by
  have hok := h.frames f
  cases hp : place f with
  | reserved =>
    rw [hp] at hok
    cases hf hok.1
  | tree => exact mem_insert_self _ _
  | held => exact mem_insert_of_mem (mem_insert_self _ _)
  | bucket c b =>
    rw [hp] at hok
    refine mem_insert_of_mem (mem_insert_of_mem ?_)
    have hb : b ∈ Mm.buckets := by cases b <;> decide
    exact mem_image.mpr ⟨(c, b),mem_product.mpr ⟨Finset.mem_range.mpr hok.2.2.2.2.1,hb⟩,rfl⟩

lemma Layout.tree_iff (f : Nat) : place f = .tree ↔ FreeFrame cfg.toPmmConfig w.glob f := by
  refine ⟨fun hp => ?_,(h.frames f).tree_of_free⟩
  have hok := h.frames f
  rw [hp] at hok
  exact ⟨hok.2.1,hok.2.2.1⟩

lemma Layout.held_iff (f : Nat) : place f = .held ↔ w.hold f ≠ .idle := by
  refine ⟨fun hp hid => ?_,h.place_held⟩
  have hok := h.frames f
  rw [hp] at hok
  have hho := hok.2.2.2
  rw [hid] at hho
  exact hho

lemma Layout.reserved_iff (f : Nat) : place f = .reserved ↔ R f := by
  have hok := h.frames f
  refine ⟨fun hp => ?_,fun hR => ?_⟩
  · rw [hp] at hok
    exact hok.1
  cases hp : place f with
  | reserved => rfl
  | tree | bucket | held =>
    rw [hp] at hok
    cases hok.1 hR

lemma Layout.bucket_iff (f c : Nat) (b : Bucket) :
    place f = .bucket c b ↔ Follows w.glob.next ((w.pcp c).top b) f := by
  obtain ⟨l,hl,-,-,hmem,-⟩ := h.buckets c b
  exact (hmem f).symm.trans hl.follows_iff.symm

lemma Layout.lt_frameCount {f : Nat} (hf : ¬R f) : f < cfg.frameCount := by
  have hok := h.frames f
  cases hp : place f with
  | reserved =>
    rw [hp] at hok
    cases hf hok.1
  | tree | bucket | held =>
    rw [hp] at hok
    exact hok.2.1

end

def Layout.fiber (cfg : PcpConfig) (place : Nat → Place) (q : Place) : Nat :=
  ((Finset.range cfg.frameCount).filter fun f => place f = q).card

section

variable (h : Layout cfg R extra w place)

include h

lemma Layout.fiber_tree : Layout.fiber cfg place .tree = freeCount cfg.toPmmConfig w.glob.bitmap := by
  refine congrArg Finset.card (filter_congr fun f hf => ?_)
  rw [h.tree_iff]
  exact ⟨fun hfe => hfe.2,fun hbit => ⟨Finset.mem_range.mp hf,hbit⟩⟩

lemma Layout.fiber_held : Layout.fiber cfg place .held = heldFrames cfg w :=
  congrArg Finset.card (filter_congr fun f _ => h.held_iff f)

lemma Layout.fiber_bucket (c : Nat) (b : Bucket) :
    Layout.fiber cfg place (.bucket c b) = (w.pcp c).size b := by
  obtain ⟨l,-,hnd,hlen,hmem,-⟩ := h.buckets c b
  rw [← hlen,← toFinset_card_of_nodup hnd]
  refine congrArg Finset.card (Finset.ext fun f => ?_)
  rw [Finset.mem_filter,mem_toFinset,hmem,Finset.mem_range]
  refine ⟨fun hf => hf.2,fun hf => ⟨h.lt_frameCount fun hR => ?_,hf⟩⟩
  cases ((h.reserved_iff f).mpr hR).symm.trans hf

lemma Layout.count [DecidablePred R] :
    pmmOwnedFreeFrames cfg.maxCpus w.pcp w.glob + heldFrames cfg w =
      ((Finset.range cfg.frameCount).filter fun f => ¬R f).card + extra := by
  have hmaps : ∀ f ∈ (Finset.range cfg.frameCount).filter fun f => ¬R f, place f ∈ places cfg :=
    fun f hf => h.place_mem (Finset.mem_filter.mp hf).2
  have hfiber : ∀ q ∈ places cfg,
      (((Finset.range cfg.frameCount).filter fun f => ¬R f).filter fun f => place f = q).card =
        Layout.fiber cfg place q := by
    intro q hq
    rw [Finset.filter_filter]
    refine congrArg Finset.card (filter_congr fun f _ => ⟨fun hf => hf.2,fun hf => ⟨?_,hf⟩⟩)
    intro hR
    rw [(h.reserved_iff f).mpr hR] at hf
    rw [← hf] at hq
    simp [places,bucketPlace] at hq
  rw [card_eq_sum_card_fiberwise hmaps,sum_congr rfl hfiber,sum_places,h.fiber_tree,h.fiber_held]
  have hctd : w.glob.freeFrames = freeCount cfg.toPmmConfig w.glob.bitmap + extra := h.counted
  simp only [h.fiber_bucket,pmmOwnedFreeFrames,Pcp.size]
  omega

end

def Lies (cfg : PcpConfig) (boot : PmmState) (w : FrameWorld) (f : Nat) : Place → Prop
  | .reserved => Unfreed cfg boot f
  | .tree => ∃ x k, (x, k) ∈ freeBlocks w.glob ∧ Inside x k f
  | .bucket c b => c < cfg.maxCpus ∧ Follows w.glob.next ((w.pcp c).top b) f
  | .held => w.hold f ≠ .idle

structure Conserved (cfg : PcpConfig) (boot : PmmState) (w : FrameWorld) : Prop where
  place : ∀ f, ∃! q, Lies cfg boot w f q
  slots : ∀ c b, ∃ l, Chain w.glob.next ((w.pcp c).top b) l ∧ l.Nodup ∧
    l.length = (w.pcp c).size b
  refs : ∀ f m, w.hold f = .owned m → 0 < m ∧ w.glob.refcounts f = m
  count : pmmOwnedFreeFrames cfg.maxCpus w.pcp w.glob + heldFrames cfg w = boot.freeFrames
  handed : ∀ e w' x n, frameStep cfg w e = some (w', some (x, n)) → ∀ f, x ≤ f → f < x + n →
    (w.hold f = .idle ∨ w.hold f = .clearing) ∧ w'.hold f = .owned 1
  kept : ∀ e w' handed f m, frameStep cfg w e = some (w', handed) → w.hold f = .owned m →
    OwnedAfter e f m (w'.hold f)

lemma Canonical.inside_free {c : PmmConfig} {s : PmmState} (h : Canonical c s) (f : Nat) :
    (∃ x k, (x, k) ∈ freeBlocks s ∧ Inside x k f) ↔ FreeFrame c s f := by
  constructor
  · rintro ⟨x,k,hx,hin⟩
    exact ((Holds.freeBlocks h x k).mp hx).2.1.2 f hin
  exact fun hf => h.form.cover f hf.1 hf.2

lemma Layout.lies_iff (h : Layout cfg (Unfreed cfg boot) extra w place) (f : Nat) (q : Place) :
    Lies cfg boot w f q ↔ place f = q := by
  cases q with
  | reserved => exact (h.reserved_iff f).symm
  | tree => exact (h.tree.canonical.inside_free f).trans (h.tree_iff f).symm
  | bucket c b =>
    refine ⟨fun hf => (h.bucket_iff f c b).mpr hf.2,fun hp => ⟨?_,(h.bucket_iff f c b).mp hp⟩⟩
    have hok := h.frames f
    rw [hp] at hok
    exact hok.2.2.2.2.1
  | held => exact (h.held_iff f).symm

lemma unfreed_card (cfg : PcpConfig) (boot : PmmState) [DecidablePred (Unfreed cfg boot)] :
    ((Finset.range cfg.frameCount).filter fun f => ¬Unfreed cfg boot f).card =
      freeCount cfg.toPmmConfig boot.bitmap := by
  refine congrArg Finset.card (filter_congr fun f hf => ?_)
  rw [Unfreed,not_not]
  exact ⟨fun hfe => hfe.2,fun hbit => ⟨Finset.mem_range.mp hf,hbit⟩⟩

theorem frames_conserved {boot : PmmState} (h0 : boot.bitmap 0 = true)
    (hcount : freeCount cfg.toPmmConfig boot.bitmap ≤ boot.freeFrames)
    (h : FrameRun cfg boot w) : Conserved cfg boot w := by
  classical
  have hld := h.laid h0 hcount
  have hze : Unfreed cfg boot 0 := fun hf => absurd (h0.symm.trans hf.2) (by decide)
  obtain ⟨place,hlay⟩ := id hld
  constructor
  case place =>
    intro f
    refine ⟨place f,(hlay.lies_iff f _).mpr rfl,fun q hq => ?_⟩
    exact ((hlay.lies_iff f q).mp hq).symm
  case slots =>
    intro c b
    obtain ⟨l,hl,hnd,hlen,-,-⟩ := hlay.buckets c b
    exact ⟨l,hl,hnd,hlen⟩
  case refs =>
    intro f m hf
    have hok := (hld.held_used (by rw [hf]; exact nofun)).2.2.2
    rwa [hf] at hok
  case count =>
    rw [hlay.count,unfreed_card]
    omega
  case handed =>
    intro e w' x n hs f hlo hhi
    have hd := (hld.step hze hs).delivered x n rfl
    exact ⟨hd.before f hlo hhi,hd.after f hlo hhi⟩
  case kept =>
    intro e w' handed f m hs hf
    exact (hld.step hze hs).kept f m hf

theorem handed_frames_zeroed {boot : PmmState} (h0 : boot.bitmap 0 = true)
    (hcount : freeCount cfg.toPmmConfig boot.bitmap ≤ boot.freeFrames)
    (h : FrameRun cfg boot w) {w' : FrameWorld} {e : FrameEvent} {x n : Nat}
    (hs : frameStep cfg w e = some (w', some (x, n))) (f : Nat) (hlo : x ≤ f) (hhi : f < x + n) :
    w'.glob.mem f = fun _ => 0 :=
  (((h.laid h0 hcount).step (fun hf => absurd (h0.symm.trans hf.2) (by decide)) hs).delivered
    x n rfl).zeroed f hlo hhi

def frameEvents (cfg : PcpConfig) (w : FrameWorld) (events : List FrameEvent) :
    Option FrameWorld :=
  events.foldlM (fun w e => (frameStep cfg w e).map Prod.fst) w

lemma FrameRun.events (h : FrameRun cfg boot w) {events : List FrameEvent} {w' : FrameWorld}
    (hs : frameEvents cfg w events = some w') : FrameRun cfg boot w' := by
  refine Reach.foldlM (fun u e t hu => ?_) h hs
  obtain ⟨⟨t,handed⟩,hstep,rfl⟩ := Option.map_eq_some_iff.mp hu
  exact ⟨handed,hstep⟩

def flatPcp : PcpConfig := { flatPmm with maxCpus := 1, poison := true }

def oneFree : PmmState :=
  { usedPmm with bitmap := fun f => decide (f ≠ 5), refcounts := fun _ => 0, freeFrames := 1 }

def reuse : List FrameEvent :=
  [.alloc 0 0,.clear 5,.write 5 fun _ => 7,.ref 5,.drop 5,.drop 5,.park 0 5 fun _ => false,
    .drain 0 fun _ => false]

theorem frames_conserved_parked : ∃ w, frameEvents flatPcp (.boot flatPcp oneFree)
      (reuse.take 7) = some w ∧ (w.pcp 0).qCount = 1 ∧ Conserved flatPcp oneFree w := by
  have hsm : ((frameEvents flatPcp (.boot flatPcp oneFree) (reuse.take 7)).map fun w =>
      (w.pcp 0).qCount) = some 1 := by decide +kernel
  obtain ⟨w,hw,hq⟩ := Option.map_eq_some_iff.mp hsm
  exact ⟨w,hw,hq,frames_conserved rfl (by decide) (FrameRun.events (.start rfl) hw)⟩

theorem handed_frames_zeroed_reuse : ∃ w w', frameEvents flatPcp (.boot flatPcp oneFree)
      reuse = some w ∧ frameStep flatPcp w (.allocSlow 0 1) = some (w', some (5, 1)) ∧
      w'.glob.mem 5 = fun _ => 0 := by
  have hsm : ((frameEvents flatPcp (.boot flatPcp oneFree) reuse).bind fun w =>
      (frameStep flatPcp w (.allocSlow 0 1)).map Prod.snd) = some (some (5, 1)) := by
    decide +kernel
  obtain ⟨w,hw,hstep⟩ := Option.bind_eq_some_iff.mp hsm
  obtain ⟨⟨w',-⟩,hstep,rfl⟩ := Option.map_eq_some_iff.mp hstep
  exact ⟨w,w',hw,hstep,handed_frames_zeroed rfl (by decide)
    (FrameRun.events (.start rfl) hw) hstep 5 (by decide) (by decide)⟩

def Unclaimed (cfg : PcpConfig) (hidden : Nat → Bool) (w : FrameWorld) : Prop :=
  ∀ f < cfg.frameCount, w.hold f = .idle → w.glob.ptFrames f = false ∧ hidden f = false

def Marked (page : Fin 512 → Nat) : Prop := page 1 = pmmPoisonCanary ∨ page 2 = pmmZeroMagic

lemma pmmReturnFrame_some {cfg : PmmConfig} {s : PmmState} (hpt : s.ptFrames x = false)
    (hbit : s.bitmap x = true) : ∃ t, pmmReturnFrame cfg false x s = some t := by
  rw [pmmReturnFrame,if_neg (by simp [hpt]),if_neg Bool.false_ne_true]
  split
  · exact ⟨_,rfl⟩
  rw [if_neg (by simp [hbit])]
  exact ⟨_,rfl⟩

section

variable (h : Laid cfg R extra w) (hu : Unclaimed cfg hidden w)

include h hu

lemma pmmPcpZeroDrain_some : ∃ r, pmmPcpZeroDrain cfg.toPmmConfig hidden n (w.pcp c) w.glob = some r := by
  induction n generalizing w with
  | zero => exact ⟨_,rfl⟩
  | succ n ih =>
    unfold pmmPcpZeroDrain
    split_ifs with hpos
    · obtain ⟨hid,hx0,hlt,hpg⟩ := h.top_idle (b := .zero) hpos
      obtain ⟨hpt,hhid⟩ := hu _ hlt hid
      obtain ⟨p,s,hpop⟩ : ∃ p s, zeroPop (w.pcp c) w.glob = some ((w.pcp c).zeroHead, p, s) :=
        ⟨_,_,if_neg (not_not.mpr hpg.1)⟩
      obtain ⟨-,hpo,hon,-⟩ := zeroPop_spec hpop
      have hhe := h.popHold (b := .zero) hpos hpo hon
      obtain ⟨-,-,hbit,-⟩ := hhe.held_used (f := (w.pcp c).zeroHead) (by
        rw [show (w.pcp c).zeroHead = (w.pcp c).top .zero from rfl,setHold_self]
        rintro ⟨⟩)
      obtain ⟨t,ht⟩ : ∃ t, pmmReturnFrame cfg.toPmmConfig false ((w.pcp c).top .zero) s = some t :=
        pmmReturnFrame_some ((congrFun hon.same.ptFrames _).trans hpt) hbit
      obtain ⟨place,hlay⟩ := hhe
      have henv := (pmmReturnFrame_spec hlay.tree.canonical hx0 hlt ht).moved.env.ptFrames.trans
        hon.same.ptFrames
      have hkp := h.popReturn (b := .zero) hpos hpo hon ht
      rw [hpop]
      dsimp only
      rw [if_neg (show (w.pcp c).zeroHead ≠ 0 from hx0), show hidden (w.pcp c).zeroHead = false from hhid,
        show pmmReturnFrame cfg.toPmmConfig false (w.pcp c).zeroHead s = some t from ht]
      have hrs := ih hkp.laid fun f hlt hf => by
        rw [show (w.setCpu c p t).glob.ptFrames = w.glob.ptFrames from henv]
        exact hu f hlt hf
      rwa [setCpu_self] at hrs
    exact ⟨_,rfl⟩

lemma parkZeroed_some (hx : w.hold x ≠ .idle) :
    ∃ r, parkZeroed cfg.toPmmConfig hidden x (w.pcp c) w.glob = some r := by
  unfold parkZeroed
  dsimp only
  split
  · obtain ⟨r,hr⟩ := pmmPcpZeroDrain_some
      (h.setMem hx (zeroFrames_memOnly w.glob x)) hu
    rw [show pmmPcpZeroDrain cfg.toPmmConfig hidden pmmPcpZeroDrainBatch (w.pcp c)
      (zeroFrames x 1 w.glob) = some r from hr]
    exact ⟨_,rfl⟩
  exact ⟨_,rfl⟩

lemma evict_some (hpos : 0 < (w.pcp c).qCount) :
    ∃ r, parkZeroed cfg.toPmmConfig hidden (qPop (w.pcp c) w.glob).1 (qPop (w.pcp c) w.glob).2
      w.glob = some r := by
  obtain ⟨-,hx0,-,-⟩ := h.top_idle (b := .quarantine) hpos
  obtain ⟨htop,hpo⟩ := popsFrom_quarantine (w.pcp c) w.glob hx0
  have hlf : Unclaimed cfg hidden ((w.setCpu c (qPop (w.pcp c) w.glob).2 w.glob).setHold
      ((w.pcp c).top .quarantine) .parking) := by
    intro f hlt hf
    by_cases hft : f = (w.pcp c).top .quarantine
    · rw [hft,setHold_self] at hf
      cases hf
    exact hu f hlt ((update_of_ne hft ..).symm.trans hf)
  have hpk := parkZeroed_some (c := c) (h.pop (b := .quarantine) hpos hpo) hlf (by
    rw [setHold_self]
    exact nofun)
  rw [htop]
  have hcpu := setCpu_self w c (qPop (w.pcp c) w.glob).2 w.glob
  exact hcpu ▸ hpk

end

lemma qPush_ptFrames (p : Pcp) (s : PmmState) : (qPush p x s).2.ptFrames = s.ptFrames := by
  unfold qPush
  split
  · rfl
  split <;> rfl

lemma pmmParkFrame_some_iff (h : Laid cfg R extra w) (hx : w.hold x ≠ .idle) (hx0 : x ≠ 0)
    (hc : c < cfg.maxCpus) (hu : Unclaimed cfg hidden (w.setHold x .idle)) :
    (pmmParkFrame cfg.toPmmConfig cfg.poison hidden x (w.pcp c) w.glob).isSome ↔ ¬Marked (w.glob.mem x) := by
  have hlt := (h.held_used hx).2.1
  rw [pmmParkFrame,if_neg (by simp [(hu x hlt (setHold_self w x .idle)).2])]
  unfold Marked
  split
  · next hmks => simp [hmks]
  next hmks =>
  obtain ⟨hcan,hmg⟩ := poisoned_unmarked cfg.poison hmks
  have hpu := qPush_spec (h.setMem hx (poisoned_memOnly cfg.poison x w.glob)) hx hx0
    hc hcan hmg
  have hcount := qPush_count (p := w.pcp c) hcan hmg
  have hpt := (qPush_ptFrames (x := x) (w.pcp c) _).trans
    (poisoned_memOnly cfg.poison x w.glob).same.ptFrames
  generalize hq : qPush (w.pcp c) x (poisoned cfg.poison x w.glob) = q at hcount hpt ⊢
  have hld : Laid cfg R extra ((w.setHold x .idle).setCpu c q.1 q.2) := by
    rw [← hq]
    exact hpu
  simp only [hmks,not_false_eq_true,iff_true]
  split
  · have hcpu := setCpu_self (w.setHold x .idle) c q.1 q.2
    have hlf : Unclaimed cfg hidden ((w.setHold x .idle).setCpu c q.1 q.2) := fun f hlt hf => by
      rw [show ((w.setHold x .idle).setCpu c q.1 q.2).glob.ptFrames = w.glob.ptFrames from hpt]
      exact hu f hlt hf
    obtain ⟨r,hr⟩ := evict_some hld hlf (hcpu.symm ▸ hcount)
    rw [hcpu] at hr
    exact Option.isSome_iff_exists.mpr ⟨r,hr⟩
  rfl

lemma dropStep_last (h : Laid cfg R extra w) (hx : w.hold x = .owned 1) (hze : x ≠ w.zeroPage)
    (hu : Unclaimed cfg hidden (w.setHold x .idle)) :
    ∃ w', frameStep cfg w (.drop x) = some (w', none) ∧ w'.hold x = .parking ∧ w'.glob.mem = w.glob.mem := by
  have hne : w.hold x ≠ .idle := hx.trans_ne nofun
  obtain ⟨-,hlt,-,hok⟩ := h.held_used hne
  rw [hx] at hok
  have hpt : w.glob.ptFrames x = false := (hu x hlt (setHold_self w x .idle)).1
  have hdp : pmmDropRef x w.glob = some (true, { w.glob with
      refcounts := update w.glob.refcounts x (w.glob.refcounts x - 1) }) := by
    rw [pmmDropRef,if_neg (by simp [hpt]),hok.2]
    rfl
  rw [frameStep,dropStep,if_neg fun hz => hze hz.2,if_neg (by omega),hx]
  rw [hdp]
  exact ⟨_,rfl,setHold_self _ x _,rfl⟩

def stamp (page : Fin 512 → Nat) : List FrameEvent :=
  [.alloc 0 0,.clear 5,.write 5 page,.drop 5]

end B1nix.Mm
