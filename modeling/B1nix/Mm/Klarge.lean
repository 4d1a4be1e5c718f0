import B1nix.Basic.Transition
import B1nix.Mm.Kheap

namespace B1nix.Klarge

open Kheap Transition List Nat Option

def klargeHeaderSize : Nat := 32

def klargeMaxSpans : Nat := 1024

def wrap (n : Nat) : Nat := n % 2 ^ 64

structure Span where
  vaddr : Nat
  npages : Nat
  deriving DecidableEq

def Span.stop (sp : Span) : Nat := sp.vaddr + sp.npages * pageSize

structure Arena where
  bump : Nat
  freeSpans : List Span

def takeSpan (npages : Nat) (l : List Span) : Nat × List Span :=
  match l.dropWhile fun sp => sp.npages < npages with
  | [] => (0, l)
  | sp :: rest => (sp.vaddr, l.takeWhile (fun sp => sp.npages < npages) ++
    if 0 < sp.npages - npages then
      ⟨wrap (sp.vaddr + npages * pageSize),sp.npages - npages⟩ :: rest
    else rest.getLast?.toList ++ rest.dropLast)

def klargePages (size : Nat) : Nat :=
  wrap (wrap (klargeHeaderSize + size) + pageSize - 1) / pageSize

variable (cfg : KheapConfig)

def reserve (npages : Nat) (a : Arena) : Option (Nat × Arena) :=
  let taken := takeSpan npages a.freeSpans
  if taken.1 = 0 then
    if cfg.largeEnd < wrap (a.bump + npages * pageSize) then none
    else some (a.bump, ⟨wrap (a.bump + npages * pageSize),taken.2⟩)
  else some (taken.1, { a with freeSpans := taken.2 })

def Arena.record (sp : Span) (a : Arena) : Arena :=
  if a.freeSpans.length < klargeMaxSpans then { a with freeSpans := a.freeSpans ++ [sp] } else a

inductive Phase where
  | mapping
  | live
  | retiring
  deriving DecidableEq

structure Block where
  span : Span
  size : Nat
  phase : Phase
  deriving DecidableEq

structure World where
  arena : Arena
  held : List Block

inductive Event where
  | reserve (size : UInt64)
  | mapped (b : Block)
  | denied (b : Block)
  | free (b : Block)
  | retire (b : Block)

variable (w : World)

def World.turn (b : Block) (q : Phase) : World :=
  { w with held := { b with phase := q } :: w.held.erase b }

def World.giveBack (b : Block) : World := ⟨w.arena.record b.span,w.held.erase b⟩

def step : Event → Option World
  | .reserve size => (reserve cfg (klargePages size.toNat) w.arena).map fun r =>
    ⟨r.2,⟨⟨r.1,klargePages size.toNat⟩,size.toNat,.mapping⟩ :: w.held⟩
  | .mapped b => if b ∈ w.held ∧ b.phase = .mapping then some (w.turn b .live) else none
  | .denied b => if b ∈ w.held ∧ b.phase = .mapping then some (w.giveBack b) else none
  | .free b => if b ∈ w.held ∧ b.phase = .live then some (w.turn b .retiring) else none
  | .retire b => if b ∈ w.held ∧ b.phase = .retiring then some (w.giveBack b) else none

def boot : World := ⟨⟨cfg.largeStart,[]⟩,[]⟩

def Roomy : Event → Prop
  | .reserve size => w.arena.bump + klargeHeaderSize + pageSize + size.toNat ≤ 2 ^ 64
  | _ => True

def World.spans : List Span := w.held.map Block.span ++ w.arena.freeSpans

structure Packed (lo hi : Nat) (l : List Span) : Prop where
  apart : l.Pairwise fun a b => a.stop ≤ b.vaddr ∨ b.stop ≤ a.vaddr
  inside : ∀ sp ∈ l, lo ≤ sp.vaddr ∧ sp.stop ≤ hi

structure Sound (cfg : KheapConfig) (w : World) : Prop where
  covers : ∀ b ∈ w.held, klargeHeaderSize + b.size ≤ b.span.npages * pageSize
  packed : Packed cfg.largeStart w.arena.bump w.spans
  start : cfg.largeStart ≤ w.arena.bump
  bound : w.arena.bump ≤ cfg.largeEnd

variable {cfg : KheapConfig} {w w' : World} {b : Block} {lo hi n : Nat} {l l' : List Span} {sp : Span}

lemma Packed.subperm (h : Packed lo hi l) (hs : l'.Subperm l) : Packed lo hi l' := by
  obtain ⟨m,hpm,hsub⟩ := hs
  refine ⟨(hpm.pairwise_iff fun hab => hab.symm).mp (h.apart.sublist hsub),fun x hx => ?_⟩
  exact h.inside x (hsub.subset (hpm.mem_iff.mpr hx))

lemma Packed.push (h : Packed lo hi l) (hlo : lo ≤ hi) : Packed lo (hi + n * pageSize) (⟨hi,n⟩ :: l) :=
  ⟨.cons (fun x hx => .inr (h.inside x hx).2) h.apart, forall_mem_cons.mpr ⟨⟨hlo,le_rfl⟩,fun x hx =>
      ⟨(h.inside x hx).1,le_add_right_of_le (h.inside x hx).2⟩⟩⟩

lemma Packed.split (h : Packed lo hi (sp :: l)) (hn : n ≤ sp.npages) :
    Packed lo hi (⟨sp.vaddr,n⟩ :: ⟨sp.vaddr + n * pageSize,sp.npages - n⟩ :: l) := by
  have hsum : n * pageSize + (sp.npages - n) * pageSize = sp.npages * pageSize := by
    rw [← Nat.add_mul,Nat.add_sub_cancel' hn]
  obtain ⟨hapt,hin⟩ := h
  simp only [pairwise_cons,forall_mem_cons,Span.stop] at hapt hin
  constructor <;> simp only [pairwise_cons,forall_mem_cons,Span.stop]
  · refine ⟨⟨by omega,fun x hx => ?_⟩,fun x hx => ?_,hapt.2⟩
    all_goals
      have hx := hapt.1 x hx
      omega
  exact ⟨by omega,by omega,hin.2⟩

lemma takeSpan_spec (hl : ∀ sp ∈ l, sp.stop < 2 ^ 64) :
    takeSpan n l = (0, l) ∨ ∃ sp rest, l.Perm (sp :: rest) ∧ n ≤ sp.npages ∧
      (takeSpan n l).1 = sp.vaddr ∧
      (takeSpan n l).2.Subperm (⟨sp.vaddr + n * pageSize,sp.npages - n⟩ :: rest) := by
  have hwh := takeWhile_append_dropWhile (p := fun sp : Span => sp.npages < n) (l := l)
  rw [takeSpan]
  split
  · exact .inl rfl
  next sp rest hdp =>
  have hn := head?_dropWhile_not (fun sp : Span => sp.npages < n) l
  rw [hdp] at hwh hn
  have hn : n ≤ sp.npages := le_of_not_gt (of_decide_eq_false hn)
  refine .inr ⟨sp,_,hwh ▸ perm_middle,hn,rfl,?_⟩
  refine .trans ((subperm_append_left _).mpr ?_) perm_middle.subperm
  split
  · have hstop := hl sp (hwh ▸ mem_append_right _ (.head _))
    have hle : sp.vaddr + n * pageSize ≤ sp.stop := Nat.add_le_add_left (Nat.mul_le_mul_right _ hn) _
    rw [wrap,mod_eq_of_lt (hle.trans_lt hstop)]
  refine .trans ?_ (sublist_cons_self ..).subperm
  obtain rfl | ⟨front,x,rfl⟩ := eq_nil_or_concat rest
  · exact .refl _
  simpa using (perm_append_singleton x front).symm.subperm

lemma Sound.reserve {size : UInt64} (h : Sound cfg w) (hro : Roomy w (.reserve size))
    (hs : step cfg w (.reserve size) = some w') (hpos : 0 < cfg.largeStart) : Sound cfg w' := by
  have hpgs : klargeHeaderSize + size.toNat ≤ klargePages size.toNat * pageSize ∧
      w.arena.bump + klargePages size.toNat * pageSize < 2 ^ 64 := by
    simp only [Roomy,klargePages,wrap,pageSize] at *
    omega
  obtain ⟨r,hr,rfl⟩ := map_eq_some_iff.mp hs
  generalize klargePages size.toNat = n at hpgs hr ⊢
  have hcvs : ∀ b ∈ (⟨⟨r.1,n⟩,size.toNat,.mapping⟩ : Block) :: w.held, _ :=
    forall_mem_cons.mpr ⟨hpgs.1,h.covers⟩
  have hfe := fun sp hsp => h.packed.inside sp (mem_append_right _ hsp)
  simp only [Klarge.reserve] at hr
  rcases takeSpan_spec (fun sp hsp => lt_of_le_of_lt (hfe sp hsp).2 (by omega)) with
    hnone | ⟨sp,rest,hpm,hn,hbs,hlf⟩
  · rw [hnone,if_pos rfl] at hr
    split at hr
    · cases hr
    next hend =>
    cases hr
    have htop : wrap (w.arena.bump + n * pageSize) = w.arena.bump + n * pageSize :=
      mod_eq_of_lt hpgs.2
    rw [htop] at hend ⊢
    exact ⟨hcvs,h.packed.push h.start,le_add_right_of_le h.start,le_of_not_gt hend⟩
  have hsp := (hfe sp (hpm.mem_iff.mpr (.head _))).1
  rw [hbs,if_neg (by omega)] at hr
  cases hr
  have hall := (hpm.append_left (w.held.map Block.span)).trans perm_middle
  have hsplit := (h.packed.subperm hall.symm.subperm).split hn
  refine ⟨hcvs,hsplit.subperm ((subperm_cons _).mpr ?_),h.start,h.bound⟩
  exact ((subperm_append_left _).mpr hlf).trans perm_middle.subperm

lemma Sound.turn (h : Sound cfg w) (hb : b ∈ w.held) (q : Phase) : Sound cfg (w.turn b q) :=
  ⟨forall_mem_cons.mpr ⟨h.covers b hb,fun x hx => h.covers x (mem_of_mem_erase hx)⟩,
    h.packed.subperm (((perm_cons_erase hb).symm.map Block.span).append_right _).subperm, h.start,h.bound⟩

lemma Sound.giveBack (h : Sound cfg w) (hb : b ∈ w.held) : Sound cfg (w.giveBack b) := by
  have hall := (((perm_cons_erase hb).map Block.span).append_right w.arena.freeSpans).symm.subperm
  have hcvs := fun x (hx : x ∈ w.held.erase b) => h.covers x (mem_of_mem_erase hx)
  rw [World.giveBack,Arena.record]
  split
  · refine ⟨hcvs,h.packed.subperm (.trans ?_ hall),h.start,h.bound⟩
    rw [World.spans,← append_assoc]
    exact (perm_append_singleton ..).subperm
  exact ⟨hcvs,h.packed.subperm (.trans (sublist_cons_self ..).subperm hall),h.start,h.bound⟩

lemma Sound.step {e : Event} (h : Sound cfg w) (hro : Roomy w e)
    (hs : step cfg w e = some w') (hpos : 0 < cfg.largeStart) : Sound cfg w' := by
  cases e with
  | reserve => exact h.reserve hro hs hpos
  | mapped b | free b =>
    obtain ⟨hb,heq⟩ := ite_none_right_eq_some.mp hs
    cases heq
    exact h.turn hb.1 _
  | denied b | retire b =>
    obtain ⟨hb,heq⟩ := ite_none_right_eq_some.mp hs
    cases heq
    exact h.giveBack hb.1

theorem klarge_spans_sound (hpos : 0 < cfg.largeStart) (hend : cfg.largeStart ≤ cfg.largeEnd)
    (hw : Reach (· = boot cfg) (guarded Roomy fun w e w' =>
      step cfg w e = some w') w) : Sound cfg w := by
  refine Reach.invariant ?_ (fun _ _ _ h hs => h.step hs.1 hs.2 hpos) hw
  rintro w rfl
  exact ⟨nofun,⟨.nil,nofun⟩,le_rfl,hend⟩

def bulk (phase : Phase) : Block := ⟨⟨x8664.largeStart,74⟩,300000,phase⟩

theorem klarge_spans_sound_served : ∃ w, [Event.reserve 300000, .mapped (bulk .mapping)].foldlM
    (step x8664) (boot x8664) = some w ∧ w.held = [bulk .live] ∧ Sound x8664 w :=
  ⟨_,rfl,rfl,klarge_spans_sound (by decide) (by decide)
    (.next (e := .mapped (bulk .mapping)) (.next (e := .reserve 300000) (.start rfl)
      ⟨le_of_ble_eq_true rfl,rfl⟩) ⟨trivial,rfl⟩)⟩

theorem klarge_spans_wrap :
    (∃ w, [Event.reserve (0 - 16), .mapped ⟨⟨x8664.largeStart, 1⟩, 2 ^ 64 - 16, .mapping⟩].foldlM
      (step x8664) (boot x8664) = some w ∧
      ∃ b ∈ w.held, b.phase = .live ∧ b.span.npages * pageSize < klargeHeaderSize + b.size) ∧
    ∃ w, [Event.reserve 300000, .mapped (bulk .mapping), .reserve (0 - 2 ^ 20)].foldlM
      (step x8664) (boot x8664) = some w ∧
      ∃ b ∈ w.held, b.phase = .live ∧ w.arena.bump ≤ b.span.vaddr ∧
        b.span.vaddr < x8664.largeEnd :=
  ⟨⟨_,rfl,by decide +kernel⟩,_,rfl,by decide +kernel⟩

end B1nix.Klarge
