import B1nix.Sched.UserNamespace

namespace B1nix.UserNamespace

open Function Relation B1nix.Transition

variable {s s' : State} {j k ns : Nat} {c : Cred} {e : Event}

def Denied (s : State) (ns : Nat) : Prop := (s.userns ns).setgroupsAllowed = false

structure Kept (s s' : State) (j : Nat) : Prop where
  used : (s.slot j).used = true
  parent : (s'.userns j).parent = (s.userns j).parent
  mapped : (s.userns j).map .gid ≠ [] → (s'.userns j).map .gid ≠ []
  denied : Denied s j → Denied s' j
  late : (s.userns j).map .gid ≠ [] → Denied s' j → Denied s j

structure Made (s s' : State) (j : Nat) : Prop where
  fresh : (s.slot j).used = false
  used : (s.slot (s'.userns j).parent).used = true
  mapped : (s.userns (s'.userns j).parent).map .gid ≠ []
  denied : Denied s (s'.userns j).parent → Denied s' j

lemma Kept.same (hu : (s.slot j).used = true) (h : s'.userns j = s.userns j) : Kept s s' j := by
  refine ⟨hu,congrArg _ h,?_,?_,?_⟩ <;> simp [Denied,h]

lemma gid_map {kgid : UInt32} (h0 : (s.userns 0).map .gid ≠ []) (hlt : ns < nsMaxUser)
    (h : kgidHasMapping s ns kgid = true) : (s.userns ns).map .gid ≠ [] := by
  by_cases hns : ns = 0
  · exact hns ▸ h0
  intro hnil
  rw [kgidHasMapping,fromKgid,fromKid,if_neg (not_or.mpr ⟨hns,hlt.not_ge⟩),hnil,mapUp] at h
  split at h <;> simp [searchUp] at h

lemma kept_or_made (ht : Tree s 0 0) (h0 : (s.userns 0).map .gid ≠ []) (hs : Stepped s e s')
    (hj : (s'.slot j).used = true) : Kept s s' j ∨ Made s s' j := by
  obtain ⟨he,rfl⟩ := hs
  cases e with
  | create c =>
    obtain ⟨hu,h⟩ | ⟨hf,hg,h⟩ := create_data hj
    · exact .inl (.same hu h)
    have hu := ht.live_used he
    refine .inr ⟨hf,?_,?_,?_⟩ <;> simp only [step,Denied,h]
    · exact hu
    · exact gid_map h0 (ht.bound _ hu) hg
    exact id
  | hold | own => exact .inl (.same (get_used.symm.trans hj) (congrFun get_userns j))
  | drop i =>
    obtain ⟨hu,hsa⟩ := put_kept hj
    exact .inl (.same hu hsa)
  | mapWrite c ns which alloc text =>
    left
    dsimp only [step] at hj ⊢
    rcases mapWrite_cases s c ns which alloc text with heq | ⟨nm,m,-,-,hnil,-,heq⟩ <;> rw [heq] at hj ⊢
    · exact .same hj rfl
    have hflag : ((s.setMap ns which m).userns j).setgroupsAllowed = (s.userns j).setgroupsAllowed := by
      rw [setMap_userns]
      split
      · next hjn => rw [hjn]
      rfl
    refine ⟨hj,setMap_parent,fun hm => ?_,hflag.trans,fun _ => hflag.symm.trans⟩
    rw [setMap_map,if_neg]
    · exact hm
    rintro ⟨rfl,rfl⟩
    exact hm hnil
  | setgroupsWrite c ns text =>
    left
    dsimp only [step] at hj ⊢
    rcases setgroupsWrite_cases s c ns text with heq | ⟨hnil,heq⟩ <;> rw [heq] at hj ⊢
    · exact .same hj rfl
    obtain rfl | hjn := eq_or_ne j ns
    · refine ⟨hj,?_,absurd hnil,fun _ => ?_,absurd hnil⟩ <;> simp [Denied]
    exact .same hj (update_of_ne hjn ..)

structure Sealed (s : State) : Prop where
  tree : Tree s 0 0
  root : (s.userns 0).map .gid ≠ []
  heir : ∀ i, i ≠ 0 → (s.slot i).used = true → (s.userns (s.userns i).parent).map .gid ≠ [] ∧
    (Denied s (s.userns i).parent → Denied s i)

lemma Sealed.step (h : Sealed s) (hs : Stepped s e s') : Sealed s' := by
  have ht := h.tree.step hs
  have hkept : ∀ i, (s.slot i).used = true → (s'.slot i).used = true → Kept s s' i := by
    intro i hi hi'
    refine (kept_or_made h.tree h.root hs hi').resolve_right fun hm => ?_
    cases hi.symm.trans hm.fresh
  refine ⟨ht,(hkept 0 h.tree.root ht.root).mapped h.root,fun i h0 hi => ?_⟩
  have hp := ht.parent i h0 hi
  obtain hk | hm := kept_or_made h.tree h.root hs hi
  · obtain ⟨hmap,hheir⟩ := h.heir i h0 hk.used
    rw [hk.parent] at hp ⊢
    have hkp := hkept _ (h.tree.parent i h0 hk.used) hp
    exact ⟨hkp.mapped hmap,fun hd => hk.denied (hheir (hkp.late hmap hd))⟩
  have hkp := hkept _ hm.used hp
  exact ⟨hkp.mapped hm.mapped,fun hd => hm.denied (hkp.late hm.mapped hd)⟩

lemma Sealed.reach (h : Reach State.Initial Stepped s) : Sealed s := by
  refine h.invariant (fun s hs => ⟨.initial hs,?_,fun i h0 hi => ?_⟩) fun _ _ _ h => h.step
  · simp [hs.userns,UsernsData.initial]
  cases (hs.free i h0).symm.trans hi

def Below (s : State) : Nat → Nat → Prop :=
  ReflTransGen fun i p => i ≠ 0 ∧ (s.slot i).used = true ∧ (s.userns i).parent = p

lemma Sealed.below (h : Sealed s) (hb : Below s j ns) (hd : Denied s ns) : Denied s j := by
  induction hb using ReflTransGen.head_induction_on with
  | refl => exact hd
  | head hi _ ih =>
    obtain ⟨h0,hu,rfl⟩ := hi
    exact (h.heir _ h0 hu).2 ih

lemma newIdmapPermitted_gid {nm : List IdExtent} (h : newIdmapPermitted s c ns .gid nm = true)
    (hc : nsCapableCred s c (s.userns ns).parent capSetgid = false) : Denied s ns := by
  have hown : mapsOwnId s c ns .gid nm = true := by
    by_contra hn
    rw [newIdmapPermitted,if_neg (by simp),if_neg hn] at h
    cases hc.symm.trans h
  rw [mapsOwnId.eq_def] at hown
  split at hown
  · simp only [Bool.and_eq_true,Bool.not_eq_true'] at hown
    exact hown.2.1
  cases hown

theorem setgroups_denied_for_ever (h : Reach State.Initial Stepped s) :
    (∀ ns, (s.slot ns).used = true → Denied s ns →
      ∀ s', Reach (· = s) (guarded (fun s e => ((step s e).slot ns).used = true) Stepped) s' →
        ∀ j, Below s' j ns → Denied s' j) ∧
    ∀ c ns alloc text n, (usernsMapWrite s c ns .gid alloc text).1 = .ok n →
      nsCapableCred s c (s.userns ns).parent capSetgid = false → Denied s ns := by
  refine ⟨fun ns hns hd s' hs' j hb => ?_,fun c ns alloc text n hok hcap => ?_⟩
  · have hall : Sealed s' ∧ (s'.slot ns).used = true ∧ Denied s' ns := by
      refine hs'.invariant (P := fun s => Sealed s ∧ (s.slot ns).used = true ∧ Denied s ns) ?_ ?_
      · rintro _ rfl
        exact ⟨.reach h,hns,hd⟩
      rintro t e _ ⟨ht,hu,hd⟩ ⟨hu',hstep⟩
      obtain rfl := hstep.2
      refine ⟨ht.step hstep,hu',?_⟩
      obtain hk | hm := kept_or_made ht.tree ht.root hstep hu'
      · exact hk.denied hd
      cases hu.symm.trans hm.fresh
    exact hall.1.below hb hall.2.2
  rw [usernsMapWrite] at hok
  iterate 4
    split at hok
    · cases hok
  split at hok
  · cases hok
  · cases hok
  iterate 2
    split at hok
    · cases hok
  split at hok
  · cases hok
  next hp => exact newIdmapPermitted_gid (by simpa using hp) hcap

theorem nested_setgroups_denied : Denied (nested.foldl step booted) 2 :=
  (setgroups_denied_for_ever nested_reach).1 1 (by decide +kernel) (by rw [Denied]; decide +kernel) _
    (.start rfl) 2 (.single (by decide +kernel))

end B1nix.UserNamespace
