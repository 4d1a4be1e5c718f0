import B1nix.Basic.Lineage
import B1nix.Basic.Shared

namespace B1nix.Landlock

open Function Finset

def landlockAbiVersion : Int := 3

def landlockMaxLayers : Nat := 16

def landlockMaxRules : Nat := 1024

def landlockCreateRulesetVersion : UInt64 := 1

def landlockRulePathBeneath : UInt64 := 1

def llAccessFsAll : UInt64 := 0x7fff

def llAccessFile : UInt64 := 0x4007

def pageSize : UInt64 := 4096

def eperm : Int := 1

def e2big : Int := 7

def ebadf : Int := 9

def enomem : Int := 12

def eacces : Int := 13

def efault : Int := 14

def einval : Int := 22

def enfile : Int := 23

def enomsg : Int := 42

def ebadfd : Int := 77

structure Name where
  bytes : List UInt8
  nonempty : bytes ≠ []
  noSlash : 47 ∉ bytes

abbrev Path := List Name

def Path.text : Path → List UInt8
  | [] => [47]
  | p => p.flatMap fun n => 47 :: n.bytes

structure Rule where
  path : List UInt8
  access : UInt64

structure Ruleset where
  refs : Int
  handledFs : UInt64
  rules : List Rule

structure Domain where
  refs : Int
  parent : Nat
  depth : Nat
  layer : Nat

structure State where
  ruleset : Nat → Ruleset
  rulesets : Finset Nat
  domain : Nat → Domain
  domains : Finset Nat
  taskDomain : Nat → Nat
  rows : Finset Nat
  tasks : Finset Nat
  handle : Nat → Nat
  handles : Finset Nat

variable (s : State) (t : Nat) (fd : Option Nat) (canon : List UInt8) (rules : List Rule)

def State.setRuleset (r : Nat) (x : Ruleset) : State := { s with ruleset := update s.ruleset r x }

def State.setRefs (d : Nat) (refs : Int) : State :=
  { s with domain := update s.domain d { s.domain d with refs := refs } }

def rulesetPut (r : Nat) (s : State) : Option State :=
  if r = 0 then some s
  else if r ∉ s.rulesets then none
  else
    let left := (s.ruleset r).refs - 1
    if left < 0 then none
    else
      let s := s.setRuleset r { s.ruleset r with refs := left }
      some (if left = 0 then { s with rulesets := s.rulesets.erase r } else s)

def domainPut : Nat → Nat → State → Option State
  | fuel, d, s =>
    if d = 0 then some s
    else if d ∉ s.domains then none
    else
      match fuel with
      | 0 => none
      | fuel + 1 =>
        let left := (s.domain d).refs - 1
        if left ≠ 0 then some (s.setRefs d left)
        else
          match rulesetPut (s.domain d).layer (s.setRefs d left) with
          | none => none
          | some s' =>
            domainPut fuel (s.domain d).parent { s' with domains := s'.domains.erase d }

def domainGet (d : Nat) (s : State) : State :=
  if d = 0 then s else s.setRefs d ((s.domain d).refs + 1)

def State.setRow (row d : Nat) : State := { s with taskDomain := update s.taskDomain row d }

def landlockFork (parent child : Nat) (s : State) : Option State :=
  let d := s.taskDomain parent
  let s := domainGet d s
  domainPut s.domains.card (s.taskDomain child) (s.setRow child d)

def landlockTaskReset (row : Nat) (s : State) : Option State :=
  domainPut s.domains.card (s.taskDomain row) (s.setRow row 0)

def llBeneath (path root : List UInt8) : Bool :=
  if root = [47] then true
  else
    root.isPrefixOf path &&
      match path.drop root.length with
      | [] => true
      | c :: _ => c == 47

def grantedBy : UInt64 :=
  rules.foldl (fun granted r => if llBeneath canon r.path then granted ||| r.access else granted) 0

def llCheckCanon (access : UInt64) : Nat → Nat → Option Int
  | fuel, d =>
    if d = 0 then some 0
    else if d ∉ s.domains ∨ (s.domain d).layer ∉ s.rulesets then none
    else
      match fuel with
      | 0 => none
      | fuel + 1 =>
        let rs := s.ruleset (s.domain d).layer
        let need := access &&& rs.handledFs
        if need = 0 then llCheckCanon access fuel (s.domain d).parent
        else if need &&& ~~~(grantedBy canon rs.rules) ≠ 0 then some (-eacces)
        else llCheckCanon access fuel (s.domain d).parent

def landlockCheck (access : UInt64) : Option Int :=
  llCheckCanon s canon access s.domains.card (s.taskDomain t)

structure CreateArgs where
  null : Bool
  size : UInt64
  flags : UInt64
  attr : Option (UInt64 × UInt64 × UInt64)
  tail : Option Bool

def CreateArgs.check (a : CreateArgs) : Except Int UInt64 :=
  if a.flags = landlockCreateRulesetVersion then
    if !a.null ∨ a.size ≠ 0 then .error (-einval) else .error landlockAbiVersion
  else if a.flags ≠ 0 then .error (-einval)
  else if a.null then .error (-efault)
  else if a.size < 8 then .error (-einval)
  else if pageSize < a.size then .error (-e2big)
  else
    match a.attr with
    | none => .error (-efault)
    | some (fs, net, scope) =>
      match a.tail with
      | none => .error (-efault)
      | some true => .error (-e2big)
      | some false =>
        if fs &&& ~~~llAccessFsAll ≠ 0 then .error (-einval)
        else if net ≠ 0 ∨ scope ≠ 0 then .error (-einval)
        else if fs = 0 then .error (-enomsg)
        else .ok fs

def llCreateRuleset (a : CreateArgs) (ruleset handle : Option Nat) (s : State) : Int × State :=
  match a.check with
  | .error ret => (ret, s)
  | .ok fs =>
    match ruleset, handle with
    | none, _ => (-enomem, s)
    | some _, none => (-enfile, s)
    | some r, some h =>
      (h, { s with
        ruleset := update s.ruleset r ⟨1,fs,[]⟩
        rulesets := insert r s.rulesets
        handle := update s.handle h r
        handles := insert h s.handles })

structure RuleArgs where
  flags : UInt64
  type : UInt64
  access : Option UInt64
  node : Option (Bool × Except Int Path)
  alloc : Bool

def rulesetFromFd : Except Int Nat :=
  match fd with
  | none => .error (-ebadf)
  | some h => if h ∈ s.handles then .ok (s.handle h) else .error (-ebadfd)

def llAddRule (a : RuleArgs) (s : State) : Int × State :=
  if a.flags ≠ 0 then (-einval, s)
  else
    match rulesetFromFd s fd with
    | .error err => (err, s)
    | .ok r =>
      let rs := s.ruleset r
      if a.type ≠ landlockRulePathBeneath then (-einval, s)
      else
        match a.access with
        | none => (-efault, s)
        | some access =>
          if access = 0 then (-enomsg, s)
          else if access &&& ~~~rs.handledFs ≠ 0 then (-einval, s)
          else
            match a.node with
            | none => (-ebadf, s)
            | some (_, .error rc) => (rc, s)
            | some (isDir, .ok canon) =>
              if !isDir ∧ access &&& ~~~llAccessFile ≠ 0 then (-einval, s)
              else if landlockMaxRules ≤ rs.rules.length then (-e2big, s)
              else if !a.alloc then (-enomem, s)
              else
                (0, s.setRuleset r { rs with rules := rs.rules ++ [⟨canon.text,access⟩] })

structure RestrictArgs where
  flags : UInt64
  permitted : Bool
  layer : Option Nat
  domain : Option Nat
  copied : Nat

def restrict (src snap d copied : Nat) (s : State) : State :=
  let cur := s.taskDomain t
  { s with
    ruleset := update s.ruleset snap
      ⟨1,(s.ruleset src).handledFs,(s.ruleset src).rules.take copied⟩
    rulesets := insert snap s.rulesets
    domain := update s.domain d
      ⟨1,cur,if cur = 0 then 1 else (s.domain cur).depth + 1,snap⟩
    domains := insert d s.domains
    taskDomain := update s.taskDomain t d }

def llRestrictSelf (a : RestrictArgs) (s : State) : Option (Int × State) :=
  if a.flags ≠ 0 then some (-einval, s)
  else if !a.permitted then some (-eperm, s)
  else
    match rulesetFromFd s fd with
    | .error err => some (err, s)
    | .ok src =>
      let cur := s.taskDomain t
      let held := domainGet cur s
      if cur ≠ 0 ∧ landlockMaxLayers ≤ (s.domain cur).depth then
        (domainPut held.domains.card cur held).map fun s => (-e2big, s)
      else
        match a.layer, a.domain with
        | some snap, some d =>
          let s' := restrict t src snap d a.copied held
          (domainPut s'.domains.card cur s').map fun s => (0, s)
        | _, _ => (domainPut held.domains.card cur held).map fun s => (-enomem, s)

inductive Event where
  | createRuleset (a : CreateArgs) (ruleset handle : Option Nat)
  | addRule (fd : Option Nat) (a : RuleArgs)
  | restrictSelf (t : Nat) (fd : Option Nat) (a : RestrictArgs)
  | close (h : Nat)
  | fork (parent child : Nat)
  | spawn (child : Nat)
  | exit (t : Nat)

def Fresh (used : Finset Nat) (alloc : Option Nat) : Prop := ∀ x, alloc = some x → x ≠ 0 ∧ x ∉ used

def Event.Enabled : Event → Prop
  | .createRuleset _ ruleset handle => Fresh s.rulesets ruleset ∧ Fresh s.handles handle
  | .addRule _ _ => True
  | .restrictSelf t _ a => t ∈ s.tasks ∧ Fresh s.rulesets a.layer ∧ Fresh s.domains a.domain
  | .close h => h ∈ s.handles
  | .fork parent child => parent ∈ s.tasks ∧ child ∉ s.tasks ∧ child ∈ s.rows
  | .spawn child => child ∉ s.tasks ∧ child ∈ s.rows
  | .exit t => t ∈ s.tasks

def step : Event → Option State
  | .createRuleset a ruleset handle => some (llCreateRuleset a ruleset handle s).2
  | .addRule fd a => some (llAddRule fd a s).2
  | .restrictSelf t fd a => (llRestrictSelf t fd a s).map (·.2)
  | .close h => (rulesetPut (s.handle h) s).map fun s => { s with handles := s.handles.erase h }
  | .fork parent child => do
      let s ← landlockTaskReset child s
      let s ← landlockFork parent child s
      some { s with tasks := insert child s.tasks }
  | .spawn child => (landlockTaskReset child s).map fun s => { s with tasks := insert child s.tasks }
  | .exit t => some { s with tasks := s.tasks.erase t }

def Stepped (e : Event) (s' : State) : Prop := e.Enabled s ∧ step s e = some s'

structure State.Initial (s : State) : Prop where
  rulesets : s.rulesets = ∅
  domains : s.domains = ∅
  taskDomain : ∀ row, s.taskDomain row = 0
  handles : s.handles = ∅
  tasks : s.tasks ⊆ s.rows

open List

variable {p q : Path} {a b x y : List UInt8} {i : Nat}

def has (rights : UInt64) (i : Nat) : Bool := rights.toBitVec.getLsbD i

@[simp] lemma has_zero : has 0 i = false := by simp [has]

@[simp] lemma has_and (v w : UInt64) : has (v &&& w) i = (has v i && has w i) := by simp [has]

@[simp] lemma has_or (v w : UInt64) : has (v ||| w) i = (has v i || has w i) := by simp [has]

lemma has_lt {rights : UInt64} (h : has rights i = true) : i < 64 := BitVec.lt_of_getLsbD h

lemma has_not (v : UInt64) : has (~~~v) i = (decide (i < 64) && !has v i) := by simp [has]

lemma eq_zero_iff_has {v : UInt64} : v = 0 ↔ ∀ i, has v i = false := by
  refine ⟨fun h i => ?_,fun h => ?_⟩
  · rw [h,has_zero]
  refine UInt64.eq_of_toBitVec_eq (BitVec.eq_of_getLsbD_eq fun i _ => ?_)
  have hbit := h i
  rw [has] at hbit
  simp [hbit]

lemma covers_iff {need granted : UInt64} :
    need &&& ~~~granted = 0 ↔ ∀ i, has need i = true → has granted i = true := by
  rw [eq_zero_iff_has]
  refine forall_congr' fun i => ?_
  rw [has_and,has_not]
  refine ⟨fun h hnd => ?_,fun h => ?_⟩
  · simpa [hnd,has_lt hnd] using h
  cases hnd : has need i with
  | false => rfl
  | true => simp [h hnd]

def Boundary (l : List UInt8) : Prop := l = [] ∨ l.head? = some 47

lemma takeWhile_append (ha : 47 ∉ a) (hx : Boundary x) : (a ++ x).takeWhile (· != 47) = a := by
  rw [takeWhile_append_of_pos fun c hc => by
    simpa using fun h : c = 47 => ha (h ▸ hc)]
  obtain rfl | hx := hx
  · simp
  cases x with
  | nil => simp
  | cons c =>
    obtain rfl : c = 47 := by simpa using hx
    simp

lemma split_unique (ha : 47 ∉ a) (hb : 47 ∉ b) (hx : Boundary x) (hy : Boundary y)
    (h : a ++ x = b ++ y) : a = b ∧ x = y := by
  have hab : a = b := by rw [← takeWhile_append ha hx,h,takeWhile_append hb hy]
  refine ⟨hab,?_⟩
  rw [hab] at h
  exact append_cancel_left h

def flat (p : Path) : List UInt8 := p.flatMap fun n => 47 :: n.bytes

@[simp] lemma flat_nil : flat [] = [] := rfl

@[simp] lemma flat_cons (n : Name) (p : Path) : flat (n :: p) = 47 :: (n.bytes ++ flat p) := rfl

lemma flat_boundary (p : Path) : Boundary (flat p) := by
  cases p with
  | nil => exact .inl rfl
  | cons => exact .inr rfl

lemma boundary_append (p : Path) (hx : Boundary x) : Boundary (flat p ++ x) := by
  cases p with
  | nil => exact hx
  | cons => exact .inr rfl

lemma flat_prefix_iff : (∃ x, Boundary x ∧ flat q ++ x = flat p) ↔ q <+: p := by
  induction q generalizing p with
  | nil => exact ⟨fun _ => nil_prefix,fun _ => ⟨flat p,flat_boundary p,rfl⟩⟩
  | cons n q ih =>
    cases p with
    | nil => simp
    | cons m p =>
      rw [cons_prefix_cons,← ih]
      constructor
      · rintro ⟨x,hx,heq⟩
        rw [flat_cons,flat_cons,cons_append,append_assoc,cons_inj_right]
          at heq
        obtain ⟨hname,hrs⟩ := split_unique n.noSlash m.noSlash (boundary_append q hx)
          (flat_boundary p) heq
        refine ⟨?_,x,hx,hrs⟩
        cases m
        cases hname
        rfl
      rintro ⟨rfl,x,hx,heq⟩
      refine ⟨x,hx,?_⟩
      rw [flat_cons,flat_cons,cons_append,append_assoc,heq]

lemma text_of_ne_nil (hp : p ≠ []) : p.text = flat p := by
  cases p with
  | nil => cases hp rfl
  | cons => rfl

lemma flat_ne_root : flat q ≠ [47] := by
  cases q with
  | nil => simp
  | cons n => simp [n.nonempty]

lemma llBeneath_iff (hrt : b ≠ [47]) : llBeneath a b = true ↔ ∃ x, Boundary x ∧ b ++ x = a := by
  rw [llBeneath,if_neg hrt,Bool.and_eq_true, isPrefixOf_iff_prefix]
  constructor
  · rintro ⟨⟨x,rfl⟩,hend⟩
    refine ⟨x,?_,rfl⟩
    cases x with
    | nil => exact .inl rfl
    | cons => exact .inr (by simpa using hend)
  rintro ⟨x,hx,rfl⟩
  refine ⟨⟨x,rfl⟩,?_⟩
  rw [drop_left]
  cases x with
  | nil => rfl
  | cons => simpa [Boundary] using hx

lemma llBeneath_text : llBeneath p.text q.text = true ↔ q <+: p := by
  by_cases hq : q = []
  · subst hq
    simp [llBeneath,Path.text]
  rw [text_of_ne_nil hq,llBeneath_iff flat_ne_root,← flat_prefix_iff]
  by_cases hp : p = []
  · subst hp
    cases q with
    | nil => cases hq rfl
    | cons n => simp [Path.text,n.nonempty]
  rw [text_of_ne_nil hp]

lemma has_grantedBy_from (granted : UInt64) : has (rules.foldl (fun granted r =>
      if llBeneath a r.path then granted ||| r.access else granted) granted) i = true ↔
      has granted i = true ∨ ∃ r ∈ rules, llBeneath a r.path = true ∧ has r.access i = true := by
  induction rules generalizing granted with
  | nil => simp
  | cons r _ ih =>
    rw [foldl_cons,ih]
    by_cases hr : llBeneath a r.path = true
    · simp [hr,or_assoc]
    simp [hr]

lemma has_grantedBy : has (grantedBy a rules) i = true ↔
    ∃ r ∈ rules, llBeneath a r.path = true ∧ has r.access i = true := by
  rw [grantedBy,has_grantedBy_from]
  simp

structure Layer where
  handledFs : UInt64
  rules : List Rule

def Layer.Grants (layer : Layer) (p : Path) (i : Nat) : Prop :=
  ∃ r ∈ layer.rules, ∃ q : Path, r.path = q.text ∧ q <+: p ∧ has r.access i = true

def Layer.Allows (layer : Layer) (p : Path) (access : UInt64) : Prop :=
  ∀ i, has access i = true → has layer.handledFs i = true → layer.Grants p i

def Layer.Canonical (layer : Layer) : Prop := ∀ r ∈ layer.rules, ∃ q : Path, r.path = q.text

lemma Layer.allows_iff {layer : Layer} (h : layer.Canonical) (p : Path) (access : UInt64) :
    layer.Allows p access ↔ access &&& layer.handledFs &&& ~~~(grantedBy p.text layer.rules) = 0 := by
  rw [covers_iff]
  refine forall_congr' fun i => ?_
  rw [has_and,Bool.and_eq_true,has_grantedBy,and_imp]
  refine imp_congr_right fun _ => imp_congr_right fun _ => ⟨?_,?_⟩
  · rintro ⟨r,hr,q,hq, hpre,hacc⟩
    exact ⟨r,hr,hq ▸ llBeneath_text.mpr hpre,hacc⟩
  rintro ⟨r,hr,hbne,hacc⟩
  obtain ⟨q,hq⟩ := h r hr
  exact ⟨r,hr,q,hq,llBeneath_text.mp (hq ▸ hbne),hacc⟩

open B1nix.Linked B1nix.Shared B1nix.Transition B1nix.Lineage Finset

variable {s s' : State} {t u d r : Nat} {e : Event}

def State.parent (s : State) (d : Nat) : Nat := (s.domain d).parent

def State.count (s : State) (d : Nat) : Int := (s.domain d).refs

def State.content (s : State) (r : Nat) : Layer := ⟨(s.ruleset r).handledFs,(s.ruleset r).rules⟩

def State.layer (s : State) (d : Nat) : Layer := s.content (s.domain d).layer

def Owed (s : State) (d : Nat) : Prop :=
  Counted s.domains s.parent s.count s.rows s.taskDomain d

def State.Owner (s : State) : Nat ⊕ Nat → Prop
  | .inl d => d ∈ s.domains
  | .inr h => h ∈ s.handles

def State.owns (s : State) : Nat ⊕ Nat → Nat
  | .inl d => (s.domain d).layer
  | .inr h => s.handle h

structure Owned (s : State) : Prop where
  nonzero : ∀ o, s.Owner o → s.owns o ≠ 0
  live : ∀ o, s.Owner o → s.owns o ∈ s.rulesets
  single : ∀ o, s.Owner o → (s.ruleset (s.owns o)).refs = 1
  apart : ∀ o o', s.Owner o → s.Owner o' → s.owns o = s.owns o' → o = o'

structure Sound (s : State) : Prop where
  counted : Owed s 0
  owned : Owned s
  canonical : ∀ r ∈ s.rulesets, (s.content r).Canonical
  rows : s.tasks ⊆ s.rows

def Policy (s : State) (t : Nat) (layers : List Layer) : Prop :=
  ∃ l, Chain s.parent (s.taskDomain t) l ∧ l.map s.layer = layers

variable {o : Nat ⊕ Nat} {left : Int} {fuel : Nat} {l : List Nat} {access : UInt64}

lemma Owned.drop (h : Owned s) (ho : s.Owner o) (how : ∀ o', s'.Owner o' → s.Owner o' ∧ o' ≠ o)
    (hon : s'.owns = s.owns) (hli : s'.rulesets = s.rulesets.erase (s.owns o))
    (hre : ∀ r, r ≠ s.owns o → (s'.ruleset r).refs = (s.ruleset r).refs) : Owned s' := by
  have hne : ∀ o', s'.Owner o' → s.owns o' ≠ s.owns o := fun o' ho' heq =>
    (how o' ho').2 (h.apart o' o (how o' ho').1 ho heq)
  refine ⟨fun o' ho' => ?_,fun o' ho' => ?_,fun o' ho' => ?_,fun o₁ o₂ h₁ h₂ heq => ?_⟩
  · rw [hon]
    exact h.nonzero o' (how o' ho').1
  · rw [hon,hli]
    exact mem_erase.mpr ⟨hne o' ho',h.live o' (how o' ho').1⟩
  · rw [hon,hre _ (hne o' ho')]
    exact h.single o' (how o' ho').1
  rw [hon] at heq
  exact h.apart o₁ o₂ (how o₁ h₁).1 (how o₂ h₂).1 heq

lemma Owned.take (h : Owned s) (hr : r ≠ 0) (hnew : r ∉ s.rulesets)
    (how : ∀ o', s'.Owner o' → o' ≠ o → s.Owner o') (hon : ∀ o', o' ≠ o → s'.owns o' = s.owns o')
    (htk : s'.owns o = r) (hli : s'.rulesets = insert r s.rulesets) (hone : (s'.ruleset r).refs = 1)
    (hre : ∀ r', r' ≠ r → (s'.ruleset r').refs = (s.ruleset r').refs) : Owned s' := by
  have hne : ∀ o', s.Owner o' → s.owns o' ≠ r := fun o' ho' =>
    ne_of_mem_of_not_mem (h.live o' ho') hnew
  refine ⟨fun o' ho' => ?_,fun o' ho' => ?_,fun o' ho' => ?_,fun o₁ o₂ h₁ h₂ heq => ?_⟩
  · by_cases heq : o' = o
    · rwa [heq,htk]
    rw [hon o' heq]
    exact h.nonzero o' (how o' ho' heq)
  · rw [hli]
    by_cases heq : o' = o
    · rw [heq,htk]
      exact mem_insert_self r s.rulesets
    rw [hon o' heq]
    exact mem_insert_of_mem (h.live o' (how o' ho' heq))
  · by_cases heq : o' = o
    · rwa [heq,htk]
    have ho := how o' ho' heq
    rw [hon o' heq,hre _ (hne o' ho)]
    exact h.single o' ho
  by_cases heq₁ : o₁ = o
  · by_cases heq₂ : o₂ = o
    · rw [heq₁,heq₂]
    rw [heq₁,htk,hon o₂ heq₂] at heq
    cases hne o₂ (how o₂ h₂ heq₂) heq.symm
  by_cases heq₂ : o₂ = o
  · rw [heq₂,htk,hon o₁ heq₁] at heq
    cases hne o₁ (how o₁ h₁ heq₁) heq
  rw [hon o₁ heq₁,hon o₂ heq₂] at heq
  exact h.apart o₁ o₂ (how o₁ h₁ heq₁) (how o₂ h₂ heq₂) heq

lemma Owned.congr (h : Owned s) (how : s'.Owner = s.Owner) (hon : s'.owns = s.owns)
    (hli : s'.rulesets = s.rulesets)
    (hre : ∀ r, (s'.ruleset r).refs = (s.ruleset r).refs) : Owned s' := by
  refine ⟨?_,?_,?_,?_⟩
  · rw [how,hon]
    exact h.nonzero
  · rw [how,hon,hli]
    exact h.live
  · simp only [how,hon,hre]
    exact h.single
  rw [how,hon]
  exact h.apart

structure Kept (s s' : State) : Prop where
  parent : s'.parent = s.parent
  layer : s'.layer = s.layer
  content : s'.content = s.content
  rulesets : s'.rulesets ⊆ s.rulesets
  taskDomain : s'.taskDomain = s.taskDomain
  rows : s'.rows = s.rows
  tasks : s'.tasks = s.tasks

lemma Kept.refl (s : State) : Kept s s := ⟨rfl,rfl,rfl,Finset.Subset.refl _,rfl,rfl,rfl⟩

lemma Kept.trans {s₁ s₂ s₃ : State} (h : Kept s₁ s₂) (h' : Kept s₂ s₃) : Kept s₁ s₃ :=
  ⟨h'.parent.trans h.parent,h'.layer.trans h.layer,h'.content.trans h.content,
    h'.rulesets.trans h.rulesets,h'.taskDomain.trans h.taskDomain,h'.rows.trans h.rows,
    h'.tasks.trans h.tasks⟩

lemma Kept.sound (h : Kept s s') (hctd : Owed s' 0) (hown : Owned s')
    (hcno : ∀ r ∈ s.rulesets, (s.content r).Canonical) (hrows : s.tasks ⊆ s.rows) : Sound s' := by
  refine ⟨hctd,hown,fun r hr => ?_,?_⟩
  · rw [h.content]
    exact hcno r (h.rulesets hr)
  rw [h.tasks,h.rows]
  exact hrows

lemma setRefs_domain (d x : Nat) (refs : Int) :
    ((s.setRefs d refs).domain x).parent = (s.domain x).parent ∧
      ((s.setRefs d refs).domain x).layer = (s.domain x).layer := by
  by_cases hx : x = d
  · simp [State.setRefs,hx]
  simp [State.setRefs,hx]

section

variable (d : Nat) (refs : Int)

@[simp] lemma setRefs_parent : (s.setRefs d refs).parent = s.parent :=
  funext fun x => (setRefs_domain d x refs).1

@[simp] lemma setRefs_owns : (s.setRefs d refs).owns = s.owns := by
  funext o
  cases o with
  | inl x => exact (setRefs_domain d x refs).2
  | inr => rfl

@[simp] lemma setRefs_layer : (s.setRefs d refs).layer = s.layer :=
  funext fun x => congrArg s.content (setRefs_domain d x refs).2

@[simp] lemma setRefs_count : (s.setRefs d refs).count = update s.count d refs :=
  comp_update Domain.refs s.domain d _

lemma setRefs_kept : Kept s (s.setRefs d refs) :=
  ⟨setRefs_parent d refs,setRefs_layer d refs,rfl,Finset.Subset.refl _,rfl,rfl,rfl⟩

end

lemma Owned.setRefs (h : Owned s) (d : Nat) (refs : Int) : Owned (s.setRefs d refs) :=
  h.congr (by funext o; cases o <;> rfl) (setRefs_owns d refs) rfl fun _ => rfl

def State.freed (s : State) (r : Nat) : State :=
  { s.setRuleset r { s.ruleset r with refs := 0 } with rulesets := s.rulesets.erase r }

lemma rulesetPut_single (hr : r ≠ 0) (hli : r ∈ s.rulesets) (hone : (s.ruleset r).refs = 1) :
    rulesetPut r s = some (s.freed r) := by
  rw [rulesetPut,if_neg hr,if_neg (not_not.mpr hli),hone]
  rfl

@[simp] lemma freed_content (r : Nat) : (s.freed r).content = s.content := by
  funext x
  by_cases hx : x = r
  · simp [State.content,State.freed,State.setRuleset,hx]
  simp [State.content,State.freed,State.setRuleset,hx]

lemma freed_refs {x : Nat} (hx : x ≠ r) : ((s.freed r).ruleset x).refs = (s.ruleset x).refs :=
  congrArg Ruleset.refs (update_of_ne hx _ _)

lemma freed_kept (r : Nat) : Kept s (s.freed r) :=
  ⟨rfl,funext fun x => congrFun (freed_content r) (s.domain x).layer,freed_content r,
    erase_subset _ _,rfl,rfl,rfl⟩

lemma Owed.release (h : Owed s d) (hd : d ≠ 0) (hone : s.count d = 1) (r : Nat) :
    Owed { (s.setRefs d left).freed r with domains := s.domains.erase d } (s.parent d) := by
  have hfe := h.free hd hone
  change Counted (s.domains.erase d) (s.setRefs d left).parent (s.setRefs d left).count s.rows
    s.taskDomain (s.parent d)
  rw [setRefs_parent,setRefs_count]
  exact hfe.recount fun a ha => update_of_ne (ne_of_mem_erase ha) ..

lemma Owned.release (h : Owned s) (hd : d ∈ s.domains) :
    Owned { (s.setRefs d left).freed (s.domain d).layer with domains := s.domains.erase d } := by
  refine h.drop (o := .inl d) hd ?_ (setRefs_owns d left) rfl fun r => freed_refs
  rintro (x | x) hx
  · obtain ⟨hne,hx⟩ := mem_erase.mp hx
    exact ⟨hx,fun heq => hne (Sum.inl.inj heq)⟩
  exact ⟨hx,Sum.inr_ne_inl⟩

lemma domainPut_spec (h : Owed s d) (hown : Owned s) (hfu : s.domains.card ≤ fuel) :
    ∃ s', domainPut fuel d s = some s' ∧ Owed s' 0 ∧ Owned s' ∧ Kept s s' := by
  induction fuel generalizing d s with
  | zero =>
    have hem := card_eq_zero.mp (Nat.le_zero.mp hfu)
    obtain rfl | hd := eq_or_ne d 0
    · exact ⟨s,by simp [domainPut],h,hown,.refl s⟩
    have hmem := h.owing.mem hd
    rw [hem] at hmem
    cases hmem
  | succ _ ih =>
    obtain rfl | hd := eq_or_ne d 0
    · exact ⟨s,by simp [domainPut],h,hown,.refl s⟩
    have hmem := h.owing.mem hd
    rw [domainPut,if_neg hd,if_neg (not_not.mpr hmem)]
    dsimp only
    split_ifs with hla
    · refine ⟨_,rfl,?_,hown.setRefs ..,setRefs_kept ..⟩
      have hkp := h.keep hd
      rw [Owed,setRefs_parent,setRefs_count]
      exact hkp
    have hone : s.count d = 1 := by
      rw [State.count]
      omega
    have hput : rulesetPut (s.domain d).layer (s.setRefs d ((s.domain d).refs - 1)) =
        some ((s.setRefs d ((s.domain d).refs - 1)).freed (s.domain d).layer) :=
      rulesetPut_single (hown.nonzero (.inl d) hmem) (hown.live (.inl d) hmem)
        (hown.single (.inl d) hmem)
    rw [hput]
    obtain ⟨s',hs',hctd,howned',hke⟩ := ih (h.release hd hone _)
      (hown.release hmem) (by
        rw [card_erase_of_mem hmem]
        omega)
    have hbs : Kept s { (s.setRefs d ((s.domain d).refs - 1)).freed (s.domain d).layer with
        domains := s.domains.erase d } := by
      obtain ⟨hpar,hly,hcn,hrss,htask,hrows,hts⟩ :=
        (setRefs_kept d ((s.domain d).refs - 1)).trans (freed_kept (s.domain d).layer)
      exact ⟨hpar,hly,hcn,hrss,htask,hrows,hts⟩
    exact ⟨s',hs',hctd,howned',hbs.trans hke⟩

lemma llCheckCanon_chain {p : Path} (hch : Chain s.parent d l)
    (hl : ∀ x ∈ l, x ∈ s.domains) (hown : Owned s)
    (hcno : ∀ r ∈ s.rulesets, (s.content r).Canonical) (hfu : l.length ≤ fuel) :
    (llCheckCanon s p.text access fuel d = some 0 ∧ ∀ x ∈ l, (s.layer x).Allows p access) ∨
      (llCheckCanon s p.text access fuel d = some (-eacces) ∧
        ∃ x ∈ l, ¬(s.layer x).Allows p access) := by
  induction l generalizing fuel d with
  | nil =>
    obtain rfl : d = 0 := hch
    cases fuel with
    | zero | succ => simp [llCheckCanon]
  | cons x xs ih =>
    obtain ⟨rfl,hne,hrs⟩ := hch
    obtain ⟨fuel,rfl⟩ : ∃ k, fuel = k + 1 := ⟨fuel - 1,by
      rw [length_cons] at hfu
      omega⟩
    have hmem : d ∈ s.domains := hl d (.head _)
    have hli := hown.live (.inl d) hmem
    have halw := Layer.allows_iff (hcno _ hli) p access
    have hnx := @ih (s.domain d).parent fuel hrs (fun y hy => hl y (.tail d hy))
      (Nat.le_of_succ_le_succ hfu)
    have hbad : ¬(d ∉ s.domains ∨ (s.domain d).layer ∉ s.rulesets) :=
      not_or.mpr ⟨not_not.mpr hmem,not_not.mpr hli⟩
    have hsy : (s.layer d).Allows p access →
        (llCheckCanon s p.text access fuel (s.domain d).parent = some 0 ∧
          ∀ x ∈ d :: xs, (s.layer x).Allows p access) ∨
        (llCheckCanon s p.text access fuel (s.domain d).parent = some (-eacces) ∧
          ∃ x ∈ d :: xs, ¬(s.layer x).Allows p access) := by
      intro hd
      obtain ⟨heq,hall⟩ | ⟨heq,x,hx,hdn⟩ := hnx
      · exact .inl ⟨heq,forall_mem_cons.mpr ⟨hd,hall⟩⟩
      exact .inr ⟨heq,x,.tail d hx,hdn⟩
    rw [llCheckCanon,if_neg hne,if_neg hbad]
    dsimp only
    split
    · next hnone =>
      refine hsy (halw.mpr ?_)
      change access &&& (s.ruleset (s.domain d).layer).handledFs &&& _ = 0
      rw [hnone,UInt64.zero_and]
    split
    · next hdn =>
      exact .inr ⟨rfl,d,.head _,fun hd => hdn (halw.mp hd)⟩
    next hgrd => exact hsy (halw.mpr (not_not.mp hgrd))

section

variable (h : Sound s) (ht : t ∈ s.rows)

include h ht

lemma Sound.chain (hch : Chain s.parent (s.taskDomain t) l) : ∀ x ∈ l, x ∈ s.domains :=
  (h.counted.roots t ht).chain hch

lemma Sound.policy : ∃ layers, Policy s t layers := by
  obtain ⟨l,hch,-⟩ := h.counted.roots t ht
  exact ⟨_,l,hch,rfl⟩

lemma Sound.check {layers : List Layer} (hp : Policy s t layers) (p : Path) (access : UInt64) :
    (landlockCheck s t p.text access = some 0 ∧ ∀ layer ∈ layers, layer.Allows p access) ∨
      (landlockCheck s t p.text access = some (-eacces) ∧
        ∃ layer ∈ layers, ¬layer.Allows p access) := by
  obtain ⟨l,hch,rfl⟩ := hp
  have hl := h.chain ht hch
  rcases llCheckCanon_chain hch hl h.owned h.canonical
    (Rooted.length_le hch hl) with ⟨heq,hall⟩ | ⟨heq,x,hx,hdn⟩
  · exact .inl ⟨heq,forall_mem_map.mpr hall⟩
  exact .inr ⟨heq,s.layer x,mem_map_of_mem hx,hdn⟩

end

open State

def kinship : Kinship Event Nat where
  born
    | .fork parent child => some (parent, child)
    | _ => none
  gone
    | .exit t => some t
    | _ => none

structure Advances (s : State) (e : Event) (s' : State) : Prop where
  sound : Sound s'
  tasks : ∀ u ∈ s.tasks, kinship.gone e ≠ some u → u ∈ s'.tasks
  grows : ∀ u ∈ s.tasks, ∀ layers, Policy s u layers →
    ∃ layers', Policy s' u layers' ∧ layers <:+ layers'
  inherits : ∀ parent child, kinship.born e = some (parent, child) → child ∈ s'.tasks ∧
    ∀ layers, Policy s parent layers → Policy s' child layers

variable {layers : List Layer} {fd : Option Nat} {child : Nat}

lemma Policy.kept (hp : Policy s u layers) (hrt : s'.taskDomain t = s.taskDomain u)
    (hsa : ∀ l, Chain s.parent (s.taskDomain u) l →
      ∀ x ∈ l, s'.parent x = s.parent x ∧ s'.layer x = s.layer x) :
    Policy s' t layers := by
  obtain ⟨l,hch,rfl⟩ := hp
  refine ⟨l,?_,map_congr_left fun x hx => (hsa l hch x hx).2⟩
  rw [hrt]
  exact hch.congr fun x hx => (hsa l hch x hx).1

lemma Kept.policy (h : Kept s s') (hp : Policy s u layers) : Policy s' u layers :=
  hp.kept (congrFun h.taskDomain u) fun _ _ x _ => ⟨congrFun h.parent x,congrFun h.layer x⟩

lemma Advances.of_same (hsd : Sound s') (hts : s'.tasks = s.tasks)
    (hrt : ∀ u ∈ s.tasks, s'.taskDomain u = s.taskDomain u)
    (hsa : ∀ u ∈ s.tasks, ∀ l, Chain s.parent (s.taskDomain u) l →
      ∀ x ∈ l, s'.parent x = s.parent x ∧ s'.layer x = s.layer x)
    (hbo : kinship.born e = none) : Advances s e s' := by
  refine ⟨hsd,fun u hu _ => hts ▸ hu,fun u hu layers hp => ?_,fun p c he => ?_⟩
  · exact ⟨layers,hp.kept (hrt u hu) (hsa u hu),suffix_rfl⟩
  cases hbo.symm.trans he

lemma Sound.unchanged (h : Sound s) (hbo : kinship.born e = none) : Advances s e s :=
  .of_same h rfl (fun _ _ => rfl) (fun _ _ _ _ _ _ => ⟨rfl,rfl⟩) hbo

lemma Sound.kept (h : Sound s) (hke : Kept s s') (hctd : Owed s' 0) (hown : Owned s')
    (hbo : kinship.born e = none) : Advances s e s' :=
  .of_same (hke.sound hctd hown h.canonical h.rows) hke.tasks
    (fun u _ => congrFun hke.taskDomain u)
    (fun _ _ _ _ x _ => ⟨congrFun hke.parent x,congrFun hke.layer x⟩) hbo

lemma Sound.recontent (h : Sound s) {r : Nat} (hr : ∀ d ∈ s.domains, (s.domain d).layer ≠ r)
    {ruleset : Nat → Ruleset} (hot : ∀ r', r' ≠ r → ruleset r' = s.ruleset r')
    (hdom : s'.domain = s.domain) (hset : s'.ruleset = ruleset) (ht : u ∈ s.tasks) (l : List Nat)
    (hch : Chain s.parent (s.taskDomain u) l) (x : Nat) (hx : x ∈ l) :
    s'.parent x = s.parent x ∧ s'.layer x = s.layer x := by
  have hne := hr x (h.chain (h.rows ht) hch x hx)
  constructor
  · rw [parent,hdom,parent]
  rw [layer,layer,content,content,hdom,hset,hot _ hne]

variable {hd parent : Nat} {a : RestrictArgs}

lemma Sound.created (h : Sound s) (hr : r ≠ 0) (hnew : r ∉ s.rulesets) (fs : UInt64) :
    Sound { s with
      ruleset := update s.ruleset r ⟨1,fs,[]⟩
      rulesets := insert r s.rulesets
      handle := update s.handle hd r
      handles := insert hd s.handles } := by
  refine ⟨h.counted,?_,fun x hx => ?_,h.rows⟩
  · refine h.owned.take (o := .inr hd) hr hnew ?_ ?_ (update_self ..) rfl ?_ ?_
    · rintro (x | x) hx hne
      · exact hx
      exact (mem_insert.mp hx).resolve_left fun heq => hne (congrArg Sum.inr heq)
    · rintro (x | x) hne
      · rfl
      exact update_of_ne (fun heq => hne (congrArg Sum.inr heq)) ..
    · simp
    exact fun x hx => congrArg Ruleset.refs (update_of_ne hx ..)
  obtain rfl | hxr := eq_or_ne x r
  · intro q hq
    simp [content] at hq
  have hold := h.canonical x ((mem_insert.mp hx).resolve_left hxr)
  simpa [content,hxr] using hold

lemma Owned.layer_ne_fresh (h : Owned s) (hnew : r ∉ s.rulesets) :
    ∀ d ∈ s.domains, (s.domain d).layer ≠ r := fun d hd =>
  ne_of_mem_of_not_mem (h.live (.inl d) hd) hnew

lemma Sound.create (h : Sound s) {a : CreateArgs} {ruleset handle : Option Nat}
    (hrse : Fresh s.rulesets ruleset) :
    Advances s (.createRuleset a ruleset handle) (llCreateRuleset a ruleset handle s).2 := by
  unfold llCreateRuleset
  split
  · exact h.unchanged rfl
  split
  · exact h.unchanged rfl
  · exact h.unchanged rfl
  next r hd =>
  obtain ⟨hr,hnew⟩ := hrse r rfl
  exact .of_same (h.created hr hnew _) rfl (fun _ _ => rfl)
    (fun u hu => h.recontent (h.owned.layer_ne_fresh hnew)
      (fun r' hne => update_of_ne hne ..) rfl rfl hu) rfl

lemma rulesetFromFd_ok (h : rulesetFromFd s fd = .ok r) : ∃ hd ∈ s.handles, s.handle hd = r := by
  unfold rulesetFromFd at h
  split at h
  · cases h
  next hd =>
  split at h
  · next hmem => exact ⟨hd,hmem,Except.ok.inj h⟩
  cases h

lemma Sound.added (h : Sound s) (canon : Path) (access : UInt64) :
    Sound (s.setRuleset r { s.ruleset r with
      rules := (s.ruleset r).rules ++ [⟨canon.text,access⟩] }) := by
  refine ⟨h.counted,?_,fun x hx => ?_,h.rows⟩
  · refine h.owned.congr (by funext o; cases o <;> rfl) (by funext o; cases o <;> rfl) rfl
      fun x => ?_
    obtain rfl | hxr := eq_or_ne x r
    · simp [setRuleset]
    exact congrArg Ruleset.refs (update_of_ne hxr ..)
  have hold := h.canonical x hx
  obtain rfl | hxr := eq_or_ne x r
  · intro q hq
    simp only [content,setRuleset,update_self,mem_append,List.mem_singleton] at hq
    obtain hq | rfl := hq
    · exact hold q hq
    exact ⟨canon,rfl⟩
  simpa [content,setRuleset,hxr] using hold

lemma Sound.addRule (h : Sound s) {a : RuleArgs} : Advances s (.addRule fd a) (llAddRule fd a s).2 := by
  unfold llAddRule
  split
  · exact h.unchanged rfl
  split
  · exact h.unchanged rfl
  next r hfd =>
  obtain ⟨hd,hmem,rfl⟩ := rulesetFromFd_ok hfd
  dsimp only
  iterate 5
    split
    · exact h.unchanged rfl
  · exact h.unchanged rfl
  iterate 3
    split
    · exact h.unchanged rfl
  · refine .of_same (h.added ..) rfl (fun _ _ => rfl) (fun u hu => h.recontent ?_
      (fun r' hne => update_of_ne hne ..) rfl rfl hu) rfl
    exact fun d hd' heq => Sum.inl_ne_inr (h.owned.apart (.inl d) (.inr hd) hd' hmem heq)

lemma Sound.points_domainGet (h : Sound s) (d : Nat) :
    ∀ b ∈ s.domains, (domainGet d s).count b = s.count b + points b d := by
  intro b hb
  unfold domainGet
  split_ifs with hze
  · rw [hze,h.counted.points_zero hb]
    simp
  rw [setRefs_count]
  obtain rfl | hbd := eq_or_ne b d
  · simp [State.count]
  simp [hbd,points_of_ne (Ne.symm hbd)]

lemma domainGet_kept (d : Nat) : Kept s (domainGet d s) := by
  unfold domainGet
  split
  · exact .refl s
  exact setRefs_kept ..

lemma domainGet_domains (d : Nat) : (domainGet d s).domains = s.domains := by
  unfold domainGet
  split
  · rfl
  rfl

lemma domainGet_rulesets (d : Nat) : (domainGet d s).rulesets = s.rulesets := by
  unfold domainGet
  split
  · rfl
  rfl

lemma Owned.get (h : Owned s) (d : Nat) : Owned (domainGet d s) := by
  unfold domainGet
  split
  · exact h
  exact h.setRefs ..

lemma Sound.get (h : Sound s) (ht : t ∈ s.rows) : Owed (domainGet (s.taskDomain t) s) (s.taskDomain t) := by
  have hke := domainGet_kept (s := s) (s.taskDomain t)
  have hhe := h.counted.hold (h.counted.roots t ht) (h.points_domainGet (s.taskDomain t))
  rw [Owed,hke.parent,hke.rows,hke.taskDomain,domainGet_domains]
  exact hhe

lemma Sound.getPut (h : Sound s) (ht : t ∈ s.rows) :
    ∃ s', domainPut (domainGet (s.taskDomain t) s).domains.card (s.taskDomain t)
      (domainGet (s.taskDomain t) s) = some s' ∧ Owed s' 0 ∧ Owned s' ∧ Kept s s' := by
  obtain ⟨s',hs',hctd,hown,hke⟩ := domainPut_spec (h.get ht) (h.owned.get _) le_rfl
  exact ⟨s',hs',hctd,hown,(domainGet_kept _).trans hke⟩

section Restrict

variable {src snap copied : Nat}

lemma restrict_parent : (restrict t src snap d copied s).parent = update s.parent d (s.taskDomain t) :=
  comp_update Domain.parent s.domain d _

lemma restrict_count : (restrict t src snap d copied s).count = update s.count d 1 :=
  comp_update Domain.refs s.domain d _

lemma Sound.restrict_owed (h : Sound s) (ht : t ∈ s.rows) (hd : d ≠ 0) (hnew : d ∉ s.domains)
    (src snap copied : Nat) :
    Owed (restrict t src snap d copied (domainGet (s.taskDomain t) s)) (s.taskDomain t) := by
  have hke := domainGet_kept (s := s) (s.taskDomain t)
  have hpu := h.counted.push hd hnew ht
  have hrt := (hpu.links d (mem_insert_self d s.domains)).behind hd
  rw [update_self] at hrt
  have hct : ∀ b ∈ insert d s.domains,
      update (domainGet (s.taskDomain t) s).count d 1 b =
        update s.count d 1 b + points b (s.taskDomain t) := by
    intro b hb
    obtain rfl | hbd := eq_or_ne b d
    · have hne : s.taskDomain t ≠ b := by
        rintro rfl
        exact hnew ((h.counted.roots t ht).mem hd)
      rw [update_self,update_self,points_of_ne hne]
      rfl
    rw [update_of_ne hbd,update_of_ne hbd]
    exact h.points_domainGet _ b ((mem_insert.mp hb).resolve_left hbd)
  have hhe := hpu.hold hrt hct
  change Counted (insert d (domainGet (s.taskDomain t) s).domains) _ _
    (domainGet (s.taskDomain t) s).rows
    (update (domainGet (s.taskDomain t) s).taskDomain t d) _
  rw [restrict_parent,restrict_count,hke.parent,hke.rows,hke.taskDomain,domainGet_domains]
  exact hhe

lemma Owned.restrict (h : Owned s) (hsnap : snap ≠ 0) (hfr : snap ∉ s.rulesets) :
    Owned (restrict t src snap d copied s) := by
  refine h.take (o := .inl d) hsnap hfr ?_ ?_ ?_ rfl ?_ ?_
  · rintro (x | x) hx hne
    · exact (mem_insert.mp hx).resolve_left fun heq => hne (congrArg Sum.inl heq)
    exact hx
  · rintro (x | x) hne
    · have hxd : x ≠ d := fun heq => hne (congrArg Sum.inl heq)
      simp [owns,Landlock.restrict,hxd]
    rfl
  · simp [owns,Landlock.restrict]
  · simp [Landlock.restrict]
  exact fun x hx => congrArg Ruleset.refs (update_of_ne hx _ _)

lemma restrict_canonical (h : ∀ r ∈ s.rulesets, (s.content r).Canonical) (hsrc : src ∈ s.rulesets) :
    ∀ r ∈ (restrict t src snap d copied s).rulesets,
      ((restrict t src snap d copied s).content r).Canonical := by
  intro r hr
  obtain rfl | hrs := eq_or_ne r snap
  · intro q hq
    simp only [content,restrict,update_self] at hq
    exact h src hsrc q (mem_of_mem_take hq)
  have hold := h r ((mem_insert.mp hr).resolve_left hrs)
  simpa [content,restrict,hrs] using hold

lemma Owned.restrict_same (h : Owned s) (t src copied : Nat) (hnew : d ∉ s.domains)
    (hfr : snap ∉ s.rulesets) {l : List Nat} (hl : ∀ x ∈ l, x ∈ s.domains) :
    ∀ x ∈ l, (Landlock.restrict t src snap d copied s).parent x = s.parent x ∧
      (Landlock.restrict t src snap d copied s).layer x = s.layer x := by
  intro x hx
  have hxd := ne_of_mem_of_not_mem (hl x hx) hnew
  have hly := h.layer_ne_fresh hfr x (hl x hx)
  constructor
  · rw [restrict_parent,update_of_ne hxd]
  simp [layer,content,Landlock.restrict,hxd,hly]

lemma Owned.restrict_policy (h : Owned s) (hd : d ≠ 0) (hnew : d ∉ s.domains) (hfr : snap ∉ s.rulesets)
    (hu : Rooted s.domains s.parent (s.taskDomain u)) (hp : Policy s u layers) :
    ∃ layers', Policy (Landlock.restrict t src snap d copied s) u layers' ∧ layers <:+ layers' := by
  obtain rfl | hut := eq_or_ne u t
  · obtain ⟨l,hch,rfl⟩ := hp
    have hsa := h.restrict_same u src copied hnew hfr (hu.chain hch)
    refine ⟨_,⟨d :: l,?_,rfl⟩,?_⟩
    · have hrt : (Landlock.restrict u src snap d copied s).taskDomain u = d := by
        simp [Landlock.restrict]
      rw [hrt]
      refine hch.push hd ?_ fun x hx => (hsa x hx).1
      rw [restrict_parent,update_self]
    rw [List.map_cons,map_congr_left fun x hx => (hsa x hx).2]
    exact suffix_cons ..
  exact ⟨layers,hp.kept (update_of_ne hut ..) fun l hch =>
    h.restrict_same t src copied hnew hfr (hu.chain hch),suffix_rfl⟩

lemma Sound.restrict (h : Sound s) (copied : Nat) (ht : t ∈ s.tasks) (hsrc : src ∈ s.rulesets)
    (hsnap : snap ≠ 0) (hfr : snap ∉ s.rulesets) (hd : d ≠ 0) (hnew : d ∉ s.domains) : ∃ s', domainPut
      (Landlock.restrict t src snap d copied (domainGet (s.taskDomain t) s)).domains.card
      (s.taskDomain t) (Landlock.restrict t src snap d copied (domainGet (s.taskDomain t) s)) =
      some s' ∧ Advances s (.restrictSelf t fd a) s' := by
  have hget := domainGet_kept (s := s) (s.taskDomain t)
  have hown := h.owned.get (s.taskDomain t)
  have hcno : ∀ r ∈ (domainGet (s.taskDomain t) s).rulesets,
      ((domainGet (s.taskDomain t) s).content r).Canonical := by
    rw [domainGet_rulesets,hget.content]
    exact h.canonical
  rw [← domainGet_rulesets (s.taskDomain t)] at hfr hsrc
  obtain ⟨s',hs',hctd,howned',hke⟩ :=
    domainPut_spec (h.restrict_owed (h.rows ht) hd hnew src snap copied)
      (hown.restrict hsnap hfr) le_rfl
  have hts : s'.tasks = s.tasks := hke.tasks.trans hget.tasks
  refine ⟨s',hs',⟨hctd,howned',fun r hr => ?_,?_⟩,fun u hu _ => hts ▸ hu,
    fun u hu layers hp => ?_,fun p c he => by cases he⟩
  · rw [hke.content]
    exact restrict_canonical hcno hsrc r (hke.rulesets hr)
  · have hrows : s'.rows = s.rows := hke.rows.trans hget.rows
    rw [hts,hrows]
    exact h.rows
  have hroo := h.counted.roots u (h.rows hu)
  rw [← domainGet_domains (s.taskDomain t)] at hnew hroo
  rw [← hget.parent,← congrFun hget.taskDomain u] at hroo
  obtain ⟨layers',hp',hsf⟩ := hown.restrict_policy hd hnew hfr hroo (hget.policy hp)
  exact ⟨layers',hke.policy hp',hsf⟩

end Restrict

lemma Sound.restrictSelf (h : Sound s) (ht : t ∈ s.tasks) (hly : Fresh s.rulesets a.layer)
    (hdom : Fresh s.domains a.domain) :
    ∃ s', step s (.restrictSelf t fd a) = some s' ∧ Advances s (.restrictSelf t fd a) s' := by
  obtain ⟨s₁,hs₁,hctd,hown,hke⟩ := h.getPut (h.rows ht)
  rw [step,llRestrictSelf]
  iterate 3
    split
    · exact ⟨s,rfl,h.unchanged rfl⟩
  next src hfd =>
  obtain ⟨hd,hmem,rfl⟩ := rulesetFromFd_ok hfd
  have hsrc : s.handle hd ∈ s.rulesets := h.owned.live (.inr hd) hmem
  dsimp only
  split
  · exact ⟨s₁,by rw [hs₁]; rfl,h.kept hke hctd hown rfl⟩
  split
  · next snap d hsnap hd' =>
    obtain ⟨hsnap0,hfr⟩ := hly snap hsnap
    obtain ⟨hd0,hnew⟩ := hdom d hd'
    obtain ⟨s₂,hs₂,hadv⟩ := h.restrict a.copied ht hsrc hsnap0 hfr hd0 hnew
    exact ⟨s₂,by rw [hs₂]; rfl,hadv⟩
  exact ⟨s₁,by rw [hs₁]; rfl,h.kept hke hctd hown rfl⟩

lemma Owned.retask (h : Owned s) (taskDomain : Nat → Nat) (tasks : Finset Nat) :
    Owned { s with taskDomain, tasks } :=
  h.congr (by funext o; cases o <;> rfl) (by funext o; cases o <;> rfl) rfl fun _ => rfl

lemma Sound.reset (h : Sound s) (hchd : child ∈ s.rows) :
    ∃ s', landlockTaskReset child s = some s' ∧ Kept (s.setRow child 0) s' ∧ Sound s' := by
  have hoe : Owed (s.setRow child 0) (s.taskDomain child) := h.counted.leave hchd
  have hown : Owned (s.setRow child 0) := h.owned.retask ..
  obtain ⟨s',hs',hctd,howned',hke⟩ := domainPut_spec hoe hown le_rfl
  exact ⟨s',hs',hke,hke.sound hctd howned' h.canonical h.rows⟩

lemma Kept.reset_policy (h : Kept (s.setRow child 0) s') (hu : u ≠ child)
    (hp : Policy s u layers) : Policy s' u layers := by
  refine h.policy (hp.kept ?_ fun l _ x _ => ⟨rfl,rfl⟩)
  exact update_of_ne hu ..

section

variable (h : Sound s)

include h

lemma Sound.spawn (hnew : child ∉ s.tasks) (hrow : child ∈ s.rows) :
    ∃ s', step s (.spawn child) = some s' ∧ Advances s (.spawn child) s' := by
  obtain ⟨s₁,hs₁,hke,hsd⟩ := h.reset hrow
  refine ⟨{ s₁ with tasks := insert child s₁.tasks },by rw [step,hs₁]; rfl,?_⟩
  refine ⟨⟨hsd.counted,?_,hsd.canonical,?_⟩,fun u hu _ => ?_,fun u hu layers hp => ?_,
    fun p c he => by cases he⟩
  · exact hsd.owned.retask ..
  · refine insert_subset ?_ hsd.rows
    rw [hke.rows]
    exact hrow
  · refine mem_insert_of_mem ?_
    rw [hke.tasks]
    exact hu
  exact ⟨layers,hke.reset_policy (ne_of_mem_of_not_mem hu hnew) hp,suffix_rfl⟩

section

variable (hpar : parent ∈ s.rows) (hchd : child ∈ s.rows) (hne : parent ≠ child)
  (hem : s.taskDomain child = 0)

include hpar hchd hne hem

lemma Sound.share : Owed ((domainGet (s.taskDomain parent) s).setRow child (s.taskDomain parent)) 0 := by
  have hget := domainGet_kept (s := s) (s.taskDomain parent)
  have hfg := h.counted.forget hchd hem
  have hshr := hfg.share (mem_erase.mpr ⟨hne,hpar⟩) (notMem_erase _ _)
    (h.points_domainGet (s.taskDomain parent))
  rw [insert_erase hchd] at hshr
  change Counted (domainGet (s.taskDomain parent) s).domains
    (domainGet (s.taskDomain parent) s).parent (domainGet (s.taskDomain parent) s).count
    (domainGet (s.taskDomain parent) s).rows
    (update (domainGet (s.taskDomain parent) s).taskDomain child (s.taskDomain parent)) 0
  rw [domainGet_domains,hget.parent,hget.rows,hget.taskDomain]
  exact hshr

lemma Sound.landlockFork :
    ∃ s', landlockFork parent child s = some s' ∧ Sound s' ∧
      Kept (s.setRow child (s.taskDomain parent)) s' := by
  have hget := domainGet_kept (s := s) (s.taskDomain parent)
  have hke : Kept (s.setRow child (s.taskDomain parent))
      ((domainGet (s.taskDomain parent) s).setRow child (s.taskDomain parent)) := by
    refine ⟨hget.parent,hget.layer,hget.content,hget.rulesets,?_,hget.rows,hget.tasks⟩
    exact congrArg (update · child (s.taskDomain parent)) hget.taskDomain
  have hown : Owned ((domainGet (s.taskDomain parent) s).setRow child (s.taskDomain parent)) :=
    (h.owned.get (s.taskDomain parent)).retask _ _
  refine ⟨_,?_,hke.sound (h.share hpar hchd hne hem) hown h.canonical h.rows,hke⟩
  rw [Landlock.landlockFork,congrFun hget.taskDomain child,hem]
  simp [domainPut.eq_def]

end

lemma Sound.fork (hpar : parent ∈ s.tasks) (hnew : child ∉ s.tasks) (hrow : child ∈ s.rows) :
    ∃ s', step s (.fork parent child) = some s' ∧ Advances s (.fork parent child) s' := by
  have hne := ne_of_mem_of_not_mem hpar hnew
  obtain ⟨s₁,hs₁,hkept₁,hsound₁⟩ := h.reset hrow
  have hem : s₁.taskDomain child = 0 := by
    rw [hkept₁.taskDomain]
    exact update_self ..
  have htasks₁ := hkept₁.tasks
  have hrows₁ := hkept₁.rows
  obtain ⟨s₂,hs₂,hsound₂,hkept₂⟩ := hsound₁.landlockFork (hrows₁ ▸ h.rows hpar)
    (hrows₁ ▸ hrow) hne hem
  have htasks₂ : s₂.tasks = s.tasks := hkept₂.tasks.trans htasks₁
  have hrows₂ : s₂.rows = s.rows := hkept₂.rows.trans hrows₁
  have hot : ∀ u ∈ s.tasks, ∀ layers, Policy s u layers → Policy s₂ u layers := by
    intro u hu layers hp
    have huc := ne_of_mem_of_not_mem hu hnew
    have hp₁ := hkept₁.reset_policy huc hp
    exact hkept₂.policy (hp₁.kept (update_of_ne huc ..) fun l _ x _ => ⟨rfl,rfl⟩)
  have hchd : ∀ layers, Policy s parent layers → Policy s₂ child layers := by
    intro layers hp
    have hp₁ := hkept₁.reset_policy hne hp
    exact hkept₂.policy (hp₁.kept (update_self ..) fun l _ x _ => ⟨rfl,rfl⟩)
  refine ⟨{ s₂ with tasks := insert child s₂.tasks },by simp [step,hs₁,hs₂],
    ⟨hsound₂.counted,?_,hsound₂.canonical,?_⟩,fun u hu _ => ?_,fun u hu layers hp => ?_,?_⟩
  · exact hsound₂.owned.retask ..
  · exact insert_subset (hrows₂ ▸ hrow) hsound₂.rows
  · exact mem_insert_of_mem (htasks₂ ▸ hu)
  · exact ⟨layers,hot u hu layers hp,suffix_rfl⟩
  rintro p c ⟨rfl,rfl⟩
  exact ⟨mem_insert_self ..,hchd⟩

lemma Sound.exit (t : Nat) :
    Advances s (.exit t) { s with tasks := s.tasks.erase t } := by
  refine ⟨⟨h.counted,?_,h.canonical,(erase_subset _ _).trans h.rows⟩,fun u hu hgo => ?_,
    fun u _ layers hp => ⟨layers,hp,suffix_rfl⟩,fun p c he => by cases he⟩
  · exact h.owned.retask ..
  exact mem_erase.mpr ⟨fun heq => hgo (congrArg some heq.symm),hu⟩

lemma Sound.close (hmem : hd ∈ s.handles) :
    ∃ s', step s (.close hd) = some s' ∧ Advances s (.close hd) s' := by
  have hput : rulesetPut (s.handle hd) s = some (s.freed (s.handle hd)) :=
    rulesetPut_single (h.owned.nonzero (.inr hd) hmem) (h.owned.live (.inr hd) hmem)
      (h.owned.single (.inr hd) hmem)
  refine ⟨_,by rw [step,hput]; rfl,?_⟩
  have hfe := freed_kept (s := s) (s.handle hd)
  refine h.kept ⟨hfe.parent,hfe.layer,hfe.content,hfe.rulesets,rfl,rfl,rfl⟩
    h.counted ?_ rfl
  refine h.owned.drop (o := .inr hd) hmem ?_ (by funext o; cases o <;> rfl) rfl
    fun r => freed_refs
  rintro (x | x) hx
  · exact ⟨hx,Sum.inl_ne_inr⟩
  obtain ⟨hne,hx⟩ := mem_erase.mp hx
  exact ⟨hx,fun heq => hne (Sum.inr.inj heq)⟩

lemma Sound.step (he : e.Enabled s) : ∃ s', step s e = some s' ∧ Advances s e s' := by
  cases e with
  | createRuleset => exact ⟨_,rfl,h.create he.1⟩
  | addRule => exact ⟨_,rfl,h.addRule⟩
  | restrictSelf => exact h.restrictSelf he.1 he.2.1 he.2.2
  | close => exact h.close he
  | fork => exact h.fork he.1 he.2.1 he.2.2
  | spawn => exact h.spawn he.1 he.2
  | exit t => exact ⟨_,rfl,h.exit t⟩

lemma Sound.stepped (hs : Stepped s e s') : Advances s e s' := by
  obtain ⟨s₁,hs₁,hadv⟩ := h.step hs.1
  cases hs₁.symm.trans hs.2
  exact hadv

end

lemma sound_of_initial (h : s.Initial) : Sound s := by
  refine ⟨⟨?_,fun i _ => ?_,?_,Rooted.zero,?_⟩,?_,?_,h.tasks⟩
  · simp [h.domains]
  · rw [h.taskDomain i]
    exact Rooted.zero
  · simp [h.domains]
  · simp [h.domains]
  · have hnone : ∀ o, ¬s.Owner o := by
      rintro (x | x)
      · simp [State.Owner,h.domains]
      simp [State.Owner,h.handles]
    exact ⟨fun o ho => absurd ho (hnone o),fun o ho => absurd ho (hnone o),
      fun o ho => absurd ho (hnone o),fun o _ ho => absurd ho (hnone o)⟩
  · simp [h.rulesets]

lemma sound_of_reach (hs : Reach State.Initial Stepped s) : Sound s :=
  Reach.invariant (P := Sound) (fun _ h => sound_of_initial h)
    (fun _ _ _ h hstep => (h.stepped hstep).sound) hs

lemma Sound.inherited (h : Sound s) (ht : t ∈ s.tasks) (hp : Policy s t layers)
    {kin : Finset Nat} (hlat : Later kinship Stepped s t s' kin) :
    Sound s' ∧ ∀ u ∈ kin, u ∈ s'.tasks ∧ ∃ layers', Policy s' u layers' ∧ layers <:+ layers' := by
  refine Later.invariant (Q := fun s u => u ∈ s.tasks ∧ ∃ layers', Policy s u layers' ∧
    layers <:+ layers') (fun _ _ _ hx hs => (hx.stepped hs).sound) ?_ ?_ h
    ⟨ht,layers,hp,suffix_rfl⟩ hlat
  · rintro x e y u hx hs ⟨hu,layers',hp',hsf⟩ hgo
    have hadv := hx.stepped hs
    obtain ⟨layers'',hp'',hmr⟩ := hadv.grows u hu layers' hp'
    exact ⟨hadv.tasks u hu hgo,layers'',hp'',hsf.trans hmr⟩
  rintro x e y parent child hx hs hbo ⟨-,layers',hp',hsf⟩
  obtain ⟨hchd,hinh⟩ := (hx.stepped hs).inherits parent child hbo
  exact ⟨hchd,layers',hinh layers' hp',hsf⟩

def Permitted (s : State) (t : Nat) (p : Path) (access : UInt64) : Prop :=
  ∀ d, Follows s.parent (s.taskDomain t) d → (s.layer d).Allows p access

lemma Policy.permitted_iff (hp : Policy s t layers) (p : Path) (access : UInt64) :
    Permitted s t p access ↔ ∀ layer ∈ layers, layer.Allows p access := by
  obtain ⟨l,hch,rfl⟩ := hp
  refine ⟨fun h layer hly => ?_,fun h d hd => ?_⟩
  · obtain ⟨d,hd,rfl⟩ := mem_map.mp hly
    exact h d (hch.follows_of_mem hd)
  exact h _ (mem_map_of_mem (hch.mem_of_follows hd))

lemma Sound.denied (h : Sound s) (ht : t ∈ s.tasks) {p : Path}
    (hp : Policy s t layers) (hdn : ∃ layer ∈ layers, ¬layer.Allows p access) :
    landlockCheck s t p.text access = some (-eacces) := by
  obtain ⟨layer,hly,hnot⟩ := hdn
  obtain ⟨-,hall⟩ | ⟨hck,-⟩ := h.check (h.rows ht) hp p access
  · cases hnot (hall layer hly)
  exact hck

instance Fresh.decide (used : Finset Nat) : (alloc : Option Nat) → Decidable (Fresh used alloc)
  | none => isTrue nofun
  | some x => decidable_of_iff (x ≠ 0 ∧ x ∉ used)
      ⟨fun h _ heq => Option.some.inj heq ▸ h,fun h => h x rfl⟩

instance Event.Enabled.decide (s : State) (e : Event) : Decidable (e.Enabled s) := by
  cases e <;> (dsimp only [Event.Enabled]; infer_instance)

def advance (s : State) (e : Event) : State := (step s e).getD s

lemma stepped_advance (s : State) (e : Event) (h : e.Enabled s ∧ (step s e).isSome = true) :
    Stepped s e (advance s e) := by
  obtain ⟨s',hs'⟩ := Option.isSome_iff_exists.mp h.2
  refine ⟨h.1,?_⟩
  rw [advance,hs']
  rfl

def etc : Name := ⟨[101,116,99],by decide,by decide⟩

def passwd : Name := ⟨[112,119],by decide,by decide⟩

def home : Name := ⟨[104,111,109,101],by decide,by decide⟩

def readFile : UInt64 := 4

def unrestricted : State where
  ruleset _ := ⟨0,0,[]⟩
  rulesets := ∅
  domain _ := ⟨0,0,0,0⟩
  domains := ∅
  taskDomain _ := 0
  rows := {1, 2}
  tasks := {1}
  handle _ := 0
  handles := ∅

def ruleOn (p : Path) : RuleArgs := ⟨0,landlockRulePathBeneath,some readFile,some (true, .ok p),true⟩

def confine : List Event :=
  [.createRuleset ⟨false,24,0,some (readFile, 0, 0),some false⟩ (some 10) (some 5),
    .addRule (some 5) (ruleOn [etc]),
    .restrictSelf 1 (some 5) ⟨0,true,some 11,some 20,1⟩]

def confined : State := confine.foldl advance unrestricted

def loosen : List Event := [.addRule (some 5) (ruleOn []),.fork 1 2,.close 5,.exit 1]

def descend (x : State × Finset Nat) (e : Event) : State × Finset Nat :=
  (advance x.1 e, kinship.line x.2 e)

def loosened : State × Finset Nat := loosen.foldl descend (confined, {1})

lemma confined_reach : Reach State.Initial Stepped confined := by
  refine Reach.along (fun s e => e.Enabled s ∧ (step s e).isSome = true) stepped_advance
    (.start ⟨rfl,rfl,fun _ => rfl,rfl,by decide⟩) ?_
  decide +kernel

lemma loosened_later : Later kinship Stepped confined 1 loosened.1 loosened.2 := by
  refine Reach.along (fun x e => e.Enabled x.1 ∧ (step x.1 e).isSome = true)
    (fun x e h => ⟨stepped_advance x.1 e h,rfl⟩) (.start rfl) ?_
  decide +kernel

end B1nix.Landlock
