import B1nix.Fs.Landlock

namespace B1nix.Landlock

open Transition Linked

def enoent : Int := 2

def exdev : Int := 18

def llWriteFile : UInt64 := 2

def llReadFile : UInt64 := 4

def llReadDir : UInt64 := 8

def llRemoveDir : UInt64 := 0x10

def llRemoveFile : UInt64 := 0x20

def llMakeDir : UInt64 := 0x80

def llMakeReg : UInt64 := 0x100

def llRefer : UInt64 := 0x2000

def llTruncate : UInt64 := 0x4000

def oCreat : UInt32 := 0x40

def oTrunc : UInt32 := 0x200

def oPath : UInt32 := 0x200000

abbrev Errno := {rc : Int // rc < 0}

structure Node where
  isDir : Bool
  path : Except Errno Path

structure Vfs where
  resolvePath : List UInt8 → List UInt8
  findNode : List UInt8 → Except Errno Node

variable (vfs : Vfs) (s : State) (t : Nat) (path : List UInt8)

def llCanonExisting : Except Errno Path :=
  match vfs.findNode path with
  | .error rc => .error rc
  | .ok n => n.path

def parentText (r : List UInt8) : Option (List UInt8) :=
  let r := r.take 1 ++ (r.drop 1).rdropWhile (· = 47)
  if 47 ∈ r then
    match (r.rdropWhile (· ≠ 47)).dropLast with
    | [] => some [47]
    | dir => some dir
  else none

def llCanonParent : Except Errno Path :=
  match parentText (vfs.resolvePath path) with
  | none => .error ⟨-enoent,by decide⟩
  | some dir => llCanonExisting vfs dir

variable (access : UInt64)

def checkCanon : Except Errno Path → Option Int
  | .ok canon => landlockCheck s t canon.text access
  | .error rc => some (if rc = -enoent then 0 else rc)

def landlockCheckPath : Option Int :=
  if s.taskDomain t = 0 then some 0 else checkCanon s t access (llCanonExisting vfs path)

def landlockCheckParent : Option Int :=
  if s.taskDomain t = 0 then some 0 else checkCanon s t access (llCanonParent vfs path)

def landlockCheckOpen (flags : UInt32) : Option Int :=
  if flags &&& oPath ≠ 0 ∨ s.taskDomain t = 0 then some 0
  else
    let acc := flags &&& 3
    let access := (if acc = 1 ∨ acc = 2 then llWriteFile else 0) |||
      (if flags &&& oTrunc ≠ 0 then llTruncate else 0)
    match vfs.findNode path with
    | .ok n =>
      let access := access ||| (if acc = 0 ∨ acc = 2 then if n.isDir then llReadDir else llReadFile else 0)
      match n.path with
      | .error rc => some rc
      | .ok canon => if access ≠ 0 then landlockCheck s t canon.text access else some 0
    | .error _ =>
      if flags &&& oCreat ≠ 0 then
        let access := access ||| (if acc = 0 ∨ acc = 2 then llReadFile else 0)
        checkCanon s t (access ||| llMakeReg) (llCanonParent vfs path)
      else some 0

def landlockCheckMove (old new : List UInt8) (isDir isLink : Bool) : Option Int :=
  if s.taskDomain t = 0 then some 0
  else
    match llCanonParent vfs old, llCanonParent vfs new with
    | .ok op, .ok np => do
      let removed ← if isLink then some 0
        else landlockCheck s t op.text (if isDir then llRemoveDir else llRemoveFile)
      if removed ≠ 0 then some removed
      else
        let made ← landlockCheck s t np.text (if isDir then llMakeDir else llMakeReg)
        if made ≠ 0 then some made
        else if op.text = np.text then some 0
        else
          let left ← landlockCheck s t op.text llRefer
          if left ≠ 0 then some (-exdev)
          else
            let entered ← landlockCheck s t np.text llRefer
            some (if entered ≠ 0 then -exdev else 0)
    | _, _ => some 0

inductive Call where
  | path (name : List UInt8) (access : UInt64)
  | parent (name : List UInt8) (access : UInt64)
  | open (name : List UInt8) (flags : UInt32)
  | move (old new : List UInt8) (isDir isLink : Bool)

def Call.check : Call → Option Int
  | .path name access => landlockCheckPath vfs s t name access
  | .parent name access => landlockCheckParent vfs s t name access
  | .open name flags => landlockCheckOpen vfs s t name flags
  | .move old new isDir isLink => landlockCheckMove vfs s t old new isDir isLink

def Lost {α : Type} : Except Errno α → Prop
  | .ok _ => False
  | .error rc => rc.1 ≠ -enoent

instance Lost.decide {α : Type} : (r : Except Errno α) → Decidable (Lost r)
  | .ok _ => .isFalse id
  | .error rc => inferInstanceAs (Decidable (rc.1 ≠ -enoent))

def Call.Lost : Call → Prop
  | .path name _ => Landlock.Lost (llCanonExisting vfs name)
  | .parent name _ => Landlock.Lost (llCanonParent vfs name)
  | .open name flags => Landlock.Lost (llCanonExisting vfs name) ∨
      (vfs.findNode name).isOk = false ∧ flags &&& oCreat ≠ 0 ∧ Landlock.Lost (llCanonParent vfs name)
  | .move old new _ _ => Landlock.Lost (llCanonParent vfs old) ∨ Landlock.Lost (llCanonParent vfs new)

def Call.Compared : Call → Prop
  | .open name flags => flags &&& oPath = 0 ∧ ¬Landlock.Lost (vfs.findNode name)
  | .move old new _ _ => ¬Landlock.Lost (llCanonParent vfs old) ∧ ¬Landlock.Lost (llCanonParent vfs new)
  | _ => True

variable {s : State} {t i : Nat} {vfs : Vfs}

lemma checkCanon_lost {canon : Except Errno Path} (h : Lost canon) (access : UInt64) :
    ∃ rc : Errno, checkCanon s t access canon = some rc.1 := by
  cases canon with
  | ok => exact h.elim
  | error rc => exact ⟨rc,congrArg some (if_neg h)⟩

def denied : Errno := ⟨-eacces,by decide⟩

def unsearchable : Vfs := ⟨id,fun _ => .error denied⟩

def Moves (s : State) (t : Nat) (op np : Path) (isDir isLink : Bool) : Prop :=
  (isLink = false → Permitted s t op (if isDir then llRemoveDir else llRemoveFile)) ∧
    Permitted s t np (if isDir then llMakeDir else llMakeReg)

def Handles (s : State) (t : Nat) : Prop :=
  ∀ d, Follows s.parent (s.taskDomain t) d → has (s.layer d).handledFs 13 = true

def Refers (s : State) (t : Nat) (op np : Path) : Prop :=
  Handles s t ∧ ∀ d, Follows s.parent (s.taskDomain t) d → (s.layer d).Grants op 13 ∧ (s.layer d).Grants np 13

variable {op np : Path} {old new : List UInt8}

lemma has_llRefer : has llRefer i = true ↔ i = 13 := by
  refine ⟨fun h => ?_,fun h => h ▸ rfl⟩
  have hlt := has_lt h
  revert h
  interval_cases i <;> decide

lemma Handles.refers_iff (h : Handles s t) :
    Refers s t op np ↔ Permitted s t op llRefer ∧ Permitted s t np llRefer := by
  have hly : ∀ p d, Follows s.parent (s.taskDomain t) d →
      ((s.layer d).Allows p llRefer ↔ (s.layer d).Grants p 13) := by
    intro p d hd
    simp [Layer.Allows,has_llRefer,h d hd]
  rw [Refers,and_iff_right h,Permitted,Permitted,← forall_and]
  refine forall_congr' fun d => ?_
  rw [← forall_and]
  exact forall_congr' fun hd => and_congr (hly op d hd).symm (hly np d hd).symm

open Classical in
lemma landlockCheck_eq (hs : Reach State.Initial Stepped s) (ht : t ∈ s.tasks) (p : Path) (access : UInt64) :
    landlockCheck s t p.text access = some (if Permitted s t p access then 0 else -eacces) := by
  have hsd := sound_of_reach hs
  obtain ⟨layers,hp⟩ := hsd.policy (hsd.rows ht)
  rw [hp.permitted_iff]
  rcases hsd.check (hsd.rows ht) hp p access with ⟨hck,hall⟩ | ⟨hck,layer,hly,hnot⟩
  · rw [hck,if_pos hall]
  rw [hck,if_neg fun h => hnot (h layer hly)]

open Classical in
lemma landlockCheckMove_eq (hs : Reach State.Initial Stepped s) (ht : t ∈ s.tasks)
    (hop : llCanonParent vfs old = .ok op) (hnp : llCanonParent vfs new = .ok np) (isDir isLink : Bool) :
    landlockCheckMove vfs s t old new isDir isLink = some (if Moves s t op np isDir isLink then
      if op.text = np.text ∨ Permitted s t op llRefer ∧ Permitted s t np llRefer then 0 else -exdev
      else -eacces) := by
  by_cases hd : s.taskDomain t = 0
  · have hnone : ∀ d, ¬Follows s.parent (s.taskDomain t) d := by
      intro d h
      induction h with
      | first h => exact h hd
      | after _ _ ih => exact ih
    have hall : ∀ p access, Permitted s t p access := fun _ _ d h => absurd h (hnone d)
    simp [landlockCheckMove,hd,Moves,hall]
  rw [landlockCheckMove,if_neg hd,hop,hnp,Moves]
  simp only [landlockCheck_eq hs ht]
  by_cases hmakes : Permitted s t np (if isDir then llMakeDir else llMakeReg) <;>
    by_cases hlea : Permitted s t op llRefer <;> cases isLink <;> simp [hmakes,hlea,eacces]
  all_goals grind

def flatVfs : Vfs := ⟨id,fun text => .ok ⟨true,.ok (if text = Path.text [etc] then [etc] else [home])⟩⟩

end B1nix.Landlock
