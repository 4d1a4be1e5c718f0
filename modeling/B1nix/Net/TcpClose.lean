import B1nix.Net.TcpBlind

namespace B1nix.TcpClose

open Tcp Transition

structure State where
  conn : Conn
  shutWr : Bool
  finSent : Bool
  fins : List TcpState

def tcpSendFin (next : TcpState) (lost retransmitted : Bool) (c : Conn) : Conn :=
  { c with
    state := next
    sndNxt := c.sndNxt + 1
    retransmitQueue := c.retransmitQueue ++ [⟨c.sndNxt,[],1,false,lost,retransmitted,0⟩] }

variable (s : State)

def tcpShutdownWrite : State :=
  if s.shutWr ∨ s.conn.state ≠ .established ∧ s.conn.state ≠ .closeWait then s
  else { s with
    shutWr := true
    fins := s.fins ++ [if s.conn.state = .closeWait then .lastAck else .finWait1] }

def tcpClose : State :=
  if s.conn.state = .listen then s
  else if s.shutWr then { s with shutWr := false }
  else { s with
    conn := if s.conn.state = .closeWait then { s.conn with state := .lastAck } else s.conn
    fins := s.fins ++ [.finWait1] }

def tcpCloseWaited (c : Conn) : Conn := if c.state = .closed then c else { c with state := .timeWait }

inductive Event where
  | segment (alloc : Nat → Bool) (copy : Bool) (seg : Segment)
  | shutdown
  | close
  | fin (i : Nat) (lost retransmitted : Bool)
  | waited

def step : Event → State
  | .segment alloc copy seg => { s with conn := (tcpInput alloc copy seg s.conn).1 }
  | .shutdown => tcpShutdownWrite s
  | .close => tcpClose s
  | .fin i lost retransmitted => match s.fins[i]? with
    | none => s
    | some next =>
      { s with
        conn := tcpSendFin next lost retransmitted s.conn
        finSent := true
        fins := s.fins.eraseIdx i }
  | .waited => { s with conn := tcpCloseWaited s.conn }

def taken (alloc : Nat → Bool) (copy : Bool) (seg : Segment) (c : Conn) : Bool × Conn :=
  finArrived seg (dataSection alloc copy seg (acked seg (firstSection seg c))).1

def acksFin (seg : Segment) (s : State) : Bool :=
  s.finSent && seg.flags.ack && seg.ack == s.conn.sndNxt

def closed : TcpState → TcpState
  | .established => .finWait1
  | .closeWait => .lastAck
  | st => st

def received : Bool → Bool → TcpState → TcpState
  | true, _, .established => .closeWait
  | true, true, .finWait1 | true, _, .finWait2 | _, true, .closing => .timeWait
  | true, false, .finWait1 => .closing
  | false, true, .finWait1 => .finWait2
  | _, true, .lastAck => .closed
  | _, _, st => st

def regular (fin ack flag : Bool) : TcpState → Bool
  | .finWait1 => fin == ack
  | .lastAck => flag == ack
  | .closing => !ack
  | _ => true

def OffDiagram (c : Conn) (seg : Segment) : Prop :=
  c.state = .synSent ∨ c.state = .synReceived ∨ seg.flags.rst = true

def Follows (e : Event) : Prop :=
  match e with
  | .segment alloc copy seg => OffDiagram s.conn seg ∨ (step s e).conn.state =
      received (taken alloc copy seg s.conn).1 (acksFin seg s) s.conn.state
  | .fin i _ _ => s.fins[i]? = none ∨ (step s e).conn.state = closed s.conn.state
  | .close => (step s e).conn.state = s.conn.state ∨ (step s e).conn.state = closed s.conn.state
  | _ => (step s e).conn.state = s.conn.state

def Regular : Event → Prop
  | .segment alloc copy seg => OffDiagram s.conn seg ∨
      regular (taken alloc copy seg s.conn).1 (acksFin seg s) seg.flags.ack s.conn.state
  | .fin i _ _ => ∀ next ∈ s.fins[i]?, next = closed s.conn.state
  | .waited => s.conn.state = .closed ∨ s.conn.state = .timeWait
  | _ => True

variable {c : Conn} {seg : Segment} {alloc : Nat → Bool} {copy : Bool}

lemma firstSection_state : (firstSection seg c).state = c.state :=
  (congrArg Conn.state (firstSection_calm seg c) :)

def moved (fin flag : Bool) : TcpState → TcpState
  | .established => if fin then .closeWait else .established
  | .finWait1 => if fin then .timeWait else .finWait1
  | .finWait2 => if fin then .timeWait else .finWait2
  | .lastAck => if flag then .closed else .lastAck
  | st => st

lemma openInput_state (hrst : seg.flags.rst ≠ true) : (openInput alloc copy seg (firstSection seg c)).1.state =
    if (taken alloc copy seg c).1 then (finMoved c).state else c.state := by
  have hst : (taken alloc copy seg c).2.state = c.state := by
    obtain ⟨una,queue,hac⟩ := acked_eq seg (firstSection seg c)
    have hda := dataSection_still alloc copy seg (acked seg (firstSection seg c))
    rw [taken,hac]
    rw [hac] at hda
    exact (congrArg Conn.state (finArrived_sndPart _ seg) :).trans
      ((congrArg Conn.state hda :).trans firstSection_state)
  rw [openInput,rstSection,if_neg hrst,finSection,← taken]
  revert hst
  obtain ⟨fin,c1⟩ := taken alloc copy seg c
  intro hst
  cases fin with
  | false => exact hst
  | true =>
    dsimp only
    rw [finMoved,finMoved,show c1.state = c.state from hst]
    split <;> first | rfl | exact hst

lemma tcpInput_state (h : ¬OffDiagram c seg) : (tcpInput alloc copy seg c).1.state =
    moved (taken alloc copy seg c).1 seg.flags.ack c.state := by
  obtain ⟨hsn,hrcv,hrst⟩ := not_or.mp h |>.imp_right not_or.mp
  have hop : (openInput alloc copy seg (firstSection seg c)).1.state = _ := openInput_state hrst
  rw [tcpInput_eq,stateInput,firstSection_state]
  rw [finMoved] at hop
  cases hst : c.state with
  | synSent => cases hsn hst
  | synReceived => cases hrcv hst
  | established | finWait1 | finWait2 =>
    rw [hst] at hop
    exact hop
  | lastAck | closeWait =>
    dsimp only [moved]
    split
    · rfl
    exact firstSection_state.trans hst
  | closing | closed | listen | timeWait => exact firstSection_state.trans hst

lemma moved_iff (fin ack flag : Bool) (st : TcpState) :
    moved fin flag st = received fin ack st ↔ regular fin ack flag st := by
  cases st <;> cases fin <;> cases ack <;> cases flag <;> decide

lemma follows_iff (e : Event) : Follows s e ↔ Regular s e := by
  cases e with
  | segment alloc copy seg =>
    by_cases hop : OffDiagram s.conn seg
    · exact iff_of_true (.inl hop) (.inl hop)
    refine or_congr .rfl ?_
    rw [← moved_iff,← tcpInput_state hop]
    rfl
  | shutdown =>
    refine iff_of_true ?_ trivial
    change (tcpShutdownWrite s).conn.state = _
    rw [tcpShutdownWrite]
    split <;> rfl
  | close =>
    refine iff_of_true ?_ trivial
    change (tcpClose s).conn.state = _ ∨ (tcpClose s).conn.state = _
    rw [tcpClose]
    split
    · exact .inl rfl
    split
    · exact .inl rfl
    split
    · next h => exact .inr (by rw [h]; rfl)
    exact .inl rfl
  | fin i lost retransmitted =>
    change s.fins[i]? = none ∨ (step s (.fin i lost retransmitted)).conn.state = _ ↔ ∀ next ∈ s.fins[i]?, _
    rw [step]
    cases s.fins[i]? with
    | none => simp
    | some next => simp [tcpSendFin]
  | waited =>
    change (tcpCloseWaited s.conn).state = _ ↔ _ ∨ _
    rw [tcpCloseWaited]
    split
    · next h => exact iff_of_true rfl (.inl h)
    next h => exact eq_comm.trans (or_iff_right h).symm

def finArrival : Segment := { bareAck 1000 with flags := ⟨true,false,false,false,true⟩ }

def answeredClose : List Event :=
  [.segment (fun _ => true) true finArrival,.close,.fin 0 false false]

end B1nix.TcpClose
