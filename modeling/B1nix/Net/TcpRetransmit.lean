import B1nix.Net.TcpFrames

namespace B1nix.Tcp

open Serial Transition List Option

abbrev Body := Seq × List UInt8 × Nat

def Conn.bodies (c : Conn) : List Body := c.retransmitQueue.map (·.body)

def spans (q : List Body) : List (Seq × Nat) := q.map fun b => (b.1, b.2.2)

structure Retransmittable (c : Conn) (sent : List UInt8) : Prop where
  covered : ∀ x, (x - c.sndUna).toNat < (c.sndNxt - c.sndUna).toNat →
    ∃! i : Fin c.retransmitQueue.length,
      (x - (c.retransmitQueue.get i).seq).toNat < (c.retransmitQueue.get i).dlen
  ordered : c.retransmitQueue.Pairwise fun p q =>
    (p.seq - c.sndUna).toNat + p.dlen ≤ (q.seq - c.sndUna).toNat
  held : c.retransmitQueue.flatMap (·.payload) =
    sent.drop (sent.length - (c.sndNxt - c.sndUna).toNat)

structure Windows (c : Conn) : Prop where
  cwnd : c.cwnd ≤ tcpCwndMax
  ssthresh : c.ssthresh ≤ tcpCwndMax
  priorCwnd : c.priorCwnd ≤ tcpCwndMax
  priorSsthresh : c.priorSsthresh ≤ tcpCwndMax

structure Backed (c : Conn) (sent : List UInt8) : Prop where
  abut : Abut c.sndUna (spans c.bodies) c.sndNxt
  fits : total (spans c.bodies) < 2 ^ 32
  sized : ∀ b ∈ c.bodies, b.2.1.length = b.2.2
  held : ∃ acked, sent = acked ++ c.bodies.flatMap (·.2.1)
  windows : Windows c

variable {c c' : Conn} {s s' : System} {sent : List UInt8} {rp : RetransmitPkt} {e : Event}
  {ack : Seq}

lemma two_mss_le : 2 * tcpMssLocal c ≤ tcpCwndMax := by
  rw [tcpMssLocal]
  split <;> decide

lemma Windows.enter (h : Windows c) : Windows (tcpEnterRecovery c) := by
  rw [tcpEnterRecovery]
  split
  · exact h
  have hnew : max (c.cwnd / 2) (2 * tcpMssLocal c) ≤ tcpCwndMax :=
    Nat.max_le.mpr ⟨(Nat.div_le_self ..).trans h.cwnd,two_mss_le⟩
  exact ⟨hnew,hnew,h.cwnd,h.ssthresh⟩

lemma Windows.undo (h : Windows c) : Windows (tcpUndoRecovery c) :=
  ⟨Nat.max_le.mpr ⟨h.cwnd,h.priorCwnd⟩,Nat.max_le.mpr ⟨h.ssthresh,h.priorSsthresh⟩,
    h.priorCwnd,h.priorSsthresh⟩

lemma Windows.requeue (h : Windows c) (q : List RetransmitPkt) :
    Windows { c with retransmitQueue := q } := { h with }

section

variable (seg : Segment) (h : Windows c)

include h

lemma Windows.sack : Windows (segmentSack seg c) := by
  have hbs := sackBlocks_invariant (fun _ hw => hw.undo)
    (fun _ _ hw => hw.requeue _) seg.ack true seg.opts.sack (r := (false, c)) h
  rw [segmentSack]
  split
  · rw [tcpApplySack]
    split
    · exact hbs.requeue _
    exact hbs
  exact h

lemma Windows.duplicate : Windows (duplicateAck seg c).1 := by
  have hct : Windows { c with dupAcks := c.dupAcks + 1 } := { h with }
  have hloss : Windows (detectLoss (segmentSack seg { c with dupAcks := c.dupAcks + 1 })) := by
    rw [detectLoss]
    split
    · exact (hct.sack seg).enter
    exact hct.sack seg
  rw [duplicateAck,resendHole]
  split
  · split
    · exact hloss
    exact hloss.requeue _
  exact hloss

lemma Windows.cumulative : Windows (cumulativeAck seg c) := by
  have hct : Windows { c with dupAcks := 0 } := { h with }
  have hlf : Windows (leaveRecovery seg.ack (segmentSack seg { c with dupAcks := 0 })) := by
    have hsk := hct.sack seg
    rw [leaveRecovery]
    split
    · exact ⟨hsk.ssthresh,hsk.ssthresh,hsk.priorCwnd,hsk.priorSsthresh⟩
    exact hsk
  exact { hlf with cwnd := min_le_right _ _ }

lemma Windows.arrived : Windows (ackArrived seg c).1 := by
  rw [ackArrived]
  dsimp only
  split
  · exact Windows.duplicate seg { h with }
  split
  · exact Windows.cumulative seg { h with }
  exact { h with }

end

lemma Backed.flight (h : Backed c sent) :
    (c.sndNxt - c.sndUna).toNat = total (spans c.bodies) := h.abut.length_eq h.fits

def Conn.sending (c : Conn) : Conn := { c.sndPart with state := .closed }

lemma Backed.of_eq (h : Backed c sent) (huna : c'.sndUna = c.sndUna) (hnxt : c'.sndNxt = c.sndNxt)
    (hbo : c'.bodies = c.bodies) (hwn : Windows c') : Backed c' sent := by
  refine ⟨?_,?_,?_,?_,hwn⟩
  · rw [huna,hnxt,hbo]
    exact h.abut
  · rw [hbo]
    exact h.fits
  · rw [hbo]
    exact h.sized
  rw [hbo]
  exact h.held

lemma Backed.sending (h : Backed c sent) (heq : c'.sending = c.sending) : Backed c' sent := by
  have hwn : Windows c'.sending := heq ▸ { h.windows with }
  exact h.of_eq (congrArg Conn.sndUna heq :) (congrArg Conn.sndNxt heq :) (congrArg Conn.bodies heq :)
    { hwn with }

lemma Backed.arrived (seg : Segment) (h : Backed c sent) : Backed (ackArrived seg c).1 sent := by
  have hcm := ackArrived_calm c seg
  exact h.of_eq (congrArg Conn.sndUna hcm :) (congrArg Conn.sndNxt hcm :) (ackArrived_body c seg)
    (h.windows.arrived seg)

lemma dropAcked_body (ack : Seq) (q : List RetransmitPkt) :
    (dropAcked ack q).map (·.body) = (q.map (·.body)).dropWhile fun b => b.1 ≠ ack := by
  rw [dropAcked_eq,dropWhile_map]
  rfl

lemma spans_dropWhile (ack : Seq) (q : List Body) :
    spans (q.dropWhile fun b => b.1 ≠ ack) = (spans q).dropWhile fun x => x.1 ≠ ack := by
  rw [spans,spans,dropWhile_map]
  rfl

lemma total_append {xs ys : List (Seq × Nat)} : total (xs ++ ys) = total xs + total ys := by
  rw [total,total,total,map_append,sum_append]

lemma Backed.taken (h : Backed c sent)
    (hack : ack = c.sndNxt ∨ ∃ rp ∈ c.retransmitQueue, rp.seq = ack) :
    Backed { c with sndUna := ack, retransmitQueue := dropAcked ack c.retransmitQueue } sent := by
  have hsp : c.bodies = (c.bodies.takeWhile fun b => b.1 ≠ ack) ++
      (c.bodies.dropWhile fun b => b.1 ≠ ack) := takeWhile_append_dropWhile.symm
  refine ⟨?_,?_,?_,?_,{ h.windows with }⟩
  · change Abut ack (spans ((dropAcked ack c.retransmitQueue).map (·.body))) c.sndNxt
    rw [dropAcked_body,spans_dropWhile]
    refine h.abut.dropWhile (hack.imp_right ?_)
    rintro ⟨rp,hrp,rfl⟩
    exact ⟨(rp.seq, rp.dlen),mem_map_of_mem (mem_map_of_mem hrp),rfl⟩
  · change total (spans ((dropAcked ack c.retransmitQueue).map (·.body))) < _
    rw [dropAcked_body]
    refine lt_of_le_of_lt ?_ h.fits
    conv_rhs => rw [hsp,spans,map_append,total_append]
    exact le_add_self
  · change ∀ b ∈ (dropAcked ack c.retransmitQueue).map (·.body), _
    rw [dropAcked_body]
    exact fun b hb => h.sized b ((dropWhile_sublist _).subset hb)
  obtain ⟨acked,hac⟩ := h.held
  refine ⟨acked ++ (c.bodies.takeWhile fun b => b.1 ≠ ack).flatMap (·.2.1),?_⟩
  change _ = _ ++ ((dropAcked ack c.retransmitQueue).map (·.body)).flatMap _
  rw [dropAcked_body,append_assoc,← flatMap_append,← Conn.bodies,← hsp]
  exact hac

def System.Aligned (s : System) : Event → Prop
  | .send a => s.conn.inRecovery →
      (s.conn.sndNxt - s.conn.sndUna).toNat + min a.bytes.length (tcpMssLocal s.conn) < 2 ^ 32
  | .ackTaken seg => seg.ack < s.conn.sndUna ∨ seg.ack = s.conn.sndNxt ∨
      ∃ rp ∈ s.conn.retransmitQueue, rp.seq = seg.ack
  | _ => True

lemma Backed.ackTaken (h : Backed c sent)
    (hack : ack < c.sndUna ∨ ack = c.sndNxt ∨ ∃ rp ∈ c.retransmitQueue, rp.seq = ack) :
    Backed (ackTaken ack c) sent := by
  rw [Tcp.ackTaken]
  split
  · rename_i hge
    refine h.taken (hack.resolve_left ?_)
    rcases hge with hlt | rfl
    · exact BitVec.lt_asymm hlt
    exact BitVec.lt_irrefl _
  exact h

variable (a : SendArgs)

lemma sendSize_le (c : Conn) :
    sendSize a c ≤ min c.sndWnd c.cwnd - inflight c ∧ sendSize a c ≤ min a.bytes.length (tcpMssLocal c) := by
  rw [sendSize]
  split <;> omega

lemma Backed.push {a : SendArgs} {n : Nat} (h : Backed c sent) (hn : 0 < n)
    (hlen : n ≤ a.bytes.length) (hfit : (c.sndNxt - c.sndUna).toNat + n < 2 ^ 32) :
    Backed { c with
      sndNxt := c.sndNxt + BitVec.ofNat 32 n
      retransmitQueue := c.retransmitQueue ++
        [⟨c.sndNxt,a.bytes.take n,n,false,a.lost,a.retransmitted,0⟩] }
      (sent ++ a.bytes.take n) := by
  have hbo : ∀ rp : RetransmitPkt, (c.retransmitQueue ++ [rp]).map (·.body) =
      c.bodies ++ [rp.body] := fun rp => map_append
  have hspn : ∀ b : Body, spans (c.bodies ++ [b]) = spans c.bodies ++ [(b.1, b.2.2)] :=
    fun b => map_append
  refine ⟨?_,?_,?_,?_,{ h.windows with }⟩
  · change Abut c.sndUna (spans ((_ ++ [_]).map fun rp : RetransmitPkt => rp.body)) _
    rw [hbo,hspn]
    exact h.abut.concat hn
  · change total (spans ((_ ++ [_]).map fun rp : RetransmitPkt => rp.body)) < _
    rw [hbo,hspn,total_append,← h.flight]
    exact hfit
  · change ∀ b ∈ (_ ++ [_]).map fun rp : RetransmitPkt => rp.body, _
    rw [hbo]
    intro b hb
    obtain hb | hb := mem_append.mp hb
    · exact h.sized b hb
    rw [mem_singleton.mp hb]
    exact length_take_of_le hlen
  obtain ⟨acked,hac⟩ := h.held
  refine ⟨acked,?_⟩
  change _ = _ ++ ((_ ++ [_]).map fun rp : RetransmitPkt => rp.body).flatMap _
  rw [hbo,flatMap_append,← append_assoc,← hac]
  simp [RetransmitPkt.body]

lemma tcpSend_cases (c : Conn) : (tcpSend a c).1 ≤ 0 ∧ (tcpSend a c).2 = c ∨
    0 < sendSize a c ∧ tcpSend a c = ((sendSize a c : Int), { c with
      sndNxt := c.sndNxt + BitVec.ofNat 32 (sendSize a c)
      retransmitQueue := c.retransmitQueue ++
        [⟨c.sndNxt,a.bytes.take (sendSize a c),sendSize a c,false,a.lost,a.retransmitted,0⟩] }) := by
  rw [tcpSend]
  iterate 5
    split
    · exact .inl ⟨by dsimp only; decide,rfl⟩
  dsimp only
  split
  · exact .inl ⟨by dsimp only; decide,rfl⟩
  next hsm => exact .inr ⟨pos_of_ne_zero hsm,rfl⟩

lemma Backed.send (h : Backed c sent)
    (hok : c.inRecovery → (c.sndNxt - c.sndUna).toNat + min a.bytes.length (tcpMssLocal c) < 2 ^ 32) :
    Backed (tcpSend a c).2 (sent ++ a.bytes.take (tcpSend a c).1.toNat) := by
  obtain ⟨hnone,hc⟩ | ⟨hpos,heq⟩ := tcpSend_cases a c
  · rw [hc,Int.toNat_of_nonpos hnone,take_zero,append_nil]
    exact h
  rw [heq]
  obtain ⟨hro,hmss⟩ := sendSize_le a c
  refine h.push hpos (by omega) ?_
  by_cases hrec : c.inRecovery
  · exact (Nat.add_le_add_left hmss _).trans_lt (hok hrec)
  have hfl : inflight c = (c.sndNxt - c.sndUna).toNat := by rw [inflight,if_neg hrec]
  have hwnd := h.windows.cwnd
  have hmax : tcpCwndMax < 2 ^ 32 := by decide
  omega

def Event.Sends : Event → Prop
  | .send _ | .ackArrived _ | .ackTaken _ => True
  | _ => False

lemma step_kept (h : ¬e.Sends) :
    (step s e).sent = s.sent ∧ (step s e).conn.sending = s.conn.sending := by
  have hof : ∀ {c' : Conn}, c'.still = s.conn.still → c'.sending = s.conn.sending :=
    fun heq => (congrArg Conn.sending heq :)
  cases e with
  | send | ackArrived | ackTaken => cases h trivial
  | data alloc seg =>
    have hpt := dataArrived_still s.conn seg alloc
    change (dataStep s _).sent = _ ∧ (dataStep s _).conn.sending = _
    rcases hfate : dataArrived alloc seg s.conn with ⟨c,fate⟩
    rw [hfate] at hpt
    cases fate with
    | ignored | copied => exact ⟨rfl,hof hpt⟩
    | answered => exact ⟨rfl,hof ((answer_still c 0).trans hpt)⟩
  | queue alloc i =>
    change (queueStep s alloc i).sent = _ ∧ (queueStep s alloc i).conn.sending = _
    rw [queueStep]
    split
    · exact ⟨rfl,rfl⟩
    exact ⟨rfl,hof ((answer_still ..).trans (copyQueued_still s.conn alloc _))⟩
  | fin seg =>
    have hpt := finArrived_sndPart s.conn seg
    change (finStep s _).sent = _ ∧ (finStep s _).conn.sending = _
    rcases hfin : finArrived seg s.conn with ⟨accepted,c⟩
    rw [hfin] at hpt
    cases accepted with
    | true | false => exact ⟨rfl,(congrArg Conn.sending hpt :)⟩
  | move =>
    change s.sent = _ ∧ (finMoved s.conn).sending = _
    rw [finMoved]
    split <;> exact ⟨rfl,rfl⟩
  | readable =>
    change (ite _ _ _ : System).sent = _ ∧ (ite _ _ _ : System).conn.sending = _
    split <;> exact ⟨rfl,rfl⟩
  | recv r maxLen peek => exact ⟨rfl,hof (tcpRecv_still s.conn maxLen peek)⟩

lemma Backed.step (h : Backed s.conn s.sent) (hok : s.Aligned e) :
    Backed (step s e).conn (step s e).sent := by
  by_cases hsnd : e.Sends
  · cases e with
    | send a => exact h.send a hok
    | ackArrived seg => exact h.arrived seg
    | ackTaken => exact h.ackTaken hok
    | _ => exact hsnd.elim
  obtain ⟨hsn,hconn⟩ := step_kept hsnd
  rw [hsn]
  exact h.sending hconn

lemma System.Fresh.backed (h : s.Fresh) : Backed s.conn s.sent := by
  have hbo : s.conn.bodies = [] := by rw [Conn.bodies,h.queue,map_nil]
  refine ⟨?_,?_,?_,⟨[],?_⟩,h.cwnd,h.ssthresh,h.priorCwnd,h.priorSsthresh⟩
  · rw [hbo]
    exact h.una
  · rw [hbo]
    decide
  · rw [hbo]
    simp
  rw [hbo]
  exact h.sent

lemma total_spans {q : List Body} (h : ∀ b ∈ q, b.2.1.length = b.2.2) :
    total (spans q) = (q.flatMap (·.2.1)).length := by
  induction q with
  | nil => rfl
  | cons b q ih =>
    have hq := ih fun x hx => h x (.tail b hx)
    rw [flatMap_cons,length_append,← hq,h b (.head _)]
    rfl

lemma Backed.retransmittable (h : Backed c sent) : Retransmittable c sent := by
  have hspn : spans c.bodies = c.retransmitQueue.map fun rp => (rp.seq, rp.dlen) := map_map
  refine ⟨fun x hx => ?_,?_,?_⟩
  · have huq := h.abut.existsUnique h.fits hx
    rw [hspn] at huq
    obtain ⟨i,hi,hon⟩ := huq
    refine ⟨i.cast (length_map _),by simpa [Holds] using hi,fun j hj => ?_⟩
    have hj' := hon (j.cast (length_map _).symm) (by simpa [Holds] using hj)
    exact Fin.ext (congrArg Fin.val hj' :)
  · have hodr := h.abut.from_zero.ordered (by simpa using h.fits)
    rw [hspn,pairwise_map] at hodr
    exact hodr
  obtain ⟨acked,hac⟩ := h.held
  have hqu : c.retransmitQueue.flatMap (·.payload) = c.bodies.flatMap (·.2.1) := by
    rw [Conn.bodies,flatMap_map]
    rfl
  rw [h.flight,total_spans h.sized,hqu,hac,length_append,Nat.add_sub_cancel,drop_left]

theorem unacked_stays_queued {s : System}
    (hs : Reach System.Fresh (guarded System.Aligned Stepped) s) :
    Retransmittable s.conn s.sent := by
  refine Backed.retransmittable (hs.invariant (fun s h => h.backed) ?_)
  rintro s e t h ⟨hok,-,rfl⟩
  exact h.step hok

instance (s : System) : (e : Event) → Decidable (s.Aligned e)
  | .send _ => inferInstanceAs (Decidable (_ = true → _ < _))
  | .ackTaken _ => inferInstanceAs (Decidable (_ ∨ _))
  | .ackArrived _ | .data .. | .queue .. | .fin _ | .move | .readable _ | .recv .. => instDecidableTrue

def wholeAck : List Event :=
  [written [1,2,3],written [4,5],.ackArrived (bareAck 1003),.ackTaken (bareAck 1003)]

theorem unacked_stays_queued_after_ack :
    Retransmittable (wholeAck.foldl step opened).conn (wholeAck.foldl step opened).sent :=
  unacked_stays_queued (Reach.along (fun s e => s.Aligned e ∧ e.Enabled s)
    (fun _ _ h => ⟨h.1,h.2,rfl⟩) (.start opened_fresh) (by decide +kernel))

def System.InRange (s : System) : Event → Prop
  | .ackTaken seg => 0 < (seg.ack - s.conn.sndUna).toNat ∧
      (seg.ack - s.conn.sndUna).toNat ≤ (s.conn.sndNxt - s.conn.sndUna).toNat
  | _ => True

def halfAck : List Event :=
  [written [1,2,3],written [4,5],.ackArrived (bareAck 1001),.ackTaken (bareAck 1001)]

theorem half_ack_loses_data :
    Reach System.Fresh (guarded System.InRange Stepped) (halfAck.foldl step opened) ∧
      ¬Retransmittable (halfAck.foldl step opened).conn (halfAck.foldl step opened).sent := by
  constructor
  · exact Reach.along (fun s e => s.InRange e ∧ e.Enabled s) (fun _ _ h => ⟨h.1,h.2,rfl⟩)
      (.start opened_fresh)
      ⟨⟨trivial,trivial⟩,⟨trivial,trivial⟩,⟨trivial,rfl⟩, ⟨⟨by decide +kernel,by decide +kernel⟩,rfl⟩,trivial⟩
  intro h
  obtain ⟨i,-⟩ := h.covered 1001 (by decide +kernel)
  have hem : (halfAck.foldl step opened).conn.retransmitQueue.length = 0 := by decide +kernel
  cases Nat.not_lt_zero _ (Nat.lt_of_lt_of_eq i.isLt hem)

def timerRoom : Nat := 1500 - 20

def maxTries (syncnt : Nat) (c : Conn) : Nat := if c.state = .synSent ∧ syncnt ≠ 0 then syncnt else 5

def retried (rp : RetransmitPkt) : RetransmitPkt := { rp with retries := rp.retries + 1 }

def timerVisit (i syncnt : Nat) (late : Bool) (c : Conn) : Conn × Option Body :=
  match c.retransmitQueue[i]? with
  | none => (c, none)
  | some rp =>
    if rp.sacked then (c, none)
    else if maxTries syncnt c ≤ rp.retries ∨ late then
      ({ c with state := .closed, recv := c.recv.empty, oooQueue := [], retransmitQueue := [] }, none)
    else
      ({ c with retransmitQueue := c.retransmitQueue.modify i retried },
        some (rp.seq, rp.payload.take timerRoom, rp.dlen))

inductive Act where
  | event (e : Event)
  | timer (i syncnt : Nat) (late : Bool)

def Act.step (s : System) : Act → System
  | .event e => Tcp.step s e
  | .timer i syncnt late => { s with conn := (timerVisit i syncnt late s.conn).1 }

def Act.resent (s : System) : Act → List Body
  | .event (.ackArrived seg) => ((Tcp.ackArrived seg s.conn).2.map (·.body)).toList
  | .timer i syncnt late => (timerVisit i syncnt late s.conn).2.toList
  | _ => []

structure OnStream (start : Seq) (sent : List UInt8) (b : Body) : Prop where
  whole : b.2.1.length = b.2.2
  placed : ∃ pre post, sent = pre ++ b.2.1 ++ post ∧ b.1 = start + BitVec.ofNat 32 pre.length

def Act.Exact (start : Seq) (s : System) (a : Act) : Prop := ∀ b ∈ a.resent s, OnStream start s.sent b

def Act.Short (s : System) : Act → Prop
  | .timer i syncnt late => ∀ b ∈ (timerVisit i syncnt late s.conn).2, b.2.2 ≤ timerRoom
  | _ => True

structure Placed (start : Seq) (s : System) : Prop where
  nxt : s.conn.sndNxt = start + BitVec.ofNat 32 s.sent.length
  queued : ∀ b ∈ s.conn.bodies, OnStream start s.sent b

variable {start : Seq}

lemma Placed.sub (h : Placed start s) (hsn : s'.sent = s.sent)
    (hnxt : s'.conn.sndNxt = s.conn.sndNxt) (hsub : ∀ b ∈ s'.conn.bodies, b ∈ s.conn.bodies) : Placed start s' := by
  refine ⟨?_,fun b hb => ?_⟩
  · rw [hnxt,hsn]
    exact h.nxt
  rw [hsn]
  exact h.queued b (hsub b hb)

lemma Placed.send (h : Placed start s) (a : SendArgs) : Placed start (Tcp.step s (.send a)) := by
  change Placed start { s with conn := (tcpSend a s.conn).2, sent := s.sent ++ _ }
  obtain ⟨hnone,hc⟩ | ⟨-,heq⟩ := tcpSend_cases a s.conn
  · rw [hc,Int.toNat_of_nonpos hnone,take_zero,append_nil]
    exact h
  have hmss := (sendSize_le a s.conn).2
  have hlen : (a.bytes.take (sendSize a s.conn)).length = sendSize a s.conn :=
    length_take_of_le (by omega)
  rw [heq]
  refine ⟨?_,fun b hb => ?_⟩
  · rw [Int.toNat_natCast,length_append,hlen,BitVec.ofNat_add,← BitVec.add_assoc,← h.nxt]
  simp only [Conn.bodies,map_append,mem_append] at hb
  obtain hb | hb := hb
  · obtain ⟨hwh,pre,post,hsn,hseq⟩ := h.queued b hb
    exact ⟨hwh,pre,post ++ _,by rw [hsn,append_assoc],hseq⟩
  cases mem_singleton.mp hb
  exact ⟨hlen,s.sent,[],(append_nil _).symm,h.nxt⟩

lemma timerVisit_sub (i syncnt : Nat) (late : Bool) (c : Conn) :
    (timerVisit i syncnt late c).1.sndNxt = c.sndNxt ∧
      ∀ b ∈ (timerVisit i syncnt late c).1.bodies, b ∈ c.bodies := by
  rw [timerVisit]
  split
  · exact ⟨rfl,fun _ hb => hb⟩
  split
  · exact ⟨rfl,fun _ hb => hb⟩
  split
  · exact ⟨rfl,nofun⟩
  exact ⟨rfl,fun b => (congrArg (b ∈ ·) (modify_body (f := retried) (fun _ => rfl) _ i)).mp⟩

lemma Placed.step (h : Placed start s) (a : Act) : Placed start (a.step s) := by
  cases a with
  | timer i syncnt late =>
    obtain ⟨hnxt,hsub⟩ := timerVisit_sub i syncnt late s.conn
    exact h.sub rfl hnxt hsub
  | event e =>
    by_cases hsnd : e.Sends
    · cases e with
      | send a => exact h.send a
      | ackArrived seg =>
        exact h.sub rfl (congrArg Conn.sndNxt (ackArrived_calm s.conn seg) :)
          fun b => (congrArg (b ∈ ·) (ackArrived_body s.conn seg)).mp
      | ackTaken seg =>
        change Placed start { s with conn := Tcp.ackTaken seg.ack s.conn }
        rw [Tcp.ackTaken]
        split
        · exact h.sub rfl rfl fun _ hb => map_subset _ (dropWhile_sublist _).subset hb
        exact h
      | _ => exact hsnd.elim
    obtain ⟨hsn,hconn⟩ := step_kept hsnd
    exact h.sub hsn (congrArg Conn.sndNxt hconn :) fun b hb =>
      (congrArg (b ∈ Conn.bodies ·) hconn).mp hb

lemma resendHole_mem (h : rp ∈ (resendHole c).2) : rp ∈ c.retransmitQueue := by
  rw [resendHole] at h
  split at h
  · split at h
    · cases h
    exact mem_of_getElem? h
  cases h

lemma ackArrived_mem {seg : Segment} (h : rp ∈ (ackArrived seg c).2) :
    rp.body ∈ c.bodies := by
  rw [ackArrived] at h
  dsimp only at h
  split at h
  · have hin := resendHole_mem h
    rw [detectLoss_queue] at hin
    have hbody := mem_map_of_mem (f := RetransmitPkt.body) hin
    rw [segmentSack_body] at hbody
    exact hbody
  split at h <;> cases h

lemma Placed.exact_iff (h : Placed start s) (a : Act) : a.Exact start s ↔ a.Short s := by
  cases a with
  | event e =>
    refine iff_of_true (fun b hb => ?_) trivial
    cases e with
    | ackArrived seg =>
      obtain ⟨rp,hrp,rfl⟩ := map_eq_some_iff.mp (mem_toList.mp hb)
      exact h.queued _ (ackArrived_mem hrp)
    | _ => cases hb
  | timer i syncnt late =>
    simp only [Act.Exact,Act.resent,mem_toList]
    refine forall₂_congr fun b hb => ?_
    rw [timerVisit] at hb
    split at hb
    · cases hb
    next rp hrp =>
    split at hb
    · cases hb
    split at hb
    · cases hb
    obtain ⟨hwh,hpl⟩ := h.queued _ (mem_map_of_mem (mem_of_getElem? hrp))
    cases hb
    constructor
    · intro hex
      exact hex.whole ▸ length_take_le ..
    intro hsr
    have hall : rp.payload.take timerRoom = rp.payload := take_of_length_le (hwh.trans_le hsr)
    rw [hall]
    exact ⟨hwh,hpl⟩

lemma System.Fresh.placed (h : s.Fresh) : Placed s.conn.sndNxt s := by
  refine ⟨?_,fun b hb => ?_⟩
  · rw [h.sent]
    simp
  rw [Conn.bodies,h.queue] at hb
  cases hb

def loopback : System := { opened with conn := { opened.conn with lo := true, sndMss := tcpLoMss } }

end B1nix.Tcp
