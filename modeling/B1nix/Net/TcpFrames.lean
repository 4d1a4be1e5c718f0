import B1nix.Net.Tcp

namespace B1nix.Tcp

open Serial (gap)

variable (c : Conn)

def Conn.calm : Conn :=
  { c with
    sndWnd := 0
    cwnd := 0
    ssthresh := 0
    dupAcks := 0
    inRecovery := false
    recoveryPoint := 0
    priorCwnd := 0
    priorSsthresh := 0
    retransmitQueue := [] }

def Conn.still : Conn :=
  { c with
    rcvNxt := 0
    recv := ⟨[],0,0,le_refl 0,le_refl 0⟩
    wndClosed := false
    dsackPending := false
    dsackLeft := 0
    dsackRight := 0
    oooQueue := [] }

def Conn.sndPart : Conn := { c.still with finSeq := 0, finPending := false }

def RetransmitPkt.body (rp : RetransmitPkt) : Seq × List UInt8 × Nat := (rp.seq, rp.payload, rp.dlen)

variable (c : Conn) (seg : Segment) {f : RetransmitPkt → RetransmitPkt}

lemma tcpEnterRecovery_calm : (tcpEnterRecovery c).calm = c.calm := by
  rw [tcpEnterRecovery]
  split <;> rfl

lemma sackBlocks_invariant {P : Conn → Prop} (hundo : ∀ c, P c → P (tcpUndoRecovery c))
    (hma : ∀ b c, P c → P { c with retransmitQueue := sackMark b c.retransmitQueue })
    (cumAck : Seq) (first : Bool) (blocks : List (Seq × Seq)) {r : Bool × Conn} (h : P r.2) :
    P (sackBlocks cumAck first blocks r).2 := by
  induction blocks generalizing first r with
  | nil => exact h
  | cons b _ ih =>
    obtain ⟨marked,c⟩ := r
    rw [sackBlocks]
    split
    · exact ih _ h
    split
    · exact ih _ (hundo c h)
    exact ih _ (hma b c h)

lemma segmentSack_calm : (segmentSack seg c).calm = c.calm := by
  have hbs := sackBlocks_invariant (P := fun d => d.calm = c.calm) (fun _ h => h)
    (fun _ _ h => h) seg.ack true seg.opts.sack (r := (false, c)) rfl
  rw [segmentSack]
  split
  · rw [tcpApplySack]
    split
    · exact hbs
    exact hbs
  rfl

lemma detectLoss_calm : (detectLoss c).calm = c.calm := by
  rw [detectLoss]
  split
  · exact tcpEnterRecovery_calm c
  rfl

lemma resendHole_calm : (resendHole c).1.calm = c.calm := by
  rw [resendHole]
  split
  · split <;> rfl
  rfl

lemma duplicateAck_calm : (duplicateAck seg c).1.calm = c.calm := by
  rw [duplicateAck,resendHole_calm,detectLoss_calm,segmentSack_calm]
  rfl

lemma cumulativeAck_calm : (cumulativeAck seg c).calm = c.calm := by
  have hsack := segmentSack_calm { c with dupAcks := 0 } seg
  rw [cumulativeAck,leaveRecovery]
  split
  · exact hsack
  exact hsack

lemma ackArrived_calm : (ackArrived seg c).1.calm = c.calm := by
  rw [ackArrived]
  dsimp only
  split
  · exact duplicateAck_calm _ seg
  split
  · exact cumulativeAck_calm _ seg
  rfl

lemma scoreboard_body (q : List RetransmitPkt) : (tcpScoreboardUpdate q).map (·.body) = q.map (·.body) := by
  induction q with
  | nil => rfl
  | cons rp _ ih => exact congrArg (rp.body :: ·) ih

lemma sackMark_body (b : Seq × Seq) (q : List RetransmitPkt) :
    (sackMark b q).map (·.body) = q.map (·.body) := by
  rw [sackMark,List.map_map]
  refine List.map_congr_left fun rp _ => ?_
  change RetransmitPkt.body (if _ then _ else _) = _
  split <;> rfl

lemma tcpUndoRecovery_body :
    (tcpUndoRecovery c).retransmitQueue.map (·.body) = c.retransmitQueue.map (·.body) := by
  rw [tcpUndoRecovery,List.map_map]
  rfl

lemma segmentSack_body :
    (segmentSack seg c).retransmitQueue.map (·.body) = c.retransmitQueue.map (·.body) := by
  have hbs := sackBlocks_invariant (fun d => (tcpUndoRecovery_body d).trans) (fun b _ => (sackMark_body b _).trans)
    seg.ack true seg.opts.sack (r := (false, c)) rfl
  rw [segmentSack]
  split
  · rw [tcpApplySack]
    split
    · exact (scoreboard_body _).trans hbs
    exact hbs
  rfl

lemma detectLoss_queue : (detectLoss c).retransmitQueue = c.retransmitQueue := by
  rw [detectLoss]
  split
  · rw [tcpEnterRecovery]
    split <;> rfl
  rfl

lemma modify_body (hf : ∀ rp, (f rp).body = rp.body)
    (q : List RetransmitPkt) (i : Nat) : (q.modify i f).map (·.body) = q.map (·.body) := by
  induction q generalizing i with
  | nil => cases i <;> rfl
  | cons rp _ ih =>
    cases i with
    | zero => exact congrArg (· :: _) (hf rp)
    | succ i => exact congrArg (rp.body :: ·) (ih i)

lemma resendHole_body : (resendHole c).1.retransmitQueue.map (·.body) = c.retransmitQueue.map (·.body) := by
  rw [resendHole]
  split
  · split
    · rfl
    exact modify_body (f := resend) (fun _ => rfl) ..
  rfl

lemma duplicateAck_body :
    (duplicateAck seg c).1.retransmitQueue.map (·.body) = c.retransmitQueue.map (·.body) := by
  rw [duplicateAck,resendHole_body,detectLoss_queue,segmentSack_body]

lemma cumulativeAck_queue : (cumulativeAck seg c).retransmitQueue =
    (segmentSack seg { c with dupAcks := 0 }).retransmitQueue := by
  rw [cumulativeAck,leaveRecovery]
  split <;> rfl

lemma ackArrived_body :
    (ackArrived seg c).1.retransmitQueue.map (·.body) = c.retransmitQueue.map (·.body) := by
  rw [ackArrived]
  dsimp only
  split
  · exact duplicateAck_body _ seg
  split
  · rw [cumulativeAck_queue]
    exact segmentSack_body _ seg
  rfl

lemma dropAcked_eq (ack : Seq) (q : List RetransmitPkt) :
    dropAcked ack q = q.dropWhile fun rp => rp.seq ≠ ack := by
  simp only [dropAcked,Serial.toNat_sub_pos]

variable (alloc : Nat → Bool)

lemma tcpRecvAppend_still (data : List UInt8) : (tcpRecvAppend alloc data c).2.still = c.still := by
  rw [tcpRecvAppend]
  split <;> rfl

lemma tcpOooDrain_still (queue : List OooSeg) : (tcpOooDrain alloc queue c).still = c.still := by
  induction queue generalizing c with
  | nil => rfl
  | cons _ _ ih =>
    rw [tcpOooDrain]
    dsimp only
    split
    · rfl
    split
    · split
      · exact tcpRecvAppend_still c alloc _
      exact (ih _).trans (tcpRecvAppend_still c alloc _)
    exact ih c

lemma noteDuplicate_eq : ∃ pending left right, noteDuplicate seg c =
    { c with dsackPending := pending, dsackLeft := left, dsackRight := right } := by
  rw [noteDuplicate]
  split
  · exact ⟨_,_,_,rfl⟩
  exact ⟨c.dsackPending,c.dsackLeft,c.dsackRight,rfl⟩

lemma noteDuplicate_still : (noteDuplicate seg c).still = c.still := by
  obtain ⟨pending,left,right,h⟩ := noteDuplicate_eq c seg
  rw [h]
  rfl

lemma placeData_still (node : OooSeg) : (placeData alloc node c).1.still = c.still := by
  rw [placeData]
  split
  · exact (tcpOooDrain_still _ alloc _).trans (tcpRecvAppend_still c alloc _)
  split
  · split <;> rfl
  rfl

lemma dataArrived_still : (dataArrived alloc seg c).1.still = c.still := by
  rw [dataArrived]
  split
  · rfl
  split
  · exact noteDuplicate_still c seg
  rw [placeData_still,noteDuplicate_still]

lemma tcpBuildAck_eq (withSack : Bool) (recent : Seq) :
    ∃ pending, (tcpBuildAck withSack recent c).2 = { c with dsackPending := pending } := by
  rw [tcpBuildAck]
  dsimp only
  split
  · generalize (if c.dsackPending then _ else _ : List (Seq × Seq)) = blocks
    by_cases h : blocks = []
    · rw [if_neg (not_not_intro h)]
      exact ⟨c.dsackPending,rfl⟩
    rw [if_pos h]
    exact ⟨false,rfl⟩
  exact ⟨c.dsackPending,rfl⟩

lemma answer_eq (recent : Seq) : ∃ pending closed, (answer recent c).2 =
    { c with dsackPending := pending, wndClosed := closed } := by
  obtain ⟨pending,h⟩ := tcpBuildAck_eq c true recent
  rw [answer]
  split
  · exact ⟨pending,true,by rw [h]⟩
  exact ⟨pending,c.wndClosed,h⟩

lemma answer_still (recent : Seq) : (answer recent c).2.still = c.still := by
  obtain ⟨pending,closed,h⟩ := answer_eq c recent
  rw [h]
  rfl

lemma tcpOooInsert_eq {node : OooSeg} {c c' : Conn} (h : tcpOooInsert node c = some c') :
    c' = { c with oooQueue := (c.oooQueue.takeWhile fun s => gap s.seq node.seq < 0) ++ node ::
      c.oooQueue.dropWhile fun s => gap s.seq node.seq < 0 } := by
  rw [tcpOooInsert] at h
  split at h
  · cases h
  dsimp only at h
  split at h
  · cases h
  cases h
  rfl

lemma copyQueued_eq (alloc : Bool) (node : OooSeg) : ∃ queue pending left right,
    (copyQueued alloc node c).1 = { c with
      oooQueue := queue, dsackPending := pending, dsackLeft := left, dsackRight := right } := by
  rw [copyQueued]
  split
  · split
    · rename_i c' h
      rw [tcpOooInsert_eq h]
      exact ⟨_,c.dsackPending,c.dsackLeft,c.dsackRight,rfl⟩
    exact ⟨c.oooQueue,_,_,_,rfl⟩
  exact ⟨c.oooQueue,c.dsackPending,c.dsackLeft,c.dsackRight,rfl⟩

lemma copyQueued_still (alloc : Bool) (node : OooSeg) : (copyQueued alloc node c).1.still = c.still := by
  obtain ⟨queue,pending,left,right,h⟩ := copyQueued_eq c alloc node
  rw [h]
  rfl

lemma noteFin_eq : ∃ stop pending, noteFin seg c = { c with finSeq := stop, finPending := pending } := by
  rw [noteFin]
  split
  · exact ⟨_,_,rfl⟩
  exact ⟨c.finSeq,c.finPending,rfl⟩

lemma finArrived_taken {c : Conn} {seg : Segment} (h : (finArrived seg c).1 = true) :
    (finArrived seg c).2 = { noteFin seg c with finPending := false, rcvNxt := c.rcvNxt + 1 } := by
  obtain ⟨stop,pending,hnote⟩ := noteFin_eq c seg
  rw [finArrived] at h ⊢
  split
  · rw [hnote]
  rename_i hno
  rw [if_neg hno] at h
  cases h

lemma finArrived_refused {c : Conn} {seg : Segment} (h : (finArrived seg c).1 = false) :
    (finArrived seg c).2 = noteFin seg c := by
  rw [finArrived] at h ⊢
  split
  · rename_i hyes
    rw [if_pos hyes] at h
    cases h
  rfl

lemma finArrived_sndPart : (finArrived seg c).2.sndPart = c.sndPart := by
  obtain ⟨stop,pending,hno⟩ := noteFin_eq c seg
  cases h : (finArrived seg c).1 with
  | true =>
    rw [finArrived_taken h,hno]
    rfl
  | false =>
    rw [finArrived_refused h,hno]
    rfl

lemma finArrived_recv : (finArrived seg c).2.recv = c.recv := by
  obtain ⟨stop,pending,hno⟩ := noteFin_eq c seg
  cases h : (finArrived seg c).1 with
  | true => rw [finArrived_taken h,hno]
  | false => rw [finArrived_refused h,hno]

lemma finMoved_eq : ∃ state, finMoved c = { c with state } ∧
    (c.state.Ended → state.Ended) := by
  rw [finMoved]
  split
  · exact ⟨_,rfl,fun _ => .inl rfl⟩
  · exact ⟨_,rfl,fun _ => .inr (.inr (.inl rfl))⟩
  · exact ⟨_,rfl,fun _ => .inr (.inr (.inl rfl))⟩
  exact ⟨c.state,rfl,id⟩

lemma tcpRecv_still (maxLen : Nat) (peek : Bool) : (tcpRecv maxLen peek c).2.1.still = c.still := by
  rw [tcpRecv]
  split
  · rfl
  dsimp only
  split
  · rfl
  split <;> rfl

open List

open Serial (gap)

def sackedCount (q : List RetransmitPkt) : Nat := q.countP (·.sacked)

variable {b : Seq × Seq} {q : List RetransmitPkt} {c : Conn} {seg : Segment}

lemma sackMark_of_none (h : ∀ rp ∈ q, ¬rp.SackedBy b) : sackMark b q = q := by
  exact (map_congr_left fun rp hrp => if_neg (h rp hrp)).trans (map_id q)

lemma sackedCount_cons (rp : RetransmitPkt) :
    sackedCount (rp :: q) = sackedCount q + if rp.sacked then 1 else 0 := countP_cons

lemma sackMark_cons (rp : RetransmitPkt) :
    sackMark b (rp :: q) =
      (if rp.SackedBy b then { rp with sacked := true } else rp) :: sackMark b q := rfl

lemma sackedCount_le_sackMark : sackedCount q ≤ sackedCount (sackMark b q) := by
  induction q with
  | nil => exact le_rfl
  | cons rp _ ih =>
    rw [sackMark_cons,sackedCount_cons,sackedCount_cons]
    refine Nat.add_le_add ih ?_
    by_cases h : rp.SackedBy b
    · split <;> simp
    rw [if_neg h]

lemma sackedCount_lt_sackMark (h : ∃ rp ∈ q, rp.SackedBy b) :
    sackedCount q < sackedCount (sackMark b q) := by
  induction q with
  | nil => exact absurd h (by simp)
  | cons rp _ ih =>
    rw [sackMark_cons,sackedCount_cons,sackedCount_cons]
    by_cases hrp : rp.SackedBy b
    · rw [if_pos hrp,hrp.1]
      exact Nat.lt_succ_of_le sackedCount_le_sackMark
    rw [if_neg hrp]
    obtain ⟨x,hx,hma⟩ := h
    obtain rfl | hx := mem_cons.mp hx
    · cases hrp hma
    exact Nat.add_lt_add_right (ih ⟨x,hx,hma⟩) _

lemma sackedCount_map (h : ∀ rp, (f rp).sacked = rp.sacked) :
    sackedCount (q.map f) = sackedCount q := by
  rw [sackedCount,countP_map]
  exact countP_congr fun rp _ => by rw [Function.comp,h]

lemma sackedCount_scoreboard : sackedCount (tcpScoreboardUpdate q) = sackedCount q := by
  induction q with
  | nil => rfl
  | cons _ _ ih => rw [tcpScoreboardUpdate,sackedCount_cons,sackedCount_cons,ih]

lemma sackedCount_modify (i : Nat) : sackedCount (q.modify i resend) = sackedCount q := by
  induction q generalizing i with
  | nil => cases i <;> rfl
  | cons _ _ ih =>
    cases i with
    | zero => rfl
    | succ => rw [modify_succ_cons,sackedCount_cons,sackedCount_cons,ih]

lemma sackedCount_undo : sackedCount (tcpUndoRecovery c).retransmitQueue = sackedCount c.retransmitQueue :=
  sackedCount_map fun _ => rfl

def Marking (blocks : List (Seq × Seq)) (q : List RetransmitPkt) : Prop :=
  ∃ b ∈ blocks, 0 < gap b.2 b.1 ∧ ∃ rp ∈ q, rp.SackedBy b

variable {blocks : List (Seq × Seq)}

lemma sackBlocks_of_not_marking (cumAck : Seq) (marked : Bool) (h : ¬Marking blocks c.retransmitQueue) :
    sackBlocks cumAck false blocks (marked, c) = (marked, c) := by
  induction blocks with
  | nil => rfl
  | cons b rest ih =>
    have hrs : ¬Marking rest c.retransmitQueue := fun ⟨x,hx,hma⟩ =>
      h ⟨x,.tail b hx,hma⟩
    rw [sackBlocks]
    split
    · exact ih hrs
    rename_i hvl
    have hnone : ∀ rp ∈ c.retransmitQueue, ¬rp.SackedBy b := fun rp hrp hma =>
      h ⟨b,.head _,by omega,rp,hrp,hma⟩
    have hany : (c.retransmitQueue.any fun rp => rp.SackedBy b) = false :=
      any_eq_false.mpr (by simpa using hnone)
    rw [hany,Bool.or_false,sackMark_of_none hnone]
    exact ih hrs

lemma sackedCount_le_sackBlocks (cumAck : Seq) (blocks : List (Seq × Seq)) (marked : Bool)
    (c : Conn) : sackedCount c.retransmitQueue ≤
      sackedCount (sackBlocks cumAck false blocks (marked, c)).2.retransmitQueue :=
  sackBlocks_invariant
    (P := fun d => sackedCount c.retransmitQueue ≤ sackedCount d.retransmitQueue)
    (fun _ h => h.trans sackedCount_undo.ge) (fun _ _ h => h.trans sackedCount_le_sackMark) _ _ _ le_rfl

lemma sackedCount_lt_sackBlocks (cumAck : Seq) (marked : Bool) {c : Conn}
    (h : Marking blocks c.retransmitQueue) : sackedCount c.retransmitQueue <
      sackedCount (sackBlocks cumAck false blocks (marked, c)).2.retransmitQueue := by
  induction blocks generalizing marked c with
  | nil => exact absurd h (by simp [Marking])
  | cons b _ ih =>
    obtain ⟨x,hx,hvl,hma⟩ := h
    rw [sackBlocks]
    split
    · rename_i hsk
      obtain rfl | hx := mem_cons.mp hx
      · omega
      exact ih _ ⟨x,hx,hvl,hma⟩
    by_cases hb : ∃ rp ∈ c.retransmitQueue, rp.SackedBy b
    · refine lt_of_lt_of_le ?_ (sackedCount_le_sackBlocks ..)
      exact sackedCount_lt_sackMark hb
    rw [sackMark_of_none fun rp hrp hs => hb ⟨rp,hrp,hs⟩]
    obtain rfl | hx := mem_cons.mp hx
    · cases hb hma
    exact ih _ ⟨x,hx,hvl,hma⟩

def Segment.Dsack (seg : Segment) : Prop :=
  ∃ b ∈ seg.opts.sack.head?, 0 < gap b.2 b.1 ∧ gap b.2 seg.ack ≤ 0

instance (seg : Segment) : Decidable seg.Dsack :=
  inferInstanceAs (Decidable (∃ b ∈ seg.opts.sack.head?, _))

def Segment.sackable (seg : Segment) : List (Seq × Seq) :=
  if seg.Dsack then seg.opts.sack.tail else seg.opts.sack

def Sacking (seg : Segment) (c : Conn) : Prop :=
  c.sackOk ∧ Marking seg.sackable c.retransmitQueue

def Clearing (seg : Segment) (c : Conn) : Prop :=
  c.sackOk ∧ seg.Dsack ∧ ∃ rp ∈ c.retransmitQueue, rp.lost

lemma sackBlocks_of_dsack (h : seg.Dsack) (marked : Bool) :
    sackBlocks seg.ack true seg.opts.sack (marked, c) =
      sackBlocks seg.ack false seg.sackable (marked, tcpUndoRecovery c) := by
  rw [Segment.sackable,if_pos h]
  obtain ⟨b,hb,hvl,hold⟩ := h
  cases hsack : seg.opts.sack with
  | nil => simp [hsack] at hb
  | cons x =>
    obtain rfl : x = b := by simpa [hsack] using hb
    rw [sackBlocks,if_neg (by omega),if_pos ⟨rfl,hold⟩]
    rfl

lemma sackBlocks_of_not_dsack (h : ¬seg.Dsack) (r : Bool × Conn) :
    sackBlocks seg.ack true seg.opts.sack r = sackBlocks seg.ack false seg.sackable r := by
  rw [Segment.sackable,if_neg h]
  cases hsack : seg.opts.sack with
  | nil => rfl
  | cons x =>
    rw [sackBlocks,sackBlocks]
    split
    · rfl
    rename_i hvl
    have hnew : ¬gap x.2 seg.ack ≤ 0 := fun hold => h ⟨x,by simp [hsack],by omega,hold⟩
    rw [if_neg (by simp [hnew]),if_neg (by simp)]

lemma sackedCount_applySack (blocks : List (Seq × Seq)) (cumAck : Seq) :
    sackedCount (tcpApplySack blocks cumAck c).retransmitQueue =
      sackedCount (sackBlocks cumAck true blocks (false, c)).2.retransmitQueue := by
  rw [tcpApplySack]
  split
  · exact sackedCount_scoreboard
  rfl

lemma marking_undo :
    Marking blocks (tcpUndoRecovery c).retransmitQueue ↔ Marking blocks c.retransmitQueue := by
  constructor
  · rintro ⟨b,hb,hvl,rp,hrp,hs⟩
    obtain ⟨rp',hrp',rfl⟩ := mem_map.mp hrp
    exact ⟨b,hb,hvl,rp',hrp',hs⟩
  rintro ⟨b,hb,hvl,rp,hrp,hs⟩
  exact ⟨b,hb,hvl,{ rp with lost := false },mem_map_of_mem hrp,hs⟩

lemma segmentSack_of_marking (h : Sacking seg c) :
    sackedCount c.retransmitQueue < sackedCount (segmentSack seg c).retransmitQueue := by
  obtain ⟨hok,hma⟩ := h
  have hbs : seg.opts.sack ≠ [] := by
    rintro hnil
    obtain ⟨b,hb,-⟩ := hma
    rw [Segment.sackable,hnil] at hb
    split at hb <;> cases hb
  rw [segmentSack,if_pos ⟨hok,hbs⟩,sackedCount_applySack]
  by_cases hd : seg.Dsack
  · rw [sackBlocks_of_dsack hd,← sackedCount_undo]
    exact sackedCount_lt_sackBlocks _ _ (marking_undo.mpr hma)
  rw [sackBlocks_of_not_dsack hd]
  exact sackedCount_lt_sackBlocks _ _ hma

lemma segmentSack_of_not_marking (h : ¬Sacking seg c) :
    segmentSack seg c = if c.sackOk ∧ seg.Dsack then tcpUndoRecovery c else c := by
  rw [segmentSack]
  by_cases hok : c.sackOk
  · have hma : ¬Marking seg.sackable c.retransmitQueue := fun hm => h ⟨hok,hm⟩
    by_cases hd : seg.Dsack
    · have hbs : seg.opts.sack ≠ [] := by
        rintro hnil
        obtain ⟨b,hb,-⟩ := hd
        simp [hnil] at hb
      have hstl := sackBlocks_of_not_marking seg.ack false (mt marking_undo.mp hma)
      rw [if_pos ⟨hok,hbs⟩,if_pos ⟨hok,hd⟩,tcpApplySack,sackBlocks_of_dsack hd,hstl]
      rfl
    have hstl := sackBlocks_of_not_marking seg.ack false hma
    rw [if_neg fun hand : c.sackOk ∧ seg.Dsack => hd hand.2,tcpApplySack, sackBlocks_of_not_dsack hd,hstl]
    exact ite_self c
  rw [if_neg fun hand => hok hand.1,if_neg fun hand => hok hand.1]

end B1nix.Tcp
