import B1nix.Net.TcpReceive

namespace B1nix.Tcp

open List Conn

open Serial (gap)

def TcpState.Receiving (s : TcpState) : Prop :=
  s = .established ∨ s = .finWait1 ∨ s = .finWait2

def TcpState.Synchronised (s : TcpState) : Prop :=
  s.Receiving ∨ s = .closeWait ∨ s = .closing ∨ s = .lastAck ∨ s = .timeWait

variable (seg : Segment) (c : Conn)

def InWindow (x : Seq) : Prop := (x - c.rcvNxt).toNat < tcpRcvFree c.recv c.recv.cap

def Segment.span : Nat :=
  seg.payload.length + (if seg.flags.syn then 1 else 0) + (if seg.flags.fin then 1 else 0)

def Outside : Prop :=
  if seg.span = 0 then seg.seq ≠ c.rcvNxt ∧ ¬InWindow c seg.seq
  else ∀ k < seg.span, ¬InWindow c (seg.seq + BitVec.ofNat 32 k)

instance (c : Conn) (x : Seq) : Decidable (InWindow c x) := inferInstanceAs (Decidable (_ < _))

instance (seg : Segment) (c : Conn) : Decidable (Outside seg c) :=
  inferInstanceAs (Decidable (if seg.span = 0 then _ else _))

def AckBeyond : Prop := seg.flags.ack ∧ 0 < gap seg.ack c.sndNxt

def Blind : Prop := Outside seg c ∨ AckBeyond seg c

def Unchanged (c' : Conn) : Prop :=
  c'.state = c.state ∧ c'.sndUna = c.sndUna ∧ c'.rcvNxt = c.rcvNxt ∧
    c'.retransmitQueue = c.retransmitQueue ∧ c'.recv = c.recv

def Resending : Prop :=
  ¬(c.sackOk ∧ seg.Dsack) ∧
    (c.inRecovery ∨ tcpDupthresh ≤ c.dupAcks + 1 ∨
      ∃ rp ∈ c.retransmitQueue, rp.lost ∧ rp.retransmitted = false) ∧
    tcpPipe c.retransmitQueue <
      (if c.inRecovery then c.cwnd else max (c.cwnd / 2) (2 * tcpMssLocal c)) ∧
    ∃ rp ∈ c.retransmitQueue, rp.sacked = false

def Remarking : Prop :=
  (seg.ack = c.sndUna ∧ seg.payload = [] ∧ (Sacking seg c ∨ Clearing seg c ∨ Resending seg c)) ∨
    (c.sndUna < seg.ack ∧ (Sacking seg c ∨ Clearing seg c))

def AckKeeps : Prop :=
  seg.ack < c.sndUna ∨ (seg.ack = c.sndUna ∧ ∀ rp ∈ c.retransmitQueue.head?, rp.seq = seg.ack)

def TakesData : Prop :=
  seg.payload ≠ [] ∧ (seg.flags.psh ∨ seg.flags.ack) ∧
    (c.rcvNxt - seg.seq).toNat < seg.payload.length ∧ 0 < c.recv.room

def TakesFin : Prop :=
  if seg.flags.fin then seg.finAt = c.rcvNxt else c.finPending ∧ c.finSeq = c.rcvNxt

def Harmless : Prop :=
  (seg.flags.ack → ¬Remarking seg c) ∧
    match c.state with
    | .established | .finWait1 | .finWait2 =>
      (seg.flags.ack → AckKeeps seg c) ∧ (AckBeyond seg c → ¬TakesData seg c) ∧
        ¬TakesFin seg c ∧ seg.flags.rst = false
    | .closeWait => seg.flags.ack → seg.ack = c.sndUna
    | .lastAck => seg.flags.ack = false
    | _ => True

variable {seg : Segment} {c : Conn} {q q' : List RetransmitPkt} {i : Nat}

lemma tcpNextRetransmit_eq_none : tcpNextRetransmit q = none ↔ ∀ rp ∈ q, rp.sacked = true := by
  rw [tcpNextRetransmit]
  split
  · rename_i hhd
    refine ⟨nofun,fun h => ?_⟩
    obtain ⟨rp,hrp,hsac,-⟩ := hhd
    rw [h rp (mem_of_mem_head? hrp)] at hsac
    cases hsac
  split
  · rename_i i hi
    refine ⟨nofun,fun h => ?_⟩
    obtain ⟨hlt,hp,-⟩ := findIdx?_eq_some_iff_getElem.mp hi
    rw [h _ (getElem_mem hlt)] at hp
    cases hp
  simp

lemma tcpNextRetransmit_lt (h : tcpNextRetransmit q = some i) : i < q.length := by
  rw [tcpNextRetransmit] at h
  split at h
  · rename_i hhd
    obtain ⟨rp,hrp,-⟩ := hhd
    cases h
    exact length_pos_of_mem (mem_of_mem_head? hrp)
  split at h
  · rename_i j hj
    cases h
    exact (findIdx?_eq_some_iff_getElem.mp hj).1
  exact (findIdx?_eq_some_iff_getElem.mp h).1

lemma modify_resend_ne (h : i < q.length) : q.modify i resend ≠ q := by
  intro heq
  have hget : (q.modify i resend)[i]? = q[i]? := by rw [heq]
  rw [getElem?_modify_eq,getElem?_eq_getElem h] at hget
  have := congrArg RetransmitPkt.retries (Option.some.inj hget)
  cases Nat.succ_ne_self _ this

lemma resendHole_queue : (resendHole c).1.retransmitQueue = c.retransmitQueue ↔
    ¬(c.inRecovery ∧ tcpPipe c.retransmitQueue < c.cwnd ∧
      ∃ rp ∈ c.retransmitQueue, rp.sacked = false) := by
  rw [resendHole]
  split
  · rename_i hrec
    split
    · rename_i hnone
      refine ⟨fun _ => ?_,fun _ => rfl⟩
      rintro ⟨-,-,rp,hrp,hsac⟩
      rw [tcpNextRetransmit_eq_none.mp hnone rp hrp] at hsac
      cases hsac
    rename_i i hi
    refine ⟨fun h => absurd h (modify_resend_ne (tcpNextRetransmit_lt hi)),fun h => ?_⟩
    refine absurd ⟨hrec.1,hrec.2,?_⟩ h
    by_contra hall
    have hnone := tcpNextRetransmit_eq_none.mpr fun rp hrp => by
      by_contra hs
      exact hall ⟨rp,hrp,by simpa using hs⟩
    rw [hi] at hnone
    cases hnone
  rename_i hrec
  exact ⟨fun _ h => hrec ⟨h.1,h.2.1⟩,fun _ => rfl⟩

lemma sackedCount_resendHole :
    sackedCount (resendHole c).1.retransmitQueue = sackedCount c.retransmitQueue := by
  rw [resendHole]
  split
  · split
    · rfl
    exact sackedCount_modify _
  rfl

lemma sackedCount_duplicateAck : sackedCount (duplicateAck seg c).1.retransmitQueue =
    sackedCount (segmentSack seg { c with dupAcks := c.dupAcks + 1 }).retransmitQueue := by
  rw [duplicateAck,sackedCount_resendHole,detectLoss_queue]

lemma detectLoss_undo : detectLoss (tcpUndoRecovery c) = tcpUndoRecovery c := by
  rw [detectLoss,if_neg]
  rintro (h | h)
  · cases Nat.not_succ_le_zero 2 h
  obtain ⟨rp,hrp,hlost⟩ := any_eq_true.mp h
  obtain ⟨rp',-,rfl⟩ := mem_map.mp hrp
  cases hlost

lemma undo_queue :
    (tcpUndoRecovery c).retransmitQueue = c.retransmitQueue ↔ ¬∃ rp ∈ c.retransmitQueue, rp.lost := by
  constructor
  · rintro heq ⟨rp,hrp,hlost⟩
    rw [← heq] at hrp
    obtain ⟨rp',-,rfl⟩ := mem_map.mp hrp
    cases hlost
  intro h
  refine (map_congr_left fun rp hrp => ?_).trans (map_id _)
  have hlost : rp.lost = false := by
    by_contra hl
    exact h ⟨rp,hrp,by simpa using hl⟩
  rw [← hlost]
  rfl

lemma any_lost : (q.any fun rp => rp.lost && !rp.retransmitted) = true ↔
    ∃ rp ∈ q, rp.lost ∧ rp.retransmitted = false := by
  simp

lemma detectLoss_inRecovery : (detectLoss c).inRecovery ↔ c.inRecovery ∨
    tcpDupthresh ≤ c.dupAcks ∨ ∃ rp ∈ c.retransmitQueue, rp.lost ∧ rp.retransmitted = false := by
  rw [detectLoss,← any_lost]
  split
  · rename_i h
    refine ⟨fun _ => .inr h,fun _ => ?_⟩
    rw [tcpEnterRecovery]
    split
    · assumption
    rfl
  rename_i h
  exact ⟨.inl,fun hor => hor.resolve_right h⟩

lemma detectLoss_cwnd (h : (detectLoss c).inRecovery) : (detectLoss c).cwnd =
    if c.inRecovery then c.cwnd else max (c.cwnd / 2) (2 * tcpMssLocal c) := by
  rw [detectLoss] at h ⊢
  split
  · rw [tcpEnterRecovery]
    split <;> rfl
  rename_i hno
  rw [if_neg hno] at h
  rw [if_pos h]

lemma detectLoss_resend :
    (resendHole (detectLoss c)).1.retransmitQueue = c.retransmitQueue ↔
      ¬((c.inRecovery ∨ tcpDupthresh ≤ c.dupAcks ∨
          ∃ rp ∈ c.retransmitQueue, rp.lost ∧ rp.retransmitted = false) ∧
        tcpPipe c.retransmitQueue <
          (if c.inRecovery then c.cwnd else max (c.cwnd / 2) (2 * tcpMssLocal c)) ∧
        ∃ rp ∈ c.retransmitQueue, rp.sacked = false) := by
  have hhole := resendHole_queue (c := detectLoss c)
  rw [detectLoss_queue] at hhole
  refine hhole.trans (not_congr ⟨?_,?_⟩)
  · rintro ⟨hrec,hpipe,hop⟩
    rw [detectLoss_cwnd hrec] at hpipe
    exact ⟨detectLoss_inRecovery.mp hrec,hpipe,hop⟩
  rintro ⟨hrec,hpipe,hop⟩
  have hrec' := detectLoss_inRecovery.mpr hrec
  rw [← detectLoss_cwnd hrec'] at hpipe
  exact ⟨hrec',hpipe,hop⟩

lemma duplicateAck_queue : (duplicateAck seg c).1.retransmitQueue = c.retransmitQueue ↔
    ¬(Sacking seg c ∨ Clearing seg c ∨ Resending seg c) := by
  by_cases hma : Sacking seg c
  · refine ⟨fun h => ?_,absurd (.inl hma)⟩
    have hlt : sackedCount c.retransmitQueue < sackedCount
        (segmentSack seg { c with dupAcks := c.dupAcks + 1 }).retransmitQueue :=
      segmentSack_of_marking (c := { c with dupAcks := c.dupAcks + 1 }) hma
    rw [← sackedCount_duplicateAck,h] at hlt
    cases lt_irrefl _ hlt
  have hsk : segmentSack seg { c with dupAcks := c.dupAcks + 1 } =
      if c.sackOk ∧ seg.Dsack then tcpUndoRecovery { c with dupAcks := c.dupAcks + 1 }
      else { c with dupAcks := c.dupAcks + 1 } := segmentSack_of_not_marking hma
  rw [duplicateAck,hsk]
  by_cases hd : c.sackOk ∧ seg.Dsack
  · rw [if_pos hd,detectLoss_undo]
    refine (undo_queue).trans (not_congr ?_)
    constructor
    · exact fun hlost => .inr (.inl ⟨hd.1,hd.2,hlost⟩)
    rintro (h | h | h)
    · cases hma h
    · exact h.2.2
    cases h.1 hd
  rw [if_neg hd]
  refine (detectLoss_resend).trans (not_congr ?_)
  constructor
  · exact fun h => .inr (.inr ⟨hd,h⟩)
  rintro (h | h | h)
  · cases hma h
  · exact absurd ⟨h.1,h.2.1⟩ hd
  exact h.2

lemma segmentSack_queue : (segmentSack seg c).retransmitQueue = c.retransmitQueue ↔
    ¬(Sacking seg c ∨ Clearing seg c) := by
  by_cases hma : Sacking seg c
  · refine ⟨fun h => ?_,absurd (.inl hma)⟩
    have hlt := segmentSack_of_marking hma
    rw [h] at hlt
    cases lt_irrefl _ hlt
  rw [segmentSack_of_not_marking hma]
  by_cases hd : c.sackOk ∧ seg.Dsack
  · rw [if_pos hd]
    refine undo_queue.trans (not_congr ?_)
    exact ⟨fun hlost => .inr ⟨hd.1,hd.2,hlost⟩,fun h => (h.resolve_left hma).2.2⟩
  rw [if_neg hd]
  exact ⟨fun _ h => hd ⟨(h.resolve_left hma).1,(h.resolve_left hma).2.1⟩,fun _ => rfl⟩

lemma ackArrived_queue : (ackArrived seg c).1.retransmitQueue = c.retransmitQueue ↔ ¬Remarking seg c := by
  rw [ackArrived]
  dsimp only
  split
  · rename_i hdup
    refine (duplicateAck_queue).trans (not_congr ?_)
    constructor
    · exact fun h => .inl ⟨hdup.1,hdup.2,h⟩
    rintro (h | h)
    · exact h.2.2
    cases BitVec.lt_irrefl _ (hdup.1 ▸ h.1)
  rename_i hdup
  split
  · rename_i hlt
    rw [cumulativeAck_queue]
    refine (segmentSack_queue).trans (not_congr ?_)
    exact ⟨fun h => .inr ⟨hlt,h⟩,fun h => (h.resolve_left fun h => hdup ⟨h.1,h.2.1⟩).2⟩
  rename_i hlt
  refine ⟨fun _ => ?_,fun _ => rfl⟩
  rintro (h | h)
  · exact hdup ⟨h.1,h.2.1⟩
  exact hlt h.1

variable {alloc : Nat → Bool} {copy : Bool} {ack : Seq} {c' : Conn}

lemma dataSection_takes (h : TakesData seg c) :
    c.recv.unread.length < (dataSection alloc copy seg c).1.recv.unread.length := by
  obtain ⟨hsm,hflg,hcv,hro⟩ := h
  have hct : already seg c < seg.payload.length := hcv
  have hrv : (noteDuplicate seg c).recv = c.recv := by
    obtain ⟨_,_,_,hno⟩ := noteDuplicate_eq c seg
    rw [hno]
  obtain ⟨buf,hun,-,hap⟩ :=
    tcpRecvAppend_eq alloc (noteDuplicate seg c) (seg.payload.drop (already seg c))
  rw [dataSection,dataArrived_covering alloc hsm hflg hcv]
  obtain ⟨_,_,hans⟩ := answer_eq (tcpOooDrain alloc
    (tcpRecvAppend alloc (seg.payload.drop (already seg c)) (noteDuplicate seg c)).2.oooQueue
    (tcpRecvAppend alloc (seg.payload.drop (already seg c)) (noteDuplicate seg c)).2) 0
  dsimp only
  rw [hans]
  refine lt_of_lt_of_le ?_ (tcpOooDrain_unread_le alloc ..)
  rw [hap]
  rw [hun,hrv,length_append,length_take,length_drop]
  omega

lemma dataArrived_refuses (alloc : Nat → Bool) (h : ¬TakesData seg c) :
    (dataArrived alloc seg c).1.recv = c.recv ∧ (dataArrived alloc seg c).1.rcvNxt = c.rcvNxt := by
  by_cases hcv : seg.payload ≠ [] ∧ (seg.flags.psh ∨ seg.flags.ack) ∧
      (c.rcvNxt - seg.seq).toNat < seg.payload.length
  · obtain ⟨hsm,hflg,hcv⟩ := hcv
    have hro : c.recv.room = 0 := by
      by_contra hro
      exact h ⟨hsm,hflg,hcv,pos_of_ne_zero hro⟩
    obtain ⟨pending,left,right,hno⟩ := noteDuplicate_eq c seg
    have hfu : (noteDuplicate seg c).recv.room = 0 := by
      rw [hno]
      exact hro
    obtain ⟨hrv,hnxt⟩ :=
      tcpOooDrain_full alloc (noteDuplicate seg c) (noteDuplicate seg c).oooQueue hfu
    rw [dataArrived_covering alloc hsm hflg hcv,tcpRecvAppend_full _ _ _ hfu]
    exact ⟨hrv.trans (by rw [hno]),hnxt.trans (by rw [hno])⟩
  obtain ⟨_,_,_,hsa⟩ := dataArrived_elsewhere alloc hcv
  rw [hsa]
  exact ⟨rfl,rfl⟩

lemma dataSection_refuses (h : ¬TakesData seg c) :
    (dataSection alloc copy seg c).1.recv = c.recv ∧ (dataSection alloc copy seg c).1.rcvNxt = c.rcvNxt := by
  have harr := dataArrived_refuses alloc h
  rw [dataSection]
  rcases hfate : dataArrived alloc seg c with ⟨c',fate⟩
  rw [hfate] at harr
  cases fate with
  | ignored => exact harr
  | answered =>
    obtain ⟨_,_,hans⟩ := answer_eq c' 0
    dsimp only
    rw [hans]
    exact harr
  | copied node =>
    obtain ⟨_,_,_,_,hcy⟩ := copyQueued_eq c' copy node
    obtain ⟨_,_,hans⟩ := answer_eq (copyQueued copy node c').1 (copyQueued copy node c').2
    dsimp only
    rw [hans,hcy]
    exact harr

lemma dataSection_still (alloc : Nat → Bool) (copy : Bool) (seg : Segment) (c : Conn) :
    (dataSection alloc copy seg c).1.still = c.still := by
  have hpt := dataArrived_still c seg alloc
  rw [dataSection]
  rcases hfate : dataArrived alloc seg c with ⟨c',fate⟩
  rw [hfate] at hpt
  cases fate with
  | ignored => exact hpt
  | answered => exact (answer_still c' 0).trans hpt
  | copied node => exact (answer_still _ _).trans ((copyQueued_still c' copy node).trans hpt)

lemma finArrived_iff : (finArrived seg c).1 = true ↔ TakesFin seg c := by
  rw [TakesFin]
  by_cases hfin : seg.flags.fin
  · rw [if_pos hfin]
    by_cases hat : seg.finAt = c.rcvNxt
    · rw [finArrived,if_pos (.inl ⟨hfin,hat⟩)]
      exact ⟨fun _ => hat,fun _ => rfl⟩
    have hno : noteFin seg c = { c with finSeq := seg.finAt, finPending := true } := if_pos ⟨hfin,hat⟩
    rw [finArrived,hno,if_neg]
    · exact ⟨by rintro ⟨⟩,fun h => absurd h hat⟩
    rintro (h | h)
    · exact hat h.2
    exact hat h.2.symm
  have hno : noteFin seg c = c := if_neg fun h => hfin h.1
  rw [if_neg hfin,finArrived,hno]
  by_cases hpd : c.finPending ∧ c.finSeq = c.rcvNxt
  · rw [if_pos (.inr ⟨hpd.1,hpd.2.symm⟩)]
    exact ⟨fun _ => hpd,fun _ => rfl⟩
  rw [if_neg]
  · exact ⟨by rintro ⟨⟩,fun h => absurd h hpd⟩
  rintro (h | h)
  · exact hfin h.1
  exact hpd ⟨h.1,h.2.symm⟩

lemma finSection_taken (h : TakesFin seg c) : ∃ state, (finSection seg c).1 =
    { noteFin seg c with finPending := false, rcvNxt := c.rcvNxt + 1, state } := by
  have htrue := finArrived_iff.mpr h
  have htk := finArrived_taken htrue
  rw [finSection]
  rcases hfin : finArrived seg c with ⟨accepted,c'⟩
  rw [hfin] at htrue htk
  obtain rfl : accepted = true := htrue
  obtain ⟨state,hmv,-⟩ := finMoved_eq c'
  refine ⟨state,hmv.trans ?_⟩
  rw [show c' = _ from htk]

lemma finSection_takes (h : TakesFin seg c) : (finSection seg c).1.rcvNxt = c.rcvNxt + 1 := by
  obtain ⟨state,htk⟩ := finSection_taken h
  rw [htk]

lemma finSection_refuses (h : ¬TakesFin seg c) : (finSection seg c).1 = noteFin seg c := by
  have hfalse : (finArrived seg c).1 = false := by simpa using mt finArrived_iff.mp h
  have hno := finArrived_refused hfalse
  rw [finSection]
  rcases hfin : finArrived seg c with ⟨accepted,c'⟩
  rw [hfin] at hfalse hno
  obtain rfl : accepted = false := hfalse
  exact hno

lemma finSection_frame (seg : Segment) (c : Conn) :
    (finSection seg c).1.recv = c.recv ∧ (finSection seg c).1.sndUna = c.sndUna ∧
      (finSection seg c).1.retransmitQueue = c.retransmitQueue := by
  obtain ⟨stop,pending,hno⟩ := noteFin_eq c seg
  by_cases h : TakesFin seg c
  · obtain ⟨state,htk⟩ := finSection_taken h
    rw [htk,hno]
    exact ⟨rfl,rfl,rfl⟩
  rw [finSection_refuses h,hno]
  exact ⟨rfl,rfl,rfl⟩

lemma dropAcked_eq_self : dropAcked ack q = q ↔ ∀ rp ∈ q.head?, rp.seq = ack := by
  rw [dropAcked_eq]
  cases q with
  | nil => simp
  | cons rp rest =>
    by_cases h : rp.seq = ack
    · simp
    rw [dropWhile_cons_of_pos (by simpa using h)]
    constructor
    · intro heq
      have hle := (rest.dropWhile_sublist fun rp => decide (rp.seq ≠ ack)).length_le
      rw [heq,length_cons] at hle
      omega
    exact fun hhd => absurd (hhd rp rfl) h

lemma dropAcked_eq_iff (hlen : q'.length = q.length) :
    dropAcked ack q' = q ↔ q' = q ∧ ∀ rp ∈ q.head?, rp.seq = ack := by
  constructor
  · intro h
    have hsf : dropAcked ack q' <:+ q' := dropWhile_suffix _
    rw [h] at hsf
    obtain rfl : q = q' := hsf.eq_of_length hlen.symm
    exact ⟨rfl,dropAcked_eq_self.mp h⟩
  rintro ⟨rfl,h⟩
  exact dropAcked_eq_self.mpr h

lemma TakesData.congr (h : TakesData seg c) (hnxt : c'.rcvNxt = c.rcvNxt)
    (hrv : c'.recv = c.recv) : TakesData seg c' := by
  obtain ⟨hsm,hflg,hcv,hro⟩ := h
  exact ⟨hsm,hflg,hnxt ▸ hcv,hrv ▸ hro⟩

lemma TakesFin.congr (h : TakesFin seg c) (hnxt : c'.rcvNxt = c.rcvNxt)
    (hpd : c'.finPending = c.finPending) (hsp : c'.finSeq = c.finSeq) : TakesFin seg c' := by
  rw [TakesFin] at h ⊢
  rwa [hnxt,hpd,hsp]

lemma ackTaken_eq (ack : Seq) (c : Conn) :
    ∃ una queue, ackTaken ack c = { c with sndUna := una, retransmitQueue := queue } := by
  rw [ackTaken]
  split
  · exact ⟨_,_,rfl⟩
  exact ⟨c.sndUna,c.retransmitQueue,rfl⟩

lemma ackTaken_keeps (huna : c'.sndUna = c.sndUna)
    (hlen : c'.retransmitQueue.length = c.retransmitQueue.length) :
    (ackTaken ack c').sndUna = c.sndUna ∧
        (ackTaken ack c').retransmitQueue = c.retransmitQueue ↔
      (ack < c.sndUna ∨ (ack = c.sndUna ∧ ∀ rp ∈ c.retransmitQueue.head?, rp.seq = ack)) ∧
        c'.retransmitQueue = c.retransmitQueue := by
  rw [ackTaken,huna]
  split
  · rename_i hge
    have hnot : ¬ack < c.sndUna := by
      obtain h | h := hge
      · exact BitVec.lt_asymm h
      exact h ▸ BitVec.lt_irrefl _
    rw [dropAcked_eq_iff hlen,or_iff_right hnot]
    exact ⟨fun h => ⟨⟨h.1,h.2.2⟩,h.2.1⟩,fun h => ⟨h.1.1,h.2,h.1.2⟩⟩
  rename_i hlt
  have hbl : ack < c.sndUna := by
    obtain h | h | h := Nat.lt_trichotomy ack.toNat c.sndUna.toNat
    · exact h
    · cases hlt (.inr (BitVec.eq_of_toNat_eq h))
    cases hlt (.inl h)
  exact ⟨fun h => ⟨.inl hbl,h.2⟩,fun h => ⟨huna,h.2⟩⟩

lemma acked_eq (seg : Segment) (c : Conn) :
    ∃ una queue, acked seg c = { c with sndUna := una, retransmitQueue := queue } := by
  rw [acked]
  split
  · exact ackTaken_eq seg.ack c
  exact ⟨c.sndUna,c.retransmitQueue,rfl⟩

lemma acked_keeps (seg : Segment) (huna : c'.sndUna = c.sndUna)
    (hlen : c'.retransmitQueue.length = c.retransmitQueue.length) :
    (acked seg c').sndUna = c.sndUna ∧ (acked seg c').retransmitQueue = c.retransmitQueue ↔
      (seg.flags.ack → AckKeeps seg c) ∧ c'.retransmitQueue = c.retransmitQueue := by
  rw [acked]
  by_cases hack : seg.flags.ack
  · rw [if_pos hack,ackTaken_keeps huna hlen]
    exact and_congr_left' ⟨fun h _ => h,fun h => h hack⟩
  rw [if_neg hack]
  exact ⟨fun h => ⟨fun h => absurd h hack,h.2⟩,fun h => ⟨huna,h.2⟩⟩

lemma openInput_unchanged (hstate : c.state.Receiving) (hcm : c'.calm = c.calm)
    (hlen : c'.retransmitQueue.length = c.retransmitQueue.length) :
    Unchanged c (openInput alloc copy seg c').1 ↔
      (seg.flags.ack → AckKeeps seg c) ∧ c'.retransmitQueue = c.retransmitQueue ∧
        ¬TakesData seg c ∧ ¬TakesFin seg c ∧ seg.flags.rst = false := by
  obtain ⟨una,queue,hac⟩ := acked_eq seg c'
  have huna : c'.sndUna = c.sndUna := (congrArg sndUna hcm :)
  have hkps := acked_keeps seg huna hlen
  have hnxt : (acked seg c').rcvNxt = c.rcvNxt :=
    (congrArg rcvNxt hac).trans (congrArg rcvNxt hcm :)
  have hrecv : (acked seg c').recv = c.recv := (congrArg recv hac).trans (congrArg recv hcm :)
  have hsa : (acked seg c').state = c.state := (congrArg state hac).trans (congrArg state hcm :)
  have hpd : (acked seg c').finPending = c.finPending :=
    (congrArg finPending hac).trans (congrArg finPending hcm :)
  have hsp : (acked seg c').finSeq = c.finSeq :=
    (congrArg finSeq hac).trans (congrArg finSeq hcm :)
  have hstl := dataSection_still alloc copy seg (acked seg c')
  have hda : ¬TakesData seg c → (dataSection alloc copy seg (acked seg c')).1.recv = c.recv ∧
      (dataSection alloc copy seg (acked seg c')).1.rcvNxt = c.rcvNxt := fun hno =>
    have href := dataSection_refuses (mt (fun h => h.congr hnxt.symm hrecv.symm) hno)
    ⟨href.1.trans hrecv,href.2.trans hnxt⟩
  have htks : TakesData seg c → c.recv.unread.length <
      (dataSection alloc copy seg (acked seg c')).1.recv.unread.length := fun h =>
    hrecv ▸ dataSection_takes (h.congr hnxt hrecv)
  change Unchanged c (rstSection seg (finSection seg (dataSection alloc copy seg (acked seg c')).1).1) ↔ _
  generalize (dataSection alloc copy seg (acked seg c')).1 = d at hstl hda htks ⊢
  have hfm := finSection_frame seg d
  have hdstate : d.state = c.state := (congrArg state hstl :).trans hsa
  have hduna : d.sndUna = (acked seg c').sndUna := (congrArg sndUna hstl :)
  have hdq : d.retransmitQueue = (acked seg c').retransmitQueue :=
    (congrArg retransmitQueue hstl :)
  have hdpd : d.finPending = c.finPending := (congrArg finPending hstl :).trans hpd
  have hdstop : d.finSeq = c.finSeq := (congrArg finSeq hstl :).trans hsp
  constructor
  · rintro ⟨hst,hun,hnx,hq,hrv⟩
    have hrst : seg.flags.rst = false := by
      by_contra hrst
      rw [rstSection,if_pos (by simpa using hrst)] at hst
      rcases hstate with h | h | h <;> rw [h] at hst <;> cases hst
    rw [rstSection,if_neg (by simp [hrst])] at hun hnx hq hrv
    have hno : ¬TakesData seg c := by
      intro h
      have hlt := htks h
      rw [← hfm.1,hrv] at hlt
      cases lt_irrefl _ hlt
    refine ⟨?_,?_,hno,?_,hrst⟩
    · exact (hkps.mp ⟨hduna ▸ hfm.2.1 ▸ hun,hdq ▸ hfm.2.2 ▸ hq⟩).1
    · exact (hkps.mp ⟨hduna ▸ hfm.2.1 ▸ hun,hdq ▸ hfm.2.2 ▸ hq⟩).2
    intro hfin
    rw [finSection_takes (hfin.congr (hda hno).2 hdpd hdstop),(hda hno).2] at hnx
    exact absurd hnx (by simp)
  rintro ⟨hack,hq,hno,hnofin,hrst⟩
  obtain ⟨hkuna,hkqueue⟩ := hkps.mpr ⟨hack,hq⟩
  have href : ¬TakesFin seg d := fun h => hnofin
    (h.congr (hda hno).2.symm hdpd.symm hdstop.symm)
  obtain ⟨stop,pending,hnote⟩ := noteFin_eq d seg
  rw [rstSection,if_neg (by simp [hrst]),finSection_refuses href,hnote]
  exact ⟨hdstate,hduna.trans hkuna,(hda hno).2,hdq.trans hkqueue,(hda hno).1⟩

lemma Outside.not_takesData (h : Outside seg c) : ¬TakesData seg c := by
  rintro ⟨-,-,hcv,hro⟩
  have hsn : seg.payload.length ≤ seg.span := by
    rw [Segment.span]
    omega
  rw [Outside,if_neg (by omega)] at h
  refine h _ (hcv.trans_le hsn) ?_
  rw [BitVec.ofNat_toNat,BitVec.setWidth_eq,add_sub_cancel,InWindow,sub_self,tcpRcvFree_cap]
  exact hro

def firstSection (seg : Segment) (c : Conn) : Conn :=
  if seg.flags.ack then (ackArrived seg c).1 else c

lemma firstSection_calm (seg : Segment) (c : Conn) : (firstSection seg c).calm = c.calm := by
  rw [firstSection]
  split
  · exact ackArrived_calm c seg
  rfl

lemma firstSection_length (seg : Segment) (c : Conn) :
    (firstSection seg c).retransmitQueue.length = c.retransmitQueue.length := by
  rw [firstSection]
  split
  · simpa using congrArg length (ackArrived_body c seg)
  rfl

lemma firstSection_queue (seg : Segment) (c : Conn) :
    (firstSection seg c).retransmitQueue = c.retransmitQueue ↔ (seg.flags.ack → ¬Remarking seg c) := by
  rw [firstSection]
  by_cases hack : seg.flags.ack
  · rw [if_pos hack,ackArrived_queue]
    exact ⟨fun h _ => h,fun h => h hack⟩
  rw [if_neg hack]
  exact ⟨fun _ h => absurd h hack,fun _ => rfl⟩

lemma tcpInput_eq (alloc : Nat → Bool) (copy : Bool) (seg : Segment) (c : Conn) :
    (tcpInput alloc copy seg c).1 = (stateInput alloc copy seg (firstSection seg c)).1 := by
  rw [tcpInput,firstSection]
  split <;> rfl

lemma openInput_harmless (alloc : Nat → Bool) (copy : Bool) (hst : c.state.Receiving)
    (hbli : Blind seg c) : Unchanged c (openInput alloc copy seg (firstSection seg c)).1 ↔
      (firstSection seg c).retransmitQueue = c.retransmitQueue ∧
        (seg.flags.ack → AckKeeps seg c) ∧ (AckBeyond seg c → ¬TakesData seg c) ∧
          ¬TakesFin seg c ∧ seg.flags.rst = false := by
  rw [openInput_unchanged hst (firstSection_calm seg c) (firstSection_length seg c)]
  have hda : ¬TakesData seg c ↔ (AckBeyond seg c → ¬TakesData seg c) :=
    ⟨fun h _ => h,hbli.elim Outside.not_takesData⟩
  rw [← hda]
  exact and_left_comm

theorem blind_segment_harmless_iff (alloc : Nat → Bool) (copy : Bool) (seg : Segment) (c : Conn)
    (hstate : c.state.Synchronised) (hblind : Blind seg c) :
    Unchanged c (tcpInput alloc copy seg c).1 ↔ Harmless seg c := by
  have hcm := firstSection_calm seg c
  have hsa : (firstSection seg c).state = c.state := (congrArg state hcm :)
  have huna : (firstSection seg c).sndUna = c.sndUna := (congrArg sndUna hcm :)
  have hnxt : (firstSection seg c).rcvNxt = c.rcvNxt := (congrArg rcvNxt hcm :)
  have hrv : (firstSection seg c).recv = c.recv := (congrArg recv hcm :)
  rw [tcpInput_eq,Harmless,← firstSection_queue,stateInput,hsa]
  obtain hop | h | h | h | h := hstate
  · have hgoal := openInput_harmless alloc copy hop hblind
    rcases hop with h | h | h <;> rw [h] <;> exact hgoal
  · rw [h]
    by_cases hack : seg.flags.ack
    · rw [if_pos hack]
      refine ⟨fun hkp => ⟨hkp.2.2.2.1,fun _ => hkp.2.1⟩,fun hkp => ?_⟩
      exact ⟨h.symm,hkp.2 hack,hnxt,hkp.1,hrv⟩
    rw [if_neg hack]
    refine ⟨fun hkp => ⟨hkp.2.2.2.1,fun hyes => absurd hyes hack⟩,fun hkp => ?_⟩
    exact ⟨hsa,huna,hnxt,hkp.1,hrv⟩
  · rw [h]
    exact ⟨fun hkp => ⟨hkp.2.2.2.1,trivial⟩,fun hkp => ⟨hsa,huna,hnxt,hkp.1,hrv⟩⟩
  · rw [h]
    dsimp only
    by_cases hack : seg.flags.ack
    · rw [if_pos hack]
      refine ⟨fun hkp => ?_,fun hkp => by simp [hack] at hkp⟩
      have hclo : TcpState.closed = c.state := hkp.1
      rw [h] at hclo
      cases hclo
    rw [if_neg hack]
    refine ⟨fun hkp => ⟨hkp.2.2.2.1,by simpa using hack⟩,fun hkp => ?_⟩
    exact ⟨hsa,huna,hnxt,hkp.1,hrv⟩
  rw [h]
  exact ⟨fun hkp => ⟨hkp.2.2.2.1,trivial⟩,fun hkp => ⟨hsa,huna,hnxt,hkp.1,hrv⟩⟩

def strayReset : Segment where
  seq := 0
  ack := 0
  flags := ⟨false,false,true,false,false⟩
  window := 0
  opts := ⟨0,none,false,[]⟩
  payload := []
  fits := (bareAck 0).fits

def strayData : Segment where
  seq := 0
  ack := 999
  flags := ⟨false,false,false,true,true⟩
  window := 0
  opts := ⟨0,none,false,[]⟩
  payload := [1,2,3]
  fits := by decide

theorem blind_data_harmless_iff :
    Unchanged opened.conn (tcpInput (fun _ => true) true strayData opened.conn).1 ↔
      Harmless strayData opened.conn :=
  blind_segment_harmless_iff _ _ _ _ (.inl (.inl rfl)) (.inl (by decide +kernel))

theorem blind_reset_closes : opened.conn.state.Synchronised ∧ Blind strayReset opened.conn ∧
    (tcpInput (fun _ => true) true strayReset opened.conn).1.state = .closed ∧
    ¬Unchanged opened.conn (tcpInput (fun _ => true) true strayReset opened.conn).1 := by
  refine ⟨.inl (.inl rfl),.inl ?_,by decide +kernel,fun h => ?_⟩
  · decide +kernel
  exact absurd h.1 (by decide +kernel)

end B1nix.Tcp
