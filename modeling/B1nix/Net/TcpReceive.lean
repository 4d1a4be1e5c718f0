import B1nix.Net.TcpFrames

namespace B1nix.Tcp

open List RecvBuf Nat

open Serial (gap)

def RecvBuf.room (b : RecvBuf) : Nat := b.cap - b.unread.length

section

variable (b : RecvBuf)

lemma RecvBuf.length_unread : b.unread.length = b.data.length - b.read := length_drop

lemma tcpRcvFree_cap : tcpRcvFree b b.cap = b.room := by
  rw [tcpRcvFree,room,length_unread]

lemma RecvBuf.unread_push (bytes : List UInt8) :
    (b.push bytes).unread = b.unread ++ bytes.take (b.cap - b.data.length) :=
  drop_append_of_le_length b.read_le

lemma RecvBuf.unread_grow (alloc : Bool) (capMax : Nat) :
    (tcpRecvGrow alloc capMax b).unread = b.unread := by
  rw [tcpRecvGrow]
  split
  · split <;> rfl
  rfl

lemma RecvBuf.cap_grow (alloc : Bool) (capMax : Nat) :
    (tcpRecvGrow alloc capMax b).cap ≤ max b.cap capMax := by
  rw [tcpRecvGrow]
  split
  · split
    · exact (min_le_right ..).trans (le_max_right ..)
    exact le_max_left ..
  exact le_max_left ..

lemma RecvBuf.unread_fitted (n : Nat) : (b.fitted n).unread = b.unread := by
  rw [fitted]
  split <;> rfl

lemma RecvBuf.cap_fitted (n : Nat) : (b.fitted n).cap = b.cap := by
  rw [fitted]
  split <;> rfl

lemma RecvBuf.take_fitted (data : List UInt8) :
    data.take ((b.fitted data.length).cap - (b.fitted data.length).data.length) = data.take b.room := by
  have hro : b.room = b.cap - (b.data.length - b.read) := by rw [room,length_unread]
  rw [fitted]
  split
  · rw [hro,compact,length_drop]
  rename_i hfit
  by_cases hra : b.read = 0
  · rw [hro,hra,Nat.sub_zero]
  rw [take_of_length_le (by omega),take_of_length_le (by omega)]

end

variable (alloc : Nat → Bool) (c : Conn)

variable (data : List UInt8)

lemma tcpRecvAppend_eq : ∃ buf : RecvBuf, buf.unread = c.recv.unread ++ data.take c.recv.room ∧
      buf.cap ≤ max c.recv.cap (tcpRecvCapMax c) ∧
      tcpRecvAppend alloc data c = (min data.length c.recv.room,
        { c with
          recv := buf
          rcvNxt := c.rcvNxt + BitVec.ofNat 32 (min data.length c.recv.room) }) := by
  obtain ⟨buf,hbuf⟩ : ∃ buf, buf = c.recv.fitted data.length := ⟨_,rfl⟩
  have htk : data.take (buf.cap - buf.data.length) = data.take c.recv.room :=
    hbuf ▸ c.recv.take_fitted data
  have hlen : min data.length (buf.cap - buf.data.length) = min data.length c.recv.room := by
    rw [min_comm,← length_take,htk,length_take,min_comm]
  have hun : buf.unread = c.recv.unread := hbuf ▸ c.recv.unread_fitted data.length
  have hcap : buf.cap = c.recv.cap := hbuf ▸ c.recv.cap_fitted data.length
  have hap : tcpRecvAppend alloc data c =
      if min data.length c.recv.room = 0 then (0, { c with recv := buf })
      else (min data.length c.recv.room, { c with
          recv := if tcpRcvFree (buf.push data) (buf.push data).cap < tcpMss then
            tcpRecvGrow (alloc (buf.push data).unread.length) (tcpRecvCapMax c) (buf.push data)
            else buf.push data
          rcvNxt := c.rcvNxt + BitVec.ofNat 32 (min data.length c.recv.room) }) := by
    rw [← hlen,hbuf]
    rfl
  by_cases hze : min data.length c.recv.room = 0
  · refine ⟨buf,?_,hcap ▸ le_max_left ..,?_⟩
    · have : data.take c.recv.room = [] := eq_nil_of_length_eq_zero (by
        rw [length_take]
        omega)
      rw [hun,this,append_nil]
    rw [hap,hze]
    simp
  refine ⟨_,?_,?_,hap.trans (if_neg hze)⟩
  · split
    · rw [unread_grow,unread_push,hun,htk]
    rw [unread_push,hun,htk]
  split
  · exact (cap_grow ..).trans (hcap ▸ le_rfl)
  exact hcap ▸ le_max_left ..

lemma tcpRecvAppend_full (h : c.recv.room = 0) : tcpRecvAppend alloc data c = (0, c) := by
  have hfit : c.recv.fitted data.length = c.recv := by
    have hra : c.recv.read = 0 := by
      have := c.recv.len_le
      have := c.recv.read_le
      rw [room,length_unread] at h
      omega
    rw [fitted,if_neg (by simp [hra])]
  have hlen : c.recv.cap - c.recv.data.length = 0 := by
    rw [room,length_unread] at h
    omega
  have hap : tcpRecvAppend alloc data c =
      if min data.length ((c.recv.fitted data.length).cap - (c.recv.fitted data.length).data.length) = 0 then
        (0, { c with recv := c.recv.fitted data.length })
      else _ := rfl
  rw [hap,hfit,hlen,min_zero,if_pos rfl]

lemma tcpOooDrain_full (queue : List OooSeg) (h : c.recv.room = 0) :
    (tcpOooDrain alloc queue c).recv = c.recv ∧ (tcpOooDrain alloc queue c).rcvNxt = c.rcvNxt := by
  induction queue with
  | nil => exact ⟨rfl,rfl⟩
  | cons _ _ ih =>
    rw [tcpOooDrain]
    dsimp only
    split
    · exact ⟨rfl,rfl⟩
    split
    · rw [tcpRecvAppend_full alloc c _ h,if_pos (by omega)]
      exact ⟨rfl,rfl⟩
    exact ih

lemma tcpRecvAppend_unread_le :
    c.recv.unread.length ≤ (tcpRecvAppend alloc data c).2.recv.unread.length := by
  obtain ⟨buf,hun,-,hap⟩ := tcpRecvAppend_eq alloc c data
  rw [hap]
  rw [hun,length_append]
  exact le_self_add

lemma tcpOooDrain_unread_le (queue : List OooSeg) :
    c.recv.unread.length ≤ (tcpOooDrain alloc queue c).recv.unread.length := by
  induction queue generalizing c with
  | nil => exact le_rfl
  | cons _ _ ih =>
    rw [tcpOooDrain]
    dsimp only
    split
    · exact le_rfl
    split
    · split
      · exact tcpRecvAppend_unread_le alloc c _
      exact (tcpRecvAppend_unread_le alloc c _).trans (ih _)
    exact ih c

variable {c} {seg : Segment}

lemma trimmed_of_behind (h : seg.Behind c) :
    trimmed seg c = ⟨c.rcvNxt,seg.payload.drop (already seg c)⟩ := by
  rw [trimmed,if_pos h,add_sub_cancel]

lemma gap_eq_toNat {a b : Seq} (h : (a - b).toNat < 2 ^ 31) : gap a b = (a - b).toNat :=
  BitVec.toInt_eq_toNat_of_lt (by omega)

lemma dataArrived_covering (hsm : seg.payload ≠ []) (hflg : seg.flags.psh ∨ seg.flags.ack)
    (hcv : (c.rcvNxt - seg.seq).toNat < seg.payload.length) :
    dataArrived alloc seg c =
      (tcpOooDrain alloc
        (tcpRecvAppend alloc (seg.payload.drop (already seg c)) (noteDuplicate seg c)).2.oooQueue
        (tcpRecvAppend alloc (seg.payload.drop (already seg c)) (noteDuplicate seg c)).2,
        .answered) := by
  have hft := seg.fits
  have hnd : trimmed seg c = ⟨c.rcvNxt,seg.payload.drop (already seg c)⟩ := by
    by_cases hbh : seg.Behind c
    · exact trimmed_of_behind hbh
    have hze : c.rcvNxt - seg.seq = 0 := by
      have hgap : ¬(0 : Int) < gap c.rcvNxt seg.seq := hbh
      rw [gap_eq_toNat (by omega)] at hgap
      exact BitVec.eq_of_toNat_eq (le_zero.mp (by omega))
    rw [trimmed,if_neg hbh,already,hze,sub_eq_zero.mp hze]
    rfl
  obtain ⟨pending,left,right,hnote⟩ := noteDuplicate_eq c seg
  rw [dataArrived,if_neg,if_neg,hnd,placeData,if_pos (by rw [hnote])]
  · rintro ⟨-,hold⟩
    cases not_le.mpr hcv hold
  rintro (hnone | hno)
  · exact hsm hnone
  exact hno hflg

lemma dataArrived_elsewhere (h : ¬(seg.payload ≠ [] ∧ (seg.flags.psh ∨ seg.flags.ack) ∧
    (c.rcvNxt - seg.seq).toNat < seg.payload.length)) :
    ∃ pending left right, (dataArrived alloc seg c).1 =
      { c with dsackPending := pending, dsackLeft := left, dsackRight := right } := by
  obtain ⟨pending,left,right,hnote⟩ := noteDuplicate_eq c seg
  rw [dataArrived,hnote]
  split
  · exact ⟨c.dsackPending,c.dsackLeft,c.dsackRight,rfl⟩
  rename_i hda
  refine ⟨pending,left,right,?_⟩
  split
  · rfl
  rename_i hold
  have hcv : ¬(c.rcvNxt - seg.seq).toNat < seg.payload.length := fun hcv =>
    h ⟨fun hnil => hda (.inl hnil),by_contra fun hno => hda (.inr hno),hcv⟩
  have hbh : ¬seg.Behind c := fun hb => hold ⟨hb,not_lt.mp hcv⟩
  have hseq : seg.seq ≠ c.rcvNxt := by
    intro heq
    rw [heq,sub_self] at hcv
    exact hcv (length_pos_of_ne_nil fun hnil => hda (.inl hnil))
  rw [trimmed,if_neg hbh,placeData,if_neg hseq]
  split
  · split <;> rfl
  rfl

lemma dataArrived_copied {c' : Conn} {node : OooSeg} (h : dataArrived alloc seg c = (c', .copied node)) :
    node = ⟨seg.seq,seg.payload⟩ ∧ 0 < gap seg.seq c.rcvNxt ∧
      (seg.seq - c.rcvNxt).toNat + seg.payload.length ≤ c.recv.room := by
  obtain ⟨pending,left,right,hno⟩ := noteDuplicate_eq c seg
  rw [dataArrived,hno] at h
  split at h
  · cases h
  split at h
  · cases h
  by_cases hbh : seg.Behind c
  · rw [trimmed_of_behind hbh,placeData,if_pos rfl] at h
    cases h
  rw [trimmed,if_neg hbh,placeData] at h
  split at h
  · cases h
  split at h
  · rename_i hah
    split at h
    · rename_i hft
      cases h
      exact ⟨rfl,hah,tcpRcvFree_cap c.recv ▸ hft.1⟩
    cases h
  cases h

variable (maxLen : Nat) (c : Conn)

lemma readBytes_unread {n : Nat} (hn : n ≤ c.recv.unread.length) :
    (readBytes n c).unread = c.recv.unread.drop n := by
  have hsk : (c.recv.skip n).unread = c.recv.unread.drop n := by
    have := c.recv.read_le
    rw [length_unread] at hn
    change c.recv.data.drop (min (c.recv.read + n) c.recv.data.length) =
      (c.recv.data.drop c.recv.read).drop n
    rw [drop_drop,min_eq_left (by omega)]
  rw [readBytes]
  split
  · rename_i hall
    rw [← hsk]
    exact (drop_eq_nil_of_le hall).symm
  split
  · exact hsk
  exact hsk

lemma readBytes_cap (n : Nat) (c : Conn) : (readBytes n c).cap = c.recv.cap := by
  rw [readBytes]
  split
  · rfl
  split <;> rfl

lemma tcpRecv_eq : ∃ buf closed, buf.unread = c.recv.unread.drop maxLen ∧ buf.cap = c.recv.cap ∧
      (tcpRecv maxLen false c).1 = c.recv.unread.take maxLen ∧
      (tcpRecv maxLen false c).2.1 = { c with recv := buf, wndClosed := closed } := by
  rw [tcpRecv]
  split
  · rename_i hnil
    exact ⟨c.recv,c.wndClosed,by rw [hnil,drop_nil],rfl,by rw [hnil,take_nil],rfl⟩
  have hle : (c.recv.unread.take maxLen).length ≤ c.recv.unread.length := by
    rw [length_take]
    exact min_le_right ..
  have hun : (readBytes (c.recv.unread.take maxLen).length c).unread =
      c.recv.unread.drop maxLen := by
    rw [readBytes_unread c hle,length_take]
    obtain h | h := le_total maxLen c.recv.unread.length
    · rw [min_eq_left h]
    rw [min_eq_right h,drop_length,drop_eq_nil_of_le h]
  dsimp only
  rw [if_neg Bool.false_ne_true]
  split
  · exact ⟨_,false,hun,readBytes_cap _ c,rfl,rfl⟩
  exact ⟨_,c.wndClosed,hun,readBytes_cap _ c,rfl,rfl⟩

lemma tcpRecv_peek :
    (tcpRecv maxLen true c).1 = c.recv.unread.take maxLen ∧ (tcpRecv maxLen true c).2.1 = c := by
  rw [tcpRecv]
  split
  · rename_i hnil
    exact ⟨by rw [hnil,take_nil],rfl⟩
  exact ⟨rfl,rfl⟩

lemma tcpRecv_bytes (peek : Bool) (c : Conn) :
    (tcpRecv maxLen peek c).1 = c.recv.unread.take maxLen := by
  cases peek with
  | true => exact (tcpRecv_peek maxLen c).1
  | false =>
    obtain ⟨_,_,-,-,hby,-⟩ := tcpRecv_eq maxLen c
    exact hby

lemma dataArrived_unread_le (seg : Segment) (c : Conn) :
    c.recv.unread.length ≤ (dataArrived alloc seg c).1.recv.unread.length := by
  by_cases hin : seg.payload ≠ [] ∧ (seg.flags.psh ∨ seg.flags.ack) ∧
      (c.rcvNxt - seg.seq).toNat < seg.payload.length
  · obtain ⟨hsm,hflg,hcv⟩ := hin
    obtain ⟨_,_,_,hno⟩ := noteDuplicate_eq c seg
    have hap := tcpRecvAppend_unread_le alloc (noteDuplicate seg c)
      (seg.payload.drop (already seg c))
    rw [dataArrived_covering alloc hsm hflg hcv]
    rw [hno] at hap ⊢
    exact hap.trans (tcpOooDrain_unread_le alloc ..)
  obtain ⟨_,_,_,heq⟩ := dataArrived_elsewhere alloc hin
  rw [heq]

end B1nix.Tcp
