import B1nix.Net.TcpStream

namespace B1nix.Tcp

open Serial Splice Transition List

structure Streamed (stream : List UInt8) (irs : Seq) (s : System) : Prop where
  base : s.conn.irs = irs
  received : Received stream s.taken s.finTaken s.conn
  copies : ∀ x ∈ s.copies, x.2 ≤ s.got ∧ ∃ y, Copied stream (irs + 1) x.2 x.1 y
  moving : 0 < s.moving → s.finTaken
  ended : s.conn.state.Ended → s.finTaken
  ready : ∀ r ∈ s.ready, tcpIsReadable s.conn

def System.Orderly (stream : List UInt8) (s : System) : Event → Prop
  | .data _ seg | .fin seg => ∃ p, Cut stream (s.conn.irs + 1) p seg ∧
      Near (s.got + s.finTaken.toNat) p
  | .queue _ i => ∀ x ∈ s.copies[i]?, s.got + s.finTaken.toNat < x.2 + 2 ^ 31
  | .recv r _ peek => peek = false → ∀ x ∈ s.ready, r = some x
  | _ => True

structure Delivered (stream : List UInt8) (irs : Seq) (s : System) : Prop where
  returned : s.taken <+: stream
  next : ∀ maxLen peek, s.taken ++ (tcpRecv maxLen peek s.conn).1 <+: stream
  nxt : s.conn.rcvNxt = irs + 1 + BitVec.ofNat 32 (s.taken.length + s.conn.recv.unread.length) +
    BitVec.ofNat 32 s.finTaken.toNat
  ended : ∀ r ∈ s.ready, ∀ maxLen peek, 0 < maxLen → (tcpRecv maxLen peek s.conn).1 = [] →
    s.finTaken ∧ s.taken = stream

variable {stream : List UInt8} {irs : Seq} {s : System} {c : Conn}

lemma System.Fresh.streamed (h : s.Fresh) (hirs : s.conn.irs = irs) : Streamed stream irs s := by
  have hun : s.conn.recv.unread = [] := by rw [RecvBuf.unread,h.buffer,drop_nil]
  refine ⟨hirs,⟨?_,?_,?_,?_,?_,h.recvCap,h.recvCapMax⟩,?_,?_,?_,?_⟩
  · rw [h.taken,hun]
    exact nil_prefix
  · rw [h.taken,hun,h.finTaken,h.nxt]
    exact (mark_zero _).symm
  · rw [h.finTaken]
    exact nofun
  · rw [h.ooo]
    exact ⟨[],rfl,List.Pairwise.nil,nofun⟩
  · rw [h.fin]
    exact nofun
  · rw [h.copies]
    exact nofun
  · rw [h.moving]
    exact fun hlt => absurd hlt (lt_irrefl 0)
  · rw [h.state]
    exact fun hend => absurd hend (by decide)
  · rw [h.ready]
    exact nofun

lemma tcpIsReadable.mono {c' : Conn} (h : tcpIsReadable c) (hst : c'.state = c.state)
    (hmr : c.recv.unread.length ≤ c'.recv.unread.length) : tcpIsReadable c' := by
  obtain hsm | hend := h
  · refine .inl fun hnil => hsm (eq_nil_of_length_eq_zero ?_)
    rw [hnil] at hmr
    exact Nat.le_zero.mp hmr
  exact .inr (hst ▸ hend)

lemma Streamed.grow (h : Streamed stream irs s)
    (hrcv : Received stream s.taken s.finTaken c) (hirs : c.irs = s.conn.irs)
    (hst : c.state = s.conn.state) (hmr : s.conn.recv.unread.length ≤ c.recv.unread.length) :
    Streamed stream irs { s with conn := c } := by
  refine ⟨hirs.trans h.base,hrcv,fun x hx => ?_,h.moving,?_,fun r hr => ?_⟩
  · obtain ⟨hle,hcy⟩ := h.copies x hx
    exact ⟨hle.trans (Nat.add_le_add_left hmr _),hcy⟩
  · intro hend
    exact h.ended (hst ▸ hend)
  exact (h.ready r hr).mono hst hmr

lemma Streamed.quiet (h : Streamed stream irs s) (hsi : c.rcvSide = s.conn.rcvSide)
    (hst : c.state = s.conn.state) : Streamed stream irs { s with conn := c } := by
  have hrv : c.recv = s.conn.recv := (congrArg (·.2.2.1) hsi :)
  exact h.grow (h.received.congr hsi) (congrArg (·.1) hsi :) hst (hrv ▸ le_rfl)

lemma answer_rcvSide (recent : Seq) (c : Conn) : (answer recent c).2.rcvSide = c.rcvSide := by
  obtain ⟨_,_,h⟩ := answer_eq c recent
  rw [h]
  rfl

section

variable (h : Streamed stream irs s) {seg : Segment} {p i : Nat}

include h

lemma Streamed.answered (recent : Seq) :
    Streamed stream irs { s with conn := (answer recent s.conn).2 } :=
  h.quiet (answer_rcvSide recent s.conn) (congrArg Conn.state (answer_still s.conn recent) :)

lemma Streamed.data {alloc : Nat → Bool}
    (hcut : Cut stream (s.conn.irs + 1) p seg) (hnear : Near (s.got + s.finTaken.toNat) p) :
    Streamed stream irs (dataStep s (dataArrived alloc seg s.conn)) := by
  have hstl := dataArrived_still s.conn seg alloc
  have hgr := h.grow (h.received.data alloc hcut hnear) (congrArg Conn.irs hstl :)
    (congrArg Conn.state hstl :) (dataArrived_unread_le alloc seg s.conn)
  have hmr := dataArrived_unread_le alloc seg s.conn
  cases hda : dataArrived alloc seg s.conn with
  | mk c fate =>
    rw [hda] at hgr hmr
    cases fate with
    | ignored => exact hgr
    | answered => exact hgr.answered 0
    | copied =>
      refine { hgr with copies := fun x hx => ?_ }
      obtain hx | hx := mem_append.mp hx
      · exact hgr.copies x hx
      obtain rfl := mem_singleton.mp hx
      exact ⟨Nat.add_le_add_left hmr _,_,h.base ▸ h.received.copied hcut hnear hda⟩

lemma Streamed.queue {alloc : Bool}
    (hnear : ∀ x ∈ s.copies[i]?, s.got + s.finTaken.toNat < x.2 + 2 ^ 31) :
    Streamed stream irs (queueStep s alloc i) := by
  rw [queueStep]
  split
  · exact h
  rename_i node stamp hat
  obtain ⟨hstp,y,hcy⟩ := h.copies _ (mem_of_getElem? hat)
  have hqd := h.received.queued alloc (h.base ▸ hcy) hstp (hnear _ hat)
  have hstl := copyQueued_still s.conn alloc node
  obtain ⟨_,_,_,_,heq⟩ := copyQueued_eq s.conn alloc node
  have hmr : s.conn.recv.unread.length ≤ (copyQueued alloc node s.conn).1.recv.unread.length := by
    rw [heq]
  have hgr := h.grow hqd (congrArg Conn.irs hstl :) (congrArg Conn.state hstl :) hmr
  exact { (hgr.answered _) with copies := fun x hx => (hgr.answered _).copies x (mem_of_mem_eraseIdx hx) }

lemma Streamed.fin
    (hcut : Cut stream (s.conn.irs + 1) p seg) (hnear : Near (s.got + s.finTaken.toNat) p) :
    Streamed stream irs (finStep s (finArrived seg s.conn)) := by
  have hndg := h.received.ending hcut hnear
  have hpt := finArrived_sndPart s.conn seg
  have hrv := finArrived_recv s.conn seg
  generalize finArrived seg s.conn = r at hndg hpt hrv ⊢
  obtain ⟨taken,c⟩ := r
  have hirs : c.irs = s.conn.irs := (congrArg Conn.irs hpt :)
  have hst : c.state = s.conn.state := (congrArg Conn.state hpt :)
  have hmr : s.conn.recv.unread.length ≤ c.recv.unread.length := hrv ▸ le_rfl
  cases taken with
  | false => exact h.grow hndg hirs hst hmr
  | true =>
    refine ⟨hirs.trans h.base,hndg,fun x hx => ?_,fun _ => rfl,fun _ => rfl,
      fun r hr => (h.ready r hr).mono hst hmr⟩
    obtain ⟨hle,hcy⟩ := h.copies x hx
    exact ⟨hle.trans (Nat.add_le_add_left hmr _),hcy⟩

lemma Streamed.move (hmvg : 0 < s.moving) :
    Streamed stream irs { s with conn := finMoved s.conn, moving := s.moving - 1 } := by
  obtain ⟨state,heq,hend⟩ := finMoved_eq s.conn
  have hfin := h.moving hmvg
  rw [heq]
  refine ⟨h.base,h.received.congr rfl,h.copies,fun _ => hfin,fun _ => hfin,fun r hr => ?_⟩
  obtain hsm | hdo := h.ready r hr
  · exact .inl hsm
  exact .inr (hend hdo)

lemma Streamed.readable (r : Nat) (hra : tcpIsReadable s.conn) :
    Streamed stream irs { s with ready := insert r s.ready } :=
  { h with ready := fun _ _ => hra }

lemma Streamed.unready (r : Option Nat) :
    Streamed stream irs { s with ready := r.elim s.ready s.ready.erase } := by
  refine { h with ready := fun x hx => h.ready x ?_ }
  cases r with
  | none => exact hx
  | some => exact Finset.mem_of_mem_erase hx

end

lemma unready_empty {ready : Finset Nat} {r : Option Nat} (h : ∀ x ∈ ready, r = some x) :
    r.elim ready ready.erase = ∅ := by
  refine Finset.eq_empty_of_forall_notMem fun x hx => ?_
  cases r with
  | none => cases h x hx
  | some =>
    obtain ⟨hne,hmem⟩ := Finset.mem_erase.mp hx
    exact hne (Option.some.inj (h x hmem)).symm

lemma Streamed.recv (h : Streamed stream irs s) (r : Option Nat) (maxLen : Nat) (peek : Bool)
    (hrdr : peek = false → ∀ x ∈ s.ready, r = some x) :
    Streamed stream irs (recvStep s r maxLen peek) := by
  cases peek with
  | true =>
    have hsa := (tcpRecv_peek maxLen s.conn).2
    have hunr := h.unready r
    rw [recvStep,hsa]
    exact hunr
  | false =>
    have hrcv := h.received.recv maxLen
    obtain ⟨buf,closed,hun,-,hby,hconn⟩ := tcpRecv_eq maxLen s.conn
    rw [recvStep,if_neg Bool.false_ne_true,unready_empty (hrdr rfl)]
    rw [hconn] at hrcv
    rw [hconn]
    refine ⟨h.base,hrcv,fun x hx => ?_,h.moving,h.ended,nofun⟩
    obtain ⟨hle,hcy⟩ := h.copies x hx
    refine ⟨hle.trans (le_of_eq ?_),hcy⟩
    rw [System.got,System.got,hby,hun,length_append,length_take,length_drop]
    omega

lemma tcpSend_rcvSide (a : SendArgs) (c : Conn) :
    (tcpSend a c).2.rcvSide = c.rcvSide ∧ (tcpSend a c).2.state = c.state := by
  rw [tcpSend]
  dsimp only
  split_ifs
  all_goals exact ⟨rfl,rfl⟩

lemma ackTaken_rcvSide (ack : Seq) (c : Conn) :
    (ackTaken ack c).rcvSide = c.rcvSide ∧ (ackTaken ack c).state = c.state := by
  rw [ackTaken]
  split <;> exact ⟨rfl,rfl⟩

lemma Streamed.step {e : Event} (h : Streamed stream irs s) (hok : s.Orderly stream e)
    (hen : e.Enabled s) : Streamed stream irs (step s e) := by
  cases e with
  | send a =>
    obtain ⟨hsi,hst⟩ := tcpSend_rcvSide a s.conn
    have hqt := h.quiet hsi hst
    exact { hqt with }
  | ackArrived seg =>
    have hcm := ackArrived_calm s.conn seg
    exact h.quiet (congrArg Conn.rcvSide hcm :) (congrArg Conn.state hcm :)
  | ackTaken seg =>
    obtain ⟨hsi,hst⟩ := ackTaken_rcvSide seg.ack s.conn
    exact h.quiet hsi hst
  | data =>
    obtain ⟨p,hcut,hnear⟩ := hok
    exact h.data hcut hnear
  | queue => exact h.queue hok
  | fin =>
    obtain ⟨p,hcut,hnear⟩ := hok
    exact h.fin hcut hnear
  | move => exact h.move hen
  | readable r =>
    rw [Tcp.step]
    split
    · rename_i hra
      exact h.readable r hra
    exact h
  | recv r maxLen peek => exact h.recv r maxLen peek hok

lemma Streamed.delivered (h : Streamed stream irs s) : Delivered stream irs s := by
  refine ⟨?_,h.received.returned,?_,?_⟩
  · exact (prefix_append ..).trans h.received.bytes
  · rw [h.received.nxt,h.base,← mark_add]
    rfl
  intro r hr maxLen peek hpos hnil
  have hun : s.conn.recv.unread = [] := by
    rw [tcpRecv_bytes,take_eq_nil_iff] at hnil
    exact hnil.resolve_left hpos.ne'
  have hfin := h.ended ((h.ready r hr).resolve_left (not_not_intro hun))
  have hall := h.received.ended hfin
  rw [hun,append_nil] at hall
  exact ⟨hfin,hall⟩

theorem stream_delivered_in_order
    (hs : Reach (fun s => s.Fresh ∧ s.conn.irs = irs) (guarded (System.Orderly stream) Stepped) s) :
    Delivered stream irs s := by
  refine Streamed.delivered (hs.invariant (fun s h => h.1.streamed h.2) ?_)
  rintro s e t h ⟨hok,hen,rfl⟩
  exact h.step hok hen

instance (stream : List UInt8) (base : Seq) (p : Nat) (seg : Segment) :
    Decidable (Cut stream base p seg) :=
  decidable_of_iff _ (cut_iff ..).symm

instance (n p : Nat) : Decidable (Near n p) := inferInstanceAs (Decidable (_ ∧ _))

def carried (p : Nat) (payload : List UInt8) (fin : Bool) (h : payload.length < 65536) : Segment where
  seq := mark 5000 p
  ack := 1000
  flags := ⟨fin,false,false,true,true⟩
  window := 512
  opts := ⟨0,none,false,[]⟩
  payload := payload
  fits := h

def reordered : List Event :=
  [.data (fun _ => true) (carried 2 [67,68] true (by decide)),.queue true 0,
    .fin (carried 2 [67,68] true (by decide)),
    .data (fun _ => true) (carried 0 [65,66] false (by decide)),
    .fin (carried 0 [65,66] false (by decide)),.move,.readable 1,.recv (some 1) 3 false,
    .readable 1,.recv (some 1) 3 false,.readable 1]

theorem reordered_delivered : Delivered [65, 66, 67, 68] 4999 (reordered.foldl step opened) ∧
    (reordered.foldl step opened).taken = [65, 66, 67, 68] ∧
    1 ∈ (reordered.foldl step opened).ready := by
  refine ⟨stream_delivered_in_order (Reach.along (fun s e => s.Orderly [65,66,67,68] e ∧ e.Enabled s)
    (fun s e h => ⟨h.1,h.2,rfl⟩) (.start ⟨opened_fresh,rfl⟩) ?_),by decide +kernel,
    by decide +kernel⟩
  refine ⟨⟨⟨2,?_⟩,?_⟩,⟨by unfold System.Orderly; decide +kernel,?_⟩,⟨⟨2,?_⟩,?_⟩,
    ⟨⟨0,?_⟩,?_⟩,⟨⟨0,?_⟩,?_⟩,⟨trivial,?_⟩,⟨trivial,?_⟩,
    ⟨by unfold System.Orderly; decide +kernel,?_⟩,⟨trivial,?_⟩,
    ⟨by unfold System.Orderly; decide +kernel,?_⟩,⟨trivial,?_⟩,trivial⟩
  all_goals decide +kernel

def System.FromStream (stream : List UInt8) (s : System) : Event → Prop
  | .data _ seg | .fin seg => ∃ p, Cut stream (s.conn.irs + 1) p seg
  | _ => True

def twoReaders : List Event :=
  [.data (fun _ => true) (carried 0 [65] false (by decide)),.readable 1,.readable 2,
    .recv (some 2) 16 false]

theorem second_reader_sees_end :
    Reach (fun s => s.Fresh ∧ s.conn.irs = 4999) (guarded (System.FromStream [65, 66]) Stepped)
      (twoReaders.foldl step opened) ∧
    (twoReaders.foldl step opened).taken = [65] ∧
    (twoReaders.foldl step opened).finTaken = false ∧
    1 ∈ (twoReaders.foldl step opened).ready ∧
    (tcpRecv 16 false (twoReaders.foldl step opened).conn).1 = [] ∧
    ¬Delivered [65, 66] 4999 (twoReaders.foldl step opened) := by
  have hrd : 1 ∈ (twoReaders.foldl step opened).ready := by decide +kernel
  have hnil : (tcpRecv 16 false (twoReaders.foldl step opened).conn).1 = [] := by decide +kernel
  have hop : (twoReaders.foldl step opened).finTaken = false := by decide +kernel
  refine ⟨?_,by decide +kernel,hop,hrd,hnil,fun h => ?_⟩
  · refine Reach.along (fun s e => s.FromStream [65,66] e ∧ e.Enabled s)
      (fun s e h => ⟨h.1,h.2,rfl⟩) (.start ⟨opened_fresh,rfl⟩) ?_
    refine ⟨⟨⟨0,?_⟩,?_⟩,⟨trivial,?_⟩,⟨trivial,?_⟩,⟨trivial,?_⟩,trivial⟩
    all_goals decide +kernel
  have hfin := (h.ended 1 hrd 16 false (by decide) hnil).1
  cases hfin

end B1nix.Tcp
