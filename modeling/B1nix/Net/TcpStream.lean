import B1nix.Basic.Splice
import B1nix.Net.TcpReceive

namespace B1nix.Tcp

open Serial Splice Transition List

def reachBack : Nat := 65536

def piece (stream : List UInt8) (base : Seq) (x : Nat × Nat) : OooSeg :=
  ⟨mark base x.1,slice stream x.1 x.2⟩

structure Lies (stream : List UInt8) (n back : Nat) (x : Nat × Nat) : Prop where
  inside : x.1 + x.2 ≤ stream.length
  size : x.2 < reachBack
  after : n < x.1 + back
  before : x.1 ≤ n + tcpRecvBufMax

def Earlier (x y : Nat × Nat) : Prop := x.1 ≤ y.1

instance : DecidableRel Earlier := fun x y => inferInstanceAs (Decidable (x.1 ≤ y.1))

instance : Std.Total Earlier := ⟨fun x y => Nat.le_total x.1 y.1⟩

instance : IsTrans (Nat × Nat) Earlier := ⟨fun _ _ _ => le_trans⟩

def Parked (stream : List UInt8) (base : Seq) (n back : Nat) (queue : List OooSeg) : Prop :=
  ∃ xs : List (Nat × Nat), queue = xs.map (piece stream base) ∧
    xs.Pairwise Earlier ∧ ∀ x ∈ xs, Lies stream n back x

structure Growing (stream held : List UInt8) (c : Conn) : Prop where
  bytes : held ++ c.recv.unread <+: stream
  nxt : c.rcvNxt = mark (c.irs + 1) (held.length + c.recv.unread.length)
  cap : c.recv.cap ≤ tcpRecvBufMax
  capMax : c.recvCapMax ≤ tcpRecvBufMax

variable {stream held : List UInt8} {base : Seq} {n back : Nat} {c : Conn} {queue : List OooSeg}

lemma Growing.append (h : Growing stream held c) (alloc : Nat → Bool) {data : List UInt8} {m : Nat}
    (hda : data = slice stream (held.length + c.recv.unread.length) m) :
    Growing stream held (tcpRecvAppend alloc data c).2 ∧
      (tcpRecvAppend alloc data c).2.recv.unread.length =
        c.recv.unread.length + (tcpRecvAppend alloc data c).1 ∧
      (tcpRecvAppend alloc data c).1 ≤ data.length := by
  obtain ⟨buf,hun,hcap,hap⟩ := tcpRecvAppend_eq alloc c data
  have hlen : buf.unread.length = c.recv.unread.length + min data.length c.recv.room := by
    rw [hun,length_append,length_take,Nat.min_comm]
  rw [hap]
  refine ⟨⟨?_,?_,?_,h.capMax⟩,hlen,min_le_left ..⟩
  · have hgr := append_take_slice h.bytes m c.recv.room
    rw [length_append,← hda] at hgr
    rw [hun,← append_assoc]
    exact hgr
  · rw [hlen,h.nxt,mark_add,add_assoc]
  refine hcap.trans (Nat.max_le.mpr ⟨h.cap,?_⟩)
  rw [tcpRecvCapMax]
  split
  · exact h.capMax
  exact le_rfl

variable {x : Nat × Nat} {xs : List (Nat × Nat)}

lemma Lies.move {back' n' : Nat} (h : Lies stream n back x) (hn : n ≤ n')
    (hba : n' < x.1 + back') : Lies stream n' back' x :=
  ⟨h.inside,h.size,hba,h.before.trans (Nat.add_le_add_right hn _)⟩

lemma Growing.requeue (h : Growing stream held c) (queue : List OooSeg) :
    Growing stream held { c with oooQueue := queue } := { h with }

lemma slice_drop (l : List UInt8) (a m k : Nat) : (slice l a m).drop k = slice l (a + k) (m - k) := by
  rw [slice,slice,drop_take,drop_drop]

structure Settled (stream held : List UInt8) (base : Seq) (c : Conn) : Prop where
  growing : Growing stream held c
  parked : Parked stream base (held.length + c.recv.unread.length) reachBack c.oooQueue

lemma Growing.settled (h : Growing stream held c) {n : Nat} (hso : (x :: xs).Pairwise Earlier)
    (hli : ∀ y ∈ x :: xs, Lies stream n back y) (hn : n ≤ held.length + c.recv.unread.length)
    (hfst : held.length + c.recv.unread.length < x.1 + reachBack) :
    Settled stream held base { c with oooQueue := (x :: xs).map (piece stream base) } := by
  refine ⟨h.requeue _,x :: xs,rfl,hso,fun y hy => (hli y hy).move hn ?_⟩
  obtain rfl | hy := mem_cons.mp hy
  · exact hfst
  exact lt_of_lt_of_le hfst
    (Nat.add_le_add_right ((pairwise_cons.mp hso).1 y hy) _)

lemma Growing.drain (h : Growing stream held c) (alloc : Nat → Bool) (hso : xs.Pairwise Earlier)
    (hli : ∀ x ∈ xs, Lies stream (held.length + c.recv.unread.length) (2 * reachBack) x) :
    Settled stream held (c.irs + 1) (tcpOooDrain alloc (xs.map (piece stream (c.irs + 1))) c) := by
  induction xs generalizing c with
  | nil => exact ⟨h.requeue [],[],rfl,List.Pairwise.nil,nofun⟩
  | cons x _ ih =>
    obtain ⟨hfst,hta⟩ := pairwise_cons.mp hso
    have hx := hli x (.head _)
    have haf := hx.after
    have hbf := hx.before
    have hsz := hx.size
    have hmax : tcpRecvBufMax = 6291456 := rfl
    have hba : reachBack = 65536 := rfl
    have hgap : gap (piece stream (c.irs + 1) x).seq c.rcvNxt =
        (x.1 : Int) - (held.length + c.recv.unread.length : Nat) := by
      rw [h.nxt]
      exact gap_mark _ (by omega) (by omega)
    have hda : (piece stream (c.irs + 1) x).data.length = x.2 := length_slice hx.inside
    rw [map_cons,tcpOooDrain]
    split
    · exact h.settled hso hli le_rfl (by omega)
    have hoff : (c.rcvNxt - (piece stream (c.irs + 1) x).seq).toNat =
        held.length + c.recv.unread.length - x.1 := by
      change (c.rcvNxt - mark _ x.1).toNat = _
      rw [h.nxt,mark_sub _ (by omega),BitVec.toNat_ofNat,Nat.mod_eq_of_lt (by omega)]
    rw [hoff]
    dsimp only
    split
    · have hrs : (piece stream (c.irs + 1) x).data.drop
          (held.length + c.recv.unread.length - x.1) =
          slice stream (held.length + c.recv.unread.length)
            (x.2 - (held.length + c.recv.unread.length - x.1)) := by
        rw [piece,slice_drop]
        congr 1
        omega
      obtain ⟨hgr,hun,hle⟩ := h.append alloc hrs
      have hirs := (congrArg Conn.irs (tcpRecvAppend_still c alloc
        ((piece stream (c.irs + 1) x).data.drop (held.length + c.recv.unread.length - x.1))) :)
      rw [length_drop] at hle
      generalize tcpRecvAppend alloc ((piece stream (c.irs + 1) x).data.drop
        (held.length + c.recv.unread.length - x.1)) c = r at hgr hun hle hirs ⊢
      split
      · exact hgr.settled hso hli (by omega) (by omega)
      rw [show c.irs = r.2.irs from hirs.symm]
      refine ih hgr hta fun y hy => ?_
      exact (hli y (.tail x hy)).move (by omega)
        (lt_of_lt_of_le (by omega) (Nat.add_le_add_right (hfst y hy) _))
    exact ih h hta fun y hy => hli y (.tail x hy)

lemma insert_pieces (h : ∀ y ∈ xs, gap (mark base y.1) (mark base x.1) < 0 ↔ ¬Earlier x y) :
    ((xs.map (piece stream base)).takeWhile fun s => gap s.seq (mark base x.1) < 0) ++
        piece stream base x ::
          (xs.map (piece stream base)).dropWhile (fun s => gap s.seq (mark base x.1) < 0) =
      (xs.orderedInsert Earlier x).map (piece stream base) := by
  induction xs with
  | nil => rfl
  | cons y _ ih =>
    have hy := h y (.head _)
    have hys := ih fun z hz => h z (.tail y hz)
    rw [map_cons,orderedInsert_cons]
    by_cases hle : Earlier x y
    · have hsp : ¬gap (piece stream base y).seq (mark base x.1) < 0 := fun hlt =>
        hy.mp hlt hle
      rw [if_pos hle,takeWhile_cons_of_neg (by simpa using hsp),
        dropWhile_cons_of_neg (by simpa using hsp)]
      rfl
    have hsk : gap (piece stream base y).seq (mark base x.1) < 0 := hy.mpr hle
    rw [if_neg hle,takeWhile_cons_of_pos (by simpa using hsk),
      dropWhile_cons_of_pos (by simpa using hsk),cons_append,hys]
    rfl

lemma Parked.insert (h : Parked stream base n reachBack queue) (hx : Lies stream n reachBack x) :
    Parked stream base n reachBack
      ((queue.takeWhile fun s => gap s.seq (piece stream base x).seq < 0) ++ piece stream base x ::
        queue.dropWhile fun s => gap s.seq (piece stream base x).seq < 0) := by
  obtain ⟨xs,rfl,hso,hli⟩ := h
  refine ⟨xs.orderedInsert Earlier x,insert_pieces fun y hy => ?_,hso.orderedInsert x xs,?_⟩
  · have hmax : tcpRecvBufMax = 6291456 := rfl
    have hba : reachBack = 65536 := rfl
    have hy := hli y hy
    have haf := hy.after
    have hbf := hy.before
    have hafter' := hx.after
    have hbefore' := hx.before
    rw [gap_mark _ (by omega) (by omega),Earlier]
    omega
  intro y hy
  obtain rfl | hy := (mem_orderedInsert Earlier).mp hy
  · exact hx
  exact hli y hy

@[mk_iff]
structure Cut (stream : List UInt8) (base : Seq) (p : Nat) (seg : Segment) : Prop where
  seq : seg.seq = mark base p
  payload : seg.payload = slice stream p seg.payload.length
  inside : p + seg.payload.length ≤ stream.length
  fin : seg.flags.fin → p + seg.payload.length = stream.length

def Near (n p : Nat) : Prop := p < n + 2 ^ 31 ∧ n < p + 2 ^ 31

structure Received (stream held : List UInt8) (fin : Bool) (c : Conn) : Prop where
  bytes : held ++ c.recv.unread <+: stream
  nxt : c.rcvNxt = mark (c.irs + 1) (held.length + c.recv.unread.length + fin.toNat)
  ended : fin → held ++ c.recv.unread = stream
  parked : Parked stream (c.irs + 1) (held.length + c.recv.unread.length) reachBack c.oooQueue
  pending : c.finPending → c.finSeq = mark (c.irs + 1) stream.length ∧
    stream.length < held.length + c.recv.unread.length + 2 ^ 32
  cap : c.recv.cap ≤ tcpRecvBufMax
  capMax : c.recvCapMax ≤ tcpRecvBufMax

structure Copied (stream : List UInt8) (base : Seq) (n : Nat) (node : OooSeg) (x : Nat × Nat) :
    Prop where
  node : node = piece stream base x
  inside : x.1 + x.2 ≤ stream.length
  size : x.2 < reachBack
  after : n < x.1
  before : x.1 ≤ n + tcpRecvBufMax

def Conn.rcvSide (c : Conn) :
    Seq × Seq × RecvBuf × List OooSeg × Bool × Seq × Nat :=
  (c.irs, c.rcvNxt, c.recv, c.oooQueue, c.finPending, c.finSeq, c.recvCapMax)

variable {fin : Bool} {c' : Conn} {seg : Segment} {p : Nat}

lemma Received.congr (h : Received stream held fin c) (hsa : c'.rcvSide = c.rcvSide) :
    Received stream held fin c' := by
  obtain ⟨hirs,hnxt,hrv,hqu,hpd,hsp,hmax⟩ := by
    simpa only [Conn.rcvSide,Prod.mk.injEq] using hsa
  refine ⟨?_,?_,?_,?_,?_,?_,?_⟩
  · rw [hrv]
    exact h.bytes
  · rw [hnxt,hirs,hrv]
    exact h.nxt
  · rw [hrv]
    exact h.ended
  · rw [hirs,hrv,hqu]
    exact h.parked
  · rw [hpd,hsp,hirs,hrv]
    exact h.pending
  · rw [hrv]
    exact h.cap
  · rw [hmax]
    exact h.capMax

lemma Received.le (h : Received stream held fin c) :
    held.length + c.recv.unread.length ≤ stream.length := by
  have := h.bytes.length_le
  rwa [length_append] at this

lemma Received.eq_length (h : Received stream held true c) :
    held.length + c.recv.unread.length = stream.length := by
  rw [← h.ended rfl,length_append]

lemma Received.growing (h : Received stream held false c) : Growing stream held c := { h with }

lemma Growing.congr (h : Growing stream held c) (hsa : c'.rcvSide = c.rcvSide) :
    Growing stream held c' := by
  obtain ⟨hirs,hnxt,hrv,-,-,-,hmax⟩ := by simpa only [Conn.rcvSide,Prod.mk.injEq] using hsa
  refine ⟨?_,?_,?_,?_⟩
  · rw [hrv]
    exact h.bytes
  · rw [hnxt,hirs,hrv]
    exact h.nxt
  · rw [hrv]
    exact h.cap
  rw [hmax]
  exact h.capMax

lemma covering_iff {base : Seq} {m l : Nat} (hnear : Near m p) (hl : l < 2 ^ 31) :
    (mark base m - mark base p).toNat < l ↔ p ≤ m ∧ m < p + l := by
  obtain ⟨hhg,hlow⟩ := hnear
  exact holds_mark (by omega) (by omega)

lemma tcpRecvAppend_ooo (alloc : Nat → Bool) (data : List UInt8) (c : Conn) :
    (tcpRecvAppend alloc data c).2.oooQueue = c.oooQueue := by
  rw [tcpRecvAppend]
  split <;> rfl

lemma Received.settled (h : Received stream held false c)
    (hset : Settled stream held (c.irs + 1) c') (hstl : c'.still = c.still)
    (hmr : c.recv.unread.length ≤ c'.recv.unread.length) : Received stream held false c' := by
  have hirs : c'.irs = c.irs := (congrArg Conn.irs hstl :)
  have hpd : c'.finPending = c.finPending := (congrArg Conn.finPending hstl :)
  have hsp : c'.finSeq = c.finSeq := (congrArg Conn.finSeq hstl :)
  refine { hset.growing with ended := nofun, parked := ?_, pending := ?_ }
  · rw [hirs]
    exact hset.parked
  rw [hpd,hsp,hirs]
  intro hp
  obtain ⟨hat,hlt⟩ := h.pending hp
  exact ⟨hat,by omega⟩

lemma Received.covered (h : Received stream held false c) (alloc : Nat → Bool)
    (hcut : Cut stream (c.irs + 1) p seg) (hsm : seg.payload ≠ []) (hflg : seg.flags.psh ∨ seg.flags.ack)
    (hcv : (c.rcvNxt - seg.seq).toNat < seg.payload.length) (hle : p ≤ held.length + c.recv.unread.length)
    (hlt : held.length + c.recv.unread.length < p + 2 ^ 31) :
    Received stream held false (dataArrived alloc seg c).1 := by
  have hsi : (noteDuplicate seg c).rcvSide = c.rcvSide := by
    obtain ⟨_,_,_,h⟩ := noteDuplicate_eq c seg
    rw [h]
    rfl
  have hrv : (noteDuplicate seg c).recv = c.recv := (congrArg (·.2.2.1) hsi :)
  have hqu : (noteDuplicate seg c).oooQueue = c.oooQueue := (congrArg (·.2.2.2.1) hsi :)
  have hirs : (noteDuplicate seg c).irs = c.irs := (congrArg (·.1) hsi :)
  have hft := seg.fits
  have halr : already seg c = held.length + c.recv.unread.length - p := by
    rw [already,h.growing.nxt,hcut.seq,mark_sub _ hle,BitVec.toNat_ofNat,Nat.mod_eq_of_lt (by omega)]
  have hda : seg.payload.drop (already seg c) =
      slice stream (held.length + (noteDuplicate seg c).recv.unread.length)
        (seg.payload.length - (held.length + c.recv.unread.length - p)) := by
    conv_lhs => rw [hcut.payload]
    rw [slice_drop,halr,hrv]
    congr 1
    omega
  obtain ⟨hgr,hmr,hbd⟩ := (h.growing.congr hsi).append alloc hda
  obtain ⟨xs,hxs,hso,hli⟩ := h.parked
  have hstl := (dataArrived_still c seg alloc)
  have hun := tcpRecvAppend_unread_le alloc (noteDuplicate seg c)
    (seg.payload.drop (already seg c))
  have hooo := tcpRecvAppend_ooo alloc (seg.payload.drop (already seg c)) (noteDuplicate seg c)
  have hbs := (congrArg Conn.irs (tcpRecvAppend_still (noteDuplicate seg c) alloc
    (seg.payload.drop (already seg c))) :)
  rw [dataArrived_covering alloc hsm hflg hcv] at hstl ⊢
  generalize tcpRecvAppend alloc (seg.payload.drop (already seg c)) (noteDuplicate seg c) = r
    at hgr hmr hbd hun hooo hbs hstl ⊢
  have hirs' : r.2.irs = c.irs := hbs.trans hirs
  rw [length_drop] at hbd
  rw [hrv] at hmr hun
  have hba : reachBack = 65536 := rfl
  have hdrn := hgr.drain alloc hso fun x hx => (hli x hx).move (by omega) (by
    have := (hli x hx).after
    omega)
  rw [hirs',← hxs,← hqu,← hooo] at hdrn
  refine h.settled hdrn hstl ?_
  exact hun.trans (tcpOooDrain_unread_le alloc ..)

lemma Received.data (h : Received stream held fin c) (alloc : Nat → Bool)
    (hcut : Cut stream (c.irs + 1) p seg) (hnear : Near (held.length + c.recv.unread.length + fin.toNat) p) :
    Received stream held fin (dataArrived alloc seg c).1 := by
  by_cases hin : seg.payload ≠ [] ∧ (seg.flags.psh ∨ seg.flags.ack) ∧
      (c.rcvNxt - seg.seq).toNat < seg.payload.length
  · obtain ⟨hsm,hflg,hcv⟩ := hin
    have hft := seg.fits
    have hins := hcut.inside
    have hwe := hcv
    rw [h.nxt,hcut.seq,covering_iff hnear (by omega)] at hwe
    cases fin with
    | true =>
      have hall := h.eq_length
      omega
    | false =>
      exact h.covered alloc hcut hsm hflg hcv hwe.1 (by omega)
  obtain ⟨pending,left,right,heq⟩ := dataArrived_elsewhere alloc hin
  rw [heq]
  exact h.congr rfl

lemma Received.copied {alloc : Nat → Bool} {node : OooSeg} (h : Received stream held fin c)
    (hcut : Cut stream (c.irs + 1) p seg) (hnear : Near (held.length + c.recv.unread.length + fin.toNat) p)
    (heq : dataArrived alloc seg c = (c', .copied node)) :
    Copied stream (c.irs + 1) (held.length + c.recv.unread.length) node (p, seg.payload.length) := by
  obtain ⟨hnd,hgap,hro⟩ := dataArrived_copied alloc heq
  obtain ⟨hhg,hlow⟩ := hnear
  have hft := seg.fits
  have hins := hcut.inside
  have hcap := h.cap
  have hle : c.recv.room ≤ c.recv.cap := tsub_le_self
  rw [h.nxt,hcut.seq,gap_mark _ (by omega) (by omega)] at hgap
  rw [h.nxt,hcut.seq,mark_sub _ (by omega),BitVec.toNat_ofNat]
    at hro
  have hop : fin.toNat = 0 := by
    cases fin with
    | true =>
      have hall := h.eq_length
      omega
    | false => rfl
  refine ⟨?_,hins,hft,?_,?_⟩
  · rw [hnd,piece,← hcut.seq,← hcut.payload]
  · omega
  omega

lemma Received.queued {node : OooSeg} {stamp : Nat} (alloc : Bool) (h : Received stream held fin c)
    (hcy : Copied stream (c.irs + 1) stamp node x) (hstp : stamp ≤ held.length + c.recv.unread.length)
    (hnear : held.length + c.recv.unread.length + fin.toNat < stamp + 2 ^ 31) :
    Received stream held fin (copyQueued alloc node c).1 := by
  rw [copyQueued]
  split
  · rename_i hok
    have hmax : tcpRecvBufMax = 6291456 := rfl
    have haf := hcy.after
    have hbf := hcy.before
    have hgap := hok.2.2
    rw [hcy.node,h.nxt] at hgap
    change 0 < gap (mark (c.irs + 1) x.1) _ at hgap
    rw [gap_mark _ (by omega) (by omega)] at hgap
    split
    · rename_i c' hisr
      have hpk := h.parked.insert
        ⟨hcy.inside,hcy.size,by omega,by omega⟩
      rw [← hcy.node] at hpk
      rw [tcpOooInsert_eq hisr]
      exact { h with parked := hpk }
    exact h.congr rfl
  exact h

lemma Cut.finAt (hcut : Cut stream base p seg) (hfin : seg.flags.fin) :
    seg.finAt = mark base stream.length := by
  rw [Segment.finAt,hcut.seq,mark_add,hcut.fin hfin]

section

variable (h : Received stream held fin c)

include h

lemma Received.noted (hcut : Cut stream (c.irs + 1) p seg)
    (hnear : Near (held.length + c.recv.unread.length + fin.toNat) p) :
    Received stream held fin (noteFin seg c) := by
  rw [noteFin]
  split
  · rename_i hfin
    have hhg := hnear.1
    have hft := seg.fits
    have hsp := hcut.fin hfin.1
    have hbit := fin.toNat_le
    refine { h with pending := fun _ => ⟨hcut.finAt hfin.1,?_⟩ }
    dsimp only
    omega
  exact h

lemma Received.reached (hnear : stream.length < held.length + c.recv.unread.length + 2 ^ 32)
    (hat : c.rcvNxt = mark (c.irs + 1) stream.length) :
    fin = false ∧ held.length + c.recv.unread.length = stream.length := by
  have hle := h.le
  have hbit := fin.toNat_le
  rw [h.nxt,mark_inj _ (by omega) (by omega)] at hat
  cases fin with
  | true =>
    have hall := h.eq_length
    rw [Bool.toNat_true] at hat
    omega
  | false => exact ⟨rfl,hat⟩

section

variable (hcut : Cut stream (c.irs + 1) p seg)
  (hnear : Near (held.length + c.recv.unread.length + fin.toNat) p)

include hcut hnear

lemma Received.finished (htk : (finArrived seg c).1 = true) :
    held.length + c.recv.unread.length = stream.length ∧ fin = false := by
  have hnt := h.noted hcut hnear
  have hhg := hnear.1
  have hft := seg.fits
  have hbit := fin.toNat_le
  obtain ⟨stop,pending,hno⟩ := noteFin_eq c seg
  rw [hno] at hnt
  rw [finArrived,hno] at htk
  split at htk
  · rename_i hwhen
    obtain ⟨hfin,hat⟩ | ⟨hpd,hat⟩ := hwhen
    · have hsp := hcut.fin hfin
      exact (h.reached (by omega) (hat.symm.trans (hcut.finAt hfin))).symm
    obtain ⟨hseq,hlt⟩ := hnt.pending hpd
    exact (h.reached hlt (hat.trans hseq)).symm
  cases htk

lemma Received.ending : Received stream held ((finArrived seg c).1 || fin) (finArrived seg c).2 := by
  have hnt := h.noted hcut hnear
  cases htk : (finArrived seg c).1 with
  | false =>
    rw [finArrived_refused htk]
    exact hnt
  | true =>
    obtain ⟨hlen,rfl⟩ := h.finished hcut hnear htk
    obtain ⟨stop,pending,hno⟩ := noteFin_eq c seg
    rw [finArrived_taken htk,hno]
    refine ⟨h.bytes,?_,fun _ => ?_,h.parked,nofun,h.cap,h.capMax⟩
    · rw [h.growing.nxt]
      exact mark_add _ _ 1
    exact h.bytes.eq_of_length (by rw [length_append,hlen])

end

lemma Received.recv (maxLen : Nat) :
    Received stream (held ++ (tcpRecv maxLen false c).1) fin (tcpRecv maxLen false c).2.1 := by
  obtain ⟨buf,closed,hun,hcap,hby,hconn⟩ := tcpRecv_eq maxLen c
  have hap : held ++ c.recv.unread.take maxLen ++ buf.unread = held ++ c.recv.unread := by
    rw [hun,append_assoc,take_append_drop]
  have hlen : (held ++ c.recv.unread.take maxLen).length + buf.unread.length =
      held.length + c.recv.unread.length := by
    rw [← length_append,hap,length_append]
  rw [hby,hconn]
  refine ⟨?_,?_,?_,?_,?_,?_,h.capMax⟩
  · exact hap ▸ h.bytes
  · exact hlen ▸ h.nxt
  · exact hap ▸ h.ended
  · exact hlen ▸ h.parked
  · exact hlen ▸ h.pending
  · exact hcap ▸ h.cap

lemma Received.returned (maxLen : Nat) (peek : Bool) : held ++ (tcpRecv maxLen peek c).1 <+: stream := by
  rw [tcpRecv_bytes]
  exact ((prefix_append_right_inj held).mpr ( take_prefix ..)).trans h.bytes

end

end B1nix.Tcp
