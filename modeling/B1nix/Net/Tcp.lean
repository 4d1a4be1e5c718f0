import B1nix.Basic.Serial
import B1nix.Basic.Transition

namespace B1nix.Tcp

open Serial (gap)

abbrev Seq := BitVec 32

def tcpRecvBufMax : Nat := 6 * 1024 * 1024

def tcpMss : Nat := 1460

def tcpLoMss : Nat := 65476

def tcpCwndMax : Nat := tcpRecvBufMax

def tcpRcvWscale : Nat := 7

def tcpSackMaxBlocks : Nat := 3

def tcpOooMaxSegs : Nat := 256

def tcpOooMaxBytes : Nat := tcpRecvBufMax

def tcpDupthresh : Nat := 3

def eagain : Int := 11

def epipe : Int := 32

def enobufs : Int := 105

inductive TcpState where
  | closed
  | listen
  | synSent
  | synReceived
  | established
  | finWait1
  | finWait2
  | closeWait
  | closing
  | lastAck
  | timeWait
  deriving DecidableEq, Repr

structure Flags where
  fin : Bool
  syn : Bool
  rst : Bool
  psh : Bool
  ack : Bool
  deriving DecidableEq

structure TcpOpts where
  mss : Nat
  wscale : Option Nat
  sackOk : Bool
  sack : List (Seq × Seq)
  deriving DecidableEq

structure Segment where
  seq : Seq
  ack : Seq
  flags : Flags
  window : Nat
  opts : TcpOpts
  payload : List UInt8
  fits : payload.length < 65536

structure RetransmitPkt where
  seq : Seq
  payload : List UInt8
  dlen : Nat
  sacked : Bool
  lost : Bool
  retransmitted : Bool
  retries : Nat
  deriving DecidableEq

structure OooSeg where
  seq : Seq
  data : List UInt8
  deriving DecidableEq

structure RecvBuf where
  data : List UInt8
  read : Nat
  cap : Nat
  read_le : read ≤ data.length
  len_le : data.length ≤ cap
  deriving DecidableEq

variable (recent ack : Seq) (queue : List RetransmitPkt) (b : RecvBuf)

def RecvBuf.unread : List UInt8 := b.data.drop b.read

def RecvBuf.compact : RecvBuf where
  data := b.data.drop b.read
  read := 0
  cap := b.cap
  read_le := Nat.zero_le _
  len_le := by
    rw [List.length_drop]
    exact le_trans (Nat.sub_le _ _) b.len_le

def RecvBuf.push (bytes : List UInt8) : RecvBuf where
  data := b.data ++ bytes.take (b.cap - b.data.length)
  read := b.read
  cap := b.cap
  read_le := by
    rw [List.length_append]
    exact Nat.le_add_right_of_le b.read_le
  len_le := by
    have := b.len_le
    rw [List.length_append,List.length_take]
    omega

variable (n : Nat)

def RecvBuf.skip : RecvBuf where
  data := b.data
  read := min (b.read + n) b.data.length
  cap := b.cap
  read_le := min_le_right _ _
  len_le := b.len_le

def RecvBuf.empty : RecvBuf := ⟨[],0,b.cap,Nat.le_refl 0,Nat.zero_le _⟩

def tcpRcvFree (cap : Nat) : Nat := cap - (b.data.length - b.read)

def tcpRecvGrow (alloc : Bool) (capMax : Nat) (b : RecvBuf) : RecvBuf :=
  if h : b.cap < capMax then
    if alloc then
      { b.compact with
        cap := min (b.cap * 2) capMax
        len_le := by
          have := b.compact.len_le
          have : b.compact.cap = b.cap := rfl
          omega }
    else b
  else b

structure Conn where
  state : TcpState
  sndUna : Seq
  sndNxt : Seq
  rcvNxt : Seq
  finSeq : Seq
  finPending : Bool
  iss : Seq
  irs : Seq
  sndWnd : Nat
  cwnd : Nat
  ssthresh : Nat
  dupAcks : Nat
  recv : RecvBuf
  recvCapMax : Nat
  wndClosed : Bool
  sndWscale : Nat
  rcvWscale : Nat
  wscaleOk : Bool
  sackOk : Bool
  sndMss : Nat
  inRecovery : Bool
  dsackPending : Bool
  recoveryPoint : Seq
  priorCwnd : Nat
  priorSsthresh : Nat
  dsackLeft : Seq
  dsackRight : Seq
  oooQueue : List OooSeg
  lo : Bool
  passive : Bool
  acceptPending : Bool
  retransmitQueue : List RetransmitPkt
  deriving DecidableEq

variable (alloc : Nat → Bool) (copy : Bool) (seg : Segment) (c : Conn)

def tcpMssLocal : Nat := if c.lo then tcpLoMss else tcpMss

def tcpMssEff : Nat :=
  if c.sndMss ≠ 0 ∧ c.sndMss < tcpMssLocal c then c.sndMss else tcpMssLocal c

def tcpRecvCapMax : Nat := if c.recvCapMax ≠ 0 then c.recvCapMax else tcpRecvBufMax

def tcpAdvWindow : Nat :=
  min (tcpRcvFree c.recv (min c.recv.cap (tcpRecvCapMax c)) >>> c.rcvWscale) 65535

def RecvBuf.fitted : RecvBuf :=
  if b.cap - b.data.length < n ∧ b.read ≠ 0 then b.compact else b

def tcpRecvAppend (data : List UInt8) (c : Conn) : Nat × Conn :=
  let buf := c.recv.fitted data.length
  let len := min data.length (buf.cap - buf.data.length)
  if len = 0 then (0, { c with recv := buf })
  else
    let buf := buf.push data
    let buf :=
      if tcpRcvFree buf buf.cap < tcpMss then
        tcpRecvGrow (alloc buf.unread.length) (tcpRecvCapMax c) buf
      else buf
    (len, { c with recv := buf, rcvNxt := c.rcvNxt + BitVec.ofNat 32 len })

def oooSegs : Nat := c.oooQueue.length

def oooBytes : Nat := (c.oooQueue.map (·.data.length)).sum

def tcpOooDrain (alloc : Nat → Bool) : List OooSeg → Conn → Conn
  | [], c => { c with oooQueue := [] }
  | s :: rest, c =>
    if 0 < gap s.seq c.rcvNxt then { c with oooQueue := s :: rest }
    else
      let off := (c.rcvNxt - s.seq).toNat
      if off < s.data.length then
        let r := tcpRecvAppend alloc (s.data.drop off) c
        if r.1 < s.data.length - off then { r.2 with oooQueue := s :: rest }
        else tcpOooDrain alloc rest r.2
      else tcpOooDrain alloc rest c

def tcpOooInsert (node : OooSeg) (c : Conn) : Option Conn :=
  if tcpOooMaxSegs ≤ oooSegs c ∨ tcpOooMaxBytes < oooBytes c + node.data.length then none
  else
    let before := c.oooQueue.takeWhile fun s => gap s.seq node.seq < 0
    let after := c.oooQueue.dropWhile fun s => gap s.seq node.seq < 0
    if ∃ s ∈ after.head?, s.seq = node.seq ∧ node.data.length ≤ s.data.length then none
    else some { c with oooQueue := before ++ node :: after }

def OooSeg.stop (s : OooSeg) : Seq := s.seq + BitVec.ofNat 32 s.data.length

def sackReach (r : Seq) : List OooSeg → Seq × List OooSeg
  | [] => (r, [])
  | s :: rest =>
    if gap s.seq r ≤ 0 then sackReach (if 0 < gap s.stop r then s.stop else r) rest
    else (r, s :: rest)

def sackRuns : Nat → List OooSeg → List (Seq × Seq)
  | 0, _ => []
  | _ + 1, [] => []
  | n + 1, s :: rest =>
    let reach := sackReach s.stop rest
    (s.seq, reach.1) :: sackRuns n reach.2

def sackPromote (blocks : List (Seq × Seq)) : List (Seq × Seq) :=
  match blocks with
  | [] => []
  | first :: rest =>
    match rest.findIdx? fun b => 0 ≤ gap recent b.1 ∧ 0 < gap b.2 recent with
    | none => first :: rest
    | some i => rest.getD i first :: first :: rest.eraseIdx i

def tcpBuildSackBlocks : List (Seq × Seq) :=
  let blocks := sackRuns (tcpSackMaxBlocks + 1) c.oooQueue
  (if recent ≠ 0 then sackPromote recent blocks else blocks).take tcpSackMaxBlocks

structure Ack where
  seq : Seq
  ack : Seq
  window : Nat
  sack : List (Seq × Seq)
  deriving DecidableEq

def tcpBuildAck (withSack : Bool) (recent : Seq) (c : Conn) : Ack × Conn :=
  let bare : Ack := ⟨c.sndNxt,c.rcvNxt,tcpAdvWindow c,[]⟩
  if withSack ∧ c.sackOk ∧ (c.oooQueue ≠ [] ∨ c.dsackPending) then
    let blocks := if c.oooQueue ≠ [] then tcpBuildSackBlocks recent c else []
    let blocks :=
      if c.dsackPending then (c.dsackLeft, c.dsackRight) :: blocks.take (tcpSackMaxBlocks - 1)
      else blocks
    ({ bare with sack := blocks },
      if blocks ≠ [] then { c with dsackPending := false } else c)
  else (bare, c)

def tcpScoreboardUpdate : List RetransmitPkt → List RetransmitPkt
  | [] => []
  | rp :: rest =>
    { rp with lost := !rp.sacked && tcpDupthresh ≤ (rest.filter (·.sacked)).length } ::
      tcpScoreboardUpdate rest

def tcpPipe : Nat :=
  ((queue.filter fun rp => !rp.sacked && (!rp.lost || rp.retransmitted)).map (·.dlen)).sum % 2 ^ 32

def tcpEnterRecovery : Conn :=
  if c.inRecovery then c
  else
    let ssthresh := max (c.cwnd / 2) (2 * tcpMssLocal c)
    { c with
      priorCwnd := c.cwnd
      priorSsthresh := c.ssthresh
      ssthresh := ssthresh
      cwnd := ssthresh
      inRecovery := true
      recoveryPoint := c.sndNxt }

def tcpUndoRecovery : Conn :=
  { c with
    cwnd := max c.cwnd c.priorCwnd
    ssthresh := max c.ssthresh c.priorSsthresh
    inRecovery := false
    dupAcks := 0
    retransmitQueue := c.retransmitQueue.map fun rp => { rp with lost := false } }

def tcpNextRetransmit : Option Nat :=
  if ∃ rp ∈ queue.head?, !rp.sacked ∧ !rp.retransmitted then some 0
  else
    match queue.findIdx? fun rp => !rp.sacked && rp.lost && !rp.retransmitted with
    | some i => some i
    | none => queue.findIdx? fun rp => !rp.sacked

def RetransmitPkt.SackedBy (b : Seq × Seq) (rp : RetransmitPkt) : Prop :=
  rp.sacked = false ∧ rp.dlen ≠ 0 ∧ 0 ≤ gap rp.seq b.1 ∧
    0 ≤ gap b.2 (rp.seq + BitVec.ofNat 32 rp.dlen)

instance (b : Seq × Seq) : DecidablePred (RetransmitPkt.SackedBy b) :=
  fun _ => inferInstanceAs (Decidable (_ ∧ _))

def sackMark (b : Seq × Seq) (queue : List RetransmitPkt) : List RetransmitPkt :=
  queue.map fun rp => if rp.SackedBy b then { rp with sacked := true } else rp

def sackBlocks (cumAck : Seq) : Bool → List (Seq × Seq) → Bool × Conn → Bool × Conn
  | _, [], r => r
  | first, b :: rest, (marked, c) =>
    if gap b.2 b.1 ≤ 0 then sackBlocks cumAck false rest (marked, c)
    else if first ∧ gap b.2 cumAck ≤ 0 then
      sackBlocks cumAck false rest (marked, tcpUndoRecovery c)
    else
      sackBlocks cumAck false rest
        (marked || c.retransmitQueue.any fun rp => rp.SackedBy b,
          { c with retransmitQueue := sackMark b c.retransmitQueue })

def tcpApplySack (blocks : List (Seq × Seq)) (cumAck : Seq) (c : Conn) : Conn :=
  let r := sackBlocks cumAck true blocks (false, c)
  if r.1 then { r.2 with retransmitQueue := tcpScoreboardUpdate r.2.retransmitQueue } else r.2

def segmentSack : Conn :=
  if c.sackOk ∧ seg.opts.sack ≠ [] then tcpApplySack seg.opts.sack seg.ack c else c

def resend (rp : RetransmitPkt) : RetransmitPkt :=
  { rp with retries := rp.retries + 1, retransmitted := true }

def detectLoss : Conn :=
  if tcpDupthresh ≤ c.dupAcks ∨ c.retransmitQueue.any fun rp => rp.lost && !rp.retransmitted then
    tcpEnterRecovery c
  else c

def resendHole : Conn × Option RetransmitPkt :=
  if c.inRecovery ∧ tcpPipe c.retransmitQueue < c.cwnd then
    match tcpNextRetransmit c.retransmitQueue with
    | none => (c, none)
    | some i =>
      ({ c with retransmitQueue := c.retransmitQueue.modify i resend }, c.retransmitQueue[i]?)
  else (c, none)

def duplicateAck : Conn × Option RetransmitPkt :=
  resendHole (detectLoss (segmentSack seg { c with dupAcks := c.dupAcks + 1 }))

def leaveRecovery : Conn :=
  if c.inRecovery ∧ 0 ≤ gap ack c.recoveryPoint then
    { c with inRecovery := false, cwnd := c.ssthresh }
  else c

def growWindow : Nat :=
  if c.inRecovery then c.cwnd
  else if c.cwnd < c.ssthresh then c.cwnd + tcpMssLocal c
  else c.cwnd + max (tcpMssLocal c * tcpMssLocal c / (if c.cwnd ≠ 0 then c.cwnd else 1)) 1

def cumulativeAck : Conn :=
  let c := leaveRecovery seg.ack (segmentSack seg { c with dupAcks := 0 })
  { c with cwnd := min (growWindow c) tcpCwndMax }

def ackArrived : Conn × Option RetransmitPkt :=
  let c := { c with sndWnd := if seg.flags.syn then seg.window else seg.window <<< c.sndWscale }
  if seg.ack = c.sndUna ∧ seg.payload = [] then duplicateAck seg c
  else if c.sndUna < seg.ack then (cumulativeAck seg c, none)
  else (c, none)

def dropAcked : List RetransmitPkt := queue.dropWhile fun rp => 0 < (ack - rp.seq).toNat

def ackTaken : Conn :=
  if c.sndUna < ack ∨ ack = c.sndUna then
    { c with sndUna := ack, retransmitQueue := dropAcked ack c.retransmitQueue }
  else c

inductive Fate where
  | ignored
  | answered
  | copied (node : OooSeg)

def Segment.Behind : Prop := 0 < gap c.rcvNxt seg.seq

instance (seg : Segment) (c : Conn) : Decidable (seg.Behind c) :=
  inferInstanceAs (Decidable (0 < gap c.rcvNxt seg.seq))

def already : Nat := (c.rcvNxt - seg.seq).toNat

def noteDuplicate : Conn :=
  if seg.Behind c then
    { c with
      dsackPending := true
      dsackLeft := seg.seq
      dsackRight :=
        if seg.payload.length ≤ already seg c then
          seg.seq + BitVec.ofNat 32 seg.payload.length
        else c.rcvNxt }
  else c

def trimmed : OooSeg :=
  if seg.Behind c then ⟨seg.seq + (c.rcvNxt - seg.seq),seg.payload.drop (already seg c)⟩
  else ⟨seg.seq,seg.payload⟩

def placeData (node : OooSeg) (c : Conn) : Conn × Fate :=
  if node.seq = c.rcvNxt then
    let c := (tcpRecvAppend alloc node.data c).2
    (tcpOooDrain alloc c.oooQueue c, .answered)
  else if 0 < gap node.seq c.rcvNxt then
    if (node.seq - c.rcvNxt).toNat + node.data.length ≤ tcpRcvFree c.recv c.recv.cap ∧
        oooSegs c < tcpOooMaxSegs ∧ oooBytes c + node.data.length ≤ tcpOooMaxBytes then
      (c, .copied node)
    else (c, .answered)
  else (c, .ignored)

def dataArrived : Conn × Fate :=
  if seg.payload = [] ∨ ¬(seg.flags.psh ∨ seg.flags.ack) then (c, .ignored)
  else if seg.Behind c ∧ seg.payload.length ≤ already seg c then (noteDuplicate seg c, .answered)
  else placeData alloc (trimmed seg c) (noteDuplicate seg c)

def copyQueued (alloc : Bool) (node : OooSeg) (c : Conn) : Conn × Seq :=
  if alloc ∧ c.state = .established ∧ 0 < gap node.seq c.rcvNxt then
    match tcpOooInsert node c with
    | some c => (c, node.seq)
    | none =>
      ({ c with dsackPending := true, dsackLeft := node.seq, dsackRight := node.stop }, 0)
  else (c, 0)

def answer : Ack × Conn :=
  let r := tcpBuildAck true recent c
  (r.1, if tcpRcvFree r.2.recv r.2.recv.cap < tcpMss then { r.2 with wndClosed := true } else r.2)

def Segment.finAt : Seq := seg.seq + BitVec.ofNat 32 seg.payload.length

def noteFin : Conn :=
  if seg.flags.fin ∧ seg.finAt ≠ c.rcvNxt then
    { c with finSeq := seg.finAt, finPending := true }
  else c

def finArrived : Bool × Conn :=
  let noted := noteFin seg c
  if (seg.flags.fin ∧ seg.finAt = c.rcvNxt) ∨ (noted.finPending ∧ noted.rcvNxt = noted.finSeq) then
    (true, { noted with finPending := false, rcvNxt := noted.rcvNxt + 1 })
  else (false, noted)

def finMoved : Conn :=
  match c.state with
  | .established => { c with state := .closeWait }
  | .finWait1 | .finWait2 => { c with state := .timeWait }
  | _ => c

inductive Emitted where
  | resent (rp : RetransmitPkt)
  | acked (a : Ack)

def dataSection : Conn × List Emitted :=
  match dataArrived alloc seg c with
  | (c, .ignored) => (c, [])
  | (c, .answered) => ((answer 0 c).2, [.acked (answer 0 c).1])
  | (c, .copied node) =>
    let r := copyQueued copy node c
    ((answer r.2 r.1).2, [.acked (answer r.2 r.1).1])

def finSection : Conn × List Emitted :=
  match finArrived seg c with
  | (true, c) => (finMoved c, [.acked ⟨c.sndNxt,c.rcvNxt,0,[]⟩])
  | (false, c) => (c, [])

def rstSection : Conn :=
  if seg.flags.rst then { c with state := .closed } else c

def acked : Conn := if seg.flags.ack then ackTaken seg.ack c else c

def openInput : Conn × List Emitted :=
  let data := dataSection alloc copy seg (acked seg c)
  let fin := finSection seg data.1
  (rstSection seg fin.1, data.2 ++ fin.2)

def synReceivedInput : Conn :=
  if seg.flags.ack ∧ seg.ack = c.sndNxt + 1 then
    { c with
      sndUna := seg.ack
      sndNxt := seg.ack
      state := .established
      acceptPending := c.acceptPending || c.passive
      retransmitQueue := dropAcked seg.ack c.retransmitQueue }
  else c

def synSentInput : Conn × List Emitted :=
  if seg.flags.syn ∧ seg.flags.ack then
    if seg.ack = c.sndNxt + 1 ∨ seg.ack = c.sndUna + 1 ∨ c.iss ≤ seg.ack then
      let c :=
        { c with
          irs := seg.seq
          rcvNxt := seg.seq + 1
          sndUna := seg.ack
          sndNxt := seg.ack
          sndMss := if seg.opts.mss ≠ 0 then seg.opts.mss else 536
          sackOk := seg.opts.sackOk
          wscaleOk := seg.opts.wscale.isSome
          sndWscale := seg.opts.wscale.getD 0
          rcvWscale := if seg.opts.wscale.isSome then tcpRcvWscale else 0 }
      ({ c with
          state := .established
          retransmitQueue := dropAcked seg.ack c.retransmitQueue },
        [.acked ⟨c.sndNxt,c.rcvNxt,tcpAdvWindow c,[]⟩])
    else (c, [])
  else if seg.flags.rst then ({ c with state := .closed }, [])
  else (c, [])

def stateInput : Conn × List Emitted :=
  match c.state with
  | .synReceived => (synReceivedInput seg c, [])
  | .synSent => synSentInput seg c
  | .established | .finWait1 | .finWait2 => openInput alloc copy seg c
  | .closeWait => (if seg.flags.ack then { c with sndUna := seg.ack } else c, [])
  | .lastAck => (if seg.flags.ack then { c with state := .closed } else c, [])
  | .timeWait | .closed | .listen | .closing => (c, [])

def tcpInput : Conn × List Emitted :=
  let first := if seg.flags.ack then ackArrived seg c else (c, none)
  let rest := stateInput alloc copy seg first.1
  (rest.1, first.2.toList.map .resent ++ rest.2)

structure SendArgs where
  bytes : List UInt8
  alloc : Bool
  room : Nat
  lost : Bool
  retransmitted : Bool

def inflight : Nat :=
  if c.inRecovery then tcpPipe c.retransmitQueue else (c.sndNxt - c.sndUna).toNat

def sendSize (a : SendArgs) (c : Conn) : Nat :=
  let usable := min c.sndWnd c.cwnd - inflight c
  let usable := if c.lo then min usable a.room else usable
  min (min (min a.bytes.length (tcpMssEff c)) usable) (min a.bytes.length (tcpMssLocal c))

def tcpSend (a : SendArgs) (c : Conn) : Int × Conn :=
  if a.bytes = [] then (0, c)
  else if !a.alloc then (-enobufs, c)
  else if c.state ≠ .established then (-epipe, c)
  else if min c.sndWnd c.cwnd ≤ inflight c then (-eagain, c)
  else if c.lo ∧ a.room = 0 then (-eagain, c)
  else
    let toSend := sendSize a c
    if toSend = 0 then (0, c)
    else
      (toSend, { c with
        sndNxt := c.sndNxt + BitVec.ofNat 32 toSend
        retransmitQueue := c.retransmitQueue ++
          [⟨c.sndNxt,a.bytes.take toSend,toSend,false,a.lost,a.retransmitted,0⟩] })

def readBytes : RecvBuf :=
  let buf := c.recv.skip n
  if buf.data.length ≤ buf.read then buf.empty
  else if buf.cap / 2 < buf.read then buf.compact
  else buf

def tcpRecv (maxLen : Nat) (peek : Bool) (c : Conn) : List UInt8 × Conn × Option Ack :=
  if c.recv.unread = [] then ([], c, none)
  else
    let bytes := c.recv.unread.take maxLen
    if peek then (bytes, c, none)
    else
      let c := { c with recv := readBytes bytes.length c }
      if c.wndClosed ∧ tcpMss ≤ tcpRcvFree c.recv c.recv.cap then
        (bytes, { c with wndClosed := false }, some ⟨c.sndNxt,c.rcvNxt,tcpAdvWindow c,[]⟩)
      else (bytes, c, none)

def TcpState.Ended (s : TcpState) : Prop :=
  s = .closeWait ∨ s = .closed ∨ s = .timeWait ∨ s = .lastAck ∨ s = .closing

instance (s : TcpState) : Decidable s.Ended := inferInstanceAs (Decidable (_ ∨ _))

def tcpIsReadable : Prop := c.recv.unread ≠ [] ∨ c.state.Ended

instance (c : Conn) : Decidable (tcpIsReadable c) := inferInstanceAs (Decidable (_ ∨ _))

structure System where
  conn : Conn
  copies : List (OooSeg × Nat)
  moving : Nat
  ready : Finset Nat
  sent : List UInt8
  taken : List UInt8
  finTaken : Bool

inductive Event where
  | send (a : SendArgs)
  | ackArrived (seg : Segment)
  | ackTaken (seg : Segment)
  | data (alloc : Nat → Bool) (seg : Segment)
  | queue (alloc : Bool) (i : Nat)
  | fin (seg : Segment)
  | move
  | readable (r : Nat)
  | recv (r : Option Nat) (maxLen : Nat) (peek : Bool)

variable (s : System)

def System.got : Nat := s.taken.length + s.conn.recv.unread.length

def Event.Enabled : Event → Prop
  | .ackArrived seg | .ackTaken seg => seg.flags.ack
  | .queue _ i => i < s.copies.length
  | .move => 0 < s.moving
  | .recv (some r) _ _ => r ∈ s.ready
  | _ => True

def dataStep : Conn × Fate → System
  | (c, .ignored) => { s with conn := c }
  | (c, .answered) => { s with conn := (answer 0 c).2 }
  | (c, .copied node) => { s with conn := c, copies := s.copies ++ [(node, s.got)] }

def queueStep (alloc : Bool) (i : Nat) : System :=
  match s.copies[i]? with
  | none => s
  | some (node, _) =>
    let r := copyQueued alloc node s.conn
    { s with conn := (answer r.2 r.1).2, copies := s.copies.eraseIdx i }

def finStep : Bool × Conn → System
  | (true, c) => { s with conn := c, moving := s.moving + 1, finTaken := true }
  | (false, c) => { s with conn := c }

def recvStep (r : Option Nat) (maxLen : Nat) (peek : Bool) : System :=
  let out := tcpRecv maxLen peek s.conn
  { s with
    conn := out.2.1
    ready := r.elim s.ready s.ready.erase
    taken := if peek then s.taken else s.taken ++ out.1 }

def step : Event → System
  | .send a =>
    let out := tcpSend a s.conn
    { s with conn := out.2, sent := s.sent ++ a.bytes.take out.1.toNat }
  | .ackArrived seg => { s with conn := (ackArrived seg s.conn).1 }
  | .ackTaken seg => { s with conn := ackTaken seg.ack s.conn }
  | .data alloc seg => dataStep s (dataArrived alloc seg s.conn)
  | .queue alloc i => queueStep s alloc i
  | .fin seg => finStep s (finArrived seg s.conn)
  | .move => { s with conn := finMoved s.conn, moving := s.moving - 1 }
  | .readable r => if tcpIsReadable s.conn then { s with ready := insert r s.ready } else s
  | .recv r maxLen peek => recvStep s r maxLen peek

def Stepped (e : Event) (s' : System) : Prop := e.Enabled s ∧ s' = step s e

structure System.Fresh (s : System) : Prop where
  state : s.conn.state = .established
  una : s.conn.sndUna = s.conn.sndNxt
  nxt : s.conn.rcvNxt = s.conn.irs + 1
  fin : s.conn.finPending = false
  queue : s.conn.retransmitQueue = []
  ooo : s.conn.oooQueue = []
  buffer : s.conn.recv.data = []
  recvCap : s.conn.recv.cap ≤ tcpRecvBufMax
  recvCapMax : s.conn.recvCapMax ≤ tcpRecvBufMax
  cwnd : s.conn.cwnd ≤ tcpCwndMax
  ssthresh : s.conn.ssthresh ≤ tcpCwndMax
  priorCwnd : s.conn.priorCwnd ≤ tcpCwndMax
  priorSsthresh : s.conn.priorSsthresh ≤ tcpCwndMax
  copies : s.copies = []
  moving : s.moving = 0
  ready : s.ready = ∅
  sent : s.sent = []
  taken : s.taken = []
  finTaken : s.finTaken = false

instance (s : System) (e : Event) : Decidable (e.Enabled s) := by
  unfold Event.Enabled
  split <;> infer_instance

def opened : System where
  conn :=
    { state := .established
      sndUna := 1000
      sndNxt := 1000
      rcvNxt := 5000
      finSeq := 0
      finPending := false
      iss := 999
      irs := 4999
      sndWnd := 65535
      cwnd := 14600
      ssthresh := tcpCwndMax
      dupAcks := 0
      recv := ⟨[],0,65536,by decide,Nat.zero_le _⟩
      recvCapMax := 0
      wndClosed := false
      sndWscale := 7
      rcvWscale := 7
      wscaleOk := true
      sackOk := true
      sndMss := 1460
      inRecovery := false
      dsackPending := false
      recoveryPoint := 0
      priorCwnd := 0
      priorSsthresh := 0
      dsackLeft := 0
      dsackRight := 0
      oooQueue := []
      lo := false
      passive := false
      acceptPending := false
      retransmitQueue := [] }
  copies := []
  moving := 0
  ready := ∅
  sent := []
  taken := []
  finTaken := false

lemma opened_fresh : opened.Fresh := by
  constructor <;> decide

def bareAck : Segment where
  seq := 5000
  ack := ack
  flags := ⟨false,false,false,false,true⟩
  window := 512
  opts := ⟨0,none,false,[]⟩
  payload := []
  fits := by decide

def written (bytes : List UInt8) : Event := .send ⟨bytes,true,0,false,false⟩

end B1nix.Tcp
