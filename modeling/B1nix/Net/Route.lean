import B1nix.Basic.Slots
import B1nix.Basic.Transition

namespace B1nix.Route

open B1nix.Slots Bool Option

def routeMaxEntries : Nat := 64

def route6MaxEntries : Nat := 64

def routeMaxRules : Nat := 16

def rtTableMain : UInt32 := 254

def rtRulePrioMain : UInt32 := 32766

def rtfUp : UInt16 := 1

def rtfGateway : UInt16 := 2

def rtfHost : UInt16 := 4

structure Ipv4Addr where
  a : UInt8
  b : UInt8
  c : UInt8
  d : UInt8
deriving DecidableEq

def routeIpv4ToHost (x : Ipv4Addr) : UInt32 :=
  x.a.toUInt32 <<< 24 ||| x.b.toUInt32 <<< 16 ||| x.c.toUInt32 <<< 8 ||| x.d.toUInt32

def routeHostToIpv4 (v : UInt32) : Ipv4Addr :=
  ⟨(v >>> 24).toUInt8,(v >>> 16).toUInt8,(v >>> 8).toUInt8,v.toUInt8⟩

abbrev In6Addr := Fin 16 → UInt8

structure RouteEntry where
  used : Bool
  dst : UInt32
  mask : UInt32
  gateway : UInt32
  flags : UInt16
  metric : UInt16
  oif : Int
  table : UInt32
  isDynamic : Bool
  ns : UInt32

def RouteEntry.blank : RouteEntry := ⟨false,0,0,0,0,0,0,0,false,0⟩

structure Route6Entry where
  used : Bool
  dst : In6Addr
  gateway : In6Addr
  plen : UInt8
  flags : UInt16
  metric : UInt16
  oif : Int
  table : UInt32
  isDynamic : Bool
  ns : UInt32

def Route6Entry.blank : Route6Entry :=
  ⟨false,fun _ => 0,fun _ => 0,0,0,0,0,0,false,0⟩

structure RouteRule where
  used : Bool
  family : UInt8
  prio : UInt32
  src : UInt32
  srcMask : UInt32
  src6 : In6Addr
  src6Plen : UInt8
  iif : Int
  table : UInt32

def RouteRule.blank : RouteRule := ⟨false,0,0,0,0,fun _ => 0,0,0,0⟩

structure Fib where
  routes : List RouteEntry
  routes6 : List Route6Entry
  rules : List RouteRule

variable (ns dst mask gw table : UInt32) (s : Fib)

def maskBits : Int := (List.range 32).countP fun i => mask &&& (1 <<< UInt32.ofNat i) != 0

def routeHash32 (v : UInt32) : UInt32 :=
  let v := v ^^^ (v >>> 16)
  let v := v * 0x7FEB352D
  let v := v ^^^ (v >>> 15)
  let v := v * 0x846CA68B
  v ^^^ (v >>> 16)

def RouteEntry.answers (oif : Int) (table : UInt32) (matchGw : Bool) (e : RouteEntry) : Bool :=
  e.used && e.ns == ns && e.table == table && e.dst == dst &&& mask && e.mask == mask &&
    !(matchGw && (e.gateway != gw || e.oif != oif))

def routeFindLocked (ns dst mask gw : UInt32) (oif : Int) (table : UInt32) (matchGw : Bool) : Option Nat :=
  s.routes.findIdx? (RouteEntry.answers ns dst mask gw oif table matchGw)

def RouteEntry.make (flags metric : UInt16) (oif : Int) (table : UInt32) (isDynamic : Bool) : RouteEntry :=
  let flags := flags ||| rtfUp
  let flags := if gw ≠ 0 then flags ||| rtfGateway else flags
  let flags := if mask = 0xFFFFFFFF then flags ||| rtfHost else flags
  ⟨true,dst,mask,gw,flags,metric,oif,table,isDynamic,ns⟩

def routeAddLocked (flags metric : UInt16) (oif : Int) (table : UInt32) (isDynamic : Bool) (s : Fib) : Int × Fib :=
  let dst := dst &&& mask
  match spot (RouteEntry.answers ns dst mask gw oif table true) (fun e => !e.used) s.routes with
  | none => (-1, s)
  | some i =>
    (0, { s with
      routes := s.routes.set i (.make ns dst mask gw flags metric oif table isDynamic) })

def routeAddTable (flags metric : UInt16) (oif : Int) (table : UInt32) (s : Fib) : Int × Fib :=
  routeAddLocked ns dst mask gw flags metric oif table false s

def RouteEntry.through (e : RouteEntry) : Bool :=
  e.used && e.ns == ns && e.table == table && e.mask == mask && e.dst == dst &&& mask &&
    e.gateway == gw

def routeDelTable : Int × Fib :=
  let named := if gw ≠ 0 then s.routes.findIdx? (RouteEntry.through ns dst mask gw table) else none
  match named.or (routeFindLocked s ns dst mask 0 0 table false) with
  | none => (-1, s)
  | some i => (0, { s with routes := s.routes.set i .blank })

def routeFlushDynamic : Fib :=
  { s with routes := wipe (fun e => e.used && e.ns == ns && e.isDynamic) .blank s.routes }

def routeFlushAll : Fib := { s with routes := wipe (fun e => e.used && e.ns == ns) .blank s.routes }

def routeFlushNs : Fib :=
  { s with
    routes := wipe (fun e => e.used && e.ns == ns) .blank s.routes
    routes6 := wipe (fun e => e.used && e.ns == ns) .blank s.routes6 }

def classMask (ip : Ipv4Addr) : UInt32 :=
  if ip.a < 128 then 0xFF000000 else if ip.a < 192 then 0xFFFF0000 else 0xFFFFFF00

def routeAddExtra (ip : UInt32) (oif : Int) (s : Fib) (x : Ipv4Addr × Ipv4Addr) : Fib :=
  let eIp := routeIpv4ToHost x.1
  let eMask := routeIpv4ToHost x.2
  if eIp = ip ∨ eMask = 0 then s
  else (routeAddLocked ns (eIp &&& eMask) eMask 0 rtfUp 0 oif rtTableMain true s).2

def routeConfigureInterface (ip mask gw : Ipv4Addr) (oif : Int) (extra : List (Ipv4Addr × Ipv4Addr))
    (s : Fib) : Fib :=
  let hIp := routeIpv4ToHost ip
  let hMask := if routeIpv4ToHost mask = 0 ∧ hIp ≠ 0 then classMask ip else routeIpv4ToHost mask
  let hGw := routeIpv4ToHost gw
  let s := routeFlushDynamic ns s
  let s := if hIp ≠ 0 then
    (routeAddLocked ns (hIp &&& hMask) hMask 0 rtfUp 0 oif rtTableMain true s).2 else s
  let s := extra.foldl (routeAddExtra ns hIp oif) s
  if hGw ≠ 0 then
    (routeAddLocked ns 0 0 hGw (rtfUp ||| rtfGateway) 0 oif rtTableMain true s).2 else s

def RouteEntry.carries (d : UInt32) (e : RouteEntry) : Bool :=
  e.used && e.ns == ns && e.table == table && e.flags &&& rtfUp != 0 && d &&& e.mask == e.dst

structure Best where
  width : Int
  metric : UInt16
  count : UInt32

def Best.start : Best := ⟨-1,0,0⟩

variable (s : Fib) (ns table : UInt32) (dst : In6Addr) (family plen : UInt8) (prio : UInt32)
  (gw : In6Addr)

def Best.meet (best : Best) (width : Int) (metric : UInt16) : Best :=
  if best.width < width ∨ width = best.width ∧ metric < best.metric then ⟨width,metric,1⟩
  else if width = best.width ∧ metric = best.metric then { best with count := best.count + 1 }
  else best

def nth {α : Type} (fits : α → Bool) (pick : UInt32) : UInt32 → List α → Option α
  | _, [] => none
  | seen, e :: es =>
    if !fits e then nth fits pick seen es
    else if seen ≠ pick then nth fits pick (seen + 1) es
    else some e

def routeLookupTableLocked (d flow : UInt32) (dst : Ipv4Addr) : Option (Ipv4Addr × UInt16 × Int) :=
  let best := s.routes.foldl (fun best e =>
    if e.carries ns table d then best.meet (maskBits e.mask) e.metric else best) Best.start
  if best.count = 0 then none
  else
    let pick := if best.count = 1 then 0 else
      routeHash32 (if flow ≠ 0 then flow else d) % best.count
    (nth (fun e : RouteEntry => e.carries ns table d && maskBits e.mask == best.width &&
        e.metric == best.metric) pick 0 s.routes).map fun e =>
      (if e.gateway ≠ 0 then routeHostToIpv4 e.gateway else dst, e.flags, e.oif)

def ruleMatchesV4 (src : UInt32) (iif : Int) (r : RouteRule) : Bool :=
  if r.iif ≠ 0 ∧ iif ≠ 0 ∧ r.iif ≠ iif then false
  else if r.srcMask ≠ 0 ∧ src &&& r.srcMask ≠ r.src then false
  else true

def nextRule (last : Option UInt32) (rules : List RouteRule) : Option RouteRule :=
  rules.foldl (fun best r =>
    if !r.used || r.family != family then best
    else if last.any (fun prio => decide (r.prio ≤ prio)) then best
    else
      match best with
      | none => some r
      | some b => if r.prio < b.prio then some r else best) none

def ruleWalk {β : Type} (family : UInt8) (fits : RouteRule → Bool) (look : UInt32 → Option β)
    (rules : List RouteRule) : Nat → Option UInt32 → Option (Option β)
  | 0, _ => none
  | fuel + 1, last =>
    match nextRule family last rules with
    | none => some none
    | some r =>
      if !fits r then ruleWalk family fits look rules fuel (some r.prio)
      else
        match look r.table with
        | some x => some (some x)
        | none => ruleWalk family fits look rules fuel (some r.prio)

def routeLookupEx (src dst : Ipv4Addr) (flow : UInt32) (iif : Int) :
    Option (Option (Ipv4Addr × UInt16 × Int)) :=
  ruleWalk 4 (ruleMatchesV4 (routeIpv4ToHost src) iif)
    (fun table => routeLookupTableLocked s ns table (routeIpv4ToHost dst) flow dst) s.rules
    (s.rules.length + 1) none

def partialMask : UInt8 := 0xFF <<< (8 - plen % 8)

def clampPlen : UInt8 := if 128 < plen then 128 else plen

def in6PrefixEq (a b : In6Addr) (plen : UInt8) : Bool :=
  let plen := clampPlen plen
  decide (∀ i : Fin 16, i.val < plen.toNat / 8 → a i = b i) &&
    decide (plen % 8 ≠ 0 → ∀ i : Fin 16, i.val = plen.toNat / 8 →
      a i &&& partialMask plen = b i &&& partialMask plen)

def in6ApplyPrefix (addr : In6Addr) (plen : UInt8) : In6Addr :=
  let plen := clampPlen plen
  fun i =>
    if i.val < plen.toNat / 8 then addr i
    else if plen % 8 ≠ 0 ∧ i.val = plen.toNat / 8 then addr i &&& partialMask plen
    else 0

def in6IsZeroBytes (a : In6Addr) : Bool := decide (∀ i, a i = 0)

def Route6Entry.answers (oif : Int) (table : UInt32) (matchGw : Bool) (e : Route6Entry) : Bool :=
  e.used && e.ns == ns && e.table == table && e.plen == plen &&
    decide (e.dst = in6ApplyPrefix dst plen) &&
    !(matchGw && (decide (e.gateway ≠ gw) || e.oif != oif))

def route6FindLocked (oif : Int) (table : UInt32) (matchGw : Bool) : Option Nat :=
  s.routes6.findIdx? (Route6Entry.answers ns dst plen gw oif table matchGw)

def Route6Entry.make (flags metric : UInt16) (oif : Int) (table : UInt32) (isDynamic : Bool) : Route6Entry :=
  let flags := flags ||| rtfUp
  let flags := if !in6IsZeroBytes gw then flags ||| rtfGateway else flags
  let flags := if clampPlen plen = 128 then flags ||| rtfHost else flags
  ⟨true,in6ApplyPrefix dst plen,gw,clampPlen plen,flags,metric,oif,table,isDynamic,ns⟩

def route6AddLocked (flags metric : UInt16) (oif : Int) (table : UInt32) (isDynamic : Bool)
    (s : Fib) : Int × Fib :=
  match spot (Route6Entry.answers ns dst plen gw oif table true) (fun e => !e.used) s.routes6 with
  | none => (-1, s)
  | some i =>
    (0, { s with
      routes6 := s.routes6.set i (.make ns dst plen gw flags metric oif table isDynamic) })

def route6AddTable (flags metric : UInt16) (oif : Int) (table : UInt32) (s : Fib) : Int × Fib :=
  route6AddLocked ns dst plen gw flags metric oif table false s

def Route6Entry.through (table : UInt32) (e : Route6Entry) : Bool :=
  e.used && e.ns == ns && e.table == table && e.plen == plen &&
    decide (e.dst = in6ApplyPrefix dst plen) && decide (e.gateway = gw)

def route6DelTable (table : UInt32) (s : Fib) : Int × Fib :=
  let named := if !in6IsZeroBytes gw then
    s.routes6.findIdx? (Route6Entry.through ns dst plen gw table) else none
  match named.or (route6FindLocked s ns dst plen (fun _ => 0) 0 table false) with
  | none => (-1, s)
  | some i => (0, { s with routes6 := s.routes6.set i .blank })

def route6FlushDynamic (s : Fib) : Fib :=
  { s with routes6 := wipe (fun e => e.used && e.isDynamic && e.ns == ns) .blank s.routes6 }

def route6FlushAll : Fib := { s with routes6 := wipe (fun _ => true) .blank s.routes6 }

def route6ConfigureInterface (net : In6Addr) (plen : UInt8) (router : In6Addr) (oif : Int) (s : Fib) : Fib :=
  let s := route6FlushDynamic ns s
  let s := if !in6IsZeroBytes net then
    (route6AddLocked ns net plen (fun _ => 0) rtfUp 0 oif rtTableMain true s).2 else s
  if !in6IsZeroBytes router then
    (route6AddLocked ns (fun _ => 0) 0 router (rtfUp ||| rtfGateway) 0 oif rtTableMain true s).2
  else s

def Route6Entry.carries (e : Route6Entry) : Bool :=
  e.used && e.ns == ns && e.table == table && e.flags &&& rtfUp != 0 && in6PrefixEq e.dst dst e.plen

def lastWord : UInt32 :=
  (dst 12).toUInt32 <<< 24 ||| (dst 13).toUInt32 <<< 16 ||| (dst 14).toUInt32 <<< 8 |||
    (dst 15).toUInt32

def route6LookupTableLocked (flow : UInt32) : Option (In6Addr × UInt16 × Int) :=
  let best := s.routes6.foldl (fun best e =>
    if e.carries ns table dst then best.meet e.plen.toNat e.metric else best) Best.start
  if best.count = 0 then none
  else
    let pick := if best.count = 1 then 0 else
      routeHash32 (if flow ≠ 0 then flow else lastWord dst) % best.count
    (nth (fun e : Route6Entry => e.carries ns table dst && decide ((e.plen.toNat : Int) = best.width) &&
        e.metric == best.metric) pick 0 s.routes6).map fun e =>
      (if in6IsZeroBytes e.gateway then dst else e.gateway, e.flags, e.oif)

def ruleMatchesV6 (src : In6Addr) (iif : Int) (r : RouteRule) : Bool :=
  if r.iif ≠ 0 ∧ iif ≠ 0 ∧ r.iif ≠ iif then false
  else if r.src6Plen ≠ 0 ∧ !in6PrefixEq r.src6 src r.src6Plen then false
  else true

def route6LookupEx (src dst : In6Addr) (flow : UInt32) (iif : Int) :
    Option (Option (In6Addr × UInt16 × Int)) :=
  ruleWalk 6 (ruleMatchesV6 src iif)
    (fun table => route6LookupTableLocked s ns table dst flow) s.rules (s.rules.length + 1) none

def RouteRule.make (src4 mask4 : Ipv4Addr) (src6 : In6Addr) (plen6 : UInt8) (iif : Int)
    (table : UInt32) : RouteRule :=
  ⟨true,family,prio,routeIpv4ToHost src4 &&& routeIpv4ToHost mask4,routeIpv4ToHost mask4,
    in6ApplyPrefix src6 plen6,plen6,iif,table⟩

def RouteRule.at (r : RouteRule) : Bool := r.used && r.family == family && r.prio == prio

def routeRuleAdd (src4 mask4 : Ipv4Addr) (src6 : In6Addr) (plen6 : UInt8) (iif : Int)
    (table : UInt32) (s : Fib) : Int × Fib :=
  match spot (RouteRule.at family prio) (fun r => !r.used) s.rules with
  | none => (-1, s)
  | some i =>
    (0, { s with rules := s.rules.set i (.make family prio src4 mask4 src6 plen6 iif table) })

def routeRuleDel (s : Fib) : Int × Fib :=
  (if s.rules.any (RouteRule.at family prio) then 0 else -1,
    { s with rules := wipe (RouteRule.at family prio) .blank s.rules })

def routeRulesReset : Fib :=
  let s := { s with rules := wipe (fun _ => true) .blank s.rules }
  let s := (routeRuleAdd 4 rtRulePrioMain ⟨0,0,0,0⟩ ⟨0,0,0,0⟩ (fun _ => 0) 0 0 rtTableMain s).2
  (routeRuleAdd 6 rtRulePrioMain ⟨0,0,0,0⟩ ⟨0,0,0,0⟩ (fun _ => 0) 0 0 rtTableMain s).2

def routeCtlFlush (s : Fib) : Fib :=
  { s with
    routes := wipe (fun e => e.used && e.table == table) .blank s.routes
    routes6 := wipe (fun e => e.used && e.table == table) .blank s.routes6 }

def routeInit (s : Fib) : Fib := routeRulesReset (routeFlushAll ns s)

def in6Of (first : UInt8) (second : UInt8) (final : UInt8) : In6Addr := fun i =>
  if i.val = 0 then first else if i.val = 1 then second else if i.val = 15 then final else 0

def route6Init (s : Fib) : Fib :=
  let s := (route6AddTable ns (in6Of 0xfe 0x80 0) 10 (fun _ => 0) rtfUp 0 0 rtTableMain s).2
  let s := (route6AddTable ns (in6Of 0 0 1) 128 (fun _ => 0) rtfUp 0 0 rtTableMain s).2
  (route6AddTable ns (in6Of 0xff 0x02 0) 16 (fun _ => 0) rtfUp 0 0 rtTableMain s).2

def Fib.empty : Fib where
  routes := List.replicate routeMaxEntries .blank
  routes6 := List.replicate route6MaxEntries .blank
  rules := List.replicate routeMaxRules .blank

def netInit : Fib := route6Init 0 (route6FlushAll (routeInit 0 .empty))

inductive Op where
  | addTable (dst mask gw : UInt32) (flags metric : UInt16) (oif : Int) (table : UInt32)
  | delTable (dst mask gw table : UInt32)
  | flushDynamic
  | flushAll
  | configureInterface (ip mask gw : Ipv4Addr) (oif : Int) (extra : List (Ipv4Addr × Ipv4Addr))
  | addTable6 (dst : In6Addr) (plen : UInt8) (gw : In6Addr) (flags metric : UInt16) (oif : Int)
      (table : UInt32)
  | delTable6 (dst : In6Addr) (plen : UInt8) (gw : In6Addr) (table : UInt32)
  | flushDynamic6
  | flushAll6
  | configureInterface6 (net : In6Addr) (plen : UInt8) (router : In6Addr) (oif : Int)
  | ruleAdd (family : UInt8) (prio : UInt32) (src4 mask4 : Ipv4Addr) (src6 : In6Addr)
      (plen6 : UInt8) (iif : Int) (table : UInt32)
  | ruleDel (family : UInt8) (prio : UInt32)
  | rulesReset
  | ctlFlush (table : UInt32)
  | flushNs (ns : UInt32)

def perform (s : Fib) : Op → Fib
  | .addTable dst mask gw flags metric oif table =>
    (routeAddTable ns dst mask gw flags metric oif table s).2
  | .delTable dst mask gw table => (routeDelTable ns dst mask gw table s).2
  | .flushDynamic => routeFlushDynamic ns s
  | .flushAll => routeFlushAll ns s
  | .configureInterface ip mask gw oif extra => routeConfigureInterface ns ip mask gw oif extra s
  | .addTable6 dst plen gw flags metric oif table =>
    (route6AddTable ns dst plen gw flags metric oif table s).2
  | .delTable6 dst plen gw table => (route6DelTable ns dst plen gw table s).2
  | .flushDynamic6 => route6FlushDynamic ns s
  | .flushAll6 => route6FlushAll s
  | .configureInterface6 net plen router oif => route6ConfigureInterface ns net plen router oif s
  | .ruleAdd family prio src4 mask4 src6 plen6 iif table =>
    (routeRuleAdd family prio src4 mask4 src6 plen6 iif table s).2
  | .ruleDel family prio => (routeRuleDel family prio s).2
  | .rulesReset => routeRulesReset s
  | .ctlFlush table => routeCtlFlush table s
  | .flushNs gone => routeFlushNs gone s

open B1nix.Transition List RouteEntry

variable {a b d : UInt32} {s s' : Fib}

def RouteEntry.seen (b : UInt32) (e : RouteEntry) : Bool := e.used && e.ns == b

def Route6Entry.seen (b : UInt32) (e : Route6Entry) : Bool := e.used && e.ns == b

structure View where
  routes : List RouteEntry
  routes6 : List Route6Entry
  rules : List RouteRule

def Fib.view (b : UInt32) (s : Fib) : View where
  routes := s.routes.filter (RouteEntry.seen b)
  routes6 := s.routes6.filter (Route6Entry.seen b)
  rules := s.rules

variable {α β : Type} {dst : In6Addr} {rules : List RouteRule} {oif : Int} {matchGw used : Bool}
  {plen : UInt8} {routes : List RouteEntry} {routes6 : List Route6Entry}

lemma nth_filter {fits p : α → Bool} (h : ∀ x, p x = false → fits x = false)
    (pick seen : UInt32) (l : List α) : nth fits pick seen l = nth fits pick seen (l.filter p) := by
  induction l generalizing seen with
  | nil => rfl
  | cons x _ ih =>
    rw [filter_cons]
    cases hx : p x with
    | true =>
      rw [if_pos rfl,nth,nth,ih,ih]
    | false =>
      rw [if_neg Bool.false_ne_true,nth,h x hx,← ih]
      rfl

variable {table : UInt32} {family : UInt8} {last : Option UInt32} {r x : RouteRule}

lemma RouteEntry.carries_seen {e : RouteEntry} (h : e.seen b = false) :
    e.carries b table d = false := by
  rw [seen] at h
  rw [carries,h]
  rfl

lemma Route6Entry.carries_seen {e : Route6Entry} (h : e.seen b = false) :
    e.carries b table dst = false := by
  rw [Route6Entry.seen] at h
  rw [Route6Entry.carries,h]
  rfl

section

variable (h : s'.view b = s.view b)

include h

lemma routeLookupTableLocked_view (table d flow : UInt32) (dst : Ipv4Addr) :
    routeLookupTableLocked s' b table d flow dst = routeLookupTableLocked s b table d flow dst := by
  have hrts : s'.routes.filter (seen b) = s.routes.filter (seen b) := congrArg View.routes h
  have hsk : ∀ (best : Best) (e : RouteEntry), e.seen b = false →
      (if e.carries b table d then best.meet (maskBits e.mask) e.metric else best) = best :=
    fun best e he => by rw [carries_seen he]; rfl
  have hft : ∀ (best : Best) (e : RouteEntry), e.seen b = false →
      (e.carries b table d && maskBits e.mask == best.width && e.metric == best.metric) = false :=
    fun best e he => by rw [carries_seen he]; rfl
  unfold routeLookupTableLocked
  rw [foldl_filter hsk,foldl_filter (l := s.routes) hsk]
  dsimp only
  rw [nth_filter (hft _) _ _ s'.routes,nth_filter (hft _) _ _ s.routes,hrts]

lemma route6LookupTableLocked_view (table : UInt32) (dst : In6Addr) (flow : UInt32) :
    route6LookupTableLocked s' b table dst flow = route6LookupTableLocked s b table dst flow := by
  have hrts : s'.routes6.filter (Route6Entry.seen b) = s.routes6.filter (Route6Entry.seen b) :=
    congrArg View.routes6 h
  have hsk : ∀ (best : Best) (e : Route6Entry), e.seen b = false →
      (if e.carries b table dst then best.meet e.plen.toNat e.metric else best) = best :=
    fun best e he => by rw [Route6Entry.carries_seen he]; rfl
  have hft : ∀ (best : Best) (e : Route6Entry), e.seen b = false →
      (e.carries b table dst && decide ((e.plen.toNat : Int) = best.width) &&
        e.metric == best.metric) = false :=
    fun best e he => by rw [Route6Entry.carries_seen he]; rfl
  unfold route6LookupTableLocked
  rw [foldl_filter hsk,foldl_filter (l := s.routes6) hsk]
  dsimp only
  rw [nth_filter (hft _) _ _ s'.routes6,nth_filter (hft _) _ _ s.routes6,hrts]

lemma routeLookupEx_view (src dst : Ipv4Addr) (flow : UInt32)
    (iif : Int) : routeLookupEx s' b src dst flow iif = routeLookupEx s b src dst flow iif := by
  have hrul : s'.rules = s.rules := congrArg View.rules h
  have hlk := fun table => routeLookupTableLocked_view h table (routeIpv4ToHost dst) flow dst
  rw [routeLookupEx,routeLookupEx,hrul,funext hlk]

lemma route6LookupEx_view (src dst : In6Addr) (flow : UInt32)
    (iif : Int) : route6LookupEx s' b src dst flow iif = route6LookupEx s b src dst flow iif := by
  have hrul : s'.rules = s.rules := congrArg View.rules h
  have hlk := fun table => route6LookupTableLocked_view h table dst flow
  rw [route6LookupEx,route6LookupEx,hrul,funext hlk]

end

def RouteRule.pending (family : UInt8) (last : Option UInt32) (r : RouteRule) : Bool :=
  r.used && r.family == family && !last.any (fun prio => decide (r.prio ≤ prio))

lemma nextRule_from (rules : List RouteRule) (best : Option RouteRule)
    (h : rules.foldl (fun best r =>
      if !r.used || r.family != family then best
      else if last.any (fun prio => decide (r.prio ≤ prio)) then best
      else
        match best with
        | none => some r
        | some b => if r.prio < b.prio then some r else best) best = some r) :
    best = some r ∨ r ∈ rules ∧ r.pending family last = true := by
  induction rules generalizing best with
  | nil => exact .inl h
  | cons x _ ih =>
    rw [foldl_cons] at h
    obtain hbt | ⟨hmem,hpe⟩ := ih _ h
    · split at hbt
      · exact .inl hbt
      next hfam =>
      split_ifs at hbt with hla
      · exact .inl hbt
      have hx : x.pending family last = true := by simpa [RouteRule.pending,hla] using hfam
      split at hbt
      · cases hbt
        exact .inr ⟨.head _,hx⟩
      split at hbt
      · cases hbt
        exact .inr ⟨.head _,hx⟩
      exact .inl hbt
    exact .inr ⟨.tail x hmem,hpe⟩

lemma pending_mono (hr : r.pending family last = true)
    (hx : x.pending family (some r.prio) = true) : x.pending family last = true := by
  cases last with
  | none =>
    simp only [RouteRule.pending,and_eq_true] at hx
    simp [RouteRule.pending,hx.1]
  | some =>
    simp only [RouteRule.pending,any_some,and_eq_true,not_eq_true',
      decide_eq_false_iff_not,UInt32.not_le] at hr hx ⊢
    exact ⟨hx.1,UInt32.lt_trans hr.2 hx.2⟩

lemma pending_decreases (hr : r ∈ rules) (hpe : r.pending family last = true) :
    rules.countP (RouteRule.pending family (some r.prio)) < rules.countP (RouteRule.pending family last) := by
  have hse : r.pending family (some r.prio) = false := by simp [RouteRule.pending]
  have hmono : ∀ l : List RouteRule, l.countP (RouteRule.pending family (some r.prio)) ≤
      l.countP (RouteRule.pending family last) := fun l =>
    countP_mono_left fun x _ => pending_mono hpe
  obtain ⟨pre,post,rfl⟩ := append_of_mem hr
  have hpre := hmono pre
  have hpo := hmono post
  rw [countP_append,countP_append,countP_cons,countP_cons,hse,hpe]
  simp only [false_eq_true,if_false,if_true]
  omega

lemma ruleWalk_isSome (fits : RouteRule → Bool) (look : UInt32 → Option β)
    (rules : List RouteRule) {fuel : Nat} (hfu : rules.countP (RouteRule.pending family last) < fuel) :
    (ruleWalk family fits look rules fuel last).isSome = true := by
  induction fuel generalizing last with
  | zero => cases hfu
  | succ _ ih =>
    rw [ruleWalk]
    split
    · rfl
    next r hr =>
    obtain ⟨hmem,hpe⟩ := (nextRule_from _ none hr).resolve_left (by simp)
    have hnx := @ih (some r.prio) (by
      have hless := pending_decreases hmem hpe
      omega)
    split
    · exact hnx
    split
    · rfl
    exact hnx

def Op.Local (b : UInt32) (s : Fib) : Op → Prop
  | .ruleAdd family prio _ _ _ _ _ _ => ∀ r ∈ s.rules, r.used = true ∧ r.at family prio = false
  | .ruleDel family prio => ∀ r ∈ s.rules, r.at family prio = false
  | .rulesReset => False
  | .flushAll6 => ∀ e ∈ s.routes6, e.seen b = false
  | .ctlFlush table =>
    (∀ e ∈ s.routes, e.table = table → e.seen b = false) ∧
      ∀ e ∈ s.routes6, e.table = table → e.seen b = false
  | .flushNs gone => gone ≠ b
  | _ => True

section

variable (hab : a ≠ b)

include hab

lemma seen_of_other {ns : UInt32} (h : (used && ns == a) = true) :
    (used && ns == b) = false := by
  have hns := (and_eq_true_iff.mp h).2
  rw [eq_of_beq hns]
  simp [hab]

lemma RouteEntry.answers_hidden {dst mask gw : UInt32} (e : RouteEntry)
    (h : e.answers a dst mask gw oif table matchGw = true) : e.seen b = false := by
  simp only [answers,and_eq_true] at h
  exact seen_of_other hab (and_eq_true_iff.mpr h.1.1.1.1)

lemma RouteEntry.through_hidden {dst mask gw : UInt32} (e : RouteEntry)
    (h : e.through a dst mask gw table = true) : e.seen b = false := by
  simp only [through,and_eq_true] at h
  exact seen_of_other hab (and_eq_true_iff.mpr h.1.1.1.1)

lemma Route6Entry.answers_hidden {gw : In6Addr} (e : Route6Entry)
    (h : e.answers a dst plen gw oif table matchGw = true) : e.seen b = false := by
  simp only [Route6Entry.answers,and_eq_true] at h
  exact seen_of_other hab (and_eq_true_iff.mpr h.1.1.1.1)

lemma Route6Entry.through_hidden {gw : In6Addr} (e : Route6Entry)
    (h : e.through a dst plen gw table = true) : e.seen b = false := by
  simp only [Route6Entry.through,and_eq_true] at h
  exact seen_of_other hab (and_eq_true_iff.mpr h.1.1.1.1)

end

section

variable (h : routes.filter (RouteEntry.seen b) = s.routes.filter (RouteEntry.seen b))

include h

lemma view_tables (h6 : routes6.filter (Route6Entry.seen b) = s.routes6.filter (Route6Entry.seen b)) :
    { s with routes, routes6 }.view b = s.view b := by
  rw [Fib.view,Fib.view,h,h6]

lemma view_routes :
    { s with routes }.view b = s.view b :=
  view_tables h rfl

end

lemma view_routes6 (h : routes6.filter (Route6Entry.seen b) = s.routes6.filter (Route6Entry.seen b)) :
    { s with routes6 }.view b = s.view b :=
  view_tables rfl h

section

variable (hab : a ≠ b)

include hab

lemma routeAddLocked_view (dst mask gw : UInt32) (flags metric : UInt16)
    (oif : Int) (table : UInt32) (isDynamic : Bool) (s : Fib) :
    (routeAddLocked a dst mask gw flags metric oif table isDynamic s).2.view b = s.view b := by
  unfold routeAddLocked
  dsimp only
  split
  · rfl
  next i hi =>
  refine view_routes (filter_set (spot_hidden (answers_hidden hab) ?_ hi) ?_)
  · intro e he
    simp only [not_eq_true'] at he
    rw [seen,he]
    rfl
  simp [seen,make,hab]

lemma route6AddLocked_view (dst : In6Addr) (plen : UInt8) (gw : In6Addr)
    (flags metric : UInt16) (oif : Int) (table : UInt32) (isDynamic : Bool) (s : Fib) :
    (route6AddLocked a dst plen gw flags metric oif table isDynamic s).2.view b = s.view b := by
  unfold route6AddLocked
  split
  · rfl
  next i hi =>
  refine view_routes6 (filter_set (spot_hidden (Route6Entry.answers_hidden hab) ?_ hi) ?_)
  · intro e he
    simp only [not_eq_true'] at he
    rw [Route6Entry.seen,he]
    rfl
  simp [Route6Entry.seen,Route6Entry.make,hab]

lemma routeDelTable_view (dst mask gw table : UInt32) (s : Fib) :
    (routeDelTable a dst mask gw table s).2.view b = s.view b := by
  unfold routeDelTable
  dsimp only
  split
  · rfl
  next i hi =>
  refine view_routes (filter_set (fun e he => ?_) rfl)
  obtain hnm | ⟨-,hfo⟩ := or_eq_some_iff.mp hi
  · split at hnm
    · exact through_hidden hab e (findIdx?_holds hnm e he)
    cases hnm
  exact answers_hidden hab e (findIdx?_holds hfo e he)

lemma route6DelTable_view (dst : In6Addr) (plen : UInt8) (gw : In6Addr)
    (table : UInt32) (s : Fib) : (route6DelTable a dst plen gw table s).2.view b = s.view b := by
  unfold route6DelTable
  dsimp only
  split
  · rfl
  next i hi =>
  refine view_routes6 (filter_set (fun e he => ?_) rfl)
  obtain hnm | ⟨-,hfo⟩ := or_eq_some_iff.mp hi
  · split at hnm
    · exact Route6Entry.through_hidden hab e (findIdx?_holds hnm e he)
    cases hnm
  exact Route6Entry.answers_hidden hab e (findIdx?_holds hfo e he)

lemma routeFlushAll_view (s : Fib) : (routeFlushAll a s).view b = s.view b :=
  view_routes (filter_wipe (fun _ _ h => seen_of_other hab h) rfl)

lemma routeFlushDynamic_view (s : Fib) : (routeFlushDynamic a s).view b = s.view b :=
  view_routes (filter_wipe (fun _ _ h => seen_of_other hab (and_eq_true_iff.mp h).1) rfl)

lemma route6FlushDynamic_view (s : Fib) : (route6FlushDynamic a s).view b = s.view b := by
  refine view_routes6 (filter_wipe (fun e _ h => ?_) rfl)
  simp only [and_eq_true] at h
  exact seen_of_other hab (and_eq_true_iff.mpr ⟨h.1.1,h.2⟩)

lemma routeFlushNs_view (s : Fib) : (routeFlushNs a s).view b = s.view b :=
  view_tables (filter_wipe (fun _ _ h => seen_of_other hab h) rfl)
    (filter_wipe (fun _ _ h => seen_of_other hab h) rfl)

end

lemma routeConfigureInterface_view (hab : a ≠ b) (ip mask gw : Ipv4Addr) (oif : Int)
    (extra : List (Ipv4Addr × Ipv4Addr)) (s : Fib) :
    (routeConfigureInterface a ip mask gw oif extra s).view b = s.view b := by
  have hadd := fun dst mask gw flags => routeAddLocked_view hab dst mask gw flags 0 oif rtTableMain
    true
  have hext : ∀ (l : List (Ipv4Addr × Ipv4Addr)) (hIp : UInt32) (s : Fib),
      (l.foldl (routeAddExtra a hIp oif) s).view b = s.view b := by
    intro l hIp s
    induction l generalizing s with
    | nil => rfl
    | cons _ _ ih =>
      rw [foldl_cons,ih,routeAddExtra]
      split
      · rfl
      exact hadd _ _ _ _ s
  unfold routeConfigureInterface
  dsimp only
  split
  · rw [hadd,hext]
    split
    · rw [hadd,routeFlushDynamic_view hab]
    exact routeFlushDynamic_view hab s
  rw [hext]
  split
  · rw [hadd,routeFlushDynamic_view hab]
  exact routeFlushDynamic_view hab s

lemma route6ConfigureInterface_view (hab : a ≠ b) (net : In6Addr) (plen : UInt8) (router : In6Addr)
    (oif : Int) (s : Fib) : (route6ConfigureInterface a net plen router oif s).view b = s.view b := by
  have hadd := fun dst plen gw flags => route6AddLocked_view hab dst plen gw flags 0 oif
  unfold route6ConfigureInterface
  dsimp only
  split
  · rw [hadd]
    split
    · rw [hadd,route6FlushDynamic_view hab]
    exact route6FlushDynamic_view hab s
  split
  · rw [hadd,route6FlushDynamic_view hab]
  exact route6FlushDynamic_view hab s

lemma wipe_none {gone : α → Bool} {blank : α} {l : List α} (h : ∀ x ∈ l, gone x = false) :
    wipe gone blank l = l := by
  rw [wipe,map_congr_left fun x hx => by rw [h x hx]]
  exact map_id l

lemma routeRuleAdd_full {prio : UInt32} (h : ∀ r ∈ s.rules, r.used = true ∧ r.at family prio = false)
    (src4 mask4 : Ipv4Addr) (src6 : In6Addr) (plen6 : UInt8) (iif : Int) (table : UInt32) :
    (routeRuleAdd family prio src4 mask4 src6 plen6 iif table s).2 = s := by
  have hsa : s.rules.findIdx? (RouteRule.at family prio) = none :=
    findIdx?_eq_none_iff.mpr fun r hr => (h r hr).2
  have hfe : s.rules.findIdx? (fun r => !r.used) = none :=
    findIdx?_eq_none_iff.mpr fun r hr => by rw [(h r hr).1,Bool.not_true]
  rw [routeRuleAdd,spot,hsa,hfe]

lemma Op.Local.view {op : Op} (hab : a ≠ b) (h : op.Local b s) : (perform a s op).view b = s.view b := by
  cases op with
  | addTable => exact routeAddLocked_view hab ..
  | delTable => exact routeDelTable_view hab ..
  | flushDynamic => exact routeFlushDynamic_view hab s
  | flushAll => exact routeFlushAll_view hab s
  | configureInterface => exact routeConfigureInterface_view hab ..
  | addTable6 => exact route6AddLocked_view hab ..
  | delTable6 => exact route6DelTable_view hab ..
  | flushDynamic6 => exact route6FlushDynamic_view hab s
  | flushAll6 => exact view_routes6 (filter_wipe (fun e he _ => h e he) rfl)
  | configureInterface6 => exact route6ConfigureInterface_view hab ..
  | ruleAdd => rw [perform,routeRuleAdd_full h]
  | ruleDel => rw [perform,routeRuleDel,wipe_none h]
  | rulesReset => exact h.elim
  | ctlFlush =>
    refine view_tables (filter_wipe (fun e he hgo => ?_) rfl)
      (filter_wipe (fun e he hgo => ?_) rfl)
    · exact h.1 e he (eq_of_beq (and_eq_true_iff.mp hgo).2)
    exact h.2 e he (eq_of_beq (and_eq_true_iff.mp hgo).2)
  | flushNs => exact routeFlushNs_view h s

theorem routing_isolated (hab : a ≠ b) {ops : List Op} (h : Along (Op.Local b) (perform a) s ops) :
    (∀ (src dst : Ipv4Addr) (flow : UInt32) (iif : Int), ∃ route,
      routeLookupEx s b src dst flow iif = some route ∧
        routeLookupEx (ops.foldl (perform a) s) b src dst flow iif = some route) ∧
    ∀ (src dst : In6Addr) (flow : UInt32) (iif : Int), ∃ route,
      route6LookupEx s b src dst flow iif = some route ∧
        route6LookupEx (ops.foldl (perform a) s) b src dst flow iif = some route := by
  have hvw := h.same (Fib.view b) fun _ _ => Op.Local.view hab
  refine ⟨fun src dst flow iif => ?_,fun src dst flow iif => ?_⟩
  · have hso : (routeLookupEx s b src dst flow iif).isSome :=
      ruleWalk_isSome _ _ _ (Nat.lt_succ_of_le countP_le_length)
    obtain ⟨route,hrou⟩ := isSome_iff_exists.mp hso
    exact ⟨route,hrou,(routeLookupEx_view hvw src dst flow iif).trans hrou⟩
  have hso : (route6LookupEx s b src dst flow iif).isSome :=
    ruleWalk_isSome _ _ _ (Nat.lt_succ_of_le countP_le_length)
  obtain ⟨route,hrou⟩ := isSome_iff_exists.mp hso
  exact ⟨route,hrou,(route6LookupEx_view hvw src dst flow iif).trans hrou⟩

instance Op.Local.decide (b : UInt32) (s : Fib) (op : Op) : Decidable (op.Local b s) := by
  cases op <;> (dsimp only [Op.Local]; infer_instance)

def tenant : Fib := perform 2 netInit (.addTable 0 0 0xC0A80101 rtfUp 0 3 rtTableMain)

def neighbour : List Op :=
  [.configureInterface ⟨10,0,0,2⟩ ⟨255,0,0,0⟩ ⟨10,0,0,1⟩ 1 [],
    .addTable 0x08080808 0xFFFFFFFF 0x0A000003 rtfUp 0 1 rtTableMain,
    .addTable6 (in6Of 0x20 0x01 0) 16 (in6Of 0xfe 0x80 7) rtfUp 0 1 rtTableMain,
    .ruleDel 4 100,.ctlFlush 77,.delTable 0 0 0 rtTableMain,.flushAll]

def tenantHop : Option (Option (Ipv4Addr × UInt16 × Int)) := some (some (⟨192,168,1,1⟩, 3, 3))

theorem tenant_isolated_from_neighbour :
    Along (Op.Local 2) (perform 1) tenant neighbour ∧
      routeLookupEx (neighbour.foldl (perform 1) tenant) 2 ⟨0, 0, 0, 0⟩ ⟨8, 8, 8, 8⟩ 0 0 =
        tenantHop := by
  have hloc : Along (Op.Local 2) (perform 1) tenant neighbour := by decide +kernel
  obtain ⟨route,hbf,haf⟩ := (routing_isolated (by decide) hloc).1 ⟨0,0,0,0⟩ ⟨8,8,8,8⟩ 0 0
  have hhop : routeLookupEx tenant 2 ⟨0,0,0,0⟩ ⟨8,8,8,8⟩ 0 0 = tenantHop := by decide +kernel
  exact ⟨hloc,(haf.trans hbf.symm).trans hhop⟩

theorem neighbour_cuts_tenant :
    routeLookupEx tenant 2 ⟨0, 0, 0, 0⟩ ⟨8, 8, 8, 8⟩ 0 0 = tenantHop ∧
      routeLookupEx (perform 1 tenant (.ruleDel 4 rtRulePrioMain)) 2 ⟨0, 0, 0, 0⟩ ⟨8, 8, 8, 8⟩ 0 0 =
        some none ∧
      routeLookupEx (perform 1 tenant (.ctlFlush rtTableMain)) 2 ⟨0, 0, 0, 0⟩ ⟨8, 8, 8, 8⟩ 0 0 =
        some none := by
  decide +kernel

end B1nix.Route
