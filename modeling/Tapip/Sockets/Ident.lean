import Mathlib.Tactic.IntervalCases
import Tapip.Ip.Unmixed
import Tapip.Sockets.Senders

/-! The identifications of the datagrams that a host sends, over runs of its senders. -/

namespace Tapip.Sockets.Ident

open Foundation.Program Net Net.ByteOrder Net.Pkb Ip.Header Ip.Frag Ip.Out Ip.In Ip.Reassembly
open Ip.Emit Ip.RoundTrip Ip.Unmixed Senders
open Tcp (Sock OutTcp TcpSegment)

inductive Send
  | udp (sk : Sock) (autobind : Option UInt16) (junk : SockAddr) (buf : List UInt8) (skaddr : Option SockAddr)
  | raw (sk : Sock) (buf : List UInt8) (skaddr : SockAddr)
  | tcp (tsk : Option ℕ) (pkb : Pkbuf) (out : OutTcp) (seg : Option TcpSegment)
  | info (pkb : Pkbuf) (tos : UInt8) (len : UInt16) (ttl pro : UInt8) (dst : UInt32)

def Send.kind : Send → Kind
  | .udp .. => .udp
  | .raw .. => .raw
  | .tcp .. => .tcp
  | .info .. => .info

def Send.Sized : Send → Prop
  | .udp .. => True
  | .raw .. => True
  | .tcp _ pkb out _ => Fits pkb out
  | .info pkb _ len _ _ _ => pkb.pkData.length = ETH_HRD_SZ + len.toNat ∧ IP_HRD_SZ ≤ len.toNat

inductive Entry
  | socket (k : Kind)
  | send (k : Kind) (datagram : Option Pkbuf)

def Entry.isSend : Entry → Bool
  | .socket _ => false
  | .send .. => true

def Entry.advances (k : Kind) : Entry → Bool
  | .socket j => j = k
  | .send j _ => j = .info ∧ k = .info

def ticks (k : Kind) (hist : List Entry) : ℕ := hist.countP (Entry.advances k)

def sends (hist : List Entry) : ℕ := hist.countP Entry.isSend

def Moves (e : Entry) (s s' : Sender) : Prop :=
  ∀ k, counter s' k = counter s k + if e.advances k then 1 else 0

inductive Made : Kind → Sender → Sender → Prop
  | udp {s s' : Sender} {protocol : ℕ} : udpAllocSock protocol s = .ok (true, s') → Made .udp s s'
  | raw {s s' : Sender} {protocol : ℕ} : rawAllocSock protocol s = .ok (true, s') → Made .raw s s'
  | tcp {s : Sender} {t : Stack} : t.ipid = s.stack.ipid → t.tcp.tcpId = s.stack.tcp.tcpId + 1 →
      Made .tcp s { s with stack := t }

section Runs

variable (netIn : NetIn)

def Send.packet : Send → Prog Sender (Option Pkbuf)
  | .udp sk autobind junk buf skaddr => udpPacket sk autobind junk buf skaddr
  | .raw sk buf skaddr => rawPacket sk buf skaddr
  | .tcp tsk pkb out seg => onStack (tcpPacket netIn tsk pkb out seg)
  | .info pkb tos len ttl pro dst => onStack (infoPacket pkb tos len ttl pro dst)

inductive Run : List Entry → Sender → Prop
  | start {s : Sender} : (∀ k, counter s k = 0) → Run [] s
  | rest {hist : List Entry} {s s' : Sender} : Run hist s → Keeps s s' → Run hist s'
  | socket {hist : List Entry} {s s' : Sender} {k : Kind} : Run hist s → Made k s s' →
      Run (hist ++ [.socket k]) s'
  | send {hist : List Entry} {s s' : Sender} {op : Send} {r : Option Pkbuf} : Run hist s → op.Sized →
      op.packet netIn s = .ok (r, s') → Run (hist ++ [.send op.kind (r.bind (outgoing s'.stack))]) s'

end Runs

variable {hist : List Entry} {s : Sender} {d d' : Pkbuf} {k k' : Kind} {i j : ℕ}

section Counters

variable {netIn : NetIn} {s' : Sender}

lemma moves_of_keeps {e : Entry} (h : Keeps s s') (he : ∀ k, e.advances k = false) : Moves e s s' := by
  intro k
  simp [h k, he k]

lemma Made.moves (h : Made k s s') : Moves (.socket k) s s' := by
  cases h with
  | udp h =>
    simp only [udpAllocSock] at h
    split_ifs at h
    · simp at h
    · cases h
      intro j
      cases j <;> simp [counter, Entry.advances]
  | raw h =>
    simp only [rawAllocSock] at h
    split_ifs at h
    · simp at h
    · cases h
      intro j
      cases j <;> simp [counter, Entry.advances]
  | tcp hip hid =>
    have hnext : UInt16.ofInt (s.stack.tcp.tcpId + 1) = UInt16.ofInt s.stack.tcp.tcpId + 1 := UInt16.ofInt_add _ _
    intro j
    cases j <;> simp [counter, Entry.advances, hip, hid, hnext]

lemma packet_inv {op : Send} {r : Option Pkbuf} (h : op.packet netIn s = .ok (r, s')) (hop : op.Sized)
    (datagram : Option Pkbuf) :
    Moves (.send op.kind datagram) s s' ∧ Labelled (counter s op.kind) r := by
  cases op with
  | udp sk autobind junk buf skaddr =>
    obtain ⟨hkeep, hmade⟩ := udpPacket_inv h
    exact ⟨moves_of_keeps hkeep fun k => by simp [Entry.advances, Send.kind], hmade.labelled⟩
  | raw sk buf skaddr =>
    obtain ⟨hkeep, hmade⟩ := rawPacket_inv h
    exact ⟨moves_of_keeps hkeep fun k => by simp [Entry.advances, Send.kind], hmade.labelled⟩
  | tcp tsk pkb out seg =>
    obtain ⟨t, hrun, rfl⟩ := onStack_inv h
    obtain ⟨hids, hlab⟩ := tcpPacket_inv hrun hop
    exact ⟨moves_of_keeps (keeps_stack hids.1 hids.2) fun k => by simp [Entry.advances, Send.kind], hlab⟩
  | info pkb tos len ttl pro dst =>
    obtain ⟨t, hrun, rfl⟩ := onStack_inv h
    obtain ⟨rfl, hlab⟩ := infoPacket_inv hrun hop.1 hop.2
    refine ⟨fun k => ?_, hlab⟩
    cases k <;> simp [counter, Entry.advances, Send.kind]

lemma ticks_concat (e : Entry) : ticks k (hist ++ [e]) = ticks k hist + if e.advances k then 1 else 0 := by
  simp [ticks, List.countP_singleton]

lemma Run.counter (h : Run netIn hist s) (k : Kind) : counter s k = UInt16.ofNat (ticks k hist) := by
  have hstep : ∀ {hist : List Entry} {s s' : Sender} {e : Entry}, Moves e s s' →
      Senders.counter s k = UInt16.ofNat (ticks k hist) →
      Senders.counter s' k = UInt16.ofNat (ticks k (hist ++ [e])) := by
    intro hist s s' e hm hs
    rw [hm k, hs, ticks_concat, UInt16.ofNat_add]
    split_ifs <;> rfl
  induction h with
  | start hz => exact hz k
  | rest _ hk ih => exact (hk k).trans ih
  | socket _ hmade ih => exact hstep hmade.moves ih
  | send _ hop hrun ih => exact hstep (packet_inv hrun hop _).1 ih

lemma Run.headed (h : Run netIn hist s) (hi : hist[i]? = some (.send k (some d))) :
    ∃ n ≤ maxDatagram, Headed (UInt16.ofNat (ticks k (hist.take i))) n d := by
  have hold : ∀ {hist : List Entry} {e : Entry}, (hist[i]? = some (.send k (some d)) →
        ∃ n ≤ maxDatagram, Headed (UInt16.ofNat (ticks k (hist.take i))) n d) →
      (e = .send k (some d) → ∃ n ≤ maxDatagram, Headed (UInt16.ofNat (ticks k hist)) n d) →
      (hist ++ [e])[i]? = some (.send k (some d)) →
      ∃ n ≤ maxDatagram, Headed (UInt16.ofNat (ticks k ((hist ++ [e]).take i))) n d := by
    intro hist e hearlier hlast hi
    rcases lt_trichotomy i hist.length with hlt | rfl | hgt
    · rw [List.getElem?_append_left hlt] at hi
      rw [List.take_append_of_le_length hlt.le]
      exact hearlier hi
    · rw [List.getElem?_concat_length] at hi
      rw [List.take_left]
      exact hlast (Option.some.inj hi)
    · rw [List.getElem?_eq_none (by simp; omega)] at hi
      cases hi
  induction h with
  | start _ => simp at hi
  | rest _ _ ih => exact ih hi
  | socket _ _ ih => exact hold ih (fun he => by cases he) hi
  | @send hist s s' op r hrun hop hpkt ih =>
    refine hold ih (fun he => ?_) hi
    obtain ⟨rfl, hr⟩ := Entry.send.inj he
    have hlab := (packet_inv hpkt hop none).2.outgoing (s := s'.stack) d hr
    rwa [hrun.counter] at hlab

end Counters

section Spread

structure SameFlow (d d' : Pkbuf) : Prop where
  src : ipSrc d = ipSrc d'
  dst : ipDst d = ipDst d'
  pro : ipPro d = ipPro d'

/-- Two datagrams of one flow, sent by the calls `i` and `j` among 65536 consecutive sends. -/
structure Pair (hist : List Entry) (i j : ℕ) (k k' : Kind) (d d' : Pkbuf) : Prop where
  lt : i < j
  near : sends ((hist.take j).drop (i + 1)) ≤ 65534
  first : hist[i]? = some (.send k (some d))
  second : hist[j]? = some (.send k' (some d'))
  flow : SameFlow d d'

def Fresh (hist : List Entry) : Prop :=
  ∀ i j k k' d d', Pair hist i j k k' d d' → ipId d ≠ ipId d'

def Spread (hist : List Entry) : Prop :=
  ∀ i j k k' d d', Pair hist i j k k' d d' → ¬ ticks k (hist.take i) ≡ ticks k' (hist.take j) [MOD 65536]

/-- Whatever fragments of the two reach a host, in whatever order and between other packets, and whatever it
lets expire, what it puts together under the key of one of them is that datagram. -/
def NeverMixed (d d' : Pkbuf) : Prop :=
  ∀ (netIn : NetIn) (netMtu : ℤ) (addr addr' : ℕ) (frags frags' : List Pkbuf)
    (trace : List (Ip.FragTable.Op × Option Pkbuf)) (l : List Fragment),
    netMtu < (ntohs (ipLen d)).toNat → netMtu < (ntohs (ipLen d')).toNat →
    ipSendFrag addr netMtu d = some frags → ipSendFrag addr' netMtu d' = some frags' →
    Ip.FragTable.Run netIn trace l →
    (∀ x r, (.reass x, r) ∈ trace → key x = key (ipNtoh d) ∨ key x = key (ipNtoh d') →
      FragmentOf (frags ++ frags') x) →
    ∀ x r, (.reass x, some r) ∈ trace →
      (key x = key (ipNtoh d) → Copy d r) ∧ (key x = key (ipNtoh d') → Copy d' r)

variable {netIn : NetIn} {n n' : ℕ} {id id' : UInt16}

lemma Headed.iphlen (h : Headed id n d) : iphlen d = 20 := by
  simp only [Ip.Header.iphlen, ipHlen, List.getD_eq_getElem?_getD, h.first]
  rfl

lemma Headed.sendable (h : Headed id n d) (hn : n ≤ maxDatagram) {mtu : ℕ} (hm : 28 ≤ mtu)
    (hlt : mtu < (ntohs (ipLen d)).toNat) : Sendable d mtu := by
  have hlen : (ntohs (ipLen d)).toNat = n % 65536 := by
    rw [h.len, ntohs_htons, UInt16.toNat_ofNat']
  have hfit : n < 65536 := by
    by_contra hge
    simp only [maxDatagram] at hn
    omega
  refine ⟨by rw [Headed.iphlen h]; exact le_rfl, ?_, h.fragoff, by rw [Headed.iphlen h]; exact hm, hlt⟩
  rw [h.length, hlen, Nat.mod_eq_of_lt hfit]

lemma Headed.ipId_eq_iff (h : Headed (UInt16.ofNat n) i d) (h' : Headed (UInt16.ofNat n') j d') :
    ipId d = ipId d' ↔ n ≡ n' [MOD 65536] := by
  rw [h.ident, h'.ident, (Function.LeftInverse.injective htons_htons).eq_iff, ← UInt16.toNat_inj,
    UInt16.toNat_ofNat', UInt16.toNat_ofNat']
  exact Iff.rfl

lemma key_ne (h : Headed id i d) (h' : Headed id' j d') (hne : ipId d ≠ ipId d') :
    key (ipNtoh d) ≠ key (ipNtoh d') := by
  intro he
  have hid := (Prod.mk.inj he).1
  rw [ipNtoh_ipId (by have := h.size; omega), ipNtoh_ipId (by have := h'.size; omega)] at hid
  exact hne (Function.LeftInverse.injective htons_htons hid)

lemma neverMixed_of_ne (h : Headed id n d) (hn : n ≤ maxDatagram) (h' : Headed id' n' d') (hn' : n' ≤ maxDatagram)
    (hne : ipId d ≠ ipId d') : NeverMixed d d' := by
  intro netIn netMtu addr addr' frags frags' trace l hlt hlt' hsend hsend' hrun hfrags x r hx
  have hm := mtu_ge_of_ipSendFrag hsend hlt
  rw [Headed.iphlen h] at hm
  obtain ⟨mtu, rfl⟩ := Int.eq_ofNat_of_zero_le (show 0 ≤ netMtu by omega)
  have hs := Headed.sendable h hn (show 28 ≤ mtu by omega) (by omega)
  have hs' := Headed.sendable h' hn' (show 28 ≤ mtu by omega) (by omega)
  have hkey := key_ne h h' hne
  have hpiece : ∀ x r, (.reass x, r) ∈ trace → Pieces [d, d'] mtu x := by
    intro x r hx e he hxe
    have hof : FragmentOf (frags ++ frags') x := by
      refine hfrags x r hx ?_
      rcases List.mem_pair.mp he with rfl | rfl
      · exact .inl hxe
      · exact .inr hxe
    obtain ⟨f, hf, hcopy⟩ := hof
    rcases List.mem_append.mp hf with hf | hf
    · have hp := FragmentOf.isPiece ⟨f, hf, hcopy⟩ hs hsend
      rcases List.mem_pair.mp he with rfl | rfl
      · exact hp
      · exact absurd ((piece_key hp hs.hlen_ge).symm.trans hxe) hkey
    · have hp := FragmentOf.isPiece ⟨f, hf, hcopy⟩ hs' hsend'
      rcases List.mem_pair.mp he with rfl | rfl
      · exact absurd ((piece_key hp hs'.hlen_ge).symm.trans hxe) hkey.symm
      · exact hp
  have hsend : ∀ e ∈ [d, d'], Sendable e mtu := by
    intro e he
    rcases List.mem_pair.mp he with rfl | rfl
    · exact hs
    · exact hs'
  have hcopies := (Run.copies hrun hsend hpiece).2 x r hx
  exact ⟨hcopies d (by simp), hcopies d' (by simp)⟩

lemma Run.socket_ne_info (h : Run netIn hist s) : Entry.socket .info ∉ hist := by
  induction h with
  | start _ => simp
  | rest _ _ ih => exact ih
  | socket _ hmade ih => cases hmade <;> simpa using ih
  | send _ _ _ ih => simpa using ih

lemma ticks_info_le (h : Entry.socket .info ∉ hist) : ticks .info hist ≤ sends hist := by
  refine List.countP_mono_left fun e he hadv => ?_
  cases e with
  | socket k =>
    obtain rfl : k = .info := by simpa [Entry.advances] using hadv
    exact absurd he h
  | send k datagram => rfl

lemma Pair.info (h : Pair hist i j .info .info d d') (hsock : Entry.socket .info ∉ hist) :
    ¬ ticks .info (hist.take i) ≡ ticks .info (hist.take j) [MOD 65536] := by
  have hlt := h.lt
  have hget : (hist.take j)[i]? = some (.send .info (some d)) := by
    rw [List.getElem?_take_of_lt hlt]
    exact h.first
  obtain ⟨hi, hat⟩ := List.getElem?_eq_some_iff.mp hget
  have hcut : ticks .info (hist.take j) =
      ticks .info (hist.take i) + (ticks .info ((hist.take j).drop (i + 1)) + 1) := by
    have htake : (hist.take j).take i = hist.take i := by rw [List.take_take, Nat.min_eq_left hlt.le]
    conv_lhs => rw [← List.take_append_drop i (hist.take j), htake, List.drop_eq_getElem_cons hi, hat]
    rw [ticks, List.countP_append, List.countP_cons]
    rfl
  have hle : ticks .info ((hist.take j).drop (i + 1)) ≤ 65534 :=
    (ticks_info_le fun hm => hsock (List.mem_of_mem_take (List.mem_of_mem_drop hm))).trans h.near
  rw [hcut, Nat.ModEq]
  omega

theorem datagrams_apart_iff (hrun : Run netIn hist s) : (Fresh hist ↔ Spread hist) ∧
      (Spread hist → ∀ i j k k' d d', Pair hist i j k k' d d' → NeverMixed d d') ∧
      ∀ i j d d', Pair hist i j .info .info d d' → ipId d ≠ ipId d' := by
  have hiff : ∀ {i j k k' d d'}, Pair hist i j k k' d d' →
      (ipId d = ipId d' ↔ ticks k (hist.take i) ≡ ticks k' (hist.take j) [MOD 65536]) := by
    intro i j k k' d d' hp
    obtain ⟨n, -, hd⟩ := hrun.headed hp.first
    obtain ⟨n', -, hd'⟩ := hrun.headed hp.second
    exact Headed.ipId_eq_iff hd hd'
  refine ⟨⟨?_, ?_⟩, ?_, ?_⟩
  · intro h i j k k' d d' hp hticks
    exact h i j k k' d d' hp ((hiff hp).mpr hticks)
  · intro h i j k k' d d' hp hid
    exact h i j k k' d d' hp ((hiff hp).mp hid)
  · intro h i j k k' d d' hp
    obtain ⟨n, hn, hd⟩ := hrun.headed hp.first
    obtain ⟨n', hn', hd'⟩ := hrun.headed hp.second
    exact neverMixed_of_ne hd hn hd' hn' fun hid => h i j k k' d d' hp ((hiff hp).mp hid)
  · intro i j d d' hp hid
    exact hp.info hrun.socket_ne_info ((hiff hp).mp hid)

section Examples

open Ip.FragTable (Op idle next step_idle Arrives)

def host : Sender where
  stack := { idle [] with
    netDevices := [⟨36, 0x0100000a, 0x00ffffff, [2, 0, 0, 0, 0, 1]⟩], rtHead := [⟨0, 0, 0, 0, 0, 0⟩] }
  udpId := 0
  rawId := 0

def dns : Sock := ⟨17, 0, 0, 0x3500, 0, none, [], true, true, 1⟩

def say (b : UInt8) : Send := .udp dns none ⟨0, 0⟩ (List.replicate 16 b) (some ⟨0x0200000a, 0x3500⟩)

def after (op : Send) (s : Sender) : Sender := finalState (op.packet dropAll) s

def datagram (op : Send) (s : Sender) : Option Pkbuf :=
  ((outcome (op.packet dropAll) s).getD none).bind (outgoing (after op s).stack)

lemma Run.say (hrun : Run dropAll hist s) (b : UInt8) (h : (outcome ((say b).packet dropAll) s).isSome = true) :
    Run dropAll (hist ++ [.send .udp (datagram (Ident.say b) s)]) (after (Ident.say b) s) := by
  obtain ⟨r, hr⟩ := Option.isSome_iff_exists.mp h
  have hsized : (Ident.say b).Sized := trivial
  rw [datagram, hr]
  exact hrun.send hsized (run_of_outcome hr)

def opened (s : Sender) : Sender := finalState (udpAllocSock 17) s

lemma Run.opened (hrun : Run dropAll hist s) : Run dropAll (hist ++ [.socket .udp]) (opened s) :=
  hrun.socket (@Made.udp _ _ 17 rfl)

lemma run_host : Run dropAll [] host := .start fun k => by cases k <;> rfl

def one : Sender := opened host
def ones : Pkbuf := (datagram (say 1) one).getD (allocPkb 0 0)
def two : Sender := after (say 1) one
def twos : Pkbuf := (datagram (say 2) two).getD (allocPkb 0 0)

lemma run_twice : Run dropAll [.socket .udp, .send .udp (some ones), .send .udp (some twos)] (after (say 2) two) := by
  have h1 : datagram (say 1) one = some ones := by decide +kernel
  have h2 : datagram (say 2) two = some twos := by decide +kernel
  have hrun := ((run_host.opened.say 1 (by decide +kernel)).say 2 (by decide +kernel))
  change Run dropAll [.socket .udp, .send .udp (datagram (say 1) one), .send .udp (datagram (say 2) two)] _ at hrun
  rwa [h1, h2] at hrun

def three : Sender := opened two
def threes : Pkbuf := (datagram (say 3) three).getD (allocPkb 0 0)

lemma run_resocket : Run dropAll [.socket .udp, .send .udp (some ones), .socket .udp, .send .udp (some threes)]
    (after (say 3) three) := by
  have h1 : datagram (say 1) one = some ones := by decide +kernel
  have h3 : datagram (say 3) three = some threes := by decide +kernel
  have hrun := ((run_host.opened.say 1 (by decide +kernel)).opened.say 3 (by decide +kernel))
  change Run dropAll [.socket .udp, .send .udp (datagram (say 1) one), .socket .udp,
    .send .udp (datagram (say 3) three)] _ at hrun
  rwa [h1, h3] at hrun

lemma spread_resocket : Spread [.socket .udp, .send .udp (some ones), .socket .udp, .send .udp (some threes)] := by
  intro i j k k' d d' hp
  have hj : j < 4 := (List.getElem?_eq_some_iff.mp hp.second).1
  have hlt := hp.lt
  have hfirst := hp.first
  have hsecond := hp.second
  have hij : i = 1 ∧ j = 3 := by
    interval_cases j <;> interval_cases i <;> simp_all
  obtain ⟨rfl, rfl⟩ := hij
  obtain ⟨rfl, -⟩ := Entry.send.inj (Option.some.inj hfirst)
  obtain ⟨rfl, -⟩ := Entry.send.inj (Option.some.inj hsecond)
  decide

theorem datagrams_apart_resocket : ∃ hist s d d', Run dropAll hist s ∧ Pair hist 1 3 .udp .udp d d' ∧
    ipId d ≠ ipId d' ∧ NeverMixed d d' := by
  have hpair : Pair [.socket .udp, .send .udp (some ones), .socket .udp, .send .udp (some threes)] 1 3 .udp .udp
      ones threes :=
    ⟨by decide, by decide, rfl, rfl, by decide +kernel, by decide +kernel, by decide +kernel⟩
  obtain ⟨hfresh, hnever, -⟩ := datagrams_apart_iff run_resocket
  exact ⟨_, _, ones, threes, run_resocket, hpair, hfresh.mpr spread_resocket _ _ _ _ _ _ hpair,
    hnever spread_resocket _ _ _ _ _ _ hpair⟩

def cuts (d : Pkbuf) : List Pkbuf := (ipSendFrag 0 36 d).getD []

def frame (d : Pkbuf) (i : ℕ) : Pkbuf := (cuts d).getD i (allocPkb 0 0)

def received (d : Pkbuf) (i : ℕ) : Pkbuf :=
  Ip.Quote.routed ⟨0x0200000a, 0xffffffff, 0, 1, 0, 0⟩ ((ipCheck (frame d i)).getD (allocPkb 0 0))

lemma arrives_received (hl : (frame d i).pkLen ≤ (frame d i).pkData.length)
    (h : ((ipCheck (frame d i)).any fun p => isFragment p && ipFragoff p &&& IP_FRAG_DF == 0) = true) :
    Arrives (received d i) := by
  simp only [Option.any_eq_true, Bool.and_eq_true, beq_iff_eq] at h
  obtain ⟨p, hp, hfrag, hdf⟩ := h
  rw [received, hp]
  exact .intro _ hl hp hfrag hdf

def joined : Option Pkbuf :=
  (outcome ((Op.reass (received twos 1)).exec dropAll) (idle (next (.reass (received ones 0)) []))).getD none

/-- The first half of one datagram and the second half of the next one of the same socket. -/
theorem one_socket_spliced : ∃ hist s d d', Run dropAll hist s ∧ Pair hist 1 2 .udp .udp d d' ∧
    ipId d = ipId d' ∧ ¬ NeverMixed d d' := by
  refine ⟨_, _, ones, twos, run_twice, ⟨by decide, by decide, rfl, rfl, ?_⟩, by decide +kernel, ?_⟩
  · exact ⟨by decide +kernel, by decide +kernel, by decide +kernel⟩
  · intro hnever
    have hfirst : Ip.FragTable.Run dropAll [(.reass (received ones 0), none)] _ :=
      Ip.FragTable.Run.start.step (arrives_received (by decide +kernel) (by decide +kernel))
        (step_idle (by decide +kernel))
    have hrun : Ip.FragTable.Run dropAll [(.reass (received ones 0), none), (.reass (received twos 1), joined)] _ :=
      hfirst.step (arrives_received (by decide +kernel) (by decide +kernel)) (step_idle (by decide +kernel))
    have hjoined : joined = some (joined.getD (allocPkb 0 0)) := by decide +kernel
    have hfrags : ∀ x r, (Op.reass x, r) ∈ [(.reass (received ones 0), none), (.reass (received twos 1), joined)] →
        FragmentOf (cuts ones ++ cuts twos) x := by
      intro x r hx
      rcases List.mem_pair.mp hx with hx | hx
      · cases Op.reass.inj (Prod.mk.inj hx).1
        exact ⟨frame ones 0, by decide +kernel, frame ones 0, rfl, by decide +kernel⟩
      · cases Op.reass.inj (Prod.mk.inj hx).1
        exact ⟨frame twos 1, by decide +kernel, frame twos 1, rfl, by decide +kernel⟩
    have hcopy := hnever dropAll 36 0 0 (cuts ones) (cuts twos) _ _ (by decide +kernel) (by decide +kernel)
      (by decide +kernel) (by decide +kernel) hrun (fun x r hx _ => hfrags x r hx) (received twos 1)
      (joined.getD (allocPkb 0 0)) (by rw [← hjoined]; simp)
    exact absurd (hcopy.1 (by decide +kernel)).1 (by decide +kernel)

end Examples

end Spread

end Tapip.Sockets.Ident
