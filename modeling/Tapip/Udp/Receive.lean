import Tapip.Ip.Quote
import Tapip.Net.Frames
import Tapip.Sockets.Senders

/-! The references to a UDP sock: its socket has one, the hash table has one, and `udp_recv` takes one for
the time of a datagram (udp/udp.c, socket/sock.c, socket/inet.c). -/

namespace Tapip.Udp.Receive

open Foundation.Bytes Foundation.Program Net Net.ByteOrder Net.Pkb Net.Arp Net.Custody
open Ip.Header Ip.Frag Ip.Out Ip.In Ip.Custody Ip.Quote
open Tcp (Sock)
open Sockets.Senders (Apart Headed)

section Calls

def IP_P_UDP : UInt8 := 17

def newSock : InetSock where
  sk := ⟨IP_P_UDP, 0, 0, 0, 0, none, [], true, false, 1⟩
  rxCb := false

def modifySock (id : ℕ) (f : Sock → Sock) : Prog Stack Unit := do
  let inet ← getInet id
  setInet id (some { inet with sk := f inet.sk })

def modifyTable (f : List ℕ → List ℕ) : Prog Stack Unit := fun s => .ok ((), { s with udpTable := f s.udpTable })

def sockAddHash (id : ℕ) : Prog Stack Unit := do
  getSock id
  modifySock id fun sk => { sk with hashed := true }
  modifyTable (id :: ·)

def sockDelHash (id : ℕ) : Prog Stack Unit := do
  if (← getInet id).sk.hashed then
    modifySock id fun sk => { sk with hashed := false }
    modifyTable (·.erase id)
    freeSock id

def inetBind (id : ℕ) (nport : UInt16) : Prog Stack Unit := do
  if (← getInet id).sk.skSport = 0 then
    modifySock id fun sk => { sk with skSport := nport }
    sockAddHash id

def sockClose (id : ℕ) : Prog Stack Unit := do
  modifySock id fun sk => { sk with recvWait := false }
  sockDelHash id
  (← getInet id).sk.recvQueue.forM Stack.freePkb
  modifySock id fun sk => { sk with recvQueue := [] }

def inetClose (id : ℕ) : Prog Stack Unit := do
  sockClose id
  freeSock id

end Calls

structure Book where
  refcnt : ℤ
  hashed : Bool
  sport : UInt16
deriving DecidableEq

def Book.of (inet : InetSock) : Book := ⟨inet.sk.refcnt, inet.sk.hashed, inet.sk.skSport⟩

def look (id : ℕ) (s : Stack) : Option (Option Book) × ℕ :=
  (s.socks[id]?.map (Option.map Book.of), s.udpTable.count id)

def refs (id : ℕ) (s : Stack) : Option ℤ := (look id s).1.join.map Book.refcnt

section Does

variable {id n : ℕ} {b : Book} {q : Option (Option Book) × ℕ} {s s' : Stack}

def Does (id : ℕ) {α : Type} (x : Prog Stack α) (p q : Option (Option Book) × ℕ) : Prop :=
  ∀ s a s', look id s = p → x s = .ok (a, s') → look id s' = q

lemma Does.bind {x : Prog Stack α} {f : α → Prog Stack β} (hx : Does id x p r) (hf : ∀ a, Does id (f a) r q) :
    Does id (x >>= f) p q := by
  intro s c s' hp hrun
  obtain ⟨a, s1, hx', hrest⟩ := bind_inv hrun
  exact hf a s1 c s' (hx s a s1 hp hx') hrest

lemma look_set (hi : s.socks[id]? = some o) (new : Option InetSock) :
    look id { s with socks := s.socks.set id new } = (some (new.map Book.of), s.udpTable.count id) := by
  have hlt : id < s.socks.length := (List.getElem?_eq_some_iff.mp hi).1
  simp [look, hlt]

lemma does_getInet {f : InetSock → Prog Stack β}
    (h : ∀ inet, Book.of inet = b → Does id (f inet) (some (some b), n) q) :
    Does id (getInet id >>= f) (some (some b), n) q := by
  intro s c s' hp hrun
  obtain ⟨inet, s1, hget, hrest⟩ := bind_inv hrun
  obtain ⟨rfl, hi⟩ := getInet_run hget
  have hb : Book.of inet = b := by
    simpa [look, hi] using congrArg Prod.fst hp
  exact h inet hb s1 c s' hp hrest

lemma does_setInet {new : Option InetSock} (hnew : new.map Book.of = o) :
    Does id (setInet id new) (some (some b), n) (some o, n) := by
  intro s u s' hp hrun
  cases hrun
  obtain ⟨old, hi, -⟩ := Option.map_eq_some_iff.mp (congrArg Prod.fst hp)
  rw [look_set hi, hnew]
  exact congrArg (some o, ·) (congrArg Prod.snd hp)

lemma does_modifySock {f : Sock → Sock} {g : Book → Book}
    (h : ∀ inet, Book.of { inet with sk := f inet.sk } = g (Book.of inet)) :
    Does id (modifySock id f) (some (some b), n) (some (some (g b)), n) :=
  does_getInet fun inet hb => does_setInet (congrArg some ((h inet).trans (congrArg g hb)))

lemma does_getSock : Does id (getSock id) (some (some b), n) (some (some { b with refcnt := b.refcnt + 1 }), n) := by
  refine does_getInet fun inet hb => does_setInet ?_
  rw [← hb]
  rfl

lemma does_freeSock (h : 1 < b.refcnt) :
    Does id (freeSock id) (some (some b), n) (some (some { b with refcnt := b.refcnt - 1 }), n) := by
  refine does_getInet fun inet hb => ?_
  have hr : inet.sk.refcnt = b.refcnt := congrArg Book.refcnt hb
  rw [if_neg (by omega), ← hb]
  exact does_setInet rfl

lemma does_freeSock_last (h : b.refcnt ≤ 1) : Does id (freeSock id) (some (some b), n) (some none, n) := by
  refine does_getInet fun inet hb => ?_
  have hr : inet.sk.refcnt = b.refcnt := congrArg Book.refcnt hb
  rw [if_pos (by omega)]
  exact does_setInet rfl

end Does

section Send

variable {id dev : ℕ} {netIn : NetIn}

def around (id : ℕ) (s : Stack) : (Option (Option Book) × ℕ) × List RtEntry × List Netdev :=
  (look id s, s.rtHead, s.netDevices)

def Spares (id : ℕ) {α : Type} (x : Prog Stack α) : Prop := Respects (fun s s' => around id s' = around id s) x

lemma sequential_spares : Sequential fun (α : Type) (x : Prog Stack α) => Spares id x :=
  sequential_respects (fun _ => rfl) fun h h' => h'.trans h

lemma Spares.bind {x : Prog Stack α} {f : α → Prog Stack β} (hx : Spares id x) (hf : ∀ a, Spares id (f a)) :
    Spares id (x >>= f) :=
  sequential_spares.bind hx hf

lemma spares_reads {x : Prog Stack α} (h : Respects Eq x) : Spares id x :=
  fun s a s' hrun => congrArg (around id) (h s a s' hrun).symm

lemma spares_freePkb (pkb : Pkbuf) : Spares id (Stack.freePkb pkb) := by
  intro s a s' h
  simp only [Stack.freePkb] at h
  split_ifs at h
  cases h
  rfl

lemma spares_frees (l : List Pkbuf) : Spares id (l.forM Stack.freePkb) := by
  induction l with
  | nil => exact sequential_spares.pure ()
  | cons pkb l ih => exact Spares.bind (spares_freePkb pkb) fun _ => ih

lemma Spares.look {x : Prog Stack α} (hx : Spares id x) (h : x s = .ok (a, s')) : look id s' = look id s :=
  congrArg Prod.fst (hx s a s' h)

lemma Spares.does {x : Prog Stack α} (hx : Spares id x) : Does id x p p :=
  fun _ _ _ hp hrun => (hx.look hrun).trans hp

lemma countPkb_inv (h : Stack.countPkb s = .ok (a, s')) : s' = { s with pkbs := s'.pkbs } := by
  simp only [Stack.countPkb] at h
  split_ifs at h
  cases h
  rfl

lemma allocPkb_inv (h : Stack.allocPkb size s = .ok (pkb, s')) :
    ∃ addr, pkb = allocPkb addr size.toNat ∧ s' = { s with pkbs := s'.pkbs } := by
  obtain ⟨addr, s1, hcount, hret⟩ := bind_inv h
  cases hret
  exact ⟨addr, rfl, countPkb_inv hcount⟩

lemma spares_allocPkb (size : ℤ) : Spares id (Stack.allocPkb size) := by
  intro s p s' h
  obtain ⟨-, -, hs⟩ := allocPkb_inv h
  rw [hs]
  rfl

lemma spares_modifyAe (i : ℕ) (f : ArpEntry → ArpEntry) : Spares id (modifyAe i f) := by
  intro s a s' h
  cases h
  rfl

section Wire

variable (hdev : dev ≠ loop)

include hdev

lemma spares_netdevTx (pkb : Pkbuf) (len : ℕ) (proto : UInt16) (dst : List UInt8) :
    Spares id (netdevTx netIn dev pkb len proto dst) := by
  refine Spares.bind (spares_reads reads_getDev) fun nd => Spares.bind ?_ fun _ => spares_freePkb _
  rw [xmit, if_neg hdev]
  intro s a s' h
  cases h
  rfl

lemma spares_arpWait (dst : UInt32) (pkb : Pkbuf) : Spares id (arpWait netIn dev dst pkb) := by
  refine Spares.bind (fun s a s' h => ?_) fun r => ?_
  · simp only [arpAlloc] at h
    split at h <;> cases h <;> rfl
  · cases r with
    | none => exact spares_freePkb pkb
    | some i =>
      intro s a s' h
      obtain ⟨⟨⟩, s1, hmod, hask⟩ := bind_inv h
      obtain ⟨q, s2, halloc, hask⟩ := bind_inv hask
      obtain ⟨ae, s3, hae, hsend⟩ := bind_inv hask
      obtain ⟨rfl, hi⟩ := getAe_run hae
      have hmade : ae.aeDev = some dev := by
        cases hmod
        obtain ⟨-, -, hs⟩ := allocPkb_inv halloc
        rw [hs] at hi
        simp only [List.getElem?_modify_eq, Option.map_eq_map, Option.map_eq_some_iff] at hi
        obtain ⟨-, -, rfl⟩ := hi
        rfl
      have hsent : Spares id (do
          let nd ← Stack.getDev dev
          netdevTx netIn dev (arpQuestion nd ae q) (q.pkLen - ETH_HRD_SZ) ETH_P_ARP BRD_HWADDR) :=
        Spares.bind (spares_reads reads_getDev) fun nd => spares_netdevTx hdev _ _ _ _
      rw [aeDevice, hmade] at hsend
      exact (hsent s3 a s' hsend).trans
        ((spares_allocPkb _ _ _ _ halloc).trans (spares_modifyAe i _ _ _ _ hmod))

lemma spares_ipSendDev (pkb : Pkbuf) : Spares id (ipSendDev netIn dev pkb) := by
  refine Spares.bind (spares_reads reads_rtdst) fun rt => ?_
  split_ifs
  · exact Spares.bind (spares_reads reads_getDev) fun _ => spares_netdevTx hdev _ _ _ _
  · refine Spares.bind (spares_reads reads_arpLookup) fun r => ?_
    cases r with
    | none => exact spares_arpWait hdev _ pkb
    | some i =>
      refine Spares.bind (spares_reads reads_getAe) fun ae => ?_
      split_ifs
      · exact spares_modifyAe i _
      · exact spares_netdevTx hdev _ _ _ _

lemma spares_sendFrags (frags : List Pkbuf) : Spares id (sendFrags netIn dev frags) := by
  induction frags with
  | nil => exact sequential_spares.pure ()
  | cons fragpkb frags ih =>
    exact Spares.bind (spares_allocPkb _) fun _ => Spares.bind (spares_ipSendDev hdev _) fun _ => ih

lemma spares_ipSendRoute (pkb : Pkbuf) : Spares id (ipSendRoute netIn dev pkb) := by
  refine Spares.bind (spares_reads reads_getDev) fun nd => ?_
  split_ifs
  · refine Spares.bind (spares_reads reads_getDev) fun nd => ?_
    split
    · exact spares_reads reads_fault
    · exact Spares.bind (spares_sendFrags hdev _) fun _ => spares_freePkb pkb
  · exact spares_ipSendDev hdev pkb

end Wire

end Send

section Loopback

variable {id n lo hi addr : ℕ} {ident : UInt16} {dst : UInt32} {p q pkb : Pkbuf} {s s' : Stack} {rt : RtEntry}

structure Unreach (ident : UInt16) (n : ℕ) (dst : UInt32) (p : Pkbuf) : Prop extends Headed ident n p where
  pkLen : p.pkLen = ETH_HRD_SZ + n
  pro : p.pkData[23]? = some IP_P_ICMP
  dst : ipDst p = dst
  type : p.pkData[34]? = some ICMP_T_DESTUNREACH

lemma Unreach.apart (h : Unreach ident n dst p) (ha : Apart lo hi p q) (hl : q.pkLen = p.pkLen)
    (hr : hi ≤ 14 ∨ 24 ≤ lo ∧ hi ≤ 30) : Unreach ident n dst q where
  length := ha.length.trans h.length
  ge := h.ge
  first := (ha.bytes 14 (by omega)).trans h.first
  len := (ha.loadShort (by omega)).trans h.len
  ident := (ha.loadShort (by omega)).trans h.ident
  fragoff := (ha.loadShort (by omega)).trans h.fragoff
  pkLen := hl.trans h.pkLen
  pro := (ha.bytes 23 (by omega)).trans h.pro
  dst := (loadIntAt_congr fun j hj => ha.bytes _ (by omega)).trans h.dst
  type := (ha.bytes 34 (by omega)).trans h.type

lemma Unreach.congr (h : Unreach ident n dst p) (hd : q.pkData = p.pkData) (hl : q.pkLen = p.pkLen) :
    Unreach ident n dst q := by
  have ha : Apart 0 0 p q := ⟨congrArg _ hd, fun i _ => by rw [hd]⟩
  exact h.apart ha hl (.inl (by omega))

lemma unreach_message (addr : ℕ) (pkb : Pkbuf) : Unreach ident (28 + icmpPaylen pkb) (ipSrc pkb)
    (ipFill (message addr .portUnreach 0 pkb) 0 (UInt16.ofNat (28 + icmpPaylen pkb)) ident 0 IP_P_ICMP (ipSrc pkb)) := by
  have he : ETH_HRD_SZ = 14 := rfl
  obtain ⟨cksum, hdata⟩ := message_pkData addr .portUnreach 0 pkb
  have hlen : (message addr .portUnreach 0 pkb).pkData.length = ETH_HRD_SZ + (28 + icmpPaylen pkb) := by
    rw [hdata, storeShortAt_length (by simp [storeInt])]
    simp [storeInt, quotedBytes_length]
    omega
  obtain ⟨ha, hdst, hpro⟩ := Sockets.Senders.apart_ipFill (by omega : 34 ≤ (message addr .portUnreach 0 pkb).pkData.length) 0
    (UInt16.ofNat (28 + icmpPaylen pkb)) ident 0 IP_P_ICMP (ipSrc pkb)
  refine { Sockets.Senders.headed_ipFill hlen (by simp only [IP_HRD_SZ]; omega) 0 0 IP_P_ICMP (ipSrc pkb) with
    pkLen := ?_, pro := hpro, dst := hdst, type := ?_ }
  · rw [Sockets.Senders.ipFill_pkLen]
    simp only [message, icmpFill, allocPkb, IP_HRD_SZ, ICMP_HRD_SZ]
  · rw [ha.bytes 34 (by omega), hdata, storeShortAt_getElem? _ _ _ _ (by simp [storeInt]) (by omega)]
    simp [storeInt]
    rfl

lemma Unreach.received (h : Unreach ident n dst q) (hc : ipCheck q = some p) :
    ipPro p = IP_P_ICMP ∧ isFragment p = false ∧ ipDst p = dst ∧ icmpType p ≠ ICMP_T_ECHOREQ := by
  obtain ⟨he, hi⟩ := header_sizes
  have hsize := h.toHeaded.size
  have hacc := ipCheck_accepted hc (by rw [h.pkLen, h.length])
  have hge := hacc.total_ge
  generalize (ntohs (ipLen q)).toNat = total at hacc hge
  have hlow : ∀ i, i < 16 ∨ 22 ≤ i → i < 34 → p.pkData[i]? = q.pkData[i]? := by
    intro i hi hlt
    rw [hacc.getElem? i (by omega), turned, if_neg (by omega)]
  have hhlen : iphlen p = 20 := by
    rw [iphlen, ipHlen, List.getD_eq_getElem?_getD, hlow 14 (by omega) (by omega), h.first]
    rfl
  refine ⟨?_, ?_, ?_, ?_⟩
  · rw [ipPro, List.getD_eq_getElem?_getD, hlow 23 (by omega) (by omega), h.pro]
    rfl
  · have hfrag : ipFragoff p = ipFragoff (ipNtoh q) := by
      rw [ipFragoff, hacc.pkData]
      exact loadShortAt_congr (List.getElem?_take_of_lt (by omega)) (List.getElem?_take_of_lt (by omega))
    rw [isFragment, hfrag, ipNtoh_ipFragoff (by omega), h.fragoff]
    rfl
  · rw [← h.dst]
    exact loadIntAt_congr fun j hj => hlow _ (by omega) (by omega)
  · have htype : p.pkData[34]? = none ∨ p.pkData[34]? = some ICMP_T_DESTUNREACH := by
      rw [hacc.pkData, List.getElem?_take]
      split_ifs
      · exact .inr ((ipNtoh_getElem? (by omega) (by omega)).trans h.type)
      · exact .inl rfl
    rw [icmpType, ip2icmp, hhlen, List.getD_eq_getElem?_getD, show ETH_HRD_SZ + 20 = 34 from rfl]
    rcases htype with ht | ht <;> rw [ht] <;> decide

lemma around_set {inet new : InetSock} {j : ℕ} (hi : s.socks[j]? = some (some inet)) (hb : Book.of new = Book.of inet) :
    around id { s with socks := s.socks.set j (some new) } = around id s := by
  by_cases hj : j = id
  · subst hj
    rw [around, look_set hi, around, look, hi, Option.map_some, hb]
    rfl
  · simp [around, look, hj]

lemma spares_recvQueueAdd (j : ℕ) (pkb : Pkbuf) : Spares id (recvQueueAdd j pkb) := by
  intro s a s' h
  obtain ⟨inet, s1, hget, hrest⟩ := bind_inv h
  obtain ⟨rfl, hi⟩ := getInet_run hget
  split_ifs at hrest
  · cases hrest
    exact around_set hi rfl
  · cases hrest

lemma spares_rawChain (pkb : Pkbuf) (ids : List ℕ) : Spares id (rawChain pkb ids) := by
  induction ids with
  | nil => exact sequential_spares.pure ()
  | cons j rest ih =>
    refine Spares.bind (spares_reads reads_getInet) fun inet => ?_
    split_ifs
    · refine Spares.bind (Spares.bind (fun s a s' h => ?_) fun _ => sequential_spares.pure _) fun copy =>
        Spares.bind (spares_recvQueueAdd j copy) fun _ => ih
      rw [countPkb_inv h]
      rfl
    · exact ih

lemma spares_icmpIn {netIn : NetIn} (h : icmpType pkb ≠ ICMP_T_ECHOREQ) : Spares id (icmpIn netIn pkb) := by
  simp only [icmpIn, icmpHandler, if_neg h, ite_self]
  exact spares_freePkb pkb

lemma Unreach.look_ipIn {netIn : NetIn} (h : Unreach ident n dst q)
    (hrt : rtLookup s.rtHead dst = some rt) (hloc : isLocal rt = true) (hrun : ipIn netIn q s = .ok ((), s')) :
    look id s' = look id s := by
  cases hc : ipCheck q with
  | none =>
    simp only [ipIn, hc] at hrun
    exact (spares_freePkb q).look hrun
  | some p =>
    obtain ⟨hpro, hfrag, hdst, htype⟩ := h.received hc
    have hin : rtInput netIn p s = .ok (some (routed rt p), s) := by
      simp only [rtInput, hdst, hrt]
      rfl
    have hpass : passUp netIn (routed rt p) s = .ok ((), s') := by
      simp only [ipIn, hc, ipRecvRoute] at hrun
      rw [bind_run hin] at hrun
      simp only [bind_run (show rtdst (routed rt p) s = .ok (rt, s) from rfl), if_pos hloc, ipRecvLocal] at hrun
      rwa [if_neg (by simp [show isFragment (routed rt p) = false from hfrag])] at hrun
    refine (Spares.bind (fun s => spares_rawChain _ _ s) fun _ => ?_).look hpass
    rw [if_pos (show ipPro (routed rt p) = _ from hpro)]
    exact spares_icmpIn htype

lemma Unreach.look_netIn {fuel dev : ℕ} (h : Unreach ident n dst q) (hpro : loadShortAt q.pkData 12 = htons ETH_P_IP)
    (hrt : rtLookup s.rtHead dst = some rt) (hloc : isLocal rt = true)
    (hrun : netIn fuel dev q s = .ok ((), s')) : look id s' = look id s := by
  cases fuel with
  | zero => cases hrun
  | succ fuel =>
    obtain ⟨nd, s1, hdev, hrest⟩ := bind_inv hrun
    obtain rfl := reads_getDev _ _ _ hdev
    have hlen : ¬q.pkLen < ETH_HRD_SZ := by
      rw [h.pkLen]
      omega
    rw [ethInit, if_neg hlen] at hrest
    simp only [hpro, ntohs_htons] at hrest
    rw [if_neg (by decide), if_neg (by decide), if_true] at hrest
    have hframe : Unreach ident n dst
        { q with pkPro := ETH_P_IP, pkType := ethType nd (ethDst q), pkIndev := some dev } := h.congr rfl rfl
    exact hframe.look_ipIn hrt hloc hrest

/-- What goes over the loopback device is for the host itself and fits into one frame. -/
structure Homely (s : Stack) : Prop where
  route : ∀ rt ∈ s.rtHead, rt.rtDev = loop → isLocal rt = true
  device : ∀ nd, s.netDevices[loop]? = some nd → 576 ≤ nd.netMtu ∧ nd.netHwaddr.length = 6

lemma apart_frame {v : UInt16} {mac src : List UInt8} (hl : 14 ≤ q.pkData.length) (hm : mac.length = 6)
    (hs : src.length = 6) (hp : p.pkData = memcpy (memcpy (storeShortAt q.pkData 12 v) 0 mac) 6 src) :
    Apart 0 14 q p ∧ loadShortAt p.pkData 12 = v := by
  have hproto : Apart 0 14 q (setShort 12 q v) := (Apart.refl 0 14 q).setShort hl 12 (by omega) (by omega) v
  have hlen : 12 ≤ (setShort 12 q v).pkData.length := by
    rw [hproto.length]
    omega
  have hto : Apart 0 12 (setShort 12 q v) { q with pkData := memcpy (storeShortAt q.pkData 12 v) 0 mac } :=
    (Apart.refl 0 12 _).memcpy hlen 0 le_rfl mac (by omega) rfl
  have haddrs : Apart 0 12 (setShort 12 q v) p := hto.memcpy hlen 6 (by omega) src (by omega) hp
  exact ⟨hproto.trans (haddrs.widen le_rfl (by omega)),
    (haddrs.loadShort (by omega)).trans (loadShortAt_storeShortAt (by omega))⟩

lemma Unreach.look_loop {fuel : ℕ} {hwaddr : List UInt8} (h : Unreach ident n dst q) (hh : Homely s)
    (hw : hwaddr.length = 6) (hrt : rtLookup s.rtHead dst = some rt) (hloc : isLocal rt = true)
    (hrun : netdevTx (netIn fuel) loop q (q.pkLen - ETH_HRD_SZ) ETH_P_IP hwaddr s = .ok ((), s')) :
    look id s' = look id s := by
  have hsize := h.toHeaded.size
  obtain ⟨nd, s1, hdev, hrest⟩ := bind_inv hrun
  obtain ⟨rfl, hnd⟩ := getDev_run hdev
  obtain ⟨⟨⟩, s2, hxmit, hfree⟩ := bind_inv hrest
  rw [xmit, if_pos rfl] at hxmit
  obtain ⟨⟨⟩, s3, hget, hin⟩ := bind_inv hxmit
  simp only [Stack.getPkb] at hget
  split_ifs at hget
  cases hget
  obtain ⟨hframe, hproto⟩ := apart_frame (p := { q with
    pkData := memcpy (memcpy (storeShortAt q.pkData 12 (htons ETH_P_IP)) 0 hwaddr) 6 nd.netHwaddr
    pkLen := q.pkLen - ETH_HRD_SZ + ETH_HRD_SZ }) (by omega) hw (hh.device nd hnd).2 rfl
  have hpkLen : q.pkLen - ETH_HRD_SZ + ETH_HRD_SZ = q.pkLen := Nat.sub_add_cancel (h.pkLen ▸ Nat.le_add_right _ _)
  exact ((spares_freePkb _).look hfree).trans ((h.apart hframe hpkLen (.inl le_rfl)).look_netIn
    (s := { s1 with pkbs := s1.pkbs.get q.pkAddr }) hproto hrt hloc hin)

lemma Unreach.look_ipSendRoute {fuel : ℕ} (h : Unreach ident n dst q) (hn : n ≤ 576) (hq : q.pkRtdst = some rt)
    (hrt : rtLookup s.rtHead dst = some rt) (hh : Homely s)
    (hrun : ipSendRoute (netIn fuel) rt.rtDev q s = .ok ((), s')) : look id s' = look id s := by
  by_cases hdev : rt.rtDev = loop
  · have hloc := hh.route rt (List.mem_of_find?_eq_some hrt) hdev
    rw [hdev] at hrun
    obtain ⟨nd, s1, hget, hrest⟩ := bind_inv hrun
    obtain ⟨rfl, hnd⟩ := getDev_run hget
    obtain ⟨hmtu, hmac⟩ := hh.device nd hnd
    have hone : ¬((ntohs (ipLen q)).toNat : ℤ) > nd.netMtu := by
      rw [h.len, ntohs_htons, UInt16.toNat_ofNat_of_lt' (show n < 2 ^ 16 by omega)]
      omega
    rw [if_neg hone, ipSendDev, rtdst, hq] at hrest
    simp only [pure_bind, if_pos hloc] at hrest
    rw [bind_run hget] at hrest
    exact h.look_loop hh hmac hrt hloc hrest
  · exact (spares_ipSendRoute hdev q).look hrun

lemma Unreach.look_ipSendOut {fuel : ℕ} (h : Unreach ident n dst q) (hn : n ≤ 576) (hq : q.pkRtdst = none)
    (hh : Homely s) (hrun : ipSendOut (netIn fuel) q s = .ok ((), s')) : look id s' = look id s := by
  simp only [ipSendOut, hq, Option.isSome_none, Bool.false_eq_true, if_false] at hrun
  obtain ⟨r, s1, hout, hsend⟩ := bind_inv hrun
  have hdst : ipDst { q with pkPro := ETH_P_IP, pkRtdst := none } = dst := h.dst
  simp only [rtOutput] at hout
  rw [hdst] at hout
  split at hout
  · cases hout
    exact (spares_freePkb _).look hsend
  rename_i rt hrt
  split at hout
  · cases hout
  rename_i nd hnd
  cases hout
  have hsize := h.toHeaded.size
  have hsrc : Apart 24 30 q (setIpSrc { q with pkRtdst := some rt, pkPro := ETH_P_IP } nd.netIpaddr) :=
    (Apart.refl 24 30 q).memcpy (by omega) 26 (by omega) (storeInt nd.netIpaddr) (by simp [storeInt]) rfl
  have hsum := hsrc.trans ((Sockets.Senders.apart_ipSetChecksum (by rw [hsrc.length]; omega)).widen le_rfl (by omega))
  have h' := h.apart hsum rfl (by omega)
  exact h'.look_ipSendRoute hn rfl hrt hh hsend

lemma look_portUnreach {fuel : ℕ} (hh : Homely s)
    (hrun : icmpSend (netIn fuel) ICMP_T_DESTUNREACH ICMP_PORT_UNREACH 0 pkb s = .ok ((), s')) :
    look id s' = look id s := by
  rw [icmpSend] at hrun
  split_ifs at hrun
  · obtain ⟨p, s1, halloc, hrest⟩ := bind_inv hrun
    obtain ⟨ident, s2, hid, hsend⟩ := bind_inv hrest
    cases hid
    obtain ⟨addr, rfl, hs1⟩ := allocPkb_inv halloc
    have hle : 28 + icmpPaylen pkb ≤ 576 := by
      simp only [icmpPaylen, IP_HRD_SZ, ICMP_HRD_SZ]
      omega
    have hsent : ipSendOut (netIn fuel) (ipFill (message addr .portUnreach 0 pkb) 0 (UInt16.ofNat (28 + icmpPaylen pkb))
        s1.ipid 0 IP_P_ICMP (ipSrc pkb)) { s1 with ipid := s1.ipid + 1 } = .ok ((), s') := hsend
    refine ((unreach_message addr pkb).look_ipSendOut hle rfl ?_ hsent).trans ?_
    · rw [hs1]
      exact ⟨hh.route, hh.device⟩
    · rw [hs1]
      rfl
  · cases hrun
    rfl

end Loopback

section Recv

variable {id j fuel : ℕ} {s s' : Stack} {pkb : Pkbuf} {inet : InetSock}

def dport (pkb : Pkbuf) : UInt16 := loadShortAt pkb.pkData (ip2udp pkb + 2)

def boundTo (s : Stack) (nport : UInt16) (j : ℕ) : Bool :=
  s.socks[j]?.join.any fun inet => inet.sk.skSport = nport

def target (s : Stack) (pkb : Pkbuf) : Option ℕ := s.udpTable.find? (boundTo s (dport pkb))

def Uncalled (id : ℕ) (s : Stack) (pkb : Pkbuf) : Prop :=
  target s pkb = some id → ∀ inet, s.socks[id]? = some (some inet) → inet.rxCb = false

lemma udpChain_find {r : Option ℕ} (h : udpChain nport ids s = .ok (r, s')) : r = ids.find? (boundTo s nport) := by
  induction ids with
  | nil =>
    cases h
    rfl
  | cons j rest ih =>
    rw [udpChain] at h
    obtain ⟨inet, s1, hget, hrest⟩ := bind_inv h
    obtain ⟨rfl, hi⟩ := getInet_run hget
    split_ifs at hrest with hp
    · obtain ⟨u, s2, -, hpure⟩ := bind_inv hrest
      cases hpure
      simp [boundTo, hi, hp]
    · rw [ih hrest, List.find?_cons_of_neg (by simp [boundTo, hi, hp])]

lemma spares_setInet (hj : j ≠ id) (new : Option InetSock) : Spares id (setInet j new) := by
  intro s a s' h
  cases h
  simp [around, look, hj]

lemma spares_freeSock (hj : j ≠ id) : Spares id (freeSock j) := by
  refine Spares.bind (spares_reads reads_getInet) fun inet => ?_
  split_ifs <;> exact spares_setInet hj _

lemma look_udpRecv_other (hh : Homely s) (ht : target s pkb ≠ some id)
    (h : udpRecv (netIn fuel) pkb s = .ok ((), s')) : look id s' = look id s := by
  obtain ⟨r, s1, hfind, hrest⟩ := bind_inv h
  obtain rfl : r = target s pkb := udpChain_find hfind
  rcases udpChain_run hfind with ⟨hr, rfl⟩ | ⟨j, inet, hr, hi, rfl⟩
  · rw [hr] at hrest
    obtain ⟨⟨⟩, s2, hsend, hfree⟩ := bind_inv hrest
    exact ((spares_freePkb pkb).look hfree).trans (look_portUnreach hh hsend)
  · rw [hr] at hrest ht
    have hj : j ≠ id := fun he => ht (congrArg some he)
    have htaken := (spares_setInet hj (some (setRefcnt (inet.sk.refcnt + 1) inet))).look (s := s) rfl
    refine Eq.trans (Spares.look (Spares.bind (spares_reads reads_getInet) fun inet => ?_) hrest) htaken
    split_ifs
    · exact spares_freePkb pkb
    · exact Spares.bind (spares_recvQueueAdd j pkb) fun _ => spares_freeSock hj

lemma look_udpRecv {netIn : NetIn} (ht : target s pkb = some id) (hi : s.socks[id]? = some (some inet)) (hr : 1 ≤ inet.sk.refcnt)
    (h : udpRecv netIn pkb s = .ok ((), s')) : look id s' = if inet.rxCb
      then (some (some { Book.of inet with refcnt := inet.sk.refcnt + 1 }), s.udpTable.count id) else look id s := by
  have hlook : look id s = (some (some (Book.of inet)), s.udpTable.count id) := by
    rw [look, hi]
    rfl
  obtain ⟨r, s1, hfind, hrest⟩ := bind_inv h
  obtain rfl : r = target s pkb := udpChain_find hfind
  rcases udpChain_run hfind with ⟨hr, -⟩ | ⟨j, inet', hj, hi', rfl⟩
  · cases hr.symm.trans ht
  · cases hj.symm.trans ht
    cases Option.mem_unique hi hi'
    have htaken := look_set hi (some (setRefcnt (inet.sk.refcnt + 1) inet))
    rw [ht] at hrest
    obtain ⟨inet₁, s2, hget, hrest⟩ := bind_inv hrest
    obtain ⟨rfl, hi1⟩ := getInet_run hget
    have hlt : id < s.socks.length := (List.getElem?_eq_some_iff.mp hi).1
    obtain rfl : setRefcnt (inet.sk.refcnt + 1) inet = inet₁ := by simpa [hlt] using hi1
    have hcb : (setRefcnt (inet.sk.refcnt + 1) inet).rxCb = inet.rxCb := rfl
    rw [hcb] at hrest
    split_ifs at hrest ⊢
    · exact ((spares_freePkb pkb).look hrest).trans htaken
    · -- the reference that the search has taken is given back
      have hone : 1 < (Book.of (setRefcnt (inet.sk.refcnt + 1) inet)).refcnt := Int.lt_add_one_of_le hr
      have hback := Does.bind (spares_recvQueueAdd id pkb).does (fun _ => does_freeSock hone) _ _ _ htaken hrest
      rw [hlook, hback]
      simp [Book.of, setRefcnt]

end Recv

section Run

inductive Run (ok : Stack → Pkbuf → Prop) (id : ℕ) : Stack → Bool → Prop
  | socket {s : Stack} (hid : s.socks.length = id) (ht : id ∉ s.udpTable) :
      Run ok id { s with socks := s.socks ++ [some newSock] } true
  | other (h : Run ok id s o) (hs : look id s' = look id s) : Run ok id s' o
  | bind (h : Run ok id s true) (hp : nport ≠ 0) (hs : inetBind id nport s = .ok ((), s')) : Run ok id s' true
  | datagram (h : Run ok id s o) (hok : ok s pkb) (hs : udpRecv (netIn fuel) pkb s = .ok ((), s')) : Run ok id s' o
  | close (h : Run ok id s true) (hs : inetClose id s = .ok ((), s')) : Run ok id s' false

inductive Right : Bool → Option (Option Book) × ℕ → Prop
  | unbound : Right true (some (some ⟨1, false, 0⟩), 0)
  | bound (hp : p ≠ 0) : Right true (some (some ⟨2, true, p⟩), 1)
  | closed : Right false (some none, 0)

variable {id n fuel : ℕ} {b : Book} {s s' : Stack} {o : Bool}

lemma refs_eq (hi : s.socks[id]? = some (some inet)) : refs id s = some inet.sk.refcnt := by
  rw [refs, look, hi]
  rfl

lemma Right.refcnt (h : Right o (look id s)) (hi : s.socks[id]? = some (some inet)) :
    1 ≤ inet.sk.refcnt ∧ inet.sk.refcnt ≤ 2 := by
  have hr := refs_eq hi
  rw [refs] at hr
  generalize look id s = p at h hr
  cases h <;> simp at hr <;> omega

lemma does_modifyTable {f : List ℕ → List ℕ} (h : ∀ l, l.count id = n → (f l).count id = m) :
    Does id (modifyTable f) (q, n) (q, m) := by
  intro s u s' hp hrun
  cases hrun
  have hfst := congrArg Prod.fst hp
  exact Prod.ext hfst (h _ (congrArg Prod.snd hp))

lemma does_sockAddHash : Does id (sockAddHash id) (some (some ⟨1, h, p⟩), 0) (some (some ⟨2, true, p⟩), 1) := by
  refine Does.bind does_getSock fun _ => Does.bind (does_modifySock (g := ({ · with hashed := true })) fun _ => rfl)
    fun _ => does_modifyTable fun l hl => ?_
  rw [List.count_cons_self, hl]

lemma does_inetBind : Does id (inetBind id nport) (some (some ⟨1, false, 0⟩), 0) (some (some ⟨2, true, nport⟩), 1) := by
  refine does_getInet fun inet hb => ?_
  have hport : inet.sk.skSport = 0 := congrArg Book.sport hb
  rw [if_pos hport]
  exact Does.bind (does_modifySock (g := ({ · with sport := nport })) fun _ => rfl) fun _ => does_sockAddHash

lemma does_inetBind_again (hp : p ≠ 0) :
    Does id (inetBind id nport) (some (some ⟨2, true, p⟩), 1) (some (some ⟨2, true, p⟩), 1) := by
  refine does_getInet fun inet hb => ?_
  have hport : inet.sk.skSport = p := congrArg Book.sport hb
  rw [if_neg (hport ▸ hp)]
  exact (sequential_spares.pure ()).does

lemma does_sockDelHash (h : Right true (some (some b), n)) :
    Does id (sockDelHash id) (some (some b), n) (some (some ⟨1, false, b.sport⟩), 0) := by
  refine does_getInet fun inet hb => ?_
  have hh : inet.sk.hashed = b.hashed := congrArg Book.hashed hb
  cases h with
  | unbound =>
    rw [if_neg (by simp [hh])]
    exact (sequential_spares.pure ()).does
  | bound hp =>
    rw [if_pos hh]
    refine Does.bind (does_modifySock (g := ({ · with hashed := false })) fun _ => rfl) fun _ =>
      Does.bind (does_modifyTable (m := 0) fun l hl => ?_) fun _ => does_freeSock one_lt_two
    rw [List.count_erase_self, hl]

lemma does_inetClose (h : Right true (some (some b), n)) :
    Does id (inetClose id) (some (some b), n) (some none, 0) := by
  exact Does.bind (Does.bind (does_modifySock (g := fun b => b) fun _ => rfl) fun _ =>
    Does.bind (does_sockDelHash h) fun _ => does_getInet fun inet _ => Does.bind (spares_frees _).does fun _ =>
      does_modifySock (g := fun b => b) fun _ => rfl) fun _ => does_freeSock_last le_rfl

lemma recv_kept_iff (hh : Homely s) (hr : Right o (look id s)) (h : udpRecv (netIn fuel) pkb s = .ok ((), s')) :
    (Uncalled id s pkb → look id s' = look id s) ∧ (refs id s' = refs id s → Uncalled id s pkb) := by
  by_cases ht : target s pkb = some id
  · obtain ⟨inet, hi⟩ : ∃ inet, s.socks[id]? = some (some inet) := by
      have hb := List.find?_some ht
      simp only [boundTo, Option.any_eq_true, Option.join_eq_some_iff] at hb
      exact ⟨hb.choose, hb.choose_spec.1⟩
    have hl := look_udpRecv ht hi (hr.refcnt hi).1 h
    refine ⟨fun hok => ?_, fun hsame _ inet' hi' => ?_⟩
    · rw [hl, if_neg (by simp [hok ht inet hi])]
    · cases Option.mem_unique hi hi'
      by_contra hcb
      rw [refs, hl, if_pos (by simpa using hcb), refs_eq hi] at hsame
      simp at hsame
  · exact ⟨fun _ => look_udpRecv_other hh ht h, fun _ ht' => absurd ht' ht⟩

lemma Run.right (h : Run (fun s pkb => Homely s ∧ Uncalled id s pkb) id s o) : Right o (look id s) := by
  induction h with
  | socket hid ht =>
    subst hid
    rw [look, List.count_eq_zero.mpr ht, List.getElem?_concat_length]
    exact .unbound
  | other _ hs ih => rwa [hs]
  | bind _ hp hs ih =>
    generalize hl : look id _ = p at ih
    cases ih with
    | unbound =>
      rw [does_inetBind _ _ _ hl hs]
      exact .bound hp
    | bound hp' =>
      rw [does_inetBind_again hp' _ _ _ hl hs]
      exact .bound hp'
  | datagram _ hok hs ih => rwa [(recv_kept_iff hok.1 ih hs).1 hok.2]
  | close _ hs ih =>
    generalize hl : look id _ = p at ih
    have hp : ∃ b n, p = (some (some b), n) := by cases ih <;> exact ⟨_, _, rfl⟩
    obtain ⟨b, n, rfl⟩ := hp
    rw [does_inetClose ih _ _ _ hl hs]
    exact .closed

structure Kept (id : ℕ) (s : Stack) (o : Bool) : Prop where
  freed : s.socks[id]? = some none ↔ id ∉ s.udpTable ∧ o = false
  refcnt : ∀ inet, s.socks[id]? = some (some inet) → 1 ≤ inet.sk.refcnt ∧ inet.sk.refcnt + 1 < 2 ^ 31

lemma Right.kept (h : Right o (look id s)) : Kept id s o := by
  refine ⟨?_, fun inet hi => ?_⟩
  · have hfreed : s.socks[id]? = some none ↔ (look id s).1 = some none := by simp [look]
    have htable : id ∉ s.udpTable ↔ (look id s).2 = 0 := List.count_eq_zero.symm
    rw [hfreed, htable]
    generalize look id s = p at h
    cases h <;> simp
  · have := h.refcnt hi
    omega

theorem udp_refcnt_kept (h : Run (fun s pkb => Homely s ∧ Uncalled id s pkb) id s o) :
    Kept id s o ∧ (Homely s → ∀ fuel pkb s', udpRecv (netIn fuel) pkb s = .ok ((), s') →
      (refs id s' = refs id s ↔ Uncalled id s pkb)) := by
  refine ⟨h.right.kept, fun hh fuel pkb s' hs => ?_⟩
  obtain ⟨hkept, hfor⟩ := recv_kept_iff hh h.right hs
  exact ⟨hfor, fun hok => congrArg (fun l => l.1.join.map Book.refcnt) (hkept hok)⟩

section Examples

def datagram (addr : ℕ) (port : UInt8) : Pkbuf :=
  { allocPkb addr 42 with
    pkType := .localhost
    pkData := List.replicate 14 0 ++ [0x45, 0, 0, 28, 0, 0, 0, 0, 64, 17, 0, 0, 10, 0, 0, 1, 10, 0, 0, 1] ++
      [9, 9, 7, port, 0, 8, 0, 0] }

def started : Stack := { Frames.idle with pkbs := ⟨fun a => if a < 2 then 1 else 0, 2, 2, 0⟩ }

def bound : Stack := finalState (inetBind 0 0x0707) { started with socks := [some newSock] }

lemma run_bound (ok : Stack → Pkbuf → Prop) : Run ok 0 bound true :=
  .bind (.socket (s := started) rfl List.not_mem_nil) (by decide) (run_of_outcome (by decide +kernel))

lemma homely_of_boot (hr : s.rtHead = Frames.idle.rtHead) (hd : s.netDevices = [ArpInvariant.lo, ArpInvariant.eth]) :
    Homely s := by
  refine ⟨?_, fun nd hnd => ?_⟩
  · rw [hr]
    decide
  · rw [hd] at hnd
    cases hnd
    decide

def heard : Stack := finalState (udpRecv (netIn 1) (datagram 0 7)) bound

def answered : Stack := finalState (udpRecv (netIn 1) (datagram 1 8)) heard

lemma Uncalled.of_rxCb (h : s.socks[id]?.map (Option.map InetSock.rxCb) = some (some false)) (pkb : Pkbuf) :
    Uncalled id s pkb := by
  intro _ inet hi
  simpa [hi] using h

theorem udp_refcnt_kept_answered : answered.ipid = 1 ∧ Kept 0 answered true := by
  have hheard : Run (fun s pkb => Homely s ∧ Uncalled 0 s pkb) 0 heard true :=
    .datagram (run_bound _) ⟨homely_of_boot rfl rfl, .of_rxCb (by decide +kernel) _⟩ (run_of_outcome (by decide +kernel))
  have hanswered : Run (fun s pkb => Homely s ∧ Uncalled 0 s pkb) 0 answered true :=
    .datagram hheard ⟨homely_of_boot (by decide +kernel) (by decide +kernel), .of_rxCb (by decide +kernel) _⟩
      (run_of_outcome (by decide +kernel))
  exact ⟨by decide +kernel, (udp_refcnt_kept hanswered).1⟩

def called : Stack := { bound with socks := bound.socks.map (Option.map ({ · with rxCb := true })) }

def recalled : Stack := finalState (udpRecv (netIn 1) (datagram 0 7)) called

theorem udp_callback_leaks : refs 0 recalled ≠ refs 0 called ∧
    Run (fun s _ => Homely s) 0 (finalState (inetClose 0) recalled) false ∧
      ¬ Kept 0 (finalState (inetClose 0) recalled) false := by
  have hcalled : Run (fun s _ => Homely s) 0 called true := .other (run_bound _) (by decide +kernel)
  have hrecalled : Run (fun s _ => Homely s) 0 recalled true :=
    .datagram hcalled (homely_of_boot rfl rfl) (run_of_outcome (a := ()) (by decide +kernel))
  refine ⟨by decide +kernel, .close hrecalled (run_of_outcome (by decide +kernel)), fun hk => ?_⟩
  have hleft : (finalState (inetClose 0) recalled).socks[0]? ≠ some none := by decide +kernel
  exact hleft (hk.freed.mpr ⟨by decide +kernel, rfl⟩)

end Examples

end Run

end Tapip.Udp.Receive
