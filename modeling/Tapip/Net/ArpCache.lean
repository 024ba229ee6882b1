import Tapip.Ip.Out
import Tapip.Net.ArpAlloc

/-! What `ip_send_dev`, an ARP packet and the ARP timer do to the ARP cache. -/

namespace Tapip.Net.ArpCache

open Foundation.Bytes Foundation.Program Foundation.Refcount ByteOrder Pkb Arp ArpAlloc Ip.Header Ip.Out

variable {fuel : ℕ} {rt : RtEntry}

variable {s s' : Stack}

section Frames

def frame (nd : Netdev) (pkb : Pkbuf) (len : ℕ) (proto : UInt16) (dst : List UInt8) : List UInt8 :=
  (memcpy (memcpy (storeShortAt pkb.pkData 12 (htons proto)) 0 dst) 6 nd.netHwaddr).take (len + ETH_HRD_SZ)

def Carried (nds : List Netdev) (hw : List UInt8) (pkb : Pkbuf) (f : ℕ × List UInt8) : Prop :=
  ∃ nd ∈ nds, ∃ pro, f.2 = frame nd pkb (pkb.pkLen - ETH_HRD_SZ) pro hw

def IsArp (nds : List Netdev) (f : ℕ × List UInt8) : Prop :=
  ∃ nd ∈ nds, ∃ pkb hw, f.2 = frame nd pkb ARP_HRD_SZ ETH_P_ARP hw

structure Calm (s s' : Stack) : Prop where
  cache : s'.arpCache = s.arpCache
  next : s'.arpNext = s.arpNext
  devices : s'.netDevices = s.netDevices

lemma Calm.refl (s : Stack) : Calm s s := ⟨rfl, rfl, rfl⟩

lemma Calm.trans (h : Calm s s1) (h' : Calm s1 s') : Calm s s' :=
  ⟨h'.cache.trans h.cache, h'.next.trans h.next, h'.devices.trans h.devices⟩

-- What the loopback device passes to `net_in` leaves the ARP cache alone.
def Calms (netIn : NetIn) : Prop := ∀ pkb, Respects Calm (netIn loop pkb)

structure Emits (quiet : Prop) (frames : List (ℕ × List UInt8)) (freed : List ℕ) (s s' : Stack) :
    Prop where
  sent : quiet → s'.sent = s.sent ++ frames
  pkbs : quiet → Ledger.Frees freed s.pkbs s'.pkbs

variable {quiet quiet' : Prop} {frames frames' : List (ℕ × List UInt8)} {freed freed' : List ℕ}
  {s1 : Stack}

lemma Emits.trans (h : Emits quiet frames freed s s1) (h' : Emits quiet frames' freed' s1 s') :
    Emits quiet (frames ++ frames') (freed ++ freed') s s' :=
  ⟨fun hq => by rw [h'.sent hq, h.sent hq, List.append_assoc], fun hq => (h.pkbs hq).trans (h'.pkbs hq)⟩

lemma Emits.same (hsent : s'.sent = s.sent) (hpkbs : s'.pkbs = s.pkbs) : Emits quiet [] [] s s' :=
  ⟨fun _ => by rw [hsent, List.append_nil], fun _ => hpkbs ▸ .refl _⟩

lemma Emits.mono (h : Emits quiet frames freed s s') (hq : quiet' → quiet) : Emits quiet' frames freed s s' :=
  ⟨fun h' => h.sent (hq h'), fun h' => h.pkbs (hq h')⟩

end Frames

variable {pkb : Pkbuf} {i : ℕ}

section Specs

variable {netIn : NetIn} {ae : ArpEntry}

lemma freePkb_inv (h : Stack.freePkb pkb s = .ok (u, s')) :
    0 < s.pkbs.refcnt pkb.pkAddr ∧ s' = { s with pkbs := s.pkbs.free pkb.pkAddr } := by
  simp only [Stack.freePkb] at h
  split_ifs at h with hc
  exact ⟨not_le.mp hc, (ok_inj h).2.symm⟩

lemma freePkb_does (quiet : Prop) (h : Stack.freePkb pkb s = .ok (u, s')) :
    Calm s s' ∧ Emits quiet [] [pkb.pkAddr] s s' := by
  obtain ⟨hpos, rfl⟩ := freePkb_inv h
  exact ⟨⟨rfl, rfl, rfl⟩, fun _ => (List.append_nil _).symm, fun _ => .one hpos⟩

lemma getDev_inv (h : Stack.getDev dev s = .ok (nd, s')) : s' = s ∧ s.netDevices[dev]? = some nd := by
  simp only [Stack.getDev] at h
  split at h
  · cases h
  · rename_i hd
    cases h
    exact ⟨rfl, hd⟩

lemma getAe_inv (h : getAe i s = .ok (ae, s')) : s' = s ∧ s.arpCache[i]? = some ae := by
  simp only [getAe] at h
  split at h
  · cases h
  · rename_i hi
    cases h
    exact ⟨rfl, hi⟩

lemma modifyAe_inv (h : s.arpCache[i]? = some ae)
    (hrun : modifyAe i f s = .ok (u, s')) : s' = { s with arpCache := s.arpCache.set i (f ae) } := by
  rw [modifyAe_run f h] at hrun
  exact (ok_inj hrun).2.symm

lemma netdevTx_does (hnet : Calms netIn ∨ dev ≠ loop) (h : netdevTx netIn dev pkb len proto dst s = .ok (u, s')) :
    ∃ nd ∈ s.netDevices, Calm s s' ∧ Emits (dev ≠ loop) [(dev, frame nd pkb len proto dst)] [pkb.pkAddr] s s' := by
  obtain ⟨nd, s0, hdev, hbody⟩ := bind_inv h
  obtain ⟨rfl, hnd⟩ := getDev_inv hdev
  obtain ⟨_, s1, hxmit, hfree⟩ := bind_inv hbody
  refine ⟨nd, List.mem_of_getElem? hnd, ?_⟩
  by_cases hl : dev = loop
  · simp only [xmit, hl, if_true, loopXmit] at hxmit
    obtain ⟨_, s2, hget, hin⟩ := bind_inv hxmit
    have hgot : Calm s0 s2 := by
      simp only [Stack.getPkb] at hget
      split_ifs at hget
      cases hget
      exact ⟨rfl, rfl, rfl⟩
    have hin' : Calm s2 s1 := (hnet.resolve_right (not_not.mpr hl)) _ _ _ _ hin
    exact ⟨(hgot.trans hin').trans (freePkb_does True hfree).1, fun hq => absurd hl hq, fun hq => absurd hl hq⟩
  · simp only [xmit, hl, if_false] at hxmit
    cases hxmit
    obtain ⟨hcalm, hemit⟩ := freePkb_does (dev ≠ loop) hfree
    exact ⟨⟨hcalm.cache, hcalm.next, hcalm.devices⟩, fun hq => (hemit.sent hq).trans (List.append_nil _),
      hemit.pkbs⟩

lemma allocPkb_inv (h : Stack.allocPkb size s = .ok (pkb, s')) :
    pkb = Pkb.allocPkb s.pkbs.next size.toNat ∧ s' = { s with pkbs := s.pkbs.alloc } := by
  obtain ⟨addr, s1, hcount, hret⟩ := bind_inv h
  simp only [Stack.countPkb] at hcount
  split_ifs at hcount
  cases hcount
  cases hret
  exact ⟨rfl, rfl⟩

lemma aeDevice_inv (h : aeDevice ae s = .ok (dev, s')) : s' = s ∧ ae.aeDev = some dev := by
  cases hd : ae.aeDev with
  | none => simp [aeDevice, hd, Tcp.fault] at h
  | some d =>
    simp only [aeDevice, hd] at h
    cases h
    exact ⟨rfl, rfl⟩

lemma arpRequest_does (hnet : Calms netIn ∨ ae.aeDev ≠ some loop)
    (hi : s.arpCache[i]? = some ae) (h : arpRequest netIn i s = .ok (u, s')) :
    ∃ f, IsArp s.netDevices f ∧ Calm s s' ∧ Emits (ae.aeDev ≠ some loop) [f] [] s s' := by
  obtain ⟨pkb, s1, halloc, hbody⟩ := bind_inv h
  obtain ⟨rfl, rfl⟩ := allocPkb_inv halloc
  obtain ⟨ae1, s2, hget, hdevs⟩ := bind_inv hbody
  obtain ⟨rfl, hi1⟩ := getAe_inv hget
  cases Option.mem_unique hi hi1
  obtain ⟨dev, s3, hdev, hnds⟩ := bind_inv hdevs
  obtain ⟨rfl, hd⟩ := aeDevice_inv hdev
  obtain ⟨nd, s4, hnd, htx⟩ := bind_inv hnds
  obtain ⟨rfl, -⟩ := getDev_inv hnd
  have hdl : ae.aeDev ≠ some loop → dev ≠ loop := fun hq hl => hq (hd.trans (congrArg some hl))
  obtain ⟨nd', hmem, hcalm, hemit⟩ := netdevTx_does (hnet.imp_right hdl) htx
  let pkb := arpQuestion nd ae (Pkb.allocPkb s.pkbs.next (ETH_HRD_SZ + ARP_HRD_SZ))
  exact ⟨(dev, frame nd' pkb ARP_HRD_SZ ETH_P_ARP BRD_HWADDR), ⟨nd', hmem, pkb, _, rfl⟩,
    ⟨hcalm.cache, hcalm.next, hcalm.devices⟩, fun hq => hemit.sent (hdl hq),
    fun hq => .of_alloc (hemit.pkbs (hdl hq))⟩

lemma arpQueueSend_does (hnet : Calms netIn ∨ ae.aeDev ≠ some loop)
    (hi : s.arpCache[i]? = some ae) (h : arpQueueSend netIn i fuel s = .ok (u, s')) :
    ∃ frames, List.Forall₂ (Carried s.netDevices ae.aeHwaddr) ae.aeList frames ∧
      s'.arpCache = s.arpCache.set i { ae with aeList := [] } ∧ s'.arpNext = s.arpNext ∧
      s'.netDevices = s.netDevices ∧
      Emits (ae.aeDev ≠ some loop) frames (ae.aeList.map Pkbuf.pkAddr) s s' := by
  induction fuel generalizing s ae with
  | zero => simp [arpQueueSend, Tcp.fault] at h
  | succ fuel ih =>
    obtain ⟨ae1, s1, hget, hbody⟩ := bind_inv h
    obtain ⟨rfl, hi1⟩ := getAe_inv hget
    cases Option.mem_unique hi hi1
    cases hl : ae.aeList with
    | nil =>
      simp only [hl] at hbody
      cases hbody
      have hself : { ae with aeList := [] } = ae := by rw [← hl]
      refine ⟨[], .nil, ?_, rfl, rfl, .same rfl rfl⟩
      rw [hself]
      obtain ⟨hlt, hval⟩ := List.getElem?_eq_some_iff.mp hi
      rw [← hval, List.set_getElem_self]
    | cons pkb rest =>
      simp only [hl] at hbody
      obtain ⟨_, s2, hmod, hdevs⟩ := bind_inv hbody
      cases modifyAe_inv hi hmod
      obtain ⟨dev, s3, hdev, htxs⟩ := bind_inv hdevs
      obtain ⟨rfl, hd⟩ := aeDevice_inv hdev
      obtain ⟨_, s4, htx, hloop⟩ := bind_inv htxs
      have hdl : ae.aeDev ≠ some loop → dev ≠ loop := fun hq hl => hq (hd.trans (congrArg some hl))
      obtain ⟨nd, hmem, hcalm, hemit⟩ := netdevTx_does (hnet.imp_right hdl) htx
      have hi4 : s4.arpCache[i]? = some { ae with aeList := rest } := by
        rw [hcalm.cache]
        exact set_get hi _
      obtain ⟨frames, hframes, hcache, hnext, hnds, hemits⟩ := ih (by exact hnet) hi4 hloop
      refine ⟨(dev, frame nd pkb (pkb.pkLen - ETH_HRD_SZ) pkb.pkPro ae.aeHwaddr) :: frames,
        .cons ⟨nd, hmem, _, rfl⟩ ?_, ?_, ?_, ?_, ?_⟩
      · rw [hcalm.devices] at hframes
        exact hframes
      · rw [hcache, hcalm.cache]
        exact List.set_set _
      · exact hnext.trans hcalm.next
      · exact hnds.trans hcalm.devices
      · have hall := (hemit.mono hdl).trans hemits
        exact ⟨hall.sent, hall.pkbs⟩

end Specs

section Effects

inductive Act
  | send (dev : ℕ) (pkb : Pkbuf)
  | arp (dev : ℕ) (pkb : Pkbuf)
  | tick (delta : ℤ) (i : ℕ)
deriving DecidableEq

def live (ae : ArpEntry) : Prop := ae.aeState ≠ .free

def Unknown (cs : List ArpEntry) (ipaddr : UInt32) : Prop :=
  ∀ ae ∈ cs, live ae → ae.aePro = ETH_P_IP → ae.aeIpaddr ≠ ipaddr

def opened (dev : ℕ) (dst : UInt32) (pkb : Pkbuf) (ae : ArpEntry) : ArpEntry :=
  { arpInit ae with aeIpaddr := dst, aeDev := some dev, aeList := [pkb] }

def learnt (dev : ℕ) (pkb : Pkbuf) (ae : ArpEntry) : ArpEntry :=
  { arpInit ae with
    aeDev := some dev, aePro := arpPro pkb, aeTtl := ARP_TIMEOUT, aeIpaddr := arpSip pkb
    aeState := .resolved, aeHwaddr := arpSha pkb }

def resolved (pkb : Pkbuf) (ae : ArpEntry) : ArpEntry :=
  { ae with
    aeHwaddr := arpSha pkb, aeState := .resolved, aeTtl := ARP_TIMEOUT
    aeList := if ae.aeState = .waiting then [] else ae.aeList }

def flushed (ae : ArpEntry) : List Pkbuf := if ae.aeState = .waiting then ae.aeList else []

structure Meant (nds : List Netdev) (dev : ℕ) (pkb : Pkbuf) : Prop where
  pro : arpPro pkb = ETH_P_IP
  target : ∃ nd, nds[dev]? = some nd ∧ arpTip pkb = nd.netIpaddr
  size : ETH_HRD_SZ + ARP_HRD_SZ ≤ pkb.pkLen

inductive Effect (nds : List Netdev) (cs : List ArpEntry) :
    Act → List ArpEntry → List (ℕ × List UInt8) → List ℕ → Prop
  | loopback {dev : ℕ} {pkb : Pkbuf} {rt : RtEntry} {f : ℕ × List UInt8} : pkb.pkRtdst = some rt →
      isLocal rt = true → Effect nds cs (.send dev pkb) cs [f] [pkb.pkAddr]
  | full {dev : ℕ} {pkb : Pkbuf} {rt : RtEntry} : pkb.pkRtdst = some rt → isLocal rt = false →
      Unknown cs (nextHop rt (ipDst pkb)) → (∀ ae ∈ cs, live ae) →
      Effect nds cs (.send dev pkb) cs [] [pkb.pkAddr]
  | opens {dev i : ℕ} {pkb : Pkbuf} {rt : RtEntry} {ae : ArpEntry} {f : ℕ × List UInt8} :
      pkb.pkRtdst = some rt → isLocal rt = false → Unknown cs (nextHop rt (ipDst pkb)) →
      cs[i]? = some ae → ae.aeState = .free → IsArp nds f →
      Effect nds cs (.send dev pkb) (cs.set i (opened dev (nextHop rt (ipDst pkb)) pkb ae)) [f] []
  | holds {dev i : ℕ} {pkb : Pkbuf} {rt : RtEntry} {ae : ArpEntry} :
      pkb.pkRtdst = some rt → isLocal rt = false → cs[i]? = some ae → ae.aeState = .waiting →
      ae.aeIpaddr = nextHop rt (ipDst pkb) →
      Effect nds cs (.send dev pkb) (cs.set i { ae with aeList := ae.aeList ++ [pkb] }) [] []
  | direct {dev i : ℕ} {pkb : Pkbuf} {rt : RtEntry} {ae : ArpEntry} {f : ℕ × List UInt8} :
      pkb.pkRtdst = some rt → isLocal rt = false → cs[i]? = some ae → ae.aeState = .resolved →
      ae.aeIpaddr = nextHop rt (ipDst pkb) → Carried nds ae.aeHwaddr pkb f →
      Effect nds cs (.send dev pkb) cs [f] [pkb.pkAddr]
  | ignores {dev : ℕ} {pkb : Pkbuf} : Effect nds cs (.arp dev pkb) cs [] [pkb.pkAddr]
  | resolves {dev i : ℕ} {pkb : Pkbuf} {ae : ArpEntry} {frames replies : List (ℕ × List UInt8)} :
      Meant nds dev (arpNtoh pkb) → cs[i]? = some ae → live ae → ae.aeIpaddr = arpSip (arpNtoh pkb) →
      List.Forall₂ (Carried nds (arpSha (arpNtoh pkb))) (flushed ae) frames →
      (∀ f ∈ replies, IsArp nds f) →
      Effect nds cs (.arp dev pkb) (cs.set i (resolved (arpNtoh pkb) ae)) (frames ++ replies)
        ((flushed ae).map Pkbuf.pkAddr ++ [pkb.pkAddr])
  | answers {dev : ℕ} {pkb : Pkbuf} {replies : List (ℕ × List UInt8)} :
      Meant nds dev (arpNtoh pkb) → (∀ f ∈ replies, IsArp nds f) →
      Effect nds cs (.arp dev pkb) cs replies [pkb.pkAddr]
  | learns {dev i : ℕ} {pkb : Pkbuf} {ae : ArpEntry} {replies : List (ℕ × List UInt8)} :
      Meant nds dev (arpNtoh pkb) → arpOp (arpNtoh pkb) = ARP_OP_REQUEST →
      Unknown cs (arpSip (arpNtoh pkb)) → cs[i]? = some ae → ae.aeState = .free →
      (∀ f ∈ replies, IsArp nds f) →
      Effect nds cs (.arp dev pkb) (cs.set i (learnt dev (arpNtoh pkb) ae)) replies [pkb.pkAddr]
  | rests {delta : ℤ} {i : ℕ} : Effect nds cs (.tick delta i) cs [] []
  | ages {delta : ℤ} {i : ℕ} {ae : ArpEntry} : cs[i]? = some ae → live ae →
      Effect nds cs (.tick delta i) (cs.set i { ae with aeTtl := ae.aeTtl - delta }) [] []
  | asks {delta : ℤ} {i : ℕ} {ae : ArpEntry} {f : ℕ × List UInt8} : cs[i]? = some ae →
      ae.aeState = .waiting → IsArp nds f →
      Effect nds cs (.tick delta i)
        (cs.set i { ae with aeTtl := ARP_WAITTIME, aeRetry := ae.aeRetry - 1 }) [f] []
  | gives {delta : ℤ} {i : ℕ} {ae : ArpEntry} : cs[i]? = some ae → ae.aeState = .waiting →
      Effect nds cs (.tick delta i) (cs.set i { ae with
        aeTtl := ae.aeTtl - delta, aeRetry := ae.aeRetry - 1, aeList := [], aeState := .free }) []
        (ae.aeList.map Pkbuf.pkAddr)
  | forgets {delta : ℤ} {i : ℕ} {ae : ArpEntry} : cs[i]? = some ae → ae.aeState = .resolved →
      Effect nds cs (.tick delta i)
        (cs.set i { ae with aeTtl := ae.aeTtl - delta, aeState := .free }) [] []

variable (netIn : NetIn)

def Act.exec (fuel : ℕ) : Act → Prog Stack Unit
  | .send dev pkb => ipSendDev netIn dev pkb
  | .arp dev pkb => arpIn fuel netIn dev pkb
  | .tick delta i => arpTimerEntry netIn delta i

def Act.Off : Act → Prop
  | .send dev _ => dev ≠ loop
  | .arp dev _ => dev ≠ loop
  | .tick _ _ => True

def Quiet (cs : List ArpEntry) (act : Act) : Prop := act.Off ∧ ∀ ae ∈ cs, ae.aeDev ≠ some loop

structure Does (act : Act) (frames : List (ℕ × List UInt8)) (freed : List ℕ) (s s' : Stack) : Prop where
  effect : Effect s.netDevices s.arpCache act s'.arpCache frames freed
  emits : Emits (Quiet s.arpCache act) frames freed s s'
  devices : s'.netDevices = s.netDevices
  next_lt : s'.arpNext < ARP_CACHE_SZ

end Effects

section Lookup

variable {cs : List ArpEntry} {ipaddr : UInt32}

lemma arpLookup_inv (h : arpLookup pro ipaddr s = .ok (r, s')) :
    s' = s ∧ (r = none → ∀ ae ∈ s.arpCache, live ae → ae.aePro = pro → ae.aeIpaddr ≠ ipaddr) ∧
      ∀ i, r = some i → ∃ ae, s.arpCache[i]? = some ae ∧ live ae ∧ ae.aeIpaddr = ipaddr := by
  cases h
  refine ⟨rfl, ?_, ?_⟩
  · intro hnone ae hae hlive hpro hip
    have := List.findIdx?_eq_none_iff.mp hnone ae hae
    simp [show ae.aeState ≠ .free from hlive, hpro, hip] at this
  · intro i hi
    obtain ⟨hlt, hp, -⟩ := List.findIdx?_eq_some_iff_getElem.mp hi
    simp only [ne_eq, decide_not, Bool.and_eq_true, Bool.not_eq_true', decide_eq_false_iff_not,
      decide_eq_true_eq] at hp
    exact ⟨_, List.getElem?_eq_getElem hlt, hp.1.1, hp.2⟩

end Lookup

section Acts

variable {netIn : NetIn} {dev : ℕ} {u : Unit}

lemma rtdst_inv (h : rtdst pkb s = .ok (rt, s')) : s' = s ∧ pkb.pkRtdst = some rt := by
  cases hr : pkb.pkRtdst with
  | none => simp [rtdst, hr, Tcp.fault] at h
  | some r =>
    simp only [rtdst, hr] at h
    cases h
    exact ⟨rfl, rfl⟩

lemma Does.of_calm (hc : Calm s s')
    (hn : s.arpNext < ARP_CACHE_SZ) (he : Effect s.netDevices s.arpCache act s.arpCache frames freed)
    (hm : Emits (Quiet s.arpCache act) frames freed s s') : Does act frames freed s s' :=
  ⟨hc.cache ▸ he, hm, hc.devices, hc.next ▸ hn⟩

lemma arpWait_does (hnet : Calms netIn ∨ dev ≠ loop) (hlen : s.arpCache.length = ARP_CACHE_SZ)
    (hn : s.arpNext < ARP_CACHE_SZ) (hrt : pkb.pkRtdst = some rt) (hlocal : isLocal rt = false)
    (hun : Unknown s.arpCache (nextHop rt (ipDst pkb)))
    (h : arpWait netIn dev (nextHop rt (ipDst pkb)) pkb s = .ok (u, s')) :
    ∃ frames freed, Does (.send dev pkb) frames freed s s' := by
  obtain ⟨r, s1, halloc, hbody⟩ := bind_inv h
  rcases arpAlloc_inv halloc with ⟨rfl, rfl, hfull⟩ | ⟨i, ae, rfl, hi, hfree, rfl⟩
  · obtain ⟨hcalm, hemit⟩ := freePkb_does (Quiet s1.arpCache (.send dev pkb)) hbody
    exact ⟨_, _, .of_calm hcalm hn (.full hrt hlocal hun (full_of_arpNextFree hlen hn hfull)) hemit⟩
  · obtain ⟨_, s2, hmod, hreq⟩ := bind_inv hbody
    cases modifyAe_inv (set_get hi _) hmod
    have hopen : (s.arpCache.set i (arpInit ae)).set i { arpInit ae with
        aeIpaddr := nextHop rt (ipDst pkb), aeDev := some dev, aeList := (arpInit ae).aeList ++ [pkb] } =
        s.arpCache.set i (opened dev (nextHop rt (ipDst pkb)) pkb ae) := List.set_set _
    rw [hopen] at hreq
    have hdl : dev ≠ loop → some dev ≠ some loop := fun hq hl => hq (Option.some.inj hl)
    obtain ⟨f, hf, hcalm, hemit⟩ := arpRequest_does (hnet.imp_right hdl) (set_get hi _) hreq
    refine ⟨[f], [], ?_, ?_, hcalm.devices, hcalm.next ▸ Nat.mod_lt _ (by decide)⟩
    · rw [hcalm.cache]
      exact .opens hrt hlocal hun hi hfree hf
    · exact ⟨fun hq => hemit.sent (hdl hq.1), fun hq => hemit.pkbs (hdl hq.1)⟩

lemma ipSendDev_does (hnet : Calms netIn ∨ dev ≠ loop) (hlen : s.arpCache.length = ARP_CACHE_SZ) (hn : s.arpNext < ARP_CACHE_SZ)
    (h : ipSendDev netIn dev pkb s = .ok (u, s')) :
    ∃ frames freed, Does (.send dev pkb) frames freed s s' := by
  obtain ⟨rt, s1, hrt, hbody⟩ := bind_inv h
  obtain ⟨rfl, hr⟩ := rtdst_inv hrt
  have hoff : Quiet s1.arpCache (.send dev pkb) → dev ≠ loop := fun hq => hq.1
  cases hlocal : isLocal rt with
  | true =>
    simp only [hlocal, if_true] at hbody
    obtain ⟨nd, s2, hdev, htx⟩ := bind_inv hbody
    obtain ⟨rfl, -⟩ := getDev_inv hdev
    obtain ⟨nd', _, hcalm, hemit⟩ := netdevTx_does hnet htx
    exact ⟨_, _, .of_calm hcalm hn (.loopback hr hlocal) (hemit.mono hoff)⟩
  | false =>
    simp only [hlocal, Bool.false_eq_true, if_false] at hbody
    obtain ⟨r, s2, hlook, hcase⟩ := bind_inv hbody
    obtain ⟨rfl, hnone, hsome⟩ := arpLookup_inv hlook
    cases r with
    | none => exact arpWait_does hnet hlen hn hr hlocal (hnone rfl) hcase
    | some i =>
      obtain ⟨ae, hi, hlive, hip⟩ := hsome i rfl
      obtain ⟨ae1, s3, hget, hact⟩ := bind_inv hcase
      obtain ⟨rfl, hi1⟩ := getAe_inv hget
      cases Option.mem_unique hi hi1
      cases hw : ae.aeState with
      | free => exact absurd hw hlive
      | waiting =>
        simp only [hw, if_true] at hact
        cases modifyAe_inv hi hact
        exact ⟨[], [], .holds hr hlocal hi hw hip, .same rfl rfl, rfl, hn⟩
      | resolved =>
        simp only [hw, reduceCtorEq, if_false] at hact
        obtain ⟨nd, hmem, hcalm, hemit⟩ := netdevTx_does hnet hact
        exact ⟨_, _, .of_calm hcalm hn (.direct hr hlocal hi hw hip ⟨nd, hmem, _, rfl⟩) (hemit.mono hoff)⟩

inductive Learns (nds : List Netdev) (cs : List ArpEntry) (dev : ℕ) (pkb : Pkbuf) :
    List ArpEntry → List (ℕ × List UInt8) → List ℕ → Prop
  | resolves {i : ℕ} {ae : ArpEntry} {frames : List (ℕ × List UInt8)} : cs[i]? = some ae → live ae →
      ae.aeIpaddr = arpSip pkb → List.Forall₂ (Carried nds (arpSha pkb)) (flushed ae) frames →
      Learns nds cs dev pkb (cs.set i (resolved pkb ae)) frames ((flushed ae).map Pkbuf.pkAddr)
  | nothing : Learns nds cs dev pkb cs [] []
  | learns {i : ℕ} {ae : ArpEntry} : arpOp pkb = ARP_OP_REQUEST → Unknown cs (arpSip pkb) →
      cs[i]? = some ae → ae.aeState = .free → Learns nds cs dev pkb (cs.set i (learnt dev pkb ae)) [] []

lemma arpLearn_does (hnet : Calms netIn ∨ ∀ ae ∈ s.arpCache, ae.aeDev ≠ some loop) (hn : s.arpNext < ARP_CACHE_SZ) (hpro : arpPro pkb = ETH_P_IP)
    (h : arpLearn fuel netIn dev pkb s = .ok (u, s')) :
    ∃ frames freed, Learns s.netDevices s.arpCache dev pkb s'.arpCache frames freed ∧
      Emits (∀ ae ∈ s.arpCache, ae.aeDev ≠ some loop) frames freed s s' ∧
      s'.netDevices = s.netDevices ∧ s'.arpNext < ARP_CACHE_SZ := by
  obtain ⟨r, s1, hlook, hbody⟩ := bind_inv h
  obtain ⟨rfl, hnone, hsome⟩ := arpLookup_inv hlook
  cases r with
  | none =>
    by_cases hop : arpOp pkb = ARP_OP_REQUEST
    · simp only [hop, if_true] at hbody
      obtain ⟨r, s2, halloc, hins⟩ := bind_inv hbody
      rcases arpAlloc_inv halloc with ⟨rfl, rfl, -⟩ | ⟨i, ae, rfl, hi, hfree, rfl⟩
      · cases hins
        exact ⟨[], [], .nothing, .same rfl rfl, rfl, hn⟩
      · cases modifyAe_inv (set_get hi _) hins
        have hset : (s1.arpCache.set i (arpInit ae)).set i { arpInit ae with
            aeDev := some dev, aePro := arpPro pkb, aeTtl := ARP_TIMEOUT, aeIpaddr := arpSip pkb
            aeState := .resolved, aeHwaddr := arpSha pkb } = s1.arpCache.set i (learnt dev pkb ae) :=
          List.set_set _
        refine ⟨[], [], ?_, .same rfl rfl, rfl, Nat.mod_lt _ (by decide)⟩
        dsimp only
        rw [hset]
        exact .learns hop (fun ae hae hl hp => hnone rfl ae hae hl (hp.trans hpro.symm)) hi hfree
    · simp only [hop, if_false] at hbody
      cases hbody
      exact ⟨[], [], .nothing, .same rfl rfl, rfl, hn⟩
  | some i =>
    obtain ⟨ae, hi, hlive, hip⟩ := hsome i rfl
    obtain ⟨_, s2, hmod, hrest⟩ := bind_inv hbody
    cases modifyAe_inv hi hmod
    obtain ⟨ae1, s3, hget, hcase⟩ := bind_inv hrest
    obtain ⟨rfl, hi1⟩ := getAe_inv hget
    cases Option.mem_unique (set_get hi _) hi1
    by_cases hw : ae.aeState = .waiting
    · rw [if_pos (by exact hw)] at hcase
      obtain ⟨_, s4, hqueue, hlast⟩ := bind_inv hcase
      obtain ⟨frames, hframes, hcache, hnext, hnds, hemit⟩ :=
        arpQueueSend_does (hnet.imp_right fun hq => hq ae (List.mem_of_getElem? hi)) hi1 hqueue
      have hi4 : s4.arpCache[i]? = some { ae with aeHwaddr := arpSha pkb, aeList := [] } := by
        rw [hcache]
        exact set_get hi1 _
      cases modifyAe_inv hi4 hlast
      refine ⟨frames, ae.aeList.map Pkbuf.pkAddr, ?_, ?_, hnds, hnext ▸ hn⟩
      · have hres : s4.arpCache.set i { ae with
            aeHwaddr := arpSha pkb, aeList := [], aeState := .resolved, aeTtl := ARP_TIMEOUT } =
            s1.arpCache.set i (resolved pkb ae) := by
          simp [hcache, List.set_set, resolved, hw]
        have hflush : flushed ae = ae.aeList := by simp [flushed, hw]
        dsimp only
        rw [hres, ← hflush]
        exact .resolves hi hlive hip (hflush.symm ▸ hframes)
      · have hdev := hemit.mono fun (hq : ∀ ae ∈ s1.arpCache, ae.aeDev ≠ some loop) =>
          hq ae (List.mem_of_getElem? hi)
        exact ⟨hdev.sent, hdev.pkbs⟩
    · rw [if_neg (by exact hw)] at hcase
      cases modifyAe_inv hi1 hcase
      refine ⟨[], [], ?_, .same rfl rfl, rfl, hn⟩
      have hres : (s1.arpCache.set i { ae with aeHwaddr := arpSha pkb }).set i { ae with
          aeHwaddr := arpSha pkb, aeState := .resolved, aeTtl := ARP_TIMEOUT } =
          s1.arpCache.set i (resolved pkb ae) := by
        simp [List.set_set, resolved, hw]
      have hflush : flushed ae = [] := by simp [flushed, hw]
      have heff : Learns s1.netDevices s1.arpCache dev pkb (s1.arpCache.set i (resolved pkb ae)) []
          ((flushed ae).map Pkbuf.pkAddr) := .resolves hi hlive hip (hflush.symm ▸ .nil)
      dsimp only
      rw [hres]
      rwa [hflush] at heff

lemma arpAnswer_pkAddr (nd : Netdev) (pkb : Pkbuf) : (arpAnswer nd pkb).pkAddr = pkb.pkAddr := by
  simp only [arpAnswer, arpNtoh, arpHton, setShort]

lemma arpFinish_does (hnet : Calms netIn ∨ dev ≠ loop) (h : (if arpOp pkb = ARP_OP_REQUEST then arpReply netIn dev pkb
    else Stack.freePkb pkb : Prog Stack Unit) s = .ok (u, s')) :
    ∃ replies, (∀ f ∈ replies, IsArp s.netDevices f) ∧ Calm s s' ∧
      Emits (dev ≠ loop) replies [pkb.pkAddr] s s' := by
  split_ifs at h
  · obtain ⟨nd, s1, hdev, htx⟩ := bind_inv h
    obtain ⟨rfl, -⟩ := getDev_inv hdev
    obtain ⟨nd', hmem, hcalm, hemit⟩ := netdevTx_does hnet htx
    rw [arpAnswer_pkAddr] at hemit
    refine ⟨_, ?_, hcalm, hemit⟩
    intro f hf
    cases List.mem_singleton.mp hf
    exact ⟨nd', hmem, _, _, rfl⟩
  · obtain ⟨hcalm, hemit⟩ := freePkb_does (dev ≠ loop) h
    exact ⟨[], by simp, hcalm, hemit⟩

lemma ignores_does (hn : s.arpNext < ARP_CACHE_SZ) (hp : p.pkAddr = pkb.pkAddr)
    (h : Stack.freePkb p s = .ok (u, s')) : ∃ frames freed, Does (.arp dev pkb) frames freed s s' := by
  obtain ⟨hcalm, hemit⟩ := freePkb_does (Quiet s.arpCache (.arp dev pkb)) h
  exact ⟨[], [pkb.pkAddr], .of_calm hcalm hn .ignores (hp ▸ hemit)⟩

lemma arpRecv_does (hnet : Calms netIn ∨ Quiet s.arpCache (.arp dev pkb)) (hn : s.arpNext < ARP_CACHE_SZ) (hpro : arpPro (arpNtoh pkb) = ETH_P_IP)
    (hsize : ETH_HRD_SZ + ARP_HRD_SZ ≤ pkb.pkLen)
    (h : arpRecv fuel netIn dev (arpNtoh pkb) s = .ok (u, s')) :
    ∃ frames freed, Does (.arp dev pkb) frames freed s s' := by
  obtain ⟨nd, s1, hdev, hbody⟩ := bind_inv h
  obtain ⟨rfl, hnd⟩ := getDev_inv hdev
  by_cases hmulti : multicast (arpTip (arpNtoh pkb)) = true
  · rw [if_pos hmulti] at hbody
    exact ignores_does hn rfl hbody
  rw [if_neg hmulti] at hbody
  by_cases htip : arpTip (arpNtoh pkb) ≠ nd.netIpaddr
  · rw [if_pos htip] at hbody
    exact ignores_does hn rfl hbody
  rw [if_neg htip] at hbody
  have hmeant : Meant s1.netDevices dev (arpNtoh pkb) := ⟨hpro, ⟨nd, hnd, not_not.mp htip⟩, hsize⟩
  obtain ⟨_, s2, hlearn, hfinish⟩ := bind_inv hbody
  obtain ⟨frames, freed, hlearns, hemit, hnds, hnext⟩ :=
    arpLearn_does (hnet.imp_right fun hq => hq.2) hn hpro hlearn
  obtain ⟨replies, hreplies, hcalm, hemit'⟩ := arpFinish_does (hnet.imp_right fun hq => hq.1) hfinish
  rw [hnds] at hreplies
  have hall : Emits (Quiet s1.arpCache (.arp dev pkb)) (frames ++ replies) (freed ++ [pkb.pkAddr]) s1 s' :=
    (hemit.mono fun hq => hq.2).trans (hemit'.mono fun hq => hq.1)
  refine ⟨frames ++ replies, freed ++ [pkb.pkAddr], ?_, hall, hcalm.devices.trans hnds, hcalm.next ▸ hnext⟩
  rw [hcalm.cache]
  generalize s2.arpCache = cs' at hlearns
  cases hlearns with
  | resolves hi hlive hip hframes => exact .resolves hmeant hi hlive hip hframes hreplies
  | nothing => exact .answers hmeant hreplies
  | learns hop hun hi hfree => exact .learns hmeant hop hun hi hfree hreplies

lemma arpIn_does (hnet : Calms netIn ∨ Quiet s.arpCache (.arp dev pkb)) (hn : s.arpNext < ARP_CACHE_SZ)
    (h : arpIn fuel netIn dev pkb s = .ok (u, s')) :
    ∃ frames freed, Does (.arp dev pkb) frames freed s s' := by
  simp only [arpIn] at h
  split_ifs at h with hother hsize hsha hbad hop
  · exact ignores_does hn rfl h
  · exact ignores_does hn rfl h
  · exact ignores_does hn rfl h
  · exact ignores_does hn rfl h
  · exact ignores_does hn rfl h
  · simp only [ne_eq, decide_not, Bool.or_eq_true, Bool.not_eq_true', decide_eq_false_iff_not, not_or,
      not_not] at hbad
    exact arpRecv_does hnet hn hbad.1.1.2 (not_lt.mp hsize) h

lemma arpQueueDrop_does (quiet : Prop) (hi : s.arpCache[i]? = some ae) (h : arpQueueDrop i s = .ok (u, s')) :
    s'.arpCache = s.arpCache.set i { ae with aeList := [] } ∧ s'.arpNext = s.arpNext ∧
      s'.netDevices = s.netDevices ∧ Emits quiet [] (ae.aeList.map Pkbuf.pkAddr) s s' := by
  obtain ⟨ae1, s1, hget, hbody⟩ := bind_inv h
  obtain ⟨rfl, hi1⟩ := getAe_inv hget
  cases Option.mem_unique hi hi1
  have hloop : ∀ pkbs (s s' : Stack) (u : Unit), s.arpCache[i]? = some { ae with aeList := pkbs } →
      (pkbs.forM (fun pkb => do
        modifyAe i (fun ae => { ae with aeList := ae.aeList.tail })
        Stack.freePkb pkb) : Prog Stack Unit) s = .ok (u, s') →
      s'.arpCache = s.arpCache.set i { ae with aeList := [] } ∧ s'.arpNext = s.arpNext ∧
        s'.netDevices = s.netDevices ∧ Emits quiet [] (pkbs.map Pkbuf.pkAddr) s s' := by
    intro pkbs
    induction pkbs with
    | nil =>
      intro s s' u hs hrun
      cases hrun
      obtain ⟨hlt, hval⟩ := List.getElem?_eq_some_iff.mp hs
      refine ⟨?_, rfl, rfl, .same rfl rfl⟩
      rw [← hval, List.set_getElem_self]
    | cons pkb pkbs ih =>
      intro s s' u hs hrun
      obtain ⟨_, s2, hone, hrest⟩ := bind_inv hrun
      obtain ⟨_, s3, hmod, hfree⟩ := bind_inv hone
      cases modifyAe_inv hs hmod
      obtain ⟨hcalm, hemit⟩ := freePkb_does quiet hfree
      have hs2 : s2.arpCache[i]? = some { ae with aeList := pkbs } := by
        rw [hcalm.cache]
        exact set_get hs _
      obtain ⟨hcache, hnext, hnds, hemits⟩ := ih s2 s' u hs2 hrest
      have hall := hemit.trans hemits
      refine ⟨?_, hnext.trans hcalm.next, hnds.trans hcalm.devices, hall.sent, hall.pkbs⟩
      rw [hcache, hcalm.cache]
      exact List.set_set _
  exact hloop ae.aeList s1 s' u hi hbody

lemma arpTimerEntry_does (hnet : Calms netIn ∨ Quiet s.arpCache (.tick delta i)) (hn : s.arpNext < ARP_CACHE_SZ)
    (h : arpTimerEntry netIn delta i s = .ok (u, s')) :
    ∃ frames freed, Does (.tick delta i) frames freed s s' := by
  obtain ⟨ae, s1, hget, hbody⟩ := bind_inv h
  obtain ⟨rfl, hi⟩ := getAe_inv hget
  by_cases hfree : ae.aeState = .free
  · rw [if_pos hfree] at hbody
    cases hbody
    exact ⟨[], [], .rests, .same rfl rfl, rfl, hn⟩
  rw [if_neg hfree] at hbody
  obtain ⟨_, s2, hmod, hold⟩ := bind_inv hbody
  cases modifyAe_inv hi hmod
  by_cases httl : ae.aeTtl - delta ≤ 0
  · rw [if_pos httl] at hold
    cases hw : ae.aeState with
    | free => exact absurd hw hfree
    | resolved =>
      rw [if_neg (by simp [hw])] at hold
      cases modifyAe_inv (set_get hi _) hold
      refine ⟨[], [], ?_, .same rfl rfl, rfl, hn⟩
      dsimp only
      rw [List.set_set]
      exact .forgets hi hw
    | waiting =>
      rw [if_pos hw] at hold
      obtain ⟨_, s3, hmod', hretry⟩ := bind_inv hold
      cases modifyAe_inv (set_get hi _) hmod'
      by_cases hlast : ae.aeRetry - 1 < 0
      · rw [if_pos hlast] at hretry
        obtain ⟨_, s4, hdrop, hend⟩ := bind_inv hretry
        have hi3 : ((s1.arpCache.set i { ae with aeTtl := ae.aeTtl - delta }).set i
            { ae with aeTtl := ae.aeTtl - delta, aeRetry := ae.aeRetry - 1 })[i]? =
            some { ae with aeTtl := ae.aeTtl - delta, aeRetry := ae.aeRetry - 1 } :=
          set_get (set_get hi _) _
        obtain ⟨hcache, hnext, hnds, hemit⟩ :=
          arpQueueDrop_does (Quiet s1.arpCache (.tick delta i)) hi3 hdrop
        have hi4 : s4.arpCache[i]? = some { ae with
            aeTtl := ae.aeTtl - delta, aeRetry := ae.aeRetry - 1, aeList := [] } := by
          rw [hcache]
          exact set_get hi3 _
        cases modifyAe_inv hi4 hend
        refine ⟨[], ae.aeList.map Pkbuf.pkAddr, ?_, ⟨hemit.sent, hemit.pkbs⟩, hnds, hnext ▸ hn⟩
        dsimp only
        rw [hcache]
        simp only [List.set_set]
        exact .gives hi hw
      · rw [if_neg hlast] at hretry
        obtain ⟨_, s4, hmod'', hreq⟩ := bind_inv hretry
        cases modifyAe_inv (set_get (set_get hi _) _) hmod''
        have hq : Quiet s1.arpCache (.tick delta i) → ae.aeDev ≠ some loop :=
          fun hq => hq.2 ae (List.mem_of_getElem? hi)
        obtain ⟨f, hf, hcalm, hemit⟩ :=
          arpRequest_does (by exact hnet.imp_right hq) (set_get (set_get (set_get hi _) _) _) hreq
        refine ⟨[f], [], ?_, ⟨fun h => hemit.sent (hq h), fun h => hemit.pkbs (hq h)⟩, hcalm.devices,
          hcalm.next ▸ hn⟩
        rw [hcalm.cache]
        simp only [List.set_set]
        exact .asks hi hw hf
  · rw [if_neg httl] at hold
    cases hold
    exact ⟨[], [], .ages hi hfree, .same rfl rfl, rfl, hn⟩

lemma Act.does (hnet : Calms netIn ∨ Quiet s.arpCache act) (hlen : s.arpCache.length = ARP_CACHE_SZ)
    (hn : s.arpNext < ARP_CACHE_SZ) (h : act.exec netIn fuel s = .ok (u, s')) :
    ∃ frames freed, Does act frames freed s s' := by
  cases act with
  | send dev pkb => exact ipSendDev_does (hnet.imp_right fun hq => hq.1) hlen hn h
  | arp dev pkb => exact arpIn_does hnet hn h
  | tick delta i => exact arpTimerEntry_does hnet hn h

end Acts

end Tapip.Net.ArpCache
