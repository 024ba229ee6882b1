import Tapip.Foundation.Buckets
import Tapip.Tcp.Sock

/-! Local ports of UDP socks (udp/udp_sock.c, sock_close of socket/sock.c). -/

namespace Tapip.Udp.Ports

open Foundation.Buckets Foundation.Program Net.ByteOrder Tcp

def UDP_HASH_SIZE : ℕ := 128

def UDP_HASH_MASK : UInt16 := 127

def UDP_BEST_UPDATE : ℤ := 10

def UDP_PORT_MIN : UInt16 := 0x8000

def UDP_PORT_MAX : UInt16 := 0xf000

structure UdpSock where
  sk : Sock
  hash : ℕ

structure HashTable where
  socks : ℕ → Option UdpSock
  head : ℕ → List ℕ
  used : ℕ → ℤ
  bestSlot : ℕ
  bestUpdate : ℤ

def udpInit (socks : ℕ → Option UdpSock) : HashTable where
  socks := socks
  head _ := []
  used _ := 0
  bestSlot := 0
  bestUpdate := UDP_BEST_UPDATE

def slotOf (port : UInt16) : ℕ := (port &&& UDP_HASH_MASK).toNat

def sportOf (sk : UdpSock) : UInt16 := sk.sk.skSport

def portUsedOn (s : HashTable) (port : UInt16) (head : List ℕ) : Bool :=
  finds sportOf s.socks (htons port) head

def portUsed (s : HashTable) (port : UInt16) : Bool := portUsedOn s port (s.head (slotOf port))

def firstPort (s : HashTable) : UInt16 := UInt16.ofNat s.bestSlot + UDP_PORT_MIN

def skipUsed (used : UInt16 → Bool) : ℕ → UInt16 → Option UInt16
  | 0, _ => none
  | fuel + 1, port =>
    if port < UDP_PORT_MAX then
      if used port then skipUsed used fuel (port + UInt16.ofNat UDP_HASH_SIZE) else some port
    else some port

def slotWalk : ℕ := (UDP_PORT_MAX.toNat - UDP_PORT_MIN.toNat) / UDP_HASH_SIZE + 1

def takeSlot (s : HashTable) : HashTable :=
  { s with used := Function.update s.used s.bestSlot (s.used s.bestSlot + 1) }

def udpGetBestPort : Prog HashTable UInt16 := fun s =>
  if s.used s.bestSlot = 0 then .ok (firstPort s, takeSlot s)
  else match skipUsed (fun port => portUsedOn s port (s.head s.bestSlot)) slotWalk (firstPort s) with
    | none => .error .hang
    | some port => if port ≥ UDP_PORT_MAX then .ok (0, s) else .ok (port, takeSlot s)

def udpUpdateBest (hash : ℕ) (s : HashTable) : HashTable :=
  if s.bestSlot ≠ hash ∧ s.used hash < s.used s.bestSlot then { s with bestSlot := hash } else s

def leastUsed (s : HashTable) : ℕ :=
  ((List.range UDP_HASH_SIZE).foldl
    (fun best i => if s.used i < best.2 then (i, s.used i) else best) (s.bestSlot, s.used s.bestSlot)).1

def udpGetPortSlow : Prog HashTable UInt16 := fun s =>
  if leastUsed s = s.bestSlot then .ok (0, s)
  else udpGetBestPort { s with bestSlot := leastUsed s, bestUpdate := UDP_BEST_UPDATE }

def findBetter (best : ℕ) (s : HashTable) : HashTable :=
  if s.bestUpdate - 1 ≤ 0 then
    { s with
      bestUpdate := UDP_BEST_UPDATE
      bestSlot := ((List.range UDP_HASH_SIZE).find? (fun i => s.used i < s.used best)).getD s.bestSlot }
  else { s with bestUpdate := s.bestUpdate - 1 }

def udpGetPort : Prog HashTable UInt16 := fun s => do
  let (port, s') ← udpGetBestPort s
  if port = 0 then udpGetPortSlow s'
  else .ok (htons port, findBetter s.bestSlot s')

def udpHash (id : ℕ) (nport : UInt16) (t : UdpSock) (s : HashTable) : HashTable :=
  let hash := slotOf (ntohs nport)
  { s with
    socks := Function.update s.socks id (some
      { hash := hash, sk := { t.sk with skSport := nport, refcnt := t.sk.refcnt + 1, hashed := true } })
    head := push hash id s.head }

def udpSetSport (id : ℕ) (nport : UInt16) : Prog HashTable Bool := fun s =>
  match s.socks id with
  | none => .error .useAfterFree
  | some t => do
    if nport ≠ 0 ∧ portUsed s (ntohs nport) = true then .ok (false, s)
    else
      let (nport, s) ← if nport ≠ 0 then .ok (nport, s) else udpGetPort s
      if nport = 0 then .ok (false, s)
      else .ok (true, udpHash id nport t (udpUpdateBest (slotOf (ntohs nport)) s))

def udpUnsetSport (hash : ℕ) (s : HashTable) : HashTable :=
  udpUpdateBest hash { s with used := Function.update s.used hash (s.used hash - 1) }

def put (s : HashTable) (id : ℕ) (t : Option UdpSock) : HashTable :=
  { s with socks := Function.update s.socks id t }

def modifySk (id : ℕ) (f : Sock → Sock) : Prog HashTable Unit := fun s =>
  match s.socks id with
  | none => .error .useAfterFree
  | some t => .ok ((), put s id (some { t with sk := f t.sk }))

def freeSock (id : ℕ) : Prog HashTable Unit := fun s =>
  match s.socks id with
  | none => .error .useAfterFree
  | some t =>
    if t.sk.refcnt - 1 ≤ 0 then .ok ((), put s id none)
    else .ok ((), put s id (some { t with sk := { t.sk with refcnt := t.sk.refcnt - 1 } }))

def sockDelHash (id : ℕ) : Prog HashTable Unit := fun s =>
  match s.socks id with
  | none => .error .useAfterFree
  | some t =>
    if t.sk.hashed then
      freeSock id { put s id (some { t with sk := { t.sk with hashed := false } }) with
        head := remove id s.head }
    else .ok ((), s)

-- The slot gives back a place whether or not the sock has a port.
def udpUnhash (id : ℕ) : Prog HashTable Unit := fun s =>
  match s.socks id with
  | none => .error .useAfterFree
  | some t => sockDelHash id (udpUnsetSport t.hash s)

def sockClose (id : ℕ) : Prog HashTable Unit := do
  modifySk id (fun sk => { sk with recvWait := false })
  udpUnhash id
  modifySk id (fun sk => { sk with recvQueue := [] })

def inetClose (id : ℕ) : Prog HashTable Unit := do
  sockClose id
  freeSock id

inductive Reached (ok : HashTable → UInt16 → Prop) : HashTable → Prop
  | init {socks : ℕ → Option UdpSock} :
      (∀ id t, socks id = some t → t.sk.hashed = false ∧ t.hash = 0) → Reached ok (udpInit socks)
  | setSport {s s' : HashTable} {id : ℕ} {t : UdpSock} {nport : UInt16} {r : Bool} :
      Reached ok s → s.socks id = some t → t.sk.hashed = false → ok s nport →
      udpSetSport id nport s = .ok (r, s') → Reached ok s'
  | close {s s' : HashTable} {id : ℕ} : Reached ok s → inetClose id s = .ok ((), s') → Reached ok s'

/-- The best slot, if nothing counts as bound in it, has its first port to give; else it has a port
left, or no other slot counts as less used. -/
def PortReady (s : HashTable) : Prop :=
  if s.used s.bestSlot = 0 then portUsed s (firstPort s) = false
  else (∃ port, UDP_PORT_MIN ≤ port ∧ port < UDP_PORT_MAX ∧ slotOf port = s.bestSlot ∧
      portUsed s port = false) ∨
    ∀ i < UDP_HASH_SIZE, s.used s.bestSlot ≤ s.used i

section Slots

variable {s : HashTable} {port : UInt16}

lemma slotOf_eq (port : UInt16) : slotOf port = port.toNat % UDP_HASH_SIZE := by
  rw [slotOf, UInt16.toNat_and]
  exact Nat.and_two_pow_sub_one_eq_mod port.toNat 7

lemma slotOf_lt (port : UInt16) : slotOf port < UDP_HASH_SIZE := by
  rw [slotOf_eq]
  exact Nat.mod_lt _ (by decide)

lemma firstPort_toNat (h : s.bestSlot < UDP_HASH_SIZE) : (firstPort s).toNat = 0x8000 + s.bestSlot := by
  simp only [UDP_HASH_SIZE] at h
  simp only [firstPort, UInt16.toNat_add, UInt16.toNat_ofNat', UDP_PORT_MIN, UInt16.reduceToNat]
  omega

lemma skipUsed_spec {used : UInt16 → Bool} {b j fuel : ℕ} (hb : b < UDP_HASH_SIZE)
    (hp : port.toNat = 0x8000 + b + 128 * j) (hj : j < 225) (hf : 225 ≤ fuel + j) :
    ∃ r k, skipUsed used fuel port = some r ∧ r.toNat = 0x8000 + b + 128 * k ∧ (r < UDP_PORT_MAX → used r = false) ∧
      ∀ q : UInt16, port.toNat ≤ q.toNat → q.toNat < r.toNat → slotOf q = b → used q = true := by
  simp only [UDP_HASH_SIZE] at hb
  induction fuel generalizing port j with
  | zero => omega
  | succ fuel ih =>
    rw [skipUsed]
    split_ifs with hlt hu
    · have hlt' : port.toNat < 0xf000 := hlt
      have hnext : (port + UInt16.ofNat UDP_HASH_SIZE).toNat = 0x8000 + b + 128 * (j + 1) := by
        simp only [UDP_HASH_SIZE, UInt16.toNat_add, UInt16.toNat_ofNat']
        omega
      obtain ⟨r, k, hr, hrk, hfree, hall⟩ := ih hnext (by omega) (by omega)
      refine ⟨r, k, hr, hrk, hfree, fun q hpq hqr hq => ?_⟩
      rw [slotOf_eq, UDP_HASH_SIZE] at hq
      by_cases he : q = port
      · rw [he]
        exact hu
      · have hne : q.toNat ≠ port.toNat := fun h => he (UInt16.toNat_inj.mp h)
        exact hall q (by omega) hqr (by rw [slotOf_eq, UDP_HASH_SIZE]; exact hq)
    · exact ⟨port, j, rfl, hp, fun _ => by simpa using hu, fun q h1 h2 => by omega⟩
    · exact ⟨port, j, rfl, hp, fun h => absurd h hlt, fun q h1 h2 => by omega⟩

lemma portUsedOn_eq {b : ℕ} (h : slotOf port = b) : portUsedOn s port (s.head b) = portUsed s port := by
  rw [portUsed, h]

def InSlot (port : UInt16) (b : ℕ) : Prop := UDP_PORT_MIN ≤ port ∧ port < UDP_PORT_MAX ∧ slotOf port = b

def Full (s : HashTable) (b : ℕ) : Prop := ∀ port, InSlot port b → portUsed s port = true

def FirstFree (s : HashTable) (b : ℕ) (port : UInt16) : Prop :=
  InSlot port b ∧ portUsed s port = false ∧ ∀ q, q < port → InSlot q b → portUsed s q = true

lemma FirstFree.ne_zero (h : FirstFree s b port) : port ≠ 0 := by
  rintro rfl
  exact absurd h.1.1 (by decide)

lemma FirstFree.unique (h : FirstFree s b port) (h' : FirstFree s b q) : port = q := by
  rcases Nat.lt_trichotomy port.toNat q.toNat with hlt | heq | hlt
  · have := h'.2.2 port hlt h.1
    simp [h.2.1] at this
  · exact UInt16.toNat_inj.mp heq
  · have := h.2.2 q hlt h'.1
    simp [h'.2.1] at this

lemma udpGetBestPort_spec (hb : s.bestSlot < UDP_HASH_SIZE) (hused : s.used s.bestSlot ≠ 0) :
    (∃ port, udpGetBestPort s = .ok (port, takeSlot s) ∧ FirstFree s s.bestSlot port) ∨
      udpGetBestPort s = .ok (0, s) ∧ Full s s.bestSlot := by
  have hfirst : (firstPort s).toNat = 0x8000 + s.bestSlot + 128 * 0 := firstPort_toNat hb
  obtain ⟨r, k, hr, hrk, hfree, hall⟩ := @skipUsed_spec (firstPort s)
    (fun port => portUsedOn s port (s.head s.bestSlot)) s.bestSlot 0 slotWalk hb hfirst (by omega)
    (by decide)
  have hslot : slotOf r = s.bestSlot := by
    rw [slotOf_eq, hrk]
    simp only [UDP_HASH_SIZE] at hb ⊢
    omega
  have hbelow : ∀ q : UInt16, InSlot q s.bestSlot → q < r → portUsed s q = true := by
    rintro q ⟨hmin, -, hq⟩ hlt
    rw [← portUsedOn_eq hq]
    have hmin' : 0x8000 ≤ q.toNat := hmin
    have hmod := hq
    rw [slotOf_eq, UDP_HASH_SIZE] at hmod
    exact hall q (by omega) hlt hq
  simp only [udpGetBestPort, if_neg hused, hr]
  split_ifs with hge
  · exact .inr ⟨rfl, fun q hq => hbelow q hq (UInt16.lt_iff_toNat_lt.mpr (lt_of_lt_of_le hq.2.1 hge))⟩
  · have hlt : r < UDP_PORT_MAX := by simpa using hge
    have hmin : UDP_PORT_MIN ≤ r := by
      rw [UInt16.le_iff_toNat_le, hrk]
      exact (Nat.le_add_right _ _).trans (Nat.le_add_right _ _)
    refine .inl ⟨r, rfl, ⟨hmin, hlt, hslot⟩, ?_, fun q hq hin => hbelow q hin hq⟩
    rw [← portUsedOn_eq hslot]
    exact hfree hlt

lemma leastUsed_eq (h : ∀ i < UDP_HASH_SIZE, s.used s.bestSlot ≤ s.used i) : leastUsed s = s.bestSlot := by
  have hfold : ∀ l : List ℕ, (∀ i ∈ l, s.used s.bestSlot ≤ s.used i) →
      l.foldl (fun best i => if s.used i < best.2 then (i, s.used i) else best)
        (s.bestSlot, s.used s.bestSlot) = (s.bestSlot, s.used s.bestSlot) := by
    intro l hl
    induction l with
    | nil => rfl
    | cons i l ih =>
      rw [List.foldl_cons, if_neg (not_lt.mpr (hl i (by simp)))]
      exact ih fun j hj => hl j (by simp [hj])
  rw [leastUsed, hfold _ fun i hi => h i (List.mem_range.mp hi)]

lemma findBetter_bestSlot (hb : s.bestSlot < UDP_HASH_SIZE) : (findBetter best s).bestSlot < UDP_HASH_SIZE := by
  rw [findBetter]
  split_ifs
  · cases hf : (List.range UDP_HASH_SIZE).find? (fun i => s.used i < s.used best) with
    | none => simpa [hf] using hb
    | some i => simpa [hf] using List.mem_of_find?_eq_some hf
  · exact hb

structure SameSocks (s s' : HashTable) : Prop where
  socks : s'.socks = s.socks
  head : s'.head = s.head
  best : s'.bestSlot < UDP_HASH_SIZE

lemma sameSocks_findBetter (hb : s.bestSlot < UDP_HASH_SIZE) : SameSocks s (findBetter best (takeSlot s)) := by
  refine ⟨?_, ?_, findBetter_bestSlot hb⟩ <;>
  · rw [findBetter]
    split_ifs <;> rfl

lemma udpGetPort_spec (hb : s.bestSlot < UDP_HASH_SIZE) (h : PortReady s) :
    ∃ nport s', udpGetPort s = .ok (nport, s') ∧ SameSocks s s' ∧
      (nport ≠ 0 → portUsed s (ntohs nport) = false) := by
  have hgives : ∀ {port}, udpGetBestPort s = .ok (port, takeSlot s) → port ≠ 0 →
      portUsed s port = false → ∃ nport s', udpGetPort s = .ok (nport, s') ∧ SameSocks s s' ∧
        (nport ≠ 0 → portUsed s (ntohs nport) = false) := by
    intro port hrun h0 hfree
    refine ⟨htons port, findBetter s.bestSlot (takeSlot s), ?_, sameSocks_findBetter hb, fun _ => ?_⟩
    · simp only [udpGetPort, hrun, ok_bind, if_neg h0]
    · rwa [ntohs_htons]
  simp only [PortReady] at h
  split_ifs at h with hused
  · refine hgives (by simp [udpGetBestPort, hused]) ?_ h
    intro h0
    have hfirst := firstPort_toNat hb
    rw [h0] at hfirst
    simp at hfirst
    omega
  · obtain ⟨port, hrun, hfirst⟩ | ⟨hrun, hfull⟩ := udpGetBestPort_spec hb hused
    · exact hgives hrun hfirst.ne_zero hfirst.2.1
    · obtain ⟨port, hmin, hmax, hslot, hfree⟩ | hleast := h
      · simp [hfull port ⟨hmin, hmax, hslot⟩] at hfree
      · refine ⟨0, s, ?_, ⟨rfl, rfl, hb⟩, fun h => absurd rfl h⟩
        simp only [udpGetPort, hrun, ok_bind, if_true, udpGetPortSlow, leastUsed_eq hleast]

end Slots

section Sound

structure Sound (s : HashTable) : Prop where
  filed : Filed (fun nport => slotOf (ntohs nport)) sportOf (·.sk.hashed) s.socks s.head
  best : s.bestSlot < UDP_HASH_SIZE
  hash : ∀ {id t}, s.socks id = some t → t.hash < UDP_HASH_SIZE

variable {s s' : HashTable} {id : ℕ} {t : UdpSock}

lemma portUsed_iff (h : Sound s) : portUsed s (ntohs nport) = true ↔
    ∃ b, ∃ i ∈ s.head b, ∃ t, s.socks i = some t ∧ sportOf t = nport := by
  rw [← h.filed.finds_iff, portUsed, portUsedOn]
  simp only [ntohs_htons]

lemma hash_update (h : Sound s) (hv : ∀ t ∈ v, t.hash < UDP_HASH_SIZE)
    (ht : Function.update s.socks id v i = some t) : t.hash < UDP_HASH_SIZE := by
  by_cases hi : i = id
  · subst hi
    rw [Function.update_self] at ht
    exact hv t ht
  · rw [Function.update_of_ne hi] at ht
    exact h.hash ht

lemma udpUpdateBest_bestSlot {hash : ℕ} (hb : s.bestSlot < UDP_HASH_SIZE) (hh : hash < UDP_HASH_SIZE) :
    (udpUpdateBest hash s).bestSlot < UDP_HASH_SIZE := by
  rw [udpUpdateBest]
  split_ifs
  · exact hh
  · exact hb

@[simp] lemma udpUpdateBest_socks (hash : ℕ) (s : HashTable) : (udpUpdateBest hash s).socks = s.socks := by
  rw [udpUpdateBest]
  split_ifs <;> rfl

@[simp] lemma udpUpdateBest_head (hash : ℕ) (s : HashTable) : (udpUpdateBest hash s).head = s.head := by
  rw [udpUpdateBest]
  split_ifs <;> rfl

lemma Sound.udpHash (h : Sound s) (ht : s.socks id = some t) (hn : t.sk.hashed = false)
    (hfree : portUsed s (ntohs nport) = false) (hs : SameSocks s s') :
    Sound (udpHash id nport t (udpUpdateBest (slotOf (ntohs nport)) s')) := by
  have hid : ∀ b, id ∉ s.head b := by
    intro b hid
    simp [(h.filed.linked_iff ht).mpr ⟨b, hid⟩] at hn
  refine ⟨?_, udpUpdateBest_bestSlot hs.best (slotOf_lt _), ?_⟩
  · simp only [Ports.udpHash, udpUpdateBest_socks, udpUpdateBest_head, hs.socks, hs.head]
    refine h.filed.link hid rfl ?_
    intro b j hj o ho he
    have hclash : portUsed s (ntohs nport) = true := (portUsed_iff h).mpr ⟨b, j, hj, o, ho, he⟩
    simp [hfree] at hclash
  · intro i u hu
    simp only [Ports.udpHash, udpUpdateBest_socks, hs.socks] at hu
    refine hash_update h ?_ hu
    intro u hu
    cases hu
    exact slotOf_lt _

lemma Sound.of_same (h : Sound s) (hs : SameSocks s s') : Sound s' := by
  refine ⟨?_, hs.best, ?_⟩
  · rw [hs.socks, hs.head]
    exact h.filed
  · rw [hs.socks]
    exact h.hash

lemma udpSetSport_spec (h : Sound s) (ht : s.socks id = some t) (hn : t.sk.hashed = false) (hready : nport = 0 → PortReady s) :
    ∃ r s', udpSetSport id nport s = .ok (r, s') ∧ Sound s' ∧
      (r = true → ∃ u, s'.socks id = some u ∧ portUsed s (ntohs (sportOf u)) = false) := by
  simp only [udpSetSport, ht]
  have hlink : ∀ {p : UInt16} {s1 : HashTable}, SameSocks s s1 → portUsed s (ntohs p) = false →
      Sound (udpHash id p t (udpUpdateBest (slotOf (ntohs p)) s1)) ∧ (true = true → ∃ u,
        (udpHash id p t (udpUpdateBest (slotOf (ntohs p)) s1)).socks id = some u ∧
          portUsed s (ntohs (sportOf u)) = false) := by
    intro p s1 hs hfree
    exact ⟨h.udpHash ht hn hfree hs, fun _ => ⟨_, Function.update_self _ _ _, hfree⟩⟩
  by_cases h0 : nport = 0
  · obtain ⟨p, s1, hrun, hs, hfree⟩ := udpGetPort_spec h.best (hready h0)
    simp only [h0, ne_eq, not_true, false_and, if_false, hrun, ok_bind]
    split_ifs with hp
    · exact ⟨false, s1, rfl, h.of_same hs, nofun⟩
    · exact ⟨true, _, rfl, hlink hs (hfree hp)⟩
  · simp only [ne_eq, h0, not_false_eq_true, true_and, if_true, ok_bind, if_false]
    split_ifs with hu
    · exact ⟨false, s, rfl, h, nofun⟩
    · exact ⟨true, _, rfl, hlink ⟨rfl, rfl, h.best⟩ (by simpa using hu)⟩

lemma Sound.unsetSport (h : Sound s) {hash : ℕ} (hh : hash < UDP_HASH_SIZE) : Sound (udpUnsetSport hash s) := by
  refine h.of_same ⟨?_, ?_, udpUpdateBest_bestSlot h.best hh⟩
  · rw [udpUnsetSport, udpUpdateBest_socks]
  · rw [udpUnsetSport, udpUpdateBest_head]

@[simp] lemma put_self (s : HashTable) (id : ℕ) (v : Option UdpSock) : (put s id v).socks id = v :=
  Function.update_self _ _ _

def Unlinked (id : ℕ) (s : HashTable) : Prop := ∀ t, s.socks id = some t → t.sk.hashed = false

lemma Sound.aside (h : Sound s) (ht : s.socks id = some t) (hn : t.sk.hashed = false) (hv : ∀ u ∈ v, u.sk.hashed = false) (hh : ∀ u ∈ v, u.hash < UDP_HASH_SIZE) :
    Sound (put s id v) ∧ Unlinked id (put s id v) := by
  have hid : ∀ b, id ∉ s.head b := by
    intro b hid
    simp [(h.filed.linked_iff ht).mpr ⟨b, hid⟩] at hn
  refine ⟨⟨h.filed.aside hid hv, h.best, hash_update h hh⟩, ?_⟩
  intro u hu
  rw [put_self] at hu
  exact hv u hu

lemma Sound.unlink (h : Sound s) (hv : ∀ u ∈ v, u.sk.hashed = false) (hh : ∀ u ∈ v, u.hash < UDP_HASH_SIZE) :
    Sound { put s id v with head := remove id s.head } :=
  ⟨h.filed.unlink hv, h.best, hash_update h hh⟩

lemma freeSock_sound (h : Sound s) (hn : Unlinked id s) (hrun : freeSock id s = .ok ((), s')) :
    Sound s' ∧ Unlinked id s' := by
  simp only [freeSock] at hrun
  split at hrun
  · simp at hrun
  · rename_i t ht
    split_ifs at hrun
    · cases hrun
      exact h.aside ht (hn t ht) nofun nofun
    · cases hrun
      have hold : t.hash < UDP_HASH_SIZE := h.hash ht
      refine h.aside ht (hn t ht) ?_ ?_ <;>
      · intro u hu
        cases hu
        first | exact hn t ht | exact hold

lemma modifySk_sound (hrun : modifySk id f s = .ok ((), s')) (h : Sound s)
    (hp : ∀ sk, (f sk).skSport = sk.skSport) (hl : ∀ sk, (f sk).hashed = sk.hashed) :
    Sound s' ∧ (Unlinked id s → Unlinked id s') := by
  simp only [modifySk] at hrun
  split at hrun
  · simp at hrun
  · rename_i t ht
    cases hrun
    have hold : t.hash < UDP_HASH_SIZE := h.hash ht
    refine ⟨⟨h.filed.touch ht (hp _) (hl _), h.best, hash_update h ?_⟩, ?_⟩
    · intro u hu
      cases hu
      exact hold
    · intro hn u hu
      rw [put_self] at hu
      cases hu
      exact (hl _).trans (hn t ht)

lemma sockDelHash_sound (h : Sound s) (hrun : sockDelHash id s = .ok ((), s')) : Sound s' ∧ Unlinked id s' := by
  simp only [sockDelHash] at hrun
  split at hrun
  · simp at hrun
  · rename_i t ht
    split_ifs at hrun with hl
    · have hold : t.hash < UDP_HASH_SIZE := h.hash ht
      refine freeSock_sound (h.unlink ?_ ?_) ?_ hrun
      · intro u hu
        cases hu
        rfl
      · intro u hu
        cases hu
        exact hold
      · intro u hu
        cases Option.mem_unique (put_self s id _) hu
        rfl
    · cases hrun
      refine ⟨h, fun u hu => ?_⟩
      cases Option.mem_unique ht hu
      simpa using hl

lemma inetClose_sound (h : Sound s) (hrun : inetClose id s = .ok ((), s')) : Sound s' := by
  obtain ⟨⟨⟩, s4, hclose, hfree⟩ := bind_inv hrun
  obtain ⟨⟨⟩, s1, hwait, hrest⟩ := bind_inv hclose
  obtain ⟨⟨⟩, s2, hunhash, hqueue⟩ := bind_inv hrest
  have h1 := (modifySk_sound hwait h (fun _ => rfl) fun _ => rfl).1
  simp only [udpUnhash] at hunhash
  split at hunhash
  · simp at hunhash
  · rename_i t ht
    obtain ⟨h2, hn2⟩ := sockDelHash_sound (h1.unsetSport (h1.hash ht)) hunhash
    obtain ⟨h3, hn3⟩ := modifySk_sound hqueue h2 (fun _ => rfl) fun _ => rfl
    exact (freeSock_sound h3 (hn3 hn2) hfree).1

lemma Reached.sound (h : Reached (fun s nport => nport = 0 → PortReady s) s) : Sound s := by
  induction h with
  | init hsocks =>
    exact ⟨filed_empty fun i t ht => (hsocks i t ht).1, Nat.zero_lt_succ _, fun {i t} ht => by
      rw [(hsocks i t ht).2]
      decide⟩
  | setSport _ ht hn hready hrun ih =>
    obtain ⟨r, s', hok, hs, -⟩ := udpSetSport_spec ih ht hn hready
    obtain ⟨-, rfl⟩ := ok_inj (hok.symm.trans hrun)
    exact hs
  | close _ hrun ih => exact inetClose_sound ih hrun

theorem ports_distinct (h : Reached (fun s nport => nport = 0 → PortReady s) s) :
    (∀ b c i j t u, i ∈ s.head b → j ∈ s.head c → s.socks i = some t → s.socks j = some u →
      t.sk.skSport = u.sk.skSport → i = j) ∧
    ∀ id t s', s.socks id = some t → t.sk.hashed = false → PortReady s →
      udpSetSport id 0 s = .ok (true, s') → ∃ u, s'.socks id = some u ∧
        ∀ b i v, i ∈ s.head b → s.socks i = some v → v.sk.skSport ≠ u.sk.skSport := by
  have hs := h.sound
  refine ⟨fun b c i j t u hi hj ht hu he => hs.filed.distinct hi hj ht hu he, ?_⟩
  intro id t s' ht hn hready hrun
  obtain ⟨r, s1, hok, -, hnew⟩ := udpSetSport_spec hs ht hn fun _ => hready
  obtain ⟨rfl, rfl⟩ := ok_inj (hok.symm.trans hrun)
  obtain ⟨u, hu, hfree⟩ := hnew rfl
  refine ⟨u, hu, fun b i v hi hv he => ?_⟩
  have hused : portUsed s (ntohs (sportOf u)) = true := (portUsed_iff hs).mpr ⟨b, i, hi, v, hv, he⟩
  simp [hfree] at hused

end Sound

def fresh : UdpSock := ⟨⟨17, 0, 0, 0, 0, none, [], true, false, 1⟩, 0⟩

def opened : HashTable := udpInit (fun id => if id < 2 then some fresh else none)

lemma reached_opened : Reached ok opened := by
  refine .init fun id t ht => ?_
  simp only [Option.ite_none_right_eq_some] at ht
  obtain ⟨-, ht⟩ := ht
  cases ht
  exact ⟨rfl, rfl⟩

def oneAuto : HashTable := finalState (udpSetSport 0 0) opened

def bothAuto : HashTable := finalState (udpSetSport 1 0) oneAuto

theorem ports_distinct_auto : bothAuto.head 0 = [1, 0] ∧
    (∃ u, bothAuto.socks 1 = some u ∧ ∀ b i v, i ∈ oneAuto.head b → oneAuto.socks i = some v →
      v.sk.skSport ≠ u.sk.skSport) ∧
    ∀ b c i j t u, i ∈ bothAuto.head b → j ∈ bothAuto.head c → bothAuto.socks i = some t →
      bothAuto.socks j = some u → t.sk.skSport = u.sk.skSport → i = j := by
  have hready : PortReady opened := by
    rw [PortReady, if_pos (show opened.used opened.bestSlot = 0 from rfl)]
    decide +kernel
  have hready' : PortReady oneAuto := by
    rw [PortReady, if_neg (by decide +kernel)]
    exact .inl ⟨0x8080, by decide, by decide, by decide +kernel, by decide +kernel⟩
  have hrun : udpSetSport 0 0 opened = .ok (true, oneAuto) := run_of_outcome (by decide +kernel)
  have hrun' : udpSetSport 1 0 oneAuto = .ok (true, bothAuto) := run_of_outcome (by decide +kernel)
  have hone : Reached (fun s nport => nport = 0 → PortReady s) oneAuto :=
    .setSport reached_opened (show opened.socks 0 = some fresh from rfl) rfl (fun _ => hready) hrun
  have hfresh : oneAuto.socks 1 = some fresh := rfl
  exact ⟨by decide +kernel, (ports_distinct hone).2 1 fresh _ hfresh rfl hready' hrun',
    (ports_distinct (.setSport hone hfresh rfl (fun _ => hready') hrun')).1⟩

def oneBound : HashTable := finalState (udpSetSport 0 0x0080) opened

def bothBound : HashTable := finalState (udpSetSport 1 0) oneBound

/-- The first automatic call takes the port the other sock was bound to. -/
theorem bound_port_given_again : ∃ s : HashTable, Reached (fun _ _ => True) s ∧
    s.head 0 = [1, 0] ∧ (s.socks 0).map sportOf = some 0x0080 ∧
    (s.socks 1).map sportOf = some 0x0080 := by
  have hbind : udpSetSport 0 0x0080 opened = .ok (true, oneBound) := run_of_outcome (by decide +kernel)
  have hauto : udpSetSport 1 0 oneBound = .ok (true, bothBound) := run_of_outcome (by decide +kernel)
  have hone : Reached (fun _ _ => True) oneBound :=
    .setSport reached_opened (show opened.socks 0 = some fresh from rfl) rfl trivial hbind
  have hfresh : oneBound.socks 1 = some fresh := rfl
  exact ⟨bothBound, .setSport hone hfresh rfl trivial hauto, by decide +kernel, by decide +kernel,
    by decide +kernel⟩

end Tapip.Udp.Ports
