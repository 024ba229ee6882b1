import Tapip.Foundation.Buckets
import Tapip.Tcp.World

/-! Local ports and the bind hash table (tcp/tcp_sock.c, include/tcp_hash.h). -/

namespace Tapip.Tcp.Ports

open Foundation.Buckets Foundation.Program Net.ByteOrder

def TCP_BHASH_SIZE : ℕ := 0x100

def TCP_BHASH_MASK : UInt16 := 0xff

def TCP_BPORT_MIN : UInt16 := 0x8000

def TCP_BPORT_MAX : UInt16 := 0xf000

def TCP_BPORTS : ℕ := TCP_BPORT_MAX.toNat - TCP_BPORT_MIN.toNat + 1

def nextDefport (defport : UInt16) : UInt16 :=
  if defport + 1 > TCP_BPORT_MAX then TCP_BPORT_MIN else defport + 1

section Choice

variable (used : UInt16 → Bool)

def skipUsed : ℕ → UInt16 → Option UInt16
  | 0, _ => none
  | fuel + 1, defport =>
    if used (htons defport) then skipUsed fuel (nextDefport defport) else some defport

-- With the port goes the value of the static variable `defport`.
def tcpGetPort (bfree : ℤ) (defport : UInt16) : Except Fault (UInt16 × UInt16) :=
  if bfree ≤ 0 then .ok (0, defport)
  else match skipUsed used TCP_BPORTS defport with
    | none => .error .hang
    | some port => .ok (htons port, nextDefport port)

def choosePort (bfree : ℤ) (defport nport : UInt16) : Except Fault (UInt16 × UInt16) :=
  if nport ≠ 0 then .ok (if used nport then 0 else nport, defport)
  else tcpGetPort used bfree defport

end Choice

def InRange (port : UInt16) : Prop := TCP_BPORT_MIN ≤ port ∧ port ≤ TCP_BPORT_MAX

section Search

variable {used : UInt16 → Bool} {port : UInt16}

lemma inRange_iff : InRange port ↔ 0x8000 ≤ port.toNat ∧ port.toNat ≤ 0xf000 := Iff.rfl

lemma nextDefport_toNat (h : port.toNat ≤ 0xf000) :
    (nextDefport port).toNat = if port.toNat = 0xf000 then 0x8000 else port.toNat + 1 := by
  have hadd : (port + 1).toNat = port.toNat + 1 := by
    rw [UInt16.toNat_add, UInt16.toNat_one, Nat.mod_eq_of_lt (by omega)]
  simp only [nextDefport, gt_iff_lt, UInt16.lt_iff_toNat_lt, hadd, TCP_BPORT_MAX, TCP_BPORT_MIN, UInt16.reduceToNat]
  split_ifs <;> first | omega | rfl

lemma nextDefport_le (port : UInt16) : (nextDefport port).toNat ≤ 0xf000 := by
  rw [nextDefport]
  split_ifs with h
  · decide
  · exact not_lt.mp h

lemma InRange.next (h : InRange port) : InRange (nextDefport port) := by
  obtain ⟨h1, h2⟩ := inRange_iff.mp h
  rw [inRange_iff, nextDefport_toNat h2]
  split_ifs <;> omega

lemma InRange.iterate (h : InRange port) (k : ℕ) : InRange (nextDefport^[k] port) :=
  Function.Iterate.rec InRange h (fun _ => InRange.next) k

lemma TCP_BPORTS_eq : TCP_BPORTS = 0x7001 := rfl

lemma iterate_toNat (h : port.toNat ≤ 0xf000) {k : ℕ} (hk : k < TCP_BPORTS) : (nextDefport^[k] port).toNat =
      if port.toNat + k ≤ 0xf000 then port.toNat + k else port.toNat + k - TCP_BPORTS := by
  have hports := TCP_BPORTS_eq
  induction k with
  | zero => simp [h]
  | succ k ih =>
    have hk' := ih (by omega)
    have hle : (nextDefport^[k] port).toNat ≤ 0xf000 := by
      rw [hk']
      split_ifs <;> omega
    rw [Function.iterate_succ_apply', nextDefport_toNat hle, hk']
    split_ifs <;> omega

lemma iterate_injOn (port : UInt16) : Set.InjOn (fun k => nextDefport^[k] port) (Finset.range TCP_BPORTS) := by
  have hle : ∀ {p : UInt16}, p.toNat ≤ 0xf000 → ∀ {j k : ℕ}, j < TCP_BPORTS → k < TCP_BPORTS →
      nextDefport^[j] p = nextDefport^[k] p → j = k := by
    intro p hp j k hj hk he
    have he := congrArg UInt16.toNat he
    rw [iterate_toNat hp hj, iterate_toNat hp hk] at he
    have hports := TCP_BPORTS_eq
    split_ifs at he <;> omega
  intro j hj k hk he
  simp only [Finset.coe_range, Set.mem_Iio] at hj hk he
  by_cases hp : port.toNat ≤ 0xf000
  · exact hle hp hj hk he
  · -- a value above the range is left at once, and for good
    have hlow : ∀ n, nextDefport^[n + 1] port ≠ port := by
      intro n h
      rw [Function.iterate_succ_apply'] at h
      exact hp (h ▸ nextDefport_le _)
    cases j with
    | zero =>
      cases k with
      | zero => rfl
      | succ k => exact absurd he.symm (hlow k)
    | succ j =>
      cases k with
      | zero => exact absurd he (hlow j)
      | succ k =>
        rw [Function.iterate_succ_apply, Function.iterate_succ_apply] at he
        exact congrArg _ (hle (nextDefport_le port) (by omega) (by omega) he)

lemma skipUsed_spec {fuel k : ℕ} (hk : k < fuel) (hfree : used (htons (nextDefport^[k] port)) = false) :
    ∃ j, skipUsed used fuel port = some (nextDefport^[j] port) := by
  induction fuel generalizing port k with
  | zero => omega
  | succ fuel ih =>
    rw [skipUsed]
    split_ifs with hu
    · cases k with
      | zero => simp [hu] at hfree
      | succ k =>
        obtain ⟨j, hj⟩ := ih (Nat.lt_of_succ_lt_succ hk) hfree
        exact ⟨j + 1, hj⟩
    · exact ⟨0, rfl⟩

lemma skipUsed_unused {fuel : ℕ} {r : UInt16} (h : skipUsed used fuel port = some r) : used (htons r) = false := by
  induction fuel generalizing port with
  | zero => simp [skipUsed] at h
  | succ fuel ih =>
    rw [skipUsed] at h
    split_ifs at h with hu
    · exact ih h
    · cases h
      simpa using hu

lemma choosePort_unused {bfree : ℤ} {defport nport defport' : UInt16}
    (h : choosePort used bfree defport nport = .ok (port, defport')) (hp : port ≠ 0) :
    used port = false := by
  simp only [choosePort, tcpGetPort] at h
  split_ifs at h with h1 h2 h3
  · simp_all
  · cases h
    simpa using h2
  · simp_all
  · split at h
    · simp at h
    · rename_i r hr
      cases h
      exact skipUsed_unused hr

lemma choosePort_ne_useAfterFree (bfree : ℤ) (defport nport : UInt16) :
    choosePort used bfree defport nport ≠ .error .useAfterFree := by
  simp only [choosePort, tcpGetPort]
  split_ifs
  · simp
  · simp
  · simp
  · split <;> simp

lemma tcpGetPort_spec {bfree : ℤ} {defport : UInt16}
    (hfree : 0 < bfree → ∃ k < TCP_BPORTS, used (htons (nextDefport^[k] defport)) = false) :
    ∃ port defport', tcpGetPort used bfree defport = .ok (port, defport') ∧
      (InRange defport → InRange defport' ∧ (port ≠ 0 → InRange (ntohs port))) ∧
      (port ≠ 0 → used port = false) := by
  simp only [tcpGetPort]
  split_ifs with hb
  · exact ⟨0, defport, rfl, fun hd => ⟨hd, fun h => absurd rfl h⟩, fun h => absurd rfl h⟩
  · obtain ⟨k, hk, hu⟩ := hfree (by omega)
    obtain ⟨j, hj⟩ := skipUsed_spec hk hu
    refine ⟨_, _, by rw [hj], fun hd => ⟨(hd.iterate j).next, fun _ => ?_⟩, fun _ => skipUsed_unused hj⟩
    rw [ntohs_htons]
    exact hd.iterate j

lemma choosePort_spec {bfree : ℤ} {defport : UInt16} (nport : UInt16) (hd : InRange defport)
    (hfree : 0 < bfree → ∃ k < TCP_BPORTS, used (htons (nextDefport^[k] defport)) = false) :
    ∃ port defport', choosePort used bfree defport nport = .ok (port, defport') ∧ InRange defport' ∧
      (port ≠ 0 → used port = false) := by
  simp only [choosePort]
  split_ifs with h1 h2
  · exact ⟨0, defport, rfl, hd, fun h => absurd rfl h⟩
  · exact ⟨nport, defport, rfl, hd, fun _ => by simpa using h2⟩
  · obtain ⟨port, defport', hrun, hin, hun⟩ := tcpGetPort_spec hfree
    exact ⟨port, defport', hrun, (hin hd).1, hun⟩

end Search

structure BindTable where
  socks : ℕ → Option TcpSock
  btable : ℕ → List ℕ
  bfree : ℤ
  defport : UInt16

def portUsed (socks : ℕ → Option TcpSock) (nport : UInt16) (head : List ℕ) : Bool :=
  finds (fun t : TcpSock => t.sk.skSport) socks nport head

def bhashfn (nport : UInt16) : ℕ := (ntohs nport &&& TCP_BHASH_MASK).toNat

def tcpPortUsed (s : BindTable) (nport : UInt16) : Bool :=
  portUsed s.socks nport (s.btable (bhashfn nport))

def tcpInit (socks : ℕ → Option TcpSock) : BindTable where
  socks := socks
  btable _ := []
  bfree := TCP_BPORT_MAX.toNat - TCP_BPORT_MIN.toNat + 1
  defport := TCP_BPORT_MIN

def BindTable.put (s : BindTable) (id : ℕ) (t : Option TcpSock) : BindTable :=
  { s with socks := Function.update s.socks id t }

def tcpBhash (id : ℕ) (nport : UInt16) (t : TcpSock) (s : BindTable) : BindTable :=
  { s.put id (some (setRefcnt (t.sk.refcnt + 1) { t with bhashed := true })) with
    btable := push (bhashfn nport) id s.btable }

def tcpSetSport (id : ℕ) (nport : UInt16) : Prog BindTable Bool := fun s =>
  match s.socks id, choosePort (tcpPortUsed s) s.bfree s.defport nport with
  | none, _ => .error .useAfterFree
  | _, .error e => .error e
  | some t, .ok (nport, defport) =>
    let s := { s with defport := defport }
    if nport = 0 then .ok (false, s)
    else .ok (true, tcpBhash id nport { t with sk := { t.sk with skSport := nport } }
      { s with bfree := s.bfree - 1 })

def tcpUnbhash (id : ℕ) : Prog BindTable Unit := fun s =>
  match s.socks id with
  | none => .error .useAfterFree
  | some t =>
    if t.bhashed then
      let s := { s with bfree := s.bfree + 1, btable := remove id s.btable }
      let t := { t with bhashed := false }
      if t.sk.refcnt - 1 ≤ (0 : ℤ) then .ok ((), s.put id none)
      else .ok ((), s.put id (some (setRefcnt (t.sk.refcnt - 1) t)))
    else .ok ((), s)

inductive Reached : BindTable → Prop
  | init {socks : ℕ → Option TcpSock} : (∀ id t, socks id = some t → t.bhashed = false) →
      Reached (tcpInit socks)
  | setSport {s s' : BindTable} {id : ℕ} {t : TcpSock} {nport : UInt16} {r : Bool} : Reached s →
      s.socks id = some t → t.bhashed = false → tcpSetSport id nport s = .ok (r, s') → Reached s'
  | unbhash {s s' : BindTable} {id : ℕ} : Reached s → tcpUnbhash id s = .ok ((), s') → Reached s'

section Table

structure Exact (s : BindTable) : Prop where
  filed : Filed bhashfn (fun t : TcpSock => t.sk.skSport) TcpSock.bhashed s.socks s.btable
  total : s.bfree + (entries TCP_BHASH_SIZE s.btable).length = TCP_BPORTS
  defport : InRange s.defport

variable {s s' : BindTable} {id : ℕ} {t : TcpSock} {nport : UInt16}

lemma bhashfn_lt (nport : UInt16) : bhashfn nport < TCP_BHASH_SIZE := by
  rw [bhashfn, UInt16.toNat_and]
  exact Nat.lt_of_le_of_lt Nat.and_le_right (by decide)

lemma Exact.bucket_lt (h : Exact s) {b : ℕ} (hid : id ∈ s.btable b) : b < TCP_BHASH_SIZE := by
  obtain ⟨t, ht, -⟩ := h.filed.live hid
  rw [h.filed.home hid ht]
  exact bhashfn_lt _

lemma exact_init {socks : ℕ → Option TcpSock} (h : ∀ id t, socks id = some t → t.bhashed = false) :
    Exact (tcpInit socks) where
  filed := filed_empty h
  total := by simp [tcpInit, entries, TCP_BPORTS, TCP_BPORT_MAX, TCP_BPORT_MIN]
  defport := by simp [tcpInit, InRange, TCP_BPORT_MAX, TCP_BPORT_MIN]

lemma Exact.port_left (h : Exact s) (port : UInt16) (hfree : 0 < s.bfree) :
    ∃ k < TCP_BPORTS, tcpPortUsed s (htons (nextDefport^[k] port)) = false := by
  have hinj : Set.InjOn (fun k => htons (nextDefport^[k] port)) (Finset.range TCP_BPORTS) :=
    fun j hj k hk he => iterate_injOn port hj hk (by simpa using congrArg htons he)
  have hlt : (entries TCP_BHASH_SIZE s.btable).length <
      ((Finset.range TCP_BPORTS).image fun k => htons (nextDefport^[k] port)).card := by
    have htotal := h.total
    rw [Finset.card_image_of_injOn hinj, Finset.card_range]
    omega
  obtain ⟨nport, hmem, hnone⟩ := exists_key_free (fun id => (s.socks id).elim 0 fun t => t.sk.skSport) hlt
  simp only [Finset.mem_image, Finset.mem_range] at hmem
  obtain ⟨k, hk, rfl⟩ := hmem
  refine ⟨k, hk, ?_⟩
  by_contra hused
  obtain ⟨b, id, hid, t, ht, he⟩ := h.filed.finds_iff.mp (Bool.not_eq_false _ ▸ hused)
  refine hnone b (h.bucket_lt hid) id hid ?_
  simp only [ht, Option.elim_some, he]

lemma Exact.link (h : Exact s) {defport : UInt16} (hd : InRange defport) (hid : ∀ b, id ∉ s.btable b)
    {u : TcpSock} (hb : u.bhashed = true) (hfree : tcpPortUsed s u.sk.skSport = false) :
    Exact ⟨Function.update s.socks id (some u), push (bhashfn u.sk.skSport) id s.btable, s.bfree - 1, defport⟩ := by
  refine ⟨h.filed.link hid hb ?_, ?_, hd⟩
  · intro b j hj o ho he
    have hclash : tcpPortUsed s u.sk.skSport = true := h.filed.finds_iff.mpr ⟨b, j, hj, o, ho, he⟩
    simp [hfree] at hclash
  · have hlen := length_entries_push s.btable id (bhashfn_lt u.sk.skSport)
    have htotal := h.total
    simp only [hlen]
    push_cast
    omega

lemma Exact.unlink (h : Exact s) {b : ℕ} (hid : id ∈ s.btable b) {v : Option TcpSock}
    (hv : ∀ u ∈ v, u.bhashed = false) :
    Exact ⟨Function.update s.socks id v, remove id s.btable, s.bfree + 1, s.defport⟩ := by
  refine ⟨h.filed.unlink hv, ?_, h.defport⟩
  have hlen := h.filed.length_remove (h.bucket_lt hid) hid
  have htotal := h.total
  simp only
  omega

lemma tcpSetSport_spec (h : Exact s) (nport : UInt16) (ht : s.socks id = some t) (hb : t.bhashed = false) :
    ∃ r s', tcpSetSport id nport s = .ok (r, s') ∧ Exact s' := by
  obtain ⟨port, defport, hchoose, hd, hused⟩ := choosePort_spec nport h.defport (h.port_left _)
  simp only [tcpSetSport, ht, hchoose]
  split_ifs with h0
  · exact ⟨false, _, rfl, h.filed, h.total, hd⟩
  · have hid : ∀ b, id ∉ s.btable b := by
      intro b hid
      simp [(h.filed.linked_iff ht).mpr ⟨b, hid⟩] at hb
    have hlink := @Exact.link s id h defport hd hid (setRefcnt (t.sk.refcnt + 1)
      { t with bhashed := true, sk := { t.sk with skSport := port } }) rfl (hused h0)
    exact ⟨true, _, rfl, hlink⟩

lemma tcpUnbhash_spec (h : Exact s) (ht : s.socks id = some t) : ∃ s', tcpUnbhash id s = .ok ((), s') ∧ Exact s' := by
  simp only [tcpUnbhash, ht]
  cases hb : t.bhashed with
  | false => exact ⟨s, by simp, h⟩
  | true =>
    obtain ⟨b, hid⟩ := h.filed.listed ht hb
    simp only [if_true]
    split_ifs
    · have hfreed := @Exact.unlink s id h b hid none (by simp)
      exact ⟨_, rfl, hfreed⟩
    · have hkept := @Exact.unlink s id h b hid
        (some (setRefcnt (t.sk.refcnt - 1) { t with bhashed := false })) (by simp [setRefcnt])
      exact ⟨_, rfl, hkept⟩

lemma Reached.exact (h : Reached s) : Exact s := by
  induction h with
  | init hsocks => exact exact_init hsocks
  | setSport _ ht hb hrun ih =>
    obtain ⟨r, s', hok, he⟩ := tcpSetSport_spec ih _ ht hb
    obtain ⟨-, rfl⟩ := ok_inj (hok.symm.trans hrun)
    exact he
  | @unbhash s s' id _ hrun ih =>
    cases ht : s.socks id with
    | none => simp [tcpUnbhash, ht] at hrun
    | some t =>
      obtain ⟨s1, hok, he⟩ := tcpUnbhash_spec ih ht
      obtain ⟨-, rfl⟩ := ok_inj (hok.symm.trans hrun)
      exact he

theorem bind_table_exact (h : Reached s) :
    (∀ b c i j t u, i ∈ s.btable b → j ∈ s.btable c → s.socks i = some t → s.socks j = some u →
      t.sk.skSport = u.sk.skSport → i = j) ∧
    (∀ b i, i ∈ s.btable b → ∃ t, s.socks i = some t ∧ b = bhashfn t.sk.skSport) ∧
    (∀ nport, tcpPortUsed s nport = true ↔ ∃ b, ∃ i ∈ s.btable b, ∃ t, s.socks i = some t ∧ t.sk.skSport = nport) ∧
    ((entries TCP_BHASH_SIZE s.btable).Nodup ∧ (∀ i, i ∈ entries TCP_BHASH_SIZE s.btable ↔ ∃ b, i ∈ s.btable b) ∧
      s.bfree + (entries TCP_BHASH_SIZE s.btable).length = TCP_BPORT_MAX.toNat - TCP_BPORT_MIN.toNat + 1) ∧
    (∀ id t nport, s.socks id = some t → t.bhashed = false → ∃ r s', tcpSetSport id nport s = .ok (r, s')) ∧
    (∀ id t, s.socks id = some t → ∃ s', tcpUnbhash id s = .ok ((), s')) := by
  have he := h.exact
  refine ⟨?_, ?_, ?_, ⟨he.filed.nodup_entries _, ?_, ?_⟩, ?_, ?_⟩
  · intro b c i j t u hi hj ht hu hp
    exact he.filed.distinct hi hj ht hu hp
  · intro b i hi
    obtain ⟨t, ht, -⟩ := he.filed.live hi
    exact ⟨t, ht, he.filed.home hi ht⟩
  · intro nport
    exact he.filed.finds_iff
  · intro i
    simp only [entries, List.mem_flatMap, List.mem_range]
    constructor
    · rintro ⟨b, -, hi⟩
      exact ⟨b, hi⟩
    · rintro ⟨b, hi⟩
      exact ⟨b, he.bucket_lt hi, hi⟩
  · exact he.total
  · intro id t nport ht hb
    obtain ⟨r, s', hrun, -⟩ := tcpSetSport_spec he nport ht hb
    exact ⟨r, s', hrun⟩
  · intro id t ht
    obtain ⟨s', hrun, -⟩ := tcpUnbhash_spec he ht
    exact ⟨s', hrun⟩

def unbound : BindTable := tcpInit (fun id => if id < 2 then some tcpAllocSock else none)

def autoBound : BindTable := finalState (tcpSetSport 0 0) unbound

lemma reached_unbound : Reached unbound := by
  refine .init fun id t ht => ?_
  simp only [Option.ite_none_right_eq_some] at ht
  obtain ⟨-, ht⟩ := ht
  cases ht
  rfl

lemma reached_autoBound : Reached autoBound := by
  have hrun : tcpSetSport 0 0 unbound = .ok (true, autoBound) := run_of_outcome (by decide +kernel)
  exact .setSport reached_unbound (show unbound.socks 0 = some tcpAllocSock from rfl) rfl hrun

theorem bind_table_exact_auto : Reached autoBound ∧ autoBound.btable 0 = [0] ∧
    autoBound.bfree + (entries TCP_BHASH_SIZE autoBound.btable).length =
      TCP_BPORT_MAX.toNat - TCP_BPORT_MIN.toNat + 1 :=
  ⟨reached_autoBound, by decide +kernel, (bind_table_exact reached_autoBound).2.2.2.1.2.2⟩

theorem tcpGetPort_ends (h : Reached s) (defport : UInt16) :
    ∃ nport defport', tcpGetPort (tcpPortUsed s) s.bfree defport = .ok (nport, defport') ∧
      (nport = 0 ∨ tcpPortUsed s nport = false ∧
        ∀ b i t, i ∈ s.btable b → s.socks i = some t → t.sk.skSport ≠ nport) ∧
      ((∃ s0, Reached s0 ∧ s0.defport = defport) → nport = 0 ∨ InRange (ntohs nport)) := by
  have he := h.exact
  obtain ⟨nport, defport', hrun, hin, hun⟩ := tcpGetPort_spec (he.port_left defport)
  refine ⟨nport, defport', hrun, ?_, ?_⟩
  · refine or_iff_not_imp_left.mpr fun h0 => ⟨hun h0, fun b i t hi ht hp => ?_⟩
    have hused : tcpPortUsed s nport = true := he.filed.finds_iff.mpr ⟨b, i, hi, t, ht, hp⟩
    simp [hun h0] at hused
  · rintro ⟨s0, hs0, rfl⟩
    exact or_iff_not_imp_left.mpr (hin hs0.exact.defport).2

theorem tcpGetPort_ends_auto : tcpPortUsed autoBound (htons TCP_BPORT_MIN) = true ∧
    ∃ nport defport', tcpGetPort (tcpPortUsed autoBound) autoBound.bfree TCP_BPORT_MIN = .ok (nport, defport') ∧
      (nport = 0 ∨ InRange (ntohs nport)) := by
  obtain ⟨nport, defport', hrun, -, hin⟩ := tcpGetPort_ends reached_autoBound TCP_BPORT_MIN
  exact ⟨by decide +kernel, nport, defport', hrun, hin ⟨unbound, reached_unbound, rfl⟩⟩

end Table

end Tapip.Tcp.Ports
