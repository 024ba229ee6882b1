import Tapip.Foundation.HoldLog
import Tapip.Net.ArpInvariant

/-! The packets that `ip_send_dev` is given: each one waits, has gone out once or is dropped once. -/

namespace Tapip.Net.ArpQueue

open Foundation.Program Foundation.Refcount Foundation.HoldLog Pkb Arp Ip.Header Ip.Out ArpAlloc ArpCache ArpInvariant

variable {pkb : Pkbuf} {rt : RtEntry} {n dev : ℕ} {ev : Event} {fs : List (Fate (List UInt8))}
  {cs' : List ArpEntry} {delta : ℤ}

abbrev Packet : Type := Ticket Pkbuf (List UInt8)

def hop (pkb : Pkbuf) : UInt32 :=
  match pkb.pkRtdst with
  | some rt => nextHop rt (ipDst pkb)
  | none => 0

lemma hop_eq (h : pkb.pkRtdst = some rt) : hop pkb = nextHop rt (ipDst pkb) := by
  simp only [hop, h]

section Queues

/-- The queues of the WAITING entries, by next hop, are all that is held. -/
structure Queues (cs : List ArpEntry) (q : UInt32 → List Pkbuf) : Prop where
  waiting : ∀ ae ∈ cs, ae.aeState = .waiting → ae.aeList = q ae.aeIpaddr
  idle : ∀ ae ∈ cs, ae.aeState ≠ .waiting → ae.aeList = []
  entry : ∀ d, q d ≠ [] → ∃ ae ∈ cs, ae.aeState = .waiting ∧ ae.aeIpaddr = d

variable {cs : List ArpEntry} {q : UInt32 → List Pkbuf} {i : ℕ} {ae x : ArpEntry} {d : UInt32} {v : List Pkbuf}

lemma live_of_waiting (h : ae.aeState = .waiting) : live ae := by
  simp [live, h]

lemma Queues.at_live (h : Queues cs q) (hc : Coherent cs) (hi : cs[i]? = some ae) (hl : live ae) :
    q ae.aeIpaddr = ae.aeList := by
  have hmem := List.mem_of_getElem? hi
  by_cases hw : ae.aeState = .waiting
  · exact (h.waiting ae hmem hw).symm
  · rw [h.idle ae hmem hw]
    by_contra hne
    obtain ⟨y, hy, hyw, hip⟩ := h.entry _ hne
    obtain ⟨j, hj⟩ := List.mem_iff_getElem?.mp hy
    cases hc.unique j i y ae hj hi (live_of_waiting hyw) hl hip
    exact hw (Option.mem_unique hj hi ▸ hyw)

lemma Queues.at_unknown (h : Queues cs q) (hc : Coherent cs) (hun : Unknown cs d) : q d = [] := by
  by_contra hne
  obtain ⟨y, hy, hyw, hip⟩ := h.entry _ hne
  have hl := live_of_waiting hyw
  exact hun y hy hl (hc.pro y hy hl) hip

lemma Queues.set (h : Queues cs q) (hc : Coherent cs) (hi : cs[i]? = some ae)
    (hd : (live ae ∧ ae.aeIpaddr = d) ∨ (¬ live ae ∧ Unknown cs d))
    (hw : x.aeState = .waiting → x.aeIpaddr = d ∧ x.aeList = v)
    (hn : x.aeState ≠ .waiting → x.aeList = [] ∧ v = []) :
    Queues (cs.set i x) (Function.update q d v) := by
  have hother : ∀ j y, j ≠ i → cs[j]? = some y → y.aeState = .waiting → y.aeIpaddr ≠ d := by
    intro j y hj hy hyw hip
    have hl := live_of_waiting hyw
    have hmem := List.mem_of_getElem? hy
    rcases hd with ⟨hla, he⟩ | ⟨-, hun⟩
    · exact hj (hc.unique j i y ae hy hi hl hla (hip.trans he.symm))
    · exact hun y hmem hl (hc.pro y hmem hl) hip
  refine ⟨?_, ?_, ?_⟩
  · intro y hy hyw
    obtain ⟨j, hj⟩ := List.mem_iff_getElem?.mp hy
    rcases getElem?_set_inv hj with ⟨-, rfl⟩ | ⟨hne, hj⟩
    · obtain ⟨rfl, rfl⟩ := hw hyw
      rw [Function.update_self]
    · rw [Function.update_of_ne (hother j y hne hj hyw)]
      exact h.waiting y (List.mem_of_getElem? hj) hyw
  · intro y hy hyw
    rcases List.mem_or_eq_of_mem_set hy with hy | rfl
    · exact h.idle y hy hyw
    · exact (hn hyw).1
  · intro d' hne
    by_cases hd' : d' = d
    · subst hd'
      rw [Function.update_self] at hne
      have hxw : x.aeState = .waiting := by
        by_contra hxn
        exact hne (hn hxn).2
      exact ⟨x, List.mem_of_getElem? (set_get hi x), hxw, (hw hxw).1⟩
    · rw [Function.update_of_ne hd'] at hne
      obtain ⟨y, hy, hyw, hip⟩ := h.entry d' hne
      obtain ⟨j, hj⟩ := List.mem_iff_getElem?.mp hy
      have hji : i ≠ j := by
        rintro rfl
        cases Option.mem_unique hi hj
        rcases hd with ⟨-, he⟩ | ⟨hnl, -⟩
        · exact hd' (hip.symm.trans he)
        · exact hnl (live_of_waiting hyw)
      exact ⟨y, List.mem_of_getElem? ((List.getElem?_set_ne hji).trans hj), hyw, hip⟩

lemma Queues.keep (h : Queues cs q) (hc : Coherent cs) (hi : cs[i]? = some ae) (hl : live ae)
    (hw : x.aeState = .waiting → x.aeIpaddr = ae.aeIpaddr ∧ x.aeList = ae.aeList)
    (hn : x.aeState ≠ .waiting → x.aeList = [] ∧ ae.aeList = []) : Queues (cs.set i x) q := by
  have := h.set hc hi (.inl ⟨hl, rfl⟩) hw hn
  rwa [← h.at_live hc hi hl, Function.update_eq_self] at this

end Queues

variable {base : ℕ} {frames : List (ℕ × List UInt8)} {log log' : List Packet}

section Output

structure Output (base : ℕ) (nds : List Netdev) (out : List (ℕ × List UInt8)) (log : List Packet) : Prop where
  sent : ∀ t ∈ log, ∀ n hw, t.fate = .sent n hw → base ≤ n ∧ ∃ f, out[n]? = some f ∧ Carried nds hw t.item f
  once : (places log).Nodup
  rest : ∀ n f, base ≤ n → out[n]? = some f → n ∈ places log ∨ IsArp nds f

variable {nds : List Netdev} {out : List (ℕ × List UInt8)}

variable (h : Output base nds out log)

include h

lemma Output.lt (hn : n ∈ places log) : n < out.length := by
  obtain ⟨t, ht, hw, hf⟩ := mem_places.mp hn
  obtain ⟨-, f, hf, -⟩ := h.sent t ht n hw hf
  exact (List.getElem?_eq_some_iff.mp hf).1

lemma Output.emit (hbase : base ≤ out.length) (ps : List ℕ)
    (hp : (places log').Perm (places log ++ ps)) (hnd : ps.Nodup) (hps : ∀ n ∈ ps, out.length ≤ n)
    (hframes : ∀ k f, frames[k]? = some f → out.length + k ∈ ps ∨ IsArp nds f)
    (hnew : ∀ t ∈ log', t ∈ log ∨ ∀ n hw, t.fate = .sent n hw →
      ∃ k f, n = out.length + k ∧ frames[k]? = some f ∧ Carried nds hw t.item f) :
    Output base nds (out ++ frames) log' := by
  refine ⟨?_, ?_, ?_⟩
  · intro t ht n hw hf
    rcases hnew t ht with hold | hnew
    · obtain ⟨hle, f, hout, hc⟩ := h.sent t hold n hw hf
      exact ⟨hle, f, (List.getElem?_append_left (List.getElem?_eq_some_iff.mp hout).1).trans hout, hc⟩
    · obtain ⟨k, f, rfl, hk, hc⟩ := hnew n hw hf
      exact ⟨by omega, f, by simpa [List.getElem?_append_right] using hk, hc⟩
  · refine hp.nodup_iff.mpr (h.once.append hnd ?_)
    intro n hn hn'
    exact absurd (h.lt hn) (not_lt.mpr (hps n hn'))
  · intro n f hle hout
    rw [hp.mem_iff, List.mem_append]
    by_cases hn : n < out.length
    · rw [List.getElem?_append_left hn] at hout
      exact (h.rest n f hle hout).imp_left .inl
    · rw [List.getElem?_append_right (not_lt.mp hn)] at hout
      have := hframes _ f hout
      rw [Nat.add_sub_cancel' (not_lt.mp hn)] at this
      exact this.imp_left .inr

lemma Output.arps (hbase : base ≤ out.length) (hf : ∀ f ∈ frames, IsArp nds f) : Output base nds (out ++ frames) log :=
  h.emit hbase [] (by simp) List.nodup_nil (by simp) (fun k f hk => .inr (hf f (List.mem_of_getElem? hk)))
    fun _ ht => .inl ht

lemma Output.append (hbase : base ≤ out.length) {t : Packet}
    (ht : t.fate.place? = none) (hf : ∀ f ∈ frames, IsArp nds f) :
    Output base nds (out ++ frames) (log ++ [t]) := by
  refine h.emit hbase [] ?_ List.nodup_nil (by simp) (fun k f hk => .inr (hf f (List.mem_of_getElem? hk))) ?_
  · simp [places, ht]
  · intro t' ht'
    rcases List.mem_append.mp ht' with hold | hnew
    · exact .inl hold
    · cases List.mem_singleton.mp hnew
      exact .inr fun n hw hf => by simp [hf, Fate.place?] at ht

lemma Output.flush (hbase : base ≤ out.length) {hw : List UInt8} {d : UInt32} {replies : List (ℕ × List UInt8)}
    (hs : Settles hop d ((List.range frames.length).map fun k => .sent (out.length + k) hw) log log')
    (hf : List.Forall₂ (Carried nds hw) (heldFor hop d log) frames) (hr : ∀ f ∈ replies, IsArp nds f) :
    Output base nds (out ++ (frames ++ replies)) log' := by
  refine h.emit hbase ((List.range frames.length).map (out.length + ·)) ?_ ?_ ?_ ?_ ?_
  · refine hs.places.trans ?_
    simp [List.filterMap_map, Function.comp_def, Fate.place?]
  · exact List.nodup_range.map fun a b hab => Nat.add_left_cancel hab
  · simp
  · intro k f hk
    by_cases hlt : k < frames.length
    · exact .inl (List.mem_map.mpr ⟨k, List.mem_range.mpr hlt, rfl⟩)
    · rw [List.getElem?_append_right (not_lt.mp hlt)] at hk
      exact .inr (hr f (List.mem_of_getElem? hk))
  · intro t ht
    rcases hs.mem ht with hold | ⟨-, j, hj, hitem⟩
    · exact .inl hold
    · refine .inr fun n hw' hfate => ?_
      rw [List.getElem?_map, Option.map_eq_some_iff] at hj
      obtain ⟨k, hk, hkf⟩ := hj
      obtain ⟨hjlt, rfl⟩ := List.getElem?_eq_some_iff.mp hk
      rw [List.getElem_range] at hkf
      obtain ⟨rfl, rfl⟩ := Fate.sent.inj (hkf.trans hfate)
      rw [List.length_range] at hjlt
      refine ⟨j, frames[j], rfl, ?_, ?_⟩
      · rw [List.getElem?_append_left hjlt, List.getElem?_eq_getElem hjlt]
      · obtain ⟨hj', hval⟩ := List.getElem?_eq_some_iff.mp hitem
        exact hval ▸ hf.get hj' hjlt

lemma Output.drop (hbase : base ≤ out.length) {d : UInt32}
    (hs : Settles hop d (List.replicate n .dropped) log log') : Output base nds out log' := by
  rw [← List.append_nil out]
  refine h.emit hbase [] ?_ List.nodup_nil (by simp) (by simp) ?_
  · refine hs.places.trans ?_
    simp [List.filterMap_replicate, Fate.place?]
  · intro t ht
    rcases hs.mem ht with hold | ⟨-, j, hj, -⟩
    · exact .inl hold
    · refine .inr fun m hw hfate => ?_
      rw [hfate] at hj
      have := List.eq_of_mem_replicate (List.mem_of_getElem? hj)
      simp at this

end Output

variable {s s' : Stack}

section Account

structure Accounts (base : ℕ) (s : Stack) (log : List Packet) : Prop where
  base_le : base ≤ s.sent.length
  queues : Queues s.arpCache fun d => heldFor hop d log
  output : Output base s.netDevices s.sent log
  order : InOrder hop log

def Met (cs : List ArpEntry) (pkb : Pkbuf) : Fate (List UInt8) → Prop
  | .held => True
  | .sent _ hw => ∃ ae ∈ cs, ae.aeState = .resolved ∧ ae.aeIpaddr = hop pkb ∧ ae.aeHwaddr = hw
  | .dropped => ∀ ae ∈ cs, live ae

inductive Moves : Event → Packet → Packet → Prop
  | stays (ev : Event) (t : Packet) : Moves ev t t
  | flushed {dev : ℕ} {p pkb : Pkbuf} (n : ℕ) : hop pkb = arpSip (arpNtoh p) →
      Moves (.arp dev p) ⟨pkb, .held⟩ ⟨pkb, .sent n (arpSha (arpNtoh p))⟩
  | givenUp {delta : ℤ} (pkb : Pkbuf) : Moves (.tick delta) ⟨pkb, .held⟩ ⟨pkb, .dropped⟩

def Next (cs : List ArpEntry) (log log' : List Packet) : Event → Prop
  | .send _ pkb => ∃ f, Met cs pkb f ∧ log' = log ++ [⟨pkb, f⟩]
  | ev => List.Forall₂ (Moves ev) log log'

def own : Event → ℕ → ℕ
  | .arp _ p, a => if p.pkAddr = a then 1 else 0
  | _, _ => 0

def gone (log : List Packet) (a : ℕ) : ℕ := settled (fun pkb => decide (pkb.pkAddr = a)) log

def Released (ev : Event) (log log' : List Packet) (l l' : Ledger) : Prop :=
  l.Balanced → l'.Balanced ∧ ∀ a, l'.refcnt a = l.refcnt a - (gone log' a - gone log a : ℤ) - own ev a

variable {freed : List ℕ}

lemma Released.of_frees {l l' : Ledger} (h : Ledger.Frees freed l l')
    (hcount : ∀ a, (gone log' a : ℤ) + own ev a = gone log a + freed.count a) :
    Released ev log log' l l' := by
  intro hl
  refine ⟨h.balanced hl, fun a => ?_⟩
  have := hcount a
  rw [h.refcnt hl]
  omega

lemma gone_append (log log' : List Packet) (a : ℕ) : gone (log ++ log') a = gone log a + gone log' a :=
  settled_append _ log log'

lemma gone_settles {d : UInt32} (hs : Settles hop d fs log log') (hfs : ∀ f ∈ fs, f.isHeld = false) (a : ℕ) :
    gone log' a = gone log a + ((heldFor hop d log).map Pkbuf.pkAddr).count a := by
  rw [gone, hs.settled hfs, List.count, List.countP_map]
  congr 2

lemma heldFor_append_held (pkb : Pkbuf) : (fun d => heldFor hop d (log ++ [⟨pkb, .held⟩])) =
      Function.update (fun d => heldFor hop d log) (hop pkb) (heldFor hop (hop pkb) log ++ [pkb]) := by
  funext d
  rw [heldFor_append]
  by_cases hd : d = hop pkb
  · subst hd
    simp [heldFor, waits, Fate.isHeld]
  · simp [heldFor, waits, Function.update_of_ne hd, Ne.symm hd]

lemma heldFor_append_settled {t : Packet} (ht : t.fate.isHeld = false) :
    (fun d => heldFor hop d (log ++ [t])) = fun d => heldFor hop d log := by
  funext d
  rw [heldFor_append]
  simp [heldFor, waits, ht]

lemma before_of_place?_none {f f' : Fate (List UInt8)} (h : f'.place? = none) : f.Before f' := by
  cases f' with
  | sent n hw => simp [Fate.place?] at h
  | held | dropped => cases f <;> trivial

variable (h : Accounts base s log)

include h

lemma Accounts.of_parts (hc : s'.arpCache = cs')
    (hsent : s'.sent = s.sent ++ frames) (hnds : s'.netDevices = s.netDevices)
    (hq : Queues cs' fun d => heldFor hop d log') (ho : Output base s.netDevices (s.sent ++ frames) log')
    (hord : InOrder hop log') : Accounts base s' log' := by
  refine ⟨?_, hc ▸ hq, by rw [hsent, hnds]; exact ho, hord⟩
  rw [hsent, List.length_append]
  exact h.base_le.trans (Nat.le_add_right _ _)

lemma Accounts.stay {t : Packet} (hc : s'.arpCache = cs')
    (hsent : s'.sent = s.sent ++ frames) (hnds : s'.netDevices = s.netDevices)
    (hf : ∀ f ∈ frames, IsArp s.netDevices f) (ht : t.fate.place? = none)
    (hq : Queues cs' fun d => heldFor hop d (log ++ [t])) : Accounts base s' (log ++ [t]) :=
  h.of_parts hc hsent hnds hq (h.output.append h.base_le ht hf)
    (h.order.append fun _ _ _ => before_of_place?_none ht)

lemma send_accounts (hr : Ready s) (hrt : pkb.pkRtdst = some rt) (hremote : isLocal rt = false)
    (he : Effect s.netDevices s.arpCache (.send dev pkb) s'.arpCache frames freed)
    (hsent : s'.sent = s.sent ++ frames) (hnds : s'.netDevices = s.netDevices) :
    ∃ f, Met s.arpCache pkb f ∧ Accounts base s' (log ++ [⟨pkb, f⟩]) ∧
      ∀ a, gone (log ++ [⟨pkb, f⟩]) a = gone log a + freed.count a := by
  generalize hc : s'.arpCache = cs' at he
  have hco := hr.coherent
  cases he with
  | @loopback _ _ rt' _ hrt' hlocal =>
    cases Option.mem_unique hrt hrt'
    simp [hremote] at hlocal
  | full _ _ _ hall =>
    refine ⟨.dropped, hall, h.stay hc hsent hnds (by simp) rfl ?_, fun a => ?_⟩
    · rw [heldFor_append_settled rfl]
      exact h.queues
    · rw [gone_append, List.count_singleton]
      simp [gone, settled, Fate.isHeld]
  | @opens _ i _ rt' ae f hrt' _ hun hi hfree harp =>
    have hhop := hop_eq hrt'
    rw [← hhop] at hun hc
    refine ⟨.held, trivial, h.stay hc hsent hnds (by simpa using harp) rfl ?_, fun a => ?_⟩
    · rw [heldFor_append_held, h.queues.at_unknown hco hun]
      exact h.queues.set hco hi (.inr ⟨fun hl => hl hfree, hun⟩) (fun _ => ⟨rfl, rfl⟩) fun hn => absurd rfl hn
    · rw [gone_append]
      simp [gone, settled, Fate.isHeld]
  | @holds _ i _ rt' ae hrt' _ hi hw hip =>
    have hip := hip.trans (hop_eq hrt').symm
    have hl := live_of_waiting hw
    refine ⟨.held, trivial, h.stay hc hsent hnds (by simp) rfl ?_, fun a => ?_⟩
    · rw [heldFor_append_held, ← hip, h.queues.at_live hco hi hl]
      exact h.queues.set hco hi (.inl ⟨hl, rfl⟩) (fun _ => ⟨rfl, rfl⟩) fun hn => absurd hw hn
    · rw [gone_append]
      simp [gone, settled, Fate.isHeld]
  | @direct _ i _ rt' ae f hrt' _ hi hres hip hcar =>
    have hip := hip.trans (hop_eq hrt').symm
    have hmem := List.mem_of_getElem? hi
    have hnone : heldFor hop (hop pkb) log = [] := by
      rw [← hip, h.queues.at_live hco hi (by simp [live, hres]), h.queues.idle ae hmem (by simp [hres])]
    refine ⟨.sent s.sent.length ae.aeHwaddr, ⟨ae, hmem, hres, hip, rfl⟩, ?_, fun a => ?_⟩
    · refine h.of_parts hc hsent hnds ?_ ?_ (h.order.append ?_)
      · rw [heldFor_append_settled rfl]
        exact h.queues
      · refine h.output.emit h.base_le [s.sent.length] ?_ (List.nodup_singleton _) (by simp) ?_ ?_
        · simp [places, Fate.place?]
        · intro k f' hk
          obtain ⟨hlt, -⟩ := List.getElem?_eq_some_iff.mp hk
          exact .inl (by simpa using hlt)
        · intro t ht
          rcases List.mem_append.mp ht with hold | hnew
          · exact .inl hold
          · cases List.mem_singleton.mp hnew
            refine .inr fun n hw hf => ?_
            obtain ⟨rfl, rfl⟩ := Fate.sent.inj hf
            exact ⟨0, f, rfl, rfl, hcar⟩
      · -- no packet for the next hop is held while its entry is resolved
        intro t ht hk
        cases hf : t.fate with
        | held =>
          have : t.item ∈ heldFor hop (hop pkb) log := mem_heldFor.mpr ⟨t, ht, hf, hk, rfl⟩
          simp [hnone] at this
        | sent n hw => exact h.output.lt (mem_places.mpr ⟨t, ht, hw, hf⟩)
        | dropped => trivial
    · rw [gone_append, List.count_singleton]
      simp [gone, settled, Fate.isHeld]

lemma Accounts.same (hc : s'.arpCache = cs') (hsent : s'.sent = s.sent ++ frames) (hnds : s'.netDevices = s.netDevices)
    (hf : ∀ f ∈ frames, IsArp s.netDevices f) (hq : Queues cs' fun d => heldFor hop d log) :
    Accounts base s' log :=
  h.of_parts hc hsent hnds hq (h.output.arps h.base_le hf) h.order

lemma arp_accounts {p : Pkbuf} (hr : Ready s)
    (he : Effect s.netDevices s.arpCache (.arp dev p) s'.arpCache frames freed)
    (hsent : s'.sent = s.sent ++ frames) (hnds : s'.netDevices = s.netDevices) :
    ∃ log', List.Forall₂ (Moves (.arp dev p)) log log' ∧ Accounts base s' log' ∧
      ∀ a, gone log' a + own (.arp dev p) a = gone log a + freed.count a := by
  generalize hc : s'.arpCache = cs' at he
  have hco := hr.coherent
  have hstay : List.Forall₂ (Moves (.arp dev p)) log log := List.forall₂_same.mpr fun t _ => .stays _ t
  have hown : ∀ a, gone log a + own (.arp dev p) a = gone log a + [p.pkAddr].count a := by
    intro a
    simp [own, List.count_singleton]
  cases he with
  | ignores => exact ⟨log, hstay, h.same hc hsent hnds (by simp) h.queues, hown⟩
  | answers _ hrep => exact ⟨log, hstay, h.same hc hsent hnds hrep h.queues, hown⟩
  | @learns _ i _ ae _ hm _ hun hi hfree hrep =>
    refine ⟨log, hstay, h.same hc hsent hnds hrep ?_, hown⟩
    have := h.queues.set (x := learnt dev (arpNtoh p) ae) hco hi (.inr ⟨fun hl => hl hfree, hun⟩)
      (fun hw => by simp [learnt] at hw) fun _ => ⟨rfl, rfl⟩
    rwa [← h.queues.at_unknown hco hun, Function.update_eq_self] at this
  | @resolves _ i _ ae frames replies hm hi hl hip hcar hrep =>
    have hmem := List.mem_of_getElem? hi
    have hflush : flushed ae = heldFor hop (arpSip (arpNtoh p)) log := by
      rw [← hip, h.queues.at_live hco hi hl, flushed]
      split_ifs with hw
      · rfl
      · exact (h.queues.idle ae hmem hw).symm
    rw [hflush] at hcar ⊢
    obtain ⟨log', hs⟩ : ∃ log', Settles hop (arpSip (arpNtoh p)) ((List.range frames.length).map fun k =>
        .sent (s.sent.length + k) (arpSha (arpNtoh p))) log log' := exists_settles (by simpa using hcar.length_eq.symm)
    have hheld : ∀ f ∈ (List.range frames.length).map fun k =>
        Fate.sent (s.sent.length + k) (arpSha (arpNtoh p)), f.isHeld = false :=
      List.forall_mem_map.mpr fun _ _ => rfl
    refine ⟨log', ?_, h.of_parts hc hsent hnds ?_ (h.output.flush h.base_le hs hcar hrep) (h.order.settles hs ?_ ?_),
      fun a => ?_⟩
    · refine hs.forall₂ (.stays _) fun pkb hk f hf => ?_
      obtain ⟨k, -, rfl⟩ := List.mem_map.mp hf
      exact .flushed _ hk
    · rw [hs.heldFor_update hheld]
      refine h.queues.set hco hi (.inl ⟨hl, hip⟩) (fun hw => by simp [resolved] at hw) fun _ => ⟨?_, rfl⟩
      by_cases hw : ae.aeState = .waiting
      · simp [resolved, hw]
      · simp [resolved, hw, h.queues.idle ae hmem hw]
    · refine List.pairwise_map.mpr (List.pairwise_lt_range.imp fun hlt => ?_)
      exact Nat.add_lt_add_left hlt _
    · intro t ht hn f hf
      obtain ⟨k, -, rfl⟩ := List.mem_map.mp hf
      cases ht' : t.fate with
      | held => simp [ht', Fate.isHeld] at hn
      | sent n hw => exact (h.output.lt (mem_places.mpr ⟨t, ht, hw, ht'⟩)).trans_le (Nat.le_add_right _ _)
      | dropped => trivial
    · have := hown a
      rw [gone_settles hs hheld, List.count_append]
      omega

lemma tick_accounts {i : ℕ} (hr : Ready s)
    (he : Effect s.netDevices s.arpCache (.tick delta i) s'.arpCache frames freed)
    (hsent : s'.sent = s.sent ++ frames) (hnds : s'.netDevices = s.netDevices) :
    ∃ log', List.Forall₂ (Moves (.tick delta)) log log' ∧ Accounts base s' log' ∧
      ∀ a, gone log' a = gone log a + freed.count a := by
  generalize hc : s'.arpCache = cs' at he
  have hco := hr.coherent
  have hstay : List.Forall₂ (Moves (.tick delta)) log log := List.forall₂_same.mpr fun t _ => .stays _ t
  cases he with
  | rests => exact ⟨log, hstay, h.same hc hsent hnds (by simp) h.queues, by simp⟩
  | @ages _ _ ae hi hl =>
    have hq := h.queues.idle ae (List.mem_of_getElem? hi)
    exact ⟨log, hstay, h.same hc hsent hnds (by simp)
      (h.queues.keep hco hi hl (fun _ => ⟨rfl, rfl⟩) fun hn => ⟨hq hn, hq hn⟩), by simp⟩
  | @asks _ _ ae f hi hw harp =>
    exact ⟨log, hstay, h.same hc hsent hnds (by simpa using harp)
      (h.queues.keep hco hi (live_of_waiting hw) (fun _ => ⟨rfl, rfl⟩) fun hn => absurd hw hn), by simp⟩
  | @forgets _ _ ae hi hres =>
    have hnil := h.queues.idle ae (List.mem_of_getElem? hi) (by simp [hres])
    exact ⟨log, hstay, h.same hc hsent hnds (by simp) (h.queues.keep hco hi (by simp [live, hres])
      (fun hw => absurd hw (by simp)) fun _ => ⟨hnil, hnil⟩), by simp⟩
  | @gives _ _ ae hi hw =>
    have hl := live_of_waiting hw
    have hqueue := h.queues.at_live hco hi hl
    have hheld : ∀ f ∈ List.replicate ae.aeList.length (.dropped : Fate (List UInt8)), f.isHeld = false :=
      fun f hf => List.eq_of_mem_replicate hf ▸ rfl
    rw [← hqueue] at hheld ⊢
    obtain ⟨log', hs⟩ : ∃ log', Settles hop ae.aeIpaddr _ log log' := exists_settles List.length_replicate
    refine ⟨log', ?_, h.of_parts hc hsent hnds ?_ ?_ (h.order.settles hs ?_ ?_), gone_settles hs hheld⟩
    · refine hs.forall₂ (.stays _) fun pkb _ f hf => ?_
      cases List.eq_of_mem_replicate hf
      exact .givenUp _
    · rw [hs.heldFor_update hheld]
      exact h.queues.set hco hi (.inl ⟨hl, rfl⟩) (fun hw => by simp at hw) fun _ => ⟨rfl, rfl⟩
    · rw [List.append_nil]
      exact h.output.drop h.base_le hs
    · exact List.pairwise_replicate.mpr (.inr trivial)
    · intro t _ _ f hf
      cases List.eq_of_mem_replicate hf
      exact before_of_place?_none rfl

end Account

section Runs

/-- The rest of the stack sends only through `ip_send_dev`. -/
structure Between (s s' : Stack) : Prop extends Calm s s' where
  sent : s'.sent = s.sent

-- ARP packets come from the wire: nothing sends one over the loopback device.
def Proper (_ : Stack) : Event → Prop
  | .send dev pkb => dev ≠ loop ∧ ∃ rt, pkb.pkRtdst = some rt ∧ isLocal rt = false
  | .arp dev _ => dev ≠ loop
  | .tick _ => True

def submitted : List Event → List Pkbuf :=
  List.filterMap fun
    | .send _ pkb => some pkb
    | _ => none

def OneWaiting (cs : List ArpEntry) : Prop :=
  ∀ (i j : ℕ) ae ae', cs[i]? = some ae → cs[j]? = some ae' → ae.aeState = .waiting → ae'.aeState = .waiting →
    ae.aeIpaddr = ae'.aeIpaddr → i = j

inductive Story (netIn : NetIn) (base : ℕ) : List Event → Stack → List Packet → Prop
  | start {s s' : Stack} : Blank s → arpCacheInit s = .ok ((), s') → base = s'.sent.length →
      Accounts base s' [] → Story netIn base [] s' []
  | step {evs : List Event} {ev : Event} {s s1 s' : Stack} {log log' : List Packet} (fuel : ℕ) :
      Story netIn base evs s log → Between s s1 → Proper s1 ev → ev.exec netIn fuel s1 = .ok ((), s') →
      Next s1.arpCache log log' ev → Released ev log log' s1.pkbs s'.pkbs →
      Accounts base s' log' → OneWaiting s'.arpCache → Story netIn base (evs ++ [ev]) s' log'

variable {netIn : NetIn} {s1 : Stack}

lemma Moves.tick_trans {t t' t'' : Packet} (h : Moves (.tick delta) t t')
    (h' : Moves (.tick delta) t' t'') : Moves (.tick delta) t t'' := by
  cases h with
  | stays => exact h'
  | givenUp pkb =>
    cases h' with
    | stays => exact .givenUp pkb

lemma ticks_trans {log'' : List Packet} (h : List.Forall₂ (Moves (.tick delta)) log log')
    (h' : List.Forall₂ (Moves (.tick delta)) log' log'') : List.Forall₂ (Moves (.tick delta)) log log'' := by
  induction h generalizing log'' with
  | nil =>
    cases h'
    exact .nil
  | cons hab _ ih =>
    cases h' with
    | cons hbc htail => exact .cons (hab.tick_trans hbc) (ih htail)

structure Held (base : ℕ) (s : Stack) (log : List Packet) : Prop where
  ready : Ready s
  noLoop : NoLoop s.arpCache
  accounts : Accounts base s log

lemma Held.act (act : Act) (fuel : ℕ) (h : Held base s log) (hoff : act.Off)
    (hrun : act.exec netIn fuel s = .ok ((), s')) :
    ∃ frames freed, Effect s.netDevices s.arpCache act s'.arpCache frames freed ∧
      s'.sent = s.sent ++ frames ∧ s'.netDevices = s.netDevices ∧ Ledger.Frees freed s.pkbs s'.pkbs ∧
      Ready s' ∧ NoLoop s'.arpCache := by
  have hq : Quiet s.arpCache act := ⟨hoff, h.noLoop⟩
  obtain ⟨frames, freed, hd⟩ := Act.does (.inr hq) h.ready.size h.ready.next_lt hrun
  exact ⟨frames, freed, hd.effect, hd.emits.sent hq, hd.devices, hd.emits.pkbs hq, h.ready.does hd,
    h.noLoop.effect hoff hd.effect⟩

lemma Held.ticks {idxs : List ℕ} (h : Held base s log) (hw : Walk netIn (idxs.map (.tick delta)) s s') :
    ∃ log', List.Forall₂ (Moves (.tick delta)) log log' ∧ Held base s' log' ∧
      Released (.tick delta) log log' s.pkbs s'.pkbs := by
  induction idxs generalizing s log with
  | nil =>
    cases hw
    exact ⟨log, List.forall₂_same.mpr fun t _ => .stays _ t, h, fun hl => ⟨hl, fun a => by simp [own]⟩⟩
  | cons i idxs ih =>
    cases hw with
    | cons fuel hone hrest =>
      obtain ⟨frames, freed, he, hsent, hnds, hfree, hr, hnl⟩ := h.act (.tick delta i) fuel trivial hone
      obtain ⟨log1, hmv, hacc, hgone⟩ := tick_accounts h.accounts h.ready he hsent hnds
      obtain ⟨log', hmv', hheld, hrel'⟩ := ih ⟨hr, hnl, hacc⟩ hrest
      have hrel : Released (.tick delta) log log1 _ _ := .of_frees hfree fun a => by simp [own, hgone]
      refine ⟨log', ticks_trans hmv hmv', hheld, fun hl => ?_⟩
      obtain ⟨hl1, hcnt1⟩ := hrel hl
      obtain ⟨hl', hcnt'⟩ := hrel' hl1
      refine ⟨hl', fun a => ?_⟩
      rw [hcnt' a, hcnt1 a]
      simp only [own]
      omega

lemma Held.event {fuel : ℕ} (h : Held base s log) (hp : Proper s ev) (hrun : ev.exec netIn fuel s = .ok ((), s')) :
    ∃ log', Next s.arpCache log log' ev ∧ Held base s' log' ∧ Released ev log log' s.pkbs s'.pkbs := by
  cases ev with
  | send dev pkb =>
    obtain ⟨hdev, rt, hrt, hremote⟩ := hp
    obtain ⟨frames, freed, he, hsent, hnds, hfree, hr, hnl⟩ := h.act (.send dev pkb) fuel hdev hrun
    obtain ⟨f, hmet, hacc, hgone⟩ := send_accounts h.accounts h.ready hrt hremote he hsent hnds
    exact ⟨_, ⟨f, hmet, rfl⟩, ⟨hr, hnl, hacc⟩, .of_frees hfree fun a => by simp [own, hgone]⟩
  | arp dev p =>
    obtain ⟨frames, freed, he, hsent, hnds, hfree, hr, hnl⟩ := h.act (.arp dev p) fuel hp hrun
    obtain ⟨log', hmv, hacc, hgone⟩ := arp_accounts h.accounts h.ready he hsent hnds
    exact ⟨log', hmv, ⟨hr, hnl, hacc⟩, .of_frees hfree fun a => by exact_mod_cast hgone a⟩
  | tick delta => exact h.ticks (Event.walk hrun)

lemma Held.between (h : Held base s log) (hb : Between s s') : Held base s' log := by
  refine ⟨h.ready.apart ⟨hb.cache, hb.next⟩, hb.cache ▸ h.noLoop, ?_⟩
  exact ⟨hb.sent ▸ h.accounts.base_le, hb.cache ▸ h.accounts.queues,
    by rw [hb.sent, hb.devices]; exact h.accounts.output, h.accounts.order⟩

lemma held_of_init (h : Blank s) (hrun : arpCacheInit s = .ok ((), s')) : Held s'.sent.length s' [] := by
  refine ⟨ready_of_init h hrun, ?_, ?_⟩
  all_goals
    cases hrun
  · intro ae hae
    obtain ⟨ae0, hae0, rfl⟩ := List.mem_map.mp hae
    simp [h.devices ae0 hae0]
  · refine ⟨le_rfl, ⟨?_, ?_, fun d hne => absurd rfl hne⟩, ⟨by simp, List.nodup_nil, ?_⟩, List.Pairwise.nil⟩
    · intro ae hae hw
      obtain ⟨ae0, -, rfl⟩ := List.mem_map.mp hae
      simp at hw
    · intro ae hae _
      obtain ⟨ae0, hae0, rfl⟩ := List.mem_map.mp hae
      exact h.queues ae0 hae0
    · intro n f hle hf
      exact absurd (List.getElem?_eq_some_iff.mp hf).1 (not_lt.mpr hle)

lemma oneWaiting_of_ready (h : Ready s) : OneWaiting s.arpCache := by
  intro i j ae ae' hi hj hw hw' hip
  exact h.coherent.unique i j ae ae' hi hj (live_of_waiting hw) (live_of_waiting hw') hip

lemma items_moves (h : List.Forall₂ (Moves ev) log log') : log'.map Ticket.item = log.map Ticket.item := by
  induction h with
  | nil => rfl
  | cons hab _ ih => cases hab <;> simp [ih]

lemma items_next (h : Next s.arpCache log log' ev) : log'.map Ticket.item = log.map Ticket.item ++ submitted [ev] := by
  cases ev with
  | send dev pkb =>
    obtain ⟨f, -, rfl⟩ := h
    simp [submitted]
  | arp dev p => simpa [submitted] using items_moves h
  | tick delta => simpa [submitted] using items_moves h

theorem arpQueue_conserves {evs : List Event} (h : Run netIn Between Proper evs s) :
    ∃ base log, Story netIn base evs s log ∧ log.map Ticket.item = submitted evs := by
  suffices hs : ∃ base log, Held base s log ∧ Story netIn base evs s log ∧
      log.map Ticket.item = submitted evs from by
    obtain ⟨base, log, -, hs⟩ := hs
    exact ⟨base, log, hs⟩
  induction h with
  | start hblank hinit =>
    have hheld := held_of_init hblank hinit
    exact ⟨_, [], hheld, .start hblank hinit rfl hheld.accounts, rfl⟩
  | step fuel _ hb hp hrun ih =>
    obtain ⟨base, log, hheld, hstory, hitems⟩ := ih
    obtain ⟨log', hnext, hheld', hrel⟩ := (hheld.between hb).event hp hrun
    refine ⟨base, log', hheld', ?_, ?_⟩
    · exact hstory.step fuel hb hp hrun hnext hrel hheld'.accounts (oneWaiting_of_ready hheld'.ready)
    · rw [items_next hnext, hitems]
      simp [submitted, List.filterMap_append]

section Examples

def arrived : Stack := { asking with pkbs := asking.pkbs.alloc }

def reply : Pkbuf :=
  { allocPkb 2 42 with
    pkData := eth.netHwaddr ++ [2, 0, 0, 0, 0, 2, 8, 6, 0, 1, 8, 0, 6, 4, 0, 2, 2, 0, 0, 0, 0, 2, 10, 0, 0, 2] ++
      eth.netHwaddr ++ [10, 0, 0, 1] }

def answered : Stack := finalState (arpIn 2 dropAll 1 reply) arrived

theorem arpQueue_conserves_answered : asking.sent.length = 1 ∧ answered.sent.length = 2 ∧
    ∃ base log, Story dropAll base [.send 1 toNeighbour, .arp 1 reply] answered log ∧
      log.map Ticket.item = [toNeighbour] := by
  have hsend : Run dropAll Between Proper [.send 1 toNeighbour] asking :=
    run_started.step 0 ⟨.refl _, rfl⟩ ⟨by decide, _, rfl, by decide⟩ asking_run
  have hbetween : Between asking arrived := ⟨⟨rfl, rfl, rfl⟩, rfl⟩
  have harp : arpIn 2 dropAll 1 reply arrived = .ok ((), answered) := run_of_outcome (by decide +kernel)
  have hrun : Run dropAll Between Proper [.send 1 toNeighbour, .arp 1 reply] answered :=
    hsend.step 2 hbetween (by decide : 1 ≠ loop) harp
  exact ⟨by decide +kernel, by decide +kernel, arpQueue_conserves hrun⟩

end Examples

end Runs

end Tapip.Net.ArpQueue
