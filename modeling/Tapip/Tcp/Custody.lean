import Tapip.Ip.Custody

/-! The references that keep a TCP sock alive on which segments wait, and the references to the segments
it sends and to those that wait there. -/

namespace Tapip.Tcp.Custody

open Foundation.Program Foundation.Tally Foundation.Cost Net Net.Pkb Net.Custody Ip.In Ip.Custody

variable {tsk : Option TcpSock} {f : TcpSock → TcpSock} {u : Unit} {t' : TcpSock} {g : Option TcpSegment}
  {r : Received}

variable {busy busy' : ℕ → ℤ} {netIn : NetIn} {s s' : Stack} {id : ℕ} {t : TcpSock}

section Socks

def put (s : Stack) (id : ℕ) (tsk : Option TcpSock) : Stack :=
  { s with tcp := { s.tcp with socks := Function.update s.tcp.socks id tsk } }

@[simp] lemma put_socks_self : (put s id tsk).tcp.socks id = tsk :=
  Function.update_self _ _ _

lemma put_socks_of_ne (h : i ≠ id) : (put s id tsk).tcp.socks i = s.tcp.socks i :=
  Function.update_of_ne h _ _

lemma getSk_run (h : getSk (stackEnv netIn) id s = .ok (t, s')) : s' = s ∧ s.tcp.socks id = some t := by
  simp only [getSk, stackEnv] at h
  split at h
  · cases h
  · rename_i hi
    cases h
    exact ⟨rfl, hi⟩

lemma reads_getSk : Respects Eq (getSk (stackEnv netIn) id) := fun _ _ _ h => (getSk_run h).1.symm

lemma reads_getWorld : Respects Eq (getWorld (stackEnv netIn)) :=
  fun _ _ _ h => (ok_inj h).2

lemma modifySk_run (h : modifySk (stackEnv netIn) id f s = .ok (u, s')) :
    ∃ t, s.tcp.socks id = some t ∧ s' = put s id (some (f t)) := by
  obtain ⟨t, s1, hget, hset⟩ := bind_inv h
  obtain ⟨rfl, ht⟩ := getSk_run hget
  cases hset
  exact ⟨t, ht, rfl⟩

lemma needed_iff : needed t = true ↔ opening t.state = true ∨ waiting t ≠ [] := by
  simp [needed]

lemma spare_le (t : TcpSock) : spare t ≤ t.sk.refcnt := by
  have hpos : ∀ b : Bool, 0 ≤ b.toInt := by decide
  have := hpos t.sk.hashed
  have := hpos t.bhashed
  simp only [spare]
  omega

lemma sock_lt (h : Sound busy s) (ht : s.tcp.socks id = some t) : id < s.tcp.nextSock := by
  by_contra hge
  rw [(h.fresh id (not_lt.mp hge)).1] at ht
  cases ht

lemma sound_put (h : Sound busy s) (hid : id < s.tcp.nextSock) (hbusy : ∀ i ≠ id, busy' i = busy i)
    (huser : ∀ t ∈ tsk, needed t = true → 1 + busy' id ≤ spare t) : Sound busy' (put s id tsk) := by
  refine ⟨h.balanced, h.arp, h.inet, ?_, ?_⟩
  · intro i hi
    have hne : i ≠ id := (hid.trans_le hi).ne'
    rw [put_socks_of_ne hne, hbusy i hne]
    exact h.fresh i hi
  · intro i t ht hn
    by_cases hi : i = id
    · subst hi
      rw [put_socks_self] at ht
      exact huser t ht hn
    · rw [put_socks_of_ne hi] at ht
      rw [hbusy i hi]
      exact h.user i t ht hn

lemma held_put (hid : id < s.tcp.nextSock) : held (put s id tsk) =
    held s + (tally Pkbuf.pkAddr (tsk.elim [] waiting) -
      tally Pkbuf.pkAddr ((s.tcp.socks id).elim [] waiting)) := by
  simp only [held_eq, Custody.put, tcpLinks]
  rw [tally_flatMap_range_update Pkbuf.pkAddr (fun o : Option TcpSock => o.elim [] waiting) tsk hid]
  abel

structure Mild (t t' : TcpSock) : Prop where
  state : opening t'.state = true → opening t.state = true
  spare : spare t ≤ spare t'
  waiting : waiting t' = waiting t

lemma Mild.needed (h : Mild t t') (hn : needed t' = true) : needed t = true := by
  rw [needed_iff, h.waiting] at hn
  exact needed_iff.mpr (hn.imp_left h.state)

lemma moves_put (ht : s.tcp.socks id = some t)
    (hn : needed t' = true → needed t = true) (hspare : spare t ≤ spare t')
    (hd : tally Pkbuf.pkAddr (waiting t') = tally Pkbuf.pkAddr (waiting t) + d) :
    Moves busy (-d, d) s (put s id (some t')) := by
  refine Shifts.relink (fun hs => ?_) rfl fun hs => ?_
  · refine sound_put hs (sock_lt hs ht) (fun _ _ => rfl) fun t1 ht1 hn1 => ?_
    cases ht1
    exact (hs.user id t ht (hn hn1)).trans hspare
  · rw [held_put (sock_lt hs ht), ht]
    simp only [Option.elim_some, hd, add_sub_cancel_left]

lemma Mild.put (h : Mild t t') (ht : s.tcp.socks id = some t) : Moves busy 0 s (put s id (some t')) := by
  have hmoves : Moves busy (-0, 0) s (Custody.put s id (some t')) :=
    moves_put ht h.needed h.spare (by rw [h.waiting, add_zero])
  rwa [neg_zero] at hmoves

lemma keepsAt_modifySk (hf : ∀ t, s.tcp.socks id = some t → Mild t (f t)) :
    Keeps busy (modifySk (stackEnv netIn) id f) s := by
  intro u s' hrun
  obtain ⟨t, ht, rfl⟩ := modifySk_run hrun
  exact (hf t ht).put ht

lemma keeps_modifySk (hf : ∀ t, Mild t (f t)) : Keeps busy (modifySk (stackEnv netIn) id f) s :=
  keepsAt_modifySk fun t _ => hf t

lemma keeps_modifyWorld {f : TcpWorld → TcpWorld} (hsocks : ∀ w, (f w).socks = w.socks)
    (hnext : ∀ w, (f w).nextSock = w.nextSock) : Keeps busy (modifyWorld (stackEnv netIn) f) s := by
  intro u s' hrun
  cases hrun
  refine Shifts.same (fun h => ?_) rfl fun h => ?_
  · refine ⟨h.balanced, h.arp, h.inet, fun i hi => ?_, fun i t ht => ?_⟩
    · exact hsocks s.tcp ▸ h.fresh i (hnext s.tcp ▸ hi)
    · exact h.user i t (hsocks s.tcp ▸ ht)
  · have : tcpLinks (f s.tcp) = tcpLinks s.tcp := by simp only [tcpLinks, hsocks, hnext]
    simp only [held_eq, stackEnv, this]

lemma keeps_getSock : Keeps busy (getSock (stackEnv netIn) id) s :=
  keeps_modifySk fun t => ⟨fun h => h, by simp [spare, setRefcnt], rfl⟩

lemma shifts_freeSock (hpos : 0 ≤ busy' id) (hbusy : ∀ i ≠ id, busy' i = busy i)
    (hfree : ∀ t, s.tcp.socks id = some t → needed t = true → 2 + busy' id ≤ spare t)
    (hrun : freeSock (stackEnv netIn) id s = .ok (u, s')) : Shifts busy busy' 0 s s' := by
  obtain ⟨t, s1, hget, hdrop⟩ := bind_inv hrun
  obtain ⟨rfl, ht⟩ := getSk_run hget
  split_ifs at hdrop with hlast
  · cases hdrop
    have hno : waiting t = [] := by
      by_contra hw
      have := hfree t ht (needed_iff.mpr (.inr hw))
      have := spare_le t
      omega
    show Shifts busy busy' 0 s1 (put s1 id none)
    refine Shifts.same (fun hs => ?_) rfl fun hs => ?_
    · exact sound_put hs (sock_lt hs ht) hbusy fun _ h => nomatch h
    · rw [held_put (sock_lt hs ht), ht]
      simp [hno]
  · obtain ⟨t', ht', rfl⟩ := modifySk_run hdrop
    cases Option.mem_unique ht ht'
    refine Shifts.same (fun hs => ?_) rfl fun hs => ?_
    · refine sound_put hs (sock_lt hs ht) hbusy fun t1 ht1 hn => ?_
      cases ht1
      have hspare : spare (setRefcnt (t.sk.refcnt - 1) t) = spare t - 1 := by
        simp only [spare, setRefcnt]
        ring
      have := hfree t ht hn
      omega
    · rw [held_put (sock_lt hs ht), ht]
      exact add_eq_left.mpr (sub_self _)

lemma keeps_freeSock (hpos : 0 ≤ busy)
    (hfree : ∀ t, s.tcp.socks id = some t → needed t = true → 2 + busy id ≤ spare t) :
    Keeps busy (freeSock (stackEnv netIn) id) s :=
  fun _ _ hrun => shifts_freeSock (hpos id) (fun _ _ => rfl) hfree hrun

lemma keeps_tcpHash : Keeps busy (tcpHash (stackEnv netIn) id) s := by
  have hmild : ∀ t, Mild t (setHashed true (setRefcnt (t.sk.refcnt + 1) t)) := by
    intro t
    refine ⟨fun h => h, ?_, rfl⟩
    simp only [spare, setHashed, setRefcnt]
    cases t.sk.hashed <;> simp
  refine (keeps_of_reads reads_getSk).seq fun t s1 _ => ?_
  split_ifs
  · exact costsAt_pure rfl
  · refine (keeps_modifySk hmild).seq fun _ s2 _ => ?_
    exact CostsAt.seq (keeps_modifyWorld (fun _ => rfl) fun _ => rfl) fun _ _ _ => costsAt_pure rfl
  · refine (keeps_of_reads reads_getWorld).seq fun w s2 _ => ?_
    split_ifs
    · exact costsAt_pure rfl
    · refine (keeps_modifySk hmild).seq fun _ s3 _ => ?_
      exact CostsAt.seq (keeps_modifyWorld (fun _ => rfl) fun _ => rfl) fun _ _ _ => costsAt_pure rfl

lemma keeps_tcpUnhash (hpos : 0 ≤ busy) : Keeps busy (tcpUnhash (stackEnv netIn) id) s := by
  refine costsAt_of_sound fun hs => (keeps_of_reads reads_getSk).seq fun t s1 hget => ?_
  obtain ⟨rfl, ht⟩ := getSk_run hget
  dsimp only
  split_ifs with hh
  · have hmild : ∀ t, Mild t (setHashed false t) := by
      intro t
      refine ⟨fun h => h, ?_, rfl⟩
      simp only [spare, setHashed]
      cases t.sk.hashed <;> simp
    refine (keeps_modifySk hmild).seq fun _ s2 hrun => ?_
    obtain ⟨t', ht', rfl⟩ := modifySk_run hrun
    cases Option.mem_unique ht ht'
    refine CostsAt.seq (keeps_modifyWorld (fun _ => rfl) fun _ => rfl) fun _ s3 hw => ?_
    cases hw
    refine (keeps_freeSock hpos fun t1 ht1 hn => ?_).seq fun _ s4 _ => ?_
    · obtain rfl : setHashed false t = t1 := by simpa [stackEnv] using ht1
      have := hs.user id t ht hn
      have : spare (setHashed false t) = spare t + 1 := by simp [spare, setHashed, hh]; ring
      omega
    · exact (keeps_of_reads reads_getSk).seq fun _ _ _ => costsAt_pure rfl
  · exact (keeps_of_reads reads_getSk).seq fun _ _ _ => costsAt_pure rfl

lemma keeps_tcpUnbhash (hpos : 0 ≤ busy) : Keeps busy (tcpUnbhash (stackEnv netIn) id) s := by
  refine costsAt_of_sound fun hs => (keeps_of_reads reads_getSk).seq fun t s1 hget => ?_
  obtain ⟨rfl, ht⟩ := getSk_run hget
  split_ifs with hh
  · have hmild : ∀ t : TcpSock, Mild t { t with bhashed := false } := by
      intro t
      refine ⟨fun h => h, ?_, rfl⟩
      simp only [spare]
      cases t.bhashed <;> simp
    refine (keeps_modifySk hmild).seq fun _ s2 hrun => ?_
    obtain ⟨t', ht', rfl⟩ := modifySk_run hrun
    cases Option.mem_unique ht ht'
    refine CostsAt.seq (keeps_modifyWorld (fun _ => rfl) fun _ => rfl) fun _ s3 hw => ?_
    cases hw
    refine keeps_freeSock hpos fun t1 ht1 hn => ?_
    obtain rfl : { t with bhashed := false } = t1 := by simpa [stackEnv] using ht1
    have := hs.user id t ht hn
    have : spare { t with bhashed := false } = spare t + 1 := by simp [spare, hh]
    omega
  · exact costsAt_pure rfl

end Socks

variable {pkb : Pkbuf} {seg : TcpSegment}

section Out

variable {a : ℕ}

lemma tcpFill_pkAddr (pkb : Pkbuf) (tcpId : ℤ) (rt : RtEntry) (saddr daddr : UInt32) (out : OutTcp) :
    (tcpFill pkb tcpId rt saddr daddr out).pkAddr = pkb.pkAddr := by
  simp [tcpFill, Ip.Out.setIpSrc]

lemma keeps_tcpRoute {tsk : Option ℕ} {daddr : UInt32} : Keeps busy (tcpRoute (stackEnv netIn) tsk daddr) s := by
  have hseq : Sequential fun (α : Type) (x : Prog Stack α) => ∀ s, Keeps busy x s :=
    ⟨fun _ _ => costsAt_pure rfl, fun hx hf s => (hx s).seq fun a s' _ => hf a s'⟩
  refine sequential_tcpRoute hseq (fun id _ s => keeps_of_reads reads_getSk) (fun s => ?_) (fun id _ rt s => ?_) s
  · exact keeps_of_reads fun _ _ _ h => (ok_inj h).2
  · exact keeps_modifySk fun t => ⟨fun h => h, le_rfl, rfl⟩

variable (hnet : Takes busy netIn)

include hnet

lemma spends_tcpSendOut {tsk : Option ℕ} {out : OutTcp} (ha : pkb.pkAddr = a) :
    Spends busy a (tcpSendOut (stackEnv netIn) tsk pkb out g) s := by
  refine tcpSendOut_rule (W := fun α (x : Prog Stack α) => ∀ s, Keeps busy x s)
    (V := fun x => ∀ s, Spends busy a x s) (fun _ _ => costsAt_pure rfl) (fun hx hf s => ?_)
    (fun id _ s => keeps_of_reads reads_getSk) (fun s => keeps_of_reads reads_fault)
    (fun daddr s => keeps_tcpRoute) (fun s => spends_freePkb ha) (fun rt saddr daddr _ s => ?_) s
  · exact (hx s).seq fun b s' _ => hf b s'
  · intro u s' h
    exact spends_ipSendOut hnet ((tcpFill_pkAddr _ _ _ _ _ _).trans ha) u s' h

lemma keeps_tcpSendReset : Keeps busy (tcpSendReset (stackEnv netIn) seg) s := by
  rw [tcpSendReset]
  split_ifs
  · exact costsAt_pure rfl
  · exact costs_allocPkb.cancel fun _ _ _ => spends_tcpSendOut hnet rfl

lemma keeps_tcpSendAck : Keeps busy (tcpSendAck (stackEnv netIn) id g) s := by
  cases g with
  | none => exact keeps_of_reads reads_fault
  | some seg =>
    rw [tcpSendAck]
    split_ifs
    · exact costsAt_pure rfl
    · exact costs_allocPkb.cancel fun _ _ _ =>
        CostsAt.seq (keeps_of_reads reads_getSk) fun _ _ _ => spends_tcpSendOut hnet rfl

lemma keeps_tcpSendSynack : Keeps busy (tcpSendSynack (stackEnv netIn) id seg) s := by
  rw [tcpSendSynack]
  split_ifs
  · exact costsAt_pure rfl
  · exact costs_allocPkb.cancel fun _ _ _ =>
      CostsAt.seq (keeps_of_reads reads_getSk) fun _ _ _ => spends_tcpSendOut hnet rfl

end Out

section Text

open Text

def entries (queue : List TcpReassHead) : ℕ → ℤ := tally Pkbuf.pkAddr (queue.map TcpReassHead.pkb)

lemma drains_tally {queue rest : List TcpReassHead} {tsk tsk' : TcpSock} {freed : List Pkbuf} {len len' : ℤ}
    (h : Drains queue tsk len freed rest tsk' len') : entries rest + tally Pkbuf.pkAddr freed = entries queue := by
  induction h with
  | rests | full => simp
  | next _ _ _ _ ih =>
    simp only [entries, List.map_cons, tally_cons] at ih ⊢
    rw [← ih]
    abel

def Settles (tsk : TcpSock) (pkb : Pkbuf) (r : Received) : Prop :=
  entries r.tsk.rcvReass + tally Pkbuf.pkAddr r.freed =
    entries tsk.rcvReass + if r.queued then one pkb.pkAddr else 0

lemma insertSegment_settles {tsk : TcpSock} {before : List TcpReassHead} {tr : Trimmed}
    {gone : List TcpReassHead} (hq : tsk.rcvReass = before ++ (gone ++ tr.rest))
    (hf : tr.freed = gone.map TcpReassHead.pkb) (h : insertSegment tsk before tr pkb = .ok r) :
    Settles tsk pkb r := by
  obtain ⟨⟨freed, rest, tsk', len⟩, hrun, h⟩ := bind_eq_ok.mp h
  cases h
  have := drains_tally (writeReass_drains hrun)
  simp only [entries, List.map_append, List.map_cons, tally_append, tally_cons] at this
  simp only [Settles, entries, hq, hf, List.map_append, tally_append, if_true, one]
  rw [add_left_comm, this]
  abel

lemma tcpSegmentReass_settles {tsk : TcpSock} (h : tcpSegmentReass tsk seg pkb = .ok r) : Settles tsk pkb r := by
  rcases tcpSegmentReass_cases tsk seg pkb with he | ⟨before, after, seg', tr, hp, ht, he⟩
  · cases h.symm.trans he
    simp [Settles]
  obtain ⟨tr', gone, ht', hgone, -, hf, -⟩ := trimTail_spec seg' after
  cases ht.symm.trans ht'
  have hq := hp.split
  rw [hgone] at hq
  rw [he] at h
  split_ifs at h
  · cases h
    simp only [Settles, entries, hq, hf, List.map_append, tally_append, Bool.false_eq_true, if_false]
    abel
  · exact insertSegment_settles hq hf h

lemma tcpRecvText_settles {tsk : TcpSock} (h : tcpRecvText tsk seg pkb = .ok r) : Settles tsk pkb r := by
  simp only [tcpRecvText] at h
  split at h
  · cases h
    simp [Settles]
  split at h
  · cases h
    simp [Settles]
  split at h
  · obtain ⟨⟨rlen, tsk'⟩, hw, h⟩ := bind_eq_ok.mp h
    cases h
    obtain ⟨_, _, _, rfl⟩ := tcpWriteBuf_writes hw
    simp [Settles]
  · obtain ⟨r', hr, h⟩ := bind_eq_ok.mp h
    cases h
    have hset : Settles tsk pkb r' := tcpSegmentReass_settles hr
    exact hset

end Text

end Tapip.Tcp.Custody
