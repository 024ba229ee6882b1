import Tapip.Tcp.Changes
import Tapip.Tcp.SendWindow

/-! The sequence numbers a connection has used and the ones its peer has acknowledged. -/

namespace Tapip.Tcp.SendSequence

open Net.Pkb Foundation.Program Text Connection Session Changes

variable {buf : List UInt8} {len segsize m n : ℤ} {fuel j k f : ℕ} {daddr : UInt32} {dport : UInt16}
  {pkb : Pkbuf} {t1 : TcpSock}

inductive Op
  | segment (pkb : Pkbuf) (seg : TcpSegment)
  | send (buf : List UInt8) (len : ℤ)
  | close

inductive Step (net : Net) (id : ℕ) : Op → Local → ℕ → ℕ → Local → Prop
  | segment {s s' : Local} {pkb : Pkbuf} {seg : TcpSegment} :
      tcpProcess net.env pkb seg (some id) s = .ok ((), s') →
      Step net id (.segment pkb seg) s 0 0 s'
  | send {s s' : Local} {buf : List UInt8} {len n : ℤ} :
      tcpSendText net.env id buf len s = .ok (n, s') → Step net id (.send buf len) s n.toNat 0 s'
  | close {s s' : Local} {t : TcpSock} : s.sock id = some t →
      tcpClose net.env id s = .ok ((), s') →
      Step net id .close s 0 (if sendable t.state then 1 else 0) s'

inductive Run (net : Net) (id : ℕ) (ok : TcpSock → Op → Prop) : UInt32 → Local → ℕ → ℕ → Prop
  | connect {s s' : Local} {daddr : UInt32} {dport : UInt16} {t : TcpSock} :
      tcpConnect net.env id daddr dport s = .ok (true, s') → s'.sock id = some t →
      Run net id ok t.iss s' 0 0
  | listen {s s' : Local} {j : ℕ} {pkb : Pkbuf} {seg : TcpSegment} {t : TcpSock} :
      tcpListen net.env pkb seg j s = .ok ((), s') → s.tcp.nextSock = id → s.sock id = none →
      s'.sock id = some t → Run net id ok t.iss s' 0 0
  | step {iss : UInt32} {s s' : Local} {text fins k f : ℕ} {op : Op} : Run net id ok iss s text fins →
      (∀ t, s.sock id = some t → ok t op) → Step net id op s k f s' →
      Run net id ok iss s' (text + k) (fins + f)

variable {net : Net} {id : ℕ} {s s' : Local} {t : TcpSock}

section Effects

def texted (n : ℤ) (t : TcpSock) : TcpSock := { t with sndNxt := t.sndNxt + UInt32.ofInt n }

lemma texted_zero (t : TcpSock) : texted 0 t = t := by simp [texted, UInt32.ofInt]

lemma texted_texted (a b : ℤ) (t : TcpSock) : texted b (texted a t) = texted (a + b) t := by
  simp [texted, UInt32.add_assoc]

lemma turns_at {slen : ℤ} (hrun : Turns net id buf len m s' segsize slen s) (h : At id t s) :
    At id (texted (m - slen) t) s' := by
  induction hrun generalizing t with
  | done => rwa [sub_self, texted_zero]
  | @turn _ slen size s _ _ _ _ _ ht hout _ ih =>
    have h1 : At id (texted size t) _ := (h.modify (fun _ => rfl) (@modifySk_run net _ _ _ (takeCredit size) ht)).congr rfl
    have h2 := ih (h1.keeps (keeps_tcpSendOut (P := fun _ => True)
      (fun _ _ => rfl) _ _ _ (fun _ _ _ => trivial) _ _ _ hout))
    rwa [texted_texted, show size + (m - (slen + size)) = m - slen by ring] at h2

lemma tcpSendText_at (h : s.sock id = some t) (hrun : tcpSendText net.env id buf len s = .ok (n, s')) :
    0 ≤ n ∧ At id (texted n t) s' := by
  obtain ⟨t1, segsize, ht1, -, hturns⟩ := tcpSendText_inv hrun
  have hat := turns_at hturns (at_self h)
  rw [sub_zero] at hat
  exact ⟨hturns.nonneg le_rfl, hat⟩

lemma allocNewIss_run {iss : UInt32} (hrun : allocNewIss net.env s = .ok (iss, s')) :
    iss.toNat + 1 < 2 ^ 32 ∧ s'.sock = s.sock := by
  obtain ⟨w, s1, hget, hrest⟩ := bind_inv hrun
  cases hget
  obtain ⟨⟨⟩, s2, hmod, hret⟩ := bind_inv hrest
  cases hmod
  cases hret
  refine ⟨?_, rfl⟩
  split_ifs with hge
  · decide
  · have hlt := UInt32.lt_iff_toNat_lt.mp (UInt32.not_le.mp hge)
    simp only [UInt32.reduceToNat] at hlt
    omega

end Effects

section Opening

structure Opening (t : TcpSock) : Prop where
  iss : t.iss.toNat + 1 < 2 ^ 32
  una : t.sndUna = t.iss
  nxt : t.sndNxt = t.iss + 1
  state : t.state = .synSent ∨ t.state = .synRecv

lemma Opening.at {t' : TcpSock} (h : Opening t) (ha : At id t s) (ht' : s.sock id = some t') : Opening t' := by
  have ha := alike (ha t' ht')
  exact ⟨by rw [ha.iss]; exact h.iss, by rw [ha.sndUna, ha.iss, h.una], by rw [ha.sndNxt, ha.iss, h.nxt],
    by rw [ha.state]; exact h.state⟩

lemma tcpConnect_at (h0 : s.sock id = some t) (hrun : tcpConnect net.env id daddr dport s = .ok (true, s')) :
    ∃ iss : UInt32, iss.toNat + 1 < 2 ^ 32 ∧
      At id { t with state := .synSent, iss := iss, sndUna := iss, sndNxt := iss + 1 } s' := by
  rw [tcpConnect, bind_run (getSk_run h0)] at hrun
  split_ifs at hrun
  · simp at hrun
  obtain ⟨iss, s1, hiss, hrest⟩ := bind_inv hrun
  obtain ⟨hlt, hsock⟩ := allocNewIss_run hiss
  obtain ⟨⟨⟩, s2, hset, hrest⟩ := bind_inv hrest
  obtain ⟨b, s3, hhash, hrest⟩ := bind_inv hrest
  have h1 : At id t s1 := at_self (by rw [hsock]; exact h0)
  have h3 := (h1.modify (fun _ => rfl) hset).keeps
    (keeps_tcpHash (P := fun _ => True) (fun _ _ => rfl) (fun _ _ => rfl) id _ _ _ hhash)
  cases b with
  | false =>
    obtain ⟨⟨⟩, s4, -, hret⟩ := bind_inv hrest
    simp at hret
  | true =>
    obtain ⟨⟨⟩, s4, hwait, hrest⟩ := bind_inv hrest
    obtain ⟨⟨⟩, s5, hsend, hret⟩ := bind_inv hrest
    cases hret
    have h5 := (h3.modify (fun _ => rfl) hwait).keeps
      (keeps_tcpSendSyn (P := fun _ => True) (fun _ _ => rfl) (fun _ _ => trivial) id _ _ _ hsend)
    exact ⟨iss, hlt, h5.congr rfl⟩

lemma tcpConnect_opening (hrun : tcpConnect net.env id daddr dport s = .ok (true, s')) (ht : s'.sock id = some t) :
    Opening t := by
  obtain ⟨t0, -, -, h0, -⟩ := getSk_bind_inv hrun
  obtain ⟨iss, hlt, hat⟩ := tcpConnect_at h0 hrun
  exact Opening.at ⟨hlt, rfl, rfl, .inl rfl⟩ hat ht

lemma tcpListenChildSock_at {seg : TcpSegment} {new : Option ℕ} (hnext : s.tcp.nextSock = id)
    (hrun : tcpListenChildSock net.env j seg s = .ok (new, s')) :
    new = none ∧ s'.sock id = none ∨ new = some id ∧ At id { tcpAllocSock with state := .synRecv } s' := by
  subst hnext
  obtain ⟨w, s0, hget, hrest⟩ := bind_inv hrun
  cases hget
  obtain ⟨⟨⟩, s1, hmod, hrest⟩ := bind_inv hrest
  have h1 : At s.tcp.nextSock { tcpAllocSock with state := .synRecv } s1 := by
    cases hmod
    intro t' ht'
    simp only [Local.sock, Net.env, Function.update_self, Option.some.injEq] at ht'
    subst ht'
    rfl
  obtain ⟨b, s2, hhash, hrest⟩ := bind_inv hrest
  have h2 := h1.keeps (keeps_tcpHash (P := fun _ => True) (fun _ _ => rfl) (fun _ _ => rfl) _ _ _ _ hhash)
  cases b with
  | false =>
    obtain ⟨⟨⟩, s3, hfree, hret⟩ := bind_inv hrest
    cases hfree
    cases hret
    exact .inl ⟨rfl, Function.update_self _ _ _⟩
  | true =>
    obtain ⟨⟨⟩, s3, hget, hrest⟩ := bind_inv hrest
    obtain ⟨⟨⟩, s4, hparent, hrest⟩ := bind_inv hrest
    obtain ⟨⟨⟩, s5, hqueue, hrest⟩ := bind_inv hrest
    obtain ⟨⟨⟩, s6, hget', hret⟩ := bind_inv hrest
    cases hret
    have h6 := (((h2.aside hget fun _ => rfl).aside hparent fun _ => rfl).aside hqueue
      fun _ => rfl).aside hget' fun _ => rfl
    exact .inr ⟨rfl, h6⟩

lemma tcpListen_opening {seg : TcpSegment}
    (hrun : tcpListen net.env pkb seg j s = .ok ((), s')) (hnext : s.tcp.nextSock = id)
    (hnew : s.sock id = none) (ht : s'.sock id = some t) : Opening t := by
  have hnone : ∀ {P : Sent → Prop} {s1 : Local}, s1.sock id = none → ¬Keeps id (Same tcb) P s1 s' := by
    intro P s1 h1 hk
    obtain ⟨t1, ht1, -⟩ := hk.1 t ht
    simp [h1] at ht1
  rw [tcpListen] at hrun
  split_ifs at hrun
  · exact absurd (keeps_pure (P := fun _ => True) _ _ _ _ hrun) (hnone hnew)
  · exact absurd (Keeps.bind (aside_tcpSendReset seg) (fun _ => keeps_pure _) _ _ _ hrun) (hnone hnew)
  · exact absurd (keeps_pure (P := fun _ => True) _ _ _ _ hrun) (hnone hnew)
  obtain ⟨new, s1, hchild, hrest⟩ := bind_inv hrun
  rcases tcpListenChildSock_at hnext hchild with ⟨rfl, h1⟩ | ⟨rfl, h1⟩
  · exact absurd (keeps_pure (P := fun _ => True) _ _ _ _ hrest) (hnone h1)
  obtain ⟨iss, s2, hiss, hrest⟩ := bind_inv hrest
  obtain ⟨hlt, hsock⟩ := allocNewIss_run hiss
  obtain ⟨⟨⟩, s3, hset, hrest⟩ := bind_inv hrest
  obtain ⟨⟨⟩, s4, hsend, hrest⟩ := bind_inv hrest
  obtain ⟨⟨⟩, s5, hnum, hret⟩ := bind_inv hrest
  cases hret
  have h2 : At id _ s2 := fun t' ht' => h1 t' (hsock ▸ ht')
  have h5 := ((h2.modify (fun _ => rfl) hset).keeps
    (aside_tcpSendSynack id seg _ _ _ hsend)).modify (fun _ => rfl) hnum
  exact Opening.at ⟨hlt, rfl, rfl, .inr rfl⟩ h5 ht

end Opening

variable {iss : UInt32} {text fins : ℕ} {t' : TcpSock} {seg : TcpSegment}

section Numbers

def beforeFin : TcpState → Bool
  | .synSent | .synRecv | .established | .closeWait => true
  | _ => false

structure Numbered (iss : UInt32) (text fins : ℕ) (t : TcpSock) : Prop where
  first : t.iss = iss
  lo : iss ≤ t.sndUna
  hi : t.sndUna ≤ t.sndNxt
  nxt : t.sndNxt.toNat = iss.toNat + 1 + text + fins
  listen : t.state ≠ .listen
  synSent : t.state = .synSent → t.sndUna = iss
  last : fins = 0 ∨ fins = 1 ∧ beforeFin t.state = false

section Numbered

variable (h : Numbered iss text fins t)

include h

lemma Numbered.same (hiss : t'.iss = t.iss) (huna : t'.sndUna = t.sndUna)
    (hnxt : t'.sndNxt = t.sndNxt) (hl : t'.state ≠ .listen) (hs : t'.state = .synSent → t.state = .synSent)
    (hf : beforeFin t.state = false → beforeFin t'.state = false) : Numbered iss text fins t' := by
  refine ⟨hiss.trans h.first, huna ▸ h.lo, ?_, by rw [hnxt, h.nxt], hl, fun hst => ?_, ?_⟩
  · rw [huna, hnxt]
    exact h.hi
  · rw [huna]
    exact h.synSent (hs hst)
  · exact h.last.imp_right fun h1 => ⟨h1.1, hf h1.2⟩

lemma Numbered.acks {una : UInt32} {st : TcpState} (hlo : t.sndUna ≤ una)
    (hhi : una ≤ t.sndNxt) (hl : st ≠ .listen) (hs : st ≠ .synSent)
    (hf : beforeFin t.state = false → beforeFin st = false) :
    Numbered iss text fins { t with sndUna := una, state := st } :=
  ⟨h.first, UInt32.le_trans h.lo hlo, hhi, h.nxt, hl, fun hst => absurd hst hs,
    h.last.imp_right fun h1 => ⟨h1.1, hf h1.2⟩⟩

lemma Numbered.change (hc : Change seg t t') : Numbered iss text fins t' ∧ t.sndUna ≤ t'.sndUna := by
  cases hc with
  | aside hside =>
    have ha := alike hside
    exact ⟨h.same ha.iss ha.sndUna ha.sndNxt (ha.state ▸ h.listen) (fun hs => ha.state ▸ hs)
      (fun hf => ha.state ▸ hf), ha.sndUna ▸ UInt32.le_refl _⟩
  | cut => exact ⟨h.same rfl rfl rfl nofun nofun fun _ => rfl, UInt32.le_refl _⟩
  | syn hs hsyn hack =>
    have huna : t.sndUna ≤ (synsentSyn seg t).sndUna ∧ (synsentSyn seg t).sndUna ≤ t.sndNxt := by
      simp only [synsentSyn]
      split_ifs with hbit
      · rw [h.synSent hs, ← h.first]
        exact ⟨UInt32.le_of_lt (hack hbit).1, (hack hbit).2⟩
      · exact ⟨UInt32.le_refl _, h.hi⟩
    have hst : ∀ p : Prop, [Decidable p] → (if p then TcpState.established else .synRecv) ≠ .listen ∧
        (if p then TcpState.established else .synRecv) ≠ .synSent := by
      intro p _
      split_ifs <;> simp
    obtain ⟨hl, hs'⟩ := hst ((synsentSyn seg t).sndUna > t.iss)
    have hnum := h.acks huna.1 huna.2 hl hs' (by simp [hs, beforeFin])
    exact ⟨hnum.same rfl rfl rfl hl (fun hst => hst) fun hf => hf, huna.1⟩
  | completed hs hlo hhi => exact ⟨h.acks hlo hhi nofun nofun (by simp [hs, beforeFin]), hlo⟩
  | acked hs hnew =>
    simp only [acksNew, Bool.and_eq_true, decide_eq_true_eq] at hnew
    have hle : t.sndUna ≤ seg.ack := UInt32.le_of_lt hnew.1
    refine ⟨h.acks hle hnew.2 ?_ ?_ ?_, hle⟩
    all_goals
      simp only [List.mem_cons, List.not_mem_nil, or_false] at hs
      rcases hs with hs | hs | hs | hs | hs <;> simp [hs, ackedState, beforeFin]
  | text hr _ _ htext =>
    obtain ⟨_, _, _, _, _, _, _, he⟩ := tcpRecvText_receives htext
    rw [he]
    exact ⟨h.same rfl rfl rfl h.listen (fun hs => hs) fun hf => hf, UInt32.le_refl _⟩
  | fin hfin =>
    have hl := h.listen
    refine ⟨h.same ?_ ?_ ?_ ?_ ?_ ?_, ?_⟩
    all_goals cases hs : t.state <;> simp_all [finState, setRefcnt, beforeFin]

lemma Numbered.alters (ha : Alters seg t t') : Numbered iss text fins t' ∧ t.sndUna ≤ t'.sndUna := by
  refine ha.invariant (I := fun t1 => Numbered iss text fins t1 ∧ t.sndUna ≤ t1.sndUna) ?_ ⟨h, UInt32.le_refl _⟩
  rintro t1 t2 hc ⟨h1, hle⟩
  obtain ⟨h2, hle'⟩ := h1.change hc
  exact ⟨h2, UInt32.le_trans hle hle'⟩

end Numbered

lemma Numbered.at (h : Numbered iss text fins t1) (ha : At id t1 s)
    (ht' : s.sock id = some t') : Numbered iss text fins t' ∧ t'.sndUna = t1.sndUna := by
  have ha := alike (ha t' ht')
  exact ⟨h.same ha.iss ha.sndUna ha.sndNxt (ha.state ▸ h.listen) (fun hs => ha.state ▸ hs)
    (fun hf => ha.state ▸ hf), ha.sndUna⟩

lemma Numbered.texted (h : Numbered iss text fins t) (hn : 0 ≤ n)
    (hfit : iss.toNat + 1 + (text + n.toNat) + fins < 2 ^ 32) :
    Numbered iss (text + n.toNat) fins (texted n t) := by
  have hnat : (UInt32.ofInt n).toNat = n.toNat := by
    simp only [UInt32.ofInt, UInt32.toNat_ofNat']
    omega
  have hnxt : (t.sndNxt + UInt32.ofInt n).toNat = iss.toNat + 1 + (text + n.toNat) + fins := by
    rw [UInt32.toNat_add, hnat, h.nxt]
    omega
  have hhi := UInt32.le_iff_toNat_le.mp h.hi
  rw [h.nxt] at hhi
  refine ⟨h.first, h.lo, ?_, hnxt, h.listen, h.synSent, h.last⟩
  rw [UInt32.le_iff_toNat_le]
  simp only [SendSequence.texted, hnxt]
  omega

lemma Numbered.closed (h : Numbered iss text fins t)
    (hfit : iss.toNat + 1 + text + (fins + if sendable t.state then 1 else 0) < 2 ^ 32) :
    Numbered iss text (fins + if sendable t.state then 1 else 0) (closed t) ∧ (closed t).sndUna = t.sndUna := by
  by_cases hs : sendable t.state = true
  · have hbefore : beforeFin t.state = true := by
      cases hst : t.state <;> simp_all [sendable, beforeFin]
    obtain rfl : fins = 0 := by
      rcases h.last with h0 | ⟨-, hf⟩
      · exact h0
      · simp [hbefore] at hf
    have hhi := UInt32.le_iff_toNat_le.mp h.hi
    rw [h.nxt] at hhi
    simp only [hs, if_true] at hfit ⊢
    have hnxt : (t.sndNxt + 1).toNat = iss.toNat + 1 + text + (0 + 1) := by
      rw [UInt32.toNat_add, h.nxt, UInt32.toNat_one]
      omega
    have hle : t.sndUna ≤ t.sndNxt + 1 := by
      rw [UInt32.le_iff_toNat_le, hnxt]
      omega
    cases hst : t.state <;> simp only [hst, sendable, Bool.false_eq_true] at hs
    all_goals
      simp only [Changes.closed, hst]
      exact ⟨⟨h.first, h.lo, hle, hnxt, by simp, by simp, .inr ⟨rfl, rfl⟩⟩, trivial⟩
  · simp only [hs, Bool.false_eq_true, if_false, Nat.add_zero]
    have hl := h.listen
    refine ⟨h.same ?_ ?_ ?_ ?_ ?_ ?_, ?_⟩
    all_goals cases hst : t.state <;> simp_all [Changes.closed, sendable]

lemma Step.back {op : Op} (h : Step net id op s k f s') : ∃ t, s.sock id = some t := by
  cases h with
  | segment hrun | send hrun =>
    obtain ⟨t, s1, hget, -⟩ := bind_inv hrun
    exact ⟨t, (getSk_inv hget).1⟩
  | close ht hrun => exact ⟨_, ht⟩

lemma Numbered.step {op : Op} (h : Numbered iss text fins t) (ht : s.sock id = some t)
    (hstep : Step net id op s k f s') (hfit : iss.toNat + 1 + (text + k) + (fins + f) < 2 ^ 32)
    (ht' : s'.sock id = some t') : Numbered iss (text + k) (fins + f) t' ∧ t.sndUna ≤ t'.sndUna := by
  cases hstep with
  | segment hrun =>
    have ha := (tcpProcess_alters ht h.listen hrun).rel ht ht'
    exact h.alters ha
  | send hrun =>
    obtain ⟨hn, hat⟩ := tcpSendText_at ht hrun
    obtain ⟨hnum, huna⟩ := (h.texted hn hfit).at hat ht'
    exact ⟨hnum, huna ▸ UInt32.le_refl _⟩
  | close ht1 hrun =>
    cases Option.mem_unique ht ht1
    obtain ⟨hclosed, hkeep⟩ := h.closed hfit
    obtain ⟨hnum, huna⟩ := hclosed.at (tcpClose_at ht h.listen hrun) ht'
    exact ⟨hnum, by rw [huna, hkeep]; exact UInt32.le_refl _⟩

lemma Run.numbered {ok : TcpSock → Op → Prop} (h : Run net id ok iss s text fins)
    (hfit : iss.toNat + 1 + text + fins < 2 ^ 32) (ht : s.sock id = some t) :
    Numbered iss text fins t := by
  have hopen : ∀ {t : TcpSock}, Opening t → Numbered t.iss 0 0 t := by
    intro t ho
    have hnxt : t.sndNxt.toNat = t.iss.toNat + 1 := by
      rw [ho.nxt, UInt32.toNat_add, UInt32.toNat_one, Nat.mod_eq_of_lt ho.iss]
    refine ⟨rfl, ho.una ▸ UInt32.le_refl _, ?_, hnxt, ?_, fun _ => ho.una, .inl rfl⟩
    · rw [UInt32.le_iff_toNat_le, ho.una, hnxt]
      omega
    · rcases ho.state with hs | hs <;> simp [hs]
  induction h generalizing t with
  | connect hrun ht1 =>
    cases Option.mem_unique ht1 ht
    exact hopen (tcpConnect_opening hrun ht)
  | listen hrun hnext hnew ht1 =>
    cases Option.mem_unique ht1 ht
    exact hopen (tcpListen_opening hrun hnext hnew ht)
  | step _ _ hstep ih =>
    obtain ⟨t0, ht0⟩ := hstep.back
    exact ((ih (by omega) ht0).step ht0 hstep hfit ht).1

theorem send_sequence {ok : TcpSock → Op → Prop} (h : Run net id ok iss s text fins)
    (hfit : iss.toNat + 1 + text + fins < 2 ^ 32) (ht : s.sock id = some t) :
    iss ≤ t.sndUna ∧ t.sndUna ≤ t.sndNxt ∧ t.sndNxt.toNat - iss.toNat = 1 + text + (if 0 < fins then 1 else 0) ∧
      ∀ op k f s' t', Step net id op s k f s' → iss.toNat + 1 + (text + k) + (fins + f) < 2 ^ 32 →
        s'.sock id = some t' → t.sndUna ≤ t'.sndUna := by
  have hnum := h.numbered hfit ht
  refine ⟨hnum.lo, hnum.hi, ?_, fun op k f s' t' hstep hfit' ht' => (hnum.step ht hstep hfit' ht').2⟩
  rw [hnum.nxt]
  rcases hnum.last with rfl | ⟨rfl, -⟩
  · simp only [Nat.lt_irrefl, if_false]
    omega
  · simp only [Nat.lt_one_iff, if_true]
    omega

end Numbers

def afterClose (s : Local) : Local := finalState (tcpClose online.env 0) s

def afterSegment (seg : TcpSegment) (s : Local) : Local :=
  finalState (tcpProcess online.env (allocPkb 0 0) seg (some 0)) s

lemma run_filled {ok : TcpSock → Op → Prop} (hok : ok ((dialled.sock 0).getD boundSock)
      (.segment (allocPkb 0 0) { synAckSegment with wnd := 2 }))
    (hsend : ok ((SendWindow.opened.sock 0).getD boundSock) (.send [1, 2] 2)) :
    Run online 0 ok 100 SendWindow.filled 2 0 := by
  have h0 : Run online 0 ok 100 dialled 0 0 :=
    @Run.connect online 0 ok beforeConnect _ 0x0200000a 0x5000 ((dialled.sock 0).getD boundSock)
      (run_of_outcome (by decide +kernel)) (sock_of_isSome (by decide +kernel))
  have h1 : Run online 0 ok 100 SendWindow.opened 0 0 :=
    h0.step (fun t ht => by rw [ht] at hok; exact hok) (.segment (run_of_outcome (by decide +kernel)))
  exact h1.step (fun t ht => by rw [ht] at hsend; exact hsend)
    (Step.send (n := 2) (run_of_outcome (by decide +kernel)))

theorem send_sequence_closed : ∃ s t, Run online 0 (fun _ _ => True) 100 s 2 1 ∧ s.sock 0 = some t ∧
    100 ≤ t.sndUna ∧ t.sndUna ≤ t.sndNxt ∧ t.sndNxt.toNat - 100 = 1 + 2 + 1 := by
  have h2 : Run online 0 (fun _ _ => True) 100 SendWindow.filled 2 0 := run_filled trivial trivial
  have h3 : Run online 0 (fun _ _ => True) 100 (afterClose SendWindow.filled) 2 1 :=
    h2.step (fun _ _ => trivial) (.close (sock_of_isSome (by decide +kernel)) (run_of_outcome (by decide +kernel)))
  have ht := @sock_of_isSome (afterClose SendWindow.filled) (by decide +kernel)
  obtain ⟨hlo, hhi, hnxt, -⟩ := send_sequence h3 (by decide) ht
  exact ⟨_, _, h3, ht, hlo, hhi, hnxt⟩

section Teardown

def Allowed (t : TcpSock) : Op → Prop
  | .send _ _ => sendable t.state = true
  | _ => True

/-- Everything sent has been acknowledged when `tcp_close` sends a FIN, and no segment resets a sock in
LAST_ACK. -/
def Careful (t : TcpSock) : Op → Prop
  | .segment _ seg => t.state = .lastAck → seqCheck seg t = true → seg.rst = false ∧ seg.syn = false
  | .send _ _ => sendable t.state = true
  | .close => sendable t.state = true → t.sndUna = t.sndNxt

def TearsDown (id : ℕ) (t : TcpSock) (s' : Local) : Prop :=
  match t.state with
  | .finWait1 => ∃ t', s'.sock id = some t' ∧ (t'.state = .finWait2 ∨ t'.state = .timeWait)
  | .closing => ∃ t', s'.sock id = some t' ∧ t'.state = .timeWait
  | .lastAck => ∀ t', s'.sock id = some t' → t'.state = .closed
  | _ => False

def finWaits (st : TcpState) : Prop := st = .finWait1 ∨ st = .closing ∨ st = .lastAck

structure FinOnly (t : TcpSock) : Prop where
  listen : t.state ≠ .listen
  nxt : finWaits t.state → t.sndNxt = t.sndUna + 1

lemma FinOnly.change (h : FinOnly t) (hc : Change seg t t') : FinOnly t' := by
  cases hc with
  | aside hside =>
    have ha := alike hside
    refine ⟨ha.state ▸ h.listen, fun hw => ?_⟩
    rw [ha.sndNxt, ha.sndUna]
    exact h.nxt (ha.state ▸ hw)
  | cut => exact ⟨nofun, by simp [finWaits]⟩
  | syn hs hsyn hack =>
    refine ⟨?_, ?_⟩ <;> dsimp only <;> split_ifs <;> simp [finWaits]
  | completed hs hlo hhi => exact ⟨nofun, by simp [finWaits]⟩
  | acked hs hnew =>
    simp only [List.mem_cons, List.not_mem_nil, or_false] at hs
    rcases hs with hs | hs | hs | hs | hs <;> exact ⟨by simp [hs, ackedState], by simp [hs, ackedState, finWaits]⟩
  | text hr _ _ htext =>
    obtain ⟨_, _, _, _, _, _, _, he⟩ := tcpRecvText_receives htext
    rw [he]
    exact ⟨h.listen, h.nxt⟩
  | fin hfin =>
    have hl := h.listen
    have hn := h.nxt
    refine ⟨?_, ?_⟩
    all_goals cases hs : t.state <;> simp_all [finState, setRefcnt, finWaits]

lemma FinOnly.alike (h : FinOnly t1) (ha : At id t1 s) (ht' : s.sock id = some t') :
    FinOnly t' := @FinOnly.change _ _ (Stream.textSegment 0 []) h (.aside (ha t' ht'))

lemma FinOnly.closed (h : FinOnly t) (hc : sendable t.state = true → t.sndUna = t.sndNxt) : FinOnly (closed t) := by
  have hl := h.listen
  have hn := h.nxt
  refine ⟨?_, ?_⟩
  all_goals cases hs : t.state <;> simp_all [Changes.closed, sendable, finWaits]

lemma FinOnly.texted (h : FinOnly t) (hs : sendable t.state = true) (n : ℤ) : FinOnly (texted n t) := by
  refine ⟨h.listen, fun hw => ?_⟩
  have hw : finWaits t.state := hw
  rcases hw with hw | hw | hw <;> simp [hw, sendable] at hs

lemma Run.finOnly (h : Run net id Careful iss s text fins) (ht : s.sock id = some t) : FinOnly t := by
  have hopen : ∀ {t : TcpSock}, Opening t → FinOnly t := by
    intro t ho
    rcases ho.state with hs | hs <;> exact ⟨by simp [hs], by simp [hs, finWaits]⟩
  induction h generalizing t with
  | connect hrun _ => exact hopen (tcpConnect_opening hrun ht)
  | listen hrun hnext hnew _ => exact hopen (tcpListen_opening hrun hnext hnew ht)
  | step _ hok hstep ih =>
    obtain ⟨t0, ht0⟩ := hstep.back
    have h0 := ih ht0
    have hc := hok t0 ht0
    cases hstep with
    | segment hrun =>
      have ha := (tcpProcess_alters ht0 h0.listen hrun).rel ht0 ht
      exact ha.invariant (fun hch hi => FinOnly.change hi hch) h0
    | send hrun =>
      exact (h0.texted hc _).alike (tcpSendText_at ht0 hrun).2 ht
    | close ht1 hrun => exact (h0.closed hc).alike (tcpClose_at ht0 h0.listen hrun) ht

lemma FinOnly.acked (h : FinOnly t) (hw : finWaits t.state) (hnew : acksNew t seg = true) : seg.ack = t.sndNxt := by
  simp only [acksNew, Bool.and_eq_true, decide_eq_true_eq, UInt32.lt_iff_toNat_lt, UInt32.le_iff_toNat_le] at hnew
  rw [h.nxt hw] at hnew ⊢
  apply UInt32.toNat_inj.mp
  rw [UInt32.toNat_add, UInt32.toNat_one] at hnew ⊢
  have := t.sndUna.toNat_lt
  omega

lemma drop_sock {u : Unit} (h : s.sock id = some t) (hrun : drop net.env id seg pkb s = .ok (u, s')) :
    ∃ t', s'.sock id = some t' ∧ Same tcb t t' := by
  rw [drop, bind_run (getSk_run h)] at hrun
  split_ifs at hrun
  · obtain ⟨⟨⟩, s1, hack, hfree⟩ := bind_inv hrun
    cases hfree
    cases hr : seg.rst with
    | true =>
      simp only [tcpSendAck, hr, if_true] at hack
      cases hack
      exact ⟨t, h, rfl⟩
    | false =>
      rw [tcpSendAck_run h hr] at hack
      cases hack
      exact ⟨setDst (dstOf net t seg.iphdrSrc) t, by rw [sock_emitted, sock_put], rfl⟩
  · cases hrun
    exact ⟨t, h, rfl⟩

lemma lastAck_stays (h : s.sock id = some t) (hs : t.state = .lastAck)
    (hc : seqCheck seg t = true → seg.rst = false ∧ seg.syn = false) (hnew : ¬acksNew t seg = true)
    (hrun : tcpProcess net.env pkb seg (some id) s = .ok ((), s')) :
    ∃ t', s'.sock id = some t' ∧ t'.state = .lastAck := by
  have hdrop : ∀ {s1 : Local} {t1 : TcpSock} {seg1 : TcpSegment}, s1.sock id = some t1 →
      t1.state = .lastAck → drop net.env id seg1 pkb s1 = .ok ((), s') →
      ∃ t', s'.sock id = some t' ∧ t'.state = .lastAck := by
    intro s1 t1 seg1 h1 hs1 hrun1
    obtain ⟨t', ht', hside⟩ := drop_sock h1 hrun1
    exact ⟨t', ht', (Changes.alike hside).state.trans hs1⟩
  rw [tcpProcess, bind_run (getSk_run h)] at hrun
  simp only [hs] at hrun
  rw [tcpArrive, bind_run (getSk_run h)] at hrun
  cases hseq : seqCheck seg t with
  | false =>
    simp only [hseq, Bool.not_false, if_true] at hrun
    split_ifs at hrun
    · rw [bind_run (modifySk_run _ h)] at hrun
      refine hdrop sock_put ?_ hrun
      exact hs
    · exact hdrop h hs hrun
  | true =>
    obtain ⟨hrst, hsyn⟩ := hc hseq
    simp only [hseq, hrst, Bool.not_true, Bool.false_eq_true, if_false, checkSyn, hsyn] at hrun
    rw [bind_run (pure_run ())] at hrun
    split_ifs at hrun
    · exact hdrop h hs hrun
    obtain ⟨b, s1, hack, hrest⟩ := bind_inv hrun
    rw [checkAck, bind_run (getSk_run h)] at hack
    simp only [hs, hnew, Bool.false_eq_true, if_false] at hack
    split_ifs at hack
    · cases hack
      exact hdrop h hs hrest
    · rw [bind_run (modifySk_run _ h)] at hack
      cases hack
      have hs1 : (tcpUpdateWindow t seg).state = .lastAck := by
        rw [tcpUpdateWindow]
        split_ifs <;> exact hs
      have htext := @checkText_run net (s.put id (tcpUpdateWindow t seg)) id _ seg pkb sock_put
      simp only [Connection.texted, hs1, receives, Bool.false_and, Bool.false_eq_true, if_false,
        Except.map] at htext
      simp only [Bool.not_true, Bool.false_eq_true, if_false] at hrest
      rw [bind_run htext] at hrest
      obtain ⟨s2, hfin, -, hsock⟩ := ends_checkFin seg
        sock_put
      rw [bind_run hfin] at hrest
      refine hdrop hsock ?_ hrest
      simp only [finished]
      split_ifs
      · simp only [finState, hs1]
      · exact hs1

theorem teardown_acks_fin {pkb : Pkbuf} (h : Run net id Careful iss s text fins)
    (ht : s.sock id = some t) (hc : Careful t (.segment pkb seg))
    (hrun : tcpProcess net.env pkb seg (some id) s = .ok ((), s')) (hdown : TearsDown id t s') :
    seg.ack = t.sndNxt := by
  have hfin := h.finOnly ht
  by_contra hne
  have hnot : ∀ {t1 : TcpSock}, FinOnly t1 → t1.sndNxt = t.sndNxt → finWaits t1.state →
      ¬acksNew t1 seg = true := fun h1 hnxt hw hnew => hne ((h1.acked hw hnew).trans hnxt)
  have hstuck : ∀ t', s'.sock id = some t' → t.state = .finWait1 ∨ t.state = .closing →
      t'.state = .finWait1 ∨ t'.state = .closing ∨ t'.state = .closed := by
    intro t' ht' hs
    have ha := (tcpProcess_alters ht hfin.listen hrun).rel ht ht'
    refine (ha.invariant (I := fun t1 => FinOnly t1 ∧ t1.sndNxt = t.sndNxt ∧
      (t1.state = .finWait1 ∨ t1.state = .closing ∨ t1.state = .closed)) ?_
      ⟨hfin, rfl, hs.imp_right .inl⟩).2.2
    rintro t1 t2 hch ⟨h1, hnxt, hst⟩
    refine ⟨h1.change hch, ?_⟩
    cases hch with
    | aside hside =>
      have ha := Changes.alike hside
      rw [ha.sndNxt, ha.state]
      exact ⟨hnxt, hst⟩
    | cut => exact ⟨hnxt, .inr (.inr rfl)⟩
    | syn hs1 | completed hs1 => simp [hs1] at hst
    | acked hs1 hnew =>
      refine absurd hnew (hnot h1 hnxt ?_)
      rcases hst with hst | hst | hst <;> simp [hst, finWaits] at hs1 ⊢
    | text hr _ _ htext =>
      obtain ⟨_, _, _, _, _, _, _, he⟩ := tcpRecvText_receives htext
      rw [he]
      exact ⟨hnxt, hst⟩
    | fin =>
      rcases hst with hst | hst | hst <;> simp [finState, hst, hnxt]
  cases hs : t.state <;> simp only [TearsDown, hs] at hdown
  case finWait1 =>
    obtain ⟨t', ht', hd⟩ := hdown
    rcases hstuck t' ht' (.inl hs) with hk | hk | hk <;> simp [hk] at hd
  case closing =>
    obtain ⟨t', ht', hd⟩ := hdown
    rcases hstuck t' ht' (.inr hs) with hk | hk | hk <;> simp [hk] at hd
  case lastAck =>
    obtain ⟨t', ht', hk⟩ := lastAck_stays ht hs (hc hs) (hnot hfin rfl (.inr (.inr hs))) hrun
    simp [hdown t' ht'] at hk

end Teardown

open SendWindow in
theorem teardown_acks_fin_acked : ∃ s s' t, Run online 0 Careful 100 s 2 1 ∧ s.sock 0 = some t ∧
    tcpProcess online.env (allocPkb 0 0) (windowSegment 104 2) (some 0) s = .ok ((), s') ∧
    TearsDown 0 t s' ∧ (windowSegment 104 2).ack = t.sndNxt := by
  have hplain : ∀ t pkb ack, Careful t (.segment pkb (windowSegment ack 2)) := fun _ _ _ _ _ => ⟨rfl, rfl⟩
  have h2 : Run online 0 Careful 100 filled 2 0 :=
    run_filled (fun hs => absurd hs (by decide +kernel)) (show _ = _ by decide +kernel)
  have h3 : Run online 0 Careful 100 (afterSegment (windowSegment 103 2) filled) 2 0 :=
    h2.step (fun t _ => hplain t _ 103) (.segment (run_of_outcome (by decide +kernel)))
  have hopen := @sock_of_isSome (afterSegment (windowSegment 103 2) filled) (by decide +kernel)
  have hclose : Step online 0 .close (afterSegment (windowSegment 103 2) filled) 0 1
      (afterClose (afterSegment (windowSegment 103 2) filled)) :=
    .close hopen (run_of_outcome (by decide +kernel))
  have h4 := h3.step (by
    intro t ht _
    cases Option.mem_unique hopen ht
    decide +kernel) hclose
  have ht := @sock_of_isSome (afterClose (afterSegment (windowSegment 103 2) filled)) (by decide +kernel)
  have hrun : tcpProcess online.env (allocPkb 0 0) (windowSegment 104 2) (some 0)
      (afterClose (afterSegment (windowSegment 103 2) filled)) = .ok ((), _) :=
    run_of_outcome (by decide +kernel)
  have hdown : TearsDown 0 ((afterClose (afterSegment (windowSegment 103 2) filled)).sock 0 |>.getD boundSock)
      (afterSegment (windowSegment 104 2) (afterClose (afterSegment (windowSegment 103 2) filled))) :=
    ⟨_, sock_of_isSome (by decide +kernel), by decide +kernel⟩
  exact ⟨_, _, _, h4, ht, hrun, hdown, teardown_acks_fin h4 ht (hplain _ _ _) hrun hdown⟩

open SendWindow in
/-- The ACK of the text in front of the FIN is enough. -/
theorem text_acked_instead_of_fin : ∃ s s' t, Run online 0 Allowed 100 s 2 1 ∧ s.sock 0 = some t ∧ t.state = .finWait1 ∧
    tcpProcess online.env (allocPkb 0 0) (windowSegment 103 2) (some 0) s = .ok ((), s') ∧
    TearsDown 0 t s' ∧ (windowSegment 103 2).ack ≠ t.sndNxt := by
  have h2 : Run online 0 Allowed 100 filled 2 0 :=
    run_filled trivial (show _ = _ by decide +kernel)
  have hclose : Step online 0 .close filled 0 1 (afterClose filled) :=
    .close (sock_of_isSome (by decide +kernel)) (run_of_outcome (by decide +kernel))
  have hdown : TearsDown 0 ((afterClose filled).sock 0 |>.getD boundSock)
      (afterSegment (windowSegment 103 2) (afterClose filled)) :=
    ⟨_, sock_of_isSome (by decide +kernel), by decide +kernel⟩
  exact ⟨_, _, _, h2.step (by exact fun _ _ => trivial) hclose, sock_of_isSome (by decide +kernel), by decide +kernel,
    run_of_outcome (by decide +kernel), hdown, by decide +kernel⟩

end Tapip.Tcp.SendSequence
