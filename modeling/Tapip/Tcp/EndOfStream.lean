import Tapip.Tcp.SendSequence

/-! A reader, the text that arrives for it and the FIN at its end. -/

namespace Tapip.Tcp.EndOfStream

open Net.Pkb Lib Foundation.Program Text Connection Tcp.Stream Session Changes
open SendSequence (afterSegment)

variable {t'' : TcpSock} {a S : List UInt8} {r : Received} {st : TcpState}

variable {t t' : TcpSock} {seg : TcpSegment}

section Arrives

variable {pkb : Pkbuf}

structure Appends (new : List UInt8) (t t' : TcpSock) : Prop where
  buf : BufWf t'
  held : held t' = held t ++ new
  nxt : t'.rcvNxt = t.rcvNxt + UInt32.ofNat new.length

lemma Appends.refl (h : BufWf t) : Appends [] t t := ⟨h, by simp, by simp⟩

lemma Appends.trans (h : Appends a t t') (h' : Appends b t' t'') : Appends (a ++ b) t t'' := by
  refine ⟨h'.buf, by rw [h'.held, h.held, List.append_assoc], ?_⟩
  rw [h'.nxt, h.nxt, List.length_append, UInt32.ofNat_add, UInt32.add_assoc]

lemma Appends.same (h : Appends a t t') (hb : t''.rcvBuf = t'.rcvBuf) (hn : t''.rcvNxt = t'.rcvNxt) : Appends a t t'' :=
  ⟨by rw [BufWf, hb]; exact h.buf, by rw [Stream.held, hb]; exact h.held, hn.trans h.nxt⟩

lemma tcpWriteBuf_appends (hw : BufWf t) (h : tcpWriteBuf t data len = .ok (rlen, t')) :
    ∃ new, Appends new t t' ∧ (0 < rlen → new ≠ []) := by
  obtain ⟨c, hc, h⟩ := bind_eq_ok.mp h
  obtain ⟨hcw, hce⟩ := rcvCbuf_spec hw hc
  obtain ⟨c', new, hwrite, hw', -, -, he, hlen, -⟩ := writeCbuf_appends data (toInt len) hcw
  have hbuf : BufWf { t with rcvBuf := some c' } := by
    rintro d ⟨⟩
    exact hw'
  have hheld : held { t with rcvBuf := some c' } = held t ++ new := he.trans (by rw [hce])
  simp only [hwrite, ok_bind, pure_eq_ok] at h
  split_ifs at h with hpos
  · cases h
    refine ⟨new, ⟨hbuf, hheld, by rw [hlen]⟩, fun hlt hnil => ?_⟩
    rw [hnil, List.length_nil] at hlen
    omega
  · cases h
    obtain rfl : new = [] := List.length_eq_zero_iff.mp (by omega)
    exact ⟨[], ⟨hbuf, hheld, by simp⟩, fun hlt => absurd hlt hpos⟩

lemma drains_appends (hw : BufWf t) (h : Drains queue t len freed rest t' len') :
    ∃ new, Appends new t t' ∧ (len < len' → new ≠ []) := by
  induction h with
  | rests => exact ⟨[], .refl hw, by simp⟩
  | full _ hwrite =>
    obtain ⟨new, happ, -⟩ := tcpWriteBuf_appends hw hwrite
    exact ⟨new, happ, by simp⟩
  | next _ hwrite hpos _ ih =>
    obtain ⟨new, happ, hnew⟩ := tcpWriteBuf_appends hw hwrite
    obtain ⟨new', happ', -⟩ := ih happ.buf
    exact ⟨new ++ new', happ.trans happ', fun _ => by simp [hnew hpos]⟩

lemma tcpSegmentReass_appends (hw : BufWf t) (h : tcpSegmentReass t seg pkb = .ok r) :
    ∃ new, Appends new t r.tsk ∧ (r.tsk.push = true → t.push = true ∨ new ≠ []) := by
  rcases tcpSegmentReass_cases t seg pkb with he | ⟨before, after, seg', tr, -, -, he⟩
  · cases h.symm.trans he
    exact ⟨[], .refl hw, .inl⟩
  rw [he] at h
  split_ifs at h
  · cases h
    exact ⟨[], (Appends.refl hw).same rfl rfl, .inl⟩
  · obtain ⟨⟨freed, rest, t', len⟩, hrun, h⟩ := bind_eq_ok.mp h
    cases h
    obtain ⟨new, happ, hpos⟩ := drains_appends hw (writeReass_drains hrun)
    refine ⟨new, happ.same rfl rfl, fun hpush => ?_⟩
    simp only [Bool.or_eq_true, Bool.and_eq_true, decide_eq_true_eq] at hpush
    obtain ⟨_, _, _, rfl⟩ := (writeReass_drains hrun).writes
    exact hpush.imp_right fun hp => hpos hp.1

lemma tcpRecvText_appends (hw : BufWf t) (h : tcpRecvText t seg pkb = .ok r) :
    ∃ new, Appends new t r.tsk ∧ (r.tsk.push = true → t.push = true ∨ new ≠ []) := by
  simp only [Text.tcpRecvText] at h
  split at h
  · cases h
    exact ⟨[], .refl hw, .inl⟩
  split at h
  · cases h
    exact ⟨[], .refl hw, .inl⟩
  split at h
  · obtain ⟨⟨rlen, t'⟩, hwrite, h⟩ := bind_eq_ok.mp h
    cases h
    obtain ⟨new, happ, hpos⟩ := tcpWriteBuf_appends hw hwrite
    refine ⟨new, happ.same rfl rfl, fun hpush => ?_⟩
    simp only [Bool.or_eq_true, Bool.and_eq_true, decide_eq_true_eq] at hpush
    obtain ⟨_, _, _, rfl⟩ := tcpWriteBuf_writes hwrite
    exact hpush.imp_right fun hp => hpos hp.1
  · obtain ⟨r', hr, h⟩ := bind_eq_ok.mp h
    cases h
    obtain ⟨new, happ, hpush⟩ := tcpSegmentReass_appends hw hr
    exact ⟨new, happ.same rfl rfl, hpush⟩

end Arrives

section Fill

variable {σ : Type} (env : TcpEnv σ)

/-! `tcp_recv_buf` once more, with what it has put into the buffer of the caller. -/

def fillGoOn (id : ℕ) (len : ℤ) (loop : ℤ → List UInt8 → Prog σ (Recv × List UInt8)) (rlen : ℤ)
    (out : List UInt8) : Prog σ (Recv × List UInt8) := do
  let tsk ← getSk env id
  if !(tsk.push || textWaits tsk || decide (rlen ≥ len)) then
    if tsk.sk.recvWait then return (.sleeps rlen, out)
    else fault .nullPointer
  else if tsk.push && !textWaits tsk then
    modifySk env id (fun t => { t with push := false })
    return (.returns rlen, out)
  else loop rlen out

def fillLoop (id : ℕ) (len : ℤ) : ℕ → ℤ → List UInt8 → Prog σ (Recv × List UInt8)
  | fuel, rlen, out =>
    if rlen < len then
      match fuel with
      | 0 => fault .hang
      | fuel + 1 => do
        let tsk ← getSk env id
        let (buf, tsk) ← liftExcept (tcpReadBuf tsk (len - rlen))
        modifySk env id (fun _ => tsk)
        fillGoOn env id len (fillLoop id len fuel) (rlen + buf.length) (out ++ buf)
    else pure (.returns rlen, out)

def fillBuf (id : ℕ) (len : ℤ) : Prog σ (Recv × List UInt8) := do
  if recvable (← getSk env id) then fillLoop env id len (len.toNat + 1) 0 []
  else return (.returns (-1), [])

def fillBufWoken (id : ℕ) (len rlen : ℤ) (out : List UInt8) : Prog σ (Recv × List UInt8) :=
  fillGoOn env id len (fillLoop env id len (len.toNat + 1)) rlen out

lemma fst_fillGoOn {id : ℕ} {len : ℤ} {loop : ℤ → List UInt8 → Prog σ (Recv × List UInt8)}
    {loop' : ℤ → Prog σ Recv} (h : ∀ rlen out, Prod.fst <$> loop rlen out = loop' rlen) (rlen : ℤ)
    (out : List UInt8) : Prod.fst <$> fillGoOn env id len loop rlen out = recvGoOn env id len loop' rlen := by
  simp only [fillGoOn, recvGoOn, map_bind]
  congr 1
  funext tsk
  split_ifs
  · exact map_pure _ _
  · rfl
  · simp
  · exact h rlen out

lemma fst_fillLoop (id : ℕ) (len : ℤ) (fuel : ℕ) (rlen : ℤ) (out : List UInt8) :
    Prod.fst <$> fillLoop env id len fuel rlen out = recvLoop env id len fuel rlen := by
  induction fuel generalizing rlen out with
  | zero =>
    simp only [fillLoop, recvLoop]
    split_ifs
    · rfl
    · exact map_pure _ _
  | succ fuel ih =>
    rw [fillLoop, recvLoop]
    split_ifs
    · simp only [map_bind, fst_fillGoOn env ih]
    · exact map_pure _ _

lemma fst_fillBuf (id : ℕ) (len : ℤ) : Prod.fst <$> fillBuf env id len = tcpRecvBuf env id len := by
  simp only [fillBuf, tcpRecvBuf, map_bind]
  congr 1
  funext tsk
  split_ifs
  · exact fst_fillLoop env id len _ 0 []
  · exact map_pure _ _

lemma fst_fillBufWoken (id : ℕ) (len rlen : ℤ) (out : List UInt8) :
    Prod.fst <$> fillBufWoken env id len rlen out = tcpRecvBufWoken env id len rlen false :=
  fst_fillGoOn env (fst_fillLoop env id len _) rlen out

end Fill

variable {net : Net} {id : ℕ} {s : Local}

section Turn

variable {len rlen : ℤ} {buf : List UInt8}

lemma textWaits_iff (h : BufWf t) : textWaits t = true ↔ held t ≠ [] := by
  cases hc : t.rcvBuf with
  | none => simp [textWaits, held, hc]
  | some c =>
    have hlen := contents_length (h c hc)
    simp only [textWaits, held, hc, Option.any_some, decide_eq_true_eq, Option.map_some, Option.getD_some]
    rw [not_iff_not, ← List.length_eq_zero_iff]
    omega

lemma tcpReadBuf_takes (h : BufWf t) (hl : 0 < len) :
    ∃ buf rcvBuf rcvWnd, tcpReadBuf t len = .ok (buf, { t with rcvBuf := rcvBuf, rcvWnd := rcvWnd }) ∧
      BufWf { t with rcvBuf := rcvBuf, rcvWnd := rcvWnd } ∧
      buf ++ held { t with rcvBuf := rcvBuf, rcvWnd := rcvWnd } = held t ∧
      buf = (held t).take len.toNat := by
  cases hc : t.rcvBuf with
  | none =>
    refine ⟨[], none, t.rcvWnd + UInt32.ofInt 0, by simp [tcpReadBuf, hc, readCbuf], ?_, ?_, ?_⟩
    · simp [BufWf]
    · simp [held, hc]
    · simp [held, hc]
  | some c =>
    obtain ⟨c', hread, hw', -, he⟩ := readCbuf_spec len (h c hc)
    refine ⟨_, some c', _, by simp only [tcpReadBuf, hc, hread]; rfl, by simpa [BufWf] using hw', ?_, ?_⟩
    · simp only [held, hc, Option.map_some, Option.getD_some]
      rw [he, List.take_append_drop]
    · have hlen := contents_length (h c hc)
      simp only [held, hc, Option.map_some, Option.getD_some]
      rw [List.take_eq_take_iff]
      omega

structure Taken (t : TcpSock) (buf : List UInt8) (t' : TcpSock) : Prop where
  split : buf ++ held t' = held t
  push : t'.push = (t.push && textWaits t')
  wf : BufWf t'
  rest : ∃ rcvBuf rcvWnd push, t' = { t with rcvBuf := rcvBuf, rcvWnd := rcvWnd, push := push }

inductive Turn (len rlen : ℤ) (t : TcpSock) (buf : List UInt8) (t' : TcpSock) : Recv → Prop
  | returns : Taken t buf t' → buf ≠ [] ∨ t.push = true ∧ held t = [] →
      Turn len rlen t buf t' (.returns (rlen + buf.length))
  | sleeps : Taken t buf t' → t.push = false → held t' = [] → rlen + buf.length < len →
      Turn len rlen t buf t' (.sleeps (rlen + buf.length))

variable {out : List UInt8}

lemma push_waits (h : (t.push && !w) = false) : t.push = (t.push && w) := by
  cases hp : t.push <;> simp_all

lemma fillLoop_turn (h : s.sock id = some t) (hw : BufWf t) (hr : t.sk.recvWait = true) (hlt : rlen < len) (fuel : ℕ) :
    ∃ r buf t', fillLoop net.env id len (fuel + 2) rlen out s = .ok ((r, out ++ buf), s.put id t') ∧
      Turn len rlen t buf t' r := by
  obtain ⟨buf, rcvBuf, rcvWnd, hread, hw', hsplit, htake⟩ := @tcpReadBuf_takes t (len - rlen) hw (by omega)
  set t1 : TcpSock := { t with rcvBuf := rcvBuf, rcvWnd := rcvWnd }
  have hwaits := textWaits_iff hw'
  have hfull : held t1 ≠ [] → rlen + buf.length = len := by
    intro hne
    have hlen := congrArg List.length hsplit
    rw [List.length_append] at hlen
    have hpos := List.length_pos_of_ne_nil hne
    have hb := congrArg List.length htake
    rw [List.length_take] at hb
    omega
  have hgot : held t ≠ [] → buf ≠ [] := by
    intro hne
    rw [htake]
    simp only [ne_eq, List.take_eq_nil_iff, not_or]
    exact ⟨by omega, hne⟩
  have hrun : fillLoop net.env id len (fuel + 2) rlen out s =
      fillGoOn net.env id len (fillLoop net.env id len (fuel + 1)) (rlen + buf.length)
        (out ++ buf) (s.put id t1) := by
    rw [fillLoop, if_pos hlt]
    simp only
    rw [bind_run (getSk_run h), bind_run (show liftExcept (tcpReadBuf t (len - rlen)) s =
      .ok ((buf, t1), s) by rw [hread]; rfl)]
    exact bind_run (modifySk_run _ h)
  rw [hrun, fillGoOn, bind_run (getSk_run sock_put)]
  by_cases hsleep : (!(t1.push || textWaits t1 || decide (rlen + buf.length ≥ len))) = true
  · rw [if_pos hsleep, if_pos (show t1.sk.recvWait = true from hr)]
    simp only [Bool.not_eq_true', Bool.or_eq_false_iff, decide_eq_false_iff_not, not_le] at hsleep
    obtain ⟨⟨hpush, hempty⟩, hmore⟩ := hsleep
    refine ⟨_, buf, t1, rfl, .sleeps ⟨hsplit, ?_, hw', _, _, _, rfl⟩ hpush ?_ hmore⟩
    · rw [hempty, Bool.and_false]
      exact hpush
    · by_contra hne
      simp [hwaits.mpr hne] at hempty
  rw [if_neg hsleep]
  by_cases hlast : (t1.push && !textWaits t1) = true
  · rw [if_pos hlast, bind_run (modifySk_run _ sock_put), put_put]
    simp only [Bool.and_eq_true, Bool.not_eq_true'] at hlast
    refine ⟨_, buf, { t1 with push := false }, rfl, .returns ⟨hsplit, ?_, hw', _, _, _, rfl⟩ ?_⟩
    · rw [show textWaits { t1 with push := false } = false from hlast.2, Bool.and_false]
    · rcases eq_or_ne (held t) [] with he | hne
      · exact .inr ⟨hlast.1, he⟩
      · exact .inl (hgot hne)
  · rw [if_neg hlast]
    have hdone : ¬rlen + buf.length < len := by
      intro hmore
      have hempty : textWaits t1 ≠ true := fun hne => absurd (hfull (hwaits.mp hne)) (by omega)
      simp only [Bool.not_eq_true', Bool.not_eq_false, Bool.or_eq_true, decide_eq_true_eq] at hsleep
      rcases hsleep with (hpush | hne) | hge
      · simp [hpush, hempty] at hlast
      · exact hempty hne
      · omega
    rw [fillLoop, if_neg hdone]
    refine ⟨_, buf, t1, rfl, .returns ⟨hsplit, push_waits (by simpa using hlast), hw', _, _, _, rfl⟩ (.inl ?_)⟩
    rintro rfl
    simp at hdone
    omega

lemma fillBufWoken_turn (h : s.sock id = some t) (hw : BufWf t) (hr : t.sk.recvWait = true) (hlt : rlen < len)
    (hpos : 0 ≤ rlen) :
    ∃ r buf t', fillBufWoken net.env id len rlen out s = .ok ((r, out ++ buf), s.put id t') ∧
      Turn len rlen t buf t' r := by
  have hwaits := textWaits_iff hw
  rw [fillBufWoken, fillGoOn, bind_run (getSk_run h)]
  by_cases hsleep : (!(t.push || textWaits t || decide (rlen ≥ len))) = true
  · rw [if_pos hsleep, if_pos hr]
    simp only [Bool.not_eq_true', Bool.or_eq_false_iff] at hsleep
    have hempty : held t = [] := by
      by_contra hne
      simp [hwaits.mpr hne] at hsleep
    refine ⟨.sleeps rlen, [], t, by simp [put_self h], ?_⟩
    simpa using @Turn.sleeps len rlen t [] t ⟨rfl, by simp [hsleep.1.1], hw, _, _, _, rfl⟩ hsleep.1.1 hempty
      (by simpa using hlt)
  rw [if_neg hsleep]
  by_cases hlast : (t.push && !textWaits t) = true
  · rw [if_pos hlast, bind_run (modifySk_run _ h)]
    simp only [Bool.and_eq_true, Bool.not_eq_true'] at hlast
    have hempty : held t = [] := by
      by_contra hne
      simp [hwaits.mpr hne] at hlast
    refine ⟨.returns rlen, [], { t with push := false }, by simp, ?_⟩
    have htaken : Taken t [] { t with push := false } := by
      refine ⟨rfl, ?_, hw, _, _, _, rfl⟩
      rw [show textWaits { t with push := false } = false from hlast.2, Bool.and_false]
    simpa using @Turn.returns len rlen t [] _ htaken (.inr ⟨hlast.1, hempty⟩)
  · rw [if_neg hlast]
    obtain ⟨n, hn⟩ : ∃ n, len.toNat + 1 = n + 2 := ⟨len.toNat - 1, by omega⟩
    rw [hn]
    exact fillLoop_turn h hw hr hlt n

lemma fillBuf_turn (h : s.sock id = some t) (hw : BufWf t) (hr : t.sk.recvWait = true) (hlen : 0 < len) :
    recvable t = false ∧ fillBuf net.env id len s = .ok ((.returns (-1), []), s) ∨
      ∃ r buf t', recvable t = true ∧
        fillBuf net.env id len s = .ok ((r, buf), s.put id t') ∧ Turn len 0 t buf t' r := by
  rw [fillBuf, bind_run (getSk_run h)]
  cases hrecv : recvable t with
  | false => exact .inl ⟨rfl, rfl⟩
  | true =>
    obtain ⟨n, hn⟩ : ∃ n, len.toNat + 1 = n + 2 := ⟨len.toNat - 1, by omega⟩
    obtain ⟨r, buf, t', hrun, hturn⟩ := @fillLoop_turn t net id s len 0 [] h hw hr hlen n
    exact .inr ⟨r, buf, t', rfl, by rw [if_pos rfl, hn]; exact hrun, hturn⟩

end Turn

section Segment

variable {waiting : Prop} {segs : List TcpSegment} {before : List UInt8} {fin : Bool}

def openStates : List TcpState := [.synSent, .synRecv, .established, .closeWait, .closed]

def FromPeer (irs : UInt32) (S : List UInt8) (segs : List TcpSegment) : Prop :=
  irs.toNat + 1 + S.length < 2 ^ 32 ∧ ∀ seg ∈ segs, seg.syn = false → hasText seg = true →
    Carries irs S seg.seq seg.dlen seg.text ∧ seg.dlen.toNat < 2 ^ 16

structure Core (waiting : Prop) (segs : List TcpSegment) (before : List UInt8) (t : TcpSock) : Prop where
  wf : BufWf t
  recvWait : t.sk.recvWait = true
  state : t.state ∈ openStates
  due : t.state = .closeWait → held t ≠ [] ∨ waiting → t.push = true
  early : t.state = .synSent → before ++ held t = [] ∧ t.rcvReass = []
  nxt : t.state = .synRecv ∨ t.state = .established →
    t.rcvNxt = t.irs + 1 + UInt32.ofNat (before ++ held t).length
  stream : t.state ≠ .synSent → ∀ S, FromPeer t.irs S segs → before ++ held t <+: S ∧
    (t.state = .synRecv ∨ t.state = .established → ∀ trh ∈ t.rcvReass, Stream.Sound t.irs S trh)

lemma FromPeer.tail (h : FromPeer irs S (seg :: segs)) : FromPeer irs S segs :=
  ⟨h.1, fun seg' hm => h.2 seg' (List.mem_cons_of_mem _ hm)⟩

section Core

variable (h : Core waiting segs before t)

include h

lemma Core.cons (seg : TcpSegment) : Core waiting (seg :: segs) before t :=
  { h with stream := fun hs S hS => h.stream hs S hS.tail }

lemma Core.inStream (hS : FromPeer t.irs S segs) : before ++ held t <+: S := by
  by_cases hs : t.state = .synSent
  · rw [(h.early hs).1]
    exact List.nil_prefix
  · exact (h.stream hs S hS).1

lemma Core.delivered (he : t.state = .synRecv ∨ t.state = .established) (hS : FromPeer t.irs S segs) : Delivered t.irs S before t := by
  obtain ⟨rest, hrest⟩ := h.inStream hS
  have hbound := hS.1
  refine ⟨h.wf, (before ++ held t).length, ?_, ?_, ?_⟩
  · rw [← hrest]
    simp
  · have hle : (before ++ held t).length ≤ S.length := by
      rw [← hrest]
      simp
    rw [h.nxt he, UInt32.toNat_add, UInt32.toNat_add, UInt32.toNat_ofNat']
    simp only [UInt32.reduceToNat]
    omega
  · rw [← hrest, List.take_left']
    rfl

lemma Core.same (hr : t'.sk.recvWait = t.sk.recvWait)
    (hp : t'.push = t.push) (hb : t'.rcvBuf = t.rcvBuf) (hq : t'.rcvReass = t.rcvReass)
    (hn : t.state = .synRecv ∨ t.state = .established → t'.rcvNxt = t.rcvNxt) (hi : t'.irs = t.irs)
    (hs : t'.state = t.state) : Core waiting segs before t' := by
  have hheld : held t' = held t := by rw [held, held, hb]
  constructor
  · rw [BufWf, hb]
    exact h.wf
  · exact hr.trans h.recvWait
  · rw [hs]
    exact h.state
  · rw [hs, hheld, hp]
    exact h.due
  · rw [hs, hheld, hq]
    exact h.early
  · rw [hs, hi, hheld]
    exact fun hst => (hn hst).trans (h.nxt hst)
  · rw [hs, hi, hheld, hq]
    exact h.stream

lemma Core.alike (ha : Same tcb t t') : Core waiting segs before t' := by
  have ha := Changes.alike ha
  exact h.same ha.recvWait ha.push ha.rcvBuf ha.rcvReass (fun _ => ha.rcvNxt) ha.irs ha.state

lemma Core.ended (hst : st = .closed ∨ st = .closeWait) (hp : st = .closeWait → push = true) :
    Core waiting segs before { t with state := st, push := push, rcvNxt := n } := by
  have hne : st ≠ .synSent ∧ st ≠ .synRecv ∧ st ≠ .established := by
    rcases hst with rfl | rfl <;> simp
  refine ⟨h.wf, h.recvWait, ?_, fun hs _ => hp hs, fun hs => absurd hs hne.1, ?_, fun _ S hS => ⟨h.inStream hS, ?_⟩⟩
  · rcases hst with rfl | rfl <;> simp [openStates]
  · exact fun hs => absurd hs (by simp [hne])
  · exact fun hs => absurd hs (by simp [hne])

lemma Core.opened (hs : t.state = .synSent) (seg : TcpSegment) (hst : st = .established ∨ st = .synRecv) :
    Core waiting segs before { synsentSyn seg t with state := st } := by
  obtain ⟨hnil, hq⟩ := h.early hs
  refine ⟨h.wf, h.recvWait, ?_, ?_, ?_, fun _ => ?_, fun _ S _ => ⟨hnil ▸ List.nil_prefix, fun _ => ?_⟩⟩
  · rcases hst with rfl | rfl <;> simp [openStates]
  · rcases hst with rfl | rfl <;> simp
  · rcases hst with rfl | rfl <;> simp
  · change seg.seq + 1 = seg.seq + 1 + UInt32.ofNat (before ++ held t).length
    simp [hnil]
  · change ∀ trh ∈ t.rcvReass, _
    simp [hq]

lemma Core.text (hm : seg ∈ segs) (hr : receives t.state = true) (hsyn : seg.syn = false) (htext : hasText seg = true)
    (hrun : tcpRecvText t seg pkb = .ok r) : Core waiting segs before r.tsk := by
  have he : t.state = .established := by
    have := h.state
    cases hs : t.state <;> simp_all [receives, openStates]
  obtain ⟨new, happ, -⟩ := tcpRecvText_appends h.wf hrun
  obtain ⟨_, _, _, _, _, _, _, hrest⟩ := tcpRecvText_receives hrun
  have hstate : r.tsk.state = .established := by rw [hrest]; exact he
  have hirs : r.tsk.irs = t.irs := by rw [hrest]
  have hwait : r.tsk.sk.recvWait = true := by rw [hrest]; exact h.recvWait
  refine ⟨happ.buf, hwait, by simp [hstate, openStates], by simp [hstate], by simp [hstate], fun _ => ?_, ?_⟩
  · rw [happ.nxt, hirs, h.nxt (.inr he), happ.held, ← List.append_assoc, @List.length_append _ (before ++ held t),
      UInt32.ofNat_add, UInt32.add_assoc]
  · intro _ S hS
    rw [hirs] at hS ⊢
    obtain ⟨hc, hl⟩ := hS.2 seg hm hsyn htext
    have hsound := (h.stream (by simp [he]) S hS).2 (.inr he)
    obtain ⟨hadv, hq⟩ := (h.delivered (.inr he) hS).tcpRecvText hS.1 hsound hc hl hrun
    obtain ⟨k, -, -, hk⟩ := hadv.delivered.bytes
    exact ⟨hk ▸ List.take_prefix k S, fun _ => hq⟩

end Core

lemma held_change (h : BufWf t) (hc : Change seg t t') : held t <+: held t' := by
  cases hc with
  | aside ha => rw [held, held, (Changes.alike ha).rcvBuf]
  | cut | syn | completed | acked => exact List.prefix_rfl (l := held t)
  | text _ _ _ hrun =>
    obtain ⟨new, happ, -⟩ := tcpRecvText_appends h hrun
    exact ⟨new, happ.held.symm⟩
  | fin =>
    have hbuf : (finState t).rcvBuf = t.rcvBuf := by
      rw [finState]
      split <;> rfl
    rw [held, held, hbuf]

lemma Core.change (h : Core waiting segs before t) (hm : seg ∈ segs)
    (hc : Change seg t t') : Core waiting segs before t' := by
  have hopen := h.state
  cases hc with
  | aside ha => exact h.alike ha
  | cut _ => exact h.ended (.inl rfl) (by simp)
  | syn hs _ _ => exact h.opened hs seg (by split_ifs <;> simp)
  | completed hs _ _ =>
    exact ⟨h.wf, h.recvWait, by simp [openStates], by simp, by simp, fun _ => h.nxt (.inl hs),
      fun _ S hS => ⟨h.inStream hS, fun _ => (h.stream (by simp [hs]) S hS).2 (.inl hs)⟩⟩
  | acked hs _ =>
    have hkeep : ackedState t.state = t.state := by
      cases hst : t.state <;> simp_all [openStates, ackedState]
    exact h.same rfl rfl rfl rfl (fun _ => rfl) rfl hkeep
  | text hr hsyn htext hrun => exact h.text hm hr hsyn htext hrun
  | fin _ _ =>
    cases hs : t.state <;> simp only [hs, openStates, List.mem_cons, reduceCtorEq, List.not_mem_nil, or_self] at hopen
    case synRecv | established =>
      simp only [finState, hs]
      exact h.ended (.inr rfl) (fun _ => rfl)
    case closeWait | closed | synSent =>
      simp only [finState, hs]
      exact h.same rfl rfl rfl rfl (by simp [hs]) rfl hs.symm

structure Flagged (fin : Bool) (seg : TcpSegment) (t : TcpSock) : Prop where
  push : t.push = true → held t ≠ [] ∨ fin = true ∨ seg.fin = true ∧ t.state = .closeWait
  closing : t.state = .closeWait → fin = true ∨ seg.fin = true
  syn : seg.syn = true → t.state = .closeWait → fin = true

lemma Flagged.same (h : Flagged fin seg t) (hp : t'.push = t.push) (hb : t'.rcvBuf = t.rcvBuf)
    (hs : t'.state = .closeWait ↔ t.state = .closeWait) : Flagged fin seg t' := by
  have hheld : held t' = held t := by rw [held, held, hb]
  refine ⟨?_, fun he => h.closing (hs.mp he), fun hsyn he => h.syn hsyn (hs.mp he)⟩
  rw [hp, hheld, hs]
  exact h.push

lemma Flagged.away (h : Flagged fin seg t) (hp : t'.push = t.push) (hb : t'.rcvBuf = t.rcvBuf)
    (hs : t.state ≠ .closeWait) (hs' : t'.state ≠ .closeWait) : Flagged fin seg t' :=
  h.same hp hb ⟨fun he => absurd he hs', fun he => absurd he hs⟩

lemma Flagged.change (h : Flagged fin seg t) (hw : BufWf t) (hrst : seg.rst = false)
    (hc : Change seg t t') : Flagged fin seg t' := by
  cases hc with
  | aside ha =>
    have ha := Changes.alike ha
    exact h.same ha.push ha.rcvBuf (by rw [ha.state])
  | cut hcut =>
    have hsyn : seg.syn = true := by simpa [hrst] using hcut
    refine ⟨fun hp => ?_, by simp, by simp⟩
    rcases h.push hp with hne | hf | ⟨-, hs⟩
    · exact .inl hne
    · exact .inr (.inl hf)
    · exact .inr (.inl (h.syn hsyn hs))
  | syn hs _ _ =>
    refine h.away rfl rfl (by simp [hs]) ?_
    simp only
    split_ifs <;> simp
  | completed hs _ _ => exact h.away rfl rfl (by simp [hs]) (by simp)
  | acked _ _ => exact h.same rfl rfl (by cases hs : t.state <;> simp [ackedState])
  | @text _ r hr _ _ hrun =>
    obtain ⟨new, happ, hpush⟩ := tcpRecvText_appends hw hrun
    obtain ⟨_, _, _, _, _, _, _, hrest⟩ := tcpRecvText_receives hrun
    have hstate : r.tsk.state = t.state := by rw [hrest]
    have hne : t.state ≠ .closeWait := by
      intro hs
      simp [hs, receives] at hr
    refine ⟨fun hp => ?_, fun hs => absurd (hstate ▸ hs) hne, fun _ hs => absurd (hstate ▸ hs) hne⟩
    rw [happ.held]
    rcases hpush hp with hp' | hnew
    · rcases h.push hp' with hh | hf | ⟨-, hs⟩
      · exact .inl (by simp [hh])
      · exact .inr (.inl hf)
      · exact absurd hs hne
    · exact .inl (by simp [hnew])
  | fin hf hguard =>
    cases hs : t.state <;> simp only [finState, hs]
    case synRecv | established =>
      refine ⟨fun _ => .inr (.inr ⟨hf, rfl⟩), fun _ => .inr hf, fun hsyn _ => ?_⟩
      simp [hs] at hguard
      simp [hguard] at hsyn
    case finWait1 | finWait2 => exact h.away rfl rfl (by simp [hs]) (by simp [setRefcnt])
    all_goals exact h.same rfl rfl (by simp [hs])

end Segment

section Reading

inductive Reader
  | idle
  | asleep (len rlen : ℤ) (out : List UInt8)

def Reader.out : Reader → List UInt8
  | .idle => []
  | .asleep _ _ out => out

def Reader.after (len : ℤ) : Recv × List UInt8 → Reader
  | (.returns _, _) => .idle
  | (.sleeps rlen, out) => .asleep len rlen out

def returned : Recv × List UInt8 → List UInt8
  | (.returns _, out) => out
  | (.sleeps _, _) => []

structure Unused (t : TcpSock) : Prop where
  recvWait : t.sk.recvWait = true
  push : t.push = false
  rcvBuf : t.rcvBuf = none
  rcvReass : t.rcvReass = []

/-- The segments of a connection so far, whether its FIN has been processed, the bytes that have come
into the buffer and the bytes that calls have returned. -/
structure History where
  segs : List TcpSegment
  fin : Bool
  log : List UInt8
  got : List UInt8

def History.segment (hist : History) (seg : TcpSegment) (t t' : TcpSock) : History :=
  { hist with
    segs := seg :: hist.segs
    fin := hist.fin || (seg.fin && decide (t'.state = .closeWait))
    log := hist.log ++ (held t').drop (held t).length }

def History.read (hist : History) (res : Recv × List UInt8) : History :=
  { hist with got := hist.got ++ returned res }

inductive Run (net : Net) (id : ℕ) : Local → Reader → History → Prop
  | connect {s s' : Local} {t : TcpSock} {daddr : UInt32} {dport : UInt16} : s.sock id = some t → Unused t →
      tcpConnect net.env id daddr dport s = .ok (true, s') → Run net id s' .idle ⟨[], false, [], []⟩
  | connected {s s' : Local} {reader : Reader} {hist : History} {b : Bool} : Run net id s reader hist →
      tcpConnectWoken net.env id false s = .ok (b, s') → Run net id s' reader hist
  | segment {s s' : Local} {reader : Reader} {hist : History} {pkb : Pkbuf} {seg : TcpSegment}
      {t t' : TcpSock} : Run net id s reader hist → seg.rst = false → s.sock id = some t →
      tcpProcess net.env pkb seg (some id) s = .ok ((), s') → s'.sock id = some t' →
      Run net id s' reader (hist.segment seg t t')
  | send {s s' : Local} {reader : Reader} {hist : History} {buf : List UInt8} {len n : ℤ} :
      Run net id s reader hist → tcpSendBuf net.env id buf len s = .ok (n, s') →
      Run net id s' reader hist
  | read {s s' : Local} {hist : History} {len : ℤ} {res : Recv × List UInt8} : Run net id s .idle hist →
      0 < len → fillBuf net.env id len s = .ok (res, s') →
      Run net id s' (.after len res) (hist.read res)
  | wake {s s' : Local} {hist : History} {len rlen : ℤ} {out : List UInt8} {res : Recv × List UInt8} :
      Run net id s (.asleep len rlen out) hist → fillBufWoken net.env id len rlen out s = .ok (res, s') →
      Run net id s' (.after len res) (hist.read res)

structure Good (reader : Reader) (hist : History) (t : TcpSock) : Prop where
  core : Core (reader ≠ .idle) hist.segs (hist.got ++ reader.out) t
  push : t.push = true → held t ≠ [] ∨ hist.fin = true
  fin : t.state = .closeWait → hist.fin = true
  log : hist.got ++ reader.out ++ held t = hist.log
  asleep : ∀ len rlen out, reader = .asleep len rlen out → rlen = out.length ∧ rlen < len

variable {reader : Reader} {hist : History}

lemma Good.same (h : Good reader hist t) (hr : t'.sk.recvWait = t.sk.recvWait) (hp : t'.push = t.push)
    (hb : t'.rcvBuf = t.rcvBuf) (hq : t'.rcvReass = t.rcvReass) (hn : t'.rcvNxt = t.rcvNxt)
    (hi : t'.irs = t.irs) (hs : t'.state = t.state) : Good reader hist t' := by
  have hheld : held t' = held t := by rw [held, held, hb]
  refine ⟨h.core.same hr hp hb hq (fun _ => hn) hi hs, ?_, ?_, ?_, h.asleep⟩
  · rw [hp, hheld]
    exact h.push
  · rw [hs]
    exact h.fin
  · rw [hheld]
    exact h.log

lemma Good.at {id : ℕ} {s : Local} (h : Good reader hist t) (ha : At id t s) (ht' : s.sock id = some t') :
    Good reader hist t' := by
  have ha := Changes.alike (ha t' ht')
  exact h.same ha.recvWait ha.push ha.rcvBuf ha.rcvReass ha.rcvNxt ha.irs ha.state

lemma Good.closed (h : Good reader hist t) : Good reader hist { t with state := .closed } :=
  ⟨h.core.ended (.inl rfl) (by simp), h.push, by simp, h.log, h.asleep⟩

lemma Unused.good (h : Unused t) (iss : UInt32) : Good .idle ⟨[], false, [], []⟩
    { t with state := .synSent, iss := iss, sndUna := iss, sndNxt := iss + 1 } := by
  have hheld : held t = [] := by simp [held, h.rcvBuf]
  refine ⟨⟨by simp [BufWf, h.rcvBuf], h.recvWait, by simp [openStates], by simp, fun _ => ⟨hheld, h.rcvReass⟩,
    by simp, by simp⟩, ?_, by simp, hheld, by simp⟩
  intro hp
  simp [h.push] at hp

lemma Good.segment (h : Good reader hist t) (hrst : seg.rst = false) (ha : Alters seg t t') :
    Good reader (hist.segment seg t t') t' := by
  obtain ⟨hcore, hflag, new, hnew⟩ : Core (reader ≠ .idle) (seg :: hist.segs) (hist.got ++ reader.out) t' ∧
      Flagged hist.fin seg t' ∧ held t <+: held t' := by
    refine Alters.invariant (I := fun t' => Core _ _ _ t' ∧ Flagged _ _ t' ∧ held t <+: held t') ha
      (fun hc hi => ?_) ⟨h.core.cons seg, ?_, List.prefix_rfl⟩
    · exact ⟨hi.1.change (List.mem_cons_self ..) hc, hi.2.1.change hi.1.wf hrst hc,
        hi.2.2.trans (held_change hi.1.wf hc)⟩
    · exact ⟨fun hp => (h.push hp).imp_right .inl, fun hs => .inl (h.fin hs), fun _ hs => h.fin hs⟩
  refine ⟨hcore, fun hp => ?_, fun hs => ?_, ?_, h.asleep⟩
  · rcases hflag.push hp with hne | hf | ⟨hf, hs⟩
    · exact .inl hne
    · exact .inr (by simp [History.segment, hf])
    · exact .inr (by simp [History.segment, hf, hs])
  · rcases hflag.closing hs with hf | hf
    · simp [History.segment, hf]
    · simp [History.segment, hf, hs]
  · simp only [History.segment]
    rw [← h.log, ← hnew, List.drop_left, List.append_assoc _ (held t)]

lemma Core.taken (h : Core waiting segs before t) (htaken : Taken t buf t') (hw : waiting' → t.state ≠ .closeWait) :
    Core waiting' segs (before ++ buf) t' := by
  obtain ⟨rcvBuf, rcvWnd, push, hrest⟩ := htaken.rest
  have hbytes : before ++ buf ++ held t' = before ++ held t := by rw [List.append_assoc, htaken.split]
  have hstate : t'.state = t.state := by rw [hrest]
  have hirs : t'.irs = t.irs := by rw [hrest]
  have hreass : t'.rcvReass = t.rcvReass := by rw [hrest]
  refine ⟨htaken.wf, by rw [hrest]; exact h.recvWait, hstate ▸ h.state, ?_, ?_, ?_, ?_⟩
  · rw [hstate]
    rintro hs (hne | hwait)
    · have hpush : t.push = true := h.due hs (.inl (by rw [← htaken.split]; simp [hne]))
      rw [htaken.push, hpush, (textWaits_iff htaken.wf).mpr hne]
      rfl
    · exact absurd hs (hw hwait)
  · rw [hstate, hbytes, hreass]
    exact h.early
  · rw [hstate, hbytes, hirs, show t'.rcvNxt = t.rcvNxt by rw [hrest]]
    exact h.nxt
  · rw [hstate, hbytes, hirs, hreass]
    exact h.stream

def Right (hist : History) (t : TcpSock) : Recv × List UInt8 → Prop
  | (.returns ret, out) => (ret = 0 → hist.fin = true) ∧ (ret = out.length ∨ ret = -1 ∧ out = []) ∧
      hist.got ++ out <+: hist.log
  | (.sleeps _, _) => t.state ≠ .closeWait

lemma Good.turn {len rlen : ℤ} {buf : List UInt8} {r : Recv} (h : Good reader hist t)
    (hlen : rlen = reader.out.length) (hturn : Turn len rlen t buf t' r)
    (hdue : t.state = .closeWait → t.push = true) :
    Good (.after len (r, reader.out ++ buf)) (hist.read (r, reader.out ++ buf)) t' ∧
      Right hist t (r, reader.out ++ buf) := by
  have hbytes : ∀ {buf : List UInt8}, Taken t buf t' → hist.got ++ (reader.out ++ buf) ++ held t' = hist.log := by
    intro buf htaken
    rw [← h.log, ← htaken.split]
    simp
  have hpush : ∀ {buf : List UInt8}, Taken t buf t' → t'.push = true → held t' ≠ [] := by
    intro buf htaken hp
    rw [htaken.push, Bool.and_eq_true] at hp
    exact (textWaits_iff htaken.wf).mp hp.2
  have hfin : ∀ {buf : List UInt8}, Taken t buf t' → t'.state = .closeWait → hist.fin = true := by
    intro buf htaken hs
    obtain ⟨_, _, _, rfl⟩ := htaken.rest
    exact h.fin hs
  cases hturn with
  | returns htaken hwhy =>
    refine ⟨⟨?_, fun hp => .inl (hpush htaken hp), hfin htaken, ?_, by simp [Reader.after]⟩, ?_, .inl ?_, ?_⟩
    · simpa [Reader.after, Reader.out, History.read, returned] using h.core.taken htaken (by simp)
    · simpa [Reader.after, Reader.out, History.read, returned] using hbytes htaken
    · intro hzero
      rcases hwhy with hne | ⟨hp, hempty⟩
      · have := List.length_pos_of_ne_nil hne
        omega
      · exact (h.push hp).resolve_left (by simp [hempty])
    · rw [hlen, List.length_append]
      push_cast
      rfl
    · exact ⟨held t', hbytes htaken⟩
  | sleeps htaken hno _ hmore =>
    have hopen : t.state ≠ .closeWait := by
      intro hs
      simp [hdue hs] at hno
    refine ⟨⟨?_, fun hp => .inl (hpush htaken hp), hfin htaken, ?_, ?_⟩, hopen⟩
    · simpa [Reader.after, Reader.out, History.read, returned] using h.core.taken htaken fun _ => hopen
    · simpa [Reader.after, Reader.out, History.read, returned] using hbytes htaken
    · rintro len' rlen' out' ⟨⟩
      refine ⟨?_, hmore⟩
      rw [hlen, List.length_append]
      push_cast
      rfl

variable {s' : Local}

lemma Good.fillBuf {len : ℤ} (h : Good .idle hist t) (ht : s.sock id = some t) (hlen : 0 < len) :
    ∃ res t', EndOfStream.fillBuf net.env id len s = .ok (res, s.put id t') ∧
      Good (.after len res) (hist.read res) t' ∧ Right hist t res := by
  rcases fillBuf_turn ht h.core.wf h.core.recvWait hlen with ⟨-, hrun⟩ | ⟨r, buf, t', hrecv, hrun, hturn⟩
  · refine ⟨(.returns (-1), []), t, by rw [put_self ht]; exact hrun, ?_, by simp, .inr ⟨rfl, rfl⟩, ?_⟩
    · simpa [Reader.after, History.read, returned] using h
    · rw [← h.log]
      simp [Reader.out]
  · have hdue : t.state = .closeWait → t.push = true := by
      intro hs
      simp only [recvable, hs] at hrecv
      exact h.core.due hs (.inl ((textWaits_iff h.core.wf).mp hrecv))
    exact ⟨_, t', hrun, h.turn rfl hturn hdue⟩

lemma Good.fillBufWoken {len rlen : ℤ} {out : List UInt8} (h : Good (.asleep len rlen out) hist t)
    (ht : s.sock id = some t) :
    ∃ res t', EndOfStream.fillBufWoken net.env id len rlen out s = .ok (res, s.put id t') ∧
      Good (.after len res) (hist.read res) t' ∧ Right hist t res := by
  obtain ⟨hrlen, hlt⟩ := h.asleep len rlen out rfl
  obtain ⟨r, buf, t', hrun, hturn⟩ := @fillBufWoken_turn t net id s len rlen out ht h.core.wf h.core.recvWait hlt
    (by omega)
  exact ⟨_, t', hrun, h.turn hrlen hturn fun hs => h.core.due hs (.inr (by simp))⟩

lemma tcpConnectWoken_at (h : s.sock id = some t) (hrun : tcpConnectWoken net.env id false s = .ok (b, s')) :
    At id t s' ∨ At id { t with state := .closed } s' := by
  obtain ⟨⟨⟩, s1, hwait, hrest⟩ := bind_inv hrun
  have h1 : At id t s1 := (at_self h).aside hwait fun _ => rfl
  obtain ⟨t1, s2, rfl, -, hend⟩ := getSk_bind_inv hrest
  split_ifs at hend
  · obtain ⟨⟨⟩, s3, hunhash, hend⟩ := bind_inv hend
    obtain ⟨⟨⟩, s4, hunbhash, hend⟩ := bind_inv hend
    obtain ⟨⟨⟩, s5, hset, hret⟩ := bind_inv hend
    cases hret
    have h4 := (h1.keeps (aside_tcpUnhash id _ _ _ hunhash)).keeps (aside_tcpUnbhash id _ _ _ hunbhash)
    exact .inr (h4.modify (fun _ => rfl) hset)
  · cases hend
    exact .inl h1

lemma tcpSendBuf_at (h : s.sock id = some t) (hrun : tcpSendBuf net.env id buf len s = .ok (n, s')) :
    ∃ m : ℤ, At id (SendSequence.texted m t) s' := by
  rw [tcpSendBuf, bind_run (getSk_run h)] at hrun
  split_ifs at hrun
  · exact ⟨n, (SendSequence.tcpSendText_at h hrun).2⟩
  · cases hrun
    exact ⟨0, by rw [SendSequence.texted_zero]; exact at_self h⟩

lemma Run.good (h : Run net id s reader hist) : ∀ t, s.sock id = some t → Good reader hist t := by
  induction h with
  | connect h0 hnew hrun =>
    intro t ht
    obtain ⟨iss, -, hat⟩ := SendSequence.tcpConnect_at h0 hrun
    exact (hnew.good iss).at hat ht
  | connected _ hrun ih =>
    intro t ht
    obtain ⟨⟨⟩, s1, hwait, -⟩ := bind_inv hrun
    obtain ⟨t0, h0, -⟩ := modifySk_inv hwait
    rcases tcpConnectWoken_at h0 hrun with hat | hat
    · exact (ih t0 h0).at hat ht
    · exact (ih t0 h0).closed.at hat ht
  | @segment s0 s1 _ _ _ _ t0 t1 _ hrst h0 hrun h1 ih =>
    intro t ht
    cases Option.mem_unique h1 ht
    have hl : t0.state ≠ .listen := by
      intro hs
      have := (ih _ h0).core.state
      simp [hs, openStates] at this
    have halters := (tcpProcess_alters h0 hl hrun).rel h0 h1
    exact (ih _ h0).segment hrst halters
  | send _ hrun ih =>
    intro t ht
    obtain ⟨t0, -, -, h0, -⟩ := getSk_bind_inv hrun
    obtain ⟨m, hat⟩ := tcpSendBuf_at h0 hrun
    have hgood : Good _ _ (SendSequence.texted m t0) := (ih t0 h0).same rfl rfl rfl rfl rfl rfl rfl
    exact hgood.at hat ht
  | read _ hlen hrun ih =>
    intro t ht
    obtain ⟨t0, -, -, h0, -⟩ := getSk_bind_inv hrun
    obtain ⟨res, t', hrun', hgood, -⟩ := (ih t0 h0).fillBuf h0 hlen
    obtain ⟨rfl, rfl⟩ := ok_inj (hrun'.symm.trans hrun)
    rw [sock_put] at ht
    exact Option.some.inj ht ▸ hgood
  | wake _ hrun ih =>
    intro t ht
    obtain ⟨t0, -, -, h0, -⟩ := getSk_bind_inv hrun
    obtain ⟨res, t', hrun', hgood, -⟩ := (ih t0 h0).fillBufWoken h0
    obtain ⟨rfl, rfl⟩ := ok_inj (hrun'.symm.trans hrun)
    rw [sock_put] at ht
    exact Option.some.inj ht ▸ hgood

lemma run_fst {x : Prog Local (Recv × List UInt8)} {y : Prog Local Recv} {res : Recv × List UInt8}
    (hxy : Prod.fst <$> x = y) (hrun : x s = .ok (res, s')) : y s = .ok (res.1, s') := by
  rw [← hxy, map_eq_pure_bind]
  exact bind_run hrun

theorem tcpRecvBuf_end_of_stream (h : Run net id s reader hist) (ht : s.sock id = some t) :
    hist.got ++ reader.out ++ held t = hist.log ∧ (∀ S, FromPeer t.irs S hist.segs → hist.log <+: S) ∧
      (reader = .idle → ∀ len : ℤ, 0 < len → ∃ res s', tcpRecvBuf net.env id len s = .ok (res.1, s') ∧
        fillBuf net.env id len s = .ok (res, s') ∧ Right hist t res) ∧
      ∀ len rlen out, reader = .asleep len rlen out →
        ∃ res s', tcpRecvBufWoken net.env id len rlen false s = .ok (res.1, s') ∧
          fillBufWoken net.env id len rlen out s = .ok (res, s') ∧ Right hist t res := by
  have hgood := h.good t ht
  refine ⟨hgood.log, fun S hS => hgood.log ▸ hgood.core.inStream hS, ?_, ?_⟩
  · rintro rfl len hlen
    obtain ⟨res, t', hrun, -, hright⟩ := hgood.fillBuf ht hlen
    exact ⟨res, _, run_fst (fst_fillBuf _ id len) hrun, hrun, hright⟩
  · rintro len rlen out rfl
    obtain ⟨res, t', hrun, -, hright⟩ := hgood.fillBufWoken ht
    exact ⟨res, _, run_fst (fst_fillBufWoken _ id len rlen out) hrun, hrun, hright⟩

end Reading

def userSock : TcpSock := { boundSock with sk := { boundSock.sk with recvWait := true } }

def atConnect : Local := beforeConnect.put 0 userSock

def connecting : Local := finalState (tcpConnect online.env 0 0x0200000a 0x5000) atConnect

def waitsForText : Local :=
  finalState (fillBuf online.env 0 4) (afterSegment synAckSegment connecting)

def finSegment : TcpSegment := { fromPeer 503 101 [] with fin := true, len := 1, lastseq := 503 }

def afterText : Local := afterSegment (fromPeer 501 101 [1, 2]) waitsForText

theorem tcpRecvBuf_end_of_stream_woken : ∃ hist t res s', Run online 0 (afterSegment finSegment afterText)
    (.asleep 4 0 []) hist ∧ (afterSegment finSegment afterText).sock 0 = some t ∧
    tcpRecvBufWoken online.env 0 4 0 false (afterSegment finSegment afterText) = .ok (res.1, s') ∧
    Right hist t res ∧ t.state = .closeWait := by
  have h0 : Run online 0 connecting .idle ⟨[], false, [], []⟩ :=
    @Run.connect online 0 atConnect _ userSock 0x0200000a 0x5000 sock_put ⟨rfl, rfl, rfl, rfl⟩
      (run_of_outcome (by decide +kernel))
  have h1 := h0.segment rfl (sock_of_isSome (by decide +kernel))
    (@run_of_outcome _ _ (tcpProcess online.env (allocPkb 0 0) synAckSegment (some 0)) connecting ()
      (by decide +kernel)) (sock_of_isSome (by decide +kernel))
  have h2 : Run online 0 waitsForText (.asleep 4 0 []) _ := @Run.read online 0 _ _ _ 4 (.sleeps 0, []) h1
    (by decide) (run_of_outcome (by decide +kernel))
  have h3 := h2.segment rfl (sock_of_isSome (by decide +kernel))
    (@run_of_outcome _ _ (tcpProcess online.env (allocPkb 0 0) (fromPeer 501 101 [1, 2]) (some 0))
      waitsForText () (by decide +kernel)) (sock_of_isSome (by decide +kernel))
  have h4 := h3.segment rfl (sock_of_isSome (by decide +kernel))
    (@run_of_outcome _ _ (tcpProcess online.env (allocPkb 0 0) finSegment (some 0)) afterText ()
      (by decide +kernel)) (sock_of_isSome (by decide +kernel))
  have ht := @sock_of_isSome (afterSegment finSegment afterText) (by decide +kernel)
  obtain ⟨-, -, -, hwoken⟩ := tcpRecvBuf_end_of_stream h4 ht
  obtain ⟨res, s', hrun, -, hright⟩ := hwoken 4 0 [] rfl
  exact ⟨_, _, res, s', h4, ht, hrun, hright, by decide +kernel⟩

end Tapip.Tcp.EndOfStream
