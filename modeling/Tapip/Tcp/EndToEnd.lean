import Tapip.Tcp.AnyOrder
import Tapip.Tcp.Segmentation
import Tapip.Tcp.Wire

/-! What one side writes is what the other side reads. -/

namespace Tapip.Tcp.EndToEnd

open Net.Pkb Foundation.Bytes Foundation.Program Foundation.Tiling Foundation.Resequence Text Tcp.Stream
open Connection Session Ip.In Room AnyOrder Segmentation

def receive (q : Pkbuf) : Option (TcpSegment × Pkbuf) :=
  ((ipCheck q).filter Ip.Upper.tcpAccepts).map fun p => (tcpSegmentInit p, p)

def Carries (t : TcpSock) (o : OutTcp) (q : Pkbuf) : Prop :=
  ∃ addr id rt, Wire.Frame (Wire.packet addr id rt t.sk.skSaddr t.sk.skDaddr o) q

def Reads (o : OutTcp) (x : TcpSegment × Pkbuf) : Prop := Wire.Recovers o o.window.toUInt32 x.1

/-- `r` waits for what `t` sends next, and has room for all that `t` may send. -/
structure Facing (t r : TcpSock) : Prop where
  roomy : Roomy r
  empty : r.rcvReass = []
  nxt : r.rcvNxt = t.sndNxt
  wnd : t.sndWnd.toNat ≤ r.rcvWnd.toNat
  wrap : t.sndNxt.toNat + t.sndWnd.toNat < 2 ^ 32
  floor : (r.sndWnd + r.sndUp).toNat ≤ r.rcvNxt.toNat

variable {net : Net} {id max : ℕ} {s : Local} {t r : TcpSock} {rt : RtEntry} {buf text : List UInt8}
  {seq : UInt32} {segs after : List OutTcp} {reads arrivals : List (TcpSegment × Pkbuf)}
  {frames : List Pkbuf}

lemma exists_reads (hq : List.Forall₂ (Carries t) segs frames) (ho : ∀ o ∈ segs, o.ack = true ∧ o.data.length ≤ 65495) :
    ∃ reads, frames.map receive = reads.map some ∧ List.Forall₂ Reads segs reads := by
  induction hq with
  | nil => exact ⟨[], rfl, .nil⟩
  | cons hq _ ih =>
    obtain ⟨reads, hreads, hall⟩ := ih fun o h => ho o (by simp [h])
    obtain ⟨hack, hn⟩ := ho _ (List.mem_cons_self ..)
    obtain ⟨addr, id, rt, hf⟩ := hq
    obtain ⟨p, hp, ha, hrec, -⟩ := Wire.decodes_of_frame (by simp [hack]) hn hf
    exact ⟨(tcpSegmentInit p, p) :: reads, by simp [receive, hp, ha, hreads], .cons hrec hall⟩

lemma divides_of_reads (before : List OutTcp) (hs : Segmented max seq text segs) (hwrap : seq.toNat + text.length < 2 ^ 32)
    (hr : List.Forall₂ Reads after reads) (hsplit : segs = before ++ after) :
    Divides (seq.toNat + (before.flatMap (·.data)).length) (after.flatMap (·.data)) reads := by
  induction hr generalizing before with
  | nil => rfl
  | @cons o x after reads hrec _ ih =>
    have hlen := congrArg List.length hs.text
    rw [hsplit, List.flatMap_append, List.flatMap_cons, List.length_append, List.length_append] at hlen
    have hseq : x.1.seq.toNat = seq.toNat + (before.flatMap (·.data)).length := by
      rw [hrec.seq, hs.seq before o after hsplit, UInt32.toNat_add, UInt32.toNat_ofNat']
      omega
    have hrest := ih (before ++ [o]) (by simp [hsplit])
    have hsize := hs.size o (by simp [hsplit])
    rw [List.flatMap_append, List.flatMap_singleton, List.length_append] at hrest
    rw [List.flatMap_cons]
    rw [Divides, hrec.text, hrec.dlen, List.take_length, List.take_left, List.drop_left, Nat.add_assoc]
    exact ⟨hseq, hsize.1, by simp, rfl, hrest⟩

lemma Facing.delivered (h : Facing t r) (hle : text.length ≤ t.sndWnd.toNat)
    (hdiv : Divides r.rcvNxt.toNat text reads) (hperm : arrivals.Perm reads) :
    ∃ r', recvAll r arrivals = .ok r' ∧ held r' = held r ++ text ∧
      r'.rcvNxt.toNat = r.rcvNxt.toNat + text.length ∧ r'.rcvReass = [] := by
  have hlt := Roomy.rcvWnd_lt h.roomy
  have hw := h.wnd
  have hwrap := h.wrap
  rw [← h.nxt] at hwrap
  obtain ⟨hwhole, hc, ht, hd⟩ := hdiv.pieces (by omega) (by omega)
  have hsh : Shuffle r.rcvNxt.toNat (pieces ([] ++ arrivals)) (pieces reads) := by
    refine ⟨hperm.map _, hc, fun p hp => ?_⟩
    obtain ⟨x, hx, rfl⟩ := List.mem_map.mp hp
    rw [piece_len (hwhole x hx)]
    exact (hwhole x hx).pos
  have hstart : Shows (held r) (r.rcvNxt.toNat + r.rcvWnd.toNat) (r.sndWnd + r.sndUp) ⟨r.rcvNxt.toNat, [], []⟩ r := by
    refine ⟨rfl, by simp, by simp [h.empty], rfl, rfl, h.roomy, ?_, by simp [h.empty], by simp [h.empty]⟩
    rw [h.empty]
    exact ReassQueue.InOrder.nil _
  have hsane : Sane r.rcvNxt.toNat (pieces []) (⟨r.rcvNxt.toNat, [], []⟩ : Line UInt8) :=
    ⟨fun m h1 h2 => absurd h2 (by simp only; omega), by simp⟩
  obtain ⟨r', hrun, hshow⟩ := Shows.recvAll hsh (fun p hp => hwhole p (hperm.subset hp)) (by omega) hsane hstart
  have hfloor := h.floor
  have hfold : (pieces arrivals).foldl (arrive (r.sndWnd + r.sndUp).toNat) ⟨r.rcvNxt.toNat, [], []⟩ = _ :=
    hsh.foldl_complete fun pre x post hsplit _ => by
      have := hsh.inside (p := x) (by rw [hsplit]; simp)
      omega
  rw [hfold, ht, hd] at hshow
  exact ⟨r', hrun, hshow.held, hshow.nxt, List.map_eq_nil_iff.mp hshow.wait⟩

lemma Facing.received {link : List Pkbuf} (h : Facing t r) (hs : Segmented max t.sndNxt text segs)
    (hle : text.length ≤ t.sndWnd.toNat) (hq : List.Forall₂ (Carries t) segs frames)
    (ho : ∀ o ∈ segs, o.ack = true ∧ o.data.length ≤ 65495) (hperm : link.Perm frames) :
    ∃ arrivals r', link.map receive = arrivals.map some ∧ recvAll r arrivals = .ok r' ∧
      held r' = held r ++ text ∧ r'.rcvNxt.toNat = t.sndNxt.toNat + text.length ∧ r'.rcvReass = [] := by
  obtain ⟨reads, hreads, hall⟩ := exists_reads hq ho
  obtain ⟨arrivals, harr, hperm⟩ : Relation.Comp (· = List.map some ·) List.Perm (link.map receive) reads := by
    rw [List.eq_map_comp_perm]
    exact (hperm.map receive).trans (.of_eq hreads)
  have hwrap := h.wrap
  have hdiv := divides_of_reads [] hs (by omega) hall rfl
  rw [hs.text, ← h.nxt] at hdiv
  obtain ⟨r', hr⟩ := h.delivered hle hdiv hperm
  exact ⟨arrivals, r', harr, h.nxt ▸ hr⟩

theorem write_delivered (h : s.sock id = some t) (hd : t.sk.skDst = some rt) (hmtu : 40 < net.mtu rt)
    (hfit : net.mtu rt ≤ 65535) (hwnd : 0 < t.sndWnd.toNat) (hbuf : 0 < buf.length) (hr : Facing t r) :
    ∃ n segs s' t', n = min buf.length t.sndWnd.toNat ∧
      tcpSendText net.env id buf buf.length s = .ok ((n : ℤ), s') ∧ s'.sock id = some t' ∧
      s'.sent = s.sent ++ segs.map (⟨t.sk.skSaddr, t.sk.skDaddr, ·⟩) ∧
      ∀ frames link : List Pkbuf, List.Forall₂ (Carries t) segs frames → link.Perm frames →
        ∃ arrivals r', link.map receive = arrivals.map some ∧ recvAll r arrivals = .ok r' ∧
          held r' = held r ++ buf.take n ∧ r'.rcvNxt = t'.sndNxt ∧ r'.rcvReass = [] := by
  have hlt := Roomy.rcvWnd_lt hr.roomy
  have hw := hr.wnd
  have hwrap := hr.wrap
  obtain ⟨n, segs, s', hn, hwrite, hsent, hsegs, hsock⟩ := cuts_of_lt h hd hmtu hwnd hbuf (by omega)
  have hsize : (buf.take n).length = n := by
    rw [List.length_take]
    omega
  have hkeep : Keeps id (Same fun _ => ()) (·.out.ack = true) s s' :=
    keeps_tcpSendText (fun _ _ => rfl) (fun _ _ => rfl) (fun _ h => h) id buf _ s _ s' hwrite
  obtain ⟨-, new, hnew, hack⟩ := hkeep
  obtain rfl := List.append_cancel_left (hsent.symm.trans hnew)
  refine ⟨n, segs, s', _, hn, hwrite, hsock, hsent, fun frames link hframes hperm => ?_⟩
  obtain ⟨arrivals, r', harr, hrun, hheld, hnxt, hreass⟩ := hr.received hsegs (by omega) hframes
    (fun o ho => ⟨hack _ (List.mem_map_of_mem ho), (hsegs.size o ho).2.trans (by omega)⟩) hperm
  refine ⟨arrivals, r', harr, hrun, hheld, ?_, hreass⟩
  rw [← UInt32.toNat_inj, hnxt, hsize]
  simp only [UInt32.toNat_add, UInt32.toNat_ofNat']
  omega

def sender : TcpSock :=
  { boundSock with sk := { boundSock.sk with skDst := some ⟨0, 0, 0, 0, 0, 1⟩ }, sndNxt := 101, sndWnd := 2 }

def narrow : Net := { online with mtu := fun _ => 41 }

def written : Local := finalState (tcpSendText narrow.env 0 [1, 2] 2) (beforeConnect.put 0 sender)

def framed (o : OutTcp) : Pkbuf := Wire.packet 0 0 ⟨0, 0, 0, 0, 0, 1⟩ sender.sk.skSaddr sender.sk.skDaddr o

-- Each segment has one byte, and the frame of the second arrives first.
theorem write_delivered_two : tcpSendText narrow.env 0 [1, 2] 2 (beforeConnect.put 0 sender) = .ok (2, written) ∧
    written.sent.length = 2 ∧ ∃ arrivals r',
      (written.sent.map (framed ·.out)).reverse.map receive = arrivals.map some ∧
      recvAll (offering 50) arrivals = .ok r' ∧ held r' = [1, 2] := by
  have hr : Facing sender (offering 50) :=
    ⟨(by decide : 12 + 8 < 2 ^ 31), rfl, rfl, by decide, by decide, by decide⟩
  obtain ⟨n, segs, s', t', rfl, hrun, -, hsent, hall⟩ := @write_delivered narrow 0 _ _ _ _ [1, 2]
    sock_put rfl (by decide) (by decide) (by decide) (by decide) hr
  have hw : tcpSendText narrow.env 0 [1, 2] 2 (beforeConnect.put 0 sender) = .ok (2, written) :=
    run_of_outcome (by decide +kernel)
  obtain ⟨-, rfl⟩ := ok_inj (hw.symm.trans hrun)
  have hframes : written.sent.map (framed ·.out) = segs.map framed := by
    rw [hsent, show (beforeConnect.put 0 sender).sent = [] from rfl, List.nil_append, List.map_map]
    rfl
  have hcarry : List.Forall₂ (Carries sender) segs (segs.map framed) :=
    List.forall₂_map_right_iff.mpr (List.forall₂_same.mpr fun o _ => ⟨_, _, _, Wire.frame_self ..⟩)
  obtain ⟨arrivals, r', harr, hrecv, hheld, -⟩ := hall _ _ hcarry (List.reverse_perm _)
  exact ⟨hw, by decide +kernel, arrivals, r', by rw [hframes, harr], hrecv, hheld⟩

end Tapip.Tcp.EndToEnd
