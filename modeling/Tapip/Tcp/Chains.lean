import Tapip.Tcp.Demux
import Tapip.Tcp.Reception

/-! The lists of connections and of listening socks, as what the chains of the hash tables link. -/

namespace Tapip.Tcp.Chains

open Foundation.Program Foundation.Hlist Connection Timer Demux Links

def listed (w : TcpWorld) : Head → List ℕ
  | .etable _ => w.etable
  | .ltable _ => w.ltable

instance (t : TcpSock) : (k : Head) → Decidable (Home t k)
  | .etable hash => inferInstanceAs (Decidable (hash = ehash t))
  | .ltable hash => inferInstanceAs (Decidable (hash = tcpLhashfn t.sk.skSport))

def chains (w : TcpWorld) (k : Head) : List ℕ :=
  (listed w k).filter fun i => (w.socks i).any fun t => decide (Home t k)

-- With the links there is no flag in the sock.
def tables (w : TcpWorld) (links : Hlists Head ℕ) : Tables := ⟨fun i => (w.socks i).map (setHashed false), links⟩

variable {net : Net} {K : Users} {s s' : Local} {w w' : TcpWorld} {links links' : Hlists Head ℕ} {fuel id : ℕ}
  {t t' : TcpSock} {k : Head}

lemma tables_update {o : Option TcpSock} (hw : w'.socks = Function.update w.socks id o) :
    tables w' links' = ⟨Function.update (tables w links).socks id (o.map (setHashed false)), links'⟩ := by
  rw [tables, hw, Tables.mk.injEq]
  refine ⟨funext fun i => ?_, rfl⟩
  by_cases hi : i = id
  · subst hi
    simp
  · simp [tables, hi]

lemma bare_sock (ht : w.socks id = some t) : (tables w links).socks id = some (setHashed false t) :=
  congrArg (Option.map _) ht

lemma sockAddHash_run (ht : w.socks id = some t)
    (hw : w'.socks = Function.update w.socks id (some (setHashed true (setRefcnt (t.sk.refcnt + 1) t)))) :
    sockAddHash id k (tables w links) = .ok ((), tables w' (links.addHead k id)) := by
  rw [sockAddHash, Demux.getSock, bind_assoc, bind_run (Demux.getSk_run (bare_sock ht)), @tables_update w _ links _ _ _ hw]
  rfl

section Step

variable (ht : w.socks id = some t) (hw : w'.socks = Function.update w.socks id (some t')) (he : ends t' = ends t)

include ht hw he

lemma chains_update (k : Head) :
    chains w' k = (listed w' k).filter fun i => (w.socks i).any fun t => decide (Home t k) := by
  refine List.filter_congr fun i _ => ?_
  rw [hw]
  by_cases hi : i = id
  · subst hi
    simp [ht, home_congr he]
  · simp [hi]

lemma rep_addHead (h : Rep links (chains w)) (hout : ∀ j, id ∉ chains w j)
    (hl : ∀ j, listed w' j = listed w j ∧ j ≠ k ∨ listed w' j = id :: listed w j ∧ (Home t j ↔ j = k)) :
    Rep (links.addHead k id) (chains w') := by
  have hc : chains w' = Function.update (chains w) k (id :: chains w k) := by
    funext j
    rw [chains_update ht hw he]
    rcases hl j with ⟨hj, hne⟩ | ⟨hj, hiff⟩
    · rw [hj, Function.update_of_ne hne, chains]
    · by_cases hjk : j = k
      · subst hjk
        simp [hj, ht, hiff, chains]
      · simp [hj, ht, hiff, hjk, chains]
  exact hc ▸ h.addHead hout

lemma rep_del (h : Rep links (chains w)) (hk : id ∈ chains w k) (hl : ∀ j, listed w' j = (listed w j).erase id) :
    Rep (links.del id) (chains w') := by
  have hc : chains w' = Function.update (chains w) k ((chains w k).erase id) := by
    funext j
    rw [chains_update ht hw he, hl, ← List.erase_filter]
    by_cases hj : j = k
    · rw [hj, Function.update_self]
      rfl
    · rw [Function.update_of_ne hj]
      exact List.erase_of_not_mem fun hm => hj (h.disjoint hm hk)
  exact hc ▸ h.del hk

end Step

section Simulation

variable (h : Sound K (seen s)) (hl : Rep links (chains s.tcp))

include h

lemma hashed_iff (ht : s.sock id = some t) : t.sk.hashed = true ↔ ∃ k, id ∈ chains s.tcp k := by
  have ht' : s.tcp.socks id = some t := ht
  refine (h.hashed.flag id _ (node_of_sock ht)).trans ⟨fun hm => ?_, ?_⟩
  · rcases hm with hm | hm
    · exact ⟨.etable (ehash t), List.mem_filter.mpr ⟨hm, by simp [ht', Home]⟩⟩
    · exact ⟨.ltable (tcpLhashfn t.sk.skSport), List.mem_filter.mpr ⟨hm, by simp [ht', Home]⟩⟩
  · rintro ⟨_ | _, hm⟩
    · exact .inl (List.mem_of_mem_filter hm)
    · exact .inr (List.mem_of_mem_filter hm)

include hl

lemma search_tables {test : TcpSock → Bool} (hb : ∀ t, test (setHashed false t) = test t)
    (hk : ∀ t, test t = true → Home t k) (hf : (listed s.tcp k).length < fuel) :
    hlistForEachSock test fuel k (tables s.tcp links) =
      .ok ((listed s.tcp k).find? fun i => (s.tcp.socks i).any test, tables s.tcp links) := by
  have hfind : ((chains s.tcp k).find? fun i => ((s.tcp.socks i).map (setHashed false)).any test) =
      (listed s.tcp k).find? fun i => (s.tcp.socks i).any test := by
    rw [chains, List.find?_filter]
    congr 1
    funext i
    cases s.tcp.socks i with
    | none => rfl
    | some u => simpa [hb] using hk u
  rw [← hfind]
  refine @search_run (tables s.tcp links) _ _ _ hl (fun i hi => ?_) test ((List.length_filter_le _ _).trans_lt hf)
  obtain ⟨t, ht⟩ := h.listed_sock (i := i) (by cases k <;> simp [listed, chains] at hi <;> simp [hi])
  exact ⟨_, bare_sock ht⟩

theorem tcpHash_linked (ht : s.sock id = some t) (hn : t.sk.hashed = false) (hf : s.tcp.etable.length < fuel) :
    ∃ r s' links', Tcp.tcpHash net.env id s = .ok (r, s') ∧
      Demux.tcpHash fuel id (tables s.tcp links) = .ok (r, tables s'.tcp links') ∧ Rep links' (chains s'.tcp) := by
  have hout : ∀ j, id ∉ chains s.tcp j := fun j hj => by simp [(hashed_iff h ht).mpr ⟨j, hj⟩] at hn
  rw [Tcp.tcpHash, bind_run (Connection.getSk_run ht), Demux.tcpHash, bind_run (Demux.getSk_run (bare_sock ht))]
  simp only [show (setHashed false t).state = t.state from rfl]
  split_ifs
  · exact ⟨false, s, links, rfl, rfl, hl⟩
  · refine ⟨true, _, _, (bind_run (modifySk_run _ ht)).trans rfl, bind_run (sockAddHash_run ht rfl),
      rep_addHead ht rfl rfl hl hout ?_⟩
    rintro (_ | _)
    · exact .inl ⟨rfl, by simp⟩
    · exact .inr ⟨rfl, Head.ltable.injEq _ _ ▸ Iff.rfl⟩
  · have hconf : tcpEhashConflict fuel (.etable (ehash (setHashed false t))) (setHashed false t) (tables s.tcp links) =
        .ok (ehashConflict s.tcp t, tables s.tcp links) := by
      rw [tcpEhashConflict, bind_run (search_tables h hl (k := .etable _) (fun _ => rfl)
        (fun u hu => (home_congr (of_decide_eq_true hu) _).mp rfl) hf)]
      simp [ehashConflict, ends, setHashed, listed, ← Bool.and_assoc]
      exact List.isSome_find?
    rw [bind_run hconf, bind_run (show getWorld net.env s = .ok (s.tcp, s) from rfl)]
    split_ifs
    · exact ⟨false, s, links, rfl, rfl, hl⟩
    · refine ⟨true, _, _, (bind_run (modifySk_run _ ht)).trans rfl, bind_run (sockAddHash_run ht rfl),
        rep_addHead ht rfl rfl hl hout ?_⟩
      rintro (_ | _)
      · exact .inr ⟨rfl, Head.etable.injEq _ _ ▸ Iff.rfl⟩
      · exact .inl ⟨rfl, by simp⟩

theorem tcpUnhash_linked {u : Unit} (hrun : Tcp.tcpUnhash net.env id s = .ok (u, s')) :
    ∃ links', Demux.tcpUnhash id (tables s.tcp links) = .ok ((), tables s'.tcp links') ∧ Rep links' (chains s'.tcp) := by
  obtain ⟨t, ht, hleft, rfl⟩ := tcpUnhash_inv hrun
  have hflag := hashed_iff h ht
  rw [Demux.tcpUnhash]
  cases hh : t.sk.hashed with
  | false =>
    have hu : links.unhashed id = true := hl.unhashed_iff.mpr fun k hk => by simp [hflag.mpr ⟨k, hk⟩] at hh
    have hdel : sockDelHash id (tables s.tcp links) = .ok ((), tables s.tcp links) := if_pos hu
    rw [show unhashed t = t by simp [unhashed, hh], edited_self ht]
    exact ⟨links, (bind_run hdel).trans (bind_run (Demux.getSk_run (bare_sock ht))), hl⟩
  | true =>
    obtain ⟨k, hk⟩ := hflag.mp hh
    have hu : ¬links.unhashed id = true := fun hu => hl.unhashed_iff.mp hu k hk
    have hun : unhashed t = setRefcnt (t.sk.refcnt - 1) (setHashed false t) := by simp [unhashed, hh]
    have hdrop : dropRef (setHashed false t) = some (unhashed t) := by simpa [leftHash, hh] using hleft
    have hdel : sockDelHash id (tables s.tcp links) =
        .ok ((), tables (edited s id (some (unhashed t)) false true).tcp (links.del id)) := by
      have htables := @tables_update s.tcp (edited s id (some (unhashed t)) false true).tcp links (links.del id) id _ rfl
      refine (if_neg hu).trans ?_
      rw [bind_run (show setLinks _ _ = .ok ((), tables s.tcp (links.del id)) from rfl), Demux.freeSock,
        bind_run (Demux.getSk_run (bare_sock ht)), htables]
      change putSk id (dropRef (setHashed false t)) _ = _
      rw [hdrop, hun]
      rfl
    refine ⟨links.del id, (bind_run hdel).trans (bind_run (Demux.getSk_run (bare_sock sock_edited))),
      rep_del ht rfl (by rw [hun]; rfl) hl hk ?_⟩
    have hapart : id ∈ s.tcp.ltable → id ∉ s.tcp.etable := fun h1 h2 =>
      (List.nodup_append'.mp h.hashed.nodup).2.2 h2 h1
    rintro (_ | _)
    · exact unlinked_eq_erase hapart
    · rfl

theorem tcpLookupSock_linked (seg : TcpSegment) (hf : s.tcp.etable.length + s.tcp.ltable.length < fuel) : ∃ r s',
    Tcp.tcpLookupSock net.env seg.iphdrSrc seg.iphdrDst seg.tcphdrSrc seg.tcphdrDst s = .ok (r, s') ∧
      Demux.tcpLookupSock fuel seg.iphdrSrc seg.iphdrDst seg.tcphdrSrc seg.tcphdrDst (tables s.tcp links) =
        .ok (r, tables s'.tcp links) ∧ Rep links (chains s'.tcp) := by
  have hfound : ∀ {i}, i ∈ s.tcp.etable ∨ i ∈ s.tcp.ltable → found (some i) (tables s.tcp links) =
      .ok (some i, tables (grabbed s i).tcp links) ∧ Rep links (chains (grabbed s i).tcp) := by
    intro i hi
    obtain ⟨t, ht⟩ := h.listed_sock hi
    have hgrab : grabbed s i = s.put i (setRefcnt (t.sk.refcnt + 1) t) := by rw [grabbed, ht]
    have htables := @tables_update s.tcp (s.put i (setRefcnt (t.sk.refcnt + 1) t)).tcp links links i _ rfl
    have hc : chains (s.put i (setRefcnt (t.sk.refcnt + 1) t)).tcp = chains s.tcp := by
      funext k
      refine (chains_update ht rfl (show ends (setRefcnt (t.sk.refcnt + 1) t) = ends t from rfl) k).trans ?_
      cases k <;> rfl
    rw [hgrab, found, Demux.getSock, bind_assoc, bind_run (Demux.getSk_run (bare_sock ht)), htables, hc]
    exact ⟨rfl, hl⟩
  refine ⟨_, _, h.lookup_run, ?_⟩
  rw [Demux.tcpLookupSock, Demux.tcpLookupSockEstablish, bind_assoc, target, bind_run (search_tables h hl (k := .etable _)
    (fun _ => rfl) (fun t ht => ?_) (show s.tcp.etable.length < fuel by omega)), listed]
  · cases hfind : s.tcp.etable.find? _ with
    | some i =>
      obtain ⟨hrun, hrep⟩ := hfound (.inl (List.mem_of_find?_eq_some hfind))
      exact ⟨bind_run hrun, hrep⟩
    | none =>
      rw [bind_run (show found none (tables s.tcp links) = .ok (none, tables s.tcp links) from rfl)]
      simp only [Demux.tcpLookupSockListen]
      rw [bind_run (search_tables h hl (k := .ltable _) (fun _ => rfl) (fun t ht => ?_)
        (show s.tcp.ltable.length < fuel by omega)), listed]
      · cases hlist : s.tcp.ltable.find? _ with
        | some i => exact hfound (.inr (List.mem_of_find?_eq_some hlist))
        | none => exact ⟨rfl, hl⟩
      · simp only [Bool.and_eq_true, decide_eq_true_eq] at ht
        exact congrArg tcpLhashfn ht.2.symm
  · simp only [Bool.and_eq_true, decide_eq_true_eq] at ht
    rw [Home, ehash, ← tcpEhashfn_comm]
    simp [ht]

end Simulation

end Tapip.Tcp.Chains
