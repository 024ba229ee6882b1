import Tapip.Tcp.Links

/-! What happens to a sock in the tables and queues, from its allocation to its last reference. -/

namespace Tapip.Tcp.Links

open Foundation.Tally

variable {K : Users} {exact whole listening : Prop} {own own' : ℕ → ℤ} {used used' handed handed' dialing dialing' : ℕ → Prop}
  {g g' : Graph} {i j c p : ℕ} {n n' m : Node} {v : Option Node} {e l b w : List ℕ}

section Counting

lemma tally_of_nodup {l : List ℕ} (h : l.Nodup) : tally id l i = if i ∈ l then 1 else 0 := by
  simp only [tally, List.map_id, h.count]
  split_ifs <;> rfl

lemma listed_nonneg (g : Graph) (i : ℕ) : 0 ≤ listed g i := by
  have he := tally_nonneg id g.etable i
  have hl := tally_nonneg id g.ltable i
  have hb := tally_nonneg id g.btable i
  have hw := tally_nonneg id g.timewait i
  simp only [Pi.zero_apply] at he hl hb hw
  simp only [listed, Pi.add_apply]
  omega

variable (h : Counted exact own g)

include h

lemma Counted.live (hi : 1 ≤ own i + listed g i + links g i) : ∃ n, g.node i = some n := by
  cases hn : g.node i with
  | some n => exact ⟨n, rfl⟩
  | none =>
    have hc := h.covered i
    simp only [surplus, refcnts, Pi.sub_apply, hn, Option.elim_none] at hc
    omega

lemma Counted.refcnt_ge (hn : g.node i = some n) : own i + listed g i + links g i ≤ n.refcnt := by
  have hc := h.covered i
  simp only [surplus, refcnts, Pi.sub_apply, hn, Option.elim_some] at hc
  omega

lemma Counted.own_live (hi : 1 ≤ own i) : ∃ n, g.node i = some n := by
  apply h.live
  have hl := listed_nonneg g i
  have hk := links_nonneg g i
  omega

lemma Counted.links_live (hi : 1 ≤ links g i) : ∃ n, g.node i = some n := by
  apply h.live
  have hl := listed_nonneg g i
  have ho := h.own_nonneg i
  simp only [Pi.zero_apply] at ho
  omega

lemma Counted.listed_live
    (hi : i ∈ g.etable ∨ i ∈ g.ltable ∨ i ∈ g.btable ∨ i ∈ g.timewait) : ∃ n, g.node i = some n := by
  apply h.live
  have hk := links_nonneg g i
  have ho := h.own_nonneg i
  have he := tally_nonneg id g.etable i
  have hl := tally_nonneg id g.ltable i
  have hb := tally_nonneg id g.btable i
  have hw := tally_nonneg id g.timewait i
  simp only [Pi.zero_apply] at ho he hl hb hw
  simp only [listed, Pi.add_apply]
  rcases hi with hi | hi | hi | hi <;> have := tally_pos hi <;> omega

lemma Counted.change {change : ℕ → ℤ} (hs : surplus g' = surplus g + change)
    (h0 : 0 ≤ own') (hle : own' ≤ own + change) (hex : exact → own' = own + change)
    (hv : ∀ i n, g'.node i = some n → i < g'.next ∧ 1 ≤ n.refcnt) : Counted exact own' g' := by
  refine ⟨fun j m hj => (hv j m hj).1, h0, ?_, fun he => ?_, fun j m hj => (hv j m hj).2⟩
  · rw [hs]
    intro j
    have hc : own j ≤ surplus g j := h.covered j
    have hj := hle j
    simp only [Pi.add_apply] at hj ⊢
    omega
  · rw [hs, hex he, h.exact he]

lemma Counted.edit (hi : i < g.next) {change : ℕ → ℤ}
    (hs : surplus (g.edit i v e l b w) = surplus g + change) (h0 : 0 ≤ own')
    (hle : own' ≤ own + change) (hex : exact → own' = own + change)
    (hv : ∀ n, v = some n → 1 ≤ n.refcnt) : Counted exact own' (g.edit i v e l b w) := by
  apply h.change hs h0 hle hex
  intro j m hj
  rcases node_edit_inv hj with ⟨rfl, hm⟩ | ⟨-, hm⟩
  · exact ⟨hi, hv m hm⟩
  · exact ⟨h.below j m hm, h.pos j m hm⟩

end Counting

namespace Sound

variable (h : Sound K g)

include h

lemma count_hashed (hn : g.node i = some n) : tally id g.etable i + tally id g.ltable i = n.hashed.toNat := by
  have hnd := h.hashed.nodup
  have hf := h.hashed.flag i n hn
  have hsum := @tally_of_nodup i _ hnd
  rw [tally_append, Pi.add_apply] at hsum
  rw [hsum]
  cases hh : n.hashed <;> simp_all

lemma count_bhashed (hn : g.node i = some n) : tally id g.btable i = n.bhashed.toNat := by
  have hf := h.bhashed.flag i n hn
  rw [tally_of_nodup h.bhashed.nodup]
  cases hh : n.bhashed <;> simp_all

lemma refcnt_ge (hn : g.node i = some n) : K.own i + n.hashed.toNat + n.bhashed.toNat +
    (if i ∈ g.timewait then 1 else 0) + links g i ≤ n.refcnt := by
  have hc := h.counted.refcnt_ge hn
  have hh := h.count_hashed hn
  have hb := h.count_bhashed hn
  have ht := @tally_of_nodup i _ h.timed.nodup
  simp only [listed, Pi.add_apply] at hc
  omega

end Sound

section Keep

def Follows (whole : Prop) (a b : TcpState) : Prop :=
  (a = .synRecv ∨ ¬whole ∧ a = .closed → b = .synRecv ∨ ¬whole ∧ b = .closed) ∧
    (a = .established ∨ a = .closeWait ∨ a = .closed → b = .established ∨ b = .closeWait ∨ b = .closed)

lemma Follows.refl (whole : Prop) (a : TcpState) : Follows whole a a := ⟨fun h => h, fun h => h⟩

lemma follows_closed {a : TcpState} (hw : whole → a ≠ .synRecv) : Follows whole a .closed := by
  refine ⟨fun ha => .inr ⟨fun hwh => ?_, rfl⟩, fun _ => .inr (.inr rfl)⟩
  rcases ha with ha | ⟨hn, -⟩
  · exact hw hwh ha
  · exact hn hwh

lemma Kid.restate {o o' : ℤ} (h : Kid exact whole o g i n) (hp : n'.parent = n.parent)
    (hk : ∀ p, n.parent = .sock p → Follows whole n.state n'.state ∧ n'.state ≠ .synSent ∧
      (n'.state = .synRecv → n.state = .synRecv ∧ n'.refcnt - o' = n.refcnt - o)) :
    Kid exact whole o' g i n' := by
  refine ⟨fun p m hm hi => ?_, fun p m hm hi => ?_, fun p hp' hst => ?_, fun he p hp' => ?_, fun p hp' => ?_⟩
  · obtain ⟨hpar, hst⟩ := h.listening p m hm hi
    exact ⟨hp.trans hpar, (hk p hpar).1.1 hst⟩
  · obtain ⟨hpar, hst⟩ := h.accepting p m hm hi
    exact ⟨hp.trans hpar, (hk p hpar).1.2 hst⟩
  · obtain ⟨hold, href⟩ := (hk p (hp ▸ hp')).2.2 hst
    obtain ⟨hr, hm⟩ := h.embryo p (hp ▸ hp') hold
    exact ⟨by omega, hm⟩
  · exact h.nested he p (hp ▸ hp')
  · exact (hk p (hp ▸ hp')).2.1

lemma sees_of (hl : c ∈ n'.listenQueue ↔ c ∈ n.listenQueue) (ha : c ∈ n'.acceptQueue ↔ c ∈ n.acceptQueue)
    (hs : c ∈ n.listenQueue → n.state = .listen → n'.state = .listen) : Sees c (some n) (some n') := by
  refine ⟨fun m' hm' hc => ?_, fun m' hm' hc => ?_, fun m hm hc => ?_, fun m hm hc => ?_⟩
  · cases hm'
    exact ⟨n, rfl, hl.mp hc⟩
  · cases hm'
    exact ⟨n, rfl, ha.mp hc⟩
  · cases hm
    exact ⟨n', rfl, hl.mpr hc, hs hc⟩
  · cases hm
    exact ⟨n', rfl, ha.mpr hc⟩

lemma Queued.keep (h : Queued exact whole own g) (hn : g.node i = some n) (hown : ∀ j, j ≠ i → own' j = own j)
    (hl : n'.listenQueue = n.listenQueue) (ha : n'.acceptQueue = n.acceptQueue)
    (hp : n'.parent = n.parent)
    (hlisten : n.state = .listen → n'.state = .listen ∨ n.listenQueue = [])
    (hk : ∀ p, n.parent = .sock p → Follows whole n.state n'.state ∧ n'.state ≠ .synSent ∧
      (n'.state = .synRecv → n.state = .synRecv ∧ n'.refcnt - own' i = n.refcnt - own i)) :
    Queued exact whole own' (g.edit i (some n') e l b w) := by
  have hs : ∀ c, Sees c (g.node i) (some n') := by
    intro c
    rw [hn]
    apply sees_of (by rw [hl]) (by rw [ha])
    intro hc hst
    refine (hlisten hst).resolve_right ?_
    intro he
    simp [he] at hc
  apply h.edit hown fun c _ => hs c
  rintro m hm
  cases hm
  refine ⟨by rw [hl, ha]; exact h.nodup i n hn, Kid.restate ?_ hp hk⟩
  apply (h.kid i n hn).congr
  intro p
  by_cases hpi : p = i
  · subst hpi
    rw [node_edit_self]
    exact hs p
  · rw [node_edit_of_ne hpi]
    exact .refl _ _

lemma Hashed.keep (h : Hashed dialing g) (hn : g.node i = some n) (hh : n'.hashed = n.hashed)
    (hd : ∀ j, j ≠ i → (dialing' j ↔ dialing j))
    (hp : Placed (dialing i) (i ∈ g.etable) (i ∈ g.ltable) n.state →
      Placed (dialing' i) (i ∈ g.etable) (i ∈ g.ltable) n'.state) :
    Hashed dialing' (g.edit i (some n') g.etable g.ltable b w) := by
  apply h.edit h.nodup hd (fun _ _ => Iff.rfl) (fun _ _ => Iff.rfl)
  rintro m hm
  cases hm
  exact ⟨hh ▸ h.flag i n hn, hp (h.placed i n hn)⟩

lemma Bhashed.keep (h : Bhashed listening g) (hn : g.node i = some n) (hb : n'.bhashed = n.bhashed)
    (hs : n.bhashed = true → n'.sport = n.sport) (hl : n'.state = .listen → n.state = .listen) :
    Bhashed listening (g.edit i (some n') e l g.btable w) := by
  apply h.edit h.nodup (fun _ _ => Iff.rfl)
  rintro m hm
  cases hm
  refine ⟨hb ▸ h.flag i n hn, fun hbh => ?_, fun hli hst => hb ▸ h.bound hli i n hn (hl hst)⟩
  rw [hb] at hbh
  rw [hs hbh]
  refine ⟨h.port i n hn hbh, fun j m hji hj hm he => hji ?_⟩
  exact (h.distinct i j n m hn hj hbh hm he).symm

lemma Timed.keep (h : Timed used g) (hn : g.node i = some n) (hp : n'.parent = n.parent)
    (hw : i ∈ g.timewait → waits n.state → waits n'.state)
    (hs : ending n'.state → ¬ending n.state → ¬used i ∧ ∀ p, n.parent ≠ .sock p) :
    Timed used (g.edit i (some n') e l b g.timewait) := by
  apply h.edit h.nodup (fun _ _ => Iff.rfl) fun _ _ hm => hm
  rintro m hm
  cases hm
  rw [hp]
  refine ⟨fun hi => hw hi (h.state i n hn hi), fun he => ?_, h.adopted i n hn⟩
  by_cases hold : ending n.state
  · exact h.settled i n hn (.inl hold)
  · rcases he with he | he
    · exact hs he hold
    · exact h.settled i n hn (.inr he)

lemma Dialed.keep (h : Dialed used dialing g) (hn : g.node i = some n) (hs : n'.sport = n.sport)
    (hp : n'.dport = n.dport) : Dialed used dialing (g.edit i (some n') e l b w) := by
  refine h.edit (fun _ _ => Iff.rfl) (fun _ _ => Iff.rfl) (h.below i) ?_
  rintro m hm hd
  cases hm
  rw [hs, hp]
  exact h.ports i n hn hd

lemma Handed.live (h : Handed used handed dialing g) (hn : g.node i = some n) (hi : handed i) : connected n.state := by
  obtain ⟨m, hm, hc⟩ := h.state i hi
  cases Option.mem_unique hn hm
  exact hc

lemma Handed.keep (h : Handed used handed dialing g) (hn : g.node i = some n)
    (hs : handed i → connected n.state → connected n'.state) :
    Handed used handed dialing (g.edit i (some n') e l b w) :=
  h.edit (fun _ _ => Iff.rfl) fun hi => ⟨h.idle i hi, n', rfl, hs hi (h.live hn hi)⟩

lemma mem_refs_of_queue (hj : j ∈ n.listenQueue ∨ j ∈ n.acceptQueue) : j ∈ refs n :=
  List.mem_append_left _ (List.mem_append.mpr hj)

lemma Counted.keep (h : Counted exact own g) (k : ℤ) (hn : g.node i = some n) (hrefs : refs n' = refs n)
    {a c d f : ℤ} (he : tally id e = tally id g.etable + Pi.single i a)
    (hl : tally id l = tally id g.ltable + Pi.single i c)
    (hb : tally id b = tally id g.btable + Pi.single i d)
    (hw : tally id w = tally id g.timewait + Pi.single i f) (hown : own' = own + Pi.single i k)
    (hk : 0 ≤ own i + k) (hr : n'.refcnt = n.refcnt + k + a + c + d + f) (hpos : 1 ≤ n'.refcnt) :
    Counted exact own' (g.edit i (some n') e l b w) := by
  subst hown
  have hchange : surplus (g.edit i (some n') e l b w) = surplus g + Pi.single i k := by
    rw [surplus_edit (h.below i n hn) hn he hl hb hw]
    simp only [Option.elim_some, hrefs, sub_self, sub_zero, hr]
    congr 2
    ring
  apply h.edit (h.below i n hn) hchange _ le_rfl (fun _ => rfl)
  · rintro m hm
    cases hm
    exact hpos
  · intro j
    have hj : 0 ≤ own j := h.own_nonneg j
    by_cases hji : j = i
    · subst hji
      simpa using hk
    · simpa [hji] using hj

end Keep

lemma add_single_of_ne (own : ℕ → ℤ) (k : ℤ) : ∀ j, j ≠ i → (own + Pi.single i k : ℕ → ℤ) j = own j := by
  intro j hj
  simp [hj]

inductive Turn : TcpState → TcpState → Prop
  | connected : Turn .synSent .established
  | crossed : Turn .synSent .synRecv
  | refused : Turn .synSent .closed
  | finished : Turn .established .closeWait
  | acknowledged : Turn .finWait1 .finWait2
  | crossedFin : Turn .finWait1 .closing
  | fin : Turn .established .finWait1
  | lastFin : Turn .closeWait .lastAck

def Graph.off (g : Graph) (i : ℕ) (n : Node) (unbind : Bool) : Graph :=
  g.edit i (some { n with
      state := .closed, hashed := false, bhashed := n.bhashed && !unbind
      refcnt := n.refcnt - n.hashed.toNat - (n.bhashed && unbind).toNat })
    (g.etable.erase i) (g.ltable.erase i) (if unbind then g.btable.erase i else g.btable) g.timewait

lemma edit_timewait (hn : g.node i = some n) (w : List ℕ) :
    g.edit i (some n) g.etable g.ltable g.btable w = { g with timewait := w } := by
  have he : Function.update g.node i (some n) = g.node := Function.update_eq_self_iff.mpr hn.symm
  simp only [Graph.edit, he]

def Graph.release (g : Graph) (i : ℕ) (n : Node) : Graph :=
  g.set i (if n.refcnt - 1 ≤ 0 then none else some { n with refcnt := n.refcnt - 1 })

namespace Sound

variable (h : Sound K g)

include h

lemma one_le_hold : 1 ≤ (K.hold i 1).own i := by
  have ho : 0 ≤ K.own i := h.counted.own_nonneg i
  simp only [Users.hold, Pi.add_apply, Pi.single_eq_same]
  omega

lemma retire (hu : ∀ j, used' j → K.used j) (hh : ∀ j, handed' j → K.handed j ∧ used' j) :
    Sound { K with used := used', handed := handed' } g where
  counted := h.counted
  hashed := h.hashed
  bhashed := h.bhashed
  timed := ⟨h.timed.nodup, h.timed.state,
    fun i n hn he => ⟨fun hi => (h.timed.settled i n hn he).1 (hu i hi), (h.timed.settled i n hn he).2⟩,
    fun i n hn hi => h.timed.adopted i n hn (hu i hi)⟩
  dialed := ⟨fun i hi => h.dialed.below i (hu i hi), h.dialed.ports⟩
  queued := h.queued
  handed := ⟨fun i hi => (hh i hi).2, fun i hi => h.handed.idle i (hh i hi).1,
    fun i hi => h.handed.state i (hh i hi).1⟩

section Node

variable (hn : g.node i = some n)

include hn

lemma recount {k : ℤ} (hk : 0 ≤ K.own i + k) (hpos : 1 ≤ n.refcnt + k) :
    Sound (K.hold i k) (g.set i (some { n with refcnt := n.refcnt + k })) where
  counted := h.counted.keep k hn rfl tally_add_zero tally_add_zero tally_add_zero
    tally_add_zero rfl hk (by simp) hpos
  hashed := h.hashed.keep hn rfl (fun _ _ => Iff.rfl) fun hp => hp
  bhashed := h.bhashed.keep hn rfl (fun _ => rfl) fun hl => hl
  timed := h.timed.keep hn rfl (fun _ hw => hw) fun hs hns => absurd hs hns
  dialed := h.dialed.keep hn rfl rfl
  queued := h.queued.keep hn (add_single_of_ne K.own k) rfl rfl rfl .inl fun p hp =>
    ⟨.refl _ _, (h.queued.kid i n hn).dialed p hp, fun hs => ⟨hs, by simp [Users.hold]⟩⟩
  handed := h.handed.keep hn fun _ hc => hc

lemma grab : Sound (K.hold i 1) (g.set i (some { n with refcnt := n.refcnt + 1 })) := by
  have ho : 0 ≤ K.own i := h.counted.own_nonneg i
  have hr := h.counted.pos i n hn
  exact h.recount hn (by omega) (by omega)

lemma turn {a b : TcpState} (ha : n.state = a) (ht : Turn a b)
    (hp : b = .finWait1 ∨ b = .lastAck → ¬K.used i ∧ ∀ p, n.parent ≠ .sock p) :
    Sound K (g.set i (some { n with state := b })) := by
  have ho : 0 ≤ K.own i := h.counted.own_nonneg i
  have hr := h.counted.pos i n hn
  have hdial := (h.queued.kid i n hn).dialed
  exact
    { counted := h.counted.keep 0 hn rfl tally_add_zero tally_add_zero tally_add_zero
        tally_add_zero (by simp) (by omega) (by simp) hr
      hashed := by
        refine h.hashed.keep hn rfl (fun _ _ => Iff.rfl) ?_
        rw [ha]
        cases ht <;> simp +contextual [Placed]
      bhashed := h.bhashed.keep hn rfl (fun _ => rfl) (by cases ht <;> simp)
      timed := by
        refine h.timed.keep hn rfl (fun _ => ?_) fun hs hns => ?_
        all_goals rw [ha] at *
        · cases ht <;> simp [waits]
        · cases ht <;> simp_all [ending]
      dialed := h.dialed.keep hn rfl rfl
      queued := by
        refine h.queued.keep hn (fun _ _ => rfl) rfl rfl rfl ?_ ?_
        · rw [ha]
          cases ht <;> simp
        · intro p hpar
          have hd := hdial p hpar
          rw [ha] at hd ⊢
          cases ht <;> simp_all [Follows]
      handed := by
        refine h.handed.keep hn fun hi hc => ?_
        have hu := h.handed.used i hi
        rw [ha] at hc
        cases ht <;> simp_all [connected] }

lemma off (hi : 1 ≤ K.own i ∨ i ∈ g.timewait) (unbind : Bool)
    (hd : ∀ j, dialing' j → K.dialing j) (hd' : ∀ j, j ≠ i → K.dialing j → dialing' j)
    (hl : n.state = .listen → n.listenQueue = []) (hh : ¬K.handed i)
    (hw : K.whole → n.state = .synRecv → ∀ p, n.parent ≠ .sock p) :
    Sound { K with dialing := dialing' } (g.off i n unbind) := by
  have ho : 0 ≤ K.own i := h.counted.own_nonneg i
  have hr := h.refcnt_ge hn
  have hk := links_nonneg g i
  have hc := h.count_hashed hn
  have hcb := h.count_bhashed hn
  have hnd := List.nodup_append'.mp h.hashed.nodup
  have hbm : ∀ j, j ≠ i → (j ∈ (if unbind then g.btable.erase i else g.btable) ↔ j ∈ g.btable) := by
    intro j hj
    split_ifs
    · exact List.mem_erase_of_ne hj
    · rfl
  exact
    { counted := by
        have hb : tally id (if unbind then g.btable.erase i else g.btable) =
            tally id g.btable + Pi.single i (-((n.bhashed && unbind).toNat : ℤ)) := by
          have hm := h.bhashed.flag i n hn
          cases unbind
          · simp
          · rw [if_pos rfl, tally_erase_add]
            cases hb : n.bhashed <;> simp_all
        refine h.counted.keep 0 hn rfl (tally_erase_add _ _) (tally_erase_add _ _) hb tally_add_zero
          (by simp) (by omega) ?_ ?_
        · rw [tally_of_nodup hnd.1, tally_of_nodup hnd.2.1] at hc
          simp only
          omega
        · have hle : ((n.bhashed && unbind).toNat : ℤ) ≤ n.bhashed.toNat := by
            cases n.bhashed <;> simp
            exact Bool.toNat_le unbind
          simp only
          rcases hi with hi | hi
          · split_ifs at hr <;> omega
          · rw [if_pos hi] at hr
            omega
      hashed := by
        apply h.hashed.edit _ (fun j hj => ⟨hd j, hd' j hj⟩) (fun j hj => List.mem_erase_of_ne hj) (fun j hj => List.mem_erase_of_ne hj)
        · rintro m hm
          cases hm
          simp [Placed, hnd.1.mem_erase_iff, hnd.2.1.mem_erase_iff]
        · exact List.nodup_append'.mpr ⟨hnd.1.erase i, hnd.2.1.erase i,
            fun j h1 h2 => hnd.2.2 (List.mem_of_mem_erase h1) (List.mem_of_mem_erase h2)⟩
      bhashed := by
        have hbn := h.bhashed.nodup
        apply h.bhashed.edit _ hbm
        · rintro m hm
          cases hm
          have hf := h.bhashed.flag i n hn
          refine ⟨?_, fun hb => ?_, by simp⟩
          · cases unbind <;> simp [hf, hbn.mem_erase_iff]
          · have hb : n.bhashed = true := by simp_all
            exact ⟨h.bhashed.port i n hn hb, fun j m hji hj hm he =>
              hji (h.bhashed.distinct i j n m hn hj hb hm he).symm⟩
        · split_ifs
          · exact hbn.erase i
          · exact hbn
      timed := h.timed.keep hn rfl (fun _ _ => .inr rfl) (by simp [ending])
      dialed := h.dialed.edit (fun _ _ => Iff.rfl) (fun j hj => ⟨hd j, hd' j hj⟩) (h.dialed.below i) (by
        rintro m hm hi
        cases hm
        exact h.dialed.ports i n hn (hd i hi))
      queued := h.queued.keep hn (fun _ _ => rfl) rfl rfl rfl (fun hs => .inr (hl hs)) fun p hp =>
        ⟨follows_closed fun hwh hs => hw hwh hs p hp, by simp, by simp⟩
      handed := h.handed.edit (fun j hj => ⟨hd j, hd' j hj⟩) fun hi => absurd hi hh }

lemma no_refs (hz : links g i = 0) : n.listenQueue = [] ∧ n.acceptQueue = [] ∧ (K.exact → ∀ p, n.parent ≠ .sock p) := by
  have hlive : ∀ c, c ∈ refs n → ∃ m, g.node c = some m := fun c hc =>
    h.counted.links_live (links_pos hn (h.counted.below i n hn) hc)
  have hkids : ∀ c m, g.node c = some m → m.parent ≠ .sock i := by
    intro c m hm hp
    have hpos := links_pos (j := i) hm (h.counted.below c m hm) (by simp [refs, up, hp])
    omega
  refine ⟨?_, ?_, fun hex p hp => ?_⟩
  · apply List.eq_nil_iff_forall_not_mem.mpr
    intro c hc
    obtain ⟨m, hm⟩ := hlive c (by simp [refs, hc])
    exact hkids c m hm ((h.queued.kid c m hm).listening i n hn hc).1
  · apply List.eq_nil_iff_forall_not_mem.mpr
    intro c hc
    obtain ⟨m, hm⟩ := hlive c (by simp [refs, hc])
    exact hkids c m hm ((h.queued.kid c m hm).accepting i n hn hc).1
  · obtain ⟨m, hm, hq⟩ := (h.queued.kid i n hn).nested hex p hp
    have hpos := links_pos (j := i) hm (h.counted.below p m hm) (mem_refs_of_queue hq)
    omega

lemma release (hi : 1 ≤ K.own i) : Sound (K.hold i (-1)) (g.release i n) := by
  have hr := h.refcnt_ge hn
  have hk := links_nonneg g i
  by_cases hlast : n.refcnt - 1 ≤ 0
  · have hz : links g i = 0 := by split_ifs at hr <;> omega
    obtain ⟨hl, ha, hp⟩ := h.no_refs hn hz
    have hclosed : ¬connected n.state := by
      intro hc
      have hm : i ∈ g.etable := by
        have hpl := h.hashed.placed i n hn
        rcases hc with hc | hc <;>
        · rw [hc] at hpl
          exact hpl.1
      have hh := (h.hashed.flag i n hn).mpr (.inl hm)
      rw [hh] at hr
      split_ifs at hr <;> simp at hr <;> omega
    have hne : ∀ c, c ≠ i → Sees c (g.node i) none := by
      intro c _
      rw [hn]
      refine ⟨by simp, by simp, fun m hm hc => ?_, fun m hm hc => ?_⟩
      all_goals
        cases hm
        simp_all
    have hrefs : K.exact → refs n = [] := by
      intro hex
      simp [refs, hl, ha, up_eq_nil (hp hex)]
    have hchange : surplus (g.edit i none g.etable g.ltable g.btable g.timewait) =
        surplus g + (Pi.single i (-1) + tally id (refs n)) := by
      have h1 : n.refcnt = 1 := by
        have := h.counted.pos i n hn
        omega
      rw [surplus_edit (h.counted.below i n hn) hn tally_add_zero tally_add_zero
        tally_add_zero tally_add_zero]
      simp [h1]
      abel
    have hpos := tally_nonneg id (refs n)
    rw [Graph.release, if_pos hlast]
    exact
      { counted := by
          refine h.counted.edit (h.counted.below i n hn) hchange ?_ ?_ ?_ (by simp)
          · intro j
            have hj : 0 ≤ K.own j := h.counted.own_nonneg j
            by_cases hji : j = i
            · subst hji
              simpa [Users.hold] using hi
            · simpa [Users.hold, hji] using hj
          · intro j
            have hj : 0 ≤ tally id (refs n) j := hpos j
            simp only [Users.hold, Pi.add_apply]
            omega
          · intro hex
            simp [Users.hold, hrefs hex]
        hashed := h.hashed.edit h.hashed.nodup (fun _ _ => Iff.rfl) (fun _ _ => Iff.rfl)
          (fun _ _ => Iff.rfl) (by simp)
        bhashed := h.bhashed.edit h.bhashed.nodup (fun _ _ => Iff.rfl) (by simp)
        timed := h.timed.edit h.timed.nodup (fun _ _ => Iff.rfl) (fun _ _ hm => hm) (by simp)
        dialed := h.dialed.edit (fun _ _ => Iff.rfl) (fun _ _ => Iff.rfl) (h.dialed.below i) (by simp)
        queued := h.queued.edit (add_single_of_ne K.own (-1)) hne (by simp)
        handed := h.handed.edit (fun _ _ => Iff.rfl) fun hd => absurd (h.handed.live hn hd) hclosed }
  · rw [Graph.release, if_neg hlast]
    exact h.recount hn (by omega) (by omega)

lemma wait {a : TcpState} (ha : n.state = a) (hw : a = .finWait1 ∨ a = .finWait2 ∨ a = .closing) :
    Sound K (g.edit i
      (some { n with state := .timeWait, refcnt := n.refcnt + 1 })
      g.etable g.ltable g.btable (i :: g.timewait)) := by
  have ho : 0 ≤ K.own i := h.counted.own_nonneg i
  have hr := h.counted.pos i n hn
  have hend : ending n.state := by
    rw [ha]
    rcases hw with rfl | rfl | rfl <;> trivial
  have hset := h.timed.settled i n hn (.inl hend)
  have hnot : i ∉ g.timewait := by
    intro hm
    have hst := h.timed.state i n hn hm
    rw [ha] at hst
    rcases hw with rfl | rfl | rfl <;> simp [waits] at hst
  exact
    { counted := h.counted.keep 0 hn rfl tally_add_zero tally_add_zero tally_add_zero
        (tally_cons_add _ _) (by simp) (by omega) (by simp) (by simp only; omega)
      hashed := by
        refine h.hashed.keep hn rfl (fun _ _ => Iff.rfl) ?_
        rw [ha]
        rcases hw with rfl | rfl | rfl <;> exact fun hp => hp
      bhashed := h.bhashed.keep hn rfl (fun _ => rfl) (by simp)
      timed := by
        refine h.timed.edit (List.nodup_cons.mpr ⟨hnot, h.timed.nodup⟩) (fun _ _ => Iff.rfl)
          (fun j hj hm => (List.mem_cons.mp hm).resolve_left hj) ?_
        rintro m hm
        cases hm
        exact ⟨fun _ => .inl rfl, fun _ => hset, fun _ => hset.2⟩
      dialed := h.dialed.keep hn rfl rfl
      queued := by
        refine h.queued.keep hn (fun _ _ => rfl) rfl rfl rfl ?_ fun p hp => absurd hp (hset.2 p)
        rw [ha]
        rcases hw with rfl | rfl | rfl <;> simp
      handed := h.handed.keep hn fun hi => absurd (h.handed.used i hi) hset.1 }

lemma readdress (sport dport : UInt16)
    (hs : n.bhashed = true → sport = n.sport) (hports : K.dialing i → sport ≠ 0 ∧ dport ≠ 0) :
    Sound K (g.set i (some { n with sport, dport })) := by
  have ho : 0 ≤ K.own i := h.counted.own_nonneg i
  exact
    { counted := h.counted.keep 0 hn rfl tally_add_zero tally_add_zero tally_add_zero
        tally_add_zero (by simp) (by omega) (by simp) (h.counted.pos i n hn)
      hashed := h.hashed.keep hn rfl (fun _ _ => Iff.rfl) fun hp => hp
      bhashed := h.bhashed.keep hn rfl hs fun hl => hl
      timed := h.timed.keep hn rfl (fun _ hw => hw) fun hs hns => absurd hs hns
      dialed := h.dialed.edit (fun _ _ => Iff.rfl) (fun _ _ => Iff.rfl) (h.dialed.below i) (by
        rintro m hm hi
        cases hm
        exact hports hi)
      queued := h.queued.keep hn (fun _ _ => rfl) rfl rfl rfl .inl fun p hp =>
        ⟨.refl _ _, (h.queued.kid i n hn).dialed p hp, fun hs => ⟨hs, rfl⟩⟩
      handed := h.handed.keep hn fun _ hc => hc }

lemma bindPort (hu : K.used i) (hb : n.bhashed = false) {sport : UInt16}
    (hs : sport ≠ 0) (hfree : ∀ j m, g.node j = some m → m.bhashed = true → m.sport ≠ sport) :
    Sound K (g.edit i
      (some { n with sport, bhashed := true, refcnt := n.refcnt + 1 })
      g.etable g.ltable (i :: g.btable) g.timewait) := by
  have ho : 0 ≤ K.own i := h.counted.own_nonneg i
  have hr := h.counted.pos i n hn
  have hnot : i ∉ g.btable := by
    intro hm
    simp [(h.bhashed.flag i n hn).mpr hm] at hb
  exact
    { counted := h.counted.keep 0 hn rfl tally_add_zero tally_add_zero (tally_cons_add _ _)
        tally_add_zero (by simp) (by omega) (by simp) (by simp only; omega)
      hashed := h.hashed.keep hn rfl (fun _ _ => Iff.rfl) fun hp => hp
      bhashed := by
        refine h.bhashed.edit (List.nodup_cons.mpr ⟨hnot, h.bhashed.nodup⟩) ?_ ?_
        · intro j hj
          simp [hj]
        · rintro m hm
          cases hm
          exact ⟨by simp, fun _ => ⟨hs, fun j m _ hj hm => (hfree j m hj hm).symm⟩, by simp⟩
      timed := h.timed.keep hn rfl (fun _ hw => hw) fun hs hns => absurd hs hns
      dialed := h.dialed.edit (fun _ _ => Iff.rfl) (fun _ _ => Iff.rfl) (h.dialed.below i) (by
        rintro m hm hi
        cases hm
        exact ⟨hs, (h.dialed.ports i n hn hi).2⟩)
      queued := h.queued.keep hn (fun _ _ => rfl) rfl rfl rfl .inl fun p hp =>
        absurd hp (h.timed.adopted i n hn hu p)
      handed := h.handed.keep hn fun _ hc => hc }

lemma idle_of_used (hu : K.used i) : i ∉ g.timewait ∧ ∀ p, n.parent ≠ .sock p :=
  ⟨fun hm => (h.timed.settled i n hn (.inr hm)).1 hu, h.timed.adopted i n hn hu⟩

lemma off_tables (hc : n.state = .closed) (hnd : ¬K.dialing i) : i ∉ g.etable ∧ i ∉ g.ltable := by
  have hpl := h.hashed.placed i n hn
  rw [hc] at hpl
  exact ⟨fun hm => hnd (hpl.2 hm), hpl.1⟩

lemma dial (hu : K.used i) (hc : n.state = .closed) (hnd : ¬K.dialing i)
    (hd : ∀ j, j ≠ i → (dialing' j ↔ K.dialing j)) (hd' : dialing' i) (hports : n.sport ≠ 0 ∧ n.dport ≠ 0) :
    Sound { K with dialing := dialing' } (g.edit i
      (some { n with state := .synSent, hashed := true, refcnt := n.refcnt + 1 })
      (i :: g.etable) g.ltable g.btable g.timewait) := by
  have ho : 0 ≤ K.own i := h.counted.own_nonneg i
  have hr := h.counted.pos i n hn
  obtain ⟨hw, hp⟩ := h.idle_of_used hn hu
  obtain ⟨he, hl⟩ := h.off_tables hn hc hnd
  exact
    { counted := h.counted.keep 0 hn rfl (tally_cons_add _ _) tally_add_zero tally_add_zero
        tally_add_zero (by simp) (by omega) (by simp) (by simp only; omega)
      hashed := by
        refine h.hashed.edit ?_ hd ?_ (fun _ _ => Iff.rfl) ?_
        · rw [List.cons_append, List.nodup_cons]
          exact ⟨by simp [he, hl], h.hashed.nodup⟩
        · intro j hj
          simp [hj]
        · rintro m hm
          cases hm
          exact ⟨by simp, by simp, hl, hd'⟩
      bhashed := h.bhashed.keep hn rfl (fun _ => rfl) (by simp)
      timed := h.timed.keep hn rfl (fun hm => absurd hm hw) (by simp [ending])
      dialed := h.dialed.edit (fun _ _ => Iff.rfl) hd (h.dialed.below i) (by
        rintro m hm -
        cases hm
        exact hports)
      queued := h.queued.keep hn (fun _ _ => rfl) rfl rfl rfl (by simp [hc]) fun p hpar =>
        absurd hpar (hp p)
      handed := h.handed.edit hd fun hi => absurd (h.handed.live hn hi) (by simp [connected, hc]) }

lemma listen (hu : K.used i) (hc : n.state = .closed) (hnd : ¬K.dialing i) (hb : K.listening → n.bhashed = true) :
    Sound K (g.edit i
      (some { n with state := .listen, hashed := true, refcnt := n.refcnt + 1 })
      g.etable (i :: g.ltable) g.btable g.timewait) := by
  have ho : 0 ≤ K.own i := h.counted.own_nonneg i
  have hr := h.counted.pos i n hn
  obtain ⟨hw, hp⟩ := h.idle_of_used hn hu
  obtain ⟨he, hl⟩ := h.off_tables hn hc hnd
  exact
    { counted := h.counted.keep 0 hn rfl tally_add_zero (tally_cons_add _ _) tally_add_zero
        tally_add_zero (by simp) (by omega) (by simp) (by simp only; omega)
      hashed := by
        refine h.hashed.edit ?_ (fun _ _ => Iff.rfl) (fun _ _ => Iff.rfl) ?_ ?_
        · rw [List.nodup_middle, List.nodup_cons]
          exact ⟨by simp [he, hl], h.hashed.nodup⟩
        · intro j hj
          simp [hj]
        · rintro m hm
          cases hm
          exact ⟨by simp, by simp, he, hnd⟩
      bhashed := by
        refine h.bhashed.edit h.bhashed.nodup (fun _ _ => Iff.rfl) ?_
        rintro m hm
        cases hm
        refine ⟨h.bhashed.flag i n hn, fun hbh => ⟨h.bhashed.port i n hn hbh, fun j m hji hj hm he => hji ?_⟩,
          fun hli _ => hb hli⟩
        exact (h.bhashed.distinct i j n m hn hj hbh hm he).symm
      timed := h.timed.keep hn rfl (fun hm => absurd hm hw) (by simp [ending])
      dialed := h.dialed.keep hn rfl rfl
      queued := h.queued.keep hn (fun _ _ => rfl) rfl rfl rfl (by simp) fun p hpar =>
        absurd hpar (hp p)
      handed := h.handed.keep hn fun hi => absurd (h.handed.live hn hi) (by simp [connected, hc]) }

lemma answered (hs : n.state = .established) (hd : ∀ j, dialing' j → K.dialing j)
    (hd' : ∀ j, j ≠ i → K.dialing j → dialing' j) : Sound { K with dialing := dialing' } g where
  counted := h.counted
  hashed := by
    refine ⟨h.hashed.nodup, h.hashed.flag, fun j m hj => ?_⟩
    have hp := h.hashed.placed j m hj
    by_cases hji : j = i
    · subst hji
      cases Option.mem_unique hn hj
      rw [hs] at hp ⊢
      exact hp
    · rwa [← show dialing' j ↔ K.dialing j from ⟨hd j, hd' j hji⟩] at hp
  bhashed := h.bhashed
  timed := h.timed
  dialed := ⟨h.dialed.below, fun j m hj hdj => h.dialed.ports j m hj (hd j hdj)⟩
  queued := h.queued
  handed := ⟨h.handed.used, fun j hj hdj => h.handed.idle j hj (hd j hdj), h.handed.state⟩

lemma untime (hi : i ∈ g.timewait) : Sound (K.hold i 1) { g with timewait := g.timewait.erase i } := by
  have ho : 0 ≤ K.own i := h.counted.own_nonneg i
  have hset := h.timed.settled i n hn (.inr hi)
  have hsyn : n.state ≠ .synRecv := by
    have hw := h.timed.state i n hn hi
    rcases hw with hw | hw <;> simp [hw]
  rw [← edit_timewait hn]
  exact
    { counted := h.counted.keep 1 hn rfl tally_add_zero tally_add_zero tally_add_zero
        (tally_erase_add _ _) rfl (by omega) (by simp [hi]) (h.counted.pos i n hn)
      hashed := h.hashed.keep hn rfl (fun _ _ => Iff.rfl) fun hp => hp
      bhashed := h.bhashed.keep hn rfl (fun _ => rfl) fun hl => hl
      timed := by
        refine h.timed.edit (h.timed.nodup.erase i) (fun _ _ => Iff.rfl) (fun j _ hm => List.mem_of_mem_erase hm) ?_
        rintro m hm
        cases hm
        exact ⟨fun hm => h.timed.state i n hn (List.mem_of_mem_erase hm), fun _ => hset, fun _ => hset.2⟩
      dialed := h.dialed.keep hn rfl rfl
      queued := h.queued.keep hn (add_single_of_ne K.own 1) rfl rfl rfl .inl fun p hp =>
        absurd hp (hset.2 p)
      handed := h.handed.keep hn fun _ hc => hc }

end Node

lemma forget {w : List ℕ} (hex : ¬K.exact) (hw : w.Sublist g.timewait) : Sound K { g with timewait := w } where
  counted := by
    have hs : surplus { g with timewait := w } = surplus g + (tally id g.timewait - tally id w) := by
      have hr : refcnts { g with timewait := w } = refcnts g := rfl
      have hk : links { g with timewait := w } = links g := rfl
      simp only [surplus, hr, hk, listed]
      abel
    refine h.counted.change hs h.counted.own_nonneg (fun j => ?_) (fun he => absurd he hex)
      fun i n hn => ⟨h.counted.below i n hn, h.counted.pos i n hn⟩
    have hle : tally id w j ≤ tally id g.timewait j := by
      simp only [tally]
      exact_mod_cast (hw.map id).count_le j
    simp only [Pi.add_apply, Pi.sub_apply]
    omega
  hashed := ⟨h.hashed.nodup, h.hashed.flag, h.hashed.placed⟩
  bhashed := ⟨h.bhashed.nodup, h.bhashed.flag, h.bhashed.port, h.bhashed.distinct, h.bhashed.bound⟩
  timed := ⟨h.timed.nodup.sublist hw, fun i n hn hi => h.timed.state i n hn (hw.subset hi),
    fun i n hn hi => h.timed.settled i n hn (hi.imp_right fun hm => hw.subset hm), h.timed.adopted⟩
  dialed := ⟨h.dialed.below, h.dialed.ports⟩
  queued := ⟨h.queued.nodup, fun c n hn => (h.queued.kid c n hn).congr fun _ => .refl _ _⟩
  handed := ⟨h.handed.used, h.handed.idle, h.handed.state⟩

end Sound

end Tapip.Tcp.Links
