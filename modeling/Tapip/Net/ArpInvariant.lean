import Tapip.Net.ArpCache

/-! The ARP cache over runs of `ip_send_dev`, ARP packets and timer ticks. -/

namespace Tapip.Net.ArpInvariant

open Foundation.Program Pkb Arp Ip.Out ArpCache

variable {nds : List Netdev} {act : Act} {frames : List (ℕ × List UInt8)} {freed : List ℕ}
  {between : Stack → Stack → Prop}

section Run

inductive Event
  | send (dev : ℕ) (pkb : Pkbuf)
  | arp (dev : ℕ) (pkb : Pkbuf)
  | tick (delta : ℤ)
deriving DecidableEq

variable (netIn : NetIn)

def Event.exec (fuel : ℕ) : Event → Prog Stack Unit
  | .send dev pkb => ipSendDev netIn dev pkb
  | .arp dev pkb => arpIn fuel netIn dev pkb
  | .tick delta => arpTimer netIn delta

def Event.acts : Event → List Act
  | .send dev pkb => [.send dev pkb]
  | .arp dev pkb => [.arp dev pkb]
  | .tick delta => (List.range ARP_CACHE_SZ).map (.tick delta)

structure Blank (s : Stack) : Prop where
  size : s.arpCache.length = ARP_CACHE_SZ
  next : s.arpNext = 0
  queues : ∀ ae ∈ s.arpCache, ae.aeList = []
  devices : ∀ ae ∈ s.arpCache, ae.aeDev = none

inductive Run (between : Stack → Stack → Prop) (ok : Stack → Event → Prop) : List Event → Stack → Prop
  | start {s s' : Stack} : Blank s → arpCacheInit s = .ok ((), s') → Run between ok [] s'
  | step {evs : List Event} {ev : Event} {s s1 s' : Stack} (fuel : ℕ) : Run between ok evs s →
      between s s1 → ok s1 ev → ev.exec netIn fuel s1 = .ok ((), s') → Run between ok (evs ++ [ev]) s'

variable {netIn}

inductive Walk (netIn : NetIn) : List Act → Stack → Stack → Prop
  | nil (s : Stack) : Walk netIn [] s s
  | cons {act : Act} {acts : List Act} {s s1 s' : Stack} (fuel : ℕ) :
      act.exec netIn fuel s = .ok ((), s1) → Walk netIn acts s1 s' → Walk netIn (act :: acts) s s'

lemma Event.walk {ev : Event} {fuel : ℕ} {s s' : Stack} (h : ev.exec netIn fuel s = .ok ((), s')) :
    Walk netIn ev.acts s s' := by
  cases ev with
  | send dev pkb => exact .cons fuel h (.nil s')
  | arp dev pkb => exact .cons fuel h (.nil s')
  | tick delta =>
    simp only [Event.exec, arpTimer, Event.acts] at h ⊢
    generalize List.range ARP_CACHE_SZ = l at h ⊢
    induction l generalizing s with
    | nil =>
      obtain ⟨-, rfl⟩ := ok_inj h
      exact .nil s
    | cons i l ih =>
      obtain ⟨_, s1, hone, hrest⟩ := bind_inv h
      exact .cons fuel hone (ih hrest)

end Run

section Invariant

structure Coherent (cs : List ArpEntry) : Prop where
  unique : ∀ (i j : ℕ) ae ae', cs[i]? = some ae → cs[j]? = some ae' → live ae → live ae' →
    ae.aeIpaddr = ae'.aeIpaddr → i = j
  queue : ∀ ae ∈ cs, ae.aeList ≠ [] → ae.aeState = .waiting
  device : ∀ ae ∈ cs, live ae → ae.aeDev.isSome = true
  pro : ∀ ae ∈ cs, live ae → ae.aePro = ETH_P_IP

variable {cs cs' : List ArpEntry} {i : ℕ} {ae x : ArpEntry}

lemma getElem?_set_inv {j : ℕ} {y : ArpEntry} (h : (cs.set i x)[j]? = some y) :
    (j = i ∧ y = x) ∨ (j ≠ i ∧ cs[j]? = some y) := by
  by_cases hj : i = j
  · subst hj
    rw [List.getElem?_set_self'] at h
    cases hc : cs[i]? with
    | none => simp [hc] at h
    | some z =>
      simp only [hc, Option.map_eq_map, Option.map_some, Function.const_apply, Option.some.injEq] at h
      exact .inl ⟨rfl, h.symm⟩
  · rw [List.getElem?_set_ne hj] at h
    exact .inr ⟨Ne.symm hj, h⟩

lemma Coherent.set (h : Coherent cs) (hi : cs[i]? = some ae)
    (haddr : live x → (live ae ∧ x.aeIpaddr = ae.aeIpaddr) ∨ Unknown cs x.aeIpaddr)
    (hqueue : x.aeList ≠ [] → x.aeState = .waiting) (hdev : live x → x.aeDev.isSome = true)
    (hpro : live x → x.aePro = ETH_P_IP) : Coherent (cs.set i x) := by
  have hmem : ∀ y ∈ cs.set i x, y ∈ cs ∨ y = x := fun y hy => List.mem_or_eq_of_mem_set hy
  have hother : ∀ j y, j ≠ i → cs[j]? = some y → live y → live x → y.aeIpaddr ≠ x.aeIpaddr := by
    intro j y hj hy hly hlx hip
    rcases haddr hlx with ⟨hla, he⟩ | hun
    · exact hj (h.unique j i y ae hy hi hly hla (hip.trans he))
    · exact hun y (List.mem_of_getElem? hy) hly (h.pro y (List.mem_of_getElem? hy) hly) hip
  refine ⟨?_, ?_, ?_, ?_⟩
  · intro j k y z hy hz hly hlz hip
    rcases getElem?_set_inv hy with ⟨hji, hyx⟩ | ⟨hj, hy'⟩
    · rcases getElem?_set_inv hz with ⟨hki, -⟩ | ⟨hk, hz'⟩
      · exact hji.trans hki.symm
      · subst hyx
        exact absurd hip.symm (hother k z hk hz' hlz hly)
    · rcases getElem?_set_inv hz with ⟨-, hzx⟩ | ⟨-, hz'⟩
      · subst hzx
        exact absurd hip (hother j y hj hy' hly hlz)
      · exact h.unique j k y z hy' hz' hly hlz hip
  · intro y hy hne
    rcases hmem y hy with hy | rfl
    · exact h.queue y hy hne
    · exact hqueue hne
  · intro y hy hl
    rcases hmem y hy with hy | rfl
    · exact h.device y hy hl
    · exact hdev hl
  · intro y hy hl
    rcases hmem y hy with hy | rfl
    · exact h.pro y hy hl
    · exact hpro hl

lemma Coherent.effect (h : Coherent cs) (he : Effect nds cs act cs' frames freed) : Coherent cs' := by
  cases he with
  | loopback _ _ => exact h
  | full _ _ _ _ => exact h
  | opens _ _ hun hi _ _ => exact h.set hi (fun _ => .inr hun) (fun _ => rfl) (fun _ => rfl) fun _ => rfl
  | @holds _ _ _ _ ae _ _ hi hw _ =>
    have hmem := List.mem_of_getElem? hi
    have hl : live ae := by simp [live, hw]
    exact h.set hi (fun _ => .inl ⟨hl, rfl⟩) (fun _ => hw) (fun _ => h.device ae hmem hl) fun _ => h.pro ae hmem hl
  | direct _ _ _ _ _ _ => exact h
  | ignores => exact h
  | @resolves _ _ _ ae _ _ _ hi hl _ _ _ =>
    have hmem := List.mem_of_getElem? hi
    refine h.set hi (fun _ => .inl ⟨hl, rfl⟩) ?_ (fun _ => h.device ae hmem hl) fun _ => h.pro ae hmem hl
    intro hne
    simp only [resolved] at hne
    split_ifs at hne with hw
    · exact absurd rfl hne
    · exact absurd (h.queue ae hmem hne) hw
  | answers _ _ => exact h
  | learns hm _ hun hi _ _ =>
    exact h.set hi (fun _ => .inr hun) (fun hne => absurd rfl hne) (fun _ => rfl) fun _ => hm.pro
  | rests => exact h
  | @ages _ _ ae hi hl =>
    have hmem := List.mem_of_getElem? hi
    exact h.set hi (fun _ => .inl ⟨hl, rfl⟩) (h.queue ae hmem) (h.device ae hmem) (h.pro ae hmem)
  | @asks _ _ ae _ hi hw _ =>
    have hmem := List.mem_of_getElem? hi
    have hl : live ae := by simp [live, hw]
    exact h.set hi (fun _ => .inl ⟨hl, rfl⟩) (fun _ => hw) (fun _ => h.device ae hmem hl) fun _ => h.pro ae hmem hl
  | gives hi hw =>
    exact h.set hi (fun hl => absurd rfl hl) (fun hne => absurd rfl hne) (fun hl => absurd rfl hl)
      fun hl => absurd rfl hl
  | @forgets _ _ ae hi hr =>
    have hmem := List.mem_of_getElem? hi
    refine h.set hi (fun hl => absurd rfl hl) ?_ (fun hl => absurd rfl hl) fun hl => absurd rfl hl
    intro hne
    have := h.queue ae hmem hne
    simp [hr] at this

def NoLoop (cs : List ArpEntry) : Prop := ∀ ae ∈ cs, ae.aeDev ≠ some loop

instance (cs : List ArpEntry) : Decidable (NoLoop cs) := inferInstanceAs (Decidable (∀ _ ∈ _, _))

lemma NoLoop.effect (h : NoLoop cs) (hoff : act.Off) (he : Effect nds cs act cs' frames freed) : NoLoop cs' := by
  have hset : ∀ {i x}, x.aeDev ≠ some loop → NoLoop (cs.set i x) := by
    intro i x hx ae hae
    rcases List.mem_or_eq_of_mem_set hae with hae | rfl
    · exact h ae hae
    · exact hx
  have hdev : ∀ {dev : ℕ}, dev ≠ loop → some dev ≠ some loop := fun hne he => hne (Option.some.inj he)
  cases he with
  | loopback _ _ | full _ _ _ _ | direct _ _ _ _ _ _ | ignores | answers _ _ | rests => exact h
  | opens _ _ _ _ _ _ => exact hset (hdev hoff)
  | learns _ _ _ _ _ _ => exact hset (hdev hoff)
  | holds _ _ hi _ _ | resolves _ hi _ _ _ _ | ages hi _ | asks hi _ _ | gives hi _ | forgets hi _ =>
    have hold := h _ (List.mem_of_getElem? hi)
    exact hset hold

lemma Effect.length_eq (he : Effect nds cs act cs' frames freed) : cs'.length = cs.length := by
  cases he <;> simp

end Invariant

section Runs

variable {netIn : NetIn} {s s' : Stack}

structure Ready (s : Stack) : Prop where
  size : s.arpCache.length = ARP_CACHE_SZ
  next_lt : s.arpNext < ARP_CACHE_SZ
  coherent : Coherent s.arpCache

lemma Ready.does (h : Ready s) (hd : Does act frames freed s s') : Ready s' :=
  ⟨(Effect.length_eq hd.effect).trans h.size, hd.next_lt, h.coherent.effect hd.effect⟩

lemma Ready.walk {acts : List Act} (h : Ready s)
    (hnet : Calms netIn ∨ (∀ act ∈ acts, act.Off) ∧ NoLoop s.arpCache) (hw : Walk netIn acts s s') :
    Ready s' := by
  induction hw with
  | nil s => exact h
  | @cons act acts s s1 s' fuel hone _ ih =>
    obtain ⟨frames, freed, hd⟩ :=
      Act.does (hnet.imp_right fun hq => ⟨hq.1 act (by simp), hq.2⟩) h.size h.next_lt hone
    refine ih (h.does hd) (hnet.imp_right fun hq => ⟨fun a ha => hq.1 a (by simp [ha]), ?_⟩)
    exact hq.2.effect (hq.1 act (by simp)) hd.effect

lemma ready_of_init (h : Blank s) (hrun : arpCacheInit s = .ok ((), s')) : Ready s' := by
  cases hrun
  have hfree : ∀ ae ∈ s.arpCache.map fun ae => { ae with aeState := .free }, ¬ live ae ∧ ae.aeList = [] := by
    intro ae hae
    obtain ⟨ae0, hae0, rfl⟩ := List.mem_map.mp hae
    exact ⟨fun hl => hl rfl, h.queues ae0 hae0⟩
  refine ⟨by simp [h.size], by simp [h.next, ARP_CACHE_SZ], ?_, ?_, ?_, ?_⟩
  · exact fun i j ae ae' hi _ hl _ _ => absurd hl (hfree ae (List.mem_of_getElem? hi)).1
  · exact fun ae hae hne => absurd (hfree ae hae).2 hne
  · exact fun ae hae hl => absurd hl (hfree ae hae).1
  · exact fun ae hae hl => absurd hl (hfree ae hae).1

def Apart (s s' : Stack) : Prop := s'.arpCache = s.arpCache ∧ s'.arpNext = s.arpNext

lemma Ready.apart (h : Ready s) (ha : Apart s s') : Ready s' :=
  ⟨ha.1 ▸ h.size, ha.2 ▸ h.next_lt, ha.1 ▸ h.coherent⟩

def Atomic (netIn : NetIn) (s : Stack) (ev : Event) : Prop :=
  Calms netIn ∨ (∀ act ∈ ev.acts, act.Off) ∧ NoLoop s.arpCache

lemma ready_of_run {ok : Stack → Event → Prop} {evs : List Event}
    (hb : ∀ s s', between s s' → Apart s s') (hok : ∀ s ev, ok s ev → Atomic netIn s ev)
    (h : Run netIn between ok evs s) : Ready s := by
  induction h with
  | start hblank hinit => exact ready_of_init hblank hinit
  | step fuel _ hbet hev hrun ih => exact (ih.apart (hb _ _ hbet)).walk (hok _ _ hev) (Event.walk hrun)

structure Confined (dev : ℕ) (pkb : Pkbuf) (s s' : Stack) : Prop where
  others : ∀ (i : ℕ) ae, s.arpCache[i]? = some ae → live ae → ae.aeIpaddr ≠ arpSip (arpNtoh pkb) →
    s'.arpCache[i]? = some ae
  created : ∀ (i : ℕ) ae ae', s.arpCache[i]? = some ae → ¬ live ae → s'.arpCache[i]? = some ae' → live ae' →
    arpOp (arpNtoh pkb) = ARP_OP_REQUEST ∧
      ∃ nd, s.netDevices[dev]? = some nd ∧ arpTip (arpNtoh pkb) = nd.netIpaddr

lemma confined_of_effect {dev : ℕ} {pkb : Pkbuf}
    (h : Effect s.netDevices s.arpCache (.arp dev pkb) s'.arpCache frames freed) :
    Confined dev pkb s s' := by
  have hsame : s'.arpCache = s.arpCache → Confined dev pkb s s' := by
    intro hc
    refine ⟨fun i ae hi _ _ => hc ▸ hi, fun i ae ae' hi hl hi' hl' => ?_⟩
    rw [hc] at hi'
    exact absurd (Option.mem_unique hi hi' ▸ hl') hl
  generalize hc : s'.arpCache = cs' at h
  cases h with
  | ignores => exact hsame hc
  | answers _ _ => exact hsame hc
  | @resolves _ i _ ae _ _ _ hi hl hip _ _ =>
    refine ⟨?_, ?_⟩
    · intro j y hy hly hne
      have hj : i ≠ j := by
        rintro rfl
        exact hne (Option.mem_unique hi hy ▸ hip)
      rw [hc, List.getElem?_set_ne hj, hy]
    · intro j y z hy hly hz hlz
      have hj : i ≠ j := by
        rintro rfl
        exact hly (Option.mem_unique hi hy ▸ hl)
      rw [hc, List.getElem?_set_ne hj] at hz
      exact absurd (Option.mem_unique hy hz ▸ hlz) hly
  | @learns _ i _ ae _ hm hop _ hi hfree _ =>
    refine ⟨?_, fun _ _ _ _ _ _ _ => ⟨hop, hm.target⟩⟩
    intro j y hy hly _
    have hj : i ≠ j := by
      rintro rfl
      exact hly (Option.mem_unique hi hy ▸ hfree)
    rw [hc, List.getElem?_set_ne hj, hy]

theorem arpCache_invariant {evs : List Event} (h : Run netIn Apart (Atomic netIn) evs s) :
    (∀ (i j : ℕ) ae ae', s.arpCache[i]? = some ae → s.arpCache[j]? = some ae' → live ae → live ae' →
      ae.aeIpaddr = ae'.aeIpaddr → i = j) ∧
    (∀ ae ∈ s.arpCache, ae.aeList ≠ [] → ae.aeState = .waiting) ∧
    (∀ ae ∈ s.arpCache, live ae → ae.aeDev.isSome = true) ∧
    ∀ fuel dev pkb s', Atomic netIn s (.arp dev pkb) → arpIn fuel netIn dev pkb s = .ok ((), s') →
      Confined dev pkb s s' := by
  have hr := ready_of_run (fun _ _ h => h) (fun _ _ h => h) h
  refine ⟨hr.coherent.unique, hr.coherent.queue, hr.coherent.device, ?_⟩
  intro fuel dev pkb s' hatom hrun
  have hq : Calms netIn ∨ Quiet s.arpCache (.arp dev pkb) :=
    hatom.imp_right fun hq => ⟨hq.1 (.arp dev pkb) (by simp [Event.acts]), hq.2⟩
  obtain ⟨frames, freed, hd⟩ := arpIn_does hq hr.next_lt hrun
  exact confined_of_effect hd.effect

section Examples

def lo : Netdev := ⟨1500, 0x0100007f, 0x000000ff, [0, 0, 0, 0, 0, 0]⟩

def eth : Netdev := ⟨1500, 0x0100000a, 0x00ffffff, [2, 0, 0, 0, 0, 1]⟩

def boot : Stack :=
  { Stack.empty with
    pkbs := ⟨fun a => if a = 0 then 1 else 0, 1, 1, 0⟩
    netDevices := [lo, eth]
    arpCache := List.replicate ARP_CACHE_SZ ⟨[], none, 0, 0, .free, 0, 0, []⟩ }

def started : Stack := finalState arpCacheInit boot

def toNeighbour : Pkbuf :=
  { allocPkb 0 42 with
    pkPro := ETH_P_IP
    pkRtdst := some ⟨0x0000000a, 0x00ffffff, 0, 0, 0, 1⟩
    pkData := List.replicate 14 0 ++ [0x45, 0, 0, 28, 0, 0, 0, 0, 64, 17, 0, 0, 10, 0, 0, 1, 10, 0, 0, 2] ++
      List.replicate 8 1 }

def asking : Stack := finalState (ipSendDev dropAll 1 toNeighbour) started

lemma run_started {ok : Stack → Event → Prop} : Run dropAll between ok [] started :=
  .start ⟨rfl, rfl, by decide +kernel, by decide +kernel⟩ (run_of_outcome rfl)

lemma asking_run : ipSendDev dropAll 1 toNeighbour started = .ok ((), asking) :=
  run_of_outcome (by decide +kernel)

theorem arpCache_invariant_asking : (∃ ae ∈ asking.arpCache, ae.aeList = [toNeighbour]) ∧
    ∀ ae ∈ asking.arpCache, ae.aeList ≠ [] → ae.aeState = .waiting := by
  have hquiet : Atomic dropAll started (.send 1 toNeighbour) :=
    .inr ⟨by simp [Event.acts, Act.Off, loop], by decide +kernel⟩
  have hrun : Run dropAll Apart (Atomic dropAll) [.send 1 toNeighbour] asking :=
    run_started.step 0 ⟨rfl, rfl⟩ hquiet asking_run
  exact ⟨by decide +kernel, (arpCache_invariant hrun).2.1⟩

end Examples

end Runs

end Tapip.Net.ArpInvariant
