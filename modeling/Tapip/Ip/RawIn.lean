import Tapip.Foundation.Hlist
import Tapip.Ip.Upper

/-! The raw socks that get a copy of a packet: the lookup goes on behind the sock it has found, with the
link in that sock as the head of a list (ip/raw.c, socket/raw_sock.c). -/

namespace Tapip.Ip.RawIn

open Foundation.Program Foundation.Hlist Net Net.Pkb Header In FragTable Upper

variable {id : ℕ} {inet : InetSock} {x : Prog Stack Unit}

structure Linked where
  stack : Stack
  links : Hlists UInt8 ℕ

section Lookup

def IP_P_RAW : UInt8 := 255

def rawHashFunc (protocol : UInt8) : UInt8 := protocol &&& IP_P_RAW

def rawTest (src dst : UInt32) (proto : UInt8) (inet : InetSock) : Bool :=
  inet.sk.protocol = proto && (inet.sk.skSaddr = 0 || inet.sk.skSaddr = src) &&
    (inet.sk.skDaddr = 0 || inet.sk.skDaddr = dst)

def tests (s : Stack) (test : InetSock → Bool) (id : ℕ) : Except Fault Bool :=
  match s.socks[id]? with
  | some (some inet) => .ok (test inet)
  | _ => .error .useAfterFree

def rawLookup (fuel : ℕ) (head : Slot UInt8 ℕ) (src dst : UInt32) (proto : UInt8) : Prog Linked (Option ℕ) :=
  fun s => (s.links.search (tests s.stack (rawTest src dst proto)) fuel head).map (·, s)

def rawLookupSockNext (fuel sk : ℕ) (src dst : UInt32) (proto : UInt8) : Prog Linked (Option ℕ) :=
  rawLookup fuel (.next sk) src dst proto

def rawLookupSock (fuel : ℕ) (src dst : UInt32) (proto : UInt8) : Prog Linked (Option ℕ) := fun s =>
  if (s.links.slot (.first (rawHashFunc proto))).isNone then .ok (none, s)
  else rawLookup fuel (.first (rawHashFunc proto)) src dst proto s

def onStack {α : Type} (x : Prog Stack α) : Prog Linked α := fun s =>
  (x s.stack).map fun p => (p.1, { s with stack := p.2 })

def rawInLoop (fuel : ℕ) (pkb : Pkbuf) : ℕ → Option ℕ → Prog Linked Unit
  | _, none => pure ()
  | 0, some _ => fun _ => .error .hang
  | n + 1, some sk => do
    let rawpkb ← onStack (Stack.copyPkb pkb)
    onStack (recvQueueAdd sk rawpkb)
    rawInLoop fuel pkb n (← rawLookupSockNext fuel sk (ipSrc pkb) (ipDst pkb) (ipPro pkb))

def rawIn (fuel : ℕ) (pkb : Pkbuf) : Prog Linked Unit := do
  rawInLoop fuel pkb fuel (← rawLookupSock fuel (ipSrc pkb) (ipDst pkb) (ipPro pkb))

end Lookup

section Walk

variable {s : Stack} {links : Hlists UInt8 ℕ} {pkb : Pkbuf} {nodes : List ℕ} {head : Slot UInt8 ℕ} {fuel n : ℕ}

def Live (s : Stack) (id : ℕ) : Prop := ∃ inet, s.socks[id]? = some (some inet) ∧ inet.sk.recvWait = true

def addQueue (c : Pkbuf) (inet : InetSock) : InetSock :=
  { inet with sk := { inet.sk with recvQueue := inet.sk.recvQueue ++ [c] } }

def hits (s : Stack) (pkb : Pkbuf) (id : ℕ) : Bool := ((s.socks[id]?).join).any (rawMatch pkb)

lemma rawTest_eq (pkb : Pkbuf) : rawTest (ipSrc pkb) (ipDst pkb) (ipPro pkb) = rawMatch pkb := rfl

lemma tests_live (h : Live s id) : tests s (rawMatch pkb) id = .ok (hits s pkb id) := by
  obtain ⟨inet, hi, -⟩ := h
  simp [tests, hits, hi]

lemma rawLookup_eq (hc : Chain links head nodes) (hl : ∀ id ∈ nodes, Live s id) (hf : nodes.length < fuel) :
    rawLookup fuel head (ipSrc pkb) (ipDst pkb) (ipPro pkb) ⟨s, links⟩ =
      .ok (nodes.find? (hits s pkb), ⟨s, links⟩) := by
  rw [rawLookup, rawTest_eq]
  rw [hc.search_eq (fun id hid => tests_live (hl id hid)) hf]
  rfl

lemma rawLookupSock_eq (hc : Chain links (.first (rawHashFunc (ipPro pkb))) nodes) (hl : ∀ id ∈ nodes, Live s id)
    (hf : nodes.length < fuel) : rawLookupSock fuel (ipSrc pkb) (ipDst pkb) (ipPro pkb) ⟨s, links⟩ =
      .ok (nodes.find? (hits s pkb), ⟨s, links⟩) := by
  rw [rawLookupSock]
  split_ifs with hempty
  · have hnil : nodes = [] := by
      rw [hc.slot_eq, Option.isNone_iff_eq_none, List.head?_eq_none_iff] at hempty
      exact hempty
    rw [hnil, List.find?_nil]
  · exact rawLookup_eq hc hl hf

def Copied (pkb c : Pkbuf) : Prop := ∃ s s', Stack.copyPkb pkb s = .ok (c, s')

inductive Turn (pkb : Pkbuf) (id : ℕ) (inet : InetSock) (s : Stack) : Except Fault Stack → Prop
  | skip : rawMatch pkb inet = false → Turn pkb id inet s (.ok s)
  | exit : rawMatch pkb inet = true → Stack.copyPkb pkb s = .error .exit → Turn pkb id inet s (.error .exit)
  | give {c : Pkbuf} {s1 s' : Stack} : rawMatch pkb inet = true → Stack.copyPkb pkb s = .ok (c, s1) →
      recvQueueAdd id c s1 = .ok ((), s') → s'.socks = s.socks.set id (some (addQueue c inet)) →
      Turn pkb id inet s (.ok s')

lemma copyPkb_cases (pkb : Pkbuf) (s : Stack) : Stack.copyPkb pkb s = .error .exit ∨
    ∃ c s1, Stack.copyPkb pkb s = .ok (c, s1) ∧ s1.socks = s.socks := by
  by_cases hmax : s.pkbs.alloc.allocs - s.pkbs.alloc.frees > Stack.MAX_PKBS
  · have hcount : Stack.countPkb s = .error .exit := by rw [Stack.countPkb, if_pos hmax]
    exact .inl (bind_run_error hcount)
  · have hcount : Stack.countPkb s = .ok (s.pkbs.next, { s with pkbs := s.pkbs.alloc }) := by
      rw [Stack.countPkb, if_neg hmax]
    exact .inr ⟨_, _, bind_run hcount, rfl⟩

lemma recvQueueAdd_eq (c : Pkbuf) (hi : s.socks[id]? = some (some inet)) (hw : inet.sk.recvWait = true) :
    recvQueueAdd id c s = .ok ((), { s with socks := s.socks.set id (some (addQueue c inet)) }) := by
  have hget : getInet id s = .ok (inet, s) := by rw [getInet, hi]
  rw [recvQueueAdd, bind_run hget, if_pos hw]
  rfl

lemma rawChain_cons (pkb : Pkbuf) (hi : s.socks[id]? = some (some inet))
    (hw : inet.sk.recvWait = true) (nodes : List ℕ) :
    ∃ r, Turn pkb id inet s r ∧ rawChain pkb (id :: nodes) s = r >>= fun s' => rawChain pkb nodes s' := by
  have hget : getInet id s = .ok (inet, s) := by rw [getInet, hi]
  rw [rawChain, bind_run hget]
  cases hm : rawMatch pkb inet with
  | false => exact ⟨_, .skip hm, rfl⟩
  | true =>
    rw [if_pos rfl]
    rcases copyPkb_cases pkb s with hexit | ⟨c, s1, hcopy, hsocks⟩
    · refine ⟨_, .exit hm hexit, ?_⟩
      rw [bind_run_error hexit]
      rfl
    · have hi1 : s1.socks[id]? = some (some inet) := hsocks ▸ hi
      have hadd := recvQueueAdd_eq c hi1 hw
      refine ⟨_, .give hm hcopy hadd (by rw [hsocks]), ?_⟩
      rw [bind_run hcopy, bind_run hadd]
      rfl

lemma Turn.live {s' : Stack} (h : Turn pkb id inet s (.ok s'))
    (hw : inet.sk.recvWait = true) {x : ℕ} (hx : Live s x) : Live s' x := by
  cases h with
  | skip _ => exact hx
  | give _ _ _ hsocks =>
    obtain ⟨i, hi, hwi⟩ := hx
    by_cases he : id = x
    · subst he
      have hlt := (List.getElem?_eq_some_iff.mp hi).1
      exact ⟨addQueue _ inet, by rw [hsocks, List.getElem?_set_self hlt], hw⟩
    · exact ⟨i, by rw [hsocks, List.getElem?_set_ne he, hi], hwi⟩

lemma rawInLoop_eq (hc : Chain links head nodes) (hl : ∀ id ∈ nodes, Live s id) (hf : nodes.length < fuel)
    (hn : nodes.length ≤ n) : rawInLoop fuel pkb n (nodes.find? (hits s pkb)) ⟨s, links⟩ =
      onStack (rawChain pkb nodes) ⟨s, links⟩ := by
  induction nodes generalizing s head n with
  | nil =>
    rw [List.find?_nil]
    cases n <;> rfl
  | cons x nodes ih =>
    obtain ⟨-, -, hrest⟩ := hc
    obtain ⟨inet, hi, hw⟩ := hl x (by simp)
    have hhit : hits s pkb x = rawMatch pkb inet := by simp [hits, hi]
    have hl' : ∀ id ∈ nodes, Live s id := fun id hid => hl id (List.mem_cons_of_mem _ hid)
    simp only [List.length_cons] at hf hn
    obtain ⟨r, hturn, hchain⟩ := rawChain_cons pkb hi hw nodes
    rw [onStack, hchain, List.find?_cons, hhit]
    cases hturn with
    | skip hm =>
      rw [hm]
      exact ih hrest hl' (by omega) (by omega)
    | exit hm hexit =>
      obtain ⟨n, rfl⟩ := Nat.exists_eq_succ_of_ne_zero (n := n) (by omega)
      have hcopy : onStack (Stack.copyPkb pkb) ⟨s, links⟩ = .error .exit := by
        rw [onStack, hexit]
        rfl
      rw [hm, rawInLoop, bind_run_error hcopy]
      rfl
    | @give c s1 s' hm hcopy hadd hsocks =>
      obtain ⟨n, rfl⟩ := Nat.exists_eq_succ_of_ne_zero (n := n) (by omega)
      have hcopy' : onStack (Stack.copyPkb pkb) ⟨s, links⟩ = .ok (c, ⟨s1, links⟩) := by
        rw [onStack, hcopy]
        rfl
      have hadd' : onStack (recvQueueAdd x c) ⟨s1, links⟩ = .ok ((), ⟨s', links⟩) := by
        rw [onStack, hadd]
        rfl
      have hlive : ∀ id ∈ nodes, Live s' id := fun id hid => (Turn.give hm hcopy hadd hsocks).live hw (hl' id hid)
      have hnext : rawLookupSockNext fuel x (ipSrc pkb) (ipDst pkb) (ipPro pkb) ⟨s', links⟩ =
          .ok (nodes.find? (hits s' pkb), ⟨s', links⟩) := rawLookup_eq hrest hlive (by omega)
      rw [hm, rawInLoop, bind_run hcopy', bind_run hadd', bind_run hnext]
      exact ih hrest hlive (by omega) (by omega)

lemma rawIn_eq (hc : Chain links (.first (rawHashFunc (ipPro pkb))) nodes) (hl : ∀ id ∈ nodes, Live s id)
    (hf : nodes.length < fuel) : rawIn fuel pkb ⟨s, links⟩ = onStack (rawChain pkb nodes) ⟨s, links⟩ := by
  rw [rawIn, bind_run (rawLookupSock_eq hc hl hf)]
  exact rawInLoop_eq hc hl hf (by omega)

def Copies (To : ℕ → InetSock → Prop) (pkb : Pkbuf) (s s' : Stack) : Prop :=
  ∀ id inet, s.socks[id]? = some (some inet) →
    (To id inet → ∃ c, Copied pkb c ∧ s'.socks[id]? = some (some (addQueue c inet))) ∧
    (¬ To id inet → s'.socks[id]? = some (some inet))

lemma addQueue_ne (c : Pkbuf) (inet : InetSock) : addQueue c inet ≠ inet := by
  intro he
  have hq : inet.sk.recvQueue ++ [c] = inet.sk.recvQueue := congrArg (fun i => i.sk.recvQueue) he
  simp at hq

lemma Copies.iff {To To' : ℕ → InetSock → Prop} {s' : Stack} (h : Copies To pkb s s') :
    Copies To' pkb s s' ↔ ∀ id inet, s.socks[id]? = some (some inet) → (To' id inet ↔ To id inet) := by
  constructor
  · intro h' id inet hi
    have hne : ∀ c, s'.socks[id]? = some (some (addQueue c inet)) → s'.socks[id]? ≠ some (some inet) := by
      intro c hq hs
      exact addQueue_ne c inet (Option.some.inj (Option.mem_unique hq hs))
    constructor
    · intro ht
      by_contra hn
      obtain ⟨c, -, hq⟩ := (h' id inet hi).1 ht
      exact hne c hq ((h id inet hi).2 hn)
    · intro ht
      by_contra hn
      obtain ⟨c, -, hq⟩ := (h id inet hi).1 ht
      exact hne c hq ((h' id inet hi).2 hn)
  · intro hiff id inet hi
    rw [hiff id inet hi]
    exact h id inet hi

lemma rawChain_copies (hl : ∀ id ∈ nodes, Live s id) (hnd : nodes.Nodup) :
    (∀ e, rawChain pkb nodes s = .error e → e = .exit) ∧ ∀ s', rawChain pkb nodes s = .ok ((), s') →
      Copies (fun id inet => id ∈ nodes ∧ rawMatch pkb inet = true) pkb s s' := by
  induction nodes generalizing s with
  | nil =>
    refine ⟨fun e he => (by cases he), fun s' hs' id inet hi => ?_⟩
    cases hs'
    exact ⟨fun h => absurd h.1 List.not_mem_nil, fun _ => hi⟩
  | cons x nodes ih =>
    obtain ⟨i, hi, hw⟩ := hl x (by simp)
    obtain ⟨hx, hnd⟩ := List.nodup_cons.mp hnd
    have hl' : ∀ id ∈ nodes, Live s id := fun id hid => hl id (List.mem_cons_of_mem _ hid)
    have hiff : ∀ {id}, id ≠ x → (id ∈ x :: nodes ↔ id ∈ nodes) := fun he => by simp [he]
    obtain ⟨r, hturn, hchain⟩ := rawChain_cons pkb hi hw nodes
    rw [hchain]
    cases hturn with
    | skip hm =>
      obtain ⟨herr, hok⟩ := ih hl' hnd
      refine ⟨herr, fun s' hs' => ((hok s' hs').iff).mpr fun id inet hid => ?_⟩
      by_cases he : id = x
      · subst he
        cases Option.mem_unique hi hid
        simp [hm]
      · rw [hiff he]
    | exit hm hexit => exact ⟨fun e he => (Except.error.inj he).symm, fun s' hs' => by cases hs'⟩
    | @give c s1 s2 hm hcopy hadd hsocks =>
      have hlive : ∀ id ∈ nodes, Live s2 id := fun id hid => (Turn.give hm hcopy hadd hsocks).live hw (hl' id hid)
      obtain ⟨herr, hok⟩ := ih hlive hnd
      refine ⟨herr, fun s' hs' id inet hid => ?_⟩
      by_cases he : id = x
      · subst he
        cases Option.mem_unique hi hid
        have hlt := (List.getElem?_eq_some_iff.mp hi).1
        have h := hok s' hs' id (addQueue c i) (by rw [hsocks, List.getElem?_set_self hlt])
        exact ⟨fun _ => ⟨c, ⟨s, s1, hcopy⟩, h.2 fun hb => hx hb.1⟩, fun hn => absurd ⟨by simp, hm⟩ hn⟩
      · have h := hok s' hs' id inet (by rw [hsocks, List.getElem?_set_ne (Ne.symm he), hid])
        simpa only [hiff he] using h

end Walk

section FanOut

variable {s s' : Linked} {chains : UInt8 → List ℕ} {pkb : Pkbuf} {fuel : ℕ}

structure Filed (s : Linked) (chains : UInt8 → List ℕ) : Prop where
  rep : Rep s.links chains
  live : ∀ {k id}, id ∈ chains k → Live s.stack id
  home : ∀ {k id inet}, id ∈ chains k → s.stack.socks[id]? = some (some inet) → rawHashFunc inet.sk.protocol = k

/-- The socks a packet is for: the local address of a sock goes with the destination. -/
def Wanted (pkb : Pkbuf) (inet : InetSock) : Prop :=
  inet.sk.protocol = ipPro pkb ∧ (inet.sk.skSaddr = 0 ∨ inet.sk.skSaddr = ipDst pkb) ∧
    (inet.sk.skDaddr = 0 ∨ inet.sk.skDaddr = ipSrc pkb)

def FansOut (chains : UInt8 → List ℕ) (pkb : Pkbuf) (s s' : Linked) : Prop :=
  Copies (fun id inet => (∃ k, id ∈ chains k) ∧ Wanted pkb inet) pkb s.stack s'.stack

def Indifferent (src dst saddr daddr : UInt32) : Prop :=
  src = dst ∨ (saddr = 0 ∧ daddr = 0) ∨
    ((saddr ≠ 0 ∧ saddr ≠ src ∨ daddr ≠ 0 ∧ daddr ≠ dst) ∧ (saddr ≠ 0 ∧ saddr ≠ dst ∨ daddr ≠ 0 ∧ daddr ≠ src))

lemma rawMatch_iff (pkb : Pkbuf) (inet : InetSock) : rawMatch pkb inet = true ↔
    inet.sk.protocol = ipPro pkb ∧ (inet.sk.skSaddr = 0 ∨ inet.sk.skSaddr = ipSrc pkb) ∧
      (inet.sk.skDaddr = 0 ∨ inet.sk.skDaddr = ipDst pkb) := by
  simp [rawMatch, and_assoc]

lemma wanted_iff_of_indifferent (hp : inet.sk.protocol = ipPro pkb) : (Wanted pkb inet ↔ rawMatch pkb inet = true) ↔
      Indifferent (ipSrc pkb) (ipDst pkb) inet.sk.skSaddr inet.sk.skDaddr := by
  rw [rawMatch_iff, Wanted, Indifferent]
  simp only [hp, true_and]
  grind

lemma onStack_error {e : Fault} (h : onStack x s = .error e) : x s.stack = .error e := by
  rw [onStack] at h
  cases hx : x s.stack with
  | error e' =>
    rw [hx] at h
    cases h
    rfl
  | ok p =>
    rw [hx] at h
    cases h

lemma onStack_ok (h : onStack x s = .ok ((), s')) : x s.stack = .ok ((), s'.stack) := by
  rw [onStack] at h
  cases hx : x s.stack with
  | error e' =>
    rw [hx] at h
    cases h
  | ok p =>
    rw [hx] at h
    cases h
    rfl

lemma rawIn_copies (h : Filed s chains) (hf : ∀ k, (chains k).length < fuel) (pkb : Pkbuf) :
    (∀ e, rawIn fuel pkb s = .error e → e = .exit) ∧ ∀ s', rawIn fuel pkb s = .ok ((), s') →
      Copies (fun id inet => (∃ k, id ∈ chains k) ∧ rawMatch pkb inet = true) pkb s.stack s'.stack := by
  have hl : ∀ id ∈ chains (rawHashFunc (ipPro pkb)), Live s.stack id := fun id hid => h.live hid
  have heq : rawIn fuel pkb s = onStack (rawChain pkb (chains (rawHashFunc (ipPro pkb)))) s :=
    rawIn_eq (h.rep.chain _) hl (hf _)
  obtain ⟨herr, hok⟩ := rawChain_copies hl (h.rep.nodup _)
  rw [heq]
  refine ⟨fun e he => herr e (onStack_error he), fun s' hs' => ((hok _ (onStack_ok hs')).iff).mpr ?_⟩
  intro id inet hi
  refine and_congr_left fun hm => ?_
  constructor
  · rintro ⟨k, hk⟩
    rwa [← ((rawMatch_iff pkb inet).mp hm).1, h.home hk hi]
  · intro hk
    exact ⟨_, hk⟩

theorem raw_fan_out_iff (h : Filed s chains) (hf : ∀ k, (chains k).length < fuel) (pkb : Pkbuf) :
    (∀ e, rawIn fuel pkb s = .error e → e = .exit) ∧
    ∀ s', rawIn fuel pkb s = .ok ((), s') →
      (FansOut chains pkb s s' ↔ ∀ k id inet, id ∈ chains k → s.stack.socks[id]? = some (some inet) →
        inet.sk.protocol = ipPro pkb → Indifferent (ipSrc pkb) (ipDst pkb) inet.sk.skSaddr inet.sk.skDaddr) := by
  obtain ⟨herr, hok⟩ := rawIn_copies h hf pkb
  refine ⟨herr, fun s' hs' => ?_⟩
  rw [FansOut, (hok s' hs').iff]
  constructor
  · intro hiff k id inet hk hi hp
    rw [← wanted_iff_of_indifferent hp]
    have hmem : ∃ k, id ∈ chains k := ⟨k, hk⟩
    simpa only [hmem, true_and] using hiff id inet hi
  · intro hind id inet hi
    by_cases hp : inet.sk.protocol = ipPro pkb
    · refine and_congr_right fun hmem => ?_
      obtain ⟨k, hk⟩ := hmem
      exact (wanted_iff_of_indifferent hp).mpr (hind k id inet hk hi hp)
    · simp [Wanted, rawMatch_iff, hp]

def table (first second : InetSock) : Linked :=
  ⟨{ idle [] with socks := [some first, some second] }, (Hlists.empty.addHead 1 0).addHead 1 1⟩

def tableChains : UInt8 → List ℕ := Function.update (fun _ => []) 1 [1, 0]

lemma mem_tableChains {k : UInt8} (h : id ∈ tableChains k) : (id = 1 ∨ id = 0) ∧ k = 1 := by
  by_cases hk : k = 1
  · subst hk
    simpa [tableChains] using h
  · simp [tableChains, hk] at h

def rawSock (saddr daddr : UInt32) : InetSock := ⟨⟨1, saddr, daddr, 0, 0, none, [], true, true, 1⟩, false⟩

lemma filed_table (saddr saddr' : UInt32) : Filed (table (rawSock saddr 0) (rawSock saddr' 0)) tableChains where
  rep := by
    have hone : Rep (Hlists.empty.addHead (1 : UInt8) 0) (Function.update (fun _ => []) 1 [0]) :=
      rep_empty.addHead fun _ => List.not_mem_nil
    have htwo := hone.addHead (k := 1) (n := 1) fun k => ?_
    · rwa [Function.update_self, Function.update_idem] at htwo
    · by_cases hk : k = 1 <;> simp [hk]
  live := by
    intro k id hid
    obtain ⟨rfl | rfl, rfl⟩ := mem_tableChains hid <;> exact ⟨_, rfl, rfl⟩
  home := by
    intro k id i hid hi
    have hhash : rawHashFunc 1 = 1 := by decide
    obtain ⟨rfl | rfl, rfl⟩ := mem_tableChains hid <;>
    · cases hi
      exact hhash

lemma tableChains_length (k : UInt8) : (tableChains k).length < 3 := by
  by_cases hk : k = 1
  · subst hk
    decide
  · simp [tableChains, hk]

def copies (s : Linked) : List (Option ℕ) := s.stack.socks.map (Option.map fun inet => inet.sk.recvQueue.length)

def anyTwo : Linked := table (rawSock 0 0) (rawSock 0 0)

theorem raw_fan_out_any : copies (finalState (rawIn 3 ping) anyTwo) = [some 1, some 1] ∧
    FansOut tableChains ping anyTwo (finalState (rawIn 3 ping) anyTwo) := by
  have hrun := run_of_outcome (x := rawIn 3 ping) (s := anyTwo) (a := ()) (by decide +kernel)
  refine ⟨by decide +kernel, ((raw_fan_out_iff (filed_table 0 0) tableChains_length ping).2 _ hrun).mpr ?_⟩
  intro k id inet hk hi _
  obtain ⟨rfl | rfl, rfl⟩ := mem_tableChains hk <;>
  · cases hi
    exact .inr (.inl ⟨rfl, rfl⟩)

def boundTwo : Linked := table (rawSock 0x0200000a 0) (rawSock 0x0100000a 0)

/-- A sock bound to the address that the packet is for gets nothing, one bound to its sender does. -/
theorem raw_fan_out_swapped : Wanted ping (rawSock 0x0200000a 0) ∧ ¬ Wanted ping (rawSock 0x0100000a 0) ∧
    Filed boundTwo tableChains ∧
    (finalState (rawIn 3 ping) boundTwo).stack.socks[0]? = some (some (rawSock 0x0200000a 0)) ∧
    copies (finalState (rawIn 3 ping) boundTwo) = [some 0, some 1] := by
  refine ⟨by unfold Wanted; decide +kernel, by unfold Wanted; decide +kernel, filed_table _ _, by decide +kernel,
    by decide +kernel⟩

end FanOut

end Tapip.Ip.RawIn
