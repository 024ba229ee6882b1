import Tapip.Foundation.Linked
import Tapip.Tcp.Connection

/-! The list of sockets in TIME-WAIT (tcp/tcp_timer.c). -/

namespace Tapip.Tcp.Timer

open Foundation.Program Foundation.Linked Connection

def timeout (tsk : TcpSock) : ℤ := tsk.timewait.getD 0

def elapse (delta : ℤ) (tsk : TcpSock) : TcpSock := { tsk with timewait := some (timeout tsk - delta) }

section Timer

variable {σ : Type} (env : TcpEnv σ)

def timewaitExpire (id : ℕ) : Prog σ Unit := do
  if (← getSk env id).parent = .none then tcpUnbhash env id
  tcpUnhash env id
  modifySk env id (fun t => { t with state := .closed })
  freeSock env id

def timewaitLoop (delta : ℤ) : ℕ → Link ℕ → Option ℕ → Links ℕ → Prog σ (Links ℕ)
  | _, _, none, timers => pure timers
  | 0, _, some _, _ => fault .hang
  | fuel + 1, pprev, some t, timers => do
    let next := timers.get (.next t)
    let timers := timers.set none (.next t)
    modifySk env t (elapse delta)
    if timeout (← getSk env t) ≤ 0 then
      timewaitExpire env t
      timewaitLoop delta fuel pprev next (timers.set next pprev)
    else timewaitLoop delta fuel (.next t) next timers

def tcpTimewaitTimer (delta : ℤ) : Prog σ Unit := do
  let list := (← getWorld env).timewait
  let timers ← timewaitLoop env delta list.length .head list.head? (.ofList list)
  modifyWorld env (fun w => { w with timewait := timers.toList list.length .head })

end Timer

section Links

variable (survives : ℕ → Bool)

def walk : Link ℕ → List ℕ → Links ℕ → Links ℕ
  | _, [], timers => timers
  | pprev, t :: todo, timers =>
    if survives t then walk (.next t) todo (timers.set none (.next t))
    else walk pprev todo ((timers.set none (.next t)).set todo.head? pprev)

/-- What can be reached in the end from the link behind which the next node may be put. It is
`linked` if it still points to the first node to be visited. -/
def reachable : Bool → List ℕ → List ℕ
  | _, [] => []
  | linked, t :: todo =>
    if survives t then if linked then t :: reachable false todo else []
    else reachable true todo

variable {survives}

def Ahead (timers : Links ℕ) : List ℕ → Prop
  | [] => True
  | t :: todo => Chain timers (.next t) todo

lemma walk_frame (ha : a ≠ pprev)
    (hn : ∀ t ∈ todo, a ≠ .next t) : (walk survives pprev todo timers).get a = timers.get a := by
  induction todo generalizing pprev timers with
  | nil => rfl
  | cons t todo ih =>
    have ht : a ≠ .next t := hn t (by simp)
    have hrest : ∀ u ∈ todo, a ≠ .next u := fun u hu => hn u (by simp [hu])
    simp only [walk]
    split_ifs
    · rw [ih ht hrest, get_set_of_ne _ _ ht]
    · rw [ih ha hrest, get_set_of_ne _ _ ha, get_set_of_ne _ _ ht]

lemma Ahead.tail (h : Ahead timers (t :: todo))
    (hs : ∀ u ∈ todo, timers'.get (.next u) = timers.get (.next u)) : Ahead timers' todo := by
  cases todo with
  | nil => trivial
  | cons u todo => exact h.2.congr (hs u (by simp)) fun v hv => hs v (by simp [hv])

lemma walk_chain {linked : Bool} {pprev : Link ℕ} {todo : List ℕ} {timers : Links ℕ}
    (hnd : todo.Nodup) (hp : ∀ t ∈ todo, pprev ≠ .next t) (h : Ahead timers todo)
    (hl : timers.get pprev = if linked then todo.head? else none) :
    Chain (walk survives pprev todo timers) pprev (reachable survives linked todo) := by
  induction todo generalizing linked pprev timers with
  | nil =>
    cases linked <;> exact hl
  | cons t todo ih =>
    obtain ⟨hnt, hnd⟩ := List.nodup_cons.mp hnd
    have hpt : pprev ≠ .next t := hp t (by simp)
    have hptodo : ∀ u ∈ todo, pprev ≠ .next u := fun u hu => hp u (by simp [hu])
    have hne : ∀ u ∈ todo, Link.next u ≠ .next t := by
      rintro u hu he
      cases Link.next.inj he
      exact hnt hu
    cases hs : survives t with
    | true =>
      simp only [walk, reachable, hs, if_true]
      have hkeep : (walk survives (.next t) todo (timers.set none (.next t))).get pprev = timers.get pprev := by
        rw [walk_frame hpt hptodo, get_set_of_ne _ _ hpt]
      cases linked with
      | true =>
        refine ⟨hkeep.trans hl, ih hnd (fun u hu => (hne u hu).symm) ?_ (by simp)⟩
        exact h.tail fun u hu => get_set_of_ne timers none (hne u hu)
      | false => exact hkeep.trans hl
    | false =>
      simp only [walk, reachable, hs, Bool.false_eq_true, if_false]
      refine ih hnd hptodo ?_ (by simp)
      apply h.tail
      intro u hu
      rw [get_set_of_ne _ _ (hptodo u hu).symm, get_set_of_ne _ _ (hne u hu)]

def Apart (survives : ℕ → Bool) : List ℕ → Prop :=
  List.IsChain (fun t u => ¬(survives t = true ∧ survives u = true))

lemma reachable_eq_filter_iff (linked : Bool) (todo : List ℕ) : reachable survives linked todo = todo.filter survives ↔
      Apart survives todo ∧ (linked = false → ∀ t ∈ todo.head?, survives t = false) := by
  induction todo generalizing linked with
  | nil => simp [reachable, Apart]
  | cons t todo ih =>
    cases hs : survives t <;> cases linked <;>
      simp [reachable, hs, ih, Apart, List.isChain_cons, and_comm]

lemma reachable_sublist (linked : Bool) (todo : List ℕ) :
    (reachable survives linked todo).Sublist (todo.filter survives) := by
  induction todo generalizing linked with
  | nil => exact .slnil
  | cons t todo ih =>
    rw [List.filter_cons, reachable]
    split_ifs
    · exact (ih false).cons_cons t
    · exact List.nil_sublist _
    · exact ih true

lemma reachable_length_le (linked : Bool) (todo : List ℕ) : (reachable survives linked todo).length ≤ todo.length :=
  ((reachable_sublist linked todo).trans List.filter_sublist).length_le

end Links

section Expire

variable {net : Net} {s s' : Local} {id : ℕ} {tsk t : TcpSock} {u : Unit}

def without (id : ℕ) (off : Bool) (table : List ℕ) : List ℕ := if off then table.erase id else table

def edited (s : Local) (id : ℕ) (tsk : Option TcpSock) (unbound unhashed : Bool) : Local :=
  { s with tcp := { s.tcp with
    socks := Function.update s.tcp.socks id tsk
    ltable := without id unhashed s.tcp.ltable
    etable := if unhashed then unlinked id s.tcp.ltable s.tcp.etable else s.tcp.etable
    btable := without id unbound s.tcp.btable
    bfree := s.tcp.bfree + if unbound then 1 else 0 } }

@[simp] lemma sock_edited {o : Option TcpSock} {b h : Bool} : (edited s id o b h).sock id = o := by
  simp [edited, Local.sock]

lemma sock_edited_of_ne {o : Option TcpSock} {b h : Bool} {d : ℕ} (hd : d ≠ id) :
    (edited s id o b h).sock d = s.sock d := Function.update_of_ne hd _ _

@[simp] lemma put_edited (o : Option TcpSock) (b h : Bool) (t : TcpSock) :
    (edited s id o b h).put id t = edited s id (some t) b h := by
  simp [edited, Local.put]

@[simp] lemma edited_put (o : Option TcpSock) (b h : Bool) (t : TcpSock) :
    edited (s.put id t) id o b h = edited s id o b h := by
  simp [edited, Local.put]

lemma edited_self (h : s.sock id = some tsk) : edited s id (some tsk) false false = s := by
  have he : Function.update s.tcp.socks id (some tsk) = s.tcp.socks :=
    Function.update_eq_self_iff.mpr h.symm
  simp [edited, he, without]

def dropRef (tsk : TcpSock) : Option TcpSock :=
  if tsk.sk.refcnt - 1 ≤ 0 then none else some (setRefcnt (tsk.sk.refcnt - 1) tsk)

lemma freeSock_edited (b h : Bool) : freeSock net.env id (edited s id (some tsk) b h) =
    .ok ((), edited s id (dropRef tsk) b h) := by
  rw [freeSock, bind_run (getSk_run sock_edited), dropRef]
  split_ifs
  · simp [modifyWorld, Net.env, edited]
  · rw [modifySk_run _ sock_edited, put_edited]

lemma dropRef_some (h : dropRef tsk = some t) : t = setRefcnt (tsk.sk.refcnt - 1) tsk := by
  rw [dropRef] at h
  split_ifs at h
  exact (Option.some.inj h).symm

def leftBhash (tsk : TcpSock) : Option TcpSock := if tsk.bhashed then dropRef { tsk with bhashed := false } else some tsk

lemma leftBhash_some (h : leftBhash tsk = some t) : t = unbhashed tsk := by
  rw [leftBhash] at h
  rw [unbhashed]
  split_ifs at h ⊢
  · exact dropRef_some h
  · exact (Option.some.inj h).symm

lemma leftBhash_of_held (hr : tsk.bhashed = true → 1 < tsk.sk.refcnt) : leftBhash tsk = some (unbhashed tsk) := by
  rw [leftBhash, unbhashed]
  split_ifs with hb
  · exact if_neg (by have := hr hb; simp only; omega)
  · rfl

lemma tcpUnbhash_edited : tcpUnbhash net.env id (edited s id (some tsk) false false) =
    .ok ((), edited s id (leftBhash tsk) tsk.bhashed false) := by
  rw [tcpUnbhash, bind_run (getSk_run sock_edited), leftBhash]
  cases hb : tsk.bhashed with
  | false => rfl
  | true =>
    have hoff : modifyWorld net.env (fun w => { w with bfree := w.bfree + 1, btable := w.btable.erase id })
        (edited s id (some { tsk with bhashed := false }) false false) =
        .ok ((), edited s id (some { tsk with bhashed := false }) true false) := by
      simp [modifyWorld, Net.env, edited, without]
    simp only [if_true]
    rw [bind_run (modifySk_run _ sock_edited), put_edited, bind_run hoff, freeSock_edited]

def leftHash (tsk : TcpSock) : Option TcpSock := if tsk.sk.hashed then dropRef (setHashed false tsk) else some tsk

lemma leftHash_some (h : leftHash tsk = some t) : t = unhashed tsk := by
  rw [leftHash] at h
  rw [unhashed]
  split_ifs at h ⊢
  · exact dropRef_some h
  · exact (Option.some.inj h).symm

lemma leftHash_of_held (hr : tsk.sk.hashed = true → 1 < tsk.sk.refcnt) : leftHash tsk = some (unhashed tsk) := by
  rw [leftHash, unhashed]
  split_ifs with hh
  · exact if_neg (by have := hr hh; simp only [setHashed]; omega)
  · rfl

lemma tcpUnhash_edited (b : Bool) : tcpUnhash net.env id (edited s id (some tsk) b false) =
    (do let _ ← getSk net.env id : Prog Local Unit) (edited s id (leftHash tsk) b tsk.sk.hashed) := by
  rw [tcpUnhash, bind_run (getSk_run sock_edited), leftHash]
  cases hh : tsk.sk.hashed with
  | false => rfl
  | true =>
    have hoff : modifyWorld net.env
        (fun w => { w with ltable := w.ltable.erase id, etable := unlinked id w.ltable w.etable })
        (edited s id (some (setHashed false tsk)) b false) =
        .ok ((), edited s id (some (setHashed false tsk)) b true) := by
      simp [modifyWorld, Net.env, edited, without]
    simp only [if_true]
    rw [bind_run (modifySk_run _ sock_edited), put_edited, bind_run hoff, bind_run (freeSock_edited b true)]

lemma tcpUnhash_held (b : Bool) (hr : tsk.sk.hashed = true → 1 < tsk.sk.refcnt) :
    tcpUnhash net.env id (edited s id (some tsk) b false) =
      .ok ((), edited s id (some (unhashed tsk)) b tsk.sk.hashed) := by
  rw [tcpUnhash_edited, leftHash_of_held hr, bind_run (getSk_run sock_edited)]
  rfl

lemma tcpUnhash_run (h : s.sock id = some tsk) (hr : tsk.sk.hashed = true → 1 < tsk.sk.refcnt) :
    tcpUnhash net.env id s = .ok ((), edited s id (some (unhashed tsk)) false tsk.sk.hashed) := by
  rw [← tcpUnhash_held false hr, edited_self h]

lemma tcpUnbhash_run (h : s.sock id = some tsk) (hr : tsk.bhashed = true → 1 < tsk.sk.refcnt) :
    tcpUnbhash net.env id s = .ok ((), edited s id (some (unbhashed tsk)) tsk.bhashed false) := by
  rw [← leftBhash_of_held hr, ← tcpUnbhash_edited, edited_self h]

lemma freeSock_inv (h : freeSock net.env id s = .ok (u, s')) :
    ∃ tsk, s.sock id = some tsk ∧ s' = edited s id (dropRef tsk) false false := by
  obtain ⟨tsk, -, -, ht, -⟩ := getSk_bind_inv (show _ = _ from h)
  rw [← edited_self ht, freeSock_edited] at h
  cases h
  exact ⟨tsk, ht, rfl⟩

lemma tcpUnbhash_inv (h : tcpUnbhash net.env id s = .ok (u, s')) :
    ∃ tsk, s.sock id = some tsk ∧ s' = edited s id (leftBhash tsk) tsk.bhashed false := by
  obtain ⟨tsk, -, -, ht, -⟩ := getSk_bind_inv (show _ = _ from h)
  rw [← edited_self ht, tcpUnbhash_edited] at h
  cases h
  exact ⟨tsk, ht, rfl⟩

lemma tcpUnhash_inv (h : tcpUnhash net.env id s = .ok (u, s')) : ∃ tsk, s.sock id = some tsk ∧
    leftHash tsk = some (unhashed tsk) ∧ s' = edited s id (some (unhashed tsk)) false tsk.sk.hashed := by
  obtain ⟨tsk, -, -, ht, -⟩ := getSk_bind_inv (show _ = _ from h)
  rw [← edited_self ht, tcpUnhash_edited] at h
  obtain ⟨t, s1, rfl, hl, hret⟩ := getSk_bind_inv h
  cases hret
  rw [sock_edited] at hl
  cases leftHash_some hl
  exact ⟨tsk, ht, hl, by rw [hl]⟩

def bound (tsk : TcpSock) : Bool := tsk.parent = .none && tsk.bhashed

def ended (tsk : TcpSock) : Option TcpSock :=
  dropRef { unhashed (if tsk.parent = .none then unbhashed tsk else tsk) with state := .closed }

def tableRefs (tsk : TcpSock) : ℤ :=
  (if tsk.parent = .none ∧ tsk.bhashed = true then 1 else 0) + if tsk.sk.hashed = true then 1 else 0

def Held (tsk : TcpSock) : Prop := tableRefs tsk < tsk.sk.refcnt

lemma Held.unbhash (h : Held tsk) (hp : tsk.parent = .none) (hb : tsk.bhashed = true) : 1 < tsk.sk.refcnt := by
  simp only [Held, tableRefs, hp, hb, and_self, if_true] at h
  split_ifs at h <;> omega

lemma Held.unhash (h : Held tsk)
    (ht : t = if tsk.parent = .none then unbhashed tsk else tsk) (hh : tsk.sk.hashed = true) :
    1 < t.sk.refcnt := by
  subst ht
  simp only [Held, tableRefs, hh, if_true] at h
  by_cases hp : tsk.parent = .none
  · cases hb : tsk.bhashed <;> simp [hp, hb, unbhashed, setRefcnt] at h ⊢ <;> omega
  · simp [hp] at h ⊢
    omega

lemma timewaitExpire_run (h : s.sock id = some tsk) (hr : Held tsk) : timewaitExpire net.env id s =
      .ok ((), edited s id (ended tsk) (bound tsk) tsk.sk.hashed) := by
  rw [timewaitExpire, bind_run (getSk_run h), ended, bound]
  generalize ht : (if tsk.parent = .none then unbhashed tsk else tsk) = t
  have hh : t.sk.hashed = tsk.sk.hashed := by
    subst ht
    simp only [unbhashed]
    split_ifs <;> rfl
  have hlast : ∀ b : Bool, (do
      tcpUnhash net.env id
      modifySk net.env id (fun t => { t with state := .closed })
      freeSock net.env id : Prog Local Unit) (edited s id (some t) b false) =
      .ok ((), edited s id (dropRef { unhashed t with state := .closed }) b tsk.sk.hashed) := by
    intro b
    rw [bind_run (tcpUnhash_held b fun he => hr.unhash ht.symm (hh ▸ he)), hh,
      bind_run (modifySk_run _ sock_edited), put_edited, freeSock_edited]
  by_cases hp : tsk.parent = .none
  · simp only [hp, if_true] at ht
    simp only [hp, if_true, decide_true, Bool.true_and]
    rw [bind_run (tcpUnbhash_run h (hr.unbhash hp)), ht, hlast]
  · simp only [hp, if_false] at ht
    simp only [hp, if_false, decide_false, Bool.false_and]
    rw [← hlast, ← ht, edited_self h]

end Expire

section Tick

variable {net : Net} {delta : ℤ} {s : Local}

def survives (s : Local) (delta : ℤ) (id : ℕ) : Bool := (s.sock id).any (fun tsk => delta < timeout tsk)

def ticked (delta : ℤ) (s : Local) (id : ℕ) : Local :=
  match s.sock id with
  | none => s
  | some tsk =>
    if delta < timeout tsk then s.put id (elapse delta tsk)
    else edited s id (ended (elapse delta tsk)) (bound tsk) tsk.sk.hashed

lemma sock_ticked_of_ne {id t : ℕ} (h : t ≠ id) : (ticked delta s id).sock t = s.sock t := by
  simp only [ticked]
  split
  · rfl
  · split_ifs <;> simp [Local.put, edited, Local.sock, h]

lemma sock_foldl_ticked_of_notMem {list : List ℕ} {t : ℕ} (h : t ∉ list) :
    (list.foldl (ticked delta) s).sock t = s.sock t := by
  induction list generalizing s with
  | nil => rfl
  | cons u list ih =>
    rw [List.foldl_cons, ih fun hm => h (by simp [hm]), sock_ticked_of_ne fun he => h (by simp [he])]

lemma timewaitLoop_run {survivor : ℕ → Bool} {fuel : ℕ} {pprev : Link ℕ} {todo : List ℕ}
    {timers : Links ℕ} (hnd : todo.Nodup) (hp : ∀ t ∈ todo, pprev ≠ .next t)
    (ha : Ahead timers todo) (hf : todo.length ≤ fuel)
    (h : ∀ t ∈ todo, ∃ tsk, s.sock t = some tsk ∧ Held tsk ∧ survivor t = decide (delta < timeout tsk)) :
    timewaitLoop net.env delta fuel pprev todo.head? timers s =
      .ok (walk survivor pprev todo timers, todo.foldl (ticked delta) s) := by
  induction todo generalizing s fuel pprev timers with
  | nil => cases fuel <;> rfl
  | cons t todo ih =>
    obtain ⟨hnt, hnd⟩ := List.nodup_cons.mp hnd
    obtain ⟨tsk, hsk, hheld, hsurv⟩ := h t (by simp)
    have hne : ∀ u ∈ todo, u ≠ t := by
      rintro u hu rfl
      exact hnt hu
    have hlink : ∀ u ∈ todo, Link.next u ≠ .next t := fun u hu he => hne u hu (Link.next.inj he)
    have hptodo : ∀ u ∈ todo, pprev ≠ .next u := fun u hu => hp u (by simp [hu])
    have hrest : ∀ u ∈ todo, ∃ tsk, (ticked delta s t).sock u = some tsk ∧ Held tsk ∧
        survivor u = decide (delta < timeout tsk) := by
      intro u hu
      rw [sock_ticked_of_ne (hne u hu)]
      exact h u (by simp [hu])
    cases fuel with
    | zero => simp at hf
    | succ fuel =>
      have hf : todo.length ≤ fuel := Nat.le_of_succ_le_succ hf
      simp only [List.head?_cons, timewaitLoop, List.foldl_cons, walk, hsurv, decide_eq_true_eq]
      rw [bind_run (modifySk_run _ hsk), bind_run (getSk_run sock_put)]
      have hnext : timers.get (.next t) = todo.head? := Chain.get_eq ha
      have hle : timeout (elapse delta tsk) ≤ 0 ↔ ¬delta < timeout tsk := by
        simp only [timeout, elapse, Option.getD_some]
        omega
      simp only [hle, hnext]
      by_cases hs : delta < timeout tsk
      · have htick : ticked delta s t = s.put t (elapse delta tsk) := by simp [ticked, hsk, hs]
        rw [htick] at hrest ⊢
        simp only [hs, not_true, if_false, if_true]
        apply ih hnd (fun u hu => (hlink u hu).symm) _ hf hrest
        exact ha.tail fun u hu => get_set_of_ne _ _ (hlink u hu)
      · have hexp := @timewaitExpire_run net (s.put t (elapse delta tsk)) t _ sock_put hheld
        have htick : ticked delta s t = edited s t (ended (elapse delta tsk)) (bound tsk) tsk.sk.hashed := by
          simp [ticked, hsk, hs]
        rw [edited_put] at hexp
        rw [htick] at hrest ⊢
        simp only [hs, not_false_iff, if_true, if_false]
        rw [bind_run hexp]
        apply ih hnd hptodo _ hf hrest
        apply ha.tail
        intro u hu
        rw [get_set_of_ne _ _ (hptodo u hu).symm, get_set_of_ne _ _ (hlink u hu)]

def unhashes (s : Local) (delta : ℤ) (id : ℕ) : Bool :=
  (s.sock id).any (fun tsk => !decide (delta < timeout tsk) && tsk.sk.hashed)

def unlinks (s : Local) (delta : ℤ) (id : ℕ) : Bool := unhashes s delta id && decide (id ∉ s.tcp.ltable)

lemma unhashes_ticked_of_ne {t u : ℕ} (h : u ≠ t) : unhashes (ticked delta s t) delta u = unhashes s delta u := by
  simp only [unhashes, sock_ticked_of_ne h]

lemma ltable_ticked (s : Local) (id : ℕ) : (ticked delta s id).tcp.ltable =
    if unhashes s delta id then s.tcp.ltable.erase id else s.tcp.ltable := by
  cases hs : s.sock id with
  | none => simp [ticked, unhashes, hs]
  | some tsk =>
    by_cases hlt : delta < timeout tsk
    · simp [ticked, unhashes, hs, hlt, Local.put]
    · simp [ticked, unhashes, hs, hlt, edited, without]

lemma etable_ticked (s : Local) (id : ℕ) : (ticked delta s id).tcp.etable =
    if unlinks s delta id then s.tcp.etable.erase id else s.tcp.etable := by
  cases hs : s.sock id with
  | none => simp [ticked, unlinks, unhashes, hs]
  | some tsk =>
    by_cases hlt : delta < timeout tsk
    · simp [ticked, unlinks, unhashes, hs, hlt, Local.put]
    · cases hh : tsk.sk.hashed <;> simp [ticked, unlinks, unhashes, hs, hlt, edited, unlinked, hh]

lemma unlinks_ticked_of_ne {t u : ℕ} (h : u ≠ t) : unlinks (ticked delta s t) delta u = unlinks s delta u := by
  rw [unlinks, unlinks, unhashes_ticked_of_ne h, ltable_ticked]
  split_ifs
  · simp only [List.mem_erase_of_ne h]
  · rfl

lemma foldl_ticked_table {table : TcpWorld → List ℕ} {drops : Local → ℕ → Bool}
    (htable : ∀ (s : Local) (id : ℕ), table (ticked delta s id).tcp =
      if drops s id then (table s.tcp).erase id else table s.tcp)
    (hdrops : ∀ {s : Local} {t u : ℕ}, u ≠ t → drops (ticked delta s t) u = drops s u)
    {list : List ℕ} (hnd : list.Nodup) :
    table (list.foldl (ticked delta) s).tcp = (table s.tcp).diff (list.filter (drops s)) := by
  induction list generalizing s with
  | nil => rfl
  | cons t list ih =>
    obtain ⟨hnt, hnd⟩ := List.nodup_cons.mp hnd
    have hlater : list.filter (drops (ticked delta s t)) = list.filter (drops s) := by
      apply List.filter_congr
      intro u hu
      apply hdrops
      rintro rfl
      exact hnt hu
    rw [List.foldl_cons, ih hnd, htable, hlater, List.filter_cons]
    split_ifs <;> simp

lemma sock_foldl_ticked {list : List ℕ} (hnd : list.Nodup) {t : ℕ} {tsk : TcpSock} (ht : t ∈ list)
    (hsk : s.sock t = some tsk) : (list.foldl (ticked delta) s).sock t =
      if delta < timeout tsk then some (elapse delta tsk) else ended (elapse delta tsk) := by
  induction list generalizing s with
  | nil => simp at ht
  | cons u list ih =>
    obtain ⟨hnt, hnd⟩ := List.nodup_cons.mp hnd
    rw [List.foldl_cons]
    by_cases hu : t = u
    · subst hu
      rw [sock_foldl_ticked_of_notMem hnt]
      simp only [ticked, hsk]
      split_ifs
      · exact sock_put
      · exact sock_edited
    · have hmem : t ∈ list := by simpa [hu] using ht
      exact ih hnd hmem (by rw [sock_ticked_of_ne hu, hsk])

structure Ticks (delta : ℤ) (s s' : Local) : Prop where
  removed : ∀ t ∈ s.tcp.timewait, ∀ tsk, s.sock t = some tsk → timeout tsk ≤ delta →
    s'.sock t = ended (elapse delta tsk)
  unhashed : s'.tcp.ltable = s.tcp.ltable.diff (s.tcp.timewait.filter (unhashes s delta)) ∧
    s'.tcp.etable = s.tcp.etable.diff (s.tcp.timewait.filter (unlinks s delta))
  left : ∀ t ∈ s.tcp.timewait, ∀ tsk, s.sock t = some tsk → delta < timeout tsk →
    s'.sock t = some (elapse delta tsk)
  linked : s'.tcp.timewait = s.tcp.timewait.filter (survives s delta)

lemma tcpTimewaitTimer_run (hnd : s.tcp.timewait.Nodup)
    (hheld : ∀ t ∈ s.tcp.timewait, ∃ tsk, s.sock t = some tsk ∧ Held tsk) :
    tcpTimewaitTimer net.env delta s = .ok ((), { s.tcp.timewait.foldl (ticked delta) s with tcp :=
        { (s.tcp.timewait.foldl (ticked delta) s).tcp with
          timewait := reachable (survives s delta) true s.tcp.timewait } }) := by
  have hahead : Ahead (Links.ofList s.tcp.timewait) s.tcp.timewait := by
    have hc := chain_ofList hnd
    generalize s.tcp.timewait = list at hc
    cases list with
    | nil => trivial
    | cons t list => exact hc.2
  have hrun := @timewaitLoop_run net delta s (survives s delta) s.tcp.timewait.length .head
    s.tcp.timewait (.ofList s.tcp.timewait) hnd (by simp) hahead le_rfl (fun t ht => by
      obtain ⟨tsk, hsk, hh⟩ := hheld t ht
      exact ⟨tsk, hsk, hh, by simp [survives, hsk]⟩)
  have hchain : Chain (walk (survives s delta) .head s.tcp.timewait (.ofList s.tcp.timewait)) .head
      (reachable (survives s delta) true s.tcp.timewait) :=
    walk_chain hnd (by simp) hahead (chain_ofList hnd).get_eq
  have hlist := hchain.toList (reachable_length_le true s.tcp.timewait)
  rw [← hlist, tcpTimewaitTimer, bind_run (show getWorld net.env s = .ok (s.tcp, s) from rfl), bind_run hrun]
  rfl

variable (net) in
theorem tcpTimewaitTimer_ticks_iff (hnd : s.tcp.timewait.Nodup)
    (hheld : ∀ t ∈ s.tcp.timewait, ∃ tsk, s.sock t = some tsk ∧ Held tsk) :
    ∃ s', tcpTimewaitTimer net.env delta s = .ok ((), s') ∧
      (Ticks delta s s' ↔ Apart (survives s delta) s.tcp.timewait) := by
  refine ⟨_, tcpTimewaitTimer_run hnd hheld, ?_⟩
  have hsock : ∀ t ∈ s.tcp.timewait, ∀ tsk, s.sock t = some tsk → (s.tcp.timewait.foldl (ticked delta) s).sock t =
        if delta < timeout tsk then some (elapse delta tsk) else ended (elapse delta tsk) :=
    fun t ht tsk hsk => sock_foldl_ticked hnd ht hsk
  constructor
  · intro h
    exact ((reachable_eq_filter_iff true _).mp h.linked).1
  · intro h
    refine ⟨fun t ht tsk hsk hle => ?_, ⟨?_, ?_⟩, fun t ht tsk hsk hlt => ?_, ?_⟩
    · exact (hsock t ht tsk hsk).trans (if_neg (by omega))
    · exact @foldl_ticked_table _ _ TcpWorld.ltable _ ltable_ticked unhashes_ticked_of_ne _ hnd
    · exact @foldl_ticked_table _ _ TcpWorld.etable _ etable_ticked unlinks_ticked_of_ne _ hnd
    · exact (hsock t ht tsk hsk).trans (if_pos hlt)
    · exact (reachable_eq_filter_iff true _).mpr ⟨h, by simp⟩

structure Aged (total : ℤ) (s s' : Local) : Prop where
  linked : s'.tcp.timewait = s.tcp.timewait.filter (survives s total)
  left : ∀ t ∈ s'.tcp.timewait, ∀ tsk, s.sock t = some tsk → s'.sock t = some (elapse total tsk)
  removed : ∀ t ∈ s.tcp.timewait, ∀ tsk, s.sock t = some tsk → timeout tsk ≤ total →
    ∃ d, timeout tsk ≤ d ∧ d ≤ total ∧ s'.sock t = ended (elapse d tsk)

variable (net) in
inductive Ticking (s : Local) : ℤ → Local → Prop
  | start : Ticking s 0 s
  | tick {total delta : ℤ} {s1 s2 : Local} : Ticking s total s1 → 0 ≤ delta →
    Apart (survives s1 delta) s1.tcp.timewait → tcpTimewaitTimer net.env delta s1 = .ok ((), s2) →
    Ticking s (total + delta) s2

lemma elapse_elapse (total delta : ℤ) (tsk : TcpSock) : elapse delta (elapse total tsk) = elapse (total + delta) tsk := by
  simp [elapse, timeout, sub_sub]

lemma Aged.start (h : ∀ t ∈ s.tcp.timewait, ∃ tsk, s.sock t = some tsk ∧ 0 < timeout tsk) : Aged 0 s s := by
  refine ⟨(List.filter_eq_self.mpr fun t ht => ?_).symm, fun t ht tsk hsk => ?_, fun t ht tsk hsk hle => ?_⟩ <;>
    obtain ⟨tsk', hsk', hpos⟩ := h t ht
  · simpa [survives, hsk'] using hpos
  · cases Option.mem_unique hsk hsk'
    have hw : tsk.timewait = some (timeout tsk - 0) := by
      cases hw : tsk.timewait with
      | none => simp [timeout, hw] at hpos
      | some n => simp [timeout, hw]
    exact hsk.trans (congrArg (fun w => some { tsk with timewait := w }) hw)
  · cases Option.mem_unique hsk hsk'
    omega

lemma Aged.tick {total : ℤ} {s1 s2 : Local} (h : Aged total s s1) (hnd : s.tcp.timewait.Nodup)
    (hheld : ∀ t ∈ s.tcp.timewait, ∃ tsk, s.sock t = some tsk ∧ Held tsk) (hd : 0 ≤ delta)
    (ha : Apart (survives s1 delta) s1.tcp.timewait)
    (hrun : tcpTimewaitTimer net.env delta s1 = .ok ((), s2)) : Aged (total + delta) s s2 := by
  have hsub : s1.tcp.timewait.Sublist s.tcp.timewait := h.linked ▸ List.filter_sublist
  have hnd1 := hnd.sublist hsub
  have hsurv : ∀ t ∈ s1.tcp.timewait, survives s1 delta t = survives s (total + delta) t := by
    intro t ht
    obtain ⟨tsk, hsk, -⟩ := hheld t (hsub.subset ht)
    rw [survives, survives, hsk, h.left t ht tsk hsk, Option.any_some, Option.any_some, decide_eq_decide, elapse, timeout,
      Option.getD_some]
    omega
  have hlist : s1.tcp.timewait.filter (survives s1 delta) = s.tcp.timewait.filter (survives s (total + delta)) := by
    rw [List.filter_congr hsurv, h.linked, List.filter_filter]
    refine List.filter_congr fun t ht => ?_
    obtain ⟨tsk, hsk, -⟩ := hheld t ht
    simp only [survives, hsk, Option.any_some, Bool.and_eq_left_iff_imp, decide_eq_true_eq]
    omega
  rw [tcpTimewaitTimer_run hnd1 fun t ht => ?_, (reachable_eq_filter_iff true _).mpr ⟨ha, by simp⟩, hlist] at hrun
  · obtain ⟨-, rfl⟩ := ok_inj hrun
    have hstay : ∀ t ∈ s1.tcp.timewait, ∀ tsk, s.sock t = some tsk → (s1.tcp.timewait.foldl (ticked delta) s1).sock t =
        if total + delta < timeout tsk then some (elapse (total + delta) tsk) else ended (elapse (total + delta) tsk) := by
      intro t ht tsk hsk
      have hlt : delta < timeout (elapse total tsk) ↔ total + delta < timeout tsk := by
        simp only [elapse, timeout, Option.getD_some]
        omega
      rw [sock_foldl_ticked hnd1 ht (h.left t ht tsk hsk), elapse_elapse]
      simp only [hlt]
    refine ⟨rfl, fun t ht tsk hsk => ?_, fun t ht tsk hsk hle => ?_⟩
    · have hmem := List.mem_filter.mp (hlist ▸ ht)
      have hlt := (List.mem_filter.mp ht).2
      simp only [survives, hsk, Option.any_some, decide_eq_true_eq] at hlt
      exact (hstay t hmem.1 tsk hsk).trans (if_pos hlt)
    · by_cases hin : t ∈ s1.tcp.timewait
      · exact ⟨_, hle, le_rfl, (hstay t hin tsk hsk).trans (if_neg (by omega))⟩
      · have hgone : timeout tsk ≤ total := by
          simpa [h.linked, survives, ht, hsk] using hin
        obtain ⟨d, hd1, hd2, hend⟩ := h.removed t ht tsk hsk hgone
        exact ⟨d, hd1, by omega, (sock_foldl_ticked_of_notMem hin).trans hend⟩
  · obtain ⟨tsk, hsk, hh⟩ := hheld t (hsub.subset ht)
    exact ⟨_, h.left t ht tsk hsk, hh⟩

theorem Ticking.aged {total : ℤ} {s' : Local} (h : Ticking net s total s') (hnd : s.tcp.timewait.Nodup)
    (hheld : ∀ t ∈ s.tcp.timewait, ∃ tsk, s.sock t = some tsk ∧ Held tsk ∧ 0 < timeout tsk) : Aged total s s' := by
  induction h with
  | start => exact .start fun t ht => (hheld t ht).imp fun _ h => ⟨h.1, h.2.2⟩
  | tick _ hd ha hrun ih => exact ih.tick hnd (fun t ht => (hheld t ht).imp fun _ h => ⟨h.1, h.2.1⟩) hd ha hrun

end Tick

def waitingSock (timeout : ℤ) : TcpSock :=
  setHashed true (setRefcnt 2 { tcpAllocSock with state := .timeWait, timewait := some timeout })

def waiting (timeouts : List ℤ) : Local where
  tcp :=
    { socks := fun id => timeouts[id]?.map waitingSock
      nextSock := timeouts.length
      etable := List.range timeouts.length
      ltable := []
      btable := []
      bfree := 0
      iss := 0
      tcpId := 0
      timewait := List.range timeouts.length }
  sent := []

theorem tcpTimewaitTimer_ticks_between :
    ∃ s', tcpTimewaitTimer offline.env 1000000 (waiting [2000000, 500000, 1500000]) =
        .ok ((), s') ∧ Ticks 1000000 (waiting [2000000, 500000, 1500000]) s' := by
  obtain ⟨s', hrun, hiff⟩ := @tcpTimewaitTimer_ticks_iff offline 1000000
    (waiting [2000000, 500000, 1500000]) (by decide) (by
      intro t ht
      have ht : t ∈ [0, 1, 2] := ht
      simp only [List.mem_cons, List.not_mem_nil, or_false] at ht
      rcases ht with rfl | rfl | rfl
      all_goals exact ⟨_, rfl, by simp [Held, tableRefs, waitingSock, setHashed, setRefcnt, tcpAllocSock]⟩)
  exact ⟨s', hrun, hiff.mpr (by unfold Apart; decide)⟩

-- Two entries of the same age: the second is off the list and stays in TIME-WAIT.
theorem tcpTimewaitTimer_loses : ∃ s1 s2 : Local,
    tcpTimewaitTimer offline.env 1000000 (waiting [2000000, 2000000]) = .ok ((), s1) ∧
      ¬Ticks 1000000 (waiting [2000000, 2000000]) s1 ∧ s1.tcp.timewait = [0] ∧
      tcpTimewaitTimer offline.env 1000000 s1 = .ok ((), s2) ∧ s2.tcp.timewait = [] ∧
      (s2.sock 0).isNone ∧ (s2.sock 1).map TcpSock.state = some .timeWait ∧ s2.tcp.etable = [1] := by
  refine ⟨_, _, run_of_outcome (by decide +kernel), fun h => ?_, by decide +kernel,
    run_of_outcome (by decide +kernel), by decide +kernel, by decide +kernel, by decide +kernel,
    by decide +kernel⟩
  have := h.linked
  revert this
  decide +kernel

end Tapip.Tcp.Timer
