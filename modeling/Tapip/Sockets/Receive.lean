import Tapip.Lib.Wait
import Tapip.Net.Pkb

/-! A thread in `_recv`, the packets that come in and `_close` (socket/sock.c, socket/socket.c, udp/udp.c,
ip/raw.c). -/

namespace Tapip.Sockets.Receive

open Foundation.Monitor Lib.Wait Net.Pkb

/-- What the mutex of the wait object protects; `pkb` is what the thread has taken. -/
structure Inbox where
  wait : TapipWait
  recvQueue : List Pkbuf
  pkb : Option Pkbuf
deriving DecidableEq, Repr

def sockRecvEnd (b : Inbox) : Inbox where
  wait := { b.wait with sleep := false }
  recvQueue := b.recvQueue.tail
  pkb := b.recvQueue.head?

def sockRecvPkb (b : Inbox) : Inbox × Bool :=
  if b.recvQueue.isEmpty then ({ b with wait := { b.wait with sleep := true } }, true)
  else (sockRecvEnd b, false)

def sockRecvWoken (b : Inbox) : Inbox × Bool :=
  if b.wait.dead then (sockRecvEnd b, false) else sockRecvPkb b

def recvQueueAdd (pkb : Pkbuf) (b : Inbox) : Inbox × Bool :=
  ({ b with recvQueue := b.recvQueue ++ [pkb] }, b.recvQueue.isEmpty)

-- The thread in `_recv` has a reference to the socket, so `_close` does no more than `wait_exit`.
def close (b : Inbox) : Inbox × Bool := ({ b with wait := (waitExit b.wait).1 }, (waitExit b.wait).2)

inductive Caller
  | arrival (pkb : Pkbuf)
  | close
deriving DecidableEq, Repr

def Caller.call : Caller → Inbox → Inbox × Bool
  | .arrival pkb => recvQueueAdd pkb
  | .close => Receive.close

def reader : Sections Inbox Caller where
  enter := sockRecvPkb
  resume := sockRecvWoken
  other := Caller.call

def opened (queue : List Pkbuf) : Inbox := ⟨waitInit, queue, none⟩

variable {b : Inbox} {p : Place} {c : Config Inbox} {queue : List Pkbuf}

def Stuck (c : Config Inbox) : Prop := c.place = .blocked ∧ c.shared.wait.dead = true

def InTime (c : Config Inbox) (move : Move Caller) : Prop :=
  move = .enter → c.shared.wait.dead = false ∨ c.shared.recvQueue ≠ []

def Alive (b : Inbox) (p : Place) : Prop := p = .blocked → b.wait.sleep = true ∧ b.wait.dead = false

lemma alive_sockRecvPkb (h : b.wait.dead = false ∨ b.recvQueue ≠ []) :
    Alive (sockRecvPkb b).1 (.after (sockRecvPkb b).2) := by
  rw [sockRecvPkb]
  split_ifs with hq
  · intro _
    exact ⟨rfl, h.resolve_right (by simpa using hq)⟩
  · intro hp
    cases hp

lemma alive_sockRecvWoken : Alive (sockRecvWoken b).1 (.after (sockRecvWoken b).2) := by
  rw [sockRecvWoken]
  split_ifs with hd
  · intro hp
    cases hp
  · exact alive_sockRecvPkb (.inl (by simpa using hd))

lemma alive_call (i : Caller) (h : Alive b p) : Alive (i.call b).1 (p.signal (i.call b).2) := by
  intro hp
  have hb : p = .blocked := by
    rw [Place.signal] at hp
    split_ifs at hp
    exact hp
  obtain ⟨hs, hd⟩ := h hb
  cases i with
  | arrival pkb => exact ⟨hs, hd⟩
  | close => simp [Caller.call, close, waitExit, Place.signal, hs, hd, hb] at hp

lemma alive_of_reached (hr : reader.Reached (opened queue) InTime c) : Alive c.shared c.place := by
  apply hr.invariant
  · exact fun _ hok _ => alive_sockRecvPkb (hok rfl)
  · exact fun _ _ hp => by cases hp
  · exact fun _ _ => alive_sockRecvWoken
  · exact fun _ _ hp => by cases hp
  · exact fun i _ _ h => alive_call i h
  · intro hp
    cases hp

lemma stuck_enter_iff {c' : Config Inbox} (hstep : reader.step c .enter = some c') :
    Stuck c' ↔ c.shared.wait.dead = true ∧ c.shared.recvQueue = [] := by
  simp only [Sections.step, Option.ite_none_right_eq_some, Option.some.injEq] at hstep
  obtain ⟨-, rfl⟩ := hstep
  cases hq : c.shared.recvQueue <;> simp [Stuck, Config.ends, reader, sockRecvPkb, Place.after, hq]

theorem reader_released (hr : reader.Reached (opened queue) InTime c) :
    ¬Stuck c ∧ ∀ c', reader.step c .enter = some c' → (¬Stuck c' ↔ InTime c .enter) := by
  refine ⟨fun hs => ?_, fun c' hstep => ?_⟩
  · have halive := (alive_of_reached hr hs.1).2
    simp [hs.2] at halive
  · rw [stuck_enter_iff hstep, not_and_or, Bool.not_eq_true]
    exact ⟨fun h _ => h, fun h => h rfl⟩

theorem reader_released_waiting : ∃ c, reader.Reached (opened []) InTime c ∧ c.place = .woken ∧
    c.shared.wait.dead = true ∧ ¬Stuck c := by
  have hwaits : reader.step ⟨opened [], .outside⟩ .enter = some ⟨⟨⟨false, false, true⟩, [], none⟩, .blocked⟩ := rfl
  have hclosed : reader.step ⟨⟨⟨false, false, true⟩, [], none⟩, .blocked⟩ (.other .close) =
    some ⟨⟨⟨false, true, true⟩, [], none⟩, .woken⟩ := rfl
  have hr : reader.Reached (opened []) InTime ⟨⟨⟨false, true, true⟩, [], none⟩, .woken⟩ :=
    (Sections.Reached.start.step (fun _ => .inl rfl) hwaits).step (fun he => by cases he) hclosed
  exact ⟨_, hr, rfl, rfl, (reader_released hr).1⟩

theorem reader_stuck : ∃ c, reader.Reached (opened []) (fun _ _ => True) c ∧ Stuck c := by
  have hclosed : reader.step ⟨opened [], .outside⟩ (.other .close) =
    some ⟨⟨⟨false, true, false⟩, [], none⟩, .outside⟩ := rfl
  have hwaits : reader.step ⟨⟨⟨false, true, false⟩, [], none⟩, .outside⟩ .enter =
    some ⟨⟨⟨false, true, true⟩, [], none⟩, .blocked⟩ := rfl
  exact ⟨_, (Sections.Reached.start.step trivial hclosed).step trivial hwaits, rfl, rfl⟩

end Tapip.Sockets.Receive
