import BlackSwan.RecvStall
import BlackSwan.SendQueue

/-! # Two sessions of `AsioTcpSession` on one connection

One session sends and the other one receives: what `async_send` has transferred can be read, in any
portions that fit into the window of the posted read, and the data callback of the receiver is given
what is unread.  Both programs of `example/net_client` and `example/net_server` are of this kind; the
callback of the server takes everything that it is given (`takeAll`).

`asio_conserves` accounts for every byte in every state. -/

namespace BlackSwan.Asio

open Wire Runs

structure AsioLink where
  sender : SendSession
  receiver : RecvSession
  /-- how many bytes of the wire have been read -/
  read : ℕ
deriving DecidableEq, Repr

inductive AsioLinkEvent where
  /-- a thread of the sender goes on -/
  | send (e : SendEvent)
  /-- the posted read of the receiver ends with `n` bytes -/
  | recv (n : ℕ)
deriving DecidableEq, Repr

/-- A `DataCB`, by what it returns. -/
abbrev DataCB := Bytes → UInt64

/-- What the callback is given when nothing more comes. -/
def RecvSession.unread (s : RecvSession) : Bytes := s.recvBuffers_.getReader.getD []

namespace AsioLink

def onTheWay (s : AsioLink) : Bytes := s.sender.wire.drop s.read

/-- A read without an error brings at least one byte. -/
def step (dataCb : DataCB) (s : AsioLink) : AsioLinkEvent → Option AsioLink
  | .send e => (s.sender.step e).map fun sender => { s with sender }
  | .recv n =>
      if n = 0 ∨ s.onTheWay.length < n then none else
      let bytes := s.onTheWay.take n
      (s.receiver.step ⟨bytes, (dataCb (s.receiver.unread ++ bytes)).toNat⟩).map fun receiver =>
        { s with receiver, read := s.read + n }

end AsioLink

/-- A connection whose receiver has called `startRecv`. -/
def asioLinkMachine (maxRecvBufSize : ℕ) (dataCb : DataCB) : Machine AsioLink AsioLinkEvent where
  init := ⟨sendMachine.init, (recvMachine maxRecvBufSize true).init, 0⟩
  step := AsioLink.step dataCb

/-- What happens in the sender. -/
def senderEvents (es : List AsioLinkEvent) : List SendEvent :=
  es.filterMap fun
    | .send e => some e
    | .recv _ => none

/-- What the callback has taken of a buffer that it was given. -/
def takenOf (dataCb : DataCB) (data : Bytes) : Bytes :=
  if (dataCb data).toNat ≤ data.length then data.take (dataCb data).toNat else []

/-- What the callback has taken, all in a row. -/
def handled (dataCb : DataCB) (calls : List Bytes) : Bytes := calls.flatMap (takenOf dataCb)

theorem handled_snoc (dataCb : DataCB) (calls : List Bytes) (data : Bytes) :
    handled dataCb (calls ++ [data]) = handled dataCb calls ++ takenOf dataCb data := by
  simp [handled]

/-! ### The receiver -/

/-- What is consumed is what the callback has taken. -/
def ByteQueue.Handled (dataCb : DataCB) (q : ByteQueue) : Prop :=
  handled dataCb q.calls = q.received.take q.consumed

theorem ByteQueue.Handled.push {dataCb : DataCB} {q : ByteQueue} (h : q.Handled dataCb) (hq : q.Sane)
    (bytes : Bytes) : (q.push bytes).Handled dataCb := by
  show handled dataCb q.calls = (q.received ++ bytes).take q.consumed
  rw [List.take_append_of_le_length hq]
  exact h

theorem ByteQueue.Handled.call {dataCb : DataCB} {q : ByteQueue} (h : q.Handled dataCb) :
    (q.call (dataCb q.unread).toNat).Handled dataCb := by
  show handled dataCb (q.calls ++ [q.unread]) = _
  rw [handled_snoc, h, takenOf, ByteQueue.call]
  dsimp only
  split_ifs
  · rw [List.take_add]
    rfl
  · exact List.append_nil _

/-- A read that ends fits into its window. -/
theorem RecvSession.step_fits {s s' : RecvSession} {e : RecvEvent} (hs : s.step e = some s') :
    e.bytes.length ≤ s.recvBuffers_.getWriteValidCount := by
  unfold RecvSession.step at hs
  split_ifs at hs with hguard
  simp only [Bool.or_eq_true, decide_eq_true_eq, not_or, not_lt] at hguard
  exact hguard.1.2

/-- A read that fits into its window can end. -/
theorem RecvSession.step_ne_none {s : RecvSession} {e : RecvEvent} (hrun : s.fault = none)
    (hfit : e.bytes.length ≤ s.recvBuffers_.getWriteValidCount) (hp : e.proclen < 2 ^ 64) :
    s.step e ≠ none := by
  have hguard : ¬ (s.fault.isSome || e.bytes.length > s.recvBuffers_.getWriteValidCount ||
      e.proclen ≥ 2 ^ 64) = true := by
    simp [hrun]
    omega
  rw [RecvSession.step, if_neg hguard]
  split <;> simp

/-- The receiver of a connection: it has received the front of the wire. -/
structure Takes (maxRecvBufSize : ℕ) (dataCb : DataCB) (front : Bytes) (s : RecvSession)
    (q : ByteQueue) : Prop where
  received : q.received = front
  handled : q.Handled dataCb
  sane : q.Sane
  state : RecvSession.Posted maxRecvBufSize true q s ∨
    ∃ s₀, s = { s₀ with fault := some .thrown } ∧
      RecvSession.Starved maxRecvBufSize true q .thrown s₀

namespace Takes

variable {maxRecvBufSize : ℕ} {dataCb : DataCB} {front : Bytes} {s s' : RecvSession} {q : ByteQueue}

theorem holds (h : Takes maxRecvBufSize dataCb front s q) : s.recvBuffers_.Holds q.unread := by
  obtain hp | ⟨s₀, rfl, hs⟩ := h.state
  · exact hp.refines.holds
  · exact hs.refines.holds

theorem size_le (h : Takes maxRecvBufSize dataCb front s q) :
    s.recvBuffers_.size ≤ maxRecvBufSize := by
  obtain hp | ⟨s₀, rfl, hs⟩ := h.state
  · exact hp.refines.size_le
  · exact hs.refines.size_le

theorem calls (h : Takes maxRecvBufSize dataCb front s q) : s.calls = q.calls := by
  obtain hp | ⟨s₀, rfl, hs⟩ := h.state
  · exact hp.refines.calls
  · exact hs.refines.calls

theorem unread (h : Takes maxRecvBufSize dataCb front s q) : s.unread = q.unread := by
  rw [RecvSession.unread, h.holds.getReader, Option.getD_some]

/-- What was taken and what is unread are what was received. -/
theorem handled_unread (h : Takes maxRecvBufSize dataCb front s q) :
    Asio.handled dataCb s.calls ++ s.unread = front := by
  rw [h.calls, h.unread, h.handled, ByteQueue.unread, List.take_append_drop, h.received]

theorem posted (h : Takes maxRecvBufSize dataCb front s q) (hrun : s.fault = none) :
    RecvSession.Posted maxRecvBufSize true q s := by
  obtain hp | ⟨s₀, rfl, -⟩ := h.state
  · exact hp
  · cases hrun

theorem running_or_starved (h : Takes maxRecvBufSize dataCb front s q) :
    s.fault = none ∨ s.fault = some .thrown ∧ 2 ^ 63 ≤ s.recvBuffers_.size + 1024 := by
  obtain hp | ⟨s₀, rfl, hs⟩ := h.state
  · exact .inl hp.refines.running
  · exact .inr ⟨rfl, hs.size_ge⟩

/-- **A read.** -/
theorem step (h : Takes maxRecvBufSize dataCb front s q) {bytes : Bytes}
    (hs : s.step ⟨bytes, (dataCb (s.unread ++ bytes)).toNat⟩ = some s') :
    ∃ q', Takes maxRecvBufSize dataCb (front ++ bytes) s' q' ∧ (s'.fault = none →
      s'.unread = (s.unread ++ bytes).drop (takenOf dataCb (s.unread ++ bytes)).length) := by
  unfold RecvSession.step at hs
  split_ifs at hs with hguard
  simp only [Bool.or_eq_true, decide_eq_true_eq, not_or, not_lt] at hguard
  have hp := h.posted (by simpa using hguard.1.1)
  have hends := (hp.receive ⟨bytes, (dataCb (s.unread ++ bytes)).toNat⟩ hguard.1.2).and
    (hp.refines.receive ⟨bytes, (dataCb (s.unread ++ bytes)).toNat⟩ hguard.1.2)
  have hpush := h.handled.push h.sane bytes
  have hsane := h.sane.push bytes
  have hwindow : s.unread ++ bytes = (q.push bytes).unread := by
    rw [h.unread, ByteQueue.unread_push h.sane]
  have hreceived : (q.push bytes).received = front ++ bytes := by rw [← h.received]; rfl
  split at hs
  · rename_i s₁ heq
    rw [heq] at hends
    obtain rfl := Option.some.inj hs
    have htakes : Takes maxRecvBufSize dataCb (front ++ bytes) s₁
        ((q.push bytes).call (dataCb (s.unread ++ bytes)).toNat) := by
      refine ⟨hreceived, ?_, hsane.call _, .inl hends.1⟩
      rw [hwindow]
      exact hpush.call
    refine ⟨_, htakes, fun _ => ?_⟩
    rw [htakes.unread, hwindow, takenOf]
    split_ifs with hle
    · rw [ByteQueue.unread_call_of_le hle, List.length_take, Nat.min_eq_left hle]
    · rw [ByteQueue.unread_call_of_lt hle]
      rfl
  · rename_i fault s₁ heq
    rw [heq] at hends
    obtain rfl := Option.some.inj hs
    obtain ⟨-, rfl, hsize, hrefines⟩ := hends
    exact ⟨_, ⟨hreceived, hpush, hsane, .inr ⟨s₁, rfl, rfl, hsize, hrefines⟩⟩, fun hf => by cases hf⟩

end Takes

/-! ### Both together -/

structure AsioLink.Inv (maxRecvBufSize : ℕ) (dataCb : DataCB) (es : List AsioLinkEvent)
    (s : AsioLink) : Prop where
  sender : sendMachine.run (senderEvents es) = some s.sender
  read_le : s.read ≤ s.sender.wire.length
  receiver : ∃ q, Takes maxRecvBufSize dataCb (s.sender.wire.take s.read) s.receiver q

section

variable {maxRecvBufSize : ℕ} {dataCb : DataCB} {es : List AsioLinkEvent} {s s' : AsioLink}

theorem takes_init (maxRecvBufSize : ℕ) (dataCb : DataCB) :
    Takes maxRecvBufSize dataCb [] (recvMachine maxRecvBufSize true).init ⟨[], 0, []⟩ := by
  have hrun : (recvMachine maxRecvBufSize true).run [] = some (recvMachine maxRecvBufSize true).init :=
    rfl
  exact ⟨rfl, rfl, Nat.zero_le _, .inl (posted_of_run hrun rfl)⟩

/-- Nothing is taken off the wire by the sender. -/
theorem wire_step {sent : List Bytes} {t t' : SendSession} {e : SendEvent} (h : SendInv sent t)
    (hs : t.step e = some t') : t.wire <+: t'.wire := by
  obtain ⟨msg, rfl, -, rfl⟩ | ⟨rfl, -, rfl⟩ | ⟨i, k, buffers, rfl, ho, hk, rfl⟩ :=
    SendSession.step_cases hs
  · exact List.prefix_rfl
  · obtain ⟨-, heq⟩ | ⟨-, -, buffers, -, heq⟩ := (h.setTrying (t.trying - 1)).trySend_cases
    all_goals simp only [heq, List.prefix_rfl]
  · obtain ⟨-, -, queue, -, -, -, heq⟩ := h.completed_eq ho hk
    rw [heq]
    exact List.prefix_append _ _

theorem AsioLink.Inv.step {e : AsioLinkEvent} (h : s.Inv maxRecvBufSize dataCb es)
    (hs : s.step dataCb e = some s') : s'.Inv maxRecvBufSize dataCb (es ++ [e]) := by
  cases e with
  | send e =>
      obtain ⟨sender, hsender, rfl⟩ := Option.map_eq_some_iff.mp hs
      have hrun : sendMachine.run (senderEvents (es ++ [.send e])) = some sender := by
        rw [senderEvents, List.filterMap_append]
        exact sendMachine.run_snoc h.sender hsender
      obtain ⟨l, hl⟩ := wire_step (send_inv h.sender) hsender
      refine ⟨hrun, ?_, ?_⟩
      · show s.read ≤ sender.wire.length
        rw [← hl, List.length_append]
        exact Nat.le_add_right_of_le h.read_le
      · show ∃ q, Takes maxRecvBufSize dataCb (sender.wire.take s.read) s.receiver q
        rw [← hl, List.take_append_of_le_length h.read_le]
        exact h.receiver
  | recv n =>
      rw [AsioLink.step] at hs
      split_ifs at hs with hn
      simp only [not_or, not_lt] at hn
      obtain ⟨receiver, hreceiver, rfl⟩ := Option.map_eq_some_iff.mp hs
      obtain ⟨q, hq⟩ := h.receiver
      have hlen : n ≤ s.sender.wire.length - s.read := by
        rw [← List.length_drop]
        exact hn.2
      have hle := h.read_le
      refine ⟨?_, ?_, ?_⟩
      · rw [senderEvents, List.filterMap_append]
        simpa [senderEvents] using h.sender
      · show s.read + n ≤ s.sender.wire.length
        omega
      · obtain ⟨q', hq', -⟩ := hq.step hreceiver
        refine ⟨q', ?_⟩
        show Takes maxRecvBufSize dataCb (s.sender.wire.take (s.read + n)) receiver q'
        rw [List.take_add]
        exact hq'

theorem asioLink_inv (h : (asioLinkMachine maxRecvBufSize dataCb).run es = some s) :
    s.Inv maxRecvBufSize dataCb es := by
  refine (asioLinkMachine maxRecvBufSize dataCb).run_induction
    (P := fun es s => s.Inv maxRecvBufSize dataCb es) ?_ (fun _ _ _ _ _ ih hs => ih.step hs) h
  exact ⟨rfl, Nat.zero_le _, _, takes_init maxRecvBufSize dataCb⟩

/-- **Every byte is accounted for**, in every state and for every callback: what was passed to `send`
is, in its order, what the callback has taken, what it has been shown and has left, what is on the
way, and what is not sent.  The only fault is a buffer that has reached the size of the address
space. -/
theorem asio_conserves (maxRecvBufSize : ℕ) (dataCb : DataCB) (es : List AsioLinkEvent) (s : AsioLink)
    (h : (asioLinkMachine maxRecvBufSize dataCb).run es = some s) :
    handled dataCb s.receiver.calls ++ s.receiver.unread ++ s.onTheWay ++
        unsent s.sender.pendingSendMsg = (sentBy (senderEvents es)).flatten ∧
      s.sender.fault = none ∧ s.sender.hung = false ∧
      (s.receiver.fault = none ∨
        s.receiver.fault = some .thrown ∧ 2 ^ 63 ≤ s.receiver.recvBuffers_.size + 1024) := by
  have hinv := asioLink_inv h
  have hsend := send_inv hinv.sender
  obtain ⟨q, hq⟩ := hinv.receiver
  refine ⟨?_, hsend.inside, hsend.ended, hq.running_or_starved⟩
  rw [hq.handled_unread, AsioLink.onTheWay, List.take_append_drop]
  exact hsend.bytes

end

/-- The callback of `example/net_server` prints what it is given and takes all of it. -/
def takeAll : DataCB := fun data => UInt64.ofNat data.length

/-- `hello this`, what `example/net_client` sends every second. -/
def helloThis : Bytes := [104, 101, 108, 108, 111, 32, 116, 104, 105, 115]

theorem asio_conserves_partial : ∃ s, (asioLinkMachine (1024 * 6) takeAll).run
      [.send (.send helloThis), .send .trySend, .send (.completed 0 6), .recv 4] = some s ∧
    s.receiver.calls = [[104, 101, 108, 108]] ∧ s.onTheWay = [111, 32] ∧
    handled takeAll s.receiver.calls ++ s.receiver.unread ++ s.onTheWay ++
      unsent s.sender.pendingSendMsg = helloThis := by
  obtain ⟨s, h⟩ : ∃ s, (asioLinkMachine (1024 * 6) takeAll).run
      [.send (.send helloThis), .send .trySend, .send (.completed 0 6), .recv 4] = some s :=
    Option.isSome_iff_exists.mp (by decide +kernel)
  have hobs : ((asioLinkMachine (1024 * 6) takeAll).run
      [.send (.send helloThis), .send .trySend, .send (.completed 0 6), .recv 4]).map
        (fun s => (s.receiver.calls, s.onTheWay)) = some ([[104, 101, 108, 108]], [111, 32]) := by
    decide +kernel
  rw [h] at hobs
  simp only [Option.map_some, Option.some.injEq, Prod.mk.injEq] at hobs
  exact ⟨s, h, hobs.1, hobs.2, (asio_conserves (1024 * 6) takeAll _ s h).1⟩

end BlackSwan.Asio
