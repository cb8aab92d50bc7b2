import BlackSwan.Framing
import BlackSwan.Memory
import BlackSwan.Runs

/-! # The send queue of `AsioTcpSession`

The sending half of `share/network/session.h`.  Any thread may call `send`; the queue is guarded by
`sendMtx_`, so that each section that holds the lock is one step.

* `trying` counts the calls of `trySend` that are still to come: one for every message that was
  queued and for every completion.
* `outstanding` holds the buffers of every `async_send` that has not completed, and `wire` the
  bytes that were transferred.
* `hung` and `fault` say that the loop of `adjustSendBuffer` did not end, or read what is not
  there.

An `async_send` completes against a queue that has grown since its buffers were collected.  The
invariant that ties the two together is that the buffers are the front of what is unsent. -/

namespace BlackSwan.Asio

open Wire Runs

structure PendingMsg where
  sendPos : ℕ
  msg : Bytes
deriving DecidableEq, Repr

namespace PendingMsg

/-- How many bytes of the message are not sent. -/
def left (m : PendingMsg) : ℕ := sizeSub m.msg.length m.sendPos

/-- The `const_buffer` of a message. -/
def buffer (m : PendingMsg) : Option Bytes := load m.msg m.sendPos m.left

end PendingMsg

structure SendSession where
  bSending_ : Bool
  pendingSendMsg : List PendingMsg
  trying : ℕ
  outstanding : List (List Bytes)
  wire : Bytes
  hung : Bool
  fault : Option Fault
deriving DecidableEq, Repr

/-- The loop of `adjustSendBuffer`, with a bound on its rounds: `none` when they do not suffice. -/
def adjustLoop : ℕ → ℕ → List PendingMsg → Option (Except Fault (List PendingMsg))
  | _, 0, queue => some (.ok queue)
  | 0, _ + 1, _ => none
  | _ + 1, _ + 1, [] => some (.error .outOfBounds)
  | fuel + 1, bytes + 1, m :: queue =>
      let len := min (bytes + 1) m.left
      let frontMsg := { m with sendPos := sizeAdd m.sendPos len }
      adjustLoop fuel (bytes + 1 - len)
        (if frontMsg.sendPos = frontMsg.msg.length then queue else frontMsg :: queue)

namespace SendSession

/-- `AsioTcpSession::adjustSendBuffer`.  Every round but the last one removes a message. -/
def adjustSendBuffer (bytesTransferred : ℕ) (s : SendSession) : SendSession :=
  match adjustLoop (s.pendingSendMsg.length + 1) bytesTransferred s.pendingSendMsg with
  | none => { s with hung := true }
  | some (.error fault) => { s with fault := some fault }
  | some (.ok queue) => { s with pendingSendMsg := queue }

/-- `AsioTcpSession::trySend`. -/
def trySend (s : SendSession) : SendSession :=
  if s.bSending_ || s.pendingSendMsg.isEmpty then s else
  match s.pendingSendMsg.mapM PendingMsg.buffer with
  | none => { s with fault := some .outOfBounds }
  | some buffers => { s with outstanding := s.outstanding ++ [buffers], bSending_ := true }

/-- The first half of `send`. -/
def push (msg : Bytes) (s : SendSession) : SendSession :=
  { s with pendingSendMsg := s.pendingSendMsg ++ [⟨0, msg⟩], trying := s.trying + 1 }

/-- The first half of `onSendCompleted`, without an error. -/
def onSendCompleted (bytesTransferred : ℕ) (s : SendSession) : SendSession :=
  ({ s with bSending_ := false, trying := s.trying + 1 } : SendSession).adjustSendBuffer
    bytesTransferred

end SendSession

/-! ### Runs -/

inductive SendEvent where
  /-- a thread calls `send` and queues its message -/
  | send (msg : Bytes)
  /-- a thread goes on with `trySend` -/
  | trySend
  /-- the `i`-th outstanding `async_send` has transferred `k` of its bytes, and completes -/
  | completed (i k : ℕ)
deriving DecidableEq, Repr

namespace SendSession

/-- The bytes that an `async_send` was given, all in a row. -/
def offered (buffers : List Bytes) : Bytes := buffers.flatten

def step (s : SendSession) (e : SendEvent) : Option SendSession :=
  if s.hung || s.fault.isSome then none else
  match e with
  -- no `std::string` is longer
  | .send msg => if msg.length < 2 ^ 63 then some (s.push msg) else none
  | .trySend =>
      if s.trying = 0 then none else some ({ s with trying := s.trying - 1 } : SendSession).trySend
  | .completed i k =>
      match s.outstanding[i]? with
      | none => none
      | some buffers =>
          if k ≤ (offered buffers).length then
            some (({ s with
              outstanding := s.outstanding.eraseIdx i
              wire := s.wire ++ (offered buffers).take k } : SendSession).onSendCompleted k)
          else none

end SendSession

def sendMachine : Machine SendSession SendEvent where
  init := ⟨false, [], 0, [], [], false, none⟩
  step := SendSession.step

/-- The messages that were passed to `send` in a run. -/
def sentBy (es : List SendEvent) : List Bytes :=
  es.filterMap fun
    | .send msg => some msg
    | _ => none

/-! ### The queue -/

/-- What is still to be sent of a queue, front to back. -/
def unsent (queue : List PendingMsg) : Bytes := queue.flatMap fun m => m.msg.drop m.sendPos

@[simp] theorem unsent_cons (m : PendingMsg) (queue : List PendingMsg) :
    unsent (m :: queue) = m.msg.drop m.sendPos ++ unsent queue := rfl

theorem unsent_append (q₁ q₂ : List PendingMsg) : unsent (q₁ ++ q₂) = unsent q₁ ++ unsent q₂ := by
  simp [unsent]

/-- The position of a message is inside it. -/
def PendingMsg.Valid (m : PendingMsg) : Prop := m.sendPos ≤ m.msg.length ∧ m.msg.length < 2 ^ 63

theorem PendingMsg.Valid.left_eq {m : PendingMsg} (h : m.Valid) :
    m.left = m.msg.length - m.sendPos := by
  have h₂ := h.2
  exact sizeSub_eq h.1 (by omega)

theorem PendingMsg.Valid.buffer_eq {m : PendingMsg} (h : m.Valid) :
    m.buffer = some (m.msg.drop m.sendPos) := by
  have h₁ := h.1
  rw [PendingMsg.buffer, h.left_eq, load_eq (by omega), List.take_of_length_le]
  rw [List.length_drop]

/-- The buffers that `trySend` collects are what is unsent. -/
theorem mapM_buffer : ∀ (queue : List PendingMsg), (∀ m ∈ queue, m.Valid) →
    ∃ buffers, queue.mapM PendingMsg.buffer = some buffers ∧ SendSession.offered buffers = unsent queue
  | [], _ => ⟨[], rfl, rfl⟩
  | m :: queue, h => by
      obtain ⟨buffers, hb, ho⟩ := mapM_buffer queue fun m' hm => h m' (List.mem_cons_of_mem _ hm)
      refine ⟨m.msg.drop m.sendPos :: buffers, ?_, ?_⟩
      · simp [List.mapM_cons, (h m List.mem_cons_self).buffer_eq, hb]
      · rw [unsent_cons, ← ho]
        rfl

/-- One round at the front message: it takes what it can, and is removed when nothing is left. -/
theorem adjust_front {m : PendingMsg} (hm : m.Valid) (n : ℕ) (queue : List PendingMsg) :
    ∃ queue', (if sizeAdd m.sendPos (min n m.left) = m.msg.length then queue
        else { m with sendPos := sizeAdd m.sendPos (min n m.left) } :: queue) = queue' ∧
      ((∀ m' ∈ queue, m'.Valid) → ∀ m' ∈ queue', m'.Valid) ∧
      unsent queue' = (unsent (m :: queue)).drop (min n m.left) ∧
      (queue' = queue ∨ n - min n m.left = 0) := by
  obtain ⟨hpos, hlen⟩ := hm
  have hleft := PendingMsg.Valid.left_eq ⟨hpos, hlen⟩
  have hadd : sizeAdd m.sendPos (min n m.left) = m.sendPos + min n m.left := sizeAdd_eq (by omega)
  have hdrop : (unsent (m :: queue)).drop (min n m.left) =
      m.msg.drop (m.sendPos + min n m.left) ++ unsent queue := by
    rw [unsent_cons, List.drop_append_of_le_length (by rw [List.length_drop]; omega), List.drop_drop]
  refine ⟨_, rfl, ?_⟩
  rw [hdrop, hadd]
  split_ifs with hend
  · refine ⟨fun h => h, ?_, .inl rfl⟩
    rw [hend, List.drop_length, List.nil_append]
  · refine ⟨fun h m' hm' => ?_, rfl, .inr (by omega)⟩
    rcases List.mem_cons.mp hm' with rfl | hm'
    · exact ⟨by show m.sendPos + min n m.left ≤ m.msg.length; omega, hlen⟩
    · exact h m' hm'

/-- **The loop ends, inside the queue**, when no more bytes were transferred than are unsent. -/
theorem adjustLoop_eq : ∀ (fuel n : ℕ) (queue : List PendingMsg), (∀ m ∈ queue, m.Valid) →
    n ≤ (unsent queue).length → queue.length < fuel →
    ∃ queue', adjustLoop fuel n queue = some (.ok queue') ∧ (∀ m ∈ queue', m.Valid) ∧
      unsent queue' = (unsent queue).drop n
  | _, 0, queue, hv, _, _ => ⟨queue, by simp [adjustLoop], hv, by simp⟩
  | fuel + 1, n + 1, [], _, hn, _ => by
      simp [unsent] at hn
  | fuel + 1, n + 1, m :: queue, hv, hn, hf => by
      obtain ⟨queue', hq, hv', hu, hshort⟩ := adjust_front (hv m List.mem_cons_self)
        (n + 1) queue
      have hvalid := hv' fun m' hm' => hv m' (List.mem_cons_of_mem _ hm')
      have hsplit : min (n + 1) m.left + (n + 1 - min (n + 1) m.left) = n + 1 := by omega
      simp only [adjustLoop, hq]
      obtain rfl | hzero := hshort
      · obtain ⟨queue'', hloop, hv'', hu''⟩ := adjustLoop_eq fuel (n + 1 - min (n + 1) m.left) queue'
          hvalid (by rw [hu, List.length_drop]; omega) (by simpa using hf)
        refine ⟨queue'', hloop, hv'', ?_⟩
        rw [hu'', hu, List.drop_drop, hsplit]
      · have hall : min (n + 1) m.left = n + 1 := by omega
        refine ⟨queue', by rw [hzero]; simp [adjustLoop], hvalid, ?_⟩
        rw [hu, hall]

/-! ### The invariant -/

/-- Every byte that was passed to `send` is on the wire or unsent, and an outstanding `async_send`
was given the front of what is unsent. -/
structure SendInv (sent : List Bytes) (s : SendSession) : Prop where
  valid : ∀ m ∈ s.pendingSendMsg, m.Valid
  bytes : s.wire ++ unsent s.pendingSendMsg = sent.flatten
  single : if s.bSending_ then ∃ buffers, s.outstanding = [buffers] ∧
    SendSession.offered buffers <+: unsent s.pendingSendMsg else s.outstanding = []
  ended : s.hung = false
  inside : s.fault = none

namespace SendInv

variable {sent : List Bytes} {s : SendSession}

/-- The invariant does not look at `trying`. -/
theorem setTrying (h : SendInv sent s) (n : ℕ) : SendInv sent { s with trying := n } :=
  ⟨h.valid, h.bytes, h.single, h.ended, h.inside⟩

theorem push (h : SendInv sent s) {msg : Bytes} (hlen : msg.length < 2 ^ 63) :
    SendInv (sent ++ [msg]) (s.push msg) := by
  have hu : unsent (s.pendingSendMsg ++ [⟨0, msg⟩]) = unsent s.pendingSendMsg ++ msg := by
    rw [unsent_append]
    simp [unsent]
  constructor
  · intro m hm
    rcases List.mem_append.mp hm with hm | hm
    · exact h.valid m hm
    · rw [List.mem_singleton.mp hm]
      exact ⟨Nat.zero_le _, hlen⟩
  · show s.wire ++ unsent (s.pendingSendMsg ++ [⟨0, msg⟩]) = (sent ++ [msg]).flatten
    rw [hu, ← List.append_assoc, h.bytes, List.flatten_append, List.flatten_singleton]
  · show if s.bSending_ then ∃ buffers, s.outstanding = [buffers] ∧
      SendSession.offered buffers <+: unsent (s.pendingSendMsg ++ [⟨0, msg⟩]) else s.outstanding = []
    have hsingle := h.single
    split_ifs at hsingle ⊢ with hb
    · obtain ⟨buffers, ho, hfront⟩ := hsingle
      refine ⟨buffers, ho, ?_⟩
      rw [hu]
      exact hfront.trans (List.prefix_append _ _)
    · exact hsingle
  · exact h.ended
  · exact h.inside

/-- `trySend` does nothing, or starts an `async_send` of what is unsent. -/
theorem trySend_cases (h : SendInv sent s) :
    ((s.bSending_ || s.pendingSendMsg.isEmpty) = true ∧ s.trySend = s) ∨
    ((s.bSending_ || s.pendingSendMsg.isEmpty) = false ∧ s.outstanding = [] ∧
      ∃ buffers, SendSession.offered buffers = unsent s.pendingSendMsg ∧
        s.trySend = { s with outstanding := [buffers], bSending_ := true }) := by
  unfold SendSession.trySend
  split_ifs with hskip
  · exact .inl ⟨hskip, rfl⟩
  · simp only [Bool.not_eq_true] at hskip
    obtain ⟨buffers, hb, ho⟩ := mapM_buffer s.pendingSendMsg h.valid
    have hnone : s.outstanding = [] := by
      have hsingle := h.single
      rw [(Bool.or_eq_false_iff.mp hskip).1] at hsingle
      exact hsingle
    refine .inr ⟨hskip, hnone, buffers, ho, ?_⟩
    simp [hb, hnone]

theorem trySend (h : SendInv sent s) : SendInv sent s.trySend := by
  obtain ⟨-, heq⟩ | ⟨-, -, buffers, ho, heq⟩ := h.trySend_cases
  · rw [heq]
    exact h
  · rw [heq]
    exact ⟨h.valid, h.bytes, ⟨buffers, rfl, by simp [ho]⟩, h.ended, h.inside⟩

/-- A completion ends the one `async_send`, and the loop takes the bytes off the queue. -/
theorem completed_eq (h : SendInv sent s) {i k : ℕ} {buffers : List Bytes}
    (ho : s.outstanding[i]? = some buffers) (hk : k ≤ (SendSession.offered buffers).length) :
    s.outstanding = [buffers] ∧ SendSession.offered buffers <+: unsent s.pendingSendMsg ∧
      ∃ queue, adjustLoop (s.pendingSendMsg.length + 1) k s.pendingSendMsg = some (.ok queue) ∧
        (∀ m ∈ queue, m.Valid) ∧ unsent queue = (unsent s.pendingSendMsg).drop k ∧
        ({ s with
          outstanding := s.outstanding.eraseIdx i
          wire := s.wire ++ (SendSession.offered buffers).take k } : SendSession).onSendCompleted k =
          { s with
            bSending_ := false
            trying := s.trying + 1
            pendingSendMsg := queue
            outstanding := []
            wire := s.wire ++ (SendSession.offered buffers).take k } := by
  obtain ⟨hone, hfront⟩ : s.outstanding = [buffers] ∧
      SendSession.offered buffers <+: unsent s.pendingSendMsg := by
    have hsingle := h.single
    split_ifs at hsingle with hb
    · obtain ⟨buffers', ho', hfront⟩ := hsingle
      have he : [buffers'][i]? = some buffers := ho' ▸ ho
      obtain rfl := List.mem_singleton.mp (List.mem_of_getElem? he)
      exact ⟨ho', hfront⟩
    · rw [hsingle] at ho
      cases ho
  have hi : i = 0 := by
    rw [hone] at ho
    have hlt := (List.getElem?_eq_some_iff.mp ho).1
    simpa using hlt
  obtain ⟨queue, hloop, hvalid, hu⟩ := adjustLoop_eq (s.pendingSendMsg.length + 1) k s.pendingSendMsg
    h.valid (hk.trans hfront.length_le) (Nat.lt_succ_self _)
  refine ⟨hone, hfront, queue, hloop, hvalid, hu, ?_⟩
  simp only [SendSession.onSendCompleted, SendSession.adjustSendBuffer, hloop, hone, hi]
  rfl

/-- A completion takes as many bytes off the queue as it put on the wire. -/
theorem completed (h : SendInv sent s) {i k : ℕ} {buffers : List Bytes}
    (ho : s.outstanding[i]? = some buffers) (hk : k ≤ (SendSession.offered buffers).length) :
    SendInv sent (({ s with
      outstanding := s.outstanding.eraseIdx i
      wire := s.wire ++ (SendSession.offered buffers).take k } : SendSession).onSendCompleted k) := by
  obtain ⟨-, hfront, queue, -, hvalid, hu, heq⟩ := h.completed_eq ho hk
  have htake : (SendSession.offered buffers).take k = (unsent s.pendingSendMsg).take k := by
    obtain ⟨rest, hrest⟩ := hfront
    rw [← hrest, List.take_append_of_le_length hk]
  rw [heq]
  refine ⟨hvalid, ?_, rfl, h.ended, h.inside⟩
  show s.wire ++ (SendSession.offered buffers).take k ++ unsent queue = sent.flatten
  rw [hu, htake, List.append_assoc, List.take_append_drop]
  exact h.bytes

end SendInv

/-! ### Whole runs -/

/-- What a step can be. -/
theorem SendSession.step_cases {e : SendEvent} {s s' : SendSession} (hs : s.step e = some s') :
    (∃ msg, e = .send msg ∧ msg.length < 2 ^ 63 ∧ s' = s.push msg) ∨
    (e = .trySend ∧ 1 ≤ s.trying ∧
      s' = ({ s with trying := s.trying - 1 } : SendSession).trySend) ∨
    ∃ i k buffers, e = .completed i k ∧ s.outstanding[i]? = some buffers ∧
      k ≤ (offered buffers).length ∧
      s' = ({ s with
        outstanding := s.outstanding.eraseIdx i
        wire := s.wire ++ (offered buffers).take k } : SendSession).onSendCompleted k := by
  cases e with
  | send msg =>
      simp only [step] at hs
      split_ifs at hs with _ hlen
      exact .inl ⟨msg, rfl, hlen, (Option.some.inj hs).symm⟩
  | trySend =>
      simp only [step] at hs
      split_ifs at hs with _ htry
      exact .inr (.inl ⟨rfl, Nat.pos_of_ne_zero htry, (Option.some.inj hs).symm⟩)
  | completed i k =>
      simp only [step] at hs
      cases ho : s.outstanding[i]? with
      | none => simp [ho] at hs
      | some buffers =>
          simp only [ho] at hs
          split_ifs at hs with _ hk
          exact .inr (.inr ⟨i, k, buffers, rfl, ho, hk, (Option.some.inj hs).symm⟩)

theorem send_step_inv {es : List SendEvent} {e : SendEvent} {s s' : SendSession}
    (h : SendInv (sentBy es) s) (hs : s.step e = some s') : SendInv (sentBy (es ++ [e])) s' := by
  obtain ⟨msg, rfl, hlen, rfl⟩ | ⟨rfl, -, rfl⟩ | ⟨i, k, buffers, rfl, ho, hk, rfl⟩ :=
    SendSession.step_cases hs
  · have hsent : sentBy (es ++ [.send msg]) = sentBy es ++ [msg] := by simp [sentBy]
    rw [hsent]
    exact h.push hlen
  · have hsent : sentBy (es ++ [.trySend]) = sentBy es := by simp [sentBy]
    rw [hsent]
    exact (h.setTrying _).trySend
  · have hsent : sentBy (es ++ [.completed i k]) = sentBy es := by simp [sentBy]
    rw [hsent]
    exact h.completed ho hk

theorem send_inv {es : List SendEvent} {s : SendSession} (h : sendMachine.run es = some s) :
    SendInv (sentBy es) s := by
  refine sendMachine.run_induction (P := fun es s => SendInv (sentBy es) s) ?_ ?_ h
  · exact ⟨fun m hm => (List.not_mem_nil hm).elim, rfl, rfl, rfl, rfl⟩
  · intro es s e s' _ ih hs
    exact send_step_inv ih hs

/-- **Every byte is sent once and in order, under every interleaving and every partial transfer.**
What was transferred and what is unsent are together what was passed to `send`, at most one
`async_send` is outstanding, and `adjustSendBuffer` has always ended and never looked at the front
of an empty queue. -/
theorem sends_every_byte_once (es : List SendEvent) (s : SendSession)
    (h : sendMachine.run es = some s) :
    s.wire ++ unsent s.pendingSendMsg = (sentBy es).flatten ∧ s.outstanding.length ≤ 1 ∧
      s.hung = false ∧ s.fault = none := by
  have hinv := send_inv h
  refine ⟨hinv.bytes, ?_, hinv.ended, hinv.inside⟩
  have hsingle := hinv.single
  split_ifs at hsingle with hb
  · obtain ⟨buffers, ho, -⟩ := hsingle
    rw [ho, List.length_singleton]
  · rw [hsingle]
    exact Nat.zero_le 1

/-- Three messages, one of them empty and one queued behind the first `async_send`, whose transfer
ends inside the first message. -/
def shortSends : List SendEvent :=
  [.send [1, 2], .send [], .trySend, .send [3], .completed 0 1, .trySend, .completed 0 2]

theorem sends_shortSends : ∃ s, sendMachine.run shortSends = some s ∧ s.wire = [1, 2, 3] ∧
    s.pendingSendMsg = [] ∧ s.wire ++ unsent s.pendingSendMsg = (sentBy shortSends).flatten ∧
    s.outstanding.length ≤ 1 := by
  obtain ⟨s, h⟩ : ∃ s, sendMachine.run shortSends = some s :=
    Option.isSome_iff_exists.mp (by decide +kernel)
  have hobs : (sendMachine.run shortSends).map (fun s => (s.wire, s.pendingSendMsg)) =
      some ([1, 2, 3], []) := by decide +kernel
  rw [h] at hobs
  obtain ⟨hw, hq⟩ := Prod.mk.inj (Option.some.inj hobs)
  obtain ⟨hbytes, hone, -⟩ := sends_every_byte_once shortSends s h
  exact ⟨s, h, hw, hq, hbytes, hone⟩

end BlackSwan.Asio
