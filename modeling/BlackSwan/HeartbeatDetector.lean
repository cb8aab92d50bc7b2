import BlackSwan.Heartbeat

/-! # Heartbeats as a failure detector

One session with its `heartbeatLoop`, and an environment that promises nothing: the peer sends what
it likes or is gone, bytes are lost, the socket can fail.  Only the timer runs in the second in which
it is due.

`silence_detected` says how good the loop is at finding out: as long as the session is up it has read
something less than a timeout and an interval ago, and it is not stopped by the loop before a timeout
has passed since its last read. -/

namespace BlackSwan

open Runs

/-- A session with the clock that it reads. -/
structure HeartbeatEnd where
  now : ℤ
  session : HeartbeatSession
  /-- `stop` was called by somebody else than the loop -/
  closed : Bool
deriving DecidableEq, Repr

inductive HeartbeatEndEvent where
  /-- the next second begins -/
  | clock
  | tick
  /-- other traffic -/
  | send (id : UInt32)
  | transferred
  | written
  /-- a read brings bytes, with the ends of the messages `msgs` -/
  | read (msgs : List UInt32)
  /-- the socket fails, or the program calls `stop` -/
  | close
deriving DecidableEq, Repr

def HeartbeatEnd.step (C : HeartbeatParams) (x : HeartbeatEnd) :
    HeartbeatEndEvent → Option HeartbeatEnd
  | .clock => if x.session.heartbeatTimer_ = some x.now then none else some { x with now := x.now + 1 }
  | .tick =>
      if x.session.heartbeatTimer_ = some x.now then
        some { x with session := x.session.heartbeatLoop x.now C.interval C.timeout }
      else none
  | .send id => some { x with session := x.session.send id }
  | .transferred => x.session.transfer.map fun s => { x with session := s }
  | .written => (x.session.writerLoop x.now).map fun s => { x with session := s }
  | .read msgs =>
      if x.session.stopped_ then none
      else some { x with session := x.session.readerLoop x.now msgs }
  | .close => some { x with session := x.session.stop, closed := true }

def heartbeatEndMachine (C : HeartbeatParams) : Machine HeartbeatEnd HeartbeatEndEvent where
  init := {
    now := C.created
    session := (HeartbeatSession.create C.created).startHeartbeat C.created C.interval C.timeout
    closed := false }
  step := HeartbeatEnd.step C

/-! ### What the operations do to the timer -/

namespace HeartbeatSession

/-- The loop, the last read and the stop are as they were. -/
def SameLoop (s s' : HeartbeatSession) : Prop :=
  s'.heartbeatTimer_ = s.heartbeatTimer_ ∧ s'.last_recv_time_ = s.last_recv_time_ ∧
    s'.stopped_ = s.stopped_

variable {s s' : HeartbeatSession}

theorem SameLoop.trans {s₁ : HeartbeatSession} (h : SameLoop s s₁) (h' : SameLoop s₁ s') :
    SameLoop s s' :=
  ⟨h'.1.trans h.1, h'.2.1.trans h.2.1, h'.2.2.trans h.2.2⟩

theorem sameLoop_send (id : UInt32) (s : HeartbeatSession) : SameLoop s (s.send id) := by
  unfold send
  split_ifs <;> exact ⟨rfl, rfl, rfl⟩

theorem sameLoop_transfer (h : s.transfer = some s') : SameLoop s s' := by
  obtain ⟨id, rest, -, -, rfl⟩ := transfer_cases h
  exact ⟨rfl, rfl, rfl⟩

theorem sameLoop_writerLoop {now : ℤ} (h : s.writerLoop now = some s') : SameLoop s s' := by
  obtain ⟨-, rfl⟩ := writerLoop_cases h
  exact ⟨rfl, rfl, rfl⟩

/-- A read counts as one, whatever it brings. -/
theorem sameLoop_readerLoop (now : ℤ) (msgs : List UInt32) (s : HeartbeatSession) :
    SameLoop { s with last_recv_time_ := now } (s.readerLoop now msgs) := by
  unfold readerLoop
  generalize { s with last_recv_time_ := now } = s
  induction msgs generalizing s with
  | nil => exact ⟨rfl, rfl, rfl⟩
  | cons id msgs ih =>
      refine SameLoop.trans ?_ (ih (dataProc s id))
      unfold dataProc replyPing
      split_ifs
      · exact sameLoop_send _ s
      · exact ⟨rfl, rfl, rfl⟩

end HeartbeatSession

/-! ### The invariant -/

namespace HeartbeatEnd

variable {C : HeartbeatParams} {x x' : HeartbeatEnd}

structure Watched (C : HeartbeatParams) (x : HeartbeatEnd) : Prop where
  /-- the last round has not found a timeout, and the next one is an interval after it -/
  running : x.session.stopped_ = false → ∃ t, x.session.heartbeatTimer_ = some t ∧
    x.now ≤ t ∧ t ≤ x.now + C.interval ∧ t - C.interval - x.session.last_recv_time_ < C.timeout
  stopped : x.session.stopped_ = true → x.closed = false →
    C.timeout ≤ x.now - x.session.last_recv_time_

namespace Watched

theorem of_sameLoop {s : HeartbeatSession} (h : Watched C x)
    (hs : HeartbeatSession.SameLoop x.session s) : Watched C { x with session := s } := by
  obtain ⟨htimer, hrecv, hstop⟩ := hs
  constructor
  · intro hr
    show ∃ t, s.heartbeatTimer_ = some t ∧ x.now ≤ t ∧ t ≤ x.now + C.interval ∧
      t - C.interval - s.last_recv_time_ < C.timeout
    rw [htimer, hrecv]
    exact h.running (hstop ▸ hr)
  · intro hr hc
    show C.timeout ≤ x.now - s.last_recv_time_
    rw [hrecv]
    exact h.stopped (hstop ▸ hr) hc

theorem start (hI : 0 < C.interval) (hT : 0 < C.timeout) :
    Watched C (heartbeatEndMachine C).init := by
  have hstart : ¬(C.interval ≤ 0 ∨ C.timeout ≤ 0 ∨ false = true) := by
    simp only [Bool.false_eq_true, or_false]
    omega
  show Watched C ⟨C.created,
    if C.interval ≤ 0 ∨ C.timeout ≤ 0 ∨ false = true then _ else _, false⟩
  rw [if_neg hstart]
  constructor
  · intro _
    refine ⟨C.created + C.interval, rfl, ?_, le_refl _, ?_⟩
    · show C.created ≤ C.created + C.interval
      omega
    · show C.created + C.interval - C.interval - C.created < C.timeout
      omega
  · intro hr
    exact Bool.noConfusion hr

theorem clock (h : Watched C x) (hne : x.session.heartbeatTimer_ ≠ some x.now) :
    Watched C { x with now := x.now + 1 } := by
  constructor
  · intro hr
    obtain ⟨t, ht, hnow, hle, hlt⟩ := h.running hr
    have hnot : t ≠ x.now := by
      rintro rfl
      exact hne ht
    refine ⟨t, ht, ?_, ?_, hlt⟩
    · show x.now + 1 ≤ t
      omega
    · show t ≤ x.now + 1 + C.interval
      omega
  · intro hr hc
    have hle := h.stopped hr hc
    show C.timeout ≤ x.now + 1 - x.session.last_recv_time_
    omega

/-- A round of the loop: it stops the session, or it has not found a timeout. -/
theorem tick (h : Watched C x) (hI : 0 < C.interval) :
    Watched C { x with session := x.session.heartbeatLoop x.now C.interval C.timeout } := by
  unfold HeartbeatSession.heartbeatLoop
  split_ifs with hstop hsilent hsend
  · exact ⟨fun hr => absurd (hstop.symm.trans hr) (by simp), fun _ hc => h.stopped hstop hc⟩
  · rw [HeartbeatSession.stop, if_neg hstop]
    exact ⟨fun hr => absurd hr (by simp), fun _ _ => hsilent⟩
  · obtain ⟨-, hrecv, hstop'⟩ := HeartbeatSession.sameLoop_send CS_HeartBeat_Req x.session
    refine ⟨fun _ => ⟨x.now + C.interval, rfl, ?_, le_refl _, ?_⟩, fun hr => ?_⟩
    · show x.now ≤ x.now + C.interval
      omega
    · show x.now + C.interval - C.interval - (x.session.send CS_HeartBeat_Req).last_recv_time_ < _
      rw [hrecv]
      omega
    · exact absurd (hstop'.symm.trans hr) hstop
  · refine ⟨fun _ => ⟨x.now + C.interval, rfl, ?_, le_refl _, ?_⟩, fun hr => absurd hr hstop⟩
    · show x.now ≤ x.now + C.interval
      omega
    · show x.now + C.interval - C.interval - x.session.last_recv_time_ < _
      omega

theorem read (h : Watched C x) (hT : 0 < C.timeout) (hr : x.session.stopped_ = false)
    (msgs : List UInt32) : Watched C { x with session := x.session.readerLoop x.now msgs } := by
  refine of_sameLoop (x := { x with session := { x.session with last_recv_time_ := x.now } })
    ⟨fun _ => ?_, fun hs => ?_⟩ (HeartbeatSession.sameLoop_readerLoop x.now msgs x.session)
  · obtain ⟨t, ht, hnow, hle, -⟩ := h.running hr
    refine ⟨t, ht, hnow, hle, ?_⟩
    show t - C.interval - x.now < C.timeout
    omega
  · exact absurd (hr.symm.trans hs) (by simp)

theorem close (x : HeartbeatEnd) :
    Watched C { x with session := x.session.stop, closed := true } := by
  refine ⟨fun hr => ?_, fun _ hc => absurd hc (by simp)⟩
  have hstop : x.session.stop.stopped_ = true := by
    unfold HeartbeatSession.stop
    split_ifs with hs
    · exact hs
    · rfl
  exact absurd (hstop.symm.trans hr) (by simp)

theorem step {e : HeartbeatEndEvent} (h : Watched C x) (hI : 0 < C.interval) (hT : 0 < C.timeout)
    (hs : HeartbeatEnd.step C x e = some x') : Watched C x' := by
  cases e with
  | clock =>
      rw [HeartbeatEnd.step] at hs
      split_ifs at hs with hdue
      exact Option.some.inj hs ▸ h.clock hdue
  | tick =>
      rw [HeartbeatEnd.step] at hs
      split_ifs at hs
      exact Option.some.inj hs ▸ h.tick hI
  | send id => exact Option.some.inj hs ▸ h.of_sameLoop (HeartbeatSession.sameLoop_send id _)
  | transferred =>
      rw [HeartbeatEnd.step] at hs
      obtain ⟨s, hsent, rfl⟩ := Option.map_eq_some_iff.mp hs
      exact h.of_sameLoop (HeartbeatSession.sameLoop_transfer hsent)
  | written =>
      rw [HeartbeatEnd.step] at hs
      obtain ⟨s, hsent, rfl⟩ := Option.map_eq_some_iff.mp hs
      exact h.of_sameLoop (HeartbeatSession.sameLoop_writerLoop hsent)
  | read msgs =>
      rw [HeartbeatEnd.step] at hs
      split_ifs at hs with hstop
      exact Option.some.inj hs ▸ h.read hT (by simpa using hstop) msgs
  | close => exact Option.some.inj hs ▸ close x

end Watched

/-- The seconds go on: a timer that is due may run, and then it is not due. -/
theorem exists_next_second (x : HeartbeatEnd) (hI : 0 < C.interval) :
    ∃ es x', (heartbeatEndMachine C).exec es x = some x' ∧ x'.now = x.now + 1 := by
  by_cases hdue : x.session.heartbeatTimer_ = some x.now
  · have hnot : (x.session.heartbeatLoop x.now C.interval C.timeout).heartbeatTimer_ ≠
        some x.now := by
      unfold HeartbeatSession.heartbeatLoop
      split_ifs with hstop
      · simp
      · simp [HeartbeatSession.stop, hstop]
      all_goals
        intro heq
        have : x.now + C.interval = x.now := Option.some.inj heq
        omega
    refine ⟨[.tick, .clock], { x with
      now := x.now + 1
      session := x.session.heartbeatLoop x.now C.interval C.timeout }, ?_, rfl⟩
    simp only [Machine.exec, heartbeatEndMachine, HeartbeatEnd.step, if_pos hdue, if_neg hnot,
      Option.bind_some]
  · refine ⟨[.clock], { x with now := x.now + 1 }, ?_, rfl⟩
    simp only [Machine.exec, heartbeatEndMachine, HeartbeatEnd.step, if_neg hdue, Option.bind_some]

/-! ### Runs -/

/-- **A silent peer is found out, and only a silent one**: a session that is up has read something
less than a timeout and an interval ago, one that the loop has stopped has read nothing for a
timeout, and the seconds go on. -/
theorem silence_detected (C : HeartbeatParams) (hI : 0 < C.interval) (hT : 0 < C.timeout)
    {es : List HeartbeatEndEvent} {x : HeartbeatEnd} (h : (heartbeatEndMachine C).run es = some x) :
    (x.session.stopped_ = false → x.now - x.session.last_recv_time_ < C.timeout + C.interval) ∧
    (x.session.stopped_ = true → x.closed = false →
      C.timeout ≤ x.now - x.session.last_recv_time_) ∧
    ∃ es' x', (heartbeatEndMachine C).run (es ++ es') = some x' ∧ x'.now = x.now + 1 := by
  have hw : Watched C x :=
    (heartbeatEndMachine C).invariant (P := Watched C) (Watched.start hI hT)
      (fun _ _ _ hx hs => hx.step hI hT hs) ⟨es, h⟩
  refine ⟨fun hr => ?_, hw.stopped, ?_⟩
  · obtain ⟨t, -, hnow, -, hlt⟩ := hw.running hr
    omega
  · obtain ⟨es', x', hexec, hnow⟩ := exists_next_second (C := C) x hI
    refine ⟨es', x', ?_, hnow⟩
    rw [Machine.run, Machine.exec_append, ← Machine.run, h]
    exact hexec

/-- A peer that answers nothing: two rounds find nothing, the third one stops the session. -/
theorem silence_detected_third :
    let x : HeartbeatEnd :=
      ⟨3, ⟨0, 0, true, true, none, [CS_HeartBeat_Req, CS_HeartBeat_Req], false, []⟩, false⟩
    (heartbeatEndMachine ⟨0, 1, 3, 0⟩).run [.clock, .tick, .clock, .tick, .clock, .tick] = some x ∧
      (3 : ℤ) ≤ x.now - x.session.last_recv_time_ :=
  have hrun : (heartbeatEndMachine ⟨0, 1, 3, 0⟩).run
      [.clock, .tick, .clock, .tick, .clock, .tick] = some
        ⟨3, ⟨0, 0, true, true, none, [CS_HeartBeat_Req, CS_HeartBeat_Req], false, []⟩, false⟩ := by
    decide
  ⟨hrun, (silence_detected ⟨0, 1, 3, 0⟩ (by decide) (by decide) hrun).2.1 rfl rfl⟩

end HeartbeatEnd

end BlackSwan
