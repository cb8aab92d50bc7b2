import BlackSwan.Bytes
import BlackSwan.Runs

/-! # The writer of a session

The sending side of `Session` (`share/networkEx/session.h`): `send`, `deliver`, `writerLoop`,
`stop` and `handleSocketError`.  `send` may be called from any thread and only posts a `deliver`
step; everything else runs on the one thread of the session's `io_context`, so one handler is one
step and posted steps run in posting order.

The coroutine `writerLoop` is modelled by the place where it is suspended.  Its timer never
expires by itself and serves as a condition variable, woken by `cancel_one`.  The lists
`delivered` and `written` are histories: the messages that `deliver` accepted, and the buffers
that `async_write` was called with. -/

namespace BlackSwan

open Wire Runs

/-- Where `writerLoop` is suspended. -/
inductive WriterLoop where
  | notStarted
  /-- `co_spawn` has queued its first run -/
  | spawned
  /-- in `writeTimer_.async_wait`; `cancelled` when the wait is over but not yet resumed -/
  | waiting (cancelled : Bool)
  /-- in `async_write` of `sendQueue_.front()` -/
  | writing
  | returned
deriving DecidableEq, Repr

/-- The part of a `Session` that sends. -/
structure Outbox where
  posted : List Bytes
  sendQueue_ : List Bytes
  stopped_ : Bool
  isOpen : Bool
  writer : WriterLoop
  delivered : List Bytes
  written : List Bytes
deriving DecidableEq, Repr

/-- `writeTimer_.cancel()` and `writeTimer_.cancel_one()`: the loop is the only one to wait. -/
def WriterLoop.cancel : WriterLoop → WriterLoop
  | .waiting _ => .waiting true
  | w => w

namespace Outbox

/-- `Session::send`. -/
def send (msg : Bytes) (o : Outbox) : Outbox := { o with posted := o.posted ++ [msg] }

/-- `Session::deliver`. -/
def deliver (msg : Bytes) (o : Outbox) : Outbox :=
  if o.stopped_ then o else
  { o with
    sendQueue_ := o.sendQueue_ ++ [msg]
    writer := o.writer.cancel
    delivered := o.delivered ++ [msg] }

/-- The call of `async_write` on the front element. -/
def asyncWrite (msg : Bytes) (o : Outbox) : Outbox :=
  { o with writer := .writing, written := o.written ++ [msg] }

/-- The head of the outer loop of `writerLoop`. -/
def loopHead (o : Outbox) : Outbox :=
  if !o.isOpen then { o with writer := .returned } else
  match o.sendQueue_ with
  | [] => { o with writer := .waiting false }
  | msg :: _ => o.asyncWrite msg

/-- The head of the inner loop of `writerLoop`, where both waits resume. -/
def writeFront (o : Outbox) : Outbox :=
  match o.sendQueue_ with
  | [] => o.loopHead
  | msg :: _ => o.asyncWrite msg

/-- `Session::stop`, without the disconnect callback. -/
def stop (o : Outbox) : Outbox :=
  if o.stopped_ then o else
  { o with stopped_ := true, isOpen := false, writer := o.writer.cancel }

/-- The exception path of `writerLoop`, with `handleSocketError`. -/
def writeFailed (aborted : Bool) (o : Outbox) : Outbox :=
  let o := { o with writer := .returned }
  if aborted then o else o.stop

end Outbox

/-- What can happen to the sending side of a session. -/
inductive OutboxEvent where
  /-- some thread calls `send` -/
  | send (msg : Bytes)
  /-- the executor runs the oldest posted `deliver` -/
  | deliver
  | start
  /-- the executor runs the coroutine for the first time -/
  | launch
  /-- the wait on the timer completes; the loop does not look at its error code -/
  | timer
  /-- `async_write` completes with the whole buffer written -/
  | writeDone
  | writeFailed (aborted : Bool)
  | stop
deriving DecidableEq, Repr

def Outbox.step (o : Outbox) : OutboxEvent → Option Outbox
  | .send msg => some (o.send msg)
  | .deliver =>
      match o.posted with
      | [] => none
      | msg :: posted => some (({ o with posted } : Outbox).deliver msg)
  | .start => if o.writer = .notStarted then some { o with writer := .spawned } else none
  | .launch => if o.writer = .spawned then some o.loopHead else none
  | .timer =>
      match o.writer with
      | .waiting _ => some o.writeFront
      | _ => none
  | .writeDone =>
      if o.writer = .writing then some ({ o with sendQueue_ := o.sendQueue_.tail } : Outbox).writeFront
      else none
  | .writeFailed aborted => if o.writer = .writing then some (o.writeFailed aborted) else none
  | .stop => some o.stop

def outboxMachine : Machine Outbox OutboxEvent where
  init := ⟨[], [], false, true, .notStarted, [], []⟩
  step := Outbox.step

/-- The messages sent in a run, in posting order. -/
def sentMsgs (es : List OutboxEvent) : List Bytes :=
  es.filterMap fun
    | .send msg => some msg
    | _ => none

/-! ### The invariant -/

/-- How the queue and the two histories fit together, by where the loop is suspended. -/
def Outbox.Matched (o : Outbox) : Prop :=
  match o.writer with
  | .writing => ∃ done msg queue, o.sendQueue_ = msg :: queue ∧ o.written = done ++ [msg] ∧
      o.delivered = done ++ msg :: queue
  | .returned => o.written <+: o.delivered
  | _ => o.delivered = o.written ++ o.sendQueue_

structure Outbox.Inv (o : Outbox) : Prop where
  isMatched : o.Matched
  awake : o.writer = .waiting false → o.sendQueue_ = []

namespace Outbox

variable {o : Outbox}

theorem Matched.isPrefix (h : o.Matched) : o.written <+: o.delivered := by
  unfold Matched at h
  split at h
  · obtain ⟨done, msg, queue, -, hw, hd⟩ := h
    exact ⟨queue, by rw [hw, hd]; simp⟩
  · exact h
  · exact ⟨o.sendQueue_, h.symm⟩

/-- Nothing is in flight and nothing was popped that was not written: what the loop needs when it
is resumed. -/
def Rested (o : Outbox) : Prop := o.delivered = o.written ++ o.sendQueue_

theorem asyncWrite_inv {msg : Bytes} {queue : List Bytes} (h : o.Rested)
    (hq : o.sendQueue_ = msg :: queue) : (o.asyncWrite msg).Inv where
  isMatched := ⟨o.written, msg, queue, hq, rfl, by rw [← hq]; exact h⟩
  awake := by
    intro hw
    cases hw

theorem loopHead_inv (h : o.Rested) : o.loopHead.Inv := by
  unfold loopHead
  by_cases hopen : o.isOpen
  · simp only [hopen, Bool.not_true, Bool.false_eq_true, if_false]
    cases hq : o.sendQueue_ with
    | nil => exact ⟨h.trans (by rw [hq]), fun _ => rfl⟩
    | cons msg queue => exact asyncWrite_inv h hq
  · simp only [hopen, Bool.not_false, if_true]
    refine ⟨⟨o.sendQueue_, h.symm⟩, ?_⟩
    intro hw
    cases hw

theorem writeFront_inv (h : o.Rested) : o.writeFront.Inv := by
  unfold writeFront
  cases hq : o.sendQueue_ with
  | nil => exact loopHead_inv h
  | cons msg queue => exact asyncWrite_inv h hq

theorem matched_cancel (h : o.Matched) : ({ o with writer := o.writer.cancel } : Outbox).Matched := by
  unfold Matched at h ⊢
  cases hw : o.writer <;> simpa [hw, WriterLoop.cancel] using h

theorem cancel_ne_asleep (w : WriterLoop) : w.cancel ≠ .waiting false := by
  cases w <;> simp [WriterLoop.cancel]

/-- A message can be added in every phase; the one in flight stays in front. -/
theorem matched_push (msg : Bytes) (h : o.Matched) : ({ o with
    sendQueue_ := o.sendQueue_ ++ [msg], delivered := o.delivered ++ [msg] } : Outbox).Matched := by
  unfold Matched at h ⊢
  cases hw : o.writer with
  | writing =>
      simp only [hw] at h ⊢
      obtain ⟨done, m, queue, hq, hwr, hd⟩ := h
      exact ⟨done, m, queue ++ [msg], by rw [hq]; rfl, hwr, by rw [hd]; simp⟩
  | returned =>
      simp only [hw] at h ⊢
      exact h.trans (List.prefix_append _ _)
  | notStarted => simp only [hw] at h ⊢; rw [h, List.append_assoc]
  | spawned => simp only [hw] at h ⊢; rw [h, List.append_assoc]
  | waiting c => simp only [hw] at h ⊢; rw [h, List.append_assoc]

theorem deliver_inv (msg : Bytes) (h : o.Inv) : (o.deliver msg).Inv := by
  unfold deliver
  split_ifs with hs
  · exact h
  · exact ⟨matched_cancel (matched_push msg h.isMatched), fun hw => absurd hw (cancel_ne_asleep _)⟩

theorem stop_inv (h : o.Inv) : o.stop.Inv := by
  unfold stop
  split_ifs with hs
  · exact h
  · exact ⟨matched_cancel h.isMatched, fun hw => absurd hw (cancel_ne_asleep _)⟩

theorem writeFailed_inv (aborted : Bool) (h : o.Inv) : (o.writeFailed aborted).Inv := by
  have hr : ({ o with writer := .returned } : Outbox).Inv :=
    ⟨h.isMatched.isPrefix, fun hw => by cases hw⟩
  unfold writeFailed
  split_ifs
  · exact hr
  · exact stop_inv hr

/-- Every step keeps the invariant. -/
theorem step_inv (h : o.Inv) {e : OutboxEvent} {o' : Outbox} (hs : o.step e = some o') :
    o'.Inv := by
  cases e with
  | send msg =>
      obtain rfl : o.send msg = o' := by simpa [step] using hs
      exact ⟨h.isMatched, h.awake⟩
  | deliver =>
      cases hp : o.posted with
      | nil => simp [step, hp] at hs
      | cons msg posted =>
          obtain rfl : ({ o with posted } : Outbox).deliver msg = o' := by simpa [step, hp] using hs
          exact deliver_inv msg ⟨h.isMatched, h.awake⟩
  | start =>
      obtain ⟨hw, rfl⟩ : o.writer = .notStarted ∧ { o with writer := .spawned } = o' := by
        simpa [step] using hs
      have hm := h.isMatched
      simp only [Matched, hw] at hm
      exact ⟨hm, fun hw => by cases hw⟩
  | launch =>
      obtain ⟨hw, rfl⟩ : o.writer = .spawned ∧ o.loopHead = o' := by simpa [step] using hs
      have hm := h.isMatched
      simp only [Matched, hw] at hm
      exact loopHead_inv hm
  | timer =>
      cases hw : o.writer with
      | waiting c =>
          obtain rfl : o.writeFront = o' := by simpa [step, hw] using hs
          have hm := h.isMatched
          simp only [Matched, hw] at hm
          exact writeFront_inv hm
      | _ => simp [step, hw] at hs
  | writeDone =>
      obtain ⟨hw, rfl⟩ : o.writer = .writing ∧
          ({ o with sendQueue_ := o.sendQueue_.tail } : Outbox).writeFront = o' := by
        simpa [step] using hs
      have hm := h.isMatched
      simp only [Matched, hw] at hm
      obtain ⟨done, msg, queue, hq, hwr, hd⟩ := hm
      refine writeFront_inv ?_
      show o.delivered = o.written ++ o.sendQueue_.tail
      rw [hd, hwr, hq, List.append_assoc]
      rfl
  | writeFailed aborted =>
      obtain ⟨-, rfl⟩ : o.writer = .writing ∧ o.writeFailed aborted = o' := by
        simpa [step] using hs
      exact writeFailed_inv aborted h
  | stop =>
      obtain rfl : o.stop = o' := by simpa [step] using hs
      exact stop_inv h

end Outbox

theorem outbox_inv {o : Outbox} (h : outboxMachine.Reachable o) : o.Inv :=
  outboxMachine.invariant ⟨rfl, fun hw => by cases hw⟩ (fun _ _ _ hi => Outbox.step_inv hi) h

/-! ### Posting order -/

namespace Outbox

variable {o : Outbox}

/-- The loop itself changes only its place and the written buffers. -/
theorem loopHead_frame (o : Outbox) : ∃ writer written, o.loopHead = { o with writer, written } := by
  unfold loopHead
  split_ifs
  · exact ⟨.returned, o.written, rfl⟩
  · split
    · exact ⟨.waiting false, o.written, rfl⟩
    · exact ⟨.writing, o.written ++ [_], rfl⟩

theorem writeFront_frame (o : Outbox) :
    ∃ writer written, o.writeFront = { o with writer, written } := by
  unfold writeFront
  split
  · exact o.loopHead_frame
  · exact ⟨.writing, o.written ++ [_], rfl⟩

/-- As long as the session is not stopped, every message sent is delivered or posted, in order. -/
def Posted (es : List OutboxEvent) (o : Outbox) : Prop :=
  o.stopped_ = false → o.delivered ++ o.posted = sentMsgs es

theorem sentMsgs_append (es es' : List OutboxEvent) :
    sentMsgs (es ++ es') = sentMsgs es ++ sentMsgs es' := List.filterMap_append

/-- A step that sends nothing and changes only the loop's place, the queue or what is written. -/
theorem Posted.frame {es : List OutboxEvent} {e : OutboxEvent} {o' : Outbox} (h : o.Posted es)
    (he : sentMsgs [e] = []) (hst : o'.stopped_ = o.stopped_) (hd : o'.delivered = o.delivered)
    (hp : o'.posted = o.posted) : o'.Posted (es ++ [e]) := by
  intro hstop
  rw [sentMsgs_append, he, List.append_nil, hd, hp]
  exact h (hst ▸ hstop)

theorem posted_stop (es : List OutboxEvent) (o : Outbox) : o.stop.Posted es := by
  intro hstop
  have : o.stop.stopped_ = true := by
    unfold stop
    split_ifs with hs
    · exact hs
    · rfl
  rw [this] at hstop
  cases hstop

theorem deliver_posted {es : List OutboxEvent} {msg : Bytes} {posted : List Bytes}
    (h : o.Posted es) (hp : o.posted = msg :: posted) :
    (({ o with posted } : Outbox).deliver msg).Posted (es ++ [.deliver]) := by
  intro hstop
  unfold deliver at hstop ⊢
  by_cases hst : o.stopped_ = true
  · simp [hst] at hstop
  · have hpost := h (by simpa using hst)
    rw [sentMsgs_append, ← hpost, hp]
    simp [hst, sentMsgs]

/-- Every step keeps the posting order. -/
theorem step_posted {es : List OutboxEvent} {e : OutboxEvent} {o' : Outbox} (h : o.Posted es)
    (hs : o.step e = some o') : o'.Posted (es ++ [e]) := by
  cases e with
  | send msg =>
      obtain rfl : o.send msg = o' := by simpa [step] using hs
      intro hstop
      rw [sentMsgs_append, ← h hstop, List.append_assoc]
      rfl
  | deliver =>
      cases hp : o.posted with
      | nil => simp [step, hp] at hs
      | cons msg posted =>
          obtain rfl : ({ o with posted } : Outbox).deliver msg = o' := by simpa [step, hp] using hs
          exact deliver_posted h hp
  | start =>
      obtain ⟨-, rfl⟩ : o.writer = .notStarted ∧ { o with writer := .spawned } = o' := by
        simpa [step] using hs
      exact h.frame rfl rfl rfl rfl
  | launch =>
      obtain ⟨-, rfl⟩ : o.writer = .spawned ∧ o.loopHead = o' := by simpa [step] using hs
      obtain ⟨w, wr, e⟩ := o.loopHead_frame
      rw [e]
      exact h.frame rfl rfl rfl rfl
  | timer =>
      cases hw : o.writer with
      | waiting c =>
          obtain rfl : o.writeFront = o' := by simpa [step, hw] using hs
          obtain ⟨w, wr, e⟩ := o.writeFront_frame
          rw [e]
          exact h.frame rfl rfl rfl rfl
      | _ => simp [step, hw] at hs
  | writeDone =>
      obtain ⟨-, rfl⟩ : o.writer = .writing ∧
          ({ o with sendQueue_ := o.sendQueue_.tail } : Outbox).writeFront = o' := by
        simpa [step] using hs
      obtain ⟨w, wr, e⟩ := writeFront_frame { o with sendQueue_ := o.sendQueue_.tail }
      rw [e]
      exact h.frame rfl rfl rfl rfl
  | writeFailed aborted =>
      obtain ⟨-, rfl⟩ : o.writer = .writing ∧ o.writeFailed aborted = o' := by
        simpa [step] using hs
      cases aborted with
      | true => exact h.frame rfl rfl rfl rfl
      | false => exact posted_stop _ _
  | stop =>
      obtain rfl : o.stop = o' := by simpa [step] using hs
      exact posted_stop _ _

end Outbox

theorem outbox_posted {es : List OutboxEvent} {o : Outbox} (h : outboxMachine.run es = some o) :
    o.Posted es :=
  outboxMachine.run_induction (P := fun es o => o.Posted es) (fun _ => rfl)
    (fun _ _ _ _ _ ih hs => Outbox.step_posted ih hs) h

/-! ### Progress -/

/-- The event that resumes the loop. -/
def WriterLoop.resumedBy : WriterLoop → Option OutboxEvent
  | .spawned => some .launch
  | .waiting _ => some .timer
  | .writing => some .writeDone
  | _ => none

namespace Outbox

variable {o : Outbox}

/-- What has been delivered and not been given to `async_write`. -/
def unwritten (o : Outbox) : List Bytes :=
  if o.writer = .writing then o.sendQueue_.tail else o.sendQueue_

/-- Nothing is lost between the queue and `async_write`. -/
theorem Matched.delivered_eq (h : o.Matched) (hw : o.writer ≠ .returned) :
    o.delivered = o.written ++ o.unwritten := by
  unfold Matched at h
  unfold unwritten
  cases hwr : o.writer with
  | writing =>
      simp only [hwr] at h
      obtain ⟨done, msg, queue, hq, hwritten, hd⟩ := h
      simp [hq, hwritten, hd]
  | returned => exact absurd hwr hw
  | notStarted => simpa [hwr] using h
  | spawned => simpa [hwr] using h
  | waiting c => simpa [hwr] using h

/-- The socket is open until `stop`, and the loop returns only then, or when a write fails. -/
structure Live (es : List OutboxEvent) (o : Outbox) : Prop where
  isOpen : o.isOpen = !o.stopped_
  writer : (∀ aborted, .writeFailed aborted ∉ es) → o.stopped_ = false → o.writer ≠ .returned

theorem loopHead_ne_returned (h : o.isOpen = true) : o.loopHead.writer ≠ .returned := by
  unfold loopHead
  rw [h, Bool.not_true, if_neg Bool.false_ne_true]
  split
  · exact WriterLoop.noConfusion
  · exact WriterLoop.noConfusion

theorem writeFront_ne_returned (h : o.isOpen = true) : o.writeFront.writer ≠ .returned := by
  unfold writeFront
  split
  · exact loopHead_ne_returned h
  · exact WriterLoop.noConfusion

theorem loopHead_live {es : List OutboxEvent} (h : o.isOpen = !o.stopped_) : o.loopHead.Live es := by
  obtain ⟨w, wr, e⟩ := o.loopHead_frame
  refine ⟨by rw [e]; exact h, fun _ hst => loopHead_ne_returned ?_⟩
  rw [e] at hst
  rw [h, show o.stopped_ = false from hst]
  rfl

theorem writeFront_live {es : List OutboxEvent} (h : o.isOpen = !o.stopped_) :
    o.writeFront.Live es := by
  obtain ⟨w, wr, e⟩ := o.writeFront_frame
  refine ⟨by rw [e]; exact h, fun _ hst => writeFront_ne_returned ?_⟩
  rw [e] at hst
  rw [h, show o.stopped_ = false from hst]
  rfl

theorem stop_live {es : List OutboxEvent} (h : o.isOpen = !o.stopped_) : o.stop.Live es := by
  unfold stop
  split_ifs with hst
  · exact ⟨h, fun _ hst' => by simp [hst] at hst'⟩
  · exact ⟨rfl, fun _ hst' => by cases hst'⟩

theorem cancel_ne_returned {w : WriterLoop} (h : w ≠ .returned) : w.cancel ≠ .returned := by
  cases w with
  | waiting c => exact WriterLoop.noConfusion
  | _ => exact h

theorem step_live {es : List OutboxEvent} {e : OutboxEvent} {o' : Outbox} (h : o.Live es)
    (hs : o.step e = some o') : o'.Live (es ++ [e]) := by
  have hes : (∀ aborted, .writeFailed aborted ∉ es ++ [e]) → ∀ aborted, .writeFailed aborted ∉ es :=
    fun hno aborted hm => hno aborted (List.mem_append_left _ hm)
  cases e with
  | send msg =>
      obtain rfl : o.send msg = o' := by simpa [step] using hs
      exact ⟨h.isOpen, fun hno => h.writer (hes hno)⟩
  | deliver =>
      cases hp : o.posted with
      | nil => simp [step, hp] at hs
      | cons msg posted =>
          obtain rfl : ({ o with posted } : Outbox).deliver msg = o' := by simpa [step, hp] using hs
          unfold deliver
          split_ifs
          · exact ⟨h.isOpen, fun hno => h.writer (hes hno)⟩
          · exact ⟨h.isOpen, fun hno hst => cancel_ne_returned (h.writer (hes hno) hst)⟩
  | start =>
      obtain ⟨-, rfl⟩ : o.writer = .notStarted ∧ { o with writer := .spawned } = o' := by
        simpa [step] using hs
      exact ⟨h.isOpen, fun _ _ => WriterLoop.noConfusion⟩
  | launch =>
      obtain ⟨-, rfl⟩ : o.writer = .spawned ∧ o.loopHead = o' := by simpa [step] using hs
      exact loopHead_live h.isOpen
  | timer =>
      cases hw : o.writer with
      | waiting c =>
          obtain rfl : o.writeFront = o' := by simpa [step, hw] using hs
          exact writeFront_live h.isOpen
      | _ => simp [step, hw] at hs
  | writeDone =>
      obtain ⟨-, rfl⟩ : o.writer = .writing ∧
          ({ o with sendQueue_ := o.sendQueue_.tail } : Outbox).writeFront = o' := by
        simpa [step] using hs
      exact writeFront_live h.isOpen
  | writeFailed aborted =>
      obtain ⟨-, rfl⟩ : o.writer = .writing ∧ o.writeFailed aborted = o' := by
        simpa [step] using hs
      have hfail : ¬ ∀ aborted', .writeFailed aborted' ∉ es ++ [.writeFailed aborted] := fun hno =>
        hno aborted (by simp)
      refine ⟨?_, fun hno => absurd hno hfail⟩
      cases aborted with
      | true => exact h.isOpen
      | false =>
          have hlive : ({ o with writer := .returned } : Outbox).stop.Live es := stop_live h.isOpen
          exact hlive.isOpen
  | stop =>
      obtain rfl : o.stop = o' := by simpa [step] using hs
      exact stop_live h.isOpen

/-- The step that resumes the loop writes the first message that is left. -/
theorem resumed_writes {msg : Bytes} {queue : List Bytes} (ho : o.isOpen = true)
    (hq : o.unwritten = msg :: queue) {e : OutboxEvent} (he : o.writer.resumedBy = some e) :
    ∃ o', o.step e = some o' ∧ o'.written = o.written ++ [msg] ∧ o'.unwritten = queue := by
  unfold unwritten at hq
  cases hw : o.writer with
  | notStarted => simp [hw, WriterLoop.resumedBy] at he
  | returned => simp [hw, WriterLoop.resumedBy] at he
  | spawned =>
      obtain rfl : OutboxEvent.launch = e := by simpa [hw, WriterLoop.resumedBy] using he
      have hq : o.sendQueue_ = msg :: queue := by simpa [hw] using hq
      exact ⟨_, if_pos hw, by simp [loopHead, ho, hq, asyncWrite],
        by simp [loopHead, ho, hq, asyncWrite, unwritten]⟩
  | waiting c =>
      obtain rfl : OutboxEvent.timer = e := by simpa [hw, WriterLoop.resumedBy] using he
      have hq : o.sendQueue_ = msg :: queue := by simpa [hw] using hq
      exact ⟨o.writeFront, by simp [step, hw], by simp [writeFront, hq, asyncWrite],
        by simp [writeFront, hq, asyncWrite, unwritten]⟩
  | writing =>
      obtain rfl : OutboxEvent.writeDone = e := by simpa [hw, WriterLoop.resumedBy] using he
      have hq : o.sendQueue_.tail = msg :: queue := by simpa [hw] using hq
      exact ⟨_, if_pos hw, by simp [writeFront, hq, asyncWrite],
        by simp [writeFront, hq, asyncWrite, unwritten]⟩

end Outbox

theorem outbox_live {es : List OutboxEvent} {o : Outbox} (h : outboxMachine.run es = some o) :
    o.Live es :=
  outboxMachine.run_induction (P := fun es o => o.Live es)
    ⟨rfl, fun _ _ => WriterLoop.noConfusion⟩ (fun _ _ _ _ _ ih hs => Outbox.step_live ih hs) h

/-- **Output is in order, exactly once, and never asleep on a message.**  In every run, whatever
the order of sends, posted steps, wake-ups, completions and failures: the buffers given to
`async_write` are the delivered messages from the first one on, each at its own place; a buffer
in flight is still the front of the queue; when the loop waits and no cancellation is pending,
the queue is empty and everything delivered has been written; and until a stop the messages are
delivered in the order in which they were sent.

And the loop goes on.  Until it returns, what is delivered has been written or is left in the queue;
until a stop or a failed write it does not return; and while a message is left, the loop is not asleep,
and the step that resumes it writes the first one. -/
theorem writerLoop_exactly_once (es : List OutboxEvent) (o : Outbox)
    (h : outboxMachine.run es = some o) :
    o.written <+: o.delivered ∧ o.written.flatten <+: o.delivered.flatten ∧
      (o.writer = .writing → ∃ msg, o.sendQueue_.head? = some msg ∧ o.written.getLast? = some msg) ∧
      (o.writer = .waiting false → o.sendQueue_ = [] ∧ o.written = o.delivered) ∧
      (o.stopped_ = false → o.delivered ++ o.posted = sentMsgs es) ∧
      (o.writer ≠ .returned → o.delivered = o.written ++ o.unwritten) ∧
      ((∀ aborted, .writeFailed aborted ∉ es) → o.stopped_ = false → o.writer ≠ .returned) ∧
      (∀ msg queue, o.stopped_ = false → o.unwritten = msg :: queue → o.writer ≠ .waiting false ∧
        ∀ e, o.writer.resumedBy = some e → ∃ o', o.step e = some o' ∧
          o'.written = o.written ++ [msg] ∧ o'.unwritten = queue) := by
  have hi := outbox_inv ⟨es, h⟩
  have hr := outbox_live h
  have hp : o.written <+: o.delivered := hi.isMatched.isPrefix
  refine ⟨hp, ?_, ?_, ?_, outbox_posted h, hi.isMatched.delivered_eq, hr.writer, ?_⟩
  · obtain ⟨queue, hq⟩ := hp
    exact ⟨queue.flatten, by rw [← hq, List.flatten_append]⟩
  · intro hw
    have hm := hi.isMatched
    simp only [Outbox.Matched, hw] at hm
    obtain ⟨done, msg, queue, hq, hwr, -⟩ := hm
    exact ⟨msg, by rw [hq]; rfl, by rw [hwr, List.getLast?_concat]⟩
  · intro hw
    have hq := hi.awake hw
    have hm := hi.isMatched
    simp only [Outbox.Matched, hw, hq, List.append_nil] at hm
    exact ⟨hq, hm.symm⟩
  · intro msg queue hst hq
    refine ⟨fun hw => ?_, fun e he => Outbox.resumed_writes (by rw [hr.isOpen, hst]; rfl) hq he⟩
    simp [Outbox.unwritten, hw, hi.awake hw] at hq

/-- Two sends; the second message is delivered while the first one is in flight. -/
def twoSends : List OutboxEvent :=
  [.start, .launch, .send [1], .send [2], .deliver, .timer, .deliver]

def firstInFlight : Outbox := ⟨[], [[1], [2]], false, true, .writing, [[1], [2]], [[1]]⟩

theorem writerLoop_exactly_once_twoSends :
    outboxMachine.run twoSends = some firstInFlight ∧
      firstInFlight.written <+: firstInFlight.delivered :=
  ⟨by decide, (writerLoop_exactly_once twoSends firstInFlight (by decide)).1⟩

end BlackSwan
