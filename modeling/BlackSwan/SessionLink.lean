import BlackSwan.SessionEnd

/-! # Two sessions over one connection

The system that the sessions of `share/networkEx/session.h` are made for: a session at each end of
a connection, each with its program, its writer, its reader and its heartbeats, and between them
the bytes that one socket has taken and the other has not yet read.  The socket takes the buffers
of `async_write` in pieces of any size, the reads are of any size up to `BUF_SIZE`, the coroutines
of both ends take their steps in any order, and each end may fail or be stopped at any time.

`Carries a b wire left` is what holds of one direction: `left` are the messages of `a` that the
reader of `b` has not found, and what `b` has buffered, what is on the wire and what `a` still owes
are the bytes of exactly these. -/

namespace BlackSwan

open Wire Runs

variable {π μ : Type} {F : PacketFormat π μ}

structure SessionLink (F : PacketFormat π μ) where
  ends : Side → SessionEnd F
  /-- the bytes on the way to an end -/
  wire : Side → Bytes

inductive LinkEvent (F : PacketFormat π μ) where
  | own (x : Side) (e : EndEvent F)
  /-- the socket of `x` takes `n` bytes -/
  | transfer (x : Side) (n : ℕ)
  /-- the reader of `x` reads `n` bytes -/
  | read (x : Side) (n : ℕ)

namespace SessionLink

def set (x : Side) (s : SessionEnd F) (l : SessionLink F) : SessionLink F :=
  { l with ends := Function.update l.ends x s }

def step (onMsg : Side → OnMsg F) (l : SessionLink F) : LinkEvent F → Option (SessionLink F)
  | .own x e => ((l.ends x).step e).map fun s => l.set x s
  | .transfer x n => ((l.ends x).transfer n).map fun r =>
      { l.set x r.2 with wire := Function.update l.wire x.peer (l.wire x.peer ++ r.1) }
  | .read x n =>
      if (l.ends x).reader = .reading ∧ 0 < n ∧ n ≤ BUF_SIZE ∧ n ≤ (l.wire x).length then
        ((l.ends x).readRound (onMsg x) ((l.wire x).take n)).map fun s =>
          { l.set x s with wire := Function.update l.wire x ((l.wire x).drop n) }
      else none

end SessionLink

/-- A connection whose two ends have their sessions, which are not started. -/
def linkMachine (F : PacketFormat π μ) (onMsg : Side → OnMsg F) :
    Machine (SessionLink F) (LinkEvent F) where
  init := ⟨fun _ => ⟨outboxMachine.init, 0, .notStarted, [], [], []⟩, fun _ => []⟩
  step := SessionLink.step onMsg

/-! ### The sending side -/

/-- Where the writer goes on when it is resumed. -/
def Outbox.Resumes (o o' : Outbox) : Prop :=
  (o.isOpen = false ∧ o' = { o with writer := .returned }) ∨
  (o.sendQueue_ = [] ∧ o' = { o with writer := .waiting false }) ∨
  ∃ msg queue, o.sendQueue_ = msg :: queue ∧ o' = o.asyncWrite msg

theorem Outbox.loopHead_resumes (o : Outbox) : o.Resumes o.loopHead := by
  unfold loopHead
  split
  · next hopen => exact .inl ⟨by simpa using hopen, rfl⟩
  · split
    · next hq => exact .inr (.inl ⟨hq, rfl⟩)
    · next msg queue hq => exact .inr (.inr ⟨msg, queue, hq, rfl⟩)

theorem Outbox.writeFront_resumes (o : Outbox) : o.Resumes o.writeFront := by
  unfold writeFront
  split
  · exact o.loopHead_resumes
  · next msg queue hq => exact .inr (.inr ⟨msg, queue, hq, rfl⟩)

namespace SessionEnd

/-- What the sending side keeps. -/
structure Sound (x : SessionEnd F) : Prop where
  inv : x.outbox.Inv
  isOpen : x.outbox.isOpen = !x.outbox.stopped_
  started : x.reader = .notStarted ↔ x.outbox.writer = .notStarted
  writer_alive : x.outbox.stopped_ = false → x.outbox.writer ≠ .returned
  reader_alive : x.outbox.stopped_ = false → x.reader ≠ .returned
  front : x.outbox.stopped_ = false → x.outbox.writer = .writing →
    ∃ msg queue, x.outbox.sendQueue_ = msg :: queue ∧ x.transferred ≤ msg.length
  fresh : x.outbox.stopped_ = false → x.outbox.writer ≠ .writing → x.transferred = 0

/-- The bytes that the end has still to put on the wire. -/
def owed (x : SessionEnd F) : Bytes :=
  x.outbox.sendQueue_.flatten.drop x.transferred ++ x.outbox.posted.flatten

/-- A step that sends and receives nothing, and may stop the session. -/
structure SameWork (x x' : SessionEnd F) : Prop where
  said : x'.said = x.said
  got : x'.got = x.got
  recvBuffer_ : x'.recvBuffer_ = x.recvBuffer_
  stopped : x.outbox.stopped_ = true → x'.outbox.stopped_ = true
  owed : x'.outbox.stopped_ = false → x'.owed = x.owed

variable {x x' : SessionEnd F}

theorem Sound.transferred_le (h : x.Sound) (hs : x.outbox.stopped_ = false) :
    x.transferred ≤ x.outbox.sendQueue_.flatten.length := by
  by_cases hw : x.outbox.writer = .writing
  · obtain ⟨msg, queue, hq, hle⟩ := h.front hs hw
    rw [hq, List.flatten_cons, List.length_append]
    omega
  · rw [h.fresh hs hw]
    exact Nat.zero_le _

/-- The writer is resumed with nothing in flight. -/
theorem Sound.resume {o' : Outbox} (hopen : x.outbox.isOpen = !x.outbox.stopped_)
    (hread : x.reader ≠ .notStarted)
    (halive : x.outbox.stopped_ = false → x.reader ≠ .returned)
    (ht : x.outbox.stopped_ = false → x.transferred = 0) (hi : o'.Inv)
    (hres : x.outbox.Resumes o') : Sound { x with outbox := o' } := by
  rcases hres with ⟨hclosed, rfl⟩ | ⟨hq, rfl⟩ | ⟨msg, queue, hq, rfl⟩
  · refine ⟨hi, hopen, by simp [hread], fun hs => ?_, halive, fun _ hw => by simp at hw,
      fun hs _ => ht hs⟩
    rw [hclosed] at hopen
    simp [show x.outbox.stopped_ = false from hs] at hopen
  · exact ⟨hi, hopen, by simp [hread], fun _ => by simp, halive, fun _ hw => by simp at hw,
      fun hs _ => ht hs⟩
  · refine ⟨hi, hopen, by simp [hread, Outbox.asyncWrite], fun _ => by simp [Outbox.asyncWrite],
      halive, fun hs _ => ⟨msg, queue, hq, ?_⟩, fun _ hw => absurd rfl hw⟩
    show x.transferred ≤ msg.length
    rw [ht hs]
    exact Nat.zero_le _

theorem Outbox.Resumes.sameWork {o' : Outbox} (hres : x.outbox.Resumes o') :
    SameWork x { x with outbox := o' } := by
  rcases hres with ⟨-, rfl⟩ | ⟨-, rfl⟩ | ⟨msg, queue, -, rfl⟩
  · exact ⟨rfl, rfl, rfl, id, fun _ => rfl⟩
  · exact ⟨rfl, rfl, rfl, id, fun _ => rfl⟩
  · exact ⟨rfl, rfl, rfl, id, fun _ => rfl⟩

/-! ### The steps of one end -/

theorem Sound.say (h : x.Sound) (m : F.Msg) : (x.say m).Sound where
  inv := ⟨h.inv.isMatched, h.inv.awake⟩
  isOpen := h.isOpen
  started := h.started
  writer_alive := h.writer_alive
  reader_alive := h.reader_alive
  front := h.front
  fresh := h.fresh

theorem owed_say (m : F.Msg) (x : SessionEnd F) : (x.say m).owed = x.owed ++ F.packet m := by
  simp [owed, say, Outbox.send]

theorem stopped_stop (o : Outbox) : o.stop.stopped_ = true := by
  unfold Outbox.stop
  split_ifs with hs
  · exact hs
  · rfl

theorem Sound.of_stopped (hi : x.outbox.Inv) (hopen : x.outbox.isOpen = false)
    (hst : x.outbox.stopped_ = true)
    (hstart : x.reader = .notStarted ↔ x.outbox.writer = .notStarted) : x.Sound := by
  refine ⟨hi, by rw [hopen, hst]; rfl, hstart, ?_, ?_, ?_, ?_⟩ <;>
    · rw [hst]
      intro hs
      cases hs

theorem Sound.stop (h : x.Sound) : x.stop.Sound := by
  have hi : x.stop.outbox.Inv := Outbox.stop_inv h.inv
  have hst : x.stop.outbox.stopped_ = true := stopped_stop _
  by_cases hs : x.outbox.stopped_ = true
  · have heq : x.stop = x := by simp [SessionEnd.stop, Outbox.stop, hs]
    rw [heq]
    exact h
  · have heq : x.outbox.stop =
        { x.outbox with stopped_ := true, isOpen := false, writer := x.outbox.writer.cancel } := by
      simp [Outbox.stop, hs]
    refine .of_stopped hi (by simp [SessionEnd.stop, heq]) hst ?_
    show x.reader = .notStarted ↔ x.outbox.stop.writer = .notStarted
    rw [heq, h.started]
    cases x.outbox.writer <;> simp [WriterLoop.cancel]

theorem sameWork_stop (x : SessionEnd F) : SameWork x x.stop := by
  refine ⟨rfl, rfl, rfl, fun _ => stopped_stop _, fun hs => ?_⟩
  rw [show x.stop.outbox.stopped_ = true from stopped_stop _] at hs
  cases hs

/-- A posted message moves into the queue, behind what the socket has taken of its front. -/
theorem sameWork_deliver {msg : Bytes} {posted : List Bytes} (h : x.Sound)
    (hp : x.outbox.posted = msg :: posted) :
    SameWork x { x with outbox := ({ x.outbox with posted } : Outbox).deliver msg } := by
  unfold Outbox.deliver
  split_ifs with hs
  · refine ⟨rfl, rfl, rfl, id, fun hs' => ?_⟩
    rw [show x.outbox.stopped_ = false from hs'] at hs
    cases hs
  · have hs' : x.outbox.stopped_ = false := by simpa using hs
    refine ⟨rfl, rfl, rfl, id, fun _ => ?_⟩
    simp [SessionEnd.owed, hp, List.drop_append_of_le_length (h.transferred_le hs')]

theorem Sound.deliver {msg : Bytes} {posted : List Bytes} (h : x.Sound) :
    Sound { x with outbox := ({ x.outbox with posted } : Outbox).deliver msg } := by
  have hi : (({ x.outbox with posted } : Outbox).deliver msg).Inv :=
    Outbox.deliver_inv msg ⟨h.inv.isMatched, h.inv.awake⟩
  unfold Outbox.deliver at hi ⊢
  split_ifs at hi ⊢ with hs
  · exact ⟨hi, h.isOpen, h.started, h.writer_alive, h.reader_alive, h.front, h.fresh⟩
  · refine ⟨hi, h.isOpen, h.started.trans ?_, fun hs => ?_, h.reader_alive, fun hs hw => ?_,
      fun hs hw => h.fresh hs ?_⟩
    · cases x.outbox.writer <;> simp [WriterLoop.cancel]
    · have := h.writer_alive hs
      revert this
      cases x.outbox.writer <;> simp [WriterLoop.cancel]
    · have hw' : x.outbox.writer = .writing := by
        revert hw
        cases x.outbox.writer <;> simp [WriterLoop.cancel]
      obtain ⟨m, queue, hq, hle⟩ := h.front hs hw'
      exact ⟨m, queue ++ [msg], by simp [hq], hle⟩
    · intro hw'
      exact hw (by simp [hw', WriterLoop.cancel])

/-- A coroutine of the end is over with an error. -/
theorem Sound.failed (h : x.Sound) (reader : ReaderLoop) (writer : WriterLoop) (aborted : Bool)
    (hi : ({ x.outbox with writer } : Outbox).Inv)
    (hstart : reader = .notStarted ↔ writer = .notStarted)
    (hab : aborted = true → x.outbox.stopped_ = true) :
    let y : SessionEnd F := { x with outbox := { x.outbox with writer }, reader }
    (if aborted then y else y.stop).Sound ∧ SameWork x (if aborted then y else y.stop) := by
  intro y
  by_cases hst : x.outbox.stopped_ = true
  · have hy : y.stop = y := by simp [y, SessionEnd.stop, Outbox.stop, hst]
    have hsound : y.Sound :=
      .of_stopped hi (by show x.outbox.isOpen = false; rw [h.isOpen, hst]; rfl) hst hstart
    have hsame : SameWork x y := ⟨rfl, rfl, rfl, id, fun hs => by
      rw [show y.outbox.stopped_ = true from hst] at hs; cases hs⟩
    rw [hy, ite_self]
    exact ⟨hsound, hsame⟩
  · have ha : aborted = false := by simpa using fun ha => hst (hab ha)
    have hstop : y.stop.outbox.stopped_ = true := stopped_stop _
    have heq : y.stop = { y with outbox :=
        { y.outbox with stopped_ := true, isOpen := false, writer := writer.cancel } } := by
      simp [y, SessionEnd.stop, Outbox.stop, hst]
    rw [ha, if_neg (by simp)]
    constructor
    · refine .of_stopped (Outbox.stop_inv hi) (by rw [heq]) hstop ?_
      rw [heq]
      refine hstart.trans ?_
      cases writer <;> simp [WriterLoop.cancel]
    · refine ⟨rfl, rfl, rfl, fun _ => hstop, fun hs => ?_⟩
      rw [hstop] at hs
      cases hs

/-- The front of the queue is written. -/
theorem sameWork_writeDone {msg : Bytes} {queue : List Bytes} {o' : Outbox}
    (hq : x.outbox.sendQueue_ = msg :: queue) (ht : x.transferred = msg.length)
    (hres : ({ x.outbox with sendQueue_ := queue } : Outbox).Resumes o') :
    SameWork x { x with outbox := o', transferred := 0 } := by
  have howed : queue.flatten.drop 0 ++ x.outbox.posted.flatten = x.owed := by
    rw [SessionEnd.owed, hq, ht, List.flatten_cons, List.drop_left, List.drop_zero]
  rcases hres with ⟨-, rfl⟩ | ⟨-, rfl⟩ | ⟨m, q, -, rfl⟩ <;>
    exact ⟨rfl, rfl, rfl, id, fun _ => howed⟩

/-- **One step of an end** keeps it sound; it either sends a message or leaves the work as it is. -/
theorem step_spec (h : x.Sound) {e : EndEvent F} (hs : x.step e = some x') :
    x'.Sound ∧ ((∃ m, x' = x.say m) ∨ SameWork x x') := by
  cases e with
  | send m =>
      obtain rfl : x.say m = x' := by simpa [step] using hs
      exact ⟨h.say m, .inl ⟨m, rfl⟩⟩
  | sendPing =>
      obtain rfl : x.say F.pingMsg = x' := by simpa [step] using hs
      exact ⟨h.say F.pingMsg, .inl ⟨F.pingMsg, rfl⟩⟩
  | deliver =>
      cases hp : x.outbox.posted with
      | nil => simp [step, drive, Outbox.step, hp] at hs
      | cons msg posted =>
          obtain rfl : { x with outbox := ({ x.outbox with posted } : Outbox).deliver msg } = x' := by
            simpa [step, drive, Outbox.step, hp] using hs
          exact ⟨h.deliver, .inr (sameWork_deliver h hp)⟩
  | start =>
      obtain ⟨hr, hw, rfl⟩ : x.reader = .notStarted ∧ x.outbox.writer = .notStarted ∧
          { x with reader := .spawned, outbox := { x.outbox with writer := .spawned } } = x' := by
        simpa [step, drive, Outbox.step] using hs
      have hm := h.inv.isMatched
      simp only [Outbox.Matched, hw] at hm
      exact ⟨⟨⟨hm, fun hw => by cases hw⟩, h.isOpen, by simp, fun _ => by simp, fun _ => by simp,
        fun _ hw => absurd hw (by simp), fun hs _ => h.fresh hs (by simp [hw])⟩,
        .inr ⟨rfl, rfl, rfl, id, fun _ => rfl⟩⟩
  | launchReader =>
      obtain ⟨hr, rfl⟩ : x.reader = .spawned ∧ { x with reader := .reading } = x' := by
        simpa [step] using hs
      have hw : x.outbox.writer ≠ .notStarted := by simp [← h.started, hr]
      exact ⟨⟨h.inv, h.isOpen, by simp [hw], h.writer_alive, fun _ => by simp, h.front, h.fresh⟩,
        .inr ⟨rfl, rfl, rfl, id, fun _ => rfl⟩⟩
  | launchWriter =>
      obtain ⟨hw, rfl⟩ : x.outbox.writer = .spawned ∧
          { x with outbox := x.outbox.loopHead } = x' := by
        simpa [step, drive, Outbox.step] using hs
      have hm := h.inv.isMatched
      simp only [Outbox.Matched, hw] at hm
      exact ⟨.resume h.isOpen (by simp [h.started, hw]) h.reader_alive
        (fun hs => h.fresh hs (by simp [hw])) (Outbox.loopHead_inv hm) x.outbox.loopHead_resumes,
        .inr (Outbox.Resumes.sameWork x.outbox.loopHead_resumes)⟩
  | timer =>
      obtain ⟨hw, rfl⟩ : x.outbox.writer = .waiting true ∧
          { x with outbox := x.outbox.writeFront } = x' := by
        by_cases hw : x.outbox.writer = .waiting true
        · exact ⟨hw, by simpa [step, drive, Outbox.step, hw] using hs⟩
        · simp [step, hw] at hs
      have hm := h.inv.isMatched
      simp only [Outbox.Matched, hw] at hm
      exact ⟨.resume h.isOpen (by simp [h.started, hw]) h.reader_alive
        (fun hs => h.fresh hs (by simp [hw])) (Outbox.writeFront_inv hm)
        x.outbox.writeFront_resumes, .inr (Outbox.Resumes.sameWork x.outbox.writeFront_resumes)⟩
  | writeDone =>
      cases hq : x.outbox.sendQueue_ with
      | nil => simp [step, hq] at hs
      | cons msg queue =>
          obtain ⟨ht, hw, rfl⟩ : msg.length = x.transferred ∧ x.outbox.writer = .writing ∧
              { x with
                outbox := ({ x.outbox with sendQueue_ := queue } : Outbox).writeFront
                transferred := 0 } = x' := by
            simpa [step, drive, Outbox.step, hq] using hs
          have hres := ({ x.outbox with sendQueue_ := queue } : Outbox).writeFront_resumes
          have hi : (({ x.outbox with sendQueue_ := queue } : Outbox).writeFront).Inv := by
            have hstep : x.outbox.step .writeDone =
                some ({ x.outbox with sendQueue_ := x.outbox.sendQueue_.tail } : Outbox).writeFront := by
              rw [Outbox.step, if_pos hw]
            simpa only [hq, List.tail_cons] using Outbox.step_inv h.inv hstep
          exact ⟨Sound.resume
            (x := { x with outbox := { x.outbox with sendQueue_ := queue }, transferred := 0 })
            h.isOpen (by simp [h.started, hw]) h.reader_alive (fun _ => rfl) hi hres,
            .inr (sameWork_writeDone hq ht.symm hres)⟩
  | writeFailed aborted =>
      obtain ⟨hab, hw, rfl⟩ : (aborted = true → x.outbox.stopped_ = true) ∧
          x.outbox.writer = .writing ∧ { x with outbox := x.outbox.writeFailed aborted } = x' := by
        cases aborted <;> simpa [step, drive, Outbox.step] using hs
      have hf := h.failed x.reader .returned aborted
        ⟨h.inv.isMatched.isPrefix, fun hw => by cases hw⟩ (by simp [h.started, hw]) hab
      have heq : { x with outbox := x.outbox.writeFailed aborted } = if aborted then
          { x with outbox := { x.outbox with writer := .returned } } else
          ({ x with outbox := { x.outbox with writer := .returned } } : SessionEnd F).stop := by
        cases aborted <;> rfl
      rw [heq]
      exact ⟨hf.1, .inr hf.2⟩
  | readFailed aborted =>
      obtain ⟨⟨hr, hab⟩, rfl⟩ : (x.reader = .reading ∧ (aborted = true → x.outbox.stopped_ = true)) ∧
          x.readFailed aborted = x' := by
        simpa [step] using hs
      have hf := h.failed .returned x.outbox.writer aborted
        h.inv (by simp [← h.started, hr]) hab
      exact ⟨hf.1, .inr hf.2⟩
  | stop =>
      obtain rfl : x.stop = x' := by simpa [step] using hs
      exact ⟨h.stop, .inr (sameWork_stop x)⟩

theorem transfer_cases {n : ℕ} {bytes : Bytes} (hs : x.transfer n = some (bytes, x')) :
    ∃ msg queue, x.outbox.sendQueue_ = msg :: queue ∧ x.outbox.writer = .writing ∧
      x.outbox.isOpen = true ∧ 0 < n ∧ x.transferred + n ≤ msg.length ∧
      (msg.drop x.transferred).take n = bytes ∧
      { x with transferred := x.transferred + n } = x' := by
  unfold transfer at hs
  split at hs
  · cases hs
  · next msg queue hq =>
    obtain ⟨⟨hw, hopen, hpos, hle⟩, hbytes, hx'⟩ := by simpa using hs
    exact ⟨msg, queue, hq, hw, hopen, hpos, hle, hbytes, hx'⟩

theorem Sound.transfer {n : ℕ} {bytes : Bytes} (h : x.Sound)
    (hs : x.transfer n = some (bytes, x')) : x'.Sound := by
  obtain ⟨msg, queue, hq, hw, -, -, hle, -, rfl⟩ := transfer_cases hs
  exact ⟨h.inv, h.isOpen, h.started, h.writer_alive, h.reader_alive,
    fun _ _ => ⟨msg, queue, hq, hle⟩, fun _ hw' => absurd hw hw'⟩

/-! ### The receiving side -/

/-- What the receive loop does with a message. -/
def receive (onMsg : OnMsg F) (x : SessionEnd F) (m : μ) : SessionEnd F :=
  if F.msgId m = CS_HeartBeat_Req then x.say F.pongMsg
  else if F.msgId m = CS_HeartBeat_Ack then x
  else x.dispatch onMsg m

theorem onPacket_eq_absorb (onMsg : OnMsg F) :
    onPacket F.packetId (say F.pongMsg) (fun p x => .ok () (x.dispatch onMsg (F.code.view p))) =
      F.code.absorb (receive onMsg) := by
  funext p x
  simp only [onPacket, FrameCode.absorb, receive, F.msgId_view]
  split_ifs <;> rfl

/-- A round of the reader handles the messages that are whole, one after the other. -/
theorem readRound_eq (onMsg : OnMsg F) (buf : Bytes) (x : SessionEnd F) :
    x.readRound onMsg buf = some
      { ((F.decoder.frames (x.recvBuffer_ ++ buf)).map F.code.view).foldl (receive onMsg) x with
        recvBuffer_ := F.decoder.rest (x.recvBuffer_ ++ buf) } := by
  rw [readRound, dataProc, readerRound_recvLoop, onPacket_eq_absorb, F.code.feed_absorb]

/-- What sending, stopping and being given a message keep is kept by a round. -/
theorem foldl_receive_induction {P : SessionEnd F → Prop} (hsay : ∀ m y, P y → P (y.say m))
    (hstop : ∀ y, P y → P y.stop) (hgot : ∀ got y, P y → P { y with got }) (onMsg : OnMsg F) :
    ∀ (ms : List μ) (y : SessionEnd F), P y → P (ms.foldl (receive onMsg) y) := by
  have hobey : ∀ (os : List (Order F)) (y : SessionEnd F), P y → P (os.foldl obey y) := by
    intro os
    induction os with
    | nil => exact fun y hy => hy
    | cons o os ih =>
        intro y hy
        refine ih _ ?_
        cases o with
        | send m => exact hsay m y hy
        | stop => exact hstop y hy
  intro ms
  induction ms with
  | nil => exact fun y hy => hy
  | cons m ms ih =>
      intro y hy
      refine ih _ ?_
      unfold receive
      split_ifs
      · exact hsay _ y hy
      · exact hy
      · exact hobey _ _ (hgot _ y hy)

theorem foldl_obey_got (os : List (Order F)) (x : SessionEnd F) : (os.foldl obey x).got = x.got := by
  induction os generalizing x with
  | nil => rfl
  | cons o os ih => rw [List.foldl_cons, ih]; cases o <;> rfl

/-- The program is given the messages that are no heartbeats, in order. -/
theorem foldl_receive_got (onMsg : OnMsg F) (ms : List μ) (x : SessionEnd F) :
    (ms.foldl (receive onMsg) x).got = x.got ++ ms.filter fun m => !isHeartBeat (F.msgId m) := by
  induction ms generalizing x with
  | nil => simp
  | cons m ms ih =>
      rw [List.foldl_cons, ih, receive]
      by_cases h1 : F.msgId m = CS_HeartBeat_Req
      · simp [h1, isHeartBeat, say]
      · by_cases h2 : F.msgId m = CS_HeartBeat_Ack
        · rw [if_neg h1, if_pos h2]
          simp [h2, isHeartBeat]
        · have hb : isHeartBeat (F.msgId m) = false := by simp [isHeartBeat, h1, h2]
          rw [if_neg h1, if_neg h2, dispatch, foldl_obey_got, List.filter_cons, hb]
          simp

/-! ### One direction -/

/-- `left` are the messages of `a` that the reader of `b` has not found. -/
structure Carries (a b : SessionEnd F) (wire : Bytes) (left : List F.Msg) : Prop where
  split : ∃ found, a.said = found ++ left ∧ b.got = F.program found
  piped : ∃ tail, F.code.Piped BUF_SIZE (left.map Subtype.val) b.recvBuffer_ (wire ++ tail) ∧
    (a.outbox.stopped_ = false → tail = a.owed)

namespace Carries

variable {a b a' b' : SessionEnd F} {wire : Bytes} {left : List F.Msg}

theorem sender (h : Carries a b wire left) (hs : SameWork a a') : Carries a' b wire left where
  split := by rw [hs.said]; exact h.split
  piped := by
    obtain ⟨tail, hp, howed⟩ := h.piped
    refine ⟨tail, hp, fun hst => ?_⟩
    rw [hs.owed hst]
    refine howed ?_
    by_contra hne
    rw [hs.stopped (by simpa using hne)] at hst
    cases hst

theorem receiver (h : Carries a b wire left) (hgot : b'.got = b.got)
    (hbuf : b'.recvBuffer_ = b.recvBuffer_) : Carries a b' wire left :=
  ⟨by rw [hgot]; exact h.split, by rw [hbuf]; exact h.piped⟩

theorem say_receiver (h : Carries a b wire left) (m : F.Msg) : Carries a (b.say m) wire left :=
  h.receiver rfl rfl

theorem say (h : Carries a b wire left) (m : F.Msg) : Carries (a.say m) b wire (left ++ [m]) where
  split := by
    obtain ⟨found, hsaid, hgot⟩ := h.split
    exact ⟨found, by rw [SessionEnd.say, hsaid, List.append_assoc], hgot⟩
  piped := by
    obtain ⟨tail, hp, howed⟩ := h.piped
    refine ⟨tail ++ F.packet m, ?_, fun hst => by rw [owed_say, howed hst]⟩
    rw [← List.append_assoc, List.map_append]
    exact hp.push m.2

/-- Bytes move from the sending side to the wire. -/
theorem transfer {n : ℕ} {bytes : Bytes} (h : Carries a b wire left) (ha : a.Sound)
    (hs : a.transfer n = some (bytes, a')) : Carries a' b (wire ++ bytes) left := by
  obtain ⟨msg, queue, hq, -, hopen, -, hle, rfl, rfl⟩ := transfer_cases hs
  obtain ⟨tail, hp, howed⟩ := h.piped
  have hst : a.outbox.stopped_ = false := by simpa [ha.isOpen] using hopen
  refine ⟨h.split, _, ?_, fun _ => rfl⟩
  have htail : (msg.drop a.transferred).take n ++
      SessionEnd.owed { a with transferred := a.transferred + n } = tail := by
    rw [howed hst]
    simp only [SessionEnd.owed, hq, List.flatten_cons]
    rw [List.drop_append_of_le_length (by omega), List.drop_append_of_le_length (by omega),
      ← List.append_assoc, ← List.append_assoc, ← List.drop_drop, List.take_append_drop]
  rw [List.append_assoc, htail]
  exact hp

/-- A read finds the messages that have become whole. -/
theorem read {n : ℕ} (h : Carries a b wire left) (hn : n ≤ BUF_SIZE) :
    ∃ done left', left = done ++ left' ∧
      (F.decoder.frames (b.recvBuffer_ ++ wire.take n)).map F.code.view = done.map Subtype.val ∧
      ∀ b' : SessionEnd F, b'.got = b.got ++ F.program done →
        b'.recvBuffer_ = F.decoder.rest (b.recvBuffer_ ++ wire.take n) →
        Carries a b' (wire.drop n) left' := by
  obtain ⟨tail, hp, howed⟩ := h.piped
  obtain ⟨found, hsaid, hgot⟩ := h.split
  rw [← List.take_append_drop n wire, List.append_assoc] at hp
  obtain ⟨done, left', hleft, hframes, hp'⟩ := hp.read ((List.length_take_le n wire).trans hn)
  obtain ⟨done, left', rfl, rfl, rfl⟩ := List.map_eq_append_iff.mp hleft
  refine ⟨done, left', rfl, hframes, fun b' hgot' hbuf' => ?_⟩
  refine ⟨⟨found ++ done, by rw [hsaid, List.append_assoc], ?_⟩, tail, ?_, howed⟩
  · rw [hgot', hgot, F.program_append]
  · rw [hbuf']
    exact hp'

end Carries

/-! ### A round of the reader -/

/-- What a round of the reader does, in both directions. -/
theorem readRound_spec {onMsg : OnMsg F} {n : ℕ} {x x' y : SessionEnd F} {toX toY : Bytes}
    {left out : List F.Msg} (hx : x.Sound) (hin : Carries y x toX left)
    (hout : Carries x y toY out) (hn : n ≤ BUF_SIZE)
    (hs : x.readRound onMsg (toX.take n) = some x') :
    x'.Sound ∧ (∃ left', Carries y x' (toX.drop n) left') ∧ ∃ out', Carries x' y toY out' := by
  rw [readRound_eq] at hs
  obtain ⟨done, left', -, hframes, hread⟩ := hin.read hn
  obtain rfl := (Option.some.inj hs).symm
  rw [hframes]
  have hkeep := foldl_receive_induction (P := fun z => z.Sound ∧ ∃ out', Carries z y toY out')
    (fun m z ⟨hz, out', hc⟩ => ⟨hz.say m, out' ++ [m], hc.say m⟩)
    (fun z ⟨hz, out', hc⟩ => ⟨hz.stop, out', hc.sender (sameWork_stop z)⟩)
    (fun got z ⟨hz, out', hc⟩ => ⟨⟨hz.inv, hz.isOpen, hz.started, hz.writer_alive, hz.reader_alive,
      hz.front, hz.fresh⟩, out', ⟨hc.split, hc.piped⟩⟩)
    onMsg (done.map Subtype.val) x ⟨hx, out, hout⟩
  obtain ⟨hz, out', hc⟩ := hkeep
  refine ⟨⟨hz.inv, hz.isOpen, hz.started, hz.writer_alive, hz.reader_alive, hz.front, hz.fresh⟩,
    ⟨left', hread _ ?_ rfl⟩, out', ⟨hc.split, hc.piped⟩⟩
  exact foldl_receive_got onMsg _ x

end SessionEnd

/-! ### The link -/

namespace SessionLink

variable {l l' : SessionLink F} {onMsg : Side → OnMsg F}

/-- Both ends are sound and each direction carries its messages. -/
def Inv (l : SessionLink F) : Prop :=
  ∀ x, (l.ends x).Sound ∧ ∃ left, SessionEnd.Carries (l.ends x) (l.ends x.peer) (l.wire x.peer) left

/-- The invariant after a step of the end `x`, from what it says in the two directions. -/
theorem Inv.update (h : l.Inv) {x : Side} (hx : (l'.ends x).Sound)
    (hpeer : l'.ends x.peer = l.ends x.peer)
    (hout : ∃ left, SessionEnd.Carries (l'.ends x) (l.ends x.peer) (l'.wire x.peer) left)
    (hin : ∃ left, SessionEnd.Carries (l.ends x.peer) (l'.ends x) (l'.wire x) left) : l'.Inv := by
  intro y
  obtain rfl | rfl := Side.eq_or_eq_peer x y
  · exact ⟨hx, by rw [hpeer]; exact hout⟩
  · rw [hpeer, Side.peer_peer]
    exact ⟨(h x.peer).1, hin⟩

theorem step_inv (h : l.Inv) {e : LinkEvent F} (hs : l.step onMsg e = some l') : l'.Inv := by
  cases e with
  | own x e =>
      obtain ⟨s, hstep, rfl⟩ := Option.map_eq_some_iff.mp hs
      obtain ⟨hx, left, hout⟩ := h x
      have hin := (h x.peer).2
      rw [Side.peer_peer] at hin
      obtain ⟨left', hin⟩ := hin
      obtain ⟨hsound, hcase⟩ := SessionEnd.step_spec hx hstep
      refine h.update (x := x) (by simpa [set] using hsound) (by simp [set]) ?_ ?_
      · rcases hcase with ⟨m, rfl⟩ | hsame
        · exact ⟨left ++ [m], by simpa [set] using hout.say m⟩
        · exact ⟨left, by simpa [set] using hout.sender hsame⟩
      · rcases hcase with ⟨m, rfl⟩ | hsame
        · exact ⟨left', by simpa [set] using hin.say_receiver m⟩
        · exact ⟨left', by simpa [set] using hin.receiver hsame.got hsame.recvBuffer_⟩
  | transfer x n =>
      obtain ⟨⟨bytes, s⟩, htrans, rfl⟩ := Option.map_eq_some_iff.mp hs
      obtain ⟨hx, left, hout⟩ := h x
      have hin := (h x.peer).2
      rw [Side.peer_peer] at hin
      obtain ⟨left', hin⟩ := hin
      refine h.update (x := x) ?_ (by simp [set]) ⟨left, ?_⟩ ⟨left', ?_⟩
      · simpa [set] using hx.transfer htrans
      · simpa [set] using hout.transfer hx htrans
      · obtain ⟨-, -, -, -, -, -, -, -, rfl⟩ := SessionEnd.transfer_cases htrans
        have hne : x ≠ x.peer := (Side.peer_ne x).symm
        have hin' : SessionEnd.Carries (l.ends x.peer)
            { l.ends x with transferred := (l.ends x).transferred + n } (l.wire x) left' :=
          hin.receiver rfl rfl
        simpa [set, hne] using hin'
  | read x n =>
      obtain ⟨⟨-, -, hn, -⟩, s, hround, rfl⟩ : _ ∧ ∃ s, (l.ends x).readRound (onMsg x)
          ((l.wire x).take n) = some s ∧ _ = l' := by simpa [step] using hs
      obtain ⟨hx, left, hout⟩ := h x
      have hin := (h x.peer).2
      rw [Side.peer_peer] at hin
      obtain ⟨left', hin⟩ := hin
      obtain ⟨hsound, hin', hout'⟩ := SessionEnd.readRound_spec hx hin hout hn hround
      refine h.update (x := x) ?_ (by simp [set]) ?_ ?_
      · simpa [set] using hsound
      · simpa [set] using hout'
      · simpa [set] using hin'

theorem Inv.got_front (h : l.Inv) (x : Side) :
    (l.ends x).got <+: F.program (l.ends x.peer).said := by
  obtain ⟨left, ⟨found, hsaid, hgot⟩, -⟩ := (h x.peer).2
  rw [Side.peer_peer] at hgot
  rw [hsaid, hgot, F.program_append]
  exact List.prefix_append _ _

theorem inv_init (F : PacketFormat π μ) (onMsg : Side → OnMsg F) : (linkMachine F onMsg).init.Inv := by
  intro x
  refine ⟨⟨⟨rfl, fun hw => by cases hw⟩, rfl, by simp [linkMachine, outboxMachine], ?_, ?_, ?_, ?_⟩,
    [], ⟨[], rfl, rfl⟩, [], .nil, fun _ => rfl⟩
  · exact fun _ => by simp [linkMachine, outboxMachine]
  · exact fun _ => by simp [linkMachine]
  · exact fun _ hw => by simp [linkMachine, outboxMachine] at hw
  · exact fun _ _ => rfl

end SessionLink

theorem link_inv {onMsg : Side → OnMsg F} {l : SessionLink F}
    (h : (linkMachine F onMsg).Reachable l) : l.Inv :=
  (linkMachine F onMsg).invariant (SessionLink.inv_init F onMsg)
    (fun _ _ _ hi => SessionLink.step_inv hi) h

/-- **A connection delivers in order and at most once.**  For every packet format, all programs at
the two ends and every run, whatever the pieces that the sockets take, the sizes of the reads, the
order of the coroutines, the heartbeats in between, and with failures and stops of either end at
any point: the messages that the program at one end has been given are, one by one and from the
first on, the messages that the other end has sent, without its heartbeats. -/
theorem link_delivers_in_order (F : PacketFormat π μ) (onMsg : Side → OnMsg F)
    (es : List (LinkEvent F)) (l : SessionLink F) (h : (linkMachine F onMsg).run es = some l)
    (x : Side) : (l.ends x).got <+: F.program (l.ends x.peer).said :=
  (link_inv ⟨es, h⟩).got_front x

/-- A message of a link between servers. -/
def helloMsg : innerFormat.Msg := ⟨(1, 5, [7]), fits_inner (by decide)⟩

/-- A program that does nothing with what it is given. -/
def silent : Side → OnMsg innerFormat := fun _ _ _ => []

/-- A message in two pieces, and the first half of a heartbeat behind it. -/
def helloRun : List (LinkEvent innerFormat) :=
  [.own .client .start, .own .client .launchWriter, .own .client (.send helloMsg),
    .own .client .deliver, .own .client .timer, .transfer .client 10, .own .server .start,
    .own .server .launchReader, .read .server 10, .transfer .client 7, .own .client .sendPing,
    .own .client .deliver, .own .client .writeDone, .transfer .client 9, .read .server 16]

theorem link_delivers_in_order_hello : ∃ l, (linkMachine innerFormat silent).run helloRun = some l ∧
    (l.ends .server).got = [(1, 5, [7])] ∧
      (l.ends .server).got <+: innerFormat.program (l.ends .client).said := by
  have hgot : ((linkMachine innerFormat silent).run helloRun).map (fun l => (l.ends .server).got) =
      some [(1, 5, [7])] := by decide +kernel
  obtain ⟨l, hl, hgot⟩ := Option.map_eq_some_iff.mp hgot
  exact ⟨l, hl, hgot, link_delivers_in_order innerFormat silent helloRun l hl .server⟩

end BlackSwan
