import BlackSwan.Reader
import BlackSwan.Runs
import Mathlib.Logic.Function.Basic

/-! # Heartbeats

The two sessions of a connection (`share/networkEx/session.h`), each with its `heartbeatLoop`, and
the clock that both read, in seconds (`xtime::time`).

* A message is a packet, named by its id.  `send` queues it, `writerLoop` writes the front one and
  stores the time when its `async_write` completes, `readerLoop` stores the time of every read and
  passes on the messages that are complete.
* Any message may be sent at any time, and within a second everything may happen in any order.
* What the clock waits for is the health of the link: a timer that is due runs in its second, an
  `async_write` completes in the second in which its last byte is out, and while an end has bytes
  that the peer has not read, the peer reads again within `delay` seconds of its last read, or of
  the `send` when there was nothing to read.  This asks for less than that the peer reads all bytes
  within `delay` seconds of their writing, when only unread bytes can hold up a write: the messages
  of a long queue may take as long as they need.

A loop that finds something sent less than an interval ago does not ping, so up to `2 * interval - 1`
seconds pass from a read to the next message.  That is the invariant (`Carried`): with something on
the way, the next read is due so long and the delay after the last one, and with nothing on the way,
the next ping comes in time for that.

What the clock waits for can always happen (`exists_next_second`), so the seconds go on. -/

namespace BlackSwan

open Runs

structure HeartbeatSession where
  last_recv_time_ : ℤ
  last_send_time_ : ℤ
  stopped_ : Bool
  heartbeat_started_ : Bool
  /-- when the wait of `heartbeatLoop` is over -/
  heartbeatTimer_ : Option ℤ
  sendQueue_ : List UInt32
  /-- the front of `sendQueue_` is on the wire, and its `async_write` has not completed -/
  transferred : Bool
  /-- what is on the wire and not read by the peer -/
  wire : List UInt32
deriving DecidableEq, Repr

namespace HeartbeatSession

/-- The constructor. -/
def create (now : ℤ) : HeartbeatSession := ⟨now, now, false, false, none, [], false, []⟩

/-- `send` with `deliver`. -/
def send (id : UInt32) (s : HeartbeatSession) : HeartbeatSession :=
  if s.stopped_ then s else { s with sendQueue_ := s.sendQueue_ ++ [id] }

/-- `sendPing`, and `sendInnerPing`. -/
def sendPing (s : HeartbeatSession) : HeartbeatSession := s.send CS_HeartBeat_Req

/-- `replyPing`, and `replyInnerPing`. -/
def replyPing (s : HeartbeatSession) : HeartbeatSession := s.send CS_HeartBeat_Ack

def stop (s : HeartbeatSession) : HeartbeatSession :=
  if s.stopped_ then s else { s with stopped_ := true, heartbeatTimer_ := none }

/-- `startHeartbeat`, with `sendPing` to send. -/
def startHeartbeat (now interval timeout : ℤ) (s : HeartbeatSession) : HeartbeatSession :=
  if interval ≤ 0 ∨ timeout ≤ 0 ∨ s.heartbeat_started_ then s
  else { s with heartbeat_started_ := true, heartbeatTimer_ := some (now + interval) }

/-- A round of `heartbeatLoop`, from the end of its wait to the next one. -/
def heartbeatLoop (now interval timeout : ℤ) (s : HeartbeatSession) : HeartbeatSession :=
  if s.stopped_ then { s with heartbeatTimer_ := none }
  else if now - s.last_recv_time_ ≥ timeout then s.stop
  else
    { (if now - s.last_send_time_ ≥ interval then s.sendPing else s) with
      heartbeatTimer_ := some (now + interval) }

/-- The data callback, on one message. -/
def dataProc (s : HeartbeatSession) (id : UInt32) : HeartbeatSession :=
  if id = CS_HeartBeat_Req then s.replyPing else s

/-- A round of `readerLoop`, when a read completes the messages `msgs`. -/
def readerLoop (now : ℤ) (msgs : List UInt32) (s : HeartbeatSession) : HeartbeatSession :=
  msgs.foldl dataProc { s with last_recv_time_ := now }

/-- The last byte of the front message is out. -/
def transfer (s : HeartbeatSession) : Option HeartbeatSession :=
  if s.stopped_ || s.transferred then none else
  match s.sendQueue_ with
  | [] => none
  | id :: _ => some { s with transferred := true, wire := s.wire ++ [id] }

/-- `writerLoop` goes on after `async_write`. -/
def writerLoop (now : ℤ) (s : HeartbeatSession) : Option HeartbeatSession :=
  if s.stopped_ || !s.transferred then none
  else some { s with last_send_time_ := now, sendQueue_ := s.sendQueue_.tail, transferred := false }

/-- The messages that are not on the wire. -/
def unsent (s : HeartbeatSession) : List UInt32 :=
  if s.transferred then s.sendQueue_.tail else s.sendQueue_

/-- The messages that the peer has not read, the first one first. -/
def unread (s : HeartbeatSession) : List UInt32 := s.wire ++ s.unsent

/-- Nothing of this end has to happen before the next second, and the peer need not read yet. -/
def settled (now due : ℤ) (s : HeartbeatSession) : Bool :=
  s.stopped_ || (s.heartbeatTimer_ != some now && !s.transferred &&
    (s.unread.isEmpty || decide (now < due)))

end HeartbeatSession

/-! ### The link -/

/-- The two ends of the connection. -/
inductive Side where
  | client
  | server
deriving DecidableEq, Repr

def Side.peer : Side → Side
  | .client => .server
  | .server => .client

@[simp] theorem Side.peer_peer (e : Side) : e.peer.peer = e := by cases e <;> rfl

@[simp] theorem Side.peer_ne (e : Side) : e.peer ≠ e := by cases e <;> decide

theorem Side.eq_or_eq_peer (e e' : Side) : e' = e ∨ e' = e.peer := by
  cases e <;> cases e' <;> decide

structure HeartbeatLink where
  now : ℤ
  ends : Side → HeartbeatSession
  /-- the last second in which the peer of the end reads again, if it has something to read -/
  due : Side → ℤ

/-- Both ends call `startHeartbeat` with `interval` and `timeout` in the second `created`. -/
structure HeartbeatParams where
  created : ℤ
  interval : ℤ
  timeout : ℤ
  delay : ℕ

inductive HeartbeatEvent where
  /-- the next second begins -/
  | clock
  | tick (e : Side)
  /-- other traffic -/
  | send (e : Side) (id : UInt32)
  | transferred (e : Side)
  | written (e : Side)
  /-- a read of the end `e` brings bytes, with the ends of the next `k` messages -/
  | read (e : Side) (k : ℕ)
deriving DecidableEq, Repr

namespace HeartbeatLink

def set (e : Side) (s : HeartbeatSession) (l : HeartbeatLink) : HeartbeatLink :=
  { l with ends := Function.update l.ends e s }

def nextSecond (C : HeartbeatParams) (l : HeartbeatLink) : HeartbeatLink :=
  { l with
    now := l.now + 1
    due := fun e => if (l.ends e).unread.isEmpty then l.now + 1 + C.delay else l.due e }

def step (C : HeartbeatParams) (l : HeartbeatLink) : HeartbeatEvent → Option HeartbeatLink
  | .clock =>
      if (l.ends .client).settled l.now (l.due .client) &&
          (l.ends .server).settled l.now (l.due .server) then
        some (l.nextSecond C)
      else none
  | .tick e =>
      if (l.ends e).heartbeatTimer_ = some l.now then
        some (l.set e ((l.ends e).heartbeatLoop l.now C.interval C.timeout))
      else none
  | .send e id => some (l.set e ((l.ends e).send id))
  | .transferred e => (l.ends e).transfer.map fun s => l.set e s
  | .written e => ((l.ends e).writerLoop l.now).map fun s => l.set e s
  | .read e k =>
      let p := l.ends e.peer
      if (l.ends e).stopped_ || p.unread.isEmpty || k > p.wire.length then none
      else some { (l.set e.peer { p with wire := p.wire.drop k }).set e
          ((l.ends e).readerLoop l.now (p.wire.take k)) with
        due := Function.update l.due e.peer (l.now + C.delay) }

end HeartbeatLink

def heartbeatMachine (C : HeartbeatParams) : Machine HeartbeatLink HeartbeatEvent where
  init := {
    now := C.created
    ends := fun _ =>
      (HeartbeatSession.create C.created).startHeartbeat C.created C.interval C.timeout
    due := fun _ => C.created + C.delay }
  step := HeartbeatLink.step C

/-! ### One direction -/

namespace HeartbeatSession

@[simp] theorem send_last_recv (id : UInt32) (s : HeartbeatSession) :
    (s.send id).last_recv_time_ = s.last_recv_time_ := by
  unfold send
  split_ifs <;> rfl

@[simp] theorem stop_last_recv (s : HeartbeatSession) :
    s.stop.last_recv_time_ = s.last_recv_time_ := by
  unfold stop
  split_ifs <;> rfl

@[simp] theorem heartbeatLoop_last_recv (now interval timeout : ℤ) (s : HeartbeatSession) :
    (s.heartbeatLoop now interval timeout).last_recv_time_ = s.last_recv_time_ := by
  unfold heartbeatLoop sendPing
  split_ifs <;> simp

@[simp] theorem readerLoop_last_recv (now : ℤ) (msgs : List UInt32) (s : HeartbeatSession) :
    (s.readerLoop now msgs).last_recv_time_ = now := by
  have hfold : ∀ (msgs : List UInt32) (s : HeartbeatSession),
      (msgs.foldl dataProc s).last_recv_time_ = s.last_recv_time_ := by
    intro msgs
    induction msgs with
    | nil => exact fun _ => rfl
    | cons id msgs ih =>
        intro s
        refine (ih _).trans ?_
        unfold dataProc replyPing
        split_ifs
        · exact send_last_recv _ s
        · rfl
  exact hfold msgs _

variable {C : HeartbeatParams} {now r due : ℤ} {p p' : HeartbeatSession}

theorem transfer_cases (h : p.transfer = some p') :
    ∃ id rest, p.transferred = false ∧ p.sendQueue_ = id :: rest ∧
      p' = { p with transferred := true, wire := p.wire ++ [id] } := by
  unfold transfer at h
  split_ifs at h with hguard
  have htr : p.transferred = false := (Bool.or_eq_false_iff.mp (by simpa using hguard)).2
  cases hq : p.sendQueue_ with
  | nil => simp [hq] at h
  | cons id rest => exact ⟨id, rest, htr, rfl, by simpa [hq] using h.symm⟩

theorem writerLoop_cases (h : p.writerLoop now = some p') :
    p.transferred = true ∧ p' = { p with
      last_send_time_ := now, sendQueue_ := p.sendQueue_.tail, transferred := false } := by
  unfold writerLoop at h
  split_ifs at h with hguard
  simp only [Bool.or_eq_true, not_or] at hguard
  exact ⟨by simpa using hguard.2, (Option.some.inj h).symm⟩

/-- What holds of an end in the second `now`, when the other end has read last in the second `r` and
is to read again until `due`. -/
structure Carried (C : HeartbeatParams) (now r due : ℤ) (p : HeartbeatSession) : Prop where
  running : p.stopped_ = false
  send_le : p.last_send_time_ ≤ now
  writing : p.transferred = true → p.sendQueue_ ≠ []
  le_due : now ≤ due
  due_le : due ≤ r + 2 * C.interval - 1 + C.delay
  /-- with nothing on the way, everything that was written has been read -/
  quiet : p.unread = [] → p.last_send_time_ ≤ r ∧ (p.transferred = true → r = now)
  /-- and the next round of the loop comes soon after the last read -/
  timer : ∃ t, p.heartbeatTimer_ = some t ∧ now ≤ t ∧ t ≤ now + C.interval ∧
    (p.unread = [] → t ≤ r + 2 * C.interval - 1)

namespace Carried

/-- The last read is not long ago. -/
theorem recent (h : p.Carried C now r due) : now - r ≤ 2 * C.interval + C.delay - 1 := by
  have hnow := h.le_due
  have hdue := h.due_le
  omega

/-- Nothing of the session has changed but the time of its own last read. -/
theorem setRecv (h : p.Carried C now r due) (t : ℤ) :
    Carried C now r due { p with last_recv_time_ := t } :=
  ⟨h.running, h.send_le, h.writing, h.le_due, h.due_le, h.quiet, h.timer⟩

theorem send_eq (h : p.Carried C now r due) (id : UInt32) :
    p.send id = { p with sendQueue_ := p.sendQueue_ ++ [id] } :=
  if_neg (by simp [h.running])

theorem unsent_send (h : p.Carried C now r due) (id : UInt32) :
    (p.send id).unsent = p.unsent ++ [id] := by
  rw [h.send_eq]
  unfold unsent
  cases ht : p.transferred with
  | false => rfl
  | true => exact List.tail_append_of_ne_nil (h.writing ht)

theorem unread_send (h : p.Carried C now r due) (id : UInt32) : (p.send id).unread ≠ [] := by
  rw [unread, h.unsent_send]
  simp

theorem send (h : p.Carried C now r due) (id : UInt32) : (p.send id).Carried C now r due := by
  have hunread := h.unread_send id
  have hsend := h.send_eq id
  obtain ⟨t, ht, hnow, hle, -⟩ := h.timer
  constructor
  · rw [hsend]
    exact h.running
  · rw [hsend]
    exact h.send_le
  · rw [hsend]
    simp
  · exact h.le_due
  · exact h.due_le
  · exact fun hnil => absurd hnil hunread
  · refine ⟨t, ?_, hnow, hle, fun hnil => absurd hnil hunread⟩
    rw [hsend]
    exact ht

theorem setTimer (h : p.Carried C now r due) (hI : 1 ≤ C.interval)
    (hq : p.unread = [] → now ≤ r + C.interval - 1) :
    Carried C now r due { p with heartbeatTimer_ := some (now + C.interval) } := by
  refine ⟨h.running, h.send_le, h.writing, h.le_due, h.due_le, h.quiet,
    now + C.interval, rfl, by omega, le_rfl, fun hnil => ?_⟩
  have hlate := hq hnil
  omega

/-- A round of the loop that does not find a timeout. -/
theorem heartbeatLoop (h : p.Carried C now r due) (hI : 1 ≤ C.interval)
    (hrecv : now - p.last_recv_time_ < C.timeout) :
    (p.heartbeatLoop now C.interval C.timeout).Carried C now r due := by
  unfold HeartbeatSession.heartbeatLoop
  rw [if_neg (by simp [h.running]), if_neg (by omega)]
  split_ifs with hsend
  · exact (h.send CS_HeartBeat_Req).setTimer hI fun hnil => absurd hnil (h.unread_send _)
  · refine h.setTimer hI fun hnil => ?_
    -- what was sent less than an interval ago has been read
    have hquiet := (h.quiet hnil).1
    omega

theorem readerLoop (h : p.Carried C now r due) (msgs : List UInt32) :
    (p.readerLoop now msgs).Carried C now r due := by
  unfold HeartbeatSession.readerLoop
  have hfold : ∀ (msgs : List UInt32) (s : HeartbeatSession), s.Carried C now r due →
      (msgs.foldl dataProc s).Carried C now r due := by
    intro msgs
    induction msgs with
    | nil => exact fun s hs => hs
    | cons id msgs ih =>
        intro s hs
        refine ih _ ?_
        unfold dataProc
        split_ifs
        · exact hs.send CS_HeartBeat_Ack
        · exact hs
  exact hfold msgs _ (h.setRecv now)

theorem transfer (h : p.Carried C now r due) (hp : p.transfer = some p') :
    p'.Carried C now r due ∧ p'.last_recv_time_ = p.last_recv_time_ := by
  obtain ⟨id, rest, -, hq, rfl⟩ := transfer_cases hp
  have hne : HeartbeatSession.unread { p with transferred := true, wire := p.wire ++ [id] } ≠ [] := by
    simp [HeartbeatSession.unread]
  obtain ⟨t, ht, hnow, hle, -⟩ := h.timer
  exact ⟨⟨h.running, h.send_le, fun _ => by simp [hq], h.le_due, h.due_le,
    fun hnil => absurd hnil hne, t, ht, hnow, hle, fun hnil => absurd hnil hne⟩, rfl⟩

theorem writerLoop (h : p.Carried C now r due) (hp : p.writerLoop now = some p') :
    p'.Carried C now r due ∧ p'.last_recv_time_ = p.last_recv_time_ := by
  obtain ⟨htr, rfl⟩ := writerLoop_cases hp
  have hunread : HeartbeatSession.unread { p with
      last_send_time_ := now, sendQueue_ := p.sendQueue_.tail, transferred := false } = p.unread := by
    simp [HeartbeatSession.unread, HeartbeatSession.unsent, htr]
  refine ⟨⟨h.running, le_rfl, fun hf => by simp at hf, h.le_due, h.due_le, ?_, ?_⟩, rfl⟩
  · -- the message has been read in the second in which it was written
    rw [hunread]
    exact fun hnil => ⟨((h.quiet hnil).2 htr).ge, fun hf => by simp at hf⟩
  · rw [hunread]
    exact h.timer

/-- The other end reads. -/
theorem read (h : p.Carried C now r due) (hI : 1 ≤ C.interval) (k : ℕ) :
    Carried C now now (now + C.delay) { p with wire := p.wire.drop k } := by
  obtain ⟨t, ht, hnow, hle, -⟩ := h.timer
  exact ⟨h.running, h.send_le, h.writing, by omega, by omega, fun _ => ⟨h.send_le, fun _ => rfl⟩,
    t, ht, hnow, hle, fun _ => by omega⟩

/-- The next second, with the time when the other end has to read. -/
theorem clock (h : p.Carried C now r due) (hs : p.settled now due = true) :
    p.Carried C (now + 1) r (if p.unread.isEmpty then now + 1 + C.delay else due) := by
  simp only [settled, h.running, Bool.false_or, Bool.and_eq_true, bne_iff_ne, ne_eq,
    Bool.not_eq_true', Bool.or_eq_true, decide_eq_true_eq] at hs
  obtain ⟨⟨htimer, htr⟩, hread⟩ := hs
  obtain ⟨t, ht, hnow, hle, hsoon⟩ := h.timer
  have hne : t ≠ now := by
    rintro rfl
    exact htimer ht
  have hsent := h.send_le
  refine ⟨h.running, by omega, h.writing, ?_, ?_,
    fun hnil => ⟨(h.quiet hnil).1, fun hf => by simp [htr] at hf⟩, t, ht, by omega, by omega, hsoon⟩
  · split_ifs with hempty
    · omega
    · exact hread.resolve_left hempty
  · split_ifs with hempty
    · -- what the other end waits for is sent by the next round of the loop at the latest
      have hping := hsoon (List.isEmpty_iff.mp hempty)
      omega
    · exact h.due_le

end Carried

end HeartbeatSession

/-! ### Both directions -/

namespace HeartbeatLink

variable {C : HeartbeatParams} {l l' : HeartbeatLink} {e : Side} {s : HeartbeatSession}

@[simp] theorem set_now (e : Side) (s : HeartbeatSession) (l : HeartbeatLink) :
    (l.set e s).now = l.now := rfl

@[simp] theorem set_due (e : Side) (s : HeartbeatSession) (l : HeartbeatLink) :
    (l.set e s).due = l.due := rfl

@[simp] theorem set_ends (e : Side) (s : HeartbeatSession) (l : HeartbeatLink) :
    (l.set e s).ends e = s := by
  simp [set]

@[simp] theorem set_ends_peer (e : Side) (s : HeartbeatSession) (l : HeartbeatLink) :
    (l.set e s).ends e.peer = l.ends e.peer := by
  simp [set]

/-- The invariant, in both directions. -/
def Healthy (C : HeartbeatParams) (l : HeartbeatLink) : Prop :=
  ∀ e, (l.ends e).Carried C l.now (l.ends e.peer).last_recv_time_ (l.due e)

theorem healthy_of_sides (h : (l.ends e).Carried C l.now (l.ends e.peer).last_recv_time_ (l.due e))
    (hp : (l.ends e.peer).Carried C l.now (l.ends e).last_recv_time_ (l.due e.peer)) :
    l.Healthy C := by
  intro e'
  obtain rfl | rfl := Side.eq_or_eq_peer e e'
  · exact h
  · rwa [Side.peer_peer]

theorem Healthy.peer (h : l.Healthy C) (e : Side) :
    (l.ends e.peer).Carried C l.now (l.ends e).last_recv_time_ (l.due e.peer) := by
  simpa using h e.peer

/-- A step of one end that is not a read. -/
theorem Healthy.set (h : l.Healthy C)
    (hs : s.Carried C l.now (l.ends e.peer).last_recv_time_ (l.due e) ∧
      s.last_recv_time_ = (l.ends e).last_recv_time_) : (l.set e s).Healthy C := by
  apply healthy_of_sides (e := e)
  · simpa using hs.1
  · simpa [hs.2] using h.peer e

/-- **One step** keeps the link healthy, and no loop finds a timeout. -/
theorem step_healthy (hI : 1 ≤ C.interval) (hT : 2 * C.interval + C.delay ≤ C.timeout)
    {ev : HeartbeatEvent} (h : l.Healthy C) (hs : l.step C ev = some l') : l'.Healthy C := by
  cases ev with
  | clock =>
      simp only [step] at hs
      split_ifs at hs with hguard
      obtain rfl := Option.some.inj hs
      obtain ⟨hc, hsv⟩ := Bool.and_eq_true_iff.mp hguard
      intro e
      cases e with
      | client => exact (h .client).clock hc
      | server => exact (h .server).clock hsv
  | tick e =>
      simp only [step] at hs
      split_ifs at hs
      obtain rfl := Option.some.inj hs
      have hrecent := (h.peer e).recent
      exact h.set ⟨(h e).heartbeatLoop hI (by omega), by simp⟩
  | send e id =>
      obtain rfl := Option.some.inj hs
      exact h.set ⟨(h e).send id, by simp⟩
  | transferred e =>
      obtain ⟨s, hsent, rfl⟩ := Option.map_eq_some_iff.mp hs
      exact h.set ((h e).transfer hsent)
  | written e =>
      obtain ⟨s, hsent, rfl⟩ := Option.map_eq_some_iff.mp hs
      exact h.set ((h e).writerLoop hsent)
  | read e k =>
      simp only [step] at hs
      split_ifs at hs with hguard
      obtain rfl := Option.some.inj hs
      apply healthy_of_sides (e := e)
      · simpa [Function.update_of_ne (Side.peer_ne e).symm] using (h e).readerLoop _
      · simpa using (h.peer e).read hI k

end HeartbeatLink

/-! ### Whole runs -/

theorem heartbeat_healthy {C : HeartbeatParams} (hI : 1 ≤ C.interval)
    (hT : 2 * C.interval + C.delay ≤ C.timeout) {l : HeartbeatLink}
    (h : (heartbeatMachine C).Reachable l) : l.Healthy C := by
  refine (heartbeatMachine C).invariant (P := fun l => l.Healthy C) ?_
    (fun l ev l' hl => HeartbeatLink.step_healthy hI hT hl) h
  have hstart : (HeartbeatSession.create C.created).startHeartbeat C.created C.interval C.timeout =
      ⟨C.created, C.created, false, true, some (C.created + C.interval), [], false, []⟩ :=
    if_neg (by simp [HeartbeatSession.create]; omega)
  intro e
  show HeartbeatSession.Carried C C.created _ (C.created + C.delay) _
  rw [heartbeatMachine, hstart]
  exact {
    running := rfl
    send_le := le_rfl
    writing := fun hf => by cases hf
    le_due := by omega
    due_le := by dsimp only; omega
    quiet := fun _ => ⟨le_rfl, fun _ => rfl⟩
    timer := ⟨_, rfl, by omega, le_rfl, fun _ => by dsimp only; omega⟩ }

/-- **Heartbeats spare a healthy link**: when the timeout is at least two intervals and the delay, no
loop of the two ends reaches its `stop`, whatever else is sent in either direction. -/
theorem heartbeats_spare_healthy_link (C : HeartbeatParams) (hI : 1 ≤ C.interval)
    (hT : 2 * C.interval + C.delay ≤ C.timeout) (es : List HeartbeatEvent) (l : HeartbeatLink)
    (h : (heartbeatMachine C).run es = some l) : ∀ e, (l.ends e).stopped_ = false :=
  fun e => (heartbeat_healthy hI hT ⟨es, h⟩ e).running

/-- Traffic of the client, read before its write completes, holds its ping back; the server pings. -/
def heldBack : List HeartbeatEvent :=
  [.clock, .send .client 7, .transferred .client, .read .server 1, .written .client, .clock,
    .tick .client, .tick .server, .transferred .server, .written .server, .clock, .read .client 1,
    .transferred .client, .written .client, .clock, .read .server 1, .tick .server, .tick .client]

theorem heartbeats_spare_heldBack : ∃ l, (heartbeatMachine ⟨100, 2, 5, 1⟩).run heldBack = some l ∧
    l.now = 104 ∧ ∀ e, (l.ends e).stopped_ = false := by
  obtain ⟨l, h⟩ : ∃ l, (heartbeatMachine ⟨100, 2, 5, 1⟩).run heldBack = some l :=
    Option.isSome_iff_exists.mp (by decide +kernel)
  have hobs : ((heartbeatMachine ⟨100, 2, 5, 1⟩).run heldBack).map HeartbeatLink.now = some 104 := by
    decide +kernel
  rw [h] at hobs
  exact ⟨l, h, Option.some.inj hobs,
    heartbeats_spare_healthy_link ⟨100, 2, 5, 1⟩ (by decide) (by decide) heldBack l h⟩

/-- A timeout that is one second shorter is not enough: both ends read in the second 101, their pings
of the second 104 are on the way, and the loop of the server comes first in the second 106. -/
example : ((heartbeatMachine ⟨100, 2, 5, 2⟩).run
    [.clock, .send .client 7, .transferred .client, .written .client, .read .server 1,
      .send .server 7, .transferred .server, .written .server, .read .client 1, .clock,
      .tick .client, .tick .server, .clock, .clock, .tick .client, .tick .server,
      .transferred .client, .written .client, .transferred .server, .written .server, .clock, .clock,
      .tick .server]).map (fun l => (l.ends .server).stopped_) = some true := by decide +kernel

/-! ### Seconds go by -/

/-- The steps that a message on the wire still takes, with those of its answer. -/
def messageWork (id : UInt32) : ℕ := if id = CS_HeartBeat_Req then 5 else 1

namespace HeartbeatSession

variable {C : HeartbeatParams} {now r due : ℤ} {p p' : HeartbeatSession}

/-- A bound for the steps of an end that the second may still wait for. -/
def work (now : ℤ) (s : HeartbeatSession) : ℕ :=
  (if s.heartbeatTimer_ = some now then 8 else 0) + (s.wire.map messageWork).sum +
    (s.unsent.map fun id => messageWork id + 2).sum + s.transferred.toNat

namespace Carried

theorem work_send (h : p.Carried C now r due) (id : UInt32) :
    (p.send id).work now = p.work now + (messageWork id + 2) := by
  rw [work, h.unsent_send, h.send_eq, work, List.map_append, List.sum_append]
  simp only [List.map_cons, List.map_nil, List.sum_cons, List.sum_nil]
  omega

/-- A round of the loop, with its ping. -/
theorem work_heartbeatLoop (h : p.Carried C now r due) (hI : 1 ≤ C.interval)
    (hrecv : now - p.last_recv_time_ < C.timeout) (ht : p.heartbeatTimer_ = some now) :
    (p.heartbeatLoop now C.interval C.timeout).work now < p.work now := by
  have hwork : ∀ s : HeartbeatSession, s.heartbeatTimer_ = some now →
      HeartbeatSession.work now { s with heartbeatTimer_ := some (now + C.interval) } + 8 =
        s.work now := by
    intro s hs
    have hne : ¬ some (now + C.interval) = some now := by
      simp only [Option.some.injEq]
      omega
    show (if some (now + C.interval) = some now then 8 else 0) + _ + _ + _ + 8 = _
    rw [if_neg hne, work, if_pos hs]
    simp only [unsent]
    omega
  unfold HeartbeatSession.heartbeatLoop
  rw [if_neg (by simp [h.running]), if_neg (by omega)]
  split_ifs with hsend
  · have hping := h.work_send CS_HeartBeat_Req
    have hround := hwork p.sendPing (by rw [sendPing, h.send_eq]; exact ht)
    have hseven : messageWork CS_HeartBeat_Req + 2 = 7 := rfl
    rw [← sendPing] at hping
    dsimp only
    omega
  · have hround := hwork p ht
    dsimp only
    omega

theorem work_dataProc (h : p.Carried C now r due) (id : UInt32) :
    (dataProc p id).work now < p.work now + messageWork id := by
  unfold dataProc messageWork
  split_ifs with hreq
  · have hpong := h.work_send CS_HeartBeat_Ack
    have hthree : messageWork CS_HeartBeat_Ack + 2 = 3 := rfl
    rw [replyPing]
    omega
  · omega

end Carried

theorem work_transfer (now : ℤ) (hp : p.transfer = some p') : p'.work now < p.work now := by
  obtain ⟨id, rest, htr, hq, rfl⟩ := transfer_cases hp
  simp only [work, unsent, hq, htr, List.map_append, List.sum_append, List.map_cons, List.map_nil,
    List.sum_cons, List.sum_nil, List.tail_cons, if_true, Bool.false_eq_true, if_false,
    Bool.toNat_true, Bool.toNat_false]
  omega

theorem work_writerLoop (hp : p.writerLoop now = some p') : p'.work now < p.work now := by
  obtain ⟨htr, rfl⟩ := writerLoop_cases hp
  simp [work, unsent, htr]

/-- The clock may leave this end alone, or there is something left to do. -/
theorem Carried.settled_or (h : p.Carried C now r due) :
    p.settled now due = true ∨ p.heartbeatTimer_ = some now ∨
      (∃ p', p.writerLoop now = some p') ∨ (∃ p', p.transfer = some p') ∨
      ∃ id rest, p.wire = id :: rest := by
  by_cases ht : p.heartbeatTimer_ = some now
  · exact .inr (.inl ht)
  cases htr : p.transferred with
  | true => exact .inr (.inr (.inl ⟨_, if_neg (by simp [h.running, htr])⟩))
  | false =>
      cases hq : p.sendQueue_ with
      | cons id rest =>
          refine .inr (.inr (.inr (.inl
            ⟨{ p with transferred := true, wire := p.wire ++ [id] }, ?_⟩)))
          simp [HeartbeatSession.transfer, h.running, htr, hq]
      | nil =>
          cases hw : p.wire with
          | cons id rest => exact .inr (.inr (.inr (.inr ⟨id, rest, rfl⟩)))
          | nil => simp [settled, unread, unsent, h.running, ht, htr, hq, hw]

end HeartbeatSession

namespace HeartbeatLink

variable {C : HeartbeatParams} {l : HeartbeatLink}

def work (l : HeartbeatLink) : ℕ := (l.ends .client).work l.now + (l.ends .server).work l.now

theorem work_eq (l : HeartbeatLink) (e : Side) :
    l.work = (l.ends e).work l.now + (l.ends e.peer).work l.now := by
  cases e with
  | client => rfl
  | server => exact Nat.add_comm _ _

/-- While an end is not settled, the link has a step that leaves less to do in this second. -/
theorem exists_work_step (hI : 1 ≤ C.interval) (hT : 2 * C.interval + C.delay ≤ C.timeout)
    (h : l.Healthy C) {e : Side} (he : (l.ends e).settled l.now (l.due e) = false) :
    ∃ ev l', (∀ e id, ev ≠ .send e id) ∧ l.step C ev = some l' ∧ l'.now = l.now ∧
      l'.work < l.work := by
  have hset : ∀ s : HeartbeatSession, s.work l.now < (l.ends e).work l.now →
      (l.set e s).work < l.work := by
    intro s hs
    rw [(l.set e s).work_eq e, l.work_eq e, set_ends, set_ends_peer, set_now]
    omega
  obtain hsettled | ht | ⟨s, hs⟩ | ⟨s, hs⟩ | ⟨id, rest, hw⟩ := (h e).settled_or
  · rw [he] at hsettled
    cases hsettled
  · have hrecent := (h.peer e).recent
    exact ⟨.tick e, _, by simp, if_pos ht, rfl,
      hset _ ((h e).work_heartbeatLoop hI (by omega) ht)⟩
  · exact ⟨.written e, l.set e s, by simp, by rw [step, hs]; rfl, rfl,
      hset s (HeartbeatSession.work_writerLoop hs)⟩
  · exact ⟨.transferred e, l.set e s, by simp, by rw [step, hs]; rfl, rfl,
      hset s (HeartbeatSession.work_transfer l.now hs)⟩
  · have hread := ((h.peer e).setRecv l.now).work_dataProc id
    have hpeer : ((l.ends e.peer).readerLoop l.now [id]).work l.now <
        (l.ends e.peer).work l.now + messageWork id := hread
    have hwire : HeartbeatSession.work l.now { l.ends e with wire := rest } + messageWork id =
        (l.ends e).work l.now := by
      simp only [HeartbeatSession.work, HeartbeatSession.unsent, hw, List.map_cons, List.sum_cons]
      omega
    refine ⟨.read e.peer 1, { (l.set e { l.ends e with wire := rest }).set e.peer
        ((l.ends e.peer).readerLoop l.now [id]) with
      due := Function.update l.due e (l.now + C.delay) }, by simp, ?_, rfl, ?_⟩
    · simp [step, (h e.peer).running, HeartbeatSession.unread, hw]
    · rw [work_eq _ e.peer, set_ends, set_ends_peer, Side.peer_peer, set_ends, set_now, set_now,
        l.work_eq e]
      omega

/-- **The conditions on the clock can be met**: in every second of a healthy link, and without other
traffic, everything that the clock waits for can happen, and the next second begins. -/
theorem exists_next_second (hI : 1 ≤ C.interval) (hT : 2 * C.interval + C.delay ≤ C.timeout)
    (h : l.Healthy C) : ∃ es l', (∀ e id, .send e id ∉ es) ∧
      (heartbeatMachine C).exec es l = some l' ∧ l'.now = l.now + 1 := by
  induction hn : l.work using Nat.strong_induction_on generalizing l with
  | _ n ih =>
    by_cases hall : ∀ e, (l.ends e).settled l.now (l.due e) = true
    · refine ⟨[.clock], l.nextSecond C, by simp, ?_, rfl⟩
      simp [Machine.exec, heartbeatMachine, step, hall]
    · obtain ⟨e, he⟩ := not_forall.mp hall
      obtain ⟨ev, l₁, hev, hs, hnow, hwork⟩ := exists_work_step hI hT h (Bool.not_eq_true _ ▸ he)
      obtain ⟨es, l', hes, hexec, hnext⟩ := ih l₁.work (hn ▸ hwork) (step_healthy hI hT h hs) rfl
      refine ⟨ev :: es, l', fun e id hm => ?_, ?_, by rw [hnext, hnow]⟩
      · obtain hm | hm := List.mem_cons.mp hm
        · exact hev e id hm.symm
        · exact hes e id hm
      · have hs : (heartbeatMachine C).step l ev = some l₁ := hs
        simp [Machine.exec, hs, hexec]

end HeartbeatLink

end BlackSwan
