import BlackSwan.SessionLink

/-! # A connection at rest

When the programs and the heartbeats of a connection are left alone, what is still to do is the
business of the two sessions: the posted `deliver` steps, the first runs of the coroutines, the
wake-ups, the pieces that the sockets take, the completed writes and the reads (`Internal`).

These steps end.  A message pays for its own way in advance: `price` is what sending it adds to the
measure `Bounded`, with what the other end may spend on it when it is found (`load`).  A program
may answer a message, as long as the answers cost no more than the message was worth: `Settles`.
When they have ended and no session is stopped, every message has been delivered. -/

namespace BlackSwan

open Wire Runs

variable {π μ : Type} {F : PacketFormat π μ}

/-- The steps that only the sessions and the sockets take. -/
def EndEvent.Internal : EndEvent F → Prop
  | .deliver | .launchReader | .launchWriter | .timer | .writeDone => True
  | _ => False

def LinkEvent.Internal : LinkEvent F → Prop
  | .own _ e => e.Internal
  | _ => True

/-- No session and no socket has anything left to do. -/
def SessionLink.AtRest (onMsg : Side → OnMsg F) (l : SessionLink F) : Prop :=
  ∀ e : LinkEvent F, e.Internal → l.step onMsg e = none

/-- The session is started and not stopped. -/
def SessionEnd.Up (x : SessionEnd F) : Prop := x.reader ≠ .notStarted ∧ x.outbox.stopped_ = false

/-! ### Rest -/

namespace SessionLink

variable {l : SessionLink F} {onMsg : Side → OnMsg F}

/-- At rest an end that is up owes nothing. -/
theorem AtRest.owed (hrest : l.AtRest onMsg) {x : Side} (hs : (l.ends x).Sound)
    (hup : (l.ends x).Up) : (l.ends x).owed = [] := by
  have hown : ∀ e : EndEvent F, e.Internal → (l.ends x).step e = none := by
    intro e he
    simpa [step] using hrest (.own x e) he
  obtain ⟨hstart, hst⟩ := hup
  have hopen : (l.ends x).outbox.isOpen = true := by rw [hs.isOpen, hst]; rfl
  have hposted : (l.ends x).outbox.posted = [] := by
    have h := hown .deliver trivial
    cases hp : (l.ends x).outbox.posted with
    | nil => rfl
    | cons msg posted => simp [SessionEnd.step, SessionEnd.drive, Outbox.step, hp] at h
  have hqueue : (l.ends x).outbox.sendQueue_ = [] := by
    cases hw : (l.ends x).outbox.writer with
    | notStarted => exact absurd (hs.started.mpr hw) hstart
    | returned => exact absurd hw (hs.writer_alive hst)
    | spawned =>
        have h := hown .launchWriter trivial
        simp [SessionEnd.step, SessionEnd.drive, Outbox.step, hw] at h
    | waiting c =>
        cases c with
        | false => exact hs.inv.awake hw
        | true =>
            have h := hown .timer trivial
            simp [SessionEnd.step, SessionEnd.drive, Outbox.step, hw] at h
    | writing =>
        -- the socket can take a byte, or the write is complete
        obtain ⟨msg, queue, hq, hle⟩ := hs.front hst hw
        by_cases hlt : (l.ends x).transferred < msg.length
        · have h := hrest (.transfer x 1) trivial
          simp [step, SessionEnd.transfer, hq, hw, hopen, Nat.succ_le_of_lt hlt] at h
        · have h := hown .writeDone trivial
          have heq : msg.length = (l.ends x).transferred := by omega
          simp [SessionEnd.step, SessionEnd.drive, Outbox.step, hq, hw, heq] at h
  simp [SessionEnd.owed, hposted, hqueue]

/-- At rest nothing is on the wire to an end that is up. -/
theorem AtRest.wire (hrest : l.AtRest onMsg) {x : Side} (hs : (l.ends x).Sound)
    (hup : (l.ends x).Up) : l.wire x = [] := by
  have hread : (l.ends x).reader = .reading := by
    cases hr : (l.ends x).reader with
    | notStarted => exact absurd hr hup.1
    | returned => exact absurd hr (hs.reader_alive hup.2)
    | reading => rfl
    | spawned =>
        have h := hrest (.own x .launchReader) trivial
        simp [step, SessionEnd.step, hr] at h
  have h := hrest (.read x 1) trivial
  cases hw : l.wire x with
  | nil => rfl
  | cons b bs => simp [step, hread, BUF_SIZE, SessionEnd.readRound_eq, hw] at h

/-- **Rest means delivered**, in one direction. -/
theorem AtRest.delivered (hi : l.Inv) (hrest : l.AtRest onMsg) {x : Side} (hup : (l.ends x).Up)
    (hpeer : (l.ends x.peer).Up) : (l.ends x).got = F.program (l.ends x.peer).said := by
  obtain ⟨hs, left, hc⟩ := hi x.peer
  rw [Side.peer_peer] at hc
  obtain ⟨tail, hp, htail⟩ := hc.piped
  rw [htail hpeer.2, hrest.owed hs hpeer, hrest.wire (hi x).1 hup] at hp
  have hleft : left = [] := List.map_eq_nil_iff.mp hp.left_of_nil
  obtain ⟨found, hsaid, hgot⟩ := hc.split
  rw [hsaid, hleft, List.append_nil, hgot]

end SessionLink

/-! ### The measure -/

/-- What an end may spend on a message that its reader finds: an answer to a `PING`, and `weight`
for the program. -/
def load (F : PacketFormat π μ) (weight : Side → μ → ℕ) (x : Side) (m : μ) : ℕ :=
  if F.msgId m = CS_HeartBeat_Req then 3 + 2 * (F.packet F.pongMsg).length
  else if F.msgId m = CS_HeartBeat_Ack then 0
  else weight x m

/-- What a message costs that the end `x` sends: its `deliver`, its wake-up, its completed write,
a piece and a read for each byte, and what the other end spends on it. -/
def price (F : PacketFormat π μ) (weight : Side → μ → ℕ) (x : Side) (m : F.Msg) : ℕ :=
  3 + 2 * (F.packet m).length + load F weight x.peer m.1

def Order.price (weight : Side → μ → ℕ) (x : Side) : Order F → ℕ
  | .send m => BlackSwan.price F weight x m
  | .stop => 1

/-- What a program does about a message costs no more than the message is worth. -/
def Settles (onMsg : Side → OnMsg F) (weight : Side → μ → ℕ) : Prop :=
  ∀ x got m, ((onMsg x got m).map (Order.price weight x)).sum ≤ weight x m

def WriterLoop.work : WriterLoop → ℕ
  | .spawned | .waiting true => 1
  | _ => 0

def ReaderLoop.work : ReaderLoop → ℕ
  | .spawned => 1
  | _ => 0

theorem WriterLoop.work_cancel_le (w : WriterLoop) : w.cancel.work ≤ w.work + 1 := by
  cases w with
  | waiting c => cases c <;> simp [cancel, work]
  | _ => simp [cancel, work]

theorem Outbox.Resumes.work {o o' : Outbox} (h : o.Resumes o') : o'.writer.work = 0 := by
  rcases h with ⟨-, rfl⟩ | ⟨-, rfl⟩ | ⟨msg, queue, -, rfl⟩ <;> rfl

theorem Outbox.Resumes.queues {o o' : Outbox} (h : o.Resumes o') :
    o'.posted = o.posted ∧ o'.sendQueue_ = o.sendQueue_ := by
  rcases h with ⟨-, rfl⟩ | ⟨-, rfl⟩ | ⟨msg, queue, -, rfl⟩ <;> exact ⟨rfl, rfl⟩

namespace SessionEnd

variable {x x' : SessionEnd F}

/-- What the sending side of an end has still to do. -/
def work (x : SessionEnd F) : ℕ :=
  3 * x.outbox.posted.length + x.outbox.sendQueue_.length + 2 * x.owed.length +
    x.outbox.writer.work + x.reader.work

theorem work_say (m : F.Msg) (x : SessionEnd F) :
    (x.say m).work = x.work + (3 + 2 * (F.packet m).length) := by
  simp only [work, owed_say, List.length_append]
  simp only [say, Outbox.send, List.length_append, List.length_singleton]
  omega

theorem work_stop_le (x : SessionEnd F) : x.stop.work ≤ x.work + 1 := by
  unfold stop Outbox.stop
  split_ifs
  · exact Nat.le_succ _
  · have := x.outbox.writer.work_cancel_le
    simp only [work, SessionEnd.owed]
    omega

/-- The writer goes on, and a buffer may have been popped before it does. -/
theorem work_resume {queue : List Bytes} {o' : Outbox} {t : ℕ} {n : ℕ}
    (hres : ({ x.outbox with sendQueue_ := queue } : Outbox).Resumes o')
    (howed : (queue.flatten.drop t ++ x.outbox.posted.flatten).length = x.owed.length)
    (hn : queue.length + n = x.outbox.sendQueue_.length) (hpos : 0 < n + x.outbox.writer.work) :
    ({ x with outbox := o', transferred := t } : SessionEnd F).work < x.work := by
  obtain ⟨hp, hq⟩ := hres.queues
  have hw := hres.work
  simp only [work, hw]
  simp only [SessionEnd.owed, hp, hq] at howed ⊢
  rw [howed]
  omega

/-- **Every internal step of an end leaves less to do.** -/
theorem work_lt {e : EndEvent F} (he : e.Internal) (hs : x.step e = some x') : x'.work < x.work := by
  cases e with
  | deliver =>
      cases hp : x.outbox.posted with
      | nil => simp [step, drive, Outbox.step, hp] at hs
      | cons msg posted =>
          obtain rfl : { x with outbox := ({ x.outbox with posted } : Outbox).deliver msg } = x' := by
            simpa [step, drive, Outbox.step, hp] using hs
          have hc := x.outbox.writer.work_cancel_le
          unfold Outbox.deliver
          split_ifs
          · simp only [work, SessionEnd.owed, hp, List.length_append, List.length_cons,
              List.flatten_cons]
            omega
          · simp only [work, SessionEnd.owed, hp, List.length_append, List.length_cons,
              List.flatten_cons, List.flatten_append, List.length_drop, List.flatten_nil,
              List.length_nil]
            omega
  | launchReader =>
      obtain ⟨hr, rfl⟩ : x.reader = .spawned ∧ { x with reader := .reading } = x' := by
        simpa [step] using hs
      simp [work, SessionEnd.owed, hr, ReaderLoop.work]
  | launchWriter =>
      obtain ⟨hw, rfl⟩ : x.outbox.writer = .spawned ∧
          { x with outbox := x.outbox.loopHead } = x' := by
        simpa [step, drive, Outbox.step] using hs
      exact work_resume (n := 0) x.outbox.loopHead_resumes rfl rfl (by simp [hw, WriterLoop.work])
  | timer =>
      obtain ⟨hw, rfl⟩ : x.outbox.writer = .waiting true ∧
          { x with outbox := x.outbox.writeFront } = x' := by
        by_cases hw : x.outbox.writer = .waiting true
        · exact ⟨hw, by simpa [step, drive, Outbox.step, hw] using hs⟩
        · simp [step, hw] at hs
      exact work_resume (n := 0) x.outbox.writeFront_resumes rfl rfl (by simp [hw, WriterLoop.work])
  | writeDone =>
      cases hq : x.outbox.sendQueue_ with
      | nil => simp [step, hq] at hs
      | cons msg queue =>
          obtain ⟨ht, hw, rfl⟩ : msg.length = x.transferred ∧ x.outbox.writer = .writing ∧
              { x with
                outbox := ({ x.outbox with sendQueue_ := queue } : Outbox).writeFront
                transferred := 0 } = x' := by
            simpa [step, drive, Outbox.step, hq] using hs
          refine work_resume (n := 1) (Outbox.writeFront_resumes _) ?_ (by rw [hq]; rfl) (by omega)
          rw [SessionEnd.owed, hq, ← ht, List.flatten_cons, List.drop_left, List.drop_zero]
  | _ => exact absurd he id

theorem work_transfer {n : ℕ} {bytes : Bytes} (hs : x.transfer n = some (bytes, x')) :
    x'.work + 2 * n = x.work ∧ bytes.length = n ∧ 0 < n := by
  obtain ⟨msg, queue, hq, -, -, hpos, hle, rfl, rfl⟩ := transfer_cases hs
  refine ⟨?_, ?_, hpos⟩
  · simp only [work, SessionEnd.owed, hq, List.flatten_cons, List.length_append, List.length_drop]
    omega
  · rw [List.length_take, List.length_drop]
    omega

/-! ### What one direction may still cost -/

/-- The end `x` with its peer: its messages that are not found yet can be paid for with `n`. -/
def Owes (weight : Side → μ → ℕ) (x : Side) (a b : SessionEnd F) (wire : Bytes) (n : ℕ) : Prop :=
  ∃ left, a.Carries b wire left ∧
    a.work + wire.length + ((left.map Subtype.val).map (load F weight x.peer)).sum ≤ n

namespace Owes

variable {weight : Side → μ → ℕ} {e : Side} {a b a' b' : SessionEnd F} {wire : Bytes} {n : ℕ}

theorem sender (h : Owes weight e a b wire n) (hs : SameWork a a') (hw : a'.work < a.work) :
    ∃ n', n' < n ∧ Owes weight e a' b wire n' := by
  obtain ⟨left, hc, hle⟩ := h
  exact ⟨n - 1, by omega, left, hc.sender hs, by omega⟩

theorem receiver (h : Owes weight e a b wire n) (hgot : b'.got = b.got)
    (hbuf : b'.recvBuffer_ = b.recvBuffer_) : Owes weight e a b' wire n := by
  obtain ⟨left, hc, hle⟩ := h
  exact ⟨left, hc.receiver hgot hbuf, hle⟩

/-- What the end has received is no matter for what it owes. -/
theorem received (h : Owes weight e a b wire n) (got : List μ) (recvBuffer_ : Bytes) :
    Owes weight e { a with got, recvBuffer_ } b wire n := by
  obtain ⟨left, hc, hle⟩ := h
  exact ⟨left, ⟨hc.split, hc.piped⟩, hle⟩

theorem say (h : Owes weight e a b wire n) (m : F.Msg) :
    Owes weight e (a.say m) b wire (n + price F weight e m) := by
  obtain ⟨left, hc, hle⟩ := h
  refine ⟨left ++ [m], hc.say m, ?_⟩
  simp only [work_say, List.map_append, List.sum_append, List.map_singleton, List.sum_singleton,
    price]
  omega

theorem stop (h : Owes weight e a b wire n) : Owes weight e a.stop b wire (n + 1) := by
  obtain ⟨left, hc, hle⟩ := h
  have := work_stop_le a
  exact ⟨left, hc.sender (sameWork_stop a), by omega⟩

theorem transfer {k : ℕ} {bytes : Bytes} (h : Owes weight e a b wire n) (ha : a.Sound)
    (hs : a.transfer k = some (bytes, a')) :
    ∃ n', n' < n ∧ Owes weight e a' b (wire ++ bytes) n' := by
  obtain ⟨left, hc, hle⟩ := h
  obtain ⟨hwork, hlen, hpos⟩ := work_transfer hs
  refine ⟨n - k, by omega, left, hc.transfer ha hs, ?_⟩
  rw [List.length_append, hlen]
  omega

/-- A read takes its bytes and the messages that it finds off the account. -/
theorem read {k : ℕ} (h : Owes weight e a b wire n) (hk : k ≤ BUF_SIZE) (hle : k ≤ wire.length) :
    ∃ done : List F.Msg,
      (F.decoder.frames (b.recvBuffer_ ++ wire.take k)).map F.code.view = done.map Subtype.val ∧
      ∃ n', n' + k + ((done.map Subtype.val).map (load F weight e.peer)).sum ≤ n ∧
        ∀ b' : SessionEnd F, b'.got = b.got ++ F.program done →
          b'.recvBuffer_ = F.decoder.rest (b.recvBuffer_ ++ wire.take k) →
          Owes weight e a b' (wire.drop k) n' := by
  obtain ⟨left, hc, hn⟩ := h
  obtain ⟨done, left', rfl, hframes, hread⟩ := hc.read hk
  rw [List.map_append, List.map_append, List.sum_append] at hn
  refine ⟨done, hframes, n - k - ((done.map Subtype.val).map (load F weight e.peer)).sum, by omega,
    fun b' hgot hbuf => ⟨left', hread b' hgot hbuf, ?_⟩⟩
  rw [List.length_drop]
  omega

/-- **Handling messages costs no more than they are worth.** -/
theorem foldl_receive {onMsg : Side → OnMsg F} (hset : Settles onMsg weight) (ms : List μ)
    (h : Owes weight e a b wire n) :
    Owes weight e (ms.foldl (receive (onMsg e)) a) b wire (n + (ms.map (load F weight e)).sum) := by
  have hobey : ∀ (os : List (Order F)) (n : ℕ) (a : SessionEnd F), Owes weight e a b wire n →
      Owes weight e (os.foldl obey a) b wire (n + (os.map (Order.price weight e)).sum) := by
    intro os
    induction os with
    | nil => exact fun n a h => h
    | cons o os ih =>
        intro n a h
        rw [List.map_cons, List.sum_cons, ← Nat.add_assoc, List.foldl_cons]
        refine ih _ _ ?_
        cases o with
        | send m => exact h.say m
        | stop => exact h.stop
  induction ms generalizing n a with
  | nil => exact h
  | cons m ms ih =>
      rw [List.map_cons, List.sum_cons, ← Nat.add_assoc, List.foldl_cons]
      refine ih ?_
      unfold receive load
      split_ifs with h1 h2
      · have hp : price F weight e F.pongMsg = 3 + 2 * (F.packet F.pongMsg).length := by
          have hid : F.msgId F.pongMsg.1 = CS_HeartBeat_Ack := F.msgId_pong
          simp [price, load, hid, CS_HeartBeat_Ack, CS_HeartBeat_Req]
        rw [← hp]
        exact h.say _
      · exact h
      · obtain ⟨left, hc, hle⟩ := hobey (onMsg e a.got m) n _ (h.received (a.got ++ [m]) a.recvBuffer_)
        exact ⟨left, hc, hle.trans (Nat.add_le_add_left (hset e a.got m) n)⟩

end Owes

end SessionEnd

/-! ### The steps end -/

namespace SessionLink

variable {l l' : SessionLink F} {onMsg : Side → OnMsg F} {weight : Side → μ → ℕ}

/-- What is still to do on the link is at most `n` steps. -/
def Bounded (weight : Side → μ → ℕ) (n : ℕ) (l : SessionLink F) : Prop :=
  (∀ x, (l.ends x).Sound) ∧ ∃ k : Side → ℕ, k .client + k .server = n ∧
    ∀ x, SessionEnd.Owes weight x (l.ends x) (l.ends x.peer) (l.wire x.peer) (k x)

/-- A step of the end `x` that leaves less to do in the two directions together. -/
theorem Bounded.update {n out inn : ℕ} {k : Side → ℕ} {x : Side}
    (hsound : ∀ x, (l.ends x).Sound) (hk : k .client + k .server = n)
    (hx : (l'.ends x).Sound) (hpeer : l'.ends x.peer = l.ends x.peer)
    (hout : SessionEnd.Owes weight x (l'.ends x) (l.ends x.peer) (l'.wire x.peer) out)
    (hin : SessionEnd.Owes weight x.peer (l.ends x.peer) (l'.ends x) (l'.wire x) inn)
    (hlt : out + inn < k x + k x.peer) : ∃ n', n' < n ∧ l'.Bounded weight n' := by
  refine ⟨out + inn, ?_, ?_, fun y => if y = x then out else inn, ?_, ?_⟩
  · cases x <;> simp only [Side.peer] at hlt <;> omega
  · intro y
    obtain rfl | rfl := Side.eq_or_eq_peer x y
    · exact hx
    · rw [hpeer]
      exact hsound x.peer
  · cases x <;> simp [Nat.add_comm]
  · intro y
    obtain rfl | rfl := Side.eq_or_eq_peer x y
    · rw [hpeer]
      simpa using hout
    · rw [hpeer, Side.peer_peer]
      simpa using hin

/-- **Every internal step of a link leaves less to do.** -/
theorem shrinks (hset : Settles onMsg weight) :
    Shrinks (linkMachine F onMsg) LinkEvent.Internal (Bounded weight) := by
  rintro n l e l' ⟨hsound, k, hk, howes⟩ he hs
  cases e with
  | own x e =>
      obtain ⟨s, hstep, rfl⟩ := Option.map_eq_some_iff.mp hs
      have hin := howes x.peer
      rw [Side.peer_peer] at hin
      have hlt := SessionEnd.work_lt he hstep
      obtain ⟨hx, hcase⟩ := SessionEnd.step_spec (hsound x) hstep
      have hsame : SessionEnd.SameWork (l.ends x) s := by
        rcases hcase with ⟨m, rfl⟩ | hsame
        · -- sending a message is no internal step
          rw [SessionEnd.work_say] at hlt
          omega
        · exact hsame
      obtain ⟨out, hout, ho⟩ := (howes x).sender hsame hlt
      refine Bounded.update (x := x) hsound hk (by simpa [set] using hx) (by simp [set])
        (by simpa [set] using ho)
        (by simpa [set] using hin.receiver hsame.got hsame.recvBuffer_) (by omega)
  | transfer x m =>
      obtain ⟨⟨bytes, s⟩, htrans, rfl⟩ := Option.map_eq_some_iff.mp hs
      have hin := howes x.peer
      rw [Side.peer_peer] at hin
      obtain ⟨out, hout, ho⟩ := (howes x).transfer (hsound x) htrans
      refine Bounded.update (x := x) hsound hk (by simpa [set] using (hsound x).transfer htrans)
        (by simp [set]) (by simpa [set] using ho) (?_ : SessionEnd.Owes _ _ _ _ _ (k x.peer)) (by omega)
      obtain ⟨-, -, -, -, -, -, -, -, rfl⟩ := SessionEnd.transfer_cases htrans
      have hne : x ≠ x.peer := (Side.peer_ne x).symm
      have hin' : SessionEnd.Owes weight x.peer (l.ends x.peer)
          { l.ends x with transferred := (l.ends x).transferred + m } (l.wire x) (k x.peer) :=
        hin.receiver rfl rfl
      simpa [set, hne] using hin'
  | read x m =>
      obtain ⟨⟨-, hpos, hm, hle⟩, s, hround, rfl⟩ : _ ∧ ∃ s, (l.ends x).readRound (onMsg x)
          ((l.wire x).take m) = some s ∧ _ = l' := by simpa [linkMachine, step] using hs
      have hin := howes x.peer
      rw [Side.peer_peer] at hin
      obtain ⟨done, hframes, inn, hlt, hread⟩ := hin.read hm hle
      have hout := (howes x).foldl_receive hset (done.map Subtype.val)
      obtain ⟨⟨left, hc, -⟩, ⟨left', hc', -⟩⟩ := And.intro (howes x) hin
      have hx := (SessionEnd.readRound_spec (hsound x) hc' hc hm hround).1
      rw [SessionEnd.readRound_eq, hframes] at hround
      obtain rfl := (Option.some.inj hround).symm
      refine Bounded.update (x := x) hsound hk (by simpa [set] using hx) (by simp [set])
        (?_ : SessionEnd.Owes _ _ _ _ _ (k x + ((done.map Subtype.val).map (load F weight x)).sum))
        (?_ : SessionEnd.Owes _ _ _ _ _ inn) ?_
      · simpa [set] using hout.received _ _
      · have := hread { (done.map Subtype.val).foldl (SessionEnd.receive (onMsg x)) (l.ends x) with
          recvBuffer_ := F.decoder.rest ((l.ends x).recvBuffer_ ++ (l.wire x).take m) }
          (SessionEnd.foldl_receive_got (onMsg x) _ (l.ends x)) rfl
        simpa [set] using this
      · rw [Side.peer_peer] at hlt
        omega

theorem Inv.bounded (h : l.Inv) (weight : Side → μ → ℕ) : ∃ n, l.Bounded weight n := by
  have howes : ∀ x, ∃ n, SessionEnd.Owes weight x (l.ends x) (l.ends x.peer) (l.wire x.peer) n := by
    intro x
    obtain ⟨-, left, hc⟩ := h x
    exact ⟨_, left, hc, le_rfl⟩
  choose k hk using howes
  exact ⟨_, fun x => (h x).1, k, rfl, hk⟩

end SessionLink

/-- **A connection that is left alone comes to rest with everything delivered.**  For every packet
format, all programs whose answers settle and every state that a run has led to, the sessions and
the sockets can take only so many steps by themselves, in whatever order and with whatever sizes,
and some such steps lead to a state where nothing is left to do; there, if no session is stopped,
each program has been given every message that the other end has sent, once and in order. -/
theorem link_delivers_all (F : PacketFormat π μ) (onMsg : Side → OnMsg F) (weight : Side → μ → ℕ)
    (hset : Settles onMsg weight) (es : List (LinkEvent F)) (l : SessionLink F)
    (h : (linkMachine F onMsg).run es = some l) :
    (∃ n, ∀ es' l', (∀ e ∈ es', e.Internal) → (linkMachine F onMsg).exec es' l = some l' →
      es'.length ≤ n) ∧
    (∃ es' l', (∀ e ∈ es', e.Internal) ∧ (linkMachine F onMsg).exec es' l = some l' ∧
      l'.AtRest onMsg) ∧
    (l.AtRest onMsg → (∀ x, (l.ends x).Up) →
      ∀ x, (l.ends x).got = F.program (l.ends x.peer).said) := by
  have hi := link_inv ⟨es, h⟩
  obtain ⟨n, hb⟩ := hi.bounded weight
  have hshrinks := SessionLink.shrinks hset
  refine ⟨⟨n, fun es' l' hint hex => ?_⟩, hshrinks.exists_rest hb, fun hrest hup x => ?_⟩
  · obtain ⟨n', hle, -⟩ := hshrinks.length_le hb hint hex
    omega
  · exact SessionLink.AtRest.delivered hi hrest (hup x) (hup x.peer)

/-- The server answers message 1 with message 2. -/
def answering : Side → OnMsg innerFormat
  | .server, _, m => if m.1 = 1 then [.send ⟨(2, m.2.1, []), fits_inner (Nat.zero_le _)⟩] else []
  | .client, _, _ => []

/-- What an answer costs. -/
def answerWeight : Side → InnerMsg → ℕ
  | .server, m => if m.1 = 1 then 3 + 2 * InnerMsgHeaderSize else 0
  | .client, _ => 0

theorem answering_settles : Settles answering answerWeight := by
  intro x got m
  cases x with
  | client => exact Nat.le_refl 0
  | server =>
      by_cases h : m.1 = 1
      · have hlen : (innerFormat.code.encode (2, m.2.1, [])).length = InnerMsgHeaderSize + 0 :=
          length_encodeInnerMsg (m := (2, m.2.1, [])) (Nat.zero_le _)
        have hid : innerFormat.msgId (2, m.2.1, []) = 2 := rfl
        simp [answering, answerWeight, h, Order.price, price, PacketFormat.packet, hlen, load, hid,
          CS_HeartBeat_Req, CS_HeartBeat_Ack, Side.peer]
      · simp [answering, answerWeight, h]

theorem link_delivers_all_answering : ∃ l, (linkMachine innerFormat answering).run helloRun = some l ∧
    ∃ es' l', (∀ e ∈ es', e.Internal) ∧
      (linkMachine innerFormat answering).exec es' l = some l' ∧ l'.AtRest answering := by
  have hrun : ((linkMachine innerFormat answering).run helloRun).isSome = true := by decide +kernel
  obtain ⟨l, hl⟩ := Option.isSome_iff_exists.mp hrun
  exact ⟨l, hl,
    (link_delivers_all innerFormat answering answerWeight answering_settles helloRun l hl).2.1⟩

end BlackSwan
