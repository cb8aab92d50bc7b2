import BlackSwan.SessionRest

/-! # Connections by what their programs do

Two kinds of programs at the ends of a connection.  Programs that do nothing in their data callbacks
(`noAnswer`): what the ends say is what is sent from outside, and when nobody sends heartbeats the
readers only pass on what they find (`step_plain`).  And a service (`serving`), which answers each
message by itself: `Serves` says that it has said the answers to what it was given, and nothing else
but heartbeats. -/

namespace BlackSwan

open Wire Runs

variable {π μ : Type} {F : PacketFormat π μ}

/-! ### What an end says -/

def EndEvent.said : EndEvent F → List F.Msg
  | .send m => [m]
  | .sendPing => [F.pingMsg]
  | _ => []

/-- What an end says in a step. -/
def LinkEvent.said (x : Side) : LinkEvent F → List F.Msg
  | .own y e => if x = y then e.said else []
  | _ => []

namespace SessionEnd

variable {x x' : SessionEnd F}

theorem drive_said {e : OutboxEvent} (hs : x.drive e = some x') :
    x'.said = x.said ∧ x'.got = x.got := by
  obtain ⟨o, -, rfl⟩ := Option.map_eq_some_iff.mp hs
  exact ⟨rfl, rfl⟩

theorem step_said {e : EndEvent F} (hs : x.step e = some x') : x'.said = x.said ++ e.said := by
  cases e with
  | send m => exact (Option.some.inj hs) ▸ rfl
  | sendPing => exact (Option.some.inj hs) ▸ rfl
  | deliver | launchWriter | writeDone | start | timer | writeFailed =>
      refine Eq.trans ?_ (List.append_nil _).symm
      simp only [step] at hs
      first
        | exact (drive_said hs).1
        | (split_ifs at hs; exact (drive_said hs).1)
  | launchReader =>
      simp only [step] at hs
      split_ifs at hs
      obtain rfl := Option.some.inj hs
      exact (List.append_nil _).symm
  | readFailed aborted =>
      simp only [step] at hs
      split_ifs at hs
      obtain rfl := Option.some.inj hs
      refine Eq.trans ?_ (List.append_nil _).symm
      unfold readFailed
      split_ifs <;> rfl
  | stop =>
      obtain rfl := Option.some.inj hs
      exact (List.append_nil _).symm

end SessionEnd

/-! ### Programs that only read -/

/-- A program that does nothing with its session in the data callback. -/
def noAnswer (F : PacketFormat π μ) : Side → OnMsg F := fun _ _ _ => []

namespace SessionEnd

variable {x x' : SessionEnd F}

/-- A reader that finds no heartbeats only adds to what its program has been given. -/
theorem foldl_receive_plain (x : Side) (ms : List μ)
    (hms : ∀ m ∈ ms, isHeartBeat (F.msgId m) = false) (y : SessionEnd F) :
    ms.foldl (receive (noAnswer F x)) y = { y with got := y.got ++ ms } := by
  induction ms generalizing y with
  | nil => rw [List.append_nil]; rfl
  | cons m ms ih =>
      have hm := hms m List.mem_cons_self
      simp only [isHeartBeat, Bool.or_eq_false_iff, beq_eq_false_iff_ne] at hm
      rw [List.foldl_cons, ih fun m' hm' => hms m' (List.mem_cons_of_mem _ hm'), receive,
        if_neg hm.1, if_neg hm.2]
      simp [dispatch, noAnswer]

end SessionEnd

namespace SessionLink

variable {l l' : SessionLink F}

/-- Nobody has sent a heartbeat. -/
def Plain (l : SessionLink F) : Prop :=
  ∀ x, ∀ m ∈ (l.ends x).said, isHeartBeat (F.msgId m.1) = false

/-- The packets that a read finds. -/
theorem Plain.found (hp : l.Plain) (hi : l.Inv) {x : Side} {n : ℕ} (hn : n ≤ BUF_SIZE) :
    ∀ m ∈ (F.decoder.frames ((l.ends x).recvBuffer_ ++ (l.wire x).take n)).map F.code.view,
      isHeartBeat (F.msgId m) = false := by
  obtain ⟨-, left, hc⟩ := hi x.peer
  rw [Side.peer_peer] at hc
  obtain ⟨done, left', rfl, hframes, -⟩ := hc.read hn
  obtain ⟨found, hsaid, -⟩ := hc.split
  intro m hm
  rw [hframes] at hm
  obtain ⟨m', hm', rfl⟩ := List.mem_map.mp hm
  refine hp x.peer m' ?_
  rw [hsaid]
  exact List.mem_append_right _ (List.mem_append_left _ hm')

/-- One step of a connection without heartbeats. -/
theorem step_plain (hp : l.Plain) (hi : l.Inv) {e : LinkEvent F}
    (hs : l.step (noAnswer F) e = some l') (x : Side) :
    (l'.ends x).said = (l.ends x).said ++ e.said x ∧ (l.ends x).got <+: (l'.ends x).got ∧
      ((l.ends x).outbox.stopped_ = true → (l'.ends x).outbox.stopped_ = true) := by
  cases e with
  | own y e =>
      obtain ⟨s, hstep, rfl⟩ := Option.map_eq_some_iff.mp hs
      by_cases hx : x = y
      · subst hx
        have hsaid := SessionEnd.step_said hstep
        obtain ⟨-, ⟨m, rfl⟩ | hsame⟩ := SessionEnd.step_spec (hi x).1 hstep
        · simp only [set, Function.update_self, LinkEvent.said, if_pos]
          exact ⟨hsaid, List.prefix_refl _, id⟩
        · simp only [set, Function.update_self, LinkEvent.said, if_pos]
          exact ⟨hsaid, hsame.got ▸ List.prefix_refl _, hsame.stopped⟩
      · simp only [set, Function.update_of_ne hx, LinkEvent.said, if_neg hx, List.append_nil]
        exact ⟨trivial, List.prefix_refl _, id⟩
  | transfer y n =>
      obtain ⟨⟨bytes, s⟩, htrans, rfl⟩ := Option.map_eq_some_iff.mp hs
      obtain ⟨-, -, -, -, -, -, -, -, rfl⟩ := SessionEnd.transfer_cases htrans
      rw [show LinkEvent.said x (.transfer y n : LinkEvent F) = [] from rfl, List.append_nil]
      by_cases hx : x = y
      · subst hx
        simp only [set, Function.update_self]
        exact ⟨trivial, List.prefix_refl _, id⟩
      · simp only [set, Function.update_of_ne hx]
        exact ⟨trivial, List.prefix_refl _, id⟩
  | read y n =>
      obtain ⟨⟨-, -, hn, -⟩, s, hround, rfl⟩ : _ ∧ ∃ s, (l.ends y).readRound (noAnswer F y)
          ((l.wire y).take n) = some s ∧ _ = l' := by simpa [step] using hs
      rw [SessionEnd.readRound_eq, SessionEnd.foldl_receive_plain y _ (hp.found hi hn)] at hround
      obtain rfl := (Option.some.inj hround).symm
      rw [show LinkEvent.said x (.read y n : LinkEvent F) = [] from rfl, List.append_nil]
      by_cases hx : x = y
      · subst hx
        simp only [set, Function.update_self]
        exact ⟨trivial, List.prefix_append _ _, id⟩
      · simp only [set, Function.update_of_ne hx]
        exact ⟨trivial, List.prefix_refl _, id⟩

theorem program_of_plain {ms : List F.Msg} (hms : ∀ m ∈ ms, isHeartBeat (F.msgId m.1) = false) :
    F.program ms = ms.map Subtype.val := by
  refine List.filter_eq_self.mpr fun m hm => ?_
  obtain ⟨m', hm', rfl⟩ := List.mem_map.mp hm
  rw [hms m' hm']
  rfl

end SessionLink

/-! ### Services -/

/-- The server answers each message by itself, and the client only reads. -/
def serving (respond : μ → List F.Msg) : Side → OnMsg F
  | .server => fun _ m => (respond m).map .send
  | .client => fun _ _ => []

/-- All that a service gives to its clients, for the messages that it is given. -/
def answers (F : PacketFormat π μ) (respond : μ → List F.Msg) (ms : List μ) : List μ :=
  ms.flatMap fun m => F.program (respond m)

theorem answers_append (respond : μ → List F.Msg) (ms ms' : List μ) :
    answers F respond (ms ++ ms') = answers F respond ms ++ answers F respond ms' :=
  List.flatMap_append

theorem answers_front (respond : μ → List F.Msg) {ms ms' : List μ} (h : ms <+: ms') :
    answers F respond ms <+: answers F respond ms' := by
  obtain ⟨more, rfl⟩ := h
  rw [answers_append]
  exact List.prefix_append _ _

theorem PacketFormat.program_heartbeat {m : F.Msg} (hm : isHeartBeat (F.msgId m.1) = true) :
    F.program [m] = [] := by
  simp [PacketFormat.program, hm]

namespace SessionEnd

variable {respond : μ → List F.Msg} {x x' : SessionEnd F}

/-- What the service has said are its answers. -/
def Serves (respond : μ → List F.Msg) (x : SessionEnd F) : Prop :=
  F.program x.said = answers F respond x.got

theorem foldl_obey_send (ms : List F.Msg) (x : SessionEnd F) :
    ((ms.map Order.send).foldl obey x).said = x.said ++ ms := by
  induction ms generalizing x with
  | nil => exact (List.append_nil _).symm
  | cons m ms ih =>
      rw [List.map_cons, List.foldl_cons, ih]
      simp [obey, say]

/-- What a reader that finds a message makes the service's end say. -/
def reply (respond : μ → List F.Msg) (m : μ) : List F.Msg :=
  if F.msgId m = CS_HeartBeat_Req then [F.pongMsg]
  else if F.msgId m = CS_HeartBeat_Ack then []
  else respond m

theorem foldl_receive_said (respond : μ → List F.Msg) (ms : List μ) (x : SessionEnd F) :
    (ms.foldl (receive (serving respond .server)) x).said = x.said ++ ms.flatMap (reply respond) := by
  induction ms generalizing x with
  | nil => exact (List.append_nil _).symm
  | cons m ms ih =>
      rw [List.foldl_cons, ih, List.flatMap_cons, ← List.append_assoc]
      congr 1
      unfold receive reply
      split_ifs
      · rfl
      · exact (List.append_nil _).symm
      · exact foldl_obey_send (respond m) _

theorem program_reply (respond : μ → List F.Msg) (ms : List μ) :
    F.program (ms.flatMap (reply respond)) =
      answers F respond (ms.filter fun m => !isHeartBeat (F.msgId m)) := by
  induction ms with
  | nil => rfl
  | cons m ms ih =>
      rw [List.flatMap_cons, F.program_append, ih, List.filter_cons]
      by_cases hreq : F.msgId m = CS_HeartBeat_Req
      · have hpong : F.program [F.pongMsg] = [] :=
          F.program_heartbeat (by simp [PacketFormat.pongMsg, F.msgId_pong, isHeartBeat])
        rw [reply, if_pos hreq, hpong, if_neg (by simp [isHeartBeat, hreq])]
        rfl
      · rw [reply, if_neg hreq]
        by_cases hack : F.msgId m = CS_HeartBeat_Ack
        · rw [if_pos hack, if_neg (by simp [isHeartBeat, hack])]
          rfl
        · rw [if_neg hack, if_pos (by simp [isHeartBeat, hreq, hack])]
          rfl

/-- A read of the service's end. -/
theorem Serves.foldl_receive (ms : List μ) (h : Serves respond x) :
    Serves respond (ms.foldl (receive (serving respond .server)) x) := by
  rw [Serves, foldl_receive_said, foldl_receive_got, F.program_append, answers_append, h,
    program_reply]

/-- A step of the service's own end that is not a message of the program. -/
theorem Serves.step (h : Serves respond x) (hx : x.Sound) {e : EndEvent F}
    (hs : x.step e = some x') (hsend : ∀ m, e ≠ .send m) : Serves respond x' := by
  have hgot : x'.got = x.got := by
    obtain ⟨-, ⟨m, rfl⟩ | hsame⟩ := step_spec hx hs
    · rfl
    · exact hsame.got
  rw [Serves, step_said hs, hgot, F.program_append, h]
  suffices hnone : F.program e.said = [] by rw [hnone, List.append_nil]
  cases e with
  | send m => exact absurd rfl (hsend m)
  | sendPing => exact F.program_heartbeat (by simp [PacketFormat.pingMsg, F.msgId_ping, isHeartBeat])
  | _ => rfl

end SessionEnd

namespace SessionLink

variable {respond : μ → List F.Msg} {l l' : SessionLink F}

theorem step_serves (hi : l.Inv) (h : (l.ends .server).Serves respond) {e : LinkEvent F}
    (hs : l.step (serving respond) e = some l') (hsend : ∀ m, e ≠ .own .server (.send m)) :
    (l'.ends .server).Serves respond := by
  cases e with
  | own y e =>
      obtain ⟨s, hstep, rfl⟩ := Option.map_eq_some_iff.mp hs
      cases y with
      | client => exact h
      | server => exact h.step (hi .server).1 hstep fun m hm => hsend m (hm ▸ rfl)
  | transfer y n =>
      obtain ⟨⟨bytes, s⟩, htrans, rfl⟩ := Option.map_eq_some_iff.mp hs
      obtain ⟨-, -, -, -, -, -, -, -, rfl⟩ := SessionEnd.transfer_cases htrans
      cases y <;> exact h
  | read y n =>
      obtain ⟨-, s, hround, rfl⟩ : _ ∧ ∃ s, (l.ends y).readRound (serving respond y)
          ((l.wire y).take n) = some s ∧ _ = l' := by simpa [step] using hs
      cases y with
      | client => exact h
      | server =>
          rw [SessionEnd.readRound_eq] at hround
          obtain rfl := (Option.some.inj hround).symm
          exact h.foldl_receive _

/-- **The client is given the answers to what it has sent**, in order. -/
theorem served_prefix (hi : l.Inv) (h : (l.ends .server).Serves respond) :
    (l.ends .client).got <+: answers F respond (F.program (l.ends .client).said) := by
  have hback : (l.ends .client).got <+: F.program (l.ends .server).said := hi.got_front .client
  rw [h] at hback
  exact hback.trans (answers_front respond (hi.got_front .server))

theorem served_all (hi : l.Inv) (h : (l.ends .server).Serves respond)
    (hrest : l.AtRest (serving respond)) (hup : ∀ x, (l.ends x).Up) :
    (l.ends .client).got = answers F respond (F.program (l.ends .client).said) := by
  have hback : (l.ends .client).got = F.program (l.ends .server).said :=
    hrest.delivered hi (x := .client) (hup _) (hup _)
  have hforth : (l.ends .server).got = F.program (l.ends .client).said :=
    hrest.delivered hi (x := .server) (hup _) (hup _)
  rw [hback, h, hforth]

end SessionLink

end BlackSwan
