import BlackSwan.LoginAuth

/-! # Answers that come too late

`processApMsg` queues a time-out for an answer that was in the queue for more than
`Default_Packet_In_Queue_Time_Long`, and then goes on to handle the answer itself.  What becomes of
the player depends on both messages.

* An open login with a time-out in the queue stays so until the time-out is handled (`Awaits`), and a
  player that was told so is not answered again (`Gone`).
* `times_out_iff` says in which runs a late answer is nothing but a time-out. -/

namespace BlackSwan.Login

open Wire Runs Tables

/-! ### Handlers do not open logins

A handler leaves the queue of answers as it is, and no player gets back into the state of an open
login. -/

/-- The queue is as it was, and no login is open that was not. -/
structure Onward (s s' : LoginServer) : Prop where
  queue : s'.apg_list_ = s.apg_list_
  login : ∀ q, (s'.players q).fsm_.current_state_ = .login →
    (s.players q).fsm_.current_state_ = .login

namespace Onward

variable {s s₁ s' : LoginServer} {p : ℕ}

theorem refl (s : LoginServer) : Onward s s := ⟨rfl, fun _ h => h⟩

theorem trans (h : Onward s s₁) (h' : Onward s₁ s') : Onward s s' where
  queue := h'.queue.trans h.queue
  login q hq := h.login q (h'.login q hq)

theorem update {f : Player → Player}
    (hf : ∀ pl, (f pl).fsm_.current_state_ = .login → pl.fsm_.current_state_ = .login)
    (hq : s'.apg_list_ = s.apg_list_) (hp : s'.players = (s.updatePlayer p f).players) :
    Onward s s' where
  queue := hq
  login q := by
    rw [hp]
    by_cases e : q = p
    · rw [e, LoginServer.updatePlayer_self]
      exact hf _
    · rw [LoginServer.updatePlayer_of_ne e]
      exact fun h => h

theorem send (p : ℕ) (msgId : UInt32) (body : Bytes) (s : LoginServer) :
    Onward s (s.send p msgId body) := by
  rw [LoginServer.send_eq]
  exact ⟨rfl, fun _ h => h⟩

theorem notifyOwnerDestroy (p : ℕ) (s : LoginServer) : Onward s (s.notifyOwnerDestroy p) := by
  unfold LoginServer.notifyOwnerDestroy
  split_ifs
  · exact update (p := p) (f := fun pl => { pl with fsm_ := { pl.fsm_ with owner_ := false } })
      (fun _ h => h) rfl rfl
  · exact ⟨rfl, fun _ h => h⟩

theorem setState (p : ℕ) (state : PlayerState) (s : LoginServer) : Onward s (s.setState p state) := by
  unfold LoginServer.setState
  split_ifs with hne
  · exact refl s
  · refine update (p := p) (f := fun pl => { pl with fsm_ := pl.fsm_.enter state }) ?_ rfl rfl
    intro pl (hl : state = .login)
    exact absurd (congrArg getFsmStateType hl) hne

theorem stable : Stable Onward where
  refl := refl
  trans := trans
  send := send
  destroy := notifyOwnerDestroy
  setState := setState
  setPTID p ptid _ :=
    update (p := p) (f := fun pl => { pl with szPTID_ := ptid }) (fun _ h => h) rfl rfl
  checkApLoginData p _ s :=
    update (p := p) (f := fun pl => { pl with auth_ID_ := s.start_id }) (fun _ h => h) rfl rfl

variable (P : LoginProto) (cfg : Config)

theorem onEvent (p : ℕ) (event : FsmEvent) (clock : Clock) (s : LoginServer) :
    Onward s (s.onEvent P cfg p event clock) := stable.onEvent p P cfg event clock s

theorem onAPAuthenResult (auth : AuthInfo) (result : Result) (errorCode : Int32) (clock : Clock)
    (s : LoginServer) : Onward s (s.onAPAuthenResult P cfg auth result errorCode clock) := by
  have hap (event : FsmEvent) : Onward s (s.onAP P cfg auth event clock) := by
    unfold LoginServer.onAP
    split
    · exact refl s
    · exact onEvent P cfg _ _ clock s
  cases result
  case success => exact hap _
  all_goals exact hap _

/-- A new request, from the moment at which its player is there. -/
theorem recvGgLoginReq (req : LoginReq) (fd transID : UInt32) (clock : Clock) (s : LoginServer) :
    Onward (s.accept fd transID) (s.recvGgLoginReq P cfg (some req) fd transID clock) := by
  rw [LoginServer.recvGgLoginReq_some]
  split_ifs
  · exact stable.sendGateLoginFail _ P _ _
  · have hdata : Onward (s.accept fd transID) ((s.accept fd transID).updatePlayer s.made
        (Player.initLoginData req transID.toUInt64)) :=
      update (f := Player.initLoginData req transID.toUInt64) (fun _ h => h) rfl rfl
    exact hdata.trans (onEvent P cfg _ _ clock _)

end Onward

/-! ### A player from step to step -/

/-- A new request leaves the players that are there. -/
theorem accept_older {s : LoginServer} {p : ℕ} (hp : p < s.made) (fd transID : UInt32) :
    (s.accept fd transID).players p = s.players p ∧
    (∀ id, (s.accept fd transID).playerMap_ id = some p → s.playerMap_ id = some p) ∧
    acks p (s.accept fd transID).history = acks p s.history := by
  refine ⟨?_, ?_, ?_⟩
  · rw [LoginServer.accept, LoginServer.updatePlayer_of_ne hp.ne]
    simp [LoginServer.log, LoginServer.fetchPlayer, hp.ne]
  · intro id hid
    have hid : s.playerMap_.emplace (s.player_idx_ + 1) s.made id = some p := hid
    unfold Table.emplace at hid
    split_ifs at hid
    · exact hid
    · rcases Table.set_eq_some.mp hid with ⟨-, rfl⟩ | ⟨-, hid⟩
      · exact absurd hp (Nat.lt_irrefl _)
      · exact hid
  · show acks p (s.history ++ [_]) = _
    rw [acks_append]
    rfl

section

variable {P : LoginProto} {cfg : Config} {s s' : LoginServer} {e : LoginEvent} {p : ℕ}
  {auth : AuthInfo}

/-- What a step leaves of a player that is there: its id, and when it is off the file, everything. -/
structure Older (p : ℕ) (s s' : LoginServer) : Prop where
  made : p < s'.made
  id_ : (s'.players p).id_ = (s.players p).id_
  filed : ∀ id, s'.playerMap_ id = some p → s.playerMap_ id = some p
  acks : (∀ id, s.playerMap_ id ≠ some p) → acks p s'.history = acks p s.history

theorem step_older (hs : LoginServer.step P cfg s e = some s') (hp : p < s.made) : Older p s s' := by
  obtain hc | ⟨s₁, q, hc, ⟨idq, hq⟩, ha⟩ | ⟨s₁, fd, transID, hc, -, ha⟩ := step_cases hs
  · refine ⟨hc.made ▸ hp, by rw [hc.players], fun id hid => by rwa [hc.playerMap_] at hid, ?_⟩
    intro _
    exact hc.acks_eq p
  · refine ⟨?_, ?_, ?_, ?_⟩
    · rw [ha.made, hc.made]
      exact hp
    · rw [(ha.origin p).1, hc.players]
    · intro id hid
      rw [← hc.playerMap_]
      exact ha.filed id p hid
    · intro hoff
      rw [← hc.playerMap_] at hoff
      have hne : q ≠ p := by
        rintro rfl
        exact hoff idq hq
      rw [ha.acks_eq hne.symm, hc.acks_eq]
  · have hp₁ : p < s₁.made := hc.made ▸ hp
    obtain ⟨hpl, hfile, hacks⟩ := accept_older hp₁ fd transID
    refine ⟨?_, ?_, ?_, ?_⟩
    · rw [ha.made]
      exact Nat.lt_succ_of_lt hp₁
    · rw [(ha.origin p).1, hpl, hc.players]
    · intro id hid
      rw [← hc.playerMap_]
      exact hfile id (ha.filed id p hid)
    · intro _
      rw [ha.acks_eq hp.ne, hacks, hc.acks_eq]

/-- A login that is open after a step was open before it. -/
theorem login_step (hs : LoginServer.step P cfg s e = some s') (hp : p < s.made)
    (hl : (s'.players p).fsm_.current_state_ = .login) :
    (s.players p).fsm_.current_state_ = .login := by
  cases e with
  | processMsg clock =>
      obtain ⟨m, s₁, hc, rfl⟩ := step_processMsg hs
      have hp₁ : p < s₁.made := hc.made ▸ hp
      rw [← hc.players]
      obtain e | ⟨req, e⟩ | ⟨id, q, -, e⟩ := processMsg_cases P cfg clock s₁ m
      · rw [e] at hl
        exact hl
      · rw [e] at hl
        have hacc := (Onward.recvGgLoginReq P cfg req _ _ clock _).login p hl
        rwa [(accept_older (s := { s₁ with handling := m.transID }) hp₁ _ _).1] at hacc
      · rw [e] at hl
        have hlog := (Onward.onEvent P cfg q _ clock _).login p hl
        exact hlog
  | processApMsg clock =>
      obtain ⟨m, rest, -, rfl⟩ := step_processApMsg hs
      obtain ⟨l, e | ⟨auth, q, event, -, -, -, e⟩⟩ :=
        processApMsg_cases P cfg clock { s with apg_list_ := rest } m
      · rw [e] at hl
        exact hl
      · rw [e] at hl
        have hlog := (Onward.onEvent P cfg q event clock _).login p hl
        exact hlog
  | addSession _ => rwa [(step_calm hs (by simp)).players] at hl
  | delSession _ => rwa [(step_calm hs (by simp)).players] at hl
  | ping _ => rwa [(step_calm hs (by simp)).players] at hl
  | recvData _ _ => rwa [(step_calm hs (by simp)).players] at hl
  | operateResult _ _ _ _ _ => rwa [(step_calm hs (by simp)).players] at hl

/-- Handling an answer leaves the other ones in the queue. -/
theorem queue_processApMsg (P : LoginProto) (cfg : Config) (m : APMsg) (clock : Clock)
    (s : LoginServer) :
    ∃ l, (s.processApMsg P cfg m clock).apg_list_ = s.apg_list_ ++ l := by
  unfold LoginServer.processApMsg
  split
  · exact ⟨[], (List.append_nil _).symm⟩
  · rename_i auth _
    obtain ⟨l, hl⟩ : ∃ l, (if clock.now - m.tick > Default_Packet_In_Queue_Time_Long then
        s.operateResult (some auth) m.operation .time_out 2 clock.now else s).apg_list_ =
          s.apg_list_ ++ l := by
      split_ifs
      · exact ⟨_, rfl⟩
      · exact ⟨[], (List.append_nil _).symm⟩
    refine ⟨l, ?_⟩
    generalize (if clock.now - m.tick > Default_Packet_In_Queue_Time_Long then
      s.operateResult (some auth) m.operation .time_out 2 clock.now else s) = t at hl ⊢
    dsimp only
    split
    · rw [(Onward.onAPAuthenResult P cfg auth _ _ clock _).queue, hl]
    · exact hl

/-- An answer in the queue stays there until the main thread takes it. -/
theorem queue_step (hs : LoginServer.step P cfg s e = some s') {m : APMsg} (hm : m ∈ s.apg_list_) :
    m ∈ s'.apg_list_ ∨ ∃ clock rest, e = .processApMsg clock ∧ s.apg_list_ = m :: rest := by
  cases e with
  | processMsg clock =>
      left
      unfold LoginServer.step at hs
      split_ifs at hs
      dsimp only at hs
      split at hs
      · cases hs
      · rename_i m' rest _
        obtain rfl := Option.some.inj hs
        obtain e | ⟨req, e⟩ | ⟨id, q, -, e⟩ :=
          processMsg_cases P cfg clock { s with message_list_ := rest } m'
        · rw [e]
          exact hm
        · rw [e, (Onward.recvGgLoginReq P cfg req _ _ clock _).queue]
          exact hm
        · rw [e, (Onward.onEvent P cfg q _ clock _).queue]
          exact hm
  | processApMsg clock =>
      obtain ⟨m', rest, hlist, rfl⟩ := step_processApMsg hs
      rw [hlist] at hm
      rcases List.mem_cons.mp hm with rfl | hm
      · exact .inr ⟨clock, rest, rfl, hlist⟩
      · left
        obtain ⟨l, hl⟩ := queue_processApMsg P cfg m' clock { s with apg_list_ := rest }
        rw [hl]
        exact List.mem_append_left _ hm
  | addSession fd =>
      left
      unfold LoginServer.step at hs
      split_ifs at hs
      obtain rfl := Option.some.inj hs
      exact hm
  | delSession fd =>
      left
      unfold LoginServer.step at hs
      split_ifs at hs
      obtain rfl := Option.some.inj hs
      exact hm
  | ping fd =>
      left
      unfold LoginServer.step at hs
      dsimp only at hs
      split_ifs at hs
      obtain rfl := Option.some.inj hs
      exact hm
  | recvData fd data =>
      left
      have hkept : Ends (fun t => t.apg_list_ = s.apg_list_) (fun _ _ => False)
          (LoginServer.onRecvData fd data s) := by
        apply ends_recvLoop
        · exact fun _ h => h
        · exact fun _ _ h => h
        · rfl
      unfold LoginServer.step at hs
      split_ifs at hs
      dsimp only at hs
      split at hs
      · rename_i n t ht
        obtain rfl := Option.some.inj hs
        rw [ht] at hkept
        rw [hkept]
        exact hm
      · rename_i n t ht
        rw [ht] at hkept
        exact hkept.elim
  | operateResult auth operation result nErrorCode now =>
      left
      unfold LoginServer.step at hs
      split_ifs at hs
      obtain rfl := Option.some.inj hs
      exact List.mem_append_left _ hm

/-! ### Time-outs -/

/-- The answer is to be handled as a time-out: it has expired, or it is the time-out of one that
has. -/
def APMsg.due (clock : Clock) (m : APMsg) : Bool :=
  m.operation == .authen_ap && (m.expired clock || (m.result == .time_out && m.nErrorCode == 2))

/-- The gate was told that the login of the player failed by a time-out, and the player is gone. -/
structure ToldTimeout (P : LoginProto) (p : ℕ) (s s' : LoginServer) : Prop where
  sent : ∃ a, s.packet p LS_GG_Login_ACK
      (P.serializeLoginAck { result := PROTO_FAILURE, error := 2 }) = [a] ∧
    s'.history = s.history ++ [a]
  gone : ∀ id, s'.playerMap_ id ≠ some p

/-- A time-out and nothing else: nobody comes online, an open login is told so or still has the
time-out before it, and nothing is sent otherwise. -/
structure HandledAsTimeout (P : LoginProto) (auth : AuthInfo) (s s' : LoginServer) : Prop where
  offline : ∀ q, (s'.players q).isOnline → (s.players q).isOnline
  answered : ∀ p, s.playerOf auth = some p → (s.players p).fsm_.current_state_ = .login →
    ToldTimeout P p s s' ∨
      s'.history = s.history ∧ s'.Waiting p ∧ ∃ now, timeoutOf auth now ∈ s'.apg_list_
  idle : (∀ p, s.playerOf auth = some p → (s.players p).fsm_.current_state_ ≠ .login) →
    s'.history = s.history

/-- If a step handles an answer that is due, it handles it as a time-out. -/
def AsTimeout (P : LoginProto) (s : LoginServer) (e : LoginEvent) (s' : LoginServer) : Prop :=
  match e with
  | .processApMsg clock => ∀ m rest auth, s.apg_list_ = m :: rest → m.authInfo = some auth →
      m.due clock = true → HandledAsTimeout P auth s s'
  | _ => True

/-- What an answer that is due must be like for the player `p`: a success that does not get past the
checks, or a failure with the code of a time-out, which the gate can be told. -/
def lateOk (p : ℕ) (auth : AuthInfo) (m : APMsg) (s : LoginServer) : Bool :=
  if m.result = .success then !(s.players p).isFor auth
  else m.nErrorCode == 2 && decide (s.Connected p)

/-- Every answer that is due and meets an open login is like this. -/
def timeoutOk (s : LoginServer) : LoginEvent → Bool
  | .processApMsg clock =>
      match s.apg_list_ with
      | [] => true
      | m :: _ => !m.due clock || m.authInfo.all fun auth => (s.playerOf auth).all fun p =>
          (s.players p).fsm_.current_state_ != .login || lateOk p auth m s
  | _ => true

/-- What is used of the protobuf library: answers about failures fit into a packet, and can be told
apart. -/
structure LoginProto.TellsApart (P : LoginProto) : Prop where
  fits : ∀ error, (P.serializeLoginAck { result := PROTO_FAILURE, error }).length ≤ 2 ^ 32 - 1
  injective : ∀ error error', P.serializeLoginAck { result := PROTO_FAILURE, error } =
    P.serializeLoginAck { result := PROTO_FAILURE, error := error' } → error = error'

theorem packet_inj {msgId : UInt32} {body body' : Bytes} {a : LoginAct}
    (hlen : body.length ≤ 2 ^ 32 - 1) (hlen' : body'.length ≤ 2 ^ 32 - 1)
    (h : s.packet p msgId body = [a]) (h' : s.packet p msgId body' = [a]) : body = body' := by
  have hne : ¬ body.length > 2 ^ 32 - 1 := by omega
  have hne' : ¬ body'.length > 2 ^ 32 - 1 := by omega
  have hsize : (UInt32.ofNat body.length).toNat = body.length := by
    simp
    omega
  have hsize' : (UInt32.ofNat body'.length).toNat = body'.length := by
    simp
    omega
  unfold LoginServer.packet at h h'
  cases hgs : s.session_map_ (s.players p).gate_session_fd_ with
  | none => simp [hgs] at h
  | some gs =>
      simp only [hgs, if_neg hne, if_neg hne'] at h h'
      have heq := h.trans h'.symm
      simp only [List.cons.injEq, and_true, LoginAct.sent.injEq, true_and, encodeInnerPacket,
        hsize, hsize', List.take_length] at heq
      have hrest := List.append_cancel_left (List.append_cancel_left heq)
      exact (List.append_inj hrest (by simp)).2

/-- The failure of an open login. -/
theorem sendGateLoginFail_eq (h : Filed s) (hw : s.Waiting p) (errorCode : UInt32) :
    (s.sendGateLoginFail P p errorCode).history = s.history ++ s.packet p LS_GG_Login_ACK
      (P.serializeLoginAck { result := PROTO_FAILURE, error := errorCode }) ∧
    (∀ q, ((s.sendGateLoginFail P p errorCode).players q).isOnline ↔ (s.players q).isOnline) ∧
    ∀ id, (s.sendGateLoginFail P p errorCode).playerMap_ id ≠ some p := by
  rw [LoginServer.sendGateLoginFail, LoginServer.changeState_logout, LoginServer.send_eq,
    LoginServer.notifyOwnerDestroy, if_pos (h.owner_ _ p hw.1)]
  refine ⟨rfl, ?_, ?_⟩
  · intro q
    by_cases hq : q = p
    · rw [hq, LoginServer.updatePlayer_self]
      rfl
    · rw [LoginServer.updatePlayer_of_ne hq]
      rfl
  · intro id hid
    obtain ⟨hne, hid⟩ := Table.erase_eq_some.mp hid
    exact hne (h.id_ id p hid).symm

/-! ### One answer -/

section

variable {m : APMsg} {clock : Clock} {rest : List APMsg}

theorem waiting_of_playerOf (h : Filed s) (hof : s.playerOf auth = some p)
    (hl : (s.players p).fsm_.current_state_ = .login) : s.Waiting p := by
  refine ⟨?_, hl⟩
  rw [h.id_ _ p hof]
  exact hof

/-- A success that is due has expired. -/
theorem requeued_of_success (hdue : m.due clock = true) (hres : m.result = .success) :
    m.requeued auth clock = [timeoutOf auth clock.now] := by
  simp only [APMsg.due, hres, Bool.and_eq_true] at hdue
  have hexp : m.expired clock = true := by simpa using hdue.2
  rw [APMsg.requeued, if_pos hexp]

/-- The condition is enough. -/
theorem handled_of_lateOk (h : Filed s) (hdue : m.due clock = true)
    (hok : ∀ p, s.playerOf auth = some p → (s.players p).fsm_.current_state_ = .login →
      lateOk p auth m s = true) :
    HandledAsTimeout P auth s (({ s with apg_list_ := rest ++ m.requeued auth clock } :
      LoginServer).onAPAuthenResult P cfg auth m.result m.nErrorCode clock) := by
  set t : LoginServer := { s with apg_list_ := rest ++ m.requeued auth clock } with ht
  have hfile : Filed t := h.calm (calm_setApgList s _)
  by_cases hidle : ∀ p, s.playerOf auth = some p → (s.players p).fsm_.current_state_ ≠ .login
  · rw [onAPAuthenResult_idle P cfg (s := t) hidle]
    exact ⟨fun _ hq => hq, fun p hof hl => absurd hl (hidle p hof), fun _ => rfl⟩
  · simp only [not_forall, ne_eq, not_not] at hidle
    obtain ⟨p, hof, hl⟩ := hidle
    have honly (q : ℕ) (hq : s.playerOf auth = some q) : q = p := Option.some.inj (hq.symm.trans hof)
    have hw := waiting_of_playerOf h hof hl
    have hcond := hok p hof hl
    unfold lateOk at hcond
    split_ifs at hcond with hres
    · rw [hres, onAPAuthenResult_success P cfg (s := t) hof hl, if_neg (by simpa using hcond)]
      refine ⟨fun _ hq => hq, ?_, fun _ => rfl⟩
      intro q hq _
      obtain rfl := honly q hq
      refine .inr ⟨rfl, hw, clock.now, ?_⟩
      simp [ht, requeued_of_success hdue hres]
    · rw [onAPAuthenResult_error P cfg (s := t) hof hl hres]
      simp only [Bool.and_eq_true, beq_iff_eq, decide_eq_true_eq] at hcond
      obtain ⟨hcode, hconn⟩ := hcond
      obtain ⟨hhist, honline, hgone⟩ :=
        sendGateLoginFail_eq (P := P) hfile (p := p) hw m.nErrorCode.toUInt32
      obtain ⟨a, ha⟩ := (packet_eq_singleton_iff LS_GG_Login_ACK
        (P.serializeLoginAck { result := PROTO_FAILURE, error := 2 })).mpr hconn
      refine ⟨fun q hq => (honline q).mp hq, ?_, fun hno => absurd hl (hno p hof)⟩
      intro q hq _
      obtain rfl := honly q hq
      refine .inl ⟨⟨a, ha, ?_⟩, hgone⟩
      rw [hhist, hcode, ← ha]
      rfl

/-- The condition is necessary. -/
theorem lateOk_of_handled (hP : P.TellsApart) (h : Filed s) (hof : s.playerOf auth = some p)
    (hl : (s.players p).fsm_.current_state_ = .login)
    (hh : HandledAsTimeout P auth s (({ s with apg_list_ := rest ++ m.requeued auth clock } :
      LoginServer).onAPAuthenResult P cfg auth m.result m.nErrorCode clock)) :
    lateOk p auth m s = true := by
  set t : LoginServer := { s with apg_list_ := rest ++ m.requeued auth clock } with ht
  have hfile : Filed t := h.calm (calm_setApgList s _)
  have hw := waiting_of_playerOf h hof hl
  unfold lateOk
  split_ifs with hres
  · by_contra hno
    rw [hres, onAPAuthenResult_success P cfg (s := t) hof hl, if_pos (by simpa using hno)] at hh
    exact Indices.not_online_of_waiting hw (hh.offline p (isOnline_handleAPSuccCallback P hfile hl))
  · rw [onAPAuthenResult_error P cfg (s := t) hof hl hres] at hh
    obtain ⟨hhist, -, hgone⟩ :=
      sendGateLoginFail_eq (P := P) hfile (p := p) hw m.nErrorCode.toUInt32
    rcases hh.answered p hof hl with ⟨⟨a, ha, hsent⟩, -⟩ | ⟨-, hw', -⟩
    · have hpack : s.packet p LS_GG_Login_ACK (P.serializeLoginAck
          { result := PROTO_FAILURE, error := m.nErrorCode.toUInt32 }) = [a] :=
        List.append_cancel_left (hhist.symm.trans hsent)
      have hcode := hP.injective _ _ (packet_inj (hP.fits _) (hP.fits _) hpack ha)
      have hcode : m.nErrorCode = 2 := by simpa using congrArg UInt32.toInt32 hcode
      simp only [Bool.and_eq_true, beq_iff_eq, decide_eq_true_eq]
      exact ⟨hcode, (packet_eq_singleton_iff _ _).mp ⟨a, ha⟩⟩
    · exact absurd hw'.1 (hgone _)

end

/-! ### Runs -/

section

variable {m : APMsg} {clock : Clock} {rest : List APMsg}

theorem due_operation (hdue : m.due clock = true) : m.operation = .authen_ap := by
  simp only [APMsg.due, Bool.and_eq_true, beq_iff_eq] at hdue
  exact hdue.1

/-- A step that handles an answer to an authentication. -/
theorem step_authen (hlist : s.apg_list_ = m :: rest) (hm : m.authInfo = some auth)
    (hop : m.operation = .authen_ap)
    (hs : LoginServer.step P cfg s (.processApMsg clock) = some s') :
    s' = ({ s with apg_list_ := rest ++ m.requeued auth clock } : LoginServer).onAPAuthenResult
      P cfg auth m.result m.nErrorCode clock := by
  obtain ⟨m', rest', hlist', rfl⟩ := step_processApMsg hs
  obtain ⟨rfl, rfl⟩ := List.cons.inj (hlist.symm.trans hlist')
  rw [processApMsg_authen P cfg hm hop]

theorem timeoutOk_iff (hlist : s.apg_list_ = m :: rest) (hdue : m.due clock = true)
    (hm : m.authInfo = some auth) : timeoutOk s (.processApMsg clock) = true ↔
      ∀ p, s.playerOf auth = some p → (s.players p).fsm_.current_state_ = .login →
        lateOk p auth m s = true := by
  simp only [timeoutOk, hlist, hdue, hm, Bool.not_true, Bool.false_or, Option.all_some,
    Option.all_eq_true, Bool.or_eq_true, bne_iff_ne, ne_eq, or_iff_not_imp_left, not_not]

theorem step_asTimeout (h : Filed s) (hs : LoginServer.step P cfg s e = some s')
    (hok : timeoutOk s e = true) : AsTimeout P s e s' := by
  cases e with
  | processApMsg clock =>
      intro m rest auth hlist hm hdue
      rw [step_authen hlist hm (due_operation hdue) hs]
      exact handled_of_lateOk h hdue ((timeoutOk_iff hlist hdue hm).mp hok)
  | processMsg clock => trivial
  | addSession fd => trivial
  | delSession fd => trivial
  | ping fd => trivial
  | recvData fd data => trivial
  | operateResult auth operation result nErrorCode now => trivial

theorem timeoutOk_of_asTimeout (hP : P.TellsApart) (h : Filed s)
    (hs : LoginServer.step P cfg s e = some s') (hR : AsTimeout P s e s') :
    timeoutOk s e = true := by
  cases e with
  | processApMsg clock =>
      obtain ⟨m, rest, hlist, -⟩ := step_processApMsg hs
      by_cases hdue : m.due clock = true
      · cases hm : m.authInfo with
        | none => simp [timeoutOk, hlist, hm]
        | some auth =>
            have hh := hR m rest auth hlist hm hdue
            rw [step_authen hlist hm (due_operation hdue) hs] at hh
            exact (timeoutOk_iff hlist hdue hm).mpr fun p hof hl =>
              lateOk_of_handled hP h hof hl hh
      · simp [timeoutOk, hlist, hdue]
  | processMsg clock => rfl
  | addSession fd => rfl
  | delSession fd => rfl
  | ping fd => rfl
  | recvData fd data => rfl
  | operateResult auth operation result nErrorCode now => rfl

/-- An open login has a time-out in the queue. -/
structure Awaits (p : ℕ) (auth : AuthInfo) (s : LoginServer) : Prop where
  made : p < s.made
  filed : Filed s
  handle : strtoull (auth.getVal .gl_csHandle) = (s.players p).id_
  queued : s.Waiting p → ∃ now, timeoutOf auth now ∈ s.apg_list_

/-- After a failure the login is no longer open. -/
theorem gone_of_failure (h : Filed s) (hlist : s.apg_list_ = m :: rest)
    (hm : m.authInfo = some auth) (hop : m.operation = .authen_ap) (hres : m.result ≠ .success)
    (hof : s.playerOf auth = some p) (hl : (s.players p).fsm_.current_state_ = .login)
    (hs : LoginServer.step P cfg s (.processApMsg clock) = some s') :
    ∀ id, s'.playerMap_ id ≠ some p := by
  set t : LoginServer := { s with apg_list_ := rest ++ m.requeued auth clock } with ht
  have hfile : Filed t := h.calm (calm_setApgList s _)
  have hw : s.Waiting p := waiting_of_playerOf h hof hl
  rw [step_authen hlist hm hop hs, onAPAuthenResult_error P cfg (s := t) hof hl hres]
  exact (sendGateLoginFail_eq hfile (p := p) hw _).2.2

theorem Awaits.step (h : Awaits p auth s) (hs : LoginServer.step P cfg s e = some s') :
    Awaits p auth s' := by
  have hold := step_older hs h.made
  refine ⟨hold.made, h.filed.step hs, h.handle.trans hold.id_.symm, ?_⟩
  intro hw'
  have hfile := hold.filed _ hw'.1
  have hl := login_step hs h.made hw'.2
  rw [hold.id_] at hfile
  obtain ⟨now, hmem⟩ := h.queued ⟨hfile, hl⟩
  obtain hstay | ⟨clock, rest, rfl, hlist⟩ := queue_step hs hmem
  · exact ⟨now, hstay⟩
  · -- the time-out is handled, and the player is gone
    have hof : s.playerOf auth = some p := by
      rw [LoginServer.playerOf, h.handle]
      exact hfile
    exact absurd hw'.1
      (gone_of_failure h.filed hlist rfl rfl (by simp [timeoutOf]) hof hl hs _)

/-- When an answer that is due has been handled, the login is not open any more or has a time-out in
the queue. -/
theorem awaits_of_due (h : Filed s) (hlist : s.apg_list_ = m :: rest) (hm : m.authInfo = some auth)
    (hdue : m.due clock = true) (hof : s.playerOf auth = some p)
    (hl : (s.players p).fsm_.current_state_ = .login)
    (hs : LoginServer.step P cfg s (.processApMsg clock) = some s') : Awaits p auth s' := by
  have hlt := h.known _ p hof
  have hold := step_older hs hlt
  refine ⟨hold.made, h.step hs, ?_, ?_⟩
  · rw [hold.id_]
    exact (h.id_ _ p hof).symm
  · intro hw'
    by_cases hres : m.result = .success
    · refine ⟨clock.now, ?_⟩
      rw [step_authen hlist hm (due_operation hdue) hs,
        (Onward.onAPAuthenResult P cfg auth _ _ clock _).queue, requeued_of_success hdue hres]
      simp
    · exact absurd hw'.1 (gone_of_failure h hlist hm (due_operation hdue) hres hof hl hs _)

/-- A player that is off the file is not answered again. -/
structure Gone (p n : ℕ) (s : LoginServer) : Prop where
  made : p < s.made
  off : ∀ id, s.playerMap_ id ≠ some p
  acks : acks p s.history = n

theorem Gone.step {n : ℕ} (h : Gone p n s) (hs : LoginServer.step P cfg s e = some s') :
    Gone p n s' := by
  have hold := step_older hs h.made
  exact ⟨hold.made, fun id hid => h.off id (hold.filed id hid), (hold.acks h.off).trans h.acks⟩

end

end

/-- **Late answers in a run**: every step that handles one handles it as a time-out.  From then on to
the end of the run, the time-out is in the queue if the login of its player is still open, and a
player that was told of it is not answered again. -/
structure TimesOut (P : LoginProto) (cfg : Config) (es : List LoginEvent) (s : LoginServer) : Prop where
  handled : (loginMachine P cfg).Throughout (AsTimeout P) es
  answered : ∀ es₁ clock es₂ s₁ s₂ m rest auth p, es = es₁ ++ .processApMsg clock :: es₂ →
    (loginMachine P cfg).run es₁ = some s₁ →
    (loginMachine P cfg).step s₁ (.processApMsg clock) = some s₂ → s₁.apg_list_ = m :: rest →
    m.authInfo = some auth → m.due clock = true → s₁.playerOf auth = some p →
    (s₁.players p).fsm_.current_state_ = .login →
      (s.Waiting p → ∃ now, timeoutOf auth now ∈ s.apg_list_) ∧
      (ToldTimeout P p s₁ s₂ → acks p s.history = acks p s₂.history)

theorem timesOut_of_throughout {P : LoginProto} {cfg : Config} {es : List LoginEvent}
    {s : LoginServer} (h : (loginMachine P cfg).run es = some s)
    (hall : (loginMachine P cfg).Throughout (AsTimeout P) es) : TimesOut P cfg es s := by
  refine ⟨hall, ?_⟩
  intro es₁ clock es₂ s₁ s₂ m rest auth p hes h₁ hs hlist hm hdue hof hl
  have hrest : (loginMachine P cfg).exec es₂ s₂ = some s := by
    rw [hes, Machine.run, Machine.exec_append, ← Machine.run, h₁, Option.bind_some, Machine.exec,
      hs, Option.bind_some] at h
    exact h
  have hs : LoginServer.step P cfg s₁ (.processApMsg clock) = some s₂ := hs
  have hfile := filed_of_run h₁
  constructor
  · have hawaits : Awaits p auth s₂ := awaits_of_due hfile hlist hm hdue hof hl hs
    exact ((loginMachine P cfg).exec_invariant (P := Awaits p auth)
      (fun _ _ _ h hs => h.step hs) hrest hawaits).queued
  · intro htold
    have hgone : Gone p (acks p s₂.history) s₂ :=
      ⟨(step_older hs (hfile.known _ p hof)).made, htold.gone, rfl⟩
    exact ((loginMachine P cfg).exec_invariant (P := Gone p (acks p s₂.history))
      (fun _ _ _ h hs => h.step hs) hrest hgone).acks

/-- **When late answers are time-outs**: in the runs in which every late answer that meets an open
login is a success that does not get past the checks, or a failure with the code of a time-out for a
gate that is connected; and only in these, if failures can be told apart. -/
theorem times_out_iff (P : LoginProto) (cfg : Config) (es : List LoginEvent) (s : LoginServer)
    (h : (loginMachine P cfg).run es = some s) :
    ((loginMachine P cfg).Along (fun s e => timeoutOk s e = true) es → TimesOut P cfg es s) ∧
    (P.TellsApart → TimesOut P cfg es s →
      (loginMachine P cfg).Along (fun s e => timeoutOk s e = true) es) := by
  constructor
  · intro hok
    exact timesOut_of_throughout h ((loginMachine P cfg).throughout_of_along Filed (filed_init P cfg)
      (fun _ _ _ hi hs => hi.step hs) (fun _ _ _ hi hs => step_asTimeout hi hs) h hok)
  · intro hP hto
    refine (loginMachine P cfg).along_of_throughout (R := AsTimeout P) Filed (filed_init P cfg)
      (fun _ _ _ hi hs => hi.step hs) ?_ h hto.handled
    intro s e s' hi hs hR
    exact timeoutOk_of_asTimeout hP hi hs hR

theorem varint_inj : ∀ {k n n' : ℕ}, n < 128 ^ k → n' < 128 ^ k → varint k n = varint k n' → n = n'
  | 0, n, n', h, h', _ => by
      rw [Nat.pow_zero] at h h'
      omega
  | k + 1, n, n', h, h', e => by
      rw [varint, varint] at e
      split_ifs at e
      all_goals
        obtain ⟨ehead, etail⟩ := List.cons.inj e
        have ehead := congrArg UInt8.toNat ehead
        simp only [UInt8.toNat_ofNat'] at ehead
      · omega
      · omega
      · omega
      · rw [Nat.pow_succ'] at h h'
        have hdiv := varint_inj (Nat.div_lt_of_lt_mul h) (Nat.div_lt_of_lt_mul h') etail
        omega

theorem length_varint_le : ∀ k n : ℕ, (varint k n).length ≤ k
  | 0, n => Nat.le_refl 0
  | k + 1, n => by
      rw [varint]
      split_ifs
      · simp
      · rw [List.length_cons]
        exact Nat.succ_le_succ (length_varint_le k _)

theorem plainProto_tellsApart : plainProto.TellsApart := by
  have hack (error : UInt32) : plainProto.serializeLoginAck { result := PROTO_FAILURE, error } =
      uintField 40 error := by
    simp [plainProto, uintField, stringField, PROTO_FAILURE]
  constructor
  · intro error
    rw [hack, uintField]
    have hlen := length_varint_le 5 error.toNat
    split_ifs
    · decide
    · rw [List.length_cons]
      omega
  · intro error error' e
    rw [hack, hack, uintField, uintField] at e
    split_ifs at e with h h'
    · rw [h, h']
    · have hlt := error.toNat_lt
      have hlt' := error'.toNat_lt
      exact UInt32.toNat_inj.mp (varint_inj (by omega) (by omega) (List.cons.inj e).2)

/-- A little more than ten seconds later. -/
def tooLate : Clock := ⟨10, 10001⟩

/-- The account `A` is confirmed too late: first the success is handled, then the time-out. -/
theorem times_out_confirmed : ∃ s,
    (loginMachine plainProto withAP).run (confirmed (bodyOf 65) ++
      [.processApMsg tooLate, .processApMsg tooLate]) = some s ∧
    s.playerMap_ 1 = none ∧ acks 0 s.history = 1 ∧
    TimesOut plainProto withAP (confirmed (bodyOf 65) ++
      [.processApMsg tooLate, .processApMsg tooLate]) s ∧
    (loginMachine plainProto withAP).Along (fun s e => timeoutOk s e = true)
      (confirmed (bodyOf 65) ++ [.processApMsg tooLate, .processApMsg tooLate]) := by
  obtain ⟨s, h⟩ : ∃ s, (loginMachine plainProto withAP).run (confirmed (bodyOf 65) ++
      [.processApMsg tooLate, .processApMsg tooLate]) = some s :=
    Option.isSome_iff_exists.mp (by decide +kernel)
  have hobs : ((loginMachine plainProto withAP).run (confirmed (bodyOf 65) ++
      [.processApMsg tooLate, .processApMsg tooLate])).map (fun s =>
      (s.playerMap_ 1, acks 0 s.history)) = some (none, 1) := by decide +kernel
  rw [h] at hobs
  simp only [Option.map_some, Option.some.injEq, Prod.mk.injEq] at hobs
  obtain ⟨hif, honly⟩ := times_out_iff plainProto withAP _ s h
  have hto := hif (by decide +kernel)
  exact ⟨s, h, hobs.1, hobs.2, hto, honly plainProto_tellsApart hto⟩

/-- The empty account is confirmed too late, and comes online. -/
theorem late_success_online : ∃ s s',
    (loginMachine plainProto withAP).run (confirmed []) = some s ∧ s.Waiting 0 ∧
    s.apg_list_ = [⟨some (authFor 1 0), 0, .authen_ap, .success, 0⟩] ∧
    (loginMachine plainProto withAP).run (confirmed [] ++ [.processApMsg tooLate]) = some s' ∧
    (s'.players 0).isOnline ∧
    ¬ TimesOut plainProto withAP (confirmed [] ++ [.processApMsg tooLate]) s' := by
  obtain ⟨s, h⟩ : ∃ s, (loginMachine plainProto withAP).run (confirmed []) = some s :=
    Option.isSome_iff_exists.mp (by decide +kernel)
  have hobs : ((loginMachine plainProto withAP).run (confirmed [])).map (fun s => s.confirms) =
      some true := by decide +kernel
  obtain ⟨s', h'⟩ : ∃ s', (loginMachine plainProto withAP).run
      (confirmed [] ++ [.processApMsg tooLate]) = some s' :=
    Option.isSome_iff_exists.mp (by decide +kernel)
  have hobs' : ((loginMachine plainProto withAP).run
      (confirmed [] ++ [.processApMsg tooLate])).map (fun s => decide (s.players 0).isOnline) =
      some true := by decide +kernel
  obtain ⟨s₁, h₁, hs⟩ := Machine.run_snoc_eq_some _ h'
  obtain rfl : s = s₁ := Option.some.inj (h.symm.trans h₁)
  rw [h] at hobs
  rw [h'] at hobs'
  simp only [LoginServer.confirms, Option.map_some, Option.some.injEq, decide_eq_true_eq]
    at hobs hobs'
  obtain ⟨hw, -, -, -, hlist⟩ := hobs
  refine ⟨s, s', h, hw, hlist, h', hobs', ?_⟩
  intro hto
  obtain ⟨-, hlast⟩ := ((loginMachine plainProto withAP).throughout_snoc _ h hs).mp hto.handled
  exact Indices.not_online_of_waiting hw
    ((hlast _ [] _ hlist rfl (by decide)).offline 0 hobs')

end BlackSwan.Login
