import BlackSwan.LoginData
import BlackSwan.LoginLogoff

/-! # The answers of the AP

`checkApLoginData` gives the AP an `AuthInfo` with the id of the player, and the answer comes back
with it, by way of a queue.  The checks of `LoginState::onEvent` compare the account of the player
with the one in the `AuthInfo`, which nobody has put there, so that an answer passes only for the
empty account.

`own_success_iff` says when a success logs its own player in. -/

namespace BlackSwan.Login

open Wire Runs Tables

/-! ### Handling an answer -/

/-- The identity checks of `LoginState::onEvent`. -/
def Player.isFor (auth : AuthInfo) (pl : Player) : Bool :=
  pl.szAuthenID_ == auth.getVal .gl_csAuthenID && pl.auth_ID_ == auth.auth_id_

/-- The answer was in the queue for too long. -/
def APMsg.expired (clock : Clock) (m : APMsg) : Bool :=
  decide (clock.now - m.tick > Default_Packet_In_Queue_Time_Long)

/-- What `processApMsg` queues for an expired answer. -/
def timeoutOf (auth : AuthInfo) (now : ℤ) : APMsg := ⟨some auth, now, .authen_ap, .time_out, 2⟩

/-- What is queued again when an answer is handled. -/
def APMsg.requeued (auth : AuthInfo) (clock : Clock) (m : APMsg) : List APMsg :=
  if m.expired clock then [timeoutOf auth clock.now] else []

namespace LoginServer

/-- The player that an answer is for. -/
def playerOf (auth : AuthInfo) (s : LoginServer) : Option ℕ :=
  s.playerMap_ (strtoull (auth.getVal .gl_csHandle))

/-- The login of the player is open and the answer gets past the checks. -/
def Passes (p : ℕ) (auth : AuthInfo) (s : LoginServer) : Prop :=
  s.playerOf auth = some p ∧ (s.players p).fsm_.current_state_ = .login ∧
    (s.players p).isFor auth = true

/-- The gate of the player is connected. -/
def Connected (p : ℕ) (s : LoginServer) : Prop :=
  (s.session_map_ (s.players p).gate_session_fd_).isSome = true

instance (p : ℕ) (s : LoginServer) : Decidable (s.Connected p) := inferInstanceAs (Decidable (_ = _))

instance (p : ℕ) (s : LoginServer) : Decidable (s.Waiting p) := inferInstanceAs (Decidable (_ ∧ _))

end LoginServer

section

variable (P : LoginProto) (cfg : Config) {s s' : LoginServer} {p : ℕ} {auth : AuthInfo} {m : APMsg}

theorem processApMsg_authen (hm : m.authInfo = some auth) (hop : m.operation = .authen_ap)
    (clock : Clock) (s : LoginServer) :
    s.processApMsg P cfg m clock =
      ({ s with apg_list_ := s.apg_list_ ++ m.requeued auth clock } : LoginServer).onAPAuthenResult
        P cfg auth m.result m.nErrorCode clock := by
  unfold LoginServer.processApMsg APMsg.requeued APMsg.expired
  simp only [hm, hop, decide_eq_true_eq]
  split_ifs
  · rfl
  · rw [List.append_nil]

/-- An answer for somebody whose login is not open does nothing. -/
theorem onAPAuthenResult_idle
    (h : ∀ p, s.playerOf auth = some p → (s.players p).fsm_.current_state_ ≠ .login)
    (result : Result) (errorCode : Int32) (clock : Clock) :
    s.onAPAuthenResult P cfg auth result errorCode clock = s := by
  have hidle (event : FsmEvent) (hev : event = .apSucc auth ∨ ∃ error, event = .apError auth error) :
      s.onAP P cfg auth event clock = s := by
    unfold LoginServer.onAP
    split
    · rfl
    · rename_i p hp
      have hno := h p hp
      have hglob : event.isGlobalEvent = false := by
        rcases hev with rfl | ⟨error, rfl⟩ <;> rfl
      unfold LoginServer.onEvent
      rw [if_neg (by simp [hglob])]
      cases hst : (s.players p).fsm_.current_state_ with
      | login => exact absurd hst hno
      | monostate => rfl
      | online => rfl
      | global => rcases hev with rfl | ⟨error, rfl⟩ <;> rfl
  cases result
  case success => exact hidle _ (.inl rfl)
  all_goals exact hidle _ (.inr ⟨_, rfl⟩)

/-- A success for an open login. -/
theorem onAPAuthenResult_success (hp : s.playerOf auth = some p)
    (hl : (s.players p).fsm_.current_state_ = .login) (errorCode : Int32) (clock : Clock) :
    s.onAPAuthenResult P cfg auth .success errorCode clock =
      if (s.players p).isFor auth then s.handleAPSuccCallback P p else s := by
  have hp : s.playerMap_ (strtoull (auth.getVal .gl_csHandle)) = some p := hp
  simp only [LoginServer.onAPAuthenResult, LoginServer.onAPSucc, LoginServer.onAP, hp,
    LoginServer.onEvent, FsmEvent.isGlobalEvent, hl, LoginServer.visit, LoginServer.loginOnEvent,
    Player.isFor, Bool.and_eq_true, beq_iff_eq]
  split_ifs <;> simp_all

/-- Any other answer for an open login. -/
theorem onAPAuthenResult_error (hp : s.playerOf auth = some p)
    (hl : (s.players p).fsm_.current_state_ = .login) {result : Result} (hr : result ≠ .success)
    (errorCode : Int32) (clock : Clock) :
    s.onAPAuthenResult P cfg auth result errorCode clock =
      s.sendGateLoginFail P p errorCode.toUInt32 := by
  have hp : s.playerMap_ (strtoull (auth.getVal .gl_csHandle)) = some p := hp
  have herror : s.onAPError P cfg auth errorCode clock =
      s.sendGateLoginFail P p errorCode.toUInt32 := by
    simp only [LoginServer.onAPError, LoginServer.onAP, hp, LoginServer.onEvent,
      FsmEvent.isGlobalEvent, hl, LoginServer.visit, LoginServer.loginOnEvent]
    rfl
  cases result
  case success => exact absurd rfl hr
  all_goals exact herror

/-! ### Logging in -/

theorem packet_congr {t : LoginServer} (hs : t.session_map_ = s.session_map_)
    (hfd : (t.players p).gate_session_fd_ = (s.players p).gate_session_fd_)
    (ht : (t.players p).trans_id_ = (s.players p).trans_id_) (msgId : UInt32) (body : Bytes) :
    t.packet p msgId body = s.packet p msgId body := by
  rw [LoginServer.packet, LoginServer.packet, hs, hfd, ht]

/-- A packet is sent if the gate is connected. -/
theorem packet_eq_singleton_iff (msgId : UInt32) (body : Bytes) :
    (∃ a, s.packet p msgId body = [a]) ↔ s.Connected p := by
  unfold LoginServer.packet LoginServer.Connected
  cases s.session_map_ (s.players p).gate_session_fd_ with
  | none => simp
  | some gs => simp

/-- Kicking off whoever holds an account. -/
theorem kickOffPlayer_eq (h : Filed s) (ptid : Bytes) :
    (s.kickOffPlayer P ptid).crashed = s.crashed ∧
    (∀ q, ((s.kickOffPlayer P ptid).players q).fsm_.current_state_ =
      (s.players q).fsm_.current_state_) ∧
    ∃ q body, (s.kickOffPlayer P ptid).history = s.history ∨
      (s.kickOffPlayer P ptid).history = s.history ++ s.packet q LS_GG_Kickoff_NTF body := by
  unfold LoginServer.kickOffPlayer
  split
  · rename_i q hq
    obtain ⟨id, -, hfile⟩ := Option.bind_eq_some_iff.mp hq
    rw [LoginServer.changeState_logout, LoginServer.send_eq, LoginServer.notifyOwnerDestroy,
      if_pos (h.owner_ id q hfile)]
    refine ⟨rfl, ?_, q, _, .inr rfl⟩
    intro r
    by_cases hr : r = q
    · rw [hr, LoginServer.updatePlayer_self]
      rfl
    · rw [LoginServer.updatePlayer_of_ne hr]
      rfl
  · exact ⟨rfl, fun _ => rfl, 0, [], .inl rfl⟩

/-- An answer to a login request, whoever it is for. -/
def isLoginAck : LoginAct → Bool
  | .sent _ _ msgId _ => msgId == LS_GG_Login_ACK
  | _ => false

/-- The player has its PTID and is online, and one answer was sent: the success of this player. -/
structure LogsIn (p : ℕ) (s s' : LoginServer) : Prop where
  alive : s'.crashed = false
  ptid : (s'.players p).szPTID_ = (s.players p).szPTID
  online : (s'.players p).isOnline
  answered : ∃ a l, s.packet p LS_GG_Login_ACK (P.serializeLoginAck
      { result := PROTO_SUCCESS, ptid := (s.players p).szPTID }) = [a] ∧
    s'.history = s.history ++ l ∧ l.filter isLoginAck = [a]

theorem filter_packet_of_ne {msgId : UInt32} (h : msgId ≠ LS_GG_Login_ACK) (body : Bytes) :
    (s.packet p msgId body).filter isLoginAck = [] := by
  unfold LoginServer.packet
  split
  · simp [isLoginAck, h]
  · rfl

theorem filter_packet (body : Bytes) :
    (s.packet p LS_GG_Login_ACK body).filter isLoginAck = s.packet p LS_GG_Login_ACK body := by
  unfold LoginServer.packet
  split
  · simp [isLoginAck]
  · rfl

/-- `HandleAPSuccCallback` takes an open login online. -/
theorem isOnline_handleAPSuccCallback (h : Filed s)
    (hl : (s.players p).fsm_.current_state_ = .login) :
    ((s.handleAPSuccCallback P p).players p).isOnline := by
  have hstate := (kickOffPlayer_eq P h (s.players p).szPTID).2.1 p
  rw [LoginServer.handleAPSuccCallback,
    LoginServer.setPTID_sendGateLoginSucc P (hstate.trans hl)]
  simp [LoginServer.promote, Player.isOnline, Player.getCurStateType, PlayerFSM.enter,
    getFsmStateType]

/-- `HandleAPSuccCallback` logs the player in if its gate is there to be told. -/
theorem logsIn_handleAPSuccCallback (h : Filed s) (hl : (s.players p).fsm_.current_state_ = .login)
    (halive : s.crashed = false) (hc : s.Connected p) :
    LogsIn P p s (s.handleAPSuccCallback P p) := by
  set ptid := (s.players p).szPTID with hptid
  obtain ⟨hcrash, hstate, q, kbody, hhist⟩ := kickOffPlayer_eq P h ptid
  have hacts : Acts p (Acts.OnFile s) s (s.kickOffPlayer P ptid) :=
    Acts.kickOffPlayer P fun _ => Acts.onFile_of_holder
  obtain ⟨-, hfd, htrans⟩ := hacts.origin p
  obtain ⟨a, ha⟩ := (packet_eq_singleton_iff LS_GG_Login_ACK
    (P.serializeLoginAck { result := PROTO_SUCCESS, ptid := ptid })).mpr hc
  have honline := isOnline_handleAPSuccCallback P h hl
  rw [LoginServer.handleAPSuccCallback,
    LoginServer.setPTID_sendGateLoginSucc P ((hstate p).trans hl),
    packet_congr hacts.session_map_ hfd htrans] at honline ⊢
  refine ⟨hcrash.trans halive, ?_, honline, ?_⟩
  · simp [LoginServer.promote]
  · have hown := filter_packet (s := s) (p := p)
      (P.serializeLoginAck { result := PROTO_SUCCESS, ptid := ptid })
    rcases hhist with e | e
    · refine ⟨a, _, ha, by rw [e], ?_⟩
      rw [hown, ha]
    · refine ⟨a, _, ha, by rw [e, List.append_assoc], ?_⟩
      rw [List.filter_append, filter_packet_of_ne (by decide), List.nil_append, hown, ha]

/-- An `AuthInfo` that was built for somebody else gets past the checks for a player only if both its
ids are those of the player. -/
theorem passes_built_iff (h : DataInv s) (hw : s.Waiting p) {q : ℕ} {auth' : AuthInfo}
    (hb : .built p auth ∈ s.history) (hb' : .built q auth' ∈ s.history) (hfile : Filed s) :
    s.Passes p auth' ↔ (s.players p).szAuthenID_ = [] ∧ (s.players q).id_ = (s.players p).id_ ∧
      auth'.auth_id_ = auth.auth_id_ := by
  obtain ⟨-, -, -, hid⟩ := h.built p auth hb
  obtain ⟨-, hhandle', haccount', -⟩ := h.built q auth' hb'
  have hof : s.playerOf auth' = some p ↔ (s.players q).id_ = (s.players p).id_ := by
    rw [LoginServer.playerOf, hhandle', strtoull_decimal]
    constructor
    · intro hq
      exact (hfile.id_ _ p hq).symm
    · intro e
      rw [e]
      exact hw.1
  simp only [LoginServer.Passes, hof, hw.2, true_and, Player.isFor, haccount', Bool.and_eq_true,
    beq_iff_eq, hid]
  constructor
  · rintro ⟨hids, hempty, hauth⟩
    exact ⟨hempty, hids, hauth.symm⟩
  · rintro ⟨hempty, hids, hauth⟩
    exact ⟨hids, hempty, hauth.symm⟩

end

variable {P : LoginProto} {cfg : Config} {s s' : LoginServer} {es : List LoginEvent} {p : ℕ}
  {auth : AuthInfo} {m : APMsg}

theorem filed_of_run (h : (loginMachine P cfg).run es = some s) : Filed s :=
  (loginMachine P cfg).invariant (P := Filed) (filed_init P cfg) (fun _ _ _ h hs => h.step hs) ⟨es, h⟩

theorem not_crashed_of_step {e : LoginEvent} (hs : LoginServer.step P cfg s e = some s') :
    s.crashed = false := by
  unfold LoginServer.step at hs
  split_ifs at hs with hc
  simpa using hc

/-- Handling a fresh success. -/
theorem step_success {clock : Clock} {rest : List APMsg} (hlist : s.apg_list_ = m :: rest)
    (hm : m.authInfo = some auth) (hop : m.operation = .authen_ap) (hres : m.result = .success)
    (hfresh : m.expired clock = false) (hof : s.playerOf auth = some p)
    (hl : (s.players p).fsm_.current_state_ = .login)
    (hs : LoginServer.step P cfg s (.processApMsg clock) = some s') :
    s' = if (s.players p).isFor auth then
        ({ s with apg_list_ := rest } : LoginServer).handleAPSuccCallback P p
      else { s with apg_list_ := rest } := by
  obtain ⟨m', rest', hlist', rfl⟩ := step_processApMsg hs
  obtain ⟨rfl, rfl⟩ := List.cons.inj (hlist.symm.trans hlist')
  have hnone : m.requeued auth clock = [] := by simp [APMsg.requeued, hfresh]
  rw [processApMsg_authen P cfg hm hop, hnone, List.append_nil, hres]
  exact onAPAuthenResult_success P cfg (s := { s with apg_list_ := rest }) hof hl _ _

/-- A success logs its own player in, and is nobody else's. -/
structure OwnSuccess (P : LoginProto) (p : ℕ) (auth : AuthInfo) (s s' : LoginServer) : Prop where
  passes : s.Passes p auth
  logsIn : LogsIn P p s s'
  own : ∀ q auth', .built q auth' ∈ s.history → q ≠ p → ¬ s.Passes p auth'

/-- No other `AuthInfo` has both ids. -/
def Unmistakable (p : ℕ) (auth : AuthInfo) (s : LoginServer) : Prop :=
  ∀ q auth', .built q auth' ∈ s.history → q ≠ p →
    (s.players q).id_ ≠ (s.players p).id_ ∨ auth'.auth_id_ ≠ auth.auth_id_

/-- The ids of players do not come round in less than `2^64` requests. -/
theorem unmistakable_of_run (h : (loginMachine P cfg).run es = some s) (hw : s.made < 2 ^ 64)
    (hb : .built p auth ∈ s.history) : Unmistakable p auth s := by
  intro q auth' hb' hq
  left
  intro hid
  have hinv := dataInv_of_run h
  exact hq ((sound_of_run h hw).idx.id_inj (hinv.built q auth' hb').1 (hinv.built p auth hb).1 hid)

/-- **When the success of a player logs it in**: exactly if its account is the empty string (with
its gate connected, and as long as the ids that it is known by have not come round). -/
theorem own_success_iff (P : LoginProto) (cfg : Config) (es : List LoginEvent) (s s' : LoginServer)
    (p : ℕ) (auth : AuthInfo) (m : APMsg) (rest : List APMsg) (clock : Clock)
    (h : (loginMachine P cfg).run es = some s) (hb : .built p auth ∈ s.history) (hw : s.Waiting p)
    (hlist : s.apg_list_ = m :: rest) (hm : m.authInfo = some auth)
    (hop : m.operation = .authen_ap) (hres : m.result = .success)
    (hfresh : m.expired clock = false)
    (hs : (loginMachine P cfg).step s (.processApMsg clock) = some s') :
    OwnSuccess P p auth s s' ↔
      (s.players p).szAuthenID_ = [] ∧ s.Connected p ∧ Unmistakable p auth s := by
  have hs : LoginServer.step P cfg s (.processApMsg clock) = some s' := hs
  have hinv := dataInv_of_run h
  have hfile := filed_of_run h
  have hself := passes_built_iff hinv hw hb hb hfile
  simp only [and_true] at hself
  constructor
  · rintro ⟨hpass, hlog, hown⟩
    have hempty := hself.mp hpass
    obtain ⟨a, l, ha, -⟩ := hlog.answered
    refine ⟨hempty, (packet_eq_singleton_iff _ _).mp ⟨a, ha⟩, ?_⟩
    intro q auth' hb' hq
    by_contra hno
    simp only [not_or, not_not] at hno
    exact hown q auth' hb' hq ((passes_built_iff hinv hw hb hb' hfile).mpr ⟨hempty, hno⟩)
  · rintro ⟨hempty, hc, hids⟩
    have hpass := hself.mpr hempty
    have hstep := step_success hlist hm hop hres hfresh hpass.1 hpass.2.1 hs
    rw [if_pos hpass.2.2] at hstep
    refine ⟨hpass, ?_, ?_⟩
    · have hfile' : Filed { s with apg_list_ := rest } :=
        hfile.of_same rfl rfl (fun _ => rfl) (fun _ => rfl) (fun _ => rfl)
      have halive : s.crashed = false := not_crashed_of_step hs
      obtain ⟨h₁, h₂, h₃, h₄⟩ := logsIn_handleAPSuccCallback P hfile' hw.2 halive hc
      rw [hstep]
      exact ⟨h₁, h₂, h₃, h₄⟩
    · intro q auth' hb' hq hp
      obtain ⟨-, hid, hauth⟩ := (passes_built_iff hinv hw hb hb' hfile).mp hp
      rcases hids q auth' hb' hq with hne | hne
      · exact hne hid
      · exact hne hauth

/-- A player logs in with the body `body`, and the AP confirms it. -/
def confirmed (body : Bytes) : List LoginEvent :=
  .addSession 1 :: (request body ++ [.operateResult (some (authFor 1 0)) .authen_ap .success 0 0])

/-- The success of the first player is next in the queue. -/
def LoginServer.confirms (s : LoginServer) : Bool :=
  decide (s.Waiting 0 ∧ .built 0 (authFor 1 0) ∈ s.history ∧ s.Connected 0 ∧ s.made < 2 ^ 64 ∧
    s.apg_list_ = [⟨some (authFor 1 0), 0, .authen_ap, .success, 0⟩])

/-- The empty account. -/
theorem own_success_empty : ∃ s s', (loginMachine plainProto withAP).run (confirmed []) = some s ∧
    (loginMachine plainProto withAP).step s (.processApMsg midnight) = some s' ∧
    s.Waiting 0 ∧ OwnSuccess plainProto 0 (authFor 1 0) s s' := by
  obtain ⟨s, h⟩ : ∃ s, (loginMachine plainProto withAP).run (confirmed []) = some s :=
    Option.isSome_iff_exists.mp (by decide +kernel)
  have hobs : ((loginMachine plainProto withAP).run (confirmed [])).map (fun s =>
      (s.confirms, (s.players 0).szAuthenID_)) = some (true, []) := by decide +kernel
  obtain ⟨s', h'⟩ : ∃ s', (loginMachine plainProto withAP).run
      (confirmed [] ++ [.processApMsg midnight]) = some s' :=
    Option.isSome_iff_exists.mp (by decide +kernel)
  obtain ⟨s₁, h₁, hs⟩ := Machine.run_snoc_eq_some _ h'
  obtain rfl : s = s₁ := Option.some.inj (h.symm.trans h₁)
  rw [h] at hobs
  simp only [LoginServer.confirms, Option.map_some, Option.some.injEq, Prod.mk.injEq,
    decide_eq_true_eq] at hobs
  obtain ⟨⟨hw, hb, hc, hmade, hlist⟩, hempty⟩ := hobs
  exact ⟨s, s', h, hs, hw, (own_success_iff plainProto withAP _ s s' 0 (authFor 1 0) _ [] midnight h
    hb hw hlist rfl rfl rfl (by decide) hs).mpr ⟨hempty, hc, unmistakable_of_run h hmade hb⟩⟩

/-- The account `A` stays in its login. -/
theorem confirmed_account_not_online :
    ∃ s s', (loginMachine plainProto withAP).run (confirmed (bodyOf 65)) = some s ∧
      (loginMachine plainProto withAP).step s (.processApMsg midnight) = some s' ∧
      s.Waiting 0 ∧ .built 0 (authFor 1 0) ∈ s.history ∧ s.Connected 0 ∧
      s.apg_list_ = [⟨some (authFor 1 0), 0, .authen_ap, .success, 0⟩] ∧
      (s.players 0).szAuthenID_ = [65] ∧ ¬ s.Passes 0 (authFor 1 0) ∧ s'.Waiting 0 ∧
      s'.history = s.history ∧ ¬ OwnSuccess plainProto 0 (authFor 1 0) s s' := by
  obtain ⟨s, h⟩ : ∃ s, (loginMachine plainProto withAP).run (confirmed (bodyOf 65)) = some s :=
    Option.isSome_iff_exists.mp (by decide +kernel)
  have hobs : ((loginMachine plainProto withAP).run (confirmed (bodyOf 65))).map (fun s =>
      (s.confirms, (s.players 0).szAuthenID_, (s.players 0).isFor (authFor 1 0), s.history)) =
      some (true, [65], false, [.accepted 0 1 5, .built 0 (authFor 1 0)]) := by decide +kernel
  obtain ⟨s', h'⟩ : ∃ s', (loginMachine plainProto withAP).run
      (confirmed (bodyOf 65) ++ [.processApMsg midnight]) = some s' :=
    Option.isSome_iff_exists.mp (by decide +kernel)
  have hobs' : ((loginMachine plainProto withAP).run
      (confirmed (bodyOf 65) ++ [.processApMsg midnight])).map (fun s =>
      (decide (s.Waiting 0), s.history)) =
      some (true, [.accepted 0 1 5, .built 0 (authFor 1 0)]) := by decide +kernel
  obtain ⟨s₁, h₁, hs⟩ := Machine.run_snoc_eq_some _ h'
  obtain rfl : s = s₁ := Option.some.inj (h.symm.trans h₁)
  rw [h] at hobs
  rw [h'] at hobs'
  simp only [LoginServer.confirms, Option.map_some, Option.some.injEq, Prod.mk.injEq,
    decide_eq_true_eq] at hobs hobs'
  obtain ⟨⟨hw, hb, hc, -, hlist⟩, haccount, hfor, hhist⟩ := hobs
  have hno : ¬ s.Passes 0 (authFor 1 0) := by
    rintro ⟨-, -, hpass⟩
    rw [hfor] at hpass
    cases hpass
  exact ⟨s, s', h, hs, hw, hb, hc, hlist, haccount, hno, hobs'.1, hobs'.2.trans hhist.symm,
    fun hown => hno hown.passes⟩

end BlackSwan.Login
