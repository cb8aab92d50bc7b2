import BlackSwan.Login

/-! # What the login server does for a player

`Acts p K s s'` says what a handler that works for the player `p` and kicks off the players in `K`
can have done between `s` and `s'`: it leaves all other players alone, keeps of every player where
it came from, takes only `p` and `K` off the file, and sends packets only for `p`, apart from the
kick-off notifications for `K`.  Every handler is shown to act in this way.

Facts that do not depend on whom a handler works for are shown for the calls that the handlers are
made of (`Steady`, `Stable`). -/

namespace BlackSwan.Login

open Wire Runs Tables

namespace LoginServer

/-! ### What the operations come to -/

/-- The packet that `Player::send` hands to the gate session, if there is one. -/
def packet (p : ℕ) (msgId : UInt32) (body : Bytes) (s : LoginServer) : List LoginAct :=
  match s.session_map_ (s.players p).gate_session_fd_ with
  | some gs =>
      [.sent (some p) gs.session_ msgId (encodeInnerPacket msgId body
        (UInt32.ofNat (if body.length > 2 ^ 32 - 1 then 0 else body.length))
        (s.players p).trans_id_.toUInt32.toUInt64)]
  | none => []

theorem send_eq (p : ℕ) (msgId : UInt32) (body : Bytes) (s : LoginServer) :
    s.send p msgId body = { s with history := s.history ++ s.packet p msgId body } := by
  unfold send packet
  cases s.session_map_ (s.players p).gate_session_fd_ with
  | none => simp
  | some gs => rfl

theorem changeState_logout (p : ℕ) (s : LoginServer) :
    s.changeState p .EFST_Logout = s.notifyOwnerDestroy p := by
  have hne : (s.players p).getCurStateType ≠ .EFST_Logout := by
    unfold Player.getCurStateType
    cases (s.players p).fsm_.current_state_ <;> simp [getFsmStateType]
  simp [changeState, hne]

theorem changeState_online {p : ℕ} {s : LoginServer}
    (h : (s.players p).fsm_.current_state_ = .login) :
    s.changeState p .EFST_Online = s.setState p .online := by
  simp [changeState, Player.getCurStateType, h, getFsmStateType]

@[simp] theorem updatePlayer_self (p : ℕ) (f : Player → Player) (s : LoginServer) :
    (s.updatePlayer p f).players p = f (s.players p) := by
  simp [updatePlayer]

theorem updatePlayer_of_ne {p q : ℕ} (h : q ≠ p) (f : Player → Player) (s : LoginServer) :
    (s.updatePlayer p f).players q = s.players q := by
  simp [updatePlayer, h]

/-- The player after `setPTID` and the change to `EFST_Online`. -/
def promote (ptid : Bytes) (pl : Player) : Player :=
  { pl with szPTID_ := ptid, fsm_ := pl.fsm_.enter .online }

theorem setPTID_sendGateLoginSucc (P : LoginProto) {p : ℕ} {s : LoginServer}
    (h : (s.players p).fsm_.current_state_ = .login) (ptid : Bytes) :
    (s.setPTID p ptid).sendGateLoginSucc P p = { s with
      players := Function.update s.players p (promote ptid (s.players p))
      pTIDMap_ := s.pTIDMap_.emplace ptid (s.players p).id_
      history := s.history ++ s.packet p LS_GG_Login_ACK
        (P.serializeLoginAck { result := PROTO_SUCCESS, ptid := ptid }) } := by
  have hset : (s.setPTID p ptid).players p = { s.players p with szPTID_ := ptid } := by
    simp [setPTID]
  have hpack : ∀ body, (s.setPTID p ptid).packet p LS_GG_Login_ACK body =
      s.packet p LS_GG_Login_ACK body := by
    intro body
    simp only [packet, hset]
    rfl
  rw [sendGateLoginSucc, send_eq, changeState_online (by simpa [hset] using h), hset, hpack]
  simp [setState, getFsmStateType, updatePlayer, setPTID, promote]

/-- The player that is registered under an account. -/
def holder (ptid : Bytes) (s : LoginServer) : Option ℕ := (s.pTIDMap_ ptid).bind s.playerMap_

/-- The player is on file and its login is open. -/
def Waiting (p : ℕ) (s : LoginServer) : Prop :=
  s.playerMap_ (s.players p).id_ = some p ∧ (s.players p).fsm_.current_state_ = .login

theorem waiting_update {p : ℕ} {f : Player → Player} {s : LoginServer}
    (hid : ∀ pl, (f pl).id_ = pl.id_) (hfsm : ∀ pl, (f pl).fsm_ = pl.fsm_) (h : s.Waiting p) :
    (s.updatePlayer p f).Waiting p := by
  unfold Waiting
  rw [updatePlayer_self, hid, hfsm]
  exact h

end LoginServer

/-! ### Relations that handlers keep

Every handler is made of a few calls.  A relation between the states before and after that holds for
these calls holds for the handlers. -/

/-- The relation holds for sending and for the changes of state. -/
structure Steady (R : LoginServer → LoginServer → Prop) : Prop where
  refl : ∀ s, R s s
  trans : ∀ {s s₁ s₂}, R s s₁ → R s₁ s₂ → R s s₂
  send : ∀ p msgId body s, R s (s.send p msgId body)
  destroy : ∀ p s, R s (s.notifyOwnerDestroy p)
  setState : ∀ p state s, R s (s.setState p state)

/-- The relation holds for all the calls that handlers are made of. -/
structure Stable (R : LoginServer → LoginServer → Prop) : Prop extends Steady R where
  setPTID : ∀ p ptid s, R s (s.setPTID p ptid)
  checkApLoginData : ∀ p clock s, R s (s.checkApLoginData p clock)

namespace Steady

variable {R : LoginServer → LoginServer → Prop} (h : Steady R) (p : ℕ)

include h

theorem changeState (state : FsmStateType) (s : LoginServer) : R s (s.changeState p state) := by
  unfold LoginServer.changeState
  split_ifs
  · exact h.refl s
  · exact h.refl s
  · split
    · exact h.setState p _ s
    · exact h.destroy p s
    · exact h.destroy p s
    · exact h.setState p _ s

variable (P : LoginProto)

theorem sendGateLoginFail (errorCode : UInt32) (s : LoginServer) :
    R s (s.sendGateLoginFail P p errorCode) := h.trans (h.send p _ _ s) (h.changeState p _ _)

theorem sendGateLoginSucc (s : LoginServer) : R s (s.sendGateLoginSucc P p) :=
  h.trans (h.send p _ _ s) (h.changeState p _ _)

theorem kickOffPlayer (ptid : Bytes) (s : LoginServer) : R s (s.kickOffPlayer P ptid) := by
  unfold LoginServer.kickOffPlayer
  split
  · exact h.trans (h.send _ _ _ s) (h.changeState _ _ _)
  · exact h.refl s

/-- Only the state of an open login does more with an event. -/
theorem onEvent_of_login {cfg : Config} {event : FsmEvent} {clock : Clock} {s : LoginServer}
    (hlogin : R s (s.loginOnEvent P cfg p event clock)) : R s (s.onEvent P cfg p event clock) := by
  have hvisit (state : PlayerState) : R s (s.visit P cfg state p event clock) := by
    cases state with
    | monostate => exact h.refl s
    | login => exact hlogin
    | online => exact h.refl s
    | global =>
        show R s (s.globalOnEvent p event)
        unfold LoginServer.globalOnEvent
        split
        · exact h.changeState p _ s
        · exact h.changeState p _ s
        · exact h.refl s
  unfold LoginServer.onEvent
  split_ifs
  · exact hvisit _
  · exact hvisit _

end Steady

namespace Stable

variable {R : LoginServer → LoginServer → Prop} (h : Stable R) (p : ℕ) (P : LoginProto)

include h

/-- The three calls of a successful login. -/
theorem login (ptid : Bytes) (s : LoginServer) :
    R s (((s.kickOffPlayer P ptid).setPTID p ptid).sendGateLoginSucc P p) :=
  h.trans (h.trans (h.kickOffPlayer P ptid s) (h.setPTID p ptid _)) (h.sendGateLoginSucc p P _)

variable (cfg : Config)

theorem handleAPLoginReq (clock : Clock) (s : LoginServer) :
    R s (s.handleAPLoginReq P cfg p clock) := by
  have hloc : R s (s.localTestLogin P cfg p) := by
    unfold LoginServer.localTestLogin
    split_ifs
    · exact h.login p P _ s
    · exact h.refl s
  unfold LoginServer.handleAPLoginReq
  dsimp only
  split_ifs
  · exact hloc
  · exact h.trans hloc (h.checkApLoginData p clock _)

theorem onEvent (event : FsmEvent) (clock : Clock) (s : LoginServer) :
    R s (s.onEvent P cfg p event clock) := by
  apply h.onEvent_of_login
  unfold LoginServer.loginOnEvent
  split
  · exact h.sendGateLoginFail p P _ s
  · split_ifs
    · exact h.refl s
    · exact h.refl s
    · exact h.login p P _ s
  · split_ifs
    · exact h.handleAPLoginReq p P cfg clock s
    · exact h.refl s
  · exact h.refl s

end Stable

/-! ### Acting for a player -/

/-- The entries that may be added to the history. -/
def Allowed (p : ℕ) (K : ℕ → Prop) (s : LoginServer) : LoginAct → Prop
  | .sent c fd msgId msg => ∃ q gs, c = some q ∧ (q = p ∨ K q ∧ msgId = LS_GG_Kickoff_NTF) ∧
      s.session_map_ (s.players q).gate_session_fd_ = some gs ∧ gs.session_ = fd ∧
      readWord msg 4 8 = some (s.players q).trans_id_.toUInt32.toNat
  | .built q auth => q = p ∧ auth.getVal .gl_csHandle = decimal (s.players p).id_.toNat
  | _ => False

structure Acts (p : ℕ) (K : ℕ → Prop) (s s' : LoginServer) : Prop where
  made : s'.made = s.made
  session_map_ : s'.session_map_ = s.session_map_
  origin : ∀ q, (s'.players q).id_ = (s.players q).id_ ∧
    (s'.players q).gate_session_fd_ = (s.players q).gate_session_fd_ ∧
    (s'.players q).trans_id_ = (s.players q).trans_id_
  others : ∀ q, q ≠ p → ¬ K q → s'.players q = s.players q
  filed : ∀ id q, s'.playerMap_ id = some q → s.playerMap_ id = some q
  kept : ∀ id, s'.playerMap_ id = s.playerMap_ id ∨ id = (s.players p).id_ ∨
    ∃ q, K q ∧ id = (s.players q).id_
  /-- another player changes only by being taken off the file -/
  gone : ∀ q, q ≠ p → s'.players q = s.players q ∨ s'.playerMap_ (s.players q).id_ = none
  entries : ∃ h, s'.history = s.history ++ h ∧ ∀ a ∈ h, Allowed p K s a

namespace Acts

variable {p q : ℕ} {K : ℕ → Prop} {s s₁ s₂ : LoginServer}

theorem refl (p : ℕ) (K : ℕ → Prop) (s : LoginServer) : Acts p K s s where
  made := rfl
  session_map_ := rfl
  origin _ := ⟨rfl, rfl, rfl⟩
  others _ _ _ := rfl
  filed _ _ h := h
  kept _ := Or.inl rfl
  gone _ _ := Or.inl rfl
  entries := ⟨[], by simp⟩

/-- What is allowed depends on the sessions and on where the players came from. -/
theorem allowed (h : Acts p K s s₁) {a : LoginAct} (ha : Allowed p K s₁ a) : Allowed p K s a := by
  cases a with
  | accepted _ _ _ => exact ha
  | heartbeat _ _ => exact ha
  | sent c fd msgId msg =>
      obtain ⟨q, gs, hc, hq, hgs, hfd, hmsg⟩ := ha
      obtain ⟨-, e₁, e₂⟩ := h.origin q
      rw [h.session_map_, e₁] at hgs
      rw [e₂] at hmsg
      exact ⟨q, gs, hc, hq, hgs, hfd, hmsg⟩
  | built q auth =>
      obtain ⟨hq, hval⟩ := ha
      rw [(h.origin p).1] at hval
      exact ⟨hq, hval⟩

theorem trans (h₁ : Acts p K s s₁) (h₂ : Acts p K s₁ s₂) : Acts p K s s₂ where
  made := h₂.made.trans h₁.made
  session_map_ := h₂.session_map_.trans h₁.session_map_
  origin q := by
    obtain ⟨a₁, b₁, c₁⟩ := h₁.origin q
    obtain ⟨a₂, b₂, c₂⟩ := h₂.origin q
    exact ⟨a₂.trans a₁, b₂.trans b₁, c₂.trans c₁⟩
  others q hq hK := (h₂.others q hq hK).trans (h₁.others q hq hK)
  filed id q h := h₁.filed id q (h₂.filed id q h)
  kept id := by
    obtain h | h | ⟨q, hK, h⟩ := h₂.kept id
    · rw [h]
      exact h₁.kept id
    · rw [(h₁.origin p).1] at h
      exact Or.inr (Or.inl h)
    · rw [(h₁.origin q).1] at h
      exact Or.inr (Or.inr ⟨q, hK, h⟩)
  gone q hq := by
    obtain e₂ | e₂ := h₂.gone q hq
    · obtain e₁ | e₁ := h₁.gone q hq
      · exact Or.inl (e₂.trans e₁)
      · -- what is off the file stays off it
        refine Or.inr ?_
        cases hm : s₂.playerMap_ (s.players q).id_ with
        | none => rfl
        | some q' => exact (h₂.filed _ q' hm).symm.trans e₁
    · rw [(h₁.origin q).1] at e₂
      exact Or.inr e₂
  entries := by
    obtain ⟨l₁, e₁, ha₁⟩ := h₁.entries
    obtain ⟨l₂, e₂, ha₂⟩ := h₂.entries
    refine ⟨l₁ ++ l₂, by rw [e₂, e₁, List.append_assoc], ?_⟩
    intro a ha
    rcases List.mem_append.mp ha with ha | ha
    · exact ha₁ a ha
    · exact h₁.allowed (ha₂ a ha)

/-- The more players may be kicked off, the less is promised. -/
theorem mono {K' : ℕ → Prop} (hK : ∀ q, K q → K' q) (h : Acts p K s s₁) : Acts p K' s s₁ where
  made := h.made
  session_map_ := h.session_map_
  origin := h.origin
  others q hq hn := h.others q hq fun hk => hn (hK q hk)
  filed := h.filed
  kept id := by
    obtain h' | h' | ⟨q, hq, h'⟩ := h.kept id
    · exact Or.inl h'
    · exact Or.inr (Or.inl h')
    · exact Or.inr (Or.inr ⟨q, hK q hq, h'⟩)
  gone := h.gone
  entries := by
    obtain ⟨l, e, hl⟩ := h.entries
    refine ⟨l, e, fun a ha => ?_⟩
    have := hl a ha
    cases a with
    | accepted _ _ _ => exact this
    | heartbeat _ _ => exact this
    | built _ _ => exact this
    | sent c fd msgId msg =>
        obtain ⟨q, gs, hc, hq, hrest⟩ := this
        exact ⟨q, gs, hc, hq.imp_right (And.imp_left (hK q)), hrest⟩

/-- A step that only changes the data of the player itself, and other things that do not count. -/
theorem of_update (pl : Player) (hid : pl.id_ = (s.players p).id_)
    (hfd : pl.gate_session_fd_ = (s.players p).gate_session_fd_)
    (ht : pl.trans_id_ = (s.players p).trans_id_)
    (hpl : s₁.players = Function.update s.players p pl) (hm : s₁.made = s.made)
    (hmap : s₁.playerMap_ = s.playerMap_) (hs : s₁.session_map_ = s.session_map_)
    (hh : s₁.history = s.history) : Acts p K s s₁ where
  made := hm
  session_map_ := hs
  origin q := by
    rw [hpl]
    by_cases hq : q = p
    · rw [hq, Function.update_self]
      exact ⟨hid, hfd, ht⟩
    · rw [Function.update_of_ne hq]
      exact ⟨rfl, rfl, rfl⟩
  others q hq _ := by rw [hpl, Function.update_of_ne hq]
  filed id q h := by rwa [hmap] at h
  kept id := by
    rw [hmap]
    exact Or.inl rfl
  gone q hq := Or.inl (by rw [hpl, Function.update_of_ne hq])
  entries := ⟨[], by simp [hh]⟩

theorem send (hq : q = p ∨ K q ∧ msgId = LS_GG_Kickoff_NTF) (body : Bytes) :
    Acts p K s (s.send q msgId body) := by
  rw [LoginServer.send_eq]
  refine { Acts.refl p K s with entries := ⟨s.packet q msgId body, rfl, ?_⟩ }
  intro a ha
  unfold LoginServer.packet at ha
  split at ha
  · rename_i gs hgs
    rw [List.mem_singleton.mp ha]
    refine ⟨q, gs, rfl, hq, hgs, rfl, ?_⟩
    rw [readWord_transID]
    simp
  · cases ha

/-- Letting go of a player. -/
theorem destroy (hq : q = p ∨ K q) : Acts p K s (s.notifyOwnerDestroy q) := by
  unfold LoginServer.notifyOwnerDestroy
  split_ifs
  · constructor
    · rfl
    · rfl
    · intro q'
      by_cases hqq : q' = q
      · rw [hqq, LoginServer.updatePlayer_self]
        exact ⟨rfl, rfl, rfl⟩
      · rw [LoginServer.updatePlayer_of_ne hqq]
        exact ⟨rfl, rfl, rfl⟩
    · intro q' hne hK
      refine LoginServer.updatePlayer_of_ne ?_ _ _
      rintro rfl
      exact hq.elim hne hK
    · intro id q' h
      exact (Table.erase_eq_some.mp h).2
    · intro id
      by_cases hid : id = (s.players q).id_
      · obtain rfl | hK := hq
        · exact Or.inr (Or.inl hid)
        · exact Or.inr (Or.inr ⟨q, hK, hid⟩)
      · exact Or.inl (Table.erase_of_ne hid)
    · intro q' hne
      by_cases hqq : q' = q
      · subst hqq
        exact Or.inr (Table.erase_self _ _)
      · exact Or.inl (LoginServer.updatePlayer_of_ne hqq _ _)
    · exact ⟨[], (List.append_nil _).symm, by simp⟩
  · exact { Acts.refl p K s with }

theorem setState (state : PlayerState) : Acts p K s (s.setState p state) := by
  unfold LoginServer.setState
  split_ifs
  · exact refl p K s
  · exact of_update { s.players p with fsm_ := (s.players p).fsm_.enter state }
      rfl rfl rfl rfl rfl rfl rfl rfl

theorem changeState (state : FsmStateType) : Acts p K s (s.changeState p state) := by
  unfold LoginServer.changeState
  split_ifs
  · exact refl p K s
  · exact refl p K s
  · split
    · exact setState _
    · exact destroy (Or.inl rfl)
    · exact destroy (Or.inl rfl)
    · exact setState _

variable (P : LoginProto)

theorem sendGateLoginFail (errorCode : UInt32) : Acts p K s (s.sendGateLoginFail P p errorCode) :=
  (send (Or.inl rfl) _).trans (changeState _)

theorem sendGateLoginSucc : Acts p K s (s.sendGateLoginSucc P p) :=
  (send (Or.inl rfl) _).trans (changeState _)

theorem setPTID (ptid : Bytes) : Acts p K s (s.setPTID p ptid) :=
  of_update { s.players p with szPTID_ := ptid } rfl rfl rfl rfl rfl rfl rfl rfl

theorem kickOffPlayer {ptid : Bytes} (hK : ∀ q, s.holder ptid = some q → K q) :
    Acts p K s (s.kickOffPlayer P ptid) := by
  unfold LoginServer.kickOffPlayer
  split
  · rename_i q hq
    rw [LoginServer.changeState_logout]
    exact (send (Or.inr ⟨hK q hq, rfl⟩) _).trans (destroy (Or.inr (hK q hq)))
  · exact refl p K s

/-- The three calls of a successful login. -/
theorem login {ptid : Bytes} (hK : ∀ q, s.holder ptid = some q → K q) :
    Acts p K s (((s.kickOffPlayer P ptid).setPTID p ptid).sendGateLoginSucc P p) :=
  ((kickOffPlayer P hK).trans (setPTID ptid)).trans (sendGateLoginSucc P)

theorem checkApLoginData (clock : Clock) : Acts p K s (s.checkApLoginData p clock) := by
  have hupd : Acts p K s (({ s with start_id := s.start_id + 1 } : LoginServer).updatePlayer p
      fun pl => { pl with auth_ID_ := s.start_id }) :=
    of_update { s.players p with auth_ID_ := s.start_id } rfl rfl rfl rfl rfl rfl rfl rfl
  refine { hupd with
    entries := ⟨[.built p (LoginServer.makeAuth (s.players p) s.start_id clock)], rfl, ?_⟩ }
  intro a ha
  rw [List.mem_singleton.mp ha]
  exact ⟨rfl, rfl⟩

variable (cfg : Config)

/-- Who is on file. -/
def OnFile (s : LoginServer) (q : ℕ) : Prop := ∃ id, s.playerMap_ id = some q

theorem onFile_of_holder {ptid : Bytes} (h : s.holder ptid = some q) : OnFile s q := by
  obtain ⟨id, -, hq⟩ := Option.bind_eq_some_iff.mp h
  exact ⟨id, hq⟩

/-- Whoever holds the account of a player. -/
def Holder (s : LoginServer) (p q : ℕ) : Prop := s.holder (s.players p).szPTID = some q

theorem globalOnEvent (event : FsmEvent) : Acts p K s (s.globalOnEvent p event) := by
  unfold LoginServer.globalOnEvent
  split
  · exact changeState _
  · exact changeState _
  · exact refl p K s

/-- Only two of the states do anything with an event. -/
theorem of_visit {event : FsmEvent} {clock : Clock}
    (hlog : Acts p K s (s.loginOnEvent P cfg p event clock)) :
    Acts p K s (s.onEvent P cfg p event clock) := by
  have hvisit : ∀ state, Acts p K s (s.visit P cfg state p event clock) := by
    intro state
    cases state with
    | monostate => exact refl p K s
    | login => exact hlog
    | online => exact refl p K s
    | global => exact globalOnEvent event
  unfold LoginServer.onEvent
  split_ifs
  · exact hvisit _
  · exact hvisit _

theorem apError (auth : AuthInfo) (error : Int32) (clock : Clock) :
    Acts p K s (s.onEvent P cfg p (.apError auth error) clock) :=
  of_visit P cfg (sendGateLoginFail P _)

/-- A success reported by the AP. -/
theorem apSucc (auth : AuthInfo) (clock : Clock) :
    Acts p (Holder s p) s (s.onEvent P cfg p (.apSucc auth) clock) := by
  apply of_visit
  unfold LoginServer.loginOnEvent
  dsimp only
  split_ifs
  · exact refl p _ s
  · exact refl p _ s
  · exact login P fun _ h => h

theorem handleAPLoginReq (clock : Clock) :
    Acts p (OnFile s) s (s.handleAPLoginReq P cfg p clock) := by
  have hloc : Acts p (OnFile s) s (s.localTestLogin P cfg p) := by
    unfold LoginServer.localTestLogin
    dsimp only
    split_ifs
    · exact login P fun _ => onFile_of_holder
    · exact login P fun _ => onFile_of_holder
    · exact refl p _ s
  unfold LoginServer.handleAPLoginReq
  dsimp only
  split_ifs
  · exact hloc
  · exact hloc.trans (checkApLoginData clock)

/-- **Whatever the event**, only the player and players on file are concerned. -/
theorem onEvent (event : FsmEvent) (clock : Clock) :
    Acts p (OnFile s) s (s.onEvent P cfg p event clock) := by
  cases event with
  | apError auth error => exact apError P cfg auth error clock
  | apSucc auth => exact (apSucc P cfg auth clock).mono fun _ => onFile_of_holder
  | global type => exact of_visit P cfg (refl p _ s)
  | gate msgID =>
      apply of_visit
      unfold LoginServer.loginOnEvent
      dsimp only
      split_ifs
      · exact handleAPLoginReq P cfg clock
      · exact refl p _ s

end Acts

/-! ### Requests -/

namespace LoginServer

/-- What `RecvGgLoginReq` does with every request: it makes a player and tells it where the request
came from. -/
def accept (fd transID : UInt32) (s : LoginServer) : LoginServer :=
  (s.fetchPlayer.2.log (.accepted s.made fd s.handling)).updatePlayer s.made
    (Player.setOrigin fd transID.toUInt64)

theorem recvGgLoginReq_some (P : LoginProto) (cfg : Config) (req : LoginReq) (fd transID : UInt32)
    (clock : Clock) (s : LoginServer) :
    s.recvGgLoginReq P cfg (some req) fd transID clock =
      if req.clientversion < cfg.clientVersion_.toUInt32 then
        (s.accept fd transID).sendGateLoginFail P s.made LSERR_Old_Client
      else ((s.accept fd transID).updatePlayer s.made
        (Player.initLoginData req transID.toUInt64)).onEvent P cfg s.made (.gate GG_LS_Login_REQ)
          clock := rfl

end LoginServer

theorem Acts.recvGgLoginReq (P : LoginProto) (cfg : Config) (req : LoginReq) (fd transID : UInt32)
    (clock : Clock) (s : LoginServer) :
    Acts s.made (Acts.OnFile (s.accept fd transID)) (s.accept fd transID)
      (s.recvGgLoginReq P cfg (some req) fd transID clock) := by
  rw [LoginServer.recvGgLoginReq_some]
  split_ifs
  · exact sendGateLoginFail P _
  · -- the login data repeat the `transID` that the player already has
    have hdata : Acts s.made (OnFile (s.accept fd transID)) (s.accept fd transID)
        ((s.accept fd transID).updatePlayer s.made
          (Player.initLoginData req transID.toUInt64)) := by
      refine of_update (Player.initLoginData req transID.toUInt64
        ((s.accept fd transID).players s.made)) rfl rfl ?_ rfl rfl rfl rfl rfl
      rw [LoginServer.accept, LoginServer.updatePlayer_self]
      rfl
    refine hdata.trans ?_
    have hev := onEvent (p := s.made) (s := (s.accept fd transID).updatePlayer s.made
      (Player.initLoginData req transID.toUInt64)) P cfg (.gate GG_LS_Login_REQ) clock
    exact hev

/-! ### What a message can lead to -/

section

variable (P : LoginProto) (cfg : Config) (clock : Clock) (s : LoginServer)

/-- A message of a gate is ignored, is a login request, or ends the player of an account. -/
theorem processMsg_cases (m : MessageParam) :
    s.processMsg P cfg m clock = { s with handling := m.transID } ∨
    (∃ req, s.processMsg P cfg m clock = ({ s with handling := m.transID } : LoginServer).recvGgLoginReq
      P cfg (some req) m.gate_session_fd m.transID.toUInt32 clock) ∨
    ∃ id p, s.playerMap_ id = some p ∧ s.processMsg P cfg m clock =
      ({ s with handling := m.transID } : LoginServer).onEvent P cfg p (.global .EGET_LogoutNtf)
        clock := by
  unfold LoginServer.processMsg
  dsimp only
  split_ifs
  · cases P.parseLoginReq m.data with
    | none => exact Or.inl rfl
    | some req => exact Or.inr (Or.inl ⟨req, rfl⟩)
  · unfold LoginServer.onLogoffNtf
    split
    · exact Or.inl rfl
    · split
      · exact Or.inl rfl
      · rename_i p hp
        unfold LoginServer.findPlayer at hp
        split_ifs at hp
        exact Or.inr (Or.inr ⟨_, p, hp, rfl⟩)
  · exact Or.inl rfl

/-- A result of the AP can be queued again, and it is ignored or given to the player of its
handle. -/
theorem processApMsg_cases (m : APMsg) : ∃ l,
    s.processApMsg P cfg m clock = { s with apg_list_ := l } ∨
    ∃ auth p event, m.authInfo = some auth ∧
      s.playerMap_ (strtoull (auth.getVal .gl_csHandle)) = some p ∧
      (event = .apSucc auth ∨ ∃ error, event = .apError auth error) ∧
      s.processApMsg P cfg m clock =
        ({ s with apg_list_ := l } : LoginServer).onEvent P cfg p event clock := by
  unfold LoginServer.processApMsg
  cases hm : m.authInfo with
  | none => exact ⟨s.apg_list_, Or.inl rfl⟩
  | some auth =>
      dsimp only
      obtain ⟨l, hl⟩ : ∃ l, (if clock.now - m.tick > Default_Packet_In_Queue_Time_Long then
          s.operateResult (some auth) m.operation .time_out 2 clock.now else s) =
            { s with apg_list_ := l } := by
        split_ifs
        · exact ⟨_, rfl⟩
        · exact ⟨s.apg_list_, rfl⟩
      rw [hl]
      refine ⟨l, ?_⟩
      obtain ⟨event, hev, hres⟩ : ∃ event : FsmEvent,
          (event = .apSucc auth ∨ ∃ error, event = .apError auth error) ∧
          ∀ t : LoginServer, t.onAPAuthenResult P cfg auth m.result m.nErrorCode clock =
            t.onAP P cfg auth event clock := by
        cases m.result
        case success => exact ⟨.apSucc auth, Or.inl rfl, fun _ => rfl⟩
        all_goals exact ⟨.apError auth m.nErrorCode, Or.inr ⟨_, rfl⟩, fun _ => rfl⟩
      split
      · rw [hres, LoginServer.onAP]
        split
        · exact Or.inl rfl
        · rename_i p hp
          exact Or.inr ⟨auth, p, event, rfl, hp, hev, rfl⟩
      · exact Or.inl rfl

end

end BlackSwan.Login
