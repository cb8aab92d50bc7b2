import BlackSwan.LoginAccounts

/-! # Logoff notifications

A gate tells the login server that a client has left.  `OnLogoffNtf` finds the player by its
account and ends it, whoever sent the notification: the session it came from and its `transID` are in
the event, and nothing compares them with those of the player.  So when an account has logged in
again through another gate, the late notification for the old player ends the new one.

`logoff_own_iff` says in which runs no player is ended by a notification of somebody else.  It
needs no bound on the number of requests: all that is used of a player on file is `Filed`, which
holds even when ids come round. -/

namespace BlackSwan.Login

open Wire Runs Tables

/-! ### Players on file -/

/-- A player on file has its own id and can still be destroyed. -/
structure Filed (s : LoginServer) : Prop where
  known : ∀ id p, s.playerMap_ id = some p → p < s.made
  id_ : ∀ id p, s.playerMap_ id = some p → (s.players p).id_ = id
  owner_ : ∀ id p, s.playerMap_ id = some p → (s.players p).fsm_.owner_ = true
  global : ∀ id p, s.playerMap_ id = some p → (s.players p).fsm_.global_state_ = .global

namespace Filed

variable {s s' : LoginServer} {p q : ℕ}

/-- Nothing that `Filed` looks at has changed. -/
theorem of_same (h : Filed s) (hm : s'.made = s.made) (hmap : s'.playerMap_ = s.playerMap_)
    (hid : ∀ q, (s'.players q).id_ = (s.players q).id_)
    (hown : ∀ q, (s'.players q).fsm_.owner_ = (s.players q).fsm_.owner_)
    (hglob : ∀ q, (s'.players q).fsm_.global_state_ = (s.players q).fsm_.global_state_) :
    Filed s' where
  known := by rw [hmap, hm]; exact h.known
  id_ := by simp only [hmap, hid]; exact h.id_
  owner_ := by simp only [hmap, hown]; exact h.owner_
  global := by simp only [hmap, hglob]; exact h.global

/-- A change of a player's own data. -/
theorem update (h : Filed s) (p : ℕ) {f : Player → Player} (hid : ∀ pl, (f pl).id_ = pl.id_)
    (hown : ∀ pl, (f pl).fsm_.owner_ = pl.fsm_.owner_)
    (hglob : ∀ pl, (f pl).fsm_.global_state_ = pl.fsm_.global_state_) :
    Filed (s.updatePlayer p f) := by
  have hcases : ∀ q, (s.updatePlayer p f).players q = s.players q ∨
      (s.updatePlayer p f).players q = f (s.players q) := by
    intro q
    by_cases hq : q = p
    · subst hq
      exact .inr (LoginServer.updatePlayer_self q f s)
    · exact .inl (LoginServer.updatePlayer_of_ne hq f s)
  refine Filed.of_same h rfl rfl ?_ ?_ ?_
  · intro q
    obtain e | e := hcases q
    · rw [e]
    · rw [e, hid]
  · intro q
    obtain e | e := hcases q
    · rw [e]
    · rw [e, hown]
  · intro q
    obtain e | e := hcases q
    · rw [e]
    · rw [e, hglob]

theorem send (h : Filed s) (q : ℕ) (msgId : UInt32) (body : Bytes) : Filed (s.send q msgId body) := by
  rw [LoginServer.send_eq]
  exact h.of_same rfl rfl (fun _ => rfl) (fun _ => rfl) (fun _ => rfl)

/-- A player that is destroyed is off the file, if it was on it. -/
theorem destroy (h : Filed s) (q : ℕ) : Filed (s.notifyOwnerDestroy q) := by
  unfold LoginServer.notifyOwnerDestroy
  split_ifs
  · set s' := (s.releasePlayer q).updatePlayer q fun pl =>
      { pl with fsm_ := { pl.fsm_ with owner_ := false } } with hs'
    have hstay : ∀ id r, s'.playerMap_ id = some r →
        s.playerMap_ id = some r ∧ s'.players r = s.players r := by
      intro id r hr
      obtain ⟨hne, hr' : s.playerMap_ id = some r⟩ := Table.erase_eq_some.mp hr
      refine ⟨hr', LoginServer.updatePlayer_of_ne ?_ _ _⟩
      rintro rfl
      exact hne (h.id_ id r hr').symm
    constructor
    · intro id r hr
      exact h.known id r (hstay id r hr).1
    · intro id r hr
      obtain ⟨hr, e⟩ := hstay id r hr
      rw [e]
      exact h.id_ id r hr
    · intro id r hr
      obtain ⟨hr, e⟩ := hstay id r hr
      rw [e]
      exact h.owner_ id r hr
    · intro id r hr
      obtain ⟨hr, e⟩ := hstay id r hr
      rw [e]
      exact h.global id r hr
  · exact h.of_same rfl rfl (fun _ => rfl) (fun _ => rfl) (fun _ => rfl)

theorem setState (h : Filed s) (p : ℕ) (state : PlayerState) : Filed (s.setState p state) := by
  unfold LoginServer.setState
  split_ifs
  · exact h
  · exact h.update p (fun _ => rfl) (fun _ => rfl) (fun _ => rfl)

/-- What every handler keeps. -/
theorem stable : Stable fun s s' => Filed s → Filed s' where
  refl _ h := h
  trans h h' hs := h' (h hs)
  send p msgId body _ h := h.send p msgId body
  destroy p _ h := h.destroy p
  setState p state _ h := h.setState p state
  setPTID p ptid _ h := (h.update p (f := fun pl => { pl with szPTID_ := ptid }) (fun _ => rfl)
    (fun _ => rfl) (fun _ => rfl)).of_same rfl rfl (fun _ => rfl) (fun _ => rfl) (fun _ => rfl)
  checkApLoginData p _ s h := (h.update p (f := fun pl => { pl with auth_ID_ := s.start_id })
    (fun _ => rfl) (fun _ => rfl) (fun _ => rfl)).of_same rfl rfl (fun _ => rfl) (fun _ => rfl)
    (fun _ => rfl)

variable (P : LoginProto) (cfg : Config)

theorem sendGateLoginFail (h : Filed s) (p : ℕ) (errorCode : UInt32) :
    Filed (s.sendGateLoginFail P p errorCode) := stable.sendGateLoginFail p P errorCode s h

theorem onEvent (h : Filed s) (p : ℕ) (event : FsmEvent) (clock : Clock) :
    Filed (s.onEvent P cfg p event clock) := stable.onEvent p P cfg event clock s h

/-- A new player is on file unless its id is taken. -/
theorem fetch (h : Filed s) : Filed s.fetchPlayer.2 := by
  have hcases : ∀ id p, s.fetchPlayer.2.playerMap_ id = some p →
      (s.playerMap_ id = some p ∧ s.fetchPlayer.2.players p = s.players p) ∨
      (p = s.made ∧ s.fetchPlayer.2.players p = Player.new id) := by
    intro id p hp
    have hp : s.playerMap_.emplace (s.player_idx_ + 1) s.made id = some p := hp
    have hold : s.playerMap_ id = some p → s.fetchPlayer.2.players p = s.players p := by
      intro hp
      have hne : p ≠ s.made := Nat.ne_of_lt (h.known id p hp)
      simp [LoginServer.fetchPlayer, hne]
    unfold Table.emplace at hp
    split_ifs at hp
    · exact .inl ⟨hp, hold hp⟩
    · obtain ⟨rfl, rfl⟩ | ⟨-, hp⟩ := Table.set_eq_some.mp hp
      · exact .inr ⟨rfl, by simp [LoginServer.fetchPlayer]⟩
      · exact .inl ⟨hp, hold hp⟩
  constructor
  · intro id p hp
    obtain ⟨hp, -⟩ | ⟨rfl, -⟩ := hcases id p hp
    · exact Nat.lt_succ_of_lt (h.known id p hp)
    · exact Nat.lt_succ_self _
  · intro id p hp
    obtain ⟨hp, e⟩ | ⟨-, e⟩ := hcases id p hp
    · rw [e]
      exact h.id_ id p hp
    · rw [e]
      rfl
  · intro id p hp
    obtain ⟨hp, e⟩ | ⟨-, e⟩ := hcases id p hp
    · rw [e]
      exact h.owner_ id p hp
    · rw [e]
      rfl
  · intro id p hp
    obtain ⟨hp, e⟩ | ⟨-, e⟩ := hcases id p hp
    · rw [e]
      exact h.global id p hp
    · rw [e]
      rfl

theorem recvGgLoginReq (h : Filed s) (req : LoginReq) (fd transID : UInt32) (clock : Clock) :
    Filed (s.recvGgLoginReq P cfg (some req) fd transID clock) := by
  have hlog : Filed (s.fetchPlayer.2.log (.accepted s.made fd s.handling)) :=
    h.fetch.of_same rfl rfl (fun _ => rfl) (fun _ => rfl) (fun _ => rfl)
  have hacc : Filed (s.accept fd transID) :=
    hlog.update s.made (fun _ => rfl) (fun _ => rfl) (fun _ => rfl)
  rw [LoginServer.recvGgLoginReq_some]
  split_ifs
  · exact hacc.sendGateLoginFail P _ _
  · have hdata : Filed ((s.accept fd transID).updatePlayer s.made
        (Player.initLoginData req transID.toUInt64)) :=
      hacc.update s.made (fun _ => rfl) (fun _ => rfl) (fun _ => rfl)
    exact hdata.onEvent P cfg _ _ clock

theorem calm (h : Filed s) (hc : Calm s s') : Filed s' := by
  apply h.of_same hc.made hc.playerMap_
  · intro q
    rw [hc.players]
  · intro q
    rw [hc.players]
  · intro q
    rw [hc.players]

theorem processMsg (h : Filed s) (m : MessageParam) (clock : Clock) :
    Filed (s.processMsg P cfg m clock) := by
  have h₁ : Filed { s with handling := m.transID } :=
    h.of_same rfl rfl (fun _ => rfl) (fun _ => rfl) (fun _ => rfl)
  obtain e | ⟨req, e⟩ | ⟨id, p, -, e⟩ := processMsg_cases P cfg clock s m
  · rw [e]
    exact h₁
  · rw [e]
    exact h₁.recvGgLoginReq P cfg req _ _ clock
  · rw [e]
    exact h₁.onEvent P cfg p _ clock

theorem processApMsg (h : Filed s) (m : APMsg) (clock : Clock) :
    Filed (s.processApMsg P cfg m clock) := by
  obtain ⟨l, e | ⟨auth, p, event, -, -, -, e⟩⟩ := processApMsg_cases P cfg clock s m
  · rw [e]
    exact h.calm (calm_setApgList s l)
  · rw [e]
    exact (h.calm (calm_setApgList s l)).onEvent P cfg p event clock

end Filed

variable {P : LoginProto} {cfg : Config} {s s' : LoginServer} {e : LoginEvent}

theorem Filed.step (h : Filed s) (hs : LoginServer.step P cfg s e = some s') : Filed s' := by
  cases e with
  | processMsg clock =>
      obtain ⟨m, s₁, hc, rfl⟩ := step_processMsg hs
      exact (h.calm hc).processMsg P cfg m clock
  | processApMsg clock =>
      obtain ⟨m, rest, -, rfl⟩ := step_processApMsg hs
      exact (h.calm (calm_setApgList s rest)).processApMsg P cfg m clock
  | addSession _ => exact h.calm (step_calm hs (by simp))
  | delSession _ => exact h.calm (step_calm hs (by simp))
  | ping _ => exact h.calm (step_calm hs (by simp))
  | recvData _ _ => exact h.calm (step_calm hs (by simp))
  | operateResult _ _ _ _ _ => exact h.calm (step_calm hs (by simp))

theorem filed_init (P : LoginProto) (cfg : Config) : Filed (loginMachine P cfg).init where
  known := fun _ _ h => nomatch h
  id_ := fun _ _ h => nomatch h
  owner_ := fun _ _ h => nomatch h
  global := fun _ _ h => nomatch h

/-! ### Who is logged off -/

/-- The player belongs to the client that the message is about. -/
def Player.isOf (m : MessageParam) (pl : Player) : Bool :=
  pl.gate_session_fd_ == m.gate_session_fd && pl.trans_id_ == m.transID

/-- A logoff notification leaves every player on file, and its account, that belongs to another
client. -/
def OwnLogoff (s : LoginServer) (e : LoginEvent) (s' : LoginServer) : Prop :=
  match e with
  | .processMsg _ => ∀ m rest, s.message_list_ = m :: rest → m.msg_id = GG_LS_Logoff_NTF →
      ∀ id p, s.playerMap_ id = some p → (s.players p).isOf m = false →
        s'.playerMap_ id = some p ∧ ∀ ptid, s.pTIDMap_ ptid = some id → s'.pTIDMap_ ptid = some id
  | _ => True

/-- The player that a logoff notification finds belongs to the client that it is about, and so does
the player that its account leads to (the same one, until ids come round). -/
def logoffOk (P : LoginProto) (s : LoginServer) : LoginEvent → Bool
  | .processMsg _ =>
      match s.message_list_ with
      | [] => true
      | m :: _ => m.msg_id != GG_LS_Logoff_NTF ||
          ((P.parseLogoff m.data).bind fun ptid => s.findPlayer ptid).all fun p =>
            (s.players p).isOf m && (s.holder (s.players p).szPTID_).all fun q => (s.players q).isOf m
  | _ => true

/-- The player is found under its id. -/
theorem findPlayer_eq_some {ptid : Bytes} {p : ℕ} (h : s.findPlayer ptid = some p) :
    ∃ id, s.playerMap_ id = some p := by
  unfold LoginServer.findPlayer at h
  split_ifs at h
  exact ⟨_, h⟩

/-- A logoff ends the player that is found. -/
theorem onLogoffNtf_some (P : LoginProto) (cfg : Config) (h : Filed s) {ptid : Bytes} {p : ℕ}
    (hp : s.findPlayer ptid = some p) (clock : Clock) :
    (s.onLogoffNtf P cfg (some ptid) clock).playerMap_ = s.playerMap_.erase (s.players p).id_ ∧
    (s.onLogoffNtf P cfg (some ptid) clock).pTIDMap_ = s.pTIDMap_.erase (s.players p).szPTID_ := by
  obtain ⟨id, hid⟩ := findPlayer_eq_some hp
  have hevent : s.onLogoffNtf P cfg (some ptid) clock = s.changeState p .EFST_Logout := by
    simp only [LoginServer.onLogoffNtf, hp, LoginServer.onEvent, FsmEvent.isGlobalEvent, if_true,
      h.global id p hid, LoginServer.visit, LoginServer.globalOnEvent]
  rw [hevent, LoginServer.changeState_logout, LoginServer.notifyOwnerDestroy,
    if_pos (h.owner_ id p hid)]
  exact ⟨rfl, rfl⟩

/-- Ending a player spares the players of other clients exactly if the player belongs to the client,
and its account leads to nobody else's player. -/
theorem erase_spares_iff (h : Filed s) {id₀ : PlayerID} {p₀ : ℕ} (hp₀ : s.playerMap_ id₀ = some p₀)
    (m : MessageParam) :
    (∀ id p, s.playerMap_ id = some p → (s.players p).isOf m = false →
      s.playerMap_.erase (s.players p₀).id_ id = some p ∧ ∀ ptid, s.pTIDMap_ ptid = some id →
        s.pTIDMap_.erase (s.players p₀).szPTID_ ptid = some id) ↔
      (s.players p₀).isOf m = true ∧
        ∀ q, s.holder (s.players p₀).szPTID_ = some q → (s.players q).isOf m = true := by
  constructor
  · intro hspare
    constructor
    · by_contra hno
      have hkept := (hspare id₀ p₀ hp₀ (by simpa using hno)).1
      rw [h.id_ id₀ p₀ hp₀, Table.erase_self] at hkept
      cases hkept
    · intro q hq
      obtain ⟨id, hid, hq⟩ := Option.bind_eq_some_iff.mp hq
      by_contra hno
      have hkept := (hspare id q hq (by simpa using hno)).2 _ hid
      rw [Table.erase_self] at hkept
      cases hkept
  · rintro ⟨hown, hholder⟩ id p hp hother
    refine ⟨Table.erase_eq_some.mpr ⟨?_, hp⟩, fun ptid hptid => Table.erase_eq_some.mpr ⟨?_, hptid⟩⟩
    · rintro rfl
      rw [h.id_ id₀ p₀ hp₀, hp₀] at hp
      obtain rfl := Option.some.inj hp
      rw [hown] at hother
      cases hother
    · rintro rfl
      have hq : s.holder (s.players p₀).szPTID_ = some p := by
        rw [LoginServer.holder, hptid, Option.bind_some, hp]
      rw [hholder p hq] at hother
      cases hother

/-- One notification. -/
theorem onLogoffNtf_spares_iff (P : LoginProto) (cfg : Config) (h : Filed s) (m : MessageParam)
    (clock : Clock) :
    (∀ id p, s.playerMap_ id = some p → (s.players p).isOf m = false →
      (s.onLogoffNtf P cfg (P.parseLogoff m.data) clock).playerMap_ id = some p ∧
        ∀ ptid, s.pTIDMap_ ptid = some id →
          (s.onLogoffNtf P cfg (P.parseLogoff m.data) clock).pTIDMap_ ptid = some id) ↔
      (((P.parseLogoff m.data).bind fun ptid => s.findPlayer ptid).all fun p =>
        (s.players p).isOf m && (s.holder (s.players p).szPTID_).all fun q =>
          (s.players q).isOf m) = true := by
  cases P.parseLogoff m.data with
  | none => exact iff_of_true (fun id p hp _ => ⟨hp, fun _ hptid => hptid⟩) rfl
  | some ptid =>
      cases hp : s.findPlayer ptid with
      | none =>
          have hsame : s.onLogoffNtf P cfg (some ptid) clock = s := by
            simp [LoginServer.onLogoffNtf, hp]
          rw [hsame, Option.bind_some, hp]
          exact iff_of_true (fun id p hp _ => ⟨hp, fun _ hptid => hptid⟩) rfl
      | some p₀ =>
          obtain ⟨id₀, hp₀⟩ := findPlayer_eq_some hp
          obtain ⟨hmap, hpt⟩ := onLogoffNtf_some P cfg h hp clock
          rw [hmap, hpt, erase_spares_iff h hp₀ m, Option.bind_some, hp, Option.all_some,
            Bool.and_eq_true, Option.all_eq_true]

theorem step_ownLogoff (h : Filed s) (hs : LoginServer.step P cfg s e = some s') :
    OwnLogoff s e s' ↔ logoffOk P s e = true := by
  cases e with
  | processMsg clock =>
      unfold LoginServer.step at hs
      split_ifs at hs
      cases hl : s.message_list_ with
      | nil => simp [hl] at hs
      | cons m rest =>
          simp only [hl, Option.some.injEq] at hs
          by_cases hm : m.msg_id = GG_LS_Logoff_NTF
          · have hne : m.msg_id ≠ GG_LS_Login_REQ := by
              rw [hm]
              decide
            rw [LoginServer.processMsg, if_neg hne, if_pos hm] at hs
            have hfiled : Filed { s with message_list_ := rest, handling := m.transID } :=
              h.of_same rfl rfl (fun _ => rfl) (fun _ => rfl) (fun _ => rfl)
            have hone := onLogoffNtf_spares_iff P cfg hfiled m clock
            rw [hs] at hone
            have hcond : logoffOk P s (.processMsg clock) = true ↔
                ((P.parseLogoff m.data).bind fun ptid => s.findPlayer ptid).all (fun p =>
                  (s.players p).isOf m && (s.holder (s.players p).szPTID_).all fun q =>
                    (s.players q).isOf m) = true := by
              simp only [logoffOk, hl, hm, bne_self_eq_false, Bool.false_or]
            rw [hcond]
            refine Iff.trans ⟨fun hall => hall m rest hl hm, fun hall m' rest' hl' _ => ?_⟩ hone
            rw [hl, List.cons.injEq] at hl'
            rw [← hl'.1]
            exact hall
          · apply iff_of_true
            · intro m' rest' hl' hm'
              rw [hl, List.cons.injEq] at hl'
              rw [← hl'.1] at hm'
              exact absurd hm' hm
            · simp [logoffOk, hl, hm]
  | processApMsg clock => exact iff_of_true trivial rfl
  | addSession fd => exact iff_of_true trivial rfl
  | delSession fd => exact iff_of_true trivial rfl
  | ping fd => exact iff_of_true trivial rfl
  | recvData fd data => exact iff_of_true trivial rfl
  | operateResult auth operation result nErrorCode now => exact iff_of_true trivial rfl

theorem throughout_ownLogoff_iff {es : List LoginEvent} (h : (loginMachine P cfg).run es = some s) :
    (loginMachine P cfg).Throughout OwnLogoff es ↔
      (loginMachine P cfg).Along (fun s e => logoffOk P s e = true) es := by
  refine (loginMachine P cfg).throughout_iff_along (R := OwnLogoff) Filed (filed_init P cfg) ?_ ?_ h
  · intro s e s' hi hs
    exact step_ownLogoff hi hs
  · intro s e s' hi hs _
    exact hi.step hs

/-- **Nobody else's player is logged off exactly in the runs in which every logoff notification finds
the player of its own client**, or none.  `OnLogoffNtf` looks for the account alone. -/
theorem logoff_own_iff (P : LoginProto) (cfg : Config) (es : List LoginEvent) (s : LoginServer)
    (h : (loginMachine P cfg).run es = some s) :
    (loginMachine P cfg).Throughout OwnLogoff es ↔
      (loginMachine P cfg).Along (fun s e => logoffOk P s e = true) es :=
  throughout_ownLogoff_iff h

/-- A message of the gate session `fd` arrives and is handled. -/
def message (fd : UInt32) (m : InnerMsg) : List LoginEvent :=
  [.recvData fd (encodeInnerMsg m), .processMsg midnight]

/-- The notification that the player of `accountA` has left. -/
def logoffA (t : TransID) : InnerMsg := (GG_LS_Logoff_NTF, t, 10 :: 5 :: accountA)

/-- A client logs in and leaves. -/
def inAndOut : List LoginEvent :=
  .addSession 1 :: (message 1 (GG_LS_Login_REQ, 5, bodyOf 65) ++ message 1 (logoffA 5))

theorem logoff_own_inAndOut : ∃ s, (loginMachine plainProto localTest).run inAndOut = some s ∧
    s.playerMap_ 1 = none ∧ (loginMachine plainProto localTest).Throughout OwnLogoff inAndOut := by
  obtain ⟨s, h⟩ : ∃ s, (loginMachine plainProto localTest).run inAndOut = some s :=
    Option.isSome_iff_exists.mp (by decide +kernel)
  have hobs : ((loginMachine plainProto localTest).run inAndOut).map (fun s => s.playerMap_ 1) =
      some none := by decide +kernel
  rw [h] at hobs
  exact ⟨s, h, Option.some.inj hobs,
    (logoff_own_iff plainProto localTest inAndOut s h).mpr (by decide +kernel)⟩

/-- An account logs in through the gate session 1 and again through the gate session 2, which kicks
the first player off. -/
def newerLogin : List LoginEvent :=
  .addSession 1 :: .addSession 2 :: (message 1 (GG_LS_Login_REQ, 5, bodyOf 65) ++
    message 2 (GG_LS_Login_REQ, 6, bodyOf 65))

/-- The notification for the first player ends the second one. -/
theorem late_logoff_ends_newer : ∃ s s', (loginMachine plainProto localTest).run newerLogin = some s ∧
    s.playerMap_ 1 = none ∧ s.playerMap_ 2 = some 1 ∧ s.pTIDMap_ accountA = some 2 ∧
    (loginMachine plainProto localTest).run (newerLogin ++ message 1 (logoffA 5)) = some s' ∧
    s'.playerMap_ 2 = none ∧ s'.pTIDMap_ accountA = none ∧
    ¬ (loginMachine plainProto localTest).Throughout OwnLogoff
      (newerLogin ++ message 1 (logoffA 5)) := by
  obtain ⟨s, h⟩ : ∃ s, (loginMachine plainProto localTest).run newerLogin = some s :=
    Option.isSome_iff_exists.mp (by decide +kernel)
  obtain ⟨s', h'⟩ : ∃ s', (loginMachine plainProto localTest).run
      (newerLogin ++ message 1 (logoffA 5)) = some s' :=
    Option.isSome_iff_exists.mp (by decide +kernel)
  have hobs : ((loginMachine plainProto localTest).run newerLogin).map (fun s =>
      (s.playerMap_ 1, s.playerMap_ 2, s.pTIDMap_ accountA)) = some (none, some 1, some 2) := by
    decide +kernel
  have hobs' : ((loginMachine plainProto localTest).run (newerLogin ++ message 1 (logoffA 5))).map
      (fun s => (s.playerMap_ 2, s.pTIDMap_ accountA)) = some (none, none) := by
    decide +kernel
  rw [h] at hobs
  rw [h'] at hobs'
  simp only [Option.map_some, Option.some.injEq, Prod.mk.injEq] at hobs hobs'
  refine ⟨s, s', h, hobs.1, hobs.2.1, hobs.2.2, h', hobs'.1, hobs'.2, ?_⟩
  rw [throughout_ownLogoff_iff h']
  decide +kernel

end BlackSwan.Login
