import BlackSwan.GateSpeech
import BlackSwan.LoginData

/-! # What the login server says

Everything that the login server ever hands to the session of a gate, for every run: heartbeats,
answers to them, and the two packets for a player that `Says` lists.  These carry the `transID` of the
player, narrowed to 32 bits.

A player has its PTID for good once its login is over (`Keeping`), so what it was told when it logged
in, and what its gate was told when it was kicked off, is the PTID that it has in the end. -/

namespace BlackSwan.Login

open Wire Runs Tables

variable {P : LoginProto} {cfg : Config}

/-- What is said about a player, as a message and its body. -/
inductive Says (P : LoginProto) (pl : Player) : UInt32 → Bytes → Prop where
  | fail (error : UInt32) :
      Says P pl LS_GG_Login_ACK (P.serializeLoginAck { result := PROTO_FAILURE, error })
  | succ (h : pl.fsm_.current_state_ ≠ .login) :
      Says P pl LS_GG_Login_ACK (P.serializeLoginAck { result := PROTO_SUCCESS, ptid := pl.szPTID_ })
  | kickoff (h : pl.fsm_.current_state_ ≠ .login) :
      Says P pl LS_GG_Kickoff_NTF (P.serializeKickoff pl.szPTID_)

/-- The packet that `GateSession::send` makes. -/
def gatePacket (msgId : UInt32) (body : Bytes) (t : TransID) : Bytes :=
  encodeInnerPacket msgId body (UInt32.ofNat (if body.length > 2 ^ 32 - 1 then 0 else body.length))
    t.toUInt32.toUInt64

/-- An entry of the history, by the players as they are now. -/
def Spoken (P : LoginProto) (s : LoginServer) : LoginAct → Prop
  | .sent c _ msgId msg => ∃ p body, c = some p ∧ p < s.made ∧ Says P (s.players p) msgId body ∧
      msg = gatePacket msgId body (s.players p).trans_id_
  | .heartbeat _ msg => msg = innerPong ∨ msg = innerPing
  | _ => True

/-! ### Steps that add packets -/

/-- The players keep where they came from, and their PTIDs once their logins are over. -/
structure Keeping (s s' : LoginServer) : Prop where
  made : s.made ≤ s'.made
  trans_id_ : ∀ q < s.made, (s'.players q).trans_id_ = (s.players q).trans_id_
  settled : ∀ q < s.made, (s.players q).fsm_.current_state_ ≠ .login →
    (s'.players q).szPTID_ = (s.players q).szPTID_ ∧ (s'.players q).fsm_.current_state_ ≠ .login

namespace Keeping

variable {s s₁ s' : LoginServer}

theorem of_players (hm : s.made ≤ s'.made) (hpl : ∀ q < s.made, s'.players q = s.players q) :
    Keeping s s' where
  made := hm
  trans_id_ q hq := by rw [hpl q hq]
  settled q hq h := by
    rw [hpl q hq]
    exact ⟨rfl, h⟩

theorem trans (h : Keeping s s₁) (h' : Keeping s₁ s') : Keeping s s' where
  made := h.made.trans h'.made
  trans_id_ q hq := (h'.trans_id_ q (hq.trans_le h.made)).trans (h.trans_id_ q hq)
  settled q hq hl := by
    obtain ⟨hpt₁, hl₁⟩ := h.settled q hq hl
    obtain ⟨hpt, hl'⟩ := h'.settled q (hq.trans_le h.made) hl₁
    exact ⟨hpt.trans hpt₁, hl'⟩

/-- A change of one player that is still logging in, or that does not touch its PTID. -/
theorem update {p : ℕ} (f : Player → Player) (ht : (f (s.players p)).trans_id_ = (s.players p).trans_id_)
    (hset : (s.players p).fsm_.current_state_ ≠ .login →
      (f (s.players p)).szPTID_ = (s.players p).szPTID_ ∧
        (f (s.players p)).fsm_.current_state_ ≠ .login)
    (hm : s'.made = s.made) (hpl : s'.players = (s.updatePlayer p f).players) : Keeping s s' where
  made := hm.ge
  trans_id_ q _ := by
    rw [hpl]
    by_cases hq : q = p
    · rw [hq, LoginServer.updatePlayer_self]
      exact ht
    · rw [LoginServer.updatePlayer_of_ne hq]
  settled q _ h := by
    rw [hpl]
    by_cases hq : q = p
    · subst hq
      rw [LoginServer.updatePlayer_self]
      exact hset h
    · rw [LoginServer.updatePlayer_of_ne hq]
      exact ⟨rfl, h⟩

/-- What was said stays true. -/
theorem spoken (h : Keeping s s') {a : LoginAct} (ha : Spoken P s a) : Spoken P s' a := by
  cases a with
  | accepted p fd t => trivial
  | built p auth => trivial
  | heartbeat fd msg => exact ha
  | sent c fd msgId msg =>
      obtain ⟨p, body, hc, hp, hspeak, hmsg⟩ := ha
      refine ⟨p, body, hc, hp.trans_le h.made, ?_, by rw [h.trans_id_ p hp]; exact hmsg⟩
      cases hspeak with
      | fail error => exact .fail error
      | succ hl =>
          obtain ⟨hpt, hl'⟩ := h.settled p hp hl
          rw [← hpt]
          exact .succ hl'
      | kickoff hl =>
          obtain ⟨hpt, hl'⟩ := h.settled p hp hl
          rw [← hpt]
          exact .kickoff hl'

end Keeping

/-- The step is over, and what it has said is true. -/
structure Adds (P : LoginProto) (s s' : LoginServer) : Prop extends Keeping s s' where
  entries : ∃ l, s'.history = s.history ++ l ∧ ∀ a ∈ l, Spoken P s' a

namespace Adds

variable {s s₁ s' : LoginServer} {p : ℕ}

theorem trans (h : Adds P s s₁) (h' : Adds P s₁ s') : Adds P s s' where
  toKeeping := h.toKeeping.trans h'.toKeeping
  entries := by
    obtain ⟨l, e, hl⟩ := h.entries
    obtain ⟨l', e', hl'⟩ := h'.entries
    refine ⟨l ++ l', by rw [e', e, List.append_assoc], ?_⟩
    intro a ha
    rcases List.mem_append.mp ha with ha | ha
    · exact h'.toKeeping.spoken (hl a ha)
    · exact hl' a ha

/-- A step that says nothing. -/
theorem of_keeping (hk : Keeping s s') (hh : s'.history = s.history) : Adds P s s' where
  toKeeping := hk
  entries := ⟨[], by simp [hh], by simp⟩

theorem of_eq (hm : s'.made = s.made) (hpl : s'.players = s.players)
    (hh : s'.history = s.history) : Adds P s s' :=
  of_keeping (.of_players hm.ge fun q _ => by rw [hpl]) hh

theorem refl (s : LoginServer) : Adds P s s := of_eq rfl rfl rfl

/-- A packet for a player on which it is already true. -/
theorem send (hp : p < s.made) {msgId : UInt32} {body : Bytes} (h : Says P (s.players p) msgId body) :
    Adds P s (s.send p msgId body) := by
  rw [LoginServer.send_eq]
  refine ⟨.of_players (Nat.le_refl _) fun _ _ => rfl, s.packet p msgId body, rfl, ?_⟩
  intro a ha
  unfold LoginServer.packet at ha
  split at ha
  · rw [List.mem_singleton.mp ha]
    exact ⟨p, body, rfl, hp, h, rfl⟩
  · cases ha

theorem destroy (p : ℕ) (s : LoginServer) : Adds P s (s.notifyOwnerDestroy p) := by
  unfold LoginServer.notifyOwnerDestroy
  split_ifs
  · refine of_keeping ?_ rfl
    exact .update (p := p) (fun pl => { pl with fsm_ := { pl.fsm_ with owner_ := false } }) rfl
      (fun h => ⟨rfl, h⟩) rfl rfl
  · exact of_eq rfl rfl rfl

variable (P) in
theorem fail (h : Sound s) (hw : s.Waiting p) (errorCode : UInt32) :
    Adds P s (s.sendGateLoginFail P p errorCode) := by
  rw [LoginServer.sendGateLoginFail, LoginServer.changeState_logout]
  exact (send (h.lt_made hw) (.fail errorCode)).trans (destroy p _)

variable (P) in
theorem kickOff (h : Sound s) (ptid : Bytes) : Adds P s (s.kickOffPlayer P ptid) := by
  obtain ⟨-, e⟩ | ⟨id, q, -, hq, -, hpt, hon, e⟩ := h.idx.kickOff_cases P ptid
  · rw [e]
    exact refl s
  · rw [e]
    have hl : (s.players q).fsm_.current_state_ ≠ .login := by
      intro hl
      exact Indices.not_online_of_waiting ⟨h.idx.filed_self hq, hl⟩ hon
    have hspeak : Says P (s.players q) LS_GG_Kickoff_NTF (P.serializeKickoff ptid) := hpt ▸ .kickoff hl
    exact (send (h.idx.filed id q hq).1 hspeak).trans (destroy q _)

variable (P) in
/-- The player has the PTID before it is told. -/
theorem goOnline (h : Sound s) (hw : s.Waiting p) (ptid : Bytes) :
    Adds P s ((s.setPTID p ptid).sendGateLoginSucc P p) := by
  rw [LoginServer.setPTID_sendGateLoginSucc P hw.2]
  constructor
  · exact .update (LoginServer.promote ptid) rfl (fun hl => absurd hw.2 hl) rfl rfl
  · refine ⟨_, rfl, ?_⟩
    intro a ha
    unfold LoginServer.packet at ha
    split at ha
    · rw [List.mem_singleton.mp ha]
      refine ⟨p, P.serializeLoginAck { result := PROTO_SUCCESS, ptid }, rfl, h.lt_made hw, ?_, ?_⟩
      · simp only [Function.update_self]
        have honline : (LoginServer.promote ptid (s.players p)).fsm_.current_state_ ≠ .login := by
          simp [LoginServer.promote, PlayerFSM.enter]
        exact Says.succ honline
      · simp [gatePacket, LoginServer.promote]
    · cases ha

variable (P) in
theorem login (h : Sound s) (hw : s.Waiting p) (ptid : Bytes) :
    Adds P s (((s.kickOffPlayer P ptid).setPTID p ptid).sendGateLoginSucc P p) := by
  obtain ⟨h₁, -, hkeep⟩ := h.kickOff P ptid
  exact (kickOff P h ptid).trans (goOnline P h₁ (hkeep p hw) ptid)

theorem checkApLoginData (p : ℕ) (clock : Clock) (s : LoginServer) :
    Adds P s (s.checkApLoginData p clock) := by
  constructor
  · exact .update (p := p) (fun pl => { pl with auth_ID_ := s.start_id }) rfl (fun h => ⟨rfl, h⟩) rfl
      rfl
  · refine ⟨[.built p (LoginServer.makeAuth (s.players p) s.start_id clock)], rfl, ?_⟩
    intro a ha
    rw [List.mem_singleton.mp ha]
    trivial

variable (P cfg) in
theorem handleAPLoginReq (h : Sound s) (hw : s.Waiting p) (clock : Clock) :
    Adds P s (s.handleAPLoginReq P cfg p clock) := by
  have hloc : Adds P s (s.localTestLogin P cfg p) := by
    unfold LoginServer.localTestLogin
    dsimp only
    split_ifs
    · exact login P h hw _
    · exact login P h hw _
    · exact refl s
  unfold LoginServer.handleAPLoginReq
  dsimp only
  split_ifs
  · exact hloc
  · exact hloc.trans (checkApLoginData p clock _)

variable (P cfg) in
theorem loginOnEvent (h : Sound s) (hw : s.Waiting p) (event : FsmEvent) (clock : Clock) :
    Adds P s (s.loginOnEvent P cfg p event clock) := by
  cases event with
  | global _ => exact refl s
  | apError _ error => exact fail P h hw _
  | apSucc auth =>
      unfold LoginServer.loginOnEvent
      dsimp only
      split_ifs
      · exact refl s
      · exact refl s
      · exact login P h hw _
  | gate msgID =>
      unfold LoginServer.loginOnEvent
      dsimp only
      split_ifs
      · exact handleAPLoginReq P cfg h hw clock
      · exact refl s

theorem globalOnEvent (p : ℕ) (event : FsmEvent) (s : LoginServer) :
    Adds P s (s.globalOnEvent p event) := by
  unfold LoginServer.globalOnEvent
  split
  · rw [LoginServer.changeState_logout]
    exact destroy p s
  · rw [LoginServer.changeState_logout]
    exact destroy p s
  · exact refl s

variable (P cfg) in
/-- An event for a player on file. -/
theorem onEvent (h : Sound s) {id : PlayerID} (hp : s.playerMap_ id = some p) (event : FsmEvent)
    (clock : Clock) : Adds P s (s.onEvent P cfg p event clock) := by
  unfold LoginServer.onEvent
  split_ifs
  · rw [(h.idx.filed id p hp).2.2.2]
    exact globalOnEvent p event s
  · cases hl : (s.players p).fsm_.current_state_ with
    | monostate => exact refl s
    | online => exact refl s
    | global => exact globalOnEvent p event s
    | login => exact loginOnEvent P cfg h ⟨h.idx.filed_self hp, hl⟩ event clock

/-- A new player, with or without the data of its request. -/
theorem accept (fd transID : UInt32) (f : Player → Player) (s : LoginServer) :
    Adds P s ((s.accept fd transID).updatePlayer s.made f) := by
  constructor
  · refine .of_players (Nat.le_succ _) fun q hq => ?_
    rw [LoginServer.updatePlayer_of_ne hq.ne, LoginServer.accept, LoginServer.updatePlayer_of_ne hq.ne]
    simp [LoginServer.log, LoginServer.fetchPlayer, hq.ne]
  · refine ⟨[.accepted s.made fd s.handling], rfl, ?_⟩
    intro a ha
    rw [List.mem_singleton.mp ha]
    trivial

variable (P cfg) in
theorem recvGgLoginReq (h : Sound s) (req : LoginReq) (fd transID : UInt32) (clock : Clock)
    (hmade : s.made + 1 < 2 ^ 64) :
    Adds P s (s.recvGgLoginReq P cfg (some req) fd transID clock) := by
  obtain ⟨h₂, hw₂⟩ := h.accept hmade fd transID
  rw [LoginServer.recvGgLoginReq_some]
  split_ifs
  · have hsame : (s.accept fd transID).updatePlayer s.made id = s.accept fd transID := by
      simp [LoginServer.updatePlayer]
    have hacc := accept (P := P) fd transID id s
    rw [hsame] at hacc
    exact hacc.trans (fail P h₂ hw₂ _)
  · have h₃ : Sound ((s.accept fd transID).updatePlayer s.made
        (Player.initLoginData req transID.toUInt64)) := by
      apply Sound.update h₂
      all_goals exact fun _ => rfl
    have hw₃ : ((s.accept fd transID).updatePlayer s.made
        (Player.initLoginData req transID.toUInt64)).Waiting s.made :=
      LoginServer.waiting_update (f := Player.initLoginData _ _) (fun _ => rfl) (fun _ => rfl) hw₂
    exact (accept fd transID _ s).trans (onEvent P cfg h₃ hw₃.1 _ _)

variable (P cfg) in
theorem processMsg (h : Sound s) (m : MessageParam) (clock : Clock)
    (hmade : (s.processMsg P cfg m clock).made < 2 ^ 64) : Adds P s (s.processMsg P cfg m clock) := by
  have h₁ : Sound { s with handling := m.transID } := h.of_eq rfl rfl rfl rfl rfl rfl fun _ => rfl
  have ha₁ : Adds P s { s with handling := m.transID } := of_eq rfl rfl rfl
  obtain e | ⟨req, e⟩ | ⟨id, p, hp, e⟩ := processMsg_cases P cfg clock s m
  · rw [e]
    exact ha₁
  · rw [e] at hmade ⊢
    rw [(Acts.recvGgLoginReq P cfg req _ _ clock _).made] at hmade
    exact ha₁.trans (recvGgLoginReq P cfg h₁ req _ _ clock hmade)
  · rw [e]
    exact ha₁.trans (onEvent P cfg h₁ hp _ clock)

variable (P cfg) in
theorem processApMsg (h : Sound s) (m : APMsg) (clock : Clock) :
    Adds P s (s.processApMsg P cfg m clock) := by
  obtain ⟨l, e | ⟨auth, p, event, -, hp, -, e⟩⟩ := processApMsg_cases P cfg clock s m
  all_goals
    have h₁ : Sound { s with apg_list_ := l } := h.of_eq rfl rfl rfl rfl rfl rfl fun _ => rfl
    have ha₁ : Adds P s { s with apg_list_ := l } := of_eq rfl rfl rfl
    rw [e]
  · exact ha₁
  · exact ha₁.trans (onEvent P cfg h₁ hp event clock)

theorem heartbeat (fd : UInt32) {msg : Bytes} (h : msg = innerPong ∨ msg = innerPing)
    (s : LoginServer) : Adds P s (s.log (.heartbeat fd msg)) := by
  refine ⟨.of_players (Nat.le_refl _) fun _ _ => rfl, [.heartbeat fd msg], rfl, ?_⟩
  intro a ha
  rw [List.mem_singleton.mp ha]
  exact h

/-- Packets of a gate: only heartbeats are answered at once. -/
theorem recvData (s : LoginServer) (fd : UInt32) (data : Bytes) :
    Ends (Adds P s) (fun _ _ => False) (LoginServer.onRecvData fd data s) := by
  apply ends_recvLoop
  · intro s₁ h₁
    exact h₁.trans (heartbeat fd (.inl rfl) s₁)
  · intro p s₁ h₁
    exact h₁.trans (of_eq rfl rfl rfl)
  · exact refl s

/-- **One step.** -/
theorem step {e : LoginEvent} (h : Sound s) (hs : LoginServer.step P cfg s e = some s')
    (hmade : s'.made < 2 ^ 64) : Adds P s s' := by
  unfold LoginServer.step at hs
  split_ifs at hs
  cases e with
  | addSession fd =>
      obtain rfl := Option.some.inj hs
      exact of_eq rfl rfl rfl
  | delSession fd =>
      obtain rfl := Option.some.inj hs
      exact of_eq rfl rfl rfl
  | ping fd =>
      dsimp only at hs
      split_ifs at hs
      obtain rfl := Option.some.inj hs
      exact heartbeat fd (.inr rfl) s
  | recvData fd data =>
      have hr := recvData (P := P) s fd data
      dsimp only at hs
      cases hd : LoginServer.onRecvData fd data s with
      | ok n s₁ =>
          rw [hd] at hr hs
          obtain rfl := Option.some.inj hs
          exact hr
      | error e s₁ =>
          rw [hd] at hr
          exact hr.elim
  | operateResult auth operation result nErrorCode now =>
      obtain rfl := Option.some.inj hs
      exact of_eq rfl rfl rfl
  | processMsg clock =>
      dsimp only at hs
      split at hs
      · cases hs
      · rename_i m rest _
        obtain rfl := Option.some.inj hs
        have h₁ : Sound { s with message_list_ := rest } :=
          h.of_eq rfl rfl rfl rfl rfl rfl fun _ => rfl
        exact (of_eq rfl rfl rfl : Adds P s { s with message_list_ := rest }).trans
          (processMsg P cfg h₁ m clock hmade)
  | processApMsg clock =>
      dsimp only at hs
      split at hs
      · cases hs
      · rename_i m rest _
        obtain rfl := Option.some.inj hs
        have h₁ : Sound { s with apg_list_ := rest } := h.of_eq rfl rfl rfl rfl rfl rfl fun _ => rfl
        exact (of_eq rfl rfl rfl : Adds P s { s with apg_list_ := rest }).trans
          (processApMsg P cfg h₁ m clock)

end Adds

/-! ### Runs -/

theorem spoken_of_run {es : List LoginEvent} {s : LoginServer}
    (h : (loginMachine P cfg).run es = some s) (hw : s.made < 2 ^ 64) :
    ∀ a ∈ s.history, Spoken P s a := by
  refine ((loginMachine P cfg).run_induction (P := fun _ s => s.made < 2 ^ 64 →
    Sound s ∧ ∀ a ∈ s.history, Spoken P s a) ?_ ?_ h hw).2
  · intro hw
    have hinit : (loginMachine P cfg).run [] = some (loginMachine P cfg).init := rfl
    refine ⟨sound_of_run hinit hw, ?_⟩
    intro a ha
    cases ha
  · intro es s₁ e s₂ _ ih hs hw₂
    obtain ⟨hsound, hspoken⟩ := ih (Nat.lt_of_le_of_lt (made_le_step hs) hw₂)
    have hadds := Adds.step (P := P) hsound hs hw₂
    refine ⟨hsound.step hs hw₂, ?_⟩
    obtain ⟨l, e, hl⟩ := hadds.entries
    intro a ha
    rw [e] at ha
    rcases List.mem_append.mp ha with ha | ha
    · exact hadds.toKeeping.spoken (hspoken a ha)
    · exact hl a ha

/-- What the login server says. -/
structure SaysOnly (P : LoginProto) (s : LoginServer) : Prop where
  /-- a packet for a player goes to the session that the request of the player came from, with the
  `transID` of the request, and it says how the login went or that the player was kicked off -/
  sent : ∀ c fd msgId msg, .sent c fd msgId msg ∈ s.history → ∃ p t body, c = some p ∧
    .accepted p fd t ∈ s.history ∧ Says P (s.players p) msgId body ∧ msg = gatePacket msgId body t
  /-- everything else is a heartbeat or the answer to one -/
  heartbeat : ∀ fd msg, .heartbeat fd msg ∈ s.history → msg = innerPong ∨ msg = innerPing

theorem gatePacket_narrow (msgId : UInt32) (body : Bytes) (t : TransID) :
    gatePacket msgId body t.toUInt32.toUInt64 = gatePacket msgId body t := by
  rw [gatePacket, gatePacket, UInt32.toUInt32_toUInt64]

/-- **What the login server says**, in every run, whatever the gates and the AP send. -/
theorem login_says (P : LoginProto) (cfg : Config) (es : List LoginEvent) (s : LoginServer)
    (h : (loginMachine P cfg).run es = some s) (hw : (requests s.history).length < 2 ^ 64) :
    SaysOnly P s := by
  rw [length_requests h] at hw
  have hspoken := spoken_of_run h hw
  have ho := origins_of_run h
  constructor
  · intro c fd msgId msg hm
    obtain ⟨p, body, rfl, hp, hspeak, rfl⟩ := hspoken _ hm
    obtain ⟨p', hp', -, hfd, -⟩ := ho.sent _ _ _ _ hm
    obtain rfl := Option.some.inj hp'
    have hreq : p ∈ requests s.history := by rw [ho.requests]; exact List.mem_range.mpr hp
    obtain ⟨a, ha, hap⟩ := List.mem_filterMap.mp hreq
    cases a with
    | accepted q fd' t =>
        obtain rfl := Option.some.inj hap
        obtain ⟨hfd', ht⟩ := ho.accepted q fd' t ha
        obtain rfl : fd' = fd := hfd'.symm.trans hfd
        refine ⟨q, t, body, rfl, ha, hspeak, ?_⟩
        rw [ht, gatePacket_narrow]
    | sent c fd' msgId' msg' => cases hap
    | built q auth => cases hap
    | heartbeat fd' msg' => cases hap
  · exact fun fd msg hm => hspoken _ hm

/-- An account logs in twice, and the first player is kicked off. -/
def twice : List LoginEvent := .addSession 1 :: (request (bodyOf 65) ++ request (bodyOf 65))

/-- The same, and then the heartbeat of the session. -/
def twicePinged : List LoginEvent := twice ++ [.ping 1]

theorem login_says_twicePinged : ∃ s, (loginMachine plainProto localTest).run twicePinged = some s ∧
    (∃ msg, .sent (some 0) 1 LS_GG_Kickoff_NTF msg ∈ s.history) ∧
    .heartbeat 1 innerPing ∈ s.history ∧ SaysOnly plainProto s := by
  obtain ⟨s, h⟩ : ∃ s, (loginMachine plainProto localTest).run twicePinged = some s :=
    Option.isSome_iff_exists.mp (by decide +kernel)
  have hobs : ((loginMachine plainProto localTest).run twicePinged).map (fun s =>
      ((requests s.history).length, s.history.drop 3 |>.take 1, s.history.getLast?)) =
      some (2, [.sent (some 0) 1 LS_GG_Kickoff_NTF
        (gatePacket LS_GG_Kickoff_NTF (plainProto.serializeKickoff accountA) 5)],
        some (.heartbeat 1 innerPing)) := by
    decide +kernel
  rw [h] at hobs
  simp only [Option.map_some, Option.some.injEq, Prod.mk.injEq] at hobs
  obtain ⟨hreq, hkick, hping⟩ := hobs
  have hmem := List.mem_of_mem_drop (List.mem_of_mem_take (hkick ▸ List.mem_singleton_self _))
  refine ⟨s, h, ⟨_, hmem⟩, List.mem_of_getLast? hping, ?_⟩
  exact login_says plainProto localTest twicePinged s h (by rw [hreq]; decide)

end BlackSwan.Login
