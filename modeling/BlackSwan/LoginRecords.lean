import BlackSwan.LoginIntake
import BlackSwan.LoginSpeech

/-! # What the login server has on record

Where the players and the accounts of the login server come from: the server accepts the login
requests that its main thread has handled, each once and in their order, and whoever is on file has
the data of such a request (`Records`).

A step that is no request leaves of every player what its request has given it, and puts nobody on
file (`Recalls`). -/

namespace BlackSwan.Login

open Wire Runs Tables

/-- The requests for which a player was made, by their sessions and their `transID`s. -/
def acceptances (h : List LoginAct) : List (UInt32 × TransID) := h.filterMap fun
  | .accepted _ fd t => some (fd, t)
  | _ => none

theorem acceptances_append (h h' : List LoginAct) :
    acceptances (h ++ h') = acceptances h ++ acceptances h' := List.filterMap_append

theorem acceptances_eq_nil {h : List LoginAct} (hno : ∀ p fd t, .accepted p fd t ∉ h) :
    acceptances h = [] := by
  refine List.filterMap_eq_nil_iff.mpr fun a ha => ?_
  cases a with
  | accepted p fd t => exact absurd ha (hno p fd t)
  | _ => rfl

/-- The login request that a message is. -/
def MessageParam.request (P : LoginProto) (m : MessageParam) : Option LoginReq :=
  if m.msg_id = GG_LS_Login_REQ then P.parseLoginReq m.data else none

/-- The session and the `transID` that a message makes a player for. -/
def MessageParam.asks (P : LoginProto) (m : MessageParam) : Option (UInt32 × TransID) :=
  (m.request P).map fun _ => (m.gate_session_fd, m.transID)

/-- The player was made for the message, and has the data of its request. -/
structure Player.Asked (P : LoginProto) (m : MessageParam) (pl : Player) : Prop where
  session : pl.gate_session_fd_ = m.gate_session_fd
  trans_id_ : pl.trans_id_ = m.transID.toUInt32.toUInt64
  data : ∃ req, m.request P = some req ∧ pl.HasData req

/-- What the request has given to a player. -/
structure Player.SameRequest (pl pl' : Player) : Prop where
  session : pl'.gate_session_fd_ = pl.gate_session_fd_
  trans_id_ : pl'.trans_id_ = pl.trans_id_
  area : pl'.areaGroup_ = pl.areaGroup_
  ap : pl'.apType_ = pl.apType_
  account : pl'.szAuthenID_ = pl.szAuthenID_

namespace Player.SameRequest

variable {pl pl₁ pl' : Player}

theorem refl (pl : Player) : pl.SameRequest pl := ⟨rfl, rfl, rfl, rfl, rfl⟩

theorem trans (h : pl.SameRequest pl₁) (h' : pl₁.SameRequest pl') : pl.SameRequest pl' :=
  ⟨h'.session.trans h.session, h'.trans_id_.trans h.trans_id_, h'.area.trans h.area,
    h'.ap.trans h.ap, h'.account.trans h.account⟩

theorem asked {P : LoginProto} {m : MessageParam} (h : pl.SameRequest pl') (ha : pl.Asked P m) :
    pl'.Asked P m := by
  obtain ⟨req, hreq, hdata⟩ := ha.data
  exact ⟨h.session.trans ha.session, h.trans_id_.trans ha.trans_id_, req, hreq,
    h.area.trans hdata.area, h.ap.trans hdata.ap, h.account.trans hdata.account⟩

end Player.SameRequest

/-! ### Steps that are no requests -/

structure Recalls (s s' : LoginServer) : Prop where
  filed : ∀ id q, s'.playerMap_ id = some q → s.playerMap_ id = some q
  players : ∀ q, (s.players q).SameRequest (s'.players q)
  accepted : acceptances s'.history = acceptances s.history

namespace Recalls

variable {s s₁ s' : LoginServer} {p : ℕ}

theorem of_eq (hmap : s'.playerMap_ = s.playerMap_) (hpl : s'.players = s.players)
    (hh : acceptances s'.history = acceptances s.history) : Recalls s s' where
  filed id q h := by rwa [hmap] at h
  players q := by
    rw [hpl]
    exact .refl _
  accepted := hh

theorem refl (s : LoginServer) : Recalls s s := of_eq rfl rfl rfl

theorem trans (h : Recalls s s₁) (h' : Recalls s₁ s') : Recalls s s' where
  filed id q hq := h.filed id q (h'.filed id q hq)
  players q := (h.players q).trans (h'.players q)
  accepted := h'.accepted.trans h.accepted

/-- A change of a player that its request has not to do with. -/
theorem update {f : Player → Player} (hf : (s.players p).SameRequest (f (s.players p)))
    (hfile : ∀ id q, s'.playerMap_ id = some q → s.playerMap_ id = some q)
    (hpl : s'.players = (s.updatePlayer p f).players)
    (hh : acceptances s'.history = acceptances s.history) : Recalls s s' where
  filed := hfile
  players q := by
    rw [hpl]
    by_cases hq : q = p
    · rw [hq, LoginServer.updatePlayer_self]
      exact hf
    · rw [LoginServer.updatePlayer_of_ne hq]
      exact .refl _
  accepted := hh

theorem send (p : ℕ) (msgId : UInt32) (body : Bytes) (s : LoginServer) :
    Recalls s (s.send p msgId body) := by
  rw [LoginServer.send_eq]
  refine of_eq rfl rfl ?_
  have hno : acceptances (s.packet p msgId body) = [] := by
    unfold LoginServer.packet
    split <;> rfl
  rw [acceptances_append, hno, List.append_nil]

theorem notifyOwnerDestroy (p : ℕ) (s : LoginServer) : Recalls s (s.notifyOwnerDestroy p) := by
  unfold LoginServer.notifyOwnerDestroy
  split_ifs
  · exact update (p := p) (f := fun pl => { pl with fsm_ := { pl.fsm_ with owner_ := false } })
      ⟨rfl, rfl, rfl, rfl, rfl⟩ (fun id q h => (Table.erase_eq_some.mp h).2) rfl rfl
  · exact of_eq rfl rfl rfl

theorem setState (p : ℕ) (state : PlayerState) (s : LoginServer) : Recalls s (s.setState p state) := by
  unfold LoginServer.setState
  split_ifs
  · exact refl s
  · exact update (p := p) (f := fun pl => { pl with fsm_ := pl.fsm_.enter state })
      ⟨rfl, rfl, rfl, rfl, rfl⟩ (fun _ _ h => h) rfl rfl

theorem setPTID (p : ℕ) (ptid : Bytes) (s : LoginServer) : Recalls s (s.setPTID p ptid) :=
  update (p := p) (f := fun pl => { pl with szPTID_ := ptid }) ⟨rfl, rfl, rfl, rfl, rfl⟩
    (fun _ _ h => h) rfl rfl

theorem checkApLoginData (p : ℕ) (clock : Clock) (s : LoginServer) :
    Recalls s (s.checkApLoginData p clock) := by
  refine update (p := p) (f := fun pl => { pl with auth_ID_ := s.start_id })
    ⟨rfl, rfl, rfl, rfl, rfl⟩ (fun _ _ h => h) rfl ?_
  show acceptances (s.history ++ [.built p _]) = _
  rw [acceptances_append]
  exact List.append_nil _

theorem stable : Stable Recalls where
  refl := refl
  trans := trans
  send := send
  destroy := notifyOwnerDestroy
  setState := setState
  setPTID := setPTID
  checkApLoginData := checkApLoginData

theorem calm (hc : Calm s s') : Recalls s s' := by
  refine of_eq hc.playerMap_ hc.players ?_
  obtain ⟨l, hl, hpong⟩ := hc.entries
  have hno : acceptances l = [] := by
    refine acceptances_eq_nil fun p fd t ha => ?_
    obtain ⟨fd', msg, e⟩ := hpong _ ha
    cases e
  rw [hl, acceptances_append, hno, List.append_nil]

variable (P : LoginProto) (cfg : Config)

/-- A message that asks for nothing. -/
theorem processMsg {m : MessageParam} (hm : m.request P = none) (clock : Clock) (s : LoginServer) :
    Recalls s (s.processMsg P cfg m clock) := by
  have h₁ : Recalls s { s with handling := m.transID } := of_eq rfl rfl rfl
  unfold LoginServer.processMsg
  dsimp only
  split_ifs with hreq
  · rw [MessageParam.request, if_pos hreq] at hm
    rw [hm]
    exact h₁
  · unfold LoginServer.onLogoffNtf
    split
    · exact h₁
    · split
      · exact h₁
      · exact h₁.trans (stable.onEvent _ P cfg _ clock _)
  · exact h₁

theorem processApMsg (m : APMsg) (clock : Clock) (s : LoginServer) :
    Recalls s (s.processApMsg P cfg m clock) := by
  obtain ⟨l, e | ⟨auth, p, event, -, -, -, e⟩⟩ := processApMsg_cases P cfg clock s m
  all_goals
    have h₁ : Recalls s { s with apg_list_ := l } := of_eq rfl rfl rfl
    rw [e]
  · exact h₁
  · exact h₁.trans (stable.onEvent p P cfg event clock _)

/-- Everything but the handling of a message. -/
theorem step {P : LoginProto} {cfg : Config} {e : LoginEvent}
    (hs : LoginServer.step P cfg s e = some s') (he : ∀ clock, e ≠ .processMsg clock) :
    Recalls s s' := by
  cases e with
  | processMsg clock => exact absurd rfl (he clock)
  | processApMsg clock =>
      obtain ⟨m, rest, -, rfl⟩ := step_processApMsg hs
      exact (calm (calm_setApgList s rest)).trans (processApMsg P cfg m clock _)
  | addSession _ => exact calm (step_calm hs (by simp))
  | delSession _ => exact calm (step_calm hs (by simp))
  | ping _ => exact calm (step_calm hs (by simp))
  | recvData _ _ => exact calm (step_calm hs (by simp))
  | operateResult _ _ _ _ _ => exact calm (step_calm hs (by simp))

end Recalls

/-! ### Requests -/

section

variable {P : LoginProto} {cfg : Config} {s : LoginServer}

theorem msg_id_of_request {m : MessageParam} {req : LoginReq} (hm : m.request P = some req) :
    m.msg_id = GG_LS_Login_REQ := by
  by_contra hid
  rw [MessageParam.request, if_neg hid] at hm
  cases hm

theorem processMsg_some {m : MessageParam} {req : LoginReq} (hm : m.request P = some req)
    (clock : Clock) (s : LoginServer) :
    s.processMsg P cfg m clock = ({ s with handling := m.transID } : LoginServer).recvGgLoginReq P cfg
      (some req) m.gate_session_fd m.transID.toUInt32 clock := by
  have hid := msg_id_of_request hm
  rw [MessageParam.request, if_pos hid] at hm
  unfold LoginServer.processMsg
  dsimp only
  rw [if_pos hid, hm]

/-- A failed login takes the player off the file. -/
theorem not_filed_fail (h : Sound s) {p : ℕ} (hw : s.Waiting p) (errorCode : UInt32) (id : PlayerID) :
    (s.sendGateLoginFail P p errorCode).playerMap_ id ≠ some p := by
  intro hid
  have hown := ((h.fail P hw errorCode).idx.filed id p hid).2.2.1
  have hown₁ : ((s.send p LS_GG_Login_ACK (P.serializeLoginAck
      { result := PROTO_FAILURE, error := errorCode })).players p).fsm_.owner_ = true := by
    rw [LoginServer.send_eq]
    exact (h.idx.filed _ p hw.1).2.2.1
  rw [LoginServer.sendGateLoginFail, LoginServer.changeState_logout, LoginServer.notifyOwnerDestroy,
    if_pos hown₁, LoginServer.updatePlayer_self] at hown
  cases hown

/-- A request makes one player, and puts nobody else on file. -/
theorem recvGgLoginReq_filed (h : Sound s) (req : LoginReq) (fd transID : UInt32) (clock : Clock)
    (hmade : s.made + 1 < 2 ^ 64) {id : PlayerID} {q : ℕ}
    (hq : (s.recvGgLoginReq P cfg (some req) fd transID clock).playerMap_ id = some q) :
    s.playerMap_ id = some q ∧ (s.players q).SameRequest
        ((s.recvGgLoginReq P cfg (some req) fd transID clock).players q) ∨
      ((s.received req fd transID).players s.made).SameRequest
        ((s.recvGgLoginReq P cfg (some req) fd transID clock).players q) := by
  obtain ⟨h₂, hw₂⟩ := h.accept hmade fd transID
  have hfile (hq : (s.accept fd transID).playerMap_ id = some q) (hne : q ≠ s.made) :
      s.playerMap_ id = some q := by
    have hmap : s.playerMap_.emplace (s.player_idx_ + 1) s.made id = some q := hq
    unfold Table.emplace at hmap
    split_ifs at hmap
    · exact hmap
    · obtain ⟨-, rfl⟩ | ⟨-, hmap⟩ := Table.set_eq_some.mp hmap
      · exact absurd rfl hne
      · exact hmap
  have hold (hne : q ≠ s.made) : (s.accept fd transID).players q = s.players q := by
    rw [LoginServer.accept, LoginServer.updatePlayer_of_ne hne]
    simp [LoginServer.log, LoginServer.fetchPlayer, hne]
  rw [LoginServer.recvGgLoginReq_some] at hq ⊢
  split_ifs at hq ⊢
  · have hrec := Recalls.stable.sendGateLoginFail s.made P LSERR_Old_Client (s.accept fd transID)
    have hne : q ≠ s.made := by
      rintro rfl
      exact not_filed_fail h₂ hw₂ _ id hq
    refine .inl ⟨hfile (hrec.filed id q hq) hne, ?_⟩
    rw [← hold hne]
    exact hrec.players q
  · have hrec := Recalls.stable.onEvent s.made P cfg (.gate GG_LS_Login_REQ) clock
      (s.received req fd transID)
    by_cases hne : q = s.made
    · subst hne
      exact .inr (hrec.players s.made)
    · refine .inl ⟨hfile (hrec.filed id q hq) hne, ?_⟩
      rw [← hold hne, ← LoginServer.updatePlayer_of_ne hne (Player.initLoginData req transID.toUInt64)]
      exact hrec.players q

theorem acceptances_recvGgLoginReq (req : LoginReq) (fd transID : UInt32) (clock : Clock)
    (s : LoginServer) :
    acceptances (s.recvGgLoginReq P cfg (some req) fd transID clock).history =
      acceptances s.history ++ [(fd, s.handling)] := by
  have hacc : acceptances (s.accept fd transID).history =
      acceptances s.history ++ [(fd, s.handling)] := acceptances_append _ _
  rw [LoginServer.recvGgLoginReq_some, ← hacc]
  split_ifs
  · exact (Recalls.stable.sendGateLoginFail s.made P LSERR_Old_Client _).accepted
  · exact (Recalls.stable.onEvent s.made P cfg (.gate GG_LS_Login_REQ) clock
      (s.received req fd transID)).accepted

end

/-! ### The records of the intake -/

/-- Everything on record was asked for in a message that the main thread has handled. -/
structure Records (P : LoginProto) (s : Intake) : Prop where
  accepted : acceptances s.server.history = s.processed.filterMap (MessageParam.asks P)
  filed : ∀ id q, s.server.playerMap_ id = some q →
    ∃ m ∈ s.processed, (s.server.players q).Asked P m

section

variable {P : LoginProto} {cfg : Config} {s s' : Intake}

/-- A step of the intake is one of the login server, or none. -/
theorem Intake.whole_step {e : IntakeEvent} (hs : s.step P cfg e = some s') :
    s'.whole = s.whole ∨ ∃ e', s.whole.step P cfg e' = some s'.whole := by
  have hcrashed : s.server.crashed = false := by
    by_contra hc
    simp [Intake.step, hc] at hs
  have hcase := Intake.step_cases hs
  cases e with
  | read fd buf =>
      obtain ⟨-, -, rfl⟩ := hcase
      exact .inl rfl
  | round fd =>
      obtain ⟨data, -, rfl⟩ := hcase
      exact round_whole hcrashed
  | swap =>
      obtain ⟨hnil, rfl⟩ := hcase
      left
      simp [Intake.whole, LoginServer.withList, hnil]
  | processMsg clock =>
      obtain ⟨m, rest, hlist, rfl⟩ := hcase
      exact .inr ⟨.processMsg clock, processMsg_whole hcrashed hlist⟩
  | other e =>
      obtain ⟨h₁, h₂, server, hserver, rfl⟩ := hcase
      refine .inr ⟨e, ?_⟩
      rw [Intake.whole, LoginServer.step_withList P cfg _ h₁ h₂, hserver, Option.map_some]
      simp only [Intake.whole, LoginServer.step_message_list_ P cfg hserver h₁ h₂]

theorem Intake.made_le {e : IntakeEvent} (hs : s.step P cfg e = some s') :
    s.server.made ≤ s'.server.made := by
  obtain hw | ⟨e', hw⟩ := Intake.whole_step hs
  · exact (congrArg LoginServer.made hw).ge
  · exact (made_le_step hw : s.whole.made ≤ s'.whole.made)

theorem sound_of_intake (h : (intakeMachine P cfg).Reachable s) (hw : s.server.made < 2 ^ 64) :
    Sound s.server := by
  obtain ⟨es, hrun⟩ := intake_reachable h
  exact (sound_of_run hrun hw).of_eq rfl rfl rfl rfl rfl rfl fun _ => rfl

/-- A round of a reader pushes a message at most. -/
theorem recalls_round (fd : UInt32) (data : Bytes) (s : Intake) :
    Recalls s.server (s.round fd data).server ∧ (s.round fd data).processed = s.processed := by
  unfold Intake.round
  dsimp only
  split_ifs
  · exact ⟨.refl _, rfl⟩
  · split
    · exact ⟨.of_eq rfl rfl rfl, rfl⟩
    · exact ⟨.refl _, rfl⟩
    · rename_i pack _
      unfold LoginServer.onRecvPacket onPacket
      split_ifs
      · refine ⟨.of_eq rfl rfl ?_, rfl⟩
        show acceptances (s.server.history ++ [.heartbeat fd _]) = _
        rw [acceptances_append]
        exact List.append_nil _
      · exact ⟨.refl _, rfl⟩
      · exact ⟨.of_eq rfl rfl rfl, rfl⟩

namespace Records

theorem recalls (h : Records P s) (hr : Recalls s.server s'.server)
    (hp : s'.processed = s.processed) : Records P s' where
  accepted := by rw [hr.accepted, h.accepted, hp]
  filed id q hq := by
    obtain ⟨m, hm, hasked⟩ := h.filed id q (hr.filed id q hq)
    exact ⟨m, hp ▸ hm, (hr.players q).asked hasked⟩

/-- The next message is handled. -/
theorem processMsg (h : Records P s) (hsound : Sound s.server) {m : MessageParam}
    {rest : List MessageParam} {clock : Clock}
    (hmade : (s.server.processMsg P cfg m clock).made < 2 ^ 64) :
    Records P { s with
      server := s.server.processMsg P cfg m clock
      current_list := rest
      processed := s.processed ++ [m] } := by
  cases hreq : m.request P with
  | none =>
      have hr := Recalls.processMsg P cfg hreq clock s.server
      constructor
      · rw [hr.accepted, h.accepted, List.filterMap_append]
        simp [MessageParam.asks, hreq]
      · intro id q hq
        obtain ⟨m', hm', hasked⟩ := h.filed id q (hr.filed id q hq)
        exact ⟨m', List.mem_append_left _ hm', (hr.players q).asked hasked⟩
  | some req =>
      have h₁ : Sound { s.server with handling := m.transID } :=
        hsound.of_eq rfl rfl rfl rfl rfl rfl fun _ => rfl
      rw [processMsg_some hreq] at hmade ⊢
      rw [(Acts.recvGgLoginReq P cfg req _ _ clock _).made] at hmade
      constructor
      · show acceptances (LoginServer.recvGgLoginReq P cfg (some req) _ _ _ _).history = _
        rw [acceptances_recvGgLoginReq, List.filterMap_append]
        show acceptances s.server.history ++ _ = _
        rw [h.accepted]
        simp [MessageParam.asks, hreq]
      · intro id q hq
        obtain ⟨hold, hsame⟩ | hsame := recvGgLoginReq_filed h₁ req _ _ clock hmade hq
        · obtain ⟨m', hm', hasked⟩ := h.filed id q hold
          exact ⟨m', List.mem_append_left _ hm', hsame.asked hasked⟩
        · refine ⟨m, List.mem_append_right _ List.mem_cons_self, hsame.asked ?_⟩
          rw [players_received]
          exact ⟨rfl, rfl, req, hreq, rfl, rfl, rfl⟩

theorem step (h : Records P s) (hsound : Sound s.server) {e : IntakeEvent}
    (hs : s.step P cfg e = some s') (hmade : s'.server.made < 2 ^ 64) : Records P s' := by
  have hcase := Intake.step_cases hs
  cases e with
  | read fd buf =>
      obtain ⟨-, -, rfl⟩ := hcase
      exact h.recalls (.refl _) rfl
  | round fd =>
      obtain ⟨data, -, rfl⟩ := hcase
      obtain ⟨hr, hp⟩ := recalls_round fd data s
      exact h.recalls hr hp
  | swap =>
      obtain ⟨-, rfl⟩ := hcase
      exact h.recalls (.of_eq rfl rfl rfl) rfl
  | processMsg clock =>
      obtain ⟨m, rest, -, rfl⟩ := hcase
      exact h.processMsg hsound hmade
  | other e =>
      obtain ⟨-, h₂, server, hserver, rfl⟩ := hcase
      exact h.recalls (.step hserver h₂) rfl

end Records

theorem records_of_reachable (h : (intakeMachine P cfg).Reachable s) (hw : s.server.made < 2 ^ 64) :
    Records P s := by
  obtain ⟨es, hrun⟩ := h
  refine ((intakeMachine P cfg).run_induction (P := fun es s => s.server.made < 2 ^ 64 →
    Records P s) ?_ ?_ hrun hw)
  · intro _
    exact ⟨rfl, fun id q hq => by cases hq⟩
  · intro es s₁ e s₂ hrun₁ ih hs hw₂
    have hw₁ := Nat.lt_of_le_of_lt (Intake.made_le hs) hw₂
    exact (ih hw₁).step (sound_of_intake ⟨es, hrun₁⟩ hw₁) hs hw₂

end

/-! ### Answers and requests -/

/-- The player of an answer to the session `fd` with the `transID` `u`. -/
def LoginAct.answered (fd u : UInt32) : LoginAct → Option ℕ
  | .sent c fd' msgId msg =>
      if fd' == fd && msgId == LS_GG_Login_ACK && readWord msg 4 8 == some u.toNat then c else none
  | _ => none

/-- The player that was made for a request of the session `fd` with the `transID` `u`. -/
def LoginAct.madeFor (fd u : UInt32) : LoginAct → Option ℕ
  | .accepted p fd' t => if fd' == fd && t.toUInt32 == u then some p else none
  | _ => none

/-- The players that were made for requests, by what they know of them. -/
theorem mem_madeFor {s : LoginServer} (ho : Origins s) {fd u : UInt32} {p : ℕ} :
    p ∈ s.history.filterMap (LoginAct.madeFor fd u) ↔ p < s.made ∧
      (s.players p).gate_session_fd_ = fd ∧ (s.players p).trans_id_.toUInt32 = u := by
  constructor
  · intro hp
    obtain ⟨a, ha, hap⟩ := List.mem_filterMap.mp hp
    cases a with
    | accepted q fd' t =>
        simp only [LoginAct.madeFor, Option.ite_none_right_eq_some, Bool.and_eq_true, beq_iff_eq,
          Option.some.injEq] at hap
        obtain ⟨⟨rfl, rfl⟩, rfl⟩ := hap
        obtain ⟨hfd, ht⟩ := ho.accepted q fd' t ha
        exact ⟨ho.lt_made ha, hfd, by rw [ht, UInt32.toUInt32_toUInt64]⟩
    | _ => cases hap
  · rintro ⟨hlt, rfl, rfl⟩
    have hreq : p ∈ requests s.history := by rw [ho.requests]; exact List.mem_range.mpr hlt
    obtain ⟨b, hb, hbp⟩ := List.mem_filterMap.mp hreq
    cases b with
    | accepted q fd t =>
        obtain rfl := Option.some.inj hbp
        obtain ⟨hfd, ht⟩ := ho.accepted q fd t hb
        refine List.mem_filterMap.mpr ⟨_, hb, ?_⟩
        rw [hfd, ht, UInt32.toUInt32_toUInt64]
        simp [LoginAct.madeFor]
    | _ => cases hbp

theorem length_madeFor (h : List LoginAct) (fd u : UInt32) :
    (h.filterMap (LoginAct.madeFor fd u)).length =
      (acceptances h).countP fun a => a.1 == fd && a.2.toUInt32 == u := by
  rw [List.length_filterMap_eq_countP, acceptances, List.countP_filterMap]
  refine List.countP_congr fun a _ => ?_
  cases a with
  | accepted p fd' t =>
      simp only [LoginAct.madeFor]
      split_ifs with hc <;> simpa using hc
  | _ => rfl

/-- Nobody is answered twice. -/
theorem nodup_answered {s : LoginServer} (honce : ∀ p, acks p s.history ≤ 1) (fd u : UInt32) :
    (s.history.filterMap (LoginAct.answered fd u)).Nodup := by
  refine List.nodup_iff_count_le_one.mpr fun p => ?_
  rw [List.count, List.countP_filterMap]
  refine (List.countP_mono_left fun a _ ha => ?_).trans (honce p)
  cases a with
  | sent c fd' msgId msg =>
      simp only [LoginAct.answered] at ha
      split_ifs at ha with hc
      · simp only [Bool.and_eq_true, beq_iff_eq] at hc
        cases c with
        | none => cases ha
        | some q => simpa [isAck, hc.1.2] using ha
      · cases ha
  | _ => cases ha

/-- Who is answered was made for a request. -/
theorem answered_subset {s : LoginServer} (ho : Origins s) (fd u : UInt32) :
    s.history.filterMap (LoginAct.answered fd u) ⊆ s.history.filterMap (LoginAct.madeFor fd u) := by
  intro p hp
  obtain ⟨a, ha, hap⟩ := List.mem_filterMap.mp hp
  cases a with
  | sent c fd' msgId msg =>
      simp only [LoginAct.answered, Option.ite_none_right_eq_some, Bool.and_eq_true,
        beq_iff_eq] at hap
      obtain ⟨⟨⟨rfl, -⟩, hu⟩, rfl⟩ := hap
      obtain ⟨q, hq, hlt, hfd, hread⟩ := ho.sent _ _ _ _ ha
      obtain rfl := Option.some.inj hq
      rw [hread, Option.some.injEq] at hu
      exact (mem_madeFor ho).mpr ⟨hlt, hfd, UInt32.toNat_inj.mp hu⟩
  | _ => cases hap

/-- **No more answers than requests**, for any session and any `transID`: the players that are
answered are different ones, and each was made for a request. -/
theorem answers_le_acceptances {P : LoginProto} {cfg : Config} {es : List LoginEvent}
    {s : LoginServer} (h : (loginMachine P cfg).run es = some s) (hw : s.made < 2 ^ 64)
    (fd u : UInt32) :
    (s.history.filterMap (LoginAct.answered fd u)).length ≤
      (acceptances s.history).countP fun a => a.1 == fd && a.2.toUInt32 == u := by
  have hnodup := nodup_answered (sound_of_run h hw).budget.once fd u
  rw [← length_madeFor]
  exact (List.subperm_of_subset hnodup (answered_subset (origins_of_run h) fd u)).length_le

/-! ### The history of the intake -/

section

variable {P : LoginProto} {cfg : Config}

theorem history_step {s s' : LoginServer} {e : LoginEvent}
    (hs : LoginServer.step P cfg s e = some s') : ∃ l, s'.history = s.history ++ l := by
  obtain hc | ⟨s₁, p, hc, -, ha⟩ | ⟨s₁, fd, transID, hc, -, ha⟩ := step_cases hs
  · obtain ⟨l, hl, -⟩ := hc.entries
    exact ⟨l, hl⟩
  · obtain ⟨l₁, hl₁, -⟩ := hc.entries
    obtain ⟨l, hl, -⟩ := ha.entries
    exact ⟨l₁ ++ l, by rw [hl, hl₁, List.append_assoc]⟩
  · obtain ⟨l₁, hl₁, -⟩ := hc.entries
    obtain ⟨l, hl, -⟩ := ha.entries
    have hacc : (s₁.accept fd transID).history =
        s₁.history ++ [.accepted s₁.made fd s₁.handling] := rfl
    exact ⟨l₁ ++ ([.accepted s₁.made fd s₁.handling] ++ l), by
      rw [hl, hacc, hl₁, List.append_assoc, List.append_assoc]⟩

theorem Intake.history_step {s s' : Intake} {e : IntakeEvent} (hs : s.step P cfg e = some s') :
    ∃ l, s'.server.history = s.server.history ++ l := by
  obtain hw | ⟨e', hw⟩ := Intake.whole_step hs
  · have hsame : s'.server.history = s.server.history :=
      (congrArg LoginServer.history hw : s'.whole.history = s.whole.history)
    exact ⟨[], by rw [hsame, List.append_nil]⟩
  · exact (Login.history_step hw : ∃ l, s'.whole.history = s.whole.history ++ l)

theorem spoken_of_intake {s : Intake} (h : (intakeMachine P cfg).Reachable s)
    (hw : s.server.made < 2 ^ 64) : ∀ a ∈ s.server.history, Spoken P s.server a := by
  obtain ⟨es, hrun⟩ := intake_reachable h
  intro a ha
  have hsp := spoken_of_run hrun hw a ha
  cases a <;> exact hsp

theorem length_szPTID_le {s : Intake} (h : (intakeMachine P cfg).Reachable s) (p : ℕ) :
    (s.server.players p).szPTID_.length ≤ 63 := by
  obtain ⟨es, hrun⟩ := intake_reachable h
  rcases (dataInv_of_run hrun).ptid p with e | e
  · have hnil : (s.server.players p).szPTID_ = [] := e
    simp [hnil]
  · have hptid : (s.server.players p).szPTID_ = (s.server.players p).szPTID := e
    rw [hptid, Player.szPTID, List.length_take]
    exact Nat.min_le_left _ _

end

end BlackSwan.Login
