import BlackSwan.LoginDirectory
import BlackSwan.LoginRecords

/-! # What the login server announces

The packets for players that the login server hands to its gates, for every run and in their order:
whoever is replaced in the directory is kicked off, whoever logs in is told its account, and a
request that fails is refused (`speech`).  A logoff is not announced to anybody. -/

namespace BlackSwan.Login

open Wire Runs Tables
open Directory (Event)

/-- The packets for players. -/
def spoken (h : List LoginAct) : List LoginAct := h.filter fun
  | .sent .. => true
  | _ => false

theorem spoken_append (h h' : List LoginAct) : spoken (h ++ h') = spoken h ++ spoken h' :=
  List.filter_append _ _

namespace LoginServer

variable (P : LoginProto)

/-- What is said about an event of the directory, the kick-off first. -/
def announced (s : LoginServer) : Event Bytes ℕ → List LoginAct
  | .login ptid p =>
      ((s.holder ptid).elim [] fun q => s.packet q LS_GG_Kickoff_NTF (P.serializeKickoff ptid)) ++
        s.packet p LS_GG_Login_ACK (P.serializeLoginAck { result := PROTO_SUCCESS, ptid := ptid })
  | .logoff _ => []

/-- What is said to a player whose login fails. -/
def refused (s : LoginServer) (p : ℕ) (errorCode : UInt32) : List LoginAct :=
  s.packet p LS_GG_Login_ACK (P.serializeLoginAck { result := PROTO_FAILURE, error := errorCode })

end LoginServer

/-- What is said when a message of a gate is handled. -/
def MessageParam.speech (P : LoginProto) (cfg : Config) (s : LoginServer) (m : MessageParam) :
    List LoginAct :=
  match m.request P with
  | none => []
  | some req =>
      if req.clientversion < cfg.clientVersion_.toUInt32 then
        (s.accept m.gate_session_fd m.transID.toUInt32).refused P s.made LSERR_Old_Client
      else (m.directoryEvents P cfg s).flatMap
        ((s.accept m.gate_session_fd m.transID.toUInt32).announced P)

/-- Whose login a result of the AP ends with an error. -/
def APMsg.fails (s : LoginServer) (m : APMsg) : Option ℕ :=
  match m.authInfo with
  | none => none
  | some auth =>
      if m.operation = .authen_ap ∧ m.result ≠ .success then
        (s.playerOf auth).filter fun p => (s.players p).fsm_.current_state_ = .login
      else none

/-- What is said when a result of the AP is handled. -/
def APMsg.speech (P : LoginProto) (s : LoginServer) (m : APMsg) : List LoginAct :=
  (m.directoryEvents s).flatMap (s.announced P) ++
    (m.fails s).elim [] fun p => s.refused P p m.nErrorCode.toUInt32

/-- What is said in a step. -/
def speech (P : LoginProto) (cfg : Config) (s : LoginServer) : LoginEvent → List LoginAct
  | .processMsg _ => (s.message_list_.head?.map fun m => m.speech P cfg s).getD []
  | .processApMsg _ => (s.apg_list_.head?.map fun m => m.speech P s).getD []
  | _ => []

variable {s s' : LoginServer} {p : ℕ}

@[simp] theorem spoken_packet (s : LoginServer) (p : ℕ) (msgId : UInt32) (body : Bytes) :
    spoken (s.packet p msgId body) = s.packet p msgId body := by
  unfold LoginServer.packet
  split <;> rfl

@[simp] theorem spoken_announced (P : LoginProto) (s : LoginServer) (e : Event Bytes ℕ) :
    spoken (s.announced P e) = s.announced P e := by
  cases e with
  | logoff ptid => rfl
  | login ptid p =>
      rw [LoginServer.announced, spoken_append, spoken_packet]
      cases s.holder ptid with
      | none => rfl
      | some q => rw [Option.elim_some, spoken_packet]

theorem history_destroy (p : ℕ) (s : LoginServer) : (s.notifyOwnerDestroy p).history = s.history := by
  unfold LoginServer.notifyOwnerDestroy
  split_ifs <;> rfl

theorem history_fail (P : LoginProto) (p : ℕ) (errorCode : UInt32) (s : LoginServer) :
    (s.sendGateLoginFail P p errorCode).history = s.history ++ s.refused P p errorCode := by
  rw [LoginServer.sendGateLoginFail, LoginServer.changeState_logout, history_destroy,
    LoginServer.send_eq]
  rfl

/-- Those who were made before find the same session when another player is made. -/
theorem packet_accept (fd transID : UInt32) {q : ℕ} (hq : q < s.made) (msgId : UInt32)
    (body : Bytes) : (s.accept fd transID).packet q msgId body = s.packet q msgId body := by
  have hsame : (s.accept fd transID).players q = s.players q := by
    have hne := Nat.ne_of_lt hq
    rw [LoginServer.accept, LoginServer.updatePlayer_of_ne hne]
    simp [LoginServer.log, LoginServer.fetchPlayer, hne]
  exact packet_congr (s := s) (t := s.accept fd transID) rfl (by rw [hsame]) (by rw [hsame]) msgId body

namespace Indices

variable (P : LoginProto)

theorem history_kickOff (h : Indices s) (ptid : Bytes) :
    (s.kickOffPlayer P ptid).history = s.history ++
      (s.holder ptid).elim [] fun q => s.packet q LS_GG_Kickoff_NTF (P.serializeKickoff ptid) := by
  obtain ⟨hnone, e⟩ | ⟨id, q, -, -, hq, -, -, e⟩ := h.kickOff_cases P ptid
  · have hholder : s.holder ptid = none := by simp [LoginServer.holder, hnone]
    rw [e, hholder, Option.elim_none, List.append_nil]
  · rw [e, history_destroy, LoginServer.send_eq, hq, Option.elim_some]

end Indices

namespace Sound

variable (P : LoginProto) (cfg : Config)

theorem history_login (h : Sound s) (hw : s.Waiting p) (ptid : Bytes) :
    (((s.kickOffPlayer P ptid).setPTID p ptid).sendGateLoginSucc P p).history =
      s.history ++ s.announced P (.login ptid p) := by
  have hw₁ := (h.kickOff P ptid).2.2 p hw
  have hacts : Acts p (Acts.OnFile s) s (s.kickOffPlayer P ptid) :=
    Acts.kickOffPlayer P fun _ => Acts.onFile_of_holder
  obtain ⟨-, hfd, htrans⟩ := hacts.origin p
  rw [LoginServer.setPTID_sendGateLoginSucc P hw₁.2]
  show (s.kickOffPlayer P ptid).history ++ _ = _
  rw [packet_congr hacts.session_map_ hfd htrans, h.idx.history_kickOff P ptid, List.append_assoc]
  rfl

theorem spoken_handleAPLoginReq (h : Sound s) (hw : s.Waiting p) (clock : Clock) :
    spoken (s.handleAPLoginReq P cfg p clock).history = spoken s.history ++
      if cfg.isLocalTest_ then s.announced P (.login (s.players p).szPTID p) else [] := by
  obtain ⟨-, hnil⟩ := h.idx.waiting_of_not_online hw.1 (Indices.not_online_of_waiting hw)
  have hlocal : spoken (s.localTestLogin P cfg p).history = spoken s.history ++
      if cfg.isLocalTest_ then s.announced P (.login (s.players p).szPTID p) else [] := by
    unfold LoginServer.localTestLogin
    simp only [hnil, List.not_mem_nil, if_false]
    split_ifs
    · rw [h.history_login P hw, spoken_append, spoken_announced]
    · exact (List.append_nil _).symm
  rw [← hlocal]
  unfold LoginServer.handleAPLoginReq
  dsimp only
  split_ifs
  · rfl
  · show spoken (_ ++ [LoginAct.built p _]) = _
    rw [spoken_append]
    exact List.append_nil _

/-- A request is refused, or the login that it comes to is announced. -/
theorem spoken_recvGgLoginReq (h : Sound s) (hmade : s.made + 1 < 2 ^ 64) (req : LoginReq)
    (fd transID : UInt32) (clock : Clock) :
    spoken (s.recvGgLoginReq P cfg (some req) fd transID clock).history = spoken s.history ++
      if req.clientversion < cfg.clientVersion_.toUInt32 then
        (s.accept fd transID).refused P s.made LSERR_Old_Client
      else if cfg.isLocalTest_ then (s.accept fd transID).announced P (.login req.ptid s.made)
      else [] := by
  obtain ⟨hacc, hw⟩ := h.accept hmade fd transID
  have haccept : spoken (s.accept fd transID).history = spoken s.history := by
    show spoken (s.history ++ [.accepted s.made fd s.handling]) = _
    rw [spoken_append]
    exact List.append_nil _
  by_cases hver : req.clientversion < cfg.clientVersion_.toUInt32
  · rw [LoginServer.recvGgLoginReq_some, if_pos hver, if_pos hver, history_fail, spoken_append,
      haccept, LoginServer.refused, spoken_packet]
  · have hrec : Sound (s.received req fd transID) :=
      hacc.update s.made (fun _ => rfl) (fun _ => rfl) fun _ => rfl
    have hw₁ : (s.received req fd transID).Waiting s.made :=
      LoginServer.waiting_update (f := Player.initLoginData _ _) (fun _ => rfl) (fun _ => rfl) hw
    -- the login data leave the session and the `transID` of the player as they are
    have hpacket (q : ℕ) (msgId : UInt32) (body : Bytes) :
        (s.received req fd transID).packet q msgId body =
          (s.accept fd transID).packet q msgId body := by
      by_cases hq : q = s.made
      · subst hq
        have hself : (s.received req fd transID).players s.made =
            Player.initLoginData req transID.toUInt64 ((s.accept fd transID).players s.made) :=
          LoginServer.updatePlayer_self _ _ _
        refine packet_congr (s := s.accept fd transID) (t := s.received req fd transID) rfl
          (by rw [hself]; rfl) ?_ msgId body
        rw [hself, LoginServer.accept, LoginServer.updatePlayer_self]
        rfl
      · have hsame : (s.received req fd transID).players q = (s.accept fd transID).players q :=
          LoginServer.updatePlayer_of_ne hq _ _
        exact packet_congr (s := s.accept fd transID) (t := s.received req fd transID) rfl
          (by rw [hsame]) (by rw [hsame]) msgId body
    have hann : (s.received req fd transID).announced P (.login req.ptid s.made) =
        (s.accept fd transID).announced P (.login req.ptid s.made) := by
      simp only [LoginServer.announced, hpacket]
      rfl
    have hhist : (s.received req fd transID).history = (s.accept fd transID).history := rfl
    rw [recvGgLoginReq_eq P hver, hrec.spoken_handleAPLoginReq P cfg hw₁, hhist, haccept,
      if_neg hver, (hasData_received req fd transID s).szPTID, hann]

theorem history_onLogoffNtf (h : Sound s) (ptid : Bytes) (clock : Clock) :
    (s.onLogoffNtf P cfg (some ptid) clock).history = s.history := by
  rw [h.onLogoffNtf_eq P cfg]
  cases s.holder ptid with
  | none => rfl
  | some q => exact history_destroy q s

theorem spoken_processMsg (h : Sound s) (m : MessageParam) (clock : Clock)
    (hmade : (s.processMsg P cfg m clock).made < 2 ^ 64) :
    spoken (s.processMsg P cfg m clock).history = spoken s.history ++ m.speech P cfg s := by
  have h₁ : Sound { s with handling := m.transID } := h.of_eq rfl rfl rfl rfl rfl rfl fun _ => rfl
  unfold MessageParam.speech
  cases hreq : m.request P with
  | some req =>
      have hid := msg_id_of_request hreq
      have hparse : P.parseLoginReq m.data = some req := by
        rwa [MessageParam.request, if_pos hid] at hreq
      rw [processMsg_some hreq] at hmade ⊢
      rw [(Acts.recvGgLoginReq P cfg req _ _ clock _).made] at hmade
      rw [h₁.spoken_recvGgLoginReq P cfg hmade]
      dsimp only
      by_cases hver : req.clientversion < cfg.clientVersion_.toUInt32
      · rw [if_pos hver, if_pos hver]
        rfl
      · rw [if_neg hver, if_neg hver, MessageParam.directoryEvents, if_pos hid, hparse]
        dsimp only
        rw [if_neg hver]
        split_ifs
        · rw [List.flatMap_singleton]
          rfl
        · rfl
  | none =>
      rw [List.append_nil]
      unfold LoginServer.processMsg
      dsimp only
      by_cases hid : m.msg_id = GG_LS_Login_REQ
      · rw [MessageParam.request, if_pos hid] at hreq
        rw [if_pos hid, hreq]
        rfl
      · rw [if_neg hid]
        split_ifs
        · cases hptid : P.parseLogoff m.data with
          | none => rfl
          | some ptid => rw [h₁.history_onLogoffNtf P cfg]
        · rfl

theorem spoken_onAPAuthenResult (h : Sound s) (auth : AuthInfo) (result : Result)
    (errorCode : Int32) (clock : Clock) :
    spoken (s.onAPAuthenResult P cfg auth result errorCode clock).history = spoken s.history ++
      match s.playerOf auth with
      | none => []
      | some p =>
          if (s.players p).fsm_.current_state_ = .login then
            if result = .success then
              if (s.players p).isFor auth = true then
                s.announced P (.login (s.players p).szPTID p)
              else []
            else s.refused P p errorCode.toUInt32
          else [] := by
  cases hof : s.playerOf auth with
  | none =>
      rw [onAPAuthenResult_idle P cfg (by simp [hof])]
      exact (List.append_nil _).symm
  | some p =>
      dsimp only
      by_cases hl : (s.players p).fsm_.current_state_ = .login
      · have hw : s.Waiting p := by
          refine (h.idx.waiting_of_not_online hof fun hon => ?_).1
          simp [Player.isOnline, Player.getCurStateType, hl, getFsmStateType] at hon
        rw [if_pos hl]
        by_cases hres : result = .success
        · subst hres
          rw [onAPAuthenResult_success P cfg hof hl, if_pos rfl]
          split_ifs
          · rw [LoginServer.handleAPSuccCallback, h.history_login P hw, spoken_append, spoken_announced]
          · exact (List.append_nil _).symm
        · rw [onAPAuthenResult_error P cfg hof hl hres, history_fail, spoken_append, if_neg hres,
            LoginServer.refused, spoken_packet]
      · rw [if_neg hl, List.append_nil, onAPAuthenResult_idle P cfg]
        intro q hq
        rwa [Option.some.inj (hq.symm.trans hof)]

theorem spoken_processApMsg (h : Sound s) (m : APMsg) (clock : Clock) :
    spoken (s.processApMsg P cfg m clock).history = spoken s.history ++ m.speech P s := by
  unfold APMsg.speech APMsg.directoryEvents APMsg.fails
  cases hauth : m.authInfo with
  | none =>
      rw [LoginServer.processApMsg, hauth]
      exact (List.append_nil _).symm
  | some auth =>
      dsimp only
      by_cases hop : m.operation = .authen_ap
      · have h₁ : Sound { s with apg_list_ := s.apg_list_ ++ m.requeued auth clock } :=
          h.of_eq rfl rfl rfl rfl rfl rfl fun _ => rfl
        rw [processApMsg_authen P cfg hauth hop, h₁.spoken_onAPAuthenResult P cfg]
        show _ ++ (match s.playerOf auth with
          | none => []
          | some p => _) = _
        simp only [hop, true_and]
        cases s.playerOf auth with
        | none => split_ifs <;> rfl
        | some p =>
            dsimp only
            rw [Option.filter_some]
            by_cases hl : (s.players p).fsm_.current_state_ = .login
            · rw [if_pos hl, decide_eq_true hl, if_pos rfl]
              by_cases hres : m.result = .success
              · simp only [hres, hl, true_and, if_true, ne_eq, not_true, if_false]
                split_ifs
                · rw [List.flatMap_singleton, Option.elim_none, List.append_nil]
                  rfl
                · rfl
              · simp only [hres, if_false, ne_eq, not_false_iff, if_true]
                rfl
            · simp only [hl, false_and, if_false, decide_false, Bool.false_eq_true]
              split_ifs <;> rfl
      · rw [if_neg fun hall => hop hall.1, if_neg fun hall => hop hall.1, LoginServer.processApMsg,
          hauth]
        dsimp only
        split
        · exact absurd ‹_› hop
        · split_ifs <;> exact (List.append_nil _).symm

theorem spoken_step {e : LoginEvent} (h : Sound s) (hs : LoginServer.step P cfg s e = some s')
    (hmade : s'.made < 2 ^ 64) : spoken s'.history = spoken s.history ++ speech P cfg s e := by
  have hcalm (hc : Calm s s') : spoken s'.history = spoken s.history ++ [] := by
    obtain ⟨l, hl, hpong⟩ := hc.entries
    rw [hl, spoken_append]
    congr 1
    refine List.filter_eq_nil_iff.mpr fun a ha => ?_
    obtain ⟨fd, msg, rfl⟩ := hpong a ha
    simp
  cases e with
  | processMsg clock =>
      unfold LoginServer.step at hs
      rw [if_neg (by simp [h.idx.alive])] at hs
      cases hlist : s.message_list_ with
      | nil => simp [hlist] at hs
      | cons m rest =>
          simp only [hlist, Option.some.injEq] at hs
          subst hs
          have h₁ : Sound { s with message_list_ := rest } :=
            h.of_eq rfl rfl rfl rfl rfl rfl fun _ => rfl
          rw [h₁.spoken_processMsg P cfg m clock hmade, speech, hlist]
          rfl
  | processApMsg clock =>
      obtain ⟨m, rest, hlist, rfl⟩ := step_processApMsg hs
      have h₁ : Sound { s with apg_list_ := rest } := h.of_eq rfl rfl rfl rfl rfl rfl fun _ => rfl
      rw [h₁.spoken_processApMsg P cfg m clock, speech, hlist]
      rfl
  | addSession fd => exact hcalm (step_calm hs (by simp))
  | delSession fd => exact hcalm (step_calm hs (by simp))
  | ping fd => exact hcalm (step_calm hs (by simp))
  | recvData fd data => exact hcalm (step_calm hs (by simp))
  | operateResult _ _ _ _ _ => exact hcalm (step_calm hs (by simp))

end Sound

/-! ### Runs -/

/-- **Everything that is said for players**, in its order: what the messages of the gates and the
results of the AP come to, one by one. -/
theorem announced_in_order (P : LoginProto) (cfg : Config) (es : List LoginEvent) (s : LoginServer)
    (h : (loginMachine P cfg).run es = some s) (hw : (requests s.history).length < 2 ^ 64) :
    spoken s.history = (loginMachine P cfg).trace (speech P cfg) es := by
  rw [length_requests h] at hw
  refine (loginMachine P cfg).run_induction (P := fun es s => s.made < 2 ^ 64 →
    spoken s.history = (loginMachine P cfg).trace (speech P cfg) es) (fun _ => rfl) ?_ h hw
  intro es s e s' hrun ih hs hmade
  have hle : s.made < 2 ^ 64 := Nat.lt_of_le_of_lt (made_le_step hs) hmade
  rw [(loginMachine P cfg).trace_snoc _ hrun (by rw [hs]; rfl), ← ih hle]
  exact (sound_of_run hrun hle).spoken_step P cfg hs hmade

theorem announced_in_order_twice : ∃ s, (loginMachine plainProto localTest).run
    (.addSession 1 :: (request (bodyOf 65) ++ request (bodyOf 65))) = some s ∧
    (spoken s.history).length = 3 ∧ spoken s.history =
      (loginMachine plainProto localTest).trace (speech plainProto localTest)
        (.addSession 1 :: (request (bodyOf 65) ++ request (bodyOf 65))) := by
  obtain ⟨s, h⟩ : ∃ s, (loginMachine plainProto localTest).run
      (.addSession 1 :: (request (bodyOf 65) ++ request (bodyOf 65))) = some s :=
    Option.isSome_iff_exists.mp (by decide +kernel)
  have hobs : ((loginMachine plainProto localTest).run
      (.addSession 1 :: (request (bodyOf 65) ++ request (bodyOf 65)))).map (fun s =>
        ((requests s.history).length, (spoken s.history).length)) = some (2, 3) := by decide +kernel
  rw [h] at hobs
  simp only [Option.map_some, Option.some.injEq, Prod.mk.injEq] at hobs
  exact ⟨s, h, hobs.2, announced_in_order plainProto localTest _ s h (by rw [hobs.1]; decide)⟩

end BlackSwan.Login
