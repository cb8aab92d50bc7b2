import BlackSwan.Directory
import BlackSwan.LoginAuth
import BlackSwan.Simulation

/-! # The login server as a directory

What the login server is for: it keeps a directory of the accounts that are logged in.  The two maps
of `PlayerMgr` together are that directory (`holder`), and every step of the server is a login, a
logoff or nothing for it; `directoryEvents` reads off the message which.

`directory_refined` says so for runs, as long as no player id is given out twice, and that the last
login under an account holds it. -/

namespace BlackSwan.Login

open Wire Runs Tables
open Directory (Event LastLogin)

/-- Who is registered under which account. -/
def LoginServer.directory (s : LoginServer) : Bytes → Option ℕ := fun ptid => s.holder ptid

variable {s s' : LoginServer} {p : ℕ}

namespace Indices

/-- Nobody is registered for the empty account. -/
theorem holder_nil (h : Indices s) : s.holder [] = none := by
  cases hid : s.pTIDMap_ [] with
  | none => simp [LoginServer.holder, hid]
  | some id => exact absurd rfl (h.registered [] id hid).1

/-- The holder of an account is a player of that account. -/
theorem szPTID_of_holder (h : Indices s) {ptid : Bytes} (hq : s.holder ptid = some p) :
    (s.players p).szPTID_ = ptid := by
  obtain ⟨id, hid, hfile⟩ := Option.bind_eq_some_iff.mp hq
  obtain ⟨-, q, hfile', hptid, -⟩ := h.registered ptid id hid
  obtain rfl := Option.some.inj (hfile.symm.trans hfile')
  exact hptid

/-- A release takes the account of the player out of the directory. -/
theorem directory_destroy (h : Indices s) {id : PlayerID} (hp : s.playerMap_ id = some p) :
    (s.notifyOwnerDestroy p).directory =
      Function.update s.directory (s.players p).szPTID_ none := by
  obtain ⟨-, rfl, hown, -⟩ := h.filed id p hp
  have heq (ptid : Bytes) : (s.notifyOwnerDestroy p).holder ptid =
      (s.pTIDMap_.erase (s.players p).szPTID_ ptid).bind
        (s.playerMap_.erase (s.players p).id_) := by
    rw [LoginServer.notifyOwnerDestroy, if_pos hown]
    rfl
  funext ptid
  rw [LoginServer.directory, heq]
  by_cases hptid : ptid = (s.players p).szPTID_
  · rw [hptid, Table.erase_self, Function.update_self]
    rfl
  · rw [Function.update_of_ne hptid, Table.erase_of_ne hptid, LoginServer.directory,
      LoginServer.holder]
    cases hid : s.pTIDMap_ ptid with
    | none => rfl
    | some id =>
        obtain ⟨-, q, hfile, hq, -⟩ := h.registered ptid id hid
        refine Table.erase_of_ne ?_
        rintro rfl
        obtain rfl := Option.some.inj (hfile.symm.trans hp)
        exact hptid hq.symm

/-- The release of a player whose login is open changes nothing. -/
theorem directory_destroy_waiting (h : Indices s) (hw : s.Waiting p) :
    (s.notifyOwnerDestroy p).directory = s.directory := by
  obtain ⟨-, hnil⟩ := h.waiting_of_not_online hw.1 (not_online_of_waiting hw)
  rw [h.directory_destroy hw.1, hnil, ← h.holder_nil]
  exact Function.update_eq_self _ s.directory

variable (P : LoginProto)

theorem directory_kickOff (h : Indices s) (ptid : Bytes) :
    (s.kickOffPlayer P ptid).directory =
      Function.update s.directory ptid none := by
  obtain ⟨hnone, e⟩ | ⟨id, q, -, hfile, -, hptid, -, e⟩ := h.kickOff_cases P ptid
  · have hholder : s.holder ptid = none := by simp [LoginServer.holder, hnone]
    rw [e, ← hholder]
    exact (Function.update_eq_self _ s.directory).symm
  · have hsend := h.send q LS_GG_Kickoff_NTF (P.serializeKickoff ptid)
    rw [LoginServer.send_eq] at hsend e
    rw [e]
    refine (hsend.directory_destroy hfile).trans ?_
    show Function.update s.directory (s.players q).szPTID_ none = _
    rw [hptid]

end Indices

namespace Sound

variable (P : LoginProto) (cfg : Config)

/-- **A successful login** puts the player into the directory. -/
theorem directory_login (h : Sound s) (hw : s.Waiting p) (ptid : Bytes) :
    (((s.kickOffPlayer P ptid).setPTID p ptid).sendGateLoginSucc P p).directory =
      Function.update s.directory ptid (some p) := by
  obtain ⟨-, hfree, hkeep⟩ := h.kickOff P ptid
  have hw₁ := hkeep p hw
  have hkick := h.idx.directory_kickOff P ptid
  rw [LoginServer.setPTID_sendGateLoginSucc P hw₁.2, Table.emplace_of_none hfree]
  funext a
  by_cases ha : a = ptid
  · subst ha
    rw [Function.update_self]
    show (Table.set _ a _ a).bind _ = some p
    rw [Table.set_self]
    exact hw₁.1
  · rw [Function.update_of_ne ha]
    show (Table.set _ ptid _ a).bind _ = _
    rw [Table.set_of_ne ha]
    have h₁ := congrFun hkick a
    rw [Function.update_of_ne ha] at h₁
    exact h₁

theorem directory_fail (h : Sound s) (hw : s.Waiting p) (errorCode : UInt32) :
    (s.sendGateLoginFail P p errorCode).directory = s.directory := by
  have hsend := h.idx.send p LS_GG_Login_ACK
    (P.serializeLoginAck { result := PROTO_FAILURE, error := errorCode })
  have hw₁ : (s.send p LS_GG_Login_ACK
      (P.serializeLoginAck { result := PROTO_FAILURE, error := errorCode })).Waiting p := by
    rw [LoginServer.send_eq]
    exact hw
  rw [LoginServer.sendGateLoginFail, LoginServer.changeState_logout]
  refine (hsend.directory_destroy_waiting hw₁).trans ?_
  rw [LoginServer.send_eq]
  rfl

/-- A new player is nobody in the directory. -/
theorem directory_accept (h : Sound s) (fd transID : UInt32) :
    (s.accept fd transID).directory = s.directory := by
  funext a
  show (s.pTIDMap_ a).bind (s.playerMap_.emplace (s.player_idx_ + 1) s.made) = s.holder a
  rw [LoginServer.holder]
  cases hid : s.pTIDMap_ a with
  | none => rfl
  | some id =>
      obtain ⟨-, q, hfile, -⟩ := h.idx.registered a id hid
      show s.playerMap_.emplace _ _ id = s.playerMap_ id
      unfold Table.emplace
      split_ifs with hfree
      · rfl
      · refine Table.set_of_ne ?_
        rintro rfl
        rw [hfile] at hfree
        exact hfree rfl

theorem directory_handleAPLoginReq (h : Sound s) (hw : s.Waiting p) (clock : Clock) :
    (s.handleAPLoginReq P cfg p clock).directory =
      if cfg.isLocalTest_ then Function.update s.directory (s.players p).szPTID (some p)
      else s.directory := by
  obtain ⟨-, hnil⟩ := h.idx.waiting_of_not_online hw.1 (Indices.not_online_of_waiting hw)
  have hlocal : (s.localTestLogin P cfg p).directory =
      if cfg.isLocalTest_ then Function.update s.directory (s.players p).szPTID (some p)
      else s.directory := by
    unfold LoginServer.localTestLogin
    simp only [hnil, List.not_mem_nil, if_false]
    split_ifs
    · exact h.directory_login P hw _
    · rfl
  rw [← hlocal]
  unfold LoginServer.handleAPLoginReq
  dsimp only
  split_ifs <;> rfl

end Sound

/-! ### What a step is for the directory -/

/-- What a message of a gate is for the directory. -/
def MessageParam.directoryEvents (P : LoginProto) (cfg : Config) (s : LoginServer)
    (m : MessageParam) : List (Event Bytes ℕ) :=
  if m.msg_id = GG_LS_Login_REQ then
    match P.parseLoginReq m.data with
    | none => []
    | some req =>
        if req.clientversion < cfg.clientVersion_.toUInt32 then []
        else if cfg.isLocalTest_ then [.login req.ptid s.made] else []
  else if m.msg_id = GG_LS_Logoff_NTF then
    match P.parseLogoff m.data with
    | none => []
    | some ptid => [.logoff ptid]
  else []

/-- What a result of the AP is for the directory. -/
def APMsg.directoryEvents (s : LoginServer) (m : APMsg) : List (Event Bytes ℕ) :=
  match m.authInfo with
  | none => []
  | some auth =>
      if m.operation = .authen_ap ∧ m.result = .success then
        match s.playerOf auth with
        | none => []
        | some p =>
            if (s.players p).fsm_.current_state_ = .login ∧ (s.players p).isFor auth = true then
              [.login (s.players p).szPTID p]
            else []
      else []

/-- What a step is for the directory. -/
def directoryEvents (P : LoginProto) (cfg : Config) (s : LoginServer) :
    LoginEvent → List (Event Bytes ℕ)
  | .processMsg _ => (s.message_list_.head?.map fun m => m.directoryEvents P cfg s).getD []
  | .processApMsg _ => (s.apg_list_.head?.map fun m => m.directoryEvents s).getD []
  | _ => []

/-- The directory after some events. -/
def after (d : Bytes → Option ℕ) (events : List (Event Bytes ℕ)) : Bytes → Option ℕ :=
  events.foldl (fun d e => Function.update d e.account e.holder) d

theorem exec_directory (events : List (Event Bytes ℕ)) (d : Bytes → Option ℕ) :
    (Directory.machine Bytes ℕ).exec events d = some (after d events) := by
  induction events generalizing d with
  | nil => rfl
  | cons e events ih => exact ih _

namespace Sound

variable (P : LoginProto) (cfg : Config)

theorem directory_recvGgLoginReq (h : Sound s) (hmade : s.made + 1 < 2 ^ 64) (req : LoginReq)
    (fd transID : UInt32) (clock : Clock) :
    (s.recvGgLoginReq P cfg (some req) fd transID clock).directory =
      if req.clientversion < cfg.clientVersion_.toUInt32 then s.directory
      else if cfg.isLocalTest_ then Function.update s.directory req.ptid (some s.made)
      else s.directory := by
  obtain ⟨hacc, hw⟩ := h.accept hmade fd transID
  have haccept := h.directory_accept fd transID
  split_ifs with hver hlocal
  · rw [LoginServer.recvGgLoginReq_some, if_pos hver]
    exact (hacc.directory_fail P hw _).trans haccept
  all_goals
    have hrec : Sound (s.received req fd transID) :=
      hacc.update s.made (fun _ => rfl) (fun _ => rfl) fun _ => rfl
    have hw₁ : (s.received req fd transID).Waiting s.made :=
      LoginServer.waiting_update (f := Player.initLoginData _ _) (fun _ => rfl) (fun _ => rfl) hw
    have hsame : (s.received req fd transID).directory = s.directory := haccept
    rw [recvGgLoginReq_eq P hver, hrec.directory_handleAPLoginReq P cfg hw₁, hsame]
  · rw [if_pos hlocal, (hasData_received req fd transID s).szPTID]
  · rw [if_neg hlocal]

/-- `findPlayer` looks into the directory. -/
theorem findPlayer_eq (h : Sound s) (ptid : Bytes) : s.findPlayer ptid = s.directory ptid := by
  rw [LoginServer.findPlayer, LoginServer.getPlayerID, LoginServer.directory, LoginServer.holder]
  cases hid : s.pTIDMap_ ptid with
  | none => rfl
  | some id =>
      obtain ⟨-, q, hfile, -⟩ := h.idx.registered ptid id hid
      obtain ⟨hlt, hq, -⟩ := h.idx.filed id q hfile
      have hnum := h.idx.numbered q hlt
      have hne : id ≠ 0 := by
        rintro rfl
        rw [hq] at hnum
        simp at hnum
      show (if id = 0 then none else s.playerMap_ id) = s.playerMap_ id
      rw [if_neg hne]

/-- A logoff releases whoever holds the account. -/
theorem onLogoffNtf_eq (h : Sound s) (ptid : Bytes) (clock : Clock) :
    s.onLogoffNtf P cfg (some ptid) clock =
      (s.holder ptid).elim s fun q => s.notifyOwnerDestroy q := by
  have hfind : s.findPlayer ptid = s.holder ptid := h.findPlayer_eq ptid
  rw [LoginServer.onLogoffNtf]
  cases hq : s.holder ptid with
  | none => simp only [hfind, hq, Option.elim_none]
  | some q =>
      obtain ⟨id, -, hfile⟩ := Option.bind_eq_some_iff.mp hq
      have hglobal := (h.idx.filed id q hfile).2.2.2
      simp only [hfind, hq, Option.elim_some]
      rw [← LoginServer.changeState_logout]
      simp only [LoginServer.onEvent, FsmEvent.isGlobalEvent, if_true, hglobal,
        LoginServer.visit, LoginServer.globalOnEvent]

theorem directory_onLogoffNtf (h : Sound s) (ptid : Bytes) (clock : Clock) :
    (s.onLogoffNtf P cfg (some ptid) clock).directory = Function.update s.directory ptid none := by
  rw [h.onLogoffNtf_eq P cfg]
  cases hq : s.holder ptid with
  | none =>
      have hnone : s.directory ptid = none := hq
      rw [Option.elim_none, ← hnone]
      exact (Function.update_eq_self ptid s.directory).symm
  | some q =>
      obtain ⟨id, -, hfile⟩ := Option.bind_eq_some_iff.mp hq
      rw [Option.elim_some, h.idx.directory_destroy hfile, h.idx.szPTID_of_holder hq]

theorem directory_processMsg (h : Sound s) (m : MessageParam) (clock : Clock)
    (hmade : (s.processMsg P cfg m clock).made < 2 ^ 64) :
    (s.processMsg P cfg m clock).directory = after s.directory (m.directoryEvents P cfg s) := by
  have h₁ : Sound { s with handling := m.transID } := h.of_eq rfl rfl rfl rfl rfl rfl fun _ => rfl
  unfold MessageParam.directoryEvents
  unfold LoginServer.processMsg at hmade ⊢
  by_cases hlogin : m.msg_id = GG_LS_Login_REQ
  · simp only [if_pos hlogin] at hmade ⊢
    cases hreq : P.parseLoginReq m.data with
    | none => rfl
    | some req =>
        rw [hreq, (Acts.recvGgLoginReq P cfg req _ _ clock _).made] at hmade
        rw [h₁.directory_recvGgLoginReq P cfg hmade]
        dsimp only
        split_ifs <;> rfl
  · by_cases hlogoff : m.msg_id = GG_LS_Logoff_NTF
    · simp only [if_neg hlogin, if_pos hlogoff]
      cases hptid : P.parseLogoff m.data with
      | none => rfl
      | some ptid => exact h₁.directory_onLogoffNtf P cfg ptid clock
    · simp only [if_neg hlogin, if_neg hlogoff]
      rfl

theorem directory_onAPAuthenResult (h : Sound s) (auth : AuthInfo) (result : Result)
    (errorCode : Int32) (clock : Clock) :
    (s.onAPAuthenResult P cfg auth result errorCode clock).directory =
      match s.playerOf auth with
      | none => s.directory
      | some p =>
          if result = .success ∧ (s.players p).fsm_.current_state_ = .login ∧
            (s.players p).isFor auth = true then
            Function.update s.directory (s.players p).szPTID (some p)
          else s.directory := by
  cases hof : s.playerOf auth with
  | none => rw [onAPAuthenResult_idle P cfg (by simp [hof])]
  | some p =>
      dsimp only
      by_cases hl : (s.players p).fsm_.current_state_ = .login
      · have hw : s.Waiting p := by
          refine (h.idx.waiting_of_not_online hof fun hon => ?_).1
          simp [Player.isOnline, Player.getCurStateType, hl, getFsmStateType] at hon
        by_cases hres : result = .success
        · subst hres
          rw [onAPAuthenResult_success P cfg hof hl]
          by_cases hfor : (s.players p).isFor auth = true
          · rw [if_pos hfor, if_pos ⟨rfl, hl, hfor⟩]
            exact h.directory_login P hw _
          · rw [if_neg hfor, if_neg fun hall => hfor hall.2.2]
        · rw [onAPAuthenResult_error P cfg hof hl hres, if_neg fun hall => hres hall.1]
          exact h.directory_fail P hw _
      · rw [if_neg fun hall => hl hall.2.1, onAPAuthenResult_idle P cfg]
        intro p' hp'
        obtain rfl := Option.some.inj (hof.symm.trans hp')
        exact hl

theorem directory_processApMsg (h : Sound s) (m : APMsg) (clock : Clock) :
    (s.processApMsg P cfg m clock).directory = after s.directory (m.directoryEvents s) := by
  unfold APMsg.directoryEvents
  cases hauth : m.authInfo with
  | none =>
      rw [LoginServer.processApMsg, hauth]
      rfl
  | some auth =>
      dsimp only
      by_cases hop : m.operation = .authen_ap
      · have h₁ : Sound { s with apg_list_ := s.apg_list_ ++ m.requeued auth clock } :=
          h.of_eq rfl rfl rfl rfl rfl rfl fun _ => rfl
        rw [processApMsg_authen P cfg hauth hop, h₁.directory_onAPAuthenResult P cfg]
        show (match s.playerOf auth with
          | none => s.directory
          | some p => _) = _
        simp only [hop, true_and]
        cases hof : s.playerOf auth with
        | none => split_ifs <;> rfl
        | some p =>
            dsimp only
            by_cases hres : m.result = .success
            · simp only [hres, true_and, if_true]
              split_ifs <;> rfl
            · simp only [hres, false_and, if_false]
              rfl
      · rw [if_neg fun hall => hop hall.1, LoginServer.processApMsg, hauth]
        dsimp only
        split
        · exact absurd ‹_› hop
        · split_ifs <;> rfl

theorem directory_step {e : LoginEvent} (h : Sound s) (hs : LoginServer.step P cfg s e = some s')
    (hmade : s'.made < 2 ^ 64) : s'.directory = after s.directory (directoryEvents P cfg s e) := by
  have hcalm (hc : Calm s s') : s'.directory = s.directory := by
    funext a
    rw [LoginServer.directory, LoginServer.directory, LoginServer.holder, LoginServer.holder,
      hc.pTIDMap_, hc.playerMap_]
  cases e with
  | processMsg clock =>
      unfold LoginServer.step at hs
      rw [if_neg (by simp [h.idx.alive])] at hs
      cases hlist : s.message_list_ with
      | nil => simp [hlist] at hs
      | cons m rest =>
          simp only [hlist, Option.some.injEq] at hs
          subst hs
          have h₁ : Sound { s with message_list_ := rest } :=
            h.of_eq rfl rfl rfl rfl rfl rfl fun _ => rfl
          rw [h₁.directory_processMsg P cfg m clock hmade, directoryEvents, hlist]
          rfl
  | processApMsg clock =>
      obtain ⟨m, rest, hlist, rfl⟩ := step_processApMsg hs
      have h₁ : Sound { s with apg_list_ := rest } := h.of_eq rfl rfl rfl rfl rfl rfl fun _ => rfl
      rw [h₁.directory_processApMsg P cfg m clock, directoryEvents, hlist]
      rfl
  | addSession fd => exact hcalm (step_calm hs (by simp))
  | delSession fd => exact hcalm (step_calm hs (by simp))
  | ping fd => exact hcalm (step_calm hs (by simp))
  | recvData fd data => exact hcalm (step_calm hs (by simp))
  | operateResult _ _ _ _ _ => exact hcalm (step_calm hs (by simp))

end Sound

/-! ### Runs -/

/-- **The login server is a directory**: every run of it is a run of a directory, with the logins and
logoffs that its messages ask for, and the last login under an account holds it, until it is logged
off. -/
theorem directory_refined (P : LoginProto) (cfg : Config) (es : List LoginEvent) (s : LoginServer)
    (h : (loginMachine P cfg).run es = some s) (hw : (requests s.history).length < 2 ^ 64) :
    (Directory.machine Bytes ℕ).run ((loginMachine P cfg).trace (directoryEvents P cfg) es) =
        some s.directory ∧
      ∀ ptid p, s.holder ptid = some p ↔
        LastLogin ((loginMachine P cfg).trace (directoryEvents P cfg) es) ptid p := by
  rw [length_requests h] at hw
  have hrun : (Directory.machine Bytes ℕ).run
      ((loginMachine P cfg).trace (directoryEvents P cfg) es) = some s.directory := by
    refine (loginMachine P cfg).run_induction (P := fun es s => s.made < 2 ^ 64 →
      (Directory.machine Bytes ℕ).run ((loginMachine P cfg).trace (directoryEvents P cfg) es) =
        some s.directory) (fun _ => rfl) ?_ h hw
    intro es s e s' hrun ih hs hmade
    have hle : s.made < 2 ^ 64 := Nat.lt_of_le_of_lt (made_le_step hs) hmade
    rw [(loginMachine P cfg).trace_snoc _ hrun (by rw [hs]; rfl), Machine.run, Machine.exec_append,
      ← Machine.run, ih hle, (sound_of_run hrun hle).directory_step P cfg hs hmade]
    exact exec_directory _ _
  exact ⟨hrun, fun ptid p => Directory.holds_iff_last hrun ptid p⟩

theorem directory_refined_twice : ∃ s, (loginMachine plainProto localTest).run
    (.addSession 1 :: (request (bodyOf 65) ++ request (bodyOf 65))) = some s ∧
    s.holder accountA = some 1 ∧ LastLogin ((loginMachine plainProto localTest).trace
      (directoryEvents plainProto localTest)
      (.addSession 1 :: (request (bodyOf 65) ++ request (bodyOf 65)))) accountA 1 := by
  obtain ⟨s, h⟩ : ∃ s, (loginMachine plainProto localTest).run
      (.addSession 1 :: (request (bodyOf 65) ++ request (bodyOf 65))) = some s :=
    Option.isSome_iff_exists.mp (by decide +kernel)
  have hobs : ((loginMachine plainProto localTest).run
      (.addSession 1 :: (request (bodyOf 65) ++ request (bodyOf 65)))).map (fun s =>
        ((requests s.history).length, s.holder accountA)) = some (2, some 1) := by decide +kernel
  rw [h] at hobs
  simp only [Option.map_some, Option.some.injEq, Prod.mk.injEq] at hobs
  have hlast := (directory_refined plainProto localTest _ s h (by rw [hobs.1]; decide)).2 accountA 1
  exact ⟨s, h, hobs.2, hlast.mp hobs.2⟩

end BlackSwan.Login
