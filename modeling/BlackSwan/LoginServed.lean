import BlackSwan.LoginTold

/-! # Nobody is forgotten

A player whose login is open waits; it stops waiting in the step that answers it, and in no other one.
So whoever was made for a request of a session still waits, or it has been told the outcome, if the
session was connected whenever the main thread handled something of it (`Attended`).

`served` says so for runs, with the count that comes of it (`answered_add_waiting`). -/

namespace BlackSwan.Login

open Wire Runs Tables

variable {P : LoginProto} {cfg : Config} {s s' : LoginServer} {p q : ℕ} {fd : UInt32}

/-- The session that a step of the main thread is about. -/
def concerns (s : LoginServer) : LoginEvent → Option UInt32
  | .processMsg _ => s.message_list_.head?.map (·.gate_session_fd)
  | .processApMsg _ => ((s.apg_list_.head?.bind (·.authInfo)).bind fun auth => s.playerOf auth).map
      fun p => (s.players p).gate_session_fd_
  | _ => none

/-- The session is connected if the step is about it. -/
def Attended (fd : UInt32) (s : LoginServer) (e : LoginEvent) : Prop :=
  concerns s e = some fd → (s.session_map_ fd).isSome

instance (fd : UInt32) (s : LoginServer) (e : LoginEvent) : Decidable (Attended fd s e) :=
  inferInstanceAs (Decidable (_ → _))

/-- The player is registered under some account. -/
def LoginServer.Registered (s : LoginServer) (q : ℕ) : Prop := ∃ ptid, s.holder ptid = some q

/-- Whoever was made for a request of the session waits, or has been answered. -/
def Served (fd : UInt32) (s : LoginServer) : Prop :=
  ∀ q < s.made, (s.players q).gate_session_fd_ = fd →
    s.Waiting q ∨ LS_GG_Login_ACK ∈ told q s.history

theorem told_self (h : s.Connected p) (msgId : UInt32) (body : Bytes) :
    msgId ∈ told p (s.packet p msgId body) := by
  rw [told_packet, if_pos ⟨rfl, h⟩]
  exact List.mem_cons_self

/-! ### Steps -/

/-- What is done for one player leaves the other ones waiting. -/
theorem Sound.waiting_of_acts (h : Sound s) (ha : Acts p s.Registered s s') (hp : p < s.made)
    (hq : s.Waiting q) (hne : q ≠ p) : s'.Waiting q := by
  have hlt := h.lt_made hq
  have hno (q' : ℕ) (hq' : s.Registered q') : q' < s.made ∧ q ≠ q' := by
    obtain ⟨ptid, hholder⟩ := hq'
    obtain ⟨hlt', -, hl⟩ := h.holds hholder
    refine ⟨hlt', ?_⟩
    rintro rfl
    exact hl hq.2
  have hself : s'.players q = s.players q := ha.others q hne fun hreg => (hno q hreg).2 rfl
  rw [LoginServer.Waiting, hself]
  refine ⟨?_, hq.2⟩
  obtain hkept | hid | ⟨q', hreg, hid⟩ := ha.kept (s.players q).id_
  · exact hkept.trans hq.1
  · exact absurd (h.idx.id_inj hlt hp hid) hne
  · exact absurd (h.idx.id_inj hlt (hno q' hreg).1 hid) (hno q' hreg).2

namespace Served

/-- A step of another thread. -/
theorem calm (h : Served fd s) (hc : Calm s s') : Served fd s' := by
  obtain ⟨l, hl, -⟩ := hc.entries
  intro q hq hfd
  rw [hc.made] at hq
  rw [hc.players] at hfd
  rw [LoginServer.Waiting, hc.players, hc.playerMap_, hl, told_append]
  exact (h q hq hfd).imp_right (List.mem_append_left _)

/-- A step for one player, which waits on or is answered. -/
theorem acts (h : Served fd s) (hs : Sound s) (ha : Acts p s.Registered s s') (hp : p < s.made)
    (hdone : s.Waiting p → (s.players p).gate_session_fd_ = fd →
      s'.Waiting p ∨ LS_GG_Login_ACK ∈ told p s'.history) : Served fd s' := by
  obtain ⟨l, hl, -⟩ := ha.entries
  intro q hq hfd
  rw [ha.made] at hq
  rw [(ha.origin q).2.1] at hfd
  obtain hw | htold := h q hq hfd
  · by_cases hne : q = p
    · subst hne
      exact hdone hw hfd
    · exact .inl (hs.waiting_of_acts ha hp hw hne)
  · rw [hl, told_append]
    exact .inr (List.mem_append_left _ htold)

/-- The new player waits. -/
theorem accept (h : Served fd s) (hs : Sound s) (hmade : s.made + 1 < 2 ^ 64) (fd' transID : UInt32) :
    Served fd (s.accept fd' transID) := by
  intro q hq hfd
  by_cases hne : q = s.made
  · subst hne
    exact .inl (hs.accept hmade fd' transID).2
  · have hlt : q < s.made := by
      have hq : q < s.made + 1 := hq
      omega
    have hsame : (s.accept fd' transID).players q = s.players q := by
      rw [LoginServer.accept, LoginServer.updatePlayer_of_ne hne]
      simp [LoginServer.log, LoginServer.fetchPlayer, hne]
    rw [hsame] at hfd
    obtain hw | htold := h q hlt hfd
    · left
      have hmap : s.playerMap_.emplace (s.player_idx_ + 1) s.made (s.players q).id_ = some q := by
        unfold Table.emplace
        split_ifs with hfree
        · exact hw.1
        · refine (Table.set_of_ne ?_).trans hw.1
          rintro hid
          rw [← hid, hw.1] at hfree
          exact hfree rfl
      rw [LoginServer.Waiting, hsame]
      exact ⟨hmap, hw.2⟩
    · right
      show LS_GG_Login_ACK ∈ told q (s.history ++ [.accepted s.made fd' s.handling])
      rw [told_append]
      exact List.mem_append_left _ htold

/-! ### Requests -/

variable (P cfg)

/-- A successful login. -/
theorem login (h : Served fd s) (hs : Sound s) (hw : s.Waiting p)
    (hc : (s.players p).gate_session_fd_ = fd → (s.session_map_ fd).isSome) (ptid : Bytes) :
    Served fd (((s.kickOffPlayer P ptid).setPTID p ptid).sendGateLoginSucc P p) := by
  refine h.acts hs (Acts.login P fun q hq => ⟨ptid, hq⟩) (hs.lt_made hw) fun _ hfd => .inr ?_
  have hconn : s.Connected p := by
    rw [LoginServer.Connected, hfd]
    exact hc hfd
  rw [hs.history_login P hw, told_append, LoginServer.announced, told_append]
  exact List.mem_append_right _ (List.mem_append_right _ (told_self hconn _ _))

/-- A failed login. -/
theorem fail (h : Served fd s) (hs : Sound s) (hw : s.Waiting p)
    (hc : (s.players p).gate_session_fd_ = fd → (s.session_map_ fd).isSome) (errorCode : UInt32) :
    Served fd (s.sendGateLoginFail P p errorCode) := by
  refine h.acts hs (Acts.sendGateLoginFail P errorCode) (hs.lt_made hw) fun _ hfd => .inr ?_
  have hconn : s.Connected p := by
    rw [LoginServer.Connected, hfd]
    exact hc hfd
  rw [history_fail, told_append]
  exact List.mem_append_right _ (told_self hconn _ _)

theorem checkApLoginData (h : Served fd s) (hs : Sound s) (hp : p < s.made) (clock : Clock) :
    Served fd (s.checkApLoginData p clock) := by
  refine h.acts hs (Acts.checkApLoginData clock) hp fun hw _ => .inl ?_
  exact LoginServer.waiting_update (s := { s with start_id := s.start_id + 1 })
    (f := fun pl => { pl with auth_ID_ := s.start_id }) (fun _ => rfl) (fun _ => rfl) hw

theorem handleAPLoginReq (h : Served fd s) (hs : Sound s) (hw : s.Waiting p)
    (hc : (s.players p).gate_session_fd_ = fd → (s.session_map_ fd).isSome) (clock : Clock) :
    Served fd (s.handleAPLoginReq P cfg p clock) := by
  have hlocal : Served fd (s.localTestLogin P cfg p) ∧ Sound (s.localTestLogin P cfg p) ∧
      p < (s.localTestLogin P cfg p).made := by
    unfold LoginServer.localTestLogin
    dsimp only
    split_ifs with _ hus
    · have hlogin := hs.login P hw (List.ne_nil_of_mem hus)
      exact ⟨h.login P hs hw hc _, hlogin, by
        rw [(Acts.login (K := Acts.OnFile s) P fun _ => Acts.onFile_of_holder).made]
        exact hs.lt_made hw⟩
    · have hlogin := hs.login P hw (Player.szPTID_ne_nil (s.players p))
      exact ⟨h.login P hs hw hc _, hlogin, by
        rw [(Acts.login (K := Acts.OnFile s) P fun _ => Acts.onFile_of_holder).made]
        exact hs.lt_made hw⟩
    · exact ⟨h, hs, hs.lt_made hw⟩
  unfold LoginServer.handleAPLoginReq
  dsimp only
  split_ifs
  · exact hlocal.1
  · exact hlocal.1.checkApLoginData hlocal.2.1 hlocal.2.2 clock

theorem recvGgLoginReq (h : Served fd s) (hs : Sound s) (hmade : s.made + 1 < 2 ^ 64) (req : LoginReq)
    (fd' transID : UInt32) (clock : Clock) (hc : fd' = fd → (s.session_map_ fd).isSome) :
    Served fd (s.recvGgLoginReq P cfg (some req) fd' transID clock) := by
  obtain ⟨hacc, hw⟩ := hs.accept hmade fd' transID
  have h₁ := h.accept hs hmade fd' transID
  have hfd : ((s.accept fd' transID).players s.made).gate_session_fd_ = fd' := by
    rw [LoginServer.accept, LoginServer.updatePlayer_self]
    rfl
  by_cases hver : req.clientversion < cfg.clientVersion_.toUInt32
  · rw [LoginServer.recvGgLoginReq_some, if_pos hver]
    exact h₁.fail P hacc hw (fun he => hc (hfd.symm.trans he)) _
  · have hrec : Sound (s.received req fd' transID) :=
      hacc.update s.made (fun _ => rfl) (fun _ => rfl) fun _ => rfl
    have hw₁ : (s.received req fd' transID).Waiting s.made :=
      LoginServer.waiting_update (f := Player.initLoginData _ _) (fun _ => rfl) (fun _ => rfl) hw
    have h₂ : Served fd (s.received req fd' transID) := by
      refine h₁.acts hacc (Acts.of_update (Player.initLoginData req transID.toUInt64
        ((s.accept fd' transID).players s.made)) rfl rfl ?_ rfl rfl rfl rfl rfl) (hacc.lt_made hw)
        fun _ _ => .inl hw₁
      rw [LoginServer.accept, LoginServer.updatePlayer_self]
      rfl
    rw [recvGgLoginReq_eq P hver]
    refine h₂.handleAPLoginReq P cfg hrec hw₁ (fun he => hc ?_) clock
    rw [players_received] at he
    exact he

theorem processMsg (h : Served fd s) (hs : Sound s) (m : MessageParam) (clock : Clock)
    (hmade : (s.processMsg P cfg m clock).made < 2 ^ 64)
    (hc : m.gate_session_fd = fd → (s.session_map_ fd).isSome) :
    Served fd (s.processMsg P cfg m clock) := by
  have hs₁ : Sound { s with handling := m.transID } := hs.of_eq rfl rfl rfl rfl rfl rfl fun _ => rfl
  have h₁ : Served fd { s with handling := m.transID } := h
  cases hreq : m.request P with
  | some req =>
      rw [processMsg_some hreq] at hmade ⊢
      rw [(Acts.recvGgLoginReq P cfg req _ _ clock _).made] at hmade
      exact h₁.recvGgLoginReq P cfg hs₁ hmade req _ _ clock hc
  | none =>
      unfold LoginServer.processMsg
      dsimp only
      by_cases hid : m.msg_id = GG_LS_Login_REQ
      · rw [MessageParam.request, if_pos hid] at hreq
        rw [if_pos hid, hreq]
        exact h₁
      · rw [if_neg hid]
        split_ifs
        · cases P.parseLogoff m.data with
          | none => exact h₁
          | some ptid =>
              rw [hs₁.onLogoffNtf_eq P cfg]
              -- who is logged off does not wait
              cases hq : ({ s with handling := m.transID } : LoginServer).holder ptid with
              | none => exact h₁
              | some q =>
                  obtain ⟨hlt, -, hl⟩ := hs₁.holds hq
                  exact h₁.acts hs₁ (Acts.destroy (.inl rfl)) hlt fun hw _ => absurd hw.2 hl
        · exact h₁

theorem onAPAuthenResult (h : Served fd s) (hs : Sound s) (auth : AuthInfo) (result : Result)
    (errorCode : Int32) (clock : Clock) (hc : ∀ p, s.playerOf auth = some p →
      (s.players p).gate_session_fd_ = fd → (s.session_map_ fd).isSome) :
    Served fd (s.onAPAuthenResult P cfg auth result errorCode clock) := by
  by_cases hidle : ∀ p, s.playerOf auth = some p → (s.players p).fsm_.current_state_ ≠ .login
  · rw [onAPAuthenResult_idle P cfg hidle]
    exact h
  · simp only [not_forall, ne_eq, not_not] at hidle
    obtain ⟨p, hof, hl⟩ := hidle
    have hw : s.Waiting p := by
      refine (hs.idx.waiting_of_not_online hof fun hon => ?_).1
      simp [Player.isOnline, Player.getCurStateType, hl, getFsmStateType] at hon
    by_cases hres : result = .success
    · subst hres
      rw [onAPAuthenResult_success P cfg hof hl]
      split_ifs
      · exact h.login P hs hw (hc p hof) _
      · exact h
    · rw [onAPAuthenResult_error P cfg hof hl hres]
      exact h.fail P hs hw (hc p hof) _

theorem processApMsg (h : Served fd s) (hs : Sound s) (m : APMsg) (clock : Clock)
    (hc : ∀ auth p, m.authInfo = some auth → s.playerOf auth = some p →
      (s.players p).gate_session_fd_ = fd → (s.session_map_ fd).isSome) :
    Served fd (s.processApMsg P cfg m clock) := by
  cases hauth : m.authInfo with
  | none =>
      rw [LoginServer.processApMsg, hauth]
      exact h
  | some auth =>
      by_cases hop : m.operation = .authen_ap
      · have hs₁ : Sound { s with apg_list_ := s.apg_list_ ++ m.requeued auth clock } :=
          hs.of_eq rfl rfl rfl rfl rfl rfl fun _ => rfl
        have h₁ : Served fd { s with apg_list_ := s.apg_list_ ++ m.requeued auth clock } := h
        rw [processApMsg_authen P cfg hauth hop]
        exact h₁.onAPAuthenResult P cfg hs₁ auth m.result m.nErrorCode clock fun p => hc auth p hauth
      · unfold LoginServer.processApMsg
        rw [hauth]
        dsimp only
        split
        · exact absurd ‹_› hop
        · split_ifs <;> exact h

theorem step {e : LoginEvent} (h : Served fd s) (hs : Sound s)
    (hstep : LoginServer.step P cfg s e = some s') (hmade : s'.made < 2 ^ 64)
    (hatt : Attended fd s e) : Served fd s' := by
  cases e with
  | processMsg clock =>
      unfold LoginServer.step at hstep
      rw [if_neg (by simp [hs.idx.alive])] at hstep
      cases hlist : s.message_list_ with
      | nil => simp [hlist] at hstep
      | cons m rest =>
          simp only [hlist, Option.some.injEq] at hstep
          subst hstep
          have hs₁ : Sound { s with message_list_ := rest } :=
            hs.of_eq rfl rfl rfl rfl rfl rfl fun _ => rfl
          have h₁ : Served fd { s with message_list_ := rest } := h
          refine h₁.processMsg P cfg hs₁ m clock hmade fun hfd => hatt ?_
          simp [concerns, hlist, hfd]
  | processApMsg clock =>
      obtain ⟨m, rest, hlist, rfl⟩ := step_processApMsg hstep
      have hs₁ : Sound { s with apg_list_ := rest } := hs.of_eq rfl rfl rfl rfl rfl rfl fun _ => rfl
      have h₁ : Served fd { s with apg_list_ := rest } := h
      refine h₁.processApMsg P cfg hs₁ m clock fun auth p hauth hof hfd => hatt ?_
      have hof : s.playerOf auth = some p := hof
      have hfd : (s.players p).gate_session_fd_ = fd := hfd
      simp [concerns, hlist, hauth, hof, hfd]
  | addSession fd' => exact h.calm (step_calm hstep (by simp))
  | delSession fd' => exact h.calm (step_calm hstep (by simp))
  | ping fd' => exact h.calm (step_calm hstep (by simp))
  | recvData fd' data => exact h.calm (step_calm hstep (by simp))
  | operateResult _ _ _ _ _ => exact h.calm (step_calm hstep (by simp))

end Served

/-! ### Counting -/

/-- How many players of a session and a `transID` wait. -/
def LoginServer.waitingFor (fd u : UInt32) (s : LoginServer) : ℕ :=
  (List.range s.made).countP fun p => decide (s.Waiting p ∧
    (s.players p).gate_session_fd_ = fd ∧ (s.players p).trans_id_.toUInt32 = u)

theorem nodup_madeFor (ho : Origins s) (fd u : UInt32) :
    (s.history.filterMap (LoginAct.madeFor fd u)).Nodup := by
  have hnodup : (requests s.history).Nodup := by
    rw [ho.requests]
    exact List.nodup_range
  refine List.nodup_iff_count_le_one.mpr fun p => ?_
  refine Nat.le_trans ?_ (List.nodup_iff_count_le_one.mp hnodup p)
  rw [requests, List.count, List.countP_filterMap, List.countP_filterMap]
  refine List.countP_mono_left fun a _ ha => ?_
  cases a with
  | accepted q fd' t =>
      simp only [LoginAct.madeFor] at ha
      split_ifs at ha
      · exact ha
      · cases ha
  | _ => cases ha

/-- Whoever has been answered is among the answered ones of its own session and `transID`. -/
theorem mem_answered (ho : Origins s) (htold : LS_GG_Login_ACK ∈ told p s.history) :
    p ∈ s.history.filterMap
      (LoginAct.answered (s.players p).gate_session_fd_ (s.players p).trans_id_.toUInt32) := by
  obtain ⟨a, ha, hap⟩ := List.mem_filterMap.mp htold
  cases a with
  | sent c fd msgId msg =>
      obtain ⟨q, rfl, -, hfd, hread⟩ := ho.sent c fd msgId msg ha
      simp only [Option.ite_none_right_eq_some, Option.some.injEq] at hap
      obtain ⟨rfl, rfl⟩ := hap
      refine List.mem_filterMap.mpr ⟨_, ha, ?_⟩
      simp [LoginAct.answered, hfd, hread]
  | _ => cases hap

/-- **Every request is accounted for**: it has been answered, or its player waits. -/
theorem answered_add_waiting (ho : Origins s) (hb : Budget s) (h : Served fd s) (u : UInt32) :
    (s.history.filterMap (LoginAct.answered fd u)).length + s.waitingFor fd u =
      (acceptances s.history).countP fun a => a.1 == fd && a.2.toUInt32 == u := by
  let waiting : List ℕ := (List.range s.made).filter fun p => decide (s.Waiting p ∧
    (s.players p).gate_session_fd_ = fd ∧ (s.players p).trans_id_.toUInt32 = u)
  have hmem (p : ℕ) : p ∈ waiting ↔ p < s.made ∧ s.Waiting p ∧
      (s.players p).gate_session_fd_ = fd ∧ (s.players p).trans_id_.toUInt32 = u := by
    simp [waiting]
  have hnodup : (s.history.filterMap (LoginAct.answered fd u) ++ waiting).Nodup := by
    refine List.nodup_append'.mpr ⟨nodup_answered hb.once fd u, List.nodup_range.filter _, ?_⟩
    intro p hp hw
    obtain ⟨a, ha, hap⟩ := List.mem_filterMap.mp hp
    have hzero := List.countP_eq_zero.mp (hb.waiting p ((hmem p).mp hw).2.1) a ha
    cases a with
    | sent c fd' msgId msg =>
        simp only [LoginAct.answered, Option.ite_none_right_eq_some, Bool.and_eq_true,
          beq_iff_eq] at hap
        obtain ⟨⟨⟨-, rfl⟩, -⟩, rfl⟩ := hap
        simp [isAck] at hzero
    | _ => cases hap
  have hperm : (s.history.filterMap (LoginAct.answered fd u) ++ waiting).Perm
      (s.history.filterMap (LoginAct.madeFor fd u)) := by
    refine (List.perm_ext_iff_of_nodup hnodup (nodup_madeFor ho fd u)).mpr fun p => ?_
    rw [List.mem_append, hmem]
    constructor
    · rintro (hp | ⟨hlt, -, hfd, hu⟩)
      · exact answered_subset ho fd u hp
      · exact (mem_madeFor ho).mpr ⟨hlt, hfd, hu⟩
    · intro hp
      obtain ⟨hlt, rfl, rfl⟩ := (mem_madeFor ho).mp hp
      exact (h p hlt rfl).symm.imp (mem_answered ho) fun hw => ⟨hlt, hw, rfl, rfl⟩
  rw [← length_madeFor, ← hperm.length_eq, List.length_append, LoginServer.waitingFor,
    List.countP_eq_length_filter]

/-! ### Runs -/

theorem served_of_run {es : List LoginEvent} (h : (loginMachine P cfg).run es = some s)
    (hw : s.made < 2 ^ 64) (hatt : (loginMachine P cfg).Along (Attended fd) es) : Served fd s := by
  refine (loginMachine P cfg).run_induction_along (Attended fd)
    (P := fun _ s => s.made < 2 ^ 64 → Served fd s) ?_ ?_ h hatt hw
  · intro _ q hq
    exact absurd hq (Nat.not_lt_zero q)
  · intro es s e s' hrun ih hok hs hmade
    have hle : s.made < 2 ^ 64 := Nat.lt_of_le_of_lt (made_le_step hs) hmade
    exact (ih hle).step P cfg (sound_of_run hrun hle) hs hmade hok

/-- **Nobody is forgotten.**  Whoever was made for a request of a session that is attended still waits,
unanswered, or it has been answered once and waits no more; and for every `transID` of the session there
are as many requests as answers and players that wait. -/
theorem served (P : LoginProto) (cfg : Config) (es : List LoginEvent) (s : LoginServer)
    (h : (loginMachine P cfg).run es = some s) (hw : (requests s.history).length < 2 ^ 64)
    (fd : UInt32) (hatt : (loginMachine P cfg).Along (Attended fd) es) :
    (∀ p t, .accepted p fd t ∈ s.history →
      s.Waiting p ∧ acks p s.history = 0 ∨ ¬ s.Waiting p ∧ acks p s.history = 1) ∧
    ∀ u, (s.history.filterMap (LoginAct.answered fd u)).length + s.waitingFor fd u =
      (acceptances s.history).countP fun a => a.1 == fd && a.2.toUInt32 == u := by
  rw [length_requests h] at hw
  have ho := origins_of_run h
  have hbudget := (sound_of_run h hw).budget
  have hserved := served_of_run h hw hatt
  refine ⟨fun p t hacc => ?_, answered_add_waiting ho hbudget hserved⟩
  by_cases hwait : s.Waiting p
  · exact .inl ⟨hwait, hbudget.waiting p hwait⟩
  · refine .inr ⟨hwait, ?_⟩
    have htold := hserved p (ho.lt_made hacc) (ho.accepted p fd t hacc).1
    have hne := acks_ne_zero (htold.resolve_left hwait)
    have hle := hbudget.once p
    omega

theorem served_first : ∃ s, (loginMachine plainProto localTest).run
    (.addSession 1 :: request (bodyOf 65)) = some s ∧ acks 0 s.history = 1 ∧
    (s.Waiting 0 ∧ acks 0 s.history = 0 ∨ ¬ s.Waiting 0 ∧ acks 0 s.history = 1) := by
  obtain ⟨s, h⟩ : ∃ s, (loginMachine plainProto localTest).run
      (.addSession 1 :: request (bodyOf 65)) = some s :=
    Option.isSome_iff_exists.mp (by decide +kernel)
  have hobs : ((loginMachine plainProto localTest).run (.addSession 1 :: request (bodyOf 65))).map
      (fun s => ((requests s.history).length, acks 0 s.history,
        decide (.accepted 0 1 5 ∈ s.history))) = some (1, 1, true) := by decide +kernel
  rw [h] at hobs
  simp only [Option.map_some, Option.some.injEq, Prod.mk.injEq, decide_eq_true_eq] at hobs
  exact ⟨s, h, hobs.2.1, (served plainProto localTest _ s h (by rw [hobs.1]; decide) 1
    (by decide +kernel)).1 0 5 hobs.2.2⟩

end BlackSwan.Login
