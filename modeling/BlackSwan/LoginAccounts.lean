import BlackSwan.LoginRuns

/-! # Accounts and answers

* At most one online player per account, with both maps of `PlayerMgr` consistent, in every state
  that is reached with less than `2^64` requests.  After `2^64` requests ids come round and the
  maps can disagree.
* Every request is answered at most once, on the session it came from, and a result of the AP
  concerns only the player it was asked for and the player that holds the account. -/

namespace BlackSwan.Login

open Wire Runs Tables

variable {P : LoginProto} {cfg : Config} {s s' : LoginServer} {es : List LoginEvent}

/-- As many players as requests. -/
theorem length_requests (h : (loginMachine P cfg).run es = some s) :
    (requests s.history).length = s.made := by
  rw [(origins_of_run h).requests, List.length_range]

/-! ### Accounts -/

/-- The maps of `PlayerMgr` and the players agree. -/
structure Consistent (s : LoginServer) : Prop where
  registered : ∀ ptid id, s.pTIDMap_ ptid = some id → ∃ p, s.playerMap_ id = some p ∧
    (s.players p).szPTID_ = ptid ∧ (s.players p).getCurStateType = .EFST_Online
  online : ∀ id p, s.playerMap_ id = some p → (s.players p).getCurStateType = .EFST_Online →
    s.pTIDMap_ (s.players p).szPTID_ = some (s.players p).id_
  keyed : ∀ id p, s.playerMap_ id = some p → (s.players p).id_ = id
  /-- one online player for an account -/
  unique : ∀ id p id' p', s.playerMap_ id = some p → s.playerMap_ id' = some p' →
    (s.players p).getCurStateType = .EFST_Online → (s.players p').getCurStateType = .EFST_Online →
    (s.players p).szPTID_ = (s.players p').szPTID_ → id = id' ∧ p = p'

/-- **One online player per account**, until player ids come round. -/
theorem accounts_consistent (P : LoginProto) (cfg : Config) (es : List LoginEvent) (s : LoginServer)
    (h : (loginMachine P cfg).run es = some s) (hw : (requests s.history).length < 2 ^ 64) :
    Consistent s := by
  rw [length_requests h] at hw
  have hi := (sound_of_run h hw).idx
  constructor
  · intro ptid id hid
    exact (hi.registered ptid id hid).2
  · intro id p hp hon
    rw [(hi.filed id p hp).2.1]
    exact hi.online id p hp hon
  · intro id p hp
    exact (hi.filed id p hp).2.1
  · intro id p id' p' hp hp' hon hon' heq
    have hreg := hi.online id p hp hon
    have hreg' := hi.online id' p' hp' hon'
    rw [heq, hreg'] at hreg
    obtain rfl := Option.some.inj hreg
    exact ⟨rfl, Option.some.inj (hp.symm.trans hp')⟩

/-- A request for an account; without one it is the request of an old client. -/
def plainReq (account : Bytes) : LoginReq where
  aptype := 0
  clientversion := if account.isEmpty then 0 else 1
  authact := account
  authstr := []
  invitecode := []
  reserve := 0
  clienttype := 0
  areagroup := 0
  ip := 0

/-- A number in groups of seven bits, the lowest group first. -/
def varint : ℕ → ℕ → Bytes
  | 0, _ => []
  | k + 1, n =>
      if n < 128 then [UInt8.ofNat n] else UInt8.ofNat (n % 128 + 128) :: varint k (n / 128)

/-- A field with its default value is not written. -/
def uintField (tag : UInt8) (v : UInt32) : Bytes :=
  if v = 0 then [] else tag :: varint 5 v.toNat

def stringField (tag : UInt8) (str : Bytes) : Bytes :=
  if str.isEmpty then [] else tag :: (varint 5 str.length ++ str)

/-- `AuthAct` with one character and `ClientVersion` 1. -/
def bodyOf (c : UInt8) : Bytes := [10, 1, c, 32, 1]

/-- The protobuf library, for small runs: a request is empty or has a `bodyOf`. -/
def plainProto : LoginProto where
  parseLoginReq
    | [] => some (plainReq [])
    | [10, 1, c, 32, 1] => some (plainReq [c])
    | _ => none
  parseLogoff
    | [] => some []
    | 10 :: n :: ptid => if ptid.length = n.toNat then some ptid else none
    | _ => none
  serializeLoginAck ack := uintField 8 ack.result ++ (stringField 18 ack.ptid ++
    (uintField 24 ack.wplattype ++ (stringField 34 ack.abydatainfo ++ uintField 40 ack.error)))
  serializeKickoff := stringField 10

/-- A local test in which the AP is not asked. -/
def localTest : Config := ⟨true, true, 1⟩

def midnight : Clock := ⟨0, 0⟩

/-- A login request arrives at the session 1 and is handled. -/
def request (body : Bytes) : List LoginEvent :=
  [.recvData 1 (encodeInnerMsg (GG_LS_Login_REQ, 5, body)), .processMsg midnight]

theorem accounts_consistent_twice : ∃ s, (loginMachine plainProto localTest).run
    (.addSession 1 :: (request (bodyOf 65) ++ request (bodyOf 65))) = some s ∧
    (requests s.history).length = 2 ∧ s.playerMap_ 1 = none ∧ s.playerMap_ 2 = some 1 ∧
    s.pTIDMap_ [48, 95, 48, 95, 65] = some 2 ∧ Consistent s := by
  obtain ⟨s, h⟩ : ∃ s, (loginMachine plainProto localTest).run
      (.addSession 1 :: (request (bodyOf 65) ++ request (bodyOf 65))) = some s :=
    Option.isSome_iff_exists.mp (by decide +kernel)
  have hobs : ((loginMachine plainProto localTest).run
      (.addSession 1 :: (request (bodyOf 65) ++ request (bodyOf 65)))).map (fun s =>
        ((requests s.history).length, s.playerMap_ 1, s.playerMap_ 2,
          s.pTIDMap_ [48, 95, 48, 95, 65])) = some (2, none, some 1, some 2) := by
    decide +kernel
  rw [h] at hobs
  obtain ⟨hn, h1, h2, h3⟩ := by simpa using hobs
  exact ⟨s, h, hn, h1, h2, h3, accounts_consistent _ _ _ s h (by rw [hn]; decide)⟩

/-! ### After `2^64` requests -/

theorem exec_request {body : Bytes} (hlen : body.length ≤ 2 ^ 31 - 1)
    (halive : s.crashed = false) (hidle : s.message_list_ = []) :
    (loginMachine plainProto localTest).exec (request body) s =
      some (({ s with message_list_ := [], handling := 5 } : LoginServer).recvGgLoginReq plainProto
        localTest (plainProto.parseLoginReq body) 1 5 midnight) := by
  simp [request, Machine.exec, loginMachine, LoginServer.step, halive, hidle,
    onRecvData_request 1 5 hlen, LoginServer.pushMsg, LoginServer.processMsg]

/-- `0_0_A`. -/
def accountA : Bytes := [48, 95, 48, 95, 65]

/-- The first player holds `accountA` under the id 1, and `k` requests of old clients came later. -/
structure Parked (k : ℕ) (s : LoginServer) : Prop where
  alive : s.crashed = false
  idle : s.message_list_ = []
  idx : s.player_idx_ = UInt64.ofNat (1 + k)
  made : 0 < s.made
  file : s.playerMap_ = Table.empty.set 1 0
  accounts : s.pTIDMap_ = Table.empty.set accountA 1
  player : (s.players 0).szPTID_ = accountA

/-- The request of an old client takes an id and leaves everything else as it was. -/
theorem parked_old {k : ℕ} (hk : k < 2 ^ 64 - 1) (h : Parked k s) :
    ∃ s', (loginMachine plainProto localTest).exec (request []) s = some s' ∧ Parked (k + 1) s' := by
  refine ⟨_, exec_request (by decide) h.alive h.idle, ?_⟩
  have hidx : s.player_idx_ + 1 = UInt64.ofNat (1 + (k + 1)) := by
    rw [h.idx]
    apply UInt64.toNat_inj.mp
    simp [UInt64.toNat_add]
    omega
  have hid : s.player_idx_ + 1 ≠ 1 := by
    rw [hidx]
    intro e
    have := congrArg UInt64.toNat e
    simp at this
    omega
  have hfree : s.playerMap_ (s.player_idx_ + 1) = none := by
    rw [h.file, Table.set_of_ne hid]
    rfl
  set s₁ : LoginServer := { s with message_list_ := [], handling := 5 } with hs₁
  -- the new player has no account, so that only its own entry is erased
  have hnew : (s₁.accept 1 5).players s.made =
      Player.setOrigin 1 5 (Player.new (s.player_idx_ + 1)) := by
    simp [hs₁, LoginServer.accept, LoginServer.log, LoginServer.fetchPlayer]
  have hresult : s₁.recvGgLoginReq plainProto localTest (plainProto.parseLoginReq []) 1 5 midnight =
      ((s₁.accept 1 5).send s.made LS_GG_Login_ACK (plainProto.serializeLoginAck
        { result := PROTO_FAILURE, error := LSERR_Old_Client })).notifyOwnerDestroy s.made := by
    rw [← LoginServer.changeState_logout]
    rfl
  have hown : ((s₁.accept 1 5).players s.made).fsm_.owner_ = true := by
    rw [hnew]
    rfl
  rw [hresult, LoginServer.send_eq, LoginServer.notifyOwnerDestroy, if_pos hown]
  constructor
  · exact h.alive
  · rfl
  · exact hidx
  · exact Nat.lt_succ_of_lt h.made
  · show (s.playerMap_.emplace (s.player_idx_ + 1) s.made).erase ((s₁.accept 1 5).players s.made).id_ =
      Table.empty.set 1 0
    rw [hnew, Table.emplace_of_none hfree, ← h.file]
    exact Table.erase_set_of_none hfree
  · show s.pTIDMap_.erase ((s₁.accept 1 5).players s.made).szPTID_ = _
    rw [hnew, ← h.accounts]
    apply Table.erase_of_none
    rw [h.accounts]
    rfl
  · have hne : 0 ≠ s.made := Nat.ne_of_lt h.made
    rw [LoginServer.updatePlayer_of_ne hne]
    show ((s₁.accept 1 5).players 0).szPTID_ = accountA
    rw [LoginServer.accept, LoginServer.updatePlayer_of_ne hne, ← h.player]
    simp [hs₁, LoginServer.log, LoginServer.fetchPlayer, hne]

/-- `0_0_B`. -/
def accountB : Bytes := [48, 95, 48, 95, 66]

/-- When the counter has come round, the next player gets the id 1 and no place on the file, and
registers its account for the player that has the id already. -/
theorem parked_not_consistent (h : Parked (2 ^ 64 - 1) s) :
    ∃ s', (loginMachine plainProto localTest).exec (request (bodyOf 66)) s = some s' ∧ ¬ Consistent s' := by
  refine ⟨_, exec_request (by decide) h.alive h.idle, ?_⟩
  set s₁ : LoginServer := { s with message_list_ := [], handling := 5 } with hs₁
  have hidx : s.player_idx_ + 1 = 1 := by
    rw [h.idx]
    rfl
  set s₃ := (s₁.accept 1 5).updatePlayer s.made (Player.initLoginData (plainReq [66]) 5) with hs₃
  have hnew : s₃.players s.made =
      Player.initLoginData (plainReq [66]) 5 (Player.setOrigin 1 5 (Player.new (s.player_idx_ + 1))) := by
    simp [hs₃, hs₁, LoginServer.accept, LoginServer.log, LoginServer.fetchPlayer]
  have hlog : (s₃.players s.made).fsm_.current_state_ = .login := by
    rw [hnew]
    rfl
  have hfreeB : s.pTIDMap_ accountB = none := by
    rw [h.accounts]
    rfl
  have hkick : s₃.kickOffPlayer plainProto accountB = s₃ := by
    have hnone : s₃.pTIDMap_ accountB = none := hfreeB
    simp [LoginServer.kickOffPlayer, hnone]
  have hresult : s₁.recvGgLoginReq plainProto localTest (plainProto.parseLoginReq (bodyOf 66)) 1 5
      midnight = (s₃.setPTID s.made accountB).sendGateLoginSucc plainProto s.made := by
    show s₃.onEvent plainProto localTest s.made (.gate GG_LS_Login_REQ) midnight = _
    unfold LoginServer.onEvent
    rw [hlog]
    show (s₃.localTestLogin plainProto localTest s.made) = _
    unfold LoginServer.localTestLogin
    rw [hnew]
    show ((s₃.kickOffPlayer plainProto accountB).setPTID s.made accountB).sendGateLoginSucc _ _ = _
    rw [hkick]
  rw [hresult, LoginServer.setPTID_sendGateLoginSucc plainProto hlog]
  intro hcons
  have hreg : (s.pTIDMap_.emplace accountB (s₃.players s.made).id_) accountB = some 1 := by
    rw [Table.emplace_of_none hfreeB, hnew, Table.set_self]
    exact congrArg some hidx
  obtain ⟨p, hp, hpt, -⟩ := hcons.registered accountB 1 hreg
  have hfile : (s.playerMap_.emplace (s.player_idx_ + 1) s.made) 1 = some 0 := by
    rw [hidx, h.file]
    rfl
  obtain rfl : 0 = p := Option.some.inj (hfile.symm.trans hp)
  -- the player on file still has its own account
  have hne : 0 ≠ s.made := Nat.ne_of_lt h.made
  have hold : s₃.players 0 = s.players 0 := by
    rw [hs₃, LoginServer.updatePlayer_of_ne hne, LoginServer.accept,
      LoginServer.updatePlayer_of_ne hne]
    simp [hs₁, LoginServer.log, LoginServer.fetchPlayer, hne]
  simp only [Function.update_of_ne hne, hold, h.player] at hpt
  cases hpt

/-- One player logs in, `2^64 - 1` old clients are turned away, and another player logs in. -/
def wrappedRun : List LoginEvent :=
  (.addSession 1 :: request (bodyOf 65)) ++
    ((List.replicate (2 ^ 64 - 1) (request [])).flatten ++ request (bodyOf 66))

theorem wrapped_not_consistent : ∃ s, (loginMachine plainProto localTest).run wrappedRun = some s ∧
    ¬ Consistent s := by
  set M := loginMachine plainProto localTest with hM
  obtain ⟨s₀, h₀⟩ : ∃ s₀, M.exec (.addSession 1 :: request (bodyOf 65)) M.init = some s₀ :=
    ⟨_, rfl⟩
  have hpark : Parked 0 s₀ := by
    obtain rfl := Option.some.inj h₀
    exact ⟨rfl, rfl, rfl, Nat.zero_lt_one, rfl, rfl, rfl⟩
  obtain ⟨s₁, h₁, hpark₁⟩ := M.exec_repeat (P := Parked)
    (fun k s hk h => parked_old hk h) hpark
  obtain ⟨s₂, h₂, hnot⟩ := parked_not_consistent hpark₁
  refine ⟨s₂, ?_, hnot⟩
  rw [Machine.run, wrappedRun, Machine.exec_append, h₀, Option.bind_some, Machine.exec_append, h₁,
    Option.bind_some, h₂]

/-! ### Answers -/

/-- Every request has one player and at most one answer, and every answer belongs to a request and
goes to the session that the request came from. -/
structure AnsweredOnce (h : List LoginAct) : Prop where
  nodup : (requests h).Nodup
  once : ∀ p, acks p h ≤ 1
  home : ∀ c fd msg, .sent c fd LS_GG_Login_ACK msg ∈ h → ∃ p t, c = some p ∧ .accepted p fd t ∈ h

/-- What a result of the AP for the player `p` does: no other player is answered, and none other
than the holder of the account changes its state or its place on the file.  The holder changes only
by being kicked off. -/
structure OnlyFor (p : ℕ) (s s' : LoginServer) : Prop where
  others : ∀ q, q ≠ p → s.holder (s.players p).szPTID ≠ some q →
    s'.players q = s.players q ∧ ∀ id, s'.playerMap_ id = some q ↔ s.playerMap_ id = some q
  holder : ∀ q, q ≠ p → s'.players q = s.players q ∨ ∀ id, s'.playerMap_ id ≠ some q
  answers : ∀ q, q ≠ p → acks q s'.history = acks q s.history

theorem answeredOnce_of_run (h : (loginMachine P cfg).run es = some s) (hw : s.made < 2 ^ 64) :
    AnsweredOnce s.history := by
  have ho := origins_of_run h
  constructor
  · rw [ho.requests]
    exact List.nodup_range
  · exact (sound_of_run h hw).budget.once
  · intro c fd msg hm
    obtain ⟨p, hc, hlt, hfd, -⟩ := ho.sent c fd _ msg hm
    have hp : p ∈ requests s.history := by
      rw [ho.requests]
      exact List.mem_range.mpr hlt
    obtain ⟨a, ha, hpa⟩ := List.mem_filterMap.mp hp
    cases a with
    | accepted q fd' t =>
        obtain rfl := Option.some.inj hpa
        rw [(ho.accepted q fd' t ha).1] at hfd
        exact ⟨q, t, hc, hfd ▸ ha⟩
    | sent _ _ _ _ => cases hpa
    | built _ _ => cases hpa
    | heartbeat _ _ => cases hpa

theorem OnlyFor.refl (p : ℕ) (s : LoginServer) : OnlyFor p s s where
  others _ _ _ := ⟨rfl, fun _ => Iff.rfl⟩
  holder _ _ := Or.inl rfl
  answers _ _ := rfl

/-- Acting for a player and the holder of its account. -/
theorem OnlyFor.of_acts (h : Indices s) {p : ℕ} (hp : p < s.made)
    (ha : Acts p (Acts.Holder s p) s s') : OnlyFor p s s' := by
  constructor
  · intro q hq hno
    refine ⟨ha.others q hq hno, fun id => ⟨ha.filed id q, fun hfile => ?_⟩⟩
    obtain ⟨hlt, hid, -⟩ := h.filed id q hfile
    obtain e | rfl | ⟨k, hk, rfl⟩ := ha.kept id
    · rw [e]
      exact hfile
    · exact absurd (h.id_inj hlt hp hid) hq
    · obtain ⟨id', hk'⟩ := Acts.onFile_of_holder hk
      obtain rfl := h.id_inj hlt (h.filed id' k hk').1 hid
      exact absurd hk hno
  · intro q hq
    refine (ha.gone q hq).imp_right fun hnone id hfile => ?_
    rw [(h.filed id q (ha.filed id q hfile)).2.1, hfile] at hnone
    cases hnone
  · intro q hq
    exact ha.acks_eq hq

/-- The handle of the AP's data leads back to the player that it was made of. -/
theorem onlyFor_processApMsg (h : Indices s) (ho : Origins s) {p : ℕ} {auth auth₀ : AuthInfo}
    (hb : .built p auth₀ ∈ s.history)
    (hval : auth.getVal .gl_csHandle = auth₀.getVal .gl_csHandle) {m : APMsg}
    (hm : m.authInfo = some auth) (rest : List APMsg) (clock : Clock) :
    OnlyFor p s (({ s with apg_list_ := rest } : LoginServer).processApMsg P cfg m clock) := by
  obtain ⟨hp, hhandle⟩ := ho.built p auth₀ hb
  have hid : strtoull (auth.getVal .gl_csHandle) = (s.players p).id_ := by
    rw [hval, hhandle, strtoull_decimal]
  obtain ⟨l, e | ⟨auth', q, event, hm', hq, hev, e⟩⟩ :=
    processApMsg_cases P cfg clock { s with apg_list_ := rest } m
  · rw [e]
    obtain ⟨h₁, h₂, h₃⟩ := OnlyFor.refl p s
    exact ⟨h₁, h₂, h₃⟩
  · obtain rfl : auth = auth' := Option.some.inj (hm.symm.trans hm')
    rw [hid] at hq
    obtain ⟨hlt, hqid, -⟩ := h.filed _ q hq
    obtain rfl := h.id_inj hlt hp hqid
    have hl : Indices { s with apg_list_ := l } := h.of_eq rfl rfl rfl rfl rfl rfl
    have hacts : Acts q (Acts.Holder { s with apg_list_ := l } q) { s with apg_list_ := l }
        (({ s with apg_list_ := l } : LoginServer).onEvent P cfg q event clock) := by
      obtain rfl | ⟨error, rfl⟩ := hev
      · exact Acts.apSucc P cfg auth clock
      · exact Acts.apError P cfg auth error clock
    obtain ⟨h₁, h₂, h₃⟩ := OnlyFor.of_acts hl hp hacts
    rw [e]
    exact ⟨h₁, h₂, h₃⟩

/-- **A request is answered at most once and only by its own authentication**, as long as player ids
do not come round. -/
theorem login_answered_once (P : LoginProto) (cfg : Config) (es : List LoginEvent) (s : LoginServer)
    (h : (loginMachine P cfg).run es = some s) (hw : (requests s.history).length < 2 ^ 64) :
    AnsweredOnce s.history ∧
    ∀ clock s' m rest auth auth₀ p,
      (loginMachine P cfg).step s (.processApMsg clock) = some s' → s.apg_list_ = m :: rest →
      m.authInfo = some auth → .built p auth₀ ∈ s.history →
      auth.getVal .gl_csHandle = auth₀.getVal .gl_csHandle → OnlyFor p s s' := by
  rw [length_requests h] at hw
  refine ⟨answeredOnce_of_run h hw, ?_⟩
  intro clock s' m rest auth auth₀ p hs hlist hm hb hval
  obtain ⟨m', rest', hlist', rfl⟩ := step_processApMsg hs
  obtain ⟨rfl, rfl⟩ := List.cons.inj (hlist.symm.trans hlist')
  exact onlyFor_processApMsg (sound_of_run h hw).idx (origins_of_run h) hb hval hm rest clock

/-- The AP is asked, and every client is new enough. -/
def withAP : Config := ⟨false, false, 0⟩

/-- What the AP is given for the player of a request, with the ids that it got. -/
def authFor (id : PlayerID) (auth_id : UInt32) : AuthInfo :=
  LoginServer.makeAuth (Player.initLoginData (plainReq []) 5 (Player.setOrigin 1 5 (Player.new id)))
    auth_id midnight

/-- Two requests for one account; the AP confirms the first one, and its answer for the second one
is in the queue. -/
def twoLogins : List LoginEvent :=
  .addSession 1 :: (request [] ++ (request [] ++
    [.operateResult (some (authFor 1 0)) .authen_ap .success 0 0, .processApMsg midnight,
      .operateResult (some (authFor 2 1)) .authen_ap .success 0 0]))

theorem login_answered_twoLogins : ∃ s s', (loginMachine plainProto withAP).run twoLogins = some s ∧
    (loginMachine plainProto withAP).step s (.processApMsg midnight) = some s' ∧
    s.holder [48, 95, 48, 95] = some 0 ∧ s'.holder [48, 95, 48, 95] = some 1 ∧
    acks 0 s'.history = 1 ∧ acks 1 s'.history = 1 ∧ AnsweredOnce s.history ∧ OnlyFor 1 s s' := by
  obtain ⟨s, h⟩ : ∃ s, (loginMachine plainProto withAP).run twoLogins = some s :=
    Option.isSome_iff_exists.mp (by decide +kernel)
  have hobs : ((loginMachine plainProto withAP).run twoLogins).map (fun s =>
      ((requests s.history).length, s.holder [48, 95, 48, 95], s.apg_list_,
        decide (.built 1 (authFor 2 1) ∈ s.history))) =
      some (2, some 0, [⟨some (authFor 2 1), 0, .authen_ap, .success, 0⟩], true) := by
    decide +kernel
  obtain ⟨s', h'⟩ : ∃ s', (loginMachine plainProto withAP).run
      (twoLogins ++ [.processApMsg midnight]) = some s' :=
    Option.isSome_iff_exists.mp (by decide +kernel)
  have hobs' : ((loginMachine plainProto withAP).run (twoLogins ++ [.processApMsg midnight])).map
      (fun s => (s.holder [48, 95, 48, 95], acks 0 s.history, acks 1 s.history)) =
      some (some 1, 1, 1) := by
    decide +kernel
  rw [h] at hobs
  rw [h'] at hobs'
  simp only [Option.map_some, Option.some.injEq, Prod.mk.injEq, decide_eq_true_eq] at hobs hobs'
  obtain ⟨hn, hhold, hlist, hbuilt⟩ := hobs
  obtain ⟨s₁, h₁, hstep⟩ := Machine.run_snoc_eq_some _ h'
  obtain rfl : s = s₁ := Option.some.inj (h.symm.trans h₁)
  obtain ⟨honce, honly⟩ := login_answered_once plainProto withAP twoLogins s h (by rw [hn]; decide)
  exact ⟨s, s', h, hstep, hhold, hobs'.1, hobs'.2.1, hobs'.2.2, honce,
    honly midnight s' _ [] _ (authFor 2 1) 1 hstep hlist rfl hbuilt rfl⟩

end BlackSwan.Login
