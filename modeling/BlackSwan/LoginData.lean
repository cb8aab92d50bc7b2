import BlackSwan.LoginAccounts
import BlackSwan.Separators

/-! # The login data of a player and its PTID

`RecvGgLoginReq` copies the data of a request into the new player, narrowing the types on the way, and
a successful login prints three of them into a buffer of 64 characters: the area group as a signed
number, the AP type in 16 bits, and the account up to its first zero byte.  The PTID is what the
player is registered under, and what decides who is kicked off.

* `ptid_eq_iff` says which requests get the same PTID.
* After the request nothing changes the data of a player, apart from what the login itself writes
  (`Keeps`), so in every reachable state they are what the request and `checkApLoginData` made them
  (`DataInv`). -/

namespace BlackSwan.Login

open Wire Runs Tables
open GateState (cString)
open Texts (eq_of_append_cons)

/-! ### PTIDs -/

/-- What a PTID is for: the area group, the AP type and the account of a request. -/
def LoginReq.account (req : LoginReq) : UInt32 × UInt32 × Bytes :=
  (req.areagroup, req.aptype, req.authact)

/-- The part of the PTID before the account. -/
def LoginReq.ptidHead (req : LoginReq) : Bytes :=
  decimalInt req.areagroup.toInt32.toInt ++ 95 :: (decimal req.aptype.toUInt16.toNat ++ [95])

/-- The PTID of the player of a request. -/
def LoginReq.ptid (req : LoginReq) : Bytes := (req.ptidHead ++ cString req.authact).take 63

/-- Two requests whose PTIDs can be told apart: the area groups differ, or the AP types differ in 16
bits, or the accounts differ before their first zero byte and before the end of the buffer. -/
def Distinguished (req req' : LoginReq) : Prop :=
  req.areagroup ≠ req'.areagroup ∨ req.aptype.toUInt16 ≠ req'.aptype.toUInt16 ∨
    (cString req.authact).take (63 - req.ptidHead.length) ≠
      (cString req'.authact).take (63 - req.ptidHead.length)

theorem length_ptidHead_le (req : LoginReq) : req.ptidHead.length ≤ 18 := by
  have harea := Int32.le_toInt req.areagroup.toInt32
  have harea' := Int32.toInt_lt req.areagroup.toInt32
  have hap := req.aptype.toUInt16.toNat_lt
  have h₁ := length_decimalInt_le (z := req.areagroup.toInt32.toInt) (k := 10) (by decide) (by omega)
  have h₂ := length_decimal_le (n := req.aptype.toUInt16.toNat) (k := 5) (by decide) (by omega)
  rw [LoginReq.ptidHead, List.length_append, List.length_cons, List.length_append,
    List.length_singleton]
  omega

theorem ptid_eq_append (req : LoginReq) :
    req.ptid = req.ptidHead ++ (cString req.authact).take (63 - req.ptidHead.length) := by
  have hlen := length_ptidHead_le req
  rw [LoginReq.ptid, List.take_append, List.take_of_length_le (by omega)]

/-- The head of a PTID and the account can be read back. -/
theorem ptidHead_append_inj {req req' : LoginReq} {x x' : Bytes}
    (h : req.ptidHead ++ x = req'.ptidHead ++ x') :
    req.areagroup = req'.areagroup ∧ req.aptype.toUInt16 = req'.aptype.toUInt16 ∧ x = x' := by
  simp only [LoginReq.ptidHead, List.append_assoc, List.cons_append, List.nil_append] at h
  obtain ⟨harea, h⟩ := eq_of_append_cons (not_mem_decimalInt (by decide) (by decide) _)
    (not_mem_decimalInt (by decide) (by decide) _) h
  obtain ⟨hap, hx⟩ := eq_of_append_cons (not_mem_decimal (by decide) _)
    (not_mem_decimal (by decide) _) h
  have harea := congrArg Int32.toUInt32 (Int32.toInt_inj.mp (decimalInt_injective harea))
  exact ⟨by simpa using harea, UInt16.toNat_inj.mp (decimal_injective hap), hx⟩

/-- **Which requests share a PTID.** -/
theorem ptid_eq_iff (req req' : LoginReq) : req.ptid = req'.ptid ↔ ¬ Distinguished req req' := by
  rw [ptid_eq_append, ptid_eq_append]
  simp only [Distinguished, not_or, not_not]
  constructor
  · intro h
    obtain ⟨harea, hap, hx⟩ := ptidHead_append_inj h
    have hhead : req'.ptidHead = req.ptidHead := by rw [LoginReq.ptidHead, LoginReq.ptidHead, harea, hap]
    rw [hhead] at hx
    exact ⟨harea, hap, hx⟩
  · rintro ⟨harea, hap, hx⟩
    have hhead : req'.ptidHead = req.ptidHead := by rw [LoginReq.ptidHead, LoginReq.ptidHead, harea, hap]
    rw [hhead, hx]

/-! ### The handlers that compute it -/

/-- The player has the data of the request. -/
structure Player.HasData (req : LoginReq) (pl : Player) : Prop where
  area : pl.areaGroup_ = req.areagroup
  ap : pl.apType_ = req.aptype.toUInt16
  account : pl.szAuthenID_ = req.authact

theorem Player.HasData.szPTID {req : LoginReq} {pl : Player} (h : pl.HasData req) :
    pl.szPTID = req.ptid := by
  rw [Player.szPTID, h.area, h.ap, h.account, LoginReq.ptid, LoginReq.ptidHead]
  simp

/-- The PTIDs that are computed for the player of a request: by `HandleAPLoginReq` when the request
comes in, in a local test, and by `HandleAPSuccCallback` for a player with its data. -/
inductive ComputedPTID (P : LoginProto) (cfg : Config) (req : LoginReq) : Bytes → Prop where
  | localTest (s : LoginServer) (fd transID : UInt32) (clock : Clock)
      (hlocal : cfg.isLocalTest_ = true) (hver : ¬ req.clientversion < cfg.clientVersion_.toUInt32) :
      ComputedPTID P cfg req
        ((s.recvGgLoginReq P cfg (some req) fd transID clock).players s.made).szPTID_
  | apSucc (s : LoginServer) (p : ℕ) (hdata : (s.players p).HasData req) :
      ComputedPTID P cfg req ((s.handleAPSuccCallback P p).players p).szPTID_

/-! ### The data of a player stay

`Keeps s s'` says that of every player the data of its request and the id of its `AuthInfo` are the
same in `s'`, that its PTID is as it was or the one made of its data, and that the AP has not been
asked in between. -/

/-- What stays of a player. -/
structure Player.SameData (pl pl' : Player) : Prop where
  id_ : pl'.id_ = pl.id_
  area : pl'.areaGroup_ = pl.areaGroup_
  ap : pl'.apType_ = pl.apType_
  account : pl'.szAuthenID_ = pl.szAuthenID_
  auth : pl'.auth_ID_ = pl.auth_ID_
  ptid : pl'.szPTID_ = pl.szPTID_ ∨ pl'.szPTID_ = pl.szPTID

namespace Player.SameData

variable {pl pl₁ pl' : Player}

theorem refl (pl : Player) : pl.SameData pl := ⟨rfl, rfl, rfl, rfl, rfl, .inl rfl⟩

theorem szPTID (h : pl.SameData pl') : pl'.szPTID = pl.szPTID := by
  rw [Player.szPTID, Player.szPTID, h.area, h.ap, h.account]

theorem trans (h : pl.SameData pl₁) (h' : pl₁.SameData pl') : pl.SameData pl' where
  id_ := h'.id_.trans h.id_
  area := h'.area.trans h.area
  ap := h'.ap.trans h.ap
  account := h'.account.trans h.account
  auth := h'.auth.trans h.auth
  ptid := by
    rcases h'.ptid with e | e
    · rw [e]
      exact h.ptid
    · exact .inr (e.trans h.szPTID)

end Player.SameData

structure Keeps (s s' : LoginServer) : Prop where
  made : s'.made = s.made
  players : ∀ q, (s.players q).SameData (s'.players q)
  built : ∀ q auth, .built q auth ∈ s'.history → .built q auth ∈ s.history

namespace Keeps

variable {s s₁ s' : LoginServer} {p : ℕ}

theorem refl (s : LoginServer) : Keeps s s := ⟨rfl, fun _ => .refl _, fun _ _ h => h⟩

theorem trans (h : Keeps s s₁) (h' : Keeps s₁ s') : Keeps s s' where
  made := h'.made.trans h.made
  players q := (h.players q).trans (h'.players q)
  built q auth hb := h.built q auth (h'.built q auth hb)

theorem update {f : Player → Player} (hf : (s.players p).SameData (f (s.players p)))
    (hm : s'.made = s.made) (hh : s'.history = s.history)
    (hp : s'.players = (s.updatePlayer p f).players) : Keeps s s' where
  made := hm
  players q := by
    rw [hp]
    by_cases hq : q = p
    · rw [hq, LoginServer.updatePlayer_self]
      exact hf
    · rw [LoginServer.updatePlayer_of_ne hq]
      exact .refl _
  built q auth hb := by rwa [hh] at hb

theorem send (p : ℕ) (msgId : UInt32) (body : Bytes) (s : LoginServer) :
    Keeps s (s.send p msgId body) := by
  rw [LoginServer.send_eq]
  refine ⟨rfl, fun _ => .refl _, ?_⟩
  intro q auth hb
  rcases List.mem_append.mp hb with hb | hb
  · exact hb
  · unfold LoginServer.packet at hb
    split at hb
    · cases List.mem_singleton.mp hb
    · cases hb

theorem notifyOwnerDestroy (p : ℕ) (s : LoginServer) : Keeps s (s.notifyOwnerDestroy p) := by
  unfold LoginServer.notifyOwnerDestroy
  split_ifs
  · exact update (p := p) (f := fun pl => { pl with fsm_ := { pl.fsm_ with owner_ := false } })
      ⟨rfl, rfl, rfl, rfl, rfl, .inl rfl⟩ rfl rfl rfl
  · exact ⟨rfl, fun _ => .refl _, fun _ _ hb => hb⟩

theorem setState (p : ℕ) (state : PlayerState) (s : LoginServer) : Keeps s (s.setState p state) := by
  unfold LoginServer.setState
  split_ifs
  · exact refl s
  · exact update (p := p) (f := fun pl => { pl with fsm_ := pl.fsm_.enter state })
      ⟨rfl, rfl, rfl, rfl, rfl, .inl rfl⟩ rfl rfl rfl

theorem steady : Steady Keeps where
  refl := refl
  trans := trans
  send := send
  destroy := notifyOwnerDestroy
  setState := setState

variable (P : LoginProto) (cfg : Config)

/-- The three calls of a successful login, with the PTID that the player has or the one that is made
of its data. -/
theorem login {ptid : Bytes}
    (hptid : ptid = (s.players p).szPTID_ ∨ ptid = (s.players p).szPTID) :
    Keeps s (((s.kickOffPlayer P ptid).setPTID p ptid).sendGateLoginSucc P p) := by
  have hkick := steady.kickOffPlayer P ptid s
  have hset : Keeps s ((s.kickOffPlayer P ptid).setPTID p ptid) := by
    have hpl := hkick.players p
    refine ⟨hkick.made, ?_, hkick.built⟩
    intro q
    show (s.players q).SameData (((s.kickOffPlayer P ptid).updatePlayer p
      fun pl => { pl with szPTID_ := ptid }).players q)
    by_cases hq : q = p
    · rw [hq, LoginServer.updatePlayer_self]
      exact ⟨hpl.id_, hpl.area, hpl.ap, hpl.account, hpl.auth, hptid⟩
    · rw [LoginServer.updatePlayer_of_ne hq]
      exact hkick.players q
  exact hset.trans (steady.sendGateLoginSucc p P _)

theorem localTestLogin (p : ℕ) (s : LoginServer) : Keeps s (s.localTestLogin P cfg p) := by
  unfold LoginServer.localTestLogin
  dsimp only
  split_ifs
  · exact login P (.inl rfl)
  · exact login P (.inr rfl)
  · exact refl s

/-- No event but a login request of a gate asks the AP. -/
theorem onEvent (p : ℕ) {event : FsmEvent} (he : ∀ msgID, event ≠ .gate msgID) (clock : Clock)
    (s : LoginServer) : Keeps s (s.onEvent P cfg p event clock) := by
  apply steady.onEvent_of_login
  unfold LoginServer.loginOnEvent
  split
  · exact steady.sendGateLoginFail p P _ s
  · split_ifs
    · exact refl s
    · exact refl s
    · exact login P (.inr rfl)
  · rename_i msgID
    exact absurd rfl (he msgID)
  · exact refl s

end Keeps

/-! ### The PTID of a request -/

section ComputedPTID

variable {P : LoginProto} {cfg : Config} {req : LoginReq}

theorem szPTID_changeState_online (s : LoginServer) (p : ℕ) :
    ((s.changeState p .EFST_Online).players p).szPTID_ = (s.players p).szPTID_ := by
  unfold LoginServer.changeState
  rw [if_neg (by decide)]
  split_ifs
  · rfl
  · simp [LoginServer.setState, getFsmStateType]

/-- After the three calls of a login the player has the PTID. -/
theorem szPTID_login (s : LoginServer) (p : ℕ) (ptid : Bytes) :
    ((((s.kickOffPlayer P ptid).setPTID p ptid).sendGateLoginSucc P p).players p).szPTID_ = ptid := by
  rw [LoginServer.sendGateLoginSucc, szPTID_changeState_online, LoginServer.send_eq]
  simp [LoginServer.setPTID]

/-- The player of a request when the request is handed to its state machine. -/
def LoginServer.received (req : LoginReq) (fd transID : UInt32) (s : LoginServer) : LoginServer :=
  (s.accept fd transID).updatePlayer s.made (Player.initLoginData req transID.toUInt64)

theorem players_received (req : LoginReq) (fd transID : UInt32) (s : LoginServer) :
    (s.received req fd transID).players s.made =
      Player.initLoginData req transID.toUInt64
        (Player.setOrigin fd transID.toUInt64 (Player.new (s.player_idx_ + 1))) := by
  simp [LoginServer.received, LoginServer.accept, LoginServer.fetchPlayer, LoginServer.log]

theorem hasData_received (req : LoginReq) (fd transID : UInt32) (s : LoginServer) :
    ((s.received req fd transID).players s.made).HasData req := by
  rw [players_received]
  exact ⟨rfl, rfl, rfl⟩

/-- A request with a version that is new enough goes to `HandleAPLoginReq`. -/
theorem recvGgLoginReq_eq (P : LoginProto) (hver : ¬ req.clientversion < cfg.clientVersion_.toUInt32)
    (fd transID : UInt32) (clock : Clock) (s : LoginServer) :
    s.recvGgLoginReq P cfg (some req) fd transID clock =
      (s.received req fd transID).handleAPLoginReq P cfg s.made clock := by
  have hstate : ((s.received req fd transID).players s.made).fsm_.current_state_ = .login := by
    rw [players_received]
    rfl
  rw [LoginServer.recvGgLoginReq_some, if_neg hver, ← LoginServer.received, LoginServer.onEvent,
    if_neg (by decide), hstate, LoginServer.visit, LoginServer.loginOnEvent]
  exact if_pos rfl

theorem szPTID_handleAPLoginReq (hlocal : cfg.isLocalTest_ = true) {s : LoginServer} {p : ℕ}
    (hnew : (s.players p).szPTID_ = []) (clock : Clock) :
    ((s.handleAPLoginReq P cfg p clock).players p).szPTID_ = (s.players p).szPTID := by
  have hloc : ((s.localTestLogin P cfg p).players p).szPTID_ = (s.players p).szPTID := by
    simp only [LoginServer.localTestLogin, hlocal, if_true, hnew, List.not_mem_nil, if_false]
    exact szPTID_login s p _
  unfold LoginServer.handleAPLoginReq
  dsimp only
  split_ifs
  · exact hloc
  · simpa [LoginServer.checkApLoginData, LoginServer.log] using hloc

theorem computedPTID_eq {ptid : Bytes} (h : ComputedPTID P cfg req ptid) : ptid = req.ptid := by
  cases h with
  | apSucc s p hdata => rw [LoginServer.handleAPSuccCallback, szPTID_login, hdata.szPTID]
  | localTest s fd transID clock hlocal hver =>
      have hnew : ((s.received req fd transID).players s.made).szPTID_ = [] := by
        rw [players_received]
        rfl
      rw [recvGgLoginReq_eq P hver, szPTID_handleAPLoginReq hlocal hnew,
        (hasData_received req fd transID s).szPTID]

end ComputedPTID

/-! ### In every reachable state -/

/-- What is known of the data of the players: an `AuthInfo` that was built for a player has its id and
no account, and the player has the id of the `AuthInfo`; a PTID is made of the data of its player. -/
structure DataInv (s : LoginServer) : Prop where
  built : ∀ p auth, .built p auth ∈ s.history → p < s.made ∧
    auth.getVal .gl_csHandle = decimal (s.players p).id_.toNat ∧ auth.getVal .gl_csAuthenID = [] ∧
    (s.players p).auth_ID_ = auth.auth_id_
  ptid : ∀ p, (s.players p).szPTID_ = [] ∨ (s.players p).szPTID_ = (s.players p).szPTID

namespace DataInv

variable {s s' : LoginServer} {p : ℕ}

theorem keeps (h : DataInv s) (hk : Keeps s s') : DataInv s' where
  built q auth hb := by
    obtain ⟨hlt, hhandle, haccount, hauth⟩ := h.built q auth (hk.built q auth hb)
    have hq := hk.players q
    exact ⟨hk.made ▸ hlt, hq.id_ ▸ hhandle, haccount, hq.auth.trans hauth⟩
  ptid q := by
    have hq := hk.players q
    rw [hq.szPTID]
    rcases hq.ptid with e | e
    · rw [e]
      exact h.ptid q
    · exact .inr e

theorem calm (h : DataInv s) (hc : Calm s s') : DataInv s' := by
  refine h.keeps ⟨hc.made, fun q => by rw [hc.players]; exact .refl _, ?_⟩
  obtain ⟨l, hl, hpong⟩ := hc.entries
  intro q auth hb
  rw [hl] at hb
  rcases List.mem_append.mp hb with hb | hb
  · exact hb
  · obtain ⟨fd, msg, e⟩ := hpong _ hb
    cases e

/-- The player of a new request, for which the AP has not been asked yet. -/
theorem accept (h : DataInv s) {f : Player → Player}
    (hf : ∀ pl, pl.szPTID_ = [] → (f pl).szPTID_ = []) (fd transID : UInt32) :
    DataInv ((s.accept fd transID).updatePlayer s.made f) ∧
      ∀ auth, .built s.made auth ∉ ((s.accept fd transID).updatePlayer s.made f).history := by
  have hold (q : ℕ) (hq : q ≠ s.made) :
      ((s.accept fd transID).updatePlayer s.made f).players q = s.players q := by
    rw [LoginServer.updatePlayer_of_ne hq, LoginServer.accept, LoginServer.updatePlayer_of_ne hq]
    simp [LoginServer.log, LoginServer.fetchPlayer, hq]
  have hmem (q : ℕ) (auth : AuthInfo)
      (hb : .built q auth ∈ ((s.accept fd transID).updatePlayer s.made f).history) :
      .built q auth ∈ s.history := by
    rcases List.mem_append.mp hb with hb | hb
    · exact hb
    · cases List.mem_singleton.mp hb
  refine ⟨⟨?_, ?_⟩, ?_⟩
  · intro q auth hb
    obtain ⟨hlt, hrest⟩ := h.built q auth (hmem q auth hb)
    rw [hold q hlt.ne]
    exact ⟨Nat.lt_succ_of_lt hlt, hrest⟩
  · intro q
    by_cases hq : q = s.made
    · rw [hq, LoginServer.updatePlayer_self]
      refine .inl (hf _ ?_)
      simp [LoginServer.accept, LoginServer.log, LoginServer.fetchPlayer, Player.setOrigin, Player.new]
    · rw [hold q hq]
      exact h.ptid q
  · intro auth hb
    exact Nat.lt_irrefl _ (h.built s.made auth (hmem _ auth hb)).1

theorem checkApLoginData (h : DataInv s) (hp : p < s.made)
    (hnew : ∀ auth, .built p auth ∉ s.history) (clock : Clock) :
    DataInv (s.checkApLoginData p clock) := by
  have hself : (s.checkApLoginData p clock).players p =
      { s.players p with auth_ID_ := s.start_id } := by
    simp [LoginServer.checkApLoginData, LoginServer.log]
    rfl
  have hother (q : ℕ) (hq : q ≠ p) : (s.checkApLoginData p clock).players q = s.players q := by
    simp [LoginServer.checkApLoginData, LoginServer.log, LoginServer.updatePlayer, hq]
  constructor
  · intro q auth hb
    rcases List.mem_append.mp hb with hb | hb
    · have hne : q ≠ p := by
        rintro rfl
        exact hnew auth hb
      rw [hother q hne]
      exact h.built q auth hb
    · obtain ⟨rfl, rfl⟩ := LoginAct.built.inj (List.mem_singleton.mp hb)
      rw [hself]
      exact ⟨hp, rfl, rfl, rfl⟩
  · intro q
    by_cases hq : q = p
    · rw [hq, hself]
      exact h.ptid p
    · rw [hother q hq]
      exact h.ptid q

variable (P : LoginProto) (cfg : Config)

theorem handleAPLoginReq (h : DataInv s) (hp : p < s.made)
    (hnew : ∀ auth, .built p auth ∉ s.history) (clock : Clock) :
    DataInv (s.handleAPLoginReq P cfg p clock) := by
  have hk := Keeps.localTestLogin P cfg p s
  unfold LoginServer.handleAPLoginReq
  dsimp only
  split_ifs
  · exact h.keeps hk
  · exact (h.keeps hk).checkApLoginData (hk.made ▸ hp) (fun auth hb => hnew auth (hk.built p auth hb))
      clock

theorem recvGgLoginReq (h : DataInv s) (req : LoginReq) (fd transID : UInt32) (clock : Clock) :
    DataInv (s.recvGgLoginReq P cfg (some req) fd transID clock) := by
  by_cases hver : req.clientversion < cfg.clientVersion_.toUInt32
  · have hacc := (h.accept (f := fun pl => pl) (fun _ e => e) fd transID).1
    have hsame : (s.accept fd transID).updatePlayer s.made (fun pl => pl) = s.accept fd transID := by
      simp [LoginServer.updatePlayer]
    rw [hsame] at hacc
    rw [LoginServer.recvGgLoginReq_some, if_pos hver]
    exact hacc.keeps (Keeps.steady.sendGateLoginFail _ P _ _)
  · obtain ⟨hrec, hnew⟩ :=
      h.accept (f := Player.initLoginData req transID.toUInt64) (fun _ e => e) fd transID
    rw [recvGgLoginReq_eq P hver]
    exact hrec.handleAPLoginReq P cfg (Nat.lt_succ_self s.made) hnew clock

theorem processMsg (h : DataInv s) (m : MessageParam) (clock : Clock) :
    DataInv (s.processMsg P cfg m clock) := by
  have h₁ : DataInv { s with handling := m.transID } := ⟨h.built, h.ptid⟩
  obtain e | ⟨req, e⟩ | ⟨id, p, -, e⟩ := processMsg_cases P cfg clock s m
  · rw [e]
    exact h₁
  · rw [e]
    exact h₁.recvGgLoginReq P cfg req _ _ clock
  · rw [e]
    exact h₁.keeps (Keeps.onEvent P cfg p (by simp) clock _)

theorem processApMsg (h : DataInv s) (m : APMsg) (clock : Clock) :
    DataInv (s.processApMsg P cfg m clock) := by
  obtain ⟨l, e | ⟨auth, p, event, -, -, hev, e⟩⟩ := processApMsg_cases P cfg clock s m
  · rw [e]
    exact h.calm (calm_setApgList s l)
  · have hgate : ∀ msgID, event ≠ .gate msgID := by
      rcases hev with rfl | ⟨error, rfl⟩ <;> simp
    rw [e]
    exact (h.calm (calm_setApgList s l)).keeps (Keeps.onEvent P cfg p hgate clock _)

end DataInv

section

variable {P : LoginProto} {cfg : Config} {s s' : LoginServer} {e : LoginEvent}

theorem DataInv.step (h : DataInv s) (hs : LoginServer.step P cfg s e = some s') : DataInv s' := by
  cases e with
  | processMsg clock =>
      obtain ⟨m, s₁, hc, rfl⟩ := step_processMsg hs
      exact (h.calm hc).processMsg P cfg m clock
  | processApMsg clock =>
      obtain ⟨m, rest, -, rfl⟩ := step_processApMsg hs
      exact (h.calm (calm_setApgList s rest)).processApMsg P cfg m clock
  | addSession _ => exact h.calm (step_calm hs (by simp))
  | delSession _ => exact h.calm (step_calm hs (by simp))
  | ping _ => exact h.calm (step_calm hs (by simp))
  | recvData _ _ => exact h.calm (step_calm hs (by simp))
  | operateResult _ _ _ _ _ => exact h.calm (step_calm hs (by simp))

theorem dataInv_of_run {es : List LoginEvent} (h : (loginMachine P cfg).run es = some s) :
    DataInv s := by
  refine (loginMachine P cfg).invariant (P := DataInv) ?_ (fun _ _ _ h hs => h.step hs) ⟨es, h⟩
  constructor
  · intro p auth hb
    cases hb
  · intro p
    exact .inl rfl

/-- Who is registered under a PTID has it by its own data. -/
theorem szPTID_of_holder {es : List LoginEvent} (h : (loginMachine P cfg).run es = some s)
    (hw : s.made < 2 ^ 64) {ptid : Bytes} {q : ℕ} (hq : s.holder ptid = some q) :
    (s.players q).szPTID = ptid := by
  obtain ⟨id, hid, hfile⟩ := Option.bind_eq_some_iff.mp hq
  obtain ⟨hne, q', hfile', hptid, -⟩ := (sound_of_run h hw).idx.registered ptid id hid
  obtain rfl := Option.some.inj (hfile.symm.trans hfile')
  rcases (dataInv_of_run h).ptid q with e | e
  · exact absurd (hptid.symm.trans e) hne
  · rw [← e, hptid]

end

/-- When a player of the request `req` is logged in, a player of the request `req'` is kicked off
only if the two are for the same account; as long as no id is given out twice. -/
def KicksOwnAccount (P : LoginProto) (cfg : Config) (req req' : LoginReq) : Prop :=
  ∀ es s q, (loginMachine P cfg).run es = some s → s.made < 2 ^ 64 →
    s.holder req.ptid = some q → (s.players q).HasData req' → req.account = req'.account

/-- **When different accounts have different PTIDs**: for any two requests, if and only if the
area groups differ, or the AP types differ in 16 bits, or the accounts differ where the PTID still
shows them.  Only one's own earlier session is kicked off then. -/
theorem ptids_differ_iff (P : LoginProto) (cfg : Config) (req req' : LoginReq) (ptid ptid' : Bytes)
    (h : ComputedPTID P cfg req ptid) (h' : ComputedPTID P cfg req' ptid') :
    ((req.account ≠ req'.account → ptid ≠ ptid') ↔
      (req.account ≠ req'.account → Distinguished req req')) ∧
    ((req.account ≠ req'.account → Distinguished req req') → KicksOwnAccount P cfg req req') := by
  rw [computedPTID_eq h, computedPTID_eq h', ne_eq req.ptid, ptid_eq_iff, not_not]
  refine ⟨Iff.rfl, ?_⟩
  intro hdist es s q hrun hw hq hdata
  by_contra hne
  have hsame : req.ptid = req'.ptid := by rw [← hdata.szPTID, szPTID_of_holder hrun hw hq]
  exact (ptid_eq_iff req req').mp hsame (hdist hne)

/-- The PTID of a request in a local test, from the first state on. -/
def firstPTID (req : LoginReq) : Bytes :=
  (((loginMachine plainProto localTest).init.recvGgLoginReq plainProto localTest (some req) 1 5
    midnight).players 0).szPTID_

theorem firstPTID_computed {req : LoginReq}
    (hver : ¬ req.clientversion < localTest.clientVersion_.toUInt32) :
    ComputedPTID plainProto localTest req (firstPTID req) := .localTest _ 1 5 midnight rfl hver

/-- The accounts `A` and `B`. -/
theorem ptids_differ_plain : (plainReq [65]).account ≠ (plainReq [66]).account ∧
    firstPTID (plainReq [65]) ≠ firstPTID (plainReq [66]) ∧
    KicksOwnAccount plainProto localTest (plainReq [65]) (plainReq [66]) := by
  have hdiff := ptids_differ_iff plainProto localTest (plainReq [65]) (plainReq [66]) _ _
    (firstPTID_computed (by decide)) (firstPTID_computed (by decide))
  have hne : (plainReq [65]).account ≠ (plainReq [66]).account := by decide
  have hdist : Distinguished (plainReq [65]) (plainReq [66]) := .inr (.inr (by decide +kernel))
  exact ⟨hne, hdiff.1.mpr (fun _ => hdist) hne, hdiff.2 fun _ => hdist⟩

/-- The AP type 65537 becomes the AP type 1. -/
theorem ptids_collide :
    ComputedPTID plainProto localTest { plainReq [65] with aptype := 1 } [48, 95, 49, 95, 65] ∧
    ComputedPTID plainProto localTest { plainReq [65] with aptype := 65537 } [48, 95, 49, 95, 65] ∧
    ({ plainReq [65] with aptype := 1 } : LoginReq).account ≠
      ({ plainReq [65] with aptype := 65537 } : LoginReq).account := by
  have h₁ : firstPTID { plainReq [65] with aptype := 1 } = [48, 95, 49, 95, 65] := by decide +kernel
  have h₂ : firstPTID { plainReq [65] with aptype := 65537 } = [48, 95, 49, 95, 65] := by
    decide +kernel
  refine ⟨?_, ?_, by decide⟩
  · rw [← h₁]
    exact firstPTID_computed (by decide)
  · rw [← h₂]
    exact firstPTID_computed (by decide)

end BlackSwan.Login
