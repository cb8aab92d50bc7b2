import BlackSwan.LoginActs

/-! # The indexes and answers of the login server

Two invariants that hold as long as player ids have not come round, shown for each handler.

* `Indices`: the two maps of `PlayerMgr` agree with the players.
* `Budget`: a player whose login is open has not been answered, and none has been answered twice.

Every packet that answers a player also ends its waiting: it goes online or is released.  So
the two are kept by the same operations (`Sound`). -/

namespace BlackSwan.Login

open Wire Runs Tables

/-- The name of an account is never empty. -/
theorem Player.szPTID_ne_nil (pl : Player) : pl.szPTID ≠ [] := by
  unfold Player.szPTID
  simp

/-! ### The indexes -/

structure Indices (s : LoginServer) : Prop where
  alive : s.crashed = false
  count : s.player_idx_.toNat = s.made
  numbered : ∀ p < s.made, (s.players p).id_.toNat = p + 1
  filed : ∀ id p, s.playerMap_ id = some p → p < s.made ∧ (s.players p).id_ = id ∧
    (s.players p).fsm_.owner_ = true ∧ (s.players p).fsm_.global_state_ = .global
  /-- a player on file is online or still without an account -/
  state : ∀ id p, s.playerMap_ id = some p → (s.players p).isOnline ∨
    ((s.players p).fsm_.current_state_ = .login ∧ (s.players p).szPTID_ = [])
  online : ∀ id p, s.playerMap_ id = some p → (s.players p).isOnline →
    s.pTIDMap_ (s.players p).szPTID_ = some id
  registered : ∀ ptid id, s.pTIDMap_ ptid = some id → ptid ≠ [] ∧
    ∃ p, s.playerMap_ id = some p ∧ (s.players p).szPTID_ = ptid ∧ (s.players p).isOnline

namespace Indices

variable {s : LoginServer} {p q : ℕ}

/-- The invariant is about the players, the two maps, the counter and the crash. -/
theorem of_eq {s' : LoginServer} (h : Indices s) (hpl : s'.players = s.players)
    (hm : s'.made = s.made) (hmap : s'.playerMap_ = s.playerMap_)
    (hpt : s'.pTIDMap_ = s.pTIDMap_) (hi : s'.player_idx_ = s.player_idx_)
    (hc : s'.crashed = s.crashed) : Indices s' where
  alive := by rw [hc]; exact h.alive
  count := by rw [hi, hm]; exact h.count
  numbered := by rw [hm, hpl]; exact h.numbered
  filed := by rw [hmap, hm, hpl]; exact h.filed
  state := by rw [hmap, hpl]; exact h.state
  online := by rw [hmap, hpl, hpt]; exact h.online
  registered := by rw [hpt, hmap, hpl]; exact h.registered

theorem send (h : Indices s) (p : ℕ) (msgId : UInt32) (body : Bytes) :
    Indices (s.send p msgId body) := by
  rw [LoginServer.send_eq]
  exact h.of_eq rfl rfl rfl rfl rfl rfl

/-- A player is on file under its own id only. -/
theorem filed_self (h : Indices s) {id : PlayerID} (hp : s.playerMap_ id = some p) :
    s.playerMap_ (s.players p).id_ = some p := by
  rw [(h.filed id p hp).2.1]
  exact hp

/-- Ids tell players apart. -/
theorem id_inj (h : Indices s) (hp : p < s.made) (hq : q < s.made)
    (e : (s.players p).id_ = (s.players q).id_) : p = q := by
  have hnp := h.numbered p hp
  have hnq := h.numbered q hq
  rw [e] at hnp
  omega

theorem waiting_of_not_online (h : Indices s) {id : PlayerID} (hp : s.playerMap_ id = some p)
    (hno : ¬ (s.players p).isOnline) : s.Waiting p ∧ (s.players p).szPTID_ = [] := by
  obtain hon | ⟨hlog, hnil⟩ := h.state id p hp
  · exact absurd hon hno
  · exact ⟨⟨h.filed_self hp, hlog⟩, hnil⟩

theorem not_online_of_waiting (hw : s.Waiting p) : ¬ (s.players p).isOnline := by
  simp [Player.isOnline, Player.getCurStateType, hw.2, getFsmStateType]

/-- A change of a player's own data. -/
theorem update (h : Indices s) (p : ℕ) {f : Player → Player}
    (hid : ∀ pl, (f pl).id_ = pl.id_) (hfsm : ∀ pl, (f pl).fsm_ = pl.fsm_)
    (hpt : ∀ pl, (f pl).szPTID_ = pl.szPTID_) : Indices (s.updatePlayer p f) := by
  have hall : ∀ q, ((s.updatePlayer p f).players q).id_ = (s.players q).id_ ∧
      ((s.updatePlayer p f).players q).fsm_ = (s.players q).fsm_ ∧
      ((s.updatePlayer p f).players q).szPTID_ = (s.players q).szPTID_ := by
    intro q
    by_cases hq : q = p
    · subst hq
      rw [LoginServer.updatePlayer_self]
      exact ⟨hid _, hfsm _, hpt _⟩
    · rw [LoginServer.updatePlayer_of_ne hq]
      exact ⟨rfl, rfl, rfl⟩
  have hon : ∀ q, ((s.updatePlayer p f).players q).isOnline ↔ (s.players q).isOnline := by
    intro q
    simp only [Player.isOnline, Player.getCurStateType, (hall q).2.1]
  constructor
  · exact h.alive
  · exact h.count
  · intro q hq
    rw [(hall q).1]
    exact h.numbered q hq
  · intro id q hq
    rw [(hall q).1, (hall q).2.1]
    exact h.filed id q hq
  · intro id q hq
    rw [hon, (hall q).2.1, (hall q).2.2]
    exact h.state id q hq
  · intro id q hq
    rw [hon, (hall q).2.2]
    exact h.online id q hq
  · intro ptid id hid
    obtain ⟨hne, q, hq, hpt, hqon⟩ := h.registered ptid id hid
    exact ⟨hne, q, hq, (hall q).2.2.trans hpt, (hon q).mpr hqon⟩

/-- `fetchPlayer`, while ids do not come round: the new player is on file and waits. -/
theorem fetch (h : Indices s) (hw : s.made + 1 < 2 ^ 64) :
    Indices s.fetchPlayer.2 ∧ s.fetchPlayer.2.Waiting s.made := by
  have hid : (s.player_idx_ + 1).toNat = s.made + 1 := by
    rw [UInt64.toNat_add, h.count]
    exact Nat.mod_eq_of_lt (by simpa using hw)
  have hfree : s.playerMap_ (s.player_idx_ + 1) = none := by
    cases hm : s.playerMap_ (s.player_idx_ + 1) with
    | none => rfl
    | some p =>
        obtain ⟨hlt, hp, -⟩ := h.filed _ p hm
        have hnum := h.numbered p hlt
        rw [hp, hid] at hnum
        omega
  have hmap : s.fetchPlayer.2.playerMap_ = s.playerMap_.set (s.player_idx_ + 1) s.made :=
    Table.emplace_of_none hfree
  have hnew : s.fetchPlayer.2.players s.made = Player.new (s.player_idx_ + 1) := by
    simp [LoginServer.fetchPlayer]
  have hold : ∀ p < s.made, s.fetchPlayer.2.players p = s.players p := by
    intro p hp
    simp [LoginServer.fetchPlayer, Nat.ne_of_lt hp]
  refine ⟨?_, ?_⟩
  · constructor
    · exact h.alive
    · exact hid
    · intro p hp
      obtain hp | rfl : p < s.made ∨ p = s.made := by
        have : p < s.made + 1 := hp
        omega
      · rw [hold p hp]
        exact h.numbered p hp
      · rw [hnew]
        exact hid
    · intro id p hp
      rw [hmap, Table.set_eq_some] at hp
      obtain ⟨rfl, rfl⟩ | ⟨-, hp⟩ := hp
      · rw [hnew]
        exact ⟨Nat.lt_succ_self _, rfl, rfl, rfl⟩
      · obtain ⟨hlt, hrest⟩ := h.filed id p hp
        rw [hold p hlt]
        exact ⟨Nat.lt_succ_of_lt hlt, hrest⟩
    · intro id p hp
      rw [hmap, Table.set_eq_some] at hp
      obtain ⟨rfl, rfl⟩ | ⟨-, hp⟩ := hp
      · rw [hnew]
        exact Or.inr ⟨rfl, rfl⟩
      · rw [hold p (h.filed id p hp).1]
        exact h.state id p hp
    · intro id p hp hon
      rw [hmap, Table.set_eq_some] at hp
      obtain ⟨rfl, rfl⟩ | ⟨-, hp⟩ := hp
      · rw [hnew] at hon
        cases hon
      · rw [hold p (h.filed id p hp).1] at hon ⊢
        exact h.online id p hp hon
    · intro ptid id hid'
      obtain ⟨hne, p, hp, hpt, hon⟩ := h.registered ptid id hid'
      refine ⟨hne, p, ?_, ?_⟩
      · rw [hmap, Table.set_of_ne]
        · exact hp
        · rintro rfl
          rw [hfree] at hp
          cases hp
      · rw [hold p (h.filed id p hp).1]
        exact ⟨hpt, hon⟩
  · constructor
    · rw [hnew, hmap]
      exact Table.set_self _ _ _
    · rw [hnew]
      rfl

/-- Releasing a player on file. -/
theorem destroy (h : Indices s) {id : PlayerID} (hp : s.playerMap_ id = some p) :
    Indices (s.notifyOwnerDestroy p) := by
  obtain ⟨hlt, rfl, hown, -⟩ := h.filed id p hp
  unfold LoginServer.notifyOwnerDestroy
  rw [if_pos hown]
  set s' := (s.releasePlayer p).updatePlayer p fun pl =>
    { pl with fsm_ := { pl.fsm_ with owner_ := false } } with hs'
  -- the players that are still on file are other players, and have not changed
  have hstay : ∀ id q, s'.playerMap_ id = some q →
      id ≠ (s.players p).id_ ∧ s.playerMap_ id = some q ∧ s'.players q = s.players q := by
    intro id q hq
    obtain ⟨hne, hq' : s.playerMap_ id = some q⟩ := Table.erase_eq_some.mp hq
    refine ⟨hne, hq', LoginServer.updatePlayer_of_ne ?_ _ _⟩
    rintro rfl
    exact hne (h.filed id q hq').2.1.symm
  constructor
  · exact h.alive
  · exact h.count
  · intro q hq
    by_cases hqp : q = p
    · subst hqp
      rw [hs', LoginServer.updatePlayer_self]
      exact h.numbered q hq
    · rw [hs', LoginServer.updatePlayer_of_ne hqp]
      exact h.numbered q hq
  · intro id q hq
    obtain ⟨-, hq, e⟩ := hstay id q hq
    rw [e]
    exact h.filed id q hq
  · intro id q hq
    obtain ⟨-, hq, e⟩ := hstay id q hq
    rw [e]
    exact h.state id q hq
  · intro id q hq hon
    obtain ⟨hne, hq, e⟩ := hstay id q hq
    rw [e] at hon ⊢
    have hreg := h.online id q hq hon
    refine Table.erase_eq_some.mpr ⟨?_, hreg⟩
    -- an account of `p` would be registered for `p`
    intro heq
    obtain hpon | ⟨-, hnil⟩ := h.state _ p hp
    · have := h.online _ p hp hpon
      rw [← heq, hreg] at this
      exact hne (Option.some.inj this)
    · rw [heq, hnil] at hreg
      exact (h.registered _ _ hreg).1 rfl
  · intro ptid id hid
    obtain ⟨hne, hid⟩ := Table.erase_eq_some.mp hid
    obtain ⟨hnil, q, hq, hpt, hon⟩ := h.registered ptid id hid
    have hqp : q ≠ p := by
      rintro rfl
      exact hne hpt.symm
    refine ⟨hnil, q, Table.erase_eq_some.mpr ⟨?_, hq⟩, ?_⟩
    · rintro rfl
      exact hqp (Option.some.inj (hq.symm.trans hp))
    · rw [hs', LoginServer.updatePlayer_of_ne hqp]
      exact ⟨hpt, hon⟩

variable (P : LoginProto)

/-- `kickOffPlayer` releases the player that is registered under the account. -/
theorem kickOff_cases (h : Indices s) (ptid : Bytes) :
    (s.pTIDMap_ ptid = none ∧ s.kickOffPlayer P ptid = s) ∨
    ∃ id q, s.pTIDMap_ ptid = some id ∧ s.playerMap_ id = some q ∧ s.holder ptid = some q ∧
      (s.players q).szPTID_ = ptid ∧ (s.players q).isOnline ∧ s.kickOffPlayer P ptid =
        (s.send q LS_GG_Kickoff_NTF (P.serializeKickoff ptid)).notifyOwnerDestroy q := by
  cases hid : s.pTIDMap_ ptid with
  | none =>
      refine Or.inl ⟨rfl, ?_⟩
      simp [LoginServer.kickOffPlayer, hid]
  | some id =>
      obtain ⟨-, q, hq, hpt, hon⟩ := h.registered ptid id hid
      refine Or.inr ⟨id, q, rfl, hq, ?_, hpt, hon, ?_⟩
      · simp [LoginServer.holder, hid, hq]
      · rw [← LoginServer.changeState_logout]
        simp [LoginServer.kickOffPlayer, hid, hq]

theorem kickOff (h : Indices s) (ptid : Bytes) :
    Indices (s.kickOffPlayer P ptid) ∧ (s.kickOffPlayer P ptid).pTIDMap_ ptid = none := by
  obtain ⟨hnone, e⟩ | ⟨id, q, -, hq, -, hpt, -, e⟩ := h.kickOff_cases P ptid
  · rw [e]
    exact ⟨h, hnone⟩
  · rw [e]
    have hsend : (s.send q LS_GG_Kickoff_NTF (P.serializeKickoff ptid)).playerMap_ id = some q := by
      rw [LoginServer.send_eq]
      exact hq
    refine ⟨(h.send q _ _).destroy hsend, ?_⟩
    have hown := (h.filed id q hq).2.2.1
    rw [LoginServer.send_eq, LoginServer.notifyOwnerDestroy, if_pos hown]
    show s.pTIDMap_.erase (s.players q).szPTID_ ptid = none
    rw [hpt]
    exact Table.erase_self _ _

/-- A player that waits takes an account that is free. -/
theorem goOnline (h : Indices s) (hw : s.Waiting p) {ptid : Bytes} (hfree : s.pTIDMap_ ptid = none)
    (hne : ptid ≠ []) : Indices ((s.setPTID p ptid).sendGateLoginSucc P p) := by
  rw [LoginServer.setPTID_sendGateLoginSucc P hw.2, Table.emplace_of_none hfree]
  set s' := { s with
    players := Function.update s.players p (LoginServer.promote ptid (s.players p))
    pTIDMap_ := s.pTIDMap_.set ptid (s.players p).id_
    history := s.history ++ s.packet p LS_GG_Login_ACK
      (P.serializeLoginAck { result := PROTO_SUCCESS, ptid := ptid }) } with hs'
  have hself : s'.players p = LoginServer.promote ptid (s.players p) := by simp [hs']
  have hold : ∀ q, q ≠ p → s'.players q = s.players q := by
    intro q hq
    simp [hs', hq]
  have honline : (s'.players p).isOnline := by
    rw [hself]
    rfl
  constructor
  · exact h.alive
  · exact h.count
  · intro q hq
    by_cases hqp : q = p
    · rw [hqp, hself]
      exact h.numbered p (hqp ▸ hq)
    · rw [hold q hqp]
      exact h.numbered q hq
  · intro id q hq
    by_cases hqp : q = p
    · rw [hqp, hself]
      exact h.filed id p (hqp ▸ hq)
    · rw [hold q hqp]
      exact h.filed id q hq
  · intro id q hq
    by_cases hqp : q = p
    · rw [hqp]
      exact Or.inl honline
    · rw [hold q hqp]
      exact h.state id q hq
  · intro id q hq hon
    by_cases hqp : q = p
    · rw [hqp, hself, ← (h.filed id p (hqp ▸ hq)).2.1]
      exact Table.set_self _ _ _
    · rw [hold q hqp] at hon ⊢
      have hreg := h.online id q hq hon
      refine (Table.set_of_ne ?_).trans hreg
      intro heq
      rw [heq, hfree] at hreg
      cases hreg
  · intro ptid' id hid
    obtain ⟨rfl, rfl⟩ | ⟨-, hid⟩ := Table.set_eq_some.mp hid
    · refine ⟨hne, p, hw.1, ?_, honline⟩
      rw [hself]
      rfl
    · obtain ⟨hnil, q, hq, hpt, hon⟩ := h.registered ptid' id hid
      have hqp : q ≠ p := by
        rintro rfl
        exact not_online_of_waiting hw hon
      rw [← hold q hqp] at hpt hon
      exact ⟨hnil, q, hq, hpt, hon⟩

/-- Who waits after a release was waiting before, and is not the released player. -/
theorem waiting_destroy (h : Indices s) {id : PlayerID} (hp : s.playerMap_ id = some p)
    (hq : (s.notifyOwnerDestroy p).Waiting q) : q ≠ p ∧ s.Waiting q := by
  obtain ⟨-, rfl, hown, -⟩ := h.filed id p hp
  unfold LoginServer.notifyOwnerDestroy at hq
  rw [if_pos hown] at hq
  obtain ⟨hfile, hlog⟩ := hq
  obtain ⟨hne, hfile⟩ := Table.erase_eq_some.mp hfile
  have hqp : q ≠ p := by
    rintro rfl
    apply hne
    rw [LoginServer.updatePlayer_self]
    rfl
  rw [LoginServer.updatePlayer_of_ne hqp] at hfile hlog
  exact ⟨hqp, hfile, hlog⟩

end Indices

/-! ### Answers -/

/-- An answer to the request of the player. -/
def isAck (p : ℕ) : LoginAct → Bool
  | .sent (some q) _ msgId _ => q == p && msgId == LS_GG_Login_ACK
  | _ => false

/-- The number of answers to the request of the player. -/
def acks (p : ℕ) (h : List LoginAct) : ℕ := h.countP (isAck p)

theorem acks_append (p : ℕ) (h₁ h₂ : List LoginAct) : acks p (h₁ ++ h₂) = acks p h₁ + acks p h₂ :=
  List.countP_append

theorem acks_packet_le (q p : ℕ) (msgId : UInt32) (body : Bytes) (s : LoginServer) :
    acks q (s.packet p msgId body) ≤ 1 := by
  unfold LoginServer.packet
  cases s.session_map_ (s.players p).gate_session_fd_ with
  | none => simp [acks]
  | some gs => exact List.countP_le_length

theorem acks_packet_of_ne {q p : ℕ} {msgId : UInt32} (h : p = q → msgId ≠ LS_GG_Login_ACK)
    (body : Bytes) (s : LoginServer) : acks q (s.packet p msgId body) = 0 := by
  unfold LoginServer.packet
  cases s.session_map_ (s.players p).gate_session_fd_ with
  | none => rfl
  | some gs =>
      have hno : ∀ fd msg, isAck q (.sent (some p) fd msgId msg) = false := by
        intro fd msg
        simpa [isAck] using h
      simp [acks, hno]

/-- Acting for a player answers nobody else. -/
theorem Acts.acks_eq {p q : ℕ} {K : ℕ → Prop} {s s' : LoginServer} (ha : Acts p K s s') (hq : q ≠ p) :
    acks q s'.history = acks q s.history := by
  obtain ⟨l, hl, hall⟩ := ha.entries
  have hzero : acks q l = 0 := by
    apply List.countP_eq_zero.mpr
    intro a hal
    cases a with
    | accepted _ _ _ => simp [isAck]
    | built _ _ => simp [isAck]
    | heartbeat _ _ => simp [isAck]
    | sent c fd msgId msg =>
        obtain ⟨q', gs, rfl, hq', -⟩ := hall _ hal
        obtain rfl | ⟨-, rfl⟩ := hq'
        · simp [isAck, Ne.symm hq]
        · simp [isAck, LS_GG_Kickoff_NTF, LS_GG_Login_ACK]
  rw [hl, acks_append, hzero, Nat.add_zero]

structure Budget (s : LoginServer) : Prop where
  once : ∀ p, acks p s.history ≤ 1
  waiting : ∀ p, s.Waiting p → acks p s.history = 0
  fresh : ∀ p, s.made ≤ p → acks p s.history = 0

namespace Budget

variable {s s' : LoginServer}

/-- A step that answers nobody and lets nobody wait again. -/
theorem quiet (h : Budget s) (hacks : ∀ q, acks q s'.history = acks q s.history)
    (hmade : s.made ≤ s'.made) (hw : ∀ q, s'.Waiting q → s.Waiting q ∨ s.made ≤ q) :
    Budget s' := by
  constructor
  · intro q
    rw [hacks]
    exact h.once q
  · intro q hq
    rw [hacks]
    obtain hq | hq := hw q hq
    · exact h.waiting q hq
    · exact h.fresh q hq
  · intro q hq
    rw [hacks]
    exact h.fresh q (Nat.le_trans hmade hq)

/-- A step that answers a player that was waiting, and ends its waiting. -/
theorem answer (h : Budget s) {p : ℕ} (hp : s.Waiting p) (hlt : p < s.made) (body : Bytes)
    (hh : s'.history = s.history ++ s.packet p LS_GG_Login_ACK body) (hmade : s'.made = s.made)
    (hw : ∀ q, s'.Waiting q → q ≠ p ∧ s.Waiting q) : Budget s' := by
  have hother : ∀ q, q ≠ p → acks q s'.history = acks q s.history := by
    intro q hq
    rw [hh, acks_append, acks_packet_of_ne (fun e => absurd e.symm hq), Nat.add_zero]
  constructor
  · intro q
    by_cases hq : q = p
    · have h0 := h.waiting p hp
      have h1 := acks_packet_le p p LS_GG_Login_ACK body s
      rw [hq, hh, acks_append]
      omega
    · rw [hother q hq]
      exact h.once q
  · intro q hq
    obtain ⟨hne, hq⟩ := hw q hq
    rw [hother q hne]
    exact h.waiting q hq
  · intro q hq
    rw [hmade] at hq
    rw [hother q (by omega)]
    exact h.fresh q hq

end Budget

/-! ### Both together -/

structure Sound (s : LoginServer) : Prop where
  idx : Indices s
  budget : Budget s

namespace Sound

variable {s s' : LoginServer} {p : ℕ}

/-- Neither invariant is about the queues, the sessions or the other entries of the history. -/
theorem of_eq (h : Sound s) (hpl : s'.players = s.players) (hm : s'.made = s.made)
    (hmap : s'.playerMap_ = s.playerMap_) (hpt : s'.pTIDMap_ = s.pTIDMap_)
    (hi : s'.player_idx_ = s.player_idx_) (hc : s'.crashed = s.crashed)
    (hacks : ∀ q, acks q s'.history = acks q s.history) : Sound s' where
  idx := h.idx.of_eq hpl hm hmap hpt hi hc
  budget := h.budget.quiet hacks (Nat.le_of_eq hm.symm) fun q hq => Or.inl (by
    unfold LoginServer.Waiting at hq ⊢
    rwa [hpl, hmap] at hq)

/-- An entry that is no packet. -/
theorem log (h : Sound s) {act : LoginAct} (hact : ∀ q, isAck q act = false) :
    Sound (s.log act) := by
  refine h.of_eq rfl rfl rfl rfl rfl rfl fun q => ?_
  show acks q (s.history ++ [act]) = _
  rw [acks_append]
  simp [acks, hact q]

theorem update (h : Sound s) (p : ℕ) {f : Player → Player} (hid : ∀ pl, (f pl).id_ = pl.id_)
    (hfsm : ∀ pl, (f pl).fsm_ = pl.fsm_) (hpt : ∀ pl, (f pl).szPTID_ = pl.szPTID_) :
    Sound (s.updatePlayer p f) := by
  refine ⟨h.idx.update p hid hfsm hpt, h.budget.quiet (fun _ => rfl) (Nat.le_refl _) ?_⟩
  rintro q ⟨hfile, hlog⟩
  refine Or.inl ?_
  by_cases hq : q = p
  · subst hq
    rw [LoginServer.updatePlayer_self, hid] at hfile
    rw [LoginServer.updatePlayer_self, hfsm] at hlog
    exact ⟨hfile, hlog⟩
  · rw [LoginServer.updatePlayer_of_ne hq] at hfile hlog
    exact ⟨hfile, hlog⟩

theorem fetch (h : Sound s) (hw : s.made + 1 < 2 ^ 64) :
    Sound s.fetchPlayer.2 ∧ s.fetchPlayer.2.Waiting s.made := by
  obtain ⟨hidx, hnew⟩ := h.idx.fetch hw
  refine ⟨⟨hidx, h.budget.quiet (fun _ => rfl) (Nat.le_succ _) ?_⟩, hnew⟩
  rintro q ⟨hfile, hlog⟩
  obtain hq | hq := Nat.lt_or_ge q s.made
  · -- an older player keeps its place
    have hold : s.fetchPlayer.2.players q = s.players q := by
      simp [LoginServer.fetchPlayer, Nat.ne_of_lt hq]
    rw [hold] at hfile hlog
    refine Or.inl ⟨?_, hlog⟩
    have hne : (s.players q).id_ ≠ s.player_idx_ + 1 := by
      intro e
      have hcount := hidx.count
      have hnum := h.idx.numbered q hq
      rw [e] at hnum
      have : (s.player_idx_ + 1).toNat = s.made + 1 := hcount
      omega
    have hmap : s.playerMap_.emplace (s.player_idx_ + 1) s.made (s.players q).id_ = some q := hfile
    unfold Table.emplace at hmap
    split_ifs at hmap
    · exact hmap
    · rwa [Table.set_of_ne hne] at hmap
  · exact Or.inr hq

/-- The player of a new request waits. -/
theorem accept (h : Sound s) (hw : s.made + 1 < 2 ^ 64) (fd transID : UInt32) :
    Sound (s.accept fd transID) ∧ (s.accept fd transID).Waiting s.made := by
  obtain ⟨h₁, hw₁⟩ := h.fetch hw
  constructor
  · apply Sound.update
    · exact h₁.log fun _ => rfl
    all_goals exact fun _ => rfl
  · exact LoginServer.waiting_update (f := Player.setOrigin _ _) (fun _ => rfl) (fun _ => rfl) hw₁

/-- A release without an answer. -/
theorem destroy (h : Sound s) {id : PlayerID} (hp : s.playerMap_ id = some p) :
    Sound (s.notifyOwnerDestroy p) := by
  refine ⟨h.idx.destroy hp, ?_⟩
  have hown := (h.idx.filed id p hp).2.2.1
  apply h.budget.quiet
  · intro q
    rw [LoginServer.notifyOwnerDestroy, if_pos hown]
    rfl
  · rw [LoginServer.notifyOwnerDestroy, if_pos hown]
    exact Nat.le_refl _
  · intro q hq
    exact Or.inl (h.idx.waiting_destroy hp hq).2

variable (P : LoginProto)

theorem lt_made (h : Sound s) (hw : s.Waiting p) : p < s.made := (h.idx.filed _ p hw.1).1

theorem fail (h : Sound s) (hw : s.Waiting p) (errorCode : UInt32) :
    Sound (s.sendGateLoginFail P p errorCode) := by
  rw [LoginServer.sendGateLoginFail, LoginServer.changeState_logout]
  set s₁ := s.send p LS_GG_Login_ACK
    (P.serializeLoginAck { result := PROTO_FAILURE, error := errorCode }) with hs₁
  have h₁ : Indices s₁ := h.idx.send p _ _
  have hw₁ : s₁.Waiting p := by
    rw [hs₁, LoginServer.send_eq]
    exact hw
  have hown := (h₁.filed _ p hw₁.1).2.2.1
  refine ⟨h₁.destroy hw₁.1, ?_⟩
  apply h.budget.answer hw (h.lt_made hw)
    (P.serializeLoginAck { result := PROTO_FAILURE, error := errorCode })
  · rw [LoginServer.notifyOwnerDestroy, if_pos hown, hs₁, LoginServer.send_eq]
    rfl
  · rw [LoginServer.notifyOwnerDestroy, if_pos hown, hs₁, LoginServer.send_eq]
    rfl
  · intro q hq
    obtain ⟨hne, hq⟩ := h₁.waiting_destroy hw₁.1 hq
    rw [hs₁, LoginServer.send_eq] at hq
    exact ⟨hne, hq⟩

/-- After `kickOffPlayer` the account is free, and whoever was waiting still is. -/
theorem kickOff (h : Sound s) (ptid : Bytes) :
    Sound (s.kickOffPlayer P ptid) ∧ (s.kickOffPlayer P ptid).pTIDMap_ ptid = none ∧
      ∀ p, s.Waiting p → (s.kickOffPlayer P ptid).Waiting p := by
  refine ⟨?_, (h.idx.kickOff P ptid).2, ?_⟩
  · obtain ⟨-, e⟩ | ⟨id, q, -, hq, -, -, -, e⟩ := h.idx.kickOff_cases P ptid
    · rw [e]
      exact h
    · rw [e]
      have hsend : Sound (s.send q LS_GG_Kickoff_NTF (P.serializeKickoff ptid)) := by
        rw [LoginServer.send_eq]
        refine h.of_eq rfl rfl rfl rfl rfl rfl fun q' => ?_
        show acks q' (s.history ++ s.packet q LS_GG_Kickoff_NTF _) = _
        rw [acks_append, acks_packet_of_ne (fun _ => by decide), Nat.add_zero]
      have hfile : (s.send q LS_GG_Kickoff_NTF (P.serializeKickoff ptid)).playerMap_ id =
          some q := by
        rw [LoginServer.send_eq]
        exact hq
      exact hsend.destroy hfile
  · intro p hw
    obtain ⟨-, e⟩ | ⟨id, q, -, hq, -, -, hon, e⟩ := h.idx.kickOff_cases P ptid
    · rw [e]
      exact hw
    · -- the player that is kicked off is online
      have hqp : p ≠ q := by
        rintro rfl
        exact Indices.not_online_of_waiting hw hon
      have hid : (s.players p).id_ ≠ (s.players q).id_ := fun e =>
        hqp (h.idx.id_inj (h.lt_made hw) (h.idx.filed id q hq).1 e)
      have hown := (h.idx.filed id q hq).2.2.1
      rw [e, LoginServer.send_eq, LoginServer.notifyOwnerDestroy, if_pos hown]
      unfold LoginServer.Waiting
      rw [LoginServer.updatePlayer_of_ne hqp]
      exact ⟨Table.erase_eq_some.mpr ⟨hid, hw.1⟩, hw.2⟩

/-- **A successful login**: whoever holds the account is kicked off, and the player takes it. -/
theorem login (h : Sound s) (hw : s.Waiting p) {ptid : Bytes} (hne : ptid ≠ []) :
    Sound (((s.kickOffPlayer P ptid).setPTID p ptid).sendGateLoginSucc P p) := by
  obtain ⟨h₁, hfree, hkeep⟩ := h.kickOff P ptid
  have hw₁ := hkeep p hw
  refine ⟨h₁.idx.goOnline P hw₁ hfree hne, ?_⟩
  rw [LoginServer.setPTID_sendGateLoginSucc P hw₁.2]
  apply h₁.budget.answer hw₁ (h₁.lt_made hw₁) _
  · rfl
  · rfl
  · rintro q ⟨hfile, hlog⟩
    have hqp : q ≠ p := by
      rintro rfl
      simp [LoginServer.promote, PlayerFSM.enter] at hlog
    simp only [Function.update_of_ne hqp] at hfile hlog
    exact ⟨hqp, hfile, hlog⟩

theorem checkApLoginData (h : Sound s) (p : ℕ) (clock : Clock) :
    Sound (s.checkApLoginData p clock) := by
  have h₁ : Sound { s with start_id := s.start_id + 1 } :=
    h.of_eq rfl rfl rfl rfl rfl rfl fun _ => rfl
  apply Sound.log
  · exact h₁.update p (fun _ => rfl) (fun _ => rfl) fun _ => rfl
  · exact fun _ => rfl

variable (cfg : Config)

theorem handleAPLoginReq (h : Sound s) (hw : s.Waiting p) (clock : Clock) :
    Sound (s.handleAPLoginReq P cfg p clock) := by
  have h₁ : Sound (s.localTestLogin P cfg p) := by
    unfold LoginServer.localTestLogin
    dsimp only
    split_ifs with _ hus
    · exact h.login P hw (List.ne_nil_of_mem hus)
    · exact h.login P hw (Player.szPTID_ne_nil _)
    · exact h
  unfold LoginServer.handleAPLoginReq
  dsimp only
  split_ifs
  · exact h₁
  · exact h₁.checkApLoginData p clock

theorem loginOnEvent (h : Sound s) (hw : s.Waiting p) (event : FsmEvent) (clock : Clock) :
    Sound (s.loginOnEvent P cfg p event clock) := by
  cases event with
  | global _ => exact h
  | apError _ error => exact h.fail P hw _
  | apSucc auth =>
      unfold LoginServer.loginOnEvent
      dsimp only
      split_ifs
      · exact h
      · exact h
      · exact h.login P hw (Player.szPTID_ne_nil _)
  | gate msgID =>
      unfold LoginServer.loginOnEvent
      dsimp only
      split_ifs
      · exact h.handleAPLoginReq P cfg hw clock
      · exact h

/-- An event for a player on file. -/
theorem onEvent (h : Sound s) {id : PlayerID} (hp : s.playerMap_ id = some p) (event : FsmEvent)
    (clock : Clock) : Sound (s.onEvent P cfg p event clock) := by
  unfold LoginServer.onEvent
  split_ifs with hglob
  · rw [(h.idx.filed id p hp).2.2.2]
    show Sound (s.globalOnEvent p event)
    unfold LoginServer.globalOnEvent
    split
    · rw [LoginServer.changeState_logout]
      exact h.destroy hp
    · rw [LoginServer.changeState_logout]
      exact h.destroy hp
    · exact h
  · by_cases hon : (s.players p).isOnline
    · have hcur : (s.players p).fsm_.current_state_ = .online := by
        unfold Player.isOnline Player.getCurStateType at hon
        cases hc : (s.players p).fsm_.current_state_ <;> simp [hc, getFsmStateType] at hon ⊢
      rw [hcur]
      exact h
    · obtain ⟨hw, -⟩ := h.idx.waiting_of_not_online hp hon
      rw [hw.2]
      exact h.loginOnEvent P cfg hw event clock

theorem recvGgLoginReq (h : Sound s) (req : LoginReq) (fd transID : UInt32) (clock : Clock)
    (hw : (s.recvGgLoginReq P cfg (some req) fd transID clock).made < 2 ^ 64) :
    Sound (s.recvGgLoginReq P cfg (some req) fd transID clock) := by
  rw [(Acts.recvGgLoginReq P cfg req fd transID clock s).made] at hw
  obtain ⟨h₂, hw₂⟩ := h.accept hw fd transID
  set s₃ := (s.accept fd transID).updatePlayer s.made
    (Player.initLoginData req transID.toUInt64) with hs₃
  have h₃ : Sound s₃ := by
    apply Sound.update h₂
    all_goals exact fun _ => rfl
  have hw₃ : s₃.Waiting s.made :=
    LoginServer.waiting_update (f := Player.initLoginData _ _) (fun _ => rfl) (fun _ => rfl) hw₂
  rw [LoginServer.recvGgLoginReq_some]
  split_ifs
  · exact h₂.fail P hw₂ _
  · exact h₃.onEvent P cfg hw₃.1 _ _

theorem processMsg (h : Sound s) (m : MessageParam) (clock : Clock)
    (hw : (s.processMsg P cfg m clock).made < 2 ^ 64) : Sound (s.processMsg P cfg m clock) := by
  have h₁ : Sound { s with handling := m.transID } := h.of_eq rfl rfl rfl rfl rfl rfl fun _ => rfl
  obtain e | ⟨req, e⟩ | ⟨id, p, hp, e⟩ := processMsg_cases P cfg clock s m
  · rw [e]
    exact h₁
  · rw [e] at hw ⊢
    exact h₁.recvGgLoginReq P cfg req _ _ clock hw
  · rw [e]
    exact h₁.onEvent P cfg hp _ clock

theorem processApMsg (h : Sound s) (m : APMsg) (clock : Clock) :
    Sound (s.processApMsg P cfg m clock) := by
  obtain ⟨l, e | ⟨auth, p, event, -, hp, -, e⟩⟩ := processApMsg_cases P cfg clock s m
  all_goals
    have h₁ : Sound { s with apg_list_ := l } := h.of_eq rfl rfl rfl rfl rfl rfl fun _ => rfl
    rw [e]
  · exact h₁
  · exact h₁.onEvent P cfg hp event clock

end Sound

end BlackSwan.Login
