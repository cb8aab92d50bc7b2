import BlackSwan.Gate
import Mathlib.Data.Fintype.Card
import Mathlib.Data.Fintype.EquivFin

/-! # The invariant of the gate

The maps `session_map_` and `playerIdMap_` and the two back pointers (`PlayerSession::player_` and
`Player::player_session_`) agree in every reachable state, player ids are given out once, and no
player ever leaves the state `LoginLs`.  `GateInv` also says of every entry of the history what
must have happened before it (`Justifies`), which is where the results about runs come from. -/

namespace BlackSwan

open Wire Runs Tables

/-- What the history before an entry must hold. -/
def Justifies (before : List GateAct) : GateAct → Prop
  | .added fd id => ∀ fd' id', .added fd' id' ∈ before → fd' ≠ fd ∧ id' ≠ id
  | .dispatched fd _ => .stopped fd ∉ before
  | .toClient (.inner _ t) fd _ => .added fd t ∈ before ∧ .deleted fd ∉ before
  | .toClient (.client fd') fd _ => fd = fd'
  | .toClient (.link _) _ _ => False
  | .upstream (.client fd) _ msg => ∃ t : PlayerID, .added fd t ∈ before ∧ readWord msg 4 8 = some t.toNat
  | _ => True

structure GateInv (g : GateState) : Prop where
  /-- a player is filed under its own id and waits for its login, with no request handled -/
  player : ∀ id p, g.playerIdMap_ id = some p →
    p.id_ = id ∧ p.fsm_.current_state_ = .loginLs .nothing ∧ id.toNat ≤ g.player_idx_.toNat
  /-- a session is filed under its own `fd` and its player points back to it -/
  entry : ∀ fd ps, g.session_map_ fd = some ps → ps.client_session_ = fd ∧ ∃ id p,
    ps.player_ = some id ∧ g.playerIdMap_ id = some p ∧ p.player_session_ = some ps ∧
      .added fd id ∈ g.history
  /-- the session of a player is filed and points back to it -/
  back : ∀ id p ps, g.playerIdMap_ id = some p → p.player_session_ = some ps →
    ps.player_ = some id ∧ g.session_map_ ps.client_session_ = some ps
  /-- the sessions on file are the connected ones -/
  live : ∀ fd, g.isConnected fd = (g.session_map_ fd).isSome
  gone : ∀ fd, .stopped fd ∈ g.history ∨ .deleted fd ∈ g.history →
    ∃ s, g.sessions fd = some s ∧ s.stopped_ = true
  given : ∀ fd id, .added fd id ∈ g.history →
    (g.sessions fd).isSome ∧ id.toNat ≤ g.player_idx_.toNat
  /-- as many ids as sessions have been given out, so `player_idx_` does not wrap -/
  count : ∃ fds : List UInt32, fds.Nodup ∧ fds.length = g.player_idx_.toNat ∧
    ∀ fd ∈ fds, (g.sessions fd).isSome
  just : Justified Justifies g.history

/-- The entries that pass something on; the other ones are the life of a session. -/
def GateAct.passes : GateAct → Bool
  | .dispatched .. => true
  | .toClient .. => true
  | .upstream .. => true
  | _ => false

/-- A connected session with its player. -/
structure Attached (fd : UInt32) (id : PlayerID) (p : GatePlayer) (g : GateState) : Prop where
  isConnected : g.isConnected fd = true
  session : g.session_map_ fd = some ⟨fd, some id⟩
  player : g.playerIdMap_ id = some p
  back : p.player_session_ = some ⟨fd, some id⟩
  playerID : p.id_ = id
  state : p.fsm_.current_state_ = .loginLs .nothing
  added : .added fd id ∈ g.history
  not_stopped : .stopped fd ∉ g.history
  not_deleted : .deleted fd ∉ g.history

namespace GateInv

variable {g g' : GateState}

/-- The invariant is about the sessions, the two maps, the counter and the history. -/
theorem of_eq (h : GateInv g) (hs : g'.sessions = g.sessions)
    (hm : g'.session_map_ = g.session_map_) (hp : g'.playerIdMap_ = g.playerIdMap_)
    (hi : g'.player_idx_ = g.player_idx_) (hh : g'.history = g.history) : GateInv g' where
  player := by rw [hp, hi]; exact h.player
  entry := by rw [hm, hp, hh]; exact h.entry
  back := by rw [hm, hp]; exact h.back
  live := by simpa only [GateState.isConnected, hs, hm] using h.live
  gone := by rw [hh, hs]; exact h.gone
  given := by rw [hh, hs, hi]; exact h.given
  count := by rw [hs, hi]; exact h.count
  just := by rw [hh]; exact h.just

theorem mem_log_iff {act act' : GateAct} (hact : act.passes = true) (hact' : act'.passes = false)
    (g : GateState) : act' ∈ (g.log act).history ↔ act' ∈ g.history := by
  have hne : act' ≠ act := by
    rintro rfl
    rw [hact] at hact'
    cases hact'
  simp [GateState.log, hne]

theorem log (h : GateInv g) {act : GateAct} (hact : act.passes = true)
    (hj : Justifies g.history act) : GateInv (g.log act) where
  player := h.player
  entry := by
    intro fd ps hps
    obtain ⟨hfd, id, p, hid, hp, hback, hadd⟩ := h.entry fd ps hps
    exact ⟨hfd, id, p, hid, hp, hback, (mem_log_iff hact rfl g).mpr hadd⟩
  back := h.back
  live := h.live
  gone := by
    intro fd hfd
    rw [mem_log_iff hact rfl, mem_log_iff hact rfl] at hfd
    exact h.gone fd hfd
  given := by
    intro fd id hadd
    rw [mem_log_iff hact rfl] at hadd
    exact h.given fd id hadd
  count := h.count
  just := h.just.snoc hj

/-- A change of a player's own data. -/
theorem setPlayer (h : GateInv g) {id : PlayerID} {p p' : GatePlayer}
    (hp : g.playerIdMap_ id = some p) (hid : p'.id_ = p.id_) (hfsm : p'.fsm_ = p.fsm_)
    (hps : p'.player_session_ = p.player_session_) :
    GateInv { g with playerIdMap_ := g.playerIdMap_.set id p' } where
  player := by
    intro id' q hq
    obtain ⟨rfl, rfl⟩ | ⟨-, hq⟩ := Table.set_eq_some.mp hq
    · rw [hid, hfsm]
      exact h.player id' p hp
    · exact h.player id' q hq
  entry := by
    intro fd ps hm
    obtain ⟨hfd, id', q, hid', hq, hback, hadd⟩ := h.entry fd ps hm
    by_cases he : id' = id
    · subst he
      obtain rfl : p = q := Option.some.inj (hp.symm.trans hq)
      exact ⟨hfd, id', p', hid', Table.set_self _ _ _, hps.trans hback, hadd⟩
    · exact ⟨hfd, id', q, hid', (Table.set_of_ne he).trans hq, hback, hadd⟩
  back := by
    intro id' q ps hq hback
    obtain ⟨rfl, rfl⟩ | ⟨-, hq⟩ := Table.set_eq_some.mp hq
    · exact h.back id' p ps hp (hps ▸ hback)
    · exact h.back id' q ps hq hback
  live := h.live
  gone := h.gone
  given := h.given
  count := h.count
  just := h.just

/-! ### The end of a session -/

theorem isConnected_iff (fd : UInt32) (g : GateState) :
    g.isConnected fd = true ↔ ∃ s, g.sessions fd = some s ∧ s.stopped_ = false := by
  unfold GateState.isConnected
  cases g.sessions fd with
  | none => simp
  | some s => simp

/-- A connected session has its player, and the history knows both. -/
theorem attached (h : GateInv g) {fd : UInt32} (hc : g.isConnected fd = true) :
    ∃ id p, Attached fd id p g := by
  obtain ⟨ps, hps⟩ := Option.isSome_iff_exists.mp ((h.live fd).symm.trans hc)
  obtain ⟨hfd, id, p, hid, hp, hback, hadd⟩ := h.entry fd ps hps
  obtain ⟨cs, pl⟩ := ps
  obtain rfl : cs = fd := hfd
  obtain rfl : pl = some id := hid
  obtain ⟨hpid, hst, -⟩ := h.player id p hp
  have hgone : ¬ (.stopped cs ∈ g.history ∨ .deleted cs ∈ g.history) := by
    intro hg
    obtain ⟨s, hs, hst⟩ := h.gone cs hg
    obtain ⟨s', hs', hst'⟩ := (isConnected_iff cs g).mp hc
    obtain rfl : s = s' := Option.some.inj (hs.symm.trans hs')
    rw [hst] at hst'
    cases hst'
  exact ⟨id, p, hc, hps, hp, hback, hpid, hst, hadd, fun hm => hgone (.inl hm),
    fun hm => hgone (.inr hm)⟩

/-- What `stop` leaves of a connected session and its player. -/
def stopped (fd : UInt32) (s : ClientSession) (id : PlayerID) (p : GatePlayer) (g : GateState) :
    GateState :=
  { g with
    sessions := g.sessions.set fd { s with stopped_ := true }
    session_map_ := g.session_map_.erase fd
    playerIdMap_ := g.playerIdMap_.set id { p with player_session_ := none }
    history := g.history ++ [.stopped fd] ++ [.deleted fd] }

theorem stop_eq {fd : UInt32} {s : ClientSession} {id : PlayerID} {p : GatePlayer}
    (hs : g.sessions fd = some s) (hst : s.stopped_ = false)
    (hm : g.session_map_ fd = some ⟨fd, some id⟩) (hp : g.playerIdMap_ id = some p) :
    g.stop fd = stopped fd s id p g := by
  simp [GateState.stop, GateState.delSession, GateState.updatePlayer, GateState.log, stopped, hs, hst,
    hm, hp]

theorem stop_of_not_connected {fd : UInt32} (hc : g.isConnected fd = false) : g.stop fd = g := by
  unfold GateState.stop
  unfold GateState.isConnected at hc
  cases hs : g.sessions fd with
  | none => rfl
  | some s =>
      simp only [hs, Bool.not_eq_false'] at hc
      simp [hc]

theorem stopped_inv (h : GateInv g) {fd : UInt32} {s : ClientSession} {id : PlayerID}
    {p : GatePlayer} (hm : g.session_map_ fd = some ⟨fd, some id⟩)
    (hp : g.playerIdMap_ id = some p) (hback : p.player_session_ = some ⟨fd, some id⟩) :
    GateInv (stopped fd s id p g) where
  player := by
    intro id' q hq
    obtain ⟨rfl, rfl⟩ | ⟨-, hq⟩ := Table.set_eq_some.mp hq
    · exact h.player id' p hp
    · exact h.player id' q hq
  entry := by
    intro fd' ps hps
    obtain ⟨hne, hps⟩ := Table.erase_eq_some.mp hps
    obtain ⟨hfd, id', q, hid', hq, hqps, hadd⟩ := h.entry fd' ps hps
    -- the player of another session is another player
    have hid : id' ≠ id := by
      rintro rfl
      obtain rfl : p = q := Option.some.inj (hp.symm.trans hq)
      obtain rfl : (⟨fd, some id'⟩ : PlayerSession) = ps := Option.some.inj (hback.symm.trans hqps)
      exact hne hfd.symm
    exact ⟨hfd, id', q, hid', (Table.set_of_ne hid).trans hq, hqps, by simp [stopped, hadd]⟩
  back := by
    intro id' q ps hq hqps
    obtain ⟨rfl, rfl⟩ | ⟨hne, hq⟩ := Table.set_eq_some.mp hq
    · cases hqps
    · obtain ⟨hpl, hmap⟩ := h.back id' q ps hq hqps
      refine ⟨hpl, Table.erase_eq_some.mpr ⟨?_, hmap⟩⟩
      intro hfd
      rw [hfd, hm] at hmap
      obtain rfl : (⟨fd, some id⟩ : PlayerSession) = ps := Option.some.inj hmap
      exact hne (Option.some.inj hpl).symm
  live := by
    intro fd'
    have hl := h.live fd'
    by_cases hfd : fd' = fd
    · subst hfd
      simp [GateState.isConnected, stopped]
    · simpa [GateState.isConnected, stopped, Table.set_of_ne hfd, Table.erase_of_ne hfd] using hl
  gone := by
    intro fd' hfd
    by_cases he : fd' = fd
    · subst he
      exact ⟨_, Table.set_self _ _ _, rfl⟩
    · have hold : .stopped fd' ∈ g.history ∨ .deleted fd' ∈ g.history := by
        simpa [stopped, he] using hfd
      obtain ⟨s', hs', hst'⟩ := h.gone fd' hold
      exact ⟨s', (Table.set_of_ne he).trans hs', hst'⟩
  given := by
    intro fd' id' hadd
    have hold : .added fd' id' ∈ g.history := by simpa [stopped] using hadd
    obtain ⟨hs', hle⟩ := h.given fd' id' hold
    refine ⟨?_, hle⟩
    by_cases he : fd' = fd
    · simp [stopped, he]
    · simpa [stopped, Table.set_of_ne he] using hs'
  count := by
    obtain ⟨fds, hnd, hlen, hall⟩ := h.count
    refine ⟨fds, hnd, hlen, fun fd' hfd' => ?_⟩
    by_cases he : fd' = fd
    · simp [stopped, he]
    · simpa [stopped, Table.set_of_ne he] using hall fd' hfd'
  just := by
    have hstop : Justifies g.history (.stopped fd) := trivial
    have hdel : Justifies (g.history ++ [.stopped fd]) (.deleted fd) := trivial
    exact (h.just.snoc hstop).snoc hdel

theorem stop (h : GateInv g) (fd : UInt32) : GateInv (g.stop fd) := by
  cases hc : g.isConnected fd with
  | false => rw [stop_of_not_connected hc]; exact h
  | true =>
      obtain ⟨s, hs, hst⟩ := (isConnected_iff fd g).mp hc
      obtain ⟨id, p, ha⟩ := h.attached hc
      rw [stop_eq hs hst ha.session ha.player]
      exact h.stopped_inv ha.session ha.player ha.back

/-! ### A new session -/

/-- There are no more sessions than `fd` values. -/
theorem length_fds_le {fds : List UInt32} (h : fds.Nodup) : fds.length ≤ 2 ^ 32 := by
  have hinj : Function.Injective UInt32.toFin := fun a b hab => UInt32.toFin_inj.mp hab
  have hcard := (h.map hinj).length_le_card
  simpa [UInt32.size] using hcard

theorem player_idx_succ (h : GateInv g) : (g.player_idx_ + 1).toNat = g.player_idx_.toNat + 1 := by
  obtain ⟨fds, hnd, hlen, -⟩ := h.count
  have hle := length_fds_le hnd
  rw [UInt64.toNat_add, Nat.mod_eq_of_lt]
  · rfl
  · show g.player_idx_.toNat + 1 < _
    omega

/-- The new id is larger than every id that was given out. -/
theorem ne_new (h : GateInv g) {id : PlayerID} (hle : id.toNat ≤ g.player_idx_.toNat) :
    id ≠ g.player_idx_ + 1 := by
  rintro rfl
  rw [h.player_idx_succ] at hle
  omega

theorem new_unused (h : GateInv g) : g.playerIdMap_ (g.player_idx_ + 1) = none := by
  by_contra hne
  obtain ⟨p, hp⟩ := Option.ne_none_iff_exists'.mp hne
  exact h.ne_new (h.player _ p hp).2.2 rfl

/-- What `addSession` makes of a new session. -/
def accepted (fd : UInt32) (g : GateState) : GateState :=
  let id := g.player_idx_ + 1
  { g with
    sessions := g.sessions.set fd ⟨false, false⟩
    session_map_ := g.session_map_.set fd ⟨fd, some id⟩
    playerIdMap_ := (g.playerIdMap_.set id (GatePlayer.new id)).set id
      { GatePlayer.new id with player_session_ := some ⟨fd, some id⟩ }
    player_idx_ := id
    history := g.history ++ [.added fd id] }

theorem session_unused (h : GateInv g) {fd : UInt32} (hs : g.sessions fd = none) :
    g.session_map_ fd = none := by
  have hl := h.live fd
  simp only [GateState.isConnected, hs] at hl
  exact Option.isNone_iff_eq_none.mp (by simpa using hl.symm)

/-- `addSession` does not fail: the new player is already in the state that it is sent to. -/
theorem addSession_eq (h : GateInv g) {fd : UInt32} (hs : g.sessions fd = none) :
    ({ g with sessions := g.sessions.set fd ⟨false, false⟩ } : GateState).addSession fd =
      .ok () (accepted fd g) := by
  have hm := h.session_unused hs
  simp only [GateState.addSession, GateState.fetchPlayer, Table.emplace_of_none h.new_unused,
    GateState.updatePlayer, Table.set_self, GateState.changeState]
  simp [GatePlayer.getCurStateType, GatePlayer.new, getFsmStateType, GateState.log, accepted,
    Table.emplace_of_none hm]

theorem accepted_inv (h : GateInv g) {fd : UInt32} (hs : g.sessions fd = none) :
    GateInv (accepted fd g) where
  player := by
    intro id p hp
    obtain ⟨rfl, rfl⟩ | ⟨hne, hp⟩ := Table.set_eq_some.mp hp
    · exact ⟨rfl, rfl, le_rfl⟩
    · rw [Table.set_of_ne hne] at hp
      obtain ⟨hid, hst, hle⟩ := h.player id p hp
      exact ⟨hid, hst, hle.trans (by simp only [accepted, h.player_idx_succ]; omega)⟩
  entry := by
    intro fd' ps hps
    obtain ⟨rfl, rfl⟩ | ⟨hne, hps⟩ := Table.set_eq_some.mp hps
    · exact ⟨rfl, _, _, rfl, Table.set_self _ _ _, rfl, by simp [accepted]⟩
    · obtain ⟨hfd, id, p, hid, hp, hback, hadd⟩ := h.entry fd' ps hps
      have hne' := h.ne_new (h.player id p hp).2.2
      refine ⟨hfd, id, p, hid, ?_, hback, by simp [accepted, hadd]⟩
      show ((g.playerIdMap_.set _ _).set _ _) id = some p
      rw [Table.set_of_ne hne', Table.set_of_ne hne']
      exact hp
  back := by
    intro id p ps hp hps
    obtain ⟨rfl, rfl⟩ | ⟨hne, hp⟩ := Table.set_eq_some.mp hp
    · obtain rfl := Option.some.inj hps
      exact ⟨rfl, Table.set_self _ _ _⟩
    · rw [Table.set_of_ne hne] at hp
      obtain ⟨hpl, hmap⟩ := h.back id p ps hp hps
      refine ⟨hpl, Table.set_eq_some.mpr (.inr ⟨?_, hmap⟩)⟩
      intro hfd
      rw [hfd, h.session_unused hs] at hmap
      cases hmap
  live := by
    intro fd'
    have hl := h.live fd'
    by_cases hfd : fd' = fd
    · subst hfd
      simp [GateState.isConnected, accepted]
    · simpa [GateState.isConnected, accepted, Table.set_of_ne hfd] using hl
  gone := by
    intro fd' hfd
    have hold : .stopped fd' ∈ g.history ∨ .deleted fd' ∈ g.history := by
      simpa [accepted] using hfd
    obtain ⟨s, hs', hst⟩ := h.gone fd' hold
    have hne : fd' ≠ fd := by
      rintro rfl
      rw [hs] at hs'
      cases hs'
    exact ⟨s, (Table.set_of_ne hne).trans hs', hst⟩
  given := by
    intro fd' id hadd
    have hcase : .added fd' id ∈ g.history ∨ (fd' = fd ∧ id = g.player_idx_ + 1) := by
      simpa [accepted] using hadd
    obtain hadd | ⟨rfl, rfl⟩ := hcase
    · obtain ⟨hs', hle⟩ := h.given fd' id hadd
      refine ⟨?_, hle.trans (by simp only [accepted, h.player_idx_succ]; omega)⟩
      by_cases he : fd' = fd
      · simp [accepted, he]
      · simpa [accepted, Table.set_of_ne he] using hs'
    · exact ⟨by simp [accepted], le_rfl⟩
  count := by
    obtain ⟨fds, hnd, hlen, hall⟩ := h.count
    have hnew : fd ∉ fds := by
      intro hfd
      have := hall fd hfd
      simp [hs] at this
    refine ⟨fd :: fds, List.nodup_cons.mpr ⟨hnew, hnd⟩, ?_, ?_⟩
    · simp only [accepted, h.player_idx_succ, List.length_cons, hlen]
    · intro fd' hfd'
      by_cases he : fd' = fd
      · simp [accepted, he]
      · obtain hfd' | hfd' := List.mem_cons.mp hfd'
        · exact absurd hfd' he
        · simpa [accepted, Table.set_of_ne he] using hall fd' hfd'
  just := by
    apply h.just.snoc
    intro fd' id' hadd
    obtain ⟨hs', hle⟩ := h.given fd' id' hadd
    refine ⟨?_, h.ne_new hle⟩
    rintro rfl
    simp [hs] at hs'

end GateInv

/-! ### Packets from clients -/

section Client

variable {P : GateProto} {g : GateState} {fd : UInt32} {id : PlayerID} {p : GatePlayer}
  {pack : Packet}

/-- The id is one of those between a client and the gate. -/
def inRange (msgId : UInt32) : Bool := CLI_GG_MSG_ID_MIN ≤ msgId && msgId ≤ CLI_GG_MSG_ID_MAX

theorem outOfRange_iff (msgId : UInt32) :
    (msgId < CLI_GG_MSG_ID_MIN ∨ msgId > CLI_GG_MSG_ID_MAX) ↔ inRange msgId = false := by
  simp only [inRange, UInt32.lt_iff_toNat_lt, UInt32.le_iff_toNat_le, gt_iff_lt,
    Bool.and_eq_false_iff, decide_eq_false_iff_not]
  omega

/-- The request that a packet carries, if the message is registered and parses. -/
def loginReq (P : GateProto) (inited : Bool) (pack : Packet) : Option CliLoginReq :=
  if inited then P.parseLoginReq (GateState.cString pack.data) else none

/-- The player after `handleLoginReq` has noted what the request says. -/
def noted (id : PlayerID) (p : GatePlayer) (req : CliLoginReq) (g : GateState) : GateState :=
  let p := { p with clientVersion_ := req.clientversion, authenID_ := req.authact }
  { g with playerIdMap_ := g.playerIdMap_.set id p }

/-- The message that `handleLoginReq` sends. -/
def loginMsg (P : GateProto) (id : PlayerID) (req : CliLoginReq) : Bytes :=
  let body := P.serializeLoginReq (req.toLs req.clientversion)
  encodeInnerPacket GG_LS_Login_REQ body
    (UInt32.ofNat (if body.length > 2 ^ 32 - 1 then 0 else body.length)) id

/-- A session that is not on file: a packet in range is a call through a null pointer. -/
theorem onRecvClientPacket_detached (hm : g.session_map_ fd = none) :
    GateState.onRecvClientPacket P fd pack g =
      if inRange pack.id then .error .nullCall g else .ok () (g.stop fd) := by
  have hout := outOfRange_iff pack.id
  unfold GateState.onRecvClientPacket
  cases hr : inRange pack.id with
  | false => rw [if_pos (hout.mpr hr)]; rfl
  | true =>
      rw [if_neg (by rw [hout, hr]; simp)]
      simp [hm]

/-- While a player waits for its login, every other packet ends its session. -/
theorem onRecvClientPacket_other (ha : Attached fd id p g) (hid : pack.id ≠ CLI_GG_Login_REQ) :
    GateState.onRecvClientPacket P fd pack g = .ok () (g.stop fd) := by
  unfold GateState.onRecvClientPacket
  by_cases hr : pack.id < CLI_GG_MSG_ID_MIN ∨ pack.id > CLI_GG_MSG_ID_MAX
  · rw [if_pos hr]
  · rw [if_neg hr]
    simp [ha.session, ha.player, GatePlayer.getCurStateType, ha.state, getFsmStateType, hid,
      GateState.close, ha.isConnected]

/-- The login request of a connected session. -/
theorem onRecvClientPacket_login (ha : Attached fd id p g) (hid : pack.id = CLI_GG_Login_REQ) :
    GateState.onRecvClientPacket P fd pack g =
      match loginReq P g.inited pack with
      | none => .ok () (g.log (.dispatched fd CLI_GG_Login_REQ))
      | some req =>
          if g.hasPeer fd then
            .ok () ((noted id p req (g.log (.dispatched fd CLI_GG_Login_REQ))).sendLink .login
              (loginMsg P id req))
          else .error .thrown (noted id p req (g.log (.dispatched fd CLI_GG_Login_REQ))) := by
  have hr : ¬ (pack.id < CLI_GG_MSG_ID_MIN ∨ pack.id > CLI_GG_MSG_ID_MAX) := by
    rw [hid]
    decide
  have hgs : pack.id ≠ CLI_GG_GS_MSG := by
    rw [hid]
    decide
  unfold GateState.onRecvClientPacket
  rw [if_neg hr]
  simp only [ha.session, ha.player, hid, ne_eq, not_true_eq_false, and_false, if_false]
  rw [if_pos (by rw [← hid]; exact hgs)]
  unfold GateState.processClientMessage loginReq
  cases hin : g.inited with
  | false => simp [GateState.log, hin]
  | true =>
      simp only [GateState.log, hin, Bool.not_true, Bool.false_eq_true, if_false, if_true]
      cases hreq : P.parseLoginReq (GateState.cString pack.data) with
      | none => rfl
      | some req =>
          cases hpeer : g.hasPeer fd <;> unfold GateState.hasPeer at hpeer <;>
            simp [GateState.onCliLoginReq, GateState.onEvent, GateState.loginLsOnEvent,
              GateState.handleLoginReq, ha.player, ha.state, ha.back, noted, loginMsg,
              GateState.forward2Login, GateState.transID, GateState.hasPeer, ha.playerID, hpeer]

/-- Stopping a session logs at most that it stopped and was deleted. -/
theorem stop_frame (fd : UInt32) (g : GateState) :
    (g.stop fd).cause = g.cause ∧ (g.stop fd).crashed = g.crashed ∧
      ∃ h, (g.stop fd).history = g.history ++ h ∧ (h = [] ∨ h = [.stopped fd, .deleted fd]) := by
  unfold GateState.stop
  split
  · split_ifs
    · exact ⟨rfl, rfl, [], by simp, Or.inl rfl⟩
    · simp only [GateState.delSession, GateState.updatePlayer, GateState.log]
      split
      · split <;> exact ⟨rfl, rfl, [.stopped fd, .deleted fd], by simp, Or.inr rfl⟩
      · exact ⟨rfl, rfl, [.stopped fd, .deleted fd], by simp, Or.inr rfl⟩
  · exact ⟨rfl, rfl, [], by simp, Or.inl rfl⟩

@[simp] theorem stop_cause (fd : UInt32) (g : GateState) : (g.stop fd).cause = g.cause :=
  (stop_frame fd g).1

@[simp] theorem stop_crashed (fd : UInt32) (g : GateState) : (g.stop fd).crashed = g.crashed :=
  (stop_frame fd g).2.1

/-- The invariant while a buffer of the session `fd` is handled. -/
structure ClientInv (fd : UInt32) (g : GateState) : Prop where
  inv : GateInv g
  cause : g.cause = .client fd
  running : g.crashed = false

/-- How handling a client packet may end early: by an exception or a call through null. -/
def ClientFault (fd : UInt32) (e : Fault) (g : GateState) : Prop :=
  ClientInv fd g ∧ e ≠ .outOfBounds ∧ e ≠ .deleted

theorem replyPing_inv (h : ClientInv fd g) : ClientInv fd (g.replyPing fd) := by
  refine ⟨h.inv.log rfl ?_, h.cause, h.running⟩
  rw [h.cause]
  exact rfl

theorem sendLink_inv (h : ClientInv fd g) (ha : .added fd id ∈ g.history) (link : Link)
    {msg : Bytes} (hmsg : readWord msg 4 8 = some id.toNat) : ClientInv fd (g.sendLink link msg) := by
  unfold GateState.sendLink
  split_ifs
  · exact h
  · refine ⟨h.inv.log rfl ?_, h.cause, h.running⟩
    rw [h.cause]
    exact ⟨id, ha, hmsg⟩

theorem dispatched_inv (h : ClientInv fd g) (ha : Attached fd id p g) (msgId : UInt32) :
    ClientInv fd (g.log (.dispatched fd msgId)) :=
  ⟨h.inv.log rfl ha.not_stopped, h.cause, h.running⟩

theorem not_on_file (h : GateInv g) (hc : g.isConnected fd = false) : g.session_map_ fd = none :=
  Option.isNone_iff_eq_none.mp (by simpa [hc] using (h.live fd).symm)

theorem onRecvClientPacket_inv (h : ClientInv fd g) (pack : Packet) :
    Ends (ClientInv fd) (ClientFault fd) (GateState.onRecvClientPacket P fd pack g) := by
  cases hc : g.isConnected fd with
  | false =>
      rw [onRecvClientPacket_detached (not_on_file h.inv hc), GateInv.stop_of_not_connected hc]
      split_ifs
      · exact ⟨h, by decide⟩
      · exact h
  | true =>
      obtain ⟨id, p, ha⟩ := h.inv.attached hc
      by_cases hid : pack.id = CLI_GG_Login_REQ
      · rw [onRecvClientPacket_login ha hid]
        have hd := dispatched_inv h ha CLI_GG_Login_REQ
        cases loginReq P g.inited pack with
        | none => exact hd
        | some req =>
            have hn : ClientInv fd (noted id p req (g.log (.dispatched fd CLI_GG_Login_REQ))) :=
              ⟨hd.inv.setPlayer ha.player rfl rfl rfl, hd.cause, hd.running⟩
            simp only
            split_ifs
            · exact sendLink_inv hn (by simp [noted, GateState.log, ha.added]) .login
                (readWord_transID _ _ _ _)
            · exact ⟨hn, by decide⟩
      · rw [onRecvClientPacket_other ha hid]
        exact ⟨h.inv.stop fd, (stop_cause fd g).trans h.cause, (stop_crashed fd g).trans h.running⟩

end Client

/-! ### Packets from the other servers -/

section Inner

variable {P : GateProto} {g : GateState}

/-- Something of a link is being handled. -/
def Cause.ofLink : Cause → Bool
  | .inner .. => true
  | .link _ => true
  | _ => false

/-- The invariant while a buffer of a link is handled. -/
structure LinkInv (g : GateState) : Prop where
  inv : GateInv g
  cause : g.cause.ofLink = true
  running : g.crashed = false

theorem upstream_justified (h : g.cause.ofLink = true) (before : List GateAct) (link : Link)
    (msg : Bytes) : Justifies before (.upstream g.cause link msg) := by
  cases hc : g.cause with
  | client fd => simp [hc, Cause.ofLink] at h
  | inner link t => trivial
  | link link => trivial
  | heartbeat => trivial

theorem replyInnerPing_inv (h : LinkInv g) (link : Link) : LinkInv (g.replyInnerPing link) :=
  ⟨h.inv.log rfl (upstream_justified h.cause _ _ _), h.cause, h.running⟩

theorem receive_inv (h : LinkInv g) (link : Link) (pack : InnerPacket) :
    LinkInv (g.receive link pack) :=
  ⟨h.inv.of_eq rfl rfl rfl rfl rfl, rfl, h.running⟩

/-- The login server's messages change nothing: no state handles them. -/
theorem onEvent_ls (h : GateInv g) {id : PlayerID} {p : GatePlayer} {msgID : UInt32}
    (hp : g.playerIdMap_ id = some p) (hne : msgID ≠ GG_LS_Login_REQ) :
    g.onEvent P id (GateState.lsEvent msgID p) = .ok () g := by
  simp [GateState.onEvent, hp, GateState.lsEvent, (h.player id p hp).2.1, GateState.loginLsOnEvent, hne]

theorem processLoginMessage_eq (h : GateInv g) (msgId : UInt32) (body : Bytes) (t : TransID) :
    g.processLoginMessage P msgId body t = .ok () g := by
  unfold GateState.processLoginMessage
  cases hp : g.playerIdMap_ t with
  | none => rfl
  | some p =>
      simp only [onEvent_ls h hp (show LS_GG_Login_ACK ≠ GG_LS_Login_REQ by decide),
        onEvent_ls h hp (show LS_GG_Kickoff_NTF ≠ GG_LS_Login_REQ by decide), ite_self]

/-- The session of a player is connected, and is the one that its id was given to. -/
theorem GateInv.session_of_player (h : GateInv g) {id : PlayerID} {p : GatePlayer}
    {ps : PlayerSession} (hp : g.playerIdMap_ id = some p) (hps : p.player_session_ = some ps) :
    .added ps.client_session_ id ∈ g.history ∧ .deleted ps.client_session_ ∉ g.history := by
  obtain ⟨hpl, hm⟩ := h.back id p ps hp hps
  have hc : g.isConnected ps.client_session_ = true := by rw [h.live, hm]; rfl
  obtain ⟨id', p', ha⟩ := h.attached hc
  have hid : id' = id := by
    rw [Option.some.inj (hm.symm.trans ha.session)] at hpl
    exact Option.some.inj hpl
  exact ⟨hid ▸ ha.added, ha.not_deleted⟩

theorem processGsMessage_inv (h : LinkInv g) {link : Link} {t : TransID} (hc : g.cause = .inner link t)
    (msgId : UInt32) (body : Bytes) : LinkInv (g.processGsMessage P msgId body t) := by
  have hfwd : ∀ p data len, g.playerIdMap_ t = some p → LinkInv (g.onGsToClient data len p) := by
    intro p data len hp
    unfold GateState.onGsToClient GateState.forward2Client
    cases hps : p.player_session_ with
    | none => exact h
    | some ps =>
        refine ⟨h.inv.log rfl ?_, h.cause, h.running⟩
        rw [hc]
        exact h.inv.session_of_player hp hps
  unfold GateState.processGsMessage
  cases hp : g.playerIdMap_ t with
  | none => exact h
  | some p =>
      simp only
      split_ifs
      · exact h
      · cases P.toServerImage body with
        | none => exact hfwd p _ _ hp
        | some data => exact hfwd p _ _ hp

end Inner

/-! ### Steps and runs -/

variable {P : GateProto} {g g' : GateState}

theorem settle_inv {α : Type} {onThrow : GateState → GateState} {r : Call GateState α}
    (hr : Ends GateInv (fun _ => GateInv) r) (ht : ∀ g, GateInv g → GateInv (onThrow g)) :
    GateInv (GateState.settle onThrow r) := by
  cases r with
  | ok _ g => exact hr
  | error e g =>
      cases e with
      | thrown => exact ht g hr
      | outOfBounds => exact GateInv.of_eq hr rfl rfl rfl rfl rfl
      | nullCall => exact GateInv.of_eq hr rfl rfl rfl rfl rfl
      | deleted => exact GateInv.of_eq hr rfl rfl rfl rfl rfl

theorem clientInv_of_inv (h : GateInv g) (hc : g.crashed = false) (fd : UInt32) :
    ClientInv fd { g with cause := .client fd } :=
  ⟨h.of_eq rfl rfl rfl rfl rfl, rfl, hc⟩

theorem onRecvClientData_inv {fd : UInt32} (h : ClientInv fd g) (data : Bytes) :
    Ends (ClientInv fd) (ClientFault fd) (GateState.onRecvClientData P fd data g) := by
  apply ends_recvLoop (I := ClientInv fd)
  · intro g h
    exact replyPing_inv h
  · intro pack g h
    exact onRecvClientPacket_inv h pack
  · exact h

/-- Buffers of the login server are handled without a fault. -/
theorem onRecvLoginData_inv (h : LinkInv g) (data : Bytes) :
    Ends LinkInv (fun _ _ => False) (GateState.onRecvLoginData P data g) := by
  apply ends_recvLoop (I := LinkInv)
  · intro g h
    exact replyInnerPing_inv h .login
  · intro pack g h
    have hr := receive_inv h .login pack
    rw [processLoginMessage_eq hr.inv]
    exact hr
  · exact h

/-- Buffers of the game server are handled without a fault. -/
theorem onRecvServerData_inv (h : LinkInv g) (data : Bytes) :
    Ends LinkInv (fun _ _ => False) (GateState.onRecvServerData P data g) := by
  apply ends_recvLoop (I := LinkInv)
  · intro g h
    exact replyInnerPing_inv h .game
  · intro pack g h
    exact processGsMessage_inv (receive_inv h .game pack) rfl _ _
  · exact h

theorem linkInv_of_inv (h : GateInv g) (hc : g.crashed = false) (link : Link) :
    LinkInv { g with cause := .link link } :=
  ⟨h.of_eq rfl rfl rfl rfl rfl, rfl, hc⟩

theorem settle_link {α : Type} {onThrow : GateState → GateState} {r : Call GateState α}
    (hr : Ends LinkInv (fun _ _ => False) r) : LinkInv (GateState.settle onThrow r) := by
  cases r with
  | ok _ g => exact hr
  | error e g => exact hr.elim

theorem peerGone_inv (h : GateInv g) {fd : UInt32} {s : ClientSession} (hs : g.sessions fd = some s) :
    GateInv { g with sessions := g.sessions.set fd { s with peerGone := true } } where
  player := h.player
  entry := h.entry
  back := h.back
  live := by
    intro fd'
    have hl := h.live fd'
    by_cases he : fd' = fd
    · subst he
      simpa [GateState.isConnected, hs] using hl
    · simpa [GateState.isConnected, Table.set_of_ne he] using hl
  gone := by
    intro fd' hfd
    obtain ⟨s', hs', hst⟩ := h.gone fd' hfd
    by_cases he : fd' = fd
    · subst he
      obtain rfl : s = s' := Option.some.inj (hs.symm.trans hs')
      exact ⟨_, Table.set_self _ _ _, hst⟩
    · exact ⟨s', (Table.set_of_ne he).trans hs', hst⟩
  given := by
    intro fd' id hadd
    refine ⟨?_, (h.given fd' id hadd).2⟩
    by_cases he : fd' = fd
    · simp [he]
    · simpa [Table.set_of_ne he] using (h.given fd' id hadd).1
  count := by
    obtain ⟨fds, hnd, hlen, hall⟩ := h.count
    refine ⟨fds, hnd, hlen, fun fd' hfd' => ?_⟩
    by_cases he : fd' = fd
    · simp [he]
    · simpa [Table.set_of_ne he] using hall fd' hfd'
  just := h.just

/-- What the step of an event does, and when it is possible. -/
def Stepped (P : GateProto) (g : GateState) (e : GateEvent) (g' : GateState) : Prop :=
  match e with
  | .accept fd => g.sessions fd = none ∧ g' = GateState.settle id
      (({ g with sessions := g.sessions.set fd ⟨false, false⟩ } : GateState).addSession fd)
  | .clientData fd data => (g.sessions fd).isSome ∧ g' = GateState.settle (GateState.stop fd)
      (GateState.onRecvClientData P fd data { g with cause := .client fd })
  | .disconnect fd => g' = g.stop fd
  | .peerGone fd => ∃ s, g.sessions fd = some s ∧
      g' = { g with sessions := g.sessions.set fd { s with peerGone := true } }
  | .loginData data =>
      g' = GateState.settle id (GateState.onRecvLoginData P data { g with cause := .link .login })
  | .gameData data =>
      g' = GateState.settle id (GateState.onRecvServerData P data { g with cause := .link .game })
  | .linkChange link up => g' = { g with connected := Function.update g.connected link up }
  | .clientPing fd => g.isConnected fd = true ∧
      g' = GateState.sendPing fd { g with cause := .heartbeat }
  | .linkPing link => g.connected link = true ∧
      g' = GateState.sendInnerPing link { g with cause := .heartbeat }
  | .init => g' = { g with inited := true }

theorem step_cases {e : GateEvent} (hs : g.step P e = some g') :
    g.crashed = false ∧ Stepped P g e g' := by
  have hc : g.crashed = false := by
    by_contra hc
    simp [GateState.step, hc] at hs
  refine ⟨hc, ?_⟩
  unfold GateState.step at hs
  rw [if_neg (by simp [hc])] at hs
  cases e with
  | accept fd =>
      cases hfd : g.sessions fd with
      | some s => simp [hfd] at hs
      | none =>
          simp only [hfd, Option.some.injEq] at hs
          exact ⟨hfd, hs.symm⟩
  | clientData fd data =>
      cases hfd : g.sessions fd with
      | none => simp [hfd] at hs
      | some s =>
          simp only [hfd, Option.some.injEq] at hs
          exact ⟨by simp [hfd], hs.symm⟩
  | disconnect fd =>
      cases hfd : g.sessions fd with
      | none => simp [hfd] at hs
      | some s =>
          simp only [hfd, Option.some.injEq] at hs
          exact hs.symm
  | peerGone fd =>
      cases hfd : g.sessions fd with
      | none => simp [hfd] at hs
      | some s =>
          simp only [hfd, Option.some.injEq] at hs
          exact ⟨s, hfd, hs.symm⟩
  | loginData data => exact (Option.some.inj hs).symm
  | gameData data => exact (Option.some.inj hs).symm
  | linkChange link up => exact (Option.some.inj hs).symm
  | clientPing fd =>
      simp only at hs
      split_ifs at hs with hfd
      exact ⟨hfd, (Option.some.inj hs).symm⟩
  | linkPing link =>
      simp only at hs
      split_ifs at hs with hup
      exact ⟨hup, (Option.some.inj hs).symm⟩
  | init =>
      simp only at hs
      split_ifs at hs
      exact (Option.some.inj hs).symm

/-- Every step keeps the invariant. -/
theorem gate_step_inv {e : GateEvent} (h : GateInv g) (hs : g.step P e = some g') : GateInv g' := by
  obtain ⟨hc, hs⟩ := step_cases hs
  cases e with
  | accept fd =>
      obtain ⟨hfd, rfl⟩ := hs
      rw [h.addSession_eq hfd]
      exact h.accepted_inv hfd
  | clientData fd data =>
      obtain ⟨-, rfl⟩ := hs
      apply settle_inv _ fun _ h => h.stop fd
      exact (onRecvClientData_inv (clientInv_of_inv h hc fd) data).imp (fun _ h => h.inv)
        fun _ _ h => h.1.inv
  | disconnect fd =>
      obtain rfl := hs
      exact h.stop fd
  | peerGone fd =>
      obtain ⟨s, hfd, rfl⟩ := hs
      exact peerGone_inv h hfd
  | loginData data =>
      obtain rfl := hs
      exact (settle_link (onRecvLoginData_inv (linkInv_of_inv h hc .login) data)).inv
  | gameData data =>
      obtain rfl := hs
      exact (settle_link (onRecvServerData_inv (linkInv_of_inv h hc .game) data)).inv
  | linkChange link up =>
      obtain rfl := hs
      exact h.of_eq rfl rfl rfl rfl rfl
  | clientPing fd =>
      obtain ⟨-, rfl⟩ := hs
      exact (h.of_eq rfl rfl rfl rfl rfl : GateInv { g with cause := .heartbeat }).log rfl trivial
  | linkPing link =>
      obtain ⟨-, rfl⟩ := hs
      exact (h.of_eq rfl rfl rfl rfl rfl : GateInv { g with cause := .heartbeat }).log rfl trivial
  | init =>
      obtain rfl := hs
      exact h.of_eq rfl rfl rfl rfl rfl

theorem gate_init_inv (P : GateProto) : GateInv (gateMachine P).init where
  player := fun _ _ hp => by cases hp
  entry := fun _ _ hm => by cases hm
  back := fun _ _ _ hp => by cases hp
  live := fun _ => rfl
  gone := fun _ hg => by simp [gateMachine] at hg
  given := fun _ _ hg => by simp [gateMachine] at hg
  count := ⟨[], List.nodup_nil, rfl, by simp⟩
  just := justified_nil _

/-- **The invariant holds in every reachable state.** -/
theorem gate_inv (h : (gateMachine P).Reachable g) : GateInv g :=
  (gateMachine P).invariant (gate_init_inv P) (fun _ _ _ hi hs => gate_step_inv hi hs) h

end BlackSwan
