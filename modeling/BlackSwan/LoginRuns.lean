import BlackSwan.LoginInvariant

/-! # Runs of the login server

Where players come from is in the history (`Origins`): every player belongs to one accepted
request, and every packet for it goes to the gate session of that request, with the `transID` the
player was given.  This holds whatever the ids do.

`step_cases` says everything that a step can do, and the invariants follow for runs. -/

namespace BlackSwan.Login

open Wire Runs Tables

/-! ### Where players come from -/

/-- The players of the requests that were accepted. -/
def requests (h : List LoginAct) : List ℕ := h.filterMap fun
  | .accepted p _ _ => some p
  | _ => none

theorem mem_requests {p : ℕ} {fd : UInt32} {t : TransID} {h : List LoginAct}
    (hm : .accepted p fd t ∈ h) : p ∈ requests h :=
  List.mem_filterMap.mpr ⟨_, hm, rfl⟩

structure Origins (s : LoginServer) : Prop where
  requests : requests s.history = List.range s.made
  filed : ∀ id p, s.playerMap_ id = some p → p < s.made
  session : ∀ fd gs, s.session_map_ fd = some gs → gs.session_ = fd
  accepted : ∀ p fd t, .accepted p fd t ∈ s.history →
    (s.players p).gate_session_fd_ = fd ∧ (s.players p).trans_id_ = t.toUInt32.toUInt64
  sent : ∀ c fd msgId msg, .sent c fd msgId msg ∈ s.history → ∃ p, c = some p ∧ p < s.made ∧
    (s.players p).gate_session_fd_ = fd ∧
    readWord msg 4 8 = some (s.players p).trans_id_.toUInt32.toNat
  built : ∀ p auth, .built p auth ∈ s.history →
    p < s.made ∧ auth.getVal .gl_csHandle = decimal (s.players p).id_.toNat

namespace Origins

variable {s s' : LoginServer}

theorem lt_made (h : Origins s) {p : ℕ} {fd : UInt32} {t : TransID}
    (hm : .accepted p fd t ∈ s.history) : p < s.made := by
  have := mem_requests hm
  rwa [h.requests, List.mem_range] at this

/-- New entries in the history, with the players as they were. -/
theorem extend (h : Origins s) {l : List LoginAct} (hl : s'.history = s.history ++ l)
    (hm : s'.made = s.made)
    (hor : ∀ q, (s'.players q).id_ = (s.players q).id_ ∧
      (s'.players q).gate_session_fd_ = (s.players q).gate_session_fd_ ∧
      (s'.players q).trans_id_ = (s.players q).trans_id_)
    (hfile : ∀ id q, s'.playerMap_ id = some q → s.playerMap_ id = some q)
    (hsess : ∀ fd gs, s'.session_map_ fd = some gs → gs.session_ = fd)
    (hacc : ∀ p fd t, .accepted p fd t ∉ l)
    (hsent : ∀ c fd msgId msg, .sent c fd msgId msg ∈ l → ∃ p, c = some p ∧ p < s.made ∧
      (s.players p).gate_session_fd_ = fd ∧
      readWord msg 4 8 = some (s.players p).trans_id_.toUInt32.toNat)
    (hbuilt : ∀ p auth, .built p auth ∈ l →
      p < s.made ∧ auth.getVal .gl_csHandle = decimal (s.players p).id_.toNat) : Origins s' := by
  have hreq : Login.requests l = [] := by
    apply List.filterMap_eq_nil_iff.mpr
    intro a hal
    cases a with
    | accepted p fd t => exact absurd hal (hacc p fd t)
    | sent _ _ _ _ => rfl
    | built _ _ => rfl
    | heartbeat _ _ => rfl
  constructor
  · rw [hl, Login.requests, List.filterMap_append, hm]
    change Login.requests s.history ++ Login.requests l = _
    rw [hreq, List.append_nil, h.requests]
  · intro id q hq
    rw [hm]
    exact h.filed id q (hfile id q hq)
  · exact hsess
  · intro q fd t hq
    obtain ⟨-, e₁, e₂⟩ := hor q
    rw [hl] at hq
    rw [e₁, e₂]
    rcases List.mem_append.mp hq with hq | hq
    · exact h.accepted q fd t hq
    · exact absurd hq (hacc q fd t)
  · intro c fd msgId msg hmsg
    rw [hl] at hmsg
    rw [hm]
    obtain ⟨q, hc, hlt, hfd, hread⟩ := (List.mem_append.mp hmsg).elim (h.sent c fd msgId msg)
      (hsent c fd msgId msg)
    obtain ⟨-, e₁, e₂⟩ := hor q
    refine ⟨q, hc, hlt, e₁.trans hfd, ?_⟩
    rw [e₂]
    exact hread
  · intro q auth hmsg
    rw [hl] at hmsg
    rw [hm, (hor q).1]
    exact (List.mem_append.mp hmsg).elim (h.built q auth) (hbuilt q auth)

/-- What is done for a player. -/
theorem acts (h : Origins s) {p : ℕ} {K : ℕ → Prop} (ha : Acts p K s s') (hp : p < s.made)
    (hK : ∀ q, K q → q < s.made) : Origins s' := by
  obtain ⟨l, hl, hall⟩ := ha.entries
  apply h.extend hl ha.made ha.origin ha.filed
  · rw [ha.session_map_]
    exact h.session
  · intro q fd t hq
    exact hall _ hq
  · intro c fd msgId msg hm
    obtain ⟨q, gs, hc, hq, hgs, hfd, hmsg⟩ := hall _ hm
    refine ⟨q, hc, ?_, (h.session _ gs hgs).symm.trans hfd, hmsg⟩
    obtain rfl | ⟨hq, -⟩ := hq
    · exact hp
    · exact hK q hq
  · intro q auth hm
    obtain ⟨rfl, hval⟩ := hall _ hm
    exact ⟨hp, hval⟩

/-- A request is accepted. -/
theorem accept (h : Origins s) (fd transID : UInt32) (ht : transID = s.handling.toUInt32) :
    Origins (s.accept fd transID) := by
  have hnew : (s.accept fd transID).players s.made =
      Player.setOrigin fd transID.toUInt64 (Player.new (s.player_idx_ + 1)) := by
    simp [LoginServer.accept, LoginServer.log, LoginServer.fetchPlayer]
  have hold : ∀ p < s.made, (s.accept fd transID).players p = s.players p := by
    intro p hp
    have hne := Nat.ne_of_lt hp
    rw [LoginServer.accept, LoginServer.updatePlayer_of_ne hne]
    simp [LoginServer.log, LoginServer.fetchPlayer, hne]
  have hhist : (s.accept fd transID).history = s.history ++ [.accepted s.made fd s.handling] := rfl
  have hmem : ∀ a, a ∈ (s.accept fd transID).history ↔
      a ∈ s.history ∨ a = .accepted s.made fd s.handling := by
    intro a
    rw [hhist, List.mem_append, List.mem_singleton]
  constructor
  · rw [hhist, Login.requests, List.filterMap_append]
    change Login.requests s.history ++ [s.made] = List.range (s.made + 1)
    rw [h.requests, List.range_succ]
  · intro id p hp
    have hmap : s.playerMap_.emplace (s.player_idx_ + 1) s.made id = some p := hp
    show p < s.made + 1
    unfold Table.emplace at hmap
    split_ifs at hmap
    · exact Nat.lt_succ_of_lt (h.filed id p hmap)
    · obtain ⟨-, rfl⟩ | ⟨-, hmap⟩ := Table.set_eq_some.mp hmap
      · exact Nat.lt_succ_self _
      · exact Nat.lt_succ_of_lt (h.filed id p hmap)
  · exact h.session
  · intro p fd' t hm
    obtain hm | hm := (hmem _).mp hm
    · rw [hold p (h.lt_made hm)]
      exact h.accepted p fd' t hm
    · obtain ⟨rfl, rfl, rfl⟩ := LoginAct.accepted.inj hm
      rw [hnew, ht]
      exact ⟨rfl, rfl⟩
  · intro c fd' msgId msg hm
    obtain hm | hm := (hmem _).mp hm
    · obtain ⟨p, hc, hlt, hrest⟩ := h.sent c fd' msgId msg hm
      refine ⟨p, hc, Nat.lt_succ_of_lt hlt, ?_⟩
      rw [hold p hlt]
      exact hrest
    · cases hm
  · intro p auth hm
    obtain hm | hm := (hmem _).mp hm
    · obtain ⟨hlt, hval⟩ := h.built p auth hm
      rw [hold p hlt]
      exact ⟨Nat.lt_succ_of_lt hlt, hval⟩
    · cases hm

end Origins

/-! ### Steps and runs -/

/-- A step on which no player is concerned: queues, sessions and heartbeats. -/
structure Calm (s s' : LoginServer) : Prop where
  players : s'.players = s.players
  made : s'.made = s.made
  playerMap_ : s'.playerMap_ = s.playerMap_
  pTIDMap_ : s'.pTIDMap_ = s.pTIDMap_
  player_idx_ : s'.player_idx_ = s.player_idx_
  crashed : s'.crashed = s.crashed
  session : ∀ fd gs, s'.session_map_ fd = some gs → s.session_map_ fd = some gs ∨ gs.session_ = fd
  entries : ∃ h, s'.history = s.history ++ h ∧ ∀ a ∈ h, ∃ fd msg, a = .heartbeat fd msg

namespace Calm

variable {s s' s'' : LoginServer}

/-- A step without a heartbeat. -/
theorem of_eq (hpl : s'.players = s.players) (hm : s'.made = s.made)
    (hmap : s'.playerMap_ = s.playerMap_) (hpt : s'.pTIDMap_ = s.pTIDMap_)
    (hi : s'.player_idx_ = s.player_idx_) (hc : s'.crashed = s.crashed)
    (hs : s'.session_map_ = s.session_map_) (hh : s'.history = s.history) : Calm s s' where
  players := hpl
  made := hm
  playerMap_ := hmap
  pTIDMap_ := hpt
  player_idx_ := hi
  crashed := hc
  session fd gs h := Or.inl (by rwa [hs] at h)
  entries := ⟨[], by simp [hh]⟩

theorem refl (s : LoginServer) : Calm s s := of_eq rfl rfl rfl rfl rfl rfl rfl rfl

theorem sendInnerPing (s : LoginServer) (fd : UInt32) : Calm s (s.sendInnerPing fd) :=
  { refl s with entries := ⟨[_], rfl, fun _ ha => ⟨_, _, List.mem_singleton.mp ha⟩⟩ }

theorem recvData (s : LoginServer) (fd : UInt32) (data : Bytes) :
    Ends (Calm s) (fun _ _ => False) (LoginServer.onRecvData fd data s) := by
  apply ends_recvLoop
  · rintro s₁ ⟨hpl, hm, hmap, hpt, hi, hc, hs, l, hl, hpong⟩
    refine ⟨hpl, hm, hmap, hpt, hi, hc, hs, l ++ [.heartbeat fd
      (encodeInnerPacket CS_HeartBeat_Ack GateState.PONG 5 0)], ?_, ?_⟩
    · show s₁.history ++ _ = _
      rw [hl, List.append_assoc]
    · intro a ha
      rcases List.mem_append.mp ha with ha | ha
      · exact hpong a ha
      · exact ⟨_, _, List.mem_singleton.mp ha⟩
  · rintro pack s₁ ⟨hpl, hm, hmap, hpt, hi, hc, hs, hl⟩
    exact ⟨hpl, hm, hmap, hpt, hi, hc, hs, hl⟩
  · exact refl s

/-- Nobody is answered. -/
theorem acks_eq (hc : Calm s s') (q : ℕ) : acks q s'.history = acks q s.history := by
  obtain ⟨l, hl, hpong⟩ := hc.entries
  have hzero : acks q l = 0 := by
    apply List.countP_eq_zero.mpr
    intro a ha
    obtain ⟨fd, msg, rfl⟩ := hpong a ha
    simp [isAck]
  rw [hl, acks_append, hzero, Nat.add_zero]

theorem sound (hc : Calm s s') (h : Sound s) : Sound s' :=
  h.of_eq hc.players hc.made hc.playerMap_ hc.pTIDMap_ hc.player_idx_ hc.crashed hc.acks_eq

theorem origins (hc : Calm s s') (h : Origins s) : Origins s' := by
  obtain ⟨l, hl, hpong⟩ := hc.entries
  apply h.extend hl hc.made
  · intro q
    rw [hc.players]
    exact ⟨rfl, rfl, rfl⟩
  · intro id q hq
    rwa [hc.playerMap_] at hq
  · intro fd gs hgs
    obtain hgs | hgs := hc.session fd gs hgs
    · exact h.session fd gs hgs
    · exact hgs
  · intro p fd t hm
    obtain ⟨_, _, e⟩ := hpong _ hm
    cases e
  · intro c fd msgId msg hm
    obtain ⟨_, _, e⟩ := hpong _ hm
    cases e
  · intro p auth hm
    obtain ⟨_, _, e⟩ := hpong _ hm
    cases e

end Calm

/-- A login request that arrives in one piece is queued as it came. -/
theorem onRecvData_request (fd : UInt32) (t : TransID) {body : Bytes}
    (hlen : body.length ≤ 2 ^ 31 - 1) (s : LoginServer) :
    LoginServer.onRecvData fd (encodeInnerMsg (GG_LS_Login_REQ, t, body)) s =
      .ok 0 (s.pushMsg ⟨GG_LS_Login_REQ, t, fd, body⟩) := by
  obtain ⟨pack, hpack, e⟩ := innerLoop_encode (LoginServer.replyInnerPing fd)
    (fun pack s => .ok () (s.pushMsg ⟨pack.id, pack.transID, fd, pack.body⟩))
    (m := (GG_LS_Login_REQ, t, body)) hlen rfl s
  obtain ⟨hid, hrest⟩ := Prod.mk.inj hpack
  obtain ⟨ht, hbody⟩ := Prod.mk.inj hrest
  rw [LoginServer.onRecvData, e, hid, ht, hbody]

section

variable {P : LoginProto} {cfg : Config} {s s' : LoginServer} {e : LoginEvent}

/-- Everything that a step can do: nothing for a player, something for a player on file, or
something for the player of a new request. -/
def Stepped (s s' : LoginServer) : Prop :=
  Calm s s' ∨
  (∃ s₁ p, Calm s s₁ ∧ Acts.OnFile s₁ p ∧ Acts p (Acts.OnFile s₁) s₁ s') ∨
  ∃ s₁ fd transID, Calm s s₁ ∧ transID = s₁.handling.toUInt32 ∧
    Acts s.made (Acts.OnFile (s₁.accept fd transID)) (s₁.accept fd transID) s'

theorem stepped_processMsg (hc : Calm s s') (m : MessageParam) (clock : Clock) :
    Stepped s (s'.processMsg P cfg m clock) := by
  have hc₁ : Calm s { s' with handling := m.transID } :=
    ⟨hc.players, hc.made, hc.playerMap_, hc.pTIDMap_, hc.player_idx_, hc.crashed, hc.session,
      hc.entries⟩
  obtain e | ⟨req, e⟩ | ⟨id, p, hp, e⟩ := processMsg_cases P cfg clock s' m
  · rw [e]
    exact Or.inl hc₁
  · rw [e]
    refine Or.inr (Or.inr ⟨_, m.gate_session_fd, m.transID.toUInt32, hc₁, rfl, ?_⟩)
    rw [← hc₁.made]
    exact Acts.recvGgLoginReq P cfg req _ _ clock _
  · rw [e]
    exact Or.inr (Or.inl ⟨_, p, hc₁, ⟨id, hp⟩, Acts.onEvent P cfg _ clock⟩)

theorem stepped_processApMsg (hc : Calm s s') (m : APMsg) (clock : Clock) :
    Stepped s (s'.processApMsg P cfg m clock) := by
  obtain ⟨l, e | ⟨auth, p, event, -, hp, -, e⟩⟩ := processApMsg_cases P cfg clock s' m
  all_goals
    have hc₁ : Calm s { s' with apg_list_ := l } :=
      ⟨hc.players, hc.made, hc.playerMap_, hc.pTIDMap_, hc.player_idx_, hc.crashed, hc.session,
        hc.entries⟩
    rw [e]
  · exact Or.inl hc₁
  · exact Or.inr (Or.inl ⟨_, p, hc₁, ⟨_, hp⟩, Acts.onEvent P cfg event clock⟩)

/-- The steps of the other threads. -/
theorem step_calm (hs : LoginServer.step P cfg s e = some s')
    (he : ∀ clock, e ≠ .processMsg clock ∧ e ≠ .processApMsg clock) : Calm s s' := by
  unfold LoginServer.step at hs
  split_ifs at hs
  cases e with
  | addSession fd =>
      obtain rfl := Option.some.inj hs
      refine { Calm.refl s with session := ?_ }
      intro fd' gs hgs
      have hgs : s.session_map_.emplace fd ⟨fd⟩ fd' = some gs := hgs
      unfold Table.emplace at hgs
      split_ifs at hgs
      · exact Or.inl hgs
      · obtain ⟨rfl, rfl⟩ | ⟨-, hgs⟩ := Table.set_eq_some.mp hgs
        · exact Or.inr rfl
        · exact Or.inl hgs
  | delSession fd =>
      obtain rfl := Option.some.inj hs
      refine { Calm.refl s with session := ?_ }
      intro fd' gs hgs
      exact Or.inl (Table.erase_eq_some.mp hgs).2
  | ping fd =>
      dsimp only at hs
      split_ifs at hs
      obtain rfl := Option.some.inj hs
      exact Calm.sendInnerPing s fd
  | recvData fd data =>
      have hends := Calm.recvData s fd data
      dsimp only at hs
      split at hs
      · rename_i hr
        rw [hr] at hends
        obtain rfl := Option.some.inj hs
        exact hends
      · rename_i hr
        rw [hr] at hends
        exact absurd hends id
  | operateResult auth operation result nErrorCode now =>
      obtain rfl := Option.some.inj hs
      exact Calm.of_eq rfl rfl rfl rfl rfl rfl rfl rfl
  | processMsg clock => exact absurd rfl (he clock).1
  | processApMsg clock => exact absurd rfl (he clock).2

/-- The main thread takes the first message of a gate. -/
theorem step_processMsg {clock : Clock}
    (hs : LoginServer.step P cfg s (.processMsg clock) = some s') :
    ∃ m s₁, Calm s s₁ ∧ s' = s₁.processMsg P cfg m clock := by
  unfold LoginServer.step at hs
  split_ifs at hs
  dsimp only at hs
  split at hs
  · cases hs
  · rename_i m rest _
    obtain rfl := Option.some.inj hs
    exact ⟨m, { s with message_list_ := rest }, Calm.of_eq rfl rfl rfl rfl rfl rfl rfl rfl, rfl⟩

/-- The main thread takes the first result of the AP. -/
theorem step_processApMsg {clock : Clock}
    (hs : LoginServer.step P cfg s (.processApMsg clock) = some s') :
    ∃ m rest, s.apg_list_ = m :: rest ∧
      s' = ({ s with apg_list_ := rest } : LoginServer).processApMsg P cfg m clock := by
  unfold LoginServer.step at hs
  split_ifs at hs
  dsimp only at hs
  split at hs
  · cases hs
  · rename_i m rest hlist
    obtain rfl := Option.some.inj hs
    exact ⟨m, rest, hlist, rfl⟩

theorem calm_setApgList (s : LoginServer) (l : List APMsg) : Calm s { s with apg_list_ := l } :=
  Calm.of_eq rfl rfl rfl rfl rfl rfl rfl rfl

theorem step_cases (hs : LoginServer.step P cfg s e = some s') : Stepped s s' := by
  cases e with
  | processMsg clock =>
      obtain ⟨m, s₁, hc, rfl⟩ := step_processMsg hs
      exact stepped_processMsg hc m clock
  | processApMsg clock =>
      obtain ⟨m, rest, -, rfl⟩ := step_processApMsg hs
      exact stepped_processApMsg (calm_setApgList s rest) m clock
  | addSession _ => exact Or.inl (step_calm hs (by simp))
  | delSession _ => exact Or.inl (step_calm hs (by simp))
  | ping _ => exact Or.inl (step_calm hs (by simp))
  | recvData _ _ => exact Or.inl (step_calm hs (by simp))
  | operateResult _ _ _ _ _ => exact Or.inl (step_calm hs (by simp))

theorem Sound.step (h : Sound s) (hs : LoginServer.step P cfg s e = some s')
    (hw : s'.made < 2 ^ 64) : Sound s' := by
  cases e with
  | processMsg clock =>
      obtain ⟨m, s₁, hc, rfl⟩ := step_processMsg hs
      exact (hc.sound h).processMsg P cfg m clock hw
  | processApMsg clock =>
      obtain ⟨m, rest, -, rfl⟩ := step_processApMsg hs
      exact ((calm_setApgList s rest).sound h).processApMsg P cfg m clock
  | addSession _ => exact (step_calm hs (by simp)).sound h
  | delSession _ => exact (step_calm hs (by simp)).sound h
  | ping _ => exact (step_calm hs (by simp)).sound h
  | recvData _ _ => exact (step_calm hs (by simp)).sound h
  | operateResult _ _ _ _ _ => exact (step_calm hs (by simp)).sound h

theorem Origins.step (h : Origins s) (hs : LoginServer.step P cfg s e = some s') : Origins s' := by
  obtain hc | ⟨s₁, p, hc, ⟨id, hp⟩, ha⟩ | ⟨s₁, fd, transID, hc, ht, ha⟩ := step_cases hs
  · exact hc.origins h
  · have h₁ := hc.origins h
    apply h₁.acts ha (h₁.filed id p hp)
    rintro q ⟨id', hq⟩
    exact h₁.filed id' q hq
  · have h₁ := (hc.origins h).accept fd transID ht
    apply h₁.acts ha
    · rw [← hc.made]
      exact Nat.lt_succ_self _
    · rintro q ⟨id', hq⟩
      exact h₁.filed id' q hq

/-- Requests are never forgotten. -/
theorem made_le_step (hs : LoginServer.step P cfg s e = some s') : s.made ≤ s'.made := by
  obtain hc | ⟨s₁, p, hc, -, ha⟩ | ⟨s₁, fd, transID, hc, -, ha⟩ := step_cases hs
  · exact Nat.le_of_eq hc.made.symm
  · rw [ha.made, hc.made]
  · rw [ha.made]
    show s.made ≤ s₁.made + 1
    rw [hc.made]
    exact Nat.le_succ _

theorem origins_of_run {es : List LoginEvent} (h : (loginMachine P cfg).run es = some s) :
    Origins s := by
  refine (loginMachine P cfg).invariant (P := Origins) ?_ (fun _ _ _ h hs => h.step hs) ⟨es, h⟩
  constructor
  · rfl
  · intro id p h
    cases h
  · intro fd gs h
    cases h
  · intro p fd t h
    cases h
  · intro c fd msgId msg h
    cases h
  · intro p auth h
    cases h

/-- **The indexes and the answers**, in every state that is reached with less than `2^64`
requests. -/
theorem sound_of_run {es : List LoginEvent} (h : (loginMachine P cfg).run es = some s)
    (hw : s.made < 2 ^ 64) : Sound s := by
  refine (loginMachine P cfg).run_induction (P := fun _ s => s.made < 2 ^ 64 → Sound s) ?_ ?_ h hw
  · intro _
    constructor
    · constructor
      · rfl
      · rfl
      · intro p hp
        exact absurd hp (Nat.not_lt_zero p)
      · intro id p h
        cases h
      · intro id p h
        cases h
      · intro id p h
        cases h
      · intro ptid id h
        cases h
    · constructor
      · exact fun _ => Nat.zero_le _
      · exact fun _ _ => rfl
      · exact fun _ _ => rfl
  · intro es s₁ e s₂ _ ih hs hw₂
    exact (ih (Nat.lt_of_le_of_lt (made_le_step hs) hw₂)).step hs hw₂

end

end BlackSwan.Login
