import BlackSwan.GateClients

/-! # Players and sessions of the gate

Every session on file has its player, in every run.  The converse holds only as long as no session
has ended: `delSession` takes the session from its player and leaves the player in `playerIdMap_`,
and nothing else removes it.  So players and sessions are in bijection exactly in the runs in which
no client session stops.

No player can be destroyed cleanly (`not_destroysCleanly`): without a session the call goes through a
null pointer, and with one the client stays connected. -/

namespace BlackSwan

open Wire Runs Tables

variable {P : GateProto} {g g' : GateState}

/-- The sessions on file and the players are in bijection. -/
structure Bijective (g : GateState) : Prop where
  session : ∀ fd ps, g.session_map_ fd = some ps → ps.client_session_ = fd ∧ ∃ id p,
    ps.player_ = some id ∧ g.playerIdMap_ id = some p ∧ p.player_session_ = some ps
  player : ∀ id p, g.playerIdMap_ id = some p →
    ∃ ps, p.player_session_ = some ps ∧ g.session_map_ ps.client_session_ = some ps

/-! ### Players stay -/

/-- Every session has been given a player that is still there, and every player was given to a
session. -/
structure Kept (g : GateState) : Prop where
  session : ∀ fd, (g.sessions fd).isSome → ∃ id, .added fd id ∈ g.history ∧ (g.playerIdMap_ id).isSome
  player : ∀ id, (g.playerIdMap_ id).isSome → ∃ fd, .added fd id ∈ g.history

/-- A step that makes no session and no player, and changes no session but `fd`. -/
structure Frame (fd : UInt32) (g g' : GateState) : Prop where
  others : ∀ fd', fd' ≠ fd → g'.sessions fd' = g.sessions fd'
  own : (g'.sessions fd).isSome = (g.sessions fd).isSome
  players : ∀ id, (g'.playerIdMap_ id).isSome = (g.playerIdMap_ id).isSome
  history : g.history <+: g'.history

namespace Frame

variable {fd : UInt32}

theorem of_eq (hs : g'.sessions = g.sessions) (hp : g'.playerIdMap_ = g.playerIdMap_)
    (hh : g'.history = g.history) : Frame fd g g' :=
  ⟨fun _ _ => by rw [hs], by rw [hs], fun _ => by rw [hp], by rw [hh]⟩

theorem trans {g'' : GateState} (h : Frame fd g g') (h' : Frame fd g' g'') : Frame fd g g'' where
  others := fun fd' hne => (h'.others fd' hne).trans (h.others fd' hne)
  own := h'.own.trans h.own
  players := fun id => (h'.players id).trans (h.players id)
  history := h.history.trans h'.history

theorem log (act : GateAct) (g : GateState) : Frame fd g (g.log act) :=
  ⟨fun _ _ => rfl, rfl, fun _ => rfl, List.prefix_append _ _⟩

theorem sendLink (link : Link) (msg : Bytes) (g : GateState) : Frame fd g (g.sendLink link msg) := by
  unfold GateState.sendLink
  split_ifs
  · exact of_eq rfl rfl rfl
  · exact log _ g

/-- A player is changed in place. -/
theorem setPlayer {id : PlayerID} {p : GatePlayer} (hp : g.playerIdMap_ id = some p)
    (p' : GatePlayer) : Frame fd g { g with playerIdMap_ := g.playerIdMap_.set id p' } := by
  refine ⟨fun _ _ => rfl, rfl, fun id' => ?_, List.prefix_refl _⟩
  show (g.playerIdMap_.set id p' id').isSome = _
  by_cases hid : id' = id
  · rw [hid, Table.set_self, hp]
    rfl
  · rw [Table.set_of_ne hid]

theorem stop (h : GateInv g) (fd : UInt32) : Frame fd g (g.stop fd) := by
  cases hc : g.isConnected fd with
  | false =>
      rw [GateInv.stop_of_not_connected hc]
      exact of_eq rfl rfl rfl
  | true =>
      obtain ⟨s, hs, hst⟩ := (GateInv.isConnected_iff fd g).mp hc
      obtain ⟨id, p, ha⟩ := h.attached hc
      rw [GateInv.stop_eq hs hst ha.session ha.player]
      have hplayer : Frame fd g _ := setPlayer ha.player { p with player_session_ := none }
      refine ⟨fun fd' hne => Table.set_of_ne hne, ?_, hplayer.players, ?_⟩
      · show (g.sessions.set fd _ fd).isSome = _
        rw [Table.set_self, hs]
        rfl
      · exact (List.prefix_append _ _).trans (List.prefix_append _ _)

/-- One packet of the session `fd`. -/
theorem handleClient (h : ClientInv fd g) (pack : Packet) :
    Ends (Frame fd g) (fun _ => Frame fd g) (handleClient P fd pack g) := by
  cases hb : isHeartBeat pack.id with
  | true =>
      unfold BlackSwan.handleClient onPacket
      split_ifs
      · exact log _ g
      · exact of_eq rfl rfl rfl
      · simp_all [isHeartBeat]
  | false =>
      rw [handleClient_of_not_heartBeat hb]
      cases hc : g.isConnected fd with
      | false =>
          rw [onRecvClientPacket_detached (not_on_file h.inv hc)]
          split_ifs
          · exact of_eq rfl rfl rfl
          · exact stop h.inv fd
      | true =>
          obtain ⟨id, p, ha⟩ := h.inv.attached hc
          by_cases hid : pack.id = CLI_GG_Login_REQ
          · rw [onRecvClientPacket_login ha hid]
            have hlog : Frame fd g (g.log (.dispatched fd CLI_GG_Login_REQ)) := log _ g
            cases loginReq P g.inited pack with
            | none => exact hlog
            | some req =>
                have hplayer : (g.log (.dispatched fd CLI_GG_Login_REQ)).playerIdMap_ id = some p :=
                  ha.player
                have hnoted : Frame fd g (noted id p req (g.log (.dispatched fd CLI_GG_Login_REQ))) :=
                  hlog.trans (setPlayer hplayer _)
                dsimp only
                split_ifs
                · exact hnoted.trans (sendLink _ _ _)
                · exact hnoted
          · rw [onRecvClientPacket_other ha hid]
            exact stop h.inv fd

/-- The packets of a buffer. -/
theorem handleAll (h : ClientInv fd g) (ps : List Packet) :
    Ends (fun g' => ClientInv fd g' ∧ Frame fd g g') (fun _ => Frame fd g)
      (handleAll (BlackSwan.handleClient P fd) ps g) := by
  apply ends_handleAll (I := fun g' => ClientInv fd g' ∧ Frame fd g g')
  · rintro p g' ⟨h', hframe⟩
    have hinv := handleClient_inv (P := P) p h'
    have hone := handleClient (P := P) h' p
    cases hr : BlackSwan.handleClient P fd p g' with
    | ok _ g'' =>
        rw [hr] at hinv hone
        exact ⟨hinv, hframe.trans hone⟩
    | error e g'' =>
        rw [hr] at hone
        exact hframe.trans hone
  · exact ⟨h, of_eq rfl rfl rfl⟩

/-- A client buffer, whatever it ends with. -/
theorem clientData (h : ClientInv fd g) (data : Bytes) :
    Frame fd g (GateState.settle (GateState.stop fd) (GateState.onRecvClientData P fd data g)) := by
  have hall := handleAll (P := P) h (clientDecoder.frames data)
  have hinv := ends_handleAll (fun p g => handleClient_inv (P := P) (g := g) p)
    (clientDecoder.frames data) g h
  rw [onRecvClientData_eq]
  cases hr : Wire.handleAll (BlackSwan.handleClient P fd) (clientDecoder.frames data) g with
  | ok _ g' =>
      rw [hr] at hall
      exact hall.2
  | error e g' =>
      rw [hr] at hall hinv
      cases e with
      | thrown => exact hall.trans (stop hinv.1.inv fd)
      | nullCall => exact hall.trans (of_eq rfl rfl rfl)
      | outOfBounds => exact hall.trans (of_eq rfl rfl rfl)
      | deleted => exact hall.trans (of_eq rfl rfl rfl)

theorem replyInnerPing (link : Link) (g : GateState) : Frame fd g (g.replyInnerPing link) := log _ g

theorem processGsMessage (msgId : UInt32) (body : Bytes) (t : TransID) (g : GateState) :
    Frame fd g (g.processGsMessage P msgId body t) := by
  have hfwd : ∀ data len p, Frame fd g (g.onGsToClient data len p) := by
    intro data len p
    unfold GateState.onGsToClient GateState.forward2Client
    split
    · exact log _ g
    · exact of_eq rfl rfl rfl
  unfold GateState.processGsMessage
  split
  · exact of_eq rfl rfl rfl
  · split_ifs
    · exact of_eq rfl rfl rfl
    · split
      · exact hfwd _ _ _
      · exact hfwd _ _ _

/-- A buffer of a link: the sessions and the players stay as they are. -/
theorem linkData {loop : DataProcess GateState} {data : Bytes}
    (hloop : Ends (fun g' => LinkInv g' ∧ Frame fd g g') (fun _ _ => False) (loop data g)) :
    Frame fd g (GateState.settle id (loop data g)) := by
  cases hr : loop data g with
  | ok _ g' =>
      rw [hr] at hloop
      exact hloop.2
  | error e g' =>
      rw [hr] at hloop
      exact hloop.elim

theorem loginData (h : LinkInv g) (data : Bytes) :
    Frame fd g (GateState.settle id (GateState.onRecvLoginData P data g)) := by
  apply linkData
  apply ends_recvLoop (I := fun g' => LinkInv g' ∧ Frame fd g g')
  · intro g' h
    exact ⟨replyInnerPing_inv h.1 .login, h.2.trans (replyInnerPing .login g')⟩
  · intro pack g' h
    have hr := receive_inv h.1 .login pack
    rw [processLoginMessage_eq hr.inv]
    exact ⟨hr, h.2.trans (of_eq rfl rfl rfl)⟩
  · exact ⟨h, of_eq rfl rfl rfl⟩

theorem gameData (h : LinkInv g) (data : Bytes) :
    Frame fd g (GateState.settle id (GateState.onRecvServerData P data g)) := by
  apply linkData
  apply ends_recvLoop (I := fun g' => LinkInv g' ∧ Frame fd g g')
  · intro g' h
    exact ⟨replyInnerPing_inv h.1 .game, h.2.trans (replyInnerPing .game g')⟩
  · intro pack g' h
    have hreceived : Frame fd g' (g'.receive .game pack) := of_eq rfl rfl rfl
    exact ⟨processGsMessage_inv (receive_inv h.1 .game pack) rfl _ _,
      h.2.trans (hreceived.trans (processGsMessage _ _ _ _))⟩
  · exact ⟨h, of_eq rfl rfl rfl⟩

end Frame

/-- The session that a step may stop. -/
def GateEvent.session : GateEvent → Option UInt32
  | .accept fd => some fd
  | .clientData fd _ => some fd
  | .disconnect fd => some fd
  | .peerGone fd => some fd
  | _ => none

/-- Every step but an accept is a frame; one that is about no session is one for every session. -/
theorem step_frame {e : GateEvent} (h : GateInv g) (hs : g.step P e = some g')
    (he : ∀ fd, e ≠ .accept fd) {fd : UInt32} (hfd : ∀ fd', e.session = some fd' → fd' = fd) :
    Frame fd g g' := by
  obtain ⟨hc, hs⟩ := step_cases hs
  cases e with
  | accept fd' => exact absurd rfl (he fd')
  | clientData fd' data =>
      obtain rfl := hfd fd' rfl
      obtain ⟨-, rfl⟩ := hs
      have hcause : Frame fd' g { g with cause := .client fd' } := .of_eq rfl rfl rfl
      exact hcause.trans (.clientData (clientInv_of_inv h hc fd') data)
  | disconnect fd' =>
      obtain rfl := hfd fd' rfl
      obtain rfl := hs
      exact .stop h fd'
  | peerGone fd' =>
      obtain rfl := hfd fd' rfl
      obtain ⟨s, hs', rfl⟩ := hs
      refine ⟨fun _ hne => Table.set_of_ne hne, ?_, fun _ => rfl, List.prefix_refl _⟩
      show (g.sessions.set fd' _ fd').isSome = (g.sessions fd').isSome
      rw [Table.set_self, hs']
      rfl
  | loginData data =>
      obtain rfl := hs
      have hcause : Frame fd g { g with cause := .link .login } := .of_eq rfl rfl rfl
      exact hcause.trans (.loginData (linkInv_of_inv h hc .login) data)
  | gameData data =>
      obtain rfl := hs
      have hcause : Frame fd g { g with cause := .link .game } := .of_eq rfl rfl rfl
      exact hcause.trans (.gameData (linkInv_of_inv h hc .game) data)
  | linkChange link up =>
      obtain rfl := hs
      exact .of_eq rfl rfl rfl
  | clientPing fd' =>
      obtain ⟨-, rfl⟩ := hs
      have hcause : Frame fd g { g with cause := .heartbeat } := .of_eq rfl rfl rfl
      exact hcause.trans (.log _ _)
  | linkPing link =>
      obtain ⟨-, rfl⟩ := hs
      have hcause : Frame fd g { g with cause := .heartbeat } := .of_eq rfl rfl rfl
      exact hcause.trans (.log _ _)
  | init =>
      obtain rfl := hs
      exact .of_eq rfl rfl rfl

/-- A step of a link or of a heartbeat changes no session. -/
theorem step_sessions {e : GateEvent} (h : GateInv g) (hs : g.step P e = some g')
    (he : e.session = none) : g'.sessions = g.sessions := by
  have hacc : ∀ fd, e ≠ .accept fd := by
    rintro fd rfl
    cases he
  funext fd
  have hne : fd ≠ fd + 1 := by simp
  exact (step_frame h hs hacc (fun _ hfd => by rw [he] at hfd; cases hfd)).others fd hne

theorem Kept.of_frame {fd : UInt32} (h : Kept g) (hf : Frame fd g g') : Kept g' where
  session := by
    intro fd' hfd'
    have hsome : (g.sessions fd').isSome := by
      by_cases he : fd' = fd
      · rw [he, ← hf.own, ← he]
        exact hfd'
      · rw [← hf.others fd' he]
        exact hfd'
    obtain ⟨id, hadd, hp⟩ := h.session fd' hsome
    exact ⟨id, hf.history.subset hadd, by rw [hf.players]; exact hp⟩
  player := by
    intro id hp
    rw [hf.players] at hp
    obtain ⟨fd', hadd⟩ := h.player id hp
    exact ⟨fd', hf.history.subset hadd⟩

theorem Kept.accepted {fd : UInt32} (h : Kept g) : Kept (GateInv.accepted fd g) where
  session := by
    intro fd' hfd'
    by_cases he : fd' = fd
    · exact ⟨g.player_idx_ + 1, by simp [GateInv.accepted, he], by simp [GateInv.accepted]⟩
    · have hsome : (g.sessions fd').isSome := by
        simpa [GateInv.accepted, Table.set_of_ne he] using hfd'
      obtain ⟨id, hadd, hp⟩ := h.session fd' hsome
      refine ⟨id, by simp [GateInv.accepted, hadd], ?_⟩
      by_cases hid : id = g.player_idx_ + 1
      · simp [GateInv.accepted, hid]
      · simpa [GateInv.accepted, Table.set_of_ne hid] using hp
  player := by
    intro id hp
    by_cases hid : id = g.player_idx_ + 1
    · exact ⟨fd, by simp [GateInv.accepted, hid]⟩
    · have hold : (g.playerIdMap_ id).isSome := by
        simpa [GateInv.accepted, Table.set_of_ne hid] using hp
      obtain ⟨fd', hadd⟩ := h.player id hold
      exact ⟨fd', by simp [GateInv.accepted, hadd]⟩

/-- Players are never taken out of `playerIdMap_`. -/
theorem kept_of_reachable (h : (gateMachine P).Reachable g) : Kept g := by
  refine ((gateMachine P).invariant (P := fun g => GateInv g ∧ Kept g)
    ⟨gate_init_inv P, ⟨fun _ hs => (nomatch hs), fun _ hp => (nomatch hp)⟩⟩ ?_ h).2
  rintro s e s' ⟨hinv, hkept⟩ hstep
  have hs : s.step P e = some s' := hstep
  refine ⟨gate_step_inv hinv hs, ?_⟩
  by_cases hacc : ∃ fd, e = .accept fd
  · obtain ⟨fd, rfl⟩ := hacc
    obtain ⟨-, hfd, rfl⟩ := step_cases hs
    rw [hinv.addSession_eq hfd]
    exact hkept.accepted
  · have hframe : Frame (e.session.getD 0) s s' := by
      apply step_frame hinv hs fun fd he => hacc ⟨fd, he⟩
      intro fd hfd
      rw [hfd]
      rfl
    exact hkept.of_frame hframe

/-! ### The bijection -/

/-- No session has ended. -/
def AllConnected (g : GateState) : Prop := ∀ fd, (g.sessions fd).isSome → g.isConnected fd = true

/-- A player whose session has ended is the only thing that breaks the bijection. -/
theorem bijective_iff (h : GateInv g) (hkept : Kept g) : Bijective g ↔ AllConnected g := by
  constructor
  · intro hb fd hfd
    obtain ⟨id, hadd, hp⟩ := hkept.session fd hfd
    obtain ⟨p, hp⟩ := Option.isSome_iff_exists.mp hp
    obtain ⟨ps, hps, hmap⟩ := hb.player id p hp
    obtain ⟨hadd', -⟩ := h.session_of_player hp hps
    obtain rfl : fd = ps.client_session_ := (added_unique h.just hadd hadd').mpr rfl
    rw [h.live, hmap]
    rfl
  · intro hall
    constructor
    · intro fd ps hps
      obtain ⟨hfd, id, p, hid, hp, hback, -⟩ := h.entry fd ps hps
      exact ⟨hfd, id, p, hid, hp, hback⟩
    · intro id p hp
      obtain ⟨fd, hadd⟩ := hkept.player id (Option.isSome_iff_exists.mpr ⟨p, hp⟩)
      obtain ⟨id', p', ha⟩ := h.attached (hall fd (h.given fd id hadd).1)
      obtain rfl : id = id' := (added_unique h.just hadd ha.added).mp rfl
      obtain rfl : p = p' := Option.some.inj (hp.symm.trans ha.player)
      exact ⟨_, ha.back, ha.session⟩

/-- A packet of a connected session that leaves it connected: a heartbeat, or a login request,
unless it parses and its sender has gone. -/
def harmless (P : GateProto) (inited peer : Bool) (p : Packet) : Bool :=
  isHeartBeat p.id || (p.id == CLI_GG_Login_REQ && (peer || (loginReq P inited p).isNone))

/-- No session stops in the step. -/
def keepsSessions (P : GateProto) (g : GateState) : GateEvent → Bool
  | .disconnect fd => !g.isConnected fd
  | .clientData fd data => !g.isConnected fd ||
      (clientDecoder.frames data).all (harmless P g.inited (g.hasPeer fd))
  | _ => true

/-- A session stays connected as long as its packets are harmless. -/
theorem isConnected_handleAll {fd : UInt32} (ps : List Packet) (h : ClientInv fd g) :
    (GateState.settle (GateState.stop fd) (handleAll (handleClient P fd) ps g)).isConnected fd =
      (g.isConnected fd && ps.all (harmless P g.inited (g.hasPeer fd))) := by
  refine handleAll_induction (P := P) (Q := fun ps g r =>
    (GateState.settle (GateState.stop fd) r).isConnected fd =
      (g.isConnected fd && ps.all (harmless P g.inited (g.hasPeer fd)))) ?_ ?_ ?_ ps h
  · intro g
    simp [GateState.settle]
  · intro p ps g g' r hh ih
    rw [ih, List.all_cons]
    cases hh with
    | passed why same =>
        rw [same.isConnected, same.hasPeer, same.inited]
        cases hc : g.isConnected fd with
        | false => rfl
        | true =>
            simp only [hc, if_true] at why
            obtain hb | ⟨hb, hid, hreq⟩ := why
            · simp [harmless, hb]
            · simp [harmless, hid, hreq]
    | forwarded conn hid hreq peer same =>
        rw [same.isConnected, same.hasPeer, same.inited]
        simp [harmless, hid, peer]
    | stopped conn hb hid => simp [isConnected_stop, harmless, hb, hid]
  · intro p ps g e g' hh
    cases hh with
    | thrown conn hid hreq peer =>
        simp [GateState.settle, isConnected_stop, harmless, hid, hreq, peer, isHeartBeat_loginReq]
    | null conn hrange =>
        show g.isConnected fd = _
        rw [conn]
        rfl

theorem isConnected_clientData {fd : UInt32} (data : Bytes) (h : ClientInv fd g) :
    (GateState.settle (GateState.stop fd) (GateState.onRecvClientData P fd data g)).isConnected fd =
      (g.isConnected fd &&
        (clientDecoder.frames data).all (harmless P g.inited (g.hasPeer fd))) := by
  rw [← isConnected_handleAll _ h, onRecvClientData_eq]
  cases handleAll (handleClient P fd) (clientDecoder.frames data) g with
  | ok _ g' => rfl
  | error e g' => cases e <;> rfl

theorem Frame.isConnected {fd fd' : UInt32} (hf : Frame fd g g') (hne : fd' ≠ fd) :
    g'.isConnected fd' = g.isConnected fd' := by
  rw [GateState.isConnected, hf.others fd' hne]
  rfl

/-- In a frame, what becomes of its session decides. -/
theorem Frame.allConnected {fd : UInt32} (hf : Frame fd g g') {keeps : Bool}
    (hk : g'.isConnected fd = (g.isConnected fd && keeps))
    (hgone : g.isConnected fd = false → keeps = true) :
    AllConnected g' ↔ AllConnected g ∧ keeps = true := by
  constructor
  · intro hall
    have hold : AllConnected g := by
      intro fd' hfd'
      by_cases he : fd' = fd
      · subst he
        have hnew := hall fd' (by rw [hf.own]; exact hfd')
        rw [hk, Bool.and_eq_true] at hnew
        exact hnew.1
      · rw [← hf.isConnected he]
        exact hall fd' (by rw [hf.others fd' he]; exact hfd')
    refine ⟨hold, ?_⟩
    cases hc : g.isConnected fd with
    | false => exact hgone hc
    | true =>
        obtain ⟨s, hs, -⟩ := (GateInv.isConnected_iff fd g).mp hc
        have hnew := hall fd (by rw [hf.own, hs]; rfl)
        rw [hk, Bool.and_eq_true] at hnew
        exact hnew.2
  · rintro ⟨hall, hkeeps⟩ fd' hfd'
    by_cases he : fd' = fd
    · subst he
      rw [hf.own] at hfd'
      rw [hk, hall fd' hfd', hkeeps]
      rfl
    · rw [hf.isConnected he]
      exact hall fd' (by rw [← hf.others fd' he]; exact hfd')

theorem allConnected_accepted {fd : UInt32} (hfd : g.sessions fd = none) :
    AllConnected (GateInv.accepted fd g) ↔ AllConnected g := by
  have hother : ∀ fd', fd' ≠ fd → (GateInv.accepted fd g).sessions fd' = g.sessions fd' :=
    fun fd' hne => Table.set_of_ne hne
  constructor
  · intro hall fd' hfd'
    have hne : fd' ≠ fd := by
      rintro rfl
      simp [hfd] at hfd'
    have hnew := hall fd' (by rw [hother fd' hne]; exact hfd')
    rwa [GateState.isConnected, hother fd' hne] at hnew
  · intro hall fd' hfd'
    by_cases he : fd' = fd
    · simp [GateState.isConnected, GateInv.accepted, he]
    · rw [hother fd' he] at hfd'
      have hold := hall fd' hfd'
      rwa [GateState.isConnected, hother fd' he]

/-- The sessions are all connected after a step exactly if they were before it and none stops. -/
theorem step_allConnected {e : GateEvent} (h : GateInv g) (hs : g.step P e = some g') :
    AllConnected g' ↔ AllConnected g ∧ keepsSessions P g e = true := by
  -- a step that is about no session changes none
  have hlink : e.session = none → (AllConnected g' ↔ AllConnected g) := by
    intro he
    simp only [AllConnected, GateState.isConnected, step_sessions h hs he]
  obtain ⟨hc, hcase⟩ := step_cases hs
  cases e with
  | accept fd =>
      obtain ⟨hfd, rfl⟩ := hcase
      rw [h.addSession_eq hfd]
      exact (allConnected_accepted hfd).trans (and_iff_left rfl).symm
  | clientData fd data =>
      apply (step_frame h hs (by rintro _ ⟨⟩) fun _ hfd => (Option.some.inj hfd).symm).allConnected
      · obtain ⟨-, rfl⟩ := hcase
        have hsame : SameIntake g { g with cause := .client fd } := ⟨rfl, rfl, rfl⟩
        rw [isConnected_clientData data (clientInv_of_inv h hc fd), hsame.isConnected, hsame.hasPeer]
        simp only [keepsSessions]
        cases g.isConnected fd <;> rfl
      · intro hgone
        simp [keepsSessions, hgone]
  | disconnect fd =>
      apply (step_frame h hs (by rintro _ ⟨⟩) fun _ hfd => (Option.some.inj hfd).symm).allConnected
      · obtain rfl := hcase
        rw [isConnected_stop, keepsSessions, Bool.and_not_self]
      · intro hgone
        simp [keepsSessions, hgone]
  | peerGone fd =>
      apply (step_frame h hs (by rintro _ ⟨⟩) fun _ hfd => (Option.some.inj hfd).symm).allConnected
      · obtain ⟨s, hfd, rfl⟩ := hcase
        simp [GateState.isConnected, hfd, keepsSessions]
      · intro _
        rfl
  | loginData data => exact (hlink rfl).trans (and_iff_left rfl).symm
  | gameData data => exact (hlink rfl).trans (and_iff_left rfl).symm
  | linkChange link up => exact (hlink rfl).trans (and_iff_left rfl).symm
  | clientPing fd => exact (hlink rfl).trans (and_iff_left rfl).symm
  | linkPing link => exact (hlink rfl).trans (and_iff_left rfl).symm
  | init => exact (hlink rfl).trans (and_iff_left rfl).symm

/-- **Players and sessions are in bijection exactly as long as no session stops.**  A run that has
stopped a session leaves its player in `playerIdMap_` for good. -/
theorem players_sessions_iff (P : GateProto) (es : List GateEvent) (g : GateState)
    (h : (gateMachine P).run es = some g) :
    Bijective g ↔ (gateMachine P).Along (fun g e => keepsSessions P g e = true) es := by
  rw [bijective_iff (gate_inv ⟨es, h⟩) (kept_of_reachable ⟨es, h⟩)]
  refine (gateMachine P).run_induction (P := fun es g =>
    AllConnected g ↔ (gateMachine P).Along (fun g e => keepsSessions P g e = true) es) ?_ ?_ h
  · exact ⟨fun _ => trivial, fun _ _ hs => (nomatch hs)⟩
  · intro es s e s' hrun ih hstep
    rw [(gateMachine P).along_snoc _ hrun, ← ih]
    exact step_allConnected (gate_inv ⟨es, hrun⟩) hstep

/-- Two clients, one of which logs in. -/
def bothStay : List GateEvent :=
  [.linkChange .login true, .linkChange .game true, .init, .accept 1, .accept 2,
    .clientData 1 (encodePacket CLI_GG_Login_REQ [] 0 ++ encodePacket CS_HeartBeat_Req [] 0)]

theorem players_sessions_bothStay : ∃ g, (gateMachine plainProto).run bothStay = some g ∧
    Bijective g ∧ (g.playerIdMap_ 2).isSome = true := by
  obtain ⟨g, h⟩ : ∃ g, (gateMachine plainProto).run bothStay = some g :=
    Option.isSome_iff_exists.mp (by decide +kernel)
  refine ⟨g, h, (players_sessions_iff plainProto bothStay g h).mpr (by decide +kernel), ?_⟩
  have hview : ((gateMachine plainProto).run bothStay).map (fun g => (g.playerIdMap_ 2).isSome) =
      some true := by decide +kernel
  rw [h] at hview
  exact Option.some.inj hview

/-- The client has gone, and its player is still in `playerIdMap_`, with no session. -/
theorem player_stays_behind : ∃ g,
    (gateMachine plainProto).run [.accept 1, .disconnect 1] = some g ∧ g.crashed = false ∧
      (∃ p, g.playerIdMap_ 1 = some p ∧ p.player_session_ = none) ∧ g.session_map_ 1 = none ∧
      ¬ Bijective g := by
  obtain ⟨g, h⟩ : ∃ g, (gateMachine plainProto).run [.accept 1, .disconnect 1] = some g :=
    Option.isSome_iff_exists.mp (by decide +kernel)
  have hview : ((gateMachine plainProto).run [.accept 1, .disconnect 1]).map (fun g => (g.crashed,
      (g.playerIdMap_ 1).map (fun p => p.player_session_), g.session_map_ 1)) =
      some (false, some none, none) := by decide +kernel
  rw [h] at hview
  obtain ⟨hc, hrest⟩ := Prod.mk.inj (Option.some.inj hview)
  obtain ⟨hp, hm⟩ := Prod.mk.inj hrest
  obtain ⟨p, hp, hps⟩ := Option.map_eq_some_iff.mp hp
  refine ⟨g, h, hc, ⟨p, hp, hps⟩, hm, fun hb => ?_⟩
  obtain ⟨ps, hps', -⟩ := hb.player 1 p hp
  rw [hps] at hps'
  cases hps'

/-! ### Destroying a player

`changeState(EFST_Destroy)` ends in `Player::onDestroy`, which goes through the session of the player
and does not look whether there is one.  With a session it does what it should with the two maps, but
the client stays connected. -/

/-- What destroying the player `p` should do to the two maps and to the client sessions. -/
structure Destroyed (id : PlayerID) (p : GatePlayer) (g g' : GateState) : Prop where
  player : g'.playerIdMap_ id = none
  session : ∀ ps, p.player_session_ = some ps → g'.session_map_ ps.client_session_ = none
  players : ∀ id', id' ≠ id → g'.playerIdMap_ id' = g.playerIdMap_ id'
  sessions : ∀ fd, (∀ ps, p.player_session_ = some ps → fd ≠ ps.client_session_) →
    g'.session_map_ fd = g.session_map_ fd ∧ g'.sessions fd = g.sessions fd

/-- Destroying the player completes, does what it should, and leaves no connected client session for
whose next packet there is no `PlayerSession`. -/
def DestroysCleanly (id : PlayerID) (p : GatePlayer) (g : GateState) : Prop :=
  ∃ g', g.changeState id .EFST_Destroy = .ok () g' ∧ Destroyed id p g g' ∧
    ∀ fd, g'.isConnected fd = true → (g'.session_map_ fd).isSome = true

theorem changeState_destroy (h : GateInv g) {id : PlayerID} {p : GatePlayer}
    (hp : g.playerIdMap_ id = some p) : g.changeState id .EFST_Destroy = g.onDestroy id p := by
  unfold GateState.changeState
  simp [hp, GatePlayer.getCurStateType, (h.player id p hp).2.1, getFsmStateType]

/-- The client has gone: the call goes through the null session. -/
theorem destroy_detached (h : GateInv g) {id : PlayerID} {p : GatePlayer}
    (hp : g.playerIdMap_ id = some p) (hs : p.player_session_ = none) :
    g.changeState id .EFST_Destroy = .error .nullCall g := by
  rw [changeState_destroy h hp, GateState.onDestroy, hs]

/-- The client is there: it stays connected, with no `PlayerSession`. -/
theorem destroy_attached (h : GateInv g) {id : PlayerID} {p : GatePlayer} {ps : PlayerSession}
    (hp : g.playerIdMap_ id = some p) (hs : p.player_session_ = some ps) :
    ∃ g', g.changeState id .EFST_Destroy = .ok () g' ∧ Destroyed id p g g' ∧
      g'.isConnected ps.client_session_ = true ∧ g'.session_map_ ps.client_session_ = none := by
  obtain ⟨hback, hmap⟩ := h.back id p ps hp hs
  have hlive : g.isConnected ps.client_session_ = true := by
    rw [h.live, hmap]
    rfl
  have hdel : g.delSession ps.client_session_ = ({ g with
      playerIdMap_ := g.playerIdMap_.set id { p with player_session_ := none }
      session_map_ := g.session_map_.erase ps.client_session_ } : GateState).log
        (.deleted ps.client_session_) := by
    simp [GateState.delSession, hmap, hback, GateState.updatePlayer, hp]
  refine ⟨_, by rw [changeState_destroy h hp, GateState.onDestroy, hs], ?_, ?_, ?_⟩
  · refine ⟨Table.erase_self _ _, ?_, ?_, ?_⟩
    · intro ps' hps'
      obtain rfl : ps = ps' := Option.some.inj (hs.symm.trans hps')
      rw [hdel]
      exact Table.erase_self _ _
    · intro id' hne
      rw [hdel]
      show (Table.set _ _ _).erase id id' = _
      rw [Table.erase_of_ne hne, Table.set_of_ne hne]
    · intro fd hfd
      rw [hdel]
      exact ⟨Table.erase_of_ne (hfd ps hs), rfl⟩
  · rw [hdel]
    exact hlive
  · rw [hdel]
    exact Table.erase_self _ _

/-- **No player is ever destroyed cleanly.**  In every reachable state, and for every player in
`playerIdMap_`, destroying it goes through a null session or leaves a connected client behind. -/
theorem not_destroysCleanly (P : GateProto) (es : List GateEvent) (g : GateState)
    (h : (gateMachine P).run es = some g) (id : PlayerID) (p : GatePlayer)
    (hp : g.playerIdMap_ id = some p) : ¬ DestroysCleanly id p g := by
  have hinv := gate_inv ⟨es, h⟩
  rintro ⟨g₁, hg₁, -, hnone⟩
  cases hs : p.player_session_ with
  | none =>
      rw [destroy_detached hinv hp hs] at hg₁
      cases hg₁
  | some ps =>
      obtain ⟨g₂, hg₂, -, hconn, hmap⟩ := destroy_attached hinv hp hs
      rw [hg₂] at hg₁
      cases hg₁
      have hsome := hnone ps.client_session_ hconn
      rw [hmap] at hsome
      cases hsome

/-- A connected client and its player. -/
theorem connected_not_destroysCleanly : ∃ g p, (gateMachine plainProto).run [.accept 1] = some g ∧
    g.playerIdMap_ 1 = some p ∧ ¬ DestroysCleanly 1 p g := by
  obtain ⟨g, h⟩ : ∃ g, (gateMachine plainProto).run [.accept 1] = some g :=
    Option.isSome_iff_exists.mp (by decide +kernel)
  have hview : ((gateMachine plainProto).run [.accept 1]).map
      (fun g => (g.playerIdMap_ 1).isSome) = some true := by decide +kernel
  rw [h] at hview
  obtain ⟨p, hp⟩ := Option.isSome_iff_exists.mp (Option.some.inj hview)
  exact ⟨g, p, h, hp, not_destroysCleanly plainProto [.accept 1] g h 1 p hp⟩

/-- A player whose client has disconnected: the gate dies of it. -/
theorem destroy_after_disconnect : ∃ g p,
    (gateMachine plainProto).run [.accept 1, .disconnect 1] = some g ∧ g.playerIdMap_ 1 = some p ∧
      g.changeState 1 .EFST_Destroy = .error .nullCall g ∧ ¬ DestroysCleanly 1 p g := by
  obtain ⟨g, h⟩ : ∃ g, (gateMachine plainProto).run [.accept 1, .disconnect 1] = some g :=
    Option.isSome_iff_exists.mp (by decide +kernel)
  have hview : ((gateMachine plainProto).run [.accept 1, .disconnect 1]).map
      (fun g => (g.playerIdMap_ 1).map (fun p => p.player_session_)) = some (some none) := by
    decide +kernel
  rw [h] at hview
  obtain ⟨p, hp, hps⟩ := Option.map_eq_some_iff.mp (Option.some.inj hview)
  have hnull := destroy_detached (gate_inv ⟨_, h⟩) hp hps
  refine ⟨g, p, h, hp, hnull, ?_⟩
  rintro ⟨g', hg', -, -⟩
  rw [hnull] at hg'
  cases hg'

end BlackSwan
