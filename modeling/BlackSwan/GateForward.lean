import BlackSwan.GateClients

/-! # The forwarding helpers of the gate

`PacketParser::forward2Login` and `PacketParser::forward2Server` send for a client session: they look
for its player under the `fd` of the session, in the map that is keyed by player ids.  The two numbers
come from two counters, and agree by accident.  `PlayerSession::forward2Client` sends a message to a
client: a message whose size does not fit the header is sent with an empty body, and the last few
sizes that do fit the header do not fit the length with which the client decodes.

Both are stated against what the helper is for: acting for the player of the session, and having the
client dispatch the message. -/

namespace BlackSwan

open Wire Runs Tables

namespace GateState

/-- `Player::forward2Login`. -/
def playerForward2Login (p : GatePlayer) (msgId : UInt32) (data : Bytes) (len : UInt32)
    (transID : TransID) (g : GateState) : GateState :=
  match p.player_session_ with
  | some _ => g.sendLink .login (encodeInnerPacket msgId data len transID)
  | none => g

/-- `PacketParser::forward2Login`. -/
def parserForward2Login (msgId : UInt32) (data_view : Bytes) (fd : UInt32) (g : GateState) :
    GateState :=
  match g.playerIdMap_ fd.toUInt64 with
  | none => g
  | some p => g.playerForward2Login p msgId data_view (UInt32.ofNat data_view.length) p.id_

/-- `PacketParser::forward2Server`. -/
def parserForward2Server (msgId : UInt32) (data_view : Bytes) (fd : UInt32) (g : GateState) :
    GateState :=
  match g.playerIdMap_ fd.toUInt64 with
  | none => g
  | some p => g.forward2Server p msgId data_view (UInt32.ofNat data_view.length) fd.toUInt64

end GateState

variable {P : GateProto} {g : GateState}

/-! ### Acting for a session -/

/-- The helpers do what `Player::forward2Login` and `Player::forward2Server` of the player of the
session do with the player's id. -/
def ForwardsForPlayer (ps : PlayerSession) (msgId : UInt32) (body : Bytes) (g : GateState) : Prop :=
  ∃ id p, ps.player_ = some id ∧ g.playerIdMap_ id = some p ∧
    g.parserForward2Login msgId body ps.client_session_ =
      g.playerForward2Login p msgId body (UInt32.ofNat body.length) p.id_ ∧
    g.parserForward2Server msgId body ps.client_session_ =
      g.forward2Server p msgId body (UInt32.ofNat body.length) p.id_

theorem forward2Server_loginLs (h : GateInv g) {id : PlayerID} {p : GatePlayer}
    (hp : g.playerIdMap_ id = some p) (msgId : UInt32) (data : Bytes) (len : UInt32)
    (transID : TransID) : g.forward2Server p msgId data len transID = g := by
  unfold GateState.forward2Server
  simp [GatePlayer.getCurStateType, (h.player id p hp).2.1, getFsmStateType]

theorem parserForward2Server_eq (h : GateInv g) (msgId : UInt32) (body : Bytes) (fd : UInt32) :
    g.parserForward2Server msgId body fd = g := by
  unfold GateState.parserForward2Server
  cases hp : g.playerIdMap_ fd.toUInt64 with
  | none => rfl
  | some p => exact forward2Server_loginLs h hp _ _ _ _

/-- A message that is sent can be told from no message, and from one with another `transID`. -/
theorem sendLink_transID_inj {link : Link} (hup : g.connected link = true) {msgId : UInt32}
    {data : Bytes} {len : UInt32} {t t' : TransID}
    (h : g.sendLink link (encodeInnerPacket msgId data len t) =
      g.sendLink link (encodeInnerPacket msgId data len t')) : t = t' := by
  have hne (t : TransID) : (encodeInnerPacket msgId data len t).isEmpty = false := by
    simp [encodeInnerPacket, beBytes]
  have hlast := congrArg (fun g => g.history.getLast?) h
  simp only [GateState.sendLink, hne, hup, Bool.not_true, Bool.or_self, Bool.false_eq_true, if_false,
    GateState.log, List.getLast?_append, List.getLast?_singleton, Option.some_or, Option.some.injEq,
    GateAct.upstream.injEq, true_and] at hlast
  have hread := congrArg (fun msg => readWord msg 4 8) hlast
  simp only [readWord_transID, Option.some.injEq] at hread
  exact UInt64.toNat_inj.mp hread

theorem sendLink_ne (hup : g.connected .login = true) (msgId : UInt32) (data : Bytes) (len : UInt32)
    (t : TransID) : g.sendLink .login (encodeInnerPacket msgId data len t) ≠ g := by
  have hne : (encodeInnerPacket msgId data len t).isEmpty = false := by
    simp [encodeInnerPacket, beBytes]
  intro h
  have hlen := congrArg (fun g => g.history.length) h
  simp [GateState.sendLink, hne, hup, GateState.log] at hlen

/-- **When the helpers act for the right client**: in every reachable state and for every session on
file, if and only if the link is down, so that nothing is sent, or the `fd` of the session happens to
be the id of its player. -/
theorem forwards_for_player_iff (P : GateProto) (es : List GateEvent) (g : GateState)
    (h : (gateMachine P).run es = some g) (fd : UInt32) (ps : PlayerSession)
    (hs : g.session_map_ fd = some ps) (msgId : UInt32) (body : Bytes) :
    ForwardsForPlayer ps msgId body g ↔
      g.connected .login = false ∨ ps.player_ = some fd.toUInt64 := by
  have hinv := gate_inv ⟨es, h⟩
  obtain ⟨rfl, id, p, hid, hp, hback, -⟩ := hinv.entry fd ps hs
  have hserver := (parserForward2Server_eq hinv msgId body ps.client_session_).trans
    (forward2Server_loginLs hinv hp msgId body (UInt32.ofNat body.length) p.id_).symm
  have hiff : ForwardsForPlayer ps msgId body g ↔
      g.parserForward2Login msgId body ps.client_session_ =
        g.sendLink .login (encodeInnerPacket msgId body (UInt32.ofNat body.length) id) := by
    have hsend : g.playerForward2Login p msgId body (UInt32.ofNat body.length) p.id_ =
        g.sendLink .login (encodeInnerPacket msgId body (UInt32.ofNat body.length) id) := by
      rw [GateState.playerForward2Login, hback, (hinv.player id p hp).1]
    rw [← hsend]
    constructor
    · rintro ⟨id', p', hid', hp', hlogin, -⟩
      obtain rfl := Option.some.inj (hid.symm.trans hid')
      obtain rfl := Option.some.inj (hp.symm.trans hp')
      exact hlogin
    · intro hlogin
      exact ⟨id, p, hid, hp, hlogin, hserver⟩
  rw [hiff, hid, Option.some.injEq]
  cases hup : g.connected .login with
  | false =>
      refine iff_of_true ?_ (.inl rfl)
      have hquiet (msg : Bytes) : g.sendLink .login msg = g := by simp [GateState.sendLink, hup]
      rw [hquiet]
      unfold GateState.parserForward2Login GateState.playerForward2Login
      split
      · rfl
      · split
        · exact hquiet _
        · rfl
  | true =>
      simp only [Bool.true_eq_false, false_or]
      constructor
      · intro hsame
        unfold GateState.parserForward2Login GateState.playerForward2Login at hsame
        split at hsame
        · exact absurd hsame.symm (sendLink_ne hup _ _ _ _)
        · rename_i q hq
          split at hsame
          · rw [(hinv.player _ q hq).1] at hsame
            exact (sendLink_transID_inj hup hsame).symm
          · exact absurd hsame.symm (sendLink_ne hup _ _ _ _)
      · intro hfd
        unfold GateState.parserForward2Login GateState.playerForward2Login
        rw [← hfd, hp]
        simp only [hback, (hinv.player id p hp).1]

/-- The first client, with no session made before it. -/
theorem forwards_for_first_client : ∃ g ps,
    (gateMachine plainProto).run [.accept 1, .linkChange .login true] = some g ∧
      g.session_map_ 1 = some ps ∧ ForwardsForPlayer ps 1 [7] g := by
  obtain ⟨g, h⟩ : ∃ g, (gateMachine plainProto).run [.accept 1, .linkChange .login true] = some g :=
    Option.isSome_iff_exists.mp (by decide +kernel)
  have hview : ((gateMachine plainProto).run [.accept 1, .linkChange .login true]).map
      (fun g => g.session_map_ 1) = some (some ⟨1, some 1⟩) := by decide +kernel
  rw [h] at hview
  have hs := Option.some.inj hview
  exact ⟨g, _, h, hs, (forwards_for_player_iff plainProto _ g h 1 _ hs 1 [7]).mpr (.inr rfl)⟩

/-- Three clients, after the sessions of the two connectors. -/
def afterConnectors : List GateEvent :=
  [.accept 3, .accept 4, .accept 5, .linkChange .login true]

/-- Forwarding for the first of them is done for the third. -/
theorem forwards_for_another_client : ∃ g,
    (gateMachine plainProto).run afterConnectors = some g ∧
      g.session_map_ 3 = some ⟨3, some 1⟩ ∧ g.session_map_ 5 = some ⟨5, some 3⟩ ∧
      (g.parserForward2Login 1 [7] 3).history.getLast? =
        some (.upstream (.link .login) .login (encodeInnerPacket 1 [7] 1 3)) ∧
      ¬ ForwardsForPlayer ⟨3, some 1⟩ 1 [7] g := by
  obtain ⟨g, h⟩ : ∃ g, (gateMachine plainProto).run afterConnectors = some g :=
    Option.isSome_iff_exists.mp (by decide +kernel)
  have hview : ((gateMachine plainProto).run afterConnectors).map (fun g =>
      (g.session_map_ 3, g.session_map_ 5, (g.parserForward2Login 1 [7] 3).history.getLast?,
        (g.playerIdMap_ 1).map fun p =>
          (g.playerForward2Login p 1 [7] 1 p.id_).history.getLast?)) =
      some (some ⟨3, some 1⟩, some ⟨5, some 3⟩,
        some (.upstream (.link .login) .login (encodeInnerPacket 1 [7] 1 3)),
        some (some (.upstream (.link .login) .login (encodeInnerPacket 1 [7] 1 1)))) := by
    decide +kernel
  rw [h] at hview
  obtain ⟨h₃, hrest⟩ := Prod.mk.inj (Option.some.inj hview)
  obtain ⟨h₅, hrest⟩ := Prod.mk.inj hrest
  obtain ⟨hsent, hown⟩ := Prod.mk.inj hrest
  refine ⟨g, h, h₃, h₅, hsent, ?_⟩
  rintro ⟨id, p, hid, hp, hlogin, -⟩
  obtain rfl : 1 = id := Option.some.inj hid
  rw [hp, Option.map_some, Option.some.injEq] at hown
  have hlast := congrArg (fun g => g.history.getLast?) hlogin
  have hdiff := (hsent.symm.trans hlast).trans hown
  revert hdiff
  decide

/-! ### Messages to clients -/

/-- The packet that `PlayerSession::forward2Client` makes of a serialised message. -/
def clientPacket (msgId : UInt32) (body : Bytes) : Bytes :=
  let bodySize := if body.length > 2 ^ 16 - 1 then 0 else body.length
  encodePacket msgId (if bodySize = 0 then [] else body) (UInt16.ofNat bodySize)

/-- `PlayerSession::forward2Client`, given the serialised message. -/
def PlayerSession.forward2Client (ps : PlayerSession) (msgId : UInt32) (body : Bytes)
    (g : GateState) : GateState := g.send ps.client_session_ (clientPacket msgId body)

/-- No input after these bytes makes a packet of them. -/
def Stuck (buf : Bytes) : Prop := buf ≠ [] ∧ ∀ more, clientDecoder.frames (buf ++ more) = []

/-- A client that is given the bytes on an empty buffer dispatches just this message, or gets nothing
at all, and is not left with bytes that no input completes. -/
def ClientGets (msgId : UInt32) (body : Bytes) (bytes : Bytes) : Prop :=
  (bytes = [] ∨ ∃ r, clientReceiver bytes [] = .ok r [(msgId, body)]) ∧
    ¬ Stuck (clientDecoder.rest bytes)

theorem clientPacket_of_le {msgId : UInt32} {body : Bytes} (h : body.length ≤ 65535) :
    clientPacket msgId body = encodeMsg (msgId, body) := by
  unfold clientPacket encodeMsg
  rw [if_neg (by omega)]
  cases body with
  | nil => rfl
  | cons b bs => rfl

theorem clientPacket_of_gt {msgId : UInt32} {body : Bytes} (h : 65535 < body.length) :
    clientPacket msgId body = encodeMsg (msgId, []) := by
  unfold clientPacket encodeMsg
  rw [if_pos (by omega)]
  rfl

theorem clientPacket_ne_nil (msgId : UInt32) (body : Bytes) : clientPacket msgId body ≠ [] := by
  simp [clientPacket, encodePacket, beBytes]

/-- A client packet that fits the decoder is dispatched, unless it is a heartbeat. -/
theorem clientReceiver_encodeMsg (m : ClientMsg) (h : m.2.length ≤ 65529) :
    clientReceiver (encodeMsg m) [] = .ok 0 (logMsg Prod.fst [] m) ∧
      clientDecoder.rest (encodeMsg m) = [] := by
  have hv : clientCode.Valid m := by
    show m.2.length ≤ 65535
    omega
  have hlen : (clientCode.encode m).length < clientDecoder.window := by
    show (encodeMsg m).length < 2 ^ 16
    rw [length_encodeMsg (by omega), MsgHeaderSize]
    omega
  obtain ⟨p, hview, hf, hr⟩ := clientCode.parse_encode hv hlen
  change clientDecoder.frames (encodeMsg m) = [p] at hf
  change clientDecoder.rest (encodeMsg m) = [] at hr
  refine ⟨?_, hr⟩
  have hlog := onPacket_log Packet.id (fun p => (p.id, p.body)) Prod.fst (fun _ => rfl) p []
  have hview : (p.id, p.body) = m := hview
  rw [clientReceiver, clientLoop, recvLoop_eq, hf, hr, handleAll, hlog, hview]
  rfl

/-- Six bytes less than the header can announce are already too much: the length that the decoder
sees is at most 65535, and the packet is longer. -/
theorem attempt_long {m : ClientMsg} (h : 65530 ≤ m.2.length) (h' : m.2.length ≤ 65535)
    (more : Bytes) : clientDecoder.attempt (encodeMsg m ++ more) = .short := by
  have hsz : (UInt16.ofNat m.2.length).toNat = m.2.length := by
    rw [UInt16.toNat_ofNat']
    omega
  have hdecode (len : UInt16) : decodePacket (encodeMsg m ++ more) len = .short := by
    have hlt := len.toNat_lt
    rw [encodeMsg, encodePacket, List.append_assoc, List.append_assoc, decodePacket_header, if_pos]
    rw [hsz, MsgHeaderSize]
    omega
  exact hdecode _

theorem stuck_rest_long {m : ClientMsg} (h : 65530 ≤ m.2.length) (h' : m.2.length ≤ 65535) :
    Stuck (clientDecoder.rest (encodeMsg m)) := by
  have hshort := attempt_long h h' []
  rw [List.append_nil] at hshort
  rw [(clientDecoder.parse_of_short hshort).2]
  refine ⟨List.ne_nil_of_length_pos (clientCode.encode_pos m), ?_⟩
  intro more
  exact (clientDecoder.parse_of_short (attempt_long h h' more)).1

/-- **When a message reaches a client**: for every message and id, if and only if its body has at most
65529 bytes and its id is not that of a heartbeat. -/
theorem clientGets_iff (msgId : UInt32) (body : Bytes) :
    ClientGets msgId body (clientPacket msgId body) ↔
      body.length ≤ 65529 ∧ isHeartBeat msgId = false := by
  constructor
  · rintro ⟨hgets, hopen⟩
    obtain ⟨r, hr⟩ := hgets.resolve_left (clientPacket_ne_nil msgId body)
    rcases le_or_gt body.length 65529 with hle | hgt
    · refine ⟨hle, ?_⟩
      rw [clientPacket_of_le (by omega), (clientReceiver_encodeMsg (msgId, body) hle).1] at hr
      cases hb : isHeartBeat msgId with
      | false => rfl
      | true => simp [logMsg, hb] at hr
    · exfalso
      rcases le_or_gt body.length 65535 with hle | hgt'
      · rw [clientPacket_of_le hle] at hopen
        exact hopen (stuck_rest_long (m := (msgId, body)) hgt hle)
      · have hnil := (clientReceiver_encodeMsg (msgId, []) (by simp)).1
        rw [clientPacket_of_gt hgt', hnil] at hr
        have hbody : body ≠ [] := List.ne_nil_of_length_pos (by omega)
        cases hb : isHeartBeat msgId with
        | false => simp [logMsg, hb, hbody.symm] at hr
        | true => simp [logMsg, hb] at hr
  · rintro ⟨hle, hb⟩
    obtain ⟨hr, hrest⟩ := clientReceiver_encodeMsg (msgId, body) hle
    rw [clientPacket_of_le (by omega)]
    refine ⟨.inr ⟨0, ?_⟩, ?_⟩
    · simpa [logMsg, hb] using hr
    · rw [hrest]
      exact fun hstuck => hstuck.1 rfl

def GG_CLI_Login_ACK : UInt32 := 21

/-- A login answer with a `PTID` of 65532 bytes, which makes 65536 in all. -/
def oversizeBody : Bytes := [18, 252, 255, 3] ++ List.replicate 65532 97

/-- The client dispatches the id with an empty body. -/
theorem oversize_dispatched_empty :
    clientReceiver (clientPacket GG_CLI_Login_ACK oversizeBody) [] = .ok 0 [(GG_CLI_Login_ACK, [])] ∧
      ¬ ClientGets GG_CLI_Login_ACK oversizeBody (clientPacket GG_CLI_Login_ACK oversizeBody) := by
  have hlen : oversizeBody.length = 65536 := by
    rw [oversizeBody, List.length_append, List.length_replicate]
    rfl
  have hr : clientReceiver (clientPacket GG_CLI_Login_ACK oversizeBody) [] =
      .ok 0 [(GG_CLI_Login_ACK, [])] := by
    rw [clientPacket_of_gt (by omega)]
    exact (clientReceiver_encodeMsg (GG_CLI_Login_ACK, []) (by simp)).1
  refine ⟨hr, ?_⟩
  rintro ⟨hgets, -⟩
  obtain ⟨r, hr'⟩ := hgets.resolve_left (clientPacket_ne_nil GG_CLI_Login_ACK oversizeBody)
  rw [hr] at hr'
  obtain ⟨-, hlog⟩ := EStateM.Result.ok.inj hr'
  have hbody : [] = oversizeBody := (Prod.mk.inj (List.cons.inj hlog).1).2
  rw [← hbody] at hlen
  cases hlen

end BlackSwan
