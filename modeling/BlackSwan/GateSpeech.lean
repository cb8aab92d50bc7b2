import BlackSwan.GateClients

/-! # What the gate says

Everything that the gate ever hands to a client or to one of the servers behind it, for every run:
`Speaks P act` lists the packets, and each step adds only such entries to the history (`Grows`).

To the game server the gate only ever sends heartbeats and answers to them.  `onRecvClientPacket` ends
the session of a player that waits for its login on every packet but a login request, and no message of
the login server takes a player out of that state, so `onCliToGsMsg` is not reached. -/

namespace BlackSwan

open Wire Runs Tables

variable {P : GateProto} {g g' : GateState}

/-- What `processGsMessage` hands over for a body.  `onGsToClient` casts the pointer to the parsed
message to one to its bytes, so that the packet holds the memory of a C++ object, with a size that is
cut to 16 bits; for a body that does not parse the packet is empty. -/
def sent (P : GateProto) (inited : Bool) (body : Bytes) : List Bytes :=
  if inited then
    match P.toServerImage body with
    | some image => [encodePacket GS_GG_CLI_MSG image (UInt16.ofNat image.length)]
    | none => [encodePacket GS_GG_CLI_MSG [] 0]
  else []

/-- The answer to a heartbeat of a server. -/
def innerPong : Bytes := encodeInnerPacket CS_HeartBeat_Ack GateState.PONG 5 0

/-- The heartbeat of the gate for a server. -/
def innerPing : Bytes := encodeInnerPacket CS_HeartBeat_Req GateState.PING 5 0

/-- The heartbeat of the gate for a client. -/
def clientPing : Bytes := encodePacket CS_HeartBeat_Req GateState.PING 5

/-- The answer to a heartbeat of a client. -/
def clientPong : Bytes := encodePacket CS_HeartBeat_Ack GateState.PONG 5

/-- The packets of the gate, by what they are caused by. -/
def Speaks (P : GateProto) : GateAct → Prop
  | .upstream (.client _) link msg =>
      link = .login ∧ ∃ id req body, P.parseLoginReq body = some req ∧ msg = loginMsg P id req
  | .upstream .heartbeat _ msg => msg = innerPing
  | .upstream _ _ msg => msg = innerPong
  | .toClient (.client _) _ msg => msg = clientPong
  | .toClient .heartbeat _ msg => msg = clientPing
  | .toClient (.inner link _) _ msg => link = .game ∧ ∃ body, msg ∈ sent P true body
  | .toClient (.link _) _ _ => False
  | _ => True

/-- The history has grown by packets of the gate. -/
def Grows (P : GateProto) (g g' : GateState) : Prop :=
  ∃ l, g'.history = g.history ++ l ∧ ∀ act ∈ l, Speaks P act

namespace Grows

theorem of_eq (h : g'.history = g.history) : Grows P g g' := ⟨[], by simp [h], by simp⟩

theorem trans {g'' : GateState} (h : Grows P g g') (h' : Grows P g' g'') : Grows P g g'' := by
  obtain ⟨l, e, hl⟩ := h
  obtain ⟨l', e', hl'⟩ := h'
  refine ⟨l ++ l', by rw [e', e, List.append_assoc], ?_⟩
  intro act hact
  exact (List.mem_append.mp hact).elim (hl act) (hl' act)

theorem log {act : GateAct} (h : Speaks P act) (g : GateState) : Grows P g (g.log act) :=
  ⟨[act], rfl, by simpa using h⟩

theorem stop (fd : UInt32) (g : GateState) : Grows P g (g.stop fd) := by
  obtain ⟨-, -, l, e, hl⟩ := stop_frame fd g
  refine ⟨l, e, ?_⟩
  intro act hact
  obtain rfl | rfl := hl
  · cases hact
  · simp only [List.mem_cons, List.not_mem_nil, or_false] at hact
    obtain rfl | rfl := hact <;> trivial

/-- A packet of a client. -/
theorem onRecvClientPacket {fd : UInt32} (h : ClientInv fd g) (pack : Packet) :
    Ends (Grows P g) (fun _ => Grows P g) (GateState.onRecvClientPacket P fd pack g) := by
  cases hc : g.isConnected fd with
  | false =>
      rw [onRecvClientPacket_detached (not_on_file h.inv hc)]
      split_ifs
      · exact of_eq rfl
      · exact stop fd g
  | true =>
      obtain ⟨id, p, ha⟩ := h.inv.attached hc
      by_cases hid : pack.id = CLI_GG_Login_REQ
      · rw [onRecvClientPacket_login ha hid]
        have hlog : Grows P g (g.log (.dispatched fd CLI_GG_Login_REQ)) :=
          log (show Speaks P (.dispatched fd CLI_GG_Login_REQ) from trivial) g
        cases hreq : loginReq P g.inited pack with
        | none => exact hlog
        | some req =>
            have hnoted : Grows P g (noted id p req (g.log (.dispatched fd CLI_GG_Login_REQ))) :=
              hlog.trans (of_eq rfl)
            have hparse : P.parseLoginReq (GateState.cString pack.data) = some req := by
              unfold loginReq at hreq
              split_ifs at hreq
              exact hreq
            simp only
            split_ifs
            · refine hnoted.trans ?_
              unfold GateState.sendLink
              split_ifs
              · exact of_eq rfl
              · have hcause : (noted id p req (g.log (.dispatched fd CLI_GG_Login_REQ))).cause =
                    .client fd := h.cause
                refine log ?_ _
                rw [hcause]
                exact ⟨rfl, id, req, _, hparse, rfl⟩
            · exact hnoted
      · rw [onRecvClientPacket_other ha hid]
        exact stop fd g

/-- A buffer of a client. -/
theorem onRecvClientData {fd : UInt32} (h : ClientInv fd g) (data : Bytes) :
    Ends (Grows P g) (fun _ => Grows P g) (GateState.onRecvClientData P fd data g) := by
  have hall : Ends (fun g' => ClientInv fd g' ∧ Grows P g g') (fun _ => Grows P g)
      (GateState.onRecvClientData P fd data g) := by
    apply ends_recvLoop
    · rintro g₁ ⟨h₁, hg⟩
      refine ⟨replyPing_inv h₁, hg.trans (log ?_ g₁)⟩
      rw [h₁.cause]
      rfl
    · rintro pack g₁ ⟨h₁, hg⟩
      have hinv := onRecvClientPacket_inv (P := P) h₁ pack
      have hgrow := onRecvClientPacket (P := P) h₁ pack
      exact (hinv.and hgrow).imp (fun _ hr => ⟨hr.1, hg.trans hr.2⟩) fun _ _ hr => hg.trans hr.2
    · exact ⟨h, of_eq rfl⟩
  exact hall.imp (fun _ hr => hr.2) fun _ _ hr => hr

theorem replyInnerPing (h : LinkInv g) (link : Link) : Grows P g (g.replyInnerPing link) := by
  refine log ?_ g
  have hlink := h.cause
  cases hc : g.cause with
  | client fd => simp [hc, Cause.ofLink] at hlink
  | inner link' t => exact rfl
  | link link' => exact rfl
  | heartbeat => simp [hc, Cause.ofLink] at hlink

/-- A message of the game server. -/
theorem processGsMessage {t : TransID} (hc : g.cause = .inner .game t) (msgId : UInt32) (body : Bytes) :
    Grows P g (g.processGsMessage P msgId body t) := by
  have hfwd : ∀ p data, encodePacket GS_GG_CLI_MSG data (UInt16.ofNat data.length) ∈ sent P true body →
      Grows P g (g.onGsToClient data data.length p) := by
    intro p data hsent
    unfold GateState.onGsToClient GateState.forward2Client
    split
    · refine log ?_ g
      rw [hc]
      exact ⟨rfl, body, hsent⟩
    · exact of_eq rfl
  unfold GateState.processGsMessage
  split
  · exact of_eq rfl
  · split_ifs
    · exact of_eq rfl
    · split
      · next data himage => exact hfwd _ data (by simp [sent, himage])
      · next himage => exact hfwd _ [] (by simp [sent, himage])

/-- A buffer of the login server. -/
theorem onRecvLoginData (h : LinkInv g) (data : Bytes) :
    Ends (Grows P g) (fun _ _ => False) (GateState.onRecvLoginData P data g) := by
  have hall : Ends (fun g' => LinkInv g' ∧ Grows P g g') (fun _ _ => False)
      (GateState.onRecvLoginData P data g) := by
    apply ends_recvLoop
    · rintro g₁ ⟨h₁, hg⟩
      exact ⟨replyInnerPing_inv h₁ .login, hg.trans (replyInnerPing h₁ .login)⟩
    · rintro pack g₁ ⟨h₁, hg⟩
      have hr := receive_inv h₁ .login pack
      rw [processLoginMessage_eq hr.inv]
      exact ⟨hr, hg.trans (of_eq rfl)⟩
    · exact ⟨h, of_eq rfl⟩
  exact hall.imp (fun _ hr => hr.2) fun _ _ hr => hr

/-- A buffer of the game server. -/
theorem onRecvServerData (h : LinkInv g) (data : Bytes) :
    Ends (Grows P g) (fun _ _ => False) (GateState.onRecvServerData P data g) := by
  have hall : Ends (fun g' => LinkInv g' ∧ Grows P g g') (fun _ _ => False)
      (GateState.onRecvServerData P data g) := by
    apply ends_recvLoop
    · rintro g₁ ⟨h₁, hg⟩
      exact ⟨replyInnerPing_inv h₁ .game, hg.trans (replyInnerPing h₁ .game)⟩
    · rintro pack g₁ ⟨h₁, hg⟩
      have hr := receive_inv h₁ .game pack
      exact ⟨processGsMessage_inv hr rfl _ _,
        hg.trans ((of_eq rfl).trans (processGsMessage (P := P) (t := pack.transID) rfl _ _))⟩
    · exact ⟨h, of_eq rfl⟩
  exact hall.imp (fun _ hr => hr.2) fun _ _ hr => hr

/-- **Every step** adds only packets of the gate. -/
theorem step {e : GateEvent} (h : GateInv g) (hs : g.step P e = some g') : Grows P g g' := by
  obtain ⟨hc, hs⟩ := step_cases hs
  cases e with
  | accept fd =>
      obtain ⟨hfd, rfl⟩ := hs
      have hadded : Speaks P (.added fd (g.player_idx_ + 1)) := trivial
      rw [h.addSession_eq hfd]
      exact ⟨[.added fd (g.player_idx_ + 1)], rfl, List.forall_mem_singleton.mpr hadded⟩
  | clientData fd data =>
      obtain ⟨-, rfl⟩ := hs
      have hends := onRecvClientData (P := P) (clientInv_of_inv h hc fd) data
      have hcause : Grows P g { g with cause := .client fd } := of_eq rfl
      cases hr : GateState.onRecvClientData P fd data { g with cause := .client fd } with
      | ok _ g₁ =>
          rw [hr] at hends
          exact hcause.trans hends
      | error e g₁ =>
          rw [hr] at hends
          have hg₁ := hcause.trans hends
          cases e with
          | thrown => exact hg₁.trans (stop fd g₁)
          | outOfBounds => exact hg₁.trans (of_eq rfl)
          | nullCall => exact hg₁.trans (of_eq rfl)
          | deleted => exact hg₁.trans (of_eq rfl)
  | disconnect fd =>
      obtain rfl := hs
      exact stop fd g
  | peerGone fd =>
      obtain ⟨s, -, rfl⟩ := hs
      exact of_eq rfl
  | loginData data =>
      obtain rfl := hs
      have hends := onRecvLoginData (P := P) (linkInv_of_inv h hc .login) data
      cases hr : GateState.onRecvLoginData P data { g with cause := .link .login } with
      | ok _ g₁ =>
          rw [hr] at hends
          exact (of_eq rfl).trans hends
      | error e g₁ =>
          rw [hr] at hends
          exact hends.elim
  | gameData data =>
      obtain rfl := hs
      have hends := onRecvServerData (P := P) (linkInv_of_inv h hc .game) data
      cases hr : GateState.onRecvServerData P data { g with cause := .link .game } with
      | ok _ g₁ =>
          rw [hr] at hends
          exact (of_eq rfl).trans hends
      | error e g₁ =>
          rw [hr] at hends
          exact hends.elim
  | linkChange link up =>
      obtain rfl := hs
      exact of_eq rfl
  | clientPing fd =>
      obtain ⟨-, rfl⟩ := hs
      have hcause : Grows P g { g with cause := .heartbeat } := of_eq rfl
      exact hcause.trans (log (by exact rfl) _)
  | linkPing link =>
      obtain ⟨-, rfl⟩ := hs
      have hcause : Grows P g { g with cause := .heartbeat } := of_eq rfl
      exact hcause.trans (log (by exact rfl) _)
  | init =>
      obtain rfl := hs
      exact of_eq rfl

end Grows

/-- What is said in a history, and to whom. -/
structure SaysOnly (P : GateProto) (h : List GateAct) : Prop where
  /-- the game server gets nothing but the gate's heartbeats and answers to its own -/
  toGame : ∀ cause msg, .upstream cause .game msg ∈ h →
    msg = innerPong ∨ cause = .heartbeat ∧ msg = innerPing
  /-- what a client makes the gate send to the login server is a login request that the client has
  sent, with the id of the client's own player -/
  toLogin : ∀ fd msg, .upstream (.client fd) .login msg ∈ h → ∃ id req body,
    .added fd id ∈ h ∧ P.parseLoginReq body = some req ∧ msg = loginMsg P id req
  /-- what the servers make the gate send to them are answers to heartbeats -/
  pong : ∀ cause link msg, .upstream cause link msg ∈ h → cause.ofLink = true → msg = innerPong
  /-- of its own accord the gate sends heartbeats to the servers, -/
  ping : ∀ link msg, .upstream .heartbeat link msg ∈ h → msg = innerPing
  /-- and to the clients -/
  clientPing : ∀ fd msg, .toClient .heartbeat fd msg ∈ h → msg = BlackSwan.clientPing
  /-- what a client makes the gate send to a client is an answer to its own heartbeat -/
  echo : ∀ fd fd' msg, .toClient (.client fd) fd' msg ∈ h → fd = fd' ∧ msg = clientPong
  /-- any other packet for a client is what the gate makes of a body that the game server has sent
  for the id of the client's player -/
  toClient : ∀ cause fd msg, .toClient cause fd msg ∈ h → cause.ofLink = true →
    ∃ t body, cause = .inner .game t ∧ .added fd t ∈ h ∧ msg ∈ sent P true body

end BlackSwan
