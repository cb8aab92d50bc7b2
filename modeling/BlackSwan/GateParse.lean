import BlackSwan.Loops

/-! # What the gate parses of a client packet

`onRecvClientData` frames a packet and hands its body on as a `string_view` of `sz` bytes, but
`onRecvClientPacket` passes only the pointer of the view to `processClientMessage`, where it becomes a
view again: up to the first zero byte, wherever that is.  Only `CLI_GG_Login_REQ` is registered with a
message to parse into, so these are the bytes that `ParseFromArray` is given for a login request.

`parseCalls` lists the packets of a buffer that are parsed, with the bytes that are given to the
parser.  They are the bodies exactly when no body has a zero byte and what follows each of them in the
buffer begins with one. -/

namespace BlackSwan

open Wire Runs Tables
open GateState (cString)

/-! ### Calls of the parser -/

/-- The session and the bytes that `onRecvClientPacket` calls `processClientMessage` with, if it
does. -/
def passedOn (fd : UInt32) (pack : Packet) (g : GateState) : Option (PlayerSession × Bytes) :=
  if inRange pack.id = false ∨ pack.id = CLI_GG_GS_MSG then none else
  match g.session_map_ fd with
  | none => none
  | some ps =>
      match ps.player_.bind g.playerIdMap_ with
      | none => none
      | some p =>
          if p.getCurStateType = .EFST_LoginLs ∧ pack.id ≠ CLI_GG_Login_REQ then none
          else some (ps, cString pack.data)

/-- The bytes that `ParseFromArray` is given when the packet is handled, if it is called. -/
def parseInput (fd : UInt32) (pack : Packet) (g : GateState) : Option Bytes :=
  if isHeartBeat pack.id ∨ g.inited = false ∨ pack.id ≠ CLI_GG_Login_REQ then none
  else (passedOn fd pack g).map Prod.snd

/-- The packets that are parsed, with what the parser is given, in the order of the calls. -/
def parseCalls (P : GateProto) (fd : UInt32) : List Packet → GateState → List (Packet × Bytes)
  | [], _ => []
  | pack :: packs, g =>
      ((parseInput fd pack g).map (Prod.mk pack)).toList ++
        match handleClient P fd pack g with
        | .ok _ g' => parseCalls P fd packs g'
        | .error _ _ => []

variable {P : GateProto} {g g' : GateState} {fd : UInt32} {pack : Packet}

theorem onRecvClientPacket_of_passedOn {ps : PlayerSession} {body : Bytes}
    (h : passedOn fd pack g = some (ps, body)) :
    GateState.onRecvClientPacket P fd pack g =
      (g.log (.dispatched fd pack.id)).processClientMessage P pack.id body ps := by
  unfold passedOn at h
  split_ifs at h with hr
  obtain ⟨hr, hgs⟩ := not_or.mp hr
  unfold GateState.onRecvClientPacket
  rw [if_neg (by rw [outOfRange_iff]; exact hr)]
  cases hps : g.session_map_ fd with
  | none => simp [hps] at h
  | some ps' =>
      simp only [hps] at h ⊢
      cases hid : ps'.player_ with
      | none => simp [hid] at h
      | some id =>
          simp only [hid, Option.bind_some] at h ⊢
          cases hp : g.playerIdMap_ id with
          | none => simp [hp] at h
          | some p =>
              simp only [hp] at h ⊢
              split_ifs at h with hfirst
              cases h
              rw [if_neg hfirst, if_pos hgs]

theorem onRecvClientPacket_of_not_passedOn (P' : GateProto) (h : passedOn fd pack g = none) :
    GateState.onRecvClientPacket P fd pack g = GateState.onRecvClientPacket P' fd pack g := by
  unfold passedOn at h
  unfold GateState.onRecvClientPacket
  split_ifs at h with hr
  · rcases hr with hr | hgs
    · rw [if_pos ((outOfRange_iff _).mpr hr), if_pos ((outOfRange_iff _).mpr hr)]
    · simp [hgs]
  · have hin : ¬ (pack.id < CLI_GG_MSG_ID_MIN ∨ pack.id > CLI_GG_MSG_ID_MAX) := by
      rw [outOfRange_iff]
      exact (not_or.mp hr).1
    rw [if_neg hin, if_neg hin]
    cases hps : g.session_map_ fd with
    | none => rfl
    | some ps =>
        simp only [hps] at h ⊢
        cases hid : ps.player_ with
        | none => rfl
        | some id =>
            simp only [hid, Option.bind_some] at h ⊢
            cases hp : g.playerIdMap_ id with
            | none => rfl
            | some p =>
                simp only [hp] at h ⊢
                split_ifs at h with hfirst
                rw [if_pos hfirst, if_pos hfirst]

/-- Nothing else is parsed: a parser that agrees on `parseInput` makes the handler do the same. -/
theorem handleClient_congr (parse : Bytes → Option CliLoginReq)
    (h : ∀ body, parseInput fd pack g = some body → parse body = P.parseLoginReq body) :
    handleClient { P with parseLoginReq := parse } fd pack g = handleClient P fd pack g := by
  unfold parseInput at h
  unfold handleClient onPacket
  split_ifs with hreq hack
  · rfl
  · rfl
  cases hpass : passedOn fd pack g with
  | none => exact onRecvClientPacket_of_not_passedOn P hpass
  | some call =>
      obtain ⟨ps, body⟩ := call
      rw [onRecvClientPacket_of_passedOn hpass, onRecvClientPacket_of_passedOn hpass]
      unfold GateState.processClientMessage
      cases hin : g.inited with
      | false => simp [GateState.log, hin]
      | true =>
          simp only [GateState.log, hin, Bool.not_true, Bool.false_eq_true, if_false]
          split_ifs with hid
          · have hbody := h body (by simp [isHeartBeat_loginReq, hin, hid, hpass])
            rw [hbody]
            rfl
          · rfl
          · rfl

/-- In a reachable state a connected session gets its login requests parsed, once the messages are
registered. -/
theorem parseInput_eq (h : GateInv g) (fd : UInt32) (pack : Packet) :
    parseInput fd pack g =
      if g.isConnected fd = true ∧ g.inited = true ∧ pack.id = CLI_GG_Login_REQ then
        some (cString pack.data)
      else none := by
  unfold parseInput
  by_cases hid : pack.id = CLI_GG_Login_REQ
  · cases hin : g.inited with
    | false => simp
    | true =>
        have hr : ¬ (inRange pack.id = false ∨ pack.id = CLI_GG_GS_MSG) := by
          rw [hid]
          decide
        rw [if_neg (by simp [hid, isHeartBeat_loginReq])]
        unfold passedOn
        rw [if_neg hr]
        cases hc : g.isConnected fd with
        | false => simp [not_on_file h hc]
        | true =>
            obtain ⟨id, p, ha⟩ := h.attached hc
            simp [ha.session, ha.player, hid]
  · simp [hid]

/-! ### When it is the body -/

/-- The body has no zero byte, and what follows it in the buffer begins with one. -/
def Packet.plain (pack : Packet) : Bool :=
  pack.body.all (· ≠ 0) && (pack.data.drop pack.sz.toNat).head?.all (· = 0)

theorem takeWhile_eq_take_iff {α : Type} (p : α → Bool) : ∀ (l : List α) (n : ℕ),
    l.takeWhile p = l.take n ↔ (l.take n).all p = true ∧ (l.drop n).head?.all (fun a => !p a) = true
  | [], n => by simp
  | a :: l, 0 => by
      cases hp : p a with
      | true => simp [hp]
      | false => simp [hp]
  | a :: l, n + 1 => by
      cases hp : p a with
      | true => simpa [hp] using takeWhile_eq_take_iff p l n
      | false => simp [hp]

theorem Packet.cString_data_iff (pack : Packet) :
    cString pack.data = pack.body ↔ pack.plain = true := by
  rw [cString, body, takeWhile_eq_take_iff, plain, Bool.and_eq_true]
  simp [body]

/-- Of the packets of a connected session, every login request up to the first packet that ends the
session is plain; one that parses, but whose sender has gone, is the last that is parsed. -/
def plainConnected (P : GateProto) (peer : Bool) : List Packet → Bool
  | [] => true
  | pack :: packs =>
      if isHeartBeat pack.id then plainConnected P peer packs
      else if pack.id = CLI_GG_Login_REQ then
        pack.plain && ((P.parseLoginReq (cString pack.data)).isSome && !peer ||
          plainConnected P peer packs)
      else true

/-- The same, for any session: nothing is parsed for one that is stopped, or before `init`. -/
def plainLogins (P : GateProto) (fd : UInt32) (packs : List Packet) (g : GateState) : Bool :=
  !(g.isConnected fd && g.inited) || plainConnected P (g.hasPeer fd) packs

theorem SameIntake.plainLogins (h : SameIntake g g') (P : GateProto) (fd : UInt32)
    (packs : List Packet) : BlackSwan.plainLogins P fd packs g' = BlackSwan.plainLogins P fd packs g := by
  simp only [BlackSwan.plainLogins, h.isConnected, h.hasPeer, h.inited]

/-- Every call of the parser is given the body of its packet. -/
def ParsesBodies (calls : List (Packet × Bytes)) : Prop := ∀ c ∈ calls, c.2 = c.1.body

theorem parsesBodies_append {l l' : List (Packet × Bytes)} :
    ParsesBodies (l ++ l') ↔ ParsesBodies l ∧ ParsesBodies l' := List.forall_mem_append

theorem parsesBodies_parseInput (h : GateInv g) :
    ParsesBodies ((parseInput fd pack g).map (Prod.mk pack)).toList ↔
      (g.isConnected fd = true → g.inited = true → pack.id = CLI_GG_Login_REQ → pack.plain = true) := by
  rw [parseInput_eq h]
  split_ifs with hcall
  · simp [ParsesBodies, hcall, Packet.cString_data_iff]
  · simp only [Option.map_none, Option.toList_none, ParsesBodies, List.not_mem_nil, false_imp_iff,
      implies_true, true_iff]
    intro hc hin hid
    exact absurd ⟨hc, hin, hid⟩ hcall

/-- **The packets of a buffer**, one after the other. -/
theorem parseCalls_iff (packs : List Packet) (h : ClientInv fd g) :
    ParsesBodies (parseCalls P fd packs g) ↔ plainLogins P fd packs g = true := by
  induction packs generalizing g with
  | nil => simp [parseCalls, ParsesBodies, plainLogins, plainConnected]
  | cons pack packs ih =>
      have hinv := handleClient_inv (P := P) pack h
      have hh := handleClient_handling (P := P) pack h
      rw [parseCalls, parsesBodies_append, parsesBodies_parseInput h.inv]
      cases hr : handleClient P fd pack g with
      | ok u g' =>
          rw [hr] at hinv hh
          simp only [ih hinv]
          cases hh with
          | passed why same =>
              rw [same.plainLogins]
              cases hc : g.isConnected fd with
              | false => simp [plainLogins, hc]
              | true =>
                  simp only [hc, if_true] at why
                  obtain hb | ⟨hb, hid, hreq⟩ := why
                  · have hid : pack.id ≠ CLI_GG_Login_REQ := by
                      rintro e
                      simp [e, isHeartBeat_loginReq] at hb
                    simp [plainLogins, plainConnected, hc, hb, hid]
                  · cases hin : g.inited with
                    | false => simp [plainLogins, hin]
                    | true =>
                        have hnone : P.parseLoginReq (cString pack.data) = none := by
                          simpa [loginReq, hin] using hreq
                        simp [plainLogins, plainConnected, hc, hin, hid, isHeartBeat_loginReq, hnone]
          | forwarded conn hid hreq peer same =>
              rw [same.plainLogins]
              cases hin : g.inited with
              | false => simp [plainLogins, hin]
              | true =>
                  simp [plainLogins, plainConnected, conn, hin, hid, isHeartBeat_loginReq, peer]
          | stopped conn hb hid =>
              simp [plainLogins, plainConnected, conn, isConnected_stop, hb, hid]
      | error e g' =>
          rw [hr] at hh
          cases hh with
          | thrown conn hid hreq peer =>
              have hin : g.inited = true := by
                by_contra hin
                simp [loginReq, hin] at hreq
              simp only [loginReq, hin, if_true] at hreq
              simp [plainLogins, plainConnected, conn, hin, hid, isHeartBeat_loginReq, peer, hreq,
                ParsesBodies]
          | null conn hrange => simp [plainLogins, conn, ParsesBodies]

/-! ### What is forwarded -/

/-- The packets that the session `fd` has caused for the login server, in order. -/
def forwardedLogins (fd : UInt32) (h : List GateAct) : List Bytes :=
  h.filterMap fun
    | .upstream (.client fd') .login msg => if fd' = fd then some msg else none
    | _ => none

/-- The id of the player of a session. -/
def sessionID (fd : UInt32) (g : GateState) : PlayerID :=
  ((g.session_map_ fd).bind PlayerSession.player_).getD 0

/-- The requests with the given bodies, as they are sent to the login server: it has to be connected,
and the address of the client has to be known. -/
def loginMsgs (P : GateProto) (fd : UInt32) (g : GateState) (bodies : List Bytes) : List Bytes :=
  if g.connected .login && g.hasPeer fd then
    (bodies.filterMap P.parseLoginReq).map (loginMsg P (sessionID fd g))
  else []

theorem forwardedLogins_log (fd : UInt32) (act : GateAct) (g : GateState) :
    forwardedLogins fd (g.log act).history =
      forwardedLogins fd g.history ++ forwardedLogins fd [act] := by
  simp only [GateState.log, forwardedLogins, List.filterMap_append]

theorem forwardedLogins_stop (fd : UInt32) (g : GateState) :
    forwardedLogins fd (g.stop fd).history = forwardedLogins fd g.history := by
  obtain ⟨-, -, h, hh, rfl | rfl⟩ := stop_frame fd g
  · rw [hh, List.append_nil]
  · simp [hh, forwardedLogins]

theorem loginMsgs_nil (fd : UInt32) (g : GateState) : loginMsgs P fd g [] = [] := by simp [loginMsgs]

theorem loginMsgs_append (fd : UInt32) (g : GateState) (bodies bodies' : List Bytes) :
    loginMsgs P fd g (bodies ++ bodies') = loginMsgs P fd g bodies ++ loginMsgs P fd g bodies' := by
  unfold loginMsgs
  split_ifs
  · rw [List.filterMap_append, List.map_append]
  · rfl

theorem loginMsgs_congr (hs : SameIntake g g') (hmap : g'.session_map_ fd = g.session_map_ fd)
    (bodies : List Bytes) : loginMsgs P fd g' bodies = loginMsgs P fd g bodies := by
  simp only [loginMsgs, hs.connected, hs.hasPeer, sessionID, hmap]

/-- A message for the login server, if it is connected. -/
theorem forwardedLogins_sendLink (hc : g.cause = .client fd) (id : PlayerID) (req : CliLoginReq) :
    forwardedLogins fd (g.sendLink .login (loginMsg P id req)).history =
      forwardedLogins fd g.history ++ if g.connected .login then [loginMsg P id req] else [] := by
  have hne : (loginMsg P id req).isEmpty = false := by
    simp only [loginMsg, encodeInnerPacket, List.isEmpty_eq_false_iff, ne_eq, List.append_eq_nil_iff,
      not_and]
    intro h
    simp [beBytes] at h
  unfold GateState.sendLink
  cases hup : g.connected .login with
  | false => simp
  | true =>
      simp only [hne, Bool.not_true, Bool.or_self, Bool.false_eq_true, if_false, if_true]
      rw [forwardedLogins_log, hc]
      simp [forwardedLogins]

/-- A handler forwards the requests in the bodies, and unless it has stopped the session, what is to
be forwarded for other bodies is the same afterwards. -/
def Forwards (P : GateProto) (fd : UInt32) (g : GateState) (bodies : List Bytes)
    (call : Call GateState Unit) : Prop :=
  Ends (fun g' => forwardedLogins fd g'.history =
        forwardedLogins fd g.history ++ loginMsgs P fd g bodies ∧
      (g'.isConnected fd = true → ∀ bodies', loginMsgs P fd g' bodies' = loginMsgs P fd g bodies'))
    (fun _ g' => forwardedLogins fd g'.history =
      forwardedLogins fd g.history ++ loginMsgs P fd g bodies)
    call

theorem forwards_of_log {act : GateAct} (hact : forwardedLogins fd [act] = []) {bodies : List Bytes}
    (hnil : loginMsgs P fd g bodies = []) : Forwards P fd g bodies (.ok () (g.log act)) := by
  refine ⟨?_, fun _ bodies' => loginMsgs_congr ⟨rfl, rfl, rfl⟩ rfl bodies'⟩
  rw [forwardedLogins_log, hact, hnil]

/-- A login request that the parser takes is forwarded, if the login server is connected. -/
theorem forwarded_forwards (h : ClientInv fd g) {id : PlayerID} {p : GatePlayer}
    {body : Bytes} {req : CliLoginReq} (hsid : sessionID fd g = id)
    (hreq : P.parseLoginReq body = some req) (hpeer : g.hasPeer fd = true) :
    Forwards P fd g [body] (.ok () ((noted id p req (g.log (.dispatched fd CLI_GG_Login_REQ))).sendLink
      .login (loginMsg P id req))) := by
  have hsame := sameIntake_sendLink .login (loginMsg P id req)
    (noted id p req (g.log (.dispatched fd CLI_GG_Login_REQ)))
  have hcalls : loginMsgs P fd g [body] =
      if g.connected .login then [loginMsg P id req] else [] := by
    simp only [loginMsgs, hpeer, Bool.and_true, hsid]
    simp [hreq]
  refine ⟨?_, fun _ bodies => loginMsgs_congr ⟨hsame.1, hsame.2, hsame.3⟩ ?_ bodies⟩
  · refine (forwardedLogins_sendLink (by exact h.cause) id req).trans ?_
    have hnoted : forwardedLogins fd
        (noted id p req (g.log (.dispatched fd CLI_GG_Login_REQ))).history =
          forwardedLogins fd g.history := (forwardedLogins_log _ _ _).trans (List.append_nil _)
    rw [hnoted, hcalls]
    rfl
  · unfold GateState.sendLink
    split_ifs <;> rfl

/-- A login request of a connected session. -/
theorem loginReq_forwards (pack : Packet) (h : ClientInv fd g) (hid : pack.id = CLI_GG_Login_REQ)
    (hc : g.isConnected fd = true) :
    Forwards P fd g (if g.inited then [cString pack.data] else []) (g.onRecvClientPacket P fd pack) := by
  obtain ⟨id, p, ha⟩ := h.inv.attached hc
  have hsid : sessionID fd g = id := by simp [sessionID, ha.session]
  rw [onRecvClientPacket_login ha hid]
  cases hin : g.inited with
  | false =>
      simp only [loginReq, Bool.false_eq_true, if_false]
      exact forwards_of_log rfl (loginMsgs_nil fd g)
  | true =>
      simp only [loginReq, if_true]
      cases hreq : P.parseLoginReq (cString pack.data) with
      | none => exact forwards_of_log rfl (by simp [loginMsgs, hreq])
      | some req =>
          cases hpeer : g.hasPeer fd with
          | true => exact forwarded_forwards h hsid hreq hpeer
          | false =>
              -- `getClientIp` throws, and nothing is sent
              refine (forwardedLogins_log _ _ _).trans ?_
              simp [loginMsgs, hpeer, forwardedLogins]

/-- One packet: what is forwarded are the requests in what the parser is given. -/
theorem handleClient_forwards (pack : Packet) (h : ClientInv fd g) :
    Forwards P fd g (parseInput fd pack g).toList (handleClient P fd pack g) := by
  rw [parseInput_eq h.inv]
  cases hb : isHeartBeat pack.id with
  | true =>
      have hid : pack.id ≠ CLI_GG_Login_REQ := by
        rintro hid
        simp [hid, isHeartBeat_loginReq] at hb
      rw [if_neg (fun hcall => hid hcall.2.2), Option.toList_none]
      obtain hreq | hack := (isHeartBeat_iff pack.id).mp hb
      · rw [handleClient, onPacket, if_pos hreq]
        exact forwards_of_log rfl (loginMsgs_nil fd g)
      · rw [handleClient, onPacket, if_neg (by rw [hack]; decide), if_pos hack]
        exact ⟨by rw [loginMsgs_nil, List.append_nil], fun _ _ => rfl⟩
  | false =>
      rw [handleClient_of_not_heartBeat hb]
      cases hc : g.isConnected fd with
      | false =>
          rw [if_neg (by simp), Option.toList_none,
            onRecvClientPacket_detached (not_on_file h.inv hc), GateInv.stop_of_not_connected hc]
          have hsame : forwardedLogins fd g.history =
              forwardedLogins fd g.history ++ loginMsgs P fd g [] := by
            rw [loginMsgs_nil, List.append_nil]
          split_ifs
          · exact hsame
          · exact ⟨hsame, fun _ _ => rfl⟩
      | true =>
          obtain ⟨id, p, ha⟩ := h.inv.attached hc
          by_cases hid : pack.id = CLI_GG_Login_REQ
          · have hone := loginReq_forwards (P := P) pack h hid hc
            cases hin : g.inited with
            | false =>
                rw [hin] at hone
                simpa using hone
            | true =>
                rw [hin] at hone
                rw [if_pos ⟨rfl, rfl, hid⟩]
                exact hone
          · rw [onRecvClientPacket_other ha hid, if_neg (fun hcall => hid hcall.2.2),
              Option.toList_none]
            refine ⟨by rw [forwardedLogins_stop, loginMsgs_nil, List.append_nil], fun hconn => ?_⟩
            rw [isConnected_stop] at hconn
            cases hconn

/-- Nothing is parsed for a session that is stopped. -/
theorem parseCalls_detached (packs : List Packet) (h : ClientInv fd g)
    (hc : g.isConnected fd = false) : parseCalls P fd packs g = [] := by
  induction packs generalizing g with
  | nil => rfl
  | cons pack packs ih =>
      have hinv := handleClient_inv (P := P) pack h
      have hh := handleClient_handling (P := P) pack h
      rw [parseCalls, parseInput_eq h.inv, if_neg (by simp [hc])]
      cases hr : handleClient P fd pack g with
      | error e g' => rfl
      | ok u g' =>
          rw [hr] at hinv hh
          refine ih hinv ?_
          cases hh with
          | passed why same => rw [same.isConnected, hc]
          | forwarded conn => simp [conn] at hc
          | stopped conn => simp [conn] at hc

/-- **What a buffer forwards** are the requests in what the parser is given. -/
theorem handleAll_forwards (packs : List Packet) (h : ClientInv fd g) :
    Ends (fun g' => forwardedLogins fd g'.history = forwardedLogins fd g.history ++
        loginMsgs P fd g ((parseCalls P fd packs g).map Prod.snd))
      (fun _ g' => forwardedLogins fd g'.history = forwardedLogins fd g.history ++
        loginMsgs P fd g ((parseCalls P fd packs g).map Prod.snd))
      (handleAll (handleClient P fd) packs g) := by
  induction packs generalizing g with
  | nil =>
      show forwardedLogins fd g.history = forwardedLogins fd g.history ++ loginMsgs P fd g []
      rw [loginMsgs_nil, List.append_nil]
  | cons pack packs ih =>
      have hinv := handleClient_inv (P := P) pack h
      have hone := handleClient_forwards (P := P) pack h
      have hhead : ((parseInput fd pack g).map (Prod.mk pack)).toList.map Prod.snd =
          (parseInput fd pack g).toList := by
        cases parseInput fd pack g <;> rfl
      simp only [handleAll, parseCalls, List.map_append, hhead, loginMsgs_append]
      cases hr : handleClient P fd pack g with
      | error e g' =>
          rw [hr] at hone
          simpa [Forwards, Ends, loginMsgs_nil] using hone
      | ok u g' =>
          rw [hr] at hone hinv
          obtain ⟨hforw, hsame⟩ := hone
          have hrest : loginMsgs P fd g ((parseCalls P fd packs g').map Prod.snd) =
              loginMsgs P fd g' ((parseCalls P fd packs g').map Prod.snd) := by
            cases hc : g'.isConnected fd with
            | true => exact (hsame hc _).symm
            | false => rw [parseCalls_detached packs hinv hc]; simp [loginMsgs_nil]
          refine (ih hinv).imp ?_ ?_
          · intro s hs
            rw [hs, hforw, hrest, List.append_assoc]
          · intro e s hs
            rw [hs, hforw, hrest, List.append_assoc]

/-- What a step of a client buffer forwards. -/
theorem clientData_step_forwards {data : Bytes} (h : GateInv g) (hc : g.crashed = false)
    (hs : g.step P (.clientData fd data) = some g') :
    forwardedLogins fd g'.history = forwardedLogins fd g.history ++ loginMsgs P fd g
      ((parseCalls P fd (clientDecoder.frames data) { g with cause := .client fd }).map Prod.snd) := by
  obtain ⟨-, -, rfl⟩ := step_cases hs
  have hall := handleAll_forwards (P := P) (clientDecoder.frames data) (clientInv_of_inv h hc fd)
  rw [onRecvClientData_eq]
  cases hr : handleAll (handleClient P fd) (clientDecoder.frames data) { g with cause := .client fd } with
  | ok u s =>
      rw [hr] at hall
      exact hall
  | error e s =>
      rw [hr] at hall
      cases e with
      | thrown => exact (forwardedLogins_stop fd s).trans hall
      | outOfBounds => exact hall
      | nullCall => exact hall
      | deleted => exact hall

/-- The gate parses what it framed, and so the login requests that it forwards are those that the
client serialised. -/
structure ParsesFramed (P : GateProto) (fd : UInt32) (data : Bytes) (g : GateState) : Prop where
  parsed : ParsesBodies (parseCalls P fd (clientDecoder.frames data) { g with cause := .client fd })
  forwarded : ∀ g', g.step P (.clientData fd data) = some g' →
    forwardedLogins fd g'.history = forwardedLogins fd g.history ++ loginMsgs P fd g
      ((parseCalls P fd (clientDecoder.frames data) { g with cause := .client fd }).map
        fun c => c.1.body)

/-- **When the gate parses what it framed.**  In every reachable state and for every receive buffer of
a client session, the parser is given exactly the bodies of the packets that reach it, and the requests
in these bodies are what is forwarded to the login server, if and only if every login request that is
parsed is plain. -/
theorem parses_bodies_iff (P : GateProto) (es : List GateEvent) (g : GateState)
    (h : (gateMachine P).run es = some g) (hc : g.crashed = false) (fd : UInt32) (data : Bytes) :
    ParsesFramed P fd data g ↔ plainLogins P fd (clientDecoder.frames data) g = true := by
  have hinv := gate_inv ⟨es, h⟩
  have hsame : SameIntake g { g with cause := .client fd } := ⟨rfl, rfl, rfl⟩
  have hiff := parseCalls_iff (P := P) (clientDecoder.frames data) (clientInv_of_inv hinv hc fd)
  rw [hsame.plainLogins] at hiff
  rw [← hiff]
  refine ⟨ParsesFramed.parsed, fun hparsed => ⟨hparsed, fun g' hs => ?_⟩⟩
  rw [clientData_step_forwards hinv hc hs, List.map_congr_left hparsed]

/-- The protobuf library for login requests that hold at most a short `authAct`, which is field 1, and
for empty messages. -/
def actProto : GateProto where
  parseLoginReq
    | [] => some ⟨0, 0, [], [], [], 0, 0, 0⟩
    | 10 :: n :: authAct =>
        if authAct.length = n.toNat ∧ n < 128 then some ⟨0, 0, authAct, [], [], 0, 0, 0⟩ else none
    | _ => none
  serializeLoginReq req :=
    if req.authact.isEmpty then [] else 10 :: UInt8.ofNat req.authact.length :: req.authact
  parsesLoginAck := List.isEmpty
  parsesKickoff := List.isEmpty
  toServerImage body := if body.isEmpty then some [] else none

/-- A client of a gate that is connected to its servers. -/
def readyGate : List GateEvent :=
  [.accept 3, .linkChange .login true, .linkChange .game true, .init]

/-- A login request for the account `a`, and a heartbeat behind it. -/
def plainRequest : Bytes :=
  encodePacket CLI_GG_Login_REQ [10, 1, 97] 3 ++ encodePacket CS_HeartBeat_Req [] 0

theorem parses_plainRequest : ∃ g g', (gateMachine actProto).run readyGate = some g ∧
    g.step actProto (.clientData 3 plainRequest) = some g' ∧ ParsesFramed actProto 3 plainRequest g ∧
    forwardedLogins 3 g'.history = [loginMsg actProto 1 ⟨0, 0, [97], [], [], 0, 0, 0⟩] := by
  obtain ⟨g, h⟩ : ∃ g, (gateMachine actProto).run readyGate = some g :=
    Option.isSome_iff_exists.mp (by decide +kernel)
  have hview : ((gateMachine actProto).run readyGate).map (fun g => (g.crashed,
      plainLogins actProto 3 (clientDecoder.frames plainRequest) g,
      (g.step actProto (.clientData 3 plainRequest)).map fun g' => forwardedLogins 3 g'.history)) =
      some (false, true, some [loginMsg actProto 1 ⟨0, 0, [97], [], [], 0, 0, 0⟩]) := by
    decide +kernel
  rw [h] at hview
  obtain ⟨hc, hrest⟩ := Prod.mk.inj (Option.some.inj hview)
  obtain ⟨hplain, hstep⟩ := Prod.mk.inj hrest
  obtain ⟨g', hs, hforw⟩ := Option.map_eq_some_iff.mp hstep
  exact ⟨g, g', h, hs, (parses_bodies_iff actProto readyGate g h hc 3 plainRequest).mpr hplain, hforw⟩

/-- A login request for an account of three bytes, the second of which is zero. -/
def zeroRequest : Bytes := encodePacket CLI_GG_Login_REQ [10, 3, 97, 0, 98] 5

/-- The parser is given the first three of the five bytes, which are no message, and nothing is
forwarded. -/
theorem zeroRequest_cut_short : ∃ g g', (gateMachine actProto).run readyGate = some g ∧
    g.step actProto (.clientData 3 zeroRequest) = some g' ∧
    (parseCalls actProto 3 (clientDecoder.frames zeroRequest) { g with cause := .client 3 }).map
      (fun c => (c.1.body, c.2)) = [([10, 3, 97, 0, 98], [10, 3, 97])] ∧
    forwardedLogins 3 g'.history = [] ∧ ¬ ParsesFramed actProto 3 zeroRequest g := by
  obtain ⟨g, h⟩ : ∃ g, (gateMachine actProto).run readyGate = some g :=
    Option.isSome_iff_exists.mp (by decide +kernel)
  have hview : ((gateMachine actProto).run readyGate).map (fun g =>
      ((parseCalls actProto 3 (clientDecoder.frames zeroRequest) { g with cause := .client 3 }).map
        (fun c => (c.1.body, c.2)),
      (g.step actProto (.clientData 3 zeroRequest)).map fun g' => forwardedLogins 3 g'.history)) =
      some ([([10, 3, 97, 0, 98], [10, 3, 97])], some []) := by
    decide +kernel
  rw [h] at hview
  obtain ⟨hcalls, hstep⟩ := Prod.mk.inj (Option.some.inj hview)
  obtain ⟨g', hs, hforw⟩ := Option.map_eq_some_iff.mp hstep
  refine ⟨g, g', h, hs, hcalls, hforw, ?_⟩
  intro hall
  obtain ⟨c, hc, hce⟩ := List.mem_map.mp
    (hcalls ▸ List.mem_singleton_self ([10, 3, 97, 0, 98], [10, 3, 97]))
  have hbody := hall.parsed c hc
  obtain ⟨h₁, h₂⟩ := Prod.mk.inj hce
  rw [h₁, h₂] at hbody
  cases hbody

end BlackSwan
