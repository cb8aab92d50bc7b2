import BlackSwan.GateInvariant

/-! # What the gate does for its clients

Three results about every run of the gate.

* Clients are isolated: what an inner packet with `transID` `t` sends to a client goes to the session
  that `t` was given to, as long as it is there, and what a client causes upstream carries the id
  of its session.
* The gate survives exactly the runs in which no packet with an id between a client and the gate is
  handled after its session has been stopped.  `onRecvClientData` does not look at the session
  between two packets of a buffer, and `onRecvClientPacket` calls `Close` through the null pointer
  that it has just found.
* As many login requests are forwarded for a session as it sends: `handled_` never changes. -/

namespace BlackSwan

open Wire Runs Tables

variable {P : GateProto} {g g' : GateState}

/-! ### Isolation -/

/-- What a history says about sessions and ids. -/
structure Isolated (h : List GateAct) : Prop where
  /-- an id is given to one session, and a session gets one id -/
  unique : ∀ fd fd' id id', .added fd id ∈ h → .added fd' id' ∈ h → (fd = fd' ↔ id = id')
  /-- what an inner packet sends to a client goes to the session of its `transID`, unless that has
  been deleted -/
  toClient : ∀ h₁ link t fd msg h₂, h = h₁ ++ .toClient (.inner link t) fd msg :: h₂ →
    .added fd t ∈ h₁ ∧ .deleted fd ∉ h₁
  /-- once the session of an id has been deleted, no client gets anything for that id -/
  silent : ∀ h₁ fd h₂ link t fd' msg, h = h₁ ++ .deleted fd :: h₂ → .added fd t ∈ h →
    .toClient (.inner link t) fd' msg ∉ h₂
  /-- what a buffer of a session sends upstream carries the id of the session -/
  upstream : ∀ h₁ fd link msg h₂, h = h₁ ++ .upstream (.client fd) link msg :: h₂ →
    ∃ t, .added fd t ∈ h₁ ∧ readWord msg 4 8 = some t.toNat

theorem added_unique {h : List GateAct} (hj : Justified Justifies h) {fd fd' : UInt32}
    {id id' : PlayerID} (ha : .added fd id ∈ h) (ha' : .added fd' id' ∈ h) : fd = fd' ↔ id = id' := by
  -- of two different entries the later one rules out the earlier one
  have key : ∀ fd fd' id id' h₁ h₂, h = h₁ ++ .added fd id :: h₂ → .added fd' id' ∈ h₂ →
      fd ≠ fd' ∧ id ≠ id' := by
    intro fd fd' id id' h₁ h₂ e hm
    obtain ⟨h₃, h₄, rfl⟩ := List.append_of_mem hm
    have e' : h = (h₁ ++ .added fd id :: h₃) ++ .added fd' id' :: h₄ := by simp [e]
    exact hj _ _ _ e' fd id (by simp)
  obtain ⟨h₁, h₂, e⟩ := List.append_of_mem ha
  rw [e, List.mem_append, List.mem_cons] at ha'
  obtain ha' | ha' | ha' := ha'
  · obtain ⟨h₃, h₄, rfl⟩ := List.append_of_mem ha'
    have hne := key fd' fd id' id h₃ (h₄ ++ .added fd id :: h₂) (by simp [e]) (by simp)
    exact ⟨fun h => absurd h.symm hne.1, fun h => absurd h.symm hne.2⟩
  · obtain ⟨rfl, rfl⟩ := GateAct.added.inj ha'
    exact ⟨fun _ => rfl, fun _ => rfl⟩
  · have hne := key fd fd' id id' h₁ h₂ e ha'
    exact ⟨fun h => absurd h hne.1, fun h => absurd h hne.2⟩

/-- **The gate isolates its clients**, in every run, whatever the protobuf library does. -/
theorem gate_isolates_clients (P : GateProto) (es : List GateEvent) (g : GateState)
    (h : (gateMachine P).run es = some g) : Isolated g.history := by
  have hj := (gate_inv ⟨es, h⟩).just
  constructor
  · intro fd fd' id id' ha ha'
    exact added_unique hj ha ha'
  · intro h₁ link t fd msg h₂ e
    exact hj _ _ _ e
  · intro h₁ fd h₂ link t fd' msg e hadd hm
    obtain ⟨h₃, h₄, rfl⟩ := List.append_of_mem hm
    have e' : g.history = (h₁ ++ .deleted fd :: h₃) ++ .toClient (.inner link t) fd' msg :: h₄ := by
      simp [e]
    obtain ⟨hadd', hdel⟩ := hj _ _ _ e'
    obtain rfl : fd = fd' := (added_unique hj hadd (e' ▸ List.mem_append_left _ hadd')).mpr rfl
    exact hdel (by simp)
  · intro h₁ fd link msg h₂ e
    exact hj _ _ _ e

/-- The protobuf library, for small runs: in them every body is empty, that is a message with all
fields at their defaults. -/
def plainProto : GateProto where
  parseLoginReq body := if body.isEmpty then some ⟨0, 0, [], [], [], 0, 0, 0⟩ else none
  serializeLoginReq _ := []
  parsesLoginAck := List.isEmpty
  parsesKickoff := List.isEmpty
  toServerImage body := if body.isEmpty then some [] else none

/-- Two clients; the first one logs in, the game server answers both, and the second one leaves
before the second answer. -/
def twoClients : List GateEvent :=
  [.linkChange .login true, .linkChange .game true, .init, .accept 1, .accept 2,
    .clientData 1 (encodePacket CLI_GG_Login_REQ [] 0),
    .gameData (encodeInnerPacket GS_GG_CLI_MSG [] 0 2),
    .disconnect 2,
    .gameData (encodeInnerPacket GS_GG_CLI_MSG [] 0 2)]

theorem gate_isolates_twoClients : ∃ g, (gateMachine plainProto).run twoClients = some g ∧
    g.history = [.added 1 1, .added 2 2, .dispatched 1 20,
      .upstream (.client 1) .login (encodeInnerPacket GG_LS_Login_REQ [] 0 1),
      .toClient (.inner .game 2) 2 (encodePacket GS_GG_CLI_MSG [] 0),
      .stopped 2, .deleted 2] ∧ Isolated g.history := by
  obtain ⟨g, h⟩ : ∃ g, (gateMachine plainProto).run twoClients = some g :=
    Option.isSome_iff_exists.mp (by decide +kernel)
  refine ⟨g, h, ?_, gate_isolates_clients plainProto twoClients g h⟩
  have hist : ((gateMachine plainProto).run twoClients).map GateState.history = some
      [.added 1 1, .added 2 2, .dispatched 1 20,
        .upstream (.client 1) .login (encodeInnerPacket GG_LS_Login_REQ [] 0 1),
        .toClient (.inner .game 2) 2 (encodePacket GS_GG_CLI_MSG [] 0),
        .stopped 2, .deleted 2] := by decide +kernel
  rw [h] at hist
  exact Option.some.inj hist

/-! ### One packet of a client -/

/-- A login request that was forwarded for the session `fd`. -/
def isLoginForward (fd : UInt32) : GateAct → Bool
  | .upstream (.client fd') .login msg => fd' == fd && readWord msg 0 4 == some GG_LS_Login_REQ.toNat
  | _ => false

/-- How many login requests have been forwarded for the session `fd`. -/
def forwards (fd : UInt32) (g : GateState) : ℕ := g.history.countP (isLoginForward fd)

/-- What the packets of a buffer depend on. -/
structure SameIntake (g g' : GateState) : Prop where
  sessions : g'.sessions = g.sessions
  inited : g'.inited = g.inited
  connected : g'.connected = g.connected

/-- Everything that handling one packet of the session `fd` can do. -/
inductive Handling (P : GateProto) (fd : UInt32) (p : Packet) (g : GateState) :
    Call GateState Unit → Prop where
  /-- a heartbeat, a login request that is not understood, or anything out of range that comes
  after the session has been stopped -/
  | passed {g' : GateState}
      (why : if g.isConnected fd then isHeartBeat p.id = true ∨
        (isHeartBeat p.id = false ∧ p.id = CLI_GG_Login_REQ ∧ loginReq P g.inited p = none)
        else inRange p.id = false)
      (same : SameIntake g g') (count : ∀ fd', forwards fd' g' = forwards fd' g) :
      Handling P fd p g (.ok () g')
  /-- a login request -/
  | forwarded {g' : GateState} {req : CliLoginReq} (conn : g.isConnected fd = true)
      (hid : p.id = CLI_GG_Login_REQ) (hreq : loginReq P g.inited p = some req)
      (peer : g.hasPeer fd = true) (same : SameIntake g g')
      (count : ∀ fd', forwards fd' g' =
        forwards fd' g + if fd' = fd ∧ g.connected .login = true then 1 else 0) :
      Handling P fd p g (.ok () g')
  /-- a login request whose sender has gone -/
  | thrown {g' : GateState} {req : CliLoginReq} (conn : g.isConnected fd = true)
      (hid : p.id = CLI_GG_Login_REQ) (hreq : loginReq P g.inited p = some req)
      (peer : g.hasPeer fd = false) (count : ∀ fd', forwards fd' g' = forwards fd' g) :
      Handling P fd p g (.error .thrown g')
  /-- any other packet ends the session -/
  | stopped (conn : g.isConnected fd = true) (hb : isHeartBeat p.id = false)
      (hid : p.id ≠ CLI_GG_Login_REQ) : Handling P fd p g (.ok () (g.stop fd))
  /-- a packet in range after that is a call through the null pointer -/
  | null (conn : g.isConnected fd = false) (hr : inRange p.id = true) :
      Handling P fd p g (.error .nullCall g)

/-- What `onRecvClientData` does with one packet. -/
def handleClient (P : GateProto) (fd : UInt32) : Packet → GateState → Call GateState Unit :=
  onPacket Packet.id (GateState.replyPing fd) (GateState.onRecvClientPacket P fd)

theorem isHeartBeat_iff (id : UInt32) :
    isHeartBeat id = true ↔ id = CS_HeartBeat_Req ∨ id = CS_HeartBeat_Ack := by
  simp [isHeartBeat]

theorem isHeartBeat_loginReq : isHeartBeat CLI_GG_Login_REQ = false := by decide

theorem inRange_heartBeat {id : UInt32} (h : isHeartBeat id = true) : inRange id = false := by
  obtain rfl | rfl := (isHeartBeat_iff id).mp h <;> decide

theorem handleClient_of_not_heartBeat {fd : UInt32} {p : Packet} (h : isHeartBeat p.id = false) :
    handleClient P fd p g = GateState.onRecvClientPacket P fd p g := by
  have h₁ : p.id ≠ CS_HeartBeat_Req := fun e => by simp [isHeartBeat, e] at h
  have h₂ : p.id ≠ CS_HeartBeat_Ack := fun e => by simp [isHeartBeat, e] at h
  simp [handleClient, onPacket, h₁, h₂]

theorem forwards_log {act : GateAct} (fd : UInt32) (g : GateState) :
    forwards fd (g.log act) = forwards fd g + if isLoginForward fd act then 1 else 0 := by
  simp [forwards, GateState.log, List.countP_append, List.countP_cons]

theorem handleClient_heartBeat (fd : UInt32) (g : GateState) {p : Packet} (h : isHeartBeat p.id = true) :
    ∃ g', handleClient P fd p g = .ok () g' ∧ SameIntake g g' ∧
      ∀ fd', forwards fd' g' = forwards fd' g := by
  obtain h | h := (isHeartBeat_iff p.id).mp h
  · refine ⟨g.replyPing fd, by simp [handleClient, onPacket, h], ⟨rfl, rfl, rfl⟩, fun fd' => ?_⟩
    rw [GateState.replyPing, GateState.send, forwards_log]
    rfl
  · refine ⟨g, ?_, ⟨rfl, rfl, rfl⟩, fun _ => rfl⟩
    simp [handleClient, onPacket, h, CS_HeartBeat_Ack, CS_HeartBeat_Req]

theorem isLoginForward_loginMsg (fd fd' : UInt32) (id : PlayerID) (req : CliLoginReq) :
    isLoginForward fd' (.upstream (.client fd) .login (loginMsg P id req)) = decide (fd' = fd) := by
  have hid : readWord (loginMsg P id req) 0 4 = some GG_LS_Login_REQ.toNat := readWord_msgId _ _ _ _
  rw [isLoginForward, hid, Bool.beq_eq_decide_eq]
  simp [eq_comm]

/-- A forwarded request counts when the link is up. -/
theorem forwards_sendLink {fd : UInt32} (hc : g.cause = .client fd) (id : PlayerID)
    (req : CliLoginReq) (fd' : UInt32) :
    forwards fd' (g.sendLink .login (loginMsg P id req)) =
      forwards fd' g + if fd' = fd ∧ g.connected .login = true then 1 else 0 := by
  have hne : (loginMsg P id req).isEmpty = false := by
    have hlen : 0 < (loginMsg P id req).length := by
      simp only [loginMsg, encodeInnerPacket, List.length_append, length_beBytes]
      omega
    cases hm : loginMsg P id req with
    | nil => simp [hm] at hlen
    | cons b bs => rfl
  unfold GateState.sendLink
  cases hup : g.connected .login with
  | false => simp
  | true =>
      simp only [hne, Bool.not_true, Bool.or_self, Bool.false_eq_true, if_false, and_true]
      rw [forwards_log, hc, isLoginForward_loginMsg]
      simp

theorem sameIntake_sendLink (link : Link) (msg : Bytes) (g : GateState) :
    SameIntake g (g.sendLink link msg) := by
  unfold GateState.sendLink
  split_ifs <;> exact ⟨rfl, rfl, rfl⟩

/-- **Handling one packet**, in terms of the packet and of the state before it. -/
theorem handleClient_handling {fd : UInt32} (p : Packet) (h : ClientInv fd g) :
    Handling P fd p g (handleClient P fd p g) := by
  cases hb : isHeartBeat p.id with
  | true =>
      obtain ⟨g', hg', hsame, hcount⟩ := handleClient_heartBeat (P := P) fd g hb
      rw [hg']
      exact .passed (by simp [hb, inRange_heartBeat hb]) hsame hcount
  | false =>
      rw [handleClient_of_not_heartBeat hb]
      cases hc : g.isConnected fd with
      | false =>
          rw [onRecvClientPacket_detached (not_on_file h.inv hc), GateInv.stop_of_not_connected hc]
          cases hr : inRange p.id with
          | true => exact .null hc hr
          | false => exact .passed (by simp [hc, hr]) ⟨rfl, rfl, rfl⟩ fun _ => rfl
      | true =>
          obtain ⟨id, pl, ha⟩ := h.inv.attached hc
          by_cases hid : p.id = CLI_GG_Login_REQ
          · rw [onRecvClientPacket_login ha hid]
            cases hreq : loginReq P g.inited p with
            | none =>
                refine .passed (by simp [hc, hid, hreq]) ⟨rfl, rfl, rfl⟩ fun fd' => ?_
                rw [forwards_log]
                rfl
            | some req =>
                have hn : ∀ fd', forwards fd'
                    (noted id pl req (g.log (.dispatched fd CLI_GG_Login_REQ))) = forwards fd' g := by
                  intro fd'
                  show forwards fd' (g.log _) = _
                  rw [forwards_log]
                  rfl
                cases hpeer : g.hasPeer fd with
                | true =>
                    have hsame := sameIntake_sendLink .login (loginMsg P id req)
                      (noted id pl req (g.log (.dispatched fd CLI_GG_Login_REQ)))
                    refine .forwarded hc hid hreq hpeer ⟨hsame.1, hsame.2, hsame.3⟩ fun fd' => ?_
                    rw [forwards_sendLink (by exact h.cause), hn]
                    rfl
                | false => exact .thrown hc hid hreq hpeer hn
          · rw [onRecvClientPacket_other ha hid]
            exact .stopped hc hb hid

/-! ### Survival -/

/-- Among the packets of a connected session, one with an id between a client and the gate stands
behind one that stops the session: every packet stops it but a heartbeat and a login request.  A
request whose sender has gone ends the list, as `getClientIp` throws. -/
def faultsConnected (P : GateProto) (inited peer : Bool) : List Packet → Bool
  | [] => false
  | p :: ps =>
      if isHeartBeat p.id then faultsConnected P inited peer ps
      else if p.id = CLI_GG_Login_REQ then
        !((loginReq P inited p).isSome && !peer) && faultsConnected P inited peer ps
      else ps.any fun q => inRange q.id

/-- The same, for any session: if it is stopped already, one packet in range is enough. -/
def faults (P : GateProto) (fd : UInt32) (ps : List Packet) (g : GateState) : Bool :=
  if g.isConnected fd then faultsConnected P g.inited (g.hasPeer fd) ps
  else ps.any fun p => inRange p.id

theorem SameIntake.isConnected (h : SameIntake g g') (fd : UInt32) :
    g'.isConnected fd = g.isConnected fd := by rw [GateState.isConnected, h.sessions]; rfl

theorem SameIntake.hasPeer (h : SameIntake g g') (fd : UInt32) :
    g'.hasPeer fd = g.hasPeer fd := by rw [GateState.hasPeer, h.sessions]; rfl

theorem SameIntake.faults (h : SameIntake g g') (P : GateProto) (fd : UInt32) (ps : List Packet) :
    BlackSwan.faults P fd ps g' = BlackSwan.faults P fd ps g := by
  simp only [BlackSwan.faults, h.isConnected, h.hasPeer, h.inited]

theorem isConnected_stop (fd : UInt32) (g : GateState) : (g.stop fd).isConnected fd = false := by
  cases hc : g.isConnected fd with
  | false => rw [GateInv.stop_of_not_connected hc]; exact hc
  | true =>
      obtain ⟨s, hs, hst⟩ := (GateInv.isConnected_iff fd g).mp hc
      unfold GateState.stop
      simp only [hs, hst, Bool.false_eq_true, if_false, GateState.delSession]
      split
      · unfold GateState.updatePlayer
        split <;> simp [GateState.isConnected, GateState.log]
      · simp [GateState.isConnected, GateState.log]

theorem handleClient_inv {fd : UInt32} (p : Packet) (h : ClientInv fd g) :
    Ends (ClientInv fd) (ClientFault fd) (handleClient P fd p g) := by
  unfold handleClient onPacket
  split_ifs
  · exact replyPing_inv h
  · exact h
  · exact onRecvClientPacket_inv h p

/-- **Induction over the packets of a buffer**: one packet and then the rest, or a packet whose
handler does not return. -/
theorem handleAll_induction {fd : UInt32}
    {Q : List Packet → GateState → Call GateState Unit → Prop} (hnil : ∀ g, Q [] g (.ok () g))
    (hok : ∀ p ps g g' r, Handling P fd p g (.ok () g') → Q ps g' r → Q (p :: ps) g r)
    (herr : ∀ p ps g e g', Handling P fd p g (.error e g') → Q (p :: ps) g (.error e g'))
    (ps : List Packet) (h : ClientInv fd g) : Q ps g (handleAll (handleClient P fd) ps g) := by
  induction ps generalizing g with
  | nil => exact hnil g
  | cons p ps ih =>
      have hinv := handleClient_inv (P := P) p h
      have hh := handleClient_handling (P := P) p h
      simp only [handleAll]
      cases hr : handleClient P fd p g with
      | ok u g' =>
          rw [hr] at hinv hh
          exact hok p ps g g' _ hh (ih hinv)
      | error e g' =>
          rw [hr] at hh
          exact herr p ps g e g' hh

/-- The packets of a buffer reach the null pointer exactly when `faults` says so. -/
theorem handleAll_faults {fd : UInt32} (ps : List Packet) (h : ClientInv fd g) :
    (∃ g', handleAll (handleClient P fd) ps g = .error .nullCall g') ↔ faults P fd ps g = true := by
  refine handleAll_induction (P := P) (Q := fun ps g r =>
    (∃ g', r = .error .nullCall g') ↔ faults P fd ps g = true) ?_ ?_ ?_ ps h
  · intro g
    simp [faults, faultsConnected]
  · intro p ps g g' r hh ih
    rw [ih]
    cases hh with
    | passed why same =>
        rw [same.faults]
        cases hc : g.isConnected fd with
        | false =>
            simp only [hc, Bool.false_eq_true, if_false] at why
            simp [faults, hc, why]
        | true =>
            simp only [hc, if_true] at why
            obtain hb | ⟨hb, hid, hreq⟩ := why
            · simp [faults, hc, faultsConnected, hb]
            · simp [faults, hc, faultsConnected, hid, hreq]
    | forwarded conn hid hreq peer same =>
        rw [same.faults]
        simp [faults, conn, faultsConnected, hid, peer]
    | stopped conn hb hid => simp [faults, conn, isConnected_stop, faultsConnected, hb, hid]
  · intro p ps g e g' hh
    cases hh with
    | thrown conn hid hreq peer =>
        simp [faults, conn, faultsConnected, hid, hreq, peer, isHeartBeat_loginReq]
    | null conn hrange => simp [faults, conn, hrange]

/-- `onRecvClientData` handles the packets that its decoder finds. -/
theorem onRecvClientData_eq (fd : UInt32) (data : Bytes) (g : GateState) :
    GateState.onRecvClientData P fd data g =
      match handleAll (handleClient P fd) (clientDecoder.frames data) g with
      | .ok _ g' => .ok (clientDecoder.rest data).length g'
      | .error e g' => .error e g' := by
  unfold GateState.onRecvClientData clientLoop
  rw [recvLoop_eq, ← handleClient]
  cases handleAll (handleClient P fd) (clientDecoder.frames data) g <;> rfl

/-- A step is orderly when it is not a client buffer with a packet in range behind one that stops
the session, or from a session that is stopped already. -/
def orderly (P : GateProto) (g : GateState) : GateEvent → Bool
  | .clientData fd data => !faults P fd (clientDecoder.frames data) g
  | _ => true

/-- A client buffer ends the process exactly when it is not orderly. -/
theorem clientData_crashed {fd : UInt32} (data : Bytes) (h : ClientInv fd g) :
    (GateState.settle (GateState.stop fd) (GateState.onRecvClientData P fd data g)).crashed =
      faults P fd (clientDecoder.frames data) g := by
  have hf := handleAll_faults (P := P) (clientDecoder.frames data) h
  have hinv := ends_handleAll (fun p g => handleClient_inv (P := P) (g := g) p)
    (clientDecoder.frames data) g h
  rw [onRecvClientData_eq]
  cases hr : handleAll (handleClient P fd) (clientDecoder.frames data) g with
  | ok u g' =>
      rw [hr] at hf hinv
      have hno : faults P fd (clientDecoder.frames data) g = false := by simpa using hf
      rw [hno]
      exact hinv.running
  | error e g' =>
      rw [hr] at hf hinv
      cases e with
      | outOfBounds => exact absurd rfl hinv.2.1
      | deleted => exact absurd rfl hinv.2.2
      | nullCall => exact (hf.mp ⟨g', rfl⟩).symm
      | thrown =>
          have hno : faults P fd (clientDecoder.frames data) g = false := by simpa using hf
          rw [hno]
          exact (stop_crashed fd g').trans hinv.1.running

theorem step_crashed {e : GateEvent} (h : GateInv g) (hs : g.step P e = some g') :
    g'.crashed = false ↔ orderly P g e = true := by
  obtain ⟨hc, hs⟩ := step_cases hs
  cases e with
  | clientData fd data =>
      obtain ⟨-, rfl⟩ := hs
      rw [clientData_crashed data (clientInv_of_inv h hc fd)]
      have hsame : SameIntake g { g with cause := .client fd } := ⟨rfl, rfl, rfl⟩
      simp [orderly, hsame.faults]
  | accept fd =>
      obtain ⟨hfd, rfl⟩ := hs
      rw [h.addSession_eq hfd]
      simpa [orderly, GateState.settle, GateInv.accepted] using hc
  | disconnect fd =>
      obtain rfl := hs
      simpa [orderly] using hc
  | peerGone fd =>
      obtain ⟨s, -, rfl⟩ := hs
      simpa [orderly] using hc
  | loginData data =>
      obtain rfl := hs
      simpa [orderly] using
        (settle_link (onRecvLoginData_inv (linkInv_of_inv h hc .login) data)).running
  | gameData data =>
      obtain rfl := hs
      simpa [orderly] using
        (settle_link (onRecvServerData_inv (linkInv_of_inv h hc .game) data)).running
  | linkChange link up =>
      obtain rfl := hs
      simpa [orderly] using hc
  | clientPing fd =>
      obtain ⟨-, rfl⟩ := hs
      exact iff_of_true hc rfl
  | linkPing link =>
      obtain ⟨-, rfl⟩ := hs
      exact iff_of_true hc rfl
  | init =>
      obtain rfl := hs
      simpa [orderly] using hc

/-- No handler is given a packet of a session that has been stopped. -/
def NoLateDispatch (h : List GateAct) : Prop :=
  ∀ h₁ fd msgId h₂, h = h₁ ++ .dispatched fd msgId :: h₂ → .stopped fd ∉ h₁

/-- **The gate survives exactly the orderly runs.**  It makes no call through a null pointer, and
dispatches no packet of a session that has been stopped, if and only if in every client buffer of
the run no packet with an id between a client and the gate is behind one that stops the session
(and there is none in a buffer of a session that is stopped already). -/
theorem gate_survives_iff (P : GateProto) (es : List GateEvent) (g : GateState)
    (h : (gateMachine P).run es = some g) :
    (g.crashed = false ∧ NoLateDispatch g.history) ↔
      (gateMachine P).Along (fun g e => orderly P g e = true) es := by
  have hlate : NoLateDispatch g.history := by
    intro h₁ fd msgId h₂ e
    exact (gate_inv ⟨es, h⟩).just _ _ _ e
  rw [and_iff_left hlate]
  refine (gateMachine P).run_induction (P := fun es g =>
    g.crashed = false ↔ (gateMachine P).Along (fun g e => orderly P g e = true) es) ?_ ?_ h
  · exact ⟨fun _ => trivial, fun _ => rfl⟩
  · intro es s e s' hrun ih hstep
    rw [(gateMachine P).along_snoc _ hrun, ← ih,
      step_crashed (gate_inv ⟨es, hrun⟩) hstep]
    exact (and_iff_right (step_cases hstep).1).symm

/-- A login request and a heartbeat in one buffer, and a packet that ends the session in the
next. -/
def orderlyRun : List GateEvent :=
  [.accept 1, .clientData 1 (encodePacket CLI_GG_Login_REQ [] 0 ++ encodePacket CS_HeartBeat_Req [] 0),
    .clientData 1 (encodePacket CLI_GG_GS_MSG [] 0)]

theorem gate_survives_orderlyRun : ∃ g, (gateMachine plainProto).run orderlyRun = some g ∧
    g.crashed = false ∧ NoLateDispatch g.history := by
  obtain ⟨g, h⟩ : ∃ g, (gateMachine plainProto).run orderlyRun = some g :=
    Option.isSome_iff_exists.mp (by decide +kernel)
  exact ⟨g, h, (gate_survives_iff plainProto orderlyRun g h).mpr (by decide +kernel)⟩

/-- Two packets in one buffer: the first one stops the session, the second one finds it gone. -/
def fatalBuffer : Bytes := encodePacket 1 [] 0 ++ encodePacket CLI_GG_Login_REQ [] 0

theorem gate_dies_of_fatalBuffer : ∃ g, (gateMachine plainProto).run [.accept 1] = some g ∧
    g.isConnected 1 = true ∧
    faultOf (GateState.onRecvClientData plainProto 1 fatalBuffer g) = some .nullCall ∧
    ∃ g', (gateMachine plainProto).run [.accept 1, .clientData 1 fatalBuffer] = some g' ∧
      g'.crashed = true := by
  obtain ⟨g, h⟩ : ∃ g, (gateMachine plainProto).run [.accept 1] = some g :=
    Option.isSome_iff_exists.mp (by decide +kernel)
  obtain ⟨g', h'⟩ : ∃ g', (gateMachine plainProto).run [.accept 1, .clientData 1 fatalBuffer] = some g' :=
    Option.isSome_iff_exists.mp (by decide +kernel)
  have hview : ((gateMachine plainProto).run [.accept 1]).map (fun g => (g.isConnected 1,
      faultOf (GateState.onRecvClientData plainProto 1 fatalBuffer g))) =
      some (true, some .nullCall) := by decide +kernel
  have hcrash : ((gateMachine plainProto).run [.accept 1, .clientData 1 fatalBuffer]).map
      GateState.crashed = some true := by decide +kernel
  rw [h] at hview
  rw [h'] at hcrash
  obtain ⟨hconn, hnull⟩ := Prod.mk.inj (Option.some.inj hview)
  exact ⟨g, h, hconn, hnull, g', h', Option.some.inj hcrash⟩

/-! ### Login requests -/

/-- The login requests in a list of packets of a connected session that reach the login server: up
to the first packet that stops the session, those that parse, unless the sender has gone. -/
def logins (P : GateProto) (inited peer : Bool) : List Packet → ℕ
  | [] => 0
  | p :: ps =>
      if isHeartBeat p.id then logins P inited peer ps
      else if p.id = CLI_GG_Login_REQ then
        match loginReq P inited p with
        | none => logins P inited peer ps
        | some _ => if peer then 1 + logins P inited peer ps else 0
      else 0

/-- The login requests that a list of packets of the session `fd` brings. -/
def requests (P : GateProto) (fd : UInt32) (ps : List Packet) (g : GateState) : ℕ :=
  if g.isConnected fd && g.connected .login then logins P g.inited (g.hasPeer fd) ps else 0

theorem SameIntake.requests (h : SameIntake g g') (P : GateProto) (fd : UInt32) (ps : List Packet) :
    BlackSwan.requests P fd ps g' = BlackSwan.requests P fd ps g := by
  simp only [BlackSwan.requests, h.isConnected, h.hasPeer, h.inited, h.connected]

theorem forwards_stop (fd fd' : UInt32) (g : GateState) : forwards fd' (g.stop fd) = forwards fd' g := by
  obtain ⟨-, -, h, e, hh⟩ := stop_frame fd g
  have hzero : h.countP (isLoginForward fd') = 0 := by
    obtain rfl | rfl := hh <;> rfl
  rw [forwards, e, List.countP_append, hzero]
  rfl

/-- The state after a number of requests have been forwarded for the session `fd`. -/
def Forwarded (fd : UInt32) (n : ℕ) (g g' : GateState) : Prop :=
  ∀ fd', forwards fd' g' = forwards fd' g + if fd' = fd then n else 0

theorem Forwarded.trans {fd : UInt32} {n m : ℕ} {g'' : GateState} (h : Forwarded fd n g g')
    (h' : Forwarded fd m g' g'') : Forwarded fd (n + m) g g'' := by
  intro fd'
  rw [h' fd', h fd']
  split_ifs <;> omega

/-- As many requests are forwarded as the packets bring, and none for another session. -/
theorem handleAll_forwarded {fd : UInt32} (ps : List Packet) (h : ClientInv fd g) :
    Ends (Forwarded fd (requests P fd ps g) g) (fun _ => Forwarded fd (requests P fd ps g) g)
      (handleAll (handleClient P fd) ps g) := by
  refine handleAll_induction (P := P) (Q := fun ps g r =>
    Ends (Forwarded fd (requests P fd ps g) g) (fun _ => Forwarded fd (requests P fd ps g) g) r)
    ?_ ?_ ?_ ps h
  · intro g fd'
    simp [requests, logins]
  · intro p ps g g' r hh hrest
    -- what this packet brings, and what the rest brings after it
    obtain ⟨n, hn, hsum⟩ : ∃ n, Forwarded fd n g g' ∧
        requests P fd (p :: ps) g = n + requests P fd ps g' := by
      cases hh with
      | passed why same count =>
          refine ⟨0, fun fd' => by simp [count fd'], ?_⟩
          rw [same.requests]
          cases hc : g.isConnected fd with
          | false => simp [requests, hc]
          | true =>
              simp only [hc, if_true] at why
              obtain hb | ⟨hb, hid, hreq⟩ := why
              · simp [requests, logins, hb]
              · simp [requests, logins, hid, hreq]
      | forwarded conn hid hreq peer same count =>
          refine ⟨if g.connected .login then 1 else 0, fun fd' => ?_, ?_⟩
          · rw [count fd']
            by_cases hfd : fd' = fd <;> simp [hfd]
          · rw [same.requests]
            cases hup : g.connected .login with
            | false => simp [requests, hup]
            | true => simp [requests, conn, hup, logins, hid, hreq, peer, isHeartBeat_loginReq]
      | stopped conn hb hid =>
          refine ⟨0, fun fd' => by simp [forwards_stop], ?_⟩
          simp [requests, conn, isConnected_stop, logins, hb, hid]
    rw [hsum]
    exact hrest.imp (fun _ h => hn.trans h) fun _ _ h => hn.trans h
  · intro p ps g e g' hh fd'
    cases hh with
    | thrown conn hid hreq peer count =>
        rw [count fd']
        simp [requests, conn, logins, hid, hreq, peer, isHeartBeat_loginReq]
    | null conn hrange => simp [requests, conn]

/-- The login requests of the session `fd` that a step brings. -/
def requestsOf (P : GateProto) (fd : UInt32) (g : GateState) : GateEvent → ℕ
  | .clientData fd' data => if fd' = fd then requests P fd (clientDecoder.frames data) g else 0
  | _ => 0

theorem clientData_forwards {fd : UInt32} (data : Bytes) (h : ClientInv fd g) :
    Forwarded fd (requests P fd (clientDecoder.frames data) g) g
      (GateState.settle (GateState.stop fd) (GateState.onRecvClientData P fd data g)) := by
  have hf := handleAll_forwarded (P := P) (clientDecoder.frames data) h
  rw [onRecvClientData_eq]
  cases hr : handleAll (handleClient P fd) (clientDecoder.frames data) g with
  | ok u g' =>
      rw [hr] at hf
      exact hf
  | error e g' =>
      rw [hr] at hf
      cases e with
      | outOfBounds => exact hf
      | nullCall => exact hf
      | deleted => exact hf
      | thrown =>
          intro fd'
          show forwards fd' (g'.stop fd) = _
          rw [forwards_stop]
          exact hf fd'

/-- Nothing that a link causes counts as a forwarded request of a client. -/
theorem link_forwards (fd : UInt32) (n : ℕ) {loop : DataProcess GateState} {data : Bytes}
    (hloop : Ends (fun g => LinkInv g ∧ forwards fd g = n) (fun _ _ => False) (loop data g)) :
    forwards fd (GateState.settle id (loop data g)) = n := by
  cases hr : loop data g with
  | ok _ g' =>
      rw [hr] at hloop
      exact hloop.2
  | error e g' =>
      rw [hr] at hloop
      exact hloop.elim

theorem forwards_replyInnerPing (h : LinkInv g) (link : Link) (fd : UInt32) :
    forwards fd (g.replyInnerPing link) = forwards fd g := by
  rw [GateState.replyInnerPing, forwards_log]
  have hlink := h.cause
  cases hc : g.cause with
  | client fd' => simp [hc, Cause.ofLink] at hlink
  | inner link t => rfl
  | link link => rfl
  | heartbeat => rfl

theorem forwards_processGsMessage (msgId : UInt32) (body : Bytes) (t : TransID) (fd : UInt32)
    (g : GateState) : forwards fd (g.processGsMessage P msgId body t) = forwards fd g := by
  have hfwd : ∀ data len p, forwards fd (g.onGsToClient data len p) = forwards fd g := by
    intro data len p
    unfold GateState.onGsToClient GateState.forward2Client
    split
    · rw [GateState.send, forwards_log]
      rfl
    · rfl
  unfold GateState.processGsMessage
  split
  · rfl
  · split_ifs
    · rfl
    · split
      · exact hfwd _ _ _
      · exact hfwd _ _ _

theorem step_forwards {e : GateEvent} (h : GateInv g) (hs : g.step P e = some g') (fd : UInt32) :
    forwards fd g' = forwards fd g + requestsOf P fd g e := by
  obtain ⟨hc, hs⟩ := step_cases hs
  cases e with
  | clientData fd' data =>
      obtain ⟨-, rfl⟩ := hs
      have hsame : SameIntake g { g with cause := .client fd' } := ⟨rfl, rfl, rfl⟩
      rw [clientData_forwards data (clientInv_of_inv h hc fd') fd, hsame.requests]
      simp only [requestsOf, eq_comm (a := fd)]
      split_ifs with hfd
      · rw [hfd]
        rfl
      · rfl
  | accept fd' =>
      obtain ⟨hfd, rfl⟩ := hs
      rw [h.addSession_eq hfd]
      simp [forwards, GateState.settle, GateInv.accepted, requestsOf, isLoginForward]
  | disconnect fd' =>
      obtain rfl := hs
      exact forwards_stop fd' fd g
  | peerGone fd' =>
      obtain ⟨s, -, rfl⟩ := hs
      rfl
  | loginData data =>
      obtain rfl := hs
      apply link_forwards fd (forwards fd g)
      apply ends_recvLoop (I := fun g' => LinkInv g' ∧ forwards fd g' = forwards fd g)
      · intro g' h
        exact ⟨replyInnerPing_inv h.1 .login, (forwards_replyInnerPing h.1 .login fd).trans h.2⟩
      · intro pack g' h
        have hr := receive_inv h.1 .login pack
        rw [processLoginMessage_eq hr.inv]
        exact ⟨hr, h.2⟩
      · exact ⟨linkInv_of_inv h hc .login, rfl⟩
  | gameData data =>
      obtain rfl := hs
      apply link_forwards fd (forwards fd g)
      apply ends_recvLoop (I := fun g' => LinkInv g' ∧ forwards fd g' = forwards fd g)
      · intro g' h
        exact ⟨replyInnerPing_inv h.1 .game, (forwards_replyInnerPing h.1 .game fd).trans h.2⟩
      · intro pack g' h
        exact ⟨processGsMessage_inv (receive_inv h.1 .game pack) rfl _ _,
          (forwards_processGsMessage _ _ _ _ _).trans h.2⟩
      · exact ⟨linkInv_of_inv h hc .game, rfl⟩
  | linkChange link up =>
      obtain rfl := hs
      rfl
  | clientPing fd' =>
      obtain ⟨-, rfl⟩ := hs
      exact forwards_log _ _
  | linkPing link =>
      obtain ⟨-, rfl⟩ := hs
      exact forwards_log _ _
  | init =>
      obtain rfl := hs
      rfl

/-- Every login request of a session that can reach the login server is forwarded. -/
theorem forwards_eq (fd : UInt32) {es : List GateEvent} (h : (gateMachine P).run es = some g) :
    forwards fd g = (gateMachine P).tally (requestsOf P fd) es := by
  refine (gateMachine P).run_induction
    (P := fun es g => forwards fd g = (gateMachine P).tally (requestsOf P fd) es) rfl ?_ h
  intro es s e s' hrun ih hstep
  rw [(gateMachine P).tally_snoc _ hrun hstep, ← ih]
  exact step_forwards (gate_inv ⟨es, hrun⟩) hstep fd

/-- **At most one login request is forwarded for a session exactly when it brings at most one**: in
every run, whatever else happens in it, and although every player stays in the state `LoginLs`. -/
theorem one_login_forwarded_iff (P : GateProto) (es : List GateEvent) (g : GateState) (fd : UInt32)
    (h : (gateMachine P).run es = some g) :
    forwards fd g ≤ 1 ↔ (gateMachine P).tally (requestsOf P fd) es ≤ 1 := by
  rw [forwards_eq fd h]

theorem one_login_forwarded_twoClients : ∃ g, (gateMachine plainProto).run twoClients = some g ∧
    forwards 1 g ≤ 1 := by
  obtain ⟨g, h⟩ : ∃ g, (gateMachine plainProto).run twoClients = some g :=
    Option.isSome_iff_exists.mp (by decide +kernel)
  exact ⟨g, h, (one_login_forwarded_iff plainProto twoClients g 1 h).mpr (by decide +kernel)⟩

/-- A client that asks twice, in one buffer. -/
def askTwice : List GateEvent :=
  [.linkChange .login true, .linkChange .game true, .init, .accept 1,
    .clientData 1 (encodePacket CLI_GG_Login_REQ [] 0 ++ encodePacket CLI_GG_Login_REQ [] 0)]

/-- Both requests are forwarded, and the player still waits with nothing handled. -/
theorem two_logins_forwarded : ∃ g, (gateMachine plainProto).run askTwice = some g ∧
    forwards 1 g = 2 ∧ (g.playerIdMap_ 1).map (fun p => p.fsm_.current_state_) =
      some (.loginLs .nothing) := by
  obtain ⟨g, h⟩ : ∃ g, (gateMachine plainProto).run askTwice = some g :=
    Option.isSome_iff_exists.mp (by decide +kernel)
  have hview : ((gateMachine plainProto).run askTwice).map (fun g => (forwards 1 g,
      (g.playerIdMap_ 1).map fun p => p.fsm_.current_state_)) =
      some (2, some (.loginLs .nothing)) := by decide +kernel
  rw [h] at hview
  obtain ⟨hf, hst⟩ := Prod.mk.inj (Option.some.inj hview)
  exact ⟨g, h, hf, hst⟩

end BlackSwan
