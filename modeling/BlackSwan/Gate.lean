import BlackSwan.Reader
import BlackSwan.Runs
import BlackSwan.Tables

/-! # The gate server

The gate accepts clients, gives each client session a player, and passes messages between the
clients and the login and game servers (`gateserver/`: `playerSessionMgr`, `playerSession`,
`playerMgr`, `player`, `playerState`, `packetParser` and the three packet handlers).

* `GateState` holds the client sessions, the two maps `session_map_` and `playerIdMap_`, the state
  of the links to the other servers, and the `history` of what the gate did.
* A `PlayerSession` does not change after `addSession`, so pointers to it are copies of it.  A raw
  `Player*` is the id under which `playerIdMap_` owns the player.
* `cause` names what is being handled when something is sent, and is read by nothing else.
* Parsing and serialising of protobuf messages are parameters (`GateProto`).  The objects that the
  handlers parse into are taken as alive here; what their registration does to them is in
  `GateObjects`.

One call of a receive loop, an accept, a disconnect or a heartbeat is one step. -/

namespace BlackSwan

open Wire Runs Tables

abbrev PlayerID := UInt64

/-! ### Message ids -/

def CLI_GG_MSG_ID_MIN : UInt32 := 20
def CLI_GG_MSG_ID_MAX : UInt32 := 200
def CLI_GG_Login_REQ : UInt32 := 20
def CLI_GG_Logout_NTF : UInt32 := 33
def CLI_GG_GS_MSG : UInt32 := 35
def GS_GG_CLI_MSG : UInt32 := 36

def GG_LS_Login_REQ : UInt32 := 1
def LS_GG_Login_ACK : UInt32 := 2
def LS_GG_Kickoff_NTF : UInt32 := 4

/-! ### Messages -/

/-- `PKG_CLI_GG_Login_REQ`. -/
structure CliLoginReq where
  aptype : UInt32
  clientversion : UInt32
  authact : Bytes
  authstr : Bytes
  invitecode : Bytes
  reserve : UInt32
  clienttype : UInt32
  serverid : UInt32
deriving DecidableEq, Repr

/-- `PKG_GG_LS_Login_REQ`. -/
structure LsLoginReq where
  aptype : UInt32
  clientversion : UInt32
  authact : Bytes
  authstr : Bytes
  invitecode : Bytes
  reserve : UInt32
  clienttype : UInt32
  areagroup : UInt32
deriving DecidableEq, Repr

/-- The request that the gate makes for the login server. -/
def CliLoginReq.toLs (req : CliLoginReq) (clientVersion : UInt32) : LsLoginReq where
  aptype := req.aptype
  clientversion := clientVersion
  authact := req.authact
  authstr := req.authstr
  invitecode := req.invitecode
  reserve := req.reserve
  clienttype := req.clienttype
  areagroup := req.serverid

/-- What the gate uses of the protobuf library. -/
structure GateProto where
  parseLoginReq : Bytes → Option CliLoginReq
  serializeLoginReq : LsLoginReq → Bytes
  parsesLoginAck : Bytes → Bool
  parsesKickoff : Bytes → Bool
  /-- `PKG_CLI_TO_SERVER`: when the body parses, the memory that `onGsToClient` is given, that is
  the `ByteSizeLong()` bytes at the address of the message object -/
  toServerImage : Bytes → Option Bytes

/-! ### Players -/

/-- `FsmStateType`. -/
inductive FsmStateType where
  | EFST_NULL
  | EFST_LoginLs
  | EFST_LoginDB
  | EFST_RoleOp
  | EFST_SelRole
  | EFST_LoginGs
  | EFST_InGame
  | EFST_JumpGs
  | EFST_ReselRole
  | EFST_Logout
  | EFST_Global
  | EFST_Destroy
  | EFST_Dummy
deriving DecidableEq, Repr

/-- The values of `LoginLsState::handled_`. -/
inductive Handled where
  | nothing
  | loginReq
  | loginAck
deriving DecidableEq, Repr

/-- The variant `PlayerState`. -/
inductive PlayerState where
  | monostate
  | loginLs (handled_ : Handled)
  | loginDB
  | loginGame
  | inGame
  | logoutGame
  | roleOp
  | selRole
  | reselRole
  | global
deriving DecidableEq, Repr

def getFsmStateType : PlayerState → FsmStateType
  | .monostate => .EFST_NULL
  | .loginLs _ => .EFST_LoginLs
  | .loginDB => .EFST_LoginDB
  | .loginGame => .EFST_LoginGs
  | .inGame => .EFST_InGame
  | .logoutGame => .EFST_Logout
  | .roleOp => .EFST_RoleOp
  | .selRole => .EFST_SelRole
  | .reselRole => .EFST_ReselRole
  | .global => .EFST_Global

structure PlayerFSM where
  current_state_ : PlayerState
  previous_state_ : PlayerState
  global_state_ : PlayerState
deriving DecidableEq, Repr

structure PlayerSession where
  /-- the `fd` of the client session -/
  client_session_ : UInt32
  player_ : Option PlayerID
deriving DecidableEq, Repr

structure GatePlayer where
  id_ : PlayerID
  clientVersion_ : UInt32
  authenID_ : Bytes
  fsm_ : PlayerFSM
  player_session_ : Option PlayerSession
deriving DecidableEq, Repr

def GatePlayer.getCurStateType (p : GatePlayer) : FsmStateType :=
  getFsmStateType p.fsm_.current_state_

/-- `Player::Player`. -/
def GatePlayer.new (id : PlayerID) : GatePlayer where
  id_ := id
  clientVersion_ := 0
  authenID_ := []
  fsm_ := ⟨.loginLs .nothing, .loginLs .nothing, .global⟩
  player_session_ := none

/-! ### The state of the gate -/

/-- The two servers behind the gate. -/
inductive Link where
  | login
  | game
deriving DecidableEq, Repr

/-- What is being handled: a buffer of a client session, an inner packet with its `transID`,
something of a link that has no `transID`, or the timer of a heartbeat. -/
inductive Cause where
  | client (fd : UInt32)
  | inner (link : Link) (transID : TransID)
  | link (link : Link)
  | heartbeat
deriving DecidableEq, Repr

inductive GateAct where
  /-- `addSession` gave the session this player -/
  | added (fd : UInt32) (id : PlayerID)
  /-- `Session::stop` closed the session -/
  | stopped (fd : UInt32)
  /-- `delSession` -/
  | deleted (fd : UInt32)
  /-- a client packet was passed on to the `ClientPacketHandler` -/
  | dispatched (fd : UInt32) (msgId : UInt32)
  /-- a packet was handed to a client session -/
  | toClient (cause : Cause) (fd : UInt32) (msg : Bytes)
  /-- an inner packet was handed to the session of a link -/
  | upstream (cause : Cause) (link : Link) (msg : Bytes)
deriving DecidableEq, Repr

/-- A client `Session`, as far as the gate looks at it. -/
structure ClientSession where
  stopped_ : Bool
  /-- the peer has gone: `remote_endpoint()` fails -/
  peerGone : Bool
deriving DecidableEq, Repr

structure GateState where
  sessions : Table UInt32 ClientSession
  session_map_ : Table UInt32 PlayerSession
  playerIdMap_ : Table PlayerID GatePlayer
  player_idx_ : UInt64
  /-- the three handlers have registered their messages -/
  inited : Bool
  /-- `isConnected()` of the two connectors -/
  connected : Link → Bool
  cause : Cause
  history : List GateAct
  /-- a fault has ended the process -/
  crashed : Bool

namespace GateState

def log (act : GateAct) (g : GateState) : GateState := { g with history := g.history ++ [act] }

/-- `Session::isConnected` of a client session. -/
def isConnected (fd : UInt32) (g : GateState) : Bool :=
  match g.sessions fd with
  | some s => !s.stopped_
  | none => false

/-- `remote_endpoint()` of a client session succeeds. -/
def hasPeer (fd : UInt32) (g : GateState) : Bool :=
  match g.sessions fd with
  | some s => !s.stopped_ && !s.peerGone
  | none => false

/-- Change a player in place. -/
def updatePlayer (id : PlayerID) (f : GatePlayer → GatePlayer) (g : GateState) : GateState :=
  match g.playerIdMap_ id with
  | some p => { g with playerIdMap_ := g.playerIdMap_.set id (f p) }
  | none => g

/-! ### Sending -/

/-- `Session::send` of a client session. -/
def send (fd : UInt32) (msg : Bytes) (g : GateState) : GateState := g.log (.toClient g.cause fd msg)

/-- `Connector::send`. -/
def sendLink (link : Link) (msg : Bytes) (g : GateState) : GateState :=
  if msg.isEmpty || !g.connected link then g else g.log (.upstream g.cause link msg)

def PING : Bytes := [80, 73, 78, 71, 0]

def PONG : Bytes := [80, 79, 78, 71, 0]

/-- `Session::replyPing`. -/
def replyPing (fd : UInt32) (g : GateState) : GateState :=
  g.send fd (encodePacket CS_HeartBeat_Ack PONG 5)

/-- `Session::replyInnerPing`, on the session of a link. -/
def replyInnerPing (link : Link) (g : GateState) : GateState :=
  g.log (.upstream g.cause link (encodeInnerPacket CS_HeartBeat_Ack PONG 5 0))

/-- `Session::sendPing`. -/
def sendPing (fd : UInt32) (g : GateState) : GateState :=
  g.send fd (encodePacket CS_HeartBeat_Req PING 5)

/-- `Session::sendInnerPing`, on the session of a link. -/
def sendInnerPing (link : Link) (g : GateState) : GateState :=
  g.log (.upstream g.cause link (encodeInnerPacket CS_HeartBeat_Req PING 5 0))

/-- `PlayerSession::transID`. -/
def transID (ps : PlayerSession) (g : GateState) : TransID :=
  match ps.player_.bind g.playerIdMap_ with
  | some p => p.id_
  | none => 0

/-- `PlayerSession::forward2Login`, given the serialised message. -/
def forward2Login (ps : PlayerSession) (msgId : UInt32) (body : Bytes) (g : GateState) :
    GateState :=
  let bodySize := if body.length > 2 ^ 32 - 1 then 0 else body.length
  g.sendLink .login (encodeInnerPacket msgId body (UInt32.ofNat bodySize) (g.transID ps))

/-- `Player::forward2Client`. -/
def forward2Client (p : GatePlayer) (msgId : UInt32) (data : Bytes) (len : UInt16)
    (g : GateState) : GateState :=
  match p.player_session_ with
  | some s => g.send s.client_session_ (encodePacket msgId data len)
  | none => g

/-- `Player::forward2Server`. -/
def forward2Server (p : GatePlayer) (msgId : UInt32) (data : Bytes) (len : UInt32)
    (transID : TransID) (g : GateState) : GateState :=
  if p.getCurStateType ≠ .EFST_InGame then g else
  match p.player_session_ with
  | some _ => g.sendLink .game (encodeInnerPacket msgId data len transID)
  | none => g

/-! ### Sessions and players -/

/-- `PlayerSessionMgr::delSession`. -/
def delSession (fd : UInt32) (g : GateState) : GateState :=
  let g := match (g.session_map_ fd).bind (·.player_) with
    | some id => g.updatePlayer id fun p => { p with player_session_ := none }
    | none => g
  ({ g with session_map_ := g.session_map_.erase fd } : GateState).log (.deleted fd)

/-- `Session::stop` of a client session, whose disconnect callback is `delSession`. -/
def stop (fd : UInt32) (g : GateState) : GateState :=
  match g.sessions fd with
  | some s =>
      if s.stopped_ then g else
      (({ g with sessions := g.sessions.set fd { s with stopped_ := true } } : GateState).log
        (.stopped fd)).delSession fd
  | none => g

/-- `PlayerSession::Close`.  The event it raises first is global, and `GlobalState::onEvent` ignores
every event. -/
def close (ps : PlayerSession) (g : GateState) : GateState :=
  if g.isConnected ps.client_session_ then g.stop ps.client_session_ else g

/-- `PlayerMgr::fetchPlayer`. -/
def fetchPlayer (g : GateState) : PlayerID × GateState :=
  let id := g.player_idx_ + 1
  (id, { g with
    player_idx_ := id
    playerIdMap_ := g.playerIdMap_.emplace id (GatePlayer.new id) })

/-- `Player::onDestroy`, with `PlayerMgr::releasePlayer`. -/
def onDestroy (id : PlayerID) (p : GatePlayer) (g : GateState) : Call GateState Unit :=
  match p.player_session_ with
  | none => .error .nullCall g
  | some s =>
      let g := g.delSession s.client_session_
      .ok () { g with playerIdMap_ := g.playerIdMap_.erase id }

end GateState

/-- The state that `PlayerFSM::changeState` makes for a type. -/
def newState : FsmStateType → PlayerState
  | .EFST_LoginDB => .loginDB
  | .EFST_RoleOp => .roleOp
  | .EFST_SelRole => .selRole
  | .EFST_LoginGs => .loginGame
  | .EFST_InGame => .inGame
  | .EFST_ReselRole => .reselRole
  | .EFST_Logout => .logoutGame
  | _ => .loginLs .nothing

/-- `PlayerFSM::setState`; every `onEnter` and `onLeave` is empty. -/
def PlayerFSM.setState (state : PlayerState) (m : PlayerFSM) : PlayerFSM :=
  if getFsmStateType state = .EFST_NULL then m else
  { m with previous_state_ := m.current_state_, current_state_ := state }

namespace GateState

/-- `PlayerFSM::changeState` of a player. -/
def changeState (id : PlayerID) (state : FsmStateType) (g : GateState) : Call GateState Unit :=
  if state = .EFST_NULL ∨ state = .EFST_Dummy then .ok () g else
  match g.playerIdMap_ id with
  | none => .error .outOfBounds g
  | some p =>
      if p.getCurStateType = state then .ok () g
      else if state = .EFST_Destroy then g.onDestroy id p
      else .ok () (g.updatePlayer id fun p => { p with fsm_ := p.fsm_.setState (newState state) })

/-- `PlayerSessionMgr::addSession`. -/
def addSession (fd : UInt32) (g : GateState) : Call GateState Unit :=
  let (id, g) := g.fetchPlayer
  let ps : PlayerSession := ⟨fd, some id⟩
  let g := g.updatePlayer id fun p => { p with player_session_ := some ps }
  match g.changeState id .EFST_LoginLs with
  | .ok _ g =>
      .ok () (({ g with session_map_ := g.session_map_.emplace fd ps } : GateState).log (.added fd id))
  | .error e g => .error e g

end GateState

/-! ### The state machine of a player -/

/-- `FsmEvent`.  Of the union of message pointers only `pLoginReq` is ever read. -/
structure FsmEvent where
  msgID : UInt32
  transID : TransID
  isGlobalEvent : Bool
  playerSession_ : Option PlayerSession
  pLoginReq : Option CliLoginReq
deriving DecidableEq, Repr

namespace GateState

variable (P : GateProto)

/-- `LoginLsState::handleLoginReq`.  Its error code never changes, so the branch that answers the
client and closes the session is not taken. -/
def handleLoginReq (handled_ : Handled) (id : PlayerID) (event : FsmEvent) (g : GateState) :
    Call GateState Unit :=
  if handled_ ≠ .nothing then .ok () g else
  match event.pLoginReq, g.playerIdMap_ id with
  | some req, some p =>
      let p := { p with clientVersion_ := req.clientversion, authenID_ := req.authact }
      let g := { g with playerIdMap_ := g.playerIdMap_.set id p }
      match p.player_session_ with
      | none => .error .nullCall g
      | some ps =>
          -- `getClientIp` throws when the socket has no peer
          if !g.hasPeer ps.client_session_ then .error .thrown g else
          .ok () (g.forward2Login ps GG_LS_Login_REQ
            (P.serializeLoginReq (req.toLs p.clientVersion_)))
  | _, _ => .error .nullCall g

/-- `LoginLsState::onEvent`; `handleLoginAck` is empty. -/
def loginLsOnEvent (handled_ : Handled) (id : PlayerID) (event : FsmEvent) (g : GateState) :
    Call GateState Unit :=
  if event.msgID = GG_LS_Login_REQ then g.handleLoginReq P handled_ id event else .ok () g

/-- `PlayerFSM::onEvent`.  `GlobalState` and every current state but `LoginLsState` ignore the
event.  The state is visited in place, so a handler could change `handled_`; none does. -/
def onEvent (id : PlayerID) (event : FsmEvent) (g : GateState) : Call GateState Unit :=
  match g.playerIdMap_ id with
  | none => .error .outOfBounds g
  | some p =>
      if event.isGlobalEvent then .ok () g else
      match p.fsm_.current_state_ with
      | .loginLs handled_ => g.loginLsOnEvent P handled_ id event
      | _ => .ok () g

/-! ### Packets from clients -/

/-- `ClientPacketHandler::OnCliLoginReq`; `data` is the parsed message. -/
def onCliLoginReq (data : Option CliLoginReq) (ps : PlayerSession) (g : GateState) :
    Call GateState Unit :=
  match ps.player_, data with
  | some id, some req =>
      g.onEvent P id {
        msgID := GG_LS_Login_REQ
        transID := g.transID ps
        isGlobalEvent := false
        playerSession_ := some ps
        pLoginReq := some req }
  | _, _ => .ok () g

/-- `ClientPacketHandler::onCliLogoutNtf`. -/
def onCliLogoutNtf (ps : PlayerSession) (g : GateState) : Call GateState Unit :=
  match ps.player_ with
  | some id => g.onEvent P id ⟨CLI_GG_Logout_NTF, 0, true, some ps, none⟩
  | none => .ok () g

/-- `ClientPacketHandler::processClientMessage`.  The other registered handlers are empty. -/
def processClientMessage (msgId : UInt32) (body : Bytes) (ps : PlayerSession) (g : GateState) :
    Call GateState Unit :=
  if !g.inited then .ok () g
  else if msgId = CLI_GG_Login_REQ then g.onCliLoginReq P (P.parseLoginReq body) ps
  else if msgId = CLI_GG_Logout_NTF then g.onCliLogoutNtf P ps
  else .ok () g

/-- `ClientPacketHandler::onCliToGsMsg`. -/
def onCliToGsMsg (body : Bytes) (ps : PlayerSession) (g : GateState) : GateState :=
  match ps.player_.bind g.playerIdMap_ with
  | some p => g.forward2Server p GS_GG_CLI_MSG body (UInt32.ofNat body.length) (g.transID ps)
  | none => g

/-- The `string_view` made from a `const char*`: up to the first zero byte.  The receive buffer is a
`std::string`, so there is one behind its last byte. -/
def cString (data : Bytes) : Bytes := data.takeWhile (· ≠ 0)

/-- `PacketParser::onRecvClientPacket`.  The body is passed on as the pointer alone. -/
def onRecvClientPacket (fd : UInt32) (pack : Packet) (g : GateState) : Call GateState Unit :=
  if pack.id < CLI_GG_MSG_ID_MIN ∨ pack.id > CLI_GG_MSG_ID_MAX then .ok () (g.stop fd) else
  match g.session_map_ fd with
  | none => .error .nullCall g
  | some ps =>
      match ps.player_ with
      | none => .ok () (g.close ps)
      | some id =>
          match g.playerIdMap_ id with
          | none => .error .outOfBounds g
          | some p =>
              if p.getCurStateType = .EFST_LoginLs ∧ pack.id ≠ CLI_GG_Login_REQ then
                .ok () (g.close ps)
              else if pack.id ≠ CLI_GG_GS_MSG then
                (g.log (.dispatched fd pack.id)).processClientMessage P pack.id (cString pack.data) ps
              else .ok () ((g.log (.dispatched fd pack.id)).onCliToGsMsg pack.body ps)

/-- `PacketParser::onRecvClientData`. -/
def onRecvClientData (fd : UInt32) : DataProcess GateState :=
  clientLoop (replyPing fd) (onRecvClientPacket P fd)

/-! ### Packets from the other servers -/

/-- The event of `onLsLoginAck` and `onLsKickOffNtf`; neither is global. -/
def lsEvent (msgID : UInt32) (p : GatePlayer) : FsmEvent :=
  ⟨msgID, p.id_, false, p.player_session_, none⟩

/-- `LoginPacketHandler::processLoginMessage`, with `onLsLoginAck` and `onLsKickOffNtf`. -/
def processLoginMessage (msgId : UInt32) (body : Bytes) (transID : TransID) (g : GateState) :
    Call GateState Unit :=
  match g.playerIdMap_ transID with
  | none => .ok () g
  | some p =>
      if !g.inited then .ok () g
      else if msgId = LS_GG_Login_ACK ∧ P.parsesLoginAck body then
        g.onEvent P transID (lsEvent LS_GG_Login_ACK p)
      else if msgId = LS_GG_Kickoff_NTF ∧ P.parsesKickoff body then
        g.onEvent P transID (lsEvent LS_GG_Kickoff_NTF p)
      else .ok () g

/-- `GSPacketHandler::onGsToClient`; `forward2Client` takes the length as a `uint16_t`. -/
def onGsToClient (data : Bytes) (len : ℕ) (p : GatePlayer) (g : GateState) : GateState :=
  g.forward2Client p GS_GG_CLI_MSG data (UInt16.ofNat len)

/-- `GSPacketHandler::processGsMessage`. -/
def processGsMessage (msgId : UInt32) (body : Bytes) (transID : TransID) (g : GateState) :
    GateState :=
  match g.playerIdMap_ transID with
  | none => g
  | some p =>
      if !g.inited || msgId ≠ GS_GG_CLI_MSG then g else
      match P.toServerImage body with
      | some data => g.onGsToClient data data.length p
      | none => g.onGsToClient [] 0 p

/-- Remember which inner packet is being handled. -/
def receive (link : Link) (pack : InnerPacket) (g : GateState) : GateState :=
  { g with cause := .inner link pack.transID }

/-- `PacketParser::onRecvLoginData`. -/
def onRecvLoginData : DataProcess GateState :=
  innerLoop (replyInnerPing .login) fun pack g =>
    (g.receive .login pack).processLoginMessage P pack.id pack.body pack.transID

/-- `PacketParser::onRecvServerData`. -/
def onRecvServerData : DataProcess GateState :=
  innerLoop (replyInnerPing .game) fun pack g =>
    .ok () ((g.receive .game pack).processGsMessage P pack.id pack.body pack.transID)

end GateState

/-! ### Runs -/

inductive GateEvent where
  /-- a new client session; `fd` values are not used twice -/
  | accept (fd : UInt32)
  /-- the reader of a client session hands over its receive buffer -/
  | clientData (fd : UInt32) (data : Bytes)
  /-- a client session stops: its socket fails, or its heartbeat times out -/
  | disconnect (fd : UInt32)
  /-- the peer resets the connection, which the reader has not noticed yet -/
  | peerGone (fd : UInt32)
  | loginData (data : Bytes)
  | gameData (data : Bytes)
  | linkChange (link : Link) (up : Bool)
  /-- the heartbeat of a client session, which sends if nothing else has been sent for a while -/
  | clientPing (fd : UInt32)
  /-- the heartbeat of the session of a link -/
  | linkPing (link : Link)
  /-- `GateService::init` registers the messages, when both links are up -/
  | init
deriving DecidableEq, Repr

namespace GateState

/-- What becomes of a call: an exception of the socket ends the reader, which stops the session,
and any other fault ends the process. -/
def settle {α : Type} (onThrow : GateState → GateState) : Call GateState α → GateState
  | .ok _ g => g
  | .error .thrown g => onThrow g
  | .error _ g => { g with crashed := true }

def step (P : GateProto) (g : GateState) (e : GateEvent) : Option GateState :=
  if g.crashed then none else
  match e with
  | .accept fd =>
      match g.sessions fd with
      | some _ => none
      | none =>
          some (settle id (({ g with sessions := g.sessions.set fd ⟨false, false⟩ } : GateState).addSession
            fd))
  | .clientData fd data =>
      match g.sessions fd with
      | none => none
      | some _ =>
          some (settle (stop fd) (onRecvClientData P fd data { g with cause := .client fd }))
  | .disconnect fd =>
      match g.sessions fd with
      | none => none
      | some _ => some (g.stop fd)
  | .peerGone fd =>
      match g.sessions fd with
      | none => none
      | some s => some { g with sessions := g.sessions.set fd { s with peerGone := true } }
  | .loginData data => some (settle id (onRecvLoginData P data { g with cause := .link .login }))
  | .gameData data => some (settle id (onRecvServerData P data { g with cause := .link .game }))
  | .linkChange link up => some { g with connected := Function.update g.connected link up }
  | .clientPing fd =>
      if g.isConnected fd then some (sendPing fd { g with cause := .heartbeat }) else none
  | .linkPing link =>
      if g.connected link then some (sendInnerPing link { g with cause := .heartbeat }) else none
  | .init => if g.connected .login && g.connected .game then some { g with inited := true } else none

end GateState

def gateMachine (P : GateProto) : Machine GateState GateEvent where
  init := {
    sessions := .empty
    session_map_ := .empty
    playerIdMap_ := .empty
    player_idx_ := 0
    inited := false
    connected := fun _ => false
    cause := .link .login
    history := []
    crashed := false }
  step := GateState.step P

end BlackSwan
