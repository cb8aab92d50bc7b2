import BlackSwan.Decimal
import BlackSwan.Gate

/-! # The login server

The main thread of the login server (`loginserver/`: `packetParser`, `playerMgr`, `player`,
`playerState`, `apMgr`, `authInfo`, `gateSession`, `gateSessionMgr`).  A login request of a gate
makes a player, an authentication provider (the AP) is asked about its account, and the answer of
the AP takes the player online or ends it.

* A pointer to a `Player` is the number of the object in the order in which they were made; `players`
  is the memory they are in, and `made` how many there are.  `playerMap_` and `pTIDMap_` are the
  maps of `PlayerMgr`.
* `player_idx_` counts in 64 bits, as the source does, so that ids can come round.
* `handling` is the `transID` of the message being handled, as it came from the gate; it is only
  read to write the `history`.
* The AP itself and the protobuf library are outside: any result of the AP can arrive at any time,
  and the coding of messages is a parameter (`LoginProto`).

Both queues are taken whole by `onUpdate` and then gone through in order, while other threads add
to them and sessions come and go.  One message of a queue is one step. -/

namespace BlackSwan.Login

open Wire Runs Tables
open GateState (cString PING PONG)

/-! ### Constants -/

def GG_LS_Logoff_NTF : UInt32 := 3

def PROTO_SUCCESS : UInt32 := 1
def PROTO_FAILURE : UInt32 := 0

def LSERR_Sys_Failure : UInt32 := 2001
def LSERR_Old_Client : UInt32 := 2008

def COMMErr_system_error : UInt32 := 8

/-- `Default_Packet_In_Queue_Time_Long`, in milliseconds. -/
def Default_Packet_In_Queue_Time_Long : ℤ := 10000

/-! ### Messages -/

/-- `PKG_GG_LS_Login_REQ`. -/
structure LoginReq extends LsLoginReq where
  ip : UInt32
deriving DecidableEq, Repr

/-- `PKG_LS_GG_Login_ACK`. -/
structure LoginAck where
  result : UInt32 := 0
  ptid : Bytes := []
  wplattype : UInt32 := 0
  abydatainfo : Bytes := []
  error : UInt32 := 0
deriving DecidableEq, Repr

/-- What the login server uses of the protobuf library. -/
structure LoginProto where
  parseLoginReq : Bytes → Option LoginReq
  /-- the `ptid` of a `PKG_GG_LS_Logoff_NTF` -/
  parseLogoff : Bytes → Option Bytes
  serializeLoginAck : LoginAck → Bytes
  /-- a `PKG_LS_GG_Kickoff_NTF` with this `ptid` -/
  serializeKickoff : Bytes → Bytes

/-- `Config`, as far as the main thread reads it. -/
structure Config where
  isLocalTest_ : Bool
  bOpenWhitePt_ : Bool
  clientVersion_ : Int32
deriving DecidableEq, Repr

/-- The readings of `xtime::time` (seconds) and `xtime::now` (milliseconds). -/
structure Clock where
  time : ℤ
  now : ℤ
deriving DecidableEq, Repr

/-! ### Authentication data -/

/-- The keys of `constdefs.h` that are used. -/
inductive AuthKey where
  | gl_csHandle
  | gl_csAuthenID
  | gl_csReservePwd
  | gl_csClientIP
  | gl_csInviteCode
  | gl_csData
  | gl_csTime
deriving DecidableEq, Repr

structure AuthInfo where
  kv_list_ : List (AuthKey × Bytes)
  auth_id_ : UInt32
  APType_ : ℤ
  reserve_ : UInt32
  areaGroup_ : UInt32
deriving DecidableEq, Repr

namespace AuthInfo

def new (auth_id : UInt32) : AuthInfo := ⟨[], auth_id, 0, 0, 0⟩

def setKV (key : AuthKey) (val : Bytes) (a : AuthInfo) : AuthInfo :=
  { a with kv_list_ := (key, val) :: a.kv_list_.filter (·.1 ≠ key) }

def getVal (key : AuthKey) (a : AuthInfo) : Bytes := (a.kv_list_.lookup key).getD []

end AuthInfo

/-- `RESULT`. -/
inductive Result where
  | failed
  | sys_error
  | time_out
  | success
  | miss_pwd
  | no_user
  | not_open
  | last_Result
deriving DecidableEq, Repr

/-- `OPERATION`. -/
inductive Operation where
  | regist
  | authen_ap
  | changepwd
  | last_Operation
deriving DecidableEq, Repr

structure APMsg where
  authInfo : Option AuthInfo
  tick : ℤ
  operation : Operation
  result : Result
  nErrorCode : Int32
deriving DecidableEq, Repr

/-! ### Players -/

/-- `FsmStateType`. -/
inductive FsmStateType where
  | EFST_Login
  | EFST_Online
  | EFST_Logout
  | EFST_Global
  | EFST_Destroy
  | EFST_Dummy
deriving DecidableEq, Repr

/-- The variant `PlayerState`. -/
inductive PlayerState where
  | monostate
  | login
  | online
  | global
deriving DecidableEq, Repr

def getFsmStateType : PlayerState → FsmStateType
  | .monostate => .EFST_Dummy
  | .login => .EFST_Login
  | .online => .EFST_Online
  | .global => .EFST_Global

structure PlayerFSM where
  /-- `owner_` is not null -/
  owner_ : Bool
  current_state_ : PlayerState
  previous_state_ : PlayerState
  global_state_ : PlayerState
deriving DecidableEq, Repr

/-- `setPreviousState` and `setCurrentState`. -/
def PlayerFSM.enter (state : PlayerState) (m : PlayerFSM) : PlayerFSM :=
  { m with previous_state_ := m.current_state_, current_state_ := state }

structure Player where
  fsm_ : PlayerFSM
  gate_session_fd_ : UInt32
  id_ : PlayerID
  szPTID_ : Bytes
  szAuthenID_ : Bytes
  szPwd_ : Bytes
  client_IP_ : Bytes
  clientVersion_ : UInt32
  areaGroup_ : UInt32
  inviteCode_ : Bytes
  reserve_ : UInt32
  clientType_ : UInt16
  apType_ : UInt16
  trans_id_ : TransID
  auth_ID_ : UInt32
deriving DecidableEq, Repr

/-- `inet_ntoa` of an address in network byte order, on a little-endian host. -/
def inet_ntoa (ip : UInt32) : Bytes :=
  decimal (ip.toNat % 256) ++ 46 :: (decimal (ip.toNat / 2 ^ 8 % 256) ++
    46 :: (decimal (ip.toNat / 2 ^ 16 % 256) ++ 46 :: decimal (ip.toNat / 2 ^ 24)))

namespace Player

/-- `Player::Player`. -/
def new (id : PlayerID) : Player where
  fsm_ := ⟨true, .login, .login, .global⟩
  gate_session_fd_ := 0
  id_ := id
  szPTID_ := []
  szAuthenID_ := []
  szPwd_ := []
  client_IP_ := []
  clientVersion_ := 0
  areaGroup_ := 0
  inviteCode_ := []
  reserve_ := 0
  clientType_ := 0
  apType_ := 0
  trans_id_ := 0
  auth_ID_ := 0

def getCurStateType (pl : Player) : FsmStateType := getFsmStateType pl.fsm_.current_state_

/-- The player has been given its account. -/
def isOnline (pl : Player) : Prop := pl.getCurStateType = .EFST_Online

instance (pl : Player) : Decidable pl.isOnline := inferInstanceAs (Decidable (_ = _))

/-- `snprintf(szPTID, sizeof(szPTID), "%d_%d_%s", ...)` with a buffer of 64 characters. -/
def szPTID (pl : Player) : Bytes :=
  (decimalInt pl.areaGroup_.toInt32.toInt ++ 95 :: (decimal pl.apType_.toNat ++
    95 :: cString pl.szAuthenID_)).take 63

/-- `setGateSessionFd` and `setTransID`. -/
def setOrigin (fd : UInt32) (transID : TransID) (pl : Player) : Player :=
  { pl with gate_session_fd_ := fd, trans_id_ := transID }

/-- The login data of a request. -/
def initLoginData (req : LoginReq) (transID : TransID) (pl : Player) : Player :=
  { pl with
    client_IP_ := inet_ntoa req.ip
    szAuthenID_ := req.authact
    szPwd_ := req.authstr
    trans_id_ := transID
    clientVersion_ := req.clientversion
    areaGroup_ := req.areagroup
    clientType_ := req.clienttype.toUInt16
    apType_ := req.aptype.toUInt16
    inviteCode_ := req.invitecode
    reserve_ := req.reserve }

end Player

/-- `GlobalStateType`. -/
inductive GlobalStateType where
  | EGET_Timeout
  | EGET_LogoutNtf
  | EGET_Kickoff_Ls
  | EGET_Normal
deriving DecidableEq, Repr

/-- `FsmEvent`: the flags `isGlobalEvent` and `isLsInternalCall` with the member of the union that
each of them selects. -/
inductive FsmEvent where
  | global (globalEvtType : GlobalStateType)
  /-- `ELCT_AP_Error` -/
  | apError (auth_ : AuthInfo) (error_ : Int32)
  /-- `ELCT_AP_Succ` -/
  | apSucc (auth_ : AuthInfo)
  | gate (msgID : UInt32)
deriving DecidableEq, Repr

def FsmEvent.isGlobalEvent : FsmEvent → Bool
  | .global _ => true
  | _ => false

/-! ### The state of the server -/

/-- A message from a gate, in the queue of the main thread. -/
structure MessageParam where
  msg_id : UInt32
  transID : TransID
  gate_session_fd : UInt32
  data : Bytes
deriving DecidableEq, Repr

structure GateSession where
  /-- the `fd` of the session -/
  session_ : UInt32
deriving DecidableEq, Repr

inductive LoginAct where
  /-- `RecvGgLoginReq` made a player for a request that came with this `transID` -/
  | accepted (p : ℕ) (fd : UInt32) (transID : TransID)
  /-- an inner packet for a player was handed to a gate session; `none` when `RecvGgLoginReq` could
  not make a player -/
  | sent (p : Option ℕ) (fd : UInt32) (msgId : UInt32) (msg : Bytes)
  /-- `checkApLoginData` asked the AP -/
  | built (p : ℕ) (auth : AuthInfo)
  /-- a heartbeat was sent or answered -/
  | heartbeat (fd : UInt32) (msg : Bytes)
deriving DecidableEq, Repr

structure LoginServer where
  players : ℕ → Player
  made : ℕ
  playerMap_ : Table PlayerID ℕ
  pTIDMap_ : Table Bytes PlayerID
  player_idx_ : UInt64
  /-- `AuthInfo::start_id` -/
  start_id : UInt32
  session_map_ : Table UInt32 GateSession
  message_list_ : List MessageParam
  apg_list_ : List APMsg
  handling : TransID
  history : List LoginAct
  /-- a call through a null pointer has ended the process -/
  crashed : Bool

namespace LoginServer

def log (act : LoginAct) (s : LoginServer) : LoginServer := { s with history := s.history ++ [act] }

/-- Change a player in place. -/
def updatePlayer (p : ℕ) (f : Player → Player) (s : LoginServer) : LoginServer :=
  { s with players := Function.update s.players p (f (s.players p)) }

/-! ### Sending -/

/-- `GateSession::send`, given the serialised message; its `transID` is a `uint32_t`. -/
def gateSend (gs : GateSession) (p : Option ℕ) (transID : UInt32) (msgId : UInt32)
    (body : Bytes) (s : LoginServer) : LoginServer :=
  let bodySize := if body.length > 2 ^ 32 - 1 then 0 else body.length
  s.log (.sent p gs.session_ msgId
    (encodeInnerPacket msgId body (UInt32.ofNat bodySize) transID.toUInt64))

/-- `Player::send`. -/
def send (p : ℕ) (msgId : UInt32) (body : Bytes) (s : LoginServer) : LoginServer :=
  match s.session_map_ (s.players p).gate_session_fd_ with
  | some gs => s.gateSend gs (some p) (s.players p).trans_id_.toUInt32 msgId body
  | none => s

/-! ### `PlayerMgr` -/

/-- `PlayerMgr::fetchPlayer`; `make_shared` does not return null. -/
def fetchPlayer (s : LoginServer) : Option ℕ × LoginServer :=
  let id := s.player_idx_ + 1
  (some s.made, { s with
    players := Function.update s.players s.made (Player.new id)
    made := s.made + 1
    player_idx_ := id
    playerMap_ := s.playerMap_.emplace id s.made })

/-- `PlayerMgr::releasePlayer`. -/
def releasePlayer (p : ℕ) (s : LoginServer) : LoginServer :=
  { s with
    pTIDMap_ := s.pTIDMap_.erase (s.players p).szPTID_
    playerMap_ := s.playerMap_.erase (s.players p).id_ }

/-- `PlayerMgr::getPlayerID`. -/
def getPlayerID (ptid : Bytes) (s : LoginServer) : PlayerID := (s.pTIDMap_ ptid).getD 0

/-- `PlayerMgr::findPlayer` by account. -/
def findPlayer (ptid : Bytes) (s : LoginServer) : Option ℕ :=
  if s.getPlayerID ptid = 0 then none else s.playerMap_ (s.getPlayerID ptid)

/-- `Player::setPTID`, with `PlayerMgr::addPtid2Map`. -/
def setPTID (p : ℕ) (ptid : Bytes) (s : LoginServer) : LoginServer :=
  let s := s.updatePlayer p fun pl => { pl with szPTID_ := ptid }
  { s with pTIDMap_ := s.pTIDMap_.emplace ptid (s.players p).id_ }

/-! ### The state machine of a player -/

/-- `PlayerFSM::setState`; every `onEnter` and `onLeave` is empty. -/
def setState (p : ℕ) (state : PlayerState) (s : LoginServer) : LoginServer :=
  if getFsmStateType state = .EFST_Login then s else
  s.updatePlayer p fun pl => { pl with fsm_ := pl.fsm_.enter state }

/-- `PlayerFSM::notifyOwnerDestroy`, with `Player::onDestroy`. -/
def notifyOwnerDestroy (p : ℕ) (s : LoginServer) : LoginServer :=
  if (s.players p).fsm_.owner_ then
    (s.releasePlayer p).updatePlayer p fun pl => { pl with fsm_ := { pl.fsm_ with owner_ := false } }
  else { s with crashed := true }

/-- `PlayerFSM::changeState`. -/
def changeState (p : ℕ) (state : FsmStateType) (s : LoginServer) : LoginServer :=
  if state = .EFST_Dummy then s
  else if (s.players p).getCurStateType = state then s
  else match state with
    | .EFST_Online => s.setState p .online
    | .EFST_Logout => s.notifyOwnerDestroy p
    | .EFST_Destroy => s.notifyOwnerDestroy p
    | _ => s.setState p .login

variable (P : LoginProto)

/-- `Player::sendGateLoginFail`. -/
def sendGateLoginFail (p : ℕ) (errorCode : UInt32) (s : LoginServer) : LoginServer :=
  (s.send p LS_GG_Login_ACK
    (P.serializeLoginAck { result := PROTO_FAILURE, error := errorCode })).changeState p .EFST_Logout

/-- `Player::sendGateLoginSucc`. -/
def sendGateLoginSucc (p : ℕ) (s : LoginServer) : LoginServer :=
  (s.send p LS_GG_Login_ACK
    (P.serializeLoginAck { result := PROTO_SUCCESS, ptid := (s.players p).szPTID_ })).changeState p
    .EFST_Online

/-- `PlayerMgr::kickOffPlayer`. -/
def kickOffPlayer (ptid : Bytes) (s : LoginServer) : LoginServer :=
  match (s.pTIDMap_ ptid).bind s.playerMap_ with
  | some q => (s.send q LS_GG_Kickoff_NTF (P.serializeKickoff ptid)).changeState q .EFST_Logout
  | none => s

variable (cfg : Config)

/-- The `AuthInfo` that `APMgr::checkApLoginData` makes of a player. -/
def makeAuth (pl : Player) (auth_id : UInt32) (clock : Clock) : AuthInfo :=
  let a := (AuthInfo.new auth_id).setKV .gl_csHandle (decimal pl.id_.toNat)
  let a := a.setKV .gl_csTime (decimalInt clock.time)
  let a := a.setKV .gl_csReservePwd pl.szPwd_
  let a := { a with APType_ := pl.apType_.toNat, reserve_ := pl.reserve_, areaGroup_ := pl.areaGroup_ }
  let a := a.setKV .gl_csInviteCode pl.inviteCode_
  let a := a.setKV .gl_csClientIP pl.client_IP_
  a.setKV .gl_csTime (decimalInt clock.now)

/-- `APMgr::checkApLoginData`; what it gives to the AP threads is in the history. -/
def checkApLoginData (p : ℕ) (clock : Clock) (s : LoginServer) : LoginServer :=
  let auth := makeAuth (s.players p) s.start_id clock
  let s := { s with start_id := s.start_id + 1 }
  (s.updatePlayer p fun pl => { pl with auth_ID_ := auth.auth_id_ }).log (.built p auth)

/-- The first half of `HandleAPLoginReq`: in a local test the player goes online at once. -/
def localTestLogin (p : ℕ) (s : LoginServer) : LoginServer :=
  if cfg.isLocalTest_ then
    let strPTID := (s.players p).szPTID_
    let strPTID := if 95 ∈ strPTID then strPTID else (s.players p).szPTID
    ((s.kickOffPlayer P strPTID).setPTID p strPTID).sendGateLoginSucc P p
  else s

/-- `LoginState::HandleAPLoginReq`.  The AP is asked in a local test too. -/
def handleAPLoginReq (p : ℕ) (clock : Clock) (s : LoginServer) : LoginServer :=
  let s := s.localTestLogin P cfg p
  if cfg.bOpenWhitePt_ then s else s.checkApLoginData p clock

/-- `LoginState::HandleAPSuccCallback`; `setLoginData` is empty. -/
def handleAPSuccCallback (p : ℕ) (s : LoginServer) : LoginServer :=
  let szPTID := (s.players p).szPTID
  ((s.kickOffPlayer P szPTID).setPTID p szPTID).sendGateLoginSucc P p

/-- `LoginState::onEvent`. -/
def loginOnEvent (p : ℕ) (event : FsmEvent) (clock : Clock) (s : LoginServer) :
    LoginServer :=
  match event with
  | .apError _ error_ => s.sendGateLoginFail P p error_.toUInt32
  | .apSucc auth =>
      if (s.players p).szAuthenID_ ≠ auth.getVal .gl_csAuthenID then s
      else if (s.players p).auth_ID_ ≠ auth.auth_id_ then s
      else s.handleAPSuccCallback P p
  | .gate msgID => if msgID = GG_LS_Login_REQ then s.handleAPLoginReq P cfg p clock else s
  | .global _ => s

/-- `GlobalState::onEvent`. -/
def globalOnEvent (p : ℕ) (event : FsmEvent) (s : LoginServer) : LoginServer :=
  match event with
  | .global .EGET_LogoutNtf => s.changeState p .EFST_Logout
  | .global .EGET_Kickoff_Ls => s.changeState p .EFST_Logout
  | _ => s

/-- The visit of a state; `OnlineState::onEvent` ignores the event. -/
def visit (state : PlayerState) (p : ℕ) (event : FsmEvent) (clock : Clock)
    (s : LoginServer) : LoginServer :=
  match state with
  | .monostate => s
  | .login => s.loginOnEvent P cfg p event clock
  | .online => s
  | .global => s.globalOnEvent p event

/-- `PlayerFSM::onEvent`. -/
def onEvent (p : ℕ) (event : FsmEvent) (clock : Clock) (s : LoginServer) : LoginServer :=
  if event.isGlobalEvent then s.visit P cfg (s.players p).fsm_.global_state_ p event clock
  else s.visit P cfg (s.players p).fsm_.current_state_ p event clock

/-! ### Messages from the gates -/

/-- `PacketParser::RecvGgLoginReq`; `transID` has been narrowed by the call. -/
def recvGgLoginReq (data : Option LoginReq) (fd : UInt32) (transID : UInt32) (clock : Clock)
    (s : LoginServer) : LoginServer :=
  match data with
  | none => s
  | some req =>
      match s.fetchPlayer with
      | (none, s) =>
          match s.session_map_ fd with
          | some gs =>
              s.gateSend gs none transID LS_GG_Login_ACK (P.serializeLoginAck
                { result := COMMErr_system_error, error := LSERR_Sys_Failure })
          | none => s
      | (some p, s) =>
          let s := s.log (.accepted p fd s.handling)
          let s := s.updatePlayer p (Player.setOrigin fd transID.toUInt64)
          -- `clientversion()` is unsigned, so the version of the configuration is converted
          if req.clientversion < cfg.clientVersion_.toUInt32 then
            s.sendGateLoginFail P p LSERR_Old_Client
          else
            let s := s.updatePlayer p (Player.initLoginData req transID.toUInt64)
            s.onEvent P cfg p (.gate GG_LS_Login_REQ) clock

/-- `PacketParser::OnLogoffNtf`. -/
def onLogoffNtf (data : Option Bytes) (clock : Clock) (s : LoginServer) : LoginServer :=
  match data with
  | none => s
  | some ptid =>
      match s.findPlayer ptid with
      | none => s
      | some p => s.onEvent P cfg p (.global .EGET_LogoutNtf) clock

/-- `PacketParser::processMsg`; a handler is called with null when the body does not parse. -/
def processMsg (m : MessageParam) (clock : Clock) (s : LoginServer) : LoginServer :=
  let s := { s with handling := m.transID }
  if m.msg_id = GG_LS_Login_REQ then
    s.recvGgLoginReq P cfg (P.parseLoginReq m.data) m.gate_session_fd m.transID.toUInt32 clock
  else if m.msg_id = GG_LS_Logoff_NTF then s.onLogoffNtf P cfg (P.parseLogoff m.data) clock
  else s

/-- `PacketParser::pushMsg`. -/
def pushMsg (m : MessageParam) (s : LoginServer) : LoginServer :=
  { s with message_list_ := s.message_list_ ++ [m] }

/-- `Session::replyInnerPing`. -/
def replyInnerPing (fd : UInt32) (s : LoginServer) : LoginServer :=
  s.log (.heartbeat fd (encodeInnerPacket CS_HeartBeat_Ack PONG 5 0))

/-- `Session::sendInnerPing`. -/
def sendInnerPing (fd : UInt32) (s : LoginServer) : LoginServer :=
  s.log (.heartbeat fd (encodeInnerPacket CS_HeartBeat_Req PING 5 0))

/-- `PacketParser::onRecvData`, on the thread of a session. -/
def onRecvData (fd : UInt32) : DataProcess LoginServer :=
  innerLoop (replyInnerPing fd) fun pack s =>
    .ok () (s.pushMsg ⟨pack.id, pack.transID, fd, pack.body⟩)

/-! ### Results of the AP -/

/-- `APMgr::operateResult`, with `pushApMsg`. -/
def operateResult (auth : Option AuthInfo) (operation : Operation) (result : Result)
    (nErrorCode : Int32) (now : ℤ) (s : LoginServer) : LoginServer :=
  { s with apg_list_ := s.apg_list_ ++ [⟨auth, now, operation, result, nErrorCode⟩] }

/-- `APMgr::onAPSucc` and `APMgr::onAPError`: the player of the handle is given the event. -/
def onAP (auth : AuthInfo) (event : FsmEvent) (clock : Clock) (s : LoginServer) : LoginServer :=
  match s.playerMap_ (strtoull (auth.getVal .gl_csHandle)) with
  | none => s
  | some p => s.onEvent P cfg p event clock

/-- `APMgr::onAPSucc`. -/
def onAPSucc (auth : AuthInfo) : Clock → LoginServer → LoginServer := onAP P cfg auth (.apSucc auth)

/-- `APMgr::onAPError`. -/
def onAPError (auth : AuthInfo) (error : Int32) : Clock → LoginServer → LoginServer :=
  onAP P cfg auth (.apError auth error)

/-- `APMgr::onAPAuthenResult`. -/
def onAPAuthenResult (auth : AuthInfo) (result : Result) (errorCode : Int32) (clock : Clock)
    (s : LoginServer) : LoginServer :=
  match result with
  | .success => s.onAPSucc P cfg auth clock
  | _ => s.onAPError P cfg auth errorCode clock

/-- `APMgr::processApMsg`.  A message that waited too long is queued again as a timeout, and handled
all the same. -/
def processApMsg (m : APMsg) (clock : Clock) (s : LoginServer) : LoginServer :=
  match m.authInfo with
  | none => s
  | some auth =>
      let s :=
        if clock.now - m.tick > Default_Packet_In_Queue_Time_Long then
          s.operateResult (some auth) m.operation .time_out 2 clock.now
        else s
      match m.operation with
      | .authen_ap => s.onAPAuthenResult P cfg auth m.result m.nErrorCode clock
      | _ => s

end LoginServer

/-! ### Runs -/

inductive LoginEvent where
  /-- a gate connects: `GateSessionMgr::addSession` -/
  | addSession (fd : UInt32)
  /-- a gate disconnects: `GateSessionMgr::delSession` -/
  | delSession (fd : UInt32)
  /-- the heartbeat of a gate session, which sends if nothing else has been sent for a while -/
  | ping (fd : UInt32)
  /-- the reader of a gate session hands over its receive buffer -/
  | recvData (fd : UInt32) (data : Bytes)
  /-- a thread of the AP reports a result -/
  | operateResult (auth : Option AuthInfo) (operation : Operation) (result : Result)
      (nErrorCode : Int32) (now : ℤ)
  /-- the main thread handles the next message of a gate -/
  | processMsg (clock : Clock)
  /-- the main thread handles the next result of the AP -/
  | processApMsg (clock : Clock)
deriving DecidableEq, Repr

namespace LoginServer

def step (P : LoginProto) (cfg : Config) (s : LoginServer) (e : LoginEvent) : Option LoginServer :=
  if s.crashed then none else
  match e with
  | .addSession fd => some { s with session_map_ := s.session_map_.emplace fd ⟨fd⟩ }
  | .delSession fd => some { s with session_map_ := s.session_map_.erase fd }
  | .ping fd => if (s.session_map_ fd).isSome then some (s.sendInnerPing fd) else none
  | .recvData fd data =>
      match onRecvData fd data s with
      | .ok _ s => some s
      | .error _ s => some { s with crashed := true }
  | .operateResult auth operation result nErrorCode now =>
      some (s.operateResult auth operation result nErrorCode now)
  | .processMsg clock =>
      match s.message_list_ with
      | [] => none
      | m :: rest => some (({ s with message_list_ := rest } : LoginServer).processMsg P cfg m clock)
  | .processApMsg clock =>
      match s.apg_list_ with
      | [] => none
      | m :: rest => some (({ s with apg_list_ := rest } : LoginServer).processApMsg P cfg m clock)

end LoginServer

def loginMachine (P : LoginProto) (cfg : Config) : Machine LoginServer LoginEvent where
  init := {
    players := fun _ => Player.new 0
    made := 0
    playerMap_ := .empty
    pTIDMap_ := .empty
    player_idx_ := 0
    start_id := 0
    session_map_ := .empty
    message_list_ := []
    apg_list_ := []
    handling := 0
    history := []
    crashed := false }
  step := LoginServer.step P cfg

end BlackSwan.Login
