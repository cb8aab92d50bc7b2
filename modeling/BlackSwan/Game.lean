import BlackSwan.Reader
import BlackSwan.Runs
import BlackSwan.Tables

/-! # The game server

The game server answers the messages that the gates pass on (`gameserver/`: `packetParser`,
`playerCtrl`, `player`).  It handles them where they are received.

* A pointer to a `Player` is the number of the player, in the order in which they were made.
* `handling` is the `transID` of the message being handled, as it came from the gate; it is only
  read to write the `history`.  `handled` lists the messages with their `transID`, their gate
  session and the player that handled them.

One call of a receive loop is one step. -/

namespace BlackSwan.Game

open Wire Runs Tables

def ECHO_REQ : UInt32 := 1
def ECHO_RESP : UInt32 := 2

structure Player where
  id_ : UInt64
  client_fd_ : UInt32
  name_ : Bytes
  /-- the `fd` of the gate session, if there is one -/
  gateSession_ : Option UInt32
deriving DecidableEq, Repr

/-- `Player::Player(uint32_t client_id, SessionPtr gateSession)`. -/
def Player.new (client_id gateSession : UInt32) : Player :=
  ⟨client_id.toUInt64, client_id, [], some gateSession⟩

/-- `Player::Player(uint64_t id, std::string const& name)`. -/
def Player.named (id : UInt64) (name : Bytes) : Player := ⟨id, 0, name, none⟩

/-- The functions that `registerHandler` is given. -/
inductive MessageHandler where
  | HandleEchoReq
deriving DecidableEq, Repr

inductive GameAct where
  /-- a packet was handed to a gate session, for a message that came with this `transID` -/
  | sent (transID : TransID) (fd : UInt32) (msgId : UInt32) (msg : Bytes)
  /-- a heartbeat was answered -/
  | pong (fd : UInt32) (msg : Bytes)
deriving DecidableEq, Repr

structure GameServer where
  players : ℕ → Player
  made : ℕ
  playerIdMap_ : Table UInt64 ℕ
  playerNameMap_ : Table Bytes ℕ
  playerFdMap_ : Table UInt64 ℕ
  handleMap_ : Table UInt32 MessageHandler
  handling : TransID
  handled : List (TransID × UInt32 × ℕ)
  history : List GameAct

/-- The key of a client of a gate. -/
def makeKey (client_fd gate_fd : UInt32) : UInt64 := client_fd.toUInt64 <<< 32 ||| gate_fd.toUInt64

namespace GameServer

def log (act : GameAct) (s : GameServer) : GameServer := { s with history := s.history ++ [act] }

/-! ### Players -/

/-- `PlayerCtrl::findPlayer(uint32_t clientId, uint32_t gate_fd)`. -/
def findPlayer (clientId gate_fd : UInt32) (s : GameServer) : Option ℕ :=
  s.playerFdMap_ (makeKey clientId gate_fd)

/-- `PlayerCtrl::addPlayer(uint64_t id, std::string const& name, PlayerPtr pPlayer)`. -/
def addPlayerById (id : UInt64) (name : Bytes) (p : ℕ) (s : GameServer) : GameServer :=
  { s with
    playerIdMap_ := s.playerIdMap_.emplace id p
    playerNameMap_ := s.playerNameMap_.emplace name p }

/-- `std::make_shared<Player>(clientId, gateSession)`. -/
def makePlayer (clientId gateSession : UInt32) (s : GameServer) : ℕ × GameServer :=
  (s.made, { s with
    players := Function.update s.players s.made (Player.new clientId gateSession)
    made := s.made + 1 })

/-- `PlayerCtrl::addPlayer(uint32_t clientId, SessionPtr gateSession)`. -/
def addPlayer (clientId gateSession : UInt32) (s : GameServer) : ℕ × GameServer :=
  let (p, s) := s.makePlayer clientId gateSession
  (p, s.addPlayerById (makeKey clientId gateSession) [] p)

/-- `Player::send`; the id of the client is a `uint32_t`.  What it prints has the `fd` of the gate
session in it. -/
def send (p : ℕ) (msgId : UInt32) (data : Bytes) (len : UInt32) (s : GameServer) :
    Call GameServer Unit :=
  match (s.players p).gateSession_ with
  | none => .error .nullCall s
  | some fd => .ok () (s.log (.sent s.handling fd msgId
      (encodeInnerPacket msgId data len (s.players p).client_fd_.toUInt64)))

/-! ### Messages -/

/-- `PacketParser::HandleEchoReq`. -/
def handleEchoReq (data : Bytes) (len : ℕ) (p : ℕ) (s : GameServer) : Call GameServer Unit :=
  s.send p ECHO_RESP data (UInt32.ofNat len)

/-- `Player::recv`, which prints the `fd` of the gate session too. -/
def recv (p : ℕ) (msgId : UInt32) (data : Bytes) (len : UInt32) (s : GameServer) :
    Call GameServer Unit :=
  if (s.players p).gateSession_.isNone then .error .nullCall s else
  match s.handleMap_ msgId with
  | none => .ok () s
  | some .HandleEchoReq => s.handleEchoReq data len.toNat p

/-- Remember which player handles the message. -/
def note (gate_session : UInt32) (p : ℕ) (s : GameServer) : GameServer :=
  { s with handled := s.handled ++ [(s.handling, gate_session, p)] }

/-- `PacketParser::handleMessage`; `transID` has been narrowed by the call. -/
def handleMessage (msgId : UInt32) (data_view : Bytes) (gate_session : UInt32) (transID : UInt32)
    (s : GameServer) : Call GameServer Unit :=
  match s.findPlayer transID gate_session with
  | some p => (s.note gate_session p).recv p msgId data_view (UInt32.ofNat data_view.length)
  | none =>
      let (p, s) := s.addPlayer transID gate_session
      (s.note gate_session p).recv p msgId data_view (UInt32.ofNat data_view.length)

/-- `Session::replyInnerPing`. -/
def replyInnerPing (fd : UInt32) (s : GameServer) : GameServer :=
  s.log (.pong fd (encodeInnerPacket CS_HeartBeat_Ack [80, 79, 78, 71, 0] 5 0))

/-- Remember which packet is being handled. -/
def receive (pack : InnerPacket) (s : GameServer) : GameServer := { s with handling := pack.transID }

/-- `PacketParser::onRecvData`. -/
def onRecvData (fd : UInt32) : DataProcess GameServer :=
  innerLoop (replyInnerPing fd) fun pack s =>
    (s.receive pack).handleMessage pack.id pack.body fd pack.transID.toUInt32

end GameServer

/-! ### Runs -/

inductive GameEvent where
  /-- `PacketParser::Init`, after the server has started to listen -/
  | init
  /-- the reader of a gate session hands over its receive buffer -/
  | recvData (fd : UInt32) (data : Bytes)
deriving DecidableEq, Repr

def GameServer.step (s : GameServer) : GameEvent → Option GameServer
  | .init => some { s with handleMap_ := s.handleMap_.emplace ECHO_REQ .HandleEchoReq }
  | .recvData fd data =>
      match GameServer.onRecvData fd data s with
      | .ok _ s => some s
      | .error _ _ => none

def gameMachine : Machine GameServer GameEvent where
  init := {
    players := fun _ => Player.new 0 0
    made := 0
    playerIdMap_ := .empty
    playerNameMap_ := .empty
    playerFdMap_ := .empty
    handleMap_ := .empty
    handling := 0
    handled := []
    history := [] }
  step := GameServer.step

/-! ### What is sent -/

/-- After a message of a client has been handled by a new player. -/
def GameServer.answered (msgId : UInt32) (data : Bytes) (fd transID : UInt32) (s : GameServer) :
    GameServer :=
  let s' := (s.addPlayer transID fd).2.note fd s.made
  match s.handleMap_ msgId with
  | none => s'
  | some .HandleEchoReq => s'.log (.sent s.handling fd ECHO_RESP
      (encodeInnerPacket ECHO_RESP data (UInt32.ofNat data.length) transID.toUInt64))

/-- No player is found by its client, so that a message makes one, with a session. -/
theorem handleMessage_eq {s : GameServer} (h : s.playerFdMap_ = .empty) (msgId : UInt32)
    (data : Bytes) (fd transID : UInt32) :
    s.handleMessage msgId data fd transID = .ok () (s.answered msgId data fd transID) := by
  have hnone : s.findPlayer transID fd = none := by
    unfold GameServer.findPlayer
    rw [h]
    rfl
  have hplayer : ((s.addPlayer transID fd).2.note fd s.made).players s.made =
      Player.new transID fd := Function.update_self _ _ _
  have hmap : ((s.addPlayer transID fd).2.note fd s.made).handleMap_ = s.handleMap_ := rfl
  have hhandling : ((s.addPlayer transID fd).2.note fd s.made).handling = s.handling := rfl
  unfold GameServer.handleMessage GameServer.answered
  rw [hnone]
  show GameServer.recv s.made msgId data (UInt32.ofNat data.length)
    ((s.addPlayer transID fd).2.note fd s.made) = _
  generalize (s.addPlayer transID fd).2.note fd s.made = s' at hplayer hmap hhandling ⊢
  unfold GameServer.recv
  rw [hplayer, hmap]
  cases s.handleMap_ msgId with
  | none => rfl
  | some handler =>
      cases handler
      unfold GameServer.handleEchoReq GameServer.send
      rw [hplayer, hhandling, UInt32.ofNat_toNat]
      rfl

/-- No player is ever filed by its client, so that every message makes a new one, and what is sent
for a message has the `transID` of the message in the width of `client_fd_`. -/
structure GameInv (s : GameServer) : Prop where
  unfiled : s.playerFdMap_ = .empty
  sent : ∀ t fd msgId msg, .sent t fd msgId msg ∈ s.history →
    readWord msg 4 8 = some t.toUInt32.toNat

namespace GameInv

variable {s : GameServer}

theorem handleMessage (h : GameInv s) (pack : InnerPacket) (fd : UInt32) : Ends GameInv
    (fun _ _ => False) ((s.receive pack).handleMessage pack.id pack.body fd pack.transID.toUInt32) := by
  rw [handleMessage_eq (s := s.receive pack) h.unfiled]
  show GameInv _
  unfold GameServer.answered
  split
  · exact ⟨h.unfiled, h.sent⟩
  · refine ⟨h.unfiled, ?_⟩
    intro t fd' msgId msg hm
    rcases List.mem_append.mp hm with hm | hm
    · exact h.sent t fd' msgId msg hm
    · obtain ⟨rfl, -, -, rfl⟩ := GameAct.sent.inj (List.mem_singleton.mp hm)
      rw [readWord_transID]
      simp [GameServer.receive]

theorem onRecvData (h : GameInv s) (fd : UInt32) (data : Bytes) :
    Ends GameInv (fun _ _ => False) (GameServer.onRecvData fd data s) := by
  apply ends_recvLoop
  · intro s₁ h₁
    refine ⟨h₁.unfiled, ?_⟩
    intro t fd' msgId msg hm
    rcases List.mem_append.mp hm with hm | hm
    · exact h₁.sent t fd' msgId msg hm
    · cases List.mem_singleton.mp hm
  · intro pack s₁ h₁
    exact h₁.handleMessage pack fd
  · exact h

end GameInv

theorem game_inv {s : GameServer} (h : gameMachine.Reachable s) : GameInv s := by
  refine gameMachine.invariant (P := GameInv) ?_ ?_ h
  · refine ⟨rfl, ?_⟩
    intro t fd msgId msg hm
    cases hm
  · intro s₁ e s₂ h₁ hs
    cases e with
    | init =>
        obtain rfl := Option.some.inj hs
        exact ⟨h₁.unfiled, h₁.sent⟩
    | recvData fd data =>
        have hends := h₁.onRecvData fd data
        change (match GameServer.onRecvData fd data s₁ with
          | .ok _ s => some s
          | .error _ _ => none) = some s₂ at hs
        split at hs
        · rename_i hr
          rw [hr] at hends
          obtain rfl := Option.some.inj hs
          exact hends
        · cases hs

/-! ### One player per client -/

namespace GameServer

/-- `PlayerCtrl` has the player in one of its maps. -/
def Holds (p : ℕ) (s : GameServer) : Prop :=
  (∃ id, s.playerIdMap_ id = some p) ∨ (∃ name, s.playerNameMap_ name = some p) ∨
    ∃ key, s.playerFdMap_ key = some p

/-- There is one player for every client that has sent a message, it is found by the client, and it
handles all messages of the client and of no other one. -/
structure OnePlayerEach (s : GameServer) : Prop where
  held : ∀ t fd p, (t, fd, p) ∈ s.handled → ∃! q, s.Holds q ∧ (t, fd, q) ∈ s.handled
  found : ∀ t fd p, (t, fd, p) ∈ s.handled → s.findPlayer t.toUInt32 fd = some p
  same : ∀ t fd p t' fd' p', (t, fd, p) ∈ s.handled → (t', fd', p') ∈ s.handled →
    (p = p' ↔ t = t' ∧ fd = fd')

/-- The clients of the messages so far. -/
def seen (s : GameServer) : List (TransID × UInt32) := s.handled.map fun x => (x.1, x.2.1)

theorem seen_note (fd : UInt32) (p : ℕ) (s : GameServer) :
    (s.note fd p).seen = s.seen ++ [(s.handling, fd)] := by
  simp [seen, note]

theorem seen_replyInnerPing (fd : UInt32) (s : GameServer) :
    (s.replyInnerPing fd).seen = s.seen := rfl

theorem seen_receive (pack : InnerPacket) (s : GameServer) : (s.receive pack).seen = s.seen := rfl

theorem seen_answered (msgId : UInt32) (data : Bytes) (fd transID : UInt32) (s : GameServer) :
    (s.answered msgId data fd transID).seen = s.seen ++ [(s.handling, fd)] := by
  have hnote := seen_note fd s.made (s.addPlayer transID fd).2
  unfold answered
  split <;> exact hnote

/-- The packets of a buffer that are messages. -/
def messages (data : Bytes) : List InnerPacket :=
  (innerDecoder.frames data).filter fun pack => !isHeartBeat pack.id

/-- Every message of a buffer is handled by a player. -/
theorem seen_onRecvData (fd : UInt32) (data : Bytes) {s : GameServer} (h : s.playerFdMap_ = .empty) :
    ∃ r s', onRecvData fd data s = .ok r s' ∧
      s'.seen = s.seen ++ (messages data).map fun pack => (pack.transID, fd) := by
  have hall : ∀ (ps : List InnerPacket) (s : GameServer), s.playerFdMap_ = .empty → ∃ s',
      handleAll (onPacket InnerPacket.id (replyInnerPing fd) fun pack s =>
        (s.receive pack).handleMessage pack.id pack.body fd pack.transID.toUInt32) ps s =
          .ok () s' ∧
      s'.seen = s.seen ++ (ps.filter fun pack => !isHeartBeat pack.id).map fun pack =>
        (pack.transID, fd) := by
    intro ps
    induction ps with
    | nil => exact fun s _ => ⟨s, rfl, by simp⟩
    | cons pack ps ih =>
        intro s h
        by_cases hreq : pack.id = CS_HeartBeat_Req
        · obtain ⟨s', hs', hseen⟩ := ih (s.replyInnerPing fd) h
          refine ⟨s', by simpa [handleAll, onPacket, hreq] using hs', ?_⟩
          rw [hseen, seen_replyInnerPing]
          simp [isHeartBeat, hreq]
        · by_cases hack : pack.id = CS_HeartBeat_Ack
          · obtain ⟨s', hs', hseen⟩ := ih s h
            refine ⟨s', by simpa [handleAll, onPacket, hreq, hack, CS_HeartBeat_Req,
              CS_HeartBeat_Ack] using hs', ?_⟩
            rw [hseen]
            simp [isHeartBeat, hack]
          · have hmsg := handleMessage_eq (s := s.receive pack) h pack.id pack.body fd
              pack.transID.toUInt32
            obtain ⟨s', hs', hseen⟩ := ih ((s.receive pack).answered pack.id pack.body fd
              pack.transID.toUInt32) (by unfold answered; split <;> exact h)
            refine ⟨s', by simpa [handleAll, onPacket, hreq, hack, hmsg] using hs', ?_⟩
            have hhandling : (s.receive pack).handling = pack.transID := rfl
            rw [hseen, seen_answered, seen_receive, hhandling]
            simp [isHeartBeat, hreq, hack]
  obtain ⟨s', hs', hseen⟩ := hall (innerDecoder.frames data) s h
  refine ⟨(innerDecoder.rest data).length, s', ?_, hseen⟩
  rw [onRecvData, innerLoop, recvLoop_eq, hs']

/-- The step brings no message. -/
def quiet (_ : GameServer) : GameEvent → Bool
  | .init => true
  | .recvData _ data => (messages data).isEmpty

/-- No player is found again, so that the first message is enough to break the rule. -/
theorem onePlayerEach_iff {s : GameServer} (h : GameInv s) : s.OnePlayerEach ↔ s.handled = [] := by
  constructor
  · intro hone
    apply List.eq_nil_iff_forall_not_mem.mpr
    rintro ⟨t, fd, p⟩ hmem
    have hfound := hone.found t fd p hmem
    rw [findPlayer, h.unfiled] at hfound
    cases hfound
  · intro hnil
    constructor
    · intro t fd p hmem
      simp [hnil] at hmem
    · intro t fd p hmem
      simp [hnil] at hmem
    · intro t fd p t' fd' p' hmem
      simp [hnil] at hmem

end GameServer

open GameServer

theorem handled_iff_quiet {es : List GameEvent} {s : GameServer} (h : gameMachine.run es = some s) :
    s.handled = [] ↔ gameMachine.Along (fun s e => s.quiet e = true) es := by
  have hseen : ∀ s : GameServer, s.seen = [] ↔ s.handled = [] := fun s => List.map_eq_nil_iff
  refine gameMachine.run_induction
    (P := fun es s => s.handled = [] ↔ gameMachine.Along (fun s e => s.quiet e = true) es)
    (iff_of_true rfl trivial) ?_ h
  intro es s e s' hrun ih hs
  rw [gameMachine.along_snoc _ hrun, ← ih]
  cases e with
  | init =>
      obtain rfl := Option.some.inj hs
      simp [quiet]
  | recvData fd data =>
      obtain ⟨r, s₁, hr, hgrow⟩ := seen_onRecvData fd data (game_inv ⟨es, hrun⟩).unfiled
      have hstep : s₁ = s' := by
        simpa [gameMachine, GameServer.step, hr] using hs
      rw [← hstep, ← hseen, hgrow, List.append_eq_nil_iff, hseen, List.map_eq_nil_iff]
      simp [quiet]

/-- **The game server keeps one player per client only while nobody sends anything**: in the state
after a run every client has its one player, found by `findPlayer`, if and only if no message has
arrived.  `addPlayer` files a new player in `playerIdMap_`, and `findPlayer` looks in
`playerFdMap_`. -/
theorem one_player_each_iff (es : List GameEvent) (s : GameServer)
    (h : gameMachine.run es = some s) :
    s.OnePlayerEach ↔ gameMachine.Along (fun s e => s.quiet e = true) es := by
  rw [onePlayerEach_iff (game_inv ⟨es, h⟩), handled_iff_quiet h]

/-- A heartbeat of a gate. -/
def heartBeat : List GameEvent := [.init, .recvData 1 (encodeInnerMsg (CS_HeartBeat_Req, 0, []))]

theorem one_player_each_heartBeat : ∃ s, gameMachine.run heartBeat = some s ∧ s.OnePlayerEach := by
  obtain ⟨s, h⟩ : ∃ s, gameMachine.run heartBeat = some s :=
    Option.isSome_iff_exists.mp (by decide +kernel)
  exact ⟨s, h, (one_player_each_iff heartBeat s h).mpr (by decide +kernel)⟩

/-- Two messages of one client. -/
def twoMessages : List GameEvent :=
  [.init, .recvData 1 (encodeInnerMsg (ECHO_REQ, 5, [7]) ++ encodeInnerMsg (ECHO_REQ, 5, [8]))]

/-- Each of them is handled by a player of its own, and neither is found. -/
theorem twoMessages_two_players : ∃ s, gameMachine.run twoMessages = some s ∧
    s.handled = [(5, 1, 0), (5, 1, 1)] ∧ s.findPlayer 5 1 = none ∧ ¬ s.OnePlayerEach := by
  obtain ⟨s, h⟩ : ∃ s, gameMachine.run twoMessages = some s :=
    Option.isSome_iff_exists.mp (by decide +kernel)
  have hobs : (gameMachine.run twoMessages).map (fun s => (s.handled, s.findPlayer 5 1)) =
      some ([(5, 1, 0), (5, 1, 1)], none) := by decide +kernel
  rw [h] at hobs
  obtain ⟨hh, hf⟩ := Prod.mk.inj (Option.some.inj hobs)
  refine ⟨s, h, hh, hf, ?_⟩
  intro hone
  have hfound := hone.found 5 1 0 (by rw [hh]; simp)
  change s.findPlayer 5 1 = some 0 at hfound
  rw [hf] at hfound
  cases hfound

end BlackSwan.Game
