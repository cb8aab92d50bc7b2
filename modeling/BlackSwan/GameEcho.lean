import BlackSwan.Game
import BlackSwan.LinkPrograms

/-! # The game server as an echo

What the game server does today: it answers each `ECHO_REQ` of a gate with the same bytes, to the same
gate, under the lower half of the `transID`.  That is the service `echoService`, which has no state.

The system has the connections of the gates, with this service at one end, and the game server beside
it, with its players, which is given every buffer that a session hands to `onRecvData`.
`echoes_in_order` says that the server gives each session just what the service says, and what the
gates get of that.  `PacketParser::Init` has been called before the first message. -/

namespace BlackSwan.Game

open Wire Runs Tables

/-- The answer to a message. -/
def echoService (m : InnerMsg) : List innerFormat.Msg :=
  if h : m.1 = ECHO_REQ ∧ m.2.2.length ≤ 2 ^ 31 - 1 then
    [⟨(ECHO_RESP, m.2.1.toUInt32.toUInt64, m.2.2), fits_inner h.2⟩]
  else []

structure GameSystem where
  server : GameServer
  /-- the connections of the gates, by the `fd` of the session -/
  links : UInt32 → SessionLink innerFormat

inductive GameSystemEvent where
  | link (fd : UInt32) (e : LinkEvent innerFormat)
  /-- the session `fd` reads `n` bytes -/
  | recvData (fd : UInt32) (n : ℕ)

namespace GameSystem

/-- The session of a gate. -/
def session (s : GameSystem) (fd : UInt32) : SessionEnd innerFormat := (s.links fd).ends .server

/-- The end of the gate. -/
def gate (s : GameSystem) (fd : UInt32) : SessionEnd innerFormat := (s.links fd).ends .client

/-- What a connection does without the data callback of its session. -/
def allows : LinkEvent innerFormat → Bool
  | .own .server (.send _) | .read .server _ => false
  | _ => true

def step (s : GameSystem) : GameSystemEvent → Option GameSystem
  | .link fd e =>
      if allows e then ((s.links fd).step (serving echoService) e).map fun l =>
        { s with links := Function.update s.links fd l }
      else none
  | .recvData fd n =>
      ((s.links fd).step (serving echoService) (.read .server n)).bind fun l =>
        (s.server.step (.recvData fd ((s.session fd).recvBuffer_ ++
          ((s.links fd).wire .server).take n))).map fun server =>
            ⟨server, Function.update s.links fd l⟩

end GameSystem

/-- The game server after `PacketParser::Init`. -/
def initialized : GameServer :=
  { gameMachine.init with handleMap_ := Table.empty.emplace ECHO_REQ .HandleEchoReq }

def gameSystemMachine : Machine GameSystem GameSystemEvent where
  init := ⟨initialized, fun _ => (linkMachine innerFormat (serving echoService)).init⟩
  step := GameSystem.step

/-! ### What the server does with a packet -/

/-- Whatever the server has handled, it handles a packet as if it were the first one. -/
structure Ready (s : GameServer) : Prop where
  unfiled : s.playerFdMap_ = .empty
  handlers : s.handleMap_ = Table.empty.emplace ECHO_REQ .HandleEchoReq

/-- What it does with a packet of the session `fd`. -/
def replies (fd : UInt32) (pack : InnerPacket) : List GameAct :=
  if pack.id = CS_HeartBeat_Req then
    [.pong fd (encodeInnerPacket CS_HeartBeat_Ack [80, 79, 78, 71, 0] 5 0)]
  else if pack.id = CS_HeartBeat_Ack then []
  else if pack.id = ECHO_REQ then
    [.sent pack.transID fd ECHO_RESP (encodeInnerPacket ECHO_RESP pack.body
      (UInt32.ofNat pack.body.length) pack.transID.toUInt32.toUInt64)]
  else []

namespace Ready

variable {s : GameServer}

theorem answered (h : Ready s) (pack : InnerPacket) (fd : UInt32) :
    let s' := (s.receive pack).answered pack.id pack.body fd pack.transID.toUInt32
    Ready s' ∧ s'.history = s.history ++ if pack.id = ECHO_REQ then
      [.sent pack.transID fd ECHO_RESP (encodeInnerPacket ECHO_RESP pack.body
        (UInt32.ofNat pack.body.length) pack.transID.toUInt32.toUInt64)] else [] := by
  have hmap : (s.receive pack).handleMap_ = Table.empty.emplace ECHO_REQ .HandleEchoReq := h.handlers
  dsimp only
  rw [GameServer.answered, hmap, Table.emplace_of_none rfl, Table.set_apply]
  by_cases hid : pack.id = ECHO_REQ
  · rw [if_pos hid, if_pos hid]
    exact ⟨⟨h.unfiled, h.handlers⟩, rfl⟩
  · rw [if_neg hid, if_neg hid, List.append_nil]
    exact ⟨⟨h.unfiled, h.handlers⟩, rfl⟩

theorem onPacket (h : Ready s) (pack : InnerPacket) (fd : UInt32) :
    ∃ s', onPacket InnerPacket.id (GameServer.replyInnerPing fd) (fun pack s =>
        (s.receive pack).handleMessage pack.id pack.body fd pack.transID.toUInt32) pack s =
          .ok () s' ∧ Ready s' ∧ s'.history = s.history ++ replies fd pack := by
  have hmsg := handleMessage_eq (s := s.receive pack) h.unfiled pack.id pack.body fd
    pack.transID.toUInt32
  obtain ⟨hready, hhist⟩ := h.answered pack fd
  unfold BlackSwan.onPacket replies
  split_ifs with hreq hack hid
  · exact ⟨_, rfl, ⟨h.unfiled, h.handlers⟩, rfl⟩
  · exact ⟨_, rfl, h, (List.append_nil _).symm⟩
  · rw [if_pos hid] at hhist
    exact ⟨_, hmsg, hready, hhist⟩
  · rw [if_neg hid] at hhist
    exact ⟨_, hmsg, hready, hhist⟩

/-- A buffer: one packet after the other. -/
theorem recvData (h : Ready s) (fd : UInt32) (data : Bytes) :
    ∃ s', s.step (.recvData fd data) = some s' ∧ Ready s' ∧
      s'.history = s.history ++ (innerDecoder.frames data).flatMap (replies fd) := by
  have hall : ∀ (ps : List InnerPacket) (s : GameServer), Ready s → ∃ s',
      handleAll (BlackSwan.onPacket InnerPacket.id (GameServer.replyInnerPing fd) fun pack s =>
        (s.receive pack).handleMessage pack.id pack.body fd pack.transID.toUInt32) ps s =
          .ok () s' ∧ Ready s' ∧ s'.history = s.history ++ ps.flatMap (replies fd) := by
    intro ps
    induction ps with
    | nil => exact fun s h => ⟨s, rfl, h, (List.append_nil _).symm⟩
    | cons pack ps ih =>
        intro s h
        obtain ⟨s₁, hs₁, h₁, hhist₁⟩ := h.onPacket pack fd
        obtain ⟨s', hs', h', hhist'⟩ := ih s₁ h₁
        refine ⟨s', ?_, h', ?_⟩
        · rw [handleAll, hs₁]
          exact hs'
        · rw [hhist', hhist₁, List.append_assoc, List.flatMap_cons]
  obtain ⟨s', hs', h', hhist⟩ := hall (innerDecoder.frames data) s h
  refine ⟨s', ?_, h', hhist⟩
  rw [GameServer.step, GameServer.onRecvData, innerLoop, recvLoop_eq, hs']

end Ready

/-! ### The server and the service -/

/-- What the server hands to the session `fd`. -/
def handedTo (fd : UInt32) : GameAct → Option Bytes
  | .sent _ fd' _ msg => if fd' = fd then some msg else none
  | .pong fd' msg => if fd' = fd then some msg else none

/-- The packets that a session has sent, without the pings of its timer. -/
def packets (ms : List innerFormat.Msg) : List Bytes :=
  (ms.filter fun m => m.1.1 ≠ CS_HeartBeat_Req).map innerFormat.packet

theorem packets_append (ms ms' : List innerFormat.Msg) :
    packets (ms ++ ms') = packets ms ++ packets ms' := by
  rw [packets, List.filter_append, List.map_append]
  rfl

/-- **One packet**: the server hands to the session what the service says. -/
theorem replies_eq (fd : UInt32) {pack : InnerPacket} (hfit : pack.body.length ≤ 2 ^ 31 - 1) :
    (replies fd pack).filterMap (handedTo fd) =
      packets (SessionEnd.reply echoService (innerFormat.code.view pack)) := by
  unfold replies SessionEnd.reply
  show _ = packets (if pack.id = CS_HeartBeat_Req then _ else if pack.id = CS_HeartBeat_Ack then _
    else echoService (pack.id, pack.transID, pack.body))
  split_ifs with hreq hack hid
  · simp [handedTo, packets, PacketFormat.pongMsg, innerFormat, CS_HeartBeat_Ack, CS_HeartBeat_Req,
      PacketFormat.packet, innerCode, encodeInnerMsg, pongText]
  · rfl
  · rw [echoService, dif_pos ⟨hid, hfit⟩]
    simp [handedTo, packets, ECHO_RESP, CS_HeartBeat_Req, PacketFormat.packet, innerFormat, innerCode,
      encodeInnerMsg]
  · rw [echoService, dif_neg fun h => hid h.1]
    rfl

/-- It hands nothing to the other sessions. -/
theorem replies_other {fd fd' : UInt32} (h : fd' ≠ fd) (pack : InnerPacket) :
    (replies fd pack).filterMap (handedTo fd') = [] := by
  unfold replies
  split_ifs <;> simp [handedTo, h.symm]

namespace GameSystem

variable {s s' : GameSystem}

/-- The server and the service of each connection are in step. -/
structure InStep (s : GameSystem) : Prop where
  ready : Ready s.server
  inv : ∀ fd, (s.links fd).Inv
  serves : ∀ fd, (s.session fd).Serves echoService
  handed : ∀ fd, s.server.history.filterMap (handedTo fd) = packets (s.session fd).said

namespace InStep

theorem link (h : InStep s) {fd : UInt32} {e : LinkEvent innerFormat} (ha : allows e = true)
    {l : SessionLink innerFormat} (hs : (s.links fd).step (serving echoService) e = some l) :
    InStep { s with links := Function.update s.links fd l } := by
  have hcases (P : UInt32 → SessionLink innerFormat → Prop) (hk : P fd l)
      (hall : ∀ j, P j (s.links j)) : ∀ j, P j (Function.update s.links fd l j) := by
    intro j
    by_cases hj : j = fd
    · rw [hj, Function.update_self]
      exact hk
    · rw [Function.update_of_ne hj]
      exact hall j
  refine ⟨h.ready, hcases (fun _ l => l.Inv) (SessionLink.step_inv (h.inv fd) hs) h.inv,
    hcases (fun _ l => (l.ends .server).Serves echoService) ?_ h.serves,
    hcases (fun j l => _ = packets (l.ends .server).said) ?_ h.handed⟩
  · refine SessionLink.step_serves (h.inv fd) (h.serves fd) hs fun m hm => ?_
    rw [hm] at ha
    exact absurd ha (by simp [allows])
  · rw [h.handed fd]
    show packets ((s.links fd).ends .server).said = packets (l.ends .server).said
    cases e with
    | own y e =>
        obtain ⟨x, hstep, rfl⟩ := Option.map_eq_some_iff.mp hs
        cases y with
        | client => rfl
        | server =>
            show _ = packets x.said
            rw [SessionEnd.step_said hstep, packets_append]
            cases e with
            | send m => exact absurd ha (by simp [allows])
            | sendPing => exact (List.append_nil _).symm
            | _ => exact (List.append_nil _).symm
    | transfer y n =>
        obtain ⟨⟨bytes, x⟩, htrans, rfl⟩ := Option.map_eq_some_iff.mp hs
        obtain ⟨-, -, -, -, -, -, -, -, rfl⟩ := SessionEnd.transfer_cases htrans
        cases y <;> rfl
    | read y n =>
        cases y with
        | server => exact absurd ha (by simp [allows])
        | client =>
            obtain ⟨-, x, -, rfl⟩ : _ ∧ ∃ x, ((s.links fd).ends .client).readRound
                (serving echoService .client) (((s.links fd).wire .client).take n) = some x ∧ _ = l := by
              simpa [SessionLink.step] using hs
            rfl

theorem recvData (h : InStep s) {fd : UInt32} {n : ℕ}
    (hs : s.step (.recvData fd n) = some s') : InStep s' := by
  obtain ⟨l, hl, hs⟩ := Option.bind_eq_some_iff.mp hs
  obtain ⟨server, hserver, rfl⟩ := Option.map_eq_some_iff.mp hs
  obtain ⟨server', hserver', hready, hhist⟩ := h.ready.recvData fd
    ((s.session fd).recvBuffer_ ++ ((s.links fd).wire .server).take n)
  obtain rfl : server' = server := Option.some.inj (hserver'.symm.trans hserver)
  have hserves := SessionLink.step_serves (h.inv fd) (h.serves fd) hl fun m hm => by cases hm
  have hinv := SessionLink.step_inv (h.inv fd) hl
  obtain ⟨⟨-, -, hn, -⟩, x, hround, rfl⟩ : _ ∧ ∃ x, ((s.links fd).ends .server).readRound
      (serving echoService .server) (((s.links fd).wire .server).take n) = some x ∧ _ = l := by
    simpa [SessionLink.step] using hl
  -- the packets that are found were sent by the gate
  obtain ⟨-, left, hc⟩ := h.inv fd .client
  obtain ⟨done, left', rfl, hframes, -⟩ := hc.read hn
  have hfit : ∀ pack ∈ innerDecoder.frames ((s.session fd).recvBuffer_ ++
      ((s.links fd).wire .server).take n), pack.body.length ≤ 2 ^ 31 - 1 := by
    intro pack hpack
    have hmem : innerFormat.code.view pack ∈ done.map Subtype.val :=
      hframes ▸ List.mem_map_of_mem hpack
    obtain ⟨m, -, hm⟩ := List.mem_map.mp hmem
    have hvalid : m.1.2.2.length ≤ 2 ^ 31 - 1 := m.2.1
    rw [hm] at hvalid
    exact hvalid
  rw [SessionEnd.readRound_eq] at hround
  obtain rfl := (Option.some.inj hround).symm
  refine ⟨hready, fun j => ?_, fun j => ?_, fun j => ?_⟩
  · by_cases hj : j = fd
    · subst hj
      simpa using hinv
    · simpa [Function.update_of_ne hj] using h.inv j
  · by_cases hj : j = fd
    · subst hj
      simpa [session] using hserves
    · simpa [session, Function.update_of_ne hj] using h.serves j
  · rw [hhist, List.filterMap_append, h.handed j]
    by_cases hj : j = fd
    · subst hj
      have hnew : ((innerDecoder.frames ((s.session j).recvBuffer_ ++
          ((s.links j).wire .server).take n)).flatMap (replies j)).filterMap (handedTo j) =
          packets (((innerDecoder.frames ((s.session j).recvBuffer_ ++
            ((s.links j).wire .server).take n)).map innerFormat.code.view).flatMap
              (SessionEnd.reply echoService)) := by
        revert hfit
        generalize innerDecoder.frames _ = ps
        intro hfit
        induction ps with
        | nil => rfl
        | cons pack ps ih =>
            rw [List.flatMap_cons, List.filterMap_append, List.map_cons, List.flatMap_cons,
              packets_append, replies_eq j (hfit pack List.mem_cons_self),
              ih fun p hp => hfit p (List.mem_cons_of_mem _ hp)]
      rw [hnew]
      simp only [session, Function.update_self, SessionLink.set]
      rw [← packets_append]
      exact congrArg packets (SessionEnd.foldl_receive_said echoService _ _).symm
    · have hnone : ((innerDecoder.frames ((s.session fd).recvBuffer_ ++
          ((s.links fd).wire .server).take n)).flatMap (replies fd)).filterMap (handedTo j) = [] := by
        rw [List.filterMap_eq_nil_iff]
        intro act hact
        obtain ⟨pack, -, hact⟩ := List.mem_flatMap.mp hact
        exact List.filterMap_eq_nil_iff.mp (replies_other hj pack) act hact
      rw [hnone, List.append_nil]
      simp [session, Function.update_of_ne hj]

theorem step {e : GameSystemEvent} (h : InStep s) (hs : s.step e = some s') : InStep s' := by
  cases e with
  | link fd e =>
      rw [GameSystem.step] at hs
      split_ifs at hs with ha
      obtain ⟨l, hl, rfl⟩ := Option.map_eq_some_iff.mp hs
      exact h.link ha hl
  | recvData fd n => exact h.recvData hs

theorem init : InStep gameSystemMachine.init where
  ready := ⟨rfl, rfl⟩
  inv _ := SessionLink.inv_init innerFormat (serving echoService)
  serves _ := rfl
  handed _ := rfl

end InStep

end GameSystem

/-! ### Runs -/

/-- **The game server is an echo.**  In every run with any gates it hands each session what the
service without state says on that connection, and nothing else.  The gate is given the answers to
its own messages, each once and in order, and when the connection is left alone and comes to rest all
of them. -/
theorem echoes_in_order (es : List GameSystemEvent) (s : GameSystem)
    (h : gameSystemMachine.run es = some s) (fd : UInt32) :
    s.server.history.filterMap (handedTo fd) = packets (s.session fd).said ∧
    (s.gate fd).got <+: answers innerFormat echoService (innerFormat.program (s.gate fd).said) ∧
    ((s.links fd).AtRest (serving echoService) → (∀ x, ((s.links fd).ends x).Up) →
      (s.gate fd).got = answers innerFormat echoService (innerFormat.program (s.gate fd).said)) := by
  have hi : s.InStep := gameSystemMachine.invariant GameSystem.InStep.init
    (fun _ _ _ hx hs => hx.step hs) ⟨es, h⟩
  exact ⟨hi.handed fd, SessionLink.served_prefix (hi.inv fd) (hi.serves fd),
    fun hrest hup => SessionLink.served_all (hi.inv fd) (hi.serves fd) hrest hup⟩

/-- A message of one gate, and its answer. -/
def oneEcho : List GameSystemEvent :=
  [.link 1 (.own .server .start), .link 1 (.own .server .launchReader),
    .link 1 (.own .server .launchWriter), .link 1 (.own .client .start),
    .link 1 (.own .client .launchReader), .link 1 (.own .client .launchWriter),
    .link 1 (.own .client (.send ⟨(ECHO_REQ, 5, [7]), fits_inner (by decide)⟩)),
    .link 1 (.own .client .deliver), .link 1 (.own .client .timer), .link 1 (.transfer .client 17),
    .recvData 1 17, .link 1 (.own .server .deliver), .link 1 (.own .server .timer),
    .link 1 (.transfer .server 17), .link 1 (.read .client 17)]

theorem echoes_in_order_oneEcho : ∃ s, gameSystemMachine.run oneEcho = some s ∧
    (s.gate 1).got = [(ECHO_RESP, 5, [7])] ∧
    (s.gate 1).got <+: answers innerFormat echoService (innerFormat.program (s.gate 1).said) := by
  have hobs : (gameSystemMachine.run oneEcho).map (fun s => (s.gate 1).got) =
      some [(ECHO_RESP, 5, [7])] := by decide +kernel
  obtain ⟨s, hs, hgot⟩ := Option.map_eq_some_iff.mp hobs
  exact ⟨s, hs, hgot, (echoes_in_order oneEcho s hs 1).2.1⟩

end BlackSwan.Game
