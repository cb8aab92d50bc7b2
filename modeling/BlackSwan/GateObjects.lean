import BlackSwan.GateClients
import Mathlib.Data.Finset.Insert

/-! # The message objects of the gate

A handler of the gate parses every message of an id into one object, which its `init` makes and
registers.  `MessageData` of `share/common/message.h` owns the object: its destructor deletes it.  It
has a destructor and so no move, and the statement `map[msgId] = MessageData{pMsg, handler}` of
`registerMessage` copies the pointer into the map and then destroys the temporary, object and all.  So
no registered object is alive when `init` is through (`live_registerAll`), and `ParseFromArray` is
called on an object that has been deleted.

The functions of this module are those of `Gate` with that call as a fault.  As long as there is
none, the gate does what `Gate` says (`gate_of_dangling`).  The loops of the links come to `linkLoop`,
which hands nothing on. -/

namespace BlackSwan

open Wire Runs Tables

/-! ### Registration -/

/-- The address of a message object. -/
abbrev Address := ℕ

/-- `MessageData`, without its handler. -/
structure MessageData where
  pMessage_ : Option Address
deriving DecidableEq, Repr

/-- The map of a handler, and the message objects made for it that have not been deleted. -/
structure MessageMap where
  entries : Table UInt32 MessageData
  live : Finset Address
  next : Address

namespace MessageMap

def empty : MessageMap := ⟨.empty, ∅, 0⟩

/-- `new`, for a message. -/
def new (m : MessageMap) : Address × MessageMap :=
  (m.next, { m with live := insert m.next m.live, next := m.next + 1 })

/-- `MessageData::~MessageData`. -/
def destroy (d : MessageData) (m : MessageMap) : MessageMap :=
  match d.pMessage_ with
  | some a => { m with live := m.live.erase a }
  | none => m

/-- `registerMessage`: the temporary is destroyed once it has been copied into the map. -/
def registerMessage (msgId : UInt32) (pMsg : Option Address) (m : MessageMap) : MessageMap :=
  ({ m with entries := m.entries.set msgId ⟨pMsg⟩ } : MessageMap).destroy ⟨pMsg⟩

/-- One line of an `init`, with a message to parse into or with `nullptr`. -/
def register (m : MessageMap) (line : UInt32 × Bool) : MessageMap :=
  if line.2 then m.new.2.registerMessage line.1 (some m.new.1)
  else m.registerMessage line.1 none

/-- An `init`. -/
def registerAll (lines : List (UInt32 × Bool)) : MessageMap := lines.foldl register empty

/-- The message of the id is parsed into an object that has been deleted. -/
def isDangling (msgId : UInt32) (m : MessageMap) : Bool :=
  match (m.entries msgId).bind MessageData.pMessage_ with
  | some a => a ∉ m.live
  | none => false

variable {m : MessageMap} {line : UInt32 × Bool} {lines : List (UInt32 × Bool)} {msgId : UInt32}

theorem registerAll_snoc (lines : List (UInt32 × Bool)) (line : UInt32 × Bool) :
    registerAll (lines ++ [line]) = (registerAll lines).register line := by
  simp [registerAll]

theorem register_live (h : m.live = ∅) : (m.register line).live = ∅ := by
  unfold register
  split_ifs
  · simp [new, registerMessage, destroy, h]
  · exact h

/-- The entry of a line points to an object exactly if the line has one. -/
theorem register_entry : (m.register line).entries msgId =
    if msgId = line.1 then some ⟨if line.2 then some m.next else none⟩ else m.entries msgId := by
  unfold register
  split_ifs <;> simp_all [registerMessage, destroy, new, Table.set_of_ne]

/-- **Registration deletes what it registers.** -/
theorem live_registerAll (lines : List (UInt32 × Bool)) : (registerAll lines).live = ∅ := by
  induction lines using List.reverseRecOn with
  | nil => rfl
  | append_singleton lines line ih =>
      rw [registerAll_snoc]
      exact register_live ih

theorem isDangling_iff (h : m.live = ∅) : m.isDangling msgId = true ↔
    ∃ d, m.entries msgId = some d ∧ d.pMessage_.isSome := by
  unfold isDangling
  cases he : m.entries msgId with
  | none => simp
  | some d => cases hd : d.pMessage_ <;> simp [hd, h]

/-- After an `init` that registers no id twice, the messages of the ids with an object dangle. -/
theorem isDangling_registerAll (hnd : (lines.map Prod.fst).Nodup) :
    (registerAll lines).isDangling msgId = true ↔ (msgId, true) ∈ lines := by
  rw [isDangling_iff (live_registerAll lines)]
  induction lines using List.reverseRecOn with
  | nil => simp [registerAll, empty]
  | append_singleton lines line ih =>
      rw [List.map_append, List.nodup_append] at hnd
      obtain ⟨hnd, -, hnew⟩ := hnd
      rw [registerAll_snoc, register_entry, List.mem_append, List.mem_singleton]
      by_cases hid : msgId = line.1
      · have hnot : (msgId, true) ∉ lines := fun hm =>
          hnew _ (List.mem_map_of_mem hm) line.1 (by simp) hid
        cases hl : line.2 <;> simp_all [Prod.ext_iff]
      · rw [if_neg hid, ih hnd]
        refine (or_iff_left fun h => hid ?_).symm
        rw [← h]

end MessageMap

def CLI_GG_SelectRole_REQ : UInt32 := 22
def CLI_GG_CreateRole_REQ : UInt32 := 24
def CLI_GG_DelRole_REQ : UInt32 := 26
def CLI_GG_ReselRole_REQ : UInt32 := 28
def CLI_GG_UnDelRole_REQ : UInt32 := 30
def CLI_GG_VerifyUserName_REQ : UInt32 := 37
def CLI_GG_SaveAttributeValue_REQ : UInt32 := 39

/-- `ClientPacketHandler::init`. -/
def initClient : List (UInt32 × Bool) :=
  [(CLI_GG_Login_REQ, true), (CLI_GG_SelectRole_REQ, false), (CLI_GG_CreateRole_REQ, false),
    (CLI_GG_DelRole_REQ, false), (CLI_GG_UnDelRole_REQ, false), (CLI_GG_ReselRole_REQ, false),
    (CLI_GG_Logout_NTF, false), (CLI_GG_VerifyUserName_REQ, false),
    (CLI_GG_SaveAttributeValue_REQ, false)]

/-- `LoginPacketHandler::init`. -/
def initLogin : List (UInt32 × Bool) := [(LS_GG_Login_ACK, true), (LS_GG_Kickoff_NTF, true)]

/-- `GSPacketHandler::init`. -/
def initGs : List (UInt32 × Bool) := [(GS_GG_CLI_MSG, true)]

/-- The map of a handler, before or after its `init`. -/
def messageMap (lines : List (UInt32 × Bool)) (g : GateState) : MessageMap :=
  if g.inited then .registerAll lines else .empty

/-- The message of a packet is parsed into an object that has been deleted. -/
def dangles (lines : List (UInt32 × Bool)) (msgId : UInt32) (g : GateState) : Bool :=
  (messageMap lines g).isDangling msgId

theorem dangles_iff {lines : List (UInt32 × Bool)} (hnd : (lines.map Prod.fst).Nodup)
    (msgId : UInt32) (g : GateState) :
    dangles lines msgId g = true ↔ g.inited = true ∧ (msgId, true) ∈ lines := by
  unfold dangles messageMap
  cases g.inited with
  | false => simp [MessageMap.isDangling, MessageMap.empty]
  | true => simp [MessageMap.isDangling_registerAll hnd]

theorem isHeartBeat_initGs : ∀ line ∈ initGs, isHeartBeat line.1 = false :=
  List.forall_mem_singleton.mpr (by decide)

theorem isHeartBeat_initLogin : ∀ line ∈ initLogin, isHeartBeat line.1 = false :=
  List.forall_mem_cons.mpr ⟨by decide, List.forall_mem_singleton.mpr (by decide)⟩

theorem dangles_client (msgId : UInt32) (g : GateState) :
    dangles initClient msgId g = true ↔ g.inited = true ∧ msgId = CLI_GG_Login_REQ := by
  rw [dangles_iff (by decide)]
  simp [initClient]

theorem dangles_gs (msgId : UInt32) (g : GateState) :
    dangles initGs msgId g = true ↔ g.inited = true ∧ msgId = GS_GG_CLI_MSG := by
  rw [dangles_iff (by decide)]
  simp [initGs]

/-! ### The gate with the objects as they are -/

namespace Dangling

variable (P : GateProto)

/-- `ClientPacketHandler::processClientMessage`. -/
def processClientMessage (msgId : UInt32) (body : Bytes) (ps : PlayerSession) (g : GateState) :
    Call GateState Unit :=
  if dangles initClient msgId g then .error .deleted g
  else g.processClientMessage P msgId body ps

/-- `PacketParser::onRecvClientPacket`. -/
def onRecvClientPacket (fd : UInt32) (pack : Packet) (g : GateState) : Call GateState Unit :=
  if pack.id < CLI_GG_MSG_ID_MIN ∨ pack.id > CLI_GG_MSG_ID_MAX then .ok () (g.stop fd) else
  match g.session_map_ fd with
  | none => .error .nullCall g
  | some ps =>
      match ps.player_ with
      | none => .ok () (g.close ps)
      | some id =>
          match g.playerIdMap_ id with
          | none => .error .outOfBounds g
          | some p =>
              if p.getCurStateType = .EFST_LoginLs ∧ pack.id ≠ CLI_GG_Login_REQ then
                .ok () (g.close ps)
              else if pack.id ≠ CLI_GG_GS_MSG then
                processClientMessage P pack.id (GateState.cString pack.data) ps
                  (g.log (.dispatched fd pack.id))
              else .ok () ((g.log (.dispatched fd pack.id)).onCliToGsMsg pack.body ps)

/-- `PacketParser::onRecvClientData`. -/
def onRecvClientData (fd : UInt32) : DataProcess GateState :=
  clientLoop (GateState.replyPing fd) (onRecvClientPacket P fd)

/-- `LoginPacketHandler::processLoginMessage`. -/
def processLoginMessage (msgId : UInt32) (body : Bytes) (transID : TransID) (g : GateState) :
    Call GateState Unit :=
  match g.playerIdMap_ transID with
  | none => .ok () g
  | some _ =>
      if dangles initLogin msgId g then .error .deleted g
      else g.processLoginMessage P msgId body transID

/-- `PacketParser::onRecvLoginData`. -/
def onRecvLoginData : DataProcess GateState :=
  innerLoop (GateState.replyInnerPing .login) fun pack g =>
    processLoginMessage P pack.id pack.body pack.transID (g.receive .login pack)

/-- `GSPacketHandler::processGsMessage`. -/
def processGsMessage (msgId : UInt32) (body : Bytes) (transID : TransID) (g : GateState) :
    Call GateState Unit :=
  match g.playerIdMap_ transID with
  | none => .ok () g
  | some _ =>
      if dangles initGs msgId g then .error .deleted g
      else .ok () (g.processGsMessage P msgId body transID)

/-- `PacketParser::onRecvServerData`. -/
def onRecvServerData : DataProcess GateState :=
  innerLoop (GateState.replyInnerPing .game) fun pack g =>
    processGsMessage P pack.id pack.body pack.transID (g.receive .game pack)

def step (g : GateState) (e : GateEvent) : Option GateState :=
  if g.crashed then none else
  match e with
  | .clientData fd data =>
      match g.sessions fd with
      | none => none
      | some _ => some (GateState.settle (GateState.stop fd)
          (onRecvClientData P fd data { g with cause := .client fd }))
  | .loginData data =>
      some (GateState.settle id (onRecvLoginData P data { g with cause := .link .login }))
  | .gameData data =>
      some (GateState.settle id (onRecvServerData P data { g with cause := .link .game }))
  | e => g.step P e

end Dangling

/-- The gate, with its message objects as their registration leaves them. -/
def danglingMachine (P : GateProto) : Machine GateState GateEvent where
  init := (gateMachine P).init
  step := Dangling.step P

/-! ### What is the same -/

namespace Dangling

variable {P : GateProto} {g g' : GateState}

theorem onRecvClientPacket_cases (P : GateProto) (fd : UInt32) (pack : Packet) (g : GateState) :
    onRecvClientPacket P fd pack g = g.onRecvClientPacket P fd pack ∨
      dangles initClient pack.id g = true ∧
        onRecvClientPacket P fd pack g = .error .deleted (g.log (.dispatched fd pack.id)) := by
  unfold onRecvClientPacket GateState.onRecvClientPacket
  by_cases hr : pack.id < CLI_GG_MSG_ID_MIN ∨ pack.id > CLI_GG_MSG_ID_MAX
  · rw [if_pos hr, if_pos hr]
    exact .inl rfl
  rw [if_neg hr, if_neg hr]
  cases g.session_map_ fd with
  | none => exact .inl rfl
  | some ps =>
      cases hpl : ps.player_ with
      | none => exact .inl (by simp only [hpl])
      | some id =>
          cases hp : g.playerIdMap_ id with
          | none => exact .inl (by simp only [hpl, hp])
          | some p =>
              simp only [hpl, hp]
              split_ifs
              · exact .inl rfl
              · unfold processClientMessage
                split_ifs with hd
                · exact .inr ⟨hd, rfl⟩
                · exact .inl rfl
              · exact .inl rfl

theorem endsAs_onRecvClientPacket (fd : UInt32) (pack : Packet) (g : GateState) :
    EndsAs .deleted (onRecvClientPacket P fd pack g) (g.onRecvClientPacket P fd pack) :=
  (onRecvClientPacket_cases P fd pack g).imp_right fun h => ⟨_, h.2⟩

theorem endsAs_onRecvClientData (fd : UInt32) (data : Bytes) (g : GateState) :
    EndsAs .deleted (onRecvClientData P fd data g) (g.onRecvClientData P fd data) :=
  recvLoop_endsAs _ _ _ (endsAs_onRecvClientPacket fd) data g

theorem endsAs_processLoginMessage (msgId : UInt32) (body : Bytes) (t : TransID) (g : GateState) :
    EndsAs .deleted (processLoginMessage P msgId body t g) (g.processLoginMessage P msgId body t) := by
  unfold processLoginMessage
  cases hp : g.playerIdMap_ t with
  | none => exact .inl (by simp [GateState.processLoginMessage, hp])
  | some p =>
      dsimp only
      split_ifs
      · exact .inr ⟨g, rfl⟩
      · exact .inl rfl

theorem endsAs_onRecvLoginData (data : Bytes) (g : GateState) :
    EndsAs .deleted (onRecvLoginData P data g) (g.onRecvLoginData P data) :=
  recvLoop_endsAs _ _ _ (fun _ _ => endsAs_processLoginMessage _ _ _ _) data g

theorem endsAs_processGsMessage (msgId : UInt32) (body : Bytes) (t : TransID) (g : GateState) :
    EndsAs .deleted (processGsMessage P msgId body t g)
      (.ok () (g.processGsMessage P msgId body t)) := by
  unfold processGsMessage
  cases hp : g.playerIdMap_ t with
  | none => exact .inl (by simp [GateState.processGsMessage, hp])
  | some p =>
      dsimp only
      split_ifs
      · exact .inr ⟨g, rfl⟩
      · exact .inl rfl

theorem endsAs_onRecvServerData (data : Bytes) (g : GateState) :
    EndsAs .deleted (onRecvServerData P data g) (g.onRecvServerData P data) :=
  recvLoop_endsAs _ _ _ (fun _ _ => endsAs_processGsMessage _ _ _ _) data g

theorem settle_endsAs {onThrow : GateState → GateState} {x' x : Call GateState ℕ}
    (h : EndsAs .deleted x' x) (hc : (GateState.settle onThrow x').crashed = false) : x' = x := by
  obtain rfl | ⟨s, rfl⟩ := h
  · rfl
  · cases hc

/-- A step that ends no process is one of the gate of `Gate`. -/
theorem step_same {e : GateEvent} (hs : step P g e = some g') (hc : g'.crashed = false) :
    g.step P e = some g' := by
  unfold step at hs
  split_ifs at hs with hg
  cases e with
  | clientData fd data =>
      cases hfd : g.sessions fd with
      | none => simp [hfd] at hs
      | some s =>
          simp only [hfd, Option.some.injEq] at hs
          subst hs
          rw [settle_endsAs (endsAs_onRecvClientData fd data _) hc]
          simp [GateState.step, hg, hfd]
  | loginData data =>
      obtain rfl := Option.some.inj hs
      rw [settle_endsAs (endsAs_onRecvLoginData data _) hc]
      simp [GateState.step, hg]
  | gameData data =>
      obtain rfl := Option.some.inj hs
      rw [settle_endsAs (endsAs_onRecvServerData data _) hc]
      simp [GateState.step, hg]
  | _ => exact hs

theorem not_crashed_of_step {e : GateEvent} (hs : step P g e = some g') : g.crashed = false := by
  by_contra hc
  simp [step, hc] at hs

end Dangling

/-- **Until a deleted object is used, the gate does what `Gate` says.** -/
theorem gate_of_dangling {P : GateProto} {es : List GateEvent} {g : GateState}
    (h : (danglingMachine P).run es = some g) (hc : g.crashed = false) :
    (gateMachine P).run es = some g := by
  refine (danglingMachine P).run_induction (P := fun es g => g.crashed = false →
    (gateMachine P).run es = some g) (fun _ => rfl) ?_ h hc
  intro es g e g' _ ih hs hc
  exact (gateMachine P).run_snoc (ih (Dangling.not_crashed_of_step hs)) (Dangling.step_same hs hc)

/-! ### When a deleted object is used -/

namespace Dangling

variable {P : GateProto} {g g' : GateState} {fd : UInt32}

/-- What `onRecvClientData` does with one packet. -/
def handleClient (P : GateProto) (fd : UInt32) : Packet → GateState → Call GateState Unit :=
  onPacket Packet.id (GateState.replyPing fd) (onRecvClientPacket P fd)

/-- A login request of a connected session is parsed, once the messages are registered. -/
theorem onRecvClientPacket_login (h : ClientInv fd g) (hc : g.isConnected fd = true)
    (hin : g.inited = true) {pack : Packet} (hid : pack.id = CLI_GG_Login_REQ) :
    onRecvClientPacket P fd pack g = .error .deleted (g.log (.dispatched fd pack.id)) := by
  obtain ⟨id, p, ha⟩ := h.inv.attached hc
  have hr : ¬ (pack.id < CLI_GG_MSG_ID_MIN ∨ pack.id > CLI_GG_MSG_ID_MAX) := by
    rw [hid]
    decide
  have hgs : pack.id ≠ CLI_GG_GS_MSG := by
    rw [hid]
    decide
  have hst : ¬ (p.getCurStateType = .EFST_LoginLs ∧ pack.id ≠ CLI_GG_Login_REQ) := fun h => h.2 hid
  have hd : dangles initClient pack.id (g.log (.dispatched fd pack.id)) = true :=
    (dangles_client _ _).mpr ⟨hin, hid⟩
  unfold onRecvClientPacket
  simp only [if_neg hr, ha.session, ha.player, if_neg hst, if_pos hgs, processClientMessage, hd,
    if_true]

/-- A client packet is handled as it would be with the objects alive, but for that. -/
theorem handleClient_eq (h : ClientInv fd g) (pack : Packet) : handleClient P fd pack g =
    if g.isConnected fd = true ∧ g.inited = true ∧ pack.id = CLI_GG_Login_REQ then
      .error .deleted (g.log (.dispatched fd pack.id))
    else BlackSwan.handleClient P fd pack g := by
  by_cases hcond : g.isConnected fd = true ∧ g.inited = true ∧ pack.id = CLI_GG_Login_REQ
  · rw [if_pos hcond]
    obtain ⟨hc, hin, hid⟩ := hcond
    have hreq : pack.id ≠ CS_HeartBeat_Req := by
      rw [hid]
      decide
    have hack : pack.id ≠ CS_HeartBeat_Ack := by
      rw [hid]
      decide
    rw [handleClient, onPacket, if_neg hreq, if_neg hack]
    exact onRecvClientPacket_login h hc hin hid
  · rw [if_neg hcond]
    unfold handleClient BlackSwan.handleClient onPacket
    split_ifs
    · rfl
    · rfl
    obtain heq | ⟨hd, -⟩ := onRecvClientPacket_cases P fd pack g
    · exact heq
    · -- the session is stopped, and its packet goes no further than `session_map_`
      obtain ⟨hin, hid⟩ := (dangles_client _ _).mp hd
      have hc : g.isConnected fd = false := by
        by_contra hc
        exact hcond ⟨by simpa using hc, hin, hid⟩
      simp [onRecvClientPacket, GateState.onRecvClientPacket, not_on_file h.inv hc]

/-! ### The loops of the links -/

/-- The inner packet is a message for a player on file that is parsed into a deleted object. -/
def uses (lines : List (UInt32 × Bool)) (pack : InnerPacket) (g : GateState) : Bool :=
  (g.playerIdMap_ pack.transID).isSome && dangles lines pack.id g

/-- What the handlers of the inner packets come to: nothing, or the use of a deleted object. -/
def linkDispatch (link : Link) (lines : List (UInt32 × Bool)) (pack : InnerPacket) (g : GateState) :
    Call GateState Unit :=
  if uses lines pack g then .error .deleted (g.receive link pack) else .ok () (g.receive link pack)

/-- What a loop of a link comes to. -/
def linkLoop (link : Link) (lines : List (UInt32 × Bool)) : DataProcess GateState :=
  innerLoop (GateState.replyInnerPing link) (linkDispatch link lines)

theorem processGsMessage_eq (pack : InnerPacket) (g : GateState) :
    processGsMessage P pack.id pack.body pack.transID (g.receive .game pack) =
      linkDispatch .game initGs pack g := by
  have hmap : (g.receive .game pack).playerIdMap_ = g.playerIdMap_ := rfl
  unfold processGsMessage linkDispatch uses
  rw [hmap]
  cases hp : g.playerIdMap_ pack.transID with
  | none => rfl
  | some p =>
      cases hd : dangles initGs pack.id g with
      | true => exact if_pos hd
      | false =>
          have hreg : g.inited = true → pack.id ≠ GS_GG_CLI_MSG := fun hin hid => by
            rw [(dangles_gs pack.id g).mpr ⟨hin, hid⟩] at hd
            cases hd
          refine (if_neg (Bool.eq_false_iff.mp hd)).trans ?_
          unfold GateState.processGsMessage
          rw [hmap, hp]
          cases hin : g.inited with
          | false => simp [GateState.receive, hin]
          | true => simp [GateState.receive, hin, hreg hin]

theorem processLoginMessage_eq (h : GateInv g) (pack : InnerPacket) :
    processLoginMessage P pack.id pack.body pack.transID (g.receive .login pack) =
      linkDispatch .login initLogin pack g := by
  have hmap : (g.receive .login pack).playerIdMap_ = g.playerIdMap_ := rfl
  have hinv : GateInv (g.receive .login pack) := h.of_eq rfl rfl rfl rfl rfl
  have heq := BlackSwan.processLoginMessage_eq (P := P) hinv pack.id pack.body pack.transID
  unfold processLoginMessage linkDispatch uses
  rw [hmap, heq]
  cases g.playerIdMap_ pack.transID <;> rfl

theorem onRecvServerData_eq (data : Bytes) (g : GateState) :
    onRecvServerData P data g = linkLoop .game initGs data g :=
  congrArg (fun dispatch => innerLoop (GateState.replyInnerPing .game) dispatch data g)
    (funext fun pack => funext fun g => processGsMessage_eq pack g)

theorem step_gameData {data : Bytes} (hs : step P g (.gameData data) = some g') :
    g.crashed = false ∧
      g' = GateState.settle id (linkLoop .game initGs data { g with cause := .link .game }) := by
  unfold step at hs
  split_ifs at hs with hc
  obtain rfl := Option.some.inj hs
  exact ⟨by simpa using hc, by rw [onRecvServerData_eq]⟩

theorem onRecvLoginData_eq (h : LinkInv g) (data : Bytes) :
    onRecvLoginData P data g = linkLoop .login initLogin data g := by
  apply recvLoop_congr (I := LinkInv) _ _ _ _ _ _ _ g h
  · intro g h
    exact replyInnerPing_inv h .login
  · intro pack g h
    exact processLoginMessage_eq h.inv pack
  · intro pack g h
    unfold linkDispatch
    split_ifs
    · trivial
    · exact receive_inv h .login pack

section LinkLoop

variable (link : Link) {lines : List (UInt32 × Bool)}

/-- A heartbeat is never parsed. -/
theorem not_uses_of_heartBeat (hb : ∀ line ∈ lines, isHeartBeat line.1 = false)
    (hnd : (lines.map Prod.fst).Nodup) {pack : InnerPacket} (h : isHeartBeat pack.id = true) :
    uses lines pack g = false := by
  unfold uses
  cases hd : dangles lines pack.id g with
  | false => simp
  | true =>
      have hline := hb _ ((dangles_iff hnd pack.id g).mp hd).2
      rw [h] at hline
      cases hline

/-- One packet of a link. -/
theorem linkDispatch_cases (hb : ∀ line ∈ lines, isHeartBeat line.1 = false)
    (hnd : (lines.map Prod.fst).Nodup) (pack : InnerPacket) (g : GateState) :
    if uses lines pack g then
      onPacket InnerPacket.id (GateState.replyInnerPing link) (linkDispatch link lines) pack g =
        .error .deleted (g.receive link pack)
    else ∃ g', onPacket InnerPacket.id (GateState.replyInnerPing link) (linkDispatch link lines)
      pack g = .ok () g' ∧ g'.playerIdMap_ = g.playerIdMap_ ∧ g'.inited = g.inited := by
  cases hbeat : isHeartBeat pack.id with
  | true =>
      rw [not_uses_of_heartBeat hb hnd hbeat]
      obtain hreq | hack := (isHeartBeat_iff pack.id).mp hbeat
      · exact ⟨_, if_pos hreq, rfl, rfl⟩
      · refine ⟨g, ?_, rfl, rfl⟩
        rw [onPacket, if_neg (by rw [hack]; decide), if_pos hack]
  | false =>
      obtain ⟨hreq, hack⟩ := not_or.mp fun h => by
        rw [(isHeartBeat_iff pack.id).mpr h] at hbeat
        cases hbeat
      rw [onPacket, if_neg hreq, if_neg hack]
      unfold linkDispatch
      cases uses lines pack g with
      | true => rfl
      | false => exact ⟨_, rfl, rfl, rfl⟩

/-- **A loop of a link returns** if none of its packets is parsed, and uses a deleted object
otherwise. -/
theorem linkLoop_returns_iff (hb : ∀ line ∈ lines, isHeartBeat line.1 = false)
    (hnd : (lines.map Prod.fst).Nodup) (packs : List InnerPacket) (g : GateState) :
    (∃ g', handleAll (onPacket InnerPacket.id (GateState.replyInnerPing link)
      (linkDispatch link lines)) packs g = .ok () g') ↔ ∀ pack ∈ packs, uses lines pack g = false := by
  have hbad : ∀ pack g, True → uses lines pack g = true → ∃ e g',
      onPacket InnerPacket.id (GateState.replyInnerPing link) (linkDispatch link lines) pack g =
        .error e g' := by
    intro pack g _ huse
    have hcases := linkDispatch_cases link hb hnd pack g
    rw [if_pos huse] at hcases
    exact ⟨_, _, hcases⟩
  have hgood : ∀ pack g, True → ¬ uses lines pack g = true → ∃ g',
      onPacket InnerPacket.id (GateState.replyInnerPing link) (linkDispatch link lines) pack g =
        .ok () g' ∧ True ∧ ∀ q, uses lines q g' = true ↔ uses lines q g = true := by
    intro pack g _ huse
    have hcases := linkDispatch_cases link hb hnd pack g
    rw [if_neg huse] at hcases
    obtain ⟨g', hok, hmap, hin⟩ := hcases
    refine ⟨g', hok, trivial, fun q => ?_⟩
    simp only [uses, dangles, messageMap, hmap, hin]
  simpa using handleAll_returns_iff hbad hgood packs g trivial

/-- The use of a deleted object is the only fault of a loop of a link. -/
theorem linkLoop_ends (lines : List (UInt32 × Bool)) (data : Bytes) (h : g.crashed = false) :
    Ends (fun g' => g'.crashed = false) (fun e _ => e = .deleted) (linkLoop link lines data g) := by
  refine ends_recvLoop (I := fun g => g.crashed = false) _ _ _ _ ?_ ?_ data g h
  · intro g h
    exact h
  · intro pack g h
    unfold linkDispatch
    split_ifs
    · rfl
    · exact h

/-- A buffer of a link ends the process exactly when one of its packets uses a deleted object. -/
theorem linkLoop_crashed (hb : ∀ line ∈ lines, isHeartBeat line.1 = false)
    (hnd : (lines.map Prod.fst).Nodup) (data : Bytes) (h : g.crashed = false) :
    (GateState.settle id (linkLoop link lines data g)).crashed = false ↔
      ∀ pack ∈ innerDecoder.frames data, uses lines pack g = false := by
  have hends := linkLoop_ends link lines data h
  have hret := linkLoop_returns_iff link hb hnd (innerDecoder.frames data) g
  unfold linkLoop innerLoop at hends ⊢
  rw [recvLoop_eq] at hends ⊢
  rw [← hret]
  cases hall : handleAll (onPacket InnerPacket.id (GateState.replyInnerPing link)
      (linkDispatch link lines)) (innerDecoder.frames data) g with
  | ok u g' =>
      rw [hall] at hends
      exact iff_of_true hends ⟨g', rfl⟩
  | error e g' =>
      rw [hall] at hends
      obtain rfl : e = .deleted := hends
      exact iff_of_false (by simp [GateState.settle]) (by simp)

end LinkLoop

end Dangling

end BlackSwan
