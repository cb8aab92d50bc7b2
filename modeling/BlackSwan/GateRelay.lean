import BlackSwan.GateObjects

/-! # What the game server sends to clients

A message of the game server for a client is to reach it as it is.  Before the messages are registered
nothing is sent for any body.  Afterwards the body is parsed into an object that its registration has
deleted, before a byte of it is handed on.  So no message ever reaches a client, and the gate does what
it is to do exactly when that is nothing: `relay_iff`. -/

namespace BlackSwan

open Wire Runs Tables

variable {P : GateProto} {g g' : GateState}

/-- The packets that have been handed to the session `fd`, in order. -/
def handed (fd : UInt32) (h : List GateAct) : List Bytes :=
  h.filterMap fun
    | .toClient _ fd' msg => if fd' = fd then some msg else none
    | _ => none

/-- The packet is a message for the client `t`. -/
def isFor (t : TransID) (pack : InnerPacket) : Bool := pack.id == GS_GG_CLI_MSG && pack.transID == t

/-- The bodies for the client `t` in a buffer of the game server. -/
def relayed (t : TransID) (data : Bytes) : List Bytes :=
  ((innerDecoder.frames data).filter (isFor t)).map InnerPacket.body

/-- What a client is to get for a body: one packet with the body, if the body parses and fits. -/
def relay (P : GateProto) (body : Bytes) : List Bytes :=
  if (P.toServerImage body).isSome && body.length ≤ 65535 then [encodeMsg (GS_GG_CLI_MSG, body)]
  else []

/-- In a step of the game link every client with a session is handed what it is to get, and the gate
goes on. -/
def Relays (P : GateProto) (g : GateState) (e : GateEvent) (g' : GateState) : Prop :=
  match e with
  | .gameData data => ∀ t p ps, g.playerIdMap_ t = some p → p.player_session_ = some ps →
      handed ps.client_session_ g'.history =
          handed ps.client_session_ g.history ++ (relayed t data).flatMap (relay P) ∧
        (relayed t data ≠ [] → g'.crashed = false)
  | _ => True

/-- The messages are not registered yet, and no body in a buffer of the game server for a player with a
session parses and fits. -/
def relaysOk (P : GateProto) (g : GateState) : GateEvent → Bool
  | .gameData data => (innerDecoder.frames data).all fun pack =>
      pack.id != GS_GG_CLI_MSG ||
        ((g.playerIdMap_ pack.transID).bind GatePlayer.player_session_).isNone ||
        (!g.inited && (relay P pack.body).isEmpty)
  | _ => true

/-! ### What is handed over -/

theorem handed_log (fd : UInt32) (act : GateAct) (g : GateState) :
    handed fd (g.log act).history = handed fd g.history ++ handed fd [act] := by
  simp only [GateState.log, handed, List.filterMap_append]

/-- Whatever a link sends, no client is handed anything. -/
theorem linkLoop_handed (link : Link) (lines : List (UInt32 × Bool)) (fd : UInt32) (data : Bytes)
    (g : GateState) : handed fd
      (GateState.settle id (Dangling.linkLoop link lines data g)).history = handed fd g.history := by
  have hends : Ends (fun g' => handed fd g'.history = handed fd g.history)
      (fun e g' => e = .deleted ∧ handed fd g'.history = handed fd g.history)
      (Dangling.linkLoop link lines data g) := by
    refine ends_recvLoop (I := fun g' => handed fd g'.history = handed fd g.history) _ _ _ _ ?_ ?_
      data g rfl
    · intro g' h
      rw [← h]
      exact (handed_log _ _ _).trans (List.append_nil _)
    · intro pack g' h
      unfold Dangling.linkDispatch
      split_ifs
      · exact ⟨rfl, h⟩
      · exact h
  cases hr : Dangling.linkLoop link lines data g with
  | ok r g' =>
      rw [hr] at hends
      exact hends
  | error e g' =>
      rw [hr] at hends
      obtain ⟨rfl, hh⟩ := hends
      exact hh

theorem relayed_ne_nil_iff (t : TransID) (data : Bytes) : relayed t data ≠ [] ↔
    ∃ pack ∈ innerDecoder.frames data, pack.id = GS_GG_CLI_MSG ∧ pack.transID = t := by
  simp [relayed, isFor, List.filter_eq_nil_iff]

/-- A buffer with a message for a player on file is survived only before the messages are
registered. -/
theorem gameData_crashed (hc : g.crashed = false) {t : TransID} {p : GatePlayer}
    (hp : g.playerIdMap_ t = some p) {data : Bytes} (hne : relayed t data ≠ []) :
    (GateState.settle id (Dangling.linkLoop .game initGs data g)).crashed = false ↔
      g.inited = false := by
  rw [Dangling.linkLoop_crashed .game isHeartBeat_initGs (by decide) data hc]
  constructor
  · intro h
    obtain ⟨pack, hmem, hid, ht⟩ := (relayed_ne_nil_iff t data).mp hne
    have huse := h pack hmem
    by_contra hin
    have hd : dangles initGs pack.id g = true :=
      (dangles_gs pack.id g).mpr ⟨by simpa using hin, hid⟩
    simp [Dangling.uses, ht, hp, hd] at huse
  · intro hin pack _
    have hd : dangles initGs pack.id g = false := by
      by_contra hd
      have hin' := ((dangles_gs pack.id g).mp (by simpa using hd)).1
      rw [hin] at hin'
      cases hin'
    simp [Dangling.uses, hd]

/-! ### When it is the body -/

theorem relaysOk_iff (data : Bytes) (g : GateState) :
    relaysOk P g (.gameData data) = true ↔ ∀ t p ps, g.playerIdMap_ t = some p →
      p.player_session_ = some ps →
        (relayed t data).flatMap (relay P) = [] ∧ (relayed t data ≠ [] → g.inited = false) := by
  simp only [relaysOk, List.all_eq_true, Bool.or_eq_true, bne_iff_ne, ne_eq, Bool.and_eq_true,
    Bool.not_eq_true', List.isEmpty_iff, List.flatMap_eq_nil_iff]
  constructor
  · intro h t p ps hp hps
    have hpack : ∀ pack ∈ innerDecoder.frames data, pack.id = GS_GG_CLI_MSG → pack.transID = t →
        g.inited = false ∧ relay P pack.body = [] := by
      intro pack hmem hid ht
      obtain (hne | hnone) | hok := h pack hmem
      · exact absurd hid hne
      · simp [ht, hp, hps] at hnone
      · exact hok
    refine ⟨fun body hbody => ?_, fun hne => ?_⟩
    · simp only [relayed, List.mem_map, List.mem_filter, isFor, Bool.and_eq_true, beq_iff_eq] at hbody
      obtain ⟨pack, ⟨hmem, hid, ht⟩, rfl⟩ := hbody
      exact (hpack pack hmem hid ht).2
    · obtain ⟨pack, hmem, hid, ht⟩ := (relayed_ne_nil_iff t data).mp hne
      exact (hpack pack hmem hid ht).1
  · intro h pack hmem
    by_cases hid : pack.id = GS_GG_CLI_MSG
    · cases hs : (g.playerIdMap_ pack.transID).bind GatePlayer.player_session_ with
      | none => exact .inl (.inr rfl)
      | some ps =>
          obtain ⟨p, hp, hps⟩ := Option.bind_eq_some_iff.mp hs
          obtain ⟨hbody, hin⟩ := h pack.transID p ps hp hps
          refine .inr ⟨hin ((relayed_ne_nil_iff _ data).mpr ⟨pack, hmem, hid, rfl⟩), hbody _ ?_⟩
          exact List.mem_map_of_mem (List.mem_filter.mpr ⟨hmem, by simp [isFor, hid]⟩)
    · exact .inl (.inl hid)

theorem step_relays {e : GateEvent} (hs : Dangling.step P g e = some g') :
    Relays P g e g' ↔ relaysOk P g e = true := by
  cases e with
  | gameData data =>
      obtain ⟨hc, rfl⟩ := Dangling.step_gameData hs
      rw [relaysOk_iff]
      refine forall₅_congr fun t p ps hp hps => ?_
      rw [linkLoop_handed]
      refine and_congr ?_ (forall_congr' fun hne => ?_)
      · exact List.self_eq_append_right
      · exact gameData_crashed (g := { g with cause := .link .game }) hc hp hne
  | accept fd => exact iff_of_true trivial rfl
  | clientData fd data => exact iff_of_true trivial rfl
  | disconnect fd => exact iff_of_true trivial rfl
  | peerGone fd => exact iff_of_true trivial rfl
  | loginData data => exact iff_of_true trivial rfl
  | linkChange link up => exact iff_of_true trivial rfl
  | clientPing fd => exact iff_of_true trivial rfl
  | linkPing link => exact iff_of_true trivial rfl
  | init => exact iff_of_true trivial rfl

theorem throughout_relays_iff {es : List GateEvent} (h : (danglingMachine P).run es = some g) :
    (danglingMachine P).Throughout (Relays P) es ↔
      (danglingMachine P).Along (fun g e => relaysOk P g e = true) es :=
  (danglingMachine P).throughout_iff_along (R := Relays P) (fun _ => True) trivial
    (fun _ _ _ _ hs => step_relays hs) (fun _ _ _ _ _ _ => trivial) h

/-- **What the game server sends reaches no client.**  In a run of the gate every client is handed, in
each step of the game link, one packet with the body for every message of the game server for it that
parses and fits, and nothing for any other, and the gate goes on, if and only if no step has a message
that is to be handed over, and none has a message for a player with a session once the messages are
registered. -/
theorem relay_iff (P : GateProto) (es : List GateEvent) (g : GateState)
    (h : (danglingMachine P).run es = some g) :
    (danglingMachine P).Throughout (Relays P) es ↔
      (danglingMachine P).Along (fun g e => relaysOk P g e = true) es :=
  throughout_relays_iff h

/-- A body that does not parse, for a client that is there, before the messages are registered. -/
def earlyMessage : List GateEvent :=
  [.accept 1, .gameData (encodeInnerMsg (GS_GG_CLI_MSG, 1, [7]))]

theorem relay_earlyMessage : ∃ g, (danglingMachine plainProto).run earlyMessage = some g ∧
    handed 1 g.history = [] ∧ g.crashed = false ∧
    (danglingMachine plainProto).Throughout (Relays plainProto) earlyMessage := by
  obtain ⟨g, h⟩ : ∃ g, (danglingMachine plainProto).run earlyMessage = some g :=
    Option.isSome_iff_exists.mp (by decide +kernel)
  have hview : ((danglingMachine plainProto).run earlyMessage).map
      (fun g => (handed 1 g.history, g.crashed)) = some ([], false) := by decide +kernel
  rw [h] at hview
  obtain ⟨hh, hc⟩ := Prod.mk.inj (Option.some.inj hview)
  exact ⟨g, h, hh, hc, (relay_iff plainProto earlyMessage g h).mpr (by decide +kernel)⟩

/-- The protobuf library for messages that hold at most a small `msgType`, and an address for the
virtual table of `PKG_CLI_TO_SERVER`, with whose bytes every such object begins. -/
def smallProto : GateProto where
  parseLoginReq _ := none
  serializeLoginReq _ := []
  parsesLoginAck _ := false
  parsesKickoff _ := false
  toServerImage
    | [] => some []
    | [8, msgType] => if msgType.toNat < 128 then some [0x50, 0x8d] else none
    | _ => none

/-- A message with `msgType` 1. -/
def smallMessage : List GateEvent :=
  [.linkChange .login true, .linkChange .game true, .init, .accept 1,
    .gameData (encodeInnerMsg (GS_GG_CLI_MSG, 1, [8, 1]))]

/-- The client is to get the message; it gets nothing, and the gate ends. -/
theorem relay_uses_deleted : ∃ g, (danglingMachine smallProto).run smallMessage = some g ∧
    relay smallProto [8, 1] = [encodeMsg (GS_GG_CLI_MSG, [8, 1])] ∧ handed 1 g.history = [] ∧
    g.crashed = true ∧ ¬ (danglingMachine smallProto).Throughout (Relays smallProto) smallMessage := by
  obtain ⟨g, h⟩ : ∃ g, (danglingMachine smallProto).run smallMessage = some g :=
    Option.isSome_iff_exists.mp (by decide +kernel)
  have hview : ((danglingMachine smallProto).run smallMessage).map
      (fun g => (handed 1 g.history, g.crashed)) = some ([], true) := by decide +kernel
  rw [h] at hview
  obtain ⟨hh, hc⟩ := Prod.mk.inj (Option.some.inj hview)
  refine ⟨g, h, rfl, hh, hc, ?_⟩
  rw [throughout_relays_iff h]
  decide +kernel

end BlackSwan
