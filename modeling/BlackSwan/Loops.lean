import BlackSwan.Game
import BlackSwan.GateObjects
import BlackSwan.LoginRuns

/-! # The receive loops on arbitrary bytes

Whatever a peer sends, a receive loop stays inside the buffer it is given: it decodes packets from
the front, each of which is written back by the encoder as it was read, and it returns how many bytes
are left behind the last one.  The lengths that the decoders see are cut to 16 or 32 bits, but a
packet never reaches beyond the length that was seen, so the loops' own subtraction cannot wrap.

For the loops of the login server and of the game server that is all.  The loops of the gate can be
left in other ways.  A handler calls through a null pointer when an earlier packet of the buffer has
stopped the session, and it parses a login request, or a message of a server for a player, into an
object that its registration has deleted. -/

namespace BlackSwan

open Wire Runs Tables
open Login (LoginServer)
open Game (GameServer)

variable {π σ : Type}

/-! ### Any loop -/

/-- A loop that returns `r` has cut the buffer into packets and the last `r` bytes, and has stopped
because there is no packet at the front of those. -/
structure Cuts (D : Decoder π) (encode : π → Bytes) (data : Bytes) (r : ℕ) : Prop where
  le : r ≤ data.length
  split : ((D.frames data).map encode).flatten ++ data.drop (data.length - r) = data
  stops : data.drop (data.length - r) = [] ∨ D.attempt (data.drop (data.length - r)) = .short

/-- The loop returns, and has cut its buffer.  Reading outside the buffer, or subtracting more than is
left of it, would be a fault. -/
def Returns (D : Decoder π) (encode : π → Bytes) (data : Bytes) (call : Call σ ℕ) : Prop :=
  ∃ r s, call = .ok r s ∧ Cuts D encode data r

theorem cuts_rest {D : Decoder π} {encode : π → Bytes}
    (he : ∀ data p, D.attempt data = .frame p → encode p ++ data.drop (D.size p) = data)
    (data : Bytes) : Cuts D encode data (D.rest data).length := by
  refine ⟨D.length_rest_le data, ?_, ?_⟩
  · rw [D.rest_eq_drop]
    exact D.frames_append_rest he data
  · rw [D.rest_eq_drop]
    exact D.rest_stops data

/-- A loop returns exactly if its handlers do. -/
theorem returns_recvLoop_iff {D : Decoder π} {encode : π → Bytes}
    (he : ∀ data p, D.attempt data = .frame p → encode p ++ data.drop (D.size p) = data)
    (msgId : π → UInt32) (replyPing : σ → σ) (dispatch : π → σ → Call σ Unit) (data : Bytes) (s : σ) :
    Returns D encode data (recvLoop D msgId replyPing dispatch data s) ↔
      ∃ s', handleAll (onPacket msgId replyPing dispatch) (D.frames data) s = .ok () s' := by
  rw [recvLoop_eq]
  constructor
  · rintro ⟨r, s', hr, -⟩
    cases hall : handleAll (onPacket msgId replyPing dispatch) (D.frames data) s with
    | ok u s'' => exact ⟨s'', rfl⟩
    | error e s'' =>
        rw [hall] at hr
        cases hr
  · rintro ⟨s', hs'⟩
    rw [hs']
    exact ⟨_, s', rfl, cuts_rest he data⟩

/-- Handlers that keep an invariant and do not fail. -/
theorem returns_of_ends {D : Decoder π} {encode : π → Bytes}
    (he : ∀ data p, D.attempt data = .frame p → encode p ++ data.drop (D.size p) = data)
    {msgId : π → UInt32} {replyPing : σ → σ} {dispatch : π → σ → Call σ Unit} {data : Bytes} {s : σ}
    {I : σ → Prop}
    (h : Ends I (fun _ _ => False) (recvLoop D msgId replyPing dispatch data s)) :
    Returns D encode data (recvLoop D msgId replyPing dispatch data s) := by
  rw [returns_recvLoop_iff he]
  rw [recvLoop_eq] at h
  cases hall : handleAll (onPacket msgId replyPing dispatch) (D.frames data) s with
  | ok u s' => exact ⟨s', rfl⟩
  | error e s' =>
      rw [hall] at h
      exact h.elim

/-! ### The loops of the servers -/

/-- `encode_packet` of a packet that was decoded. -/
def Packet.encode (p : Packet) : Bytes := encodePacket p.id p.data p.sz

/-- `encode_inner_packet` of a packet that was decoded. -/
def InnerPacket.encode (p : InnerPacket) : Bytes := encodeInnerPacket p.id p.data p.sz p.transID

theorem Packet.encode_append (data : Bytes) (p : Packet) (h : clientDecoder.attempt data = .frame p) :
    p.encode ++ data.drop (clientDecoder.size p) = data := encodePacket_decodePacket h

theorem InnerPacket.encode_append (data : Bytes) (p : InnerPacket)
    (h : innerDecoder.attempt data = .frame p) :
    p.encode ++ data.drop (innerDecoder.size p) = data := encodeInnerPacket_decodeInnerPacket h

/-- All receive loops return, and have cut their buffers into packets: those of the gate in the state
`g` on a buffer of the client session `fd`, of the game server and of the login server, and those of
the login server in any state and of the game server in any reachable one. -/
structure LoopsSafe (P : GateProto) (g : GateState) (fd : UInt32) (client game login : Bytes) :
    Prop where
  onRecvClientData : Returns clientDecoder Packet.encode client
    (Dangling.onRecvClientData P fd client { g with cause := .client fd })
  onRecvServerData : Returns innerDecoder InnerPacket.encode game
    (Dangling.onRecvServerData P game { g with cause := .link .game })
  onRecvLoginData : Returns innerDecoder InnerPacket.encode login
    (Dangling.onRecvLoginData P login { g with cause := .link .login })
  loginServer : ∀ (fd' : UInt32) (s : LoginServer) (data : Bytes),
    Returns innerDecoder InnerPacket.encode data (LoginServer.onRecvData fd' data s)
  gameServer : ∀ (fd' : UInt32) (s : GameServer) (data : Bytes), Game.gameMachine.Reachable s →
    Returns innerDecoder InnerPacket.encode data (GameServer.onRecvData fd' data s)

/-- No loop of the gate leaves its buffer. -/
structure LoopsInBounds (P : GateProto) (g : GateState) (fd : UInt32) (client game login : Bytes) :
    Prop where
  onRecvClientData : faultOf (Dangling.onRecvClientData P fd client
    { g with cause := .client fd }) ≠ some .outOfBounds
  onRecvServerData : faultOf (Dangling.onRecvServerData P game
    { g with cause := .link .game }) ≠ some .outOfBounds
  onRecvLoginData : faultOf (Dangling.onRecvLoginData P login
    { g with cause := .link .login }) ≠ some .outOfBounds

/-- Of the packets of a connected session every one is handled to its end: there is no login request
once the messages are registered, and behind the first packet that is neither a heartbeat nor a login
request, which stops the session, there is none with an id between a client and the gate. -/
def returnsConnected (inited : Bool) : List Packet → Bool
  | [] => true
  | p :: ps =>
      if isHeartBeat p.id then returnsConnected inited ps
      else if p.id = CLI_GG_Login_REQ then !inited && returnsConnected inited ps
      else !ps.any fun q => inRange q.id

/-- The same, for any session. -/
def returns (fd : UInt32) (ps : List Packet) (g : GateState) : Bool :=
  if g.isConnected fd then returnsConnected g.inited ps else !ps.any fun p => inRange p.id

/-- No packet of a buffer of a link is parsed. -/
def unparsed (lines : List (UInt32 × Bool)) (data : Bytes) (g : GateState) : Bool :=
  (innerDecoder.frames data).all fun pack => !Dangling.uses lines pack g

/-- The loops of the gate return on the buffers. -/
def loopsOk (fd : UInt32) (client game login : Bytes) (g : GateState) : Bool :=
  returns fd (clientDecoder.frames client) g && unparsed initGs game g && unparsed initLogin login g

variable {P : GateProto} {g g' : GateState}

theorem SameIntake.returns (h : SameIntake g g') (fd : UInt32) (ps : List Packet) :
    BlackSwan.returns fd ps g' = BlackSwan.returns fd ps g := by
  simp only [BlackSwan.returns, h.isConnected, h.inited]

theorem inited_of_loginReq {inited : Bool} {pack : Packet} {req : CliLoginReq}
    (h : loginReq P inited pack = some req) : inited = true := by
  unfold loginReq at h
  cases inited with
  | false => simp at h
  | true => rfl

/-- The packets of a client buffer are handled to their end exactly if `returns` says so. -/
theorem handleAll_returns {fd : UInt32} (ps : List Packet) (h : ClientInv fd g) :
    (∃ g', handleAll (Dangling.handleClient P fd) ps g = .ok () g') ↔ returns fd ps g = true := by
  induction ps generalizing g with
  | nil => simp [handleAll, returns, returnsConnected]
  | cons p ps ih =>
      have heq := Dangling.handleClient_eq (P := P) h p
      simp only [handleAll]
      by_cases hcond : g.isConnected fd = true ∧ g.inited = true ∧ p.id = CLI_GG_Login_REQ
      · -- a login request is parsed into a deleted object
        rw [if_pos hcond] at heq
        obtain ⟨hc, hin, hid⟩ := hcond
        rw [heq]
        simp [returns, hc, returnsConnected, hin, hid, isHeartBeat_loginReq]
      rw [if_neg hcond] at heq
      have hinv := handleClient_inv (P := P) p h
      have hh := handleClient_handling (P := P) p h
      rw [heq]
      cases hr : handleClient P fd p g with
      | ok u g' =>
          rw [hr] at hinv hh
          rw [ih hinv]
          cases hh with
          | passed why same =>
              rw [same.returns]
              cases hc : g.isConnected fd with
              | false =>
                  simp only [hc, Bool.false_eq_true, if_false] at why
                  simp [returns, hc, why]
              | true =>
                  simp only [hc, if_true] at why
                  obtain hb | ⟨hb, hid, -⟩ := why
                  · simp [returns, hc, returnsConnected, hb]
                  · have hin : g.inited = false :=
                      Bool.eq_false_iff.mpr fun hin => hcond ⟨hc, hin, hid⟩
                    simp [returns, hc, returnsConnected, hid, hin, isHeartBeat_loginReq]
          | forwarded conn hid hreq => exact absurd ⟨conn, inited_of_loginReq hreq, hid⟩ hcond
          | stopped conn hb hid =>
              simp [returns, conn, isConnected_stop, returnsConnected, hb, hid]
      | error e g' =>
          rw [hr] at hh
          cases hh with
          | thrown conn hid hreq => exact absurd ⟨conn, inited_of_loginReq hreq, hid⟩ hcond
          | null conn hrange => simp [returns, conn, hrange]

theorem onRecvClientData_returns_iff {fd : UInt32} (h : ClientInv fd g) (data : Bytes) :
    Returns clientDecoder Packet.encode data (Dangling.onRecvClientData P fd data g) ↔
      returns fd (clientDecoder.frames data) g = true :=
  (returns_recvLoop_iff Packet.encode_append _ _ _ data g).trans (handleAll_returns _ h)

/-- A loop of a link returns exactly if it parses nothing. -/
theorem linkLoop_returns_iff (link : Link) (lines : List (UInt32 × Bool))
    (hb : ∀ line ∈ lines, isHeartBeat line.1 = false) (hnd : (lines.map Prod.fst).Nodup)
    (data : Bytes) (g : GateState) :
    Returns innerDecoder InnerPacket.encode data (Dangling.linkLoop link lines data g) ↔
      unparsed lines data g = true := by
  refine (returns_recvLoop_iff InnerPacket.encode_append _ _ _ data g).trans
    ((Dangling.linkLoop_returns_iff link hb hnd _ g).trans ?_)
  simp [unparsed]

/-- The loop over client packets does not leave the buffer, whatever its handlers do. -/
theorem onRecvClientData_in_bounds {fd : UInt32} (h : ClientInv fd g) (data : Bytes) :
    faultOf (Dangling.onRecvClientData P fd data g) ≠ some .outOfBounds := by
  obtain heq | ⟨s, heq⟩ := Dangling.endsAs_onRecvClientData (P := P) fd data g
  · have hends := onRecvClientData_inv (P := P) h data
    rw [heq]
    cases hr : GateState.onRecvClientData P fd data g with
    | ok r g' => simp [faultOf]
    | error e g' =>
        rw [hr] at hends
        intro he
        exact hends.2.1 (Option.some.inj he)
  · rw [heq]
    simp [faultOf]

theorem linkLoop_in_bounds {link : Link} (lines : List (UInt32 × Bool)) (data : Bytes)
    (hc : g.crashed = false) :
    faultOf (Dangling.linkLoop link lines data g) ≠ some .outOfBounds := by
  have hends := Dangling.linkLoop_ends link lines data hc
  cases hr : Dangling.linkLoop link lines data g with
  | ok r g' => simp [faultOf]
  | error e g' =>
      rw [hr] at hends
      obtain rfl : e = .deleted := hends
      simp [faultOf]

/-- **The receive loops are safe on arbitrary bytes, but for two faults of the gate's handlers.**  In
every reachable state of the gate and for all buffers, all loops return, with the buffer cut into the
packets that they decoded and the bytes that they leave, if and only if no packet of the client buffer
finds its session stopped by an earlier one and none of the three buffers has a message that is
parsed.  No loop ever reads outside the buffer. -/
theorem loops_safe_iff (P : GateProto) (es : List GateEvent) (g : GateState)
    (h : (danglingMachine P).run es = some g) (hc : g.crashed = false) (fd : UInt32)
    (client game login : Bytes) :
    (LoopsSafe P g fd client game login ↔ loopsOk fd client game login g = true) ∧
      LoopsInBounds P g fd client game login := by
  have hinv := gate_inv ⟨es, gate_of_dangling h hc⟩
  have hclient := clientInv_of_inv hinv hc fd
  have hsame : SameIntake g { g with cause := .client fd } := ⟨rfl, rfl, rfl⟩
  have hserver := Dangling.onRecvServerData_eq (P := P) game { g with cause := .link .game }
  have hlogin := Dangling.onRecvLoginData_eq (P := P) (linkInv_of_inv hinv hc .login) login
  have hiff := onRecvClientData_returns_iff (P := P) hclient client
  rw [hsame.returns] at hiff
  have hgame := linkLoop_returns_iff .game initGs isHeartBeat_initGs (by decide) game
    { g with cause := .link .game }
  have hls := linkLoop_returns_iff .login initLogin isHeartBeat_initLogin (by decide) login
    { g with cause := .link .login }
  rw [← hserver] at hgame
  rw [← hlogin] at hls
  refine ⟨⟨fun hsafe => ?_, fun hok => ?_⟩, ?_, ?_, ?_⟩
  · simp only [loopsOk, Bool.and_eq_true]
    exact ⟨⟨hiff.mp hsafe.onRecvClientData, hgame.mp hsafe.onRecvServerData⟩,
      hls.mp hsafe.onRecvLoginData⟩
  · simp only [loopsOk, Bool.and_eq_true] at hok
    refine ⟨hiff.mpr hok.1.1, hgame.mpr hok.1.2, hls.mpr hok.2, ?_, ?_⟩
    · intro fd' s data
      exact returns_of_ends InnerPacket.encode_append (Login.Calm.recvData s fd' data)
    · intro fd' s data hs
      exact returns_of_ends InnerPacket.encode_append ((Game.game_inv hs).onRecvData fd' data)
  · exact onRecvClientData_in_bounds hclient client
  · rw [hserver]
    exact linkLoop_in_bounds initGs game hc
  · rw [hlogin]
    exact linkLoop_in_bounds initLogin login hc

/-- A login request, a heartbeat, and two bytes of the next packet, for a gate that has registered
nothing yet. -/
def plainBuffer : Bytes :=
  encodePacket CLI_GG_Login_REQ [] 0 ++ (encodePacket CS_HeartBeat_Req [] 0 ++ [0, 0])

theorem loops_safe_plainBuffer : ∃ g, (danglingMachine plainProto).run [.accept 1] = some g ∧
    LoopsSafe plainProto g 1 plainBuffer (encodeInnerPacket GS_GG_CLI_MSG [] 0 1)
      (encodeInnerPacket CS_HeartBeat_Req [] 0 1) := by
  obtain ⟨g, h⟩ : ∃ g, (danglingMachine plainProto).run [.accept 1] = some g :=
    Option.isSome_iff_exists.mp (by decide +kernel)
  have hview : ((danglingMachine plainProto).run [.accept 1]).map (fun g => (g.crashed,
      loopsOk 1 plainBuffer (encodeInnerPacket GS_GG_CLI_MSG [] 0 1)
        (encodeInnerPacket CS_HeartBeat_Req [] 0 1) g)) = some (false, true) := by decide +kernel
  rw [h] at hview
  obtain ⟨hc, hret⟩ := Prod.mk.inj (Option.some.inj hview)
  exact ⟨g, h, (loops_safe_iff plainProto [.accept 1] g h hc 1 _ _ _).1.mpr hret⟩

/-- One login request for a gate that has registered its messages. -/
def loginBuffer : Bytes := encodePacket CLI_GG_Login_REQ [] 0

/-- A gate with a client, before and after its `init`: the loop over `fatalBuffer`, which is two whole
packets, and the one over a login request do not return. -/
theorem fatalBuffer_not_safe :
    (∃ g, (danglingMachine plainProto).run [.accept 1] = some g ∧ g.crashed = false ∧
      faultOf (Dangling.onRecvClientData plainProto 1 fatalBuffer { g with cause := .client 1 }) =
        some .nullCall ∧ ¬ LoopsSafe plainProto g 1 fatalBuffer [] []) ∧
    ∃ g, (danglingMachine plainProto).run [.linkChange .login true, .linkChange .game true, .init,
        .accept 1] = some g ∧ g.crashed = false ∧
      faultOf (Dangling.onRecvClientData plainProto 1 loginBuffer { g with cause := .client 1 }) =
        some .deleted ∧ ¬ LoopsSafe plainProto g 1 loginBuffer [] [] := by
  have key : ∀ {es : List GateEvent} {data : Bytes} {e : Fault},
      ((danglingMachine plainProto).run es).map (fun g => (g.crashed,
        faultOf (Dangling.onRecvClientData plainProto 1 data { g with cause := .client 1 }))) =
        some (false, some e) →
      ∃ g, (danglingMachine plainProto).run es = some g ∧ g.crashed = false ∧
        faultOf (Dangling.onRecvClientData plainProto 1 data { g with cause := .client 1 }) =
          some e ∧ ¬ LoopsSafe plainProto g 1 data [] [] := by
    intro es data e hview
    obtain ⟨g, hg, heq⟩ := Option.map_eq_some_iff.mp hview
    obtain ⟨hc, hf⟩ := Prod.mk.inj heq
    refine ⟨g, hg, hc, hf, fun hsafe => ?_⟩
    obtain ⟨r, g', hr, -⟩ := hsafe.onRecvClientData
    rw [hr] at hf
    cases hf
  exact ⟨key (by decide +kernel), key (by decide +kernel)⟩

end BlackSwan
