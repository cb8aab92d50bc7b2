import BlackSwan.Game
import BlackSwan.LoginAccounts
import Mathlib.Data.UInt

/-! # The transparent id

The gate finds the player that an inner packet is for by its `transID`, so the servers behind it
have to send back the `transID` they were given.  It has 64 bits on the wire and in the gate, but
the handlers of the login server and the players of the game server take it as a `uint32_t`: what
comes back is the id modulo `2^32`, and the id is transparent exactly when it is below `2^32`. -/

namespace BlackSwan

open Wire Runs Tables

/-- The packet has `t` in its header, and whoever decodes it finds `t`. -/
structure Carries (t : TransID) (msg : Bytes) : Prop where
  header : readWord msg 4 8 = some t.toNat
  decoded : ∀ len pack, decodeInnerPacket msg len = .frame pack → pack.transID = t

theorem carries_of_header {t : TransID} {msg : Bytes} (h : readWord msg 4 8 = some t.toNat) :
    Carries t msg := by
  refine ⟨h, ?_⟩
  intro len pack hd
  unfold decodeInnerPacket at hd
  split_ifs at hd
  split at hd
  · rename_i hid htrans hsz
    rw [h] at htrans
    split_ifs at hd
    obtain rfl := Attempt.frame.inj hd
    rw [← Option.some.inj htrans]
    exact UInt64.ofNat_toNat
  · cases hd

/-- Every packet that the login server sends for a request that came with `t` carries `t`. -/
def LoginTransparent (t : TransID) : Prop :=
  ∀ (P : Login.LoginProto) (cfg : Login.Config) (es : List Login.LoginEvent) (s : Login.LoginServer),
    (Login.loginMachine P cfg).run es = some s → ∀ p fd, .accepted p fd t ∈ s.history →
    ∀ fd' msgId msg, .sent (some p) fd' msgId msg ∈ s.history → Carries t msg

/-- Every packet that the game server sends for a message that came with `t` carries `t`. -/
def GameTransparent (t : TransID) : Prop :=
  ∀ (es : List Game.GameEvent) (s : Game.GameServer), Game.gameMachine.run es = some s →
    ∀ fd msgId msg, .sent t fd msgId msg ∈ s.history → Carries t msg

theorem toUInt32_toNat_eq_iff (t : TransID) : t.toUInt32.toNat = t.toNat ↔ t.toNat < 2 ^ 32 := by
  rw [UInt64.toNat_toUInt32]
  constructor
  · intro h
    rw [← h]
    exact Nat.mod_lt _ (by decide)
  · exact Nat.mod_eq_of_lt

/-! ### The login server -/

namespace Login

/-- What comes back for a request is the `transID` modulo `2^32`. -/
theorem sent_transID {P : LoginProto} {cfg : Config} {es : List LoginEvent} {s : LoginServer}
    (h : (loginMachine P cfg).run es = some s) {p : ℕ} {fd fd' msgId : UInt32} {t : TransID}
    {msg : Bytes} (ha : .accepted p fd t ∈ s.history)
    (hm : .sent (some p) fd' msgId msg ∈ s.history) :
    readWord msg 4 8 = some t.toUInt32.toNat := by
  have ho := origins_of_run h
  obtain ⟨q, hq, -, -, hread⟩ := ho.sent _ fd' msgId msg hm
  obtain rfl := Option.some.inj hq
  rw [hread, (ho.accepted p fd t ha).2]
  simp

/-- An old client asks to log in, with the `transID` `t`. -/
def oldClient (t : TransID) : List LoginEvent :=
  [.addSession 1, .recvData 1 (encodeInnerMsg (GG_LS_Login_REQ, t, [])), .processMsg midnight]

theorem run_oldClient (t : TransID) : ∃ s,
    (loginMachine plainProto localTest).run (oldClient t) = some s ∧
    s.history = [.accepted 0 1 t, .sent (some 0) 1 LS_GG_Login_ACK
      (encodeInnerPacket LS_GG_Login_ACK [40, 216, 15] 3 t.toUInt32.toUInt64.toUInt32.toUInt64)] := by
  set s₁ : LoginServer := { (loginMachine plainProto localTest).init with
    session_map_ := Table.empty.emplace 1 ⟨1⟩ } with hs₁
  refine ⟨({ s₁ with handling := t } : LoginServer).recvGgLoginReq plainProto localTest
    (some (plainReq [])) 1 t.toUInt32 midnight, ?_, rfl⟩
  have hmachine : (loginMachine plainProto localTest).step =
      LoginServer.step plainProto localTest := rfl
  have hadd : LoginServer.step plainProto localTest (loginMachine plainProto localTest).init
      (.addSession 1) = some s₁ := rfl
  have hrecv : LoginServer.step plainProto localTest s₁
      (.recvData 1 (encodeInnerMsg (GG_LS_Login_REQ, t, []))) =
        some (s₁.pushMsg ⟨GG_LS_Login_REQ, t, 1, []⟩) := by
    unfold LoginServer.step
    rw [if_neg (by decide)]
    dsimp only
    rw [onRecvData_request 1 t (Nat.zero_le _)]
  have hprocess : LoginServer.step plainProto localTest
      (s₁.pushMsg ⟨GG_LS_Login_REQ, t, 1, []⟩) (.processMsg midnight) =
        some (({ s₁ with handling := t } : LoginServer).recvGgLoginReq plainProto localTest
          (some (plainReq [])) 1 t.toUInt32 midnight) := rfl
  simp only [Machine.run, oldClient, Machine.exec, hmachine, hadd, hrecv, hprocess,
    Option.bind_some]

theorem loginTransparent_iff (t : TransID) : LoginTransparent t ↔ t.toNat < 2 ^ 32 := by
  constructor
  · intro h
    obtain ⟨s, hrun, hhist⟩ := run_oldClient t
    have hacc : LoginAct.accepted 0 1 t ∈ s.history := by simp [hhist]
    obtain ⟨msg, hmsg⟩ : ∃ msg, .sent (some 0) 1 LS_GG_Login_ACK msg ∈ s.history :=
      ⟨_, by simp [hhist]; rfl⟩
    have hsame := (h _ _ _ s hrun 0 1 hacc 1 _ msg hmsg).header
    rw [sent_transID hrun hacc hmsg] at hsame
    exact (toUInt32_toNat_eq_iff t).mp (Option.some.inj hsame)
  · intro ht P cfg es s hrun p fd hacc fd' msgId msg hmsg
    apply carries_of_header
    rw [sent_transID hrun hacc hmsg, (toUInt32_toNat_eq_iff t).mpr ht]

end Login

/-! ### The game server -/

namespace Game

/-- A client asks for an echo, with the `transID` `t`. -/
def echo (t : TransID) : List GameEvent :=
  [.init, .recvData 1 (encodeInnerMsg (ECHO_REQ, t, [7]))]

/-- The request is answered, by a new player. -/
theorem step_echo (t : TransID) {s : GameServer} (h : s.playerFdMap_ = .empty) :
    ∃ pack : InnerPacket, pack.transID = t ∧
      GameServer.step s (.recvData 1 (encodeInnerMsg (ECHO_REQ, t, [7]))) =
        some ((s.receive pack).answered ECHO_REQ [7] 1 t.toUInt32) := by
  obtain ⟨pack, hpack, e⟩ := innerLoop_encode (GameServer.replyInnerPing 1)
    (fun pack s => (s.receive pack).handleMessage pack.id pack.body 1 pack.transID.toUInt32)
    (m := (ECHO_REQ, t, [7])) (by simp) rfl s
  obtain ⟨hid, hrest⟩ := Prod.mk.inj hpack
  obtain ⟨rfl, hbody⟩ := Prod.mk.inj hrest
  rw [hid, hbody, handleMessage_eq (s := s.receive pack) h] at e
  refine ⟨pack, rfl, ?_⟩
  rw [GameServer.step, GameServer.onRecvData, e]

theorem run_echo (t : TransID) : ∃ s, gameMachine.run (echo t) = some s ∧
    s.history = [.sent t 1 ECHO_RESP (encodeInnerPacket ECHO_RESP [7] 1 t.toUInt32.toUInt64)] := by
  obtain ⟨s₁, hinit, hF, hmap, hhist⟩ : ∃ s₁, gameMachine.step gameMachine.init .init = some s₁ ∧
      s₁.playerFdMap_ = .empty ∧ s₁.handleMap_ ECHO_REQ = some .HandleEchoReq ∧
      s₁.history = [] := ⟨_, rfl, rfl, rfl, rfl⟩
  obtain ⟨pack, rfl, hecho⟩ := step_echo t hF
  have hecho : gameMachine.step s₁ (.recvData 1 (encodeInnerMsg (ECHO_REQ, pack.transID, [7]))) =
      some ((s₁.receive pack).answered ECHO_REQ [7] 1 pack.transID.toUInt32) := hecho
  refine ⟨(s₁.receive pack).answered ECHO_REQ [7] 1 pack.transID.toUInt32, ?_, ?_⟩
  · simp only [Machine.run, echo, Machine.exec, hinit, hecho, Option.bind_some]
  · have hmap : (s₁.receive pack).handleMap_ ECHO_REQ = some .HandleEchoReq := hmap
    rw [GameServer.answered, hmap]
    show s₁.history ++ _ = _
    rw [hhist]
    rfl

theorem gameTransparent_iff (t : TransID) : GameTransparent t ↔ t.toNat < 2 ^ 32 := by
  constructor
  · intro h
    obtain ⟨s, hrun, hhist⟩ := run_echo t
    obtain ⟨msg, hmsg⟩ : ∃ msg, .sent t 1 ECHO_RESP msg ∈ s.history := ⟨_, by simp [hhist]; rfl⟩
    have hsame := (h _ s hrun 1 _ msg hmsg).header
    rw [(game_inv ⟨_, hrun⟩).sent t 1 _ msg hmsg] at hsame
    exact (toUInt32_toNat_eq_iff t).mp (Option.some.inj hsame)
  · intro ht es s hrun fd msgId msg hmsg
    apply carries_of_header
    rw [(game_inv ⟨es, hrun⟩).sent t fd msgId msg hmsg, (toUInt32_toNat_eq_iff t).mpr ht]

end Game

/-- **The id is transparent exactly below `2^32`**, in each of the two servers. -/
theorem transID_transparent_iff (t : TransID) :
    (LoginTransparent t ↔ t.toNat < 2 ^ 32) ∧ (GameTransparent t ↔ t.toNat < 2 ^ 32) :=
  ⟨Login.loginTransparent_iff t, Game.gameTransparent_iff t⟩

/-- The first id that does not fit comes back as 0 from both servers. -/
theorem transID_lost :
    (∃ s, (Login.loginMachine Login.plainProto Login.localTest).run
        (Login.oldClient (2 ^ 32)) = some s ∧
      s.history = [.accepted 0 1 (2 ^ 32), .sent (some 0) 1 LS_GG_Login_ACK
        (encodeInnerPacket LS_GG_Login_ACK [40, 216, 15] 3 0)]) ∧
    (∃ s, Game.gameMachine.run (Game.echo (2 ^ 32)) = some s ∧
      s.history = [.sent (2 ^ 32) 1 Game.ECHO_RESP (encodeInnerPacket Game.ECHO_RESP [7] 1 0)]) ∧
    ¬ LoginTransparent (2 ^ 32) ∧ ¬ GameTransparent (2 ^ 32) := by
  refine ⟨Login.run_oldClient (2 ^ 32), Game.run_echo (2 ^ 32), ?_, ?_⟩
  · rw [Login.loginTransparent_iff]
    decide
  · rw [Game.gameTransparent_iff]
    decide

end BlackSwan
