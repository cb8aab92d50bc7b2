import BlackSwan.GateLogin

/-! # The connections between the gate and the login server

For each session of the login server, what the gate has handed to the connection is what the server
has taken out of it (`done`), followed by what is still on the way (`todo`); and what the gate has found
in the bytes that came back, with what is still on the way to it (`left`), holds no more login answers
than the login server has given on that session.  Every step keeps this (`GateLogin.Inv`). -/

namespace BlackSwan

open Wire Runs
open Login (Intake IntakeEvent LoginAct LoginProto LoginServer Config Spoken Says gatePacket Progress)

/-! ### Packets -/

/-- Every message is small enough for a packet: protobuf makes no message of more than 2 GiB, and a
PTID has at most 63 characters. -/
structure Sizes (P : GateProto) (Q : LoginProto) : Prop where
  request : ∀ req, (P.serializeLoginReq req).length ≤ 2 ^ 31 - 1
  answer : ∀ ack, ack.ptid.length ≤ 63 → ack.abydatainfo = [] →
    (Q.serializeLoginAck ack).length ≤ 2 ^ 31 - 1
  kickoff : ∀ ptid, ptid.length ≤ 63 → (Q.serializeKickoff ptid).length ≤ 2 ^ 31 - 1

/-- The bytes are one packet. -/
def Framed (msg : Bytes) : Prop := ∃ m : InnerMsg, m.2.2.length ≤ 2 ^ 31 - 1 ∧ encodeInnerMsg m = msg

theorem framed_all {msgs : List Bytes} (h : ∀ msg ∈ msgs, Framed msg) :
    ∃ ms : List InnerMsg, (∀ m ∈ ms, m.2.2.length ≤ 2 ^ 31 - 1) ∧ ms.map encodeInnerMsg = msgs := by
  induction msgs with
  | nil => exact ⟨[], by simp, rfl⟩
  | cons msg msgs ih =>
      obtain ⟨m, hm, rfl⟩ := h msg List.mem_cons_self
      obtain ⟨ms, hms, rfl⟩ := ih fun msg' hmsg' => h msg' (List.mem_cons_of_mem _ hmsg')
      exact ⟨m :: ms, List.forall_mem_cons.mpr ⟨hm, hms⟩, rfl⟩

theorem framed_innerPing : Framed innerPing :=
  ⟨(CS_HeartBeat_Req, 0, GateState.PING), by decide, rfl⟩

theorem framed_innerPong : Framed innerPong :=
  ⟨(CS_HeartBeat_Ack, 0, GateState.PONG), by decide, rfl⟩

/-- A body that is small enough is sent with its own length. -/
theorem encodeInnerPacket_of_le {body : Bytes} (h : body.length ≤ 2 ^ 31 - 1) (msgId : UInt32)
    (t : TransID) : encodeInnerPacket msgId body
      (UInt32.ofNat (if body.length > 2 ^ 32 - 1 then 0 else body.length)) t =
        encodeInnerMsg (msgId, t, body) := by
  rw [if_neg (by omega)]
  rfl

variable {P : GateProto} {Q : LoginProto} {cfg : Config}

theorem loginMsg_eq (hsz : Sizes P Q) (id : PlayerID) (req : CliLoginReq) : loginMsg P id req =
    encodeInnerMsg (GG_LS_Login_REQ, id, P.serializeLoginReq (req.toLs req.clientversion)) :=
  encodeInnerPacket_of_le (hsz.request _) _ _

/-- The gate hands packets to the login server. -/
theorem framed_toLogin (hsz : Sizes P Q) {act : GateAct} (h : Speaks P act) {msg : Bytes}
    (hmsg : toLogin act = some msg) : Framed msg := by
  cases act with
  | upstream cause link msg' =>
      cases link with
      | game => cases hmsg
      | login =>
          obtain rfl := Option.some.inj hmsg
          cases cause with
          | client fd =>
              obtain ⟨-, id, req, body, -, rfl⟩ := h
              exact ⟨_, hsz.request _, (loginMsg_eq hsz id req).symm⟩
          | inner link t =>
              obtain rfl : msg' = innerPong := h
              exact framed_innerPong
          | link link =>
              obtain rfl : msg' = innerPong := h
              exact framed_innerPong
          | heartbeat =>
              obtain rfl : msg' = innerPing := h
              exact framed_innerPing
  | _ => cases hmsg

/-- The message is a login answer with the `transID`. -/
def isAnswer (u : UInt32) (m : InnerMsg) : Bool := m.1 == LS_GG_Login_ACK && m.2.1 == u.toUInt64

theorem length_says (hsz : Sizes P Q) {pl : Login.Player} (hpl : pl.szPTID_.length ≤ 63)
    {msgId : UInt32} {body : Bytes} (h : Says Q pl msgId body) : body.length ≤ 2 ^ 31 - 1 := by
  cases h with
  | fail error => exact hsz.answer _ (by simp) rfl
  | succ _ => exact hsz.answer _ hpl rfl
  | kickoff _ => exact hsz.kickoff _ hpl

/-- An entry of the login server's history hands at most one packet to the gate, which is an answer
if the entry is one. -/
theorem framed_entry (hsz : Sizes P Q) {s : LoginServer}
    (hpl : ∀ p, (s.players p).szPTID_.length ≤ 63) (fd : UInt32) {a : LoginAct} (ha : Spoken Q s a) :
    toGate fd a = none ∧ (∀ u, a.answered fd u = none) ∨
      ∃ m : InnerMsg, m.2.2.length ≤ 2 ^ 31 - 1 ∧ toGate fd a = some (encodeInnerMsg m) ∧
        ∀ u, (a.answered fd u).isSome = isAnswer u m := by
  cases a with
  | accepted p fd' t => exact .inl ⟨rfl, fun _ => rfl⟩
  | built p auth => exact .inl ⟨rfl, fun _ => rfl⟩
  | heartbeat fd' msg =>
      by_cases hfd : fd' = fd
      · obtain rfl | rfl : msg = innerPong ∨ msg = innerPing := ha
        · exact .inr ⟨(CS_HeartBeat_Ack, 0, GateState.PONG), by decide, if_pos hfd, fun _ => rfl⟩
        · exact .inr ⟨(CS_HeartBeat_Req, 0, GateState.PING), by decide, if_pos hfd, fun _ => rfl⟩
      · exact .inl ⟨if_neg hfd, fun _ => rfl⟩
  | sent c fd' msgId msg =>
      obtain ⟨p, body, rfl, -, hspeak, rfl⟩ := ha
      by_cases hfd : fd' = fd
      · have hlen := length_says hsz (hpl p) hspeak
        have henc := encodeInnerPacket_of_le hlen msgId (s.players p).trans_id_.toUInt32.toUInt64
        refine .inr ⟨(msgId, (s.players p).trans_id_.toUInt32.toUInt64, body), hlen, ?_, fun u => ?_⟩
        · rw [← henc]
          exact if_pos hfd
        · have hread : readWord (gatePacket msgId body (s.players p).trans_id_) 4 8 =
              some (s.players p).trans_id_.toUInt32.toUInt64.toNat := readWord_transID _ _ _ _
          have hu : (some (s.players p).trans_id_.toUInt32.toUInt64.toNat == some u.toNat) =
              ((s.players p).trans_id_.toUInt32.toUInt64 == u.toUInt64) := by
            rw [Bool.eq_iff_iff, beq_iff_eq, beq_iff_eq, Option.some.injEq, ← UInt64.toNat_inj,
              UInt32.toNat_toUInt64 u]
          simp only [LoginAct.answered, isAnswer, hread, hu, hfd, beq_self_eq_true, Bool.true_and]
          split_ifs with hc
          · exact hc.symm
          · exact (Bool.eq_false_iff.mpr hc).symm
      · exact .inl ⟨if_neg hfd, fun u => by simp [LoginAct.answered, hfd]⟩

/-- The login server hands packets to the gate, and as many of them are answers as its history
says. -/
theorem framed_toGate (hsz : Sizes P Q) {s : LoginServer}
    (hpl : ∀ p, (s.players p).szPTID_.length ≤ 63) (fd : UInt32) (l : List LoginAct)
    (h : ∀ a ∈ l, Spoken Q s a) : ∃ ms : List InnerMsg, (∀ m ∈ ms, m.2.2.length ≤ 2 ^ 31 - 1) ∧
      ms.map encodeInnerMsg = l.filterMap (toGate fd) ∧
      ∀ u, ms.countP (isAnswer u) = (l.filterMap (LoginAct.answered fd u)).length := by
  induction l with
  | nil => exact ⟨[], by simp, rfl, fun _ => rfl⟩
  | cons a l ih =>
      obtain ⟨ms, hms, hmap, hcount⟩ := ih fun a ha => h a (List.mem_cons_of_mem _ ha)
      obtain ⟨hno, hans⟩ | ⟨m, hm, hto, hans⟩ := framed_entry hsz hpl fd (h a List.mem_cons_self)
      · refine ⟨ms, hms, ?_, fun u => ?_⟩
        · rw [List.filterMap_cons_none hno, hmap]
        · rw [List.filterMap_cons_none (hans u), hcount]
      · refine ⟨m :: ms, List.forall_mem_cons.mpr ⟨hm, hms⟩, ?_, fun u => ?_⟩
        · rw [List.filterMap_cons_some hto, ← hmap, List.map_cons]
        · simp only [List.length_filterMap_eq_countP, List.countP_cons, hans] at hcount ⊢
          rw [hcount]

/-! ### The way to the login server -/

/-- More messages are on the way. -/
theorem Login.Progress.extend {fd : UInt32} {done todo : List InnerMsg} {r : Bytes} {s : Intake}
    (h : Progress fd done todo r s) (ms : List InnerMsg) : Progress fd done (todo ++ ms) r s where
  taken := h.taken
  split := h.split
  idle hidle := by
    have hp := h.idle hidle
    cases todo with
    | nil =>
        rw [show (s.readers fd).unread = [] from hp]
        cases ms with
        | nil => rfl
        | cons m ms => exact innerCode.encode_pos m
    | cons m todo => exact hp
  busy := h.busy

/-- The packets on a connection to the login server. -/
structure Upward (fd : UInt32) (x : GateLogin) (done todo : List InnerMsg) : Prop where
  valid : ∀ m ∈ done ++ todo, m.2.2.length ≤ 2 ^ 31 - 1
  handed : (done ++ todo).map encodeInnerMsg = x.handed fd
  progress : ∃ r, r ++ x.up fd = innerCode.stream (done ++ todo) ∧ Progress fd done todo r x.login

namespace Upward

variable {fd : UInt32} {x x' : GateLogin} {done todo : List InnerMsg}

theorem of_eq (h : Upward fd x done todo) (hup : x'.up fd = x.up fd)
    (hhanded : x'.handed fd = x.handed fd) (hlogin : x'.login = x.login) : Upward fd x' done todo where
  valid := h.valid
  handed := by rw [hhanded]; exact h.handed
  progress := by rw [hup, hlogin]; exact h.progress

/-- The gate hands more packets to the connection. -/
theorem push (h : Upward fd x done todo) {msgs : List Bytes} (hf : ∀ msg ∈ msgs, Framed msg)
    (hup : x'.up fd = x.up fd ++ msgs.flatten) (hhanded : x'.handed fd = x.handed fd ++ msgs)
    (hlogin : x'.login = x.login) : ∃ todo', Upward fd x' done todo' := by
  obtain ⟨ms, hms, rfl⟩ := framed_all hf
  obtain ⟨r, hr, hprog⟩ := h.progress
  refine ⟨todo ++ ms, ?_, ?_, r, ?_, ?_⟩
  · rw [← List.append_assoc]
    exact List.forall_mem_append.mpr ⟨h.valid, hms⟩
  · rw [hhanded, ← h.handed, ← List.append_assoc, List.map_append]
  · rw [hup, ← List.append_assoc, hr, ← List.append_assoc, innerCode.stream_append (done ++ todo)]
    rfl
  · rw [hlogin]
    exact hprog.extend ms

/-- A step of the login server, with the bytes that it takes from the connection. -/
theorem step (h : Upward fd x done todo) {e : IntakeEvent} (hs : x.login.step Q cfg e = some x'.login)
    (hup : x.up fd = Login.received fd [e] ++ x'.up fd) (hhanded : x'.handed fd = x.handed fd) :
    ∃ done' todo', Upward fd x' done' todo' := by
  obtain ⟨r, hr, hprog⟩ := h.progress
  obtain ⟨done', todo', hsplit, hprog'⟩ := hprog.step
    (fun m hm => h.valid m (List.mem_append_right _ hm)) ⟨_, hr⟩ hs
  refine ⟨done', todo', hsplit ▸ h.valid, ?_, _, ?_, hprog'⟩
  · rw [hhanded, ← hsplit]
    exact h.handed
  · rw [List.append_assoc, ← hup, hr, hsplit]

end Upward

/-! ### The way back -/

/-- The packets on a connection to the gate. -/
structure Downward (fd : UInt32) (x : GateLogin) (left : List InnerMsg) : Prop where
  answers : ∀ u, (x.found fd ++ left).countP (isAnswer u) ≤
    (x.login.server.history.filterMap (LoginAct.answered fd u)).length
  piped : x.link = some fd → innerCode.Piped BUF_SIZE left x.recvBuffer_ x.down

namespace Downward

variable {fd : UInt32} {x x' : GateLogin} {left : List InnerMsg}

/-- What is still on the way is lost, or another connection is concerned. -/
theorem drop (h : Downward fd x left) (hfound : x'.found fd = x.found fd)
    (hlogin : x'.login = x.login) (hlink : x'.link ≠ some fd) : Downward fd x' [] where
  answers u := by
    have ha := h.answers u
    rw [List.countP_append] at ha
    rw [hfound, hlogin, List.append_nil]
    omega
  piped hfd := absurd hfd hlink

theorem of_eq (h : Downward fd x left) (hfound : x'.found fd = x.found fd)
    (hlogin : x'.login = x.login) (hlink : x'.link = x.link) (hbuf : x'.recvBuffer_ = x.recvBuffer_)
    (hdown : x'.down = x.down) : Downward fd x' left where
  answers := by rw [hfound, hlogin]; exact h.answers
  piped := by rw [hlink, hbuf, hdown]; exact h.piped

end Downward

end BlackSwan
