import BlackSwan.LoginAccounts
import Mathlib.Data.UInt

/-! # The intake of the login server

Every gate session has a reader on an I/O thread, which collects what it reads in `recvBuffer_` and
calls `onRecvData`; that cuts packets out of the buffer and pushes them to `message_list_`.  The main
thread takes the list whole, in `onUpdate`, and handles its messages one after the other.

Here the calls are not atomic, as they are in `loginMachine`: one round of the loop of `onRecvData`,
one swap of the lists and one message are a step each, and the steps of all sessions and of the main
thread come in any order.  (`pushMsg` and the swap hold `message_list_mtx_`.)

`intake_lossless` says that nothing is lost, duplicated or reordered on the way, for any number of
sessions, and `intake_reachable` that the server gets into no other states than in `loginMachine`, so
that what holds in every state of the one holds in every state of the other. -/

namespace BlackSwan.Login

open Wire Runs Tables

/-! ### The model -/

/-- The reader of a gate session. -/
structure GateReader where
  recvBuffer_ : Bytes
  /-- while `onRecvData` is in progress, the bytes from `recv_buf` on, of which there are `len` -/
  recv_buf : Option Bytes
deriving DecidableEq, Repr

structure Intake where
  server : LoginServer
  readers : UInt32 → GateReader
  /-- what is left of the local list of `onUpdate` -/
  current_list : List MessageParam
  /-- what has been handed to `processMsg`; it is read by nothing else -/
  processed : List MessageParam

/-- What the loop of `onRecvData` does with a packet. -/
def LoginServer.onRecvPacket (fd : UInt32) : InnerPacket → LoginServer → Call LoginServer Unit :=
  onPacket InnerPacket.id (replyInnerPing fd) fun pack s =>
    .ok () (s.pushMsg ⟨pack.id, pack.transID, fd, pack.body⟩)

inductive IntakeEvent where
  /-- a read of a session has brought the bytes `buf`, and `onRecvData` is called -/
  | read (fd : UInt32) (buf : Bytes)
  /-- one round of the loop of `onRecvData`; the last one returns to the reader -/
  | round (fd : UInt32)
  /-- `onUpdate` takes the list -/
  | swap
  /-- `onUpdate` hands the next message to `processMsg` -/
  | processMsg (clock : Clock)
  /-- sessions that come and go, and everything about the AP -/
  | other (e : LoginEvent)
deriving DecidableEq, Repr

namespace Intake

/-- `onRecvData` returns the length of `data`, and the reader erases what was consumed. -/
def finish (data : Bytes) (r : GateReader) : GateReader :=
  let remaining := min data.length r.recvBuffer_.length
  let consumed := r.recvBuffer_.length - remaining
  ⟨if consumed > 0 then r.recvBuffer_.drop consumed else r.recvBuffer_, none⟩

def setReader (fd : UInt32) (r : GateReader) (s : Intake) : Intake :=
  { s with readers := Function.update s.readers fd r }

/-- One round of the loop of `onRecvData`. -/
def round (fd : UInt32) (data : Bytes) (s : Intake) : Intake :=
  let r := s.readers fd
  if data = [] then s.setReader fd (finish data r) else
  match innerDecoder.attempt data with
  | .fault => { s with server := { s.server with crashed := true } }
  | .short => s.setReader fd (finish data r)
  | .frame pack =>
      match LoginServer.onRecvPacket fd pack s.server with
      | .ok _ server =>
          ({ s with server } : Intake).setReader fd { r with recv_buf := some (data.drop pack.size) }
      | .error _ server => { s with server := { server with crashed := true } }

def step (P : LoginProto) (cfg : Config) (s : Intake) (e : IntakeEvent) : Option Intake :=
  if s.server.crashed then none else
  match e with
  | .read fd buf =>
      let r := s.readers fd
      if r.recv_buf.isNone ∧ 1 ≤ buf.length ∧ buf.length ≤ BUF_SIZE then
        some (s.setReader fd ⟨r.recvBuffer_ ++ buf, some (r.recvBuffer_ ++ buf)⟩)
      else none
  | .round fd => (s.readers fd).recv_buf.map fun data => s.round fd data
  | .swap =>
      if s.current_list = [] then
        some { s with
          current_list := s.server.message_list_
          server := { s.server with message_list_ := [] } }
      else none
  | .processMsg clock =>
      match s.current_list with
      | [] => none
      | m :: rest => some { s with
          server := s.server.processMsg P cfg m clock
          current_list := rest
          processed := s.processed ++ [m] }
  | .other (.recvData _ _) => none
  | .other (.processMsg _) => none
  | .other e => (s.server.step P cfg e).map fun server => { s with server }

end Intake

def intakeMachine (P : LoginProto) (cfg : Config) : Machine Intake IntakeEvent where
  init := {
    server := (loginMachine P cfg).init
    readers := fun _ => ⟨[], none⟩
    current_list := []
    processed := [] }
  step := Intake.step P cfg

/-- The bytes that a session has received in a run. -/
def received (fd : UInt32) (es : List IntakeEvent) : Bytes :=
  es.flatMap fun
    | .read fd' buf => if fd' = fd then buf else []
    | _ => []

/-- The messages of a session: what has been handed to `processMsg`, what is in the list that is
being drained, and what is in `message_list_`. -/
def Intake.taken (fd : UInt32) (s : Intake) : List MessageParam :=
  (s.processed ++ (s.current_list ++ s.server.message_list_)).filter fun m => m.gate_session_fd = fd

/-- The messages that a gate has sent, without heartbeats, as they come to the main thread. -/
def params (fd : UInt32) (ms : List InnerMsg) : List MessageParam :=
  (ms.filter fun m => !isHeartBeat m.1).map fun m => ⟨m.1, m.2.1, fd, m.2.2⟩

theorem params_append (fd : UInt32) (ms ns : List InnerMsg) :
    params fd (ms ++ ns) = params fd ms ++ params fd ns := by
  simp [params]

/-! ### The main thread does not look at the list

Nor do the handlers change it, so they commute with putting another list in its place. -/

namespace LoginServer

/-- The server with another list of messages. -/
def withList (l : List MessageParam) (s : LoginServer) : LoginServer := { s with message_list_ := l }

variable (P : LoginProto) (cfg : Config) (l : List MessageParam)

@[simp] theorem withList_players (s : LoginServer) : (s.withList l).players = s.players := rfl

theorem send_withList (p : ℕ) (msgId : UInt32) (body : Bytes) (s : LoginServer) :
    (s.withList l).send p msgId body = (s.send p msgId body).withList l := by
  rw [send_eq, send_eq]
  rfl

theorem changeState_withList (p : ℕ) (state : FsmStateType) (s : LoginServer) :
    (s.withList l).changeState p state = (s.changeState p state).withList l := by
  have hset : ∀ st, (s.withList l).setState p st = (s.setState p st).withList l := by
    intro st
    unfold setState
    split_ifs <;> rfl
  have hdestroy : (s.withList l).notifyOwnerDestroy p = (s.notifyOwnerDestroy p).withList l := by
    unfold notifyOwnerDestroy
    rw [withList_players]
    split_ifs <;> rfl
  unfold changeState
  rw [withList_players]
  split_ifs
  · rfl
  · rfl
  · split
    · exact hset _
    · exact hdestroy
    · exact hdestroy
    · exact hset _

theorem sendGateLoginFail_withList (p : ℕ) (errorCode : UInt32) (s : LoginServer) :
    (s.withList l).sendGateLoginFail P p errorCode = (s.sendGateLoginFail P p errorCode).withList l := by
  rw [sendGateLoginFail, send_withList, changeState_withList]
  rfl

theorem sendGateLoginSucc_withList (p : ℕ) (s : LoginServer) :
    (s.withList l).sendGateLoginSucc P p = (s.sendGateLoginSucc P p).withList l := by
  rw [sendGateLoginSucc, send_withList, changeState_withList]
  rfl

theorem kickOffPlayer_withList (ptid : Bytes) (s : LoginServer) :
    (s.withList l).kickOffPlayer P ptid = (s.kickOffPlayer P ptid).withList l := by
  unfold kickOffPlayer
  have hfind : ((s.withList l).pTIDMap_ ptid).bind (s.withList l).playerMap_ =
      (s.pTIDMap_ ptid).bind s.playerMap_ := rfl
  rw [hfind]
  cases (s.pTIDMap_ ptid).bind s.playerMap_ with
  | none => rfl
  | some q =>
      dsimp only
      rw [send_withList, changeState_withList]

/-- The end of a login. -/
theorem finishLogin_withList (p : ℕ) (ptid : Bytes) (s : LoginServer) :
    (((s.withList l).kickOffPlayer P ptid).setPTID p ptid).sendGateLoginSucc P p =
      (((s.kickOffPlayer P ptid).setPTID p ptid).sendGateLoginSucc P p).withList l := by
  rw [kickOffPlayer_withList]
  exact sendGateLoginSucc_withList P l p ((s.kickOffPlayer P ptid).setPTID p ptid)

theorem handleAPLoginReq_withList (p : ℕ) (clock : Clock) (s : LoginServer) :
    (s.withList l).handleAPLoginReq P cfg p clock = (s.handleAPLoginReq P cfg p clock).withList l := by
  have hloc : (s.withList l).localTestLogin P cfg p = (s.localTestLogin P cfg p).withList l := by
    unfold localTestLogin
    split_ifs
    · exact finishLogin_withList P l p _ s
    · rfl
  unfold handleAPLoginReq
  rw [hloc]
  dsimp only
  split_ifs <;> rfl

theorem loginOnEvent_withList (p : ℕ) (event : FsmEvent) (clock : Clock) (s : LoginServer) :
    (s.withList l).loginOnEvent P cfg p event clock =
      (s.loginOnEvent P cfg p event clock).withList l := by
  unfold loginOnEvent
  cases event with
  | apError auth error => exact sendGateLoginFail_withList P l p _ s
  | apSucc auth =>
      dsimp only
      rw [withList_players]
      by_cases h₁ : (s.players p).szAuthenID_ ≠ auth.getVal .gl_csAuthenID
      · rw [if_pos h₁, if_pos h₁]
      · rw [if_neg h₁, if_neg h₁]
        by_cases h₂ : (s.players p).auth_ID_ ≠ auth.auth_id_
        · rw [if_pos h₂, if_pos h₂]
        · rw [if_neg h₂, if_neg h₂]
          exact finishLogin_withList P l p _ s
  | gate msgID =>
      dsimp only
      split_ifs
      · exact handleAPLoginReq_withList P cfg l p clock s
      · rfl
  | global type => rfl

theorem onEvent_withList (p : ℕ) (event : FsmEvent) (clock : Clock) (s : LoginServer) :
    (s.withList l).onEvent P cfg p event clock = (s.onEvent P cfg p event clock).withList l := by
  have hvisit : ∀ state, (s.withList l).visit P cfg state p event clock =
      (s.visit P cfg state p event clock).withList l := by
    intro state
    cases state with
    | monostate => rfl
    | login => exact loginOnEvent_withList P cfg l p event clock s
    | online => rfl
    | global =>
        show (s.withList l).globalOnEvent p event = (s.globalOnEvent p event).withList l
        unfold globalOnEvent
        split
        · exact changeState_withList l p _ s
        · exact changeState_withList l p _ s
        · rfl
  unfold onEvent
  rw [withList_players]
  split_ifs
  · exact hvisit _
  · exact hvisit _

/-- **Handling a message does not depend on those behind it.** -/
theorem processMsg_withList (m : MessageParam) (clock : Clock) (s : LoginServer) :
    (s.withList l).processMsg P cfg m clock = (s.processMsg P cfg m clock).withList l := by
  unfold processMsg
  dsimp only
  split_ifs
  · cases P.parseLoginReq m.data with
    | none => rfl
    | some req =>
        rw [recvGgLoginReq_some, recvGgLoginReq_some]
        split_ifs
        · exact sendGateLoginFail_withList P l s.made LSERR_Old_Client
            (({ s with handling := m.transID } : LoginServer).accept m.gate_session_fd
              m.transID.toUInt32)
        · exact onEvent_withList P cfg l s.made (.gate GG_LS_Login_REQ) clock
            ((({ s with handling := m.transID } : LoginServer).accept m.gate_session_fd
              m.transID.toUInt32).updatePlayer s.made
                (Player.initLoginData req m.transID.toUInt32.toUInt64))
  · unfold onLogoffNtf
    cases P.parseLogoff m.data with
    | none => rfl
    | some ptid =>
        have hfind : ({ s.withList l with handling := m.transID } : LoginServer).findPlayer ptid =
            ({ s with handling := m.transID } : LoginServer).findPlayer ptid := rfl
        simp only [hfind]
        cases ({ s with handling := m.transID } : LoginServer).findPlayer ptid with
        | none => rfl
        | some p =>
            exact onEvent_withList P cfg l p (.global .EGET_LogoutNtf) clock
              { s with handling := m.transID }
  · rfl

theorem processApMsg_withList (m : APMsg) (clock : Clock) (s : LoginServer) :
    (s.withList l).processApMsg P cfg m clock = (s.processApMsg P cfg m clock).withList l := by
  have hap : ∀ auth event (s : LoginServer), (s.withList l).onAP P cfg auth event clock =
      (s.onAP P cfg auth event clock).withList l := by
    intro auth event s
    unfold onAP
    have hfile : (s.withList l).playerMap_ = s.playerMap_ := rfl
    rw [hfile]
    cases s.playerMap_ (strtoull (auth.getVal .gl_csHandle)) with
    | none => rfl
    | some p => exact onEvent_withList P cfg l p event clock s
  have hres : ∀ auth result errorCode (s : LoginServer),
      (s.withList l).onAPAuthenResult P cfg auth result errorCode clock =
        (s.onAPAuthenResult P cfg auth result errorCode clock).withList l := by
    intro auth result errorCode s
    cases result with
    | success => exact hap auth (.apSucc auth) s
    | _ => exact hap auth (.apError auth errorCode) s
  unfold processApMsg
  cases m.authInfo with
  | none => rfl
  | some auth =>
      dsimp only
      split_ifs
      · cases m.operation with
        | authen_ap =>
            exact hres auth m.result m.nErrorCode
              (s.operateResult (some auth) .authen_ap .time_out 2 clock.now)
        | _ => rfl
      · cases m.operation with
        | authen_ap => exact hres auth m.result m.nErrorCode s
        | _ => rfl

/-- What has nothing to do with the intake does not look at the list. -/
theorem step_withList {e : LoginEvent} (h₁ : ∀ fd data, e ≠ .recvData fd data)
    (h₂ : ∀ clock, e ≠ .processMsg clock) (s : LoginServer) :
    (s.withList l).step P cfg e = (s.step P cfg e).map (withList l) := by
  have hcrashed : (s.withList l).crashed = s.crashed := rfl
  unfold step
  rw [hcrashed]
  split_ifs
  · rfl
  · cases e with
    | recvData fd data => exact absurd rfl (h₁ fd data)
    | processMsg clock => exact absurd rfl (h₂ clock)
    | addSession fd => rfl
    | delSession fd => rfl
    | ping fd =>
        have hmap : (s.withList l).session_map_ = s.session_map_ := rfl
        dsimp only
        rw [hmap]
        split_ifs <;> rfl
    | operateResult auth operation result nErrorCode now => rfl
    | processApMsg clock =>
        have hlist : (s.withList l).apg_list_ = s.apg_list_ := rfl
        dsimp only
        rw [hlist]
        cases s.apg_list_ with
        | nil => rfl
        | cons m rest =>
            exact congrArg some (processApMsg_withList P cfg l m clock { s with apg_list_ := rest })

theorem processMsg_message_list_ (m : MessageParam) (clock : Clock) (s : LoginServer) :
    (s.processMsg P cfg m clock).message_list_ = s.message_list_ := by
  have hsame := processMsg_withList P cfg s.message_list_ m clock s
  exact congrArg (·.message_list_) hsame

theorem step_message_list_ {s s' : LoginServer} {e : LoginEvent} (hs : s.step P cfg e = some s')
    (h₁ : ∀ fd data, e ≠ .recvData fd data) (h₂ : ∀ clock, e ≠ .processMsg clock) :
    s'.message_list_ = s.message_list_ := by
  have hstep : s.step P cfg e = (s.step P cfg e).map (withList s.message_list_) :=
    step_withList P cfg s.message_list_ h₁ h₂ s
  rw [hs, Option.map_some, Option.some.injEq] at hstep
  exact congrArg (·.message_list_) hstep

end LoginServer

/-! ### One step -/

variable {P : LoginProto} {cfg : Config} {s s' : Intake} {fd : UInt32}

/-- A packet is pushed as a message, unless it is a heartbeat. -/
theorem onRecvPacket_eq (fd : UInt32) (pack : InnerPacket) (s : LoginServer) :
    ∃ s', LoginServer.onRecvPacket fd pack s = .ok () s' ∧
      s'.message_list_ = s.message_list_ ++ params fd [innerCode.view pack] := by
  unfold LoginServer.onRecvPacket onPacket
  by_cases hreq : pack.id = CS_HeartBeat_Req
  · refine ⟨s.replyInnerPing fd, if_pos hreq, ?_⟩
    simp [params, innerCode, isHeartBeat, hreq, LoginServer.replyInnerPing, LoginServer.log]
  · rw [if_neg hreq]
    by_cases hack : pack.id = CS_HeartBeat_Ack
    · refine ⟨s, if_pos hack, ?_⟩
      simp [params, innerCode, isHeartBeat, hack]
    · refine ⟨_, if_neg hack, ?_⟩
      simp [params, innerCode, isHeartBeat, hreq, hack, LoginServer.pushMsg]

/-- What is pushed for one session is not taken for another one. -/
theorem filter_params (fd fd' : UInt32) (ms : List InnerMsg) :
    (params fd' ms).filter (fun m => m.gate_session_fd = fd) = if fd' = fd then params fd ms else [] := by
  unfold params
  split_ifs with h
  · subst h
    simp [List.filter_map, Function.comp_def]
  · simp [List.filter_map, Function.comp_def, h]

/-- What a session has before it: the rest of the call in progress, or what the last one left. -/
def GateReader.unread (r : GateReader) : Bytes := r.recv_buf.getD r.recvBuffer_

/-- The state of a session that has received the bytes `r`: the messages `done` have been taken, and
what is unread is the front of the messages `todo`. -/
structure Progress (fd : UInt32) (done todo : List InnerMsg) (r : Bytes) (s : Intake) : Prop where
  taken : s.taken fd = params fd done
  split : r = innerCode.stream done ++ (s.readers fd).unread
  idle : (s.readers fd).recv_buf = none → innerCode.Pending todo (s.readers fd).unread
  busy : ∀ data, (s.readers fd).recv_buf = some data →
    data <:+ (s.readers fd).recvBuffer_ ∧ data.length < 2 ^ 32

namespace Progress

variable {done todo : List InnerMsg} {r : Bytes}

/-- A step of another session or of the main thread. -/
theorem of_eq (h : Progress fd done todo r s) (hr : s'.readers fd = s.readers fd)
    (ht : s'.taken fd = s.taken fd) : Progress fd done todo r s' where
  taken := ht.trans h.taken
  split := by rw [hr]; exact h.split
  idle := by rw [hr]; exact h.idle
  busy := by rw [hr]; exact h.busy

/-- What is left of a packet that is not whole is shorter than the packet. -/
theorem length_pending (hv : ∀ m ∈ todo, m.2.2.length ≤ 2 ^ 31 - 1) {buf : Bytes}
    (h : innerCode.Pending todo buf) : buf.length < 2 ^ 31 + 15 := by
  cases todo with
  | nil =>
      obtain rfl : buf = [] := h
      simp
  | cons m todo =>
      have hlt : buf.length < (encodeInnerMsg m).length := h
      have hm := hv m List.mem_cons_self
      rw [length_encodeInnerMsg hm, InnerMsgHeaderSize] at hlt
      omega

/-- A read. -/
theorem read (h : Progress fd done todo r s) (hv : ∀ m ∈ todo, m.2.2.length ≤ 2 ^ 31 - 1)
    (hidle : (s.readers fd).recv_buf = none) {buf : Bytes} (hbuf : buf.length ≤ BUF_SIZE) :
    Progress fd done todo (r ++ buf) (s.setReader fd
      ⟨(s.readers fd).recvBuffer_ ++ buf, some ((s.readers fd).recvBuffer_ ++ buf)⟩) := by
  have hunread : (s.readers fd).unread = (s.readers fd).recvBuffer_ := by
    rw [GateReader.unread, hidle, Option.getD_none]
  have hpend := length_pending hv (h.idle hidle)
  have hself : (s.setReader fd ⟨(s.readers fd).recvBuffer_ ++ buf,
      some ((s.readers fd).recvBuffer_ ++ buf)⟩).readers fd =
        ⟨(s.readers fd).recvBuffer_ ++ buf, some ((s.readers fd).recvBuffer_ ++ buf)⟩ :=
    Function.update_self _ _ _
  constructor
  · exact h.taken
  · rw [hself, h.split, hunread, List.append_assoc]
    rfl
  · intro hnone
    rw [hself] at hnone
    cases hnone
  · intro data hdata
    rw [hself] at hdata ⊢
    obtain rfl := Option.some.inj hdata
    refine ⟨List.suffix_refl _, ?_⟩
    rw [hunread] at hpend
    rw [List.length_append]
    unfold BUF_SIZE at hbuf
    omega

/-- The reader erases what was consumed, and keeps what is left. -/
theorem finish_eq {data : Bytes} {rd : GateReader} (h : data <:+ rd.recvBuffer_) :
    Intake.finish data rd = ⟨data, none⟩ := by
  have hdrop := List.suffix_iff_eq_drop.mp h
  unfold Intake.finish
  rw [min_eq_left h.length_le]
  dsimp only
  split_ifs with hpos
  · rw [← hdrop]
  · rw [Nat.eq_zero_of_not_pos hpos, List.drop_zero] at hdrop
    rw [← hdrop]

/-- The loop ends: the reader waits for the rest of the next packet. -/
theorem finish (h : Progress fd done todo r s) {data : Bytes}
    (hbusy : (s.readers fd).recv_buf = some data) (hpend : innerCode.Pending todo data) :
    Progress fd done todo r (s.setReader fd (Intake.finish data (s.readers fd))) := by
  have hself : (s.setReader fd (Intake.finish data (s.readers fd))).readers fd = ⟨data, none⟩ := by
    rw [finish_eq (h.busy data hbusy).1]
    exact Function.update_self _ _ _
  have hunread : (s.readers fd).unread = data := by rw [GateReader.unread, hbusy, Option.getD_some]
  constructor
  · exact h.taken
  · rw [hself, h.split, hunread]
    rfl
  · intro _
    rw [hself]
    exact hpend
  · intro data' hdata'
    rw [hself] at hdata'
    cases hdata'

/-- The loop goes on behind a packet. -/
theorem packet {m : InnerMsg} (h : Progress fd done (m :: todo) r s) {data d : Bytes}
    (hbusy : (s.readers fd).recv_buf = some data) (hdata : data = innerCode.encode m ++ d)
    {server : LoginServer}
    (hserver : server.message_list_ = s.server.message_list_ ++ params fd [m]) :
    Progress fd (done ++ [m]) todo r
      (({ s with server } : Intake).setReader fd { s.readers fd with recv_buf := some d }) := by
  have hunread : (s.readers fd).unread = data := by rw [GateReader.unread, hbusy, Option.getD_some]
  obtain ⟨hsuffix, hlt⟩ := h.busy data hbusy
  have hself : (({ s with server } : Intake).setReader fd
      { s.readers fd with recv_buf := some d }).readers fd =
        { s.readers fd with recv_buf := some d } := Function.update_self _ _ _
  constructor
  · show (s.processed ++ (s.current_list ++ server.message_list_)).filter _ = _
    rw [hserver, params_append, ← h.taken, Intake.taken]
    simp only [List.filter_append, filter_params, if_true, List.append_assoc]
  · rw [hself, h.split, hunread, hdata, innerCode.stream_append, List.append_assoc]
    show _ = innerCode.stream done ++ (innerCode.encode m ++ [] ++ d)
    rw [List.append_nil]
  · intro hnone
    rw [hself] at hnone
    cases hnone
  · intro d' hd'
    rw [hself] at hd' ⊢
    obtain rfl := Option.some.inj hd'
    have hd : d <:+ data := hdata ▸ List.suffix_append _ _
    exact ⟨hd.trans hsuffix, Nat.lt_of_le_of_lt hd.length_le hlt⟩

/-- **One round of the loop.** -/
theorem round (h : Progress fd done todo r s) (hv : ∀ m ∈ todo, m.2.2.length ≤ 2 ^ 31 - 1)
    {tail : Bytes} (htail : r ++ tail = innerCode.stream (done ++ todo)) {data : Bytes}
    (hbusy : (s.readers fd).recv_buf = some data) :
    ∃ done' todo', done ++ todo = done' ++ todo' ∧ Progress fd done' todo' r (s.round fd data) := by
  have hunread : (s.readers fd).unread = data := by rw [GateReader.unread, hbusy, Option.getD_some]
  have hfront : data ++ tail = innerCode.stream todo := by
    rw [h.split, hunread, innerCode.stream_append, List.append_assoc,
      List.append_cancel_left_eq] at htail
    exact htail
  unfold Intake.round
  rcases innerCode.attempt_stream hv hfront (h.busy data hbusy).2 with
    ⟨m, todo', d, pack, rfl, rfl, -, ha, hview, hdrop⟩ | ⟨hno, hpend⟩
  · have hne : innerCode.encode m ++ d ≠ [] := by
      intro he
      have hpos := innerCode.encode_pos m
      rw [(List.append_eq_nil_iff.mp he).1] at hpos
      simp at hpos
    obtain ⟨server, hok, hserver⟩ := onRecvPacket_eq fd pack s.server
    rw [hview] at hserver
    have hdrop : (innerCode.encode m ++ d).drop pack.size = d := hdrop
    refine ⟨done ++ [m], todo', by simp, ?_⟩
    simp only [if_neg hne, ha, hok, hdrop]
    exact h.packet hbusy rfl hserver
  · refine ⟨done, todo, rfl, ?_⟩
    obtain rfl | ha := hno
    · rw [if_pos rfl]
      exact h.finish hbusy hpend
    · by_cases hd : data = []
      · rw [if_pos hd]
        exact h.finish hbusy hpend
      · simp only [if_neg hd, ha]
        exact h.finish hbusy hpend

end Progress

/-! ### Runs -/

/-- A round of another session. -/
theorem round_of_ne {fd' : UInt32} (hne : fd ≠ fd') (data : Bytes) (s : Intake) :
    (s.round fd' data).readers fd = s.readers fd ∧ (s.round fd' data).taken fd = s.taken fd := by
  have hset : ∀ (s : Intake) r, (s.setReader fd' r).readers fd = s.readers fd :=
    fun s r => Function.update_of_ne hne _ _
  unfold Intake.round
  split_ifs
  · exact ⟨hset _ _, rfl⟩
  · cases innerDecoder.attempt data with
    | fault => exact ⟨rfl, rfl⟩
    | short => exact ⟨hset _ _, rfl⟩
    | frame pack =>
        obtain ⟨server, hok, hserver⟩ := onRecvPacket_eq fd' pack s.server
        simp only [hok]
        refine ⟨hset _ _, ?_⟩
        show (s.processed ++ (s.current_list ++ server.message_list_)).filter _ = _
        rw [hserver, Intake.taken]
        simp only [List.filter_append, filter_params, if_neg hne.symm, List.append_nil]

/-- What the step of an event does, and when it is possible. -/
def Intake.Stepped (P : LoginProto) (cfg : Config) (s : Intake) (e : IntakeEvent) (s' : Intake) :
    Prop :=
  match e with
  | .read fd buf => (s.readers fd).recv_buf = none ∧ buf.length ≤ BUF_SIZE ∧ s' = s.setReader fd
      ⟨(s.readers fd).recvBuffer_ ++ buf, some ((s.readers fd).recvBuffer_ ++ buf)⟩
  | .round fd => ∃ data, (s.readers fd).recv_buf = some data ∧ s' = s.round fd data
  | .swap => s.current_list = [] ∧ s' = { s with
      current_list := s.server.message_list_
      server := { s.server with message_list_ := [] } }
  | .processMsg clock => ∃ m rest, s.current_list = m :: rest ∧ s' = { s with
      server := s.server.processMsg P cfg m clock
      current_list := rest
      processed := s.processed ++ [m] }
  | .other e => (∀ fd data, e ≠ .recvData fd data) ∧ (∀ clock, e ≠ .processMsg clock) ∧
      ∃ server, s.server.step P cfg e = some server ∧ s' = { s with server }

theorem Intake.step_cases {e : IntakeEvent} (hs : s.step P cfg e = some s') :
    s.Stepped P cfg e s' := by
  have hc : s.server.crashed = false := by
    by_contra hc
    simp [Intake.step, hc] at hs
  unfold Intake.step at hs
  rw [if_neg (by simp [hc])] at hs
  cases e with
  | read fd buf =>
      simp only [Option.ite_none_right_eq_some, Option.isNone_iff_eq_none, Option.some.injEq] at hs
      obtain ⟨⟨hidle, -, hbuf⟩, rfl⟩ := hs
      exact ⟨hidle, hbuf, rfl⟩
  | round fd =>
      obtain ⟨data, hdata, rfl⟩ := Option.map_eq_some_iff.mp hs
      exact ⟨data, hdata, rfl⟩
  | swap =>
      simp only [Option.ite_none_right_eq_some, Option.some.injEq] at hs
      exact ⟨hs.1, hs.2.symm⟩
  | processMsg clock =>
      cases hlist : s.current_list with
      | nil => simp [hlist] at hs
      | cons m rest =>
          simp only [hlist, Option.some.injEq] at hs
          exact ⟨m, rest, hlist, hs.symm⟩
  | other e =>
      cases e with
      | recvData fd data => cases hs
      | processMsg clock => cases hs
      | addSession fd =>
          obtain ⟨server, hserver, rfl⟩ := Option.map_eq_some_iff.mp hs
          exact ⟨by simp, by simp, server, hserver, rfl⟩
      | delSession fd =>
          obtain ⟨server, hserver, rfl⟩ := Option.map_eq_some_iff.mp hs
          exact ⟨by simp, by simp, server, hserver, rfl⟩
      | ping fd =>
          obtain ⟨server, hserver, rfl⟩ := Option.map_eq_some_iff.mp hs
          exact ⟨by simp, by simp, server, hserver, rfl⟩
      | operateResult auth operation result nErrorCode now =>
          obtain ⟨server, hserver, rfl⟩ := Option.map_eq_some_iff.mp hs
          exact ⟨by simp, by simp, server, hserver, rfl⟩
      | processApMsg clock =>
          obtain ⟨server, hserver, rfl⟩ := Option.map_eq_some_iff.mp hs
          exact ⟨by simp, by simp, server, hserver, rfl⟩

theorem received_snoc (fd : UInt32) (es : List IntakeEvent) (e : IntakeEvent) :
    received fd (es ++ [e]) = received fd es ++ received fd [e] := by
  simp [received]

/-- One step, for a session whose bytes are the front of the stream of `done ++ todo`. -/
theorem Progress.step {done todo : List InnerMsg} {r : Bytes} {e : IntakeEvent}
    (h : Progress fd done todo r s) (hv : ∀ m ∈ todo, m.2.2.length ≤ 2 ^ 31 - 1)
    (hr : r <+: innerCode.stream (done ++ todo)) (hs : s.step P cfg e = some s') :
    ∃ done' todo', done ++ todo = done' ++ todo' ∧
      Progress fd done' todo' (r ++ received fd [e]) s' := by
  have hcase := Intake.step_cases hs
  cases e with
  | read fd' buf =>
      obtain ⟨hidle, hbuf, rfl⟩ := hcase
      refine ⟨done, todo, rfl, ?_⟩
      by_cases hfd : fd' = fd
      · subst hfd
        simpa [received] using h.read hv hidle hbuf
      · rw [show received fd [.read fd' buf] = [] by simp [received, hfd], List.append_nil]
        exact h.of_eq (Function.update_of_ne (Ne.symm hfd) _ _) rfl
  | round fd' =>
      obtain ⟨data, hdata, rfl⟩ := hcase
      rw [show received fd [.round fd'] = [] from rfl, List.append_nil]
      by_cases hfd : fd' = fd
      · subst hfd
        obtain ⟨tail, htail⟩ := hr
        exact h.round hv htail hdata
      · obtain ⟨hrd, htaken⟩ := round_of_ne (Ne.symm hfd) data s
        exact ⟨done, todo, rfl, h.of_eq hrd htaken⟩
  | swap =>
      obtain ⟨hnil, rfl⟩ := hcase
      refine ⟨done, todo, rfl, ?_⟩
      rw [show received fd [.swap] = [] from rfl, List.append_nil]
      exact h.of_eq rfl (by simp [Intake.taken, hnil])
  | processMsg clock =>
      obtain ⟨m, rest, hlist, rfl⟩ := hcase
      refine ⟨done, todo, rfl, ?_⟩
      rw [show received fd [.processMsg clock] = [] from rfl, List.append_nil]
      refine h.of_eq rfl ?_
      unfold Intake.taken
      rw [LoginServer.processMsg_message_list_, hlist]
      simp
  | other e =>
      obtain ⟨h₁, h₂, server, hserver, rfl⟩ := hcase
      refine ⟨done, todo, rfl, ?_⟩
      rw [show received fd [.other e] = [] from rfl, List.append_nil]
      refine h.of_eq rfl ?_
      unfold Intake.taken
      rw [LoginServer.step_message_list_ P cfg hserver h₁ h₂]

/-- Every session makes progress of its own, whatever the other ones send. -/
theorem progress_of_run {msgs : List InnerMsg} (hv : ∀ m ∈ msgs, m.2.2.length ≤ 2 ^ 31 - 1)
    {es : List IntakeEvent} (h : (intakeMachine P cfg).run es = some s)
    (hr : received fd es <+: innerCode.stream msgs) :
    ∃ done todo, msgs = done ++ todo ∧ Progress fd done todo (received fd es) s := by
  refine (intakeMachine P cfg).run_induction (P := fun es s =>
    received fd es <+: innerCode.stream msgs →
      ∃ done todo, msgs = done ++ todo ∧ Progress fd done todo (received fd es) s) ?_ ?_ h hr
  · intro _
    refine ⟨[], msgs, rfl, ⟨rfl, rfl, fun _ => ?_, fun data hd => by cases hd⟩⟩
    cases msgs with
    | nil => rfl
    | cons m msgs => exact innerCode.encode_pos m
  · intro es s e s' _ ih hstep hr
    rw [received_snoc] at hr ⊢
    have hr' : received fd es <+: innerCode.stream msgs := (List.prefix_append _ _).trans hr
    obtain ⟨done, todo, rfl, hprog⟩ := ih hr'
    exact hprog.step (fun m hm => hv m (List.mem_append_right _ hm)) hr' hstep

/-- **The intake loses, duplicates and reorders nothing.**  Let a gate send the packets `msgs`, and let
its session have received the front of that stream, in whatever pieces, in whatever order the
threads have run.  While no `onRecvData` of the session is in progress, the messages that the main
thread has handled for the session, followed by those it is draining and those in `message_list_`,
are the packets that are whole in what was received, without heartbeats. -/
theorem intake_lossless (P : LoginProto) (cfg : Config) (es : List IntakeEvent) (s : Intake)
    (h : (intakeMachine P cfg).run es = some s) (fd : UInt32) (msgs : List InnerMsg)
    (hlen : ∀ m ∈ msgs, m.2.2.length ≤ 2 ^ 31 - 1)
    (hsent : received fd es <+: (msgs.map encodeInnerMsg).flatten)
    (hidle : (s.readers fd).recv_buf = none) :
    s.taken fd = params fd (innerCode.whole msgs (received fd es).length) := by
  obtain ⟨done, todo, rfl, hprog⟩ := progress_of_run hlen h hsent
  have hlength : (received fd es).length =
      (innerCode.stream done).length + (s.readers fd).unread.length := by
    rw [hprog.split, List.length_append]
  rw [hlength, innerCode.whole_append, innerCode.whole_of_pending (hprog.idle hidle),
    List.append_nil]
  exact hprog.taken

/-! ### The intake and the login server

What `loginMachine` does in one step of `recvData` takes several rounds here, and other threads run in
between.  Still, the server never gets into a state that it cannot get into with whole steps: one
round is the receipt of one packet. -/

/-- The server with the messages that are being drained back in its list. -/
def Intake.whole (s : Intake) : LoginServer :=
  s.server.withList (s.current_list ++ s.server.message_list_)

/-- What a packet leads to depends on what it says only, and its message is pushed last. -/
theorem onRecvPacket_withList {fd : UInt32} {pack pack' : InnerPacket}
    (hview : innerCode.view pack' = innerCode.view pack) {server server' : LoginServer}
    (h : LoginServer.onRecvPacket fd pack server = .ok () server') (l : List MessageParam) :
    LoginServer.onRecvPacket fd pack' (server.withList (l ++ server.message_list_)) =
      .ok () (server'.withList (l ++ server'.message_list_)) := by
  obtain ⟨hid, ht, hbody⟩ : pack'.id = pack.id ∧ pack'.transID = pack.transID ∧
      pack'.body = pack.body := by simpa [innerCode] using hview
  unfold LoginServer.onRecvPacket onPacket at h ⊢
  rw [hid]
  split_ifs at h ⊢
  · cases h
    rfl
  · cases h
    rfl
  · cases h
    simp [LoginServer.pushMsg, LoginServer.withList, hid, ht, hbody]

/-- A round that finds a packet is the receipt of its bytes. -/
theorem onRecvData_whole {data : Bytes} {pack : InnerPacket}
    (ha : innerDecoder.attempt data = .frame pack) {server : LoginServer}
    (h : LoginServer.onRecvPacket fd pack s.server = .ok () server) :
    LoginServer.onRecvData fd (data.take pack.size) s.whole =
      .ok 0 (server.withList (s.current_list ++ server.message_list_)) := by
  obtain ⟨pack', hview, hframes, hrest⟩ := parse_take_size ha
  have hpush : onPacket InnerPacket.id (LoginServer.replyInnerPing fd) (fun pack s =>
      .ok () (s.pushMsg ⟨pack.id, pack.transID, fd, pack.body⟩)) pack' s.whole = _ :=
    onRecvPacket_withList hview h s.current_list
  rw [LoginServer.onRecvData, innerLoop, recvLoop_eq, hframes, hrest]
  simp only [handleAll, hpush, List.length_nil]

theorem round_whole {data : Bytes} (hcrashed : s.server.crashed = false) :
    (s.round fd data).whole = s.whole ∨
      ∃ e, (loginMachine P cfg).step s.whole e = some (s.round fd data).whole := by
  unfold Intake.round
  dsimp only
  split_ifs with hd
  · exact .inl rfl
  · cases ha : innerDecoder.attempt data with
    | fault => exact absurd ha (innerDecoder.attempt_ne_fault data)
    | short => exact .inl rfl
    | frame pack =>
        obtain ⟨server, hok, -⟩ := onRecvPacket_eq fd pack s.server
        simp only [hok]
        refine .inr ⟨.recvData fd (data.take pack.size), ?_⟩
        have hcrashed' : s.whole.crashed = false := hcrashed
        show s.whole.step P cfg (.recvData fd (data.take pack.size)) = _
        simp only [LoginServer.step, hcrashed', onRecvData_whole ha hok, Bool.false_eq_true, if_false]
        rfl

/-- The next message that is drained is the first of all. -/
theorem processMsg_whole {m : MessageParam} {rest : List MessageParam} {clock : Clock}
    (hcrashed : s.server.crashed = false) (hlist : s.current_list = m :: rest) :
    s.whole.step P cfg (.processMsg clock) = some ({ s with
      server := s.server.processMsg P cfg m clock
      current_list := rest
      processed := s.processed ++ [m] } : Intake).whole := by
  have hcrashed' : s.whole.crashed = false := hcrashed
  have hhead : s.whole.message_list_ = m :: (rest ++ s.server.message_list_) := by
    simp [Intake.whole, LoginServer.withList, hlist]
  have hstep : s.whole.step P cfg (.processMsg clock) =
      some ((s.server.withList (rest ++ s.server.message_list_)).processMsg P cfg m clock) := by
    unfold LoginServer.step
    rw [if_neg (by simp [hcrashed'])]
    dsimp only
    rw [hhead]
    rfl
  rw [hstep, LoginServer.processMsg_withList, Intake.whole, LoginServer.processMsg_message_list_]

/-- **The intake does what the login server does**: with the messages that are being drained back in
the list, every state of the server is one that `loginMachine` reaches. -/
theorem intake_reachable (h : (intakeMachine P cfg).Reachable s) :
    (loginMachine P cfg).Reachable s.whole := by
  refine Machine.reachable_of_simulation Intake.whole rfl ?_ h
  intro s e s' hs
  have hcrashed : s.server.crashed = false := by
    by_contra hc
    simp [intakeMachine, Intake.step, hc] at hs
  have hcase := Intake.step_cases hs
  cases e with
  | read fd buf =>
      obtain ⟨-, -, rfl⟩ := hcase
      exact .inl rfl
  | round fd =>
      obtain ⟨data, -, rfl⟩ := hcase
      exact round_whole hcrashed
  | swap =>
      obtain ⟨hnil, rfl⟩ := hcase
      left
      simp [Intake.whole, LoginServer.withList, hnil]
  | processMsg clock =>
      obtain ⟨m, rest, hlist, rfl⟩ := hcase
      exact .inr ⟨.processMsg clock, processMsg_whole hcrashed hlist⟩
  | other e =>
      obtain ⟨h₁, h₂, server, hserver, rfl⟩ := hcase
      refine .inr ⟨e, ?_⟩
      show s.whole.step P cfg e = _
      rw [Intake.whole, LoginServer.step_withList P cfg _ h₁ h₂, hserver, Option.map_some]
      simp only [Intake.whole, LoginServer.step_message_list_ P cfg hserver h₁ h₂]

/-- A login request, a heartbeat, and a logoff notification whose `transID` needs all its bits. -/
def gateMsgs : List InnerMsg :=
  [(GG_LS_Login_REQ, 5, bodyOf 65), (CS_HeartBeat_Req, 0, []), (GG_LS_Logoff_NTF, 2 ^ 40, [7])]

/-- The session 1 gets the request with half of the heartbeat, and later the rest but its last byte;
in between the session 2 gets a packet, and the main thread takes the list. -/
def interleaved : List IntakeEvent :=
  [.read 1 (((gateMsgs.map encodeInnerMsg).flatten).take 29), .round 1,
    .read 2 (encodeInnerMsg (GG_LS_Logoff_NTF, 9, [])), .swap, .round 2, .round 1,
    .read 1 ((((gateMsgs.map encodeInnerMsg).flatten).drop 29).take 24), .processMsg midnight,
    .round 2, .round 1, .round 1]

theorem intake_lossless_interleaved : ∃ s,
    (intakeMachine plainProto localTest).run interleaved = some s ∧
    s.processed = [⟨GG_LS_Login_REQ, 5, 1, bodyOf 65⟩] ∧
    s.taken 1 = params 1 (innerCode.whole gateMsgs 53) ∧
    innerCode.whole gateMsgs 53 = [(GG_LS_Login_REQ, 5, bodyOf 65), (CS_HeartBeat_Req, 0, [])] ∧
    s.taken 2 = [⟨GG_LS_Logoff_NTF, 9, 2, []⟩] := by
  obtain ⟨s, h⟩ : ∃ s, (intakeMachine plainProto localTest).run interleaved = some s :=
    Option.isSome_iff_exists.mp (by decide +kernel)
  have hobs : ((intakeMachine plainProto localTest).run interleaved).map (fun s =>
      (s.processed, s.taken 2, (s.readers 1).recv_buf)) =
      some ([⟨GG_LS_Login_REQ, 5, 1, bodyOf 65⟩], [⟨GG_LS_Logoff_NTF, 9, 2, []⟩], none) := by
    decide +kernel
  rw [h] at hobs
  simp only [Option.map_some, Option.some.injEq, Prod.mk.injEq] at hobs
  have hlossless := intake_lossless plainProto localTest interleaved s h 1 gateMsgs (by decide)
    ⟨((gateMsgs.map encodeInnerMsg).flatten).drop 53, by decide +kernel⟩ hobs.2.2
  have hreceived : (received 1 interleaved).length = 53 := by decide +kernel
  rw [hreceived] at hlossless
  exact ⟨s, h, hobs.1, hlossless, by decide +kernel, hobs.2.1⟩

end BlackSwan.Login
