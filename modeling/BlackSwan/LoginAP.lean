import BlackSwan.LoginRecords
import BlackSwan.APThreadsRuns

/-! # The login server and its AP threads

`APMgr::checkApLoginData` gives an `AuthInfo` to the AP threads, in the middle of a step of the main
thread.  One system of the two: every step of either is a step here, and they come in any order, but
the main thread handles no message while it is in `stop`.

`asked_in_turn` says who is asked about, by which thread, in which order. -/

namespace BlackSwan.Login

open Wire Runs

/-! ### Whom the AP is asked about -/

/-- The players that the AP was to be asked about, with what. -/
def asks (h : List LoginAct) : List (ℕ × AuthInfo) := h.filterMap fun
  | .built p auth => some (p, auth)
  | _ => none

theorem asks_append (h h' : List LoginAct) : asks (h ++ h') = asks h ++ asks h' :=
  List.filterMap_append

theorem requests_append (h h' : List LoginAct) : requests (h ++ h') = requests h ++ requests h' :=
  List.filterMap_append

theorem mem_asks {p : ℕ} {auth : AuthInfo} {h : List LoginAct} (hm : (p, auth) ∈ asks h) :
    .built p auth ∈ h := by
  obtain ⟨a, ha, he⟩ := List.mem_filterMap.mp hm
  cases a with
  | built q auth' =>
      cases he
      exact ha
  | _ => cases he

variable {s s₁ s' : LoginServer}

/-- Nobody is asked about, and no request is accepted. -/
structure AsksNobody (s s' : LoginServer) : Prop where
  asks : asks s'.history = asks s.history
  requests : requests s'.history = requests s.history

namespace AsksNobody

theorem of_eq (h : s'.history = s.history) : AsksNobody s s' := ⟨by rw [h], by rw [h]⟩

theorem refl (s : LoginServer) : AsksNobody s s := of_eq rfl

theorem trans (h : AsksNobody s s₁) (h' : AsksNobody s₁ s') : AsksNobody s s' :=
  ⟨h'.asks.trans h.asks, h'.requests.trans h.requests⟩

/-- New entries that are packets. -/
theorem of_entries {l : List LoginAct} (hl : s'.history = s.history ++ l)
    (hno : ∀ a ∈ l, (∃ c fd msgId msg, a = .sent c fd msgId msg) ∨ ∃ fd msg, a = .heartbeat fd msg) :
    AsksNobody s s' := by
  have hnil : Login.asks l = [] ∧ Login.requests l = [] := by
    constructor
    all_goals
      refine List.filterMap_eq_nil_iff.mpr fun a ha => ?_
      obtain ⟨c, fd, msgId, msg, rfl⟩ | ⟨fd, msg, rfl⟩ := hno a ha <;> rfl
  constructor
  · rw [hl, asks_append, hnil.1, List.append_nil]
  · rw [hl, requests_append, hnil.2, List.append_nil]

theorem send (p : ℕ) (msgId : UInt32) (body : Bytes) (s : LoginServer) :
    AsksNobody s (s.send p msgId body) := by
  rw [LoginServer.send_eq]
  refine of_entries rfl fun a ha => .inl ?_
  unfold LoginServer.packet at ha
  split at ha
  · exact ⟨_, _, _, _, List.mem_singleton.mp ha⟩
  · cases ha

theorem notifyOwnerDestroy (p : ℕ) (s : LoginServer) : AsksNobody s (s.notifyOwnerDestroy p) := by
  unfold LoginServer.notifyOwnerDestroy
  split_ifs <;> exact of_eq rfl

theorem setState (p : ℕ) (state : PlayerState) (s : LoginServer) :
    AsksNobody s (s.setState p state) := by
  unfold LoginServer.setState
  split_ifs <;> exact of_eq rfl

theorem steady : Steady AsksNobody where
  refl := refl
  trans := trans
  send := send
  destroy := notifyOwnerDestroy
  setState := setState

variable (P : LoginProto) (cfg : Config)

theorem login (p : ℕ) (ptid : Bytes) (s : LoginServer) :
    AsksNobody s (((s.kickOffPlayer P ptid).setPTID p ptid).sendGateLoginSucc P p) := by
  have hset : AsksNobody (s.kickOffPlayer P ptid) ((s.kickOffPlayer P ptid).setPTID p ptid) :=
    of_eq rfl
  exact ((steady.kickOffPlayer P ptid s).trans hset).trans (steady.sendGateLoginSucc p P _)

theorem localTestLogin (p : ℕ) (s : LoginServer) : AsksNobody s (s.localTestLogin P cfg p) := by
  unfold LoginServer.localTestLogin
  dsimp only
  split_ifs
  · exact login P p _ s
  · exact login P p _ s
  · exact refl s

theorem onEvent (p : ℕ) {event : FsmEvent} (he : ∀ msgID, event ≠ .gate msgID) (clock : Clock)
    (s : LoginServer) : AsksNobody s (s.onEvent P cfg p event clock) := by
  apply steady.onEvent_of_login
  unfold LoginServer.loginOnEvent
  split
  · exact steady.sendGateLoginFail p P _ s
  · split_ifs
    · exact refl s
    · exact refl s
    · exact login P p _ s
  · rename_i msgID
    exact absurd rfl (he msgID)
  · exact refl s

theorem calm (hc : Calm s s') : AsksNobody s s' := by
  obtain ⟨l, hl, hpong⟩ := hc.entries
  exact of_entries hl fun a ha => .inr (hpong a ha)

end AsksNobody

theorem asks_checkApLoginData (p : ℕ) (clock : Clock) (s : LoginServer) : ∃ auth,
    asks (s.checkApLoginData p clock).history = asks s.history ++ [(p, auth)] ∧
      requests (s.checkApLoginData p clock).history = requests s.history := by
  refine ⟨LoginServer.makeAuth (s.players p) s.start_id clock, ?_, ?_⟩
  · show asks (s.history ++ [.built p _]) = _
    rw [asks_append]
    rfl
  · show requests (s.history ++ [.built p _]) = _
    rw [requests_append]
    exact List.append_nil _

/-- The AP is asked about players whose requests were accepted, about each at most once, and in the
order of the requests. -/
def AsksOnce (s : LoginServer) : Prop :=
  ((asks s.history).map Prod.fst).Sublist (requests s.history)

namespace AsksOnce

theorem asksNobody (h : AsksOnce s) (hn : AsksNobody s s') : AsksOnce s' := by
  rw [AsksOnce, hn.asks, hn.requests]
  exact h

theorem recvGgLoginReq (h : AsksOnce s) (P : LoginProto) (cfg : Config) (req : LoginReq)
    (fd transID : UInt32) (clock : Clock) :
    AsksOnce (s.recvGgLoginReq P cfg (some req) fd transID clock) := by
  have hasks : asks (s.accept fd transID).history = asks s.history := by
    show asks (s.history ++ [.accepted s.made fd s.handling]) = _
    rw [asks_append]
    exact List.append_nil _
  have hreq : requests (s.accept fd transID).history = requests s.history ++ [s.made] := by
    show requests (s.history ++ [.accepted s.made fd s.handling]) = _
    rw [requests_append]
    rfl
  have hacc : AsksOnce (s.accept fd transID) := by
    rw [AsksOnce, hasks, hreq]
    exact List.Sublist.trans h (List.sublist_append_left _ _)
  by_cases hver : req.clientversion < cfg.clientVersion_.toUInt32
  · rw [LoginServer.recvGgLoginReq_some, if_pos hver]
    exact hacc.asksNobody (AsksNobody.steady.sendGateLoginFail _ P _ _)
  · rw [recvGgLoginReq_eq P hver, LoginServer.handleAPLoginReq]
    have hlocal := AsksNobody.localTestLogin P cfg s.made (s.received req fd transID)
    split_ifs
    · exact AsksOnce.asksNobody (s := s.received req fd transID) hacc hlocal
    · obtain ⟨auth, hbuilt, hsame⟩ := asks_checkApLoginData s.made clock
        ((s.received req fd transID).localTestLogin P cfg s.made)
      rw [AsksOnce, hbuilt, hsame, hlocal.asks, hlocal.requests]
      show ((asks (s.accept fd transID).history ++ [(s.made, auth)]).map Prod.fst).Sublist
        (requests (s.accept fd transID).history)
      rw [hasks, hreq, List.map_append]
      exact List.Sublist.append h (List.Sublist.refl _)

theorem step {P : LoginProto} {cfg : Config} {e : LoginEvent} (h : AsksOnce s)
    (hs : LoginServer.step P cfg s e = some s') : AsksOnce s' := by
  cases e with
  | processMsg clock =>
      obtain ⟨m, s₁, hc, rfl⟩ := step_processMsg hs
      have h₁ : AsksOnce s₁ := h.asksNobody (.calm hc)
      obtain e | ⟨req, e⟩ | ⟨id, p, -, e⟩ := processMsg_cases P cfg clock s₁ m
      · rw [e]
        exact h₁
      · rw [e]
        exact recvGgLoginReq (s := { s₁ with handling := m.transID }) h₁ P cfg req _ _ clock
      · have h₂ : AsksOnce { s₁ with handling := m.transID } := h₁
        rw [e]
        exact h₂.asksNobody (AsksNobody.onEvent P cfg p (by simp) clock _)
  | processApMsg clock =>
      obtain ⟨m, rest, -, rfl⟩ := step_processApMsg hs
      obtain ⟨l, e | ⟨auth, p, event, -, -, hev, e⟩⟩ :=
        processApMsg_cases P cfg clock { s with apg_list_ := rest } m
      · rw [e]
        exact h
      · have hgate : ∀ msgID, event ≠ .gate msgID := by
          rcases hev with rfl | ⟨error, rfl⟩ <;> simp
        have h₁ : AsksOnce { s with apg_list_ := l } := h
        rw [e]
        exact h₁.asksNobody (AsksNobody.onEvent P cfg p hgate clock _)
  | addSession _ => exact h.asksNobody (.calm (step_calm hs (by simp)))
  | delSession _ => exact h.asksNobody (.calm (step_calm hs (by simp)))
  | ping _ => exact h.asksNobody (.calm (step_calm hs (by simp)))
  | recvData _ _ => exact h.asksNobody (.calm (step_calm hs (by simp)))
  | operateResult _ _ _ _ _ => exact h.asksNobody (.calm (step_calm hs (by simp)))

end AsksOnce

end BlackSwan.Login

namespace BlackSwan

open Wire Runs Turns Login

/-! ### The two together -/

structure LoginAP where
  login : LoginServer
  ap : APMgrHandler

inductive LoginAPEvent where
  /-- a step of the login server; `tick` is the reading of the clock for a message to the AP threads -/
  | login (e : LoginEvent) (tick : ℤ)
  /-- a step of an AP thread, or of the main thread in `start` or `stop` -/
  | ap (e : APEvent)

/-- A step of the main thread. -/
def Login.LoginEvent.onMain : LoginEvent → Bool
  | .processMsg _ => true
  | .processApMsg _ => true
  | _ => false

/-- The message that `checkApLoginData` pushes. -/
def apMsg (tick : ℤ) (q : ℕ × AuthInfo) : APMsg := ⟨some q.2, tick, .authen_ap, .success, 0⟩

namespace APMgrHandler

def pushAll (msgs : List APMsg) (s : APMgrHandler) : APMgrHandler :=
  msgs.foldl (fun s msg => s.pushMsg msg) s

theorem exec_pushAll (loginUrl : Bytes) (msgs : List APMsg) {s : APMgrHandler}
    (hm : msgs = [] ∨ s.main = .free) :
    (apMachine loginUrl).exec (msgs.map .pushMsg) s = some (s.pushAll msgs) := by
  induction msgs generalizing s with
  | nil => rfl
  | cons msg msgs ih =>
      have hfree : s.main = .free := hm.resolve_left (by simp)
      have hs : (apMachine loginUrl).step s (.pushMsg msg) = some (s.pushMsg msg) := if_pos hfree
      rw [List.map_cons, Machine.exec, hs]
      exact ih (.inr hfree)

theorem pushed_pushAll (msgs : List APMsg) (s : APMgrHandler) :
    (s.pushAll msgs).pushed = s.pushed ++ msgs := by
  induction msgs generalizing s with
  | nil => simp [pushAll]
  | cons msg msgs ih =>
      have h := ih (s.pushMsg msg)
      rw [pushAll] at h ⊢
      rw [List.foldl_cons, h]
      simp [pushMsg]

end APMgrHandler

namespace LoginAP

/-- What a step of the login server pushes. -/
def pushes (tick : ℤ) (x : LoginAP) (s : LoginServer) : List APMsg :=
  (asks (s.history.drop x.login.history.length)).map (apMsg tick)

def step (P : LoginProto) (cfg : Config) (loginUrl : Bytes) (x : LoginAP) (e : LoginAPEvent) :
    Option LoginAP :=
  match e with
  | .login e tick =>
      if e.onMain = true ∧ x.ap.main ≠ .free then none else
      (x.login.step P cfg e).map fun s => ⟨s, x.ap.pushAll (x.pushes tick s)⟩
  | .ap (.pushMsg _) => none
  | .ap e => (x.ap.step loginUrl e).map fun s => { x with ap := s }

end LoginAP

def loginAPMachine (P : LoginProto) (cfg : Config) (loginUrl : Bytes) :
    Machine LoginAP LoginAPEvent where
  init := ⟨(loginMachine P cfg).init, (apMachine loginUrl).init⟩
  step := LoginAP.step P cfg loginUrl

namespace LoginAP

variable {P : LoginProto} {cfg : Config} {loginUrl : Bytes} {x x' : LoginAP}

/-- What a step can do. -/
inductive Stepped (P : LoginProto) (cfg : Config) (loginUrl : Bytes) (x : LoginAP) :
    LoginAPEvent → LoginAP → Prop where
  | login {e : LoginEvent} {tick : ℤ} {s : LoginServer} (hm : e.onMain = true → x.ap.main = .free)
      (hs : x.login.step P cfg e = some s) :
      Stepped P cfg loginUrl x (.login e tick) ⟨s, x.ap.pushAll (x.pushes tick s)⟩
  | ap {e : APEvent} {s : APMgrHandler} (he : ∀ msg, e ≠ .pushMsg msg)
      (hs : x.ap.step loginUrl e = some s) : Stepped P cfg loginUrl x (.ap e) { x with ap := s }

theorem step_cases {e : LoginAPEvent} (hs : x.step P cfg loginUrl e = some x') :
    Stepped P cfg loginUrl x e x' := by
  cases e with
  | login e tick =>
      unfold LoginAP.step at hs
      dsimp only at hs
      split_ifs at hs with hm
      obtain ⟨s, hlogin, rfl⟩ := Option.map_eq_some_iff.mp hs
      refine .login (fun he => ?_) hlogin
      by_contra hne
      exact hm ⟨he, hne⟩
  | ap e =>
      have hap (he : ∀ msg, e ≠ .pushMsg msg)
          (hs : (x.ap.step loginUrl e).map (fun s => { x with ap := s }) = some x') :
          Stepped P cfg loginUrl x (.ap e) x' := by
        obtain ⟨s, hap, rfl⟩ := Option.map_eq_some_iff.mp hs
        exact .ap he hap
      cases e with
      | pushMsg msg => cases hs
      | disableGameRunning => exact hap (by simp) hs
      | start => exact hap (by simp) hs
      | stop => exact hap (by simp) hs
      | stopNext => exact hap (by simp) hs
      | run idx => exact hap (by simp) hs

/-- Only the main thread asks. -/
theorem pushes_eq_nil {e : LoginEvent} {s : LoginServer} (hs : x.login.step P cfg e = some s)
    (he : e.onMain = false) (tick : ℤ) : x.pushes tick s = [] := by
  have hcalm : Calm x.login s := by
    refine step_calm hs fun clock => ⟨?_, ?_⟩
    · rintro rfl
      cases he
    · rintro rfl
      cases he
  obtain ⟨l, hl⟩ := history_step hs
  have hasks := (AsksNobody.calm hcalm).asks
  rw [hl, asks_append] at hasks
  rw [pushes, hl, List.drop_left, List.append_right_eq_self.mp hasks]
  rfl

/-- The login server is a login server. -/
def simLogin (P : LoginProto) (cfg : Config) (loginUrl : Bytes) :
    Simulation (loginAPMachine P cfg loginUrl) (loginMachine P cfg) where
  view x := x.login
  labels _ e := match e with
    | .login e _ => [e]
    | .ap _ => []
  view_init := rfl
  exec_labels x e x' _ hs := by
    cases step_cases hs with
    | @login e tick s hm hlogin =>
        have hstep : (loginMachine P cfg).step x.login e = some s := hlogin
        simp [Machine.exec, hstep]
    | ap he hap => rfl

/-- The AP threads are AP threads, and a step of the login server is as many calls of `pushMsg` as it
asks about players. -/
def simAP (P : LoginProto) (cfg : Config) (loginUrl : Bytes) :
    Simulation (loginAPMachine P cfg loginUrl) (apMachine loginUrl) where
  view x := x.ap
  labels x e := match e with
    | .login e tick =>
        match x.login.step P cfg e with
        | some s => (x.pushes tick s).map .pushMsg
        | none => []
    | .ap e => [e]
  view_init := rfl
  exec_labels x e x' _ hs := by
    cases step_cases hs with
    | @login e tick s hm hlogin =>
        dsimp only
        rw [hlogin]
        refine APMgrHandler.exec_pushAll loginUrl _ ?_
        cases he : e.onMain with
        | true => exact .inr (hm he)
        | false => exact .inl (pushes_eq_nil hlogin he tick)
    | @ap e s he hap =>
        have hstep : (apMachine loginUrl).step x.ap e = some s := hap
        simp [Machine.exec, hstep]

/-- What has been pushed is what the login server has asked about. -/
structure Pushed (x : LoginAP) : Prop where
  once : AsksOnce x.login
  pushed : x.ap.pushed.map APMsg.authInfo = (asks x.login.history).map fun q => some q.2
  operation : ∀ msg ∈ x.ap.pushed, msg.operation = .authen_ap

theorem pushed_apStep {s s' : APMgrHandler} {e : APEvent} (he : ∀ msg, e ≠ .pushMsg msg)
    (hs : s.step loginUrl e = some s') : s'.pushed = s.pushed := by
  cases e with
  | pushMsg msg => exact absurd rfl (he msg)
  | disableGameRunning =>
      obtain rfl := Option.some.inj hs
      rfl
  | start =>
      obtain ⟨-, rfl⟩ : s.main = .free ∧ s.start = s' := by simpa [APMgrHandler.step] using hs
      rw [APMgrHandler.start]
      split_ifs <;> rfl
  | stop =>
      obtain ⟨-, rfl⟩ : s.main = .free ∧ _ = s' := by simpa [APMgrHandler.step] using hs
      rfl
  | stopNext => cases APMgrHandler.stopNext_cases hs <;> rfl
  | run idx => cases APMgrHandler.run_cases hs <;> rfl

theorem Pushed.step (h : Pushed x) {e : LoginAPEvent} (hs : x.step P cfg loginUrl e = some x') :
    Pushed x' := by
  cases step_cases hs with
  | @login e tick s hm hlogin =>
      obtain ⟨l, hl⟩ := history_step hlogin
      have hpushes : x.pushes tick s = (Login.asks l).map (apMsg tick) := by
        rw [LoginAP.pushes, hl, List.drop_left]
      refine ⟨h.once.step hlogin, ?_, ?_⟩
      · show (x.ap.pushAll (x.pushes tick s)).pushed.map _ = (Login.asks s.history).map _
        rw [APMgrHandler.pushed_pushAll, hpushes, hl, asks_append, List.map_append, List.map_append,
          h.pushed, List.map_map]
        rfl
      · intro msg hmsg
        have hmsg : msg ∈ (x.ap.pushAll (x.pushes tick s)).pushed := hmsg
        rw [APMgrHandler.pushed_pushAll, hpushes] at hmsg
        rcases List.mem_append.mp hmsg with hmsg | hmsg
        · exact h.operation msg hmsg
        · obtain ⟨q, -, rfl⟩ := List.mem_map.mp hmsg
          rfl
  | ap he hap =>
      have hsame := pushed_apStep he hap
      refine ⟨h.once, ?_, ?_⟩
      · rw [hsame]
        exact h.pushed
      · rw [hsame]
        exact h.operation

theorem pushed_of_reachable (h : (loginAPMachine P cfg loginUrl).Reachable x) : Pushed x := by
  refine (loginAPMachine P cfg loginUrl).invariant (P := Pushed) ?_ (fun _ _ _ h hs => h.step hs) h
  refine ⟨?_, rfl, fun msg hmsg => (by cases hmsg)⟩
  exact List.Sublist.refl []

end LoginAP

/-- The `AuthInfo`s of messages. -/
def auths (msgs : List APMsg) : List (Option AuthInfo) := msgs.map APMsg.authInfo

/-- What a thread is to ask the AP about. -/
def shareOf (x : LoginAP) (idx : Fin WORK_THREAD_COUNT) : List (Option AuthInfo) :=
  lane WORK_THREAD_COUNT idx ((asks x.login.history).map fun q => some q.2)

/-- Who is asked about, by which thread, in which order. -/
structure AskedInTurn (loginUrl : Bytes) (x : LoginAP) : Prop where
  /-- the login server asks about the players of the requests it has accepted, about each at most
  once, in the order of the requests -/
  once : ((asks x.login.history).map Prod.fst).Sublist (Login.requests x.login.history)
  /-- no thread has to ask about more than one player more than another -/
  balanced : ∀ idx idx', (shareOf x idx).length ≤ (shareOf x idx').length + 1
  /-- a thread asks about the players of its share in their order, about none twice -/
  order : ∀ idx, (auths (x.ap.handled idx)).Sublist (shareOf x idx)
  /-- nobody is forgotten: whoever has not been asked about is waiting, or was thrown away by
  `stop` -/
  conserved : ∀ idx, (auths (x.ap.handled idx ++ x.ap.waiting idx ++ x.ap.cleared idx)).Perm
    (shareOf x idx)
  /-- the AP gets the URL for the `AuthInfo` of a player, which has the id of the player -/
  url : ∀ q ∈ x.ap.history, ∃ p auth, .built p auth ∈ x.login.history ∧
    auth.getVal .gl_csHandle = decimal (x.login.players p).id_.toNat ∧
    q.msg.authInfo = some auth ∧ q.url = APMgrHandler.checkLoginTokent loginUrl auth

/-- **The AP is asked in turn.** -/
theorem asked_in_turn (P : LoginProto) (cfg : Config) (loginUrl : Bytes) (es : List LoginAPEvent)
    (x : LoginAP) (h : (loginAPMachine P cfg loginUrl).run es = some x) :
    AskedInTurn loginUrl x := by
  have hpushed := LoginAP.pushed_of_reachable ⟨es, h⟩
  have hshares := (APMgrHandler.inv_of_reachable
    ((LoginAP.simAP P cfg loginUrl).reachable_view ⟨es, h⟩)).shares
  have horigins := origins_of_run ((LoginAP.simLogin P cfg loginUrl).run_trace h)
  have hshare (idx : Fin WORK_THREAD_COUNT) :
      shareOf x idx = auths (lane WORK_THREAD_COUNT idx x.ap.pushed) := by
    rw [shareOf, ← hpushed.pushed, lane_map, auths]
  refine ⟨hpushed.once, fun idx idx' => ?_, fun idx => ?_, fun idx => ?_, fun q hq => ?_⟩
  · exact length_lane_le idx.isLt idx'.isLt _
  · rw [hshare]
    exact ((List.sublist_append_left _ _).trans (hshares.order idx)).map _
  · rw [hshare]
    exact (hshares.conserved idx).map _
  · have hmem : q.msg ∈ x.ap.pushed := by
      have hhandled : q.msg ∈ x.ap.handled q.idx := by
        refine List.mem_map.mpr ⟨q, List.mem_filter.mpr ⟨hq, ?_⟩, rfl⟩
        simp
      have hlane := (hshares.order q.idx).subset (List.mem_append_left _ hhandled)
      exact (lane_sublist _ _ _).subset hlane
    have hauth : q.msg.authInfo ∈ (asks x.login.history).map fun q => some q.2 := by
      rw [← hpushed.pushed]
      exact List.mem_map_of_mem hmem
    obtain ⟨⟨p, auth⟩, hasks, he⟩ := List.mem_map.mp hauth
    refine ⟨p, auth, mem_asks hasks, (horigins.built p auth (mem_asks hasks)).2, he.symm, ?_⟩
    have hurl : q.url = APMgrHandler.onProcApMsg loginUrl q.msg := hshares.url q hq
    rw [hurl, APMgrHandler.onProcApMsg, ← he, hpushed.operation q.msg hmem]

/-- An account logs in, and a thread asks the AP about it. -/
def oneAsked : List LoginAPEvent :=
  [.ap .start, .login (.addSession 1) 0] ++ (Login.request (bodyOf 65)).map (fun e => .login e 7) ++
    List.replicate 4 (.ap (.run 0))

theorem asked_in_turn_oneAsked : ∃ x,
    (loginAPMachine Login.plainProto withAP [47]).run oneAsked = some x ∧
    (x.ap.handled 0).length = 1 ∧ AskedInTurn [47] x := by
  obtain ⟨x, h⟩ : ∃ x, (loginAPMachine Login.plainProto withAP [47]).run oneAsked = some x :=
    Option.isSome_iff_exists.mp (by decide +kernel)
  have hobs : ((loginAPMachine Login.plainProto withAP [47]).run oneAsked).map (fun x =>
      (x.ap.handled 0).length) = some 1 := by decide +kernel
  rw [h] at hobs
  exact ⟨x, h, Option.some.inj hobs, asked_in_turn Login.plainProto withAP [47] oneAsked x h⟩

end BlackSwan
