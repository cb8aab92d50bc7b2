import BlackSwan.Bytes
import BlackSwan.Runs
import Mathlib.Data.Int.Notation
import Mathlib.Logic.Function.Basic

/-! # The connector

`Connector` of `share/networkEx/connector.h`, with the parts of `Session` it relies on
(`Connect`, `stop`, `setDisconnectProc`).

Every attempt makes one session, so attempts and sessions are named by the same number, the value
of `connect_attempt_`.  A handler runs as one step.  What the network and the clock do is in the
events: an `async_connect` ends with success or failure and its handler is queued, a timer
expires and its handler is queued, and queued handlers run later, in any order.

The flag `connected_` is truthful and `stop` is final in every run.  `stop` neither advances
`connect_attempt_` nor sets `completed`, and `onConnected` checks nothing: what keeps a success that
is already queued from calling back is that `stop` has closed its socket, which `async_connect`
tests before it calls the handler (`ConnectAttempt.outcome`). -/

namespace BlackSwan

open Wire Runs

/-! ### Timers -/

/-- A `steady_timer` with at most one outstanding wait.  `queued` holds the handlers whose wait is
over, with the flag `true` for `operation_aborted`. -/
structure Timer (η : Type) where
  waiting : Option η
  queued : List (η × Bool)
deriving DecidableEq, Repr

namespace Timer

variable {η : Type}

/-- `cancel`: a handler that is already queued is not affected. -/
def cancel (t : Timer η) : Timer η :=
  match t.waiting with
  | none => t
  | some h => { waiting := none, queued := t.queued ++ [(h, true)] }

/-- `expires_after`, which cancels, and `async_wait`. -/
def wait (t : Timer η) (h : η) : Timer η := { t.cancel with waiting := some h }

def expire (t : Timer η) : Option (Timer η) :=
  t.waiting.map fun h => { waiting := none, queued := t.queued ++ [(h, false)] }

/-- Take the `i`-th queued handler out of the queue. -/
def take (t : Timer η) (i : ℕ) : Option ((η × Bool) × Timer η) :=
  t.queued[i]?.map fun h => (h, { t with queued := t.queued.eraseIdx i })

end Timer

/-! ### The state -/

/-- An `async_connect`: in flight, ended with its handler queued, or handled. -/
inductive ConnectOp where
  | inFlight
  | succeeded
  | failed
  | handled
deriving DecidableEq, Repr

/-- Closing the socket ends a connect that is in flight; one that has ended is not affected. -/
def ConnectOp.close : ConnectOp → ConnectOp
  | .inFlight => .failed
  | op => op

/-- One run of `startConnect`: its `completed` flag and its session. -/
structure ConnectAttempt where
  completed : Bool
  op : ConnectOp
  /-- `stopped_` of the session -/
  stopped_ : Bool
  /-- `onConnected` has installed the disconnect callback and started the session -/
  started : Bool
deriving DecidableEq, Repr

/-- What the handler of a connect that has ended is told.  The `async_connect` over a list of
endpoints tests `socket_.is_open()` before it calls the handler, and ends with `operation_aborted` if
the session has been stopped, however its last connect ended. -/
def ConnectAttempt.outcome (x : ConnectAttempt) : ConnectOp :=
  match x.op with
  | .succeeded => if x.stopped_ then .failed else .succeeded
  | op => op

theorem ConnectAttempt.outcome_eq_succeeded {x : ConnectAttempt} :
    x.outcome = .succeeded ↔ x.op = .succeeded ∧ x.stopped_ = false := by
  cases hop : x.op <;> cases hst : x.stopped_ <;> simp [outcome, hop, hst]

theorem ConnectAttempt.outcome_eq_failed {x : ConnectAttempt} :
    x.outcome = .failed ↔ x.op = .failed ∨ x.op = .succeeded ∧ x.stopped_ = true := by
  cases hop : x.op <;> cases hst : x.stopped_ <;> simp [outcome, hop, hst]

structure Endpoint where
  address : UInt32
  port : UInt16
deriving DecidableEq, Repr

/-- What others see a connector do. -/
inductive ConnectorAct where
  | attempt (a : ℕ)
  | connectedCallback (a : ℕ)
  | failedCallback
  | disconnectProc (a : ℕ)
deriving DecidableEq, Repr

/-- Neither a new attempt nor the connected callback. -/
def ConnectorAct.isQuiet : ConnectorAct → Bool
  | .attempt _ => false
  | .connectedCallback _ => false
  | _ => true

/-- The fields of `Connector`, its attempts, and the history of what it did. -/
structure Connector where
  session_ : Option ℕ
  disconnect_proc_ : Bool
  connected_callback_ : Bool
  failed_callback_ : Bool
  endpoints_ : List Endpoint
  connect_timeout_ : ℤ
  retry_delay_ : ℕ
  connectTimer_ : Timer ℕ
  /-- its handler reads nothing; a wait is named by its delay -/
  reconnectTimer_ : Timer ℕ
  connected_ : Bool
  auto_reconnect_ : Bool
  connect_attempt_ : ℕ
  attempts : ℕ → ConnectAttempt
  history : List ConnectorAct

def initial_retry_delay_ : ℕ := 1
def max_retry_delay_ : ℕ := 30

namespace Connector

def setAttempt (a : ℕ) (v : ConnectAttempt) (c : Connector) : Connector :=
  { c with attempts := Function.update c.attempts a v }

def setOp (a : ℕ) (op : ConnectOp) (c : Connector) : Connector :=
  c.setAttempt a { c.attempts a with op }

/-- Call a callback, if it is set. -/
def call (isSet : Bool) (act : ConnectorAct) (c : Connector) : Connector :=
  if isSet then { c with history := c.history ++ [act] } else c

/-! ### The functions of the class -/

def isConnected (c : Connector) : Bool := c.connected_

/-- `Connector::send`: the session that is given the message, if any. -/
def send (msg : Bytes) (c : Connector) : Option ℕ :=
  if msg.isEmpty || !c.isConnected then none else c.session_

/-- `Connector::scheduleReconnect`. -/
def scheduleReconnect (c : Connector) : Connector :=
  if !c.auto_reconnect_ then c else
  { c with
    retry_delay_ := min (c.retry_delay_ * 2) max_retry_delay_
    reconnectTimer_ := c.reconnectTimer_.wait c.retry_delay_ }

/-- `Connector::handleConnectFailure`. -/
def handleConnectFailure (c : Connector) : Connector :=
  (({ c with connected_ := false, session_ := none } : Connector).call c.failed_callback_
    .failedCallback).scheduleReconnect

/-- The callback that `onConnected` installs in the session. -/
def onDisconnected (a : ℕ) (c : Connector) : Connector :=
  if c.session_ ≠ some a then c else
  (({ c with connected_ := false, session_ := none } : Connector).call c.disconnect_proc_
    (.disconnectProc a)).scheduleReconnect

/-- The first half of `Session::stop`: the socket is closed. -/
def closeSession (a : ℕ) (c : Connector) : Connector :=
  c.setAttempt a { c.attempts a with stopped_ := true, op := (c.attempts a).op.close }

/-- `Session::stop` of the session of attempt `a`. -/
def sessionStop (a : ℕ) (c : Connector) : Connector :=
  if (c.attempts a).stopped_ then c
  else if (c.attempts a).started then (c.closeSession a).onDisconnected a
  else c.closeSession a

/-- The first half of `startConnect`: a new session and its number. -/
def newAttempt (c : Connector) : Connector :=
  { c.setAttempt (c.connect_attempt_ + 1) ⟨false, .inFlight, false, false⟩ with
    connected_ := false
    session_ := some (c.connect_attempt_ + 1)
    connect_attempt_ := c.connect_attempt_ + 1
    history := c.history ++ [.attempt (c.connect_attempt_ + 1)] }

/-- The second half of `startConnect`: the time limit of the attempt. -/
def armConnectTimer (c : Connector) : Connector :=
  if c.connect_timeout_ > 0 then
    { c with connectTimer_ := c.connectTimer_.wait c.connect_attempt_ }
  else c

/-- `Connector::startConnect`. -/
def startConnect (c : Connector) : Connector :=
  if !c.auto_reconnect_ || c.endpoints_.isEmpty then c else c.newAttempt.armConnectTimer

/-- `Connector::onConnected`. -/
def onConnected (a : ℕ) (c : Connector) : Connector :=
  { (c.setAttempt a { c.attempts a with started := true }).call c.connected_callback_
      (.connectedCallback a) with
    connected_ := true
    retry_delay_ := initial_retry_delay_ }

/-- `completed->exchange(true) || attempt != connect_attempt_`, the guard of the three handlers of
an attempt: the handler goes on when it is `true`. -/
def isCurrent (a : ℕ) (c : Connector) : Bool :=
  !(c.attempts a).completed && a == c.connect_attempt_

def complete (a : ℕ) (c : Connector) : Connector :=
  c.setAttempt a { c.attempts a with completed := true }

def cancelConnectTimer (c : Connector) : Connector :=
  { c with connectTimer_ := c.connectTimer_.cancel }

/-- The success handler of attempt `a`. -/
def onConnectSuccess (a : ℕ) (c : Connector) : Connector :=
  if c.isCurrent a then
    (c.complete a).cancelConnectTimer.onConnected a
  else c.complete a

/-- The failure handler of attempt `a`. -/
def onConnectError (a : ℕ) (c : Connector) : Connector :=
  if c.isCurrent a then
    (c.complete a).cancelConnectTimer.handleConnectFailure
  else c.complete a

/-- The handler of the connect timer for attempt `a`. -/
def onConnectTimeout (a : ℕ) (error : Bool) (c : Connector) : Connector :=
  if error then c
  else if c.isCurrent a then ((c.complete a).sessionStop a).handleConnectFailure
  else c.complete a

/-- The handler of the reconnect timer. -/
def onReconnect (error : Bool) (c : Connector) : Connector :=
  if error then c else c.startConnect

/-- The first half of `stop`: everything but the session, which is moved out of `session_`. -/
def shutDown (c : Connector) : Connector :=
  { c with
    auto_reconnect_ := false
    connected_ := false
    connectTimer_ := c.connectTimer_.cancel
    reconnectTimer_ := c.reconnectTimer_.cancel
    session_ := none }

/-- `Connector::stop`. -/
def stop (c : Connector) : Connector :=
  match c.session_ with
  | none => c.shutDown
  | some a => c.shutDown.sessionStop a

/-- `Connector::asyncConnect`; of the two callbacks only whether they are set matters. -/
def asyncConnect (eps : List Endpoint) (callback failedCallback : Bool) (connect_timeout : ℤ)
    (c : Connector) : Connector :=
  ({ c with
    endpoints_ := eps
    connect_timeout_ := connect_timeout
    connected_callback_ := callback
    failed_callback_ := failedCallback
    retry_delay_ := initial_retry_delay_
    auto_reconnect_ := true } : Connector).startConnect

end Connector

/-! ### Runs -/

inductive ConnectorEvent where
  | asyncConnect (eps : List Endpoint) (callback failedCallback : Bool) (connect_timeout : ℤ)
  | setDisconnectProc (isSet : Bool)
  | stop
  /-- the connect of attempt `a` ends and its handler is queued -/
  | connectEnds (a : ℕ) (success : Bool)
  /-- the queued handler of the connect of attempt `a` runs -/
  | connectHandler (a : ℕ)
  | connectTimerExpires
  | connectTimerHandler (i : ℕ)
  | reconnectTimerExpires
  | reconnectTimerHandler (i : ℕ)
  /-- a started session stops: its socket fails, or its heartbeat times out -/
  | disconnect (a : ℕ)
deriving DecidableEq, Repr

def ConnectorEvent.isAsyncConnect : ConnectorEvent → Bool
  | .asyncConnect .. => true
  | _ => false

namespace Connector

def step (c : Connector) : ConnectorEvent → Option Connector
  | .asyncConnect eps cb fcb timeout => some (c.asyncConnect eps cb fcb timeout)
  | .setDisconnectProc isSet => some { c with disconnect_proc_ := isSet }
  | .stop => some c.stop
  | .connectEnds a success =>
      if (c.attempts a).op = .inFlight then
        some (c.setOp a (if success then .succeeded else .failed))
      else none
  | .connectHandler a =>
      match (c.attempts a).outcome with
      | .succeeded => some ((c.setOp a .handled).onConnectSuccess a)
      | .failed => some ((c.setOp a .handled).onConnectError a)
      | _ => none
  | .connectTimerExpires => c.connectTimer_.expire.map fun t => { c with connectTimer_ := t }
  | .connectTimerHandler i =>
      (c.connectTimer_.take i).map fun x =>
        ({ c with connectTimer_ := x.2 } : Connector).onConnectTimeout x.1.1 x.1.2
  | .reconnectTimerExpires => c.reconnectTimer_.expire.map fun t => { c with reconnectTimer_ := t }
  | .reconnectTimerHandler i =>
      (c.reconnectTimer_.take i).map fun x =>
        ({ c with reconnectTimer_ := x.2 } : Connector).onReconnect x.1.2
  | .disconnect a =>
      if (c.attempts a).started && !(c.attempts a).stopped_ then some (c.sessionStop a) else none

end Connector

def connectorMachine : Machine Connector ConnectorEvent where
  init := {
    session_ := none
    disconnect_proc_ := false
    connected_callback_ := false
    failed_callback_ := false
    endpoints_ := []
    connect_timeout_ := 0
    retry_delay_ := 1
    connectTimer_ := ⟨none, []⟩
    reconnectTimer_ := ⟨none, []⟩
    connected_ := false
    auto_reconnect_ := false
    connect_attempt_ := 0
    -- no attempt has been made, so no handler of one is queued
    attempts := fun _ => ⟨true, .handled, true, false⟩
    history := [] }
  step := Connector.step

/-! ### What a step does to the session and the flag -/

namespace Connector

variable {c c' : Connector} {a : ℕ}

/-- The latest attempt has been completed, or its session stopped. -/
def Resolved (c : Connector) : Prop :=
  (c.attempts c.connect_attempt_).completed = true ∨
    (c.attempts c.connect_attempt_).stopped_ = true

/-- The session that `session_` holds is the one of the latest attempt, and not stopped; and it
holds it as long as the attempt is not resolved. -/
structure Latest (c : Connector) : Prop where
  own : ∀ a, c.session_ = some a → a = c.connect_attempt_ ∧ (c.attempts a).stopped_ = false
  held : c.Resolved ∨ c.session_ = some c.connect_attempt_

/-- `isConnected()` tells the truth. -/
def Truthful (c : Connector) : Prop :=
  c.isConnected = true → ∃ a, c.session_ = some a ∧ a = c.connect_attempt_ ∧
    (c.attempts a).stopped_ = false

/-- No session, not connected, and nothing to come of the latest attempt. -/
def Cleared (c : Connector) : Prop := c.session_ = none ∧ c.connected_ = false ∧ c.Resolved

/-- A step that leaves `session_`, the number of the latest attempt and the session in `session_`
as they are. -/
structure SameSession (c c' : Connector) : Prop where
  session_ : c'.session_ = c.session_
  connect_attempt_ : c'.connect_attempt_ = c.connect_attempt_
  stopped_ : ∀ a, c.session_ = some a → (c'.attempts a).stopped_ = (c.attempts a).stopped_
  resolved : c.Resolved → c'.Resolved

/-- A step that leaves the flag as it is, too. -/
structure SameLink (c c' : Connector) : Prop extends SameSession c c' where
  connected_ : c'.connected_ = c.connected_

theorem SameSession.trans {c'' : Connector} (h : c.SameSession c') (h' : c'.SameSession c'') :
    c.SameSession c'' where
  session_ := h'.session_.trans h.session_
  connect_attempt_ := h'.connect_attempt_.trans h.connect_attempt_
  stopped_ := fun a ha => (h'.stopped_ a (h.session_ ▸ ha)).trans (h.stopped_ a ha)
  resolved := h'.resolved ∘ h.resolved

theorem SameLink.trans {c'' : Connector} (h : c.SameLink c') (h' : c'.SameLink c'') :
    c.SameLink c'' :=
  ⟨h.toSameSession.trans h'.toSameSession, h'.connected_.trans h.connected_⟩

/-- Only other fields have changed. -/
theorem sameLink_of_eq (hs : c'.session_ = c.session_)
    (hn : c'.connect_attempt_ = c.connect_attempt_) (ha : c'.attempts = c.attempts)
    (hc : c'.connected_ = c.connected_) : c.SameLink c' :=
  ⟨⟨hs, hn, fun _ _ => by rw [ha], fun h => by rwa [Resolved, hn, ha]⟩, hc⟩

theorem Resolved.setAttempt {v : ConnectAttempt} (h : c.Resolved)
    (hcomp : (c.attempts a).completed = true → v.completed = true)
    (hstop : (c.attempts a).stopped_ = true → v.stopped_ = true) : (c.setAttempt a v).Resolved := by
  by_cases ha : c.connect_attempt_ = a
  · subst ha
    simpa [Resolved, Connector.setAttempt] using h.imp hcomp hstop
  · simpa [Resolved, Connector.setAttempt, Function.update_of_ne ha] using h

theorem sameLink_setAttempt (c : Connector) {v : ConnectAttempt}
    (h : c.session_ = some a → v.stopped_ = (c.attempts a).stopped_)
    (hcomp : (c.attempts a).completed = true → v.completed = true)
    (hstop : (c.attempts a).stopped_ = true → v.stopped_ = true) :
    c.SameLink (c.setAttempt a v) := by
  refine ⟨⟨rfl, rfl, fun b hb => ?_, fun hr => hr.setAttempt hcomp hstop⟩, rfl⟩
  by_cases hba : b = a
  · subst hba
    simpa [setAttempt] using h hb
  · simp [setAttempt, Function.update_of_ne hba]

theorem sameLink_call (isSet : Bool) (act : ConnectorAct) (c : Connector) :
    c.SameLink (c.call isSet act) := by
  cases isSet <;> exact sameLink_of_eq rfl rfl rfl rfl

theorem sameLink_scheduleReconnect (c : Connector) : c.SameLink c.scheduleReconnect := by
  unfold scheduleReconnect
  split_ifs <;> exact sameLink_of_eq rfl rfl rfl rfl

theorem Cleared.sameLink (h : c.Cleared) (hl : c.SameLink c') : c'.Cleared :=
  ⟨hl.session_.trans h.1, hl.connected_.trans h.2.1, hl.resolved h.2.2⟩

theorem handleConnectFailure_cleared (h : c.Resolved) : c.handleConnectFailure.Cleared := by
  have hc : Cleared { c with connected_ := false, session_ := none } := ⟨rfl, rfl, h⟩
  exact hc.sameLink ((sameLink_call _ _ _).trans (sameLink_scheduleReconnect _))

theorem onDisconnected_of_ne (h : c.session_ ≠ some a) : c.onDisconnected a = c := if_pos h

theorem onDisconnected_cleared (h : c.session_ = some a) (hr : c.Resolved) :
    (c.onDisconnected a).Cleared := by
  have hc : Cleared { c with connected_ := false, session_ := none } := ⟨rfl, rfl, hr⟩
  unfold onDisconnected
  rw [if_neg (not_not_intro h)]
  exact hc.sameLink ((sameLink_call _ _ _).trans (sameLink_scheduleReconnect _))

/-- Stopping a session that is not the connector's own does not touch the connector. -/
theorem sessionStop_other (h : c.session_ ≠ some a) : c.SameLink (c.sessionStop a) := by
  have hclose : c.SameLink (c.closeSession a) :=
    sameLink_setAttempt c (fun ha => absurd ha h) id fun _ => rfl
  unfold sessionStop
  split_ifs
  · exact sameLink_of_eq rfl rfl rfl rfl
  · rw [onDisconnected_of_ne (hclose.session_ ▸ h)]
    exact hclose
  · exact hclose

theorem sessionStop_stopped (h : c.session_ ≠ some a) :
    ((c.sessionStop a).attempts a).stopped_ = true := by
  have hclose : ((c.closeSession a).attempts a).stopped_ = true := by simp [closeSession, setAttempt]
  unfold sessionStop
  split_ifs with hst
  · exact hst
  · rwa [onDisconnected_of_ne (by exact h)]
  · exact hclose

/-- When a started session stops, the connector notices. -/
theorem sessionStop_own (hl : c.Latest) (h : c.session_ = some a)
    (hst : (c.attempts a).started = true) : (c.sessionStop a).Cleared := by
  obtain ⟨rfl, hstop⟩ := hl.own a h
  unfold sessionStop
  rw [if_neg (by simp [hstop]), if_pos hst]
  exact onDisconnected_cleared h (.inr (by simp [closeSession, setAttempt]))

/-- A new attempt that has just been started. -/
def Fresh (c : Connector) : Prop :=
  c.connected_ = false ∧ c.session_ = some c.connect_attempt_ ∧
    (c.attempts c.connect_attempt_).stopped_ = false

theorem startConnect_link (c : Connector) :
    c.startConnect = c ∨ (c.auto_reconnect_ = true ∧ c.startConnect.Fresh) := by
  unfold startConnect
  split_ifs with hg
  · exact .inl rfl
  · have hauto : c.auto_reconnect_ = true := by
      by_contra ha
      simp [ha] at hg
    have h : c.newAttempt.Fresh := ⟨rfl, rfl, by simp [newAttempt, setAttempt]⟩
    unfold armConnectTimer
    split_ifs
    · exact .inr ⟨hauto, h⟩
    · exact .inr ⟨hauto, h⟩

theorem sameLink_setOp (a : ℕ) (op : ConnectOp) (c : Connector) : c.SameLink (c.setOp a op) :=
  sameLink_setAttempt c (fun _ => rfl) id id

theorem sameLink_cancelConnectTimer (c : Connector) : c.SameLink c.cancelConnectTimer :=
  sameLink_of_eq rfl rfl rfl rfl

theorem sameLink_complete (a : ℕ) (c : Connector) : c.SameLink (c.complete a) :=
  sameLink_setAttempt c (fun _ => rfl) (fun _ => rfl) id

/-- `onConnected` sets the flag, whatever `session_` holds. -/
theorem onConnected_link (a : ℕ) (c : Connector) :
    c.SameSession (c.onConnected a) ∧ (c.onConnected a).connected_ = true := by
  have h₁ : c.SameLink (c.setAttempt a { c.attempts a with started := true }) :=
    sameLink_setAttempt c (fun _ => rfl) id id
  have h₂ := h₁.trans (sameLink_call c.connected_callback_ (.connectedCallback a) _)
  exact ⟨⟨h₂.session_, h₂.connect_attempt_, h₂.stopped_, h₂.resolved⟩, rfl⟩

/-- The success handler of the latest attempt runs, for the first time. -/
def Connects (c : Connector) (e : ConnectorEvent) : Prop :=
  ∃ a, e = .connectHandler a ∧ (c.attempts a).outcome = .succeeded ∧ c.isCurrent a = true

theorem isCurrent_setOp (a : ℕ) (op : ConnectOp) (c : Connector) :
    (c.setOp a op).isCurrent a = c.isCurrent a := by
  simp [isCurrent, setOp, setAttempt]

theorem sameLink_handled (a : ℕ) (c : Connector) :
    c.SameLink ((c.setOp a .handled).complete a) :=
  (sameLink_setOp a .handled c).trans (sameLink_complete a _)

/-- The success handler of the latest attempt sets the flag and nothing else here. -/
theorem step_connects {e : ConnectorEvent} (hcon : c.Connects e) (h : c.step e = some c') :
    c.SameSession c' ∧ c'.connected_ = true := by
  obtain ⟨a, rfl, ho, hc⟩ := hcon
  obtain rfl : (c.setOp a .handled).onConnectSuccess a = c' := by simpa [step, ho] using h
  rw [onConnectSuccess, isCurrent_setOp, if_pos hc]
  have hpre := (sameLink_handled a c).trans (sameLink_cancelConnectTimer _)
  obtain ⟨hs, ht⟩ := onConnected_link a ((c.setOp a .handled).complete a).cancelConnectTimer
  exact ⟨hpre.toSameSession.trans hs, ht⟩

/-- A handler that goes on past its guard resolves the latest attempt. -/
theorem resolved_complete (hc : c.isCurrent a = true) : (c.complete a).Resolved := by
  obtain ⟨-, rfl⟩ : (c.attempts a).completed = false ∧ a = c.connect_attempt_ := by
    simpa [isCurrent] using hc
  exact .inl (by simp [complete, setAttempt])

theorem connectHandler_link (hcon : ¬ c.Connects (.connectHandler a))
    (h : c.step (.connectHandler a) = some c') : c.SameLink c' ∨ c'.Cleared := by
  cases ho : (c.attempts a).outcome with
  | succeeded =>
      obtain rfl : (c.setOp a .handled).onConnectSuccess a = c' := by simpa [step, ho] using h
      rw [onConnectSuccess, isCurrent_setOp, if_neg fun hc => hcon ⟨a, rfl, ho, hc⟩]
      exact .inl (sameLink_handled a c)
  | failed =>
      obtain rfl : (c.setOp a .handled).onConnectError a = c' := by simpa [step, ho] using h
      unfold onConnectError
      split_ifs with hc
      · exact .inr (handleConnectFailure_cleared
          ((sameLink_cancelConnectTimer _).resolved (resolved_complete hc)))
      · exact .inl (sameLink_handled a c)
  | _ => simp [step, ho] at h

/-- Stopping a session does not take back what has become of the latest attempt. -/
theorem Resolved.sessionStop (h : c.Resolved) (a : ℕ) : (c.sessionStop a).Resolved := by
  have hclose : (c.closeSession a).Resolved := h.setAttempt id fun _ => rfl
  unfold Connector.sessionStop
  split_ifs
  · exact h
  · by_cases hs : (c.closeSession a).session_ = some a
    · exact (onDisconnected_cleared hs hclose).2.2
    · rwa [onDisconnected_of_ne hs]
  · exact hclose

theorem onConnectTimeout_link (a : ℕ) (error : Bool) (c : Connector) :
    c.SameLink (c.onConnectTimeout a error) ∨ (c.onConnectTimeout a error).Cleared := by
  unfold onConnectTimeout
  split_ifs with herr hc
  · exact .inl (sameLink_of_eq rfl rfl rfl rfl)
  · exact .inr (handleConnectFailure_cleared ((resolved_complete hc).sessionStop a))
  · exact .inl (sameLink_complete a c)

/-- `stop` stops the session of the latest attempt, unless that attempt was resolved before. -/
theorem stop_cleared (hl : c.Latest) : c.stop.Cleared := by
  unfold stop
  cases hs : c.session_ with
  | none => exact ⟨rfl, rfl, hl.held.resolve_right (by simp [hs])⟩
  | some a =>
      obtain rfl : a = c.connect_attempt_ := (hl.own a hs).1
      have hne : c.shutDown.session_ ≠ some c.connect_attempt_ := by simp [shutDown]
      have hother := sessionStop_other hne
      refine ⟨hother.session_, hother.connected_, .inr ?_⟩
      rw [hother.connect_attempt_]
      exact sessionStop_stopped hne

/-- **What any other step does** to `session_` and to the flag. -/
theorem step_link {e : ConnectorEvent} (hl : c.Latest) (hcon : ¬ c.Connects e)
    (h : c.step e = some c') :
    c.SameLink c' ∨ c'.Cleared ∨ ((c.auto_reconnect_ = true ∨ e.isAsyncConnect) ∧ c'.Fresh) := by
  cases e with
  | asyncConnect eps cb fcb timeout =>
      obtain rfl : c.asyncConnect eps cb fcb timeout = c' := by simpa [step] using h
      unfold asyncConnect
      obtain he | ⟨-, hf⟩ := startConnect_link ({ c with
        endpoints_ := eps
        connect_timeout_ := timeout
        connected_callback_ := cb
        failed_callback_ := fcb
        retry_delay_ := initial_retry_delay_
        auto_reconnect_ := true } : Connector)
      · rw [he]
        exact .inl (sameLink_of_eq rfl rfl rfl rfl)
      · exact .inr (.inr ⟨.inr rfl, hf⟩)
  | setDisconnectProc isSet =>
      obtain rfl : { c with disconnect_proc_ := isSet } = c' := by simpa [step] using h
      exact .inl (sameLink_of_eq rfl rfl rfl rfl)
  | stop =>
      obtain rfl : c.stop = c' := by simpa [step] using h
      exact .inr (.inl (stop_cleared hl))
  | connectEnds a success =>
      obtain ⟨-, rfl⟩ : (c.attempts a).op = .inFlight ∧
          c.setOp a (if success then .succeeded else .failed) = c' := by simpa [step] using h
      exact .inl (sameLink_setOp _ _ _)
  | connectHandler a =>
      obtain hs | hc := connectHandler_link hcon h
      · exact .inl hs
      · exact .inr (.inl hc)
  | connectTimerExpires =>
      obtain ⟨t, -, rfl⟩ := Option.map_eq_some_iff.mp h
      exact .inl (sameLink_of_eq rfl rfl rfl rfl)
  | connectTimerHandler i =>
      obtain ⟨⟨⟨a, error⟩, t⟩, -, rfl⟩ := Option.map_eq_some_iff.mp h
      have ht : c.SameLink { c with connectTimer_ := t } := sameLink_of_eq rfl rfl rfl rfl
      obtain hs | hc := onConnectTimeout_link a error { c with connectTimer_ := t }
      · exact .inl (ht.trans hs)
      · exact .inr (.inl hc)
  | reconnectTimerExpires =>
      obtain ⟨t, -, rfl⟩ := Option.map_eq_some_iff.mp h
      exact .inl (sameLink_of_eq rfl rfl rfl rfl)
  | reconnectTimerHandler i =>
      obtain ⟨⟨⟨_, error⟩, t⟩, -, rfl⟩ := Option.map_eq_some_iff.mp h
      unfold onReconnect
      split_ifs
      · exact .inl (sameLink_of_eq rfl rfl rfl rfl)
      · obtain he | ⟨ha, hf⟩ := startConnect_link { c with reconnectTimer_ := t }
        · rw [he]
          exact .inl (sameLink_of_eq rfl rfl rfl rfl)
        · exact .inr (.inr ⟨.inl ha, hf⟩)
  | disconnect a =>
      simp only [step] at h
      split_ifs at h with hst
      obtain rfl := Option.some.inj h
      by_cases hs : c.session_ = some a
      · simp only [Bool.and_eq_true] at hst
        exact .inr (.inl (sessionStop_own hl hs hst.1))
      · exact .inl (sessionStop_other hs)

/-! ### The flag -/

/-- A success handler that goes on past its guard finds its own session in `session_`: the
attempt is not completed, and the session not stopped, or the handler would be told of an error. -/
theorem Latest.session_of_connects {e : ConnectorEvent} (hl : c.Latest) (hcon : c.Connects e) :
    c.session_ = some c.connect_attempt_ := by
  obtain ⟨a, rfl, ho, hc⟩ := hcon
  obtain ⟨hcomp, rfl⟩ : (c.attempts a).completed = false ∧ a = c.connect_attempt_ := by
    simpa [isCurrent] using hc
  have hst := (ConnectAttempt.outcome_eq_succeeded.mp ho).2
  exact hl.held.resolve_left (not_or_intro (by simp [hcomp]) (by simp [hst]))

theorem Latest.sameSession (hl : c.Latest) (h : c.SameSession c') : c'.Latest where
  own := by
    intro a ha
    rw [h.session_] at ha
    rw [h.connect_attempt_, h.stopped_ a ha]
    exact hl.own a ha
  held := by
    rw [h.session_, h.connect_attempt_]
    exact hl.held.imp_left h.resolved

theorem Cleared.latest (h : c.Cleared) : c.Latest where
  own := by
    intro a ha
    rw [h.1] at ha
    cases ha
  held := .inl h.2.2

theorem Fresh.latest (h : c.Fresh) : c.Latest where
  own := by
    intro a ha
    obtain rfl : c.connect_attempt_ = a := by simpa [h.2.1] using ha
    exact ⟨rfl, h.2.2⟩
  held := .inr h.2.1

/-- Every step keeps `session_` at the latest attempt. -/
theorem step_latest {e : ConnectorEvent} (hl : c.Latest) (h : c.step e = some c') : c'.Latest := by
  by_cases hcon : c.Connects e
  · exact hl.sameSession (step_connects hcon h).1
  · obtain hs | hc | ⟨-, hf⟩ := step_link hl hcon h
    · exact hl.sameSession hs.toSameSession
    · exact hc.latest
    · exact hf.latest

theorem truthful_iff (hl : c.Latest) : c.Truthful ↔ (c.connected_ = true → c.session_ ≠ none) := by
  constructor
  · intro ht hc hn
    obtain ⟨a, ha, -⟩ := ht hc
    rw [hn] at ha
    cases ha
  · intro h hc
    obtain ⟨a, ha⟩ := Option.ne_none_iff_exists'.mp (h hc)
    exact ⟨a, ha, hl.own a ha⟩

/-- Every step keeps the flag truthful. -/
theorem step_truthful {e : ConnectorEvent} (hl : c.Latest) (ht : c.Truthful)
    (h : c.step e = some c') : c'.Truthful := by
  rw [truthful_iff (step_latest hl h)]
  by_cases hcon : c.Connects e
  · obtain ⟨hs, -⟩ := step_connects hcon h
    simp [hs.session_, hl.session_of_connects hcon]
  · obtain hs | hc | ⟨-, hf⟩ := step_link hl hcon h
    · rw [hs.connected_, hs.session_]
      exact (truthful_iff hl).mp ht
    · simp [hc.2.1]
    · simp [hf.1]

/-- A truthful flag means that a message is handed to a live session and not dropped. -/
theorem Truthful.send (ht : c.Truthful) (hc : c.isConnected = true) {msg : Bytes}
    (hmsg : msg ≠ []) : ∃ a, c.send msg = some a ∧ a = c.connect_attempt_ ∧
      (c.attempts a).stopped_ = false := by
  obtain ⟨a, ha, hl⟩ := ht hc
  exact ⟨a, by simpa [Connector.send, hmsg, hc] using ha, hl⟩

/-! ### After `stop` -/

/-- A step that does nothing but quiet things and leaves `auto_reconnect_` as it is. -/
def Quiet (c c' : Connector) : Prop :=
  c'.auto_reconnect_ = c.auto_reconnect_ ∧
    ∃ acts, c'.history = c.history ++ acts ∧ ∀ act ∈ acts, act.isQuiet

theorem Quiet.of_eq (ha : c'.auto_reconnect_ = c.auto_reconnect_) (hh : c'.history = c.history) :
    c.Quiet c' := ⟨ha, [], by simp [hh], by simp⟩

theorem Quiet.trans {c'' : Connector} (h : c.Quiet c') (h' : c'.Quiet c'') : c.Quiet c'' := by
  obtain ⟨ha, acts, hh, hq⟩ := h
  obtain ⟨ha', acts', hh', hq'⟩ := h'
  refine ⟨ha'.trans ha, acts ++ acts', by rw [hh', hh, List.append_assoc], ?_⟩
  intro act hact
  obtain hact | hact := List.mem_append.mp hact
  · exact hq act hact
  · exact hq' act hact

theorem quiet_call (isSet : Bool) (act : ConnectorAct) (hq : act.isQuiet = true) (c : Connector) :
    c.Quiet (c.call isSet act) := by
  cases isSet with
  | false => exact Quiet.of_eq rfl rfl
  | true => exact ⟨rfl, [act], rfl, by simpa using hq⟩

theorem quiet_scheduleReconnect (c : Connector) : c.Quiet c.scheduleReconnect := by
  unfold scheduleReconnect
  split_ifs <;> exact Quiet.of_eq rfl rfl

theorem quiet_handleConnectFailure (c : Connector) : c.Quiet c.handleConnectFailure := by
  have h₁ : c.Quiet { c with connected_ := false, session_ := none } := Quiet.of_eq rfl rfl
  have h₂ := h₁.trans (quiet_call c.failed_callback_ .failedCallback rfl _)
  exact h₂.trans (quiet_scheduleReconnect _)

theorem quiet_onDisconnected (a : ℕ) (c : Connector) : c.Quiet (c.onDisconnected a) := by
  unfold onDisconnected
  split_ifs
  · exact Quiet.of_eq rfl rfl
  · have h₁ : c.Quiet { c with connected_ := false, session_ := none } := Quiet.of_eq rfl rfl
    have h₂ := h₁.trans (quiet_call c.disconnect_proc_ (.disconnectProc a) rfl _)
    exact h₂.trans (quiet_scheduleReconnect _)

theorem quiet_sessionStop (a : ℕ) (c : Connector) : c.Quiet (c.sessionStop a) := by
  have h : c.Quiet (c.closeSession a) := Quiet.of_eq rfl rfl
  unfold sessionStop
  split_ifs
  · exact Quiet.of_eq rfl rfl
  · exact h.trans (quiet_onDisconnected a _)
  · exact h

theorem quiet_onConnectTimeout (a : ℕ) (error : Bool) (c : Connector) :
    c.Quiet (c.onConnectTimeout a error) := by
  have h : c.Quiet (c.complete a) := Quiet.of_eq rfl rfl
  unfold onConnectTimeout
  split_ifs
  · exact Quiet.of_eq rfl rfl
  · exact (h.trans (quiet_sessionStop a _)).trans (quiet_handleConnectFailure _)
  · exact h

theorem quiet_connectHandler (hcon : ¬ c.Connects (.connectHandler a))
    (h : c.step (.connectHandler a) = some c') : c.Quiet c' := by
  have hdone : c.Quiet ((c.setOp a .handled).complete a) := Quiet.of_eq rfl rfl
  cases ho : (c.attempts a).outcome with
  | succeeded =>
      obtain rfl : (c.setOp a .handled).onConnectSuccess a = c' := by simpa [step, ho] using h
      rw [onConnectSuccess, isCurrent_setOp, if_neg fun hc => hcon ⟨a, rfl, ho, hc⟩]
      exact hdone
  | failed =>
      obtain rfl : (c.setOp a .handled).onConnectError a = c' := by simpa [step, ho] using h
      unfold onConnectError
      split_ifs
      · have hcancel : c.Quiet ((c.setOp a .handled).complete a).cancelConnectTimer :=
          hdone.trans (Quiet.of_eq rfl rfl)
        exact hcancel.trans (quiet_handleConnectFailure _)
      · exact hdone
  | _ => simp [step, ho] at h

theorem startConnect_of_not_auto (h : c.auto_reconnect_ = false) : c.startConnect = c := by
  simp [startConnect, h]

/-- `Connector::stop` is done: no session, not connected, no reconnecting. -/
def Down (c : Connector) : Prop := c.auto_reconnect_ = false ∧ c.Cleared

theorem stop_quiet (c : Connector) : c.shutDown.Quiet c.stop := by
  unfold stop
  split
  · exact Quiet.of_eq rfl rfl
  · exact quiet_sessionStop _ _

theorem stop_down (hl : c.Latest) : c.stop.Down := ⟨c.stop_quiet.1, stop_cleared hl⟩

/-- While the connector does not reconnect, only quiet things happen, unless a connect succeeds. -/
theorem step_quiet {e : ConnectorEvent} (hd : c.auto_reconnect_ = false) (hcon : ¬ c.Connects e)
    (he : e.isAsyncConnect = false) (h : c.step e = some c') : c.Quiet c' := by
  cases e with
  | asyncConnect eps cb fcb timeout => cases he
  | setDisconnectProc isSet =>
      obtain rfl : { c with disconnect_proc_ := isSet } = c' := by simpa [step] using h
      exact Quiet.of_eq rfl rfl
  | stop =>
      obtain rfl : c.stop = c' := by simpa [step] using h
      have h : c.Quiet c.shutDown := Quiet.of_eq hd.symm rfl
      exact h.trans (stop_quiet c)
  | connectEnds a success =>
      obtain ⟨-, rfl⟩ : (c.attempts a).op = .inFlight ∧
          c.setOp a (if success then .succeeded else .failed) = c' := by simpa [step] using h
      exact Quiet.of_eq rfl rfl
  | connectHandler a => exact quiet_connectHandler hcon h
  | connectTimerExpires =>
      obtain ⟨t, -, rfl⟩ := Option.map_eq_some_iff.mp h
      exact Quiet.of_eq rfl rfl
  | connectTimerHandler i =>
      obtain ⟨x, -, rfl⟩ := Option.map_eq_some_iff.mp h
      exact Quiet.trans (Quiet.of_eq rfl rfl) (quiet_onConnectTimeout _ _ _)
  | reconnectTimerExpires =>
      obtain ⟨t, -, rfl⟩ := Option.map_eq_some_iff.mp h
      exact Quiet.of_eq rfl rfl
  | reconnectTimerHandler i =>
      obtain ⟨x, -, rfl⟩ := Option.map_eq_some_iff.mp h
      unfold onReconnect
      split_ifs
      · exact Quiet.of_eq rfl rfl
      · rw [startConnect_of_not_auto (by exact hd)]
        exact Quiet.of_eq rfl rfl
  | disconnect a =>
      simp only [step] at h
      split_ifs at h
      obtain rfl := Option.some.inj h
      exact quiet_sessionStop a c

theorem step_down {e : ConnectorEvent} (hd : c.Down) (he : e.isAsyncConnect = false)
    (h : c.step e = some c') : c'.Down ∧ c.Quiet c' := by
  have hcon : ¬ c.Connects e := by
    intro hcon
    have hs := hd.2.latest.session_of_connects hcon
    rw [hd.2.1] at hs
    cases hs
  have hq := step_quiet hd.1 hcon he h
  refine ⟨⟨hq.1.trans hd.1, ?_⟩, hq⟩
  obtain hs | hc | ⟨ha, -⟩ := step_link hd.2.latest hcon h
  · exact hd.2.sameLink hs
  · exact hc
  · rw [hd.1, he] at ha
    simp at ha

end Connector

open Connector

/-- A connector that is down stays down. -/
theorem exec_down : ∀ (es : List ConnectorEvent) (c c' : Connector), c.Down →
    (∀ e ∈ es, e.isAsyncConnect = false) → connectorMachine.exec es c = some c' →
    c'.Down ∧ c.Quiet c'
  | [], c, c', hd, _, h => by
      obtain rfl : c = c' := by simpa [Machine.exec] using h
      exact ⟨hd, Quiet.of_eq rfl rfl⟩
  | e :: es, c, c', hd, he, h => by
      obtain ⟨c₁, h₁, h₂⟩ := Option.bind_eq_some_iff.mp h
      obtain ⟨hd₁, hq₁⟩ := step_down hd (he e List.mem_cons_self) h₁
      obtain ⟨hd₂, hq₂⟩ := exec_down es c₁ c' hd₁
        (fun e' h' => he e' (List.mem_cons_of_mem _ h')) h₂
      exact ⟨hd₂, hq₁.trans hq₂⟩

/-- In the run `es`, `stop` is final: after it, and with no `asyncConnect` since, the connector is
not connected, has not called the connected callback and has started no attempt. -/
def StopFinal (es : List ConnectorEvent) : Prop :=
  ∀ es₁ es₂ c₁ c₂, es = es₁ ++ .stop :: es₂ → (∀ e ∈ es₂, e.isAsyncConnect = false) →
    connectorMachine.run (es₁ ++ [.stop]) = some c₁ → connectorMachine.run es = some c₂ →
    c₂.isConnected = false ∧ ∃ acts, c₂.history = c₁.history ++ acts ∧ ∀ act ∈ acts, act.isQuiet

theorem connector_latest {c : Connector} (h : connectorMachine.Reachable c) : c.Latest :=
  connectorMachine.invariant (P := Latest) ⟨(fun _ ha => nomatch ha), .inl (.inl rfl)⟩
    (fun _ _ _ hl => step_latest hl) h

theorem connector_truthful {es : List ConnectorEvent} {c : Connector}
    (h : connectorMachine.run es = some c) : c.Truthful :=
  connectorMachine.run_induction (P := fun _ c => c.Truthful) (fun hc => by cases hc)
    (fun es _ _ _ hrun ih hs => step_truthful (connector_latest ⟨es, hrun⟩) ih hs) h

theorem stopFinal (es : List ConnectorEvent) : StopFinal es := by
  intro es₁ es₂ c₁ c₂ he hno h₁ h₂
  have hes : es = (es₁ ++ [.stop]) ++ es₂ := by simp [he]
  rw [hes, Machine.run, Machine.exec_append, ← Machine.run, h₁] at h₂
  have hd : c₁.Down := by
    obtain ⟨c₀, h₀, hs⟩ := connectorMachine.run_snoc_eq_some h₁
    obtain rfl : c₀.stop = c₁ := by simpa [connectorMachine, step] using hs
    exact stop_down (connector_latest ⟨es₁, h₀⟩)
  obtain ⟨hd₂, -, acts, hh, hq⟩ := exec_down es₂ c₁ c₂ hd hno h₂
  exact ⟨hd₂.2.2.1, acts, hh, hq⟩

/-- **The flag is truthful and `stop` is final**, in every run. -/
theorem connector_keeps_promises (es : List ConnectorEvent) (c : Connector)
    (h : connectorMachine.run es = some c) : c.Truthful ∧ StopFinal es :=
  ⟨connector_truthful h, stopFinal es⟩

/-- A connection is lost, and `stop` comes between the end of the next connect and its handler. -/
def lateRun : List ConnectorEvent :=
  [.asyncConnect [⟨2130706433, 9000⟩] true true 5, .connectEnds 1 true, .connectHandler 1,
    .disconnect 1, .reconnectTimerExpires, .reconnectTimerHandler 0, .connectEnds 2 true, .stop,
    .connectHandler 2]

theorem lateRun_keeps_promises : ∃ c, connectorMachine.run lateRun = some c ∧
    c.history = [.attempt 1, .connectedCallback 1, .attempt 2, .failedCallback] ∧
      c.Truthful ∧ StopFinal lateRun := by
  obtain ⟨c, h⟩ : ∃ c, connectorMachine.run lateRun = some c :=
    Option.isSome_iff_exists.mp (by decide)
  have hview : (connectorMachine.run lateRun).map (·.history) =
      some [.attempt 1, .connectedCallback 1, .attempt 2, .failedCallback] := by decide
  rw [h] at hview
  exact ⟨c, h, Option.some.inj hview, connector_keeps_promises lateRun c h⟩

end BlackSwan
