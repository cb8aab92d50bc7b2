import BlackSwan.Connector
import Mathlib.Data.List.Perm.Basic

/-! # Attempts of the connector are resolved once and do not overlap

One call of `asyncConnect` starts a chain of attempts: each ends in the success handler, the
failure handler or the handler of the connect timer, whichever runs first, and a failure or a lost
session leads through the reconnect timer to the next.  The three handlers race, and the timers
are used again by the next attempt.

A `View` of the connector keeps what the attempts share, and `Move` says all that a step can do
to it.  The `Phase` is the reason that attempts do not overlap: the connector is attempting,
connected or resting, and a wait of the reconnect timer, of which there is one at the most, is
pending in the last only.  `ResolvedOnce` follows for every run with one call of `asyncConnect`,
also for the runs in which `stop` is called. -/

namespace BlackSwan

open Runs

/-! ### Pending waits of a timer -/

namespace Timer

variable {η : Type} {t t' : Timer η} {h : η} {x : η × Bool} {i : ℕ}

/-- The handlers that will still run without `operation_aborted`: the one that waits, and the
queued ones. -/
def pending (t : Timer η) : ℕ :=
  (if t.waiting.isSome then 1 else 0) + t.queued.countP (!·.2)

theorem cancel_pending (t : Timer η) : t.cancel.pending = t.queued.countP (!·.2) := by
  unfold cancel
  cases h : t.waiting <;> simp [pending, h, List.countP_append]

theorem cancel_pending_le (t : Timer η) : t.cancel.pending ≤ t.pending := by
  rw [cancel_pending]
  exact Nat.le_add_left _ _

theorem wait_pending_le (t : Timer η) (h : η) : (t.wait h).pending ≤ t.pending + 1 := by
  have hq : (t.wait h).pending = 1 + t.cancel.queued.countP (!·.2) := rfl
  have hc : t.cancel.queued.countP (!·.2) ≤ t.cancel.pending := Nat.le_add_left _ _
  have hle := t.cancel_pending_le
  omega

theorem expire_pending (he : t.expire = some t') : t'.pending = t.pending := by
  obtain ⟨h, hw, rfl⟩ := Option.map_eq_some_iff.mp he
  simp [pending, hw, List.countP_append]
  omega

/-- A handler that runs is no longer pending. -/
theorem take_pending (ht : t.take i = some (x, t')) :
    t'.pending + (if x.2 then 0 else 1) = t.pending := by
  obtain ⟨y, hy, heq⟩ := Option.map_eq_some_iff.mp ht
  obtain ⟨rfl, rfl⟩ := Prod.mk.inj heq
  obtain ⟨hi, rfl⟩ := List.getElem?_eq_some_iff.mp hy
  have hperm := (List.getElem_cons_eraseIdx_perm hi).countP_eq fun y => !y.2
  rw [List.countP_cons] at hperm
  simp only [pending]
  cases hb : t.queued[i].2 <;> simp [hb] at hperm ⊢ <;> omega

end Timer

/-! ### What an attempt leads to -/

/-- A call of one of the two callbacks that were given to `asyncConnect`. -/
def ConnectorAct.isCallback : ConnectorAct → Bool
  | .connectedCallback _ => true
  | .failedCallback => true
  | _ => false

namespace Connector

variable {c c' : Connector} {e : ConnectorEvent} {a : ℕ}

/-- The calls of the two callbacks so far. -/
def callbacks (c : Connector) : ℕ := c.history.countP (·.isCallback)

/-- The attempt whose handler the step runs. -/
def handlerOf (c : Connector) : ConnectorEvent → Option ℕ
  | .connectHandler a => some a
  | .connectTimerHandler i => (c.connectTimer_.take i).map (·.1.1)
  | _ => none

/-- The calls of the two callbacks that the step makes in a handler of attempt `a`. -/
def callbacksOf (a : ℕ) (c : Connector) (e : ConnectorEvent) : ℕ :=
  match c.step e with
  | none => 0
  | some c' => if c.handlerOf e = some a then c'.callbacks - c.callbacks else 0

/-- The handler of attempt `a` has returned at its guard: no field of the connector has changed, no
callback was called and no session was touched.  What is left of it are its own queue entry and
the flag `completed` of its attempt. -/
structure Returned (a : ℕ) (c c' : Connector) : Prop where
  same : c' = { c with attempts := c'.attempts, connectTimer_ := c'.connectTimer_ }
  others : ∀ b, b ≠ a → c'.attempts b = c.attempts b
  stopped_ : (c'.attempts a).stopped_ = (c.attempts a).stopped_
  started : (c'.attempts a).started = (c.attempts a).started
  waiting : c'.connectTimer_.waiting = c.connectTimer_.waiting

/-- The attempt has been resolved, or a newer one has been started. -/
def IsLate (a : ℕ) (c : Connector) : Prop :=
  (c.attempts a).completed = true ∨ a ≠ c.connect_attempt_

/-- Some attempt is unresolved. -/
def Unresolved (c : Connector) : Prop := ∃ a, (c.attempts a).completed = false

/-- The reconnect timer waits, or its wait is over and the handler has yet to run. -/
def ReconnectPending (c : Connector) : Prop :=
  c.reconnectTimer_.waiting.isSome ∨ ∃ x ∈ c.reconnectTimer_.queued, x.2 = false

end Connector

/-- The connect of attempt `a` has ended with success in the run `es`. -/
def Ended (es : List ConnectorEvent) (a : ℕ) : Prop := .connectEnds a true ∈ es

/-- After the run `es` the session of attempt `a` is connected and not stopped. -/
def OpenSession (es : List ConnectorEvent) (c : Connector) (a : ℕ) : Prop :=
  Ended es a ∧ (c.attempts a).stopped_ = false

/-- The attempts of the run `es` are resolved once and do not overlap. -/
structure ResolvedOnce (es : List ConnectorEvent) (c : Connector) : Prop where
  /-- an attempt leads to at most one call of a callback, -/
  once : ∀ a, connectorMachine.tally (Connector.callbacksOf a) es ≤ 1
  /-- and nothing but a handler of an attempt calls one -/
  attributed : connectorMachine.Throughout
    (fun c e c' => c.handlerOf e = none → c'.callbacks = c.callbacks) es
  late : connectorMachine.Throughout
    (fun c e c' => ∀ a, c.handlerOf e = some a → c.IsLate a → c.Returned a c') es
  oneSession : ∀ a b, OpenSession es c a → OpenSession es c b → a = b
  unresolved_or_connected : ¬ (c.Unresolved ∧ c.isConnected = true)
  unresolved_or_pending : ¬ (c.Unresolved ∧ c.ReconnectPending)
  connected_or_pending : ¬ (c.isConnected = true ∧ c.ReconnectPending)

/-! ### What a step does to the attempts -/

/-- What the attempts of a connector share. -/
structure View where
  attempts : ℕ → ConnectAttempt
  connect_attempt_ : ℕ
  session_ : Option ℕ
  connected_ : Bool
  pending : ℕ
  callbacks : ℕ

/-- The session of the attempt is stopped. -/
def ConnectAttempt.stop (x : ConnectAttempt) : ConnectAttempt :=
  if x.stopped_ then x else { x with stopped_ := true, op := x.op.close }

namespace View

def setAttempt (a : ℕ) (x : ConnectAttempt) (v : View) : View :=
  { v with attempts := Function.update v.attempts a x }

/-- The latest attempt. -/
def latest (v : View) : ConnectAttempt := v.attempts v.connect_attempt_

/-- No session, not connected, `p` pending waits and `k` more callbacks. -/
def cleared (p k : ℕ) (v : View) : View :=
  { v with session_ := none, connected_ := false, pending := p, callbacks := v.callbacks + k }

/-- A new attempt, after which `p` waits are pending. -/
def start (p : ℕ) (v : View) : View :=
  { v.setAttempt (v.connect_attempt_ + 1) ⟨false, .inFlight, false, false⟩ with
    connect_attempt_ := v.connect_attempt_ + 1
    session_ := some (v.connect_attempt_ + 1)
    connected_ := false
    pending := p }

end View

namespace Connector

variable {c c' : Connector} {e : ConnectorEvent} {a : ℕ}

def view (c : Connector) : View where
  attempts := c.attempts
  connect_attempt_ := c.connect_attempt_
  session_ := c.session_
  connected_ := c.connected_
  pending := c.reconnectTimer_.pending
  callbacks := c.callbacks

/-- All that a step can do to the attempts, the end of a connect apart. -/
inductive Move (c : Connector) (e : ConnectorEvent) : View → Prop where
  | idle (p : ℕ) (hp : p ≤ c.view.pending) : Move c e { c.view with pending := p }
  /-- `startConnect`, called by `asyncConnect` or in a handler that was pending -/
  | start (p : ℕ) (hp : e.isAsyncConnect = true ∧ p = c.view.pending ∨ p + 1 = c.view.pending) :
      Move c e (c.view.start p)
  | stopNone (p : ℕ) (hp : p ≤ c.view.pending) (hs : c.session_ = none) :
      Move c e (c.view.cleared p 0)
  | stopSession (p : ℕ) (hp : p ≤ c.view.pending) (a : ℕ) (hs : c.session_ = some a) :
      Move c e ((c.view.setAttempt a (c.attempts a).stop).cleared p 0)
  /-- a handler that returns at its guard -/
  | late (a : ℕ) (hl : c.IsLate a) (op : ConnectOp)
      (ho : op = (c.attempts a).op ∨ op = .handled) :
      Move c e (c.view.setAttempt a { c.attempts a with completed := true, op })
  | success (k : ℕ) (hk : k ≤ 1) (hh : c.handlerOf e = some c.connect_attempt_)
      (hc : c.view.latest.completed = false) (ho : c.view.latest.outcome = .succeeded) :
      Move c e { c.view.setAttempt c.connect_attempt_
        { c.view.latest with completed := true, op := .handled, started := true } with
          connected_ := true
          callbacks := c.view.callbacks + k }
  | failure (p k : ℕ) (hp : p ≤ c.view.pending + 1) (hk : k ≤ 1)
      (hh : c.handlerOf e = some c.connect_attempt_) (hc : c.view.latest.completed = false)
      (ho : c.view.latest.outcome = .failed) :
      Move c e ((c.view.setAttempt c.connect_attempt_
        { c.view.latest with completed := true, op := .handled }).cleared p k)
  | timeout (p k : ℕ) (hp : p ≤ c.view.pending + 1) (hk : k ≤ 1)
      (hh : c.handlerOf e = some c.connect_attempt_) (hc : c.view.latest.completed = false) :
      Move c e ((c.view.setAttempt c.connect_attempt_
        ({ c.view.latest with completed := true } : ConnectAttempt).stop).cleared p k)
  /-- a session that is not the connector's own stops -/
  | lostOther (a : ℕ) : Move c e (c.view.setAttempt a (c.attempts a).stop)
  | lostOwn (p : ℕ) (hp : p ≤ c.view.pending + 1) (a : ℕ) (hsta : (c.attempts a).started = true)
      (hst : (c.attempts a).stopped_ = false) (hs : c.session_ = some a) :
      Move c e ((c.view.setAttempt a (c.attempts a).stop).cleared p 0)

theorem view_call (isSet : Bool) (act : ConnectorAct) (c : Connector) :
    ∃ k ≤ 1, (act.isCallback = false → k = 0) ∧
      (c.call isSet act).view = { c.view with callbacks := c.view.callbacks + k } := by
  cases isSet with
  | false => exact ⟨0, by omega, fun _ => rfl, rfl⟩
  | true =>
      refine ⟨if act.isCallback then 1 else 0, by split <;> omega, fun h => by simp [h], ?_⟩
      simp [call, view, callbacks, List.countP_append, List.countP_singleton]

theorem view_scheduleReconnect (c : Connector) :
    ∃ p ≤ c.view.pending + 1, c.scheduleReconnect.view = { c.view with pending := p } := by
  unfold scheduleReconnect
  split_ifs
  · exact ⟨c.view.pending, Nat.le_succ _, rfl⟩
  · exact ⟨_, c.reconnectTimer_.wait_pending_le _, rfl⟩

/-- The end of `handleConnectFailure` and of `onDisconnected`. -/
theorem view_clear (isSet : Bool) (act : ConnectorAct) (c : Connector) :
    ∃ p ≤ c.view.pending + 1, ∃ k ≤ 1, (act.isCallback = false → k = 0) ∧
      (({ c with connected_ := false, session_ := none } : Connector).call isSet
        act).scheduleReconnect.view = c.view.cleared p k := by
  obtain ⟨k, hk, hk0, hcall⟩ :=
    view_call isSet act { c with connected_ := false, session_ := none }
  obtain ⟨p, hp, hsched⟩ := view_scheduleReconnect
    (({ c with connected_ := false, session_ := none } : Connector).call isSet act)
  rw [hcall] at hp hsched
  exact ⟨p, hp, k, hk, hk0, hsched⟩

theorem view_handleConnectFailure (c : Connector) :
    ∃ p ≤ c.view.pending + 1, ∃ k ≤ 1, c.handleConnectFailure.view = c.view.cleared p k := by
  obtain ⟨p, hp, k, hk, -, h⟩ := view_clear c.failed_callback_ .failedCallback c
  exact ⟨p, hp, k, hk, h⟩

theorem view_onDisconnected (h : c.session_ = some a) :
    ∃ p ≤ c.view.pending + 1, (c.onDisconnected a).view = c.view.cleared p 0 := by
  obtain ⟨p, hp, k, -, hk, hv⟩ := view_clear c.disconnect_proc_ (.disconnectProc a) c
  obtain rfl := hk rfl
  refine ⟨p, hp, ?_⟩
  rw [onDisconnected, if_neg (not_not_intro h)]
  exact hv

theorem view_closeSession (h : (c.attempts a).stopped_ = false) :
    (c.closeSession a).view = c.view.setAttempt a (c.attempts a).stop := by
  simp [closeSession, ConnectAttempt.stop, h]
  rfl

/-- A session that stops without calling back. -/
theorem view_sessionStop (h : (c.attempts a).started = false ∨ c.session_ ≠ some a) :
    (c.sessionStop a).view = c.view.setAttempt a (c.attempts a).stop := by
  unfold sessionStop
  by_cases hst : (c.attempts a).stopped_ = true
  · rw [if_pos hst, ConnectAttempt.stop, if_pos hst]
    simp [View.setAttempt, view]
  · rw [if_neg hst]
    have hclose := view_closeSession (c := c) (a := a) (by simpa using hst)
    split_ifs with hsta
    · have hne : (c.closeSession a).session_ ≠ some a := h.resolve_left (by simp [hsta])
      rw [onDisconnected_of_ne hne]
      exact hclose
    · exact hclose

theorem view_sessionStop_own (hsta : (c.attempts a).started = true)
    (hst : (c.attempts a).stopped_ = false) (h : c.session_ = some a) :
    ∃ p ≤ c.view.pending + 1,
      (c.sessionStop a).view = (c.view.setAttempt a (c.attempts a).stop).cleared p 0 := by
  obtain ⟨p, hp, hv⟩ := view_onDisconnected (c := c.closeSession a) h
  rw [view_closeSession hst] at hp hv
  refine ⟨p, hp, ?_⟩
  rw [sessionStop, if_neg (by simp [hst]), if_pos hsta]
  exact hv

theorem view_startConnect (c : Connector) :
    c.startConnect = c ∨ c.startConnect.view = c.view.start c.view.pending := by
  have hnew : c.newAttempt.view = c.view.start c.view.pending := by
    simp [newAttempt, view, View.start, View.setAttempt, callbacks, List.countP_append,
      ConnectorAct.isCallback, setAttempt]
  unfold startConnect
  split_ifs
  · exact .inl rfl
  · unfold armConnectTimer
    split_ifs
    · exact .inr hnew
    · exact .inr hnew

theorem view_onConnected (a : ℕ) (c : Connector) :
    ∃ k ≤ 1, (c.onConnected a).view =
      { c.view.setAttempt a { c.attempts a with started := true } with
        connected_ := true
        callbacks := c.view.callbacks + k } := by
  obtain ⟨k, hk, -, hv⟩ := view_call c.connected_callback_ (.connectedCallback a)
    (c.setAttempt a { c.attempts a with started := true })
  refine ⟨k, hk, ?_⟩
  have hon : (c.onConnected a).view =
      { ((c.setAttempt a { c.attempts a with started := true }).call c.connected_callback_
          (.connectedCallback a)).view with connected_ := true } := rfl
  rw [hon, hv]
  rfl

theorem isCurrent_iff :
    c.isCurrent a = true ↔ (c.attempts a).completed = false ∧ a = c.connect_attempt_ := by
  simp [isCurrent]

theorem isLate_iff : c.IsLate a ↔ ¬ c.isCurrent a = true := by
  rw [isCurrent_iff, IsLate, not_and_or, Bool.not_eq_false]

/-- Either way, the guard of a handler leaves its attempt handled and completed. -/
theorem view_handled (a : ℕ) (c : Connector) :
    ((c.setOp a .handled).complete a).view =
      c.view.setAttempt a { c.attempts a with completed := true, op := .handled } := by
  simp [view, complete, setOp, setAttempt, View.setAttempt, callbacks]

theorem move_connectHandler (h : c.step (.connectHandler a) = some c') :
    c.Move (.connectHandler a) c'.view := by
  have hlate (hc : ¬ c.isCurrent a = true) :
      c.Move (.connectHandler a) ((c.setOp a .handled).complete a).view := by
    rw [view_handled]
    exact .late a (isLate_iff.mpr hc) .handled (.inr rfl)
  cases ho : (c.attempts a).outcome with
  | succeeded =>
      obtain rfl : (c.setOp a .handled).onConnectSuccess a = c' := by simpa [step, ho] using h
      rw [onConnectSuccess, isCurrent_setOp]
      split_ifs with hc
      · obtain ⟨hcomp, rfl⟩ := isCurrent_iff.mp hc
        obtain ⟨k, hk, hv⟩ := view_onConnected c.connect_attempt_
          ((c.setOp c.connect_attempt_ .handled).complete c.connect_attempt_).cancelConnectTimer
        rw [hv]
        have hmove := Move.success (c := c) (e := .connectHandler c.connect_attempt_) k hk rfl
          hcomp ho
        convert hmove using 2
        simp [view, View.setAttempt, View.latest, complete, setOp, setAttempt, cancelConnectTimer,
          callbacks]
      · exact hlate hc
  | failed =>
      obtain rfl : (c.setOp a .handled).onConnectError a = c' := by simpa [step, ho] using h
      rw [onConnectError, isCurrent_setOp]
      split_ifs with hc
      · obtain ⟨hcomp, rfl⟩ := isCurrent_iff.mp hc
        obtain ⟨p, hp, k, hk, hv⟩ := view_handleConnectFailure
          ((c.setOp c.connect_attempt_ .handled).complete c.connect_attempt_).cancelConnectTimer
        have hpre : ((c.setOp c.connect_attempt_ .handled).complete
            c.connect_attempt_).cancelConnectTimer.view = _ := view_handled c.connect_attempt_ c
        rw [hpre] at hp hv
        rw [hv]
        exact .failure p k hp hk rfl hcomp ho
      · exact hlate hc
  | _ => simp [step, ho] at h

theorem move_connectTimerHandler {i : ℕ}
    (hu : ∀ a, (c.attempts a).completed = false → (c.attempts a).started = false)
    (h : c.step (.connectTimerHandler i) = some c') : c.Move (.connectTimerHandler i) c'.view := by
  obtain ⟨⟨⟨a, error⟩, t⟩, ht, rfl⟩ := Option.map_eq_some_iff.mp h
  unfold onConnectTimeout
  split_ifs with herr hc
  · exact .idle c.view.pending le_rfl
  · obtain ⟨hcomp, ha⟩ : (c.attempts a).completed = false ∧ a = c.connect_attempt_ :=
      isCurrent_iff.mp hc
    obtain rfl := ha
    have hh : c.handlerOf (.connectTimerHandler i) = some c.connect_attempt_ := by
      simp [handlerOf, ht]
    obtain ⟨p, hp, k, hk, hv⟩ := view_handleConnectFailure
      ((({ c with connectTimer_ := t } : Connector).complete c.connect_attempt_).sessionStop
        c.connect_attempt_)
    rw [view_sessionStop (.inl (by simpa [complete, setAttempt] using hu _ hcomp))] at hp hv
    rw [hv]
    have hmove := Move.timeout (c := c) (e := .connectTimerHandler i) p k hp hk hh hcomp
    convert hmove using 2
    simp [view, View.setAttempt, View.latest, complete, setAttempt, callbacks]
  · have hmove := Move.late (c := c) (e := .connectTimerHandler i) a (isLate_iff.mpr hc)
      (c.attempts a).op (.inl rfl)
    exact hmove

theorem move_reconnectTimerHandler {i : ℕ} (h : c.step (.reconnectTimerHandler i) = some c') :
    c.Move (.reconnectTimerHandler i) c'.view := by
  obtain ⟨⟨⟨u, error⟩, t⟩, ht, rfl⟩ := Option.map_eq_some_iff.mp h
  have hp := Timer.take_pending ht
  have hle : t.pending ≤ c.view.pending := Nat.le.intro hp
  unfold onReconnect
  split_ifs with herr
  · exact .idle t.pending hle
  · obtain heq | hv := view_startConnect { c with reconnectTimer_ := t }
    · rw [heq]
      exact .idle t.pending hle
    · rw [hv]
      have herr' : error = false := by simpa using herr
      exact .start t.pending (.inr (by simpa [herr', view] using hp))

theorem move_stop (c : Connector) : c.Move .stop c.stop.view := by
  have hdown : c.shutDown.view = c.view.cleared c.reconnectTimer_.cancel.pending 0 := rfl
  have hp : c.reconnectTimer_.cancel.pending ≤ c.view.pending :=
    c.reconnectTimer_.cancel_pending_le
  unfold stop
  split
  · rename_i hs
    rw [hdown]
    exact .stopNone _ hp hs
  · rename_i a hs
    rw [view_sessionStop (.inr (by simp [shutDown])), hdown]
    exact .stopSession _ hp a hs

theorem step_move (hu : ∀ a, (c.attempts a).completed = false → (c.attempts a).started = false)
    (he : ∀ a success, e ≠ .connectEnds a success) (h : c.step e = some c') :
    c.Move e c'.view := by
  cases e with
  | asyncConnect eps cb fcb timeout =>
      obtain rfl : c.asyncConnect eps cb fcb timeout = c' := by simpa [step] using h
      unfold asyncConnect
      obtain heq | hv := view_startConnect ({ c with
        endpoints_ := eps
        connect_timeout_ := timeout
        connected_callback_ := cb
        failed_callback_ := fcb
        retry_delay_ := initial_retry_delay_
        auto_reconnect_ := true } : Connector)
      · rw [heq]
        exact .idle c.view.pending le_rfl
      · rw [hv]
        exact .start c.view.pending (.inl ⟨rfl, rfl⟩)
  | setDisconnectProc isSet =>
      obtain rfl : { c with disconnect_proc_ := isSet } = c' := by simpa [step] using h
      exact .idle c.view.pending le_rfl
  | stop =>
      obtain rfl : c.stop = c' := by simpa [step] using h
      exact move_stop c
  | connectEnds a success => exact absurd rfl (he a success)
  | connectHandler a => exact move_connectHandler h
  | connectTimerExpires =>
      obtain ⟨t, -, rfl⟩ := Option.map_eq_some_iff.mp h
      exact .idle c.view.pending le_rfl
  | connectTimerHandler i => exact move_connectTimerHandler hu h
  | reconnectTimerExpires =>
      obtain ⟨t, ht, rfl⟩ := Option.map_eq_some_iff.mp h
      exact .idle t.pending (Timer.expire_pending ht).le
  | reconnectTimerHandler i => exact move_reconnectTimerHandler h
  | disconnect a =>
      simp only [step] at h
      split_ifs at h with hg
      obtain rfl := Option.some.inj h
      obtain ⟨hsta, hst⟩ : (c.attempts a).started = true ∧ (c.attempts a).stopped_ = false := by
        simpa using hg
      by_cases hs : c.session_ = some a
      · obtain ⟨p, hp, hv⟩ := view_sessionStop_own hsta hst hs
        rw [hv]
        exact .lostOwn p hp a hsta hst hs
      · rw [view_sessionStop (.inr hs)]
        exact .lostOther a

end Connector

/-! ### One attempt -/

/-- An attempt that has not been made. -/
def noAttempt : ConnectAttempt := ⟨true, .handled, true, false⟩

/-- What holds of the attempt `a`, when `n` is the latest one and `ended` says that the connect of
`a` has succeeded. -/
structure AttemptFacts (n a : ℕ) (ended : Prop) (x : ConnectAttempt) : Prop where
  unresolved : x.completed = false → a = n ∧ x.started = false
  inFlight : x.op = .inFlight → x.completed = false ∧ x.stopped_ = false
  hasEnded : x.started = true ∨ x.op = .succeeded → ended
  notEnded : x.op = .inFlight ∨ x.op = .failed → ¬ ended
  openLatest : ended → x.stopped_ = true ∨ a = n
  fresh : n < a → x = noAttempt ∧ ¬ ended

namespace ConnectAttempt

variable (x : ConnectAttempt)

@[simp] theorem stop_stopped_ : x.stop.stopped_ = true := by
  unfold stop
  split_ifs with h
  · exact h
  · rfl

@[simp] theorem stop_completed : x.stop.completed = x.completed := by
  unfold stop
  split_ifs <;> rfl

@[simp] theorem stop_started : x.stop.started = x.started := by
  unfold stop
  split_ifs <;> rfl

theorem stop_complete :
    ({ x with completed := true } : ConnectAttempt).stop = { x.stop with completed := true } := by
  unfold stop
  dsimp only
  split_ifs <;> rfl

theorem stop_op : x.stop.op = x.op ∨ x.op = .inFlight ∧ x.stop.op = .failed := by
  unfold stop
  split_ifs
  · exact .inl rfl
  · cases x.op <;> simp [ConnectOp.close]

end ConnectAttempt

namespace AttemptFacts

variable {n a : ℕ} {ended : Prop} {x : ConnectAttempt}

theorem resolved (h : AttemptFacts n a ended x) (hl : x.completed = true ∨ a ≠ n) :
    x.completed = true := by
  by_contra hc
  have ha := (h.unresolved (by simpa using hc)).1
  exact hl.elim hc fun hne => hne ha

theorem stop (h : AttemptFacts n a ended x) : AttemptFacts n a ended x.stop where
  unresolved := by simpa using h.unresolved
  inFlight := by
    intro ho
    -- closing the socket has ended the connect, or the session was stopped before
    unfold ConnectAttempt.stop at ho
    split_ifs at ho with hst
    · rw [(h.inFlight ho).2] at hst
      cases hst
    · cases hop : x.op <;> simp [hop, ConnectOp.close] at ho
  hasEnded := by
    intro ho
    obtain heq | ⟨-, heq⟩ := x.stop_op
    · exact h.hasEnded (by simpa [heq] using ho)
    · exact h.hasEnded (.inl (by simpa [heq] using ho))
  notEnded := by
    intro ho
    obtain heq | ⟨hop, -⟩ := x.stop_op
    · exact h.notEnded (by simpa [heq] using ho)
    · exact h.notEnded (.inl hop)
  openLatest := fun _ => .inl x.stop_stopped_
  fresh := by
    intro hlt
    obtain ⟨rfl, he⟩ := h.fresh hlt
    exact ⟨rfl, he⟩

/-- A handler has set `completed`, and has not left the connect in flight. -/
theorem settle (h : AttemptFacts n a ended x) {op : ConnectOp}
    (ho : op = x.op ∧ x.op ≠ .inFlight ∨ op = .handled) :
    AttemptFacts n a ended { x with completed := true, op } where
  unresolved := by
    intro hc
    cases hc
  inFlight := by
    intro hop
    obtain ⟨rfl, hne⟩ | rfl := ho
    · exact absurd hop hne
    · cases hop
  hasEnded := by
    rintro (hsta | hop)
    · exact h.hasEnded (.inl hsta)
    · obtain ⟨rfl, -⟩ | rfl := ho
      · exact h.hasEnded (.inr hop)
      · cases hop
  notEnded := by
    intro hop
    obtain ⟨rfl, -⟩ | rfl := ho
    · exact h.notEnded hop
    · simp at hop
  openLatest := h.openLatest
  fresh := by
    intro hlt
    obtain ⟨rfl, he⟩ := h.fresh hlt
    obtain ⟨rfl, -⟩ | rfl := ho
    · exact ⟨rfl, he⟩
    · exact ⟨rfl, he⟩

/-- `onConnected` has started the session of an attempt whose connect has succeeded. -/
theorem start (h : AttemptFacts n a ended x) (hc : x.completed = true) (he : ended) :
    AttemptFacts n a ended { x with started := true } where
  unresolved := by
    intro hc'
    rw [hc] at hc'
    cases hc'
  inFlight := h.inFlight
  hasEnded := fun _ => he
  notEnded := h.notEnded
  openLatest := h.openLatest
  fresh := fun hlt => absurd he (h.fresh hlt).2

/-- The connect ends. -/
theorem connectEnds (h : AttemptFacts n a ended x) (hop : x.op = .inFlight) (success : Bool) :
    AttemptFacts n a (ended ∨ success = true)
      { x with op := if success then .succeeded else .failed } where
  unresolved := h.unresolved
  inFlight := by cases success <;> simp
  hasEnded := by
    rintro (hsta | ho)
    · exact .inl (h.hasEnded (.inl hsta))
    · cases success
      · cases ho
      · exact .inr rfl
  notEnded := by
    have hne := h.notEnded (.inl hop)
    cases success <;> simp [hne]
  openLatest := fun _ => .inr (h.unresolved (h.inFlight hop).1).1
  fresh := by
    intro hlt
    obtain ⟨rfl, -⟩ := h.fresh hlt
    cases hop

/-- Another attempt is started after this one. -/
theorem supersede (h : AttemptFacts n a ended x) (hc : x.completed = true)
    (hst : ended → x.stopped_ = true) : AttemptFacts (n + 1) a ended x where
  unresolved := by
    intro hc'
    rw [hc] at hc'
    cases hc'
  inFlight := h.inFlight
  hasEnded := h.hasEnded
  notEnded := h.notEnded
  openLatest := fun he => .inl (hst he)
  fresh := fun hlt => h.fresh (by omega)

theorem new (he : ¬ ended) : AttemptFacts n n ended ⟨false, .inFlight, false, false⟩ where
  unresolved := fun _ => ⟨rfl, rfl⟩
  inFlight := fun _ => ⟨rfl, rfl⟩
  hasEnded := by simp
  notEnded := fun _ => he
  openLatest := fun h => absurd h he
  fresh := fun hlt => absurd hlt (lt_irrefl n)

/-- Before the attempt is made. -/
theorem none (he : ¬ ended) : AttemptFacts n a ended noAttempt where
  unresolved := nofun
  inFlight := nofun
  hasEnded := by simp [noAttempt]
  notEnded := fun _ => he
  openLatest := fun h => absurd h he
  fresh := fun _ => ⟨rfl, he⟩

end AttemptFacts

/-! ### The phases -/

/-- The connector can stop the session of the latest attempt, or the session has been stopped. -/
def View.Held (v : View) : Prop :=
  v.latest.stopped_ = true ∨ v.session_ = some v.connect_attempt_

/-- No wait of the reconnect timer is pending while the connector attempts or is connected; while it
rests, every session it had is stopped and at most one wait is pending. -/
inductive Phase (ended : ℕ → Prop) (v : View) : Prop where
  | attempting (hn : v.latest.completed = false) (hcon : v.connected_ = false)
      (hp : v.pending = 0) (hh : v.Held)
  | connected (hall : ∀ a, (v.attempts a).completed = true) (hcon : v.connected_ = true)
      (hp : v.pending = 0) (hh : v.Held)
  | resting (hall : ∀ a, (v.attempts a).completed = true) (hcon : v.connected_ = false)
      (hp : v.pending ≤ 1) (hst : ∀ a, ended a → (v.attempts a).stopped_ = true)

/-- The invariant: the facts of every attempt, and the phase. -/
structure Orderly (ended : ℕ → Prop) (v : View) : Prop where
  facts : ∀ a, AttemptFacts v.connect_attempt_ a (ended a) (v.attempts a)
  phase : Phase ended v

section Orderly

variable {ended : ℕ → Prop} {v : View} {x : ConnectAttempt} {a p k : ℕ}

theorem Orderly.setAttempt (h : Orderly ended v)
    (hx : AttemptFacts v.connect_attempt_ a (ended a) x) (b : ℕ) :
    AttemptFacts v.connect_attempt_ b (ended b) ((v.setAttempt a x).attempts b) := by
  revert b
  exact (Function.forall_update_iff v.attempts
    fun b => AttemptFacts v.connect_attempt_ b (ended b)).mpr ⟨hx, fun b _ => h.facts b⟩

theorem setAttempt_completed (hx : x.completed = (v.attempts a).completed) (b : ℕ) :
    ((v.setAttempt a x).attempts b).completed = (v.attempts b).completed := by
  by_cases hb : b = a
  · subst hb
    simpa [View.setAttempt] using hx
  · simp [View.setAttempt, hb]

theorem setAttempt_unresolved (hx : x.completed = false → (v.attempts a).completed = false) {b : ℕ}
    (hb : ((v.setAttempt a x).attempts b).completed = false) :
    (v.attempts b).completed = false := by
  by_cases hba : b = a
  · subst hba
    exact hx (by simpa [View.setAttempt] using hb)
  · simpa [View.setAttempt, hba] using hb

theorem setAttempt_stopped_ (hx : (v.attempts a).stopped_ = true → x.stopped_ = true) {b : ℕ}
    (hb : (v.attempts b).stopped_ = true) : ((v.setAttempt a x).attempts b).stopped_ = true := by
  by_cases hba : b = a
  · subst hba
    simpa [View.setAttempt] using hx hb
  · simpa [View.setAttempt, hba] using hb

/-- A step that changes neither the flags nor the session, and stops sessions at the most. -/
theorem Phase.same (h : Phase ended v) (hc : x.completed = (v.attempts a).completed)
    (hx : (v.attempts a).stopped_ = true → x.stopped_ = true) : Phase ended (v.setAttempt a x) := by
  have hheld : v.Held → (v.setAttempt a x).Held := fun hh => hh.imp (setAttempt_stopped_ hx) id
  cases h with
  | attempting hn hcon hp hh =>
      exact .attempting ((setAttempt_completed hc _).trans hn) hcon hp (hheld hh)
  | connected hall hcon hp hh =>
      exact .connected (fun b => (setAttempt_completed hc b).trans (hall b)) hcon hp (hheld hh)
  | resting hall hcon hp hst =>
      exact .resting (fun b => (setAttempt_completed hc b).trans (hall b)) hcon hp
        fun b hb => setAttempt_stopped_ hx (hst b hb)

theorem Orderly.idle (h : Orderly ended v) (hp : p ≤ v.pending) :
    Orderly ended { v with pending := p } := by
  refine ⟨h.facts, ?_⟩
  cases h.phase with
  | attempting hn hcon hp' hh => exact .attempting hn hcon (by simpa [hp'] using hp) hh
  | connected hall hcon hp' hh => exact .connected hall hcon (by simpa [hp'] using hp) hh
  | resting hall hcon hp' hst => exact .resting hall hcon (hp.trans hp') hst

/-- An unresolved attempt is the latest one. -/
theorem Orderly.completed_of_ne (h : Orderly ended v) (hne : a ≠ v.connect_attempt_) :
    (v.attempts a).completed = true := (h.facts a).resolved (.inr hne)

/-- Once the latest attempt is resolved, all are. -/
theorem Orderly.all_completed (h : Orderly ended v) (hx : x.completed = true) (b : ℕ) :
    ((v.setAttempt v.connect_attempt_ x).attempts b).completed = true := by
  by_cases hb : b = v.connect_attempt_
  · simpa [View.setAttempt, hb] using hx
  · simpa [View.setAttempt, hb] using h.completed_of_ne hb

/-- Once the latest session is stopped, all that have been connected are. -/
theorem Orderly.all_stopped (h : Orderly ended v)
    (hx : ended v.connect_attempt_ → x.stopped_ = true) (b : ℕ) (hb : ended b) :
    ((v.setAttempt v.connect_attempt_ x).attempts b).stopped_ = true := by
  by_cases hbn : b = v.connect_attempt_
  · subst hbn
    simpa [View.setAttempt] using hx hb
  · simpa [View.setAttempt, hbn] using ((h.facts b).openLatest hb).resolve_right hbn

theorem Phase.of_unresolved (h : Phase ended v) (hn : v.latest.completed = false) :
    v.connected_ = false ∧ v.pending = 0 ∧ v.Held := by
  cases h with
  | attempting _ hcon hp hh => exact ⟨hcon, hp, hh⟩
  | connected hall =>
      rw [View.latest, hall] at hn
      cases hn
  | resting hall =>
      rw [View.latest, hall] at hn
      cases hn

/-- The latest attempt has failed. -/
theorem Orderly.fail (h : Orderly ended v) (hn : v.latest.completed = false)
    (hx : AttemptFacts v.connect_attempt_ v.connect_attempt_ (ended v.connect_attempt_) x)
    (hc : x.completed = true) (hst : ended v.connect_attempt_ → x.stopped_ = true)
    (hp : p ≤ v.pending + 1) :
    Orderly ended ((v.setAttempt v.connect_attempt_ x).cleared p k) := by
  rw [(h.phase.of_unresolved hn).2.1] at hp
  exact ⟨h.setAttempt hx, .resting (h.all_completed hc) rfl hp (h.all_stopped hst)⟩

theorem Orderly.success (h : Orderly ended v) (hn : v.latest.completed = false)
    (ho : v.latest.op = .succeeded) :
    Orderly ended { v.setAttempt v.connect_attempt_
      { v.latest with completed := true, op := .handled, started := true } with
        connected_ := true
        callbacks := v.callbacks + k } := by
  obtain ⟨-, hp, hh⟩ := h.phase.of_unresolved hn
  have hx := (h.facts v.connect_attempt_).settle (.inr rfl)
  have hend := (h.facts v.connect_attempt_).hasEnded (.inr ho)
  refine ⟨h.setAttempt (hx.start rfl hend), .connected (h.all_completed rfl) rfl hp ?_⟩
  refine hh.imp (fun hst => ?_) id
  simpa [View.latest, View.setAttempt] using hst

/-- A new attempt can only be started at rest. -/
theorem Orderly.start (h : Orderly ended v) (hcon : v.connected_ = false)
    (hall : ∀ a, (v.attempts a).completed = true) : Orderly ended (v.start 0) := by
  have hst : ∀ a, ended a → (v.attempts a).stopped_ = true := by
    cases h.phase with
    | attempting hn =>
        rw [View.latest, hall] at hn
        cases hn
    | connected _ hcon' =>
        rw [hcon] at hcon'
        cases hcon'
    | resting _ _ _ hst => exact hst
  constructor
  · refine (Function.forall_update_iff v.attempts
      fun b => AttemptFacts (v.connect_attempt_ + 1) b (ended b)).mpr ⟨?_, fun b _ => ?_⟩
    · exact .new ((h.facts _).fresh (Nat.lt_succ_self _)).2
    · exact (h.facts b).supersede (hall b) (hst b)
  · exact .attempting (by simp [View.start, View.latest, View.setAttempt]) rfl rfl (.inr rfl)

/-- A wait that is pending means that the connector is at rest. -/
theorem Phase.resting_of_pending (h : Phase ended v) (hp : 0 < v.pending) :
    (∀ a, (v.attempts a).completed = true) ∧ v.connected_ = false ∧ v.pending = 1 := by
  cases h with
  | attempting _ _ hp' => omega
  | connected _ _ hp' => omega
  | resting hall hcon hp' => exact ⟨hall, hcon, by omega⟩

/-- A started session that is not stopped is the latest one, and the connector is connected. -/
theorem Orderly.lost (h : Orderly ended v) (hsta : (v.attempts a).started = true)
    (hst : (v.attempts a).stopped_ = false) :
    a = v.connect_attempt_ ∧ (v.attempts a).completed = true ∧ v.pending = 0 := by
  have hend := (h.facts a).hasEnded (.inl hsta)
  have hc : (v.attempts a).completed = true := by
    by_contra hc
    rw [((h.facts a).unresolved (by simpa using hc)).2] at hsta
    cases hsta
  have ha := ((h.facts a).openLatest hend).resolve_left (by simp [hst])
  refine ⟨ha, hc, ?_⟩
  cases h.phase with
  | attempting _ _ hp => exact hp
  | connected _ _ hp => exact hp
  | resting _ _ _ hst' =>
      rw [hst' a hend] at hst
      cases hst

/-- `stop`: whatever the phase, the latest session is stopped and nothing new is scheduled. -/
theorem Orderly.shutDown (h : Orderly ended v)
    (hx : AttemptFacts v.connect_attempt_ a (ended a) x)
    (hc : x.completed = (v.attempts a).completed)
    (hst : (v.attempts a).stopped_ = true → x.stopped_ = true)
    (hn : v.Held → (v.setAttempt a x).latest.stopped_ = true) (hp : p ≤ v.pending) :
    Orderly ended ((v.setAttempt a x).cleared p 0) := by
  refine ⟨h.setAttempt hx, ?_⟩
  cases h.phase with
  | attempting hn' hcon hp' hh =>
      have hp0 : p = 0 := by omega
      exact .attempting ((setAttempt_completed hc _).trans hn') rfl hp0 (.inl (hn hh))
  | connected hall hcon hp' hh =>
      refine .resting (fun b => (setAttempt_completed hc b).trans (hall b)) rfl
        (by rw [hp'] at hp; exact hp.trans (Nat.zero_le 1)) fun b hb => ?_
      obtain hb | rfl := (h.facts b).openLatest hb
      · exact setAttempt_stopped_ hst hb
      · exact hn hh
  | resting hall hcon hp' hst' =>
      exact .resting (fun b => (setAttempt_completed hc b).trans (hall b)) rfl (hp.trans hp')
        fun b hb => setAttempt_stopped_ hst (hst' b hb)

/-- The connect of an attempt ends, which is then the latest one and unresolved. -/
theorem Orderly.connectEnds (h : Orderly ended v) (hop : (v.attempts a).op = .inFlight)
    (success : Bool) :
    Orderly (fun b => ended b ∨ b = a ∧ success = true)
      (v.setAttempt a { v.attempts a with op := if success then .succeeded else .failed }) := by
  have hc := ((h.facts a).inFlight hop).1
  obtain ⟨rfl, -⟩ := (h.facts a).unresolved hc
  obtain ⟨hcon, hp, hh⟩ := h.phase.of_unresolved hc
  constructor
  · refine (Function.forall_update_iff v.attempts fun b => AttemptFacts v.connect_attempt_ b
      (ended b ∨ b = v.connect_attempt_ ∧ success = true)).mpr ⟨?_, fun b hb => ?_⟩
    · simpa using (h.facts v.connect_attempt_).connectEnds hop success
    · simpa [hb] using h.facts b
  · refine .attempting (by simpa [View.latest, View.setAttempt] using hc) hcon hp ?_
    refine hh.imp (fun hst => ?_) id
    simpa [View.latest, View.setAttempt] using hst

end Orderly

namespace Connector

variable {c c' : Connector} {e : ConnectorEvent} {ended : ℕ → Prop} {v : View} {a : ℕ}

/-- Every move keeps the invariant, if `asyncConnect` is called at rest. -/
theorem Move.orderly (hm : c.Move e v) (h : Orderly ended c.view)
    (hasync : e.isAsyncConnect = true → c.view.pending = 0 ∧ c.view.connected_ = false ∧
      ∀ a, (c.attempts a).completed = true) : Orderly ended v := by
  cases hm with
  | idle p hp => exact h.idle hp
  | start p hp =>
      obtain ⟨he, rfl⟩ | hp := hp
      · obtain ⟨hp, hcon, hall⟩ := hasync he
        rw [hp]
        exact h.start hcon hall
      · obtain ⟨hall, hcon, hp1⟩ := h.phase.resting_of_pending (by omega)
        obtain rfl : p = 0 := by omega
        exact h.start hcon hall
  | stopNone p hp hs =>
      have hself : c.view.setAttempt 0 (c.view.attempts 0) = c.view := by
        simp [View.setAttempt]
      have hdown := h.shutDown (h.facts 0) rfl id (fun hh => ?_) hp
      · rwa [hself] at hdown
      · rw [hself]
        refine hh.resolve_right fun hs' => ?_
        rw [view, hs] at hs'
        cases hs'
  | stopSession p hp a hs =>
      refine h.shutDown (h.facts a).stop (by simp [view]) (fun _ => by simp) (fun hh => ?_) hp
      obtain hst | hs' := hh
      · exact setAttempt_stopped_ (fun _ => by simp) hst
      · obtain rfl : a = c.connect_attempt_ := Option.some.inj (hs.symm.trans hs')
        simp [View.latest, View.setAttempt, view]
  | late a hl op ho =>
      have hc : (c.attempts a).completed = true := (h.facts a).resolved hl
      refine ⟨h.setAttempt ((h.facts a).settle ?_), h.phase.same ?_ id⟩
      · refine ho.imp (fun heq => ⟨heq, fun hop => ?_⟩) id
        have := ((h.facts a).inFlight hop).1
        rw [view, hc] at this
        cases this
      · exact hc.symm
  | success k hk hh hc ho => exact h.success hc (ConnectAttempt.outcome_eq_succeeded.mp ho).1
  | failure p k hp hk hh hc ho =>
      refine h.fail hc ((h.facts _).settle (.inr rfl)) rfl (fun hend => ?_) hp
      -- a connect that succeeded only fails because its session has been stopped
      obtain hop | ⟨-, hst⟩ := ConnectAttempt.outcome_eq_failed.mp ho
      · exact absurd hend ((h.facts _).notEnded (.inr hop))
      · exact hst
  | timeout p k hp hk hh hc =>
      refine h.fail hc ?_ (by simp) (fun _ => by simp) hp
      rw [ConnectAttempt.stop_complete]
      refine (h.facts _).stop.settle (.inl ⟨rfl, fun hop => ?_⟩)
      have hst := ((h.facts _).stop.inFlight hop).2
      rw [ConnectAttempt.stop_stopped_] at hst
      cases hst
  | lostOther a =>
      exact ⟨h.setAttempt (h.facts a).stop, h.phase.same (by simp [view]) fun _ => by simp⟩
  | lostOwn p hp a hsta hst hs =>
      obtain ⟨rfl, hc, hp0⟩ := h.lost hsta hst
      rw [hp0] at hp
      refine ⟨h.setAttempt (h.facts _).stop, .resting (h.all_completed ?_) rfl hp
        (h.all_stopped fun _ => by simp)⟩
      exact (ConnectAttempt.stop_completed _).trans hc

theorem step_connectEnds {success : Bool} (h : c.step (.connectEnds a success) = some c') :
    (c.attempts a).op = .inFlight ∧ c'.view = c.view.setAttempt a
      { c.attempts a with op := if success then .succeeded else .failed } := by
  obtain ⟨hop, rfl⟩ : (c.attempts a).op = .inFlight ∧
      c.setOp a (if success then .succeeded else .failed) = c' := by simpa [step] using h
  exact ⟨hop, rfl⟩

/-- **What a step can do.** -/
theorem step_cases (hu : ∀ a, (c.attempts a).completed = false → (c.attempts a).started = false)
    (h : c.step e = some c') :
    (∃ a success, e = .connectEnds a success ∧ (c.attempts a).op = .inFlight ∧
      c'.view = c.view.setAttempt a
        { c.attempts a with op := if success then .succeeded else .failed }) ∨
    ((∀ a success, e ≠ .connectEnds a success) ∧ c.Move e c'.view) := by
  by_cases he : ∃ a success, e = .connectEnds a success
  · obtain ⟨a, success, rfl⟩ := he
    exact .inl ⟨a, success, rfl, step_connectEnds h⟩
  · have he' : ∀ a success, e ≠ .connectEnds a success := fun a success heq => he ⟨a, success, heq⟩
    exact .inr ⟨he', step_move hu he' h⟩

/-- A move calls a callback only in a handler of the latest attempt, and resolves it. -/
theorem Move.callbacks (hm : c.Move e v) : v.callbacks = c.callbacks ∨
    c.handlerOf e = some c.connect_attempt_ ∧ c.view.latest.completed = false ∧
      v.connect_attempt_ = c.connect_attempt_ ∧ v.latest.completed = true ∧
      v.callbacks ≤ c.callbacks + 1 := by
  cases hm with
  | success k hk hh hc ho =>
      exact .inr ⟨hh, hc, rfl, by simp [View.latest, View.setAttempt, view],
        Nat.add_le_add_left hk _⟩
  | failure p k hp hk hh hc ho =>
      exact .inr ⟨hh, hc, rfl, by simp [View.latest, View.setAttempt, View.cleared, view],
        Nat.add_le_add_left hk _⟩
  | timeout p k hp hk hh hc =>
      exact .inr ⟨hh, hc, rfl, by simp [View.latest, View.setAttempt, View.cleared, view],
        Nat.add_le_add_left hk _⟩
  | _ => exact .inl rfl

/-- An attempt that is new or unresolved after a move was so before. -/
theorem Move.uncounted (hm : c.Move e v)
    (h : v.connect_attempt_ < a ∨ (v.attempts a).completed = false) :
    c.connect_attempt_ < a ∨ (c.attempts a).completed = false := by
  cases hm with
  | idle p hp => exact h
  | start p hp =>
      by_cases ha : a = c.connect_attempt_ + 1
      · exact .inl (by omega)
      · refine h.imp (fun hlt => ?_) fun hc => ?_
        · exact (Nat.lt_succ_self _).trans hlt
        · simpa [View.start, View.setAttempt, view, ha] using hc
  | stopNone p hp hs => exact h
  | stopSession p hp b hs => exact h.imp id (setAttempt_unresolved (v := c.view) (by simp [view]))
  | late b hl op ho => exact h.imp id (setAttempt_unresolved (v := c.view) (by simp))
  | success k hk hh hc ho => exact h.imp id (setAttempt_unresolved (v := c.view) (by simp))
  | failure p k hp hk hh hc ho => exact h.imp id (setAttempt_unresolved (v := c.view) (by simp))
  | timeout p k hp hk hh hc => exact h.imp id (setAttempt_unresolved (v := c.view) (by simp))
  | lostOther b => exact h.imp id (setAttempt_unresolved (v := c.view) (by simp [view]))
  | lostOwn p hp b hsta hst hs =>
      exact h.imp id (setAttempt_unresolved (v := c.view) (by simp [view]))

/-- A handler of an attempt that is resolved or superseded returns at its guard. -/
theorem step_returned (hh : c.handlerOf e = some a) (hl : c.IsLate a) (h : c.step e = some c') :
    c.Returned a c' := by
  rw [isLate_iff] at hl
  cases e with
  | connectHandler b =>
      obtain rfl : b = a := Option.some.inj hh
      have hdone : c.Returned b ((c.setOp b .handled).complete b) :=
        ⟨rfl, fun b' hb' => by simp [complete, setOp, setAttempt, hb'],
          by simp [complete, setOp, setAttempt], by simp [complete, setOp, setAttempt], rfl⟩
      cases ho : (c.attempts b).outcome with
      | succeeded =>
          obtain rfl : (c.setOp b .handled).onConnectSuccess b = c' := by simpa [step, ho] using h
          rw [onConnectSuccess, isCurrent_setOp, if_neg hl]
          exact hdone
      | failed =>
          obtain rfl : (c.setOp b .handled).onConnectError b = c' := by simpa [step, ho] using h
          rw [onConnectError, isCurrent_setOp, if_neg hl]
          exact hdone
      | _ => simp [step, ho] at h
  | connectTimerHandler i =>
      obtain ⟨⟨⟨b, error⟩, t⟩, ht, rfl⟩ := Option.map_eq_some_iff.mp h
      obtain rfl : b = a := by simpa [handlerOf, ht] using hh
      have hw : t.waiting = c.connectTimer_.waiting := by
        obtain ⟨x, -, heq⟩ := Option.map_eq_some_iff.mp ht
        rw [← (Prod.mk.inj heq).2]
      unfold onConnectTimeout
      split_ifs with herr hc
      · exact ⟨rfl, fun _ _ => rfl, rfl, rfl, hw⟩
      · exact absurd hc hl
      · exact ⟨rfl, fun b' hb' => by simp [complete, setAttempt, hb'],
          by simp [complete, setAttempt], by simp [complete, setAttempt], hw⟩
  | _ => cases hh

/-! ### Before `asyncConnect` -/

/-- The connector has made no attempt. -/
structure Untouched (c : Connector) : Prop where
  attempts : c.attempts = fun _ => noAttempt
  connectTimer_ : c.connectTimer_ = ⟨none, []⟩
  reconnectTimer_ : c.reconnectTimer_ = ⟨none, []⟩
  session_ : c.session_ = none
  connected_ : c.connected_ = false

/-- Until `asyncConnect` is called, nothing can happen but calls of `stop`. -/
theorem step_untouched (hu : c.Untouched) (he : e.isAsyncConnect = false)
    (h : c.step e = some c') : c'.Untouched := by
  cases e with
  | asyncConnect eps cb fcb timeout => cases he
  | setDisconnectProc isSet =>
      obtain rfl : { c with disconnect_proc_ := isSet } = c' := by simpa [step] using h
      exact ⟨hu.attempts, hu.connectTimer_, hu.reconnectTimer_, hu.session_, hu.connected_⟩
  | stop =>
      obtain rfl : c.stop = c' := by simpa [step] using h
      have hdown : c.stop = c.shutDown := by simp [stop, hu.session_]
      rw [hdown]
      refine ⟨hu.attempts, ?_, ?_, rfl, rfl⟩
      · simp [shutDown, hu.connectTimer_, Timer.cancel]
      · simp [shutDown, hu.reconnectTimer_, Timer.cancel]
  | connectEnds a success => simp [step, hu.attempts, noAttempt] at h
  | connectHandler a => simp [step, hu.attempts, noAttempt, ConnectAttempt.outcome] at h
  | connectTimerExpires => simp [step, hu.connectTimer_, Timer.expire] at h
  | connectTimerHandler i => simp [step, hu.connectTimer_, Timer.take] at h
  | reconnectTimerExpires => simp [step, hu.reconnectTimer_, Timer.expire] at h
  | reconnectTimerHandler i => simp [step, hu.reconnectTimer_, Timer.take] at h
  | disconnect a => simp [step, hu.attempts, noAttempt] at h

end Connector

open Connector

/-! ### Runs -/

/-- What holds after the run `es`, if `asyncConnect` is called in it once at the most. -/
structure SingleRun (es : List ConnectorEvent) (c : Connector) : Prop where
  orderly : Orderly (Ended es) c.view
  untouched : es.countP (·.isAsyncConnect) = 0 → c.Untouched
  uncounted : ∀ a, c.connect_attempt_ < a ∨ (c.attempts a).completed = false →
    connectorMachine.tally (callbacksOf a) es = 0
  counted : ∀ a, connectorMachine.tally (callbacksOf a) es ≤ 1

section SingleRun

variable {es : List ConnectorEvent} {c c' : Connector} {e : ConnectorEvent}

theorem ended_snoc (es : List ConnectorEvent) (e : ConnectorEvent) :
    Ended (es ++ [e]) = fun b => Ended es b ∨ e = .connectEnds b true := by
  funext b
  simp [Ended, eq_comm]

theorem SingleRun.unresolved (h : SingleRun es c) (a : ℕ) (hc : (c.attempts a).completed = false) :
    (c.attempts a).started = false := ((h.orderly.facts a).unresolved hc).2

theorem SingleRun.step_orderly (h : SingleRun es c)
    (hn : (es ++ [e]).countP (·.isAsyncConnect) ≤ 1) (hs : c.step e = some c') :
    Orderly (Ended (es ++ [e])) c'.view := by
  rw [ended_snoc]
  obtain ⟨a, success, rfl, hop, hv⟩ | ⟨he, hm⟩ := step_cases h.unresolved hs
  · have hends : (fun b => Ended es b ∨ ConnectorEvent.connectEnds a success = .connectEnds b true) =
        fun b => Ended es b ∨ b = a ∧ success = true := by
      funext b
      simp [eq_comm]
    rw [hends, hv]
    exact h.orderly.connectEnds hop success
  · have hends : (fun b => Ended es b ∨ e = .connectEnds b true) = Ended es := by
      funext b
      simp [he b true]
    rw [hends]
    refine hm.orderly h.orderly fun hasync => ?_
    have hu := h.untouched (by simpa [List.countP_append, hasync] using hn)
    exact ⟨by simp [view, hu.reconnectTimer_, Timer.pending], hu.connected_,
      fun a => by rw [hu.attempts]; rfl⟩

/-- The callbacks of a step: none, or one, which resolves the latest attempt. -/
theorem SingleRun.step_callbacks (h : SingleRun es c) (hs : c.step e = some c') :
    c'.callbacks = c.callbacks ∨
    c.handlerOf e = some c.connect_attempt_ ∧ (c.attempts c.connect_attempt_).completed = false ∧
      c'.connect_attempt_ = c.connect_attempt_ ∧
      (c'.attempts c'.connect_attempt_).completed = true ∧ c'.callbacks ≤ c.callbacks + 1 := by
  obtain ⟨a, success, rfl, -, hv⟩ | ⟨-, hm⟩ := step_cases h.unresolved hs
  · exact .inl (congrArg View.callbacks hv)
  · exact hm.callbacks

theorem SingleRun.step_uncounted (h : SingleRun es c) (hs : c.step e = some c') {a : ℕ}
    (ha : c'.connect_attempt_ < a ∨ (c'.attempts a).completed = false) :
    c.connect_attempt_ < a ∨ (c.attempts a).completed = false := by
  obtain ⟨b, success, rfl, -, hv⟩ | ⟨-, hm⟩ := step_cases h.unresolved hs
  · refine ha.imp (fun hlt => ?_) fun hc => ?_
    · rwa [show c'.connect_attempt_ = c.connect_attempt_ from congrArg View.connect_attempt_ hv]
        at hlt
    · have hc' : (c'.view.attempts a).completed = false := hc
      rw [hv] at hc'
      refine setAttempt_unresolved (v := c.view) ?_ hc'
      exact id
  · exact hm.uncounted ha

/-- A handler of an attempt that has been counted calls no callback any more, and the handler of one
that has not calls one at the most. -/
theorem SingleRun.callbacksOf_le (h : SingleRun es c) (hs : c.step e = some c') (a : ℕ) :
    callbacksOf a c e = 0 ∨ callbacksOf a c e = 1 ∧ a = c.connect_attempt_ ∧
      (c.attempts a).completed = false ∧ c'.connect_attempt_ = a ∧
      (c'.attempts a).completed = true := by
  simp only [callbacksOf, hs]
  split_ifs with hh
  · obtain heq | ⟨hh', hc, hn, hc', hle⟩ := h.step_callbacks hs
    · exact .inl (by omega)
    · obtain rfl : c.connect_attempt_ = a := Option.some.inj (hh'.symm.trans hh)
      rw [hn] at hc'
      by_cases hz : c'.callbacks - c.callbacks = 0
      · exact .inl hz
      · exact .inr ⟨by omega, rfl, hc, hn, hc'⟩
  · exact .inl rfl

theorem SingleRun.step (h : SingleRun es c) (hrun : connectorMachine.run es = some c)
    (hn : (es ++ [e]).countP (·.isAsyncConnect) ≤ 1) (hs : c.step e = some c') :
    SingleRun (es ++ [e]) c' where
  orderly := h.step_orderly hn hs
  untouched := by
    intro hz
    obtain ⟨hz, he⟩ : es.countP (·.isAsyncConnect) = 0 ∧ e.isAsyncConnect = false := by
      simpa [List.countP_append, List.countP_singleton] using hz
    exact step_untouched (h.untouched hz) he hs
  uncounted := by
    intro a ha
    rw [connectorMachine.tally_snoc _ hrun hs, h.uncounted a (h.step_uncounted hs ha), zero_add]
    obtain hz | ⟨-, -, -, hn', hc'⟩ := h.callbacksOf_le hs a
    · exact hz
    · obtain hlt | hc := ha
      · omega
      · rw [hc] at hc'
        cases hc'
  counted := by
    intro a
    rw [connectorMachine.tally_snoc _ hrun hs]
    obtain hz | ⟨hone, -, hc, -⟩ := h.callbacksOf_le hs a
    · rw [hz]
      exact h.counted a
    · rw [h.uncounted a (.inr hc), hone]

theorem singleRun_nil : SingleRun [] connectorMachine.init where
  orderly := {
    facts := fun _ => .none (by simp [Ended])
    phase := .resting (fun _ => rfl) rfl (by decide) fun _ _ => rfl }
  untouched := fun _ => ⟨rfl, rfl, rfl, rfl, rfl⟩
  uncounted := fun _ _ => rfl
  counted := fun _ => Nat.zero_le 1

theorem connector_singleRun (h : connectorMachine.run es = some c)
    (hn : es.countP (·.isAsyncConnect) ≤ 1) : SingleRun es c := by
  refine connectorMachine.run_induction (P := fun es c =>
    es.countP (·.isAsyncConnect) ≤ 1 → SingleRun es c) (fun _ => singleRun_nil) ?_ h hn
  intro es c e c' hrun ih hs hn
  have hn' : es.countP (·.isAsyncConnect) ≤ 1 := by
    rw [List.countP_append] at hn
    omega
  exact (ih hn').step hrun hn hs

/-! ### No two of the three -/

theorem pending_of_reconnectPending (h : c.ReconnectPending) : 0 < c.view.pending := by
  obtain hw | ⟨x, hx, hx'⟩ := h
  · simp [view, Timer.pending, hw]
  · have hq : 0 < c.reconnectTimer_.queued.countP (!·.2) :=
      List.countP_pos_iff.mpr ⟨x, hx, by simp [hx']⟩
    exact Nat.lt_add_left _ hq

theorem SingleRun.connected_of_unresolved (h : SingleRun es c) (hu : c.Unresolved) :
    c.connected_ = false ∧ c.view.pending = 0 := by
  obtain ⟨a, ha⟩ := hu
  obtain ⟨rfl, -⟩ := (h.orderly.facts a).unresolved ha
  obtain ⟨hcon, hp, -⟩ := h.orderly.phase.of_unresolved ha
  exact ⟨hcon, hp⟩

theorem SingleRun.oneSession (h : SingleRun es c) {a b : ℕ} (ha : OpenSession es c a)
    (hb : OpenSession es c b) : a = b := by
  have hlatest : ∀ a, OpenSession es c a → a = c.connect_attempt_ := by
    rintro a ⟨hend, hst⟩
    exact ((h.orderly.facts a).openLatest hend).resolve_left (by simpa [view] using hst)
  rw [hlatest a ha, hlatest b hb]

/-- The comparison of attempt numbers in the guard is sound also for a counter of 64 bits that has
gone round: the flag `completed` alone tells the latest attempt from the others. -/
theorem SingleRun.isCurrent_wrap (h : SingleRun es c) (a : ℕ) :
    c.isCurrent a =
      (!(c.attempts a).completed && a % 2 ^ 64 == c.connect_attempt_ % 2 ^ 64) := by
  cases hc : (c.attempts a).completed with
  | true => simp [isCurrent, hc]
  | false =>
      obtain rfl : a = c.connect_attempt_ := ((h.orderly.facts a).unresolved hc).1
      simp [isCurrent, hc]

end SingleRun

/-- **Attempts are resolved once and never overlap**, in every run in which `asyncConnect` is called
once at the most. -/
theorem connector_resolves_once (es : List ConnectorEvent) (c : Connector)
    (hn : es.countP (·.isAsyncConnect) ≤ 1) (h : connectorMachine.run es = some c) :
    ResolvedOnce es c := by
  have hrun := connector_singleRun h hn
  have hearlier : ∀ es' e c₁, es' ++ [e] <+: es → connectorMachine.run es' = some c₁ →
      SingleRun es' c₁ := by
    intro es' e c₁ hp h₁
    refine connector_singleRun h₁ (le_trans (List.Sublist.countP_le ?_) hn)
    exact (List.prefix_append es' [e]).sublist.trans hp.sublist
  constructor
  · exact hrun.counted
  · intro es' e c₁ c₂ hp h₁ h₂ hnone
    obtain heq | ⟨hh, -⟩ := (hearlier es' e c₁ hp h₁).step_callbacks h₂
    · exact heq
    · rw [hnone] at hh
      cases hh
  · intro es' e c₁ c₂ _ _ h₂ a hh hl
    exact step_returned hh hl h₂
  · intro a b
    exact hrun.oneSession
  · rintro ⟨hu, hcon⟩
    rw [isConnected, (hrun.connected_of_unresolved hu).1] at hcon
    cases hcon
  · rintro ⟨hu, hpend⟩
    have hpos := pending_of_reconnectPending hpend
    have hzero := (hrun.connected_of_unresolved hu).2
    omega
  · rintro ⟨hcon, hpend⟩
    have hrest := hrun.orderly.phase.resting_of_pending (pending_of_reconnectPending hpend)
    have hoff : c.connected_ = false := hrest.2.1
    rw [isConnected, hoff] at hcon
    cases hcon

/-- The first attempt times out after its connect has succeeded, the second fails, the third is
connected and lost, and `stop` is called during the fourth.  The success handler of the first comes
after its time limit, the failure handler of the fourth after `stop`. -/
def reconnectingRun : List ConnectorEvent :=
  [.asyncConnect [⟨2130706433, 9000⟩] true true 5, .connectEnds 1 true, .connectTimerExpires,
    .connectTimerHandler 0, .connectHandler 1, .reconnectTimerExpires, .reconnectTimerHandler 0,
    .connectEnds 2 false, .connectHandler 2, .reconnectTimerExpires, .reconnectTimerHandler 0,
    .connectEnds 3 true, .connectHandler 3, .disconnect 3, .reconnectTimerExpires,
    .reconnectTimerHandler 0, .stop, .connectHandler 4, .connectTimerHandler 0]

theorem reconnectingRun_resolves_once : ∃ c, connectorMachine.run reconnectingRun = some c ∧
    c.connect_attempt_ = 4 ∧ ResolvedOnce reconnectingRun c := by
  obtain ⟨c, h⟩ : ∃ c, connectorMachine.run reconnectingRun = some c :=
    Option.isSome_iff_exists.mp (by decide)
  have hview : (connectorMachine.run reconnectingRun).map (·.connect_attempt_) = some 4 := by decide
  rw [h] at hview
  exact ⟨c, h, Option.some.inj hview, connector_resolves_once reconnectingRun c (by decide) h⟩

end BlackSwan
