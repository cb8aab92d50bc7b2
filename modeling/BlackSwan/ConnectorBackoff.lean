import BlackSwan.Connector
import BlackSwan.Journal
import Mathlib.Data.List.Range

/-! # The delays of the reconnects

The handlers of `Connector` again, as programs that note down each call of `scheduleReconnect` with
the delay it waits for, and the two things that set the delay back: `asyncConnect` and a successful
connection.  `XM_val` says that the instrumented `XM` computes `X`, so every run of a connector has
its journal.

Without `stop`, a connector that has been started never finds `auto_reconnect_` off, and its
`retry_delay_` is a power of two, or the cap, by the number of calls since it was last set back.
The reconnect timer waits for the delay that was noted down last (`TimerFollows`). -/

namespace BlackSwan

open Runs Journal

/-- What has to do with the delay. -/
inductive BackoffAct where
  | asyncConnect
  | connected
  /-- a call of `scheduleReconnect` and the delay it uses; `none` when it returns at once -/
  | scheduleReconnect (delay : Option ℕ)
deriving DecidableEq, Repr

abbrev Backoff := Journaled BackoffAct

namespace Connector

/-! ### The instrumented functions -/

def scheduleReconnectM (c : Connector) : Backoff Connector :=
  if !c.auto_reconnect_ then do
    tell [.scheduleReconnect none]
    pure c
  else do
    tell [.scheduleReconnect (some c.retry_delay_)]
    pure { c with
      retry_delay_ := min (c.retry_delay_ * 2) max_retry_delay_
      reconnectTimer_ := c.reconnectTimer_.wait c.retry_delay_ }

def handleConnectFailureM (c : Connector) : Backoff Connector :=
  (({ c with connected_ := false, session_ := none } : Connector).call c.failed_callback_
    .failedCallback).scheduleReconnectM

def onDisconnectedM (a : ℕ) (c : Connector) : Backoff Connector :=
  if c.session_ ≠ some a then pure c else
  (({ c with connected_ := false, session_ := none } : Connector).call c.disconnect_proc_
    (.disconnectProc a)).scheduleReconnectM

def sessionStopM (a : ℕ) (c : Connector) : Backoff Connector :=
  if (c.attempts a).stopped_ then pure c
  else if (c.attempts a).started then (c.closeSession a).onDisconnectedM a
  else pure (c.closeSession a)

def onConnectedM (a : ℕ) (c : Connector) : Backoff Connector := do
  tell [.connected]
  pure (c.onConnected a)

def onConnectSuccessM (a : ℕ) (c : Connector) : Backoff Connector :=
  if c.isCurrent a then (c.complete a).cancelConnectTimer.onConnectedM a else pure (c.complete a)

def onConnectErrorM (a : ℕ) (c : Connector) : Backoff Connector :=
  if c.isCurrent a then (c.complete a).cancelConnectTimer.handleConnectFailureM
  else pure (c.complete a)

def onConnectTimeoutM (a : ℕ) (error : Bool) (c : Connector) : Backoff Connector :=
  if error then pure c
  else if c.isCurrent a then do
    let c ← (c.complete a).sessionStopM a
    c.handleConnectFailureM
  else pure (c.complete a)

def stopM (c : Connector) : Backoff Connector :=
  match c.session_ with
  | none => pure c.shutDown
  | some a => c.shutDown.sessionStopM a

def asyncConnectM (eps : List Endpoint) (callback failedCallback : Bool) (connect_timeout : ℤ)
    (c : Connector) : Backoff Connector := do
  tell [.asyncConnect]
  pure (c.asyncConnect eps callback failedCallback connect_timeout)

def stepM (c : Connector) : ConnectorEvent → Option (Backoff Connector)
  | .asyncConnect eps cb fcb timeout => some (c.asyncConnectM eps cb fcb timeout)
  | .stop => some c.stopM
  | .connectHandler a =>
      match (c.attempts a).outcome with
      | .succeeded => some ((c.setOp a .handled).onConnectSuccessM a)
      | .failed => some ((c.setOp a .handled).onConnectErrorM a)
      | _ => none
  | .connectTimerHandler i =>
      (c.connectTimer_.take i).map fun x =>
        ({ c with connectTimer_ := x.2 } : Connector).onConnectTimeoutM x.1.1 x.1.2
  | .disconnect a =>
      if (c.attempts a).started && !(c.attempts a).stopped_ then some (c.sessionStopM a) else none
  -- the other steps do not come near the delay
  | e => (c.step e).map pure

@[simp] theorem scheduleReconnectM_val (c : Connector) :
    c.scheduleReconnectM.val = c.scheduleReconnect := by
  unfold scheduleReconnectM scheduleReconnect
  split_ifs <;> rfl

@[simp] theorem handleConnectFailureM_val (c : Connector) :
    c.handleConnectFailureM.val = c.handleConnectFailure :=
  scheduleReconnectM_val _

@[simp] theorem onDisconnectedM_val (a : ℕ) (c : Connector) :
    (c.onDisconnectedM a).val = c.onDisconnected a := by
  unfold onDisconnectedM onDisconnected
  split_ifs
  · rfl
  · exact scheduleReconnectM_val _

@[simp] theorem sessionStopM_val (a : ℕ) (c : Connector) :
    (c.sessionStopM a).val = c.sessionStop a := by
  unfold sessionStopM sessionStop
  split_ifs
  · rfl
  · exact onDisconnectedM_val a _
  · rfl

@[simp] theorem onConnectSuccessM_val (a : ℕ) (c : Connector) :
    (c.onConnectSuccessM a).val = c.onConnectSuccess a := by
  unfold onConnectSuccessM onConnectSuccess
  split_ifs <;> rfl

@[simp] theorem onConnectErrorM_val (a : ℕ) (c : Connector) :
    (c.onConnectErrorM a).val = c.onConnectError a := by
  unfold onConnectErrorM onConnectError
  split_ifs
  · exact handleConnectFailureM_val _
  · rfl

@[simp] theorem onConnectTimeoutM_val (a : ℕ) (error : Bool) (c : Connector) :
    (c.onConnectTimeoutM a error).val = c.onConnectTimeout a error := by
  unfold onConnectTimeoutM onConnectTimeout
  split_ifs
  · rfl
  · simp
  · rfl

@[simp] theorem stopM_val (c : Connector) : c.stopM.val = c.stop := by
  cases hs : c.session_ with
  | none => simp [stopM, stop, hs]
  | some a => simp [stopM, stop, hs]

/-- **The instrumented connector is the connector.** -/
theorem stepM_val (c : Connector) (e : ConnectorEvent) :
    (c.stepM e).map Journaled.val = c.step e := by
  cases e with
  | asyncConnect eps cb fcb timeout => rfl
  | stop => simp [stepM, step]
  | connectHandler a =>
      cases ho : (c.attempts a).outcome <;> simp [stepM, step, ho]
  | connectTimerHandler i => simp [stepM, step, Function.comp_def]
  | disconnect a =>
      simp only [stepM, step]
      split_ifs <;> simp
  | _ => simp [stepM, step, Function.comp_def]

/-! ### The schedule -/

/-- The delay of the call after `n` others. -/
def delayAt (n : ℕ) : ℕ := min (2 ^ n) max_retry_delay_

/-- Doubling follows the schedule, also where it overshoots the cap. -/
theorem delayAt_succ (n : ℕ) : min (delayAt n * 2) max_retry_delay_ = delayAt (n + 1) := by
  unfold delayAt max_retry_delay_
  rw [pow_succ]
  omega

theorem delayAt_bounds (n : ℕ) : 1 ≤ delayAt n ∧ delayAt n ≤ 30 := by
  have hpow : 1 ≤ 2 ^ n := Nat.one_le_two_pow
  unfold delayAt max_retry_delay_
  omega

theorem delayAt_mono {m n : ℕ} (h : m ≤ n) : delayAt m ≤ delayAt n :=
  min_le_min_right _ (Nat.pow_le_pow_right two_pos h)

end Connector

/-- The delays noted since the last entry that sets the delay back, with one more entry. -/
def BackoffAct.follow (ds : List (Option ℕ)) : BackoffAct → List (Option ℕ)
  | .asyncConnect => []
  | .connected => []
  | .scheduleReconnect delay => ds ++ [delay]

/-- The delays that the calls of `scheduleReconnect` have used since the last successful connection
or `asyncConnect`. -/
def delaysSince (l : List BackoffAct) : List (Option ℕ) := l.foldl BackoffAct.follow []

@[simp] theorem delaysSince_snoc (l : List BackoffAct) (act : BackoffAct) :
    delaysSince (l ++ [act]) = act.follow (delaysSince l) := by
  simp [delaysSince]

namespace Connector

/-- The delays at the end of the journal are those of the schedule. -/
def OnSchedule (l : List BackoffAct) : Prop :=
  delaysSince l = (List.range (delaysSince l).length).map fun k => some (delayAt k)

def AlwaysOnSchedule (l : List BackoffAct) : Prop := ∀ l', l' <+: l → OnSchedule l'

theorem AlwaysOnSchedule.snoc {l : List BackoffAct} {act : BackoffAct} (h : AlwaysOnSchedule l)
    (ha : OnSchedule (l ++ [act])) : AlwaysOnSchedule (l ++ [act]) := by
  intro l' hp
  obtain rfl | hp := List.prefix_concat_iff.mp hp
  · exact ha
  · exact h l' hp

/-- The invariant: reconnecting is on, and the delay of the next call is the one on the schedule. -/
structure BackingOff (l : List BackoffAct) (c : Connector) : Prop where
  auto_reconnect_ : c.auto_reconnect_ = true
  retry_delay_ : c.retry_delay_ = delayAt (delaysSince l).length
  schedule : AlwaysOnSchedule l

variable {l : List BackoffAct} {c c' : Connector}

theorem BackingOff.congr (h : c.BackingOff l) (ha : c'.auto_reconnect_ = c.auto_reconnect_)
    (hr : c'.retry_delay_ = c.retry_delay_) : c'.BackingOff l :=
  ⟨ha.trans h.auto_reconnect_, hr.trans h.retry_delay_, h.schedule⟩

/-- An entry that sets the delay back, whatever it was. -/
theorem BackingOff.reset {act : BackoffAct} (hl : AlwaysOnSchedule l)
    (hact : act.follow (delaysSince l) = []) (ha : c.auto_reconnect_ = true)
    (hr : c.retry_delay_ = initial_retry_delay_) : c.BackingOff (l ++ [act]) where
  auto_reconnect_ := ha
  retry_delay_ := by
    rw [delaysSince_snoc, hact, hr]
    rfl
  schedule := hl.snoc (by rw [OnSchedule, delaysSince_snoc, hact]; rfl)

@[simp] theorem call_auto_reconnect_ (isSet : Bool) (act : ConnectorAct) (c : Connector) :
    (c.call isSet act).auto_reconnect_ = c.auto_reconnect_ := by
  cases isSet <;> rfl

@[simp] theorem call_retry_delay_ (isSet : Bool) (act : ConnectorAct) (c : Connector) :
    (c.call isSet act).retry_delay_ = c.retry_delay_ := by
  cases isSet <;> rfl

theorem startConnect_backoff (c : Connector) :
    c.startConnect.auto_reconnect_ = c.auto_reconnect_ ∧
      c.startConnect.retry_delay_ = c.retry_delay_ ∧
      c.startConnect.reconnectTimer_ = c.reconnectTimer_ := by
  unfold startConnect armConnectTimer
  split_ifs <;> exact ⟨rfl, rfl, rfl⟩

theorem keeps_scheduleReconnectM : Keeps BackingOff scheduleReconnectM := by
  intro l c h
  have hon : OnSchedule (l ++ [.scheduleReconnect (some c.retry_delay_)]) := by
    rw [OnSchedule, delaysSince_snoc, BackoffAct.follow, List.length_append, List.length_singleton,
      List.range_succ, List.map_append, ← h.schedule l (List.prefix_refl l), h.retry_delay_]
    rfl
  rw [scheduleReconnectM, if_neg (by simp [h.auto_reconnect_])]
  exact {
    auto_reconnect_ := h.auto_reconnect_
    retry_delay_ := by
      simpa [BackoffAct.follow, h.retry_delay_] using delayAt_succ (delaysSince l).length
    schedule := h.schedule.snoc hon }

theorem keeps_handleConnectFailureM : Keeps BackingOff handleConnectFailureM := by
  intro l c h
  exact keeps_scheduleReconnectM l _ (h.congr (by simp) (by simp))

theorem keeps_onDisconnectedM (a : ℕ) : Keeps BackingOff (onDisconnectedM a) := by
  refine Keeps.ite (Keeps.of_pure fun l c h => h) fun l c h => ?_
  exact keeps_scheduleReconnectM l _ (h.congr (by simp) (by simp))

theorem keeps_sessionStopM (a : ℕ) : Keeps BackingOff (sessionStopM a) := by
  have hclose : ∀ l c, BackingOff l c → BackingOff l (closeSession a c) :=
    fun l c h => h.congr rfl rfl
  refine Keeps.ite (Keeps.of_pure fun l c h => h) (Keeps.ite ?_ (Keeps.of_pure hclose))
  exact Keeps.comp hclose (keeps_onDisconnectedM a)

theorem keeps_onConnectSuccessM (a : ℕ) : Keeps BackingOff (onConnectSuccessM a) := by
  refine Keeps.ite ?_ (Keeps.of_pure fun l c h => h.congr rfl rfl)
  intro l c h
  have ha : ((c.complete a).cancelConnectTimer.onConnected a).auto_reconnect_ = true :=
    (call_auto_reconnect_ _ _ _).trans h.auto_reconnect_
  exact BackingOff.reset h.schedule rfl ha rfl

theorem keeps_onConnectErrorM (a : ℕ) : Keeps BackingOff (onConnectErrorM a) :=
  Keeps.ite (Keeps.comp (fun _ _ h => h.congr rfl rfl) keeps_handleConnectFailureM)
    (Keeps.of_pure fun _ _ h => h.congr rfl rfl)

theorem keeps_onConnectTimeoutM (a : ℕ) (error : Bool) :
    Keeps BackingOff (onConnectTimeoutM a error) := by
  have hcomplete : ∀ l c, BackingOff l c → BackingOff l (complete a c) :=
    fun l c h => h.congr rfl rfl
  refine Keeps.ite (Keeps.of_pure fun l c h => h) (Keeps.ite ?_ (Keeps.of_pure hcomplete))
  exact (Keeps.comp hcomplete (keeps_sessionStopM a)).bind keeps_handleConnectFailureM

theorem asyncConnectM_backingOff (eps : List Endpoint) (cb fcb : Bool) (timeout : ℤ)
    (hl : AlwaysOnSchedule l) :
    (c.asyncConnect eps cb fcb timeout).BackingOff (l ++ [.asyncConnect]) := by
  obtain ⟨ha, hr, -⟩ := startConnect_backoff ({ c with
    endpoints_ := eps
    connect_timeout_ := timeout
    connected_callback_ := cb
    failed_callback_ := fcb
    retry_delay_ := initial_retry_delay_
    auto_reconnect_ := true } : Connector)
  exact BackingOff.reset hl rfl ha hr

/-- **One step**: whatever the event, short of `stop`, the calls it makes are on the schedule. -/
theorem stepM_backingOff {e : ConnectorEvent} {x : Backoff Connector} (h : c.BackingOff l)
    (he : e ≠ .stop) (hx : c.stepM e = some x) : x.val.BackingOff (l ++ x.entries) := by
  have hquiet : ∀ c' : Connector, c'.auto_reconnect_ = c.auto_reconnect_ →
      c'.retry_delay_ = c.retry_delay_ →
      (pure c' : Backoff Connector).val.BackingOff (l ++ (pure c' : Backoff Connector).entries) :=
    fun c' ha hr => by simpa using h.congr ha hr
  cases e with
  | asyncConnect eps cb fcb timeout =>
      obtain rfl : c.asyncConnectM eps cb fcb timeout = x := Option.some.inj hx
      exact asyncConnectM_backingOff eps cb fcb timeout h.schedule
  | stop => exact absurd rfl he
  | setDisconnectProc isSet =>
      obtain rfl : pure { c with disconnect_proc_ := isSet } = x := Option.some.inj hx
      exact hquiet _ rfl rfl
  | connectEnds a success =>
      obtain ⟨c', hc', rfl⟩ := Option.map_eq_some_iff.mp hx
      obtain ⟨-, rfl⟩ : (c.attempts a).op = .inFlight ∧
          c.setOp a (if success then .succeeded else .failed) = c' := by simpa [step] using hc'
      exact hquiet _ rfl rfl
  | connectHandler a =>
      have hop : (c.setOp a .handled).BackingOff l := h.congr rfl rfl
      cases ho : (c.attempts a).outcome with
      | succeeded =>
          obtain rfl : (c.setOp a .handled).onConnectSuccessM a = x := by simpa [stepM, ho] using hx
          exact keeps_onConnectSuccessM a l _ hop
      | failed =>
          obtain rfl : (c.setOp a .handled).onConnectErrorM a = x := by simpa [stepM, ho] using hx
          exact keeps_onConnectErrorM a l _ hop
      | _ => simp [stepM, ho] at hx
  | connectTimerExpires =>
      obtain ⟨c', hc', rfl⟩ := Option.map_eq_some_iff.mp hx
      obtain ⟨t, -, rfl⟩ := Option.map_eq_some_iff.mp hc'
      exact hquiet _ rfl rfl
  | connectTimerHandler i =>
      obtain ⟨t, -, rfl⟩ := Option.map_eq_some_iff.mp hx
      exact keeps_onConnectTimeoutM t.1.1 t.1.2 l _ (h.congr rfl rfl)
  | reconnectTimerExpires =>
      obtain ⟨c', hc', rfl⟩ := Option.map_eq_some_iff.mp hx
      obtain ⟨t, -, rfl⟩ := Option.map_eq_some_iff.mp hc'
      exact hquiet _ rfl rfl
  | reconnectTimerHandler i =>
      obtain ⟨c', hc', rfl⟩ := Option.map_eq_some_iff.mp hx
      obtain ⟨t, -, rfl⟩ := Option.map_eq_some_iff.mp hc'
      unfold onReconnect
      split_ifs
      · exact hquiet _ rfl rfl
      · obtain ⟨ha, hr, -⟩ := startConnect_backoff { c with reconnectTimer_ := t.2 }
        exact hquiet _ ha hr
  | disconnect a =>
      simp only [stepM] at hx
      split_ifs at hx
      obtain rfl := Option.some.inj hx
      exact keeps_sessionStopM a l c h

/-! ### The timer -/

end Connector

/-- The delay that a call of `scheduleReconnect` sets the timer for. -/
def BackoffAct.delay : BackoffAct → Option ℕ
  | .scheduleReconnect delay => delay
  | _ => none

/-- The delay that the timer was last set for. -/
def lastDelay (l : List BackoffAct) : Option ℕ := (l.filterMap BackoffAct.delay).getLast?

theorem lastDelay_append (l l' : List BackoffAct) :
    lastDelay (l ++ l') = (lastDelay l').or (lastDelay l) := by
  simp [lastDelay, List.getLast?_append]

namespace Connector

variable {l : List BackoffAct} {c c' : Connector}

/-- While the entries `l` are noted down, the reconnect timer is set for the last of their delays;
if they have none, it is left alone. -/
structure Follows (l : List BackoffAct) (c c' : Connector) : Prop where
  set : ∀ d, lastDelay l = some d → c'.reconnectTimer_.waiting = some d
  kept : lastDelay l = none → c'.reconnectTimer_.waiting = c.reconnectTimer_.waiting

theorem Follows.of_eq (hl : lastDelay l = none)
    (h : c'.reconnectTimer_.waiting = c.reconnectTimer_.waiting) : Follows l c c' where
  set := by
    intro d hd
    rw [hl] at hd
    cases hd
  kept := fun _ => h

/-- Other fields do not matter. -/
theorem Follows.of_left {c₀ : Connector} (h : Follows l c c')
    (h₀ : c.reconnectTimer_.waiting = c₀.reconnectTimer_.waiting) : Follows l c₀ c' :=
  ⟨h.set, fun hl => (h.kept hl).trans h₀⟩

theorem Follows.trans {l' : List BackoffAct} {c'' : Connector} (h : Follows l c c')
    (h' : Follows l' c' c'') : Follows (l ++ l') c c'' where
  set := by
    intro d hd
    rw [lastDelay_append] at hd
    cases hl : lastDelay l' with
    | none =>
        rw [hl, Option.none_or] at hd
        rw [h'.kept hl, h.set d hd]
    | some d' =>
        rw [hl, Option.some_or] at hd
        rw [h'.set d' hl, hd]
  kept := by
    intro hnone
    rw [lastDelay_append, Option.or_eq_none_iff] at hnone
    rw [h'.kept hnone.1, h.kept hnone.2]

@[simp] theorem call_reconnectTimer_ (isSet : Bool) (act : ConnectorAct) (c : Connector) :
    (c.call isSet act).reconnectTimer_ = c.reconnectTimer_ := by
  cases isSet <;> rfl

theorem follows_scheduleReconnectM (c : Connector) :
    Follows c.scheduleReconnectM.entries c c.scheduleReconnectM.val := by
  unfold scheduleReconnectM
  split_ifs
  · exact .of_eq rfl rfl
  · refine ⟨fun d hd => ?_, fun hnone => by cases hnone⟩
    obtain rfl : c.retry_delay_ = d := Option.some.inj hd
    rfl

theorem follows_handleConnectFailureM (c : Connector) :
    Follows c.handleConnectFailureM.entries c c.handleConnectFailureM.val :=
  (follows_scheduleReconnectM _).of_left (by simp)

theorem follows_onDisconnectedM (a : ℕ) (c : Connector) :
    Follows (c.onDisconnectedM a).entries c (c.onDisconnectedM a).val := by
  unfold onDisconnectedM
  split_ifs
  · exact .of_eq rfl rfl
  · exact (follows_scheduleReconnectM _).of_left (by simp)

theorem follows_sessionStopM (a : ℕ) (c : Connector) :
    Follows (c.sessionStopM a).entries c (c.sessionStopM a).val := by
  unfold sessionStopM
  split_ifs
  · exact .of_eq rfl rfl
  · exact (follows_onDisconnectedM a _).of_left rfl
  · exact .of_eq rfl rfl

theorem follows_onConnectSuccessM (a : ℕ) (c : Connector) :
    Follows (c.onConnectSuccessM a).entries c (c.onConnectSuccessM a).val := by
  unfold onConnectSuccessM
  split_ifs
  · exact .of_eq rfl (congrArg Timer.waiting (call_reconnectTimer_ _ _ _))
  · exact .of_eq rfl rfl

theorem follows_onConnectErrorM (a : ℕ) (c : Connector) :
    Follows (c.onConnectErrorM a).entries c (c.onConnectErrorM a).val := by
  unfold onConnectErrorM
  split_ifs
  · exact (follows_handleConnectFailureM _).of_left rfl
  · exact .of_eq rfl rfl

theorem follows_onConnectTimeoutM (a : ℕ) (error : Bool) (c : Connector) :
    Follows (c.onConnectTimeoutM a error).entries c (c.onConnectTimeoutM a error).val := by
  unfold onConnectTimeoutM
  split_ifs
  · exact .of_eq rfl rfl
  · have hstop : Follows ((c.complete a).sessionStopM a).entries c
        ((c.complete a).sessionStopM a).val := (follows_sessionStopM a _).of_left rfl
    exact hstop.trans (follows_handleConnectFailureM _)
  · exact .of_eq rfl rfl

theorem stopM_idle (c : Connector) :
    c.stopM.entries = [] ∧ c.stopM.val.reconnectTimer_.waiting = none := by
  have hdown : c.shutDown.reconnectTimer_.waiting = none := by
    cases hw : c.reconnectTimer_.waiting <;> simp [shutDown, Timer.cancel, hw]
  unfold stopM
  split
  · exact ⟨rfl, hdown⟩
  · rename_i a _
    -- `session_` has been moved out, so the callback of the session does nothing
    have hquiet : ∀ c' : Connector, c'.session_ = none → c'.onDisconnectedM a = pure c' :=
      fun c' hc' => if_pos (by simp [hc'])
    unfold sessionStopM
    split_ifs
    · exact ⟨rfl, hdown⟩
    · rw [hquiet _ (by rfl)]
      exact ⟨rfl, hdown⟩
    · exact ⟨rfl, hdown⟩

/-- **One step**: the reconnect timer follows what is noted down, or it stops waiting while nothing
is. -/
theorem stepM_follows {e : ConnectorEvent} {x : Backoff Connector} (hx : c.stepM e = some x) :
    x.entries = [] ∧ x.val.reconnectTimer_.waiting = none ∨ Follows x.entries c x.val := by
  cases e with
  | asyncConnect eps cb fcb timeout =>
      obtain rfl : c.asyncConnectM eps cb fcb timeout = x := Option.some.inj hx
      exact .inr (.of_eq rfl (congrArg Timer.waiting (startConnect_backoff _).2.2))
  | stop =>
      obtain rfl : c.stopM = x := Option.some.inj hx
      exact .inl (stopM_idle c)
  | connectHandler a =>
      cases ho : (c.attempts a).outcome with
      | succeeded =>
          obtain rfl : (c.setOp a .handled).onConnectSuccessM a = x := by simpa [stepM, ho] using hx
          exact .inr ((follows_onConnectSuccessM a _).of_left rfl)
      | failed =>
          obtain rfl : (c.setOp a .handled).onConnectErrorM a = x := by simpa [stepM, ho] using hx
          exact .inr ((follows_onConnectErrorM a _).of_left rfl)
      | _ => simp [stepM, ho] at hx
  | connectTimerHandler i =>
      obtain ⟨t, -, rfl⟩ := Option.map_eq_some_iff.mp hx
      exact .inr ((follows_onConnectTimeoutM t.1.1 t.1.2 _).of_left rfl)
  | disconnect a =>
      simp only [stepM] at hx
      split_ifs at hx
      obtain rfl := Option.some.inj hx
      exact .inr (follows_sessionStopM a c)
  | setDisconnectProc isSet =>
      obtain rfl : pure { c with disconnect_proc_ := isSet } = x := Option.some.inj hx
      exact .inr (.of_eq rfl rfl)
  | connectEnds a success =>
      obtain ⟨c', hc', rfl⟩ := Option.map_eq_some_iff.mp hx
      obtain ⟨-, rfl⟩ : (c.attempts a).op = .inFlight ∧
          c.setOp a (if success then .succeeded else .failed) = c' := by simpa [step] using hc'
      exact .inr (.of_eq rfl rfl)
  | connectTimerExpires =>
      obtain ⟨c', hc', rfl⟩ := Option.map_eq_some_iff.mp hx
      obtain ⟨t, -, rfl⟩ := Option.map_eq_some_iff.mp hc'
      exact .inr (.of_eq rfl rfl)
  | reconnectTimerExpires =>
      obtain ⟨c', hc', rfl⟩ := Option.map_eq_some_iff.mp hx
      obtain ⟨t, ht, rfl⟩ := Option.map_eq_some_iff.mp hc'
      obtain ⟨d, -, rfl⟩ := Option.map_eq_some_iff.mp ht
      exact .inl ⟨rfl, rfl⟩
  | reconnectTimerHandler i =>
      obtain ⟨c', hc', rfl⟩ := Option.map_eq_some_iff.mp hx
      obtain ⟨⟨d, t⟩, ht, rfl⟩ := Option.map_eq_some_iff.mp hc'
      obtain ⟨d', -, heq⟩ := Option.map_eq_some_iff.mp ht
      obtain ⟨-, rfl⟩ := Prod.mk.inj heq
      refine .inr (.of_eq rfl ?_)
      simp only [onReconnect]
      split_ifs
      · rfl
      · rw [Journaled.val_pure, (startConnect_backoff _).2.2]

/-- Before the first `asyncConnect` there is nothing that could happen. -/
structure Idle (c : Connector) : Prop where
  op : ∀ a, (c.attempts a).op = .handled
  started : ∀ a, (c.attempts a).started = false
  connectTimer_ : c.connectTimer_ = ⟨none, []⟩
  reconnectTimer_ : c.reconnectTimer_ = ⟨none, []⟩

theorem stepM_idle {e : ConnectorEvent} {x : Backoff Connector} (h : c.Idle) (he : e ≠ .stop)
    (hx : c.stepM e = some x) : x.val.Idle ∧ x.entries = [] ∨ x.val.BackingOff x.entries := by
  cases e with
  | asyncConnect eps cb fcb timeout =>
      obtain rfl : c.asyncConnectM eps cb fcb timeout = x := Option.some.inj hx
      refine .inr (asyncConnectM_backingOff (l := []) eps cb fcb timeout fun l' hp => ?_)
      obtain rfl := List.prefix_nil.mp hp
      rfl
  | stop => exact absurd rfl he
  | setDisconnectProc isSet =>
      obtain rfl : pure { c with disconnect_proc_ := isSet } = x := Option.some.inj hx
      exact .inl ⟨⟨h.op, h.started, h.connectTimer_, h.reconnectTimer_⟩, rfl⟩
  | connectEnds a success => simp [stepM, step, h.op] at hx
  | connectHandler a => simp [stepM, h.op, ConnectAttempt.outcome] at hx
  | disconnect a => simp [stepM, h.started] at hx
  | _ => simp [stepM, step, h.connectTimer_, h.reconnectTimer_, Timer.expire, Timer.take] at hx

end Connector

open Connector

/-- A connector with its journal. -/
def backoffMachine : Machine (Connector × List BackoffAct) ConnectorEvent :=
  journaled connectorMachine.init Connector.stepM

theorem backoff_invariant {es : List ConnectorEvent} {s : Connector × List BackoffAct}
    (h : backoffMachine.run es = some s) (hstop : .stop ∉ es) :
    s.1.Idle ∧ s.2 = [] ∨ s.1.BackingOff s.2 := by
  refine backoffMachine.run_induction (P := fun es s => .stop ∉ es →
    s.1.Idle ∧ s.2 = [] ∨ s.1.BackingOff s.2) (fun _ => .inl ⟨?_, rfl⟩) ?_ h hstop
  · exact ⟨fun _ => rfl, fun _ => rfl, rfl, rfl⟩
  · rintro es ⟨c, l⟩ e s' - ih hs hstop
    obtain ⟨hes, he⟩ : .stop ∉ es ∧ .stop ≠ e := by simpa using hstop
    obtain ⟨x, hx, rfl⟩ := Option.map_eq_some_iff.mp hs
    obtain ⟨hi, rfl⟩ | hb := ih hes
    · simpa using stepM_idle hi he.symm hx
    · exact .inr (stepM_backingOff hb he.symm hx)

/-- The reconnect timer follows the journal: every step that notes down a delay sets the timer for
it, and the timer never waits for anything but the last delay. -/
structure TimerFollows (es : List ConnectorEvent) (s : Connector × List BackoffAct) : Prop where
  set : backoffMachine.Throughout (fun s _ s' => ∀ l d, s'.2 = s.2 ++ l → lastDelay l = some d →
    s'.1.reconnectTimer_.waiting = some d) es
  waiting : ∀ d, s.1.reconnectTimer_.waiting = some d → lastDelay s.2 = some d

theorem timer_follows {es : List ConnectorEvent} {s : Connector × List BackoffAct}
    (h : backoffMachine.run es = some s) : TimerFollows es s where
  set := by
    rintro es' e ⟨c, l₀⟩ s' - - hs l d hl hd
    obtain ⟨x, hx, rfl⟩ := Option.map_eq_some_iff.mp hs
    obtain rfl : x.entries = l := List.append_cancel_left hl
    obtain ⟨hnil, -⟩ | hf := stepM_follows hx
    · rw [hnil] at hd
      cases hd
    · exact hf.set d hd
  waiting := by
    refine backoffMachine.run_induction (P := fun _ s =>
      ∀ d, s.1.reconnectTimer_.waiting = some d → lastDelay s.2 = some d) (fun d hd => nomatch hd)
      ?_ h
    rintro es' ⟨c, l⟩ e s' - ih hs d hd
    obtain ⟨x, hx, rfl⟩ := Option.map_eq_some_iff.mp hs
    obtain ⟨-, hnone⟩ | hf := stepM_follows hx
    · rw [hnone] at hd
      cases hd
    · rw [lastDelay_append]
      cases hl : lastDelay x.entries with
      | none =>
          rw [hf.kept hl] at hd
          exact ih d hd
      | some d' =>
          rw [hf.set d' hl] at hd
          exact hd

/-- **Reconnects back off on schedule**: at every point of a run without `stop`, the calls of
`scheduleReconnect` since the last successful connection or `asyncConnect` have all set the timer,
and the `n`-th of them for `min (2 ^ (n - 1)) 30` seconds. -/
theorem reconnects_back_off (es : List ConnectorEvent) (c : Connector)
    (h : connectorMachine.run es = some c) (hstop : .stop ∉ es) :
    ∃ log, backoffMachine.run es = some (c, log) ∧ TimerFollows es (c, log) ∧ ∀ l, l <+: log →
      ∃ ds : List ℕ, delaysSince l = ds.map some ∧
        (∀ n, 1 ≤ n → n ≤ ds.length → ds[n - 1]? = some (min (2 ^ (n - 1)) 30)) ∧
        (∀ d ∈ ds, 1 ≤ d ∧ d ≤ 30) ∧ ds.Pairwise (· ≤ ·) := by
  obtain ⟨log, hlog⟩ := journaled_run connectorMachine stepM_val h
  refine ⟨log, hlog, timer_follows hlog, fun l hp => ?_⟩
  have hon : OnSchedule l := by
    obtain ⟨-, hnil⟩ | hb := backoff_invariant hlog hstop
    · obtain rfl : l = [] := List.prefix_nil.mp (hnil ▸ hp)
      rfl
    · exact hb.schedule l hp
  refine ⟨(List.range (delaysSince l).length).map delayAt, ?_, ?_, ?_, ?_⟩
  · rw [List.map_map]
    exact hon
  · intro n h1 hn
    rw [List.length_map, List.length_range] at hn
    rw [List.getElem?_map, List.getElem?_range (by omega)]
    rfl
  · intro d hd
    obtain ⟨n, -, rfl⟩ := List.mem_map.mp hd
    exact delayAt_bounds n
  · rw [List.pairwise_map]
    exact List.pairwise_le_range.imp fun hle => delayAt_mono hle

/-- Two attempts that fail, one that times out, a connection that is lost, and a failure. -/
def backoffRun : List ConnectorEvent :=
  [.asyncConnect [⟨2130706433, 9000⟩] true true 5,
    .connectEnds 1 false, .connectHandler 1, .reconnectTimerExpires, .reconnectTimerHandler 0,
    .connectEnds 2 false, .connectHandler 2, .reconnectTimerExpires, .reconnectTimerHandler 0,
    .connectTimerExpires, .connectTimerHandler 2, .connectHandler 3, .reconnectTimerExpires,
    .reconnectTimerHandler 0, .connectEnds 4 true, .connectHandler 4, .disconnect 4,
    .reconnectTimerExpires, .reconnectTimerHandler 0, .connectEnds 5 false, .connectHandler 5]

example : (backoffMachine.run backoffRun).map Prod.snd = some
    [.asyncConnect, .scheduleReconnect (some 1), .scheduleReconnect (some 2),
      .scheduleReconnect (some 4), .connected, .scheduleReconnect (some 1),
      .scheduleReconnect (some 2)] := by decide +kernel

theorem backoffRun_backs_off : ∃ c, connectorMachine.run backoffRun = some c ∧
    ∃ log, backoffMachine.run backoffRun = some (c, log) ∧ TimerFollows backoffRun (c, log) ∧
    ∀ l, l <+: log →
      ∃ ds : List ℕ, delaysSince l = ds.map some ∧
        (∀ n, 1 ≤ n → n ≤ ds.length → ds[n - 1]? = some (min (2 ^ (n - 1)) 30)) ∧
        (∀ d ∈ ds, 1 ≤ d ∧ d ≤ 30) ∧ ds.Pairwise (· ≤ ·) := by
  obtain ⟨c, h⟩ : ∃ c, connectorMachine.run backoffRun = some c :=
    Option.isSome_iff_exists.mp (by decide +kernel)
  exact ⟨c, h, reconnects_back_off backoffRun c h (by decide)⟩

end BlackSwan
