import BlackSwan.Connector

/-! # The connector of the Asio sessions

`AsioTcpConnector` of `share/network/connector.h` with `WrapperIoService::runAfter`: every call of
`asyncConnect` has a socket and a timer of its own, which share nothing with those of another call.

Nothing says which of the two handlers of a call came first.  The connect handler cancels the timer,
which is too late for a handler that is queued; the timer's handler closes the socket, and so ends
the connect with an error.  A call is reported once exactly when not both of them run to the end
(`Exclusive`). -/

namespace BlackSwan.Asio

open Runs

/-! ### One call of `asyncConnect` -/

/-- A call of one of the two callbacks; `callback` is given the socket. -/
inductive Report where
  | callback (socketOpen : Bool)
  | failedCallback
deriving DecidableEq, Repr

/-- What a call of `asyncConnect` leaves behind. -/
structure AsioAttempt where
  timer : Timer Unit
  op : ConnectOp
  /-- the timer has closed the socket -/
  closed : Bool
  /-- the callbacks that were called -/
  reports : List Report
deriving DecidableEq, Repr

inductive AttemptEvent where
  | timerExpires
  | timerHandler
  | connectEnds (success : Bool)
  /-- `async_connect` finds its socket closed before it calls the handler -/
  | socketFoundClosed
  | connectHandler
deriving DecidableEq, Repr

namespace AsioAttempt

/-- `WrapperIoService::runAfter`: a new timer that waits. -/
def runAfter : Timer Unit := (⟨none, []⟩ : Timer Unit).wait ()

/-- `AsioTcpConnector::wrapperAsyncConnect`. -/
def wrapperAsyncConnect : AsioAttempt where
  timer := runAfter
  op := .inFlight
  closed := false
  reports := []

/-- The callback that is passed to `runAfter`. -/
def onTimeout (a : AsioAttempt) : AsioAttempt :=
  { a with closed := true, op := a.op.close, reports := a.reports ++ [.failedCallback] }

/-- The handler of the timer, in `runAfter`. -/
def onTimer (error : Bool) (a : AsioAttempt) : AsioAttempt := if error then a else a.onTimeout

/-- The handler of `async_connect`. -/
def onConnect (error : Bool) (a : AsioAttempt) : AsioAttempt :=
  { a with
    timer := a.timer.cancel
    op := .handled
    reports := a.reports ++ [if error then .failedCallback else .callback !a.closed] }

def step (a : AsioAttempt) : AttemptEvent → Option AsioAttempt
  | .timerExpires => a.timer.expire.map fun timer => { a with timer }
  | .timerHandler =>
      (a.timer.take 0).map fun x => ({ a with timer := x.2 } : AsioAttempt).onTimer x.1.2
  | .connectEnds success =>
      if a.op = .inFlight then some { a with op := if success then .succeeded else .failed }
      else none
  | .socketFoundClosed =>
      if a.op = .succeeded ∧ a.closed then some { a with op := .failed } else none
  | .connectHandler =>
      match a.op with
      | .succeeded => some (a.onConnect false)
      | .failed => some (a.onConnect true)
      | _ => none

end AsioAttempt

/-! ### The connector -/

/-- The calls of `asyncConnect`, the first one first. -/
structure AsioTcpConnector where
  attempts : List AsioAttempt
deriving DecidableEq, Repr

inductive AsioConnectorEvent where
  | asyncConnect
  /-- something happens to the `i`-th call -/
  | attempt (i : ℕ) (e : AttemptEvent)
deriving DecidableEq, Repr

namespace AsioTcpConnector

def asyncConnect (c : AsioTcpConnector) : AsioTcpConnector := ⟨c.attempts ++ [.wrapperAsyncConnect]⟩

def step (c : AsioTcpConnector) : AsioConnectorEvent → Option AsioTcpConnector
  | .asyncConnect => some c.asyncConnect
  | .attempt i e =>
      (c.attempts[i]?.bind fun a => a.step e).map fun a => ⟨c.attempts.set i a⟩

end AsioTcpConnector

def asioConnectorMachine : Machine AsioTcpConnector AsioConnectorEvent where
  init := ⟨[]⟩
  step := AsioTcpConnector.step

/-! ### What a step does to a call -/

namespace AsioAttempt

variable {a a' : AsioAttempt} {e : AttemptEvent}

/-- At most one callback is called, and `callback` not with a socket that the timer has closed. -/
def ReportedOnce (a : AsioAttempt) : Prop :=
  a.reports.length ≤ 1 ∧ .callback false ∉ a.reports

/-- The connect handler has run. -/
def handled (a : AsioAttempt) : Bool := a.op == .handled

/-- Each of the two handlers that runs to the end makes one report, and the timer waits once. -/
structure Inv (a : AsioAttempt) : Prop where
  reports : a.reports.length = a.handled.toNat + a.closed.toNat
  waits : a.timer.waiting.toList.length + a.timer.queued.length + a.closed.toNat ≤ 1
  stale : .callback false ∈ a.reports → a.handled = true ∧ a.closed = true

theorem inv_wrapperAsyncConnect : wrapperAsyncConnect.Inv :=
  ⟨rfl, by decide, by simp [wrapperAsyncConnect]⟩

/-- The handler that is about to run to the end is the first of the two. -/
def exclusive (a : AsioAttempt) : AttemptEvent → Bool
  | .timerHandler => a.timer.queued.head?.any Prod.snd || !a.handled
  | .connectHandler => !a.closed
  | _ => true

theorem Inv.reportedOnce_iff (h : a.Inv) :
    a.ReportedOnce ↔ ¬ (a.handled = true ∧ a.closed = true) := by
  have hreports := h.reports
  constructor
  · rintro ⟨hone, -⟩ ⟨ho, hc⟩
    rw [ho, hc] at hreports
    rw [hreports] at hone
    exact absurd hone (by decide)
  · intro hnot
    refine ⟨?_, fun hm => hnot (h.stale hm)⟩
    rw [hreports]
    cases ho : a.handled <;> cases hc : a.closed
    all_goals first | decide | exact absurd ⟨ho, hc⟩ hnot

@[simp] theorem handled_close (op : ConnectOp) : (op.close == .handled) = (op == .handled) := by
  cases op <;> rfl

/-- The number of handlers of the timer that are to come does not change when it is cancelled. -/
theorem waits_cancel (t : Timer Unit) : t.cancel.waiting.toList.length + t.cancel.queued.length =
    t.waiting.toList.length + t.queued.length := by
  cases hw : t.waiting with
  | none => simp [Timer.cancel, hw]
  | some h => simp [Timer.cancel, hw, Nat.add_comm]

/-- A step that neither reports anything nor closes the socket. -/
theorem Inv.congr (h : a.Inv) (hr : a'.reports = a.reports) (hc : a'.closed = a.closed)
    (ho : a'.handled = a.handled)
    (ht : a'.timer.waiting.toList.length + a'.timer.queued.length ≤
      a.timer.waiting.toList.length + a.timer.queued.length) :
    a'.Inv ∧ (a'.ReportedOnce ↔ a.ReportedOnce) := by
  have hwaits := h.waits
  refine ⟨⟨?_, ?_, ?_⟩, ?_⟩
  · rw [hr, hc, ho]
    exact h.reports
  · rw [hc]
    omega
  · rw [hr, hc, ho]
    exact h.stale
  · rw [ReportedOnce, ReportedOnce, hr]

/-- The connect handler, which runs once. -/
theorem Inv.onConnect (h : a.Inv) (error : Bool) (ho : a.handled = false) :
    (a.onConnect error).Inv := by
  have hreports := h.reports
  have hwaits := h.waits
  rw [ho] at hreports
  refine ⟨?_, ?_, fun hm => ⟨rfl, ?_⟩⟩
  · show (a.reports ++ [_]).length = true.toNat + a.closed.toNat
    rw [List.length_append, hreports, Nat.add_comm]
    simp
  · show a.timer.cancel.waiting.toList.length + a.timer.cancel.queued.length + a.closed.toNat ≤ 1
    rw [waits_cancel]
    exact hwaits
  · show a.closed = true
    obtain hm | hm := List.mem_append.mp hm
    · exact (h.stale hm).2
    · cases error with
      | true => simp at hm
      | false => simpa using hm

/-- The callback of the timer, which runs once. -/
theorem Inv.onTimeout (h : a.Inv) (hc : a.closed = false)
    (ht : a.timer.waiting.toList.length + a.timer.queued.length = 0) : a.onTimeout.Inv := by
  have hreports := h.reports
  rw [hc] at hreports
  refine ⟨?_, ?_, fun hm => ?_⟩
  · show (a.reports ++ [_]).length = (a.op.close == .handled).toNat + true.toNat
    rw [List.length_append, hreports, handled_close]
    rfl
  · show a.timer.waiting.toList.length + a.timer.queued.length + true.toNat ≤ 1
    rw [ht]
    decide
  · obtain hm | hm := List.mem_append.mp hm
    · have hclosed := (h.stale hm).2
      rw [hc] at hclosed
      cases hclosed
    · simp at hm

theorem timerHandler_cases (hs : a.step .timerHandler = some a') :
    ∃ error rest, a.timer.queued = ((), error) :: rest ∧
      a' = ({ a with timer := { a.timer with queued := rest } } : AsioAttempt).onTimer error := by
  cases hq : a.timer.queued with
  | nil => simp [step, Timer.take, hq] at hs
  | cons u rest => exact ⟨u.2, rest, rfl, by simpa [step, Timer.take, hq] using hs.symm⟩

/-- **One step** keeps a call reported once exactly when it is exclusive. -/
theorem step_inv (h : a.Inv) (hs : a.step e = some a') :
    a'.Inv ∧ (a'.ReportedOnce ↔ a.ReportedOnce ∧ a.exclusive e = true) := by
  have hquiet : a'.Inv ∧ (a'.ReportedOnce ↔ a.ReportedOnce) → a.exclusive e = true →
      a'.Inv ∧ (a'.ReportedOnce ↔ a.ReportedOnce ∧ a.exclusive e = true) := by
    rintro ⟨hi, hiff⟩ hex
    exact ⟨hi, hiff.trans (and_iff_left hex).symm⟩
  cases e with
  | timerExpires =>
      obtain ⟨t, ht, rfl⟩ := Option.map_eq_some_iff.mp hs
      obtain ⟨u, hu, rfl⟩ := Option.map_eq_some_iff.mp ht
      exact hquiet (h.congr rfl rfl rfl (by simp [hu, Nat.add_comm])) rfl
  | timerHandler =>
      obtain ⟨error, rest, hq, rfl⟩ := timerHandler_cases hs
      have hwaits := h.waits
      rw [hq, List.length_cons] at hwaits
      have htaken := @Inv.congr a { a with timer := { a.timer with queued := rest } } h rfl rfl rfl
        (by simp [hq])
      cases error with
      | true => exact hquiet htaken (by simp [exclusive, hq])
      | false =>
          -- the timer waits once, so nothing has closed the socket, and nothing is left of the timer
          obtain ⟨hc, hnone⟩ : a.closed = false ∧
              a.timer.waiting.toList.length + rest.length = 0 := by
            cases hc : a.closed with
            | true => rw [hc, Bool.toNat_true] at hwaits; omega
            | false => rw [hc, Bool.toNat_false] at hwaits; exact ⟨rfl, by omega⟩
          have hi := htaken.1.onTimeout hc hnone
          refine ⟨hi, ?_⟩
          rw [onTimer, if_neg Bool.false_ne_true, hi.reportedOnce_iff, h.reportedOnce_iff, hc]
          simp [exclusive, hq, onTimeout, handled]
  | connectEnds success =>
      obtain ⟨ho, rfl⟩ : a.op = .inFlight ∧
          { a with op := if success then .succeeded else .failed } = a' := by simpa [step] using hs
      exact hquiet (h.congr rfl rfl (by cases success <;> simp [handled, ho]) le_rfl) rfl
  | socketFoundClosed =>
      obtain ⟨⟨ho, -⟩, rfl⟩ : (a.op = .succeeded ∧ a.closed = true) ∧
          { a with op := .failed } = a' := by simpa [step] using hs
      exact hquiet (h.congr rfl rfl (by simp [handled, ho]) le_rfl) rfl
  | connectHandler =>
      obtain ⟨error, ho, rfl⟩ : ∃ error, a.handled = false ∧ a.onConnect error = a' := by
        cases ho : a.op with
        | succeeded => exact ⟨false, by simp [handled, ho], by simpa [step, ho] using hs⟩
        | failed => exact ⟨true, by simp [handled, ho], by simpa [step, ho] using hs⟩
        | _ => simp [step, ho] at hs
      have hi := h.onConnect error ho
      refine ⟨hi, ?_⟩
      rw [hi.reportedOnce_iff, h.reportedOnce_iff, ho]
      show ¬ (true = true ∧ a.closed = true) ↔ ¬ (false = true ∧ a.closed = true) ∧ _
      simp [exclusive]

end AsioAttempt

/-! ### Whole runs -/

namespace AsioTcpConnector

variable {c c' : AsioTcpConnector} {e : AsioConnectorEvent}

/-- Every call of `asyncConnect` is reported at most once. -/
def ReportsOnce (c : AsioTcpConnector) : Prop := ∀ a ∈ c.attempts, a.ReportedOnce

def Inv (c : AsioTcpConnector) : Prop := ∀ a ∈ c.attempts, a.Inv

def exclusive (c : AsioTcpConnector) : AsioConnectorEvent → Bool
  | .asyncConnect => true
  | .attempt i e => c.attempts[i]?.all fun a => a.exclusive e

/-- A step is one of one call, and the others do not notice. -/
theorem step_inv (h : c.Inv) (hs : c.step e = some c') :
    c'.Inv ∧ (c'.ReportsOnce ↔ c.ReportsOnce ∧ c.exclusive e = true) := by
  cases e with
  | asyncConnect =>
      obtain rfl : c.asyncConnect = c' := Option.some.inj hs
      have hnew : AsioAttempt.wrapperAsyncConnect.ReportedOnce :=
        AsioAttempt.inv_wrapperAsyncConnect.reportedOnce_iff.mpr (by decide)
      simp only [Inv, ReportsOnce, asyncConnect, exclusive, List.forall_mem_append,
        List.forall_mem_singleton]
      exact ⟨⟨h, AsioAttempt.inv_wrapperAsyncConnect⟩, by simp [hnew]⟩
  | attempt i e =>
      obtain ⟨a', hbind, rfl⟩ := Option.map_eq_some_iff.mp hs
      obtain ⟨a, ha, hstep⟩ := Option.bind_eq_some_iff.mp hbind
      obtain ⟨hi, rfl⟩ := List.getElem?_eq_some_iff.mp ha
      obtain ⟨l₁, l₂, hl, -, hset⟩ := @List.exists_of_set _ i a' c.attempts hi
      have hmem := h _ (List.getElem_mem hi)
      obtain ⟨hinv, hiff⟩ := AsioAttempt.step_inv hmem hstep
      have hex : c.exclusive (.attempt i e) = (c.attempts[i]).exclusive e := by
        simp [exclusive, hi]
      have hall : ∀ P : AsioAttempt → Prop, (∀ a ∈ c.attempts, P a) ↔
          ∀ a ∈ l₁ ++ c.attempts[i] :: l₂, P a := by
        intro P
        rw [← hl]
      simp only [Inv, ReportsOnce, hset, hex, hall, List.forall_mem_append, List.forall_mem_cons]
        at h ⊢
      refine ⟨⟨h.1, hinv, h.2.2⟩, ?_⟩
      rw [hiff]
      tauto

end AsioTcpConnector

/-- **A call is reported once exactly when only one of its handlers runs to the end**: after a run,
every call of `asyncConnect` has led to at most one call of a callback, and `callback` was not given
a socket that the timer has closed, if and only if no expired timer was handled after the connect of
its call, and no connect was handled after the timer had closed its socket. -/
theorem asyncConnect_reports_once_iff (es : List AsioConnectorEvent) (c : AsioTcpConnector)
    (h : asioConnectorMachine.run es = some c) :
    c.ReportsOnce ↔ asioConnectorMachine.Along (fun c e => c.exclusive e = true) es := by
  refine (asioConnectorMachine.run_induction (P := fun es c => c.Inv ∧ (c.ReportsOnce ↔
    asioConnectorMachine.Along (fun c e => c.exclusive e = true) es)) ⟨?_, ?_⟩ ?_ h).2
  · exact fun a ha => (List.not_mem_nil ha).elim
  · exact iff_of_true (fun a ha => (List.not_mem_nil ha).elim) trivial
  · rintro es c e c' hrun ⟨hinv, ih⟩ hs
    obtain ⟨hinv', hiff⟩ := AsioTcpConnector.step_inv hinv hs
    refine ⟨hinv', ?_⟩
    rw [asioConnectorMachine.along_snoc _ hrun, hiff, ih]

/-- One call connects and cancels its timer in time, another one fails. -/
def inTime : List AsioConnectorEvent :=
  [.asyncConnect, .asyncConnect, .attempt 0 (.connectEnds true), .attempt 1 (.connectEnds false),
    .attempt 0 .connectHandler, .attempt 0 .timerHandler, .attempt 1 .connectHandler]

theorem inTime_reports_once : ∃ c, asioConnectorMachine.run inTime = some c ∧
    c.attempts.map AsioAttempt.reports = [[.callback true], [.failedCallback]] ∧ c.ReportsOnce := by
  obtain ⟨c, h⟩ : ∃ c, asioConnectorMachine.run inTime = some c :=
    Option.isSome_iff_exists.mp (by decide +kernel)
  have hobs : (asioConnectorMachine.run inTime).map (fun c => c.attempts.map AsioAttempt.reports) =
      some [[.callback true], [.failedCallback]] := by decide +kernel
  rw [h] at hobs
  exact ⟨c, h, Option.some.inj hobs,
    (asyncConnect_reports_once_iff inTime c h).mpr (by decide +kernel)⟩

/-- The timer expires while the connect is in flight: closing the socket ends the connect. -/
def timedOut : List AsioConnectorEvent :=
  [.asyncConnect, .attempt 0 .timerExpires, .attempt 0 .timerHandler, .attempt 0 .connectHandler]

/-- A call that times out is reported as failed twice. -/
theorem timedOut_reports_twice : ∃ c, asioConnectorMachine.run timedOut = some c ∧
    c.attempts.map AsioAttempt.reports = [[.failedCallback, .failedCallback]] ∧
      ¬ c.ReportsOnce := by
  obtain ⟨c, h⟩ : ∃ c, asioConnectorMachine.run timedOut = some c :=
    Option.isSome_iff_exists.mp (by decide +kernel)
  have hobs : (asioConnectorMachine.run timedOut).map (fun c => c.attempts.map AsioAttempt.reports)
      = some [[.failedCallback, .failedCallback]] := by decide +kernel
  rw [h] at hobs
  have hreports := Option.some.inj hobs
  refine ⟨c, h, hreports, fun honce => ?_⟩
  obtain ⟨a, ha, hr⟩ := List.mem_map.mp (hreports ▸ List.mem_singleton_self _)
  have hlen := (honce a ha).1
  rw [hr] at hlen
  exact absurd hlen (by decide)

/-- The timer expires just before the connect is handled: the call is reported as connected, and then
as failed. -/
example : (asioConnectorMachine.run [.asyncConnect, .attempt 0 (.connectEnds true),
    .attempt 0 .timerExpires, .attempt 0 .connectHandler, .attempt 0 .timerHandler]).map
      (fun c => c.attempts.map AsioAttempt.reports) =
    some [[.callback true, .failedCallback]] := by decide +kernel

end BlackSwan.Asio
