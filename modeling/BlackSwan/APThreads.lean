import BlackSwan.AuthQuery
import BlackSwan.Turns

/-! # The threads that ask the AP

`APMgrHandler` has four threads, each with a list of messages of its own.  The main thread gives the
messages to the lists in turn; each thread takes its whole list away, asks the AP about one message
after the other, sleeps, and looks again.  `stop` clears the lists and waits for the threads.

Every access that another thread can see is a step, and the steps come in any order.  `pushed`,
`history` and `cleared` keep what was pushed, what was handled and what `stop` has thrown away; no
step looks at them. -/

namespace BlackSwan

open Wire Runs Turns
open Login (APMsg Operation)

def WORK_THREAD_COUNT : ℕ := 4

instance : NeZero WORK_THREAD_COUNT := ⟨by decide⟩

/-- Where a thread is in `APMgrHandler::run`. -/
inductive APThread where
  /-- there is no thread -/
  | absent
  /-- before the call of `isGameRunning` -/
  | isGameRunning
  /-- before the call of `isRunning` -/
  | isRunning
  /-- before `swap` -/
  | swap
  /-- the messages that are left of the inner loop -/
  | batch (cur_message_list : List APMsg)
  /-- `run` has returned -/
  | returned
deriving DecidableEq, Repr

/-- Where the main thread is. -/
inductive APMain where
  | free
  /-- in the loop of `APMgrHandler::stop` over the lists -/
  | clear (i : ℕ)
  /-- in the loop of `APMgrHandler::stop` over the threads -/
  | join (i : ℕ)
deriving DecidableEq, Repr

/-- A thread has handled a message, and has asked for a URL. -/
structure APQuery where
  idx : Fin WORK_THREAD_COUNT
  msg : APMsg
  url : Option Bytes
deriving DecidableEq, Repr

structure APMgrHandler where
  work_arr_ : Fin WORK_THREAD_COUNT → APThread
  message_arr_ : Fin WORK_THREAD_COUNT → List APMsg
  process_cnt_ : UInt32
  running_ : Bool
  /-- `g_stop_flag_` -/
  stop_flag : Bool
  main : APMain
  pushed : List APMsg
  history : List APQuery
  cleared : Fin WORK_THREAD_COUNT → List APMsg

namespace APMgrHandler

/-- The list that the next message is for. -/
def nextIdx (s : APMgrHandler) : Fin WORK_THREAD_COUNT :=
  ⟨s.process_cnt_.toNat % WORK_THREAD_COUNT, Nat.mod_lt _ (by decide)⟩

def pushMsg (msg : APMsg) (s : APMgrHandler) : APMgrHandler :=
  let idx := s.nextIdx
  { s with
    process_cnt_ := s.process_cnt_ + 1
    message_arr_ := Function.update s.message_arr_ idx (s.message_arr_ idx ++ [msg])
    pushed := s.pushed ++ [msg] }

/-- `APMgrHandler::onProcApMsg`: the URL that is asked for. -/
def onProcApMsg (loginUrl : Bytes) (msg : APMsg) : Option Bytes :=
  match msg.authInfo with
  | none => none
  | some auth =>
      match msg.operation with
      | .authen_ap => checkLoginTokent loginUrl auth
      | _ => none

def start (s : APMgrHandler) : APMgrHandler :=
  if s.running_ then s
  else { s with running_ := true, work_arr_ := fun _ => .isGameRunning }

def setThread (idx : Fin WORK_THREAD_COUNT) (t : APThread) (s : APMgrHandler) : APMgrHandler :=
  { s with work_arr_ := Function.update s.work_arr_ idx t }

/-- A thread goes on in `APMgrHandler::run`. -/
def run (loginUrl : Bytes) (idx : Fin WORK_THREAD_COUNT) (s : APMgrHandler) :
    Option APMgrHandler :=
  match s.work_arr_ idx with
  | .absent => none
  | .isGameRunning => some (s.setThread idx (if s.stop_flag then .returned else .isRunning))
  | .isRunning => some (s.setThread idx (if s.running_ then .swap else .returned))
  | .swap => some
      (({ s with message_arr_ := Function.update s.message_arr_ idx [] } :
        APMgrHandler).setThread idx (.batch (s.message_arr_ idx)))
  | .batch (msg :: rest) => some
      (({ s with history := s.history ++ [⟨idx, msg, onProcApMsg loginUrl msg⟩] } :
        APMgrHandler).setThread idx (.batch rest))
  -- the thread has slept
  | .batch [] => some (s.setThread idx .isGameRunning)
  | .returned => none

/-- The main thread goes on in `APMgrHandler::stop`; a thread that has not returned is waited for. -/
def stopNext (s : APMgrHandler) : Option APMgrHandler :=
  match s.main with
  | .free => none
  | .clear i =>
      if h : i < WORK_THREAD_COUNT then
        some { s with
          message_arr_ := Function.update s.message_arr_ ⟨i, h⟩ []
          cleared := Function.update s.cleared ⟨i, h⟩ (s.cleared ⟨i, h⟩ ++ s.message_arr_ ⟨i, h⟩)
          main := .clear (i + 1) }
      else some { s with main := .join 0 }
  | .join i =>
      if h : i < WORK_THREAD_COUNT then
        match s.work_arr_ ⟨i, h⟩ with
        | .absent => some { s with main := .join (i + 1) }
        | .returned => some { s.setThread ⟨i, h⟩ .absent with main := .join (i + 1) }
        | _ => none
      else some { s with main := .free }

end APMgrHandler

inductive APEvent where
  /-- `disableGameRunning`, or a signal -/
  | disableGameRunning
  | start
  | pushMsg (msg : APMsg)
  /-- the call of `stop`, up to its first loop -/
  | stop
  | stopNext
  | run (idx : Fin WORK_THREAD_COUNT)
deriving DecidableEq, Repr

/-- `pushMsg`, `start` and `stop` are calls of the main thread. -/
def APMgrHandler.step (loginUrl : Bytes) (s : APMgrHandler) (e : APEvent) : Option APMgrHandler :=
  match e with
  | .disableGameRunning => some { s with stop_flag := true }
  | .start => if s.main = .free then some s.start else none
  | .pushMsg msg => if s.main = .free then some (s.pushMsg msg) else none
  | .stop => if s.main = .free then some { s with running_ := false, main := .clear 0 } else none
  | .stopNext => s.stopNext
  | .run idx => s.run loginUrl idx

def apMachine (loginUrl : Bytes) : Machine APMgrHandler APEvent where
  init := {
    work_arr_ := fun _ => .absent
    message_arr_ := fun _ => []
    process_cnt_ := 0
    running_ := false
    stop_flag := false
    main := .free
    pushed := []
    history := []
    cleared := fun _ => [] }
  step := APMgrHandler.step loginUrl

/-! ### What the threads handle -/

/-- What a thread has of the list that it has taken. -/
def APThread.rest : APThread → List APMsg
  | .batch cur_message_list => cur_message_list
  | _ => []

@[simp] theorem APThread.rest_batch (l : List APMsg) : (APThread.batch l).rest = l := rfl

namespace APMgrHandler

/-- What a thread has handled. -/
def handled (s : APMgrHandler) (idx : Fin WORK_THREAD_COUNT) : List APMsg :=
  (s.history.filter fun q => q.idx = idx).map fun q => q.msg

/-- What a thread has not handled yet. -/
def waiting (s : APMgrHandler) (idx : Fin WORK_THREAD_COUNT) : List APMsg :=
  (s.work_arr_ idx).rest ++ s.message_arr_ idx

/-- A thread has its share of the messages, in order, but for what `stop` has thrown away. -/
structure Shares (loginUrl : Bytes) (s : APMgrHandler) : Prop where
  count : s.process_cnt_ = UInt32.ofNat s.pushed.length
  order : ∀ idx, (s.handled idx ++ s.waiting idx).Sublist (lane WORK_THREAD_COUNT idx s.pushed)
  conserved : ∀ idx,
    (s.handled idx ++ s.waiting idx ++ s.cleared idx).Perm (lane WORK_THREAD_COUNT idx s.pushed)
  url : ∀ q ∈ s.history, q.url = onProcApMsg loginUrl q.msg

variable {loginUrl : Bytes} {s s' : APMgrHandler}

@[simp] theorem setThread_self (idx : Fin WORK_THREAD_COUNT) (t : APThread) (s : APMgrHandler) :
    (s.setThread idx t).work_arr_ idx = t := Function.update_self _ _ _

theorem setThread_of_ne {idx i : Fin WORK_THREAD_COUNT} (h : i ≠ idx) (t : APThread)
    (s : APMgrHandler) : (s.setThread idx t).work_arr_ i = s.work_arr_ i :=
  Function.update_of_ne h _ _

/-- What a thread does next. -/
inductive Ran (loginUrl : Bytes) (s : APMgrHandler) (idx : Fin WORK_THREAD_COUNT) :
    APMgrHandler → Prop where
  | isGameRunning (ht : s.work_arr_ idx = .isGameRunning) :
      Ran loginUrl s idx (s.setThread idx (if s.stop_flag then .returned else .isRunning))
  | isRunning (ht : s.work_arr_ idx = .isRunning) :
      Ran loginUrl s idx (s.setThread idx (if s.running_ then .swap else .returned))
  | swap (ht : s.work_arr_ idx = .swap) :
      Ran loginUrl s idx (({ s with message_arr_ := Function.update s.message_arr_ idx [] } :
        APMgrHandler).setThread idx (.batch (s.message_arr_ idx)))
  | handle {msg : APMsg} {rest : List APMsg} (ht : s.work_arr_ idx = .batch (msg :: rest)) :
      Ran loginUrl s idx (({ s with
        history := s.history ++ [⟨idx, msg, onProcApMsg loginUrl msg⟩] } :
          APMgrHandler).setThread idx (.batch rest))
  | slept (ht : s.work_arr_ idx = .batch []) :
      Ran loginUrl s idx (s.setThread idx .isGameRunning)

theorem run_cases {idx : Fin WORK_THREAD_COUNT} (hs : s.run loginUrl idx = some s') :
    Ran loginUrl s idx s' := by
  unfold APMgrHandler.run at hs
  cases ht : s.work_arr_ idx with
  | absent => simp [ht] at hs
  | returned => simp [ht] at hs
  | isGameRunning =>
      obtain rfl := Option.some.inj (by simpa only [ht] using hs)
      exact .isGameRunning ht
  | isRunning =>
      obtain rfl := Option.some.inj (by simpa only [ht] using hs)
      exact .isRunning ht
  | swap =>
      obtain rfl := Option.some.inj (by simpa only [ht] using hs)
      exact .swap ht
  | batch l =>
      cases l with
      | nil =>
          obtain rfl := Option.some.inj (by simpa only [ht] using hs)
          exact .slept ht
      | cons msg rest =>
          obtain rfl := Option.some.inj (by simpa only [ht] using hs)
          exact .handle ht

namespace Ran

variable {idx : Fin WORK_THREAD_COUNT}

/-- The other threads are left alone. -/
theorem other (h : Ran loginUrl s idx s') {i : Fin WORK_THREAD_COUNT} (hi : i ≠ idx) :
    s'.handled i = s.handled i ∧ s'.work_arr_ i = s.work_arr_ i ∧
      s'.message_arr_ i = s.message_arr_ i := by
  cases h with
  | isGameRunning ht => exact ⟨rfl, setThread_of_ne hi _ _, rfl⟩
  | isRunning ht => exact ⟨rfl, setThread_of_ne hi _ _, rfl⟩
  | swap ht => exact ⟨rfl, setThread_of_ne hi _ _, Function.update_of_ne hi _ _⟩
  | handle ht =>
      refine ⟨?_, setThread_of_ne hi _ _, rfl⟩
      simp [handled, setThread, Ne.symm hi]
  | slept ht => exact ⟨rfl, setThread_of_ne hi _ _, rfl⟩

/-- A thread only moves messages on. -/
theorem handled_append_waiting (h : Ran loginUrl s idx s') (i : Fin WORK_THREAD_COUNT) :
    s'.handled i ++ s'.waiting i = s.handled i ++ s.waiting i := by
  by_cases hi : i = idx
  · subst hi
    cases h with
    | isGameRunning ht =>
        have hrest : (if s.stop_flag then APThread.returned else .isRunning).rest = [] := by
          split_ifs <;> rfl
        simp only [handled, waiting, setThread_self, ht, hrest]
        rfl
    | isRunning ht =>
        have hrest : (if s.running_ then APThread.swap else .returned).rest = [] := by
          split_ifs <;> rfl
        simp only [handled, waiting, setThread_self, ht, hrest]
        rfl
    | swap ht =>
        have hrest : APThread.swap.rest = [] := rfl
        simp [handled, waiting, setThread, ht, hrest]
    | handle ht => simp [handled, waiting, setThread, ht]
    | slept ht =>
        have hrest : APThread.isGameRunning.rest = [] := rfl
        simp [handled, waiting, setThread, ht, hrest]
  · obtain ⟨h₁, h₂, h₃⟩ := h.other hi
    rw [waiting, waiting, h₁, h₂, h₃]

end Ran

namespace Shares

/-- A step that changes only how far the threads have got. -/
theorem of_eq (h : Shares loginUrl s) (hc : s'.process_cnt_ = s.process_cnt_)
    (hp : s'.pushed = s.pushed) (hcl : s'.cleared = s.cleared)
    (hurl : ∀ q ∈ s'.history, q ∈ s.history ∨ q.url = onProcApMsg loginUrl q.msg)
    (hw : ∀ idx, s'.handled idx ++ s'.waiting idx = s.handled idx ++ s.waiting idx) :
    Shares loginUrl s' := by
  constructor
  · rw [hc, hp]
    exact h.count
  · intro idx
    rw [hw, hp]
    exact h.order idx
  · intro idx
    rw [hw, hcl, hp]
    exact h.conserved idx
  · intro q hq
    exact (hurl q hq).elim (h.url q) id

theorem nextIdx_eq (h : Shares loginUrl s) : (s.nextIdx : ℕ) = s.pushed.length % WORK_THREAD_COUNT := by
  show s.process_cnt_.toNat % WORK_THREAD_COUNT = _
  rw [h.count, UInt32.toNat_ofNat']
  exact Nat.mod_mod_of_dvd _ (by decide)

theorem pushMsg (h : Shares loginUrl s) (msg : APMsg) : Shares loginUrl (s.pushMsg msg) := by
  have hnext := h.nextIdx_eq
  have hself : (s.pushMsg msg).waiting s.nextIdx = s.waiting s.nextIdx ++ [msg] := by
    simp [APMgrHandler.pushMsg, waiting]
  have hother (idx : Fin WORK_THREAD_COUNT) (hi : idx ≠ s.nextIdx) :
      (s.pushMsg msg).waiting idx = s.waiting idx := by
    simp [APMgrHandler.pushMsg, waiting, hi]
  constructor
  · show s.process_cnt_ + 1 = UInt32.ofNat (s.pushed ++ [msg]).length
    rw [h.count, List.length_append, List.length_singleton, UInt32.ofNat_add]
    rfl
  · intro idx
    show (s.handled idx ++ (s.pushMsg msg).waiting idx).Sublist (lane _ _ (s.pushed ++ [msg]))
    by_cases hi : idx = s.nextIdx
    · subst hi
      rw [hself, lane_concat_of_eq hnext.symm, ← List.append_assoc]
      exact (h.order _).append (List.Sublist.refl _)
    · rw [hother idx hi, lane_concat_of_ne (by rw [← hnext]; exact fun e => hi (Fin.ext e.symm))]
      exact h.order idx
  · intro idx
    show (s.handled idx ++ (s.pushMsg msg).waiting idx ++ s.cleared idx).Perm
      (lane _ _ (s.pushed ++ [msg]))
    by_cases hi : idx = s.nextIdx
    · subst hi
      rw [hself, lane_concat_of_eq hnext.symm, ← List.append_assoc]
      refine List.Perm.trans ?_ ((h.conserved _).append_right [msg])
      rw [List.append_assoc, List.append_assoc _ _ [msg]]
      exact List.perm_append_comm.append_left _
    · rw [hother idx hi, lane_concat_of_ne (by rw [← hnext]; exact fun e => hi (Fin.ext e.symm))]
      exact h.conserved idx
  · exact h.url

theorem run (h : Shares loginUrl s) {idx : Fin WORK_THREAD_COUNT} (hs : Ran loginUrl s idx s') :
    Shares loginUrl s' := by
  have hw := hs.handled_append_waiting
  cases hs with
  | isGameRunning ht => exact h.of_eq rfl rfl rfl (fun _ => .inl) hw
  | isRunning ht => exact h.of_eq rfl rfl rfl (fun _ => .inl) hw
  | swap ht => exact h.of_eq rfl rfl rfl (fun _ => .inl) hw
  | handle ht =>
      refine h.of_eq rfl rfl rfl (fun q hq => (List.mem_append.mp hq).imp_right fun hq => ?_) hw
      rw [List.mem_singleton.mp hq]
  | slept ht => exact h.of_eq rfl rfl rfl (fun _ => .inl) hw

/-- `stop` clears a list. -/
theorem clear (h : Shares loginUrl s) (idx : Fin WORK_THREAD_COUNT) (i : ℕ) :
    Shares loginUrl { s with
      message_arr_ := Function.update s.message_arr_ idx []
      cleared := Function.update s.cleared idx (s.cleared idx ++ s.message_arr_ idx)
      main := .clear i } := by
  refine ⟨h.count, fun j => ?_, fun j => ?_, h.url⟩
  · refine List.Sublist.trans (List.Sublist.append_left ?_ _) (h.order j)
    refine List.Sublist.append_left ?_ _
    by_cases hj : j = idx
    · subst hj
      simp
    · simp [hj]
  · refine List.Perm.trans ?_ (h.conserved j)
    by_cases hj : j = idx
    · subst hj
      simp only [handled, waiting, Function.update_self, List.append_nil, List.append_assoc]
      exact (List.perm_append_comm.append_left _).append_left _
    · simp only [handled, waiting, Function.update_of_ne hj]
      rfl

theorem start (h : Shares loginUrl s) (habs : s.running_ = false → ∀ idx, s.work_arr_ idx = .absent) :
    Shares loginUrl s.start := by
  unfold APMgrHandler.start
  split_ifs with hr
  · exact h
  · refine h.of_eq rfl rfl rfl (fun _ => .inl) fun idx => ?_
    rw [waiting, waiting, habs (by simpa using hr) idx]
    rfl

end Shares

end APMgrHandler

end BlackSwan
