import BlackSwan.APThreads
import BlackSwan.Simulation
import Mathlib.Algebra.Order.BigOperators.Group.Finset

/-! # Runs of the AP threads

The invariant has two halves: what the threads have of the messages (`Shares`), and where the main
thread and the threads can be (`Phases`). -/

namespace BlackSwan

open Wire Runs Turns
open Login (APMsg)

/-- The thread runs. -/
def APThread.Alive (t : APThread) : Prop := t ≠ .absent ∧ t ≠ .returned

namespace APMgrHandler

variable {loginUrl : Bytes} {s s' : APMgrHandler}

/-- Where the main thread and the threads can be. -/
structure Phases (s : APMgrHandler) : Prop where
  absent : s.main = .free → s.running_ = false → ∀ idx, s.work_arr_ idx = .absent
  alive : s.running_ = true → s.stop_flag = false → ∀ idx, (s.work_arr_ idx).Alive
  stopping : s.main ≠ .free → s.running_ = false
  cleared : ∀ i, s.main = .clear i → ∀ idx : Fin WORK_THREAD_COUNT, idx < i → s.message_arr_ idx = []
  joined : ∀ i, s.main = .join i → (∀ idx, s.message_arr_ idx = []) ∧
    ∀ idx : Fin WORK_THREAD_COUNT, idx < i → s.work_arr_ idx = .absent

namespace Phases

/-- A thread goes on. -/
theorem setThread (h : Phases s) {idx : Fin WORK_THREAD_COUNT} {t : APThread}
    (hold : s.work_arr_ idx ≠ .absent)
    (hnew : s.running_ = true → s.stop_flag = false → t.Alive) : Phases (s.setThread idx t) := by
  constructor
  · intro hm hr i
    exact absurd (h.absent hm hr idx) hold
  · intro hr hf i
    by_cases hi : i = idx
    · subst hi
      rw [setThread_self]
      exact hnew hr hf
    · rw [setThread_of_ne hi]
      exact h.alive hr hf i
  · exact h.stopping
  · exact h.cleared
  · intro j hj
    refine ⟨(h.joined j hj).1, fun i hlt => ?_⟩
    have hi : i ≠ idx := by
      rintro rfl
      exact hold ((h.joined j hj).2 i hlt)
    rw [setThread_of_ne hi]
    exact (h.joined j hj).2 i hlt

/-- A list is taken away. -/
theorem take (h : Phases s) (idx : Fin WORK_THREAD_COUNT) :
    Phases { s with message_arr_ := Function.update s.message_arr_ idx [] } := by
  have hempty (i : Fin WORK_THREAD_COUNT) (hi : s.message_arr_ i = []) :
      Function.update s.message_arr_ idx [] i = [] := by
    by_cases he : i = idx
    · subst he
      exact Function.update_self _ _ _
    · rw [Function.update_of_ne he, hi]
  refine ⟨h.absent, h.alive, h.stopping, fun j hj i hlt => ?_, fun j hj => ⟨fun i => ?_, ?_⟩⟩
  · exact hempty i (h.cleared j hj i hlt)
  · exact hempty i ((h.joined j hj).1 i)
  · exact (h.joined j hj).2

theorem run (h : Phases s) {idx : Fin WORK_THREAD_COUNT} (hs : Ran loginUrl s idx s') :
    Phases s' := by
  cases hs with
  | isGameRunning ht =>
      refine h.setThread (by simp [ht]) fun _ hf => ?_
      simp [hf, APThread.Alive]
  | isRunning ht =>
      refine h.setThread (by simp [ht]) fun hr _ => ?_
      simp [hr, APThread.Alive]
  | swap ht => exact (h.take idx).setThread (by simp [ht]) fun _ _ => by simp [APThread.Alive]
  | @handle msg rest ht =>
      have h' : Phases { s with
          history := s.history ++ [⟨idx, msg, onProcApMsg loginUrl msg⟩] } :=
        ⟨h.absent, h.alive, h.stopping, h.cleared, h.joined⟩
      exact h'.setThread (by simp [ht]) fun _ _ => by simp [APThread.Alive]
  | slept ht => exact h.setThread (by simp [ht]) fun _ _ => by simp [APThread.Alive]

/-- A step of the main thread when it is not in `stop`. -/
theorem of_free (hm : s.main = .free) (habs : s.running_ = false → ∀ idx, s.work_arr_ idx = .absent)
    (halive : s.running_ = true → s.stop_flag = false → ∀ idx, (s.work_arr_ idx).Alive) :
    Phases s := by
  refine ⟨fun _ => habs, halive, fun hne => absurd hm hne, fun j hj => ?_, fun j hj => ?_⟩
  · cases hm.symm.trans hj
  · cases hm.symm.trans hj

theorem start (h : Phases s) (hm : s.main = .free) : Phases s.start := by
  unfold APMgrHandler.start
  split_ifs with hr
  · exact h
  · exact of_free hm (fun hf => by cases hf) fun _ _ _ => by simp [APThread.Alive]

theorem pushMsg (h : Phases s) (hm : s.main = .free) (msg : APMsg) : Phases (s.pushMsg msg) :=
  of_free hm (h.absent hm) h.alive

theorem stop : Phases { s with running_ := false, main := .clear 0 } := by
  refine ⟨fun hm => ?_, fun hr => ?_, fun _ => rfl, fun j hj idx hlt => ?_, fun j hj => ?_⟩
  · cases hm
  · cases hr
  · obtain rfl : 0 = j := APMain.clear.inj hj
    exact absurd hlt (Nat.not_lt_zero _)
  · cases hj

end Phases

/-! ### `stop` -/

/-- What the main thread does next in `stop`. -/
inductive Stopped (s : APMgrHandler) : APMgrHandler → Prop where
  | clear {i : ℕ} (hm : s.main = .clear i) (hi : i < WORK_THREAD_COUNT) : Stopped s { s with
      message_arr_ := Function.update s.message_arr_ ⟨i, hi⟩ []
      cleared := Function.update s.cleared ⟨i, hi⟩ (s.cleared ⟨i, hi⟩ ++ s.message_arr_ ⟨i, hi⟩)
      main := .clear (i + 1) }
  | cleared {i : ℕ} (hm : s.main = .clear i) (hi : ¬ i < WORK_THREAD_COUNT) :
      Stopped s { s with main := .join 0 }
  | absent {i : ℕ} (hm : s.main = .join i) (hi : i < WORK_THREAD_COUNT)
      (ht : s.work_arr_ ⟨i, hi⟩ = .absent) : Stopped s { s with main := .join (i + 1) }
  | join {i : ℕ} (hm : s.main = .join i) (hi : i < WORK_THREAD_COUNT)
      (ht : s.work_arr_ ⟨i, hi⟩ = .returned) :
      Stopped s { s.setThread ⟨i, hi⟩ .absent with main := .join (i + 1) }
  | joined {i : ℕ} (hm : s.main = .join i) (hi : ¬ i < WORK_THREAD_COUNT) :
      Stopped s { s with main := .free }

theorem stopNext_cases (hs : s.stopNext = some s') : Stopped s s' := by
  unfold stopNext at hs
  cases hm : s.main with
  | free => simp [hm] at hs
  | clear i =>
      by_cases hi : i < WORK_THREAD_COUNT
      · obtain rfl := Option.some.inj (by simpa only [hm, dif_pos hi] using hs)
        exact .clear hm hi
      · obtain rfl := Option.some.inj (by simpa only [hm, dif_neg hi] using hs)
        exact .cleared hm hi
  | join i =>
      by_cases hi : i < WORK_THREAD_COUNT
      · simp only [hm, dif_pos hi] at hs
        cases ht : s.work_arr_ ⟨i, hi⟩ with
        | absent =>
            obtain rfl := Option.some.inj (by simpa only [ht] using hs)
            exact .absent hm hi ht
        | returned =>
            obtain rfl := Option.some.inj (by simpa only [ht] using hs)
            exact .join hm hi ht
        | isGameRunning => simp [ht] at hs
        | isRunning => simp [ht] at hs
        | swap => simp [ht] at hs
        | batch l => simp [ht] at hs
      · obtain rfl := Option.some.inj (by simpa only [hm, dif_neg hi] using hs)
        exact .joined hm hi

theorem Shares.stopNext (h : Shares loginUrl s) (hs : s.stopNext = some s') :
    Shares loginUrl s' := by
  cases stopNext_cases hs with
  | clear hm hi => exact h.clear _ _
  | cleared hm hi => exact h.of_eq rfl rfl rfl (fun _ => .inl) fun _ => rfl
  | absent hm hi ht => exact h.of_eq rfl rfl rfl (fun _ => .inl) fun _ => rfl
  | join hm hi ht =>
      refine h.of_eq rfl rfl rfl (fun _ => .inl) fun idx => ?_
      by_cases he : idx = ⟨_, hi⟩
      · subst he
        simp only [handled, waiting, setThread_self, ht]
        rfl
      · simp only [handled, waiting, setThread_of_ne he]
        rfl
  | joined hm hi => exact h.of_eq rfl rfl rfl (fun _ => .inl) fun _ => rfl

theorem Phases.stopNext (h : Phases s) (hs : s.stopNext = some s') : Phases s' := by
  have hrun : s.running_ = false := by
    refine h.stopping fun hm => ?_
    simp [APMgrHandler.stopNext, hm] at hs
  cases stopNext_cases hs with
  | @clear i hm hi =>
      refine ⟨fun e => (by cases e), fun e => ?_, fun _ => hrun, fun j hj idx hlt => ?_, fun j hj => ?_⟩
      · exact absurd (hrun.symm.trans e) (by simp)
      · obtain rfl : i + 1 = j := APMain.clear.inj hj
        by_cases he : idx = ⟨i, hi⟩
        · subst he
          exact Function.update_self _ _ _
        · have hne : (idx : ℕ) ≠ i := fun e => he (Fin.ext e)
          have hidx := h.cleared i hm idx (by omega)
          show Function.update s.message_arr_ ⟨i, hi⟩ [] idx = []
          rw [Function.update_of_ne he, hidx]
      · cases hj
  | @cleared i hm hi =>
      refine ⟨fun e => (by cases e), fun e => ?_, fun _ => hrun, fun j hj => ?_, fun j hj => ?_⟩
      · exact absurd (hrun.symm.trans e) (by simp)
      · cases hj
      · obtain rfl : 0 = j := APMain.join.inj hj
        refine ⟨fun idx => h.cleared i hm idx ?_, fun idx hlt => absurd hlt (Nat.not_lt_zero _)⟩
        exact Nat.lt_of_lt_of_le idx.isLt (Nat.le_of_not_lt hi)
  | @absent i hm hi ht =>
      refine ⟨fun e => (by cases e), fun e => ?_, fun _ => hrun, fun j hj => ?_, fun j hj => ?_⟩
      · exact absurd (hrun.symm.trans e) (by simp)
      · cases hj
      · obtain rfl : i + 1 = j := APMain.join.inj hj
        refine ⟨(h.joined i hm).1, fun idx hlt => ?_⟩
        by_cases he : idx = ⟨i, hi⟩
        · rw [he]
          exact ht
        · have hne : (idx : ℕ) ≠ i := fun e => he (Fin.ext e)
          exact (h.joined i hm).2 idx (by omega)
  | @join i hm hi ht =>
      refine ⟨fun e => (by cases e), fun e => ?_, fun _ => hrun, fun j hj => ?_, fun j hj => ?_⟩
      · exact absurd (hrun.symm.trans e) (by simp)
      · cases hj
      · obtain rfl : i + 1 = j := APMain.join.inj hj
        refine ⟨(h.joined i hm).1, fun idx hlt => ?_⟩
        by_cases he : idx = ⟨i, hi⟩
        · subst he
          exact setThread_self _ _ _
        · have hne : (idx : ℕ) ≠ i := fun e => he (Fin.ext e)
          exact (setThread_of_ne he _ _).trans ((h.joined i hm).2 idx (by omega))
  | @joined i hm hi =>
      refine of_free rfl (fun _ idx => (h.joined i hm).2 idx ?_) fun e => ?_
      · exact Nat.lt_of_lt_of_le idx.isLt (Nat.le_of_not_lt hi)
      · exact absurd (hrun.symm.trans e) (by simp)

/-! ### Runs -/

structure Inv (loginUrl : Bytes) (s : APMgrHandler) : Prop where
  shares : Shares loginUrl s
  phases : Phases s

theorem Inv.step (h : Inv loginUrl s) {e : APEvent} (hs : s.step loginUrl e = some s') :
    Inv loginUrl s' := by
  cases e with
  | disableGameRunning =>
      obtain rfl := Option.some.inj hs
      refine ⟨h.shares.of_eq rfl rfl rfl (fun _ => .inl) fun _ => rfl, h.phases.absent, fun _ hf => ?_,
        h.phases.stopping, h.phases.cleared, h.phases.joined⟩
      cases hf
  | start =>
      obtain ⟨hm, rfl⟩ : s.main = .free ∧ s.start = s' := by simpa [APMgrHandler.step] using hs
      exact ⟨h.shares.start (h.phases.absent hm), h.phases.start hm⟩
  | pushMsg msg =>
      obtain ⟨hm, rfl⟩ : s.main = .free ∧ s.pushMsg msg = s' := by
        simpa [APMgrHandler.step] using hs
      exact ⟨h.shares.pushMsg msg, h.phases.pushMsg hm msg⟩
  | stop =>
      obtain ⟨-, rfl⟩ : s.main = .free ∧ _ = s' := by simpa [APMgrHandler.step] using hs
      exact ⟨h.shares.of_eq rfl rfl rfl (fun _ => .inl) fun _ => rfl, .stop⟩
  | stopNext => exact ⟨h.shares.stopNext hs, h.phases.stopNext hs⟩
  | run idx => exact ⟨h.shares.run (run_cases hs), h.phases.run (run_cases hs)⟩

theorem inv_of_reachable (h : (apMachine loginUrl).Reachable s) : Inv loginUrl s := by
  refine (apMachine loginUrl).invariant (P := Inv loginUrl) ?_ (fun _ _ _ hi hs => hi.step hs) h
  refine ⟨⟨rfl, fun _ => ?_, fun _ => ?_, fun q hq => by cases hq⟩, Phases.of_free rfl ?_ ?_⟩
  · exact List.Sublist.refl _
  · exact List.Perm.refl _
  · intro _ idx
    rfl
  · intro hr
    cases hr

/-! ### Messages are handled soon -/

/-- How many steps of its own a thread needs at most until it has handled `n` messages. -/
def need (s : APMgrHandler) (idx : Fin WORK_THREAD_COUNT) (n : ℕ) : ℕ :=
  if n ≤ (s.handled idx).length then 0 else
  n - (s.handled idx).length + match s.work_arr_ idx with
    | .isGameRunning => 3
    | .isRunning => 2
    | .swap => 1
    | .batch l => if n ≤ (s.handled idx).length + l.length then 0 else 4
    | _ => 0

theorem need_le (s : APMgrHandler) (idx : Fin WORK_THREAD_COUNT) (n : ℕ) :
    need s idx n ≤ n - (s.handled idx).length + 4 := by
  unfold need
  split_ifs
  · exact Nat.zero_le _
  · cases s.work_arr_ idx with
    | batch l =>
        dsimp only
        split_ifs <;> omega
    | _ => dsimp only; omega

theorem le_of_need_eq_zero {idx : Fin WORK_THREAD_COUNT} {n : ℕ} (h : need s idx n = 0) :
    n ≤ (s.handled idx).length := by
  by_contra hlt
  rw [need, if_neg hlt] at h
  omega

/-- A step that does not concern the thread. -/
theorem need_congr {idx : Fin WORK_THREAD_COUNT} (hh : s'.handled idx = s.handled idx)
    (ht : s'.work_arr_ idx = s.work_arr_ idx) (n : ℕ) : need s' idx n = need s idx n := by
  rw [need, need, hh, ht]

theorem need_run (hr : s.running_ = true) (hf : s.stop_flag = false) {idx : Fin WORK_THREAD_COUNT}
    (hs : Ran loginUrl s idx s') {n : ℕ} (hn : n ≤ (s.handled idx ++ s.waiting idx).length) :
    need s' idx n ≤ need s idx n - 1 := by
  rw [List.length_append, waiting, List.length_append] at hn
  cases hs with
  | isGameRunning ht =>
      simp only [need, setThread_self, ht, hf]
      show (if n ≤ (s.handled idx).length then 0 else n - (s.handled idx).length + 2) ≤ _
      split_ifs <;> omega
  | isRunning ht =>
      simp only [need, setThread_self, ht, hr]
      show (if n ≤ (s.handled idx).length then 0 else n - (s.handled idx).length + 1) ≤ _
      split_ifs <;> omega
  | swap ht =>
      have hrest : (s.work_arr_ idx).rest = [] := by rw [ht]; rfl
      rw [hrest, List.length_nil, Nat.zero_add] at hn
      simp only [need, setThread_self, ht]
      show (if n ≤ (s.handled idx).length then 0 else n - (s.handled idx).length +
        if n ≤ (s.handled idx).length + (s.message_arr_ idx).length then 0 else 4) ≤ _
      split_ifs <;> omega
  | @handle msg rest ht =>
      have hhandled : (({ s with
          history := s.history ++ [⟨idx, msg, onProcApMsg loginUrl msg⟩] } :
            APMgrHandler).setThread idx (.batch rest)).handled idx = s.handled idx ++ [msg] := by
        simp [handled, setThread]
      simp only [need, setThread_self, ht, hhandled, List.length_append, List.length_cons,
        List.length_nil]
      split_ifs <;> omega
  | slept ht =>
      simp only [need, setThread_self, ht, List.length_nil, Nat.add_zero]
      show (if n ≤ (s.handled idx).length then 0 else n - (s.handled idx).length + 3) ≤ _
      split_ifs <;> omega

/-- Steps outside `stop`, while the game runs: messages are only added, and a thread that goes on gets
nearer to what it has to handle. -/
theorem step_working (hinv : Inv loginUrl s) (hr : s.running_ = true) (hf : s.stop_flag = false)
    {e : APEvent} (hs : s.step loginUrl e = some s') (hstop : e ≠ .stop)
    (hgame : e ≠ .disableGameRunning) :
    (s'.running_ = true ∧ s'.stop_flag = false) ∧ ∀ idx,
      s.handled idx ++ s.waiting idx <+: s'.handled idx ++ s'.waiting idx ∧
      ∀ n ≤ (s.handled idx ++ s.waiting idx).length,
        need s' idx n ≤ need s idx n - if e = .run idx then 1 else 0 := by
  have hmain : s.main = .free := by
    by_contra hm
    cases (hinv.phases.stopping hm).symm.trans hr
  cases e with
  | disableGameRunning => exact absurd rfl hgame
  | stop => exact absurd rfl hstop
  | stopNext =>
      have hnone : s.stopNext = none := by simp [stopNext, hmain]
      cases hnone.symm.trans hs
  | start =>
      obtain rfl : s = s' := by simpa [APMgrHandler.step, hmain, start, hr] using hs
      exact ⟨⟨hr, hf⟩, fun idx => ⟨List.prefix_refl _, fun n _ => Nat.le_refl _⟩⟩
  | pushMsg msg =>
      obtain rfl : s.pushMsg msg = s' := by simpa [APMgrHandler.step, hmain] using hs
      refine ⟨⟨hr, hf⟩, fun idx => ⟨?_, fun n _ => (need_congr rfl rfl n).le⟩⟩
      show s.handled idx ++ s.waiting idx <+: s.handled idx ++ (s.pushMsg msg).waiting idx
      refine (List.prefix_append_right_inj _).mpr ((List.prefix_append_right_inj _).mpr ?_)
      show s.message_arr_ idx <+: Function.update s.message_arr_ s.nextIdx _ idx
      by_cases hi : idx = s.nextIdx
      · subst hi
        rw [Function.update_self]
        exact List.prefix_append _ _
      · rw [Function.update_of_ne hi]
  | run i =>
      have hran : Ran loginUrl s i s' := run_cases hs
      have hflags : s'.running_ = s.running_ ∧ s'.stop_flag = s.stop_flag := by
        cases hran <;> exact ⟨rfl, rfl⟩
      refine ⟨⟨hflags.1.trans hr, hflags.2.trans hf⟩, fun idx => ⟨?_, fun n hn => ?_⟩⟩
      · rw [hran.handled_append_waiting]
      · by_cases hi : idx = i
        · subst hi
          rw [if_pos rfl]
          exact need_run hr hf hran hn
        · obtain ⟨hh, ht, -⟩ := hran.other hi
          rw [if_neg (by simpa using Ne.symm hi), Nat.sub_zero]
          exact (need_congr hh ht n).le

theorem exec_working (idx : Fin WORK_THREAD_COUNT) {es : List APEvent} (hinv : Inv loginUrl s)
    (hr : s.running_ = true) (hf : s.stop_flag = false)
    (hex : (apMachine loginUrl).exec es s = some s') (hstop : .stop ∉ es)
    (hgame : .disableGameRunning ∉ es) :
    s.handled idx ++ s.waiting idx <+: s'.handled idx ++ s'.waiting idx ∧
      ∀ n ≤ (s.handled idx ++ s.waiting idx).length,
        need s' idx n ≤ need s idx n - es.count (.run idx) := by
  induction es generalizing s with
  | nil =>
      obtain rfl : s = s' := by simpa [Machine.exec] using hex
      exact ⟨List.prefix_refl _, fun n _ => Nat.le_refl _⟩
  | cons e es ih =>
      obtain ⟨s₁, hs, hex⟩ := Option.bind_eq_some_iff.mp hex
      rw [List.mem_cons, not_or] at hstop hgame
      obtain ⟨⟨hr₁, hf₁⟩, hstep⟩ :=
        step_working hinv hr hf hs (Ne.symm hstop.1) (Ne.symm hgame.1)
      obtain ⟨hpre, hneed⟩ := hstep idx
      obtain ⟨hpre', hneed'⟩ := ih (hinv.step hs) hr₁ hf₁ hex hstop.2 hgame.2
      refine ⟨hpre.trans hpre', fun n hn => ?_⟩
      have h₁ := hneed n hn
      have h₂ := hneed' n (hn.trans hpre.length_le)
      rw [List.count_cons]
      simp only [beq_iff_eq]
      split_ifs at h₁ ⊢ <;> omega

/-- **Messages are handled soon.**  A thread that goes on four times more than it has messages has
handled them all, in their order, whatever the main thread and the other threads do meanwhile. -/
theorem handled_soon (loginUrl : Bytes) (s : APMgrHandler) (h : (apMachine loginUrl).Reachable s)
    (hr : s.running_ = true) (hf : s.stop_flag = false) (es : List APEvent) (s' : APMgrHandler)
    (hex : (apMachine loginUrl).exec es s = some s') (hstop : .stop ∉ es)
    (hgame : .disableGameRunning ∉ es) (idx : Fin WORK_THREAD_COUNT)
    (hn : (s.waiting idx).length + 4 ≤ es.count (.run idx)) :
    s.handled idx ++ s.waiting idx <+: s'.handled idx := by
  obtain ⟨hpre, hneed⟩ := exec_working idx (inv_of_reachable h) hr hf hex hstop hgame
  have hle := hneed _ (Nat.le_refl _)
  have hbound := need_le s idx (s.handled idx ++ s.waiting idx).length
  rw [List.length_append] at hle hbound
  have hzero : need s' idx ((s.handled idx).length + (s.waiting idx).length) = 0 := by omega
  refine List.prefix_of_prefix_length_le hpre (List.prefix_append _ _) ?_
  rw [List.length_append]
  exact le_of_need_eq_zero hzero

/-- A message about nobody. -/
def blank : APMsg := ⟨some (Login.AuthInfo.new 0), 0, .authen_ap, .success, 0⟩

theorem handled_soon_blank : ∃ s s', (apMachine [47]).run [.start, .pushMsg blank] = some s ∧
    (apMachine [47]).exec (List.replicate 5 (.run 0)) s = some s' ∧
    s.handled 0 ++ s.waiting 0 = [blank] ∧ s.handled 0 ++ s.waiting 0 <+: s'.handled 0 := by
  let s : APMgrHandler := (apMachine [47]).init.start.pushMsg blank
  have hs : (apMachine [47]).run [.start, .pushMsg blank] = some s := rfl
  obtain ⟨s', hs'⟩ : ∃ s', (apMachine [47]).exec (List.replicate 5 (.run 0)) s = some s' :=
    Option.isSome_iff_exists.mp (by decide +kernel)
  refine ⟨s, s', hs, hs', by decide +kernel, ?_⟩
  exact handled_soon [47] s ⟨_, hs⟩ rfl rfl _ s' hs' (by decide) (by decide) 0 (by decide +kernel)

/-! ### `stop` returns -/

/-- What a thread still does when it is told to stop, with so many messages in its list. -/
def threadLeft (queued : ℕ) : APThread → ℕ
  | .absent => 0
  | .isGameRunning => 2
  | .isRunning => 1
  | .swap => queued + 4
  | .batch l => l.length + 3
  | .returned => 0

/-- What the main thread still does in `stop`. -/
def mainLeft : APMain → ℕ
  | .free => 0
  | .join i => WORK_THREAD_COUNT - i + 1
  | .clear i => WORK_THREAD_COUNT - i + (WORK_THREAD_COUNT + 3)

def left (s : APMgrHandler) : ℕ :=
  mainLeft s.main + ∑ idx, threadLeft (s.message_arr_ idx).length (s.work_arr_ idx)

theorem threadLeft_run (hr : s.running_ = false) {idx : Fin WORK_THREAD_COUNT}
    (hs : Ran loginUrl s idx s') :
    threadLeft (s'.message_arr_ idx).length (s'.work_arr_ idx) <
      threadLeft (s.message_arr_ idx).length (s.work_arr_ idx) := by
  cases hs with
  | isGameRunning ht =>
      rw [setThread_self, ht]
      split_ifs <;> simp [threadLeft]
  | isRunning ht => simp [ht, hr, threadLeft]
  | swap ht => simp [ht, threadLeft]
  | handle ht => simp [ht, threadLeft]
  | slept ht => simp [ht, threadLeft]

theorem left_run (hr : s.running_ = false) {idx : Fin WORK_THREAD_COUNT}
    (hs : Ran loginUrl s idx s') : left s' < left s := by
  have hmain : s'.main = s.main := by cases hs <;> rfl
  have hself := threadLeft_run hr hs
  rw [left, left, hmain]
  refine Nat.add_lt_add_left (Finset.sum_lt_sum (fun i _ => ?_) ⟨idx, Finset.mem_univ _, hself⟩) _
  by_cases hi : i = idx
  · rw [hi]
    exact hself.le
  · obtain ⟨-, ht, hm⟩ := hs.other hi
    rw [ht, hm]

theorem threadLeft_mono {m n : ℕ} (h : m ≤ n) (t : APThread) : threadLeft m t ≤ threadLeft n t := by
  cases t with
  | swap => exact Nat.add_le_add_right h 4
  | _ => exact Nat.le_refl _

theorem left_stopNext (hs : Stopped s s') : left s' < left s := by
  cases hs with
  | @clear i hm hi =>
      refine Nat.add_lt_add_of_lt_of_le ?_ (Finset.sum_le_sum fun idx _ => threadLeft_mono ?_ _)
      · rw [hm, mainLeft, mainLeft]
        omega
      · by_cases he : idx = ⟨i, hi⟩
        · subst he
          simp
        · simp [he]
  | cleared hm hi =>
      refine Nat.add_lt_add_right ?_ _
      rw [hm, mainLeft, mainLeft]
      omega
  | absent hm hi ht =>
      refine Nat.add_lt_add_right ?_ _
      rw [hm, mainLeft, mainLeft]
      omega
  | @join i hm hi ht =>
      refine Nat.add_lt_add_of_lt_of_le ?_ (Finset.sum_le_sum fun idx _ => ?_)
      · rw [hm, mainLeft, mainLeft]
        omega
      · by_cases he : idx = ⟨i, hi⟩
        · subst he
          simp only [setThread_self, ht]
          exact Nat.le_refl _
        · simp only [setThread_of_ne he]
          exact Nat.le_refl _
  | joined hm hi =>
      refine Nat.add_lt_add_right ?_ _
      rw [hm, mainLeft, mainLeft]
      omega

theorem left_le (s : APMgrHandler) : left s ≤ (∑ idx, (s.waiting idx).length) + 27 := by
  have hmain : mainLeft s.main ≤ 11 := by
    cases s.main with
    | free => exact Nat.zero_le _
    | join i => rw [mainLeft, WORK_THREAD_COUNT]; omega
    | clear i => rw [mainLeft, WORK_THREAD_COUNT]; omega
  have hthread (idx : Fin WORK_THREAD_COUNT) :
      threadLeft (s.message_arr_ idx).length (s.work_arr_ idx) ≤ (s.waiting idx).length + 4 := by
    rw [waiting, List.length_append]
    cases s.work_arr_ idx with
    | batch l => rw [threadLeft, APThread.rest_batch]; omega
    | _ => rw [threadLeft]; omega
  have hsum := Finset.sum_le_sum fun idx (_ : idx ∈ Finset.univ) => hthread idx
  rw [Finset.sum_add_distrib] at hsum
  have hconst : ∑ _idx : Fin WORK_THREAD_COUNT, 4 = 16 := rfl
  rw [left]
  omega

/-- A step of `stop` or of a thread. -/
def Internal (e : APEvent) : Prop := e = .stopNext ∨ ∃ idx, e = .run idx

/-- What is left to do of `stop` is at most `n` steps. -/
structure Stopping (loginUrl : Bytes) (n : ℕ) (s : APMgrHandler) : Prop where
  inv : Inv loginUrl s
  running_ : s.running_ = false
  left : left s ≤ n
  free : s.main = .free → ∀ idx, s.message_arr_ idx = []

theorem shrinks_stopping (loginUrl : Bytes) :
    Shrinks (apMachine loginUrl) Internal (Stopping loginUrl) := by
  rintro n s e s' h he hs
  have hinv : Inv loginUrl s' := h.inv.step hs
  obtain rfl | ⟨idx, rfl⟩ := he
  · have hstop := stopNext_cases hs
    have hlt := left_stopNext hstop
    refine ⟨left s', hlt.trans_le h.left, hinv, ?_, Nat.le_refl _, fun hm => ?_⟩
    · have hsame : s'.running_ = s.running_ := by cases hstop <;> rfl
      exact hsame.trans h.running_
    · cases hstop with
      | joined hm' hi => exact (h.inv.phases.joined _ hm').1
      | _ => cases hm
  · have hran : Ran loginUrl s idx s' := run_cases hs
    have hlt := left_run h.running_ hran
    refine ⟨left s', hlt.trans_le h.left, hinv, ?_, Nat.le_refl _, fun hm => ?_⟩
    · have hsame : s'.running_ = s.running_ := by cases hran <;> rfl
      exact hsame.trans h.running_
    · -- no thread is left to go on
      have hmain : s'.main = s.main := by cases hran <;> rfl
      have habs := h.inv.phases.absent (hmain.symm.trans hm) h.running_ idx
      simp [apMachine, APMgrHandler.step, APMgrHandler.run, habs] at hs

/-- Until `stop` has returned somebody can go on. -/
theorem exists_internal (loginUrl : Bytes) (hm : s.main ≠ .free) :
    ∃ e, Internal e ∧ ((apMachine loginUrl).step s e).isSome := by
  have hstop (hs : s.stopNext.isSome) : ∃ e, Internal e ∧ ((apMachine loginUrl).step s e).isSome :=
    ⟨.stopNext, .inl rfl, hs⟩
  have hrun (idx : Fin WORK_THREAD_COUNT) (hs : (s.run loginUrl idx).isSome) :
      ∃ e, Internal e ∧ ((apMachine loginUrl).step s e).isSome := ⟨.run idx, .inr ⟨idx, rfl⟩, hs⟩
  cases hmain : s.main with
  | free => exact absurd hmain hm
  | clear i =>
      apply hstop
      rw [stopNext, hmain]
      dsimp only
      split_ifs <;> rfl
  | join i =>
      by_cases hi : i < WORK_THREAD_COUNT
      · cases ht : s.work_arr_ ⟨i, hi⟩ with
        | absent => exact hstop (by simp [stopNext, hmain, hi, ht])
        | returned => exact hstop (by simp [stopNext, hmain, hi, ht])
        | isGameRunning => exact hrun ⟨i, hi⟩ (by simp [run, ht])
        | isRunning => exact hrun ⟨i, hi⟩ (by simp [run, ht])
        | swap => exact hrun ⟨i, hi⟩ (by simp [run, ht])
        | batch l => exact hrun ⟨i, hi⟩ (by cases l <;> simp [run, ht])
      · exact hstop (by simp [stopNext, hmain, hi])

/-- **`stop` returns.**  Once `stop` has begun, the threads and the main thread go on a bounded number
of times, in any order, and somebody can go on until `stop` has returned.  Then the threads are gone,
and every message has been handled or thrown away. -/
theorem stop_returns (loginUrl : Bytes) (s : APMgrHandler) (h : (apMachine loginUrl).Reachable s)
    (hm : s.main ≠ .free) (es : List APEvent) (s' : APMgrHandler)
    (hex : (apMachine loginUrl).exec es s = some s') (hes : ∀ e ∈ es, Internal e) :
    es.length ≤ (∑ idx, (s.waiting idx).length) + 27 ∧
      ((∃ e, Internal e ∧ ((apMachine loginUrl).step s' e).isSome) ∨
        s'.main = .free ∧ ∀ idx, s'.work_arr_ idx = .absent ∧
          (s'.handled idx ++ s'.cleared idx).Perm (lane WORK_THREAD_COUNT idx s'.pushed)) := by
  have hinv := inv_of_reachable h
  have hstopping : Stopping loginUrl (left s) s :=
    ⟨hinv, hinv.phases.stopping hm, Nat.le_refl _, fun e => absurd e hm⟩
  obtain ⟨n, hle, hend⟩ := (shrinks_stopping loginUrl).length_le hstopping hes hex
  refine ⟨(Nat.le_of_add_right_le hle).trans (left_le s), ?_⟩
  by_cases hfree : s'.main = .free
  · refine .inr ⟨hfree, fun idx => ?_⟩
    have habs := hend.inv.phases.absent hfree hend.running_ idx
    have hshare := hend.inv.shares.conserved idx
    have hwaiting : s'.waiting idx = [] := by
      rw [waiting, habs, hend.free hfree idx]
      rfl
    rw [hwaiting, List.append_nil] at hshare
    exact ⟨habs, hshare⟩
  · exact .inl (exists_internal loginUrl hfree)

/-- `stop` is called while a thread is about to take its list. -/
theorem stop_returns_swap : ∃ s s',
    (apMachine [47]).run [.start, .pushMsg blank, .run 0, .run 0, .stop] = some s ∧
    (apMachine [47]).exec [.run 0, .stopNext, .run 0, .stopNext] s = some s' ∧
    s'.handled 0 = [blank] ∧
    ((∃ e, Internal e ∧ ((apMachine [47]).step s' e).isSome) ∨
        s'.main = .free ∧ ∀ idx, s'.work_arr_ idx = .absent ∧
          (s'.handled idx ++ s'.cleared idx).Perm (lane WORK_THREAD_COUNT idx s'.pushed)) := by
  obtain ⟨s, hs⟩ : ∃ s,
      (apMachine [47]).run [.start, .pushMsg blank, .run 0, .run 0, .stop] = some s :=
    Option.isSome_iff_exists.mp (by decide +kernel)
  have hobs : ((apMachine [47]).run [.start, .pushMsg blank, .run 0, .run 0, .stop]).map (fun s =>
      (s.main, ((apMachine [47]).exec [.run 0, .stopNext, .run 0, .stopNext] s).map fun s' =>
        s'.handled 0)) = some (.clear 0, some [blank]) := by decide +kernel
  rw [hs] at hobs
  simp only [Option.map_some, Option.some.injEq, Prod.mk.injEq, Option.map_eq_some_iff] at hobs
  obtain ⟨hm, s', hs', hh⟩ := hobs
  refine ⟨s, s', hs, hs', hh, (stop_returns [47] s ⟨_, hs⟩ (by simp [hm]) _ s' hs' ?_).2⟩
  intro e he
  simp only [List.mem_cons, List.not_mem_nil, or_false] at he
  obtain rfl | rfl | rfl | rfl := he
  · exact .inr ⟨0, rfl⟩
  · exact .inl rfl
  · exact .inr ⟨0, rfl⟩
  · exact .inl rfl

end APMgrHandler

end BlackSwan
