import Mathlib.Data.List.Induction
import Mathlib.Logic.Basic

/-! # Runs of an event-driven component

A component is a first state and a partial step function: `step s e` is the state after the event
`e`, or `none` when `e` cannot happen in `s`.  Every handler is one step, and whatever is not
determined by the component (the order of its handlers, the network, other threads) is in the
list of events.

`run_induction` is the one induction over runs, and `reachable_of_simulation` compares two
components.  `Along ok es` says that every step of a run meets a condition on the state before it,
and `run_induction_along` is the rule for such runs; `Throughout R es` says what every step of a run
does, and `throughout_of_along`, `along_of_throughout` and `throughout_iff_along` compare the two.
`tally f es` adds up a number over the steps of a run. -/

namespace Runs

/-- A first state, and what an event does to a state in which it can happen. -/
structure Machine (σ ε : Type) where
  init : σ
  step : σ → ε → Option σ

variable {σ ε : Type}

namespace Machine

variable (M : Machine σ ε)

/-- The state after a list of events, if they can happen one after the other. -/
def exec : List ε → σ → Option σ
  | [], s => some s
  | e :: es, s => (M.step s e).bind (exec es)

/-- A run from the first state. -/
def run (es : List ε) : Option σ := M.exec es M.init

/-- The states that some run ends in. -/
def Reachable (s : σ) : Prop := ∃ es, M.run es = some s

theorem exec_append : ∀ (es es' : List ε) (s : σ),
    M.exec (es ++ es') s = (M.exec es s).bind (M.exec es')
  | [], es', s => rfl
  | e :: es, es', s => by
      simp only [List.cons_append, exec]
      cases M.step s e with
      | none => rfl
      | some s' => exact exec_append es es' s'

theorem exec_snoc (es : List ε) (e : ε) (s : σ) :
    M.exec (es ++ [e]) s = (M.exec es s).bind fun s' => M.step s' e := by
  rw [exec_append]
  cases M.exec es s with
  | none => rfl
  | some s' => simp [exec]

theorem run_snoc_eq_some {es : List ε} {e : ε} {s' : σ} (h : M.run (es ++ [e]) = some s') :
    ∃ s, M.run es = some s ∧ M.step s e = some s' := by
  rw [run, exec_snoc] at h
  exact Option.bind_eq_some_iff.mp h

theorem run_snoc {es : List ε} {e : ε} {s s' : σ} (h : M.run es = some s)
    (hs : M.step s e = some s') : M.run (es ++ [e]) = some s' := by
  rw [run, exec_snoc, ← run, h]
  exact hs

/-- **Induction over runs**, one event at a time. -/
theorem run_induction {P : List ε → σ → Prop} (h0 : P [] M.init)
    (hs : ∀ es s e s', M.run es = some s → P es s → M.step s e = some s' → P (es ++ [e]) s')
    {es : List ε} {s : σ} (h : M.run es = some s) : P es s := by
  induction es using List.reverseRecOn generalizing s with
  | nil =>
      obtain rfl : M.init = s := by simpa [run, exec] using h
      exact h0
  | append_singleton es e ih =>
      obtain ⟨s₁, h₁, h₂⟩ := M.run_snoc_eq_some h
      exact hs es s₁ e s h₁ (ih h₁) h₂

/-- A block of events that takes `P k` to `P (k + 1)`, repeated. -/
theorem exec_repeat {P : ℕ → σ → Prop} {block : List ε} {n : ℕ}
    (hb : ∀ k s, k < n → P k s → ∃ s', M.exec block s = some s' ∧ P (k + 1) s') {s : σ}
    (h0 : P 0 s) : ∃ s', M.exec (List.replicate n block).flatten s = some s' ∧ P n s' := by
  induction n with
  | zero => exact ⟨s, rfl, h0⟩
  | succ n ih =>
      obtain ⟨s₁, h₁, hn⟩ := ih fun k s hk => hb k s (Nat.lt_succ_of_lt hk)
      obtain ⟨s₂, h₂, hn'⟩ := hb n s₁ (Nat.lt_succ_self n) hn
      refine ⟨s₂, ?_, hn'⟩
      rw [List.replicate_succ', List.flatten_append, exec_append, h₁]
      simpa using h₂

/-- What every step keeps stays for the rest of a run. -/
theorem exec_invariant {P : σ → Prop} (hs : ∀ s e s', P s → M.step s e = some s' → P s') :
    ∀ {es : List ε} {s s' : σ}, M.exec es s = some s' → P s → P s'
  | [], s, s', h, hp => by
      obtain rfl : s = s' := by simpa [exec] using h
      exact hp
  | e :: es, s, s', h, hp => by
      obtain ⟨s₁, h₁, h₂⟩ := Option.bind_eq_some_iff.mp h
      exact exec_invariant hs h₂ (hs s e s₁ hp h₁)

/-- What holds first and is kept by every step holds in every reachable state. -/
theorem invariant {P : σ → Prop} (h0 : P M.init)
    (hs : ∀ s e s', P s → M.step s e = some s' → P s') {s : σ} (h : M.Reachable s) : P s := by
  obtain ⟨es, h⟩ := h
  exact M.run_induction (P := fun _ s => P s) h0 (fun _ s e s' _ => hs s e s') h

/-- **Simulation**: if every step of `M` is a step of `N`, or none, then what is seen of a reachable
state of `M` is a reachable state of `N`. -/
theorem reachable_of_simulation {τ δ : Type} {M : Machine σ ε} {N : Machine τ δ} (view : σ → τ)
    (h0 : view M.init = N.init)
    (hs : ∀ s e s', M.step s e = some s' →
      view s' = view s ∨ ∃ e', N.step (view s) e' = some (view s')) {s : σ} (h : M.Reachable s) :
    N.Reachable (view s) := by
  refine M.invariant (P := fun s => N.Reachable (view s)) ⟨[], congrArg some h0.symm⟩ ?_ h
  rintro s e s' ⟨es, hrun⟩ hstep
  obtain heq | ⟨e', hstep'⟩ := hs s e s' hstep
  · rw [heq]
    exact ⟨es, hrun⟩
  · exact ⟨es ++ [e'], N.run_snoc hrun hstep'⟩

/-! ### Conditions on the steps of a run -/

/-- The events `es`, from `s` on, each happen in a state that meets the condition. -/
def AlongFrom (ok : σ → ε → Prop) : List ε → σ → Prop
  | [], _ => True
  | e :: es, s =>
      ok s e ∧ match M.step s e with
        | none => True
        | some s' => AlongFrom ok es s'

/-- Every step of the run `es` meets the condition. -/
def Along (ok : σ → ε → Prop) (es : List ε) : Prop := M.AlongFrom ok es M.init

instance decidableAlongFrom (ok : σ → ε → Prop) [∀ s e, Decidable (ok s e)] :
    ∀ (es : List ε) (s : σ), Decidable (M.AlongFrom ok es s)
  | [], _ => .isTrue trivial
  | e :: es, s =>
      match h : M.step s e with
      | none => decidable_of_iff (ok s e) (by simp [AlongFrom, h])
      | some s' =>
          have := decidableAlongFrom ok es s'
          decidable_of_iff (ok s e ∧ M.AlongFrom ok es s') (by simp [AlongFrom, h])

instance (ok : σ → ε → Prop) [∀ s e, Decidable (ok s e)] (es : List ε) :
    Decidable (M.Along ok es) := M.decidableAlongFrom ok es M.init

theorem alongFrom_append (ok : σ → ε → Prop) : ∀ (es es' : List ε) (s s' : σ),
    M.exec es s = some s' →
      (M.AlongFrom ok (es ++ es') s ↔ M.AlongFrom ok es s ∧ M.AlongFrom ok es' s')
  | [], es', s, s', h => by
      obtain rfl : s = s' := by simpa [exec] using h
      simp [AlongFrom]
  | e :: es, es', s, s', h => by
      obtain ⟨s₁, h₁, h₂⟩ := Option.bind_eq_some_iff.mp h
      simp only [List.cons_append, AlongFrom, h₁, alongFrom_append ok es es' s₁ s' h₂, and_assoc]

theorem along_snoc (ok : σ → ε → Prop) {es : List ε} {e : ε} {s : σ} (h : M.run es = some s) :
    M.Along ok (es ++ [e]) ↔ M.Along ok es ∧ ok s e := by
  rw [Along, M.alongFrom_append ok es [e] _ s h]
  refine and_congr_right fun _ => ?_
  simp only [AlongFrom, and_iff_left_iff_imp]
  intro _
  cases M.step s e <;> trivial

/-- Induction over the runs whose steps meet a condition. -/
theorem run_induction_along (ok : σ → ε → Prop) {P : List ε → σ → Prop} (h0 : P [] M.init)
    (hs : ∀ es s e s', M.run es = some s → P es s → ok s e → M.step s e = some s' →
      P (es ++ [e]) s')
    {es : List ε} {s : σ} (h : M.run es = some s) (hok : M.Along ok es) : P es s := by
  refine M.run_induction (P := fun es s => M.Along ok es → P es s) (fun _ => h0) ?_ h hok
  intro es s e s' hrun ih hstep hal
  obtain ⟨hal, hoke⟩ := (M.along_snoc ok hrun).mp hal
  exact hs es s e s' hrun (ih hal) hoke hstep

/-! ### Relations between the states of a run -/

/-- Every step of the run `es` is in the relation, from the state before it to the one after it. -/
def Throughout (R : σ → ε → σ → Prop) (es : List ε) : Prop :=
  ∀ es' e s s', es' ++ [e] <+: es → M.run es' = some s → M.step s e = some s' → R s e s'

theorem throughout_nil (R : σ → ε → σ → Prop) : M.Throughout R [] := by
  intro es' e s s' hp
  simp at hp

theorem throughout_snoc (R : σ → ε → σ → Prop) {es : List ε} {e : ε} {s s' : σ}
    (h : M.run es = some s) (hs : M.step s e = some s') :
    M.Throughout R (es ++ [e]) ↔ M.Throughout R es ∧ R s e s' := by
  constructor
  · intro hall
    refine ⟨fun es' e' s₁ s₂ hp => hall es' e' s₁ s₂ (hp.trans (List.prefix_append _ _)), ?_⟩
    exact hall es e s s' (List.prefix_refl _) h hs
  · rintro ⟨hall, hlast⟩ es' e' s₁ s₂ hp h₁ h₂
    rcases List.prefix_concat_iff.mp (by simpa using hp) with heq | hp
    · obtain ⟨rfl, he⟩ := List.append_inj' heq rfl
      obtain rfl := List.singleton_inj.mp he
      obtain rfl : s = s₁ := Option.some.inj (h.symm.trans h₁)
      obtain rfl : s' = s₂ := Option.some.inj (hs.symm.trans h₂)
      exact hlast
    · exact hall es' e' s₁ s₂ hp h₁ h₂

section

variable {R : σ → ε → σ → Prop} {ok : σ → ε → Prop} (I : σ → Prop) (h0 : I M.init)
  (hI : ∀ s e s', I s → M.step s e = some s' → I s')

include h0 hI

/-- What every good step does. -/
theorem throughout_of_along (hR : ∀ s e s', I s → M.step s e = some s' → ok s e → R s e s')
    {es : List ε} {s : σ} (h : M.run es = some s) (hok : M.Along ok es) : M.Throughout R es := by
  refine (M.run_induction_along ok (P := fun es s => M.Throughout R es ∧ I s)
    ⟨M.throughout_nil R, h0⟩ ?_ h hok).1
  rintro es s e s' hrun ⟨hall, hi⟩ hoke hs
  exact ⟨(M.throughout_snoc R hrun hs).mpr ⟨hall, hR s e s' hi hs hoke⟩, hI s e s' hi hs⟩

/-- Where only good steps do it. -/
theorem along_of_throughout (hR : ∀ s e s', I s → M.step s e = some s' → R s e s' → ok s e)
    {es : List ε} {s : σ} (h : M.run es = some s) (hall : M.Throughout R es) : M.Along ok es := by
  refine (M.run_induction (P := fun es s => (M.Throughout R es → M.Along ok es) ∧ I s)
    ⟨fun _ => trivial, h0⟩ ?_ h).1 hall
  rintro es s e s' hrun ⟨ih, hi⟩ hs
  refine ⟨fun hall => ?_, hI s e s' hi hs⟩
  obtain ⟨hall, hlast⟩ := (M.throughout_snoc R hrun hs).mp hall
  exact (M.along_snoc ok hrun).mpr ⟨ih hall, hR s e s' hi hs hlast⟩

end

/-- **What a step does, as a condition on the state before it**: it is enough to compare the two in
the states that good steps lead to. -/
theorem throughout_iff_along {R : σ → ε → σ → Prop} {ok : σ → ε → Prop} (I : σ → Prop)
    (h0 : I M.init) (hR : ∀ s e s', I s → M.step s e = some s' → (R s e s' ↔ ok s e))
    (hI : ∀ s e s', I s → M.step s e = some s' → R s e s' → I s') {es : List ε} {s : σ}
    (h : M.run es = some s) : M.Throughout R es ↔ M.Along ok es := by
  refine (M.run_induction (P := fun es s => (M.Throughout R es ↔ M.Along ok es) ∧
    (M.Along ok es → I s)) ⟨iff_of_true (M.throughout_nil R) trivial, fun _ => h0⟩ ?_ h).1
  intro es s e s' hrun ih hs
  rw [M.throughout_snoc R hrun hs, M.along_snoc ok hrun]
  constructor
  · constructor
    · rintro ⟨hall, hlast⟩
      have hal := ih.1.mp hall
      exact ⟨hal, (hR s e s' (ih.2 hal) hs).mp hlast⟩
    · rintro ⟨hal, hok⟩
      exact ⟨ih.1.mpr hal, (hR s e s' (ih.2 hal) hs).mpr hok⟩
  · rintro ⟨hal, hok⟩
    have hi := ih.2 hal
    exact hI s e s' hi hs ((hR s e s' hi hs).mpr hok)

/-! ### Counting along a run -/

/-- The sum of `f` over the steps of the events `es`, from `s` on. -/
def tallyFrom (f : σ → ε → ℕ) : List ε → σ → ℕ
  | [], _ => 0
  | e :: es, s =>
      f s e + match M.step s e with
        | none => 0
        | some s' => tallyFrom f es s'

/-- The sum of `f` over the steps of the run `es`. -/
def tally (f : σ → ε → ℕ) (es : List ε) : ℕ := M.tallyFrom f es M.init

theorem tallyFrom_append (f : σ → ε → ℕ) : ∀ (es es' : List ε) (s s' : σ),
    M.exec es s = some s' → M.tallyFrom f (es ++ es') s = M.tallyFrom f es s + M.tallyFrom f es' s'
  | [], es', s, s', h => by
      obtain rfl : s = s' := by simpa [exec] using h
      simp [tallyFrom]
  | e :: es, es', s, s', h => by
      obtain ⟨s₁, h₁, h₂⟩ := Option.bind_eq_some_iff.mp h
      simp only [List.cons_append, tallyFrom, h₁, tallyFrom_append f es es' s₁ s' h₂, Nat.add_assoc]

theorem tally_snoc (f : σ → ε → ℕ) {es : List ε} {e : ε} {s s' : σ} (h : M.run es = some s)
    (hs : M.step s e = some s') : M.tally f (es ++ [e]) = M.tally f es + f s e := by
  rw [tally, M.tallyFrom_append f es [e] _ s h]
  simp [tallyFrom, tally, hs]

end Machine

end Runs
