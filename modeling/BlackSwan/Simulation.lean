import BlackSwan.Runs

/-! # Simulations between components, and steps that run out

A `Simulation M N` says of each step of `M` which events of `N` it amounts to, none, one or many:
`view` is what is seen of a state of `M` as a state of `N`, `labels` the events.  `trace f es` puts
what the steps of a run amount to one after the other, and `Simulation.run_trace` is the run of `N`
that belongs to a run of `M`, event for event; `reachable_view` follows.

The second half is about a class of events that cannot go on for ever: `Shrinks` says that each of
them lowers a bound, `Shrinks.length_le` that a list of them is no longer than the bound, and
`Shrinks.exists_rest` that some list of them leads to a state where none of them can happen. -/

namespace Runs

namespace Machine

variable {σ ε τ δ : Type} (M : Machine σ ε)

/-! ### Traces -/

/-- What the events `es`, from `s` on, amount to. -/
def traceFrom (f : σ → ε → List δ) : List ε → σ → List δ
  | [], _ => []
  | e :: es, s =>
      f s e ++ match M.step s e with
        | none => []
        | some s' => traceFrom f es s'

/-- What the run `es` amounts to. -/
def trace (f : σ → ε → List δ) (es : List ε) : List δ := M.traceFrom f es M.init

@[simp] theorem trace_nil (f : σ → ε → List δ) : M.trace f [] = [] := rfl

theorem traceFrom_append (f : σ → ε → List δ) : ∀ (es es' : List ε) (s s' : σ),
    M.exec es s = some s' →
      M.traceFrom f (es ++ es') s = M.traceFrom f es s ++ M.traceFrom f es' s'
  | [], es', s, s', h => by
      obtain rfl : s = s' := by simpa [exec] using h
      rfl
  | e :: es, es', s, s', h => by
      obtain ⟨s₁, h₁, h₂⟩ := Option.bind_eq_some_iff.mp h
      simp only [List.cons_append, traceFrom, h₁, traceFrom_append f es es' s₁ s' h₂,
        List.append_assoc]

theorem trace_snoc (f : σ → ε → List δ) {es : List ε} {e : ε} {s : σ} (h : M.run es = some s)
    (hs : (M.step s e).isSome) : M.trace f (es ++ [e]) = M.trace f es ++ f s e := by
  obtain ⟨s', hs'⟩ := Option.isSome_iff_exists.mp hs
  rw [trace, M.traceFrom_append f es [e] _ s h]
  simp [traceFrom, trace, hs']

end Machine

/-! ### Simulations -/

/-- What every step of `M` is as a list of events of `N`. -/
structure Simulation {σ ε τ δ : Type} (M : Machine σ ε) (N : Machine τ δ) where
  view : σ → τ
  labels : σ → ε → List δ
  view_init : view M.init = N.init
  exec_labels : ∀ s e s', M.Reachable s → M.step s e = some s' →
    N.exec (labels s e) (view s) = some (view s')

namespace Simulation

variable {σ ε τ δ : Type} {M : Machine σ ε} {N : Machine τ δ}

/-- **The run of `N` that belongs to a run of `M`.** -/
theorem run_trace (S : Simulation M N) {es : List ε} {s : σ} (h : M.run es = some s) :
    N.run (M.trace S.labels es) = some (S.view s) := by
  refine (M.run_induction (P := fun es s => M.run es = some s ∧
    N.run (M.trace S.labels es) = some (S.view s)) ⟨rfl, congrArg some S.view_init.symm⟩ ?_ h).2
  rintro es s e s' hrun ⟨-, ih⟩ hs
  refine ⟨M.run_snoc hrun hs, ?_⟩
  rw [M.trace_snoc S.labels hrun (by rw [hs]; rfl), Machine.run, N.exec_append, ← Machine.run, ih]
  exact S.exec_labels s e s' ⟨es, hrun⟩ hs

theorem reachable_view (S : Simulation M N) {s : σ} (h : M.Reachable s) : N.Reachable (S.view s) :=
  h.elim fun _ hrun => ⟨_, S.run_trace hrun⟩

end Simulation

/-! ### Steps that run out -/

/-- Every event of the class `ok` lowers the bound `n` of `I n`. -/
def Shrinks {σ ε : Type} (M : Machine σ ε) (ok : ε → Prop) (I : ℕ → σ → Prop) : Prop :=
  ∀ n s e s', I n s → ok e → M.step s e = some s' → ∃ n', n' < n ∧ I n' s'

namespace Shrinks

variable {σ ε : Type} {M : Machine σ ε} {ok : ε → Prop} {I : ℕ → σ → Prop}

theorem length_le (h : Shrinks M ok I) : ∀ {es : List ε} {n : ℕ} {s s' : σ}, I n s →
    (∀ e ∈ es, ok e) → M.exec es s = some s' → ∃ n', es.length + n' ≤ n ∧ I n' s'
  | [], n, s, s', hi, _, hex => by
      obtain rfl : s = s' := by simpa [Machine.exec] using hex
      exact ⟨n, by simp, hi⟩
  | e :: es, n, s, s', hi, hok, hex => by
      obtain ⟨s₁, h₁, h₂⟩ := Option.bind_eq_some_iff.mp hex
      obtain ⟨n₁, hlt, hi₁⟩ := h n s e s₁ hi (hok e List.mem_cons_self) h₁
      obtain ⟨n', hle, hi'⟩ :=
        length_le h hi₁ (fun e he => hok e (List.mem_cons_of_mem _ he)) h₂
      exact ⟨n', by simp only [List.length_cons]; omega, hi'⟩

/-- Steps of the class can be taken until none is left. -/
theorem exists_rest (h : Shrinks M ok I) {n : ℕ} {s : σ} (hi : I n s) :
    ∃ es s', (∀ e ∈ es, ok e) ∧ M.exec es s = some s' ∧ ∀ e, ok e → M.step s' e = none := by
  induction n using Nat.strongRecOn generalizing s with
  | ind n ih =>
      by_cases hrest : ∀ e, ok e → M.step s e = none
      · exact ⟨[], s, by simp, rfl, hrest⟩
      · obtain ⟨e, hok, hs⟩ : ∃ e, ok e ∧ M.step s e ≠ none := by simpa using hrest
        obtain ⟨s₁, hs₁⟩ := Option.ne_none_iff_exists'.mp hs
        obtain ⟨n', hlt, hi'⟩ := h n s e s₁ hi hok hs₁
        obtain ⟨es, s', hall, hex, hend⟩ := ih n' hlt hi'
        refine ⟨e :: es, s', ?_, ?_, hend⟩
        · intro e' he'
          rcases List.mem_cons.mp he' with rfl | he'
          · exact hok
          · exact hall e' he'
        · simpa [Machine.exec, hs₁] using hex

end Shrinks

end Runs
