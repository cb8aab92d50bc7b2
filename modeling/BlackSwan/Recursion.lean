import Mathlib.Data.Nat.Notation
import Mathlib.Data.Option.Basic

/-! # Recursive procedures

A procedure with arguments in `κ` works on a state in `σ` and calls itself; overloads that call each
other are one procedure, whose argument says which of them is meant.  `F.call n k s` is the call with
the argument `k` in the state `s` when calls may be `n` deep, and `none` when they go deeper, so that
a call that never comes back is one that is `none` at every depth.

`call_spec` is the rule for partial correctness: a postcondition that the body meets whenever the
calls it makes do holds of every call that comes back.  More depth never changes a result
(`call_mono`), so the state that a call ends in is determined (`call_unique`). -/

namespace Recursion

variable {κ σ : Type}

/-- A recursive procedure: what a call does, given what the calls made in it do. -/
abbrev Procedure (κ σ : Type) := (κ → σ → Option σ) → κ → σ → Option σ

namespace Procedure

variable (F : Procedure κ σ)

/-- A call, with calls at most `n` deep. -/
def call : ℕ → κ → σ → Option σ
  | 0, _, _ => none
  | n + 1, k, s => F (call n) k s

/-- **The rule of recursive procedures.** -/
theorem call_spec {Q : κ → σ → σ → Prop}
    (h : ∀ f : κ → σ → Option σ, (∀ k s s', f k s = some s' → Q k s s') →
      ∀ k s s', F f k s = some s' → Q k s s') :
    ∀ {n : ℕ} {k : κ} {s s' : σ}, F.call n k s = some s' → Q k s s' := by
  intro n
  induction n with
  | zero =>
      intro k s s' hc
      cases hc
  | succ n ih =>
      intro k s s' hc
      exact h (F.call n) (fun _ _ _ => ih) k s s' hc

/-- The body uses the calls it makes only through what they come back with. -/
def Mono : Prop :=
  ∀ f g : κ → σ → Option σ, (∀ k s s', f k s = some s' → g k s = some s') →
    ∀ k s s', F f k s = some s' → F g k s = some s'

variable {F}

theorem call_succ (hF : F.Mono) : ∀ {n : ℕ} {k : κ} {s s' : σ},
    F.call n k s = some s' → F.call (n + 1) k s = some s' := by
  intro n
  induction n with
  | zero =>
      intro k s s' hc
      cases hc
  | succ n ih =>
      intro k s s' hc
      exact hF (F.call n) (F.call (n + 1)) (fun _ _ _ => ih) k s s' hc

theorem call_mono (hF : F.Mono) {n m : ℕ} (hnm : n ≤ m) {k : κ} {s s' : σ}
    (hc : F.call n k s = some s') : F.call m k s = some s' := by
  induction hnm with
  | refl => exact hc
  | step _ ih => exact call_succ hF ih

/-- A call that comes back ends in one state, whatever the depth it is given. -/
theorem call_unique (hF : F.Mono) {n m : ℕ} {k : κ} {s s₁ s₂ : σ} (h₁ : F.call n k s = some s₁)
    (h₂ : F.call m k s = some s₂) : s₁ = s₂ := by
  have e₁ := call_mono hF (Nat.le_max_left n m) h₁
  have e₂ := call_mono hF (Nat.le_max_right n m) h₂
  exact Option.some.inj (e₁.symm.trans e₂)

end Procedure

end Recursion
