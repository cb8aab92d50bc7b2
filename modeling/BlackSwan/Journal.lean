import BlackSwan.Runs
import Mathlib.Control.Monad.Writer

/-! # Programs that keep a journal

An instrumented program is the program in the writer monad: `val` is what it computes and `entries`
is what it notes down on the way.  `Keeps P f` says that the procedure `f` keeps a property of the
journal so far and the state, and is closed under composition.

`journaled` makes a component out of an instrumented step function; where the instrumented step
computes the step of a machine, every run of the machine has its journal (`journaled_run`). -/

namespace Journal

variable {ω σ α β ε : Type}

/-- A program that notes down entries in `ω`. -/
abbrev Journaled (ω α : Type) := Writer (List ω) α

namespace Journaled

def val (x : Journaled ω α) : α := (WriterT.run x).1

def entries (x : Journaled ω α) : List ω := (WriterT.run x).2

@[simp] theorem val_pure (a : α) : (pure a : Journaled ω α).val = a := rfl

@[simp] theorem entries_pure (a : α) : (pure a : Journaled ω α).entries = [] := rfl

@[simp] theorem val_bind (x : Journaled ω α) (f : α → Journaled ω β) :
    (x >>= f).val = (f x.val).val := rfl

@[simp] theorem entries_bind (x : Journaled ω α) (f : α → Journaled ω β) :
    (x >>= f).entries = x.entries ++ (f x.val).entries := rfl

@[simp] theorem entries_tell (l : List ω) : (tell l : Journaled ω PUnit).entries = l := rfl

end Journaled

/-- The procedure keeps a property of the journal and the state. -/
def Keeps (P : List ω → σ → Prop) (f : σ → Journaled ω σ) : Prop :=
  ∀ l s, P l s → P (l ++ (f s).entries) (f s).val

section

variable {P : List ω → σ → Prop} {f g : σ → Journaled ω σ}

theorem Keeps.of_pure {f : σ → σ} (h : ∀ l s, P l s → P l (f s)) : Keeps P fun s => pure (f s) := by
  intro l s hp
  simpa using h l s hp

theorem Keeps.bind (hf : Keeps P f) (hg : Keeps P g) : Keeps P fun s => f s >>= g := by
  intro l s hp
  simpa using hg _ _ (hf l s hp)

theorem Keeps.comp {f : σ → σ} (hf : ∀ l s, P l s → P l (f s)) (hg : Keeps P g) :
    Keeps P fun s => g (f s) :=
  fun l s hp => hg l (f s) (hf l s hp)

theorem Keeps.ite {b : σ → Prop} [DecidablePred b] (hf : Keeps P f) (hg : Keeps P g) :
    Keeps P fun s => if b s then f s else g s := by
  intro l s hp
  by_cases hb : b s
  · simpa [hb] using hf l s hp
  · simpa [hb] using hg l s hp

end

/-! ### Journals of runs -/

open Runs

/-- The component whose state is that of an instrumented step function, with the journal. -/
def journaled (init : σ) (step : σ → ε → Option (Journaled ω σ)) : Machine (σ × List ω) ε where
  init := (init, [])
  step s e := (step s.1 e).map fun x => (x.val, s.2 ++ x.entries)

/-- Every run of a machine has its journal. -/
theorem journaled_run (M : Machine σ ε) {step : σ → ε → Option (Journaled ω σ)}
    (hs : ∀ s e, (step s e).map Journaled.val = M.step s e) {es : List ε} {s : σ}
    (h : M.run es = some s) : ∃ l, (journaled M.init step).run es = some (s, l) := by
  refine M.run_induction (P := fun es s => ∃ l, (journaled M.init step).run es = some (s, l))
    ⟨[], rfl⟩ ?_ h
  rintro es s e s' - ⟨l, ih⟩ hstep
  rw [← hs] at hstep
  obtain ⟨x, hx, rfl⟩ := Option.map_eq_some_iff.mp hstep
  exact ⟨l ++ x.entries, (journaled M.init step).run_snoc ih (by simp [journaled, hx])⟩

end Journal
