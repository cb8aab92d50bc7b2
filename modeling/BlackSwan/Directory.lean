import BlackSwan.Runs
import Mathlib.Logic.Function.Basic

/-! # Directories

A directory says who is logged in under an account.  A login replaces whoever was there, and a
logoff takes the account out.  `holds_iff_last` reads a directory off its events: the last event
about an account decides. -/

namespace Directory

open Runs

/-- An event of a directory of accounts `α` with holders `β`. -/
inductive Event (α β : Type) where
  | login (a : α) (b : β)
  | logoff (a : α)
deriving DecidableEq, Repr

variable {α β : Type}

def Event.account : Event α β → α
  | .login a _ => a
  | .logoff a => a

/-- Who is there after the event. -/
def Event.holder : Event α β → Option β
  | .login _ b => some b
  | .logoff _ => none

def machine (α β : Type) [DecidableEq α] : Machine (α → Option β) (Event α β) where
  init := fun _ => none
  step d e := some (Function.update d e.account e.holder)

/-- The last element of a list is the one in front of the rest, or the last of the rest. -/
theorem append_singleton_eq_iff {γ : Type} {es before later : List γ} {e x : γ} :
    es ++ [e] = before ++ x :: later ↔
      (later = [] ∧ es = before ∧ e = x) ∨ ∃ l, later = l ++ [e] ∧ es = before ++ x :: l := by
  constructor
  · intro h
    obtain rfl | ⟨l, y, rfl⟩ := List.eq_nil_or_concat later
    · obtain ⟨rfl, hx⟩ := List.append_inj' h rfl
      exact .inl ⟨rfl, rfl, List.singleton_inj.mp hx⟩
    · rw [List.concat_eq_append, ← List.cons_append, ← List.append_assoc] at h
      obtain ⟨rfl, hy⟩ := List.append_inj' h rfl
      obtain rfl := List.singleton_inj.mp hy
      exact .inr ⟨l, List.concat_eq_append, rfl⟩
  · rintro (⟨rfl, rfl, rfl⟩ | ⟨l, rfl, rfl⟩)
    · rfl
    · simp

/-- The last event about the account is the login of `b`. -/
def LastLogin (es : List (Event α β)) (a : α) (b : β) : Prop :=
  ∃ before later, es = before ++ .login a b :: later ∧ ∀ e ∈ later, e.account ≠ a

theorem lastLogin_snoc_self (es : List (Event α β)) (e : Event α β) (b : β) :
    LastLogin (es ++ [e]) e.account b ↔ e = .login e.account b := by
  constructor
  · rintro ⟨before, later, he, hlater⟩
    obtain ⟨-, -, he⟩ | ⟨l, rfl, -⟩ := append_singleton_eq_iff.mp he
    · exact he
    · exact absurd rfl (hlater e (by simp))
  · intro he
    refine ⟨es, [], ?_, by simp⟩
    rw [← he]

theorem lastLogin_snoc_of_ne (es : List (Event α β)) {e : Event α β} {a : α} (h : e.account ≠ a)
    (b : β) : LastLogin (es ++ [e]) a b ↔ LastLogin es a b := by
  constructor
  · rintro ⟨before, later, he, hlater⟩
    obtain ⟨-, -, rfl⟩ | ⟨l, rfl, rfl⟩ := append_singleton_eq_iff.mp he
    · exact absurd rfl h
    · exact ⟨before, l, rfl, fun e' he' => hlater e' (List.mem_append_left _ he')⟩
  · rintro ⟨before, later, rfl, hlater⟩
    refine ⟨before, later ++ [e], by simp, fun e' he' => ?_⟩
    rcases List.mem_append.mp he' with he' | he'
    · exact hlater e' he'
    · rw [List.mem_singleton.mp he']
      exact h

/-- **The last event about an account decides.** -/
theorem holds_iff_last [DecidableEq α] {es : List (Event α β)} {d : α → Option β} (h : (machine α β).run es = some d)
    (a : α) (b : β) : d a = some b ↔ LastLogin es a b := by
  refine (machine α β).run_induction (P := fun es d => d a = some b ↔ LastLogin es a b) ?_ ?_ h
  · constructor
    · intro hd
      cases hd
    · rintro ⟨before, later, he, -⟩
      simp at he
  · intro es d e d' _ ih hs
    obtain rfl := Option.some.inj hs
    by_cases ha : e.account = a
    · subst ha
      rw [Function.update_self, lastLogin_snoc_self]
      cases e with
      | login a b' => simp [Event.holder, Event.account]
      | logoff a => simp [Event.holder]
    · rw [Function.update_of_ne (Ne.symm ha), lastLogin_snoc_of_ne es ha, ih]

end Directory
