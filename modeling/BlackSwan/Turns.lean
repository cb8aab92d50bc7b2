import Mathlib.Data.Int.CardIntervalMod
import Mathlib.Data.List.Perm.Basic

/-! # Taking turns

A counter gives the elements of a list to `k` places in turn.  `lane k r l` is what the place `r` has
got: some of the elements, in their order (`lane_sublist`).  No place gets more than one element more
than another (`length_lane_le`). -/

namespace Turns

variable {α β : Type*}

/-- What the place `r` of `k` gets of a list whose first element has the number `n`. -/
def laneFrom (k r : ℕ) : ℕ → List α → List α
  | _, [] => []
  | n, a :: l => if n % k = r then a :: laneFrom k r (n + 1) l else laneFrom k r (n + 1) l

/-- What the place `r` of `k` gets of a list. -/
def lane (k r : ℕ) (l : List α) : List α := laneFrom k r 0 l

variable {k r : ℕ}

theorem laneFrom_append (k r : ℕ) (l' : List α) : ∀ (n : ℕ) (l : List α),
    laneFrom k r n (l ++ l') = laneFrom k r n l ++ laneFrom k r (n + l.length) l'
  | n, [] => rfl
  | n, a :: l => by
      have hn : n + (a :: l).length = n + 1 + l.length := by
        rw [List.length_cons]
        omega
      rw [List.cons_append, laneFrom, laneFrom, laneFrom_append k r l' (n + 1) l, hn]
      split_ifs <;> rfl

@[simp] theorem lane_nil (k r : ℕ) : lane k r ([] : List α) = [] := rfl

/-- One more element. -/
theorem lane_concat (k r : ℕ) (l : List α) (a : α) :
    lane k r (l ++ [a]) = lane k r l ++ if l.length % k = r then [a] else [] := by
  rw [lane, laneFrom_append, Nat.zero_add, laneFrom, laneFrom]
  rfl

theorem lane_concat_of_eq {l : List α} (h : l.length % k = r) (a : α) :
    lane k r (l ++ [a]) = lane k r l ++ [a] := by
  rw [lane_concat, if_pos h]

theorem lane_concat_of_ne {l : List α} (h : l.length % k ≠ r) (a : α) :
    lane k r (l ++ [a]) = lane k r l := by
  rw [lane_concat, if_neg h, List.append_nil]

theorem laneFrom_sublist (k r : ℕ) : ∀ (n : ℕ) (l : List α), (laneFrom k r n l).Sublist l
  | _, [] => List.Sublist.refl _
  | n, a :: l => by
      rw [laneFrom]
      split_ifs
      · exact (laneFrom_sublist k r (n + 1) l).cons_cons a
      · exact (laneFrom_sublist k r (n + 1) l).cons a

theorem lane_sublist (k r : ℕ) (l : List α) : (lane k r l).Sublist l := laneFrom_sublist k r 0 l

theorem laneFrom_map (k r : ℕ) (f : α → β) : ∀ (n : ℕ) (l : List α),
    laneFrom k r n (l.map f) = (laneFrom k r n l).map f
  | _, [] => rfl
  | n, a :: l => by
      rw [List.map_cons, laneFrom, laneFrom, laneFrom_map k r f (n + 1) l]
      split_ifs <;> rfl

theorem lane_map (k r : ℕ) (f : α → β) (l : List α) : lane k r (l.map f) = (lane k r l).map f :=
  laneFrom_map k r f 0 l

/-! ### Loads -/

/-- The number of turns of the place `r` among the first `n`. -/
theorem length_lane (k r : ℕ) (l : List α) (hr : r < k) :
    (lane k r l).length = l.length / k + if r < l.length % k then 1 else 0 := by
  have hcount : (lane k r l).length = l.length.count fun n => n ≡ r [MOD k] := by
    induction l using List.reverseRecOn with
    | nil => rfl
    | append_singleton l a ih =>
        rw [List.length_append, List.length_singleton, Nat.count_succ, ← ih, lane_concat,
          List.length_append]
        simp only [Nat.ModEq, Nat.mod_eq_of_lt hr]
        split_ifs <;> rfl
  rw [hcount, Nat.count_modEq_card _ (Nat.zero_lt_of_lt hr), Nat.mod_eq_of_lt hr]

/-- **The loads are balanced.** -/
theorem length_lane_le {r' : ℕ} (hr : r < k) (hr' : r' < k) (l : List α) :
    (lane k r l).length ≤ (lane k r' l).length + 1 := by
  rw [length_lane k r l hr, length_lane k r' l hr']
  split_ifs <;> omega

end Turns
