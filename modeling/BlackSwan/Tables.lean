import Mathlib.Data.Finset.Card
import Mathlib.Data.List.Basic
import Mathlib.Logic.Function.Basic

/-! # Tables and histories

A `Table κ ν` is a finite map of which only the lookups matter, with the three updates of an
`unordered_map`: assignment, `emplace`, which does nothing when the key is taken, and `erase`.
`m.Count v n` says that `n` keys have the value `v`.

A history is the list of what a component did, oldest first.  `Justified J h` says that every
entry of `h` is allowed by the entries before it. -/

namespace Tables

variable {κ ν α : Type}

/-- A map from keys to values, by its lookups. -/
abbrev Table (κ ν : Type) := κ → Option ν

namespace Table

/-- The empty map. -/
def empty : Table κ ν := fun _ => none

@[simp] theorem empty_apply (k : κ) : (empty : Table κ ν) k = none := rfl

/-- As many keys have the value `v`. -/
def Count (m : Table κ ν) (v : ν) (n : ℕ) : Prop :=
  ∃ K : Finset κ, K.card = n ∧ ∀ k, k ∈ K ↔ m k = some v

theorem count_empty (v : ν) : (empty : Table κ ν).Count v 0 := ⟨∅, rfl, by simp⟩

theorem Count.eq_zero_iff {m : Table κ ν} {v : ν} {n : ℕ} (h : m.Count v n) :
    n = 0 ↔ ∀ k, m k ≠ some v := by
  obtain ⟨K, rfl, hK⟩ := h
  rw [Finset.card_eq_zero, Finset.eq_empty_iff_forall_notMem]
  exact forall_congr' fun k => not_congr (hK k)

variable [DecidableEq κ]

/-- `m[k] = v`. -/
def set (m : Table κ ν) (k : κ) (v : ν) : Table κ ν := Function.update m k (some v)

/-- `m.erase(k)`. -/
def erase (m : Table κ ν) (k : κ) : Table κ ν := Function.update m k none

/-- `m.emplace(k, v)`. -/
def emplace (m : Table κ ν) (k : κ) (v : ν) : Table κ ν := if (m k).isSome then m else m.set k v

theorem set_apply (m : Table κ ν) (k k' : κ) (v : ν) :
    m.set k v k' = if k' = k then some v else m k' := Function.update_apply m k (some v) k'

theorem erase_apply (m : Table κ ν) (k k' : κ) :
    m.erase k k' = if k' = k then none else m k' := Function.update_apply m k none k'

@[simp] theorem set_self (m : Table κ ν) (k : κ) (v : ν) : m.set k v k = some v := by
  simp [set_apply]

@[simp] theorem erase_self (m : Table κ ν) (k : κ) : m.erase k k = none := by
  simp [erase_apply]

theorem set_of_ne {m : Table κ ν} {k k' : κ} {v : ν} (h : k' ≠ k) : m.set k v k' = m k' := by
  simp [set_apply, h]

theorem erase_of_ne {m : Table κ ν} {k k' : κ} (h : k' ≠ k) : m.erase k k' = m k' := by
  simp [erase_apply, h]

theorem emplace_of_none {m : Table κ ν} {k : κ} {v : ν} (h : m k = none) :
    m.emplace k v = m.set k v := by simp [emplace, h]

theorem erase_of_none {m : Table κ ν} {k : κ} (h : m k = none) : m.erase k = m := by
  rw [erase, ← h, Function.update_eq_self]

theorem erase_set_of_none {m : Table κ ν} {k : κ} {v : ν} (h : m k = none) :
    (m.set k v).erase k = m := by
  rw [erase, set, Function.update_idem, ← h, Function.update_eq_self]

theorem erase_eq_some {m : Table κ ν} {k k' : κ} {v : ν} :
    m.erase k k' = some v ↔ k' ≠ k ∧ m k' = some v := by
  rw [erase_apply]
  split_ifs with h
  · simp [h]
  · simp [h]

theorem set_eq_some {m : Table κ ν} {k k' : κ} {v w : ν} :
    m.set k v k' = some w ↔ (k' = k ∧ v = w) ∨ (k' ≠ k ∧ m k' = some w) := by
  rw [set_apply]
  split_ifs with h
  · simp [h]
  · simp [h]

/-- A new key. -/
theorem Count.set [DecidableEq ν] {m : Table κ ν} {k : κ} {v w : ν} {n : ℕ} (h : m.Count w n)
    (hk : m k = none) : (m.set k v).Count w (n + if w = v then 1 else 0) := by
  obtain ⟨K, rfl, hK⟩ := h
  have hnot : k ∉ K := by simp [hK, hk]
  by_cases hw : w = v
  · subst hw
    refine ⟨insert k K, by simp [hnot], fun k' => ?_⟩
    rw [Finset.mem_insert, hK, set_apply]
    by_cases hk' : k' = k <;> simp [hk']
  · refine ⟨K, by simp [hw], fun k' => ?_⟩
    rw [hK, set_apply]
    by_cases hk' : k' = k
    · simp [hk', hk, Ne.symm hw]
    · simp [hk']

theorem Count.emplace [DecidableEq ν] {m : Table κ ν} {w : ν} {n : ℕ} (h : m.Count w n) (k : κ)
    (v : ν) : (m.emplace k v).Count w (n + if w = v ∧ m k = none then 1 else 0) := by
  cases hk : m k with
  | none =>
      rw [emplace_of_none hk]
      simpa using h.set hk
  | some v' =>
      have hsame : m.emplace k v = m := by simp [Table.emplace, hk]
      simpa [hsame] using h

/-- A key less. -/
theorem Count.erase [DecidableEq ν] {m : Table κ ν} {k : κ} {v w : ν} {n : ℕ} (h : m.Count w n)
    (hk : m k = some v) : ∃ n', (m.erase k).Count w n' ∧ n = n' + if w = v then 1 else 0 := by
  obtain ⟨K, rfl, hK⟩ := h
  by_cases hw : w = v
  · subst hw
    have hmem : k ∈ K := (hK k).mpr hk
    refine ⟨_, ⟨K.erase k, rfl, fun k' => ?_⟩, by simp [Finset.card_erase_add_one hmem]⟩
    rw [Finset.mem_erase, hK, erase_eq_some]
  · refine ⟨_, ⟨K, rfl, fun k' => ?_⟩, by simp [hw]⟩
    rw [hK, erase_eq_some]
    refine (and_iff_right_of_imp ?_).symm
    rintro hk' rfl
    rw [hk] at hk'
    exact hw (Option.some.inj hk').symm

end Table

/-! ### Histories -/

/-- Every entry is justified by the entries before it. -/
def Justified (J : List α → α → Prop) (h : List α) : Prop :=
  ∀ h₁ a h₂, h = h₁ ++ a :: h₂ → J h₁ a

theorem justified_nil (J : List α → α → Prop) : Justified J [] := by
  intro h₁ a h₂ h
  simp at h

theorem Justified.snoc {J : List α → α → Prop} {h : List α} {a : α} (hj : Justified J h)
    (ha : J h a) : Justified J (h ++ [a]) := by
  intro h₁ b h₂ e
  rcases h₂.eq_nil_or_concat with hnil | ⟨mid, last, hlast⟩
  · -- `b` is the new entry
    rw [hnil] at e
    obtain ⟨rfl, hab⟩ := List.append_inj' e rfl
    rwa [← List.singleton_inj.mp hab]
  · rw [hlast, List.concat_eq_append, ← List.cons_append, ← List.append_assoc] at e
    exact hj h₁ b mid (List.append_inj' e rfl).1

end Tables
