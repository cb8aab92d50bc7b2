import Mathlib.Data.List.Forall2
import Mathlib.Data.List.Infix
import Mathlib.Data.Set.Insert

/-! # Texts with separators

A text is put together from fields, with a word between any two of them that tells where the one ends
and the other begins.  Nothing keeps such a word from being in a field.

* `Separators S`: the words in `S` do not overlap in a text.  This is so for a word that has its first
  character only once (`separators_singleton`), and for words that enclose a number, say, between two
  of these (`separators_bracket`).
* `cut_cases` compares two places at which a text is cut.
* `unique_iff`: there is one way to read a text (`Unique`) if and only if no field holds a separator
  of its left or its right side (`Plain`). -/

namespace Texts

variable {α : Type}

/-! ### Words that do not overlap -/

/-- The first `c` in a text is behind a part without one. -/
theorem after_of_not_mem {c : α} {b y p z : List α} (hb : c ∉ b) (h : b ++ y = p ++ c :: z) :
    ∃ u, p = b ++ u ∧ y = u ++ c :: z := by
  rcases List.append_eq_append_iff.mp h with ⟨u, hp, hy⟩ | ⟨u, hbu, hz⟩
  · exact ⟨u, hp, hy⟩
  · cases u with
    | nil => exact ⟨[], by simpa using hbu.symm, by simpa using hz.symm⟩
    | cons d u =>
        obtain ⟨rfl, -⟩ := List.cons.inj hz
        exact absurd (by simp [hbu]) hb

/-- A text is cut in one way at the first separator. -/
theorem eq_of_append_cons {c : α} {a a' b b' : List α} (ha : c ∉ a) (ha' : c ∉ a')
    (h : a ++ c :: b = a' ++ c :: b') : a = a' ∧ b = b' := by
  obtain ⟨u, rfl, hu⟩ := after_of_not_mem ha h
  cases u with
  | nil => exact ⟨(List.append_nil a).symm, (List.cons.inj hu).2⟩
  | cons d u =>
      obtain ⟨rfl, -⟩ := List.cons.inj hu
      exact absurd (by simp) ha'

/-- Words of which no two overlap in a text. -/
structure Separators (S : Set (List α)) : Prop where
  ne_nil : [] ∉ S
  apart : ∀ s ∈ S, ∀ s' ∈ S, ∀ y p y', s ++ y = p ++ (s' ++ y') →
    p = [] ∧ s = s' ∨ ∃ u, p = s ++ u

/-- A word that has its first character only once. -/
theorem separators_singleton {c : α} {b : List α} (hb : c ∉ b) : Separators {c :: b} where
  ne_nil := by simp
  apart s hs s' hs' y p y' h := by
    obtain rfl := Set.mem_singleton_iff.mp hs
    obtain rfl := Set.mem_singleton_iff.mp hs'
    cases p with
    | nil => exact .inl ⟨rfl, rfl⟩
    | cons d p =>
        obtain ⟨rfl, htail⟩ := List.cons.inj h
        obtain ⟨u, rfl, -⟩ := after_of_not_mem hb htail
        exact .inr ⟨u, rfl⟩

/-- The words that enclose a word of `D` in two that begin with `c`. -/
def bracket (c : α) (w v : List α) (D : Set (List α)) : Set (List α) :=
  {s | ∃ d ∈ D, s = c :: (w ++ d) ++ c :: v}

/-- They do not overlap if `c` is nowhere else and the two begin differently. -/
theorem separators_bracket {c a b : α} {w v : List α} {D : Set (List α)} (hab : a ≠ b)
    (hw : c ∉ a :: w) (hv : c ∉ b :: v) (hD : ∀ d ∈ D, c ∉ d) :
    Separators (bracket c (a :: w) (b :: v) D) where
  ne_nil := by
    rintro ⟨d, -, h⟩
    cases h
  apart := by
    rintro s ⟨d, hd, rfl⟩ s' ⟨d', hd', rfl⟩ y p y' h
    have hin (d : List α) (hd : d ∈ D) : c ∉ a :: w ++ d := by
      intro hmem
      exact (List.mem_append.mp hmem).elim hw (hD d hd)
    cases p with
    | nil =>
        have heq : (a :: w ++ d) ++ c :: (b :: v ++ y) = (a :: w ++ d') ++ c :: (b :: v ++ y') := by
          simpa using h
        rw [(eq_of_append_cons (hin d hd) (hin d' hd') heq).1]
        exact .inl ⟨rfl, rfl⟩
    | cons e p =>
        obtain ⟨rfl, -⟩ := List.cons.inj h
        have heq : (a :: w ++ d) ++ c :: (b :: v ++ y) =
            p ++ c :: ((a :: w ++ d') ++ c :: (b :: v ++ y')) := by simpa using h
        obtain ⟨u, rfl, hu⟩ := after_of_not_mem (hin d hd) heq
        cases u with
        | nil => exact absurd (List.cons.inj (List.cons.inj hu).2).1.symm hab
        | cons f u =>
            obtain ⟨rfl, hrest⟩ := List.cons.inj hu
            obtain ⟨u, rfl, -⟩ := after_of_not_mem hv hrest
            exact .inr ⟨u, by simp⟩

/-! ### Cutting a text -/

/-- Two places at which a text is cut: they are the same, or one of the separators is in the part
that the other one leaves on its left, and on its right. -/
theorem cut_cases {S : Set (List α)} (hS : Separators S) {s s' x x' y y' : List α} (hs : s ∈ S)
    (hs' : s' ∈ S) (h : x ++ (s ++ y) = x' ++ (s' ++ y')) :
    (x = x' ∧ s = s' ∧ y = y') ∨
    (∃ u, x' = x ++ (s ++ u) ∧ y = u ++ (s' ++ y')) ∨
    ∃ u, x = x' ++ (s' ++ u) ∧ y' = u ++ (s ++ y) := by
  rcases List.append_eq_append_iff.mp h with ⟨p, rfl, hp⟩ | ⟨p, rfl, hp⟩
  · rcases hS.apart s hs s' hs' y p y' hp with ⟨rfl, rfl⟩ | ⟨u, rfl⟩
    · exact .inl ⟨(List.append_nil x).symm, rfl, List.append_cancel_left hp⟩
    · refine .inr (.inl ⟨u, rfl, ?_⟩)
      rw [List.append_assoc] at hp
      exact List.append_cancel_left hp
  · rcases hS.apart s' hs' s hs y' p y hp with ⟨rfl, rfl⟩ | ⟨u, rfl⟩
    · exact .inl ⟨List.append_nil x', rfl, (List.append_cancel_left hp).symm⟩
    · refine .inr (.inr ⟨u, rfl, ?_⟩)
      rw [List.append_assoc] at hp
      exact List.append_cancel_left hp

/-! ### Readings

A reading of a text is its first field, and for every other field the separator before it.  `Ss`
lists the separators that are possible at each of the places. -/

/-- The text. -/
def join (f : List α) : List (List α × List α) → List α
  | [] => f
  | (s, g) :: r => f ++ (s ++ join g r)

theorem join_append (x f : List α) (r : List (List α × List α)) : join (x ++ f) r = x ++ join f r := by
  cases r with
  | nil => rfl
  | cons a r => exact List.append_assoc x f _

/-- Every separator is one of those that are possible at its place. -/
def Fits (Ss : List (Set (List α))) (r : List (List α × List α)) : Prop :=
  List.Forall₂ (fun S a => a.1 ∈ S) Ss r

/-- No field holds a separator of its left or its right side. -/
def Plain : List (Set (List α)) → List α → List (List α × List α) → Prop
  | S :: Ss, f, (_, g) :: r => (∀ s ∈ S, ¬ s <:+: f ∧ ¬ s <:+: g) ∧ Plain Ss g r
  | _, _, _ => True

variable {Ss : List (Set (List α))} {f f' g g' : List α} {r r' : List (List α × List α)}

/-- Behind a field without separators of its left side, there is none of them with a reading of the
rest after it. -/
theorem join_ne_of_plain (hSs : ∀ S ∈ Ss, Separators S) (hr : Fits Ss r) (hr' : Fits Ss r')
    {S : Set (List α)} {s u : List α} (hs : s ∈ S) (hg : ∀ t ∈ S, ¬ t <:+: g)
    (hplain : Plain Ss g r) : join g r ≠ u ++ (s ++ join g' r') := by
  induction Ss generalizing S s g g' u r r' with
  | nil =>
      obtain rfl := List.forall₂_nil_left_iff.mp hr
      obtain rfl := List.forall₂_nil_left_iff.mp hr'
      intro (h : g = u ++ (s ++ g'))
      exact hg s hs ⟨u, g', by rw [h, List.append_assoc]⟩
  | cons T Ss ih =>
      obtain ⟨⟨m, k⟩, r₁, hm, hr₁, rfl⟩ := List.forall₂_cons_left_iff.mp hr
      obtain ⟨⟨m', k'⟩, r₁', hm', hr₁', rfl⟩ := List.forall₂_cons_left_iff.mp hr'
      intro (h : g ++ (m ++ join k r₁) = u ++ (s ++ (g' ++ (m' ++ join k' r₁'))))
      rw [← List.append_assoc s, ← List.append_assoc u] at h
      rcases cut_cases (hSs T List.mem_cons_self) hm hm' h with
        ⟨hin, -⟩ | ⟨v, -, hrest⟩ | ⟨v, hin, -⟩
      · exact hg s hs ⟨u, g', by rw [hin, List.append_assoc]⟩
      · -- the next separator is moved to the right too
        exact ih (fun S hS => hSs S (List.mem_cons_of_mem T hS)) hr₁ hr₁' hm'
          (fun t ht => (hplain.1 t ht).2) hplain.2 hrest
      · exact hg s hs ⟨u, g' ++ (m' ++ v), by rw [hin]; simp⟩

theorem unique_of_plain (hSs : ∀ S ∈ Ss, Separators S) (hr : Fits Ss r) (hr' : Fits Ss r')
    (hplain : Plain Ss f r) (h : join f' r' = join f r) : f' = f ∧ r' = r := by
  induction Ss generalizing f f' r r' with
  | nil =>
      obtain rfl := List.forall₂_nil_left_iff.mp hr
      obtain rfl := List.forall₂_nil_left_iff.mp hr'
      exact ⟨h, rfl⟩
  | cons S Ss ih =>
      obtain ⟨⟨s, g⟩, r₁, hs, hr₁, rfl⟩ := List.forall₂_cons_left_iff.mp hr
      obtain ⟨⟨s', g'⟩, r₁', hs', hr₁', rfl⟩ := List.forall₂_cons_left_iff.mp hr'
      have hrest (T : Set (List α)) (hT : T ∈ Ss) : Separators T := hSs T (List.mem_cons_of_mem S hT)
      have h : f ++ (s ++ join g r₁) = f' ++ (s' ++ join g' r₁') := h.symm
      rcases cut_cases (hSs S List.mem_cons_self) hs hs' h with
        ⟨rfl, rfl, heq⟩ | ⟨u, -, heq⟩ | ⟨u, hin, -⟩
      · obtain ⟨rfl, rfl⟩ := ih hrest hr₁ hr₁' hplain.2 heq.symm
        exact ⟨rfl, rfl⟩
      · exact absurd heq
          (join_ne_of_plain hrest hr₁ hr₁' hs' (fun t ht => (hplain.1 t ht).2) hplain.2)
      · exact absurd ⟨f', u, by rw [hin, List.append_assoc]⟩ (hplain.1 s' hs').1

/-- The only way to read a text. -/
def Unique (Ss : List (Set (List α))) (f : List α) (r : List (List α × List α)) : Prop :=
  ∀ f' r', Fits Ss r' → join f' r' = join f r → f' = f ∧ r' = r

/-- A separator in a field can be taken for the one beside it. -/
theorem plain_of_unique (hSs : ∀ S ∈ Ss, Separators S) (hr : Fits Ss r) (huniq : Unique Ss f r) :
    Plain Ss f r := by
  induction Ss generalizing f r with
  | nil =>
      obtain rfl := List.forall₂_nil_left_iff.mp hr
      trivial
  | cons S Ss ih =>
      obtain ⟨⟨s, g⟩, r₁, hs, hr₁, rfl⟩ := List.forall₂_cons_left_iff.mp hr
      refine ⟨fun t ht => ?_, ih (fun T hT => hSs T (List.mem_cons_of_mem S hT)) hr₁ ?_⟩
      · have hne : t ≠ [] := by
          rintro rfl
          exact (hSs S List.mem_cons_self).ne_nil ht
        constructor
        · rintro ⟨p, q, rfl⟩
          have hread : join p ((t, q ++ (s ++ g)) :: r₁) = join (p ++ t ++ q) ((s, g) :: r₁) := by
            simp [join, join_append]
          have hp := (huniq p _ (List.Forall₂.cons ht hr₁) hread).1
          simp [hne] at hp
        · rintro ⟨p, q, rfl⟩
          have hread : join (f ++ (s ++ p)) ((t, q) :: r₁) = join f ((s, p ++ t ++ q) :: r₁) := by
            simp [join, join_append]
          have hp := (huniq _ _ (List.Forall₂.cons ht hr₁) hread).1
          have hs : s ≠ [] := by
            rintro rfl
            exact (hSs S List.mem_cons_self).ne_nil hs
          simp [hs] at hp
      · intro g' r' hr' hread
        have hread : join f ((s, g') :: r') = join f ((s, g) :: r₁) := by rw [join, join, hread]
        obtain ⟨-, h⟩ := huniq f ((s, g') :: r') (List.Forall₂.cons hs hr') hread
        obtain ⟨hg, hr⟩ := List.cons.inj h
        exact ⟨(Prod.mk.inj hg).2, hr⟩

/-- **A text can be read in one way only** exactly if its fields are plain. -/
theorem unique_iff (hSs : ∀ S ∈ Ss, Separators S) (hr : Fits Ss r) :
    Unique Ss f r ↔ Plain Ss f r :=
  ⟨plain_of_unique hSs hr, fun hplain _ _ hr' h => unique_of_plain hSs hr hr' hplain h⟩

end Texts
