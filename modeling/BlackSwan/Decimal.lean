import BlackSwan.Bytes
import Mathlib.Data.Int.Notation
import Mathlib.Data.List.TakeWhile
import Mathlib.Data.Nat.Digits.Lemmas
import Mathlib.Tactic.IntervalCases

/-! # Decimal numbers in texts

Numbers as the C library writes and reads them in base ten: `decimal` is `std::to_string` of an
unsigned number, `decimalInt` the conversion `%d`, and `strtoull` the function of that name with
base 10.  `strtoull_decimal` is the round trip for 64-bit numbers.

Different numbers are written differently and with digits only, so a number can be read back from a
text up to a separator behind it. -/

namespace Wire

/-! ### Writing -/

/-- The character of a digit. -/
def digitByte (d : ℕ) : UInt8 := UInt8.ofNat (48 + d)

/-- The decimal digits of `n`, most significant first. -/
def decimal (n : ℕ) : Bytes :=
  if n = 0 then [digitByte 0] else (Nat.digits 10 n).reverse.map digitByte

/-- A signed number, as `%d` writes it. -/
def decimalInt (z : ℤ) : Bytes := if z < 0 then 45 :: decimal z.natAbs else decimal z.natAbs

/-! ### Reading -/

def isSpace (b : UInt8) : Bool := b == 32 || (9 ≤ b && b ≤ 13)

def isDigit (b : UInt8) : Bool := 48 ≤ b && b ≤ 57

/-- The number that a string of digits denotes. -/
def decimalValue (bs : Bytes) : ℕ := bs.foldl (fun n b => 10 * n + (b.toNat - 48)) 0

/-- An optional sign. -/
def splitSign : Bytes → Bool × Bytes
  | [] => (false, [])
  | b :: bs => if b = 45 then (true, bs) else if b = 43 then (false, bs) else (false, b :: bs)

/-- `strtoull(text, nullptr, 10)`: blanks and a sign are skipped, the digits end at the first other
character, and what does not fit becomes `ULLONG_MAX`. -/
def strtoull (text : Bytes) : UInt64 :=
  let (neg, rest) := splitSign (text.dropWhile isSpace)
  let n := decimalValue (rest.takeWhile isDigit)
  if 2 ^ 64 ≤ n then UInt64.ofNat (2 ^ 64 - 1)
  else if neg then 0 - UInt64.ofNat n else UInt64.ofNat n

/-! ### The round trip -/

theorem isDigit_digitByte {d : ℕ} (h : d < 10) : isDigit (digitByte d) = true := by
  interval_cases d <;> rfl

theorem toNat_digitByte {d : ℕ} (h : d < 10) : (digitByte d).toNat - 48 = d := by
  rw [digitByte, UInt8.toNat_ofNat']
  omega

theorem decimal_ne_nil (n : ℕ) : decimal n ≠ [] := by
  unfold decimal
  split_ifs with h
  · simp
  · simpa [Nat.digits_eq_nil_iff_eq_zero] using h

theorem isDigit_of_mem_decimal (n : ℕ) : ∀ b ∈ decimal n, isDigit b = true := by
  intro b hb
  unfold decimal at hb
  split_ifs at hb with h
  · rw [List.mem_singleton.mp hb]
    exact isDigit_digitByte (by decide)
  · obtain ⟨d, hd, rfl⟩ := List.mem_map.mp hb
    exact isDigit_digitByte (Nat.digits_lt_base (by decide) (List.mem_reverse.mp hd))

/-- The reader goes over the digits from the left, `Nat.ofDigits` from the right. -/
theorem decimalValue_reverse (ds : List ℕ) (h : ∀ d ∈ ds, d < 10) :
    decimalValue (ds.reverse.map digitByte) = Nat.ofDigits 10 ds := by
  induction ds with
  | nil => rfl
  | cons d ds ih =>
      have ih := ih fun d' hd' => h d' (List.mem_cons_of_mem d hd')
      rw [decimalValue] at ih
      rw [decimalValue, List.reverse_cons, List.map_append, List.foldl_append, ih,
        Nat.ofDigits_cons, List.map_singleton, List.foldl_cons, List.foldl_nil,
        toNat_digitByte (h d List.mem_cons_self)]
      omega

theorem decimalValue_decimal (n : ℕ) : decimalValue (decimal n) = n := by
  unfold decimal
  split_ifs with h
  · rw [h]
    rfl
  · rw [decimalValue_reverse _ fun d hd => Nat.digits_lt_base (by decide) hd, Nat.ofDigits_digits]

/-- A digit is neither a blank nor a sign. -/
theorem isDigit_imp {b : UInt8} (h : isDigit b = true) : isSpace b = false ∧ b ≠ 45 ∧ b ≠ 43 := by
  simp only [isDigit, isSpace, Bool.and_eq_true, Bool.or_eq_false_iff, Bool.and_eq_false_iff,
    decide_eq_true_eq, decide_eq_false_iff_not, beq_eq_false_iff_ne, UInt8.le_iff_toNat_le] at h ⊢
  obtain ⟨h48, h57⟩ := h
  have hb : ∀ c : UInt8, c.toNat < 48 → b ≠ c := by
    rintro c hc rfl
    exact absurd h48 (by simpa using hc)
  refine ⟨⟨hb 32 (by decide), Or.inr ?_⟩, hb 45 (by decide), hb 43 (by decide)⟩
  intro h13
  exact absurd (Nat.le_trans h48 h13) (by decide)

/-- **What `to_string` writes of a 64-bit number, `strtoull` reads back.** -/
theorem strtoull_decimal (id : UInt64) : strtoull (decimal id.toNat) = id := by
  have hdig := isDigit_of_mem_decimal id.toNat
  have hval := decimalValue_decimal id.toNat
  cases hd : decimal id.toNat with
  | nil => exact absurd hd (decimal_ne_nil id.toNat)
  | cons b bs =>
      rw [hd] at hdig hval
      obtain ⟨hsp, hminus, hplus⟩ := isDigit_imp (hdig b List.mem_cons_self)
      have hdrop : (b :: bs).dropWhile isSpace = b :: bs := by simp [hsp]
      have hsign : splitSign (b :: bs) = (false, b :: bs) := by simp [splitSign, hminus, hplus]
      have htake : (b :: bs).takeWhile isDigit = b :: bs := List.takeWhile_eq_self_iff.mpr hdig
      have hlt : ¬ 2 ^ 64 ≤ id.toNat := Nat.not_le.mpr id.toNat_lt
      simp only [strtoull, hdrop, hsign, htake, hval, if_neg hlt]
      simp

/-! ### Numbers between separators -/

theorem decimal_injective : Function.Injective decimal := by
  intro n m h
  rw [← decimalValue_decimal n, h, decimalValue_decimal]

theorem not_mem_decimal {b : UInt8} (hb : isDigit b = false) (n : ℕ) : b ∉ decimal n := by
  intro hmem
  rw [isDigit_of_mem_decimal n b hmem] at hb
  cases hb

theorem length_decimal_le {n k : ℕ} (hk : 0 < k) (h : n < 10 ^ k) : (decimal n).length ≤ k := by
  unfold decimal
  split_ifs
  · exact hk
  · rw [List.length_map, List.length_reverse]
    exact (Nat.digits_length_le_iff (by decide) n).mpr h

theorem decimalInt_injective : Function.Injective decimalInt := by
  intro z w h
  have hminus (n : ℕ) : (45 : UInt8) ∉ decimal n := not_mem_decimal (by decide) n
  unfold decimalInt at h
  split_ifs at h with hz hw hw
  · have habs := decimal_injective (List.cons.inj h).2
    omega
  · exact absurd (h ▸ List.mem_cons_self) (hminus w.natAbs)
  · exact absurd (h ▸ List.mem_cons_self) (hminus z.natAbs)
  · have habs := decimal_injective h
    omega

theorem not_mem_decimalInt {b : UInt8} (hb : isDigit b = false) (hb' : b ≠ 45) (z : ℤ) :
    b ∉ decimalInt z := by
  unfold decimalInt
  split_ifs
  · simp [hb', not_mem_decimal hb]
  · exact not_mem_decimal hb _

theorem length_decimalInt_le {z : ℤ} {k : ℕ} (hk : 0 < k) (h : z.natAbs < 10 ^ k) :
    (decimalInt z).length ≤ k + 1 := by
  have hlen := length_decimal_le hk h
  unfold decimalInt
  split_ifs
  · simpa using hlen
  · omega

end Wire
