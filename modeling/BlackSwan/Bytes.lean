import Mathlib.Data.List.Basic
import Mathlib.Tactic.Ring
import Mathlib.Tactic.NormNum

/-! # Byte strings and big-endian words

The coding of numbers that binary wire formats are built from: `beBytes w n` is the `w` bytes of
`n` with the most significant byte first, `beNat` the number a byte string denotes, and
`beNat_beBytes` and `beBytes_beNat` the round trips.

`readWord data off w` is a read of `w` bytes at an offset; it is `none` when the read leaves the
byte string, so that a program that reads past its buffer can be told from one that does not. -/

namespace Wire

/-- A byte string. -/
abbrev Bytes := List UInt8

/-! ### Big-endian words -/

/-- The `w` bytes of `n`, most significant first; what does not fit is dropped. -/
def beBytes : ℕ → ℕ → Bytes
  | 0, _ => []
  | w + 1, n => UInt8.ofNat (n / 256 ^ w) :: beBytes w n

/-- The number denoted by a byte string, most significant byte first. -/
def beNat : Bytes → ℕ
  | [] => 0
  | b :: bs => b.toNat * 256 ^ bs.length + beNat bs

@[simp] theorem length_beBytes : ∀ (w n : ℕ), (beBytes w n).length = w
  | 0, _ => rfl
  | w + 1, n => by simp [beBytes, length_beBytes w n]

theorem beNat_lt : ∀ (bs : Bytes), beNat bs < 256 ^ bs.length
  | [] => by simp [beNat]
  | b :: bs => by
      have hb : b.toNat < 256 := b.toNat_lt
      have ih := beNat_lt bs
      have h1 : (b.toNat + 1) * 256 ^ bs.length ≤ 256 * 256 ^ bs.length :=
        Nat.mul_le_mul_right _ hb
      rw [beNat, List.length_cons, pow_succ', Nat.add_mul] at *
      omega

theorem beNat_beBytes_mod : ∀ (w n : ℕ), beNat (beBytes w n) = n % 256 ^ w
  | 0, n => by simp [beBytes, beNat, Nat.mod_one]
  | w + 1, n => by
      rw [beBytes, beNat, length_beBytes, beNat_beBytes_mod w n, pow_succ, Nat.mod_mul]
      have e : (UInt8.ofNat (n / 256 ^ w)).toNat = n / 256 ^ w % 256 := by simp
      rw [e]
      ring

/-- Reading back a word that fits. -/
theorem beNat_beBytes {w n : ℕ} (h : n < 256 ^ w) : beNat (beBytes w n) = n := by
  rw [beNat_beBytes_mod, Nat.mod_eq_of_lt h]

/-- Only the low `w` bytes of a number are written. -/
theorem beBytes_add_mul : ∀ (w n k : ℕ), beBytes w (n + k * 256 ^ w) = beBytes w n
  | 0, _, _ => rfl
  | w + 1, n, k => by
      have e : n + k * 256 ^ (w + 1) = n + k * 256 * 256 ^ w := by rw [pow_succ]; ring
      have hdiv : (n + k * 256 * 256 ^ w) / 256 ^ w = n / 256 ^ w + k * 256 :=
        Nat.add_mul_div_right _ _ (by positivity)
      have hhead : UInt8.ofNat (n / 256 ^ w + k * 256) = UInt8.ofNat (n / 256 ^ w) := by
        apply UInt8.toNat_inj.mp
        simp
      rw [beBytes, beBytes, e, hdiv, hhead, beBytes_add_mul w n (k * 256)]

/-- Writing a word that was read. -/
theorem beBytes_beNat : ∀ (bs : Bytes), beBytes bs.length (beNat bs) = bs
  | [] => rfl
  | b :: bs => by
      have hlt := beNat_lt bs
      have hhead : (b.toNat * 256 ^ bs.length + beNat bs) / 256 ^ bs.length = b.toNat := by
        rw [Nat.add_comm, Nat.add_mul_div_right _ _ (by positivity), Nat.div_eq_of_lt hlt,
          Nat.zero_add]
      have htail : beBytes bs.length (b.toNat * 256 ^ bs.length + beNat bs) = bs := by
        rw [Nat.add_comm, beBytes_add_mul, beBytes_beNat bs]
      rw [List.length_cons, beNat, beBytes, hhead, htail, UInt8.ofNat_toNat]

/-! ### Reads at an offset -/

/-- The big-endian word of `w` bytes at offset `off`; `none` if the read leaves `data`. -/
def readWord (data : Bytes) (off w : ℕ) : Option ℕ :=
  if off + w ≤ data.length then some (beNat ((data.drop off).take w)) else none

theorem readWord_isSome {data : Bytes} {off w : ℕ} (h : off + w ≤ data.length) :
    readWord data off w = some (beNat ((data.drop off).take w)) := by
  simp [readWord, h]

/-- A read only depends on the bytes it covers. -/
theorem readWord_append (pre post : Bytes) {word : Bytes} {w : ℕ} (hw : word.length = w) :
    readWord (pre ++ (word ++ post)) pre.length w = some (beNat word) := by
  rw [readWord_isSome (by simp [hw]), List.drop_left, List.take_left' hw]

/-- Two stretches of a byte string, one behind the other. -/
theorem take_append_take (data : Bytes) (off m n : ℕ) :
    (data.drop off).take m ++ (data.drop (off + m)).take n = (data.drop off).take (m + n) := by
  rw [List.take_add, List.drop_drop]

theorem readWord_eq_some {data : Bytes} {off w n : ℕ} (h : readWord data off w = some n) :
    off + w ≤ data.length ∧ n = beNat ((data.drop off).take w) := by
  unfold readWord at h
  split_ifs at h with hle
  exact ⟨hle, (Option.some.inj h).symm⟩

/-- A word that was read, written again. -/
theorem beBytes_readWord {data : Bytes} {off w n : ℕ} (h : readWord data off w = some n) :
    beBytes w n = (data.drop off).take w := by
  obtain ⟨hle, rfl⟩ := readWord_eq_some h
  have hlen : ((data.drop off).take w).length = w := by
    rw [List.length_take, List.length_drop]
    omega
  nth_rewrite 1 [← hlen]
  exact beBytes_beNat _

theorem readWord_lt {data : Bytes} {off w n : ℕ} (h : readWord data off w = some n) : n < 256 ^ w := by
  obtain ⟨hle, rfl⟩ := readWord_eq_some h
  have hlt := beNat_lt ((data.drop off).take w)
  have hlen : ((data.drop off).take w).length = w := by
    rw [List.length_take, List.length_drop]
    omega
  rwa [hlen] at hlt

end Wire
