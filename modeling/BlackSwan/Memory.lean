import BlackSwan.Bytes

/-! # Blocks of memory

One allocated block is the list of its bytes.  A read or a write of a range is `none` when the
range leaves the block, so that a copy outside a buffer can be told from one inside it.  Lengths
and positions are numbers below `2^64` that wrap like `size_t`. -/

namespace Wire

/-! ### `size_t` -/

@[irreducible] def sizeAdd (a b : ℕ) : ℕ := (a + b) % 2 ^ 64

/-- `a - b`, which wraps below zero. -/
@[irreducible] def sizeSub (a b : ℕ) : ℕ := (a + (2 ^ 64 - b)) % 2 ^ 64

theorem sizeAdd_eq {a b : ℕ} (h : a + b < 2 ^ 64) : sizeAdd a b = a + b := by
  unfold sizeAdd
  exact Nat.mod_eq_of_lt h

theorem sizeSub_eq {a b : ℕ} (hb : b ≤ a) (ha : a < 2 ^ 64) : sizeSub a b = a - b := by
  have e : a + (2 ^ 64 - b) = a - b + 2 ^ 64 := by omega
  rw [sizeSub, e, Nat.add_mod_right, Nat.mod_eq_of_lt (by omega)]

/-! ### Ranges of a block -/

/-- The `len` bytes at offset `off`. -/
def load (block : Bytes) (off len : ℕ) : Option Bytes :=
  if off + len ≤ block.length then some ((block.drop off).take len) else none

/-- `memcpy` of `src` to offset `off`. -/
def store (block : Bytes) (off : ℕ) (src : Bytes) : Option Bytes :=
  if off + src.length ≤ block.length then
    some (block.take off ++ (src ++ block.drop (off + src.length)))
  else none

/-- `memmove` inside a block, as if through a copy of the source. -/
def memmove (block : Bytes) (dst src len : ℕ) : Option Bytes :=
  (load block src len).bind (store block dst)

theorem load_eq {block : Bytes} {off len : ℕ} (h : off + len ≤ block.length) :
    load block off len = some ((block.drop off).take len) := if_pos h

theorem length_of_load {block bytes : Bytes} {off len : ℕ} (h : load block off len = some bytes) :
    off + len ≤ block.length ∧ bytes.length = len := by
  unfold load at h
  split_ifs at h with hle
  obtain rfl := Option.some.inj h
  refine ⟨hle, ?_⟩
  rw [List.length_take, List.length_drop]
  omega

theorem store_eq (block src : Bytes) (off : ℕ) (h : off + src.length ≤ block.length) :
    ∃ block', store block off src = some block' ∧ block'.length = block.length ∧
      block' = block.take off ++ (src ++ block.drop (off + src.length)) := by
  refine ⟨_, if_pos h, ?_, rfl⟩
  simp only [List.length_append, List.length_take, List.length_drop]
  omega

/-- A write behind a range is seen as an extension of the range. -/
theorem load_store_append {block block' src bytes : Bytes} {off len : ℕ}
    (hl : load block off len = some bytes) (hs : store block (off + len) src = some block') :
    load block' off (len + src.length) = some (bytes ++ src) := by
  obtain ⟨hle, hlen⟩ := length_of_load hl
  unfold store at hs
  split_ifs at hs with hfit
  obtain rfl := Option.some.inj hs
  rw [load_eq hle] at hl
  have hbytes : (block.drop off).take len = bytes := Option.some.inj hl
  have htake : block.take (off + len) = block.take off ++ bytes := by rw [List.take_add, hbytes]
  have hoff : (block.take off).length = off := by
    rw [List.length_take]
    omega
  rw [load_eq (by simp only [List.length_append, List.length_take, List.length_drop]; omega), htake,
    List.append_assoc, List.drop_left' hoff, ← List.append_assoc,
    List.take_left' (by rw [List.length_append, hlen])]

/-- A write to the front of a block, read back. -/
theorem load_store_head {block block' src : Bytes} (hs : store block 0 src = some block') :
    load block' 0 src.length = some src := by
  have hl : load block 0 0 = some [] := by simp [load]
  simpa using load_store_append hl hs

/-- Reading less of a range from a later offset. -/
theorem load_drop {block bytes : Bytes} {off len k : ℕ} (hl : load block off len = some bytes)
    (hk : k ≤ len) : load block (off + k) (len - k) = some (bytes.drop k) := by
  obtain ⟨hle, -⟩ := length_of_load hl
  rw [load_eq hle] at hl
  obtain rfl := Option.some.inj hl
  rw [load_eq (by omega), List.drop_take, List.drop_drop]

end Wire
