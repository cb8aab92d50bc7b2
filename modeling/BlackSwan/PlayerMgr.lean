import BlackSwan.Gate
import BlackSwan.Recursion

/-! # Deleting players by key in the gate

The gate's `PlayerMgr` (`gateserver/playerMgr.cpp`) with its two maps, and the two overloads of
`delPlayer`.  An overload that finds a player calls the other one with the player's other key and then
itself with its own; no overload erases anything, so a key that is found once is found for ever.

* A `SharedPlayerPtr` is the number of the player, in the order in which they were made.
* A call that does not come back is one that is `none` at every depth (`Recursion`). -/

namespace BlackSwan

open Wire Tables Recursion

/-- The key of a player in one of the two maps: the argument of an overload. -/
inductive PlayerKey where
  | playerID (playerID : PlayerID)
  | playerName (playerName : Bytes)
deriving DecidableEq, Repr

/-- A `Player`, as far as the `PlayerMgr` looks at it. -/
structure KeyedPlayer where
  id_ : PlayerID
  name_ : Bytes
deriving DecidableEq, Repr

structure PlayerMgr where
  players : ℕ → KeyedPlayer
  made : ℕ
  playerIdMap_ : Table PlayerID ℕ
  playerNameMap_ : Table Bytes ℕ
  player_idx_ : UInt64

namespace PlayerMgr

/-- The manager before the first player. -/
def init : PlayerMgr where
  players := fun _ => ⟨0, []⟩
  made := 0
  playerIdMap_ := .empty
  playerNameMap_ := .empty
  player_idx_ := 0

/-- `PlayerMgr::fetchPlayer`. -/
def fetchPlayer (m : PlayerMgr) : ℕ × PlayerMgr :=
  let id := m.player_idx_ + 1
  (m.made, { m with
    players := Function.update m.players m.made ⟨id, []⟩
    made := m.made + 1
    playerIdMap_ := m.playerIdMap_.emplace id m.made
    player_idx_ := id })

/-- The two overloads of `PlayerMgr::findPlayer`. -/
def findPlayer : PlayerKey → PlayerMgr → Option ℕ
  | .playerID id, m => m.playerIdMap_ id
  | .playerName name, m => m.playerNameMap_ name

/-- `PlayerMgr::delPlayer(PlayerID playerID)`. -/
def delPlayerByID (delPlayer : PlayerKey → PlayerMgr → Option PlayerMgr) (playerID : PlayerID)
    (m : PlayerMgr) : Option PlayerMgr :=
  match m.findPlayer (.playerID playerID) with
  | some pPlayer => do
      let m ← delPlayer (.playerName (m.players pPlayer).name_) m
      delPlayer (.playerID playerID) m
  | none => some m

/-- `PlayerMgr::delPlayer(PlayerName playerName)`. -/
def delPlayerByName (delPlayer : PlayerKey → PlayerMgr → Option PlayerMgr) (playerName : Bytes)
    (m : PlayerMgr) : Option PlayerMgr :=
  match m.findPlayer (.playerName playerName) with
  | some pPlayer => do
      let m ← delPlayer (.playerID (m.players pPlayer).id_) m
      delPlayer (.playerName playerName) m
  | none => some m

/-- `PlayerMgr::delPlayer`, both overloads. -/
def delPlayer : Procedure PlayerKey PlayerMgr
  | f, .playerID id, m => m.delPlayerByID f id
  | f, .playerName name, m => m.delPlayerByName f name

/-! ### What a deletion should do -/

/-- The player is in neither map. -/
def Lacks (m : PlayerMgr) (p : ℕ) : Prop :=
  (∀ id, m.playerIdMap_ id ≠ some p) ∧ ∀ name, m.playerNameMap_ name ≠ some p

/-- The player has the same entries in both. -/
def SameEntries (p : ℕ) (m m' : PlayerMgr) : Prop :=
  (∀ id, m'.playerIdMap_ id = some p ↔ m.playerIdMap_ id = some p) ∧
    ∀ name, m'.playerNameMap_ name = some p ↔ m.playerNameMap_ name = some p

/-- `delPlayer` comes back, the player found under the key is in neither map, and every other player
has the entries it had. -/
def Deletes (k : PlayerKey) (m : PlayerMgr) : Prop :=
  ∃ n m', delPlayer.call n k m = some m' ∧ (∀ p, m.findPlayer k = some p → m'.Lacks p) ∧
    ∀ p, m.findPlayer k ≠ some p → SameEntries p m m'

/-! ### Calls that come back -/

/-- The key under which an overload has the other one delete the player it found. -/
def otherKey : PlayerKey → KeyedPlayer → PlayerKey
  | .playerID _, p => .playerName p.name_
  | .playerName _, p => .playerID p.id_

/-- Both overloads look up their key, delete by the other key, and start again. -/
theorem delPlayer_eq (f : PlayerKey → PlayerMgr → Option PlayerMgr) (k : PlayerKey) (m : PlayerMgr) :
    delPlayer f k m =
      match m.findPlayer k with
      | some p => (f (otherKey k (m.players p)) m).bind (f k)
      | none => some m := by
  cases k with
  | playerID id => rfl
  | playerName name => rfl

/-- A body that comes back has found nothing and changed nothing, when this is so of the calls that
it makes: the last of them looks for the key again. -/
theorem delPlayer_body (f : PlayerKey → PlayerMgr → Option PlayerMgr)
    (hf : ∀ k m m', f k m = some m' → m.findPlayer k = none ∧ m' = m) (k : PlayerKey)
    (m m' : PlayerMgr) (h : delPlayer f k m = some m') : m.findPlayer k = none ∧ m' = m := by
  rw [delPlayer_eq] at h
  cases hfind : m.findPlayer k with
  | none => exact ⟨rfl, by simpa [hfind] using h.symm⟩
  | some p =>
      simp only [hfind] at h
      obtain ⟨m₁, h₁, h₂⟩ := Option.bind_eq_some_iff.mp h
      obtain ⟨-, rfl⟩ := hf _ _ _ h₁
      have hnone := (hf _ _ _ h₂).1
      simp [hfind] at hnone

/-- `delPlayer` only ever comes back from a key that it does not find. -/
theorem findPlayer_of_call {n : ℕ} {k : PlayerKey} {m m' : PlayerMgr}
    (h : delPlayer.call n k m = some m') : m.findPlayer k = none ∧ m' = m :=
  delPlayer.call_spec (Q := fun k m m' => m.findPlayer k = none ∧ m' = m) delPlayer_body h

theorem call_of_findPlayer {k : PlayerKey} {m : PlayerMgr} (h : m.findPlayer k = none) :
    delPlayer.call 1 k m = some m := by
  rw [Procedure.call, delPlayer_eq, h]

/-- **`delPlayer` works for a key if and only if there is no player under it**; with a player under
it, neither overload comes back. -/
theorem deletes_iff_findPlayer_eq_none (m : PlayerMgr) (k : PlayerKey) :
    m.Deletes k ↔ m.findPlayer k = none := by
  constructor
  · rintro ⟨n, m', hcall, -, -⟩
    exact (findPlayer_of_call hcall).1
  · intro hfind
    refine ⟨1, m, call_of_findPlayer hfind, ?_, ?_⟩
    · intro p hp
      simp [hfind] at hp
    · intro p _
      exact ⟨fun _ => Iff.rfl, fun _ => Iff.rfl⟩

/-- The first player of the gate cannot be deleted by its id. -/
theorem fetched_player_not_deleted : ¬ (fetchPlayer init).2.Deletes (.playerID 1) := by
  rintro ⟨n, m', hcall, -, -⟩
  have hfind : (fetchPlayer init).2.findPlayer (.playerID 1) = some 0 := by decide
  rw [(findPlayer_of_call hcall).1] at hfind
  cases hfind

end PlayerMgr

end BlackSwan
