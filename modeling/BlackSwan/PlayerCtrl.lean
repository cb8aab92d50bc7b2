import BlackSwan.Gate
import BlackSwan.Game
import BlackSwan.Recursion

/-! # Deleting players by key in the game server

The three overloads of `PlayerCtrl::delPlayer` (`gameserver/playerCtrl.cpp`), and what they do to the
maps; the pointers to the players are counted in `PlayerRefs`.  Each overload looks for a player under
its own key, deletes by the two other keys of the player it finds, and then erases its own key.

* `findPlayer` with one number asks `playerIdMap_`, so the overload for a client id takes the client
  id for an id.  Players are filed under the keys that `addPlayer` is given, and deleted under the
  keys that they have.
* A name is passed as a view and looked up as a C string.
* A call that does not come back is one that is `none` at every depth (`Recursion`). -/

namespace BlackSwan.Game

open Wire Runs Tables Recursion
open GateState (cString)

/-- The argument of an overload of `delPlayer`. -/
inductive CtrlKey where
  | id (id : UInt64)
  | name (name : Bytes)
  | clientId (clientId : UInt32)
deriving DecidableEq, Repr

namespace GameServer

/-- `PlayerCtrl::findPlayer(uint64_t id)`. -/
def findPlayerById (id : UInt64) (s : GameServer) : Option ℕ := s.playerIdMap_ id

/-- `PlayerCtrl::findPlayer(std::string_view name)`. -/
def findPlayerByName (name : Bytes) (s : GameServer) : Option ℕ := s.playerNameMap_ (cString name)

/-- `PlayerCtrl::delPlayer(uint64_t id)`. -/
def delPlayerById (delPlayer : CtrlKey → GameServer → Option GameServer) (id : UInt64)
    (s : GameServer) : Option GameServer := do
  let s ← match s.findPlayerById id with
    | some pPlayer => do
        let s ← delPlayer (.name (s.players pPlayer).name_) s
        delPlayer (.clientId (s.players pPlayer).client_fd_) s
    | none => some s
  some { s with playerIdMap_ := s.playerIdMap_.erase id }

/-- `PlayerCtrl::delPlayer(std::string_view name)`. -/
def delPlayerByName (delPlayer : CtrlKey → GameServer → Option GameServer) (name : Bytes)
    (s : GameServer) : Option GameServer := do
  let s ← match s.findPlayerByName name with
    | some pPlayer => do
        let s ← delPlayer (.id (s.players pPlayer).id_) s
        delPlayer (.clientId (s.players pPlayer).client_fd_) s
    | none => some s
  some { s with playerNameMap_ := s.playerNameMap_.erase (cString name) }

/-- `PlayerCtrl::delPlayer(uint32_t clientId)`; `findPlayer(clientId)` is the overload for ids. -/
def delPlayerByClientId (delPlayer : CtrlKey → GameServer → Option GameServer) (clientId : UInt32)
    (s : GameServer) : Option GameServer := do
  let s ← match s.findPlayerById clientId.toUInt64 with
    | some pPlayer => do
        let s ← delPlayer (.id (s.players pPlayer).id_) s
        delPlayer (.name (s.players pPlayer).name_) s
    | none => some s
  some { s with playerFdMap_ := s.playerFdMap_.erase clientId.toUInt64 }

/-- `PlayerCtrl::delPlayer`, all three overloads. -/
def delPlayer : Procedure CtrlKey GameServer
  | f, .id id, s => s.delPlayerById f id
  | f, .name name, s => s.delPlayerByName f name
  | f, .clientId clientId, s => s.delPlayerByClientId f clientId

/-- The player that an overload finds. -/
def found : CtrlKey → GameServer → Option ℕ
  | .id id, s => s.findPlayerById id
  | .name name, s => s.findPlayerByName name
  | .clientId clientId, s => s.findPlayerById clientId.toUInt64

/-! ### What a deletion should do -/

/-- The player is in none of the maps. -/
def Lacks (s : GameServer) (x : ℕ) : Prop :=
  (∀ id, s.playerIdMap_ id ≠ some x) ∧ (∀ name, s.playerNameMap_ name ≠ some x) ∧
    ∀ key, s.playerFdMap_ key ≠ some x

/-- The player is still found wherever it was. -/
structure StillFound (y : ℕ) (s s' : GameServer) : Prop where
  ids : ∀ id, s.playerIdMap_ id = some y → s'.playerIdMap_ id = some y
  names : ∀ name, s.playerNameMap_ name = some y → s'.playerNameMap_ name = some y
  fds : ∀ key, s.playerFdMap_ key = some y → s'.playerFdMap_ key = some y

/-- On the maps `delPlayer` comes back, the player found under the key is in none of them, and every
other player is still found wherever it was. -/
def Deletes (k : CtrlKey) (s : GameServer) : Prop :=
  ∃ n s', delPlayer.call n k s = some s' ∧ (∀ x, s.found k = some x → s'.Lacks x) ∧
    ∀ y, s.found k ≠ some y → StillFound y s s'

/-! ### When it does -/

/-- The player has no entries but these. -/
structure Only (s : GameServer) (x : ℕ) (id : UInt64) (name : Bytes) : Prop where
  ids : ∀ id', s.playerIdMap_ id' = some x → id' = id
  names : ∀ name', s.playerNameMap_ name' = some x → name' = name

/-- Deleting by this client id does nothing: the player whom it is taken to be the id of, if there is
one, is filed neither under its id nor under its name. -/
def Idle (s : GameServer) (clientId : UInt32) : Prop :=
  ∀ y, s.playerIdMap_ clientId.toUInt64 = some y →
    s.playerIdMap_ (s.players y).id_ = none ∧ s.playerNameMap_ (cString (s.players y).name_) = none

/-- When deleting the player `x`, found under the key, works. -/
def Deletable (s : GameServer) : CtrlKey → ℕ → Prop
  | .id id, x =>
      let name := cString (s.players x).name_
      s.Idle (s.players x).client_fd_ ∧ s.Only x id name ∧
        (s.playerNameMap_ name = none ∨
          s.playerNameMap_ name = some x ∧ s.playerIdMap_ (s.players x).id_ = none)
  | .name name, x =>
      let id := (s.players x).id_
      s.Idle (s.players x).client_fd_ ∧ s.Only x id (cString name) ∧
        (s.playerIdMap_ id = none ∨
          s.playerIdMap_ id = some x ∧ s.playerNameMap_ (cString (s.players x).name_) = none)
  | .clientId clientId, x =>
      let name := cString (s.players x).name_
      s.Idle (s.players x).client_fd_ ∧ s.Only x clientId.toUInt64 name ∧
        (s.players x).id_ = clientId.toUInt64 ∧ s.playerNameMap_ name = none

/-! ### The three overloads as one -/

/-- The key of the first call for a player. -/
def firstKey : CtrlKey → Player → CtrlKey
  | .id _, p => .name p.name_
  | .name _, p => .id p.id_
  | .clientId _, p => .id p.id_

/-- The key of the second call for a player. -/
def secondKey : CtrlKey → Player → CtrlKey
  | .id _, p => .clientId p.client_fd_
  | .name _, p => .clientId p.client_fd_
  | .clientId _, p => .name p.name_

/-- What an overload erases in the end. -/
def eraseKey : CtrlKey → GameServer → GameServer
  | .id id, s => { s with playerIdMap_ := s.playerIdMap_.erase id }
  | .name name, s => { s with playerNameMap_ := s.playerNameMap_.erase (cString name) }
  | .clientId clientId, s => { s with playerFdMap_ := s.playerFdMap_.erase clientId.toUInt64 }

theorem delPlayer_eq (f : CtrlKey → GameServer → Option GameServer) (k : CtrlKey) (s : GameServer) :
    delPlayer f k s =
      match s.found k with
      | some x =>
          (f (firstKey k (s.players x)) s).bind fun s₁ =>
            (f (secondKey k (s₁.players x)) s₁).bind fun s₂ => some (s₂.eraseKey k)
      | none => some (s.eraseKey k) := by
  cases k with
  | id id =>
      simp only [delPlayer, delPlayerById, found]
      cases s.findPlayerById id with
      | none => rfl
      | some x => rfl
  | name name =>
      simp only [delPlayer, delPlayerByName, found]
      cases s.findPlayerByName name with
      | none => rfl
      | some x => rfl
  | clientId clientId =>
      simp only [delPlayer, delPlayerByClientId, found]
      cases s.findPlayerById clientId.toUInt64 with
      | none => rfl
      | some x => rfl

theorem delPlayer_mono : delPlayer.Mono := by
  intro f g hfg k s s' h
  rw [delPlayer_eq] at h ⊢
  cases hfound : s.found k with
  | none => simpa [hfound] using h
  | some x =>
      simp only [hfound] at h ⊢
      obtain ⟨s₁, h₁, h⟩ := Option.bind_eq_some_iff.mp h
      obtain ⟨s₂, h₂, h⟩ := Option.bind_eq_some_iff.mp h
      rw [hfg _ _ _ h₁, Option.bind_some, hfg _ _ _ h₂, Option.bind_some]
      exact h

/-! ### Calls only erase -/

/-- Nothing is filed anew, and the players are the same. -/
structure Shrinks (s s' : GameServer) : Prop where
  players : s'.players = s.players
  ids : ∀ id, s'.playerIdMap_ id = none ∨ s'.playerIdMap_ id = s.playerIdMap_ id
  names : ∀ name, s'.playerNameMap_ name = none ∨ s'.playerNameMap_ name = s.playerNameMap_ name
  fds : ∀ key, s'.playerFdMap_ key = none ∨ s'.playerFdMap_ key = s.playerFdMap_ key

namespace Shrinks

variable {s s₁ s' : GameServer}

theorem refl (s : GameServer) : Shrinks s s :=
  ⟨rfl, fun _ => .inr rfl, fun _ => .inr rfl, fun _ => .inr rfl⟩

theorem trans (h : Shrinks s s₁) (h' : Shrinks s₁ s') : Shrinks s s' where
  players := h'.players.trans h.players
  ids id := (h'.ids id).elim .inl fun e => e ▸ h.ids id
  names name := (h'.names name).elim .inl fun e => e ▸ h.names name
  fds key := (h'.fds key).elim .inl fun e => e ▸ h.fds key

theorem eraseKey (k : CtrlKey) (s : GameServer) : Shrinks s (s.eraseKey k) := by
  have erase {κ : Type} [DecidableEq κ] (m : Table κ ℕ) (key key' : κ) :
      m.erase key key' = none ∨ m.erase key key' = m key' := by
    rw [Table.erase_apply]
    split_ifs
    · exact .inl rfl
    · exact .inr rfl
  cases k with
  | id id => exact ⟨rfl, erase _ _, fun _ => .inr rfl, fun _ => .inr rfl⟩
  | name name => exact ⟨rfl, fun _ => .inr rfl, erase _ _, fun _ => .inr rfl⟩
  | clientId clientId => exact ⟨rfl, fun _ => .inr rfl, fun _ => .inr rfl, erase _ _⟩

end Shrinks

/-- The overloads that erase where they look. -/
def Files : CtrlKey → Prop
  | .clientId _ => False
  | _ => True

theorem files_id (id : UInt64) : Files (.id id) := trivial

theorem files_name (name : Bytes) : Files (.name name) := trivial

theorem found_eraseKey {k : CtrlKey} (hk : Files k) (s : GameServer) :
    (s.eraseKey k).found k = none := by
  cases k with
  | id id => exact Table.erase_self s.playerIdMap_ id
  | name name => exact Table.erase_self s.playerNameMap_ (cString name)
  | clientId clientId => exact hk.elim

theorem eraseKey_of_not_found {k : CtrlKey} (hk : Files k) {s : GameServer}
    (h : s.found k = none) : s.eraseKey k = s := by
  cases k with
  | id id => rw [eraseKey, Table.erase_of_none (m := s.playerIdMap_) h]
  | name name => rw [eraseKey, Table.erase_of_none (m := s.playerNameMap_) h]
  | clientId clientId => exact hk.elim

/-- A call that comes back has only erased, and among other things its own key. -/
theorem call_shrinks {n : ℕ} {k : CtrlKey} {s s' : GameServer}
    (h : delPlayer.call n k s = some s') : Shrinks s s' ∧ (Files k → s'.found k = none) := by
  refine delPlayer.call_spec (Q := fun k s s' => Shrinks s s' ∧ (Files k → s'.found k = none)) ?_ h
  intro f hf k s s' hbody
  rw [delPlayer_eq] at hbody
  cases hfound : s.found k with
  | none =>
      simp only [hfound, Option.some.injEq] at hbody
      subst hbody
      exact ⟨.eraseKey k s, fun hk => found_eraseKey hk s⟩
  | some x =>
      simp only [hfound] at hbody
      obtain ⟨s₁, h₁, hbody⟩ := Option.bind_eq_some_iff.mp hbody
      obtain ⟨s₂, h₂, hbody⟩ := Option.bind_eq_some_iff.mp hbody
      cases hbody
      have h₁₂ := (hf _ _ _ h₁).1.trans (hf _ _ _ h₂).1
      exact ⟨h₁₂.trans (.eraseKey k s₂), fun hk => found_eraseKey hk s₂⟩

/-- The two calls made by a call that finds a player. -/
theorem call_found {n : ℕ} {k : CtrlKey} {s s' : GameServer} {x : ℕ}
    (h : delPlayer.call n k s = some s') (hx : s.found k = some x) :
    ∃ m s₁ s₂, n = m + 1 ∧ delPlayer.call m (firstKey k (s.players x)) s = some s₁ ∧
      delPlayer.call m (secondKey k (s.players x)) s₁ = some s₂ ∧ s' = s₂.eraseKey k := by
  cases n with
  | zero => cases h
  | succ m =>
      rw [Procedure.call, delPlayer_eq, hx] at h
      obtain ⟨s₁, h₁, h⟩ := Option.bind_eq_some_iff.mp h
      obtain ⟨s₂, h₂, h⟩ := Option.bind_eq_some_iff.mp h
      rw [(call_shrinks h₁).1.players] at h₂
      exact ⟨m, s₁, s₂, rfl, h₁, h₂, (Option.some.inj h).symm⟩

/-- A call that finds nothing in the map it erases from changes nothing. -/
theorem call_not_found {n : ℕ} {k : CtrlKey} (hk : Files k) {s s' : GameServer}
    (h : delPlayer.call n k s = some s') (hx : s.found k = none) : s' = s := by
  cases n with
  | zero => cases h
  | succ m =>
      rw [Procedure.call, delPlayer_eq, hx] at h
      exact (Option.some.inj h).symm.trans (eraseKey_of_not_found hk hx)

/-! ### Calls that spare the others

`Spares x s s'` says that only `x` has lost entries.  Calls that come back and spare all but `x` find
nobody but `x`, and what they find they do not find again in the calls inside. -/

/-- Every player but `x` is still found wherever it was. -/
def Spares (x : ℕ) (s s' : GameServer) : Prop := ∀ y, y ≠ x → StillFound y s s'

section Spares

variable {x : ℕ} {s s₁ s' : GameServer}

theorem Spares.left (h : Spares x s s') (h₁ : Shrinks s₁ s') : Spares x s s₁ := by
  intro y hy
  have back {κ : Type} {m m₁ m' : Table κ ℕ} (hm : ∀ key, m key = some y → m' key = some y)
      (hm₁ : ∀ key, m' key = none ∨ m' key = m₁ key) (key : κ) (hkey : m key = some y) :
      m₁ key = some y := by
    have h' := hm key hkey
    rcases hm₁ key with e | e
    · rw [h'] at e
      cases e
    · exact e.symm.trans h'
  exact ⟨back (h y hy).ids h₁.ids, back (h y hy).names h₁.names, back (h y hy).fds h₁.fds⟩

theorem Spares.right (h : Spares x s s') (h₁ : Shrinks s s₁) : Spares x s₁ s' := by
  intro y hy
  have forth {κ : Type} {m m₁ m' : Table κ ℕ} (hm : ∀ key, m key = some y → m' key = some y)
      (hm₁ : ∀ key, m₁ key = none ∨ m₁ key = m key) (key : κ) (hkey : m₁ key = some y) :
      m' key = some y := by
    rcases hm₁ key with e | e
    · rw [hkey] at e
      cases e
    · exact hm key (e.symm.trans hkey)
  exact ⟨forth (h y hy).ids h₁.ids, forth (h y hy).names h₁.names, forth (h y hy).fds h₁.fds⟩

theorem StillFound.found {y : ℕ} (h : StillFound y s s') {k : CtrlKey} (hy : s.found k = some y) :
    s'.found k = some y := by
  cases k with
  | id id => exact h.ids _ hy
  | name name => exact h.names _ hy
  | clientId clientId => exact h.ids _ hy

/-- Nobody but `x` is found by a call that erases where it looks. -/
theorem Spares.found_cases (hs : Spares x s s') {n : ℕ} {k : CtrlKey} (hk : Files k)
    (h : delPlayer.call n k s = some s') : s.found k = none ∨ s.found k = some x := by
  cases hfound : s.found k with
  | none => exact .inl rfl
  | some y =>
      by_cases hy : y = x
      · exact .inr (congrArg some hy)
      · have hgone := (call_shrinks h).2 hk
        rw [(hs y hy).found hfound] at hgone
        cases hgone

/-- The calls inside a call that spares the others spare them too. -/
theorem Spares.call_found (hs : Spares x s s') {n : ℕ} {k : CtrlKey} {y : ℕ}
    (h : delPlayer.call n k s = some s') (hy : s.found k = some y) :
    ∃ m s₁ s₂, n = m + 1 ∧ delPlayer.call m (firstKey k (s.players y)) s = some s₁ ∧
      Spares x s s₁ ∧ delPlayer.call m (secondKey k (s.players y)) s₁ = some s₂ ∧ Spares x s₁ s₂ ∧
      s' = s₂.eraseKey k := by
  obtain ⟨m, s₁, s₂, hn, h₁, h₂, rfl⟩ := GameServer.call_found h hy
  have hsh₁ := (call_shrinks h₁).1
  have hsh₂ := (call_shrinks h₂).1
  have hsh := Shrinks.eraseKey k s₂
  exact ⟨m, s₁, s₂, hn, h₁, hs.left (hsh₂.trans hsh), h₂, (hs.right hsh₁).left hsh, rfl⟩

theorem files_firstKey (k : CtrlKey) (p : Player) : Files (firstKey k p) := by
  cases k <;> trivial

theorem secondKey_of_files {k : CtrlKey} (hk : Files k) (p : Player) :
    secondKey k p = .clientId p.client_fd_ := by
  cases k with
  | id id => rfl
  | name name => rfl
  | clientId clientId => exact hk.elim

/-- A call that finds `x` deletes by its client id before anything has been erased. -/
theorem Spares.clientId_call {n : ℕ} : ∀ {k : CtrlKey} {s' : GameServer}, Files k → Spares x s s' →
    delPlayer.call n k s = some s' → s.found k = some x →
    ∃ m < n, ∃ s'', delPlayer.call m (.clientId (s.players x).client_fd_) s = some s'' ∧
      Spares x s s'' := by
  induction n with
  | zero =>
      intro k s' _ _ h
      cases h
  | succ n ih =>
      intro k s' hk hs h hx
      obtain ⟨m, s₁, s₂, hn, h₁, hs₁, h₂, hs₂, -⟩ := hs.call_found h hx
      obtain rfl : n = m := Nat.succ.inj hn
      rw [secondKey_of_files hk] at h₂
      have hk₁ := files_firstKey k (s.players x)
      rcases hs₁.found_cases hk₁ h₁ with hnone | hx₁
      · obtain rfl := call_not_found hk₁ h₁ hnone
        exact ⟨n, Nat.lt_succ_self n, s₂, h₂, hs₂⟩
      · obtain ⟨m, hm, s'', h'', hs''⟩ := ih hk₁ hs₁ h₁ hx₁
        exact ⟨m, Nat.lt_succ_of_lt hm, s'', h'', hs''⟩

/-- A deletion by the client id of `x` that comes back does nothing: finding `x` in a call inside it
would lead to the same deletion again. -/
theorem Spares.idle {n : ℕ} : ∀ {s' : GameServer}, Spares x s s' →
    delPlayer.call n (.clientId (s.players x).client_fd_) s = some s' →
    s.Idle (s.players x).client_fd_ := by
  induction n using Nat.strong_induction_on with
  | _ n ih =>
      intro s' hs h y hy
      obtain ⟨m, s₁, s₂, rfl, h₁, hs₁, h₂, hs₂, -⟩ :=
        hs.call_found (k := .clientId (s.players x).client_fd_) h hy
      -- whatever finds `x` on the way is refuted by the induction hypothesis
      have again {k : CtrlKey} {s'' : GameServer} (hk : Files k) (hs'' : Spares x s s'')
          (hcall : delPlayer.call m k s = some s'') (hx : s.found k = some x) :
          s.Idle (s.players x).client_fd_ := by
        obtain ⟨j, hj, s₃, h₃, hs₃⟩ := hs''.clientId_call hk hcall hx
        exact ih j (Nat.lt_succ_of_lt hj) hs₃ h₃
      have hk₁ := files_id (s.players y).id_
      have hk₂ := files_name (s.players y).name_
      have hid : s.playerIdMap_ (s.players y).id_ = none := by
        rcases hs₁.found_cases hk₁ h₁ with hnone | hx
        · exact hnone
        · exact (again hk₁ hs₁ h₁ hx y hy).1
      obtain rfl := call_not_found hk₁ h₁ hid
      refine ⟨hid, ?_⟩
      rcases hs₂.found_cases hk₂ h₂ with hnone | hx
      · exact hnone
      · exact (again hk₂ hs₂ h₂ hx y hy).2

/-- `x` is not found under both of its own keys: each call would lead to the other. -/
theorem Spares.not_both {n : ℕ} : ∀ {k : CtrlKey} {s' : GameServer}, Spares x s s' →
    delPlayer.call n k s = some s' → s.found k = some x →
    s.found (firstKey k (s.players x)) = some x →
    firstKey (firstKey k (s.players x)) (s.players x) = k → False := by
  induction n with
  | zero =>
      intro k s' _ h
      cases h
  | succ n ih =>
      intro k s' hs h hx hx₁ hk
      obtain ⟨m, s₁, s₂, hn, h₁, hs₁, -, -, -⟩ := hs.call_found h hx
      obtain rfl : n = m := Nat.succ.inj hn
      exact ih hs₁ h₁ hx₁ (by rwa [hk]) (by rw [hk])

/-- What a call that comes back and spares the others requires: the first key of `x` is not in use, or
it is, and the first key after it is not. -/
theorem Spares.requires (hs : Spares x s s') {n : ℕ} {k : CtrlKey} (hk : Files k)
    (h : delPlayer.call n k s = some s') (hx : s.found k = some x) :
    s.Idle (s.players x).client_fd_ ∧
      (s.found (firstKey k (s.players x)) = none ∨
        s.found (firstKey k (s.players x)) = some x ∧
          s.found (firstKey (firstKey k (s.players x)) (s.players x)) = none) := by
  obtain ⟨j, -, s₃, h₃, hs₃⟩ := hs.clientId_call hk h hx
  refine ⟨hs₃.idle h₃, ?_⟩
  obtain ⟨m, s₁, s₂, -, h₁, hs₁, -, -, -⟩ := hs.call_found h hx
  rcases hs₁.found_cases (files_firstKey _ _) h₁ with hnone | hx₁
  · exact .inl hnone
  · refine .inr ⟨hx₁, ?_⟩
    obtain ⟨_, s₄, _, -, h₄, hs₄, -, -, -⟩ := hs₁.call_found h₁ hx₁
    rcases hs₄.found_cases (files_firstKey _ _) h₄ with hnone | hx₂
    · exact hnone
    · refine (hs₁.not_both h₁ hx₁ hx₂ ?_).elim
      cases k <;> rfl

end Spares

/-! ### Calls that do their work -/

section Calls

variable {x : ℕ} {s : GameServer}

theorem call_of_found {n : ℕ} {k : CtrlKey} {s₁ s₂ : GameServer} (hx : s.found k = some x)
    (h₁ : delPlayer.call n (firstKey k (s.players x)) s = some s₁)
    (h₂ : delPlayer.call n (secondKey k (s.players x)) s₁ = some s₂) :
    delPlayer.call (n + 1) k s = some (s₂.eraseKey k) := by
  rw [Procedure.call, delPlayer_eq, hx]
  simp only [h₁, Option.bind_some]
  rw [(call_shrinks h₁).1.players, h₂, Option.bind_some]

theorem call_of_not_found {k : CtrlKey} (hk : Files k) (hx : s.found k = none) :
    delPlayer.call 1 k s = some s := by
  rw [Procedure.call, delPlayer_eq, hx]
  exact congrArg some (eraseKey_of_not_found hk hx)

theorem eraseKey_clientId (hF : s.playerFdMap_ = .empty) (clientId : UInt32) :
    s.eraseKey (.clientId clientId) = s := by
  have hnone : s.playerFdMap_ clientId.toUInt64 = none := by simp [hF]
  rw [eraseKey, Table.erase_of_none hnone]

theorem call_idle (hF : s.playerFdMap_ = .empty) {clientId : UInt32} (h : s.Idle clientId) :
    delPlayer.call 2 (.clientId clientId) s = some s := by
  cases hy : s.playerIdMap_ clientId.toUInt64 with
  | none =>
      have hfound : s.found (.clientId clientId) = none := hy
      rw [Procedure.call, delPlayer_eq, hfound]
      exact congrArg some (eraseKey_clientId hF clientId)
  | some y =>
      have hid := call_of_not_found (k := .id (s.players y).id_) trivial (h y hy).1
      have hname := call_of_not_found (k := .name (s.players y).name_) trivial (h y hy).2
      rw [call_of_found (k := .clientId clientId) hy hid hname, eraseKey_clientId hF]

/-- The first key of the player is not in use. -/
theorem call_single (hF : s.playerFdMap_ = .empty) {k : CtrlKey} (hk : Files k)
    (hx : s.found k = some x) (hidle : s.Idle (s.players x).client_fd_)
    (hnone : s.found (firstKey k (s.players x)) = none) :
    delPlayer.call 3 k s = some (s.eraseKey k) := by
  have h₁ := call_of_not_found (files_firstKey k (s.players x)) hnone
  have h₂ := call_idle hF hidle
  rw [← secondKey_of_files hk] at h₂
  exact call_of_found hx (Procedure.call_mono delPlayer_mono (by decide) h₁) h₂

theorem Idle.of_shrinks {s' : GameServer} {clientId : UInt32} (h : s.Idle clientId)
    (hs : Shrinks s s') : s'.Idle clientId := by
  intro y hy
  have gone {κ : Type} {m m' : Table κ ℕ} (hm : ∀ key, m' key = none ∨ m' key = m key) {key : κ}
      (hkey : m key = none) : m' key = none := (hm key).elim id fun e => e.trans hkey
  have hy' : s.playerIdMap_ clientId.toUInt64 = some y := by
    rcases hs.ids clientId.toUInt64 with e | e
    · rw [hy] at e
      cases e
    · exact e.symm.trans hy
  rw [hs.players]
  exact ⟨gone hs.ids (h y hy').1, gone hs.names (h y hy').2⟩

/-- The first key of the player is in use for it, and the first key after that is not. -/
theorem call_double (hF : s.playerFdMap_ = .empty) {k : CtrlKey} (hk : Files k)
    (hx : s.found k = some x) (hidle : s.Idle (s.players x).client_fd_)
    (hx₁ : s.found (firstKey k (s.players x)) = some x)
    (hnone : s.found (firstKey (firstKey k (s.players x)) (s.players x)) = none) :
    delPlayer.call 4 k s = some ((s.eraseKey (firstKey k (s.players x))).eraseKey k) := by
  have hk₁ := files_firstKey k (s.players x)
  have h₁ := call_single hF hk₁ hx₁ hidle hnone
  have hsh := Shrinks.eraseKey (firstKey k (s.players x)) s
  have hF₁ : (s.eraseKey (firstKey k (s.players x))).playerFdMap_ = .empty := by
    rw [← hF]
    cases k <;> rfl
  have h₂ := call_idle hF₁ (hidle.of_shrinks hsh)
  rw [← secondKey_of_files hk] at h₂
  exact call_of_found hx h₁ (Procedure.call_mono delPlayer_mono (by decide) h₂)

/-- What a call requires is enough for it to come back, with these two keys erased. -/
theorem call_of_requires (hF : s.playerFdMap_ = .empty) {k : CtrlKey} (hk : Files k)
    (hx : s.found k = some x) (hidle : s.Idle (s.players x).client_fd_)
    (h : s.found (firstKey k (s.players x)) = none ∨
      s.found (firstKey k (s.players x)) = some x ∧
        s.found (firstKey (firstKey k (s.players x)) (s.players x)) = none) :
    delPlayer.call 4 k s = some ((s.eraseKey (firstKey k (s.players x))).eraseKey k) := by
  rcases h with hnone | ⟨hx₁, hnone⟩
  · rw [eraseKey_of_not_found (files_firstKey _ _) hnone]
    exact Procedure.call_mono delPlayer_mono (by decide) (call_single hF hk hx hidle hnone)
  · exact call_double hF hk hx hidle hx₁ hnone

end Calls

/-! ### The exact condition -/

section Deletes

variable {x : ℕ} {s : GameServer}

/-- The state without an id and a name. -/
def erased (id : UInt64) (name : Bytes) (s : GameServer) : GameServer :=
  { s with
    playerIdMap_ := s.playerIdMap_.erase id
    playerNameMap_ := s.playerNameMap_.erase name }

theorem lacks_erased (hF : s.playerFdMap_ = .empty) (id : UInt64) (name : Bytes) :
    (s.erased id name).Lacks x ↔ s.Only x id name := by
  have gone {κ : Type} [DecidableEq κ] (m : Table κ ℕ) (key : κ) :
      (∀ key', m.erase key key' ≠ some x) ↔ ∀ key', m key' = some x → key' = key := by
    simp only [ne_eq, Table.erase_eq_some, not_and, not_imp_not]
  constructor
  · rintro ⟨hids, hnames, -⟩
    exact ⟨(gone _ _).mp hids, (gone _ _).mp hnames⟩
  · rintro ⟨hids, hnames⟩
    refine ⟨(gone _ _).mpr hids, (gone _ _).mpr hnames, ?_⟩
    intro key
    simp [erased, hF]

theorem spares_erased {id : UInt64} {name : Bytes}
    (hid : s.playerIdMap_ id = none ∨ s.playerIdMap_ id = some x)
    (hname : s.playerNameMap_ name = none ∨ s.playerNameMap_ name = some x) :
    Spares x s (s.erased id name) := by
  intro y hy
  have keep {κ : Type} [DecidableEq κ] {m : Table κ ℕ} {key : κ}
      (hm : m key = none ∨ m key = some x) (key' : κ) (hkey : m key' = some y) :
      m.erase key key' = some y := by
    refine Table.erase_eq_some.mpr ⟨?_, hkey⟩
    rintro rfl
    rcases hm with e | e
    · rw [hkey] at e
      cases e
    · rw [hkey] at e
      exact hy (Option.some.inj e)
  exact ⟨keep hid, keep hname, fun _ hkey => hkey⟩

/-- A deletion of `x` comes back, leaves nothing of `x`, and spares the others. -/
theorem deletes_iff_of_found {k : CtrlKey} (hx : s.found k = some x) :
    s.Deletes k ↔ ∃ n s', delPlayer.call n k s = some s' ∧ s'.Lacks x ∧ Spares x s s' := by
  unfold Deletes Spares
  rw [hx]
  constructor
  · rintro ⟨n, s', hcall, hlacks, hspares⟩
    exact ⟨n, s', hcall, hlacks x rfl, fun y hy => hspares y fun e => hy (Option.some.inj e).symm⟩
  · rintro ⟨n, s', hcall, hlacks, hspares⟩
    refine ⟨n, s', hcall, ?_, ?_⟩
    · intro y hy
      obtain rfl := Option.some.inj hy
      exact hlacks
    · intro y hy
      exact hspares y fun e => hy (congrArg some e.symm)

/-- When it is known what the call erases, only the entries of `x` are left to look at. -/
theorem deletes_iff_only (hF : s.playerFdMap_ = .empty) {k : CtrlKey} (hx : s.found k = some x)
    {n : ℕ} {id : UInt64} {name : Bytes} (hcall : delPlayer.call n k s = some (s.erased id name))
    (hid : s.playerIdMap_ id = none ∨ s.playerIdMap_ id = some x)
    (hname : s.playerNameMap_ name = none ∨ s.playerNameMap_ name = some x) :
    s.Deletes k ↔ s.Only x id name := by
  rw [deletes_iff_of_found hx, ← lacks_erased hF]
  constructor
  · rintro ⟨m, s', hcall', hlacks, -⟩
    rwa [Procedure.call_unique delPlayer_mono hcall hcall']
  · intro hlacks
    exact ⟨n, _, hcall, hlacks, spares_erased hid hname⟩

theorem deletes_id (hF : s.playerFdMap_ = .empty) {id : UInt64} (hx : s.found (.id id) = some x) :
    s.Deletes (.id id) ↔ s.Deletable (.id id) x := by
  have key (hidle : s.Idle (s.players x).client_fd_)
      (h : s.found (.name (s.players x).name_) = none ∨
        s.found (.name (s.players x).name_) = some x ∧ s.found (.id (s.players x).id_) = none) :
      s.Deletes (.id id) ↔ s.Only x id (cString (s.players x).name_) :=
    deletes_iff_only hF hx (call_of_requires hF (files_id id) hx hidle h) (.inr hx)
      (h.imp_right And.left)
  constructor
  · intro hdel
    obtain ⟨n, s', hcall, -, hspares⟩ := (deletes_iff_of_found hx).mp hdel
    obtain ⟨hidle, h⟩ := hspares.requires (files_id id) hcall hx
    exact ⟨hidle, (key hidle h).mp hdel, h⟩
  · rintro ⟨hidle, honly, h⟩
    exact (key hidle h).mpr honly

theorem deletes_name (hF : s.playerFdMap_ = .empty) {name : Bytes}
    (hx : s.found (.name name) = some x) : s.Deletes (.name name) ↔ s.Deletable (.name name) x := by
  have key (hidle : s.Idle (s.players x).client_fd_)
      (h : s.found (.id (s.players x).id_) = none ∨
        s.found (.id (s.players x).id_) = some x ∧ s.found (.name (s.players x).name_) = none) :
      s.Deletes (.name name) ↔ s.Only x (s.players x).id_ (cString name) :=
    deletes_iff_only hF hx (call_of_requires hF (files_name name) hx hidle h)
      (h.imp_right And.left) (.inr hx)
  constructor
  · intro hdel
    obtain ⟨n, s', hcall, -, hspares⟩ := (deletes_iff_of_found hx).mp hdel
    obtain ⟨hidle, h⟩ := hspares.requires (files_name name) hcall hx
    exact ⟨hidle, (key hidle h).mp hdel, h⟩
  · rintro ⟨hidle, honly, h⟩
    exact (key hidle h).mpr honly

/-- A client id whose player is filed under its own id, and under no name. -/
theorem call_clientId (hF : s.playerFdMap_ = .empty) {clientId : UInt32}
    (hx : s.found (.clientId clientId) = some x) (hidle : s.Idle (s.players x).client_fd_)
    (hid : s.found (.id (s.players x).id_) = some x)
    (hname : s.found (.name (s.players x).name_) = none) :
    delPlayer.call 4 (.clientId clientId) s =
      some (s.erased (s.players x).id_ (cString (s.players x).name_)) := by
  have h₁ := call_single hF (files_id (s.players x).id_) hid hidle hname
  have h₂ : delPlayer.call 1 (.name (s.players x).name_) (s.eraseKey (.id (s.players x).id_)) =
      some (s.eraseKey (.id (s.players x).id_)) := call_of_not_found (files_name _) hname
  have hF₁ : (s.eraseKey (.id (s.players x).id_)).playerFdMap_ = .empty := hF
  rw [call_of_found (k := .clientId clientId) hx h₁
    (Procedure.call_mono delPlayer_mono (by decide) h₂), eraseKey_clientId hF₁]
  have hname' : s.playerNameMap_ (cString (s.players x).name_) = none := hname
  rw [erased, Table.erase_of_none hname']
  rfl

/-- By a client id only a player is deleted that is filed under its own id. -/
theorem found_id_of_deletes_clientId (hF : s.playerFdMap_ = .empty) {clientId : UInt32}
    (hx : s.found (.clientId clientId) = some x) (hdel : s.Deletes (.clientId clientId)) :
    s.found (.id (s.players x).id_) = some x := by
  obtain ⟨n, s', hcall, hlacks, hspares⟩ := (deletes_iff_of_found hx).mp hdel
  obtain ⟨m, s₁, s₂, -, h₁, hs₁, h₂, hs₂, rfl⟩ := hspares.call_found hcall hx
  have hid := files_id (s.players x).id_
  have hname := files_name (s.players x).name_
  rcases hs₁.found_cases hid h₁ with hnone | hx₁
  · -- neither call erases the entry under the client id
    obtain rfl := call_not_found hid h₁ hnone
    suffices hsame : s₂.playerIdMap_ = s₁.playerIdMap_ by
      have hgone : s₂.playerIdMap_ clientId.toUInt64 ≠ some x := hlacks.1 clientId.toUInt64
      rw [hsame] at hgone
      exact absurd hx hgone
    rcases hs₂.found_cases hname h₂ with hnone₂ | hx₂
    · rw [call_not_found hname h₂ hnone₂]
    · obtain ⟨hidle, h⟩ := hs₂.requires hname h₂ hx₂
      have hcall₂ := call_of_requires hF hname hx₂ hidle h
      rw [firstKey, eraseKey_of_not_found hid hnone] at hcall₂
      rw [Procedure.call_unique delPlayer_mono h₂ hcall₂]
      rfl
  · exact hx₁

theorem deletes_clientId (hF : s.playerFdMap_ = .empty) {clientId : UInt32}
    (hx : s.found (.clientId clientId) = some x) :
    s.Deletes (.clientId clientId) ↔ s.Deletable (.clientId clientId) x := by
  have key (hidle : s.Idle (s.players x).client_fd_) (hid : s.found (.id (s.players x).id_) = some x)
      (hname : s.found (.name (s.players x).name_) = none) :
      s.Deletes (.clientId clientId) ↔ s.Only x (s.players x).id_ (cString (s.players x).name_) :=
    deletes_iff_only hF hx (call_clientId hF hx hidle hid hname) (.inr hid) (.inl hname)
  constructor
  · intro hdel
    have hid := found_id_of_deletes_clientId hF hx hdel
    obtain ⟨n, s', hcall, -, hspares⟩ := (deletes_iff_of_found hx).mp hdel
    obtain ⟨m, s₁, s₂, -, h₁, hs₁, -, -, -⟩ := hspares.call_found hcall hx
    obtain ⟨hidle, h⟩ := hs₁.requires (files_id _) h₁ hid
    have hname : s.found (.name (s.players x).name_) = none := by
      rcases h with hnone | ⟨-, hnone⟩
      · exact hnone
      · cases hid.symm.trans hnone
    have honly := (key hidle hid hname).mp hdel
    have hclient : clientId.toUInt64 = (s.players x).id_ := honly.ids _ hx
    exact ⟨hidle, hclient ▸ honly, hclient.symm, hname⟩
  · rintro ⟨hidle, honly, hclient, hname⟩
    have hid : s.found (.id (s.players x).id_) = some x := hclient ▸ hx
    exact (key hidle hid hname).mpr (hclient ▸ honly)

theorem deletes_iff_deletable (hF : s.playerFdMap_ = .empty) {k : CtrlKey}
    (hx : s.found k = some x) : s.Deletes k ↔ s.Deletable k x := by
  cases k with
  | id id => exact deletes_id hF hx
  | name name => exact deletes_name hF hx
  | clientId clientId => exact deletes_clientId hF hx

/-- A key under which there is no player. -/
theorem deletes_of_not_found (hF : s.playerFdMap_ = .empty) {k : CtrlKey} (hx : s.found k = none) :
    s.Deletes k := by
  have hsame : s.eraseKey k = s := by
    cases k with
    | id id => exact eraseKey_of_not_found (files_id id) hx
    | name name => exact eraseKey_of_not_found (files_name name) hx
    | clientId clientId => exact eraseKey_clientId hF clientId
  refine ⟨1, s, ?_, ?_, ?_⟩
  · rw [Procedure.call, delPlayer_eq, hx]
    exact congrArg some hsame
  · intro x hx'
    simp [hx] at hx'
  · intro y _
    exact ⟨fun _ h => h, fun _ h => h, fun _ h => h⟩

end Deletes

end GameServer

end BlackSwan.Game
