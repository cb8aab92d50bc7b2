import BlackSwan.PlayerCtrl

/-! # The players that `delPlayer` destroys

`PlayerCtrl` holds its players by `shared_ptr`, and so does `delPlayer` while it works.  The
definitions of `PlayerCtrl` are repeated here with the pointers counted: `use_count` goes up where a
pointer is copied and down where one is destroyed.  With its last pointer a player is destroyed, and
`Player::~Player` prints the `fd` of its gate session; a player that was made from an id and a name
has none.

* `outside` counts the pointers of the callers.  It is never read by `delPlayer`.
* A call is `none` when it has not come back, or has called through the null session.

A call that comes back does to the maps what `PlayerCtrl` says (`call_maps`), and one comes back if
every player without a session that is filed keeps a pointer (`call_of_maps`). -/

namespace BlackSwan.Game

open Wire Runs Tables Recursion
open GateState (cString)

/-- `PlayerCtrl`, with how many pointers there are to each player, and how many the callers have. -/
structure Ctrl where
  server : GameServer
  use_count : ℕ → ℕ
  outside : ℕ → ℕ

namespace Ctrl

/-- A pointer is copied. -/
def retain (p : ℕ) (c : Ctrl) : Ctrl :=
  { c with use_count := Function.update c.use_count p (c.use_count p + 1) }

/-- A pointer is destroyed, and with the last one the player. -/
def release (p : ℕ) (c : Ctrl) : Option Ctrl :=
  if c.use_count p = 1 ∧ (c.server.players p).gateSession_ = none then none
  else some { c with use_count := Function.update c.use_count p (c.use_count p - 1) }

/-! ### `delPlayer` -/

/-- The entry that an overload erases. -/
def entry : CtrlKey → Ctrl → Option ℕ
  | .id id, c => c.server.playerIdMap_ id
  | .name name, c => c.server.playerNameMap_ (cString name)
  | .clientId clientId, c => c.server.playerFdMap_ clientId.toUInt64

/-- `erase`, which destroys the pointer in the entry. -/
def eraseKey (k : CtrlKey) (c : Ctrl) : Option Ctrl :=
  match c.entry k with
  | some p => ({ c with server := c.server.eraseKey k } : Ctrl).release p
  | none => some { c with server := c.server.eraseKey k }

/-- `PlayerCtrl::delPlayer(uint64_t id)`; `pPlayer` is destroyed when the function is left. -/
def delPlayerById (delPlayer : CtrlKey → Ctrl → Option Ctrl) (id : UInt64) (c : Ctrl) :
    Option Ctrl :=
  match c.server.findPlayerById id with
  | some pPlayer => do
      let c := c.retain pPlayer
      let c ← delPlayer (.name (c.server.players pPlayer).name_) c
      let c ← delPlayer (.clientId (c.server.players pPlayer).client_fd_) c
      let c ← c.eraseKey (.id id)
      c.release pPlayer
  | none => c.eraseKey (.id id)

/-- `PlayerCtrl::delPlayer(std::string_view name)`. -/
def delPlayerByName (delPlayer : CtrlKey → Ctrl → Option Ctrl) (name : Bytes) (c : Ctrl) :
    Option Ctrl :=
  match c.server.findPlayerByName name with
  | some pPlayer => do
      let c := c.retain pPlayer
      let c ← delPlayer (.id (c.server.players pPlayer).id_) c
      let c ← delPlayer (.clientId (c.server.players pPlayer).client_fd_) c
      let c ← c.eraseKey (.name name)
      c.release pPlayer
  | none => c.eraseKey (.name name)

/-- `PlayerCtrl::delPlayer(uint32_t clientId)`. -/
def delPlayerByClientId (delPlayer : CtrlKey → Ctrl → Option Ctrl) (clientId : UInt32) (c : Ctrl) :
    Option Ctrl :=
  match c.server.findPlayerById clientId.toUInt64 with
  | some pPlayer => do
      let c := c.retain pPlayer
      let c ← delPlayer (.id (c.server.players pPlayer).id_) c
      let c ← delPlayer (.name (c.server.players pPlayer).name_) c
      let c ← c.eraseKey (.clientId clientId)
      c.release pPlayer
  | none => c.eraseKey (.clientId clientId)

/-- `PlayerCtrl::delPlayer`, all three overloads. -/
def delPlayer : Procedure CtrlKey Ctrl
  | f, .id id, c => c.delPlayerById f id
  | f, .name name, c => c.delPlayerByName f name
  | f, .clientId clientId, c => c.delPlayerByClientId f clientId

/-! ### Runs -/

/-- `PlayerCtrl::addPlayer(uint64_t id, std::string const& name, PlayerPtr pPlayer)`. -/
def addPlayerById (id : UInt64) (name : Bytes) (p : ℕ) (c : Ctrl) : Ctrl :=
  { c with
    server := c.server.addPlayerById id name p
    use_count := Function.update c.use_count p (c.use_count p +
      (if (c.server.playerIdMap_ id).isNone then 1 else 0) +
      (if (c.server.playerNameMap_ name).isNone then 1 else 0)) }

/-- `std::make_shared<Player>`, for a caller. -/
def makePlayer (player : Player) (c : Ctrl) : Ctrl where
  server := { c.server with
    players := Function.update c.server.players c.server.made player
    made := c.server.made + 1 }
  use_count := Function.update c.use_count c.server.made 1
  outside := Function.update c.outside c.server.made 1

/-- `PlayerCtrl::addPlayer(uint32_t clientId, SessionPtr gateSession)`, which returns the pointer. -/
def addPlayer (clientId gateSession : UInt32) (c : Ctrl) : Ctrl :=
  (c.makePlayer (Player.new clientId gateSession)).addPlayerById (makeKey clientId gateSession) []
    c.server.made

end Ctrl

/-- What callers do: players are made, with whatever fields, and filed by the two overloads of
`addPlayer`; pointers are copied, as `findPlayer` does, and destroyed. -/
inductive CtrlEvent where
  | makePlayer (player : Player)
  | addPlayer (clientId gateSession : UInt32)
  | addPlayerById (id : UInt64) (name : Bytes) (p : ℕ)
  | copy (p : ℕ)
  | drop (p : ℕ)
deriving DecidableEq, Repr

def Ctrl.step (c : Ctrl) : CtrlEvent → Option Ctrl
  | .makePlayer player => some (c.makePlayer player)
  | .addPlayer clientId gateSession => some (c.addPlayer clientId gateSession)
  | .addPlayerById id name p => if 0 < c.outside p then some (c.addPlayerById id name p) else none
  | .copy p =>
      if 0 < c.use_count p then
        some { c.retain p with outside := Function.update c.outside p (c.outside p + 1) }
      else none
  | .drop p =>
      if 0 < c.outside p then
        ({ c with outside := Function.update c.outside p (c.outside p - 1) } : Ctrl).release p
      else none

def ctrlMachine : Machine Ctrl CtrlEvent where
  init := ⟨gameMachine.init, fun _ => 0, fun _ => 0⟩
  step := Ctrl.step

namespace Ctrl

variable {c c' : Ctrl} {k : CtrlKey} {p x n : ℕ}

/-! ### Counting -/

/-- There are `n` pointers to the player apart from those in the maps. -/
def Counted (p n : ℕ) (c : Ctrl) : Prop :=
  ∃ i j l, c.server.playerIdMap_.Count p i ∧ c.server.playerNameMap_.Count p j ∧
    c.server.playerFdMap_.Count p l ∧ c.use_count p = i + j + l + n

/-- The player is in one of the maps. -/
def Filed (p : ℕ) (s : GameServer) : Prop := ¬ s.Lacks p

/-- A player is filed if it has more pointers than those. -/
theorem Counted.lt_iff (h : c.Counted p n) : n < c.use_count p ↔ Filed p c.server := by
  obtain ⟨i, j, l, hi, hj, hl, h⟩ := h
  have hlacks : c.server.Lacks p ↔ i = 0 ∧ j = 0 ∧ l = 0 := by
    rw [GameServer.Lacks, hi.eq_zero_iff, hj.eq_zero_iff, hl.eq_zero_iff]
  rw [Filed, hlacks, h]
  omega

theorem Counted.le (h : c.Counted p n) : n ≤ c.use_count p := by
  obtain ⟨i, j, l, -, -, -, h⟩ := h
  omega

theorem Counted.retain (h : c.Counted p n) (x : ℕ) :
    (c.retain x).Counted p (n + if p = x then 1 else 0) := by
  obtain ⟨i, j, l, hi, hj, hl, h⟩ := h
  refine ⟨i, j, l, hi, hj, hl, ?_⟩
  show Function.update c.use_count x _ p = _
  rw [Function.update_apply]
  split_ifs with hp
  · rw [← hp, h]
    omega
  · omega

/-- The last pointer to a player without a session is not destroyed. -/
theorem release_eq_some_iff : c.release x = some c' ↔
    (c.use_count x = 1 → (c.server.players x).gateSession_ ≠ none) ∧
      c' = { c with use_count := Function.update c.use_count x (c.use_count x - 1) } := by
  unfold release
  split_ifs with hlast
  · exact iff_of_false (by simp) fun h => h.1 hlast.1 hlast.2
  · rw [Option.some.injEq, eq_comm]
    exact (and_iff_right fun h => not_and.mp hlast h).symm

theorem Counted.release (h : c.Counted p (n + if p = x then 1 else 0))
    (hr : c.release x = some c') : c'.Counted p n := by
  obtain ⟨-, rfl⟩ := release_eq_some_iff.mp hr
  obtain ⟨i, j, l, hi, hj, hl, h⟩ := h
  refine ⟨i, j, l, hi, hj, hl, ?_⟩
  show Function.update c.use_count x _ p = _
  rw [Function.update_apply]
  split_ifs with hp
  · subst hp
    rw [if_pos rfl] at h
    omega
  · rw [if_neg hp] at h
    omega

/-- The pointer in the entry that is erased is one more. -/
theorem Counted.erased (h : c.Counted p n) (hx : c.entry k = some x) :
    ({ c with server := c.server.eraseKey k } : Ctrl).Counted p (n + if p = x then 1 else 0) := by
  obtain ⟨i, j, l, hi, hj, hl, h⟩ := h
  cases k with
  | id id =>
      obtain ⟨i', hi', rfl⟩ := hi.erase (show c.server.playerIdMap_ id = some x from hx)
      exact ⟨i', j, l, hi', hj, hl, h.trans (by omega)⟩
  | name name =>
      obtain ⟨j', hj', rfl⟩ := hj.erase
        (show c.server.playerNameMap_ (cString name) = some x from hx)
      exact ⟨i, j', l, hi, hj', hl, h.trans (by omega)⟩
  | clientId clientId =>
      obtain ⟨l', hl', rfl⟩ := hl.erase
        (show c.server.playerFdMap_ clientId.toUInt64 = some x from hx)
      exact ⟨i, j, l', hi, hj, hl', h.trans (by omega)⟩

theorem eraseKey_of_no_entry (h : c.entry k = none) : c.server.eraseKey k = c.server := by
  cases k with
  | id id => exact GameServer.eraseKey_of_not_found (GameServer.files_id id) h
  | name name => exact GameServer.eraseKey_of_not_found (GameServer.files_name name) h
  | clientId clientId =>
      have h : c.server.playerFdMap_ clientId.toUInt64 = none := h
      rw [GameServer.eraseKey, Table.erase_of_none h]

/-- What a part of a call leaves: maps `s`, the pointers of the callers, and the counts. -/
structure Leaves (c : Ctrl) (s : GameServer) (c' : Ctrl) : Prop where
  server : c'.server = s
  outside : c'.outside = c.outside
  counted : ∀ p n, c.Counted p n → c'.Counted p n

theorem leaves_eraseKey (h : c.eraseKey k = some c') : Leaves c (c.server.eraseKey k) c' := by
  unfold eraseKey at h
  cases hx : c.entry k with
  | none =>
      simp only [hx, Option.some.injEq] at h
      subst h
      rw [eraseKey_of_no_entry hx]
      exact ⟨rfl, rfl, fun p n hp => hp⟩
  | some x =>
      simp only [hx] at h
      have hc := release_eq_some_iff.mp h
      exact ⟨by rw [hc.2], by rw [hc.2], fun p n hp => (hp.erased hx).release h⟩

/-! ### What a call does to the maps -/

theorem delPlayer_eq (f : CtrlKey → Ctrl → Option Ctrl) (k : CtrlKey) (c : Ctrl) :
    delPlayer f k c = match c.server.found k with
      | some x => (f (GameServer.firstKey k (c.server.players x)) (c.retain x)).bind fun c₁ =>
          (f (GameServer.secondKey k (c₁.server.players x)) c₁).bind fun c₂ =>
            (c₂.eraseKey k).bind (release x)
      | none => c.eraseKey k := by
  cases k with
  | id id =>
      simp only [delPlayer, delPlayerById, GameServer.found]
      cases c.server.findPlayerById id with
      | none => rfl
      | some x => rfl
  | name name =>
      simp only [delPlayer, delPlayerByName, GameServer.found]
      cases c.server.findPlayerByName name with
      | none => rfl
      | some x => rfl
  | clientId clientId =>
      simp only [delPlayer, delPlayerByClientId, GameServer.found]
      cases c.server.findPlayerById clientId.toUInt64 with
      | none => rfl
      | some x => rfl

/-- **A call that comes back** does to the maps what `PlayerCtrl` says, and leaves every count right. -/
theorem call_maps : ∀ {n : ℕ} {k : CtrlKey} {c c' : Ctrl}, delPlayer.call n k c = some c' →
    ∃ s', GameServer.delPlayer.call n k c.server = some s' ∧ Leaves c s' c' := by
  intro n
  induction n with
  | zero =>
      intro k c c' h
      cases h
  | succ n ih =>
      intro k c c' h
      rw [Procedure.call, delPlayer_eq] at h
      rw [Procedure.call, GameServer.delPlayer_eq]
      cases hx : c.server.found k with
      | none =>
          simp only [hx] at h
          exact ⟨_, rfl, leaves_eraseKey h⟩
      | some x =>
          simp only [hx] at h
          obtain ⟨c₁, h₁, h⟩ := Option.bind_eq_some_iff.mp h
          obtain ⟨c₂, h₂, h⟩ := Option.bind_eq_some_iff.mp h
          obtain ⟨c₃, h₃, h⟩ := Option.bind_eq_some_iff.mp h
          obtain ⟨s₁, hs₁, hl₁⟩ := ih h₁
          obtain ⟨s₂, hs₂, hl₂⟩ := ih h₂
          have hl₃ := leaves_eraseKey h₃
          have hs₁ : GameServer.delPlayer.call n (GameServer.firstKey k (c.server.players x))
            c.server = some s₁ := hs₁
          rw [hl₁.server] at hs₂
          obtain ⟨-, hc'⟩ := release_eq_some_iff.mp h
          refine ⟨s₂.eraseKey k, ?_, ?_, ?_, ?_⟩
          · simp only [hs₁, hs₂, Option.bind_some]
          · rw [hc', ← hl₂.server]
            exact hl₃.server
          · rw [hc']
            exact hl₃.outside.trans (hl₂.outside.trans hl₁.outside)
          · intro p m hp
            exact (hl₃.counted p _ (hl₂.counted p _ (hl₁.counted p _ (hp.retain x)))).release h

/-! ### When a call comes back -/

theorem filed_of_shrinks {s s' : GameServer} (hs : GameServer.Shrinks s s') (h : Filed p s') :
    Filed p s := by
  have gone {κ : Type} {m m' : Table κ ℕ} (hm : ∀ key, m' key = none ∨ m' key = m key)
      (hlacks : ∀ key, m key ≠ some p) (key : κ) : m' key ≠ some p := by
    rcases hm key with e | e
    · simp [e]
    · exact e ▸ hlacks key
  intro hlacks
  refine h ⟨gone hs.ids hlacks.1, gone hs.names hlacks.2.1, ?_⟩
  exact gone hs.fds hlacks.2.2

theorem filed_of_found {s : GameServer} (h : s.found k = some x) : Filed x s := by
  intro hlacks
  cases k with
  | id id => exact hlacks.1 id h
  | name name => exact hlacks.2.1 (cString name) h
  | clientId clientId => exact hlacks.1 clientId.toUInt64 h

theorem filed_of_entry (h : c.entry k = some x) : Filed x c.server := by
  intro hlacks
  cases k with
  | id id => exact hlacks.1 id h
  | name name => exact hlacks.2.1 (cString name) h
  | clientId clientId => exact hlacks.2.2 clientId.toUInt64 h

/-- The player has no session. -/
def Null (p : ℕ) (s : GameServer) : Prop := (s.players p).gateSession_ = none

/-- Every player without a session that is filed keeps a pointer until the maps are `s'`: one outside
them, or one in them. -/
def Keeps (c : Ctrl) (s' : GameServer) : Prop :=
  ∀ p, Null p c.server → ∃ m, c.Counted p m ∧ (Filed p c.server → 0 < m ∨ Filed p s')

/-- A pointer that is not the last one is destroyed without more ado. -/
theorem release_of_kept (h : Null x c.server → ∃ m, c.Counted x (m + 1) ∧ (0 < m ∨ Filed x c.server)) :
    ∃ c', c.release x = some c' := by
  refine ⟨_, release_eq_some_iff.mpr ⟨fun hone hnull => ?_, rfl⟩⟩
  obtain ⟨m, hm, hpos | hfiled⟩ := h hnull
  · have hle := hm.le
    omega
  · have hlt := hm.lt_iff.mpr hfiled
    omega

theorem eraseKey_of_keeps (h : c.Keeps (c.server.eraseKey k)) : ∃ c', c.eraseKey k = some c' := by
  unfold eraseKey
  cases hx : c.entry k with
  | none => exact ⟨_, rfl⟩
  | some x =>
      refine release_of_kept fun hnull => ?_
      have hplayers := (GameServer.Shrinks.eraseKey k c.server).players
      obtain ⟨m, hm, hkeep⟩ := h x (by rw [Null, ← hplayers]; exact hnull)
      have herased := hm.erased hx
      rw [if_pos rfl] at herased
      exact ⟨m, herased, hkeep (filed_of_entry hx)⟩

/-- A part of a call hands on that the players are kept. -/
theorem Keeps.leaves {s s' : GameServer} (h : c.Keeps s') (hl : Leaves c s c')
    (hs : GameServer.Shrinks c.server s) : c'.Keeps s' := by
  intro p hnull
  rw [Null, hl.server, hs.players] at hnull
  obtain ⟨m, hm, hkeep⟩ := h p hnull
  refine ⟨m, hl.counted p m hm, fun hfiled => hkeep (filed_of_shrinks hs ?_)⟩
  rwa [← hl.server]

theorem Keeps.retain {s' : GameServer} (h : c.Keeps s') (x : ℕ) : (c.retain x).Keeps s' := by
  intro p hnull
  obtain ⟨m, hm, hkeep⟩ := h p hnull
  exact ⟨_, hm.retain x, fun hfiled => (hkeep hfiled).imp_left fun hpos => Nat.lt_add_right _ hpos⟩

theorem Keeps.of_shrinks {s s' : GameServer} (h : c.Keeps s') (hs : GameServer.Shrinks s s') :
    c.Keeps s := by
  intro p hnull
  obtain ⟨m, hm, hkeep⟩ := h p hnull
  exact ⟨m, hm, fun hfiled => (hkeep hfiled).imp_right (filed_of_shrinks hs)⟩

/-- **A call comes back** if it does on the maps, and no player without a session is destroyed. -/
theorem call_of_maps : ∀ {n : ℕ} {k : CtrlKey} {c : Ctrl} {s' : GameServer},
    GameServer.delPlayer.call n k c.server = some s' → c.Keeps s' →
      ∃ c', delPlayer.call n k c = some c' := by
  intro n
  induction n with
  | zero =>
      intro k c s' h
      cases h
  | succ n ih =>
      intro k c s' h hkeeps
      rw [Procedure.call, delPlayer_eq]
      cases hx : c.server.found k with
      | none =>
          rw [Procedure.call, GameServer.delPlayer_eq, hx] at h
          obtain rfl := Option.some.inj h
          exact eraseKey_of_keeps hkeeps
      | some x =>
          obtain ⟨m, s₁, s₂, hn, h₁, h₂, rfl⟩ := GameServer.call_found h hx
          obtain rfl : n = m := Nat.succ.inj hn
          have hsh₁ := (GameServer.call_shrinks h₁).1
          have hsh₂ := (GameServer.call_shrinks h₂).1
          have hsh₃ := GameServer.Shrinks.eraseKey k s₂
          -- the pointer of the call itself keeps `x`
          have hkeeps₀ := hkeeps.retain x
          obtain ⟨c₁, hc₁⟩ := ih (c := c.retain x) h₁ (hkeeps₀.of_shrinks (hsh₂.trans hsh₃))
          obtain ⟨_, h₁', hl₁⟩ := call_maps hc₁
          obtain rfl := Option.some.inj (h₁'.symm.trans h₁)
          have hkeeps₁ := hkeeps₀.leaves hl₁ hsh₁
          have hplayers : c₁.server.players = c.server.players := by rw [hl₁.server, hsh₁.players]
          rw [← hl₁.server] at h₂ hsh₂
          obtain ⟨c₂, hc₂⟩ := ih h₂ (hkeeps₁.of_shrinks hsh₃)
          obtain ⟨_, h₂', hl₂⟩ := call_maps hc₂
          obtain rfl := Option.some.inj (h₂'.symm.trans h₂)
          have hkeeps₂ := hkeeps₁.leaves hl₂ hsh₂
          rw [← hl₂.server] at hkeeps₂
          obtain ⟨c₃, hc₃⟩ := eraseKey_of_keeps hkeeps₂
          have hl₃ := leaves_eraseKey hc₃
          have hfirst : delPlayer.call n (GameServer.firstKey k (c.server.players x)) (c.retain x) =
            some c₁ := hc₁
          simp only [hfirst, Option.bind_some, hplayers, hc₂, hc₃]
          refine release_of_kept fun hnull => ?_
          rw [Null, hl₃.server, (GameServer.Shrinks.eraseKey k c₂.server).players, hl₂.server,
            hsh₂.players, hplayers] at hnull
          obtain ⟨m, hm, hkeep⟩ := hkeeps x hnull
          have hcount := hl₃.counted x _ (hl₂.counted x _ (hl₁.counted x _ (hm.retain x)))
          rw [if_pos rfl] at hcount
          refine ⟨m, hcount, ?_⟩
          rw [hl₃.server, hl₂.server]
          exact hkeep (filed_of_found hx)

/-! ### Reachable states -/

theorem Counted.addPlayerById (h : c.Counted p n) (id : UInt64) (name : Bytes) (q : ℕ) :
    (c.addPlayerById id name q).Counted p n := by
  obtain ⟨i, j, l, hi, hj, hl, h⟩ := h
  refine ⟨_, _, l, hi.emplace id q, hj.emplace name q, hl, ?_⟩
  show Function.update c.use_count q _ p = _
  rw [Function.update_apply]
  by_cases hp : p = q
  · subst hp
    simp only [if_true, true_and, Option.isNone_iff_eq_none]
    omega
  · simp only [hp, if_false, false_and]
    omega

theorem Counted.makePlayer (h : c.Counted p n) (hp : p ≠ c.server.made) (player : Player) :
    (c.makePlayer player).Counted p n := by
  obtain ⟨i, j, l, hi, hj, hl, h⟩ := h
  exact ⟨i, j, l, hi, hj, hl, (Function.update_of_ne hp _ _).trans h⟩

/-- A player that has just been made has one pointer. -/
theorem Counted.made (h : c.Counted c.server.made n) (hfresh : c.use_count c.server.made = 0)
    (player : Player) : (c.makePlayer player).Counted c.server.made 1 := by
  obtain ⟨i, j, l, hi, hj, hl, h⟩ := h
  refine ⟨i, j, l, hi, hj, hl, ?_⟩
  rw [hfresh] at h
  show Function.update c.use_count _ 1 _ = _
  rw [Function.update_self]
  omega

/-- The pointers to a player are those in the maps and those of the callers. -/
structure Inv (c : Ctrl) : Prop where
  unfiled : c.server.playerFdMap_ = .empty
  counted : ∀ p, c.Counted p (c.outside p)
  fresh : ∀ p, c.server.made ≤ p → c.use_count p = 0

namespace Inv

theorem lt_made (h : Inv c) (hp : 0 < c.use_count p) : p < c.server.made := by
  by_contra hle
  have hzero := h.fresh p (Nat.le_of_not_lt hle)
  omega

theorem of_outside (h : Inv c) (hp : 0 < c.outside p) : 0 < c.use_count p :=
  hp.trans_le (h.counted p).le

theorem makePlayer (h : Inv c) (player : Player) : Inv (c.makePlayer player) where
  unfiled := h.unfiled
  counted q := by
    show (c.makePlayer player).Counted q (Function.update c.outside c.server.made 1 q)
    rw [Function.update_apply]
    split_ifs with hq
    · subst hq
      exact (h.counted _).made (h.fresh _ le_rfl) player
    · exact (h.counted q).makePlayer hq player
  fresh q hq := by
    have hq : c.server.made + 1 ≤ q := hq
    exact (Function.update_of_ne (by omega) _ _).trans (h.fresh q (by omega))

theorem addPlayerById (h : Inv c) (hp : p < c.server.made) (id : UInt64) (name : Bytes) :
    Inv (c.addPlayerById id name p) where
  unfiled := h.unfiled
  counted q := (h.counted q).addPlayerById id name p
  fresh q hq := by
    have hq : c.server.made ≤ q := hq
    exact (Function.update_of_ne (by omega) _ _).trans (h.fresh q hq)

theorem copy (h : Inv c) (hp : 0 < c.use_count p) :
    Inv { c.retain p with outside := Function.update c.outside p (c.outside p + 1) } where
  unfiled := h.unfiled
  counted q := by
    have hq := (h.counted q).retain p
    show (c.retain p).Counted q (Function.update c.outside p _ q)
    rw [Function.update_apply]
    split_ifs with hqp
    · subst hqp
      simpa using hq
    · simpa [hqp] using hq
  fresh q hq := by
    have hlt := h.lt_made hp
    have hq : c.server.made ≤ q := hq
    exact (Function.update_of_ne (by omega) _ _).trans (h.fresh q hq)

theorem drop (h : Inv c) (hp : 0 < c.outside p)
    (hr : ({ c with outside := Function.update c.outside p (c.outside p - 1) } : Ctrl).release p =
      some c') : Inv c' := by
  have hcount := fun q n (hq : ({ c with outside := Function.update c.outside p (c.outside p - 1) } :
    Ctrl).Counted q (n + if q = p then 1 else 0)) => hq.release hr
  have hlt := h.lt_made (h.of_outside hp)
  obtain ⟨-, rfl⟩ := release_eq_some_iff.mp hr
  refine ⟨h.unfiled, fun q => hcount q _ ?_, fun q hq => ?_⟩
  · show c.Counted q (Function.update c.outside p _ q + _)
    rw [Function.update_apply]
    split_ifs with hqp
    · subst hqp
      rw [Nat.sub_add_cancel hp]
      exact h.counted q
    · exact h.counted q
  · have hq : c.server.made ≤ q := hq
    exact (Function.update_of_ne (by omega) _ _).trans (h.fresh q hq)

end Inv

theorem inv_of_run {events : List CtrlEvent} (h : ctrlMachine.run events = some c) : Inv c := by
  refine ctrlMachine.invariant (P := Inv) ?_ ?_ ⟨events, h⟩
  · exact ⟨rfl, fun p => ⟨0, 0, 0, Table.count_empty p, Table.count_empty p, Table.count_empty p, rfl⟩,
      fun p _ => rfl⟩
  · intro c e c' hc hs
    cases e with
    | makePlayer player =>
        obtain rfl := Option.some.inj hs
        exact hc.makePlayer player
    | addPlayer clientId gateSession =>
        obtain rfl := Option.some.inj hs
        exact (hc.makePlayer _).addPlayerById (Nat.lt_succ_self _) _ _
    | addPlayerById id name p =>
        change (if 0 < c.outside p then some (c.addPlayerById id name p) else none) = some c' at hs
        split_ifs at hs with hp
        obtain rfl := Option.some.inj hs
        exact hc.addPlayerById (hc.lt_made (hc.of_outside hp)) id name
    | copy p =>
        change (if 0 < c.use_count p then
          some { c.retain p with outside := Function.update c.outside p (c.outside p + 1) }
          else none) = some c' at hs
        split_ifs at hs with hp
        obtain rfl := Option.some.inj hs
        exact hc.copy hp
    | drop p =>
        change (if 0 < c.outside p then
          ({ c with outside := Function.update c.outside p (c.outside p - 1) } : Ctrl).release p
          else none) = some c' at hs
        split_ifs at hs with hp
        exact hc.drop hp hs

/-! ### The exact condition -/

/-- `delPlayer` comes back, the player found under the key is in no map, and every other player is
still found wherever it was. -/
def Deletes (k : CtrlKey) (c : Ctrl) : Prop :=
  ∃ n c', delPlayer.call n k c = some c' ∧ (∀ x, c.server.found k = some x → c'.server.Lacks x) ∧
    ∀ y, c.server.found k ≠ some y → GameServer.StillFound y c.server c'.server

theorem filed_of_stillFound {y : ℕ} {s s' : GameServer} (h : GameServer.StillFound y s s')
    (hf : Filed y s) : Filed y s' := by
  intro hlacks
  refine hf ⟨fun id hid => hlacks.1 id (h.ids id hid), fun name hn => ?_, fun key hkey => ?_⟩
  · exact hlacks.2.1 name (h.names name hn)
  · exact hlacks.2.2 key (h.fds key hkey)

/-- A call that takes `x` out of the maps, and comes back, has not destroyed a player without a
session: a caller has a pointer to it. -/
theorem outside_of_call (h : Inv c) {n : ℕ} (hcall : delPlayer.call n k c = some c')
    (hx : c.server.found k = some x) (hlacks : c'.server.Lacks x) (hnull : Null x c.server) :
    0 < c.outside x := by
  cases n with
  | zero => cases hcall
  | succ n =>
      rw [Procedure.call, delPlayer_eq, hx] at hcall
      obtain ⟨c₁, h₁, hcall⟩ := Option.bind_eq_some_iff.mp hcall
      obtain ⟨c₂, h₂, hcall⟩ := Option.bind_eq_some_iff.mp hcall
      obtain ⟨c₃, h₃, hcall⟩ := Option.bind_eq_some_iff.mp hcall
      obtain ⟨s₁, hs₁, hl₁⟩ := call_maps h₁
      obtain ⟨s₂, hs₂, hl₂⟩ := call_maps h₂
      have hl₃ := leaves_eraseKey h₃
      have hcount := hl₃.counted x _ (hl₂.counted x _ (hl₁.counted x _ ((h.counted x).retain x)))
      rw [if_pos rfl] at hcount
      obtain ⟨hlast, rfl⟩ := release_eq_some_iff.mp hcall
      by_contra hzero
      -- the pointer of the call is the last one
      have hfiled : ¬ Filed x c₃.server := not_not.mpr hlacks
      have hone : c₃.use_count x = 1 := by
        have hle := hcount.le
        have hlt := mt hcount.lt_iff.mp hfiled
        omega
      refine hlast hone ?_
      rw [hl₃.server, (GameServer.Shrinks.eraseKey k c₂.server).players, hl₂.server,
        (GameServer.call_shrinks hs₂).1.players, hl₁.server, (GameServer.call_shrinks hs₁).1.players]
      exact hnull

/-- **When `delPlayer` works**: for a key with a player under it, if and only if the player has no
entries but those that the call erases, no call on the way finds another player or comes back to
where it has been, and the player has a gate session or a caller keeps a pointer to it. -/
theorem deletes_iff {events : List CtrlEvent} (h : ctrlMachine.run events = some c) (k : CtrlKey) :
    c.Deletes k ↔ ∀ x, c.server.found k = some x → c.server.Deletable k x ∧
      ((c.server.players x).gateSession_ = none → 0 < c.outside x) := by
  have hinv := inv_of_run h
  constructor
  · rintro ⟨n, c', hcall, hlacks, hothers⟩ x hx
    obtain ⟨s', hs', hl⟩ := call_maps hcall
    rw [hl.server] at hlacks hothers
    refine ⟨(GameServer.deletes_iff_deletable hinv.unfiled hx).mp ⟨n, s', hs', hlacks, hothers⟩, ?_⟩
    exact outside_of_call hinv hcall hx (by rw [hl.server]; exact hlacks x hx)
  · intro hdel
    obtain ⟨n, s', hs', hlacks, hothers⟩ : c.server.Deletes k := by
      cases hx : c.server.found k with
      | none => exact GameServer.deletes_of_not_found hinv.unfiled hx
      | some x => exact (GameServer.deletes_iff_deletable hinv.unfiled hx).mpr (hdel x hx).1
    have hkeeps : c.Keeps s' := by
      intro p hnull
      refine ⟨_, hinv.counted p, fun hfiled => ?_⟩
      by_cases hp : c.server.found k = some p
      · exact .inl ((hdel p hp).2 hnull)
      · exact .inr (filed_of_stillFound (hothers p hp) hfiled)
    obtain ⟨c', hc'⟩ := call_of_maps hs' hkeeps
    obtain ⟨_, hs'', hl⟩ := call_maps hc'
    obtain rfl := Option.some.inj (hs''.symm.trans hs')
    exact ⟨n, c', hc', by rw [hl.server]; exact hlacks, by rw [hl.server]; exact hothers⟩

/-- The only client of a gate is deleted by the key that it is filed under. -/
theorem deletes_only_client :
    ∃ c, ctrlMachine.run [.addPlayer 1 7, .drop 0] = some c ∧ c.Deletes (.id (makeKey 1 7)) := by
  obtain ⟨c, hrun, hserver⟩ : ∃ c, ctrlMachine.run [.addPlayer 1 7, .drop 0] = some c ∧
      c.server = (gameMachine.init.addPlayer 1 7).2 := ⟨_, rfl, rfl⟩
  refine ⟨c, hrun, (deletes_iff hrun _).mpr ?_⟩
  rw [hserver]
  have single {κ : Type} [DecidableEq κ] (key key' : κ) (x : ℕ) :
      (Table.empty.emplace key 0 : Table κ ℕ) key' = some x → key' = key := by
    intro h
    rw [Table.emplace_of_none (Table.empty_apply key)] at h
    rcases Table.set_eq_some.mp h with h | h
    · exact h.1
    · cases h.2
  intro x hx
  obtain rfl : 0 = x := Option.some.inj (by rw [← hx]; decide)
  refine ⟨⟨?_, ⟨fun id' => single _ id' 0, fun name' => single _ name' 0⟩, ?_⟩, ?_⟩
  · intro y hy
    cases (single _ _ _ hy : (1 : UInt32).toUInt64 = makeKey 1 7)
  · exact .inr ⟨by decide, by decide⟩
  · intro hnull
    cases hnull

/-- Two clients of a gate are both filed under the empty name, which the first of them has.  Deleting
the second one takes it away.  And a player `bob` with the id 9 is filed under the id 5: the call
finds it in both maps and takes it out of them, and destroys it with a call through its null
session. -/
theorem second_client_not_deleted :
    (∃ c, ctrlMachine.run [.addPlayer 1 7, .addPlayer 2 7] = some c ∧
      ¬ c.Deletes (.id (makeKey 2 7))) ∧
    ∃ c, ctrlMachine.run [.makePlayer (.named 9 [98, 111, 98]), .addPlayerById 5 [98, 111, 98] 0,
      .drop 0] = some c ∧ ¬ c.Deletes (.id 5) := by
  constructor
  · obtain ⟨c, hrun, hserver⟩ : ∃ c, ctrlMachine.run [.addPlayer 1 7, .addPlayer 2 7] = some c ∧
        c.server = ((gameMachine.init.addPlayer 1 7).2.addPlayer 2 7).2 := ⟨_, rfl, rfl⟩
    refine ⟨c, hrun, ?_⟩
    rintro ⟨n, c', hcall, hlacks, hothers⟩
    obtain ⟨s', hs', hl⟩ := call_maps hcall
    rw [hl.server] at hlacks hothers
    have hfound : c.server.found (.id (makeKey 2 7)) = some 1 := by
      rw [hserver]
      decide
    have hx := (GameServer.deletes_iff_deletable (inv_of_run hrun).unfiled hfound).mp
      ⟨n, s', hs', hlacks, hothers⟩
    rw [hserver] at hx
    rcases hx.2.2 with hname | ⟨hname, -⟩
    · revert hname
      decide
    · revert hname
      decide
  · obtain ⟨c, hrun, hfound, hnull, hout⟩ : ∃ c, ctrlMachine.run
        [.makePlayer (.named 9 [98, 111, 98]), .addPlayerById 5 [98, 111, 98] 0, .drop 0] = some c ∧
        c.server.found (.id 5) = some 0 ∧ Null 0 c.server ∧ c.outside 0 = 0 :=
      ⟨_, rfl, rfl, rfl, rfl⟩
    refine ⟨c, hrun, ?_⟩
    rintro ⟨n, c', hcall, hlacks, -⟩
    have hpos := outside_of_call (inv_of_run hrun) hcall hfound (hlacks 0 hfound) hnull
    omega

end Ctrl

end BlackSwan.Game
