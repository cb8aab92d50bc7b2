import BlackSwan.Packet
import BlackSwan.Runs
import Mathlib.Data.List.AList

/-! # The chat room

The chat server (`example/chat_server/main.cpp`).  The readers of the sessions put what they receive
into `message_list`; the main thread takes the list away and broadcasts one message after the other,
each to a copy of the table of the sessions.  Sessions join and leave at any time, also while a
message is being sent.

* A session is its number, in the order in which the listener has made them.
* Every section under a lock is a step, and so is every call of `send` in `broadcast`, which comes to
  the sessions of its copy in some order.
* `joined` has the number of messages that were broadcast before each session joined, `left` the
  sessions that have left; `handled`, `broadcasts` and `sent` are histories.

`broadcast_in_order` is what makes it one room: there is one order of the messages, which is the order
in which they were received, and each session is sent an uninterrupted piece of it, from the message
after its `join` on. -/

namespace BlackSwan.Chat

open Wire Runs

def CHAT_REQ : UInt32 := 3
def CHAT_RESP : UInt32 := 4

/-- The `fd` of a session. -/
def fdOf (k : ℕ) : UInt32 := UInt32.ofNat (k + 1)

/-- `std::unordered_map<uint32_t, SessionPtr>`. -/
abbrev SessionMap := AList fun _ : UInt32 => ℕ

namespace SessionMap

def emplace (fd : UInt32) (k : ℕ) (m : SessionMap) : SessionMap :=
  if (m.lookup fd).isSome then m else m.insert fd k

/-- The sessions that a loop over the map comes to. -/
def sessions (m : SessionMap) : List ℕ := m.entries.map Sigma.snd

end SessionMap

/-- Where the main thread is. -/
inductive ChatMain where
  /-- in its loop -/
  | running
  /-- in the loop of `ChatRoom::stop` -/
  | stopping (curr_sessions : List ℕ)
deriving DecidableEq, Repr

structure ChatRoom where
  session_map_ : SessionMap
  /-- what was received, with the sender -/
  message_list : List (ℕ × Bytes)
  main : ChatMain
  /-- what the main thread has still to broadcast -/
  current_messages : List (ℕ × Bytes)
  /-- the message in `broadcast` -/
  msg : Bytes
  /-- the calls of `send` that `broadcast` has still to make -/
  curr_sessions : List ℕ
  /-- the flag of the signal handler -/
  stop : Bool
  joined : List ℕ
  left : List ℕ
  handled : List (ℕ × Bytes)
  broadcasts : List (ℕ × Bytes)
  /-- the messages whose packets were given to `send` -/
  sent : ℕ → List ClientMsg

/-- A message as it is sent to the sessions. -/
def resp (msg : Bytes) : ClientMsg := (CHAT_RESP, msg)

namespace ChatRoom

/-- The accept handler: `ChatRoom::join`, for the next session. -/
def join (s : ChatRoom) : ChatRoom :=
  { s with
    session_map_ := s.session_map_.emplace (fdOf s.joined.length) s.joined.length
    joined := s.joined ++ [s.broadcasts.length] }

/-- The disconnect handler: `ChatRoom::leave`. -/
def leave (k : ℕ) (s : ChatRoom) : ChatRoom :=
  { s with session_map_ := s.session_map_.erase (fdOf k), left := s.left ++ [k] }

/-- `handleMessage`. -/
def handleMessage (k : ℕ) (data_view : Bytes) (s : ChatRoom) : ChatRoom :=
  { s with
    message_list := s.message_list ++ [(k, data_view)]
    handled := s.handled ++ [(k, data_view)] }

/-- The head of the main thread's loop: it ends, with the lock of `ChatRoom::stop`, or takes the list
away. -/
def poll (s : ChatRoom) : ChatRoom :=
  if s.stop then
    { s with session_map_ := ∅, main := .stopping s.session_map_.sessions }
  else { s with current_messages := s.message_list, message_list := [] }

/-- `ChatRoom::broadcast`, up to its loop. -/
def broadcast (message : ℕ × Bytes) (s : ChatRoom) : ChatRoom :=
  { s with
    msg := message.2
    curr_sessions := s.session_map_.sessions
    broadcasts := s.broadcasts ++ [message] }

/-- The loop of `ChatRoom::broadcast`, when it is at the session number `n` of those that are left. -/
def sendNext (n : ℕ) (s : ChatRoom) : Option (ℕ × ChatRoom) :=
  s.curr_sessions[n]?.map fun k => (k, { s with
    curr_sessions := s.curr_sessions.eraseIdx n
    sent := Function.update s.sent k (s.sent k ++ [resp s.msg]) })

end ChatRoom

inductive RoomEvent where
  | join
  | leave (k : ℕ)
  | handleMessage (k : ℕ) (data_view : Bytes)
  | poll
  | broadcast
  | sendNext (n : ℕ)
  /-- SIGINT or SIGTERM -/
  | signal
  /-- `ChatRoom::stop` stops the next session -/
  | stopNext
deriving DecidableEq, Repr

def ChatRoom.step (s : ChatRoom) : RoomEvent → Option ChatRoom
  | .join => some s.join
  | .leave k => if k < s.joined.length then some (s.leave k) else none
  | .handleMessage k data_view =>
      if k < s.joined.length then some (s.handleMessage k data_view) else none
  | .poll =>
      if s.main = .running ∧ s.curr_sessions = [] ∧ s.current_messages = [] then some s.poll else none
  | .broadcast =>
      if s.main = .running ∧ s.curr_sessions = [] then
        match s.current_messages with
        | [] => none
        | message :: rest => some (({ s with current_messages := rest } : ChatRoom).broadcast message)
      else none
  | .sendNext n => (s.sendNext n).map Prod.snd
  | .signal => some { s with stop := true }
  | .stopNext =>
      match s.main with
      | .stopping (_ :: rest) => some { s with main := .stopping rest }
      | _ => none

def roomMachine : Machine ChatRoom RoomEvent where
  init := {
    session_map_ := ∅, message_list := [], main := .running, current_messages := [], msg := []
    curr_sessions := [], stop := false, joined := [], left := [], handled := [], broadcasts := []
    sent := fun _ => [] }
  step := ChatRoom.step

/-! ### The table of the sessions -/

namespace SessionMap

variable {m : SessionMap} {fd fd' : UInt32} {k k' : ℕ}

theorem mem_sessions : k ∈ m.sessions ↔ ∃ fd, m.lookup fd = some k := by
  simp only [sessions, List.mem_map, Sigma.exists]
  constructor
  · rintro ⟨fd, k', hmem, rfl⟩
    exact ⟨fd, AList.mem_lookup_iff.mpr hmem⟩
  · rintro ⟨fd, hfd⟩
    exact ⟨fd, k, AList.mem_lookup_iff.mp hfd, rfl⟩

theorem lookup_emplace (h : (m.emplace fd k).lookup fd' = some k') :
    m.lookup fd' = some k' ∨ fd' = fd ∧ k' = k := by
  unfold emplace at h
  split_ifs at h with hsome
  · exact .inl h
  · by_cases hfd : fd' = fd
    · subst hfd
      rw [AList.lookup_insert] at h
      exact .inr ⟨rfl, (Option.some.inj h).symm⟩
    · rw [AList.lookup_insert_ne hfd] at h
      exact .inl h

theorem lookup_erase (h : AList.lookup fd' (AList.erase fd m) = some k') :
    fd' ≠ fd ∧ m.lookup fd' = some k' := by
  by_cases hfd : fd' = fd
  · subst hfd
    rw [AList.lookup_erase] at h
    exact absurd h (by simp)
  · exact ⟨hfd, by rwa [AList.lookup_erase_ne hfd] at h⟩

/-- Every session of the map is under its own `fd`. -/
theorem nodup_sessions (h : ∀ fd k, m.lookup fd = some k → fd = fdOf k) : m.sessions.Nodup := by
  refine List.Nodup.map_on ?_ (List.NodupKeys.nodup m.nodupKeys)
  rintro ⟨fd, k⟩ hx ⟨fd', k'⟩ hy hk
  obtain rfl : k = k' := hk
  have hfd := h fd k (AList.mem_lookup_iff.mpr hx)
  have hfd' := h fd' k (AList.mem_lookup_iff.mpr hy)
  rw [hfd, hfd']

end SessionMap

theorem fdOf_injective {k k' : ℕ} (hk : k < 2 ^ 32) (hk' : k' < 2 ^ 32) (h : fdOf k = fdOf k') :
    k = k' := by
  have heq := congrArg UInt32.toNat h
  simp only [fdOf, UInt32.toNat_ofNat'] at heq
  omega

/-! ### What a session is sent -/

namespace ChatRoom

variable {s s' : ChatRoom}

/-- What `broadcast` has still to send to a session. -/
def due (s : ChatRoom) (k : ℕ) : List ClientMsg := if k ∈ s.curr_sessions then [resp s.msg] else []

/-- The messages after the first `b`, as they are sent. -/
def since (s : ChatRoom) (b : ℕ) : List ClientMsg := (s.broadcasts.drop b).map fun m => resp m.2

theorem due_of_nil (h : s.curr_sessions = []) (k : ℕ) : s.due k = [] := by simp [due, h]

theorem since_snoc {b : ℕ} (hb : b ≤ s.broadcasts.length) {message : ℕ × Bytes}
    (h : s'.broadcasts = s.broadcasts ++ [message]) :
    s'.since b = s.since b ++ [resp message.2] := by
  rw [since, h, List.drop_append_of_le_length hb, List.map_append]
  rfl

/-- The invariant. -/
structure Told (s : ChatRoom) : Prop where
  order : s.handled = s.broadcasts ++ s.current_messages ++ s.message_list
  filed : ∀ fd k, s.session_map_.lookup fd = some k → fd = fdOf k ∧ k < s.joined.length
  nodup : s.curr_sessions.Nodup
  called : ∀ k ∈ s.curr_sessions, k < s.joined.length
  began : ∀ (k b : ℕ), s.joined[k]? = some b → b ≤ s.broadcasts.length
  /-- nobody is sent anything before its `join` -/
  silent : ∀ k, s.joined.length ≤ k → s.sent k = []
  heard : ∀ (k b : ℕ), s.joined[k]? = some b → s.sent k ++ s.due k <+: s.since b
  /-- a session of the table has missed nothing -/
  whole : ∀ (k b : ℕ), s.joined[k]? = some b → s.session_map_.lookup (fdOf k) = some k →
    s.sent k ++ s.due k = s.since b
  /-- who has not left is in the table, as long as no `fd` is given out twice -/
  present : s.main = .running → s.joined.length ≤ 2 ^ 32 → ∀ k < s.joined.length, k ∉ s.left →
    s.session_map_.lookup (fdOf k) = some k
  saying : s.curr_sessions ≠ [] → ∃ k, (k, s.msg) ∈ s.broadcasts

namespace Told

theorem join (h : Told s) : Told s.join := by
  have hlen : s.join.joined.length = s.joined.length + 1 := by simp [ChatRoom.join]
  have hbegan (k b : ℕ) (hk : s.join.joined[k]? = some b) :
      s.joined[k]? = some b ∨ k = s.joined.length ∧ b = s.broadcasts.length := by
    rcases Nat.lt_trichotomy k s.joined.length with hlt | rfl | hgt
    · exact .inl (by simpa [ChatRoom.join, List.getElem?_append_left hlt] using hk)
    · exact .inr ⟨rfl, by simpa [ChatRoom.join] using hk.symm⟩
    · have hnone : s.join.joined[k]? = none := List.getElem?_eq_none (by omega)
      exact absurd (hnone.symm.trans hk) (by simp)
  have hnew : s.sent s.joined.length ++ s.due s.joined.length = [] := by
    rw [h.silent _ (le_refl _), due, if_neg fun hmem => absurd (h.called _ hmem) (Nat.lt_irrefl _)]
    rfl
  refine ⟨h.order, fun fd k hk => ?_, h.nodup, fun k hk => ?_, fun k b hk => ?_, fun k hk => ?_,
    fun k b hk => ?_, fun k b hk hfile => ?_, fun hrun hle k hk hleft => ?_, h.saying⟩
  · obtain hk | ⟨rfl, rfl⟩ := SessionMap.lookup_emplace hk
    · obtain ⟨hfd, hlt⟩ := h.filed fd k hk
      exact ⟨hfd, by omega⟩
    · exact ⟨rfl, by omega⟩
  · have := h.called k hk
    omega
  · obtain hk | ⟨-, rfl⟩ := hbegan k b hk
    · exact h.began k b hk
    · exact le_refl _
  · exact h.silent k (by omega)
  · obtain hk | ⟨rfl, rfl⟩ := hbegan k b hk
    · exact h.heard k b hk
    · show s.sent s.joined.length ++ s.due s.joined.length <+: s.since s.broadcasts.length
      rw [hnew]
      exact List.nil_prefix
  · obtain hk | ⟨rfl, rfl⟩ := hbegan k b hk
    · refine h.whole k b hk ?_
      obtain hold | ⟨-, rfl⟩ := SessionMap.lookup_emplace hfile
      · exact hold
      · exact absurd hk (by simp)
    · show s.sent s.joined.length ++ s.due s.joined.length = s.since s.broadcasts.length
      rw [hnew, ChatRoom.since, List.drop_length]
      rfl
  · rw [hlen] at hle hk
    have hfree : s.session_map_.lookup (fdOf s.joined.length) = none := by
      by_contra hne
      obtain ⟨k', hk'⟩ := Option.ne_none_iff_exists'.mp hne
      obtain ⟨hfd, hlt⟩ := h.filed _ k' hk'
      exact absurd (fdOf_injective (by omega) (by omega) hfd) (by omega)
    show (s.session_map_.emplace (fdOf s.joined.length) s.joined.length).lookup (fdOf k) = some k
    rw [SessionMap.emplace, hfree, if_neg (by simp)]
    by_cases hnewk : k = s.joined.length
    · rw [hnewk, AList.lookup_insert]
    · rw [AList.lookup_insert_ne fun hfd => hnewk (fdOf_injective (by omega) (by omega) hfd)]
      exact h.present hrun (by omega) k (by omega) hleft

theorem leave (h : Told s) {k : ℕ} (hk : k < s.joined.length) : Told (s.leave k) where
  order := h.order
  filed fd k' hk' := h.filed fd k' (SessionMap.lookup_erase hk').2
  nodup := h.nodup
  called := h.called
  began := h.began
  silent := h.silent
  heard := h.heard
  whole k' b hb hk' := h.whole k' b hb (SessionMap.lookup_erase hk').2
  present hrun hle k' hk' hleft := by
    have hleft' : k' ∉ s.left ++ [k] := hleft
    simp only [List.mem_append, List.mem_singleton, not_or] at hleft'
    have hfile := h.present hrun hle k' hk' hleft'.1
    show (s.session_map_.erase (fdOf k)).lookup (fdOf k') = some k'
    rw [AList.lookup_erase_ne ?_]
    · exact hfile
    · intro hfd
      rw [hfd] at hfile
      have hle' : s.joined.length ≤ 2 ^ 32 := hle
      have hlt : k' < s.joined.length := hk'
      exact hleft'.2 (fdOf_injective (by omega) (by omega) hfd)
  saying := h.saying

theorem handleMessage (h : Told s) (k : ℕ) (data_view : Bytes) :
    Told (s.handleMessage k data_view) where
  order := by
    show s.handled ++ _ = s.broadcasts ++ s.current_messages ++ (s.message_list ++ _)
    rw [h.order, List.append_assoc]
  filed := h.filed
  nodup := h.nodup
  called := h.called
  began := h.began
  silent := h.silent
  heard := h.heard
  whole := h.whole
  present := h.present
  saying := h.saying

theorem poll (h : Told s) (hcurr : s.current_messages = []) : Told s.poll := by
  unfold ChatRoom.poll
  split_ifs
  · refine ⟨h.order, fun fd k hk => ?_, h.nodup, h.called, h.began, h.silent, h.heard,
      fun k b _ hk => ?_, fun hrun => ?_, h.saying⟩
    · exact absurd hk (by simp)
    · exact absurd hk (by simp)
    · exact absurd hrun (by simp)
  · refine ⟨?_, h.filed, h.nodup, h.called, h.began, h.silent, h.heard, h.whole, h.present,
      h.saying⟩
    show s.handled = s.broadcasts ++ s.message_list ++ []
    rw [h.order, hcurr, List.append_nil, List.append_nil]

/-- The next message is for everybody in the table, and for nobody else. -/
theorem broadcast (h : Told s) {message : ℕ × Bytes} {rest : List (ℕ × Bytes)}
    (hdone : s.curr_sessions = []) (hcurr : s.current_messages = message :: rest) :
    Told (({ s with current_messages := rest } : ChatRoom).broadcast message) := by
  generalize hs' : ({ s with current_messages := rest } : ChatRoom).broadcast message = s'
  have hb : s'.broadcasts = s.broadcasts ++ [message] := by rw [← hs']; rfl
  have hj : s'.joined = s.joined := by rw [← hs']; rfl
  have hsent : s'.sent = s.sent := by rw [← hs']; rfl
  have hmap : s'.session_map_ = s.session_map_ := by rw [← hs']; rfl
  have hmem (k : ℕ) : k ∈ s'.curr_sessions ↔ s.session_map_.lookup (fdOf k) = some k := by
    rw [← hs']
    refine SessionMap.mem_sessions.trans ⟨?_, fun hk => ⟨_, hk⟩⟩
    rintro ⟨fd, hfd⟩
    rwa [← (h.filed fd k hfd).1]
  have hdue (k : ℕ) : s'.due k =
      if s.session_map_.lookup (fdOf k) = some k then [resp message.2] else [] := by
    rw [due, show s'.msg = message.2 by rw [← hs']; rfl]
    simp only [hmem]
  refine ⟨?_, by rw [hmap, hj]; exact h.filed, ?_, fun k hk => ?_, fun k b hk => ?_, ?_,
    fun k b hk => ?_, fun k b hk hfile => ?_, by rw [← hs']; exact h.present,
    fun _ => ⟨message.1, by rw [← hs']; exact List.mem_append_right _ (List.mem_singleton.mpr rfl)⟩⟩
  · rw [← hs']
    show s.handled = s.broadcasts ++ [message] ++ rest ++ s.message_list
    rw [h.order, hcurr, List.append_assoc, List.append_assoc, List.append_assoc]
    rfl
  · rw [← hs']
    exact SessionMap.nodup_sessions fun fd k hk => (h.filed fd k hk).1
  · rw [hj]
    exact (h.filed _ k ((hmem k).mp hk)).2
  · rw [hj] at hk
    rw [hb, List.length_append]
    exact Nat.le_trans (h.began k b hk) (Nat.le_add_right _ _)
  · rw [hj, hsent]
    exact h.silent
  · rw [hj] at hk
    rw [hsent, hdue, since_snoc (h.began k b hk) hb]
    split_ifs with hfile
    · have hwhole := h.whole k b hk hfile
      rw [due_of_nil hdone, List.append_nil] at hwhole
      simp only [hwhole, List.prefix_rfl]
    · have hheard := h.heard k b hk
      rw [due_of_nil hdone, List.append_nil] at hheard
      rw [List.append_nil]
      exact hheard.trans (List.prefix_append _ _)
  · rw [hj] at hk
    rw [hmap] at hfile
    have hwhole := h.whole k b hk hfile
    rw [due_of_nil hdone, List.append_nil] at hwhole
    rw [hsent, hdue, if_pos hfile, since_snoc (h.began k b hk) hb, hwhole]

/-- A call of `send` pays what is due. -/
theorem sendNext (h : Told s) {n k : ℕ} (hs : s.sendNext n = some (k, s')) : Told s' := by
  obtain ⟨k', hk', heq⟩ := Option.map_eq_some_iff.mp hs
  obtain ⟨rfl, rfl⟩ := Prod.mk.inj heq
  obtain ⟨hn, hget⟩ := List.getElem?_eq_some_iff.mp hk'
  have hmem : k' ∈ s.curr_sessions := hget ▸ List.getElem_mem hn
  have hsub : (s.curr_sessions.eraseIdx n).Sublist s.curr_sessions := List.eraseIdx_sublist _ _
  have hrest (x : ℕ) : x ∈ s.curr_sessions.eraseIdx n ↔ x ∈ s.curr_sessions ∧ x ≠ k' := by
    rw [List.mem_eraseIdx_iff_getElem?]
    constructor
    · rintro ⟨i, hne, hx⟩
      obtain ⟨hi, rfl⟩ := List.getElem?_eq_some_iff.mp hx
      refine ⟨List.getElem_mem hi, fun heq => hne ?_⟩
      exact h.nodup.getElem_inj_iff.mp (heq.trans hget.symm)
    · rintro ⟨hx, hne⟩
      obtain ⟨i, hi, rfl⟩ := List.getElem_of_mem hx
      refine ⟨i, ?_, List.getElem?_eq_getElem hi⟩
      rintro rfl
      exact hne hget
  have hpaid (x : ℕ) : Function.update s.sent k' (s.sent k' ++ [resp s.msg]) x ++
      (if x ∈ s.curr_sessions.eraseIdx n then [resp s.msg] else []) = s.sent x ++ s.due x := by
    by_cases hx : x = k'
    · subst hx
      rw [Function.update_self, if_neg fun hx => ((hrest x).mp hx).2 rfl, due, if_pos hmem,
        List.append_nil]
    · rw [Function.update_of_ne hx, due]
      by_cases hmem' : x ∈ s.curr_sessions
      · rw [if_pos ((hrest x).mpr ⟨hmem', hx⟩), if_pos hmem']
      · rw [if_neg fun hx' => hmem' ((hrest x).mp hx').1, if_neg hmem']
  refine ⟨h.order, h.filed, hsub.nodup h.nodup, fun x hx => h.called x (hsub.subset hx), h.began,
    fun x hx => ?_, fun x b hb => ?_, fun x b hb hfile => ?_, h.present,
    fun _ => h.saying (List.ne_nil_of_mem hmem)⟩
  · have hne : x ≠ k' := by
      rintro rfl
      exact absurd (h.called x hmem) (Nat.not_lt.mpr hx)
    show Function.update s.sent k' _ x = []
    rw [Function.update_of_ne hne]
    exact h.silent x hx
  · exact (hpaid x).symm ▸ h.heard x b hb
  · exact (hpaid x).trans (h.whole x b hb hfile)

theorem step {e : RoomEvent} (h : Told s) (hs : s.step e = some s') : Told s' := by
  cases e with
  | join => exact Option.some.inj hs ▸ h.join
  | leave k =>
      rw [ChatRoom.step] at hs
      split_ifs at hs with hk
      exact Option.some.inj hs ▸ h.leave hk
  | handleMessage k data_view =>
      rw [ChatRoom.step] at hs
      split_ifs at hs
      exact Option.some.inj hs ▸ h.handleMessage k data_view
  | poll =>
      rw [ChatRoom.step] at hs
      split_ifs at hs with hidle
      exact Option.some.inj hs ▸ h.poll hidle.2.2
  | broadcast =>
      rw [ChatRoom.step] at hs
      split_ifs at hs with hidle
      split at hs
      · cases hs
      · next message rest hcurr => exact Option.some.inj hs ▸ h.broadcast hidle.2 hcurr
  | sendNext n =>
      obtain ⟨⟨k, s₁⟩, hs₁, rfl⟩ := Option.map_eq_some_iff.mp hs
      exact h.sendNext hs₁
  | signal =>
      obtain rfl := Option.some.inj hs
      exact ⟨h.order, h.filed, h.nodup, h.called, h.began, h.silent, h.heard, h.whole, h.present,
        h.saying⟩
  | stopNext =>
      rw [ChatRoom.step] at hs
      split at hs
      · obtain rfl := Option.some.inj hs
        exact ⟨h.order, h.filed, h.nodup, h.called, h.began, h.silent, h.heard, h.whole,
          fun hrun => absurd hrun (by simp), h.saying⟩
      · cases hs

end Told

theorem told_init : Told roomMachine.init where
  order := rfl
  filed fd k hk := absurd hk (by simp [roomMachine])
  nodup := List.nodup_nil
  called k hk := absurd hk List.not_mem_nil
  began k b hk := absurd hk (by simp [roomMachine])
  silent _ _ := rfl
  heard k b hk := absurd hk (by simp [roomMachine])
  whole k b hk := absurd hk (by simp [roomMachine])
  present _ _ k hk := absurd hk (Nat.not_lt_zero k)
  saying hne := absurd rfl hne

theorem told_of_reachable (h : roomMachine.Reachable s) : Told s :=
  roomMachine.invariant told_init (fun _ _ _ hx hs => hx.step hs) h

end ChatRoom

/-! ### Runs -/

/-- **One room**: the messages are broadcast in the order in which they were received, none is lost or
comes twice, and each session is sent an uninterrupted piece of them, which starts with the first
message after its `join`.  Until it leaves it misses nothing. -/
theorem broadcast_in_order (es : List RoomEvent) (s : ChatRoom) (h : roomMachine.run es = some s) :
    s.handled = s.broadcasts ++ s.current_messages ++ s.message_list ∧
    (∀ (k b : ℕ), s.joined[k]? = some b → s.sent k <+: s.since b ∧
      (k ∉ s.left → s.main = .running → s.joined.length ≤ 2 ^ 32 → s.curr_sessions = [] →
        s.sent k = s.since b)) ∧
    ∀ k, s.joined.length ≤ k → s.sent k = [] := by
  have ht : s.Told := ChatRoom.told_of_reachable ⟨es, h⟩
  refine ⟨ht.order, fun k b hk => ⟨?_, fun hleft hrun hle hdone => ?_⟩, ht.silent⟩
  · exact (List.prefix_append _ _).trans (ht.heard k b hk)
  · obtain ⟨hlt, -⟩ := List.getElem?_eq_some_iff.mp hk
    have hwhole := ht.whole k b hk (ht.present hrun hle k hlt hleft)
    rwa [ChatRoom.due_of_nil hdone, List.append_nil] at hwhole

/-- Two sessions; the second one joins between two messages of the first one. -/
def twoSessions : List RoomEvent :=
  [.join, .handleMessage 0 [65], .handleMessage 0 [66], .poll, .broadcast, .join, .sendNext 0,
    .broadcast, .sendNext 1, .sendNext 0]

theorem broadcast_in_order_twoSessions : ∃ s, roomMachine.run twoSessions = some s ∧
    s.sent 0 = [resp [65], resp [66]] ∧ s.sent 1 = [resp [66]] ∧ s.sent 1 <+: s.since 1 := by
  obtain ⟨s, hs⟩ : ∃ s, roomMachine.run twoSessions = some s :=
    Option.isSome_iff_exists.mp (by decide +kernel)
  have hobs : (roomMachine.run twoSessions).map (fun s => (s.sent 0, s.sent 1, s.joined[1]?)) =
      some ([resp [65], resp [66]], [resp [66]], some 1) := by decide +kernel
  rw [hs] at hobs
  simp only [Option.map_some, Option.some.injEq, Prod.mk.injEq] at hobs
  exact ⟨s, hs, hobs.1, hobs.2.1, ((broadcast_in_order twoSessions s hs).2.1 1 1 hobs.2.2).1⟩

end BlackSwan.Chat
