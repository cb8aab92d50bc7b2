import BlackSwan.Bytes
import BlackSwan.Runs

/-! # The server and its session table

`Server` of `share/networkEx/server.h`, with `Session::stop`.  The table `sessions_` is touched by
the listener, by every session that stops, by `FindSession`, `broadcast` and `stop`, each of them
under `sessions_mtx_`, so that each of these sections is one step.

* A `SessionPtr` is the number of an accepted session, or `none` for null.
* `broadcast` goes through a copy of the table and `closeAll` through the table it has moved out.
  What they have not come to yet is in `sending` and `closing`, and other threads go on meanwhile.

The table has no null entry and no entry of a stopped session exactly in the runs in which every
`FindSession` asks for a session on file: it looks up with `operator[]`, which makes an entry. -/

namespace BlackSwan

open Wire Runs

/-- A session that the listener has made. -/
structure AcceptedSession where
  fd_ : UInt32
  stopped_ : Bool
deriving DecidableEq, Repr

abbrev SessionPtr := Option ℕ

/-- `std::unordered_map<uint32_t, SessionPtr>`. -/
abbrev SessionMap := List (UInt32 × SessionPtr)

namespace SessionMap

def emplace (fd : UInt32) (p : SessionPtr) (m : SessionMap) : SessionMap :=
  if (m.lookup fd).isSome then m else m ++ [(fd, p)]

def erase (fd : UInt32) (m : SessionMap) : SessionMap := m.filter (·.1 ≠ fd)

/-- `m[fd]`, which makes an entry when there is none. -/
def index (fd : UInt32) (m : SessionMap) : SessionPtr × SessionMap :=
  match m.lookup fd with
  | some p => (p, m)
  | none => (none, m ++ [(fd, none)])

end SessionMap

structure Server where
  accepted : List AcceptedSession
  sessions_ : SessionMap
  /-- the calls of `send` that `broadcast` has still to make -/
  sending : List (SessionPtr × Bytes)
  /-- the calls of `stop` that `closeAll` has still to make -/
  closing : List SessionPtr
  /-- what was handed to the sessions -/
  sent : List (ℕ × Bytes)
  /-- a call through a null pointer has ended the process -/
  crashed : Bool
deriving DecidableEq, Repr

namespace Server

/-- `Server::addSession`. -/
def addSession (fd : UInt32) (p : SessionPtr) (s : Server) : Server :=
  { s with sessions_ := s.sessions_.emplace fd p }

/-- `Server::delSession`. -/
def delSession (fd : UInt32) (s : Server) : Server := { s with sessions_ := s.sessions_.erase fd }

/-- One round of `Server::listener`, after a connection was accepted. -/
def listener (fd : UInt32) (s : Server) : Server :=
  ({ s with accepted := s.accepted ++ [⟨fd, false⟩] } : Server).addSession fd (some s.accepted.length)

/-- `Session::stop` of an accepted session, whose disconnect callback ends with `delSession`. -/
def sessionStop (p : ℕ) (s : Server) : Server :=
  match s.accepted[p]? with
  | none => s
  | some session =>
      if session.stopped_ then s else
      ({ s with accepted := s.accepted.set p { session with stopped_ := true } } : Server).delSession
        session.fd_

/-- `Server::FindSession`. -/
def findSession (fd : UInt32) (s : Server) : SessionPtr × Server :=
  ((s.sessions_.index fd).1, { s with sessions_ := (s.sessions_.index fd).2 })

/-- `Server::broadcast`, up to the end of its lock. -/
def broadcast (msg : Bytes) (s : Server) : Server :=
  { s with sending := s.sending ++ s.sessions_.map fun it => (it.2, msg) }

/-- One round of the loop of `broadcast`. -/
def sendNext (s : Server) : Option Server :=
  match s.sending with
  | [] => none
  | (none, _) :: _ => some { s with crashed := true }
  | (some p, msg) :: rest => some { s with sending := rest, sent := s.sent ++ [(p, msg)] }

/-- `Server::closeAll`, up to the end of its lock. -/
def closeAll (s : Server) : Server :=
  { s with closing := s.closing ++ s.sessions_.map (·.2), sessions_ := [] }

/-- `Server::stop`; closing the acceptor does not touch the table. -/
def stop (s : Server) : Server := s.closeAll

/-- One round of the loop of `closeAll`. -/
def closeNext (s : Server) : Option Server :=
  match s.closing with
  | [] => none
  | none :: _ => some { s with crashed := true }
  | some p :: rest => some (({ s with closing := rest } : Server).sessionStop p)

end Server

/-! ### Runs -/

inductive ServerEvent where
  /-- a connection is accepted; its session has this `fd` -/
  | accept (fd : UInt32)
  | findSession (fd : UInt32)
  | broadcast (msg : Bytes)
  | sendNext
  /-- a session stops: its socket fails, its heartbeat times out, or somebody stops it -/
  | sessionStop (p : ℕ)
  | stop
  | closeNext
deriving DecidableEq, Repr

def Server.step (s : Server) (e : ServerEvent) : Option Server :=
  if s.crashed then none else
  match e with
  | .accept fd => some (s.listener fd)
  | .findSession fd => some (s.findSession fd).2
  | .broadcast msg => some (s.broadcast msg)
  | .sendNext => s.sendNext
  | .sessionStop p => some (s.sessionStop p)
  | .stop => some s.stop
  | .closeNext => s.closeNext

namespace Server

/-- Every entry is a session that was accepted with its key and has not been stopped. -/
def Clean (s : Server) : Prop :=
  ∀ fd v, (fd, v) ∈ s.sessions_ → ∃ p, v = some p ∧ s.accepted[p]? = some ⟨fd, false⟩

/-- The table is clean, and so is what `broadcast` and `closeAll` took out of it. -/
structure Sound (s : Server) : Prop where
  clean : s.Clean
  sending : ∀ x ∈ s.sending, x.1 ≠ none
  closing : ∀ v ∈ s.closing, v ≠ none
  alive : s.crashed = false

variable {s s' : Server}

theorem Clean.listener (h : s.Clean) (fd : UInt32) : (s.listener fd).Clean := by
  have hold : ∀ fd' v, (fd', v) ∈ s.sessions_ →
      ∃ p, v = some p ∧ (s.accepted ++ [⟨fd, false⟩])[p]? = some ⟨fd', false⟩ := by
    intro fd' v hv
    obtain ⟨p, rfl, hp⟩ := h fd' v hv
    exact ⟨p, rfl, List.getElem?_append_left (List.getElem?_eq_some_iff.mp hp).1 ▸ hp⟩
  intro fd' v hv
  simp only [Server.listener, addSession, SessionMap.emplace] at hv
  split_ifs at hv with htaken
  · exact hold fd' v hv
  · rcases List.mem_append.mp hv with hv | hv
    · exact hold fd' v hv
    · obtain ⟨rfl, rfl⟩ := Prod.mk.inj (List.mem_singleton.mp hv)
      exact ⟨s.accepted.length, rfl, List.getElem?_concat_length⟩

/-- A session that stops leaves the table, and no other session of the table stops with it: the
others have other keys. -/
theorem Clean.sessionStop (h : s.Clean) (p : ℕ) : (s.sessionStop p).Clean := by
  unfold Server.sessionStop
  split
  · exact h
  · rename_i session hp
    split_ifs
    · exact h
    · intro fd v hv
      obtain ⟨hv, hne⟩ := List.mem_filter.mp hv
      obtain ⟨q, rfl, hq⟩ := h fd v hv
      refine ⟨q, rfl, ?_⟩
      have hpq : p ≠ q := by
        rintro rfl
        rw [hp] at hq
        simp [Option.some.inj hq] at hne
      show (s.accepted.set p _)[q]? = _
      rw [List.getElem?_set_ne hpq]
      exact hq

theorem sessionStop_frame (p : ℕ) (s : Server) : (s.sessionStop p).sending = s.sending ∧
    (s.sessionStop p).closing = s.closing ∧ (s.sessionStop p).crashed = s.crashed := by
  unfold Server.sessionStop
  split
  · exact ⟨rfl, rfl, rfl⟩
  · split_ifs <;> exact ⟨rfl, rfl, rfl⟩

theorem Sound.sessionStop (h : s.Sound) (p : ℕ) : (s.sessionStop p).Sound := by
  obtain ⟨hsend, hclose, hcrash⟩ := sessionStop_frame p s
  exact ⟨h.clean.sessionStop p, hsend ▸ h.sending, hclose ▸ h.closing, hcrash ▸ h.alive⟩

/-- A look-up of a session on file. -/
theorem findSession_known {fd : UInt32} (h : (s.sessions_.lookup fd).isSome = true) :
    (s.findSession fd).2 = s := by
  obtain ⟨p, hp⟩ := Option.isSome_iff_exists.mp h
  simp [findSession, SessionMap.index, hp]

/-- Every `FindSession` asks for a session on file. -/
def known (s : Server) : ServerEvent → Bool
  | .findSession fd => (s.sessions_.lookup fd).isSome
  | _ => true

/-- Every step out of a sound state is sound, but for a look-up of a session that is not on file. -/
theorem Sound.step {e : ServerEvent} (h : s.Sound) (hk : s.known e = true) (hs : s.step e = some s') :
    s'.Sound := by
  simp only [Server.step, h.alive, Bool.false_eq_true, if_false] at hs
  cases e with
  | accept fd =>
      obtain rfl := Option.some.inj hs
      exact ⟨h.clean.listener fd, h.sending, h.closing, h.alive⟩
  | findSession fd =>
      obtain rfl := Option.some.inj hs
      rw [findSession_known hk]
      exact h
  | broadcast msg =>
      obtain rfl := Option.some.inj hs
      refine ⟨h.clean, ?_, h.closing, h.alive⟩
      intro x hx
      rcases List.mem_append.mp hx with hx | hx
      · exact h.sending x hx
      · obtain ⟨⟨fd, v⟩, hv, rfl⟩ := List.mem_map.mp hx
        obtain ⟨p, rfl, -⟩ := h.clean fd v hv
        exact Option.some_ne_none p
  | sendNext =>
      have hsend := h.sending
      simp only [Server.sendNext] at hs
      split at hs
      · cases hs
      · rename_i he
        exact absurd rfl (hsend _ (he ▸ List.mem_cons_self))
      · rename_i p msg rest he
        obtain rfl := Option.some.inj hs
        exact ⟨h.clean, fun x hx => hsend x (he ▸ List.mem_cons_of_mem _ hx), h.closing, h.alive⟩
  | sessionStop p =>
      obtain rfl := Option.some.inj hs
      exact h.sessionStop p
  | stop =>
      obtain rfl := Option.some.inj hs
      refine ⟨fun fd v hv => (List.not_mem_nil hv).elim, h.sending, ?_, h.alive⟩
      intro v hv
      rcases List.mem_append.mp hv with hv | hv
      · exact h.closing v hv
      · obtain ⟨⟨fd, v'⟩, hv', rfl⟩ := List.mem_map.mp hv
        obtain ⟨p, rfl, -⟩ := h.clean fd v' hv'
        exact Option.some_ne_none p
  | closeNext =>
      have hclose := h.closing
      simp only [Server.closeNext] at hs
      split at hs
      · cases hs
      · rename_i he
        exact absurd rfl (hclose _ (he ▸ List.mem_cons_self))
      · rename_i p rest he
        obtain rfl := Option.some.inj hs
        have hrest : Sound { s with closing := rest } :=
          ⟨h.clean, h.sending, fun v hv => hclose v (he ▸ List.mem_cons_of_mem _ hv), h.alive⟩
        exact hrest.sessionStop p

end Server

open Server

end BlackSwan
