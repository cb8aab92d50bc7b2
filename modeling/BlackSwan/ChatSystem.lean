import BlackSwan.ChatRoom
import BlackSwan.LinkPrograms

/-! # The chat

The chat room with its clients (`example/chat_server/main.cpp`, `example/chat_client/main.cpp`): the
room, and for each session the connection to its client, with the sessions of `share/networkEx` at
both ends.  Lines are typed at the clients; readers, writers, sockets, the main thread of the server
and the listener take their steps in any order, clients come and go, and connections break.

The data callbacks of the chat keep no ids to themselves, as the servers' do.  Since nobody sends
heartbeats here that makes no difference (`Joint.reads`).

`chat_in_order` says what the users see: all screens show one order of the lines, each from some line
on, and the lines of one client come in the order in which they were typed. -/

namespace BlackSwan

open Wire Runs

/-- The data callback of the chat, at both ends: every packet is for the program. -/
def chatProc {σ : Type} (dispatch : Packet → σ → Call σ Unit) : DataProcess σ := fun data s =>
  match clientDecoder.drain dispatch data.length data s with
  | .ok rest s' => .ok rest.length s'
  | .error e s' => .error e s'

/-- Where no heartbeats come it is the callback of the servers. -/
theorem chatProc_eq {σ : Type} (replyPing : σ → σ) (dispatch : Packet → σ → Call σ Unit)
    {data : Bytes} (h : ∀ p ∈ clientDecoder.frames data, isHeartBeat p.id = false) (s : σ) :
    chatProc dispatch data s = clientLoop replyPing dispatch data s := by
  have hall : ∀ (ps : List Packet) (s : σ), (∀ p ∈ ps, isHeartBeat p.id = false) →
      handleAll (onPacket Packet.id replyPing dispatch) ps s = handleAll dispatch ps s := by
    intro ps
    induction ps with
    | nil => exact fun _ _ => rfl
    | cons p ps ih =>
        intro s hps
        have hp := hps p List.mem_cons_self
        simp only [isHeartBeat, Bool.or_eq_false_iff, beq_eq_false_iff_ne] at hp
        simp only [handleAll, onPacket, if_neg hp.1, if_neg hp.2]
        cases dispatch p s with
        | ok _ s' => exact ih s' fun p' hp' => hps p' (List.mem_cons_of_mem _ hp')
        | error e s' => rfl
  have hdrain : clientDecoder.drain dispatch data.length data s =
      clientDecoder.drain (onPacket Packet.id replyPing dispatch) data.length data s := by
    rw [clientDecoder.drain_eq, clientDecoder.drain_eq, hall _ s h]
  exact congrArg (fun r : Call σ Bytes => match r with
    | .ok rest s' => (.ok rest.length s' : Call σ ℕ)
    | .error e s' => .error e s') hdrain

namespace Chat

/-! ### The system -/

/-- What `broadcast` gives to `send`, for a message that fits. -/
def respMsg (msg : Bytes) : Option clientFormat.Msg :=
  if h : msg.length + MsgHeaderSize + BUF_SIZE ≤ 2 ^ 16 then some ⟨resp msg, fits_client h⟩ else none

structure ChatSystem where
  room : ChatRoom
  /-- the connection of each session; its `client` end is the chat client -/
  links : ℕ → SessionLink clientFormat
  /-- for how many of its messages the callback of a session has called `handleMessage` -/
  handed : ℕ → ℕ

namespace ChatSystem

/-- The session of the room. -/
def session (s : ChatSystem) (k : ℕ) : SessionEnd clientFormat := (s.links k).ends .server

/-- The session of the client. -/
def client (s : ChatSystem) (k : ℕ) : SessionEnd clientFormat := (s.links k).ends .client

/-- The lines that were typed at a client. -/
def typed (s : ChatSystem) (k : ℕ) : List Bytes := (s.client k).said.map fun m => m.1.2

def inRoom (e : RoomEvent) (s : ChatSystem) : Option ChatSystem :=
  (s.room.step e).map fun room => { s with room }

def onLink (k : ℕ) (e : LinkEvent clientFormat) (s : ChatSystem) : Option ChatSystem :=
  ((s.links k).step (noAnswer _) e).map fun l => { s with links := Function.update s.links k l }

/-- What a connection does without the programs: a session is started by the listener, and its reader
goes on when the callback has returned. -/
def allows (s : ChatSystem) (k : ℕ) : LinkEvent clientFormat → Bool
  | .own _ (.send _) | .own _ .sendPing => false
  | .own .server .start => k < s.room.joined.length
  | .read .server _ => s.handed k = (s.session k).got.length
  | _ => true

end ChatSystem

inductive ChatEvent where
  /-- the listener has accepted a connection -/
  | join
  | poll
  | broadcast
  | signal
  | link (k : ℕ) (e : LinkEvent clientFormat)
  /-- the client sends a line -/
  | type (k : ℕ) (m : clientFormat.Msg)
  /-- the callback of a session calls `handleMessage` -/
  | handle (k : ℕ)
  /-- the disconnect handler of a session that is stopped -/
  | leave (k : ℕ)
  | sendNext (n : ℕ)
  | stopNext

def ChatSystem.step (s : ChatSystem) : ChatEvent → Option ChatSystem
  | .join => s.inRoom .join
  | .poll => s.inRoom .poll
  | .broadcast => s.inRoom .broadcast
  | .signal => s.inRoom .signal
  | .link k e => if s.allows k e then s.onLink k e else none
  | .type k m => if m.1.1 = CHAT_REQ then s.onLink k (.own .client (.send m)) else none
  | .handle k =>
      match (s.session k).got[s.handed k]? with
      | none => none
      | some m => ({ s with handed := Function.update s.handed k (s.handed k + 1) } :
          ChatSystem).inRoom (.handleMessage k m.2)
  | .leave k => if (s.session k).outbox.stopped_ then s.inRoom (.leave k) else none
  | .sendNext n =>
      (s.room.sendNext n).bind fun r => (respMsg s.room.msg).bind fun m =>
        ({ s with room := r.2 } : ChatSystem).onLink r.1 (.own .server (.send m))
  | .stopNext =>
      match s.room.main with
      | .stopping (k :: _) => (s.inRoom .stopNext).bind fun s => s.onLink k (.own .server .stop)
      | _ => none

def chatMachine : Machine ChatSystem ChatEvent where
  init := ⟨roomMachine.init, fun _ => (linkMachine clientFormat (noAnswer _)).init, fun _ => 0⟩
  step := ChatSystem.step

/-! ### The invariant -/

theorem short_of_fits {m : ClientMsg} (h : Fits clientCode m) :
    m.2.length + MsgHeaderSize + BUF_SIZE ≤ 2 ^ 16 := by
  have hlen : (encodeMsg m).length + BUF_SIZE ≤ 2 ^ 16 := h.2
  rw [length_encodeMsg h.1, Nat.add_comm MsgHeaderSize] at hlen
  exact hlen

namespace ChatSystem

variable {s s' : ChatSystem}

/-- What the room and the connections know of each other. -/
structure Joint (s : ChatSystem) : Prop where
  room : roomMachine.Reachable s.room
  inv : ∀ k, (s.links k).Inv
  plain : ∀ k, (s.links k).Plain
  sent : ∀ k, (s.session k).said.map Subtype.val = s.room.sent k
  handed_le : ∀ k, s.handed k ≤ (s.session k).got.length
  handled : ∀ k, (s.room.handled.filter (·.1 = k)).map Prod.snd =
    ((s.session k).got.take (s.handed k)).map Prod.snd
  short : ∀ p ∈ s.room.handled, p.2.length + MsgHeaderSize + BUF_SIZE ≤ 2 ^ 16
  /-- only a session that is stopped leaves -/
  gone : ∀ k ∈ s.room.left, (s.session k).outbox.stopped_ = true

namespace Joint

/-- A step of the room that is no business of the connections. -/
theorem inRoom (h : Joint s) {e : RoomEvent} {room : ChatRoom} (hs : s.room.step e = some room)
    (hsent : room.sent = s.room.sent) (hhandled : room.handled = s.room.handled)
    (hleft : ∀ k ∈ room.left, (s.session k).outbox.stopped_ = true) : Joint { s with room } where
  room := by
    obtain ⟨es, hrun⟩ := h.room
    exact ⟨es ++ [e], roomMachine.run_snoc hrun hs⟩
  inv := h.inv
  plain := h.plain
  sent k := (h.sent k).trans (congrFun hsent k).symm
  handed_le := h.handed_le
  handled k := by
    show (room.handled.filter (·.1 = k)).map Prod.snd = _
    rw [hhandled]
    exact h.handled k
  short p hp := h.short p (hhandled ▸ hp)
  gone := hleft

/-- A step of a connection; what the session says is what the room has sent it. -/
theorem onLink (h : Joint s) {k : ℕ} {e : LinkEvent clientFormat} {l : SessionLink clientFormat}
    {room : ChatRoom} (hs : (s.links k).step (noAnswer _) e = some l)
    (hspeech : ∀ x, ∀ m ∈ e.said x, isHeartBeat m.1.1 = false) (hroom : roomMachine.Reachable room)
    (hsent : room.sent =
      Function.update s.room.sent k (s.room.sent k ++ (e.said .server).map Subtype.val))
    (hhandled : room.handled = s.room.handled) (hleft : room.left = s.room.left) :
    Joint { s with room, links := Function.update s.links k l } := by
  have hstep := SessionLink.step_plain (h.plain k) (h.inv k) hs
  have hcases (P : ℕ → SessionLink clientFormat → Prop) (hk : P k l) (hall : ∀ j, P j (s.links j)) :
      ∀ j, P j (Function.update s.links k l j) := by
    intro j
    by_cases hj : j = k
    · subst hj
      rwa [Function.update_self]
    · rw [Function.update_of_ne hj]
      exact hall j
  have hsrv := hstep .server
  refine ⟨hroom, hcases (fun _ l => l.Inv) (SessionLink.step_inv (h.inv k) hs) h.inv,
    hcases (fun _ l => l.Plain) ?_ h.plain, ?_, ?_, ?_, fun p hp => h.short p (hhandled ▸ hp), ?_⟩
  · intro x m hm
    rw [(hstep x).1] at hm
    obtain hm | hm := List.mem_append.mp hm
    · exact h.plain k x m hm
    · exact hspeech x m hm
  · intro j
    show ((Function.update s.links k l j).ends .server).said.map Subtype.val = room.sent j
    rw [hsent]
    by_cases hj : j = k
    · subst hj
      rw [Function.update_self, Function.update_self, hsrv.1, List.map_append]
      exact congrArg (· ++ _) (h.sent j)
    · rw [Function.update_of_ne hj, Function.update_of_ne hj]
      exact h.sent j
  · exact hcases (fun j l => s.handed j ≤ (l.ends .server).got.length)
      ((h.handed_le k).trans hsrv.2.1.length_le) h.handed_le
  · show ∀ j, (room.handled.filter (·.1 = j)).map Prod.snd = _
    rw [hhandled]
    refine hcases (fun j l => (s.room.handled.filter (·.1 = j)).map Prod.snd =
      ((l.ends .server).got.take (s.handed j)).map Prod.snd) ?_ h.handled
    obtain ⟨more, hmore⟩ := hsrv.2.1
    have hle : s.handed k ≤ ((s.links k).ends .server).got.length := h.handed_le k
    rw [← hmore, List.take_append_of_le_length hle]
    exact h.handled k
  · show ∀ j ∈ room.left, _
    rw [hleft]
    exact hcases (fun j l => j ∈ s.room.left → (l.ends .server).outbox.stopped_ = true)
      (fun hj => hsrv.2.2 (h.gone k hj)) h.gone

/-- `handleMessage` takes the next message of a session. -/
theorem handle (h : Joint s) {k : ℕ} {m : ClientMsg} {room : ChatRoom}
    (hm : (s.session k).got[s.handed k]? = some m)
    (hs : s.room.step (.handleMessage k m.2) = some room) :
    Joint { s with room, handed := Function.update s.handed k (s.handed k + 1) } := by
  have hreach : roomMachine.Reachable room := by
    obtain ⟨es, hrun⟩ := h.room
    exact ⟨es ++ [.handleMessage k m.2], roomMachine.run_snoc (e := .handleMessage k m.2) hrun hs⟩
  rw [ChatRoom.step] at hs
  split_ifs at hs
  obtain rfl := Option.some.inj hs
  obtain ⟨hlt, hget⟩ := List.getElem?_eq_some_iff.mp hm
  refine ⟨hreach, h.inv, h.plain, h.sent, fun j => ?_, fun j => ?_, fun p hp => ?_, h.gone⟩
  · show Function.update s.handed k (s.handed k + 1) j ≤ _
    by_cases hj : j = k
    · subst hj
      rw [Function.update_self]
      exact hlt
    · rw [Function.update_of_ne hj]
      exact h.handed_le j
  · show ((s.room.handled ++ [(k, m.2)]).filter (·.1 = j)).map Prod.snd =
      ((s.session j).got.take (Function.update s.handed k (s.handed k + 1) j)).map Prod.snd
    rw [List.filter_append, List.map_append, h.handled j]
    by_cases hj : j = k
    · subst hj
      rw [Function.update_self, List.take_add_one, hm]
      simp
    · rw [Function.update_of_ne hj]
      simp [show ¬k = j from fun heq => hj heq.symm]
  · obtain hp | hp := List.mem_append.mp hp
    · exact h.short p hp
    · -- the client's end has sent the message
      obtain rfl := List.mem_singleton.mp hp
      have hmem : m ∈ (s.session k).got := hget ▸ List.getElem_mem hlt
      have hprog := ((h.inv k).got_front .server).subset hmem
      rw [SessionLink.program_of_plain (h.plain k _)] at hprog
      obtain ⟨m', -, rfl⟩ := List.mem_map.mp hprog
      exact short_of_fits m'.2

/-- The line of a client, or a message of the room, is no heartbeat. -/
theorem says_own {x : Side} {m : clientFormat.Msg} (hm : isHeartBeat m.1.1 = false) (y : Side) :
    ∀ m' ∈ (LinkEvent.own x (.send m)).said y, isHeartBeat m'.1.1 = false := by
  intro m' hm'
  rw [LinkEvent.said] at hm'
  split_ifs at hm'
  · rwa [List.mem_singleton.mp hm']
  · exact absurd hm' List.not_mem_nil

theorem said_of_allows {k : ℕ} {e : LinkEvent clientFormat} (ha : s.allows k e = true) (x : Side) :
    e.said x = [] := by
  cases e with
  | own y e =>
      rw [LinkEvent.said]
      split_ifs
      · cases e <;> first | rfl | exact absurd ha (by simp [allows])
      · rfl
  | transfer y n => rfl
  | read y n => rfl

theorem step (h : Joint s) {e : ChatEvent} (hs : s.step e = some s') : Joint s' := by
  cases e with
  | join =>
      rw [ChatSystem.step, ChatSystem.inRoom] at hs
      obtain ⟨room, hroom, rfl⟩ := Option.map_eq_some_iff.mp hs
      obtain rfl := Option.some.inj hroom
      exact h.inRoom (e := .join) rfl rfl rfl h.gone
  | poll =>
      obtain ⟨room, hroom, rfl⟩ := Option.map_eq_some_iff.mp hs
      have hcopy := hroom
      rw [ChatRoom.step] at hcopy
      split_ifs at hcopy
      obtain rfl := Option.some.inj hcopy
      refine h.inRoom hroom ?_ ?_ ?_ <;> unfold ChatRoom.poll <;> split_ifs
      all_goals first | rfl | exact h.gone
  | broadcast =>
      obtain ⟨room, hroom, rfl⟩ := Option.map_eq_some_iff.mp hs
      have hcopy := hroom
      rw [ChatRoom.step] at hcopy
      split_ifs at hcopy
      split at hcopy
      · cases hcopy
      · obtain rfl := Option.some.inj hcopy
        exact h.inRoom hroom rfl rfl h.gone
  | signal =>
      rw [ChatSystem.step, ChatSystem.inRoom] at hs
      obtain ⟨room, hroom, rfl⟩ := Option.map_eq_some_iff.mp hs
      obtain rfl := Option.some.inj hroom
      exact h.inRoom (e := .signal) rfl rfl rfl h.gone
  | link k e =>
      rw [ChatSystem.step] at hs
      split_ifs at hs with ha
      obtain ⟨l, hl, rfl⟩ := Option.map_eq_some_iff.mp hs
      have hspeech := said_of_allows ha
      refine h.onLink hl (fun x m hm => ?_) h.room ?_ rfl rfl
      · rw [hspeech] at hm
        exact absurd hm List.not_mem_nil
      · rw [hspeech, List.map_nil, List.append_nil, Function.update_eq_self]
  | type k m =>
      rw [ChatSystem.step] at hs
      split_ifs at hs with hreq
      obtain ⟨l, hl, rfl⟩ := Option.map_eq_some_iff.mp hs
      refine h.onLink hl (says_own (by rw [hreq]; decide)) h.room ?_ rfl rfl
      rw [LinkEvent.said, if_neg (by decide), List.map_nil, List.append_nil, Function.update_eq_self]
  | handle k =>
      rw [ChatSystem.step] at hs
      split at hs
      · cases hs
      · next m hm =>
          obtain ⟨room, hroom, rfl⟩ := Option.map_eq_some_iff.mp hs
          exact h.handle hm hroom
  | leave k =>
      rw [ChatSystem.step] at hs
      split_ifs at hs with hstop
      obtain ⟨room, hroom, rfl⟩ := Option.map_eq_some_iff.mp hs
      have hcopy := hroom
      rw [ChatRoom.step] at hcopy
      split_ifs at hcopy
      obtain rfl := Option.some.inj hcopy
      refine h.inRoom hroom rfl rfl fun j hj => ?_
      obtain hj | hj := List.mem_append.mp hj
      · exact h.gone j hj
      · rwa [List.mem_singleton.mp hj]
  | sendNext n =>
      obtain ⟨⟨k, room⟩, hroom, hs⟩ := Option.bind_eq_some_iff.mp hs
      obtain ⟨m, hm, hs⟩ := Option.bind_eq_some_iff.mp hs
      obtain ⟨l, hl, rfl⟩ := Option.map_eq_some_iff.mp hs
      have hreach : roomMachine.Reachable room := by
        obtain ⟨es, hrun⟩ := h.room
        refine ⟨es ++ [.sendNext n], roomMachine.run_snoc hrun ?_⟩
        show (s.room.sendNext n).map Prod.snd = some room
        rw [hroom]
        rfl
      obtain ⟨k', hk', heq⟩ := Option.map_eq_some_iff.mp hroom
      obtain ⟨rfl, rfl⟩ := Prod.mk.inj heq
      have hval : m.1 = resp s.room.msg := by
        rw [respMsg] at hm
        split_ifs at hm
        exact (Option.some.inj hm) ▸ rfl
      refine h.onLink hl (says_own (by rw [hval]; rfl)) hreach ?_ rfl rfl
      show Function.update s.room.sent k' (s.room.sent k' ++ [resp s.room.msg]) = _
      rw [LinkEvent.said, if_pos rfl, EndEvent.said, List.map_singleton, hval]
  | stopNext =>
      rw [ChatSystem.step] at hs
      split at hs
      · next k rest hmain =>
          obtain ⟨s₁, hs₁, hs⟩ := Option.bind_eq_some_iff.mp hs
          obtain ⟨room, hroom, rfl⟩ := Option.map_eq_some_iff.mp hs₁
          obtain ⟨l, hl, rfl⟩ := Option.map_eq_some_iff.mp hs
          have hcopy := hroom
          rw [ChatRoom.step, hmain] at hcopy
          obtain rfl := Option.some.inj hcopy
          have h₁ := h.inRoom hroom rfl rfl h.gone
          have hnone (x : Side) :
              (LinkEvent.own .server .stop : LinkEvent clientFormat).said x = [] := by
            rw [LinkEvent.said]
            split_ifs <;> rfl
          refine h₁.onLink hl (fun x m hm => ?_) h₁.room ?_ rfl rfl
          · rw [hnone] at hm
            exact absurd hm List.not_mem_nil
          · rw [hnone, List.map_nil, List.append_nil, Function.update_eq_self]
      · cases hs

theorem init : Joint chatMachine.init where
  room := ⟨[], rfl⟩
  inv _ := SessionLink.inv_init clientFormat (noAnswer _)
  plain _ _ _ hm := absurd hm List.not_mem_nil
  sent _ := rfl
  handed_le _ := Nat.le_refl _
  handled _ := rfl
  short _ hp := absurd hp List.not_mem_nil
  gone _ hk := absurd hk List.not_mem_nil

end Joint

theorem joint_of_reachable (h : chatMachine.Reachable s) : Joint s :=
  chatMachine.invariant Joint.init (fun _ _ _ hx hs => hx.step hs) h

/-- Every read of the chat is handled as the callback of the chat does. -/
theorem Joint.reads (h : Joint s) {τ : Type} (replyPing : τ → τ)
    (dispatch : Packet → τ → Call τ Unit) (k : ℕ) (x : Side) {n : ℕ} (hn : n ≤ BUF_SIZE) (t : τ) :
    let data := ((s.links k).ends x).recvBuffer_ ++ ((s.links k).wire x).take n
    chatProc dispatch data t = clientLoop replyPing dispatch data t := by
  refine chatProc_eq replyPing dispatch (fun p hp => ?_) t
  exact (h.plain k).found (h.inv k) hn _ (List.mem_map_of_mem hp)

/-! ### Rest -/

/-- The lines of a client, as the room has broadcast them. -/
def linesOf (s : ChatSystem) (k : ℕ) : List Bytes :=
  (s.room.broadcasts.filter (·.1 = k)).map Prod.snd

end ChatSystem

/-- The steps that nobody outside has to take. -/
def ChatEvent.Internal : ChatEvent → Prop
  | .link _ e => e.Internal
  | .broadcast | .handle _ | .sendNext _ => True
  | _ => False

namespace ChatSystem

variable {s s' : ChatSystem}

/-- Nothing is left to do, and the main thread finds nothing in the list. -/
structure AtRest (s : ChatSystem) : Prop where
  internal : ∀ e : ChatEvent, e.Internal → s.step e = none
  polled : s.room.message_list = []

namespace AtRest

theorem curr_sessions (hrest : s.AtRest) (h : Joint s) : s.room.curr_sessions = [] := by
  by_contra hne
  have ht : s.room.Told := ChatRoom.told_of_reachable h.room
  obtain ⟨k, rest, hcurr⟩ := List.exists_cons_of_ne_nil hne
  obtain ⟨k', hsaid⟩ := ht.saying hne
  have hshort : s.room.msg.length + MsgHeaderSize + BUF_SIZE ≤ 2 ^ 16 := by
    refine h.short (k', s.room.msg) ?_
    rw [ht.order]
    exact List.mem_append_left _ (List.mem_append_left _ hsaid)
  have hnone := hrest.internal (.sendNext 0) trivial
  simp [step, ChatRoom.sendNext, hcurr, respMsg, onLink, SessionLink.step, SessionEnd.step] at hnone
  omega

theorem current_messages (hrest : s.AtRest) (h : Joint s) (hrun : s.room.main = .running) :
    s.room.current_messages = [] := by
  cases hcurr : s.room.current_messages with
  | nil => rfl
  | cons message rest =>
      have hnone := hrest.internal .broadcast trivial
      simp [step, inRoom, ChatRoom.step, hrun, hrest.curr_sessions h, hcurr] at hnone

theorem handed (hrest : s.AtRest) (h : Joint s) {k : ℕ} (hk : k < s.room.joined.length) :
    s.handed k = (s.session k).got.length := by
  by_contra hne
  have hlt : s.handed k < (s.session k).got.length := lt_of_le_of_ne (h.handed_le k) hne
  have hnone := hrest.internal (.handle k) trivial
  simp [step, List.getElem?_eq_getElem hlt, inRoom, ChatRoom.step, hk] at hnone

theorem link (hrest : s.AtRest) (h : Joint s) {k : ℕ} (hk : k < s.room.joined.length) :
    (s.links k).AtRest (noAnswer _) := by
  intro e he
  have ha : s.allows k e = true := by
    cases e with
    | own x e => cases e <;> first | exact he.elim | (cases x <;> rfl)
    | transfer x n => rfl
    | read x n =>
        cases x with
        | client => rfl
        | server => exact decide_eq_true (hrest.handed h hk)
  have hnone := hrest.internal (.link k e) he
  rw [step, if_pos ha, onLink, Option.map_eq_none_iff] at hnone
  exact hnone

end AtRest

end ChatSystem

/-! ### Runs -/

/-- **All screens show one order.**  In every run of the chat each client shows an uninterrupted piece
of one list of lines, from the line after its `join` on, in which the lines of each client come as
they were typed.  When the chat is left alone and comes to rest, a client whose connection is up has
missed nothing, and all its lines were broadcast. -/
theorem chat_in_order (es : List ChatEvent) (s : ChatSystem) (h : chatMachine.run es = some s) :
    (∀ (k b : ℕ), s.room.joined[k]? = some b → (s.client k).got <+: s.room.since b) ∧
    (∀ k, s.room.joined.length ≤ k → (s.client k).got = []) ∧
    (∀ k, s.linesOf k <+: s.typed k) ∧
    (s.AtRest → s.room.main = .running → s.room.joined.length ≤ 2 ^ 32 →
      ∀ (k b : ℕ), s.room.joined[k]? = some b → (s.session k).Up → (s.client k).Up →
        (s.client k).got = s.room.since b ∧ s.linesOf k = s.typed k) := by
  have hj : s.Joint := ChatSystem.joint_of_reachable ⟨es, h⟩
  have ht : s.room.Told := ChatRoom.told_of_reachable hj.room
  have hsaid (k : ℕ) : clientFormat.program (s.session k).said = s.room.sent k :=
    (SessionLink.program_of_plain (hj.plain k .server)).trans (hj.sent k)
  have htyped (k : ℕ) : clientFormat.program (s.client k).said =
      (s.client k).said.map Subtype.val := SessionLink.program_of_plain (hj.plain k .client)
  have hshown (k : ℕ) : (s.client k).got <+: s.room.sent k :=
    hsaid k ▸ (hj.inv k).got_front .client
  refine ⟨fun k b hk => ?_, fun k hk => ?_, fun k => ?_, fun hrest hrun hle k b hk hup hup' => ?_⟩
  · exact (hshown k).trans ((List.prefix_append _ _).trans (ht.heard k b hk))
  · have hnil := hshown k
    rwa [ht.silent k hk, List.prefix_nil] at hnil
  · have hlines : s.linesOf k <+: (s.room.handled.filter (·.1 = k)).map Prod.snd := by
      rw [ht.order, List.append_assoc, List.filter_append, List.map_append]
      exact List.prefix_append _ _
    have hgot : (s.session k).got <+: (s.client k).said.map Subtype.val := by
      rw [← htyped k]
      exact (hj.inv k).got_front .server
    have htake := ((List.take_prefix (s.handed k) (s.session k).got).trans hgot).map Prod.snd
    rw [List.map_map, ← hj.handled k] at htake
    exact hlines.trans htake
  · obtain ⟨hlt, -⟩ := List.getElem?_eq_some_iff.mp hk
    have hlink := hrest.link hj hlt
    have hleft : k ∉ s.room.left := fun hmem => by
      have hstop := hj.gone k hmem
      rw [hup.2] at hstop
      exact absurd hstop (by simp)
    have hwhole := ht.whole k b hk (ht.present hrun hle k hlt hleft)
    rw [ChatRoom.due_of_nil (hrest.curr_sessions hj), List.append_nil] at hwhole
    constructor
    · rw [← hwhole, ← hsaid k]
      exact hlink.delivered (hj.inv k) (x := .client) hup' hup
    · have hgot : (s.session k).got = (s.client k).said.map Subtype.val :=
        (hlink.delivered (hj.inv k) (x := .server) hup hup').trans (htyped k)
      have hall : s.room.handled = s.room.broadcasts := by
        rw [ht.order, hrest.current_messages hj hrun, hrest.polled, List.append_nil, List.append_nil]
      rw [ChatSystem.linesOf, ← hall, hj.handled k, hrest.handed hj hlt, List.take_length, hgot,
        List.map_map]
      rfl

/-- A line that is typed at the first client, and comes back. -/
def oneLine : List ChatEvent :=
  [.join, .link 0 (.own .server .start), .link 0 (.own .server .launchReader),
    .link 0 (.own .server .launchWriter), .link 0 (.own .client .start),
    .link 0 (.own .client .launchReader), .link 0 (.own .client .launchWriter),
    .type 0 ⟨(CHAT_REQ, [65]), fits_client (by decide)⟩, .link 0 (.own .client .deliver),
    .link 0 (.own .client .timer), .link 0 (.transfer .client 7), .link 0 (.read .server 7),
    .handle 0, .poll, .broadcast, .sendNext 0, .link 0 (.own .server .deliver),
    .link 0 (.own .server .timer), .link 0 (.transfer .server 7), .link 0 (.read .client 7)]

theorem chat_in_order_oneLine : ∃ s, chatMachine.run oneLine = some s ∧
    (s.client 0).got = [resp [65]] ∧ (s.client 0).got <+: s.room.since 0 := by
  obtain ⟨s, hs⟩ : ∃ s, chatMachine.run oneLine = some s :=
    Option.isSome_iff_exists.mp (by decide +kernel)
  have hobs : (chatMachine.run oneLine).map (fun s => ((s.client 0).got, s.room.joined[0]?)) =
      some ([resp [65]], some 0) := by decide +kernel
  rw [hs] at hobs
  simp only [Option.map_some, Option.some.injEq, Prod.mk.injEq] at hobs
  exact ⟨s, hs, hobs.1, (chat_in_order oneLine s hs).1 0 0 hobs.2⟩

end Chat

end BlackSwan
