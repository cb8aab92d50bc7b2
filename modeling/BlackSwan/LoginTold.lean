import BlackSwan.LoginAnnounce

/-! # What a player is told

A player is told that it is kicked off exactly when somebody else takes its account, and its gate is
connected (`kicked_off_iff_replaced`).  Over a whole run it is told at most the answer to its request
and then that it is kicked off, and nothing after that (`told_sublist`). -/

namespace BlackSwan.Login

open Wire Runs Tables
open Directory (Event)

variable {P : LoginProto} {cfg : Config} {s s' : LoginServer} {p q : ℕ}

/-- The messages that are sent for a player. -/
def told (q : ℕ) (h : List LoginAct) : List UInt32 := h.filterMap fun
  | .sent (some p) _ msgId _ => if p = q then some msgId else none
  | _ => none

theorem told_append (q : ℕ) (h h' : List LoginAct) : told q (h ++ h') = told q h ++ told q h' :=
  List.filterMap_append

theorem told_spoken (q : ℕ) (h : List LoginAct) : told q (spoken h) = told q h := by
  rw [told, spoken, List.filterMap_filter]
  congr 1
  funext a
  cases a <;> rfl

theorem told_packet (msgId : UInt32) (body : Bytes) (s : LoginServer) :
    told q (s.packet p msgId body) = if p = q ∧ s.Connected p then [msgId] else [] := by
  cases hgs : s.session_map_ (s.players p).gate_session_fd_ with
  | none =>
      have hno : ¬ s.Connected p := by simp [LoginServer.Connected, hgs]
      rw [if_neg fun hall => hno hall.2]
      simp [told, LoginServer.packet, hgs]
  | some gs =>
      have hc : s.Connected p := by simp [LoginServer.Connected, hgs]
      obtain rfl | hp := eq_or_ne p q
      · simp [told, LoginServer.packet, hgs, hc]
      · simp [told, LoginServer.packet, hgs, hp]

/-- A player that somebody has in mind: it is on file, or it is about to be. -/
def LoginServer.Expected (p : ℕ) (s : LoginServer) : Prop := s.Waiting p ∨ p = s.made

/-- What a step says: it announces a login, or it refuses one, or it says nothing. -/
inductive Speaks (P : LoginProto) (s : LoginServer) : List (Event Bytes ℕ) → List LoginAct → Prop where
  | login (t : LoginServer) (ptid : Bytes) (p : ℕ) (hp : s.Expected p)
      (hholder : t.holder ptid = s.holder ptid)
      (hpacket : ∀ q < s.made, ∀ msgId body, t.packet q msgId body = s.packet q msgId body) :
      Speaks P s [.login ptid p] (t.announced P (.login ptid p))
  | refusal (t : LoginServer) (p : ℕ) (hp : s.Expected p) (errorCode : UInt32) :
      Speaks P s [] (t.refused P p errorCode)
  | nothing (events : List (Event Bytes ℕ)) (hno : ∀ e ∈ events, e.holder = none) :
      Speaks P s events []

namespace Sound

theorem speaks_processMsg (h : Sound s) (m : MessageParam) :
    Speaks P s (m.directoryEvents P cfg s) (m.speech P cfg s) := by
  unfold MessageParam.speech
  cases hreq : m.request P with
  | none =>
      refine .nothing _ fun e he => ?_
      unfold MessageParam.directoryEvents at he
      by_cases hid : m.msg_id = GG_LS_Login_REQ
      · rw [MessageParam.request, if_pos hid] at hreq
        rw [if_pos hid, hreq] at he
        cases he
      · rw [if_neg hid] at he
        split_ifs at he
        · cases hptid : P.parseLogoff m.data with
          | none =>
              rw [hptid] at he
              cases he
          | some ptid =>
              rw [hptid] at he
              rw [List.mem_singleton.mp he]
              rfl
        · cases he
  | some req =>
      have hid := msg_id_of_request hreq
      rw [MessageParam.request, if_pos hid] at hreq
      rw [MessageParam.directoryEvents, if_pos hid, hreq]
      dsimp only
      split_ifs
      · exact .refusal _ _ (.inr rfl) _
      · rw [List.flatMap_singleton]
        refine .login _ _ _ (.inr rfl) ?_ fun q hq => packet_accept _ _ hq
        exact congrFun (h.directory_accept m.gate_session_fd m.transID.toUInt32) req.ptid
      · exact .nothing _ (by simp)

theorem speaks_processApMsg (h : Sound s) (m : APMsg) :
    Speaks P s (m.directoryEvents s) (m.speech P s) := by
  unfold APMsg.speech APMsg.directoryEvents APMsg.fails
  cases m.authInfo with
  | none => exact .nothing _ (by simp)
  | some auth =>
      have hwait (p : ℕ) (hof : s.playerOf auth = some p)
          (hl : (s.players p).fsm_.current_state_ = .login) : s.Expected p := by
        refine .inl (h.idx.waiting_of_not_online hof fun hon => ?_).1
        simp [Player.isOnline, Player.getCurStateType, hl, getFsmStateType] at hon
      dsimp only
      cases hof : s.playerOf auth with
      | none => split_ifs <;> exact .nothing _ (by simp)
      | some p =>
          dsimp only
          rw [Option.filter_some]
          by_cases hl : (s.players p).fsm_.current_state_ = .login
          · have hp := hwait p hof hl
            rw [decide_eq_true hl, if_pos rfl]
            by_cases hres : m.result = .success
            · simp only [hres, and_true, ne_eq, not_true, and_false, if_false, Option.elim_none,
                List.append_nil]
              split_ifs
              · rw [List.flatMap_singleton]
                exact .login _ _ _ hp rfl fun _ _ _ _ => rfl
              all_goals exact .nothing _ (by simp)
            · simp only [hres, and_false, if_false, ne_eq, not_false_iff, and_true]
              split_ifs
              · exact .refusal _ _ hp _
              · exact .nothing _ (by simp)
          · simp only [hl, false_and, if_false, decide_false, Bool.false_eq_true]
            split_ifs <;> exact .nothing _ (by simp)

/-- **What a step says**, beside what it is for the directory. -/
theorem speaks (h : Sound s) (e : LoginEvent) :
    Speaks P s (directoryEvents P cfg s e) (speech P cfg s e) := by
  cases e with
  | processMsg clock =>
      unfold directoryEvents speech
      cases s.message_list_ with
      | nil => exact .nothing _ (by simp)
      | cons m rest => exact h.speaks_processMsg m
  | processApMsg clock =>
      unfold directoryEvents speech
      cases s.apg_list_ with
      | nil => exact .nothing _ (by simp)
      | cons m rest => exact h.speaks_processApMsg m
  | _ => exact .nothing _ (by simp [directoryEvents])

end Sound

/-! ### Kick-offs -/

theorem mem_packet {c : Option ℕ} {fd msgId msgId' : UInt32} {msg body : Bytes}
    (h : .sent c fd msgId msg ∈ s.packet p msgId' body) : c = some p ∧ msgId = msgId' := by
  unfold LoginServer.packet at h
  split at h
  · obtain ⟨rfl, -, rfl, -⟩ := LoginAct.sent.inj (List.mem_singleton.mp h)
    exact ⟨rfl, rfl⟩
  · cases h

/-- Whoever holds an account has logged in under it. -/
theorem Sound.holds (h : Sound s) {ptid : Bytes} (hq : s.holder ptid = some q) :
    q < s.made ∧ (s.players q).szPTID_ = ptid ∧ (s.players q).fsm_.current_state_ ≠ .login := by
  obtain ⟨id, hid, hfile⟩ := Option.bind_eq_some_iff.mp hq
  obtain ⟨-, q', hfile', -, hon⟩ := h.idx.registered ptid id hid
  obtain rfl := Option.some.inj (hfile.symm.trans hfile')
  refine ⟨(h.idx.filed id q hfile).1, h.idx.szPTID_of_holder hq, fun hl => ?_⟩
  simp [Player.isOnline, Player.getCurStateType, hl, getFsmStateType] at hon

theorem not_expected (hlt : q < s.made) (hl : (s.players q).fsm_.current_state_ ≠ .login) :
    ¬ s.Expected q := by
  rintro (hw | rfl)
  · exact hl hw.2
  · exact absurd hlt (Nat.lt_irrefl _)

/-- Logoffs put nobody into the directory. -/
theorem after_logoffs {events : List (Event Bytes ℕ)} (hno : ∀ e ∈ events, e.holder = none)
    {d : Bytes → Option ℕ} {a : Bytes} (h : after d events a = some p) : d a = some p := by
  induction events generalizing d with
  | nil => exact h
  | cons e events ih =>
      have h₁ : Function.update d e.account e.holder a = some p :=
        ih (fun e' he' => hno e' (List.mem_cons_of_mem _ he')) h
      rw [hno e List.mem_cons_self] at h₁
      obtain rfl | ha := eq_or_ne a e.account
      · rw [Function.update_self] at h₁
        cases h₁
      · rwa [Function.update_of_ne ha] at h₁

/-- What is new in the history of a step, for players, is what the step says. -/
theorem Sound.mem_news (h : Sound s) {e : LoginEvent} (hs : LoginServer.step P cfg s e = some s')
    (hmade : s'.made < 2 ^ 64) {c : Option ℕ} {fd msgId : UInt32} {msg : Bytes} :
    .sent c fd msgId msg ∈ s'.history.drop s.history.length ↔
      .sent c fd msgId msg ∈ speech P cfg s e := by
  obtain ⟨l, hl⟩ := history_step hs
  have hsaid := h.spoken_step P cfg hs hmade
  rw [hl, spoken_append, List.append_cancel_left_eq] at hsaid
  rw [hl, List.drop_left, ← hsaid, spoken, List.mem_filter]
  simp

/-- **Kicked off is who is replaced**: in every step the kick-off of a player is sent exactly if
somebody else takes an account that the player held, and its gate is connected. -/
theorem kicked_off_iff_replaced (P : LoginProto) (cfg : Config) (es : List LoginEvent)
    (s s' : LoginServer) (e : LoginEvent) (q : ℕ) (fd : UInt32) (msg : Bytes)
    (h : (loginMachine P cfg).run es = some s) (hs : (loginMachine P cfg).step s e = some s')
    (hw : (requests s'.history).length < 2 ^ 64) :
    .sent (some q) fd LS_GG_Kickoff_NTF msg ∈ s'.history.drop s.history.length ↔
      ∃ ptid p, s.holder ptid = some q ∧ s'.holder ptid = some p ∧ p ≠ q ∧
        .sent (some q) fd LS_GG_Kickoff_NTF msg ∈
          s.packet q LS_GG_Kickoff_NTF (P.serializeKickoff ptid) := by
  have hrun' : (loginMachine P cfg).run (es ++ [e]) = some s' :=
    (loginMachine P cfg).run_snoc h hs
  have hs : LoginServer.step P cfg s e = some s' := hs
  rw [length_requests hrun'] at hw
  have hsound := sound_of_run h (Nat.lt_of_le_of_lt (made_le_step hs) hw)
  have hdir : ∀ a, s'.holder a = after s.directory (directoryEvents P cfg s e) a :=
    congrFun (hsound.directory_step P cfg hs hw)
  rw [hsound.mem_news hs hw]
  have hack (t : LoginServer) (p : ℕ) (body : Bytes) :
      .sent (some q) fd LS_GG_Kickoff_NTF msg ∉ t.packet p LS_GG_Login_ACK body :=
    fun hm => absurd (mem_packet hm).2 (by decide)
  have hsp : Speaks P s (directoryEvents P cfg s e) (speech P cfg s e) := hsound.speaks e
  revert hdir
  generalize directoryEvents P cfg s e = events, speech P cfg s e = said at hsp
  intro hdir
  cases hsp with
  | login t ptid p hp hholder hpacket =>
      have hnew : s'.holder ptid = some p := (hdir ptid).trans (Function.update_self ..)
      have hold (a : Bytes) (ha : a ≠ ptid) : s'.holder a = s.holder a :=
        (hdir a).trans (Function.update_of_ne ha ..)
      rw [LoginServer.announced, List.mem_append, or_iff_left (hack t p _), hholder]
      constructor
      · intro hm
        cases hq₀ : s.holder ptid with
        | none =>
            rw [hq₀] at hm
            cases hm
        | some q₀ =>
            rw [hq₀, Option.elim_some] at hm
            obtain rfl := Option.some.inj (mem_packet hm).1
            obtain ⟨hlt, -, hl⟩ := hsound.holds hq₀
            rw [hpacket q hlt] at hm
            refine ⟨ptid, p, hq₀, hnew, ?_, hm⟩
            rintro rfl
            exact not_expected hlt hl hp
      · rintro ⟨a, p', hq, hp', hne, hm⟩
        obtain rfl : a = ptid := by
          by_contra ha
          rw [hold a ha, hq] at hp'
          exact hne (Option.some.inj hp').symm
        rw [hq, Option.elim_some, hpacket q (hsound.holds hq).1]
        exact hm
  | refusal t p hp errorCode =>
      refine ⟨fun hm => absurd hm (hack t p _), ?_⟩
      rintro ⟨a, p', hq, hp', hne, -⟩
      have hsame : s'.holder a = s.holder a := hdir a
      rw [hsame, hq] at hp'
      exact absurd (Option.some.inj hp').symm hne
  | nothing events hno =>
      constructor
      · intro hm
        cases hm
      · rintro ⟨a, p', hq, hp', hne, -⟩
        have hp : s.holder a = some p' := after_logoffs hno ((hdir a).symm.trans hp')
        exact absurd (Option.some.inj (hp.symm.trans hq)) hne

/-- The account `accountA` is logged in, and a second login for it has arrived. -/
def challenged : List LoginEvent :=
  .addSession 1 :: (request (bodyOf 65) ++
    [.recvData 1 (encodeInnerMsg (GG_LS_Login_REQ, 5, bodyOf 65))])

theorem kicked_off_iff_replaced_second : ∃ s s',
    (loginMachine plainProto localTest).run challenged = some s ∧
    (loginMachine plainProto localTest).step s (.processMsg midnight) = some s' ∧
    .sent (some 0) 1 LS_GG_Kickoff_NTF
      (gatePacket LS_GG_Kickoff_NTF (plainProto.serializeKickoff accountA) 5) ∈
        s'.history.drop s.history.length := by
  obtain ⟨s', h'⟩ : ∃ s', (loginMachine plainProto localTest).run
      (challenged ++ [.processMsg midnight]) = some s' :=
    Option.isSome_iff_exists.mp (by decide +kernel)
  obtain ⟨s, h, hs⟩ := (loginMachine plainProto localTest).run_snoc_eq_some h'
  have hobs : ((loginMachine plainProto localTest).run challenged).map (fun s =>
      (s.holder accountA, decide (.sent (some 0) 1 LS_GG_Kickoff_NTF
        (gatePacket LS_GG_Kickoff_NTF (plainProto.serializeKickoff accountA) 5) ∈
          s.packet 0 LS_GG_Kickoff_NTF (plainProto.serializeKickoff accountA)))) =
      some (some 0, true) := by decide +kernel
  have hobs' : ((loginMachine plainProto localTest).run (challenged ++ [.processMsg midnight])).map
      (fun s => ((requests s.history).length, s.holder accountA)) = some (2, some 1) := by
    decide +kernel
  rw [h] at hobs
  rw [h'] at hobs'
  simp only [Option.map_some, Option.some.injEq, Prod.mk.injEq, decide_eq_true_eq] at hobs hobs'
  exact ⟨s, s', h, hs, (kicked_off_iff_replaced plainProto localTest _ s s' _ 0 1 _ h hs
    (by rw [hobs'.1]; decide)).mpr ⟨accountA, 1, hobs.1, hobs'.2, by decide, hobs.2⟩⟩

/-! ### Runs -/

/-- What a player has been told, and that nothing more comes for it once it is kicked off. -/
structure Hears (q : ℕ) (s : LoginServer) : Prop where
  order : (told q s.history).Sublist [LS_GG_Login_ACK, LS_GG_Kickoff_NTF]
  kicked : LS_GG_Kickoff_NTF ∈ told q s.history →
    q < s.made ∧ (s.players q).fsm_.current_state_ ≠ .login ∧ ∀ ptid, s.holder ptid ≠ some q

theorem acks_ne_zero (h : LS_GG_Login_ACK ∈ told q s.history) : acks q s.history ≠ 0 := by
  obtain ⟨a, ha, htold⟩ := List.mem_filterMap.mp h
  intro hzero
  have hno := List.countP_eq_zero.mp hzero a ha
  cases a with
  | sent c fd msgId msg =>
      cases c with
      | none => cases htold
      | some p =>
          by_cases hp : p = q
          · simp only [hp, if_true, Option.some.injEq] at htold
            simp [isAck, hp, htold] at hno
          · simp [hp] at htold
  | _ => cases htold

theorem sublist_singleton_of_not_mem {α : Type} {l : List α} {a b : α} (h : l.Sublist [a, b])
    (hb : b ∉ l) : l.Sublist [a] := by
  obtain ⟨l₁, l₂, rfl, h₁, h₂⟩ := List.sublist_append_iff.mp (show l.Sublist ([a] ++ [b]) from h)
  obtain rfl | rfl := List.sublist_singleton.mp h₂
  · rwa [List.append_nil]
  · exact absurd (List.mem_append_right l₁ List.mem_cons_self) hb

namespace Hears

/-- Nothing was said to somebody who is expected. -/
theorem told_eq_nil (h : Hears q s) (hs : Sound s) (hq : s.Expected q) : told q s.history = [] := by
  have hkick : LS_GG_Kickoff_NTF ∉ told q s.history := fun hkick => by
    obtain ⟨hlt, hl, -⟩ := h.kicked hkick
    exact not_expected hlt hl hq
  have hack : acks q s.history = 0 := by
    obtain hw | rfl := hq
    · exact hs.budget.waiting q hw
    · exact hs.budget.fresh _ (Nat.le_refl _)
  obtain hnil | hone := List.sublist_singleton.mp (sublist_singleton_of_not_mem h.order hkick)
  · exact hnil
  · exact absurd hack (acks_ne_zero (by rw [hone]; exact List.mem_cons_self))

theorem step (h : Hears q s) (hsound : Sound s) {e : LoginEvent}
    (hs : LoginServer.step P cfg s e = some s') (hmade : s'.made < 2 ^ 64) : Hears q s' := by
  have hkeep := (Adds.step (P := P) hsound hs hmade).toKeeping
  have hdir : ∀ a, s'.holder a = after s.directory (directoryEvents P cfg s e) a :=
    congrFun (hsound.directory_step P cfg hs hmade)
  have htold : told q s'.history = told q s.history ++ told q (speech P cfg s e) := by
    rw [← told_spoken, hsound.spoken_step P cfg hs hmade, told_append, told_spoken]
  have hsp : Speaks P s (directoryEvents P cfg s e) (speech P cfg s e) := hsound.speaks e
  revert hdir htold
  generalize directoryEvents P cfg s e = events, speech P cfg s e = said at hsp
  intro hdir htold
  -- whoever is gone does not come back
  have hgone (hlt : q < s.made) (hl : (s.players q).fsm_.current_state_ ≠ .login)
      (hno : ∀ ptid, s'.holder ptid ≠ some q) : q < s'.made ∧
        (s'.players q).fsm_.current_state_ ≠ .login ∧ ∀ ptid, s'.holder ptid ≠ some q :=
    ⟨Nat.lt_of_lt_of_le hlt hkeep.made, (hkeep.settled q hlt hl).2, hno⟩
  cases hsp with
  | login t ptid p hp hholder hpacket =>
      have hnew : s'.holder ptid = some p := (hdir ptid).trans (Function.update_self ..)
      have hold (a : Bytes) (ha : a ≠ ptid) : s'.holder a = s.holder a :=
        (hdir a).trans (Function.update_of_ne ha ..)
      rw [LoginServer.announced, told_append, told_packet, hholder] at htold
      obtain rfl | hpq := eq_or_ne p q
      · -- its own login: whoever is kicked off is somebody else
        have hother : told p ((s.holder ptid).elim [] fun q₀ =>
            t.packet q₀ LS_GG_Kickoff_NTF (P.serializeKickoff ptid)) = [] := by
          cases hq₀ : s.holder ptid with
          | none => rfl
          | some q₀ =>
              obtain ⟨hlt, -, hl⟩ := hsound.holds hq₀
              rw [Option.elim_some, told_packet, if_neg]
              rintro ⟨rfl, -⟩
              exact not_expected hlt hl hp
        rw [h.told_eq_nil hsound hp, hother, List.nil_append, List.nil_append] at htold
        refine ⟨?_, fun hkick => ?_⟩
        · rw [htold]
          split_ifs <;> simp
        · rw [htold] at hkick
          split_ifs at hkick
          · exact absurd hkick (by decide)
          · cases hkick
      · rw [if_neg fun hall => hpq hall.1, List.append_nil] at htold
        have hleft (hno : ∀ a, a ≠ ptid → s.holder a ≠ some q) : ∀ a, s'.holder a ≠ some q := by
          intro a
          obtain rfl | ha := eq_or_ne a ptid
          · rw [hnew]
            exact fun e => hpq (Option.some.inj e)
          · rw [hold a ha]
            exact hno a ha
        by_cases hq : s.holder ptid = some q
        · -- the kick-off
          obtain ⟨hlt, hptid, hl⟩ := hsound.holds hq
          have hnot : LS_GG_Kickoff_NTF ∉ told q s.history :=
            fun hkick => (h.kicked hkick).2.2 ptid hq
          rw [hq, Option.elim_some, told_packet] at htold
          refine ⟨?_, fun _ => hgone hlt hl (hleft fun a ha hqa => ha ?_)⟩
          · rw [htold]
            refine List.Sublist.append (sublist_singleton_of_not_mem h.order hnot) ?_
            split_ifs <;> simp
          · rw [← (hsound.holds hqa).2.1, hptid]
        · -- it is about others
          have hother : told q ((s.holder ptid).elim [] fun q₀ =>
              t.packet q₀ LS_GG_Kickoff_NTF (P.serializeKickoff ptid)) = [] := by
            cases hq₀ : s.holder ptid with
            | none => rfl
            | some q₀ =>
                rw [Option.elim_some, told_packet, if_neg]
                rintro ⟨rfl, -⟩
                exact hq hq₀
          rw [hother, List.append_nil] at htold
          refine ⟨by rw [htold]; exact h.order, fun hkick => ?_⟩
          rw [htold] at hkick
          obtain ⟨hlt, hl, hno⟩ := h.kicked hkick
          exact hgone hlt hl (hleft fun a _ => hno a)
  | refusal t p hp errorCode =>
      have hsame (a : Bytes) : s'.holder a = s.holder a := hdir a
      rw [LoginServer.refused, told_packet] at htold
      split_ifs at htold with hpq
      · obtain ⟨rfl, -⟩ := hpq
        rw [h.told_eq_nil hsound hp, List.nil_append] at htold
        refine ⟨by rw [htold]; simp, fun hkick => ?_⟩
        rw [htold] at hkick
        exact absurd hkick (by decide)
      · rw [List.append_nil] at htold
        refine ⟨by rw [htold]; exact h.order, fun hkick => ?_⟩
        rw [htold] at hkick
        obtain ⟨hlt, hl, hno⟩ := h.kicked hkick
        exact hgone hlt hl fun a => by rw [hsame]; exact hno a
  | nothing events hno =>
      have htold : told q s'.history = told q s.history := htold.trans (List.append_nil _)
      refine ⟨by rw [htold]; exact h.order, fun hkick => ?_⟩
      rw [htold] at hkick
      obtain ⟨hlt, hl, hfree⟩ := h.kicked hkick
      exact hgone hlt hl fun a ha => hfree a (after_logoffs hno ((hdir a).symm.trans ha))

end Hears

/-- **A player is told at most twice**: the answer to its request, and that it is kicked off, in
this order. -/
theorem told_sublist (P : LoginProto) (cfg : Config) (es : List LoginEvent) (s : LoginServer) (q : ℕ)
    (h : (loginMachine P cfg).run es = some s) (hw : (requests s.history).length < 2 ^ 64) :
    (told q s.history).Sublist [LS_GG_Login_ACK, LS_GG_Kickoff_NTF] := by
  rw [length_requests h] at hw
  refine ((loginMachine P cfg).run_induction (P := fun _ s => s.made < 2 ^ 64 → Hears q s) ?_ ?_ h
    hw).order
  · intro _
    exact ⟨List.nil_sublist _, fun hkick => by cases hkick⟩
  · intro es s e s' hrun ih hs hmade
    have hle : s.made < 2 ^ 64 := Nat.lt_of_le_of_lt (made_le_step hs) hmade
    exact (ih hle).step (sound_of_run hrun hle) hs hmade

theorem told_sublist_both : ∃ s, (loginMachine plainProto localTest).run
      (challenged ++ [.processMsg midnight]) = some s ∧
    told 0 s.history = [LS_GG_Login_ACK, LS_GG_Kickoff_NTF] ∧
    (told 0 s.history).Sublist [LS_GG_Login_ACK, LS_GG_Kickoff_NTF] := by
  obtain ⟨s, h⟩ : ∃ s, (loginMachine plainProto localTest).run
      (challenged ++ [.processMsg midnight]) = some s :=
    Option.isSome_iff_exists.mp (by decide +kernel)
  have hobs : ((loginMachine plainProto localTest).run (challenged ++ [.processMsg midnight])).map
      (fun s => ((requests s.history).length, told 0 s.history)) =
      some (2, [LS_GG_Login_ACK, LS_GG_Kickoff_NTF]) := by decide +kernel
  rw [h] at hobs
  simp only [Option.map_some, Option.some.injEq, Prod.mk.injEq] at hobs
  exact ⟨s, h, hobs.2, told_sublist plainProto localTest _ s 0 h (by rw [hobs.1]; decide)⟩

end BlackSwan.Login
