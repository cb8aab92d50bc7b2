import BlackSwan.GateLoginInvariant

/-! # Runs of the gate with the login server

The invariant of the two servers together, and what it comes to for the clients of the gate. -/

namespace BlackSwan

open Wire Runs
open Login (Intake IntakeEvent LoginAct LoginProto Config Spoken Progress)

variable {P : GateProto} {Q : LoginProto} {cfg : Config}

structure GateLogin.Inv (P : GateProto) (Q : LoginProto) (cfg : Config) (x : GateLogin) : Prop where
  gate : (gateMachine P).Reachable x.gate
  login : (Login.intakeMachine Q cfg).Reachable x.login
  upward : ∀ fd, x.owner fd ≠ .other → ∃ done todo, Upward fd x done todo
  downward : ∀ fd, ∃ left, Downward fd x left
  link : ∀ fd, x.link = some fd → x.owner fd = .ours
  found : ∀ fd, x.owner fd ≠ .ours → x.found fd = []
  handed : ∀ fd, ∀ msg ∈ x.handed fd, ∃ cause, .upstream cause .login msg ∈ x.gate.history

namespace GateLogin

variable {x : GateLogin}

/-! ### Steps of the gate -/

/-- Packets are handed to the connection. -/
theorem Inv.hand (h : Inv P Q cfg x) {msgs : List Bytes} (hf : ∀ msg ∈ msgs, Framed msg)
    (hsrc : ∀ msg ∈ msgs, ∃ cause, .upstream cause .login msg ∈ x.gate.history) :
    Inv P Q cfg (x.hand msgs) := by
  unfold GateLogin.hand
  cases hlink : x.link with
  | none => exact h
  | some fd₀ =>
      dsimp only
      refine ⟨h.gate, h.login, fun fd hfd => ?_, fun fd => ?_, ?_, h.found, fun fd => ?_⟩
      · obtain ⟨done, todo, hup⟩ := h.upward fd hfd
        by_cases he : fd = fd₀
        · subst he
          exact ⟨done, hup.push hf (by simp) (by simp) rfl⟩
        · exact ⟨done, todo, hup.of_eq (by simp [he]) (by simp [he]) rfl⟩
      · obtain ⟨left, hdown⟩ := h.downward fd
        exact ⟨left, hdown.of_eq rfl rfl (by simp [hlink]) rfl rfl⟩
      · intro fd hfd
        exact h.link fd (hlink.trans hfd)
      · intro msg hmsg
        by_cases he : fd = fd₀
        · subst he
          have hmsg : msg ∈ x.handed fd ++ msgs := by simpa using hmsg
          exact (List.mem_append.mp hmsg).elim (h.handed fd msg) (hsrc msg)
        · have hmsg : msg ∈ x.handed fd := by simpa [he] using hmsg
          exact h.handed fd msg hmsg

/-- The gate has gone on, and its history has grown. -/
theorem Inv.gateStep (h : Inv P Q cfg x) {g : GateState} {e : GateEvent}
    (hs : x.gate.step P e = some g) : Inv P Q cfg { x with gate := g } := by
  obtain ⟨es, hrun⟩ := h.gate
  obtain ⟨l, hl, -⟩ := Grows.step (P := P) (gate_inv h.gate) hs
  refine ⟨⟨es ++ [e], Machine.run_snoc _ hrun hs⟩, h.login, fun fd hfd => ?_, fun fd => ?_, h.link,
    h.found, ?_⟩
  · obtain ⟨done, todo, hup⟩ := h.upward fd hfd
    exact ⟨done, todo, hup.of_eq rfl rfl rfl⟩
  · obtain ⟨left, hdown⟩ := h.downward fd
    exact ⟨left, hdown.of_eq rfl rfl rfl rfl rfl⟩
  · intro fd msg hmsg
    obtain ⟨cause, hc⟩ := h.handed fd msg hmsg
    refine ⟨cause, ?_⟩
    rw [hl]
    exact List.mem_append_left _ hc

theorem Inv.setGate (hsz : Sizes P Q) (h : Inv P Q cfg x) {g : GateState} {e : GateEvent}
    (hs : x.gate.step P e = some g) : Inv P Q cfg (x.setGate g) := by
  obtain ⟨l, hl, hspeaks⟩ := Grows.step (P := P) (gate_inv h.gate) hs
  unfold GateLogin.setGate
  rw [hl, List.drop_left]
  refine (h.gateStep hs).hand ?_ ?_
  · intro msg hmsg
    obtain ⟨act, hact, hto⟩ := List.mem_filterMap.mp hmsg
    exact framed_toLogin hsz (hspeaks act hact) hto
  · intro msg hmsg
    obtain ⟨act, hact, hto⟩ := List.mem_filterMap.mp hmsg
    cases act with
    | upstream cause link msg' =>
        cases link with
        | game => cases hto
        | login =>
            obtain rfl := Option.some.inj hto
            refine ⟨cause, ?_⟩
            show _ ∈ g.history
            rw [hl]
            exact List.mem_append_right _ hact
    | _ => cases hto

/-! ### Steps of the login server -/

/-- What the login server hands to the connection that is open. -/
def answerBytes (s : Intake) (x : GateLogin) : Bytes :=
  match x.link with
  | none => []
  | some fd => ((s.server.history.drop x.login.server.history.length).filterMap (toGate fd)).flatten

theorem setLogin_eq (s : Intake) (x : GateLogin) :
    x.setLogin s = { x with login := s, down := x.down ++ x.answerBytes s } := by
  unfold GateLogin.setLogin GateLogin.answerBytes
  cases x.link with
  | none => simp
  | some fd => rfl

/-- A step of the login server, with the bytes that it takes from the connections of the gate. -/
theorem Inv.setLogin (hsz : Sizes P Q) (h : Inv P Q cfg x) {s : Intake} {e : IntakeEvent}
    (hs : x.login.step Q cfg e = some s) (hmade : s.server.made < 2 ^ 64)
    {up : UInt32 → Bytes}
    (hup : ∀ fd, x.owner fd ≠ .other → x.up fd = Login.received fd [e] ++ up fd) :
    Inv P Q cfg { x with login := s, up, down := x.down ++ x.answerBytes s } := by
  obtain ⟨es, hrun⟩ := h.login
  have hreach : (Login.intakeMachine Q cfg).Reachable s := ⟨es ++ [e], Machine.run_snoc _ hrun hs⟩
  obtain ⟨l, hl⟩ := Login.Intake.history_step hs
  refine ⟨h.gate, hreach, fun fd hfd => ?_, fun fd => ?_, h.link, h.found, h.handed⟩
  · obtain ⟨done, todo, hupward⟩ := h.upward fd hfd
    show ∃ done todo, Upward fd { x with login := s, up, down := x.down ++ x.answerBytes s } done todo
    exact hupward.step hs (hup fd hfd) rfl
  · obtain ⟨left, hdown⟩ := h.downward fd
    obtain ⟨ms, hms, hmap, hcount⟩ := framed_toGate hsz (Login.length_szPTID_le hreach) fd l
      fun a ha => Login.spoken_of_intake hreach hmade a (by rw [hl]; exact List.mem_append_right _ ha)
    have hgrow (u : UInt32) : (s.server.history.filterMap (LoginAct.answered fd u)).length =
        (x.login.server.history.filterMap (LoginAct.answered fd u)).length +
          ms.countP (isAnswer u) := by
      rw [hl, List.filterMap_append, List.length_append, hcount]
    by_cases hlink : x.link = some fd
    · refine ⟨left ++ ms, fun u => ?_, fun _ => ?_⟩
      · have ha := hdown.answers u
        show (x.found fd ++ (left ++ ms)).countP (isAnswer u) ≤ _
        rw [hgrow, ← List.append_assoc, List.countP_append]
        omega
      · have hbytes : x.answerBytes s = innerCode.stream ms := by
          simp only [GateLogin.answerBytes, hlink]
          rw [hl, List.drop_left, ← hmap]
          rfl
        show innerCode.Piped BUF_SIZE (left ++ ms) x.recvBuffer_ (x.down ++ x.answerBytes s)
        rw [hbytes]
        exact (hdown.piped hlink).pushAll fun m hm => fits_inner (hms m hm)
    · refine ⟨left, fun u => ?_, fun hfd => absurd hfd hlink⟩
      have ha := hdown.answers u
      show (x.found fd ++ left).countP (isAnswer u) ≤ _
      rw [hgrow]
      omega

/-! ### The connections -/

/-- One round of the gate's reader is a step of the gate with what the buffer holds, and it takes the
packets that are whole out of the buffer. -/
theorem gateReads_eq (h : (gateMachine P).Reachable x.gate) (hc : x.gate.crashed = false)
    (fd : UInt32) (buf : Bytes) :
    ∃ g, x.gate.step P (.loginData (x.recvBuffer_ ++ buf)) = some g ∧
      x.gateReads P fd buf = ({ x with
        recvBuffer_ := innerDecoder.rest (x.recvBuffer_ ++ buf)
        down := x.down.drop buf.length
        found := Function.update x.found fd
          (x.found fd ++ (innerDecoder.frames (x.recvBuffer_ ++ buf)).map innerCode.view) } :
        GateLogin).setGate g := by
  have hends := onRecvLoginData_inv (P := P) (linkInv_of_inv (gate_inv h) hc .login)
    (x.recvBuffer_ ++ buf)
  have hstep : x.gate.step P (.loginData (x.recvBuffer_ ++ buf)) =
      some (GateState.settle id (GateState.onRecvLoginData P (x.recvBuffer_ ++ buf)
        { x.gate with cause := .link .login })) := if_neg (by simp [hc])
  refine ⟨_, hstep, ?_⟩
  unfold GateLogin.gateReads
  rw [GateState.onRecvLoginData, innerLoop, recvLoop_eq] at hends
  rw [GateState.onRecvLoginData, innerLoop, readerRound_recvLoop, recvLoop_eq, feed,
    innerDecoder.drain_eq]
  cases hr : handleAll (onPacket InnerPacket.id (GateState.replyInnerPing .login) fun pack g =>
      (g.receive .login pack).processLoginMessage P pack.id pack.body pack.transID)
      (innerDecoder.frames (x.recvBuffer_ ++ buf)) { x.gate with cause := .link .login } with
  | ok _ g => rfl
  | error e g =>
      rw [hr] at hends
      exact hends.elim

/-- The gate's reader takes bytes from the connection. -/
theorem Inv.gateReads (hsz : Sizes P Q) (h : Inv P Q cfg x) {fd : UInt32} (hlink : x.link = some fd)
    (hc : x.gate.crashed = false) {n : ℕ} (hn : n ≤ BUF_SIZE) (hle : n ≤ x.down.length) :
    Inv P Q cfg (x.gateReads P fd (x.down.take n)) := by
  obtain ⟨g, hs, heq⟩ := gateReads_eq h.gate hc fd (x.down.take n)
  rw [heq]
  refine Inv.setGate hsz ?_ hs
  have hlen : (x.down.take n).length = n := List.length_take_of_le hle
  refine ⟨h.gate, h.login, fun fd' hfd' => ?_, fun fd' => ?_, h.link, fun fd' hfd' => ?_, h.handed⟩
  · obtain ⟨done, todo, hup⟩ := h.upward fd' hfd'
    exact ⟨done, todo, hup.of_eq rfl rfl rfl⟩
  · obtain ⟨left, hdown⟩ := h.downward fd'
    by_cases he : fd' = fd
    · subst he
      have hpiped := hdown.piped hlink
      rw [← List.take_append_drop n x.down] at hpiped
      obtain ⟨done, left', rfl, hframes, hpiped'⟩ := hpiped.read (hlen.trans_le hn)
      refine ⟨left', fun u => ?_, fun _ => ?_⟩
      · have ha := hdown.answers u
        rw [← List.append_assoc] at ha
        simpa [hframes] using ha
      · rw [hlen]
        exact hpiped'
    · refine ⟨left, fun u => ?_, fun hfd => ?_⟩
      · have ha := hdown.answers u
        simpa [he] using ha
      · exact absurd (Option.some.inj (hlink.symm.trans hfd)).symm he
  · have hne : fd' ≠ fd := by
      rintro rfl
      exact hfd' (h.link fd' hlink)
    simpa [hne] using h.found fd' hfd'

/-- A new connection. -/
theorem Inv.connect (h : Inv P Q cfg x) {fd₀ : UInt32} (hfresh : x.owner fd₀ = .fresh) :
    Inv P Q cfg { x with
      recvBuffer_ := []
      owner := Function.update x.owner fd₀ .ours
      link := some fd₀
      down := [] } := by
  refine ⟨h.gate, h.login, fun fd hfd => ?_, fun fd => ?_, fun fd hfd => ?_, fun fd hfd => ?_,
    h.handed⟩
  · have hother : x.owner fd ≠ .other := by
      by_cases he : fd = fd₀
      · rw [he, hfresh]
        simp
      · simpa [he] using hfd
    obtain ⟨done, todo, hup⟩ := h.upward fd hother
    exact ⟨done, todo, hup.of_eq rfl rfl rfl⟩
  · obtain ⟨left, hdown⟩ := h.downward fd
    refine ⟨[], fun u => ?_, fun _ => FrameCode.Piped.nil⟩
    have ha := hdown.answers u
    rw [List.countP_append] at ha
    simp only [List.append_nil]
    omega
  · obtain rfl := Option.some.inj hfd
    simp
  · have hne : fd ≠ fd₀ := by
      rintro rfl
      simp at hfd
    exact h.found fd (by simpa [hne] using hfd)

/-- The connection breaks. -/
theorem Inv.disconnect (h : Inv P Q cfg x) : Inv P Q cfg { x with link := none } := by
  refine ⟨h.gate, h.login, fun fd hfd => ?_, fun fd => ?_, fun _ hfd => (by cases hfd), h.found,
    h.handed⟩
  · obtain ⟨done, todo, hup⟩ := h.upward fd hfd
    exact ⟨done, todo, hup.of_eq rfl rfl rfl⟩
  · obtain ⟨left, hdown⟩ := h.downward fd
    exact ⟨[], hdown.drop rfl rfl (by simp)⟩

/-- A connection of another gate. -/
theorem Inv.accept (h : Inv P Q cfg x) {fd₀ : UInt32} (hfresh : x.owner fd₀ = .fresh) :
    Inv P Q cfg { x with owner := Function.update x.owner fd₀ .other } := by
  have hown (fd : UInt32) : Function.update x.owner fd₀ .other fd ≠ .other → fd ≠ fd₀ := by
    rintro hfd rfl
    simp at hfd
  refine ⟨h.gate, h.login, fun fd hfd => ?_, fun fd => ?_, fun fd hfd => ?_, fun fd hfd => ?_,
    h.handed⟩
  · obtain ⟨done, todo, hup⟩ := h.upward fd (by simpa [hown fd hfd] using hfd)
    exact ⟨done, todo, hup.of_eq rfl rfl rfl⟩
  · obtain ⟨left, hdown⟩ := h.downward fd
    exact ⟨left, hdown.of_eq rfl rfl rfl rfl rfl⟩
  · have hours := h.link fd hfd
    have hne : fd ≠ fd₀ := by
      rintro rfl
      rw [hfresh] at hours
      cases hours
    simpa [hne] using hours
  · refine h.found fd fun hours => hfd ?_
    have hne : fd ≠ fd₀ := by
      rintro rfl
      rw [hfresh] at hours
      cases hours
    simpa [hne] using hours

/-! ### Every step -/

/-- What a step can do. -/
inductive Stepped (P : GateProto) (Q : LoginProto) (cfg : Config) (x : GateLogin) : GateLogin → Prop where
  | gate {e : GateEvent} {g : GateState} (hg : x.gate.step P e = some g) :
      Stepped P Q cfg x (x.setGate g)
  | login {e : IntakeEvent} {s : Intake} (hs : x.login.step Q cfg e = some s)
      (hno : ∀ fd, x.owner fd ≠ .other → Login.received fd [e] = []) :
      Stepped P Q cfg x (x.setLogin s)
  | accept {fd : UInt32} (hfresh : x.owner fd = .fresh) :
      Stepped P Q cfg x { x with owner := Function.update x.owner fd .other }
  | connect {fd : UInt32} {g : GateState} (hfresh : x.owner fd = .fresh)
      (hg : x.gate.step P (.linkChange .login true) = some g) : Stepped P Q cfg x { x with
        gate := g
        recvBuffer_ := []
        owner := Function.update x.owner fd .ours
        link := some fd
        down := [] }
  | disconnect {g : GateState} (hg : x.gate.step P (.linkChange .login false) = some g) :
      Stepped P Q cfg x { x with gate := g, link := none }
  | gateReads {fd : UInt32} {n : ℕ} (hlink : x.link = some fd) (hc : x.gate.crashed = false)
      (hn : n ≤ BUF_SIZE) (hle : n ≤ x.down.length) :
      Stepped P Q cfg x (x.gateReads P fd (x.down.take n))
  | loginReads {fd : UInt32} {n : ℕ} {s : Intake}
      (hs : x.login.step Q cfg (.read fd ((x.up fd).take n)) = some s) : Stepped P Q cfg x
        { x.setLogin s with up := Function.update x.up fd ((x.up fd).drop n) }

theorem step_cases {e : GateLoginEvent} {x' : GateLogin} (hs : x.step P Q cfg e = some x') :
    Stepped P Q cfg x x' := by
  have hgate (e : GateEvent) (hs : (x.gate.step P e).map (fun g => x.setGate g) = some x') :
      Stepped P Q cfg x x' := by
    obtain ⟨g, hg, rfl⟩ := Option.map_eq_some_iff.mp hs
    exact .gate hg
  have hlogin (e : IntakeEvent) (hno : ∀ fd, x.owner fd ≠ .other → Login.received fd [e] = [])
      (hs : (x.login.step Q cfg e).map (fun s => x.setLogin s) = some x') : Stepped P Q cfg x x' := by
    obtain ⟨s, hstep, rfl⟩ := Option.map_eq_some_iff.mp hs
    exact .login hstep hno
  cases e with
  | gate e =>
      cases e with
      | loginData data => cases hs
      | linkChange link up =>
          cases link with
          | login => cases hs
          | game => exact hgate _ hs
      | accept fd => exact hgate _ hs
      | clientData fd data => exact hgate _ hs
      | disconnect fd => exact hgate _ hs
      | peerGone fd => exact hgate _ hs
      | gameData data => exact hgate _ hs
      | clientPing fd => exact hgate _ hs
      | linkPing link => exact hgate _ hs
      | init => exact hgate _ hs
  | login e =>
      cases e with
      | read fd buf =>
          obtain ⟨hother, hs⟩ : x.owner fd = .other ∧
              (x.login.step Q cfg (.read fd buf)).map (fun s => x.setLogin s) = some x' := by
            simpa [GateLogin.step] using hs
          refine hlogin _ (fun fd' hfd' => ?_) hs
          have hne : fd ≠ fd' := by
            rintro rfl
            exact hfd' hother
          simp [Login.received, hne]
      | round fd => exact hlogin _ (fun _ _ => rfl) hs
      | swap => exact hlogin _ (fun _ _ => rfl) hs
      | processMsg clock => exact hlogin _ (fun _ _ => rfl) hs
      | other e => exact hlogin _ (fun _ _ => rfl) hs
  | accept fd =>
      obtain ⟨hfresh, rfl⟩ : x.owner fd = .fresh ∧ _ = x' := by simpa [GateLogin.step] using hs
      exact .accept hfresh
  | connect fd =>
      obtain ⟨⟨-, hfresh⟩, g, hg, rfl⟩ : (x.link = none ∧ x.owner fd = .fresh) ∧
          ∃ g, x.gate.step P (.linkChange .login true) = some g ∧ _ = x' := by
        simpa [GateLogin.step] using hs
      exact .connect hfresh hg
  | disconnect =>
      obtain ⟨g, hg, rfl⟩ := Option.map_eq_some_iff.mp hs
      exact .disconnect hg
  | gateReads n =>
      cases hlink : x.link with
      | none => simp [GateLogin.step, hlink] at hs
      | some fd =>
          obtain ⟨⟨hc, -, hn, hle⟩, rfl⟩ : (x.gate.crashed = false ∧ 0 < n ∧ n ≤ BUF_SIZE ∧
              n ≤ x.down.length) ∧ x.gateReads P fd (x.down.take n) = x' := by
            simpa [GateLogin.step, hlink] using hs
          exact .gateReads hlink hc hn hle
  | loginReads fd n =>
      obtain ⟨-, s, hstep, rfl⟩ : (x.owner fd = .ours ∧ n ≤ (x.up fd).length) ∧
          ∃ s, x.login.step Q cfg (.read fd ((x.up fd).take n)) = some s ∧ _ = x' := by
        simpa [GateLogin.step] using hs
      exact .loginReads hstep

@[simp] theorem hand_login (msgs : List Bytes) (x : GateLogin) : (x.hand msgs).login = x.login := by
  unfold GateLogin.hand
  cases x.link <;> rfl

/-- The login server makes one of its own steps, or none. -/
theorem Stepped.login_step {x' : GateLogin} (hs : Stepped P Q cfg x x') :
    x'.login = x.login ∨ ∃ e, x.login.step Q cfg e = some x'.login := by
  cases hs with
  | gate hg => exact .inl (hand_login _ _)
  | login hs hno =>
      rw [setLogin_eq]
      exact .inr ⟨_, hs⟩
  | accept hfresh => exact .inl rfl
  | connect hfresh hg => exact .inl rfl
  | disconnect hg => exact .inl rfl
  | gateReads hlink hc hn hle => exact .inl (hand_login _ _)
  | loginReads hs =>
      rw [setLogin_eq]
      exact .inr ⟨_, hs⟩

theorem Stepped.made_le {x' : GateLogin} (hs : Stepped P Q cfg x x') :
    x.login.server.made ≤ x'.login.server.made := by
  obtain h | ⟨e, h⟩ := hs.login_step
  · rw [h]
  · exact Login.Intake.made_le h

theorem Inv.step (hsz : Sizes P Q) (h : Inv P Q cfg x) {x' : GateLogin}
    (hs : Stepped P Q cfg x x') (hmade : x'.login.server.made < 2 ^ 64) : Inv P Q cfg x' := by
  cases hs with
  | gate hg => exact h.setGate hsz hg
  | login hs hno =>
      rw [setLogin_eq] at hmade ⊢
      exact h.setLogin hsz hs hmade fun fd hfd => by rw [hno fd hfd, List.nil_append]
  | accept hfresh => exact h.accept hfresh
  | connect hfresh hg => exact (h.gateStep hg).connect hfresh
  | disconnect hg => exact (h.gateStep hg).disconnect
  | gateReads hlink hc hn hle => exact h.gateReads hsz hlink hc hn hle
  | @loginReads fd n s hs =>
      rw [setLogin_eq] at hmade ⊢
      refine h.setLogin hsz hs hmade fun fd' _ => ?_
      by_cases hfd : fd' = fd
      · subst hfd
        simp [Login.received]
      · simp [Login.received, hfd, Ne.symm hfd]

theorem login_of_run {es : List GateLoginEvent} (h : (gateLoginMachine P Q cfg).run es = some x) :
    (Login.intakeMachine Q cfg).Reachable x.login :=
  Machine.reachable_of_simulation GateLogin.login rfl (fun _ _ _ hs => (step_cases hs).login_step)
    ⟨es, h⟩

/-- The invariant of every run that makes fewer than `2^64` players. -/
theorem inv_of_run (hsz : Sizes P Q) {es : List GateLoginEvent}
    (h : (gateLoginMachine P Q cfg).run es = some x) (hmade : x.login.server.made < 2 ^ 64) :
    Inv P Q cfg x := by
  refine (gateLoginMachine P Q cfg).run_induction
    (P := fun _ x => x.login.server.made < 2 ^ 64 → Inv P Q cfg x) ?_ ?_ h hmade
  · intro _
    refine ⟨⟨[], rfl⟩, ⟨[], rfl⟩, fun fd _ => ⟨[], [], ?_⟩, fun fd => ⟨[], ?_⟩, ?_, fun _ _ => rfl, ?_⟩
    · exact ⟨by simp, rfl, [], rfl, rfl, rfl, fun _ => rfl, fun data hd => by cases hd⟩
    · exact ⟨fun u => Nat.le_refl _, fun hfd => by cases hfd⟩
    · intro fd hfd
      cases hfd
    · intro fd msg hmsg
      cases hmsg
  · intro es x e x' _ ih hs hmade
    have hstepped := step_cases hs
    exact (ih (Nat.lt_of_le_of_lt hstepped.made_le hmade)).step hsz hstepped hmade

end GateLogin

/-! ### Answers -/

/-- The packet is a login request with an id that the login server takes for `u`. -/
def isRequest (u : UInt32) (msg : Bytes) : Bool :=
  readWord msg 0 4 == some GG_LS_Login_REQ.toNat && (readWord msg 4 8).map (· % 2 ^ 32) == some u.toNat

/-- The message is a login request with an id that the login server takes for `u`. -/
def asksFor (u : UInt32) (m : InnerMsg) : Bool := m.1 == GG_LS_Login_REQ && m.2.1.toUInt32 == u

theorem isRequest_encode (u : UInt32) (m : InnerMsg) : isRequest u (encodeInnerMsg m) = asksFor u m := by
  rw [isRequest, asksFor, encodeInnerMsg, readWord_msgId, readWord_transID, Bool.eq_iff_iff]
  simp [← UInt32.toNat_inj]

/-- What the main thread has handled for a session has come from the connection. -/
theorem asked_le_handed {x : GateLogin} {fd : UInt32} {done todo : List InnerMsg}
    (h : Upward fd x done todo) (hrec : Login.Records Q x.login) (u : UInt32) :
    ((Login.acceptances x.login.server.history).countP fun a => a.1 == fd && a.2.toUInt32 == u) ≤
      (x.handed fd).countP (isRequest u) := by
  obtain ⟨r, -, hprog⟩ := h.progress
  let asked (m : Login.MessageParam) : Bool := m.msg_id == GG_LS_Login_REQ && m.transID.toUInt32 == u
  calc ((Login.acceptances x.login.server.history).countP fun a => a.1 == fd && a.2.toUInt32 == u)
      ≤ (x.login.processed.filter fun m => m.gate_session_fd = fd).countP asked := by
        rw [hrec.accepted, List.countP_filterMap, List.countP_filter]
        refine List.countP_mono_left fun m _ hm => ?_
        cases hreq : m.request Q with
        | none => simp [Login.MessageParam.asks, hreq] at hm
        | some req =>
            have hid := Login.msg_id_of_request hreq
            simpa [Login.MessageParam.asks, hreq, asked, hid, and_comm] using hm
    _ ≤ (x.login.taken fd).countP asked := by
        rw [Intake.taken, List.filter_append, List.countP_append]
        exact Nat.le_add_right _ _
    _ = (Login.params fd done).countP asked := by rw [hprog.taken]
    _ ≤ done.countP (asksFor u) := by
        rw [Login.params, List.countP_map, List.countP_filter]
        exact List.countP_mono_left fun m _ hm => (Bool.and_eq_true_iff.mp hm).1
    _ ≤ (done ++ todo).countP (asksFor u) := by
        rw [List.countP_append]
        exact Nat.le_add_right _ _
    _ = (x.handed fd).countP (isRequest u) := by
        rw [← h.handed, List.countP_map]
        exact List.countP_congr fun m _ => by rw [Function.comp_apply, isRequest_encode]

/-- **Every answer was asked for.**  On any connection, and for any id, the gate finds no more login
answers with the id than it has handed login requests with the id to the same connection. -/
theorem answers_asked_for (P : GateProto) (Q : LoginProto) (cfg : Config) (hsz : Sizes P Q)
    (es : List GateLoginEvent) (x : GateLogin) (h : (gateLoginMachine P Q cfg).run es = some x)
    (hmade : (Login.requests x.login.server.history).length < 2 ^ 64) (fd u : UInt32) :
    (x.found fd).countP (isAnswer u) ≤ (x.handed fd).countP (isRequest u) := by
  obtain ⟨es', hlogin⟩ := Login.intake_reachable (GateLogin.login_of_run h)
  have hmade : x.login.server.made < 2 ^ 64 := (Login.length_requests hlogin).symm.trans_lt hmade
  have hinv := GateLogin.inv_of_run hsz h hmade
  by_cases hours : x.owner fd = .ours
  · obtain ⟨done, todo, hup⟩ := hinv.upward fd (by simp [hours])
    obtain ⟨left, hdown⟩ := hinv.downward fd
    have hfound := hdown.answers u
    rw [List.countP_append] at hfound
    have hanswers := Login.answers_le_acceptances hlogin hmade fd u
    have hasked := asked_le_handed hup (Login.records_of_reachable hinv.login hmade) u
    exact ((Nat.le_add_right _ _).trans hfound).trans (hanswers.trans hasked)
  · rw [hinv.found fd hours]
    exact Nat.zero_le _

/-- The test configuration of a login server that takes every version. -/
def anyVersion : Config := ⟨true, true, 0⟩

/-- One client logs in over the session 7; its request and the answer to it come in two pieces each. -/
def oneLogin : List GateLoginEvent :=
  [.connect 7, .gate (.linkChange .game true), .gate .init, .gate (.accept 1),
    .login (.other (.addSession 7)),
    .gate (.clientData 1 (encodePacket CLI_GG_Login_REQ [] 0)),
    .gate (.linkPing .login),
    .loginReads 7 10, .login (.round 7), .loginReads 7 27, .login (.round 7), .login (.round 7),
    .login (.round 7), .login .swap, .login (.processMsg Login.midnight), .gateReads 40, .gateReads 5]

theorem length_varint_le : ∀ k n : ℕ, (Login.varint k n).length ≤ k
  | 0, _ => Nat.le_refl 0
  | k + 1, n => by
      rw [Login.varint]
      split_ifs
      · simp
      · simpa using length_varint_le k (n / 128)

theorem length_uintField_le (tag : UInt8) (v : UInt32) : (Login.uintField tag v).length ≤ 6 := by
  have hlen := length_varint_le 5 v.toNat
  unfold Login.uintField
  split_ifs
  · simp
  · rw [List.length_cons]
    omega

theorem length_stringField_le (tag : UInt8) (str : Bytes) :
    (Login.stringField tag str).length ≤ 6 + str.length := by
  have hlen := length_varint_le 5 str.length
  unfold Login.stringField
  split_ifs
  · simp
  · rw [List.length_cons, List.length_append]
    omega

theorem sizes_plain : Sizes plainProto Login.plainProto where
  request _ := Nat.zero_le _
  answer ack hptid hdata := by
    have h₁ := length_uintField_le 8 ack.result
    have h₂ := length_stringField_le 18 ack.ptid
    have h₃ := length_uintField_le 24 ack.wplattype
    have h₄ := length_stringField_le 34 ack.abydatainfo
    have h₅ := length_uintField_le 40 ack.error
    have hnil : ack.abydatainfo.length = 0 := by rw [hdata]; rfl
    simp only [Login.plainProto, List.length_append]
    omega
  kickoff ptid hptid := (length_stringField_le 10 ptid).trans (by omega)

theorem answers_asked_for_oneLogin : ∃ x,
    (gateLoginMachine plainProto Login.plainProto anyVersion).run oneLogin = some x ∧
    (x.found 7).countP (isAnswer 1) = 1 ∧
    (x.found 7).countP (isAnswer 1) ≤ (x.handed 7).countP (isRequest 1) := by
  obtain ⟨x, h⟩ : ∃ x, (gateLoginMachine plainProto Login.plainProto anyVersion).run oneLogin = some x :=
    Option.isSome_iff_exists.mp (by decide +kernel)
  have hobs : ((gateLoginMachine plainProto Login.plainProto anyVersion).run oneLogin).map (fun x =>
      ((Login.requests x.login.server.history).length, (x.found 7).countP (isAnswer 1))) =
      some (1, 1) := by decide +kernel
  rw [h] at hobs
  simp only [Option.map_some, Option.some.injEq, Prod.mk.injEq] at hobs
  exact ⟨x, h, hobs.2, answers_asked_for _ _ _ sizes_plain oneLogin x h (by rw [hobs.1]; decide) 7 1⟩

/-! ### Accounts -/

end BlackSwan
