import BlackSwan.SendQueue

/-! # Empty sends

A message leaves the queue while bytes are being accounted to it, so a message without bytes leaves
it only together with the bytes behind it.  An empty message that is alone in the queue stays:
`trySend` starts an `async_send` of no bytes for it, its completion accounts nothing, and the cycle
goes on.

A message that is not empty is removed with its last byte (`Unspent`).  So an `async_send` offers a
byte exactly when `trySend` finds a message that is not empty. -/

namespace BlackSwan.Asio

open Wire Runs

/-- A message that is sent to its end was empty. -/
def PendingMsg.Unspent (m : PendingMsg) : Prop := m.sendPos = m.msg.length → m.msg = []

/-- What the loop leaves was in the queue, and was there as it is or has bytes left. -/
theorem mem_of_adjustLoop : ∀ (fuel n : ℕ) (queue queue' : List PendingMsg) (m : PendingMsg),
    adjustLoop fuel n queue = some (.ok queue') → m ∈ queue' →
      (m ∈ queue ∨ m.sendPos ≠ m.msg.length) ∧ ∃ m₀ ∈ queue, m₀.msg = m.msg
  | _, 0, queue, queue', m, h, hm => by
      obtain rfl : queue = queue' := by simpa [adjustLoop] using h
      exact ⟨.inl hm, m, hm, rfl⟩
  | 0, _ + 1, _, _, _, h, _ => by simp [adjustLoop] at h
  | _ + 1, _ + 1, [], _, _, h, _ => by simp [adjustLoop] at h
  | fuel + 1, n + 1, front :: queue, queue', m, h, hm => by
      rw [adjustLoop] at h
      obtain ⟨hkept, m₀, hm₀, hmsg⟩ := mem_of_adjustLoop fuel _ _ queue' m h hm
      split_ifs at hkept hm₀ with hend
      · exact ⟨hkept.imp_left (List.mem_cons_of_mem _), m₀, List.mem_cons_of_mem _ hm₀, hmsg⟩
      · refine ⟨?_, ?_⟩
        · obtain hmem | hleft := hkept
          · obtain rfl | hmem := List.mem_cons.mp hmem
            · exact .inr hend
            · exact .inl (List.mem_cons_of_mem _ hmem)
          · exact .inr hleft
        · obtain rfl | hm₀ := List.mem_cons.mp hm₀
          · exact ⟨front, List.mem_cons_self, hmsg⟩
          · exact ⟨m₀, List.mem_cons_of_mem _ hm₀, hmsg⟩

/-! ### One step -/

namespace SendSession

variable {sent : List Bytes} {s s' : SendSession} {e : SendEvent}

/-- No message of the queue is sent to its end, unless it is empty. -/
def Unspent (s : SendSession) : Prop := ∀ m ∈ s.pendingSendMsg, m.Unspent

theorem step_unspent (h : SendInv sent s) (hu : s.Unspent) (hs : s.step e = some s') :
    s'.Unspent := by
  obtain ⟨msg, rfl, -, rfl⟩ | ⟨rfl, -, rfl⟩ | ⟨i, k, buffers, rfl, ho, hk, rfl⟩ := step_cases hs
  · intro m hm
    obtain hm | hm := List.mem_append.mp hm
    · exact hu m hm
    · obtain rfl := List.mem_singleton.mp hm
      exact fun hend => List.eq_nil_of_length_eq_zero hend.symm
  · obtain ⟨-, heq⟩ | ⟨-, -, buffers, -, heq⟩ := (h.setTrying (s.trying - 1)).trySend_cases
    · rw [heq]
      exact hu
    · rw [heq]
      exact hu
  · obtain ⟨-, -, queue, hloop, -, -, heq⟩ := h.completed_eq ho hk
    rw [heq]
    intro m hm
    obtain hm | hleft := (mem_of_adjustLoop _ _ _ _ m hloop hm).1
    · exact hu m hm
    · exact fun hend => absurd hend hleft

/-- All bytes of the queue are sent exactly when it holds nothing but empty messages. -/
theorem unsent_eq_nil_iff (h : SendInv sent s) (hu : s.Unspent) :
    unsent s.pendingSendMsg = [] ↔ ∀ m ∈ s.pendingSendMsg, m.msg = [] := by
  simp only [unsent, List.flatMap_eq_nil_iff, List.drop_eq_nil_iff]
  constructor
  · intro hsent m hm
    exact hu m hm (Nat.le_antisymm (h.valid m hm).1 (hsent m hm))
  · intro hempty m hm
    rw [hempty m hm]
    exact Nat.zero_le _

/-- When `trySend` would start an `async_send`, some message of the queue is not empty. -/
def findsMessage (s : SendSession) : SendEvent → Bool
  | .trySend =>
      s.bSending_ || s.pendingSendMsg.isEmpty || s.pendingSendMsg.any fun m => !m.msg.isEmpty
  | _ => true

/-- An `async_send` that the step starts is given at least one byte. -/
def OffersByte (s : SendSession) (_ : SendEvent) (s' : SendSession) : Prop :=
  ∀ buffers, s'.outstanding = s.outstanding ++ [buffers] → offered buffers ≠ []

theorem step_offersByte_iff (h : SendInv sent s) (hu : s.Unspent) (hs : s.step e = some s') :
    s.OffersByte e s' ↔ s.findsMessage e = true := by
  have hsame : ∀ {t : SendSession}, t.outstanding.length ≤ s.outstanding.length →
      s.OffersByte e t := by
    intro t hlen buffers ho
    rw [ho, List.length_append, List.length_singleton] at hlen
    omega
  obtain ⟨msg, rfl, -, rfl⟩ | ⟨rfl, -, rfl⟩ | ⟨i, k, buffers, rfl, ho, hk, rfl⟩ := step_cases hs
  · exact iff_of_true (hsame le_rfl) rfl
  · obtain ⟨hskip, heq⟩ | ⟨hskip, hnone, buffers, ho, heq⟩ :=
      (h.setTrying (s.trying - 1)).trySend_cases
    · have hskip : (s.bSending_ || s.pendingSendMsg.isEmpty) = true := hskip
      rw [heq]
      exact iff_of_true (hsame le_rfl) (by rw [findsMessage, hskip]; rfl)
    · have hskip : (s.bSending_ || s.pendingSendMsg.isEmpty) = false := hskip
      have hnone : s.outstanding = [] := hnone
      have ho : offered buffers = unsent s.pendingSendMsg := ho
      have hany : (s.pendingSendMsg.any fun m => !m.msg.isEmpty) = true ↔
          unsent s.pendingSendMsg ≠ [] := by
        rw [Ne, unsent_eq_nil_iff h hu]
        simp
      rw [heq, findsMessage, hskip, Bool.false_or, hany, ← ho]
      constructor
      · intro hoffer
        exact hoffer buffers (by rw [hnone]; rfl)
      · intro hne buffers' ho'
        obtain rfl : buffers = buffers' := by simpa [hnone] using ho'
        exact hne
  · obtain ⟨-, -, queue, -, -, -, heq⟩ := h.completed_eq ho hk
    rw [heq]
    exact iff_of_true (hsame (Nat.zero_le _)) rfl

/-- When all bytes are sent and no message comes, a step takes one of the steps that are left. -/
theorem step_drained (h : SendInv sent s) (hu : s.Unspent) (hsent : unsent s.pendingSendMsg = [])
    (hok : s.findsMessage e = true) (he : ∀ msg, e ≠ .send msg) (hs : s.step e = some s') :
    unsent s'.pendingSendMsg = [] ∧
      s'.trying + 2 * s'.outstanding.length + 1 = s.trying + 2 * s.outstanding.length := by
  obtain ⟨msg, rfl, -, -⟩ | ⟨rfl, htry, rfl⟩ | ⟨i, k, buffers, rfl, ho, hk, rfl⟩ := step_cases hs
  · exact absurd rfl (he msg)
  · obtain ⟨-, heq⟩ | ⟨hskip, -, buffers, -, -⟩ := (h.setTrying (s.trying - 1)).trySend_cases
    · rw [heq]
      exact ⟨hsent, by dsimp only; omega⟩
    · have hskip : (s.bSending_ || s.pendingSendMsg.isEmpty) = false := hskip
      rw [findsMessage, hskip, Bool.false_or] at hok
      obtain ⟨m, hm, hne⟩ := List.any_eq_true.mp hok
      have hnil := (unsent_eq_nil_iff h hu).mp hsent m hm
      simp [hnil] at hne
  · obtain ⟨hone, -, queue, -, -, hq, heq⟩ := h.completed_eq ho hk
    rw [heq]
    refine ⟨?_, ?_⟩
    · show unsent queue = []
      rw [hq, hsent, List.drop_nil]
    · show s.trying + 1 + 2 * 0 + 1 = s.trying + 2 * s.outstanding.length
      rw [hone, List.length_singleton]

end SendSession

/-! ### Whole runs -/

open SendSession

variable {es : List SendEvent} {s : SendSession}

theorem send_unspent (h : sendMachine.run es = some s) : s.Unspent := by
  refine sendMachine.run_induction (P := fun _ s => s.Unspent)
    (fun m hm => (List.not_mem_nil hm).elim) ?_ h
  intro es s e s' hrun ih hs
  exact step_unspent (send_inv hrun) ih hs

/-- Every `async_send` of the run is given at least one byte. -/
def OffersBytes (es : List SendEvent) : Prop := sendMachine.Throughout SendSession.OffersByte es

/-- Once all bytes are sent, and with no further message, what is left of the run is no longer than
the calls of `trySend` and the completion that are due. -/
def StopsOnceSent (es : List SendEvent) : Prop :=
  ∀ es₁ es₂ s₁, es = es₁ ++ es₂ → sendMachine.run es₁ = some s₁ →
    unsent s₁.pendingSendMsg = [] → (∀ msg, .send msg ∉ es₂) →
      es₂.length ≤ s₁.trying + 2 * s₁.outstanding.length

theorem offersBytes_iff (h : sendMachine.run es = some s) :
    OffersBytes es ↔ sendMachine.Along (fun s e => s.findsMessage e = true) es := by
  refine sendMachine.throughout_iff_along (fun s => sendMachine.Reachable s) ⟨[], rfl⟩ ?_ ?_ h
  · rintro s e s' ⟨es, hrun⟩ hs
    exact step_offersByte_iff (send_inv hrun) (send_unspent hrun) hs
  · rintro s e s' ⟨es, hrun⟩ hs -
    exact ⟨es ++ [e], sendMachine.run_snoc hrun hs⟩

theorem run_drained {es₁ : List SendEvent} {s₁ : SendSession} (h₁ : sendMachine.run es₁ = some s₁)
    (hsent : unsent s₁.pendingSendMsg = []) (es₂ : List SendEvent) (hno : ∀ msg, .send msg ∉ es₂)
    (hal : sendMachine.Along (fun s e => s.findsMessage e = true) (es₁ ++ es₂)) {s₂ : SendSession}
    (h₂ : sendMachine.run (es₁ ++ es₂) = some s₂) :
    unsent s₂.pendingSendMsg = [] ∧
      s₂.trying + 2 * s₂.outstanding.length + es₂.length =
        s₁.trying + 2 * s₁.outstanding.length := by
  induction es₂ using List.reverseRecOn generalizing s₂ with
  | nil =>
      rw [List.append_nil, h₁] at h₂
      obtain rfl := Option.some.inj h₂
      exact ⟨hsent, rfl⟩
  | append_singleton es₂ e ih =>
      rw [← List.append_assoc] at hal h₂
      obtain ⟨s, hrun, hs⟩ := sendMachine.run_snoc_eq_some h₂
      obtain ⟨hal, hok⟩ := (sendMachine.along_snoc _ hrun).mp hal
      obtain ⟨hnil, hcount⟩ := ih (fun msg hm => hno msg (List.mem_append_left _ hm)) hal hrun
      have he : ∀ msg, e ≠ .send msg := by
        rintro msg rfl
        exact hno msg (List.mem_append_right _ (List.mem_singleton_self _))
      obtain ⟨hnil', hcount'⟩ := step_drained (send_inv hrun) (send_unspent hrun) hnil hok he hs
      refine ⟨hnil', ?_⟩
      rw [List.length_append, List.length_singleton]
      omega

/-- **No empty send is started, and sending comes to an end, exactly when `trySend` never finds
nothing but empty messages**: of a run, every `async_send` is given a byte, and the run stops soon
after all bytes are sent, if and only if the queue holds a message that is not empty whenever
`trySend` starts an `async_send`. -/
theorem offers_bytes_and_stops_iff (es : List SendEvent) (s : SendSession)
    (h : sendMachine.run es = some s) :
    (OffersBytes es ∧ StopsOnceSent es) ↔
      sendMachine.Along (fun s e => s.findsMessage e = true) es := by
  constructor
  · rintro ⟨hoffer, -⟩
    exact (offersBytes_iff h).mp hoffer
  · intro hal
    refine ⟨(offersBytes_iff h).mpr hal, ?_⟩
    rintro es₁ es₂ s₁ rfl h₁ hsent hno
    have hcount := (run_drained h₁ hsent es₂ hno hal h).2
    omega

/-- Two messages with an empty one between them, sent in two transfers. -/
def emptyBetween : List SendEvent :=
  [.send [1, 2], .send [], .trySend, .send [3], .completed 0 1, .trySend, .completed 0 2, .trySend,
    .trySend, .trySend]

theorem emptyBetween_offers_bytes : ∃ s, sendMachine.run emptyBetween = some s ∧
    OffersBytes emptyBetween ∧ StopsOnceSent emptyBetween := by
  obtain ⟨s, h⟩ : ∃ s, sendMachine.run emptyBetween = some s :=
    Option.isSome_iff_exists.mp (by decide +kernel)
  exact ⟨s, h, (offers_bytes_and_stops_iff emptyBetween s h).mpr (by decide +kernel)⟩

/-- What is queued was passed to `send`. -/
theorem mem_of_queued (h : sendMachine.run es = some s) :
    ∀ m ∈ s.pendingSendMsg, .send m.msg ∈ es := by
  refine sendMachine.run_induction (P := fun es s => ∀ m ∈ s.pendingSendMsg, .send m.msg ∈ es)
    (fun m hm => (List.not_mem_nil hm).elim) ?_ h
  intro es s e s' hrun ih hs
  have hold : ∀ m ∈ s.pendingSendMsg, .send m.msg ∈ es ++ [e] :=
    fun m hm => List.mem_append_left _ (ih m hm)
  have hinv := send_inv hrun
  obtain ⟨msg, rfl, -, rfl⟩ | ⟨rfl, -, rfl⟩ | ⟨i, k, buffers, rfl, ho, hk, rfl⟩ := step_cases hs
  · intro m hm
    obtain hm | hm := List.mem_append.mp hm
    · exact hold m hm
    · obtain rfl := List.mem_singleton.mp hm
      exact List.mem_append_right _ (List.mem_singleton_self _)
  · obtain ⟨-, heq⟩ | ⟨-, -, buffers, -, heq⟩ := (hinv.setTrying (s.trying - 1)).trySend_cases
    · rw [heq]
      exact hold
    · rw [heq]
      exact hold
  · obtain ⟨-, -, queue, hloop, -, -, heq⟩ := hinv.completed_eq ho hk
    rw [heq]
    intro m hm
    obtain ⟨-, m₀, hm₀, hmsg⟩ := mem_of_adjustLoop _ _ _ _ m hloop hm
    exact hmsg ▸ hold m₀ hm₀

/-- Where no empty message is sent, every message that `trySend` finds will do. -/
theorem findsMessage_of_send_ne_nil (h : sendMachine.run es = some s)
    (hne : ∀ msg, .send msg ∈ es → msg ≠ []) :
    sendMachine.Along (fun s e => s.findsMessage e = true) es := by
  refine sendMachine.run_induction (P := fun es _ => (∀ msg, .send msg ∈ es → msg ≠ []) →
    sendMachine.Along (fun s e => s.findsMessage e = true) es) (fun _ => trivial) ?_ h hne
  intro es s e s' hrun ih hs hne
  refine (sendMachine.along_snoc _ hrun).mpr
    ⟨ih fun msg hm => hne msg (List.mem_append_left _ hm), ?_⟩
  cases e with
  | send msg => rfl
  | completed i k => rfl
  | trySend =>
      cases hq : s.pendingSendMsg with
      | nil => simp [findsMessage, hq]
      | cons m queue =>
          have hmem : m ∈ s.pendingSendMsg := by simp [hq]
          have hmsg := hne m.msg (List.mem_append_left _ (mem_of_queued hrun m hmem))
          simp [findsMessage, hq, hmsg]

/-- One empty message. -/
def emptyAlone : List SendEvent := [.send [], .trySend]

/-- The session after `emptyAlone`. -/
def emptyInFlight : SendSession := ⟨true, [⟨0, []⟩], 0, [[[]]], [], false, none⟩

/-- The `async_send` after `emptyAlone` has no bytes, and its completion starts the next one. -/
theorem emptyAlone_cycles :
    ¬ OffersBytes emptyAlone ∧ ∀ n, sendMachine.run
      (emptyAlone ++ (List.replicate n [.completed 0 0, .trySend]).flatten) = some emptyInFlight := by
  constructor
  · intro hoffer
    have hqueued : sendMachine.run [.send []] = some ⟨false, [⟨0, []⟩], 1, [], [], false, none⟩ := by
      decide +kernel
    exact hoffer [.send []] .trySend _ emptyInFlight (List.prefix_refl _) hqueued
      (by decide +kernel) [[]] rfl rfl
  · intro n
    have hfirst : sendMachine.run emptyAlone = some emptyInFlight := by decide +kernel
    -- a completion and a `trySend` lead back to the state before them
    obtain ⟨s, hs, rfl⟩ : ∃ s, sendMachine.exec
        (List.replicate n [.completed 0 0, .trySend]).flatten emptyInFlight = some s ∧
        emptyInFlight = s :=
      sendMachine.exec_repeat (P := fun _ s => emptyInFlight = s)
        (fun _ s _ hs => ⟨emptyInFlight, by rw [← hs]; decide +kernel, rfl⟩) rfl
    rw [Machine.run, Machine.exec_append, ← Machine.run, hfirst]
    exact hs

end BlackSwan.Asio
