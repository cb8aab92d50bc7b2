import BlackSwan.AsioLink
import BlackSwan.SendCycle
import BlackSwan.Simulation

/-! # Two sessions of `AsioTcpSession` that are left alone

When nobody calls `send` any more, the two sessions of a connection come to rest, and then the
callback has been shown everything.  There are two conditions: no message was empty, since an empty
message keeps the sender busy, and the callback never leaves a full buffer behind, since the receiver
then reads nothing any more (`DataCB.KeepsUp`). -/

namespace BlackSwan.Asio

open Wire Runs

/-! ### The sender -/

section

variable {tes : List SendEvent} {s : SendSession}

/-- No wake-up is lost: while there are messages, an `async_send` is under way or `trySend` is to be
called. -/
theorem send_awake (h : sendMachine.run tes = some s) :
    s.bSending_ = true ∨ s.pendingSendMsg = [] ∨ 0 < s.trying := by
  refine sendMachine.run_induction
    (P := fun _ s => s.bSending_ = true ∨ s.pendingSendMsg = [] ∨ 0 < s.trying) ?_ ?_ h
  · exact .inr (.inl rfl)
  · intro es s e s' hrun _ hs
    have hinv := send_inv hrun
    obtain ⟨msg, rfl, -, rfl⟩ | ⟨rfl, -, rfl⟩ | ⟨i, k, buffers, rfl, ho, hk, rfl⟩ :=
      SendSession.step_cases hs
    · exact .inr (.inr (Nat.succ_pos _))
    · obtain ⟨hskip, heq⟩ | ⟨-, -, buffers, -, heq⟩ := (hinv.setTrying (s.trying - 1)).trySend_cases
      · rw [heq]
        obtain hb | hnil := Bool.or_eq_true_iff.mp hskip
        · exact .inl hb
        · exact .inr (.inl (List.isEmpty_iff.mp hnil))
      · rw [heq]
        exact .inl rfl
    · obtain ⟨-, -, queue, -, -, -, heq⟩ := hinv.completed_eq ho hk
      rw [heq]
      exact .inr (.inr (Nat.succ_pos _))

/-- Where no empty message is sent, an `async_send` that is under way has been given a byte. -/
theorem offered_ne_nil (h : sendMachine.run tes = some s) (hne : ∀ msg, .send msg ∈ tes → msg ≠ []) :
    ∀ buffers ∈ s.outstanding, SendSession.offered buffers ≠ [] := by
  refine sendMachine.run_induction (P := fun tes s => (∀ msg, .send msg ∈ tes → msg ≠ []) →
    ∀ buffers ∈ s.outstanding, SendSession.offered buffers ≠ []) ?_ ?_ h hne
  · intro _ buffers hb
    cases hb
  · intro es s e s' hrun ih hs hne
    have hinv := send_inv hrun
    have hold := ih fun msg hm => hne msg (List.mem_append_left _ hm)
    obtain ⟨msg, rfl, -, rfl⟩ | ⟨rfl, -, rfl⟩ | ⟨i, k, buffers, rfl, ho, hk, rfl⟩ :=
      SendSession.step_cases hs
    · exact hold
    · obtain ⟨-, heq⟩ | ⟨hskip, -, buffers, ho, heq⟩ :=
        (hinv.setTrying (s.trying - 1)).trySend_cases
      · rw [heq]
        exact hold
      · rw [heq]
        intro buffers' hb hnil
        obtain rfl := List.mem_singleton.mp hb
        have ho : SendSession.offered buffers' = unsent s.pendingSendMsg := ho
        rw [ho, SendSession.unsent_eq_nil_iff hinv (send_unspent hrun)] at hnil
        have hqueue : s.pendingSendMsg ≠ [] := fun hq => by simp [hq] at hskip
        obtain ⟨m, hm⟩ := List.exists_mem_of_ne_nil _ hqueue
        exact hne m.msg (List.mem_append_left _ (mem_of_queued hrun m hm)) (hnil m hm)
    · obtain ⟨-, -, queue, -, -, -, heq⟩ := hinv.completed_eq ho hk
      rw [heq]
      intro buffers' hb
      cases hb

end

namespace AsioLinkEvent

/-- The connection goes on by itself: nobody calls `send`, and no `async_send` ends without having
transferred a byte. -/
def Internal : AsioLinkEvent → Prop
  | .send (.send _) => False
  | .send (.completed _ k) => 0 < k
  | _ => True

end AsioLinkEvent

/-- At least one byte of the largest buffer is free when the callback returns. -/
def DataCB.KeepsUp (maxRecvBufSize : ℕ) (dataCb : DataCB) : Prop :=
  ∀ data, data.length ≤ maxRecvBufSize →
    data.length < (takenOf dataCb data).length + topRung maxRecvBufSize

theorem length_takenOf_le (dataCb : DataCB) (data : Bytes) :
    (takenOf dataCb data).length ≤ data.length := by
  unfold takenOf
  split_ifs
  · exact List.length_take_le' _ _
  · exact Nat.zero_le _

namespace AsioLink

/-- Nothing can go on by itself. -/
def AtRest (dataCb : DataCB) (s : AsioLink) : Prop :=
  ∀ e, AsioLinkEvent.Internal e → s.step dataCb e = none

/-- How many steps are left at most. -/
def todo (s : AsioLink) : ℕ :=
  4 * (unsent s.sender.pendingSendMsg).length + s.sender.trying + s.onTheWay.length

end AsioLink

section

variable {maxRecvBufSize : ℕ} {dataCb : DataCB} {es : List AsioLinkEvent} {s s' : AsioLink}

/-- **Every internal step leaves less to do.** -/
theorem asio_shrinks (maxRecvBufSize : ℕ) (dataCb : DataCB) :
    Shrinks (asioLinkMachine maxRecvBufSize dataCb) AsioLinkEvent.Internal
      fun n s => (asioLinkMachine maxRecvBufSize dataCb).Reachable s ∧ s.todo = n := by
  rintro n s e s' ⟨⟨es, hrun⟩, rfl⟩ he hs
  have hinv := asioLink_inv hrun
  have hsend := send_inv hinv.sender
  refine ⟨s'.todo, ?_, ⟨es ++ [e], (asioLinkMachine maxRecvBufSize dataCb).run_snoc hrun hs⟩, rfl⟩
  have hs : s.step dataCb e = some s' := hs
  cases e with
  | recv n =>
      rw [AsioLink.step] at hs
      split_ifs at hs with hn
      simp only [not_or, not_lt] at hn
      obtain ⟨receiver, -, rfl⟩ := Option.map_eq_some_iff.mp hs
      have hway := hn.2
      simp only [AsioLink.todo, AsioLink.onTheWay, List.length_drop] at hway ⊢
      omega
  | send e =>
      obtain ⟨sender, hsender, rfl⟩ := Option.map_eq_some_iff.mp hs
      have hle := hinv.read_le
      obtain ⟨msg, rfl, -, rfl⟩ | ⟨rfl, htry, rfl⟩ | ⟨i, k, buffers, rfl, ho, hk, rfl⟩ :=
        SendSession.step_cases hsender
      · exact he.elim
      · obtain ⟨-, heq⟩ | ⟨-, -, buffers, -, heq⟩ :=
          (hsend.setTrying (s.sender.trying - 1)).trySend_cases
        all_goals
          simp only [AsioLink.todo, AsioLink.onTheWay, heq]
          omega
      · have hpos : 0 < k := he
        obtain ⟨-, hfront, queue, -, -, hu, heq⟩ := hsend.completed_eq ho hk
        have hlen := hfront.length_le
        simp only [AsioLink.todo, AsioLink.onTheWay, heq, hu, List.length_drop, List.length_append,
          List.length_take]
        omega

/-- While it runs, the receiver has room for one more byte. -/
theorem unread_lt (hcb : dataCb.KeepsUp maxRecvBufSize)
    (h : (asioLinkMachine maxRecvBufSize dataCb).run es = some s) (hrun : s.receiver.fault = none) :
    s.receiver.unread.length < topRung maxRecvBufSize := by
  refine (asioLinkMachine maxRecvBufSize dataCb).run_induction
    (P := fun _ s => s.receiver.fault = none →
      s.receiver.unread.length < topRung maxRecvBufSize) ?_ ?_ h hrun
  · intro _
    rw [show (asioLinkMachine maxRecvBufSize dataCb).init.receiver.unread = [] from
      (takes_init maxRecvBufSize dataCb).unread]
    simpa [takenOf] using hcb [] (Nat.zero_le _)
  · intro es s e s' hrun ih hs hf
    have hs : s.step dataCb e = some s' := hs
    cases e with
    | send e =>
        obtain ⟨sender, -, rfl⟩ := Option.map_eq_some_iff.mp hs
        exact ih hf
    | recv n =>
        rw [AsioLink.step] at hs
        split_ifs at hs
        obtain ⟨receiver, hreceiver, rfl⟩ := Option.map_eq_some_iff.mp hs
        obtain ⟨q, hq⟩ := (asioLink_inv hrun).receiver
        obtain ⟨q', -, hleft⟩ := hq.step hreceiver
        have hfit := RecvSession.step_fits hreceiver
        have hhold := hq.holds.length_unread
        have hwrite := hq.holds.getWriteValidCount
        have hsize : s.receiver.recvBuffers_.size ≤ maxRecvBufSize := hq.size_le
        have hshown : (s.receiver.unread ++ s.onTheWay.take n).length ≤ maxRecvBufSize := by
          rw [List.length_append, hq.unread, hhold]
          have hread := hq.holds.read_le
          have hw := hq.holds.write_le
          have hfit : (s.onTheWay.take n).length ≤ s.receiver.recvBuffers_.getWriteValidCount := hfit
          omega
        show receiver.unread.length < topRung maxRecvBufSize
        rw [hleft hf, List.length_drop]
        exact Nat.sub_lt_left_of_lt_add (length_takenOf_le _ _) (hcb _ hshown)

theorem mem_sentBy {tes : List SendEvent} {msg : Bytes} : msg ∈ sentBy tes ↔ .send msg ∈ tes := by
  simp only [sentBy, List.mem_filterMap]
  constructor
  · rintro ⟨e, he, hmsg⟩
    cases e with
    | send msg' =>
        obtain rfl := Option.some.inj hmsg
        exact he
    | _ => cases hmsg
  · intro hmem
    exact ⟨_, hmem, rfl⟩

/-- A sender without an `async_send` and without a call of `trySend` has sent everything. -/
theorem unsent_of_idle {tes : List SendEvent} {t : SendSession} (h : sendMachine.run tes = some t)
    (ho : t.outstanding = []) (htry : t.trying = 0) : t.pendingSendMsg = [] := by
  obtain hb | hnil | hpos := send_awake h
  · have hsingle := (send_inv h).single
    rw [if_pos hb] at hsingle
    obtain ⟨buffers, ho', -⟩ := hsingle
    rw [ho] at ho'
    cases ho'
  · exact hnil
  · omega

/-- **At rest everything is handled**, up to what the callback leaves. -/
theorem AsioLink.AtRest.delivered (hne : ∀ msg ∈ sentBy (senderEvents es), msg ≠ [])
    (hcb : dataCb.KeepsUp maxRecvBufSize)
    (h : (asioLinkMachine maxRecvBufSize dataCb).run es = some s) (hrest : s.AtRest dataCb)
    (hrun : s.receiver.fault = none) :
    handled dataCb s.receiver.calls ++ s.receiver.unread = (sentBy (senderEvents es)).flatten := by
  obtain ⟨hall, hfault, hhung, -⟩ := asio_conserves maxRecvBufSize dataCb es s h
  have hinv := asioLink_inv h
  have hgo (e : SendEvent) (he : AsioLinkEvent.Internal (.send e)) : s.sender.step e = none :=
    Option.map_eq_none_iff.mp (hrest (.send e) he)
  have htry : s.sender.trying = 0 := by
    by_contra hpos
    have hnone := hgo .trySend trivial
    simp [SendSession.step, hhung, hfault, hpos] at hnone
  have ho : s.sender.outstanding = [] := by
    refine List.eq_nil_iff_forall_not_mem.mpr fun buffers hb => ?_
    have hoffer := offered_ne_nil hinv.sender
      (fun msg hm => hne msg (mem_sentBy.mpr hm)) buffers hb
    obtain ⟨i, hi, hget⟩ := List.getElem_of_mem hb
    have hnone := hgo (.completed i 1) Nat.one_pos
    have hlen : 1 ≤ (SendSession.offered buffers).length := List.length_pos_iff.mpr hoffer
    simp [SendSession.step, hhung, hfault, List.getElem?_eq_getElem hi, hget, hlen] at hnone
  have hqueue := unsent_of_idle hinv.sender ho htry
  have hway : s.onTheWay = [] := by
    by_contra hleft
    obtain ⟨q, hq⟩ := hinv.receiver
    have hlen := unread_lt hcb h hrun
    rw [hq.unread] at hlen
    have hwindow := (hq.posted hrun).window_pos hlen
    have hpos : 1 ≤ s.onTheWay.length := List.length_pos_iff.mpr hleft
    have hnone := hrest (.recv 1) trivial
    rw [AsioLink.step, if_neg (by omega)] at hnone
    have hnone := Option.map_eq_none_iff.mp hnone
    have hfit : (s.onTheWay.take 1).length ≤ s.receiver.recvBuffers_.getWriteValidCount := by
      rw [List.length_take]
      omega
    exact RecvSession.step_ne_none hrun hfit (UInt64.toNat_lt _) hnone
  rw [hqueue, hway] at hall
  simpa [unsent] using hall

/-- Nothing is sent by internal steps. -/
theorem sentBy_internal (h : ∀ e ∈ es, e.Internal) : sentBy (senderEvents es) = [] := by
  refine List.filterMap_eq_nil_iff.mpr fun e he => ?_
  obtain ⟨a, ha, hsend⟩ := List.mem_filterMap.mp he
  cases a with
  | recv n => cases hsend
  | send e' =>
      obtain rfl := Option.some.inj hsend
      cases e' with
      | send msg => exact (h _ ha).elim
      | _ => rfl

end

/-- A callback that takes everything keeps up, whatever the limit is, if it is positive. -/
theorem keepsUp_takeAll {maxRecvBufSize : ℕ} (hpos : 0 < maxRecvBufSize)
    (hmax : maxRecvBufSize < 2 ^ 64) : takeAll.KeepsUp maxRecvBufSize := by
  intro data hdata
  have hlen : (takeAll data).toNat = data.length := by
    rw [takeAll, UInt64.toNat_ofNat', Nat.mod_eq_of_lt (Nat.lt_of_le_of_lt hdata hmax)]
  have htop : 0 < topRung maxRecvBufSize := by
    unfold topRung
    split_ifs <;> omega
  rw [takenOf, hlen, if_pos le_rfl, List.take_length]
  omega

/-- **A connection that is left alone comes to rest with everything shown to the callback.**  Without
empty messages and with a callback that keeps up, the sessions can take only so many steps by
themselves, in whatever order and with whatever sizes, and some such steps lead to a state where
nothing can go on; there the callback has taken what was sent, in its order, up to what it leaves.  The callback of
`net_server`, which takes everything, keeps up with every positive limit. -/
theorem asio_delivers_all (maxRecvBufSize : ℕ) (dataCb : DataCB) (es : List AsioLinkEvent)
    (s : AsioLink) (hcb : dataCb.KeepsUp maxRecvBufSize)
    (hne : ∀ msg ∈ sentBy (senderEvents es), msg ≠ [])
    (h : (asioLinkMachine maxRecvBufSize dataCb).run es = some s) :
    (∃ n, ∀ es' s', (∀ e ∈ es', e.Internal) →
      (asioLinkMachine maxRecvBufSize dataCb).exec es' s = some s' → es'.length ≤ n) ∧
    (∃ es' s', (∀ e ∈ es', e.Internal) ∧
      (asioLinkMachine maxRecvBufSize dataCb).exec es' s = some s' ∧ s'.AtRest dataCb) ∧
    (∀ es' s', (∀ e ∈ es', e.Internal) →
      (asioLinkMachine maxRecvBufSize dataCb).exec es' s = some s' → s'.AtRest dataCb →
        s'.receiver.fault = none →
          handled dataCb s'.receiver.calls ++ s'.receiver.unread =
            (sentBy (senderEvents es)).flatten) ∧
    ∀ limit, 0 < limit → limit < 2 ^ 64 → takeAll.KeepsUp limit := by
  have hshrinks := asio_shrinks maxRecvBufSize dataCb
  have hi : (asioLinkMachine maxRecvBufSize dataCb).Reachable s ∧ s.todo = s.todo := ⟨⟨es, h⟩, rfl⟩
  refine ⟨⟨s.todo, fun es' s' hint hex => ?_⟩, hshrinks.exists_rest hi,
    fun es' s' hint hex hrest hrun => ?_, fun _ => keepsUp_takeAll⟩
  · obtain ⟨n', hle, -⟩ := hshrinks.length_le hi hint hex
    omega
  · have hrun' : (asioLinkMachine maxRecvBufSize dataCb).run (es ++ es') = some s' := by
      rw [Machine.run, Machine.exec_append, ← Machine.run, h]
      exact hex
    have hsent : sentBy (senderEvents (es ++ es')) = sentBy (senderEvents es) := by
      rw [senderEvents, List.filterMap_append, sentBy, List.filterMap_append]
      have hnone := sentBy_internal hint
      rw [sentBy, senderEvents] at hnone
      rw [hnone, List.append_nil]
      rfl
    rw [← hsent] at hne ⊢
    exact hrest.delivered hne hcb hrun' hrun

theorem asio_delivers_all_hello : ∃ s es' s', (asioLinkMachine (1024 * 6) takeAll).run
      [.send (.send helloThis)] = some s ∧
    (asioLinkMachine (1024 * 6) takeAll).exec es' s = some s' ∧ s'.AtRest takeAll ∧
    (s'.receiver.fault = none →
      handled takeAll s'.receiver.calls ++ s'.receiver.unread = helloThis) := by
  obtain ⟨s, h⟩ : ∃ s, (asioLinkMachine (1024 * 6) takeAll).run [.send (.send helloThis)] = some s :=
    Option.isSome_iff_exists.mp (by decide +kernel)
  obtain ⟨-, ⟨es', s', hint, hex, hrest⟩, hall, -⟩ := asio_delivers_all (1024 * 6) takeAll _ s
    (keepsUp_takeAll (by decide) (by decide)) (by decide) h
  exact ⟨s, es', s', h, hex, hrest, hall es' s' hint hex hrest⟩

end BlackSwan.Asio
