import BlackSwan.RecvBuffer

/-! # Where receiving stalls

`doRecv` posts a read into what is free behind the write position.  A read into an empty window
brings nothing, and nothing that comes after it changes that.

After a completion the window is empty exactly when the whole buffer is unread, and then the buffer
has grown as far as `growRecvBuffer` lets it (`Posted`).  The first size is clamped to the limit, a
growth of 1024 bytes is not: it is refused when it would go past the limit.  So a limit above 16384
that is no multiple of 1024 is never reached, and the session stalls below it. -/

namespace BlackSwan.Asio

open Wire Runs

/-- The sizes of the buffer: the first one, and those that growing leads to. -/
def Rung (maxRecvBufSize size : ℕ) : Prop :=
  size = min (16 * 1024) maxRecvBufSize ∨ 16 * 1024 ≤ size ∧ size % 1024 = 0

/-- The largest of them. -/
def topRung (maxRecvBufSize : ℕ) : ℕ :=
  if maxRecvBufSize ≤ 16 * 1024 then maxRecvBufSize else maxRecvBufSize - maxRecvBufSize % 1024

theorem Rung.grow {maxRecvBufSize size : ℕ} (h : Rung maxRecvBufSize size)
    (hmax : size + 1024 ≤ maxRecvBufSize) : Rung maxRecvBufSize (size + 1024) := by
  unfold Rung at h ⊢
  omega

/-- A buffer that cannot grow any more has the largest size. -/
theorem Rung.eq_top {maxRecvBufSize size : ℕ} (h : Rung maxRecvBufSize size)
    (hle : size ≤ maxRecvBufSize) (hmax : maxRecvBufSize < size + 1024) :
    size = topRung maxRecvBufSize := by
  unfold Rung at h
  unfold topRung
  split_ifs <;> omega

theorem topRung_eq_iff (maxRecvBufSize : ℕ) :
    topRung maxRecvBufSize = maxRecvBufSize ↔
      maxRecvBufSize ≤ 16 * 1024 ∨ maxRecvBufSize % 1024 = 0 := by
  unfold topRung
  split_ifs <;> omega

/-- The callback adds nothing to what is unread. -/
theorem ByteQueue.length_unread_receive_le (dataCb : Bool) (q : ByteQueue) (e : RecvEvent) :
    (q.receive dataCb e).unread.length ≤ (q.push e.bytes).unread.length := by
  cases dataCb with
  | false => exact le_rfl
  | true =>
      show ((q.push e.bytes).call e.proclen).unread.length ≤ _
      by_cases hp : e.proclen ≤ (q.push e.bytes).unread.length
      · rw [ByteQueue.unread_call_of_le hp, List.length_drop]
        exact Nat.sub_le _ _
      · rw [ByteQueue.unread_call_of_lt hp]

namespace RecvSession

section

variable {maxRecvBufSize : ℕ} {dataCb : Bool} {q : ByteQueue} {s : RecvSession}

/-! ### One completion -/

/-- When a read is posted: an empty window means that the whole buffer is unread, and that means that
it cannot grow. -/
structure Posted (maxRecvBufSize : ℕ) (dataCb : Bool) (q : ByteQueue) (s : RecvSession) : Prop where
  refines : Refines maxRecvBufSize dataCb q s
  rung : Rung maxRecvBufSize s.recvBuffers_.size
  window : s.recvBuffers_.getWriteValidCount = 0 → q.unread.length = s.recvBuffers_.size
  full : q.unread.length = s.recvBuffers_.size → maxRecvBufSize < s.recvBuffers_.size + 1024

/-- A buffer that is full is replaced by a larger one, if the limit allows it. -/
theorem Refines.growIfFull_rung (h : Refines maxRecvBufSize dataCb q s)
    (hr : Rung maxRecvBufSize s.recvBuffers_.size) :
    Ends (fun s' => Rung maxRecvBufSize s'.recvBuffers_.size ∧
        (q.unread.length = s'.recvBuffers_.size → maxRecvBufSize < s'.recvBuffers_.size + 1024))
      (fun _ _ => 2 ^ 63 ≤ maxRecvBufSize) s.growIfFull := by
  unfold RecvSession.growIfFull isFull
  rw [h.holds.getReadValidCount]
  split_ifs with hfull
  · have hfull : q.unread.length = s.recvBuffers_.size := by simpa using hfull
    obtain ⟨hmax, heq⟩ | ⟨hmax, hmem, heq⟩ | ⟨buf, hmax, -, hsize, heq⟩ := h.growRecvBuffer_cases
    · rw [heq]
      exact ⟨hr, fun _ => hmax⟩
    · rw [heq]
      exact hmem.trans hmax
    · rw [heq]
      refine ⟨hsize ▸ hr.grow hmax, fun hlen => ?_⟩
      have hlen : q.unread.length = buf.size := hlen
      omega
  · exact ⟨hr, fun hlen => absurd hlen (by simpa using hfull)⟩

theorem callData_size (proclen : ℕ) (s : RecvSession) :
    Ends (fun s' => s'.recvBuffers_.size = s.recvBuffers_.size) (fun _ _ => True)
      (s.callData proclen) := by
  unfold RecvSession.callData
  split
  · rfl
  · split
    · trivial
    · dsimp only
      split_ifs <;> rfl

/-- After the compaction nothing is free only when everything is unread. -/
theorem Refines.compact_window (h : Refines maxRecvBufSize dataCb q s) :
    Ends (fun s' => s'.recvBuffers_.size = s.recvBuffers_.size ∧
        (s'.recvBuffers_.getWriteValidCount = 0 → q.unread.length = s'.recvBuffers_.size))
      (fun _ _ => True) s.compact := by
  obtain ⟨buf, hbuf, hholds, hsize, hpos⟩ := h.holds.adjustToHead
  unfold RecvSession.compact
  split_ifs with hc
  · rw [hbuf]
    refine ⟨hsize, fun hw => ?_⟩
    have hw : buf.getWriteValidCount = 0 := hw
    rw [hholds.getWriteValidCount] at hw
    have hlen := hholds.length_unread
    have hle := hholds.write_le
    show q.unread.length = buf.size
    omega
  · exact ⟨rfl, fun hw => absurd (.inl hw) hc⟩

theorem Posted.receive (h : Posted maxRecvBufSize dataCb q s) (e : RecvEvent)
    (hfit : e.bytes.length ≤ s.recvBuffers_.getWriteValidCount) :
    Ends (Posted maxRecvBufSize dataCb (q.receive dataCb e)) (fun _ _ => 2 ^ 63 ≤ maxRecvBufSize)
      (s.receive e.bytes e.proclen) := by
  obtain ⟨s₁, h₁, hsize, heq⟩ := h.refines.readSome e hfit
  have hr₁ : Rung maxRecvBufSize s₁.recvBuffers_.size := hsize ▸ h.rung
  rw [heq]
  refine Ends.bind ((h₁.growIfFull.and (h₁.growIfFull_rung hr₁)).imp (fun _ h => h)
    fun _ _ h => h.2) ?_
  rintro - s₂ ⟨h₂, hr₂, hfull₂⟩
  refine Ends.bind (((h₂.callData e.proclen).and (callData_size e.proclen s₂)).imp (fun _ h => h)
    fun _ _ h => h.1.elim) ?_
  rintro - s₃ ⟨h₃, hsize₃⟩
  refine (h₃.compact.and h₃.compact_window).imp ?_ fun _ _ h => h.1.elim
  rintro s₄ ⟨h₄, hsize₄, hwindow⟩
  have hsize₂ : s₄.recvBuffers_.size = s₂.recvBuffers_.size := hsize₄.trans hsize₃
  refine ⟨h₄, hsize₂ ▸ hr₂, hwindow, fun hlen => ?_⟩
  -- what is unread after the callback was unread before it, when the buffer was given a chance to grow
  have hle := q.length_unread_receive_le dataCb e
  have hunread := h₂.holds.length_unread
  have hw := h₂.holds.write_le
  have hfull := hfull₂ (by omega)
  omega

end

end RecvSession

/-! ### Whole runs -/

open RecvSession

variable {maxRecvBufSize : ℕ} {dataCb : Bool} {es : List RecvEvent} {s : RecvSession}

theorem posted_step {q : ByteQueue} {e : RecvEvent} {s' : RecvSession}
    (h : Posted maxRecvBufSize dataCb q s) (hs : s.step e = some s') :
    Posted maxRecvBufSize dataCb (q.receive dataCb e) s' ∨
      s'.fault ≠ none ∧ 2 ^ 63 ≤ maxRecvBufSize := by
  unfold RecvSession.step at hs
  split_ifs at hs with hguard
  simp only [Bool.or_eq_true, decide_eq_true_eq, not_or, not_lt] at hguard
  have hends := h.receive e hguard.1.2
  cases hx : s.receive e.bytes e.proclen with
  | ok _ s₁ =>
      rw [hx] at hends hs
      obtain rfl := Option.some.inj hs
      exact .inl hends
  | error fault s₁ =>
      rw [hx] at hends hs
      obtain rfl := Option.some.inj hs
      exact .inr ⟨by simp, hends⟩

theorem posted_of_run (h : (recvMachine maxRecvBufSize dataCb).run es = some s)
    (hrun : s.fault = none) : Posted maxRecvBufSize dataCb (.after dataCb es) s := by
  refine (recvMachine maxRecvBufSize dataCb).run_induction (P := fun es s =>
    s.fault = none → Posted maxRecvBufSize dataCb (.after dataCb es) s) ?_ ?_ h hrun
  · have hsize : min (16 * 1024) maxRecvBufSize < 2 ^ 63 := by omega
    have hholds := Buffer.holds_replicate hsize
    intro _
    refine ⟨⟨rfl, rfl, hholds, min_le_right _ _, rfl, Nat.zero_le _, rfl⟩, .inl rfl, fun hw => ?_,
      fun hlen => ?_⟩
    · exact ((hholds.getWriteValidCount).symm.trans hw).symm
    · have hlen : 0 = min (16 * 1024) maxRecvBufSize := hlen
      show maxRecvBufSize < min (16 * 1024) maxRecvBufSize + 1024
      omega
  · intro es s e s' _ ih hs hrun
    have hbefore : s.fault = none := by
      by_contra hf
      simp [recvMachine, RecvSession.step, Option.isSome_iff_ne_none.mpr hf] at hs
    rw [ByteQueue.after_snoc]
    exact (posted_step (ih hbefore) hs).resolve_right fun hf => hf.1 hrun

/-- While fewer bytes are unread than the largest buffer holds, the window is not empty. -/
theorem RecvSession.Posted.window_pos {q : ByteQueue} (h : Posted maxRecvBufSize dataCb q s)
    (hlen : q.unread.length < topRung maxRecvBufSize) :
    1 ≤ s.recvBuffers_.getWriteValidCount := by
  by_contra hw
  have hfull := h.window (by omega)
  have htop := h.rung.eq_top h.refines.size_le (h.full hfull)
  omega

/-- A read that fits into its window can end, whatever the callback returns. -/
theorem exists_receive (hmax : maxRecvBufSize < 2 ^ 63) {q : ByteQueue}
    (h : Posted maxRecvBufSize dataCb q s) (e : RecvEvent)
    (hfit : e.bytes.length ≤ s.recvBuffers_.getWriteValidCount) (hp : e.proclen < 2 ^ 64) :
    ∃ s', s.step e = some s' ∧ Posted maxRecvBufSize dataCb (q.receive dataCb e) s' := by
  have hends := h.receive e hfit
  have hguard : ¬ (s.fault.isSome || e.bytes.length > s.recvBuffers_.getWriteValidCount ||
      e.proclen ≥ 2 ^ 64) = true := by
    rw [h.refines.running]
    simp
    omega
  cases hx : s.receive e.bytes e.proclen with
  | ok _ s₁ =>
      rw [hx] at hends
      exact ⟨s₁, by rw [RecvSession.step, if_neg hguard, hx], hends⟩
  | error fault s₁ =>
      rw [hx] at hends
      exact absurd hmax (not_lt.mpr hends)

/-- `n` bytes come and the callback takes none. -/
def untaken (n : ℕ) : RecvEvent := ⟨List.replicate n 0, 0⟩

theorem untaken_length (n : ℕ) : (untaken n).bytes.length = n := List.length_replicate

theorem untaken_ne_nil {n : ℕ} (h : 0 < n) : (untaken n).bytes ≠ [] := by
  intro hnil
  have hlen := untaken_length n
  rw [hnil] at hlen
  exact absurd hlen (Nat.ne_of_lt h)

theorem ByteQueue.length_unread_untaken (dataCb : Bool) {q : ByteQueue} (h : q.Sane) (n : ℕ) :
    (q.receive dataCb (untaken n)).unread.length = q.unread.length + n := by
  have hpush : (q.push (untaken n).bytes).unread.length = q.unread.length + n := by
    rw [ByteQueue.unread_push h, List.length_append, untaken_length]
  cases dataCb with
  | false => exact hpush
  | true =>
      show ((q.push (untaken n).bytes).call 0).unread.length = _
      rw [ByteQueue.unread_call_of_le (Nat.zero_le _), List.drop_zero, hpush]

/-- A callback that takes nothing lets the buffer fill up to the largest size. -/
theorem exists_unread (maxRecvBufSize : ℕ) (dataCb : Bool) (hmax : maxRecvBufSize < 2 ^ 63) :
    ∀ n, n ≤ topRung maxRecvBufSize →
      ∃ es s, (∀ e ∈ es, e.bytes ≠ []) ∧ (recvMachine maxRecvBufSize dataCb).run es = some s ∧
        s.fault = none ∧ (ByteQueue.after dataCb es).unread.length = n
  | 0, _ => ⟨[], _, by simp, rfl, rfl, rfl⟩
  | n + 1, hn => by
      obtain ⟨es, s, hne, hrun, hf, hlen⟩ :=
        exists_unread maxRecvBufSize dataCb hmax n (Nat.le_of_succ_le hn)
      have hposted := posted_of_run hrun hf
      obtain ⟨s', hs, hposted'⟩ := exists_receive hmax hposted (untaken 1)
        (hposted.window_pos (by omega)) (by decide)
      refine ⟨es ++ [untaken 1], s', ?_, (recvMachine _ _).run_snoc hrun hs,
        hposted'.refines.running, ?_⟩
      · intro e he
        obtain he | he := List.mem_append.mp he
        · exact hne e he
        · exact List.mem_singleton.mp he ▸ untaken_ne_nil one_pos
      · rw [ByteQueue.after_snoc, ByteQueue.length_unread_untaken dataCb hposted.refines.sane, hlen]

/-- Nothing is free in a buffer of the largest size whose bytes are all unread. -/
theorem RecvSession.Posted.stalled {q : ByteQueue} (h : Posted maxRecvBufSize dataCb q s)
    (hlen : q.unread.length = topRung maxRecvBufSize) :
    s.recvBuffers_.getWriteValidCount = 0 ∧
      s.recvBuffers_.getReadValidCount = topRung maxRecvBufSize := by
  have hholds := h.refines.holds
  have hunread := hholds.length_unread
  have hw := hholds.write_le
  have hle := h.refines.size_le
  have hr := h.rung
  rw [hholds.getWriteValidCount, hholds.getReadValidCount]
  refine ⟨?_, hlen⟩
  unfold topRung at hlen
  unfold Rung at hr
  split_ifs at hlen <;> omega

/-- A read is posted with an empty window only when `maxRecvBufSize` bytes are unread, for every
sequence of reads without error and with at least one byte, and everything the callback returns. -/
def StallsAtLimitOnly (maxRecvBufSize : ℕ) (dataCb : Bool) : Prop :=
  ∀ es s, (∀ e ∈ es, e.bytes ≠ []) → (recvMachine maxRecvBufSize dataCb).run es = some s →
    s.fault = none → s.recvBuffers_.getWriteValidCount = 0 →
      s.recvBuffers_.getReadValidCount = maxRecvBufSize

/-- **The limits that are reached**: a session stalls at its limit only, exactly when the limit is at
most the first size, or a multiple of the growth, or beyond every buffer that memory has room for. -/
theorem stalls_at_limit_only_iff (maxRecvBufSize : ℕ) (dataCb : Bool) :
    StallsAtLimitOnly maxRecvBufSize dataCb ↔
      maxRecvBufSize ≤ 16 * 1024 ∨ maxRecvBufSize % 1024 = 0 ∨ 2 ^ 63 ≤ maxRecvBufSize := by
  constructor
  · intro hstall
    by_contra hcond
    obtain ⟨es, s, hne, hrun, hf, hlen⟩ :=
      exists_unread maxRecvBufSize dataCb (by omega) _ le_rfl
    obtain ⟨hw, hread⟩ := (posted_of_run hrun hf).stalled hlen
    have htop := (topRung_eq_iff maxRecvBufSize).mp (hread.symm.trans (hstall es s hne hrun hf hw))
    omega
  · intro hcond es s _ hrun hf hw
    have h := posted_of_run hrun hf
    have hlim := h.refines.holds.limit
    have hrung := h.rung
    have hle := h.refines.size_le
    have hmax := h.full (h.window hw)
    have htop := h.rung.eq_top hle hmax
    rw [h.refines.holds.getReadValidCount, h.window hw]
    unfold Rung at hrung
    omega

/-- The first read may fill the buffer. -/
theorem exists_first_read (maxRecvBufSize : ℕ) (dataCb : Bool) (hmax : maxRecvBufSize < 2 ^ 63)
    {n : ℕ} (hn : n ≤ min (16 * 1024) maxRecvBufSize) :
    ∃ s, (recvMachine maxRecvBufSize dataCb).run [untaken n] = some s ∧
      Posted maxRecvBufSize dataCb ((ByteQueue.after dataCb []).receive dataCb (untaken n)) s := by
  have hinit : Posted maxRecvBufSize dataCb (.after dataCb []) _ :=
    @posted_of_run _ _ [] _ rfl rfl
  have hwindow : (recvMachine maxRecvBufSize dataCb).init.recvBuffers_.getWriteValidCount =
      min (16 * 1024) maxRecvBufSize := hinit.refines.holds.getWriteValidCount
  obtain ⟨s, hs, hposted⟩ := exists_receive hmax hinit (untaken n)
    (by rw [hwindow, untaken_length]; exact hn) (Nat.two_pow_pos 64)
  have hs : (recvMachine maxRecvBufSize dataCb).step (recvMachine maxRecvBufSize dataCb).init
      (untaken n) = some s := hs
  exact ⟨s, by simp [Machine.run, Machine.exec, hs], hposted⟩

/-- With a limit of 17000 bytes, a first read of 16384 bytes that the callback does not take leaves
an empty window and 16384 bytes unread. -/
theorem first_read_stalls_below_limit :
    (∃ s, (recvMachine 17000 true).run [untaken 16384] = some s ∧ s.fault = none ∧
      s.recvBuffers_.getWriteValidCount = 0 ∧ s.recvBuffers_.getReadValidCount = 16384) ∧
    ¬ StallsAtLimitOnly 17000 true := by
  obtain ⟨s, hrun, hposted⟩ := exists_first_read 17000 true (by decide)
    (n := 16384) (by decide)
  obtain ⟨hw, hread⟩ := hposted.stalled
    ((ByteQueue.length_unread_untaken true (Nat.zero_le _) _).trans (by decide))
  refine ⟨⟨s, hrun, hposted.refines.running, hw, hread⟩, fun hstall => ?_⟩
  have hne : ∀ e ∈ [untaken 16384], e.bytes ≠ [] := by
    intro e he
    exact List.mem_singleton.mp he ▸ untaken_ne_nil (by decide)
  have hlimit := hread.symm.trans (hstall _ s hne hrun hposted.refines.running hw)
  exact absurd hlimit (by decide)

end BlackSwan.Asio
