import BlackSwan.Framing
import BlackSwan.Memory
import BlackSwan.Runs

/-! # The receive buffer of `AsioTcpSession`

`share/network/ox_buffer.h` and the receiving half of `share/network/session.h`: a buffer with a
read and a write position that grows up to `maxRecvBufSize_` and is compacted in place.

* The bytes of `data` are one allocated block, and every copy is checked against it.
* Positions are numbers below `2^64`, with the subtractions of `size_t`.
* A read that ends and its callback are one step.  Its event says which bytes came and what the
  callback returned.

The buffer refines `ByteQueue`: what is between the two positions is what was received and not
consumed, and no copy leaves a block. -/

namespace BlackSwan.Asio

open Wire Runs

/-! ### `ox_buffer.h` -/

/-- `buffer_s`. -/
structure Buffer where
  data : Bytes
  size : ℕ
  read_pos : ℕ
  write_pos : ℕ
deriving DecidableEq, Repr

namespace Buffer

/-- `ox_buffer_new`.  No array has more bytes than a pointer difference can count; what is in a new
one is never looked at. -/
def new (size : ℕ) : Option Buffer :=
  if size < 2 ^ 63 then some ⟨List.replicate size 0, size, 0, 0⟩ else none

def getWriteValidCount (buf : Buffer) : ℕ := sizeSub buf.size buf.write_pos

def addWritePos (n : ℕ) (buf : Buffer) : Buffer := { buf with write_pos := sizeAdd buf.write_pos n }

def getReadValidCount (buf : Buffer) : ℕ := sizeSub buf.write_pos buf.read_pos

def addReadPos (n : ℕ) (buf : Buffer) : Buffer := { buf with read_pos := sizeAdd buf.read_pos n }

/-- The bytes from `ox_buffer_getreader` on, as many as are to be read. -/
def getReader (buf : Buffer) : Option Bytes := load buf.data buf.read_pos buf.getReadValidCount

/-- `ox_buffer_adjustto_head`. -/
def adjustToHead (buf : Buffer) : Option Buffer :=
  if buf.read_pos > 0 then
    let valid := sizeSub buf.write_pos buf.read_pos
    (if valid > 0 then memmove buf.data 0 buf.read_pos valid else some buf.data).map fun data =>
      { buf with data, write_pos := valid, read_pos := 0 }
  else some buf

/-- `ox_buffer_write`, of a source that has been read. -/
def write (src : Bytes) (dest : Buffer) : Option Buffer :=
  (store dest.data dest.write_pos src).map fun data =>
    { dest with data, write_pos := sizeAdd dest.write_pos src.length }

end Buffer

/-! ### The session -/

structure RecvSession where
  maxRecvBufSize_ : ℕ
  /-- `dataCb_` is set -/
  dataCb_ : Bool
  recvBuffers_ : Buffer
  /-- what the callback has been given -/
  calls : List Bytes
  /-- how the last completion ended, if it did not return: nothing is received after that -/
  fault : Option Fault
deriving DecidableEq, Repr

namespace RecvSession

/-- The copy of `growRecvBuffer` into a new buffer. -/
def copyInto (newBuffer : Buffer) (s : RecvSession) : Call RecvSession Unit :=
  match s.recvBuffers_.getReader.bind fun src => newBuffer.write src with
  | none => .error .outOfBounds s
  | some newBuffer => .ok () { s with recvBuffers_ := newBuffer }

/-- `growRecvBuffer`, when there is a buffer; `new` throws when it has no memory. -/
def growRecvBuffer (s : RecvSession) : Call RecvSession Unit :=
  let newSize := sizeAdd s.recvBuffers_.size 1024
  if newSize > s.maxRecvBufSize_ then .ok () s else
  match Buffer.new newSize with
  | none => .error .thrown s
  | some newBuffer => s.copyInto newBuffer

/-- The call of the data callback, which returns `proclen`.  Its assertion is not compiled into a
release build. -/
def callData (proclen : ℕ) (s : RecvSession) : Call RecvSession Unit :=
  if !s.dataCb_ then .ok () s else
  match s.recvBuffers_.getReader with
  | none => .error .outOfBounds s
  | some view =>
      let s := { s with calls := s.calls ++ [view] }
      if proclen ≤ s.recvBuffers_.getReadValidCount then
        .ok () { s with recvBuffers_ := s.recvBuffers_.addReadPos proclen }
      else .ok () s

/-- The compaction at the end of `onRecvCompleted`. -/
def compact (s : RecvSession) : Call RecvSession Unit :=
  if s.recvBuffers_.getWriteValidCount = 0 ∨ s.recvBuffers_.getReadValidCount = 0 then
    match s.recvBuffers_.adjustToHead with
    | none => .error .outOfBounds s
    | some buf => .ok () { s with recvBuffers_ := buf }
  else .ok () s

/-- The buffer is full of bytes to be read. -/
def isFull (s : RecvSession) : Bool := s.recvBuffers_.getReadValidCount == s.recvBuffers_.size

def growIfFull (s : RecvSession) : Call RecvSession Unit :=
  if s.isFull then s.growRecvBuffer else .ok () s

/-- `onRecvCompleted`, without an error. -/
def onRecvCompleted (bytesTransferred proclen : ℕ) : EStateM Fault RecvSession Unit := do
  modify fun s => { s with recvBuffers_ := s.recvBuffers_.addWritePos bytesTransferred }
  growIfFull
  callData proclen
  compact

/-- `async_read_some` writes the bytes that came behind the write position. -/
def readSome (bytes : Bytes) (s : RecvSession) : Call RecvSession Unit :=
  match store s.recvBuffers_.data s.recvBuffers_.write_pos bytes with
  | none => .error .outOfBounds s
  | some data => .ok () { s with recvBuffers_ := { s.recvBuffers_ with data } }

/-- A read ends with the bytes `bytes`, and the callback returns `proclen`. -/
def receive (bytes : Bytes) (proclen : ℕ) : EStateM Fault RecvSession Unit := do
  readSome bytes
  onRecvCompleted bytes.length proclen

end RecvSession

/-! ### Runs -/

structure RecvEvent where
  bytes : Bytes
  /-- what the callback returns, a `size_t` -/
  proclen : ℕ
deriving DecidableEq, Repr

namespace RecvSession

/-- The next read is posted when the last completion has returned, and brings at most as many bytes
as its window has. -/
def step (s : RecvSession) (e : RecvEvent) : Option RecvSession :=
  if s.fault.isSome || e.bytes.length > s.recvBuffers_.getWriteValidCount || e.proclen ≥ 2 ^ 64 then
    none
  else match s.receive e.bytes e.proclen with
    | .ok _ s => some s
    | .error fault s => some { s with fault := some fault }

end RecvSession

/-- A session after its constructor and `startRecv`. -/
def recvMachine (maxRecvBufSize : ℕ) (dataCb : Bool) : Machine RecvSession RecvEvent where
  init := {
    maxRecvBufSize_ := maxRecvBufSize
    dataCb_ := dataCb
    recvBuffers_ :=
      let size := min (16 * 1024) maxRecvBufSize
      ⟨List.replicate size 0, size, 0, 0⟩
    calls := []
    fault := none }
  step := RecvSession.step

/-! ### The byte queue -/

/-- What a receive buffer is for: the bytes received, of which the first `consumed` are gone. -/
structure ByteQueue where
  received : Bytes
  consumed : ℕ
  /-- what the callback has been given -/
  calls : List Bytes
deriving DecidableEq, Repr

namespace ByteQueue

def unread (q : ByteQueue) : Bytes := q.received.drop q.consumed

def push (bytes : Bytes) (q : ByteQueue) : ByteQueue := { q with received := q.received ++ bytes }

/-- The callback is given the bytes that are unread, and consumes as many of them as it says, or none
if it says more than there are. -/
def call (proclen : ℕ) (q : ByteQueue) : ByteQueue :=
  { q with
    consumed := if proclen ≤ q.unread.length then q.consumed + proclen else q.consumed
    calls := q.calls ++ [q.unread] }

def receive (dataCb : Bool) (q : ByteQueue) (e : RecvEvent) : ByteQueue :=
  if dataCb then (q.push e.bytes).call e.proclen else q.push e.bytes

/-- The queue after a sequence of reads. -/
def after (dataCb : Bool) (es : List RecvEvent) : ByteQueue := es.foldl (receive dataCb) ⟨[], 0, []⟩

/-- Nothing is consumed that was not received. -/
def Sane (q : ByteQueue) : Prop := q.consumed ≤ q.received.length

theorem unread_push {q : ByteQueue} (h : q.Sane) (bytes : Bytes) :
    (q.push bytes).unread = q.unread ++ bytes := List.drop_append_of_le_length h

theorem length_unread (q : ByteQueue) : q.unread.length = q.received.length - q.consumed :=
  List.length_drop

theorem unread_call_of_le {q : ByteQueue} {proclen : ℕ} (h : proclen ≤ q.unread.length) :
    (q.call proclen).unread = q.unread.drop proclen := by
  show q.received.drop (if proclen ≤ q.unread.length then _ else _) = _
  rw [if_pos h, unread, List.drop_drop]

theorem unread_call_of_lt {q : ByteQueue} {proclen : ℕ} (h : ¬ proclen ≤ q.unread.length) :
    (q.call proclen).unread = q.unread := by
  show q.received.drop (if proclen ≤ q.unread.length then _ else _) = _
  rw [if_neg h, unread]

theorem Sane.push {q : ByteQueue} (h : q.Sane) (bytes : Bytes) : (q.push bytes).Sane := by
  show q.consumed ≤ (q.received ++ bytes).length
  rw [List.length_append]
  exact Nat.le_add_right_of_le h

theorem Sane.call {q : ByteQueue} (h : q.Sane) (proclen : ℕ) : (q.call proclen).Sane := by
  have hlen := q.length_unread
  unfold Sane at h ⊢
  simp only [ByteQueue.call]
  split_ifs <;> omega

end ByteQueue

/-! ### One operation of the buffer -/

namespace Buffer

/-- The positions are in order and `unread` is what is between them. -/
structure Holds (unread : Bytes) (buf : Buffer) : Prop where
  block : buf.data.length = buf.size
  limit : buf.size < 2 ^ 63
  read_le : buf.read_pos ≤ buf.write_pos
  write_le : buf.write_pos ≤ buf.size
  reader : load buf.data buf.read_pos (buf.write_pos - buf.read_pos) = some unread

variable {unread : Bytes} {buf : Buffer}

theorem new_eq_some {size : ℕ} (h : Buffer.new size = some buf) :
    size < 2 ^ 63 ∧ buf = ⟨List.replicate size 0, size, 0, 0⟩ := by
  unfold Buffer.new at h
  split_ifs at h with hlt
  exact ⟨hlt, (Option.some.inj h).symm⟩

theorem new_eq_none {size : ℕ} (h : Buffer.new size = none) : 2 ^ 63 ≤ size := by
  unfold Buffer.new at h
  split_ifs at h with hlt
  exact not_lt.mp hlt

theorem holds_replicate {size : ℕ} (h : size < 2 ^ 63) :
    Holds [] ⟨List.replicate size 0, size, 0, 0⟩ where
  block := List.length_replicate
  limit := h
  read_le := le_rfl
  write_le := Nat.zero_le _
  reader := by simp [load]

namespace Holds

theorem length_unread (h : buf.Holds unread) : unread.length = buf.write_pos - buf.read_pos :=
  (length_of_load h.reader).2

theorem getReadValidCount (h : buf.Holds unread) : buf.getReadValidCount = unread.length := by
  have hr := h.read_le
  have hw := h.write_le
  have hl := h.limit
  rw [Buffer.getReadValidCount, sizeSub_eq hr (by omega), h.length_unread]

theorem getWriteValidCount (h : buf.Holds unread) :
    buf.getWriteValidCount = buf.size - buf.write_pos := by
  have hl := h.limit
  rw [Buffer.getWriteValidCount, sizeSub_eq h.write_le (by omega)]

theorem getReader (h : buf.Holds unread) : buf.getReader = some unread := by
  rw [Buffer.getReader, h.getReadValidCount, h.length_unread]
  exact h.reader

/-- Bytes that are stored behind the write position, before and after it is moved. -/
theorem store_addWritePos (h : buf.Holds unread) {bytes data : Bytes}
    (hs : store buf.data buf.write_pos bytes = some data) :
    (({ buf with data } : Buffer).addWritePos bytes.length).Holds (unread ++ bytes) := by
  have hr := h.read_le
  have hl := h.limit
  have hb := h.block
  have hfit : buf.write_pos + bytes.length ≤ buf.data.length := by
    unfold store at hs
    split_ifs at hs with hle
    exact hle
  obtain ⟨data', hs', hlen, -⟩ := store_eq _ _ _ hfit
  obtain rfl : data = data' := Option.some.inj (hs.symm.trans hs')
  have hpos : sizeAdd buf.write_pos bytes.length = buf.write_pos + bytes.length :=
    sizeAdd_eq (by omega)
  have hread : load data buf.read_pos (buf.write_pos - buf.read_pos + bytes.length) =
      some (unread ++ bytes) := by
    apply load_store_append h.reader
    rwa [Nat.add_sub_cancel' hr]
  constructor
  · exact hlen.trans hb
  · exact hl
  · show buf.read_pos ≤ sizeAdd buf.write_pos bytes.length
    omega
  · show sizeAdd buf.write_pos bytes.length ≤ buf.size
    omega
  · show load data buf.read_pos (sizeAdd buf.write_pos bytes.length - buf.read_pos) = _
    rw [hpos, Nat.sub_add_comm hr]
    exact hread

theorem addReadPos (h : buf.Holds unread) {n : ℕ} (hn : n ≤ unread.length) :
    (buf.addReadPos n).Holds (unread.drop n) := by
  have hr := h.read_le
  have hw := h.write_le
  have hl := h.limit
  have hlen := h.length_unread
  have hpos : sizeAdd buf.read_pos n = buf.read_pos + n := sizeAdd_eq (by omega)
  constructor
  · exact h.block
  · exact hl
  · show sizeAdd buf.read_pos n ≤ buf.write_pos
    omega
  · exact hw
  · show load buf.data (sizeAdd buf.read_pos n) (buf.write_pos - sizeAdd buf.read_pos n) = _
    rw [hpos, ← Nat.sub_sub]
    exact load_drop h.reader (by omega)

/-- `memmove` finds its source and its target inside the block. -/
theorem adjustToHead (h : buf.Holds unread) :
    ∃ buf', buf.adjustToHead = some buf' ∧ buf'.Holds unread ∧ buf'.size = buf.size ∧
      buf'.read_pos = 0 := by
  have hr := h.read_le
  have hw := h.write_le
  have hb := h.block
  have hlen := h.length_unread
  have hvalid : sizeSub buf.write_pos buf.read_pos = unread.length := h.getReadValidCount
  unfold Buffer.adjustToHead
  split_ifs with hpos
  · simp only [hvalid]
    obtain ⟨data, hdata, hsame, hread⟩ : ∃ data,
        (if unread.length > 0 then memmove buf.data 0 buf.read_pos unread.length else some buf.data) =
          some data ∧ data.length = buf.data.length ∧ load data 0 unread.length = some unread := by
      split_ifs with hv
      · have hsrc : load buf.data buf.read_pos unread.length = some unread := hlen ▸ h.reader
        obtain ⟨data, hs, hsame, -⟩ := store_eq buf.data unread 0 (by omega)
        refine ⟨data, ?_, hsame, load_store_head hs⟩
        rw [memmove, hsrc, Option.bind_some, hs]
      · have hnil : unread = [] := List.eq_nil_of_length_eq_zero (by omega)
        exact ⟨buf.data, rfl, rfl, by simp [hnil, load]⟩
    rw [hdata, Option.map_some]
    refine ⟨_, rfl, ⟨hsame.trans hb, h.limit, Nat.zero_le _, ?_, hread⟩, rfl, rfl⟩
    show unread.length ≤ buf.size
    omega
  · exact ⟨buf, rfl, h, rfl, Nat.eq_zero_of_not_pos hpos⟩

end Holds

end Buffer

/-! ### One read -/

namespace RecvSession

/-- The session has the bytes of the queue between its positions and has called back as the queue
did. -/
structure Refines (maxRecvBufSize : ℕ) (dataCb : Bool) (q : ByteQueue) (s : RecvSession) : Prop where
  limit : s.maxRecvBufSize_ = maxRecvBufSize
  dataCb : s.dataCb_ = dataCb
  holds : s.recvBuffers_.Holds q.unread
  size_le : s.recvBuffers_.size ≤ maxRecvBufSize
  calls : s.calls = q.calls
  sane : q.Sane
  running : s.fault = none

/-- `new` had no memory for a larger buffer. -/
structure Starved (maxRecvBufSize : ℕ) (dataCb : Bool) (q : ByteQueue) (e : Fault) (s : RecvSession) :
    Prop where
  thrown : e = .thrown
  size_ge : 2 ^ 63 ≤ s.recvBuffers_.size + 1024
  refines : Refines maxRecvBufSize dataCb q s

section

variable {maxRecvBufSize : ℕ} {dataCb : Bool} {q : ByteQueue} {s : RecvSession}

/-- Another buffer with the same bytes. -/
theorem Refines.setBuffer (h : Refines maxRecvBufSize dataCb q s) {buf : Buffer}
    (hb : buf.Holds q.unread) (hs : buf.size ≤ maxRecvBufSize) :
    Refines maxRecvBufSize dataCb q { s with recvBuffers_ := buf } :=
  ⟨h.limit, h.dataCb, hb, hs, h.calls, h.sane, h.running⟩

/-- What `growRecvBuffer` does: the limit is in the way, there is no memory, or the bytes that are
unread are in a larger buffer. -/
theorem Refines.growRecvBuffer_cases (h : Refines maxRecvBufSize dataCb q s) :
    (maxRecvBufSize < s.recvBuffers_.size + 1024 ∧ s.growRecvBuffer = .ok () s) ∨
    (s.recvBuffers_.size + 1024 ≤ maxRecvBufSize ∧ 2 ^ 63 ≤ s.recvBuffers_.size + 1024 ∧
      s.growRecvBuffer = .error .thrown s) ∨
    ∃ buf, s.recvBuffers_.size + 1024 ≤ maxRecvBufSize ∧ buf.Holds q.unread ∧
      buf.size = s.recvBuffers_.size + 1024 ∧
      s.growRecvBuffer = .ok () { s with recvBuffers_ := buf } := by
  have hlim := h.holds.limit
  have hnew : sizeAdd s.recvBuffers_.size 1024 = s.recvBuffers_.size + 1024 := sizeAdd_eq (by omega)
  unfold RecvSession.growRecvBuffer
  simp only [hnew]
  split_ifs with hmax
  · exact .inl ⟨h.limit ▸ hmax, rfl⟩
  · rw [h.limit, not_lt] at hmax
    refine .inr ?_
    cases hb : Buffer.new (s.recvBuffers_.size + 1024) with
    | none => exact .inl ⟨hmax, Buffer.new_eq_none hb, rfl⟩
    | some newBuffer =>
        obtain ⟨hmem, rfl⟩ := Buffer.new_eq_some hb
        -- what is unread fits into the old buffer, and so into the new one
        have hfit := h.holds.length_unread
        have hw := h.holds.write_le
        obtain ⟨data, hs, -, -⟩ := store_eq (List.replicate (s.recvBuffers_.size + 1024) (0 : UInt8))
          q.unread 0 (by rw [List.length_replicate]; omega)
        refine .inr ⟨_, hmax, (Buffer.holds_replicate hmem).store_addWritePos hs, rfl, ?_⟩
        simp only [copyInto, h.holds.getReader, Option.bind_some, Buffer.write, hs, Option.map_some]
        rfl

theorem Refines.growRecvBuffer (h : Refines maxRecvBufSize dataCb q s) :
    Ends (Refines maxRecvBufSize dataCb q) (Starved maxRecvBufSize dataCb q) s.growRecvBuffer := by
  obtain ⟨-, heq⟩ | ⟨-, hmem, heq⟩ | ⟨buf, hmax, hholds, hsize, heq⟩ := h.growRecvBuffer_cases
  · rw [heq]
    exact h
  · rw [heq]
    exact ⟨rfl, hmem, h⟩
  · rw [heq]
    exact h.setBuffer hholds (hsize ▸ hmax)

theorem Refines.growIfFull (h : Refines maxRecvBufSize dataCb q s) :
    Ends (Refines maxRecvBufSize dataCb q) (Starved maxRecvBufSize dataCb q) s.growIfFull := by
  unfold RecvSession.growIfFull
  split_ifs
  · exact h.growRecvBuffer
  · exact h

theorem Refines.callData (h : Refines maxRecvBufSize dataCb q s) (proclen : ℕ) :
    Ends (Refines maxRecvBufSize dataCb (if dataCb then q.call proclen else q))
      (fun _ _ => False) (s.callData proclen) := by
  unfold RecvSession.callData
  rw [h.dataCb]
  cases hcb : dataCb with
  | false =>
      subst hcb
      exact h
  | true =>
      subst hcb
      simp only [Bool.not_true, Bool.false_eq_true, if_false, h.holds.getReader,
        h.holds.getReadValidCount, if_true]
      have hcalls : s.calls ++ [q.unread] = (q.call proclen).calls := by rw [h.calls]; rfl
      by_cases hp : proclen ≤ q.unread.length
      · rw [if_pos hp]
        refine ⟨h.limit, rfl, ?_, h.size_le, hcalls, h.sane.call proclen, h.running⟩
        rw [ByteQueue.unread_call_of_le hp]
        exact h.holds.addReadPos hp
      · rw [if_neg hp]
        refine ⟨h.limit, rfl, ?_, h.size_le, hcalls, h.sane.call proclen, h.running⟩
        rw [ByteQueue.unread_call_of_lt hp]
        exact h.holds

theorem Refines.compact (h : Refines maxRecvBufSize dataCb q s) :
    Ends (Refines maxRecvBufSize dataCb q) (fun _ _ => False) s.compact := by
  obtain ⟨buf, hbuf, hholds, hsize, -⟩ := h.holds.adjustToHead
  unfold RecvSession.compact
  split_ifs
  · rw [hbuf]
    exact h.setBuffer hholds (hsize ▸ h.size_le)
  · exact h

/-- A read that fits into its window: its bytes are put behind those that are unread, and the rest of
the completion runs. -/
theorem Refines.readSome (h : Refines maxRecvBufSize dataCb q s) (e : RecvEvent)
    (hfit : e.bytes.length ≤ s.recvBuffers_.getWriteValidCount) :
    ∃ s₁, Refines maxRecvBufSize dataCb (q.push e.bytes) s₁ ∧
      s₁.recvBuffers_.size = s.recvBuffers_.size ∧
      s.receive e.bytes e.proclen =
        (do RecvSession.growIfFull; RecvSession.callData e.proclen; RecvSession.compact :
          EStateM Fault RecvSession Unit) s₁ := by
  have hw := h.holds.write_le
  rw [h.holds.getWriteValidCount] at hfit
  obtain ⟨data, hs, -, -⟩ := store_eq s.recvBuffers_.data e.bytes s.recvBuffers_.write_pos
    (by rw [h.holds.block]; omega)
  refine ⟨{ s with
    recvBuffers_ := ({ s.recvBuffers_ with data } : Buffer).addWritePos e.bytes.length }, ?_, rfl, ?_⟩
  · refine ⟨h.limit, h.dataCb, ?_, h.size_le, h.calls, h.sane.push e.bytes, h.running⟩
    rw [ByteQueue.unread_push h.sane]
    exact h.holds.store_addWritePos hs
  · -- the bytes are in the buffer, but the write position is not moved yet
    have hread : RecvSession.readSome e.bytes s =
        .ok () { s with recvBuffers_ := { s.recvBuffers_ with data } } := by
      rw [RecvSession.readSome, hs]
    show EStateM.bind (RecvSession.readSome e.bytes) _ s = _
    unfold EStateM.bind
    rw [hread]
    rfl

theorem Refines.receive (h : Refines maxRecvBufSize dataCb q s) (e : RecvEvent)
    (hfit : e.bytes.length ≤ s.recvBuffers_.getWriteValidCount) :
    Ends (Refines maxRecvBufSize dataCb (q.receive dataCb e))
      (Starved maxRecvBufSize dataCb (q.push e.bytes)) (s.receive e.bytes e.proclen) := by
  obtain ⟨s₁, h₁, -, heq⟩ := h.readSome e hfit
  rw [heq]
  refine Ends.bind (I := Refines maxRecvBufSize dataCb (q.push e.bytes)) h₁.growIfFull ?_
  intro _ s₂ h₂
  refine Ends.bind (I := Refines maxRecvBufSize dataCb (q.receive dataCb e)) ?_ ?_
  · exact (h₂.callData e.proclen).imp (fun _ h => h) fun _ _ hf => hf.elim
  · intro _ s₃ h₃
    exact h₃.compact.imp (fun _ h => h) fun _ _ hf => hf.elim

end

end RecvSession

/-! ### Whole runs -/

open RecvSession

/-- A session after the reads `es`: it refines the queue, or the last completion was given no memory
for a larger buffer and left what it had. -/
def Received (maxRecvBufSize : ℕ) (dataCb : Bool) (es : List RecvEvent) (s : RecvSession) : Prop :=
  Refines maxRecvBufSize dataCb (.after dataCb es) s ∨
    ∃ q s₀, s = { s₀ with fault := some .thrown } ∧ Starved maxRecvBufSize dataCb q .thrown s₀

theorem ByteQueue.after_snoc (dataCb : Bool) (es : List RecvEvent) (e : RecvEvent) :
    ByteQueue.after dataCb (es ++ [e]) = (ByteQueue.after dataCb es).receive dataCb e := by
  simp [ByteQueue.after]

theorem received_step {maxRecvBufSize : ℕ} {dataCb : Bool} {es : List RecvEvent} {e : RecvEvent}
    {s s' : RecvSession} (h : Received maxRecvBufSize dataCb es s) (hs : s.step e = some s') :
    Received maxRecvBufSize dataCb (es ++ [e]) s' := by
  unfold RecvSession.step at hs
  split_ifs at hs with hguard
  simp only [Bool.or_eq_true, decide_eq_true_eq, not_or, not_lt] at hguard
  obtain ⟨⟨hrun, hfit⟩, -⟩ := hguard
  obtain hr | ⟨q, s₀, rfl, -⟩ := h
  · have hends := hr.receive e hfit
    cases hx : s.receive e.bytes e.proclen with
    | ok _ s₁ =>
        rw [hx] at hends hs
        obtain rfl := Option.some.inj hs
        refine .inl ?_
        rw [ByteQueue.after_snoc]
        exact hends
    | error fault s₁ =>
        rw [hx] at hends hs
        obtain rfl := Option.some.inj hs
        obtain ⟨rfl, hsize, hrefines⟩ := hends
        exact .inr ⟨_, s₁, rfl, rfl, hsize, hrefines⟩
  · simp at hrun

theorem received_of_run {maxRecvBufSize : ℕ} {dataCb : Bool} {es : List RecvEvent} {s : RecvSession}
    (h : (recvMachine maxRecvBufSize dataCb).run es = some s) :
    Received maxRecvBufSize dataCb es s := by
  refine (recvMachine maxRecvBufSize dataCb).run_induction
    (P := fun es s => Received maxRecvBufSize dataCb es s) ?_ ?_ h
  · have hsize : min (16 * 1024) maxRecvBufSize < 2 ^ 63 := by omega
    exact .inl ⟨rfl, rfl, Buffer.holds_replicate hsize, min_le_right _ _, rfl, Nat.zero_le _, rfl⟩
  · intro es s e s' _ ih hs
    exact received_step ih hs

/-- **The receive buffer refines a byte queue**, for every limit, every fragmentation and every
behaviour of the callback.  The positions stay in order and inside a block of `size` bytes, `size`
stays below the limit, what is between the positions is what was received and not consumed, the
callback is given that each time, and no copy leaves a block.  The one way out is a `new` without
memory, when the buffer has reached the size of the address space. -/
theorem recvBuffer_refines_queue (maxRecvBufSize : ℕ) (dataCb : Bool) (es : List RecvEvent)
    (s : RecvSession) (h : (recvMachine maxRecvBufSize dataCb).run es = some s) :
    s.recvBuffers_.read_pos ≤ s.recvBuffers_.write_pos ∧
    s.recvBuffers_.write_pos ≤ s.recvBuffers_.size ∧
    s.recvBuffers_.size ≤ maxRecvBufSize ∧ s.recvBuffers_.data.length = s.recvBuffers_.size ∧
    ((s.fault = none ∧ s.calls = (ByteQueue.after dataCb es).calls ∧
      load s.recvBuffers_.data s.recvBuffers_.read_pos
        (s.recvBuffers_.write_pos - s.recvBuffers_.read_pos) =
          some (ByteQueue.after dataCb es).unread) ∨
    (s.fault = some .thrown ∧ 2 ^ 63 ≤ s.recvBuffers_.size + 1024)) := by
  obtain hr | ⟨q, s₀, rfl, -, hsize, hr⟩ := received_of_run h
  · exact ⟨hr.holds.read_le, hr.holds.write_le, hr.size_le, hr.holds.block,
      .inl ⟨hr.running, hr.calls, hr.holds.reader⟩⟩
  · exact ⟨hr.holds.read_le, hr.holds.write_le, hr.size_le, hr.holds.block, .inr ⟨rfl, hsize⟩⟩

/-- A buffer of four bytes: it is filled, partly consumed, compacted, and filled again. -/
def fourBytes : List RecvEvent :=
  [⟨[1, 2, 3], 1⟩, ⟨[4], 0⟩, ⟨[5], 9⟩, ⟨[], 3⟩, ⟨[6, 7], 3⟩]

theorem recvBuffer_refines_fourBytes : ∃ s, (recvMachine 4 true).run fourBytes = some s ∧
    s.calls = [[1, 2, 3], [2, 3, 4], [2, 3, 4, 5], [2, 3, 4, 5], [5, 6, 7]] ∧
    s.recvBuffers_.read_pos ≤ s.recvBuffers_.write_pos ∧
    s.recvBuffers_.write_pos ≤ s.recvBuffers_.size ∧ s.recvBuffers_.size ≤ 4 := by
  obtain ⟨s, h⟩ : ∃ s, (recvMachine 4 true).run fourBytes = some s :=
    Option.isSome_iff_exists.mp (by decide +kernel)
  have hcalls : ((recvMachine 4 true).run fourBytes).map RecvSession.calls =
      some [[1, 2, 3], [2, 3, 4], [2, 3, 4, 5], [2, 3, 4, 5], [5, 6, 7]] := by decide +kernel
  rw [h] at hcalls
  obtain ⟨hrw, hws, hsm, -⟩ := recvBuffer_refines_queue 4 true fourBytes s h
  exact ⟨s, h, Option.some.inj hcalls, hrw, hws, hsm⟩

end BlackSwan.Asio
