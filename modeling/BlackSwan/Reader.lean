import BlackSwan.Packet

/-! # The reader of a session

`Session::readerLoop` of `share/networkEx/session.h` and the receive loops it is given as data
callbacks (`onRecvClientData`, `onRecvServerData` and `onRecvLoginData` of the gate, `onRecvData`
of the login server, the game server and the client).  The loops differ in the decoder and in
what they do with a packet, so they are one definition, `recvLoop`.

The main results say when a stream of packets survives any fragmentation into socket reads.
Between servers it always does.  For client packets it does exactly when no read brings the
receive buffer to 65536 bytes, because `decode_packet` sees the buffer length modulo `2^16`. -/

namespace BlackSwan

open Wire

variable {π σ : Type}

/-- A data callback: it is given the receive buffer and returns how much of it is left over. -/
abbrev DataProcess (σ : Type) := Bytes → σ → Call σ ℕ

/-- The temporary buffer of one `async_read_some`. -/
def BUF_SIZE : ℕ := 1024 * 4

/-- One round of `readerLoop`, after a read of the bytes `buf`. -/
def readerRound (data_proc : Option (DataProcess σ)) (recvBuffer buf : Bytes) (s : σ) :
    Call σ Bytes :=
  let recvBuffer := recvBuffer ++ buf
  match data_proc with
  | none => .ok [] s
  | some proc =>
      match proc recvBuffer s with
      | .error e s' => .error e s'
      | .ok r s' =>
          let remaining := min r recvBuffer.length
          let consumed := recvBuffer.length - remaining
          .ok (if consumed > 0 then recvBuffer.drop consumed else recvBuffer) s'

/-- `Session::readerLoop` over the socket reads `reads`; an exception ends it. -/
def readerLoop (data_proc : Option (DataProcess σ)) : List Bytes → Bytes → σ → Call σ Bytes
  | [], recvBuffer, s => .ok recvBuffer s
  | buf :: reads, recvBuffer, s =>
      match readerRound data_proc recvBuffer buf s with
      | .error e s' => .error e s'
      | .ok recvBuffer' s' => readerLoop data_proc reads recvBuffer' s'

/-! ### The receive loops -/

def CS_HeartBeat_Req : UInt32 := 20000
def CS_HeartBeat_Ack : UInt32 := 20001

/-- The two ids that the receive loops keep for themselves. -/
def isHeartBeat (id : UInt32) : Bool := id == CS_HeartBeat_Req || id == CS_HeartBeat_Ack

/-- What a receive loop does with a packet. -/
def onPacket (msgId : π → UInt32) (replyPing : σ → σ) (dispatch : π → σ → Call σ Unit) (p : π)
    (s : σ) : Call σ Unit :=
  if msgId p = CS_HeartBeat_Req then .ok () (replyPing s)
  else if msgId p = CS_HeartBeat_Ack then .ok () s
  else dispatch p s

/-- The receive loop: heartbeats are answered, every other packet is dispatched. -/
def recvLoop (D : Decoder π) (msgId : π → UInt32) (replyPing : σ → σ)
    (dispatch : π → σ → Call σ Unit) : DataProcess σ := fun data s =>
  match D.drain (onPacket msgId replyPing dispatch) data.length data s with
  | .ok rest s' => .ok rest.length s'
  | .error e s' => .error e s'

/-- The loop over client packets. -/
def clientLoop (replyPing : σ → σ) (dispatch : Packet → σ → Call σ Unit) : DataProcess σ :=
  recvLoop clientDecoder Packet.id replyPing dispatch

/-- The loop over packets between servers. -/
def innerLoop (replyPing : σ → σ) (dispatch : InnerPacket → σ → Call σ Unit) : DataProcess σ :=
  recvLoop innerDecoder InnerPacket.id replyPing dispatch

/-- A receive loop is the handling of the packets its decoder finds. -/
theorem recvLoop_eq (D : Decoder π) (msgId : π → UInt32) (replyPing : σ → σ)
    (dispatch : π → σ → Call σ Unit) (data : Bytes) (s : σ) :
    recvLoop D msgId replyPing dispatch data s =
      match handleAll (onPacket msgId replyPing dispatch) (D.frames data) s with
      | .ok _ s' => .ok (D.rest data).length s'
      | .error e s' => .error e s' := by
  simp only [recvLoop, D.drain_eq]
  cases handleAll (onPacket msgId replyPing dispatch) (D.frames data) s <;> rfl

/-- A buffer with one packet between servers that is no heartbeat. -/
theorem innerLoop_encode (replyPing : σ → σ) (dispatch : InnerPacket → σ → Call σ Unit)
    {m : InnerMsg} (hv : m.2.2.length ≤ 2 ^ 31 - 1) (hb : isHeartBeat m.1 = false) (s : σ) :
    ∃ pack : InnerPacket, (pack.id, pack.transID, pack.body) = m ∧
      innerLoop replyPing dispatch (encodeInnerMsg m) s =
        match dispatch pack s with
        | .ok _ s' => .ok 0 s'
        | .error e s' => .error e s' := by
  have hlen : (innerCode.encode m).length < innerDecoder.window := by
    show (encodeInnerMsg m).length < 2 ^ 32
    rw [length_encodeInnerMsg hv, InnerMsgHeaderSize]
    omega
  obtain ⟨pack, hview, hf, hr⟩ := innerCode.parse_encode hv hlen
  refine ⟨pack, hview, ?_⟩
  have hid : pack.id = m.1 := congrArg Prod.fst hview
  have honp : onPacket InnerPacket.id replyPing dispatch pack s = dispatch pack s := by
    rw [isHeartBeat, Bool.or_eq_false_iff] at hb
    unfold onPacket
    rw [hid, if_neg (by simpa using hb.1), if_neg (by simpa using hb.2)]
  change innerDecoder.frames (encodeInnerMsg m) = [pack] at hf
  change innerDecoder.rest (encodeInnerMsg m) = [] at hr
  rw [innerLoop, recvLoop_eq, hf, hr, handleAll, honp]
  cases dispatch pack s <;> rfl

/-- An invariant of the handlers is one of the receive loop. -/
theorem ends_recvLoop {I : σ → Prop} {E : Fault → σ → Prop} (D : Decoder π) (msgId : π → UInt32)
    (replyPing : σ → σ) (dispatch : π → σ → Call σ Unit) (hping : ∀ s, I s → I (replyPing s))
    (hdisp : ∀ p s, I s → Ends I E (dispatch p s)) (data : Bytes) (s : σ) (hs : I s) :
    Ends I E (recvLoop D msgId replyPing dispatch data s) := by
  have hall : Ends I E (handleAll (onPacket msgId replyPing dispatch) (D.frames data) s) := by
    apply ends_handleAll _ _ _ hs
    intro p s' hs'
    unfold onPacket
    split_ifs
    · exact hping s' hs'
    · exact hs'
    · exact hdisp p s' hs'
  rw [recvLoop_eq]
  cases hr : handleAll (onPacket msgId replyPing dispatch) (D.frames data) s with
  | ok _ s' =>
      rw [hr] at hall
      exact hall
  | error e s' =>
      rw [hr] at hall
      exact hall

/-- Handlers that agree on the states of an invariant make the loops the same. -/
theorem recvLoop_congr {I : σ → Prop} (D : Decoder π) (msgId : π → UInt32) (replyPing : σ → σ)
    {dispatch' dispatch : π → σ → Call σ Unit} (hping : ∀ s, I s → I (replyPing s))
    (heq : ∀ p s, I s → dispatch' p s = dispatch p s)
    (hdisp : ∀ p s, I s → Ends I (fun _ _ => True) (dispatch p s)) (data : Bytes) (s : σ)
    (hs : I s) :
    recvLoop D msgId replyPing dispatch' data s = recvLoop D msgId replyPing dispatch data s := by
  have hall : handleAll (onPacket msgId replyPing dispatch') (D.frames data) s =
      handleAll (onPacket msgId replyPing dispatch) (D.frames data) s := by
    apply handleAll_congr (I := I) _ _ _ s hs
    · intro p s hs
      rw [onPacket, onPacket, heq p s hs]
    · intro p s s' hs hok
      unfold onPacket at hok
      split_ifs at hok
      · obtain ⟨-, rfl⟩ := EStateM.Result.ok.inj hok
        exact hping s hs
      · obtain ⟨-, rfl⟩ := EStateM.Result.ok.inj hok
        exact hs
      · have hends := hdisp p s hs
        rw [hok] at hends
        exact hends
  rw [recvLoop_eq, recvLoop_eq, hall]

/-- Loops whose handlers end alike, or with the fault `e`, do so too. -/
theorem recvLoop_endsAs {e : Fault} (D : Decoder π) (msgId : π → UInt32) (replyPing : σ → σ)
    {dispatch' dispatch : π → σ → Call σ Unit} (h : ∀ p s, EndsAs e (dispatch' p s) (dispatch p s))
    (data : Bytes) (s : σ) : EndsAs e (recvLoop D msgId replyPing dispatch' data s)
      (recvLoop D msgId replyPing dispatch data s) := by
  have hall : ∀ p s, EndsAs e (onPacket msgId replyPing dispatch' p s)
      (onPacket msgId replyPing dispatch p s) := by
    intro p s
    unfold onPacket
    split_ifs
    · exact .inl rfl
    · exact .inl rfl
    · exact h p s
  rw [recvLoop_eq, recvLoop_eq]
  obtain hr | ⟨s', hr⟩ := handleAll_endsAs hall (D.frames data) s
  · exact .inl (by rw [hr])
  · exact .inr ⟨s', by rw [hr]⟩

/-- One round of the reader is one `feed` of the framing library: the count that a receive loop
returns is the length of the end of the buffer that it left. -/
theorem readerRound_recvLoop (D : Decoder π) (msgId : π → UInt32) (replyPing : σ → σ)
    (dispatch : π → σ → Call σ Unit) (recvBuffer buf : Bytes) (s : σ) :
    readerRound (some (recvLoop D msgId replyPing dispatch)) recvBuffer buf s =
      feed D (onPacket msgId replyPing dispatch) recvBuffer buf s := by
  simp only [readerRound, recvLoop_eq, feed, D.drain_eq]
  cases handleAll (onPacket msgId replyPing dispatch) (D.frames (recvBuffer ++ buf)) s with
  | error e s' => rfl
  | ok _ s' =>
      have hle := D.length_rest_le (recvBuffer ++ buf)
      have hdrop := D.rest_eq_drop (recvBuffer ++ buf)
      simp only [min_eq_left hle, EStateM.Result.ok.injEq, and_true]
      split_ifs with hc
      · exact hdrop
      · rw [Nat.eq_zero_of_not_pos hc, List.drop_zero] at hdrop
        exact hdrop

theorem readerLoop_recvLoop (D : Decoder π) (msgId : π → UInt32) (replyPing : σ → σ)
    (dispatch : π → σ → Call σ Unit) : ∀ (reads : List Bytes) (recvBuffer : Bytes) (s : σ),
    readerLoop (some (recvLoop D msgId replyPing dispatch)) reads recvBuffer s =
      feedAll D (onPacket msgId replyPing dispatch) reads recvBuffer s
  | [], recvBuffer, s => rfl
  | buf :: reads, recvBuffer, s => by
      simp only [readerLoop, feedAll, readerRound_recvLoop]
      cases feed D (onPacket msgId replyPing dispatch) recvBuffer buf s with
      | error e s' => rfl
      | ok b s' => exact readerLoop_recvLoop D msgId replyPing dispatch reads b s'

/-! ### Fragmentation -/

/-- A way of cutting a byte stream into socket reads. -/
structure IsCut (stream : Bytes) (reads : List Bytes) : Prop where
  flatten : reads.flatten = stream
  bound : ∀ r ∈ reads, 1 ≤ r.length ∧ r.length ≤ BUF_SIZE

/-- Keep a message that is not a heartbeat. -/
def logMsg {μ : Type} (id : μ → UInt32) (log : List μ) (m : μ) : List μ :=
  if isHeartBeat (id m) then log else log ++ [m]

theorem foldl_logMsg {μ : Type} (id : μ → UInt32) : ∀ (ms log : List μ),
    (∀ m ∈ ms, isHeartBeat (id m) = false) → ms.foldl (logMsg id) log = log ++ ms
  | [], log, _ => by simp
  | m :: ms, log, h => by
      rw [List.foldl_cons, logMsg, h m List.mem_cons_self,
        foldl_logMsg id ms _ fun m' hm' => h m' (List.mem_cons_of_mem _ hm')]
      simp

theorem onPacket_log {μ : Type} (msgId : π → UInt32) (view : π → μ) (id : μ → UInt32)
    (hid : ∀ p, id (view p) = msgId p) (p : π) (log : List μ) :
    onPacket msgId (fun s => s) (fun p log => .ok () (log ++ [view p])) p log =
      .ok () (logMsg id log (view p)) := by
  simp only [onPacket, logMsg, isHeartBeat, hid]
  by_cases h1 : msgId p = CS_HeartBeat_Req <;> by_cases h2 : msgId p = CS_HeartBeat_Ack <;>
    simp [h1, h2]

/-- What a client-packet receiver dispatches, as a log. -/
def clientReceiver : DataProcess (List ClientMsg) :=
  clientLoop (fun log => log) fun p log => .ok () (log ++ [(p.id, p.body)])

/-- What a receiver of inner packets dispatches, as a log. -/
def innerReceiver : DataProcess (List InnerMsg) :=
  innerLoop (fun log => log) fun p log => .ok () (log ++ [(p.id, p.transID, p.body)])

/-- The reader dispatches exactly the messages `msgs`, in order, and its buffer ends empty. -/
def ClientDelivered (msgs : List ClientMsg) (reads : List Bytes) : Prop :=
  readerLoop (some clientReceiver) reads [] [] = .ok [] msgs

def InnerDelivered (msgs : List InnerMsg) (reads : List Bytes) : Prop :=
  readerLoop (some innerReceiver) reads [] [] = .ok [] msgs

theorem clientDelivered_iff_feedAll (msgs : List ClientMsg) (reads : List Bytes) :
    ClientDelivered msgs reads ↔
      feedAll clientDecoder (clientCode.absorb (logMsg Prod.fst)) reads [] [] = .ok [] msgs := by
  unfold ClientDelivered clientReceiver clientLoop
  rw [readerLoop_recvLoop]
  have e : onPacket Packet.id (fun log => log)
      (fun p log => EStateM.Result.ok () (log ++ [(p.id, p.body)])) =
      clientCode.absorb (logMsg Prod.fst) := by
    funext p log
    exact onPacket_log Packet.id (fun p => (p.id, p.body)) Prod.fst (fun _ => rfl) p log
  rw [e]

theorem innerDelivered_iff_feedAll (msgs : List InnerMsg) (reads : List Bytes) :
    InnerDelivered msgs reads ↔
      feedAll innerDecoder (innerCode.absorb (logMsg Prod.fst)) reads [] [] = .ok [] msgs := by
  unfold InnerDelivered innerReceiver innerLoop
  rw [readerLoop_recvLoop]
  have e : onPacket InnerPacket.id (fun log => log)
      (fun p log => EStateM.Result.ok () (log ++ [(p.id, p.transID, p.body)])) =
      innerCode.absorb (logMsg Prod.fst) := by
    funext p log
    exact onPacket_log InnerPacket.id (fun p => (p.id, p.transID, p.body)) Prod.fst
      (fun _ => rfl) p log
  rw [e]

/-- **Client framing, exactly**: the packets survive a fragmentation if and only if at every read
the bytes from the start of the first packet that was not complete before it, up to the end of
the read, number at most 65535. -/
theorem clientDelivered_iff (msgs : List ClientMsg) (reads : List Bytes)
    (hid : ∀ m ∈ msgs, isHeartBeat m.1 = false) (hlen : ∀ m ∈ msgs, m.2.length ≤ 65535)
    (hcut : IsCut (msgs.map encodeMsg).flatten reads) :
    ClientDelivered msgs reads ↔
      InWindow 65536 (msgs.map fun m => MsgHeaderSize + m.2.length) reads := by
  have hsizes : clientCode.sizes msgs = msgs.map fun m => MsgHeaderSize + m.2.length :=
    List.map_congr_left fun m hm => length_encodeMsg (hlen m hm)
  have key := clientCode.feedAll_iff (by decide) (logMsg Prod.fst) msgs [] reads hlen hcut.flatten
  rw [foldl_logMsg Prod.fst msgs [] hid, List.nil_append, hsizes] at key
  exact (clientDelivered_iff_feedAll msgs reads).trans key

theorem clientDelivered_iff_two_reads :
    ClientDelivered [(1, [7])] [[0, 0, 0, 1], [0, 1, 7]] ↔
      InWindow 65536 [7] [[0, 0, 0, 1], [0, 1, 7]] :=
  clientDelivered_iff [(1, [7])] [[0, 0, 0, 1], [0, 1, 7]] (by decide) (by decide)
    ⟨by decide, by decide⟩

/-- A body of `n` zero bytes. -/
def zeroMsg (n : ℕ) : ClientMsg := (1, List.replicate n 0)

/-- The packet of `zeroMsg 65530`, which fills the whole window, in full reads. -/
def longReads : List Bytes :=
  ([0, 0, 0, 1, 255, 250] ++ List.replicate 4090 0) :: List.replicate 15 (List.replicate 4096 0)

theorem length_zeroMsg (n : ℕ) : (zeroMsg n).2.length = n := List.length_replicate

theorem encode_zeroMsg {n : ℕ} (h : n ≤ 65535) :
    encodeMsg (zeroMsg n) = [0, 0, 0, 1] ++ (beBytes 2 n ++ List.replicate n 0) := by
  have hsz : (UInt16.ofNat (zeroMsg n).2.length).toNat = n := by
    rw [length_zeroMsg, UInt16.toNat_ofNat']
    omega
  have hbody : (zeroMsg n).2.take n = List.replicate n 0 := by
    rw [zeroMsg, List.take_replicate, min_self]
  have hid : beBytes 4 (zeroMsg n).1.toNat = [0, 0, 0, 1] := by
    show beBytes 4 (1 : UInt32).toNat = _
    decide
  rw [encodeMsg, encodePacket, hsz, hbody, hid]

theorem length_longReads : longReads.length = 16 := by
  rw [longReads, List.length_cons, List.length_replicate]

theorem longReads_isCut : IsCut ([zeroMsg 65530].map encodeMsg).flatten longReads where
  flatten := by
    rw [List.map_singleton, List.flatten_singleton, encode_zeroMsg (by omega), longReads,
      List.flatten_cons, List.flatten_replicate_replicate, List.append_assoc,
      ← List.replicate_add, ← List.append_assoc]
    rfl
  bound := by
    intro r hr
    rcases List.mem_cons.mp hr with rfl | hr
    · rw [List.length_append, List.length_replicate, BUF_SIZE]
      exact ⟨by decide, by decide⟩
    · rw [List.eq_of_mem_replicate hr, List.length_replicate, BUF_SIZE]
      omega

/-- A packet of 65536 bytes is not dispatched, and stays in the buffer. -/
theorem zeroMsg_not_delivered :
    isHeartBeat (zeroMsg 65530).1 = false ∧ (zeroMsg 65530).2.length ≤ 65535 ∧
      IsCut ([zeroMsg 65530].map encodeMsg).flatten longReads ∧
      ¬ ClientDelivered [zeroMsg 65530] longReads := by
  have hid : isHeartBeat (zeroMsg 65530).1 = false := by decide
  have hlen : (zeroMsg 65530).2.length = 65530 := length_zeroMsg _
  refine ⟨hid, by omega, longReads_isCut, fun h => ?_⟩
  -- the last read ends the packet and brings the buffer to the window
  have key := clientCode.feedAll_iff (by decide) (logMsg Prod.fst) [zeroMsg 65530] [] longReads
    (fun m hm => by rw [List.mem_singleton.mp hm]; exact hlen.le.trans (by omega))
    longReads_isCut.flatten
  rw [foldl_logMsg Prod.fst _ [] (fun m hm => by rw [List.mem_singleton.mp hm]; exact hid)] at key
  have hwin := key.mp ((clientDelivered_iff_feedAll _ _).mp h) 15
    (by rw [length_longReads]; omega)
  have hsz : clientCode.sizes [zeroMsg 65530] = [65536] := by
    show [(encodeMsg (zeroMsg 65530)).length] = _
    rw [length_encodeMsg (by omega), hlen, MsgHeaderSize]
  have hall : (longReads.take 16).flatten.length = 65536 := by
    rw [List.take_of_length_le length_longReads.le, longReads_isCut.flatten,
      List.map_singleton, List.flatten_singleton, length_encodeMsg (by omega), hlen, MsgHeaderSize]
  have hlast : (longReads.take 15).flatten.length = 61440 := by
    rw [longReads, List.take_succ_cons, List.take_replicate, List.flatten_cons,
      List.flatten_replicate_replicate, List.length_append, List.length_append,
      List.length_replicate, List.length_replicate]
    rfl
  rw [hall, hlast, hsz] at hwin
  exact absurd hwin (by decide)

/-- **Framing between servers is lossless** under every fragmentation into socket reads. -/
theorem innerDelivered (msgs : List InnerMsg) (reads : List Bytes)
    (hid : ∀ m ∈ msgs, isHeartBeat m.1 = false) (hlen : ∀ m ∈ msgs, m.2.2.length ≤ 2 ^ 31 - 1)
    (hcut : IsCut (msgs.map encodeInnerMsg).flatten reads) : InnerDelivered msgs reads := by
  rw [innerDelivered_iff_feedAll]
  have key := innerCode.feedAll_iff (by decide) (logMsg Prod.fst) msgs [] reads hlen hcut.flatten
  rw [foldl_logMsg Prod.fst msgs [] hid, List.nil_append] at key
  refine key.mpr (inWindow_of_le (F := 2 ^ 31 + 15) (r := BUF_SIZE) (by omega) ?_ ?_
    (fun c hc => (hcut.bound c hc).2) ?_)
  · show _ ≤ 2 ^ 32
    simp [BUF_SIZE]
  · intro n hn
    obtain ⟨m, hm, rfl⟩ := List.mem_map.mp hn
    have h1 := hlen m hm
    have h2 : (innerCode.encode m).length = _ := length_encodeInnerMsg h1
    simp only [InnerMsgHeaderSize] at h2
    omega
  · rw [hcut.flatten]
    exact innerCode.length_stream msgs

theorem innerDelivered_two_reads :
    InnerDelivered [(1, 5, [7])]
      [[0, 0, 0, 1, 0, 0, 0], [0, 0, 0, 0, 5, 0, 0, 0, 1, 7]] :=
  innerDelivered [(1, 5, [7])] [[0, 0, 0, 1, 0, 0, 0], [0, 0, 0, 0, 5, 0, 0, 0, 1, 7]]
    (by decide) (by decide) ⟨by decide, by decide⟩

end BlackSwan
