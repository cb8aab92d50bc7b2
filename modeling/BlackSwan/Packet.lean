import BlackSwan.Framing

/-! # Packets

`share/networkEx/packet.h` and `packet.cpp`: the client packet (`uint32 id`, `uint16 sz`, body)
and the packet between servers (`uint32 id`, `uint64 transID`, `uint32 sz`, body), both packed
and in network byte order.

* A packet that was decoded points into the receive buffer: `Packet.data` is the buffer from the
  first body byte to its end, and `Packet.body` the `string_view` of `sz` bytes at that pointer.
* The decoders take the length of the buffer in a parameter that is narrower than `size_t`
  (`uint16_t` for client packets, `uint32_t` between servers), which is the window of
  `clientDecoder` and `innerDecoder`.
* `clientCode` and `innerCode` are the sender's sides, with the round trips. -/

namespace BlackSwan

open Wire

/-- The id that a packet carries through the servers unchanged. -/
abbrev TransID := UInt64

/-- `sizeof(MsgHeader)`, packed. -/
def MsgHeaderSize : ℕ := 6

/-- `sizeof(InnerMsgHeader)`, packed. -/
def InnerMsgHeaderSize : ℕ := 16

/-- A client packet as decoded: `data` is the receive buffer from the body on. -/
structure Packet where
  id : UInt32
  sz : UInt16
  data : Bytes
deriving DecidableEq, Repr

/-- A packet between servers as decoded. -/
structure InnerPacket where
  id : UInt32
  transID : TransID
  sz : UInt32
  data : Bytes
deriving DecidableEq, Repr

namespace Packet

def size (p : Packet) : ℕ := p.sz.toNat + MsgHeaderSize

/-- `std::string_view(pack.data, pack.sz)`. -/
def body (p : Packet) : Bytes := p.data.take p.sz.toNat

end Packet

namespace InnerPacket

def size (p : InnerPacket) : ℕ := p.sz.toNat + InnerMsgHeaderSize

/-- `std::string_view(pack.data, pack.sz)`. -/
def body (p : InnerPacket) : Bytes := p.data.take p.sz.toNat

end InnerPacket

/-! ### Encoding and decoding -/

/-- `data` is the memory at the pointer argument, of which `len` bytes are copied. -/
def encodePacket (msgId : UInt32) (data : Bytes) (len : UInt16) : Bytes :=
  beBytes 4 msgId.toNat ++ (beBytes 2 len.toNat ++ data.take len.toNat)

def decodePacket (data : Bytes) (len : UInt16) : Attempt Packet :=
  if len.toNat < MsgHeaderSize then .short else
  match readWord data 0 4, readWord data 4 2 with
  | some id, some sz =>
      if len.toNat < MsgHeaderSize + (UInt16.ofNat sz).toNat then .short
      else .frame ⟨UInt32.ofNat id, UInt16.ofNat sz, data.drop MsgHeaderSize⟩
  | _, _ => .fault

def encodeInnerPacket (msgId : UInt32) (data : Bytes) (len : UInt32) (transID : TransID) : Bytes :=
  beBytes 4 msgId.toNat ++
    (beBytes 8 transID.toNat ++ (beBytes 4 len.toNat ++ data.take len.toNat))

def decodeInnerPacket (data : Bytes) (len : UInt32) : Attempt InnerPacket :=
  if len.toNat < InnerMsgHeaderSize then .short else
  match readWord data 0 4, readWord data 4 8, readWord data 12 4 with
  | some id, some transID, some sz =>
      if len.toNat < InnerMsgHeaderSize + (UInt32.ofNat sz).toNat then .short
      else .frame ⟨UInt32.ofNat id, UInt64.ofNat transID, UInt32.ofNat sz,
        data.drop InnerMsgHeaderSize⟩
  | _, _, _ => .fault

/-- The id of an inner packet, on the wire. -/
theorem readWord_msgId (msgId : UInt32) (data : Bytes) (len : UInt32) (t : TransID) :
    readWord (encodeInnerPacket msgId data len t) 0 4 = some msgId.toNat := by
  have hread := readWord_append [] (beBytes 8 t.toNat ++ (beBytes 4 len.toNat ++ data.take len.toNat))
    (length_beBytes 4 msgId.toNat)
  rw [beNat_beBytes (by simpa using msgId.toNat_lt)] at hread
  exact hread

/-- The `transID` of an inner packet, on the wire. -/
theorem readWord_transID (msgId : UInt32) (data : Bytes) (len : UInt32) (t : TransID) :
    readWord (encodeInnerPacket msgId data len t) 4 8 = some t.toNat := by
  have hlen : (beBytes 4 msgId.toNat).length = 4 := length_beBytes 4 _
  have hread := readWord_append (beBytes 4 msgId.toNat) (beBytes 4 len.toNat ++ data.take len.toNat)
    (length_beBytes 8 t.toNat)
  rw [hlen, beNat_beBytes (by simpa using t.toNat_lt)] at hread
  exact hread

/-! ### The decoders as the receive loops call them -/

theorem decodePacket_ne_fault {data : Bytes} {len : UInt16} (h : len.toNat ≤ data.length) :
    decodePacket data len ≠ .fault := by
  unfold decodePacket
  by_cases h6 : len.toNat < MsgHeaderSize
  · simp [h6]
  · rw [if_neg h6]
    simp only [MsgHeaderSize] at h6
    rw [readWord_isSome (by omega), readWord_isSome (by omega)]
    dsimp only
    split_ifs <;> simp

theorem decodePacket_size_le {data : Bytes} {len : UInt16} {p : Packet}
    (h : decodePacket data len = .frame p) : p.size ≤ len.toNat := by
  unfold decodePacket at h
  split_ifs at h
  split at h
  · split_ifs at h with hsz
    obtain rfl := Attempt.frame.inj h
    simp only [Packet.size]
    omega
  · cases h

theorem decodeInnerPacket_ne_fault {data : Bytes} {len : UInt32} (h : len.toNat ≤ data.length) :
    decodeInnerPacket data len ≠ .fault := by
  unfold decodeInnerPacket
  by_cases h16 : len.toNat < InnerMsgHeaderSize
  · simp [h16]
  · rw [if_neg h16]
    simp only [InnerMsgHeaderSize] at h16
    rw [readWord_isSome (by omega), readWord_isSome (by omega), readWord_isSome (by omega)]
    dsimp only
    split_ifs <;> simp

theorem decodeInnerPacket_size_le {data : Bytes} {len : UInt32} {p : InnerPacket}
    (h : decodeInnerPacket data len = .frame p) : p.size ≤ len.toNat := by
  unfold decodeInnerPacket at h
  split_ifs at h
  split at h
  · split_ifs at h with hsz
    obtain rfl := Attempt.frame.inj h
    simp only [InnerPacket.size]
    omega
  · cases h

/-- A packet that was decoded is encoded as it was read. -/
theorem encodePacket_decodePacket {data : Bytes} {len : UInt16} {p : Packet}
    (h : decodePacket data len = .frame p) :
    encodePacket p.id p.data p.sz ++ data.drop p.size = data := by
  unfold decodePacket at h
  split_ifs at h
  split at h
  · rename_i id sz hid hsz
    split_ifs at h
    obtain rfl := Attempt.frame.inj h
    have hid' : (UInt32.ofNat id).toNat = id := UInt32.toNat_ofNat_of_lt' (readWord_lt hid)
    have hsz' : (UInt16.ofNat sz).toNat = sz := UInt16.toNat_ofNat_of_lt' (readWord_lt hsz)
    simp only [Packet.size, hsz', MsgHeaderSize]
    rw [encodePacket, hid', hsz', beBytes_readWord hid, beBytes_readWord hsz, List.drop_zero]
    rw [take_append_take data 4 2 sz, ← List.take_add, show sz + 6 = 4 + (2 + sz) by omega,
      List.take_append_drop]
  · cases h

/-- An inner packet that was decoded is encoded as it was read. -/
theorem encodeInnerPacket_decodeInnerPacket {data : Bytes} {len : UInt32} {p : InnerPacket}
    (h : decodeInnerPacket data len = .frame p) :
    encodeInnerPacket p.id p.data p.sz p.transID ++ data.drop p.size = data := by
  unfold decodeInnerPacket at h
  split_ifs at h
  split at h
  · rename_i id t sz hid ht hsz
    split_ifs at h
    obtain rfl := Attempt.frame.inj h
    have hid' : (UInt32.ofNat id).toNat = id := UInt32.toNat_ofNat_of_lt' (readWord_lt hid)
    have ht' : (UInt64.ofNat t).toNat = t := UInt64.toNat_ofNat_of_lt' (readWord_lt ht)
    have hsz' : (UInt32.ofNat sz).toNat = sz := UInt32.toNat_ofNat_of_lt' (readWord_lt hsz)
    simp only [InnerPacket.size, hsz', InnerMsgHeaderSize]
    rw [encodeInnerPacket, hid', ht', hsz', beBytes_readWord hid, beBytes_readWord ht,
      beBytes_readWord hsz, List.drop_zero]
    rw [take_append_take data 12 4 sz, take_append_take data 4 8 (4 + sz), ← List.take_add,
      show sz + 16 = 4 + (8 + (4 + sz)) by omega, List.take_append_drop]
  · cases h

/-- `decode_packet` with the narrowing of a `size_t` length to its `uint16_t` parameter. -/
def clientDecoder : Decoder Packet where
  window := 2 ^ 16
  decode data len := decodePacket data (UInt16.ofNat len)
  size := Packet.size
  decode_ne_fault data len h := decodePacket_ne_fault (by
    have : (UInt16.ofNat len).toNat = len % 2 ^ 16 := by simp
    have := Nat.mod_le len (2 ^ 16)
    omega)
  size_le data len p h := by simpa using decodePacket_size_le h
  size_pos p := by simp [Packet.size, MsgHeaderSize]

/-- `decode_inner_packet` with the narrowing of a `size_t` length to its `uint32_t` parameter. -/
def innerDecoder : Decoder InnerPacket where
  window := 2 ^ 32
  decode data len := decodeInnerPacket data (UInt32.ofNat len)
  size := InnerPacket.size
  decode_ne_fault data len h := decodeInnerPacket_ne_fault (by
    have : (UInt32.ofNat len).toNat = len % 2 ^ 32 := by simp
    have := Nat.mod_le len (2 ^ 32)
    omega)
  size_le data len p h := by simpa using decodeInnerPacket_size_le h
  size_pos p := by simp [InnerPacket.size, InnerMsgHeaderSize]

/-! ### The sender's side -/

/-- What a client packet says: message id and body. -/
abbrev ClientMsg := UInt32 × Bytes

/-- What a packet between servers says: message id, transparent id and body. -/
abbrev InnerMsg := UInt32 × TransID × Bytes

/-- A client message sent with its own length, as the senders do. -/
def encodeMsg (m : ClientMsg) : Bytes := encodePacket m.1 m.2 (UInt16.ofNat m.2.length)

/-- An inner message sent with its own length. -/
def encodeInnerMsg (m : InnerMsg) : Bytes :=
  encodeInnerPacket m.1 m.2.2 (UInt32.ofNat m.2.2.length) m.2.1

theorem length_encodePacket (msgId : UInt32) (data : Bytes) (len : UInt16)
    (h : len.toNat ≤ data.length) :
    (encodePacket msgId data len).length = MsgHeaderSize + len.toNat := by
  simp [encodePacket, MsgHeaderSize, h]
  omega

theorem length_encodeInnerPacket (msgId : UInt32) (data : Bytes) (len : UInt32) (t : TransID)
    (h : len.toNat ≤ data.length) :
    (encodeInnerPacket msgId data len t).length = InnerMsgHeaderSize + len.toNat := by
  simp [encodeInnerPacket, InnerMsgHeaderSize, h]
  omega

theorem length_encodeMsg {m : ClientMsg} (h : m.2.length ≤ 65535) :
    (encodeMsg m).length = MsgHeaderSize + m.2.length := by
  have e : (UInt16.ofNat m.2.length).toNat = m.2.length := by
    simp only [UInt16.toNat_ofNat']
    omega
  rw [encodeMsg, length_encodePacket _ _ _ (by omega), e]

theorem length_encodeInnerMsg {m : InnerMsg} (h : m.2.2.length ≤ 2 ^ 31 - 1) :
    (encodeInnerMsg m).length = InnerMsgHeaderSize + m.2.2.length := by
  have e : (UInt32.ofNat m.2.2.length).toNat = m.2.2.length := by
    simp only [UInt32.toNat_ofNat']
    omega
  rw [encodeInnerMsg, length_encodeInnerPacket _ _ _ _ (by omega), e]

/-- Decoding behind an intact header. -/
theorem decodePacket_header (id : UInt32) (sz : UInt16) (x : Bytes) (len : UInt16) :
    decodePacket (beBytes 4 id.toNat ++ (beBytes 2 sz.toNat ++ x)) len =
      if len.toNat < MsgHeaderSize + sz.toNat then .short else .frame ⟨id, sz, x⟩ := by
  have h1 : readWord (beBytes 4 id.toNat ++ (beBytes 2 sz.toNat ++ x)) 0 4 = some id.toNat := by
    have := readWord_append [] (beBytes 2 sz.toNat ++ x) (length_beBytes 4 id.toNat)
    simpa [beNat_beBytes (w := 4) id.toNat_lt] using this
  have h2 : readWord (beBytes 4 id.toNat ++ (beBytes 2 sz.toNat ++ x)) 4 2 = some sz.toNat := by
    have := readWord_append (beBytes 4 id.toNat) x (length_beBytes 2 sz.toNat)
    simpa [beNat_beBytes (w := 2) sz.toNat_lt] using this
  have h3 : (beBytes 4 id.toNat ++ (beBytes 2 sz.toNat ++ x)).drop MsgHeaderSize = x := by
    rw [← List.append_assoc]
    exact List.drop_left' (by simp [MsgHeaderSize])
  simp only [decodePacket, h1, h2, h3, UInt32.ofNat_toNat, UInt16.ofNat_toNat]
  split_ifs with h6 h7 <;> first | rfl | omega

theorem decodeInnerPacket_header (id : UInt32) (t : TransID) (sz : UInt32) (x : Bytes)
    (len : UInt32) :
    decodeInnerPacket (beBytes 4 id.toNat ++ (beBytes 8 t.toNat ++ (beBytes 4 sz.toNat ++ x))) len =
      if len.toNat < InnerMsgHeaderSize + sz.toNat then .short else .frame ⟨id, t, sz, x⟩ := by
  set data := beBytes 4 id.toNat ++ (beBytes 8 t.toNat ++ (beBytes 4 sz.toNat ++ x)) with hdata
  have h1 : readWord data 0 4 = some id.toNat := by
    have := readWord_append [] (beBytes 8 t.toNat ++ (beBytes 4 sz.toNat ++ x))
      (length_beBytes 4 id.toNat)
    simpa [beNat_beBytes (w := 4) id.toNat_lt] using this
  have h2 : readWord data 4 8 = some t.toNat := by
    have := readWord_append (beBytes 4 id.toNat) (beBytes 4 sz.toNat ++ x)
      (length_beBytes 8 t.toNat)
    simpa [beNat_beBytes (w := 8) t.toNat_lt] using this
  have h3 : readWord data 12 4 = some sz.toNat := by
    have := readWord_append (beBytes 4 id.toNat ++ beBytes 8 t.toNat) x
      (length_beBytes 4 sz.toNat)
    simpa [hdata, beNat_beBytes (w := 4) sz.toNat_lt] using this
  have h4 : data.drop InnerMsgHeaderSize = x := by
    rw [hdata, ← List.append_assoc, ← List.append_assoc]
    exact List.drop_left' (by simp [InnerMsgHeaderSize])
  simp only [decodeInnerPacket, h1, h2, h3, h4, UInt32.ofNat_toNat, UInt64.ofNat_toNat]
  split_ifs with h6 h7 <;> first | rfl | omega

/-- Client packets with a body of any length that their header can announce. -/
def clientCode : FrameCode clientDecoder ClientMsg where
  Valid m := m.2.length ≤ 65535
  encode := encodeMsg
  view p := (p.id, p.body)
  encode_pos m := by simp [encodeMsg, encodePacket]
  decode_encode m rest len hv hle hlt := by
    have hm := length_encodeMsg hv
    have hsz : (UInt16.ofNat m.2.length).toNat = m.2.length := by
      simp only [UInt16.toNat_ofNat']
      omega
    have hlen : (UInt16.ofNat len).toNat = len := UInt16.toNat_ofNat_of_lt' hlt
    have hbuf : encodeMsg m ++ rest = beBytes 4 m.1.toNat ++
        (beBytes 2 (UInt16.ofNat m.2.length).toNat ++ (m.2 ++ rest)) := by
      simp [encodeMsg, encodePacket, hsz]
    refine ⟨⟨m.1, UInt16.ofNat m.2.length, m.2 ++ rest⟩, ?_, ?_, ?_⟩
    · show decodePacket (encodeMsg m ++ rest) (UInt16.ofNat len) = _
      rw [hbuf, decodePacket_header, if_neg (by rw [hlen, hsz]; omega)]
    · simp [Packet.body, hsz]
    · show Packet.size _ = _
      rw [hm, Packet.size, hsz]
      omega
  decode_short m k hv hk hlt := by
    have hm := length_encodeMsg hv
    have hsz : (UInt16.ofNat m.2.length).toNat = m.2.length := by
      simp only [UInt16.toNat_ofNat']
      omega
    have hlen : (UInt16.ofNat k).toNat = k := UInt16.toNat_ofNat_of_lt' hlt
    show decodePacket _ _ = _
    by_cases h6 : k < MsgHeaderSize
    · simp [decodePacket, hlen, h6]
    · -- the header is intact and announces more than there is
      simp only [MsgHeaderSize] at h6 hm
      have hcut : (encodeMsg m).take k = beBytes 4 m.1.toNat ++
          (beBytes 2 (UInt16.ofNat m.2.length).toNat ++ m.2.take (k - 6)) := by
        rw [encodeMsg, encodePacket, List.take_append, List.take_append,
          List.take_of_length_le (by simp; omega), List.take_of_length_le (by simp; omega)]
        simp only [length_beBytes, hsz, List.take_length, Nat.sub_sub]
      rw [hcut, decodePacket_header, if_pos (by rw [hlen, hsz, MsgHeaderSize]; omega)]

/-- Packets between servers with a body of at most protobuf's limit of `2^31 - 1` bytes. -/
def innerCode : FrameCode innerDecoder InnerMsg where
  Valid m := m.2.2.length ≤ 2 ^ 31 - 1
  encode := encodeInnerMsg
  view p := (p.id, p.transID, p.body)
  encode_pos m := by simp [encodeInnerMsg, encodeInnerPacket]
  decode_encode m rest len hv hle hlt := by
    have hm := length_encodeInnerMsg hv
    have hsz : (UInt32.ofNat m.2.2.length).toNat = m.2.2.length := by
      simp only [UInt32.toNat_ofNat']
      omega
    have hlen : (UInt32.ofNat len).toNat = len := UInt32.toNat_ofNat_of_lt' hlt
    have hbuf : encodeInnerMsg m ++ rest = beBytes 4 m.1.toNat ++ (beBytes 8 m.2.1.toNat ++
        (beBytes 4 (UInt32.ofNat m.2.2.length).toNat ++ (m.2.2 ++ rest))) := by
      simp [encodeInnerMsg, encodeInnerPacket, hsz]
    refine ⟨⟨m.1, m.2.1, UInt32.ofNat m.2.2.length, m.2.2 ++ rest⟩, ?_, ?_, ?_⟩
    · show decodeInnerPacket (encodeInnerMsg m ++ rest) (UInt32.ofNat len) = _
      rw [hbuf, decodeInnerPacket_header, if_neg (by rw [hlen, hsz]; omega)]
    · simp [InnerPacket.body, hsz]
    · show InnerPacket.size _ = _
      rw [hm, InnerPacket.size, hsz]
      omega
  decode_short m k hv hk hlt := by
    have hm := length_encodeInnerMsg hv
    have hsz : (UInt32.ofNat m.2.2.length).toNat = m.2.2.length := by
      simp only [UInt32.toNat_ofNat']
      omega
    have hlen : (UInt32.ofNat k).toNat = k := UInt32.toNat_ofNat_of_lt' hlt
    show decodeInnerPacket _ _ = _
    by_cases h16 : k < InnerMsgHeaderSize
    · simp [decodeInnerPacket, hlen, h16]
    · simp only [InnerMsgHeaderSize] at h16 hm
      have hcut : (encodeInnerMsg m).take k = beBytes 4 m.1.toNat ++ (beBytes 8 m.2.1.toNat ++
          (beBytes 4 (UInt32.ofNat m.2.2.length).toNat ++ m.2.2.take (k - 16))) := by
        rw [encodeInnerMsg, encodeInnerPacket, List.take_append, List.take_append,
          List.take_append, List.take_of_length_le (by simp; omega),
          List.take_of_length_le (by simp; omega), List.take_of_length_le (by simp; omega)]
        simp only [length_beBytes, hsz, List.take_length, Nat.sub_sub]
      rw [hcut, decodeInnerPacket_header, if_pos (by rw [hlen, hsz, InnerMsgHeaderSize]; omega)]

/-- A packet between servers that was found at the front of a buffer is the one packet in its own
bytes. -/
theorem parse_take_size {data : Bytes} {p : InnerPacket}
    (h : innerDecoder.attempt data = .frame p) :
    ∃ p', innerCode.view p' = innerCode.view p ∧ innerDecoder.frames (data.take p.size) = [p'] ∧
      innerDecoder.rest (data.take p.size) = [] := by
  have hre : encodeInnerPacket p.id p.data p.sz p.transID ++ data.drop p.size = data :=
    encodeInnerPacket_decodeInnerPacket h
  have hle : p.size ≤ data.length := innerDecoder.size_le_length h
  have hlt : p.size < 2 ^ 32 := (innerDecoder.size_le_mod h).trans_lt (Nat.mod_lt _ (by decide))
  have hlen : (encodeInnerPacket p.id p.data p.sz p.transID).length = p.size := by
    have hlen := congrArg List.length hre
    rw [List.length_append, List.length_drop] at hlen
    omega
  have htake : data.take p.size = encodeInnerPacket p.id p.data p.sz p.transID := by
    rw [← hlen]
    conv_lhs => rw [← hre]
    exact List.take_left
  have ha : innerDecoder.attempt (data.take p.size) = .frame ⟨p.id, p.transID, p.sz, p.body⟩ := by
    show decodeInnerPacket (data.take p.size) (UInt32.ofNat (data.take p.size).length) = _
    have hword : (UInt32.ofNat p.size).toNat = p.size := UInt32.toNat_ofNat_of_lt' hlt
    rw [htake, hlen, encodeInnerPacket, decodeInnerPacket_header, hword, if_neg]
    · rfl
    · rw [InnerPacket.size]
      omega
  have hne : data.take p.size ≠ [] := by
    intro hnil
    rw [hnil] at htake
    rw [← htake] at hlen
    have hpos := innerDecoder.size_pos p
    exact absurd hlen.symm hpos.ne'
  obtain ⟨hf, hr⟩ := innerDecoder.parse_of_frame ha hne
  have hnil : (data.take p.size).drop (innerDecoder.size ⟨p.id, p.transID, p.sz, p.body⟩) = [] := by
    rw [htake]
    exact List.drop_eq_nil_of_le hlen.le
  rw [hnil] at hf hr
  refine ⟨_, ?_, hf, hr⟩
  show (p.id, p.transID, p.body.take p.sz.toNat) = (p.id, p.transID, p.body)
  rw [InnerPacket.body, List.take_take, min_self]

end BlackSwan
