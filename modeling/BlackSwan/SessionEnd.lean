import BlackSwan.Heartbeat
import BlackSwan.Pipe
import BlackSwan.Reader
import BlackSwan.Simulation
import BlackSwan.Writer

/-! # A session with both its loops

One `Session` of `share/networkEx/session.h` with its writer and its reader, for a packet format
with its heartbeat messages.  The sending side is the `Outbox` of the writer; `transferred` is how
far `async_write` has got with the buffer that it was called with, since the socket may take it
piece by piece.  The receiving side is the receive buffer and one of the receive loops; what the
program does in its data callback is a function of the messages it has been given.

`PacketFormat` is what a receive loop and the heartbeat functions of one kind of link have in
common, with the two formats of the program as its instances.  A message of a link is one that
`Fits`: its packet leaves room in the decoder's window for one more read. -/

namespace BlackSwan

open Wire Runs

variable {π μ : Type}

/-! ### Packet formats -/

/-- The messages that a reader finds however the stream is cut. -/
abbrev Fits {D : Decoder π} (C : FrameCode D μ) (m : μ) : Prop := C.Roomy BUF_SIZE m

/-- A kind of link: its packets, and the heartbeat messages of `session.cpp`. -/
structure PacketFormat (π μ : Type) where
  decoder : Decoder π
  code : FrameCode decoder μ
  packetId : π → UInt32
  msgId : μ → UInt32
  msgId_view : ∀ p, msgId (code.view p) = packetId p
  ping : μ
  pong : μ
  msgId_ping : msgId ping = CS_HeartBeat_Req
  msgId_pong : msgId pong = CS_HeartBeat_Ack
  fits_ping : Fits code ping
  fits_pong : Fits code pong

/-- The bytes of `"PING"`, with the zero that `sizeof` counts. -/
def pingText : Bytes := [80, 73, 78, 71, 0]

def pongText : Bytes := [80, 79, 78, 71, 0]

theorem fits_client {m : ClientMsg} (h : m.2.length + MsgHeaderSize + BUF_SIZE ≤ 2 ^ 16) :
    Fits clientCode m := by
  have hv : m.2.length ≤ 65535 := by
    simp only [MsgHeaderSize, BUF_SIZE] at h
    omega
  refine ⟨hv, ?_⟩
  show (encodeMsg m).length + BUF_SIZE ≤ 2 ^ 16
  rw [length_encodeMsg hv, Nat.add_comm MsgHeaderSize]
  exact h

theorem fits_inner {m : InnerMsg} (h : m.2.2.length ≤ 2 ^ 31 - 1) : Fits innerCode m := by
  refine ⟨h, ?_⟩
  show (encodeInnerMsg m).length + BUF_SIZE ≤ 2 ^ 32
  rw [length_encodeInnerMsg h, InnerMsgHeaderSize, BUF_SIZE]
  omega

/-- Links with clients: `sendPing` and `replyPing`. -/
def clientFormat : PacketFormat Packet ClientMsg where
  decoder := clientDecoder
  code := clientCode
  packetId := Packet.id
  msgId := Prod.fst
  msgId_view _ := rfl
  ping := (CS_HeartBeat_Req, pingText)
  pong := (CS_HeartBeat_Ack, pongText)
  msgId_ping := rfl
  msgId_pong := rfl
  fits_ping := fits_client (by decide)
  fits_pong := fits_client (by decide)

/-- Links between servers: `sendInnerPing` and `replyInnerPing`. -/
def innerFormat : PacketFormat InnerPacket InnerMsg where
  decoder := innerDecoder
  code := innerCode
  packetId := InnerPacket.id
  msgId := Prod.fst
  msgId_view _ := rfl
  ping := (CS_HeartBeat_Req, 0, pingText)
  pong := (CS_HeartBeat_Ack, 0, pongText)
  msgId_ping := rfl
  msgId_pong := rfl
  fits_ping := fits_inner (by decide)
  fits_pong := fits_inner (by decide)

namespace PacketFormat

variable (F : PacketFormat π μ)

/-- The messages of a link. -/
abbrev Msg := { m : μ // Fits F.code m }

def pingMsg : F.Msg := ⟨F.ping, F.fits_ping⟩

def pongMsg : F.Msg := ⟨F.pong, F.fits_pong⟩

/-- The packet of a message. -/
def packet (m : F.Msg) : Bytes := F.code.encode m.1

/-- What the program is given of a list of messages: the receive loop keeps the heartbeats. -/
def program (ms : List F.Msg) : List μ := (ms.map Subtype.val).filter fun m => !isHeartBeat (F.msgId m)

/-- The packets of a list of messages, one after the other. -/
def stream (ms : List F.Msg) : Bytes := F.code.stream (ms.map Subtype.val)

@[simp] theorem stream_nil : F.stream [] = [] := rfl

theorem stream_append (ms ns : List F.Msg) : F.stream (ms ++ ns) = F.stream ms ++ F.stream ns := by
  rw [stream, List.map_append, F.code.stream_append]
  rfl

theorem program_append (ms ns : List F.Msg) :
    F.program (ms ++ ns) = F.program ms ++ F.program ns := by
  rw [program, List.map_append, List.filter_append]
  rfl

end PacketFormat

/-! ### One end -/

/-- Where `readerLoop` is suspended. -/
inductive ReaderLoop where
  | notStarted
  /-- `co_spawn` has queued its first run -/
  | spawned
  /-- in `async_read_some` -/
  | reading
  | returned
deriving DecidableEq, Repr

/-- What a program does with the session inside its data callback. -/
inductive Order (F : PacketFormat π μ) where
  | send (m : F.Msg)
  | stop

/-- What a program does when it is given a message, after the messages before it. -/
abbrev OnMsg (F : PacketFormat π μ) := List μ → μ → List (Order F)

/-- A `Session`; `said` and `got` are histories, of the messages given to `send` and of the
messages given to the program. -/
structure SessionEnd (F : PacketFormat π μ) where
  outbox : Outbox
  /-- how many bytes of the front of the queue the socket has taken -/
  transferred : ℕ
  reader : ReaderLoop
  recvBuffer_ : Bytes
  said : List F.Msg
  got : List μ

namespace SessionEnd

variable {F : PacketFormat π μ}

/-- `Session::send` with the packet of a message. -/
def say (m : F.Msg) (x : SessionEnd F) : SessionEnd F :=
  { x with outbox := x.outbox.send (F.packet m), said := x.said ++ [m] }

/-- `Session::stop`. -/
def stop (x : SessionEnd F) : SessionEnd F := { x with outbox := x.outbox.stop }

def obey (x : SessionEnd F) : Order F → SessionEnd F
  | .send m => x.say m
  | .stop => x.stop

/-- The program is given a message. -/
def dispatch (onMsg : OnMsg F) (m : μ) (x : SessionEnd F) : SessionEnd F :=
  (onMsg x.got m).foldl obey { x with got := x.got ++ [m] }

/-- The data callback. -/
def dataProc (onMsg : OnMsg F) : DataProcess (SessionEnd F) :=
  recvLoop F.decoder F.packetId (say F.pongMsg) fun p x => .ok () (x.dispatch onMsg (F.code.view p))

/-- One round of `readerLoop`, after a read of the bytes `buf`. -/
def readRound (onMsg : OnMsg F) (buf : Bytes) (x : SessionEnd F) : Option (SessionEnd F) :=
  match readerRound (some (dataProc onMsg)) x.recvBuffer_ buf x with
  | .ok recvBuffer_ x' => some { x' with recvBuffer_ }
  | .error _ _ => none

/-- The exception path of `readerLoop`, with `handleSocketError`. -/
def readFailed (aborted : Bool) (x : SessionEnd F) : SessionEnd F :=
  let x := { x with reader := .returned }
  if aborted then x else x.stop

/-- The socket takes `n` more bytes of the buffer in `async_write`. -/
def transfer (n : ℕ) (x : SessionEnd F) : Option (Bytes × SessionEnd F) :=
  match x.outbox.sendQueue_ with
  | [] => none
  | msg :: _ =>
      if x.outbox.writer = .writing ∧ x.outbox.isOpen ∧ 0 < n ∧ x.transferred + n ≤ msg.length then
        some ((msg.drop x.transferred).take n, { x with transferred := x.transferred + n })
      else none

/-- A step of the sending side. -/
def drive (e : OutboxEvent) (x : SessionEnd F) : Option (SessionEnd F) :=
  (x.outbox.step e).map fun outbox => { x with outbox }

end SessionEnd

/-- What can happen at one end, apart from bytes that go over the wire. -/
inductive EndEvent (F : PacketFormat π μ) where
  /-- some thread of the program calls `send` -/
  | send (m : F.Msg)
  /-- `heartbeatLoop` calls `send_ping` -/
  | sendPing
  | deliver
  | start
  | launchReader
  | launchWriter
  /-- the wait of the writer completes, after a `cancel` -/
  | timer
  /-- `async_write` completes with the whole buffer written -/
  | writeDone
  | writeFailed (aborted : Bool)
  | readFailed (aborted : Bool)
  | stop

namespace SessionEnd

variable {F : PacketFormat π μ}

def step (x : SessionEnd F) : EndEvent F → Option (SessionEnd F)
  | .send m => some (x.say m)
  | .sendPing => some (x.say F.pingMsg)
  | .deliver => x.drive .deliver
  | .start =>
      if x.reader = .notStarted then ({ x with reader := .spawned } : SessionEnd F).drive .start
      else none
  | .launchReader => if x.reader = .spawned then some { x with reader := .reading } else none
  | .launchWriter => x.drive .launch
  -- the timer never expires by itself
  | .timer => if x.outbox.writer = .waiting true then x.drive .timer else none
  | .writeDone =>
      if (x.outbox.sendQueue_.head?.map List.length) = some x.transferred then
        ({ x with transferred := 0 } : SessionEnd F).drive .writeDone
      else none
  -- `operation_aborted` is the error of an operation on a socket that `stop` has closed
  | .writeFailed aborted =>
      if aborted && !x.outbox.stopped_ then none else x.drive (.writeFailed aborted)
  | .readFailed aborted =>
      if x.reader = .reading ∧ (aborted → x.outbox.stopped_) then some (x.readFailed aborted) else none
  | .stop => some x.stop

end SessionEnd

end BlackSwan
