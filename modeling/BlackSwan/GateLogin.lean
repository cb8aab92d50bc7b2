import BlackSwan.SessionEnd
import BlackSwan.LoginRecords

/-! # The gate and the login server together

One system of the gate with its clients, the login server with its AP and its other gates, and the
connections between the two.  Every step of either server is a step here, and they come in any order.

* A packet that the gate hands to `login_connector_` goes to the connection that is open; its bytes
  stay in `up` until the reader of the session at the login server gets them, in pieces of any size.
  The way back is the same, with the buffer `recvBuffer_` of the gate's own reader.
* A connection can break at any time, and a new one gets a new `fd` at the login server.  What was on
  its way to the gate is lost then; what was on its way to the login server may still be read, in
  whole or in part.
* `handed` and `found` keep, for each connection, what the gate has handed to it and what the gate has
  found in the bytes that came back.  No step looks at them.

`answers_asked_for` and `accounts_asked_for` say that the login server never answers and never logs in
anybody that no client of the gate has asked for. -/

namespace BlackSwan

open Wire Runs
open Login (Intake IntakeEvent LoginAct LoginProto Config)

/-- Whose a session of the login server is. -/
inductive Owner where
  | fresh
  | ours
  | other
deriving DecidableEq, Repr

structure GateLogin where
  gate : GateState
  /-- the buffer of the reader of `login_connector_` -/
  recvBuffer_ : Bytes
  login : Intake
  owner : UInt32 → Owner
  /-- the session of the login server that `login_connector_` is connected to -/
  link : Option UInt32
  up : UInt32 → Bytes
  down : Bytes
  handed : UInt32 → List Bytes
  found : UInt32 → List InnerMsg

inductive GateLoginEvent where
  /-- the gate, apart from its connection to the login server -/
  | gate (e : GateEvent)
  /-- the login server, apart from the reads of the gate's sessions -/
  | login (e : IntakeEvent)
  /-- another gate connects -/
  | accept (fd : UInt32)
  | connect (fd : UInt32)
  | disconnect
  /-- the reader of `login_connector_` gets `n` bytes -/
  | gateReads (n : ℕ)
  /-- the reader of a session of the gate at the login server gets `n` bytes -/
  | loginReads (fd : UInt32) (n : ℕ)

/-- What an entry of the gate's history hands to `login_connector_`. -/
def toLogin : GateAct → Option Bytes
  | .upstream _ .login msg => some msg
  | _ => none

/-- What an entry of the login server's history hands to a session. -/
def toGate (fd : UInt32) : LoginAct → Option Bytes
  | .sent _ fd' _ msg => if fd' = fd then some msg else none
  | .heartbeat fd' msg => if fd' = fd then some msg else none
  | _ => none

namespace GateLogin

/-- Packets of the gate for the login server. -/
def hand (msgs : List Bytes) (x : GateLogin) : GateLogin :=
  match x.link with
  | none => x
  | some fd => { x with
      up := Function.update x.up fd (x.up fd ++ msgs.flatten)
      handed := Function.update x.handed fd (x.handed fd ++ msgs) }

/-- The gate has made a step. -/
def setGate (g : GateState) (x : GateLogin) : GateLogin :=
  ({ x with gate := g } : GateLogin).hand
    ((g.history.drop x.gate.history.length).filterMap toLogin)

/-- The login server has made a step. -/
def setLogin (s : Intake) (x : GateLogin) : GateLogin :=
  match x.link with
  | none => { x with login := s }
  | some fd => { x with
      login := s
      down := x.down ++ ((s.server.history.drop x.login.server.history.length).filterMap
        (toGate fd)).flatten }

/-- One round of the reader of `login_connector_`. -/
def gateReads (P : GateProto) (fd : UInt32) (buf : Bytes) (x : GateLogin) : GateLogin :=
  let r := readerRound (some (GateState.onRecvLoginData P)) x.recvBuffer_ buf
    { x.gate with cause := .link .login }
  ({ x with
    recvBuffer_ := match r with
      | .ok rest _ => rest
      | .error _ _ => x.recvBuffer_ ++ buf
    down := x.down.drop buf.length
    found := Function.update x.found fd
      (x.found fd ++ (innerDecoder.frames (x.recvBuffer_ ++ buf)).map innerCode.view) } :
    GateLogin).setGate (GateState.settle id r)

def step (P : GateProto) (Q : LoginProto) (cfg : Config) (x : GateLogin) (e : GateLoginEvent) :
    Option GateLogin :=
  match e with
  | .gate (.loginData _) => none
  | .gate (.linkChange .login _) => none
  | .gate e => (x.gate.step P e).map fun g => x.setGate g
  | .login (.read fd buf) =>
      if x.owner fd = .other then (x.login.step Q cfg (.read fd buf)).map fun s => x.setLogin s
      else none
  | .login e => (x.login.step Q cfg e).map fun s => x.setLogin s
  | .accept fd =>
      if x.owner fd = .fresh then some { x with owner := Function.update x.owner fd .other } else none
  | .connect fd =>
      if x.link = none ∧ x.owner fd = .fresh then
        (x.gate.step P (.linkChange .login true)).map fun g => { x with
          gate := g
          recvBuffer_ := []
          owner := Function.update x.owner fd .ours
          link := some fd
          down := [] }
      else none
  | .disconnect =>
      (x.gate.step P (.linkChange .login false)).map fun g => { x with gate := g, link := none }
  | .gateReads n =>
      match x.link with
      | none => none
      | some fd =>
          if x.gate.crashed = false ∧ 0 < n ∧ n ≤ BUF_SIZE ∧ n ≤ x.down.length then
            some (x.gateReads P fd (x.down.take n))
          else none
  | .loginReads fd n =>
      if x.owner fd = .ours ∧ n ≤ (x.up fd).length then
        (x.login.step Q cfg (.read fd ((x.up fd).take n))).map fun s =>
          { x.setLogin s with up := Function.update x.up fd ((x.up fd).drop n) }
      else none

end GateLogin

def gateLoginMachine (P : GateProto) (Q : LoginProto) (cfg : Config) :
    Machine GateLogin GateLoginEvent where
  init := {
    gate := (gateMachine P).init
    recvBuffer_ := []
    login := (Login.intakeMachine Q cfg).init
    owner := fun _ => .fresh
    link := none
    up := fun _ => []
    down := []
    handed := fun _ => []
    found := fun _ => [] }
  step := GateLogin.step P Q cfg

end BlackSwan
