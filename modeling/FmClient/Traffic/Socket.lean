import FmClient.Backend.ChannelsHandler
import FmClient.Lib.TransitionSystem
import Mathlib.Tactic.Simps.Basic

/-! `TcpSocket`, `TlsTcpSocket` and `UdpSocket` over `boost::asio`: the deques of `ISocket`, the
operations that have been started, and the handlers that run once these have been performed. -/
namespace FmClient.Traffic
open Lib

structure Endpoint where
  host : String
  port : ℕ
  deriving DecidableEq

/-- `remoteEndpoint` is a member of `UdpSocket` only. -/
def Remote : SocketKind → Type
  | .udp => Endpoint
  | .tcp | .tlsTcp => Unit

instance : (kind : SocketKind) → DecidableEq (Remote kind)
  | .udp => inferInstanceAs (DecidableEq Endpoint)
  | .tcp | .tlsTcp => inferInstanceAs (DecidableEq Unit)

def className : SocketKind → String
  | .udp => "UdpSocket"
  | .tcp => "TcpSocket"
  | .tlsTcp => "TlsTcpSocket"

/-- A vector in a deque: it stays at its address until it is popped. -/
structure Buffer where
  address : ℕ
  bytes : List UInt8
  deriving DecidableEq

/-- An asynchronous operation on a vector, from its start until its handler runs; `outcome` is
what it gave once it has been performed. -/
structure Operation where
  address : ℕ
  size : ℕ
  outcome : Option (Except String ℕ)
  deriving DecidableEq

/-- What happens to a socket. A vector that is not there any more is `none`: that of a write, the
front that is passed to `onReceived`, and the front that is popped. -/
inductive SocketEvent (kind : SocketKind) where
  | started (buffer : Buffer) (destination : Remote kind)
  | performed (address : ℕ) (result : Except String (Option (List UInt8)))
  | threw (what : String)
  | popped (address : Option ℕ)
  | reading
  | emplaced (address : ℕ)
  | arrived (data : List UInt8) (source : Remote kind)
  | onReceived (data : Option (List UInt8))
  | readPopped (address : Option ℕ)
  | onClosed
  | printed (line : String)
  deriving DecidableEq

/-- The members of `ISocket` and of its class, and what `boost::asio` has in hand for it: calls
of `sendBlocking` that have not returned, operations, and handlers that are in `onReceived`. -/
structure Socket (kind : SocketKind) where
  sendBuffer : List Buffer
  readBuffer : List Buffer
  remoteEndpoint : Remote kind
  allocated : ℕ
  blocking : List Buffer
  writes : List Operation
  reads : List Operation
  receiving : ℕ
  trace : List (SocketEvent kind)

abbrev TcpSocket := Socket .tcp
abbrev TlsTcpSocket := Socket .tlsTcp
abbrev UdpSocket := Socket .udp

namespace Socket
variable {kind : SocketKind}

def initial (remoteEndpoint : Remote kind) : Socket kind :=
  ⟨[], [], remoteEndpoint, 0, [], [], [], 0, []⟩

variable (s : Socket kind)

@[simps] def emit (es : List (SocketEvent kind)) : Socket kind :=
  { s with trace := s.trace ++ es }

/-- `sendBuffer.emplace_back`, and a write from there (to `remoteEndpoint`) is started. -/
@[simps] def startWrite (packet : List UInt8) : Socket kind :=
  { s with
    sendBuffer := s.sendBuffer ++ [⟨s.allocated, packet⟩]
    allocated := s.allocated + 1
    trace := s.trace ++ [.started ⟨s.allocated, packet⟩ s.remoteEndpoint] }

@[simps] def popSend : Socket kind :=
  { s with
    sendBuffer := s.sendBuffer.tail
    trace := s.trace ++ [.popped (s.sendBuffer.head?.map Buffer.address)] }

@[simps] def popRead : Socket kind :=
  { s with
    readBuffer := s.readBuffer.tail
    trace := s.trace ++ [.readPopped (s.readBuffer.head?.map Buffer.address)] }

def bytesAt (address : ℕ) : Option (List UInt8) :=
  (s.sendBuffer.find? (·.address = address)).map Buffer.bytes

@[simps] def perform (address : ℕ) (result : Except String ℕ) : Socket kind :=
  { s with
    trace := s.trace ++
      [.performed address (result.map fun n => (s.bytesAt address).map (·.take n))] }

@[simps] def finishCall (i : ℕ) : Socket kind := { s with blocking := s.blocking.eraseIdx i }
@[simps] def finishWrite (i : ℕ) : Socket kind := { s with writes := s.writes.eraseIdx i }
@[simps] def finishRead (i : ℕ) : Socket kind := { s with reads := s.reads.eraseIdx i }

/-- Up to `write_some` or `send_to`. -/
@[simps] def sendBlocking (packet : List UInt8) : Socket kind :=
  { s.startWrite packet with blocking := s.blocking ++ [⟨s.allocated, packet⟩] }

/-- The rest of a call of `sendBlocking`, which throws where the write did or was short. -/
def sendBlockingReturns (i : ℕ) (call : Buffer) (result : Except String ℕ) : Socket kind :=
  let t := (s.finishCall i).perform call.address result
  match result with
  | .ok sent =>
    if call.bytes.length ≠ sent then t.emit [.threw "Could not send enough data"] else t.popSend
  | .error what => t.emit [.threw what]

/-- `receive_from` gives the source of a datagram in `remoteEndpoint`. -/
def readBlocking : Except String (List UInt8 × Remote kind) → Socket kind
  | .ok (_, source) => { s with remoteEndpoint := source }
  | .error what => s.emit [.threw what]

def blank : List UInt8 := List.replicate 1024 0

@[simps] def doRead : Socket kind :=
  { s with
    readBuffer := s.readBuffer ++ [⟨s.allocated, blank⟩]
    allocated := s.allocated + 1
    reads := s.reads ++ [⟨s.allocated, 1024, none⟩]
    trace := s.trace ++ [.emplaced s.allocated] }

def startReading : Socket kind := (s.emit [.reading]).doRead

@[simps] def send (packet : List UInt8) : Socket kind :=
  { s.startWrite packet with writes := s.writes ++ [⟨s.allocated, packet.length, none⟩] }

def disconnect : Socket kind := s.emit [.onClosed]

@[simps] def writeDone (i : ℕ) (op : Operation) (result : Except String ℕ) : Socket kind :=
  { s.perform op.address result with
    writes := s.writes.set i { op with outcome := some result } }

/-- The handler of `send` -/
def writeHandler (i : ℕ) (result : Except String ℕ) : Socket kind :=
  let t := (s.finishWrite i).popSend
  match result with
  | .ok _ => t
  | .error what => t.emit [.printed (className kind ++ "::send error: " ++ what)]

def fill (address : ℕ) (data : List UInt8) (b : Buffer) : Buffer :=
  if b.address = address then { b with bytes := data ++ b.bytes.drop data.length } else b

def readDone (i : ℕ) (op : Operation) : Except String (List UInt8 × Remote kind) → Socket kind
  | .ok (data, source) =>
    { s with
      readBuffer := s.readBuffer.map (fill op.address data)
      remoteEndpoint := source
      reads := s.reads.set i { op with outcome := some (.ok data.length) }
      trace := s.trace ++ [.arrived data source] }
  | .error what => { s with reads := s.reads.set i { op with outcome := some (.error what) } }

/-- The handler of `doRead`, up to `onReceived` -/
def readHandler (i : ℕ) (result : Except String ℕ) : Socket kind :=
  let t := s.finishRead i
  match result with
  | .ok length =>
    { t with
      receiving := t.receiving + 1
      trace := t.trace ++ [.onReceived (t.readBuffer.head?.map (·.bytes.take length))] }
  | .error what => t.emit [.printed (className kind ++ "::doRead error: " ++ what)]

/-- The handler of `doRead` after `onReceived` -/
@[simps] def received : Socket kind := { s.popRead.doRead with receiving := s.receiving - 1 }

end Socket

/-- The calls of a socket's functions, and what `boost::asio` does. -/
inductive Action (kind : SocketKind) where
  | sendBlocking (packet : List UInt8)
  | sendBlockingReturns (call : ℕ) (result : Except String ℕ)
  | readBlocking (size : ℕ) (result : Except String (List UInt8 × Remote kind))
  | startReading
  | send (packet : List UInt8)
  | disconnect
  | writeDone (operation : ℕ) (result : Except String ℕ)
  | writeHandler (operation : ℕ)
  | readDone (operation : ℕ) (result : Except String (List UInt8 × Remote kind))
  | readHandler (operation : ℕ)
  | received
  deriving DecidableEq

def Action.sends {kind : SocketKind} : Action kind → Bool
  | .sendBlocking _ | .send _ => true
  | _ => false

/-- A write of `size` bytes gives any length from 1 to `size`, and 0 if there is nothing to
write. -/
def admitsWrite (size : ℕ) : Except String ℕ → Bool
  | .ok n => n ≤ size && (n != 0 || size == 0)
  | .error _ => true

def admitsRead {ρ : Type} (size : ℕ) : Except String (List UInt8 × ρ) → Bool
  | .ok (data, _) => data.length ≤ size
  | .error _ => true

namespace Socket
variable {kind : SocketKind}

def step (s : Socket kind) : Action kind → Option (Socket kind)
  | .sendBlocking packet => some (s.sendBlocking packet)
  | .sendBlockingReturns i result =>
    (s.blocking[i]?).bind fun call =>
      if admitsWrite call.bytes.length result then some (s.sendBlockingReturns i call result)
      else none
  | .readBlocking size result =>
    if admitsRead size result then some (s.readBlocking result) else none
  | .startReading => some s.startReading
  | .send packet => some (s.send packet)
  | .disconnect => some s.disconnect
  | .writeDone i result =>
    (s.writes[i]?).bind fun op =>
      if op.outcome.isNone && admitsWrite op.size result then some (s.writeDone i op result)
      else none
  | .writeHandler i => (s.writes[i]?).bind fun op => op.outcome.map (s.writeHandler i)
  | .readDone i result =>
    (s.reads[i]?).bind fun op =>
      if op.outcome.isNone && admitsRead op.size result then some (s.readDone i op result)
      else none
  | .readHandler i => (s.reads[i]?).bind fun op => op.outcome.map (s.readHandler i)
  | .received => if 0 < s.receiving then some s.received else none

/-- What a step is, with what it needs. -/
inductive Stepped (s : Socket kind) : Action kind → Socket kind → Prop where
  | sendBlocking (packet : List UInt8) : Stepped s (.sendBlocking packet) (s.sendBlocking packet)
  | sent {i : ℕ} {call : Buffer} (hc : s.blocking[i]? = some call) :
      Stepped s (.sendBlockingReturns i (.ok call.bytes.length))
        ((s.finishCall i).perform call.address (.ok call.bytes.length)).popSend
  | short {i sent : ℕ} {call : Buffer} (hc : s.blocking[i]? = some call)
      (hs : call.bytes.length ≠ sent) : Stepped s (.sendBlockingReturns i (.ok sent))
        (((s.finishCall i).perform call.address (.ok sent)).emit
          [.threw "Could not send enough data"])
  | unsent {i : ℕ} {call : Buffer} {what : String} (hc : s.blocking[i]? = some call) :
      Stepped s (.sendBlockingReturns i (.error what))
        (((s.finishCall i).perform call.address (.error what)).emit [.threw what])
  | read (size : ℕ) (data : List UInt8) (source : Remote kind) :
      Stepped s (.readBlocking size (.ok (data, source))) { s with remoteEndpoint := source }
  | unread (size : ℕ) (what : String) :
      Stepped s (.readBlocking size (.error what)) (s.emit [.threw what])
  | startReading : Stepped s .startReading s.startReading
  | send (packet : List UInt8) : Stepped s (.send packet) (s.send packet)
  | disconnect : Stepped s .disconnect s.disconnect
  | writeDone {i : ℕ} {op : Operation} {result : Except String ℕ} (hop : s.writes[i]? = some op)
      (ho : op.outcome = none) (hr : admitsWrite op.size result = true) :
      Stepped s (.writeDone i result) (s.writeDone i op result)
  | written {i n : ℕ} {op : Operation} (hop : s.writes[i]? = some op)
      (ho : op.outcome = some (.ok n)) : Stepped s (.writeHandler i) (s.finishWrite i).popSend
  | unwritten {i : ℕ} {op : Operation} {what : String} (hop : s.writes[i]? = some op)
      (ho : op.outcome = some (.error what)) : Stepped s (.writeHandler i)
        ((s.finishWrite i).popSend.emit [.printed (className kind ++ "::send error: " ++ what)])
  | arrived {i : ℕ} {op : Operation} {data : List UInt8} {source : Remote kind}
      (hop : s.reads[i]? = some op) (ho : op.outcome = none) (hd : data.length ≤ op.size) :
      Stepped s (.readDone i (.ok (data, source))) (s.readDone i op (.ok (data, source)))
  | lost {i : ℕ} {op : Operation} {what : String} (hop : s.reads[i]? = some op)
      (ho : op.outcome = none) :
      Stepped s (.readDone i (.error what)) (s.readDone i op (.error what))
  | onReceived {i n : ℕ} {op : Operation} (hop : s.reads[i]? = some op)
      (ho : op.outcome = some (.ok n)) : Stepped s (.readHandler i) (s.readHandler i (.ok n))
  | stopped {i : ℕ} {op : Operation} {what : String} (hop : s.reads[i]? = some op)
      (ho : op.outcome = some (.error what)) : Stepped s (.readHandler i)
        ((s.finishRead i).emit [.printed (className kind ++ "::doRead error: " ++ what)])
  | received (hr : 0 < s.receiving) : Stepped s .received s.received

theorem stepped {s t : Socket kind} {a : Action kind} (h : s.step a = some t) : s.Stepped a t := by
  cases a with
  | sendBlocking packet =>
    cases h
    exact .sendBlocking packet
  | sendBlockingReturns i result =>
    simp only [step, Option.bind_eq_some_iff, Option.ite_none_right_eq_some] at h
    obtain ⟨call, hc, hr, ht⟩ := h
    cases ht
    unfold sendBlockingReturns
    cases result with
    | error what => exact .unsent hc
    | ok sent =>
      by_cases hs : call.bytes.length = sent
      · subst hs
        simpa using Stepped.sent hc
      · simpa [hs] using Stepped.short hc hs
  | readBlocking size result =>
    simp only [step, Option.ite_none_right_eq_some] at h
    obtain ⟨-, ht⟩ := h
    cases ht
    cases result with
    | error what => exact .unread size what
    | ok d => exact .read size d.1 d.2
  | startReading =>
    cases h
    exact .startReading
  | send packet =>
    cases h
    exact .send packet
  | disconnect =>
    cases h
    exact .disconnect
  | writeDone i result =>
    simp only [step, Option.bind_eq_some_iff, Option.ite_none_right_eq_some, Bool.and_eq_true,
      Option.isNone_iff_eq_none] at h
    obtain ⟨op, hop, ⟨ho, hr⟩, ht⟩ := h
    cases ht
    exact .writeDone hop ho hr
  | writeHandler i =>
    simp only [step, Option.bind_eq_some_iff, Option.map_eq_some_iff] at h
    obtain ⟨op, hop, result, ho, ht⟩ := h
    cases ht
    cases result with
    | error what => exact .unwritten hop ho
    | ok n => exact .written hop ho
  | readDone i result =>
    simp only [step, Option.bind_eq_some_iff, Option.ite_none_right_eq_some, Bool.and_eq_true,
      Option.isNone_iff_eq_none] at h
    obtain ⟨op, hop, ⟨ho, hr⟩, ht⟩ := h
    cases ht
    cases result with
    | error what => exact .lost hop ho
    | ok d => exact .arrived hop ho (of_decide_eq_true hr)
  | readHandler i =>
    simp only [step, Option.bind_eq_some_iff, Option.map_eq_some_iff] at h
    obtain ⟨op, hop, result, ho, ht⟩ := h
    cases ht
    cases result with
    | error what => exact .stopped hop ho
    | ok n => exact .onReceived hop ho
  | received =>
    simp only [step, Option.ite_none_right_eq_some] at h
    obtain ⟨hr, ht⟩ := h
    cases ht
    exact .received hr

end Socket

def sockets {kind : SocketKind} (remoteEndpoint : Remote kind) :
    TransitionSystem (Socket kind) (Action kind) :=
  .ofStep (.initial remoteEndpoint) Socket.step

/-- `UdpSocket::connect` takes the first endpoint that the resolver finds. -/
def UdpSocket.connect (resolve : String → String → Except String Endpoint) (host : String)
    (port : ℕ) (s : UdpSocket) : Except String UdpSocket :=
  (resolve host (toString port)).map fun endpoint => { s with remoteEndpoint := endpoint }

end FmClient.Traffic
