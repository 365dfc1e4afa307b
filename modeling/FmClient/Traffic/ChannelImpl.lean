import FmClient.Backend.Atomicity

/-! `ChannelImpl::open`: the validation request over a socket that has just been connected, and
what is made of the response. -/
namespace FmClient.Traffic
open ChannelsHandler

inductive Result where
  | validationAccepted
  | other (value : ℕ)
  deriving DecidableEq

structure ValidateChannelRequest where
  key : String

structure ValidateChannelResponse where
  result : Result
  deriving DecidableEq

/-- The code that protobuf generates for the two messages. `parseFromArray` says whether the
bytes are an encoding, and gives the message as it has filled it in the end either way. -/
structure Protobuf where
  serializeToArray : ValidateChannelRequest → Option (List UInt8)
  parseFromArray : List UInt8 → Bool × ValidateChannelResponse

/-- What the operations of `boost::asio` give: `connect` (with the handshake, over TLS),
`write_some` the number of bytes it has sent, and `read_some` those it has received. -/
structure Network where
  connect : Except String Unit
  writeSome : Except String ℕ
  readSome : Except String (List UInt8)

inductive SocketCall where
  | setListener
  | connect (host : String) (port : ℕ)
  | sendBlocking (packet : List UInt8)
  | readBlocking (size : ℕ)
  | startReading
  | printed (line : String)
  deriving DecidableEq

abbrev Opening := EStateM String (List SocketCall)

namespace Opening
variable {α β : Type}

def call (c : SocketCall) : Opening Unit := modify fun calls => calls ++ [c]

def outcome : Except String α → Opening α
  | .ok a => pure a
  | .error what => throw what

@[simp] theorem call_apply (c : SocketCall) (calls : List SocketCall) :
    call c calls = .ok () (calls ++ [c]) := rfl

@[simp] theorem pure_apply (a : α) (calls : List SocketCall) :
    (pure a : Opening α) calls = .ok a calls := rfl

@[simp] theorem throw_apply (what : String) (calls : List SocketCall) :
    (throw what : Opening α) calls = .error what calls := rfl

@[simp] theorem outcome_ok (a : α) : outcome (.ok a) = pure a := rfl

@[simp] theorem outcome_error (what : String) : (outcome (.error what) : Opening α) = throw what :=
  rfl

theorem bind_apply (x : Opening α) (f : α → Opening β) (calls : List SocketCall) :
    (x >>= f) calls = match x calls with
      | .ok a more => f a more
      | .error what more => .error what more := by
  change EStateM.bind x f calls = _
  unfold EStateM.bind
  cases x calls <;> rfl

theorem map_apply (f : α → β) (x : Opening α) (calls : List SocketCall) :
    (f <$> x) calls = match x calls with
      | .ok a more => .ok (f a) more
      | .error what more => .error what more := by
  rw [← bind_pure_comp, bind_apply]
  rfl

theorem tryCatch_apply (x : Opening α) (h : String → Opening α) (calls : List SocketCall) :
    (tryCatch x h) calls = match x calls with
      | .ok a more => .ok a more
      | .error what more => h what more := by
  change EStateM.tryCatch x h calls = _
  unfold EStateM.tryCatch
  cases x calls <;> rfl

end Opening
open Opening

namespace ISocket

def connect (network : Network) (host : String) (port : ℕ) : Opening Unit := do
  call (.connect host port)
  outcome network.connect

def sendBlocking (network : Network) (packet : List UInt8) : Opening Unit := do
  call (.sendBlocking packet)
  let sent ← outcome network.writeSome
  if packet.length ≠ sent then throw "Could not send enough data"

def readBlocking (network : Network) (size : ℕ) : Opening (List UInt8) := do
  call (.readBlocking size)
  outcome network.readSome

section
variable {network : Network} {calls : List SocketCall} {what : String}

theorem connect_ok (h : network.connect = .ok ()) (host : String) (port : ℕ) :
    connect network host port calls = .ok () (calls ++ [.connect host port]) := by
  simp [connect, bind_apply, h]

theorem connect_error (h : network.connect = .error what) (host : String) (port : ℕ) :
    connect network host port calls = .error what (calls ++ [.connect host port]) := by
  simp [connect, bind_apply, h]

theorem sendBlocking_ok {packet : List UInt8} (h : network.writeSome = .ok packet.length) :
    sendBlocking network packet calls = .ok () (calls ++ [.sendBlocking packet]) := by
  simp [sendBlocking, bind_apply, h]

theorem sendBlocking_error {packet : List UInt8} (h : network.writeSome ≠ .ok packet.length)
    (calls : List SocketCall) :
    ∃ what, sendBlocking network packet calls = .error what (calls ++ [.sendBlocking packet]) := by
  cases hw : network.writeSome with
  | ok sent =>
    have hne : packet.length ≠ sent := fun heq => h (by rw [hw, heq])
    exact ⟨"Could not send enough data", by simp [sendBlocking, bind_apply, hw, hne]⟩
  | error what => exact ⟨what, by simp [sendBlocking, bind_apply, hw]⟩

theorem readBlocking_apply (size : ℕ) : readBlocking network size calls =
    match network.readSome with
    | .ok received => .ok received (calls ++ [.readBlocking size])
    | .error what => .error what (calls ++ [.readBlocking size]) := by
  cases h : network.readSome <;> simp [readBlocking, bind_apply, h]

end
end ISocket

namespace ChannelImpl

def «open» (protobuf : Protobuf) (network : Network) (ip : String) (port : ℕ) (key : String) :
    Opening Bool := do
  call .setListener
  ISocket.connect network ip port
  match protobuf.serializeToArray ⟨key⟩ with
  | none =>
    call (.printed "Could not serialize validation request")
    return false
  | some packet =>
    ISocket.sendBlocking network packet
    let received ← tryCatch (some <$> ISocket.readBlocking network 256) fun what => do
      call (.printed ("Error during receiving reposnes from remote: " ++ what))
      return none
    match received with
    | none => return false
    | some responseBuffer =>
      let (parsed, response) := protobuf.parseFromArray responseBuffer
      -- a failure is printed, and then the response is used all the same
      if !parsed then call (.printed "Could not parse response")
      call .startReading
      return response.result = .validationAccepted

end ChannelImpl

/-- One `open` of a batch: the channel, and what the network gives there. -/
structure Attempt where
  channel : ChannelResponse
  network : Network

namespace Attempt
variable (protobuf : Protobuf) (a : Attempt)

def run : EStateM.Result String (List SocketCall) Bool :=
  ChannelImpl.open protobuf a.network a.channel.host a.channel.port a.channel.key []

def result : Except String Bool :=
  match a.run protobuf with
  | .ok accepted _ => .ok accepted
  | .error what _ => .error what

def calls : List SocketCall :=
  match a.run protobuf with
  | .ok _ calls => calls
  | .error _ calls => calls

def received : Option (List UInt8) :=
  match a.network.connect, protobuf.serializeToArray ⟨a.channel.key⟩, a.network.writeSome,
    a.network.readSome with
  | .ok _, some packet, .ok sent, .ok response =>
    if packet.length = sent then some response else none
  | _, _, _, _ => none

def accepted : Bool := (a.received protobuf).any fun response =>
  (protobuf.parseFromArray response).1 &&
    (protobuf.parseFromArray response).2.result = .validationAccepted

/-- The result field after parsing, whether it succeeded or not. -/
def reads (response : List UInt8) : Bool :=
  (protobuf.parseFromArray response).2.result = .validationAccepted

section
variable {protobuf} {channel : ChannelResponse} {network : Network} {packet response : List UInt8}
  {what : String}

theorem run_unconnected (hc : network.connect = .error what) :
    run protobuf ⟨channel, network⟩ =
      .error what [.setListener, .connect channel.host channel.port] := by
  simp only [run, ChannelImpl.open, bind_apply, call_apply, ISocket.connect_error hc]
  rfl

theorem run_unserialized (hc : network.connect = .ok ())
    (hs : protobuf.serializeToArray ⟨channel.key⟩ = none) :
    run protobuf ⟨channel, network⟩ = .ok false
      [.setListener, .connect channel.host channel.port,
        .printed "Could not serialize validation request"] := by
  simp only [run, ChannelImpl.open, bind_apply, call_apply, ISocket.connect_ok hc, hs]
  rfl

theorem run_unsent (hc : network.connect = .ok ())
    (hs : protobuf.serializeToArray ⟨channel.key⟩ = some packet)
    (hw : network.writeSome ≠ .ok packet.length) : ∃ what, run protobuf ⟨channel, network⟩ =
      .error what [.setListener, .connect channel.host channel.port, .sendBlocking packet] := by
  obtain ⟨what, hsend⟩ := ISocket.sendBlocking_error hw
    [.setListener, .connect channel.host channel.port]
  refine ⟨what, ?_⟩
  simp only [run, ChannelImpl.open, bind_apply, call_apply, ISocket.connect_ok hc, hs,
    List.nil_append, List.cons_append, hsend]

theorem run_unread (hc : network.connect = .ok ())
    (hs : protobuf.serializeToArray ⟨channel.key⟩ = some packet)
    (hw : network.writeSome = .ok packet.length) (hr : network.readSome = .error what) :
    run protobuf ⟨channel, network⟩ = .ok false
      [.setListener, .connect channel.host channel.port, .sendBlocking packet, .readBlocking 256,
        .printed ("Error during receiving reposnes from remote: " ++ what)] := by
  simp only [run, ChannelImpl.open, bind_apply, call_apply, ISocket.connect_ok hc, hs,
    ISocket.sendBlocking_ok hw, tryCatch_apply, map_apply, ISocket.readBlocking_apply, hr]
  rfl

theorem run_read (hc : network.connect = .ok ())
    (hs : protobuf.serializeToArray ⟨channel.key⟩ = some packet)
    (hw : network.writeSome = .ok packet.length) (hr : network.readSome = .ok response) :
    ∃ before, run protobuf ⟨channel, network⟩ =
      .ok (reads protobuf response) (before ++ [.startReading]) := by
  simp only [run, ChannelImpl.open, bind_apply, call_apply, ISocket.connect_ok hc, hs,
    ISocket.sendBlocking_ok hw, tryCatch_apply, map_apply, ISocket.readBlocking_apply, hr, reads]
  cases (protobuf.parseFromArray response).1 with
  | true => exact ⟨_, rfl⟩
  | false => exact ⟨_, rfl⟩

end

theorem run_cases :
    (a.received protobuf = none ∧ .startReading ∉ a.calls protobuf ∧
      (a.result protobuf = .ok false ∨ ∃ what, a.result protobuf = .error what)) ∨
    ∃ response, a.received protobuf = some response ∧ .startReading ∈ a.calls protobuf ∧
      a.result protobuf = .ok (reads protobuf response) := by
  obtain ⟨channel, network⟩ := a
  cases hc : network.connect with
  | error what =>
    have hrun : run protobuf ⟨channel, network⟩ = _ := run_unconnected hc
    exact .inl ⟨by simp [received, hc], by simp [calls, hrun], .inr ⟨what, by simp [result, hrun]⟩⟩
  | ok =>
    cases hs : protobuf.serializeToArray ⟨channel.key⟩ with
    | none =>
      have hrun := run_unserialized hc hs
      exact .inl ⟨by simp [received, hc, hs], by simp [calls, hrun], .inl (by simp [result, hrun])⟩
    | some packet =>
      by_cases hw : network.writeSome = .ok packet.length
      · cases hr : network.readSome with
        | error what =>
          have hrun := run_unread hc hs hw hr
          exact .inl ⟨by simp [received, hc, hs, hw, hr], by simp [calls, hrun],
            .inl (by simp [result, hrun])⟩
        | ok response =>
          obtain ⟨before, hrun⟩ := run_read hc hs hw hr
          exact .inr ⟨response, by simp [received, hc, hs, hw, hr], by simp [calls, hrun],
            by simp [result, hrun]⟩
      · obtain ⟨what, hrun⟩ := run_unsent hc hs hw
        have hnone : received protobuf ⟨channel, network⟩ = none := by
          cases hsent : network.writeSome with
          | error what => simp [received, hc, hs, hsent]
          | ok sent =>
            have hne : packet.length ≠ sent := fun heq => hw (by rw [hsent, heq])
            cases hr : network.readSome <;> simp [received, hc, hs, hsent, hr, hne]
        exact .inl ⟨hnone, by simp [calls, hrun], .inr ⟨what, by simp [result, hrun]⟩⟩

def validation : ChannelResponse × Except String Bool := (a.channel, a.result protobuf)

variable {protobuf a}

/-- The handlers of the states validate such batches. -/
theorem batch_eq {env : Environment} {batch : List Attempt}
    (h : ∀ i a, batch[i]? = some a → env.opens i = a.result protobuf) :
    env.batch (batch.map Attempt.channel) = batch.map (validation protobuf) := by
  refine List.ext_getElem? fun i => ?_
  rw [Environment.batch, List.getElem?_mapIdx, List.getElem?_map, List.getElem?_map]
  cases ha : batch[i]? with
  | none => rfl
  | some a => simp [validation, h i a ha]

end Attempt

/-- A message of one enumeration as it is on the wire: under field 1, with values of one byte.
The default value is 0, and 1 is an acceptance. -/
def parseEnumeration : List UInt8 → ValidateChannelResponse → Bool × ValidateChannelResponse
  | [], message => (true, message)
  | 8 :: value :: rest, message =>
    if value < 128 then
      parseEnumeration rest ⟨if value = 1 then .validationAccepted else .other value.toNat⟩
    else (false, message)
  | _, message => (false, message)

def enumeration : Protobuf where
  serializeToArray request :=
    some (if request.key = "" then []
      else 10 :: UInt8.ofNat request.key.utf8ByteSize :: request.key.toUTF8.toList)
  parseFromArray bytes := parseEnumeration bytes ⟨.other 0⟩

end FmClient.Traffic
