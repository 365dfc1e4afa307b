import Mathlib.Data.Rat.Defs

/-! The messages of the control stream and the events a client takes and gives.
Protobuf enumerations are open, so that each one has room for unnamed values. -/
namespace FmClient

inductive Command where
  | heartbeat | setup | channelsReady | addChannels | removeChannels | requestControl
  | controlReady | releaseControl | controlReleased | operationUpdated | operationEnded
  | attachChannels | releaseChannels | release
  | other (value : ℕ)
  deriving DecidableEq

inductive Response where
  | accepted
  | other (value : ℕ)
  deriving DecidableEq

inductive Protocol where
  | udp | tcp
  | other (value : ℕ)
  deriving DecidableEq

inductive Security where
  | plainText | tls
  | other (value : ℕ)
  deriving DecidableEq

structure ChannelRequest where
  id : ℤ
  protocol : Protocol
  security : Security
  priority : ℕ := 0
  deriving DecidableEq

structure ChannelResponse where
  id : ℤ
  host : String := ""
  port : ℕ := 0
  key : String := ""
  protocol : Protocol := .udp
  security : Security := .plainText
  deriving DecidableEq

structure Location where
  latitude : ℚ
  longitude : ℚ
  altitude : ℚ
  deriving DecidableEq

structure Heartbeat where
  key : String
  location : Option Location := none
  deriving DecidableEq

/-- From the facade. An absent repeated field reads as empty, an absent text as `""`. -/
structure ControlMessage where
  command : Command
  response : Response
  message : String := ""
  channelsResponse : List ChannelResponse := []
  channelsIndication : List ℤ := []
  handoverData : List UInt8 := []
  heartbeat : Option Heartbeat := none
  deriving DecidableEq

/-- To the facade; `none` is a field that the client leaves unset. -/
structure ClientMessage where
  command : Command
  response : Option Response := none
  message : Option String := none
  attachKey : Option String := none
  channelsRequest : List ChannelRequest := []
  channelsIndication : List ℤ := []
  handoverData : Option (List UInt8) := none
  heartbeat : Option Heartbeat := none
  deriving DecidableEq

structure AttachResponse where
  host : String := ""
  unsafePort : ℕ := 0
  tlsPort : ℕ := 0
  key : String := ""

abbrev OperateResponse := AttachResponse

inductive UserEvent where
  | attach
  | release
  | operate (deviceId : ℤ) (channels : List ChannelRequest)
  | requestControl (channelId : ℤ)
  | releaseAccepted (data : List UInt8)
  | releaseRejected (message : String)
  | controlReady
  | openChannels (channels : List ChannelRequest)
  | closeChannels (channels : List ℤ)
  deriving DecidableEq

inductive ConnectionEvent where
  | closed
  | error
  | received (message : ControlMessage)
  | lost
  deriving DecidableEq

inductive InputEvent where
  | user (event : UserEvent)
  | connection (event : ConnectionEvent)
  deriving DecidableEq

abbrev InputEvent.received (message : ControlMessage) : InputEvent :=
  .connection (.received message)

/-- An `IChannel*`: the object it points to, told by the order of construction,
and the id that object was constructed with. -/
structure IChannel where
  id : ℤ
  address : ℕ
  deriving DecidableEq

inductive FacadeEvent where
  | error (message : Option String)
  | attached
  | released
  | operationStarted
  | operationUpdated
  | channelsOpened (channels : List IChannel)
  | handoverAccepted (data : List UInt8)
  | releaseControl (channelId : ℤ)
  | procedureRejected (procedure : Command) (message : String)
  | handoverDone
  | controlReleased
  | channelsClosing (channels : List IChannel)
  | operationEnded
  deriving DecidableEq

inductive FacadeEvent.Kind where
  | error | attached | released | operationStarted | operationUpdated | channelsOpened
  | handoverAccepted | releaseControl | procedureRejected | handoverDone | controlReleased
  | channelsClosing | operationEnded
  deriving DecidableEq

def FacadeEvent.getType : FacadeEvent → Kind
  | .error _ => .error
  | .attached => .attached
  | .released => .released
  | .operationStarted => .operationStarted
  | .operationUpdated => .operationUpdated
  | .channelsOpened _ => .channelsOpened
  | .handoverAccepted _ => .handoverAccepted
  | .releaseControl _ => .releaseControl
  | .procedureRejected _ _ => .procedureRejected
  | .handoverDone => .handoverDone
  | .controlReleased => .controlReleased
  | .channelsClosing _ => .channelsClosing
  | .operationEnded => .operationEnded

end FmClient
