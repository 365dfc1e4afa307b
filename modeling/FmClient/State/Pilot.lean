import FmClient.State.IState

/-! The states of the pilot, each with its own functions under the source's names. -/
namespace FmClient.Pilot
open Lib Handler ChannelsHandler

/-- The classes of `state::pilot::connected` with the data they carry. -/
inductive ConnectedState where
  | validatingChannels (toValidate : List ChannelResponse) (validated : List IChannel)
  | operating
  | openingChannels (channelsToOpen : List ChannelRequest)
  | closingChannels (channelsToClose : List ℤ)
  | requestingControl (channelId : ℤ)
  | releasingControl (channelId : ℤ)
  | recovering
  | released
  deriving DecidableEq

/-- The classes of `state::pilot`. -/
inductive State where
  | disconnected
  | connecting (deviceId : ℤ) (channels : List ChannelRequest)
  | connected (internalState : ConnectedState)
  | disconnecting
  deriving DecidableEq

/-! ### Connected states -/

abbrev Next := Handler (Option ConnectedState)

def acceptRelease : Next := do
  onEvent (.channelsClosing (← getChannels))
  closeAllChannels
  send { command := .release, response := some .accepted }
  return some .released

namespace ValidatingChannels

def start (env : Environment) (toValidate : List ChannelResponse) : Handler (List IChannel) := do
  let validated ← validateChannels (env.batch toValidate)
  send { command := .channelsReady, channelsIndication := ← getIds validated }
  return validated

def handleMessage (env : Environment) (validated : List IChannel) (message : ControlMessage) :
    Next := do
  match message.command with
  | .channelsReady =>
    if message.response = .accepted then
      setOwnedAll message.channelsIndication
      onEvent (.channelsOpened validated)
      return some .operating
    else
      onEvent (.error (some message.message))
      defaultMessageHandle env message "ValidatingChannels"
  | _ => defaultMessageHandle env message "ValidatingChannels"

end ValidatingChannels

namespace Operating

def handleUserEvent (event : UserEvent) : Next := do
  match event with
  | .openChannels channels => return some (.openingChannels channels)
  | .closeChannels channels => return some (.closingChannels channels)
  | .requestControl channelId => return some (.requestingControl channelId)
  | .release => return some (.closingChannels (← getChannelsIds))
  | _ => defaultEventHandle (.user event) "Operating"

def handleMessage (env : Environment) (message : ControlMessage) : Next := do
  match message.command with
  | .operationUpdated =>
    onEvent .operationUpdated
    «recall»
    return none
  | .releaseControl =>
    match message.channelsIndication with
    | id :: _ => return some (.releasingControl id)
    | [] => throw .idsOutOfRange
  | .release => acceptRelease
  | _ => defaultMessageHandle env message "Operating"

def handleConnectionEvent (env : Environment) (event : ConnectionEvent) : Next :=
  match event with
  | .received message => handleMessage env message
  | .lost => return some .recovering
  | _ => defaultEventHandle (.connection event) "Operating"

end Operating

namespace OpeningChannels

def start (channelsToOpen : List ChannelRequest) : Handler Unit :=
  send { command := .addChannels, channelsRequest := channelsToOpen }

def handleMessage (env : Environment) (message : ControlMessage) : Next := do
  match message.command with
  | .addChannels =>
    if message.response = .accepted then
      return some (.validatingChannels message.channelsResponse [])
    else
      onEvent (.procedureRejected .addChannels message.message)
      return some .operating
  | _ => defaultMessageHandle env message "OpeningChannels"

end OpeningChannels

namespace ClosingChannels

def start (channelsToClose : List ℤ) : Handler Unit :=
  send { command := .removeChannels, channelsIndication := channelsToClose }

def handleMessage (env : Environment) (channelsToClose : List ℤ) (message : ControlMessage) :
    Next := do
  match message.command with
  | .removeChannels =>
    if message.response = .accepted then
      onEvent (.channelsClosing (← getChannelsOf channelsToClose))
      closeChannels channelsToClose
      send { command := .removeChannels, response := some .accepted }
      return some .operating
    else
      onEvent (.procedureRejected .removeChannels message.message)
      return some .operating
  | .release => acceptRelease
  | _ => defaultMessageHandle env message "ClosingChannels"

end ClosingChannels

namespace RequestingControl

def start (channelId : ℤ) : Handler Unit :=
  send { command := .requestControl, channelsIndication := [channelId] }

def handleUserEvent (event : UserEvent) : Next := do
  match event with
  | .controlReady =>
    send { command := .controlReady }
    return none
  | _ => defaultEventHandle (.user event) "RequestingControl"

def handleMessage (env : Environment) (channelId : ℤ) (message : ControlMessage) : Next := do
  match message.command with
  | .requestControl =>
    if message.response = .accepted then
      onEvent (.handoverAccepted message.handoverData)
      return none
    else
      onEvent (.procedureRejected message.command message.message)
      return some .operating
  | .controlReady =>
    if message.response = .accepted then
      setOwned channelId true
      onEvent .handoverDone
      return some .operating
    else defaultMessageHandle env message "RequestingControl"
  | _ => defaultMessageHandle env message "RequestingControl"

end RequestingControl

namespace ReleasingControl

def start (channelId : ℤ) : Handler Unit := onEvent (.releaseControl channelId)

def handleUserEvent (event : UserEvent) : Next := do
  match event with
  | .releaseAccepted data =>
    send { command := .releaseControl, response := some .accepted, handoverData := some data }
    return none
  | .releaseRejected message =>
    send { command := .releaseControl, response := some .accepted, message := some message }
    return some .operating
  | _ => defaultEventHandle (.user event) "ReleasingControl"

def handleMessage (env : Environment) (channelId : ℤ) (message : ControlMessage) : Next := do
  match message.command with
  | .controlReleased =>
    setOwned channelId false
    onEvent .controlReleased
    send { command := .controlReleased, response := some .accepted }
    return some .operating
  | _ => defaultMessageHandle env message "ReleasingControl"

end ReleasingControl

namespace ConnectedState

/-- No `start` of a connected state returns a successor. -/
def start (env : Environment) : ConnectedState → Handler (ConnectedState × Option ConnectedState)
  | .validatingChannels toValidate _ => do
    return (.validatingChannels toValidate (← ValidatingChannels.start env toValidate), none)
  | .operating => do «recall»; return (.operating, none)
  | .openingChannels channelsToOpen => do
    OpeningChannels.start channelsToOpen
    return (.openingChannels channelsToOpen, none)
  | .closingChannels channelsToClose => do
    ClosingChannels.start channelsToClose
    return (.closingChannels channelsToClose, none)
  | .requestingControl channelId => do
    RequestingControl.start channelId
    return (.requestingControl channelId, none)
  | .releasingControl channelId => do
    ReleasingControl.start channelId
    return (.releasingControl channelId, none)
  | .recovering => return (.recovering, none)
  | .released => return (.released, none)

def handleUserEvent (event : UserEvent) : ConnectedState → Next
  | .validatingChannels _ _ => rejectUserEvent event "ValidatingChannels"
  | .operating => Operating.handleUserEvent event
  | .openingChannels _ => rejectUserEvent event "OpeningChannels"
  | .closingChannels _ => rejectUserEvent event "ClosingChannels"
  | .requestingControl _ => RequestingControl.handleUserEvent event
  | .releasingControl _ => ReleasingControl.handleUserEvent event
  | .recovering => rejectUserEvent event "Recovering"
  | .released => rejectUserEvent event "Released"

def handleConnectionEvent (env : Environment) (event : ConnectionEvent) : ConnectedState → Next
  | .validatingChannels _ validated =>
    handleReceived (ValidatingChannels.handleMessage env validated) event "ValidatingChannels"
  | .operating => Operating.handleConnectionEvent env event
  | .openingChannels _ =>
    handleReceived (OpeningChannels.handleMessage env) event "OpeningChannels"
  | .closingChannels channelsToClose =>
    handleReceived (ClosingChannels.handleMessage env channelsToClose) event "ClosingChannels"
  | .requestingControl channelId =>
    handleReceived (RequestingControl.handleMessage env channelId) event "RequestingControl"
  | .releasingControl channelId =>
    handleReceived (ReleasingControl.handleMessage env channelId) event "ReleasingControl"
  -- these two never look at a message
  | .recovering => defaultEventHandle (.connection event) "Recovering"
  | .released => defaultEventHandle (.connection event) "Released"

def createOuterState : ConnectedState → Option State
  | .released => some .disconnecting
  | _ => none

end ConnectedState

/-! ### Outer states -/

namespace Connected

def start (env : Environment) (internalState : ConnectedState) : Handler ConnectedState := do
  let (internalState, _) ← internalState.start env
  onEvent .operationStarted
  return internalState

def onNewState (fuel : ℕ) (env : Environment) (internalState : ConnectedState)
    (newState : Option ConnectedState) : Handler (State × Option State) := do
  let internalState ← transitions (ConnectedState.start env) fuel internalState newState
  return (.connected internalState, internalState.createOuterState)

def handleUserEvent (fuel : ℕ) (env : Environment) (event : UserEvent)
    (internalState : ConnectedState) : Handler (State × Option State) := do
  onNewState fuel env internalState (← internalState.handleUserEvent event)

def handleConnectionEvent (fuel : ℕ) (env : Environment) (event : ConnectionEvent)
    (internalState : ConnectedState) : Handler (State × Option State) := do
  onNewState fuel env internalState (← internalState.handleConnectionEvent env event)

end Connected

namespace Connecting

def start (env : Environment) (deviceId : ℤ) (channels : List ChannelRequest) :
    Handler (Option State) :=
  tryCatch (do
    let operateResponse ← outcome (env.operate deviceId)
    openFacadeConnection env operateResponse
    send { command := .setup, attachKey := some operateResponse.key, channelsRequest := channels }
    return none)
  fun
    | .thrown what => do
      log (.error what)
      onEvent (.error none)
      return some .disconnected
    | fault => throw fault

def handleMessage (env : Environment) (message : ControlMessage) : Handler (Option State) := do
  match message.command with
  | .setup =>
    if message.response = .accepted then
      return some (.connected (.validatingChannels message.channelsResponse []))
    else
      onEvent (.error (some message.message))
      return some .disconnecting
  | _ => defaultMessageHandle env message "Connecting"

end Connecting

namespace Disconnecting

def start (env : Environment) : Handler (Option State) := do
  closeFacadeConnection env
  onEvent .released
  return some .disconnected

end Disconnecting

namespace Disconnected

def handleUserEvent (event : UserEvent) : Handler (Option State) := do
  match event with
  | .operate deviceId channels => return some (.connecting deviceId channels)
  | _ => defaultEventHandle (.user event) "Disconnected"

end Disconnected

namespace State

def start (env : Environment) : State → Handler (State × Option State)
  | .disconnected => return (.disconnected, none)
  | .connecting deviceId channels => do
    return (.connecting deviceId channels, ← Connecting.start env deviceId channels)
  | .connected internalState => do
    return (.connected (← Connected.start env internalState), none)
  | .disconnecting => do return (.disconnecting, ← Disconnecting.start env)

def handleUserEvent (fuel : ℕ) (env : Environment) (event : UserEvent) :
    State → Handler (State × Option State)
  | .disconnected => do return (.disconnected, ← Disconnected.handleUserEvent event)
  | .connecting deviceId channels => do
    return (.connecting deviceId channels, ← rejectUserEvent event "Connecting")
  | .connected internalState => Connected.handleUserEvent fuel env event internalState
  | .disconnecting => do return (.disconnecting, ← rejectUserEvent event "Disconnecting")

def handleConnectionEvent (fuel : ℕ) (env : Environment) (event : ConnectionEvent) :
    State → Handler (State × Option State)
  | .disconnected => do
    return (.disconnected, ← defaultEventHandle (.connection event) "Disconnected")
  | .connecting deviceId channels => do
    return (.connecting deviceId channels,
      ← handleReceived (Connecting.handleMessage env) event "Connecting")
  | .connected internalState => Connected.handleConnectionEvent fuel env event internalState
  | .disconnecting => do
    return (.disconnecting, ← defaultEventHandle (.connection event) "Disconnecting")

def interface (fuel : ℕ) : IState State :=
  ⟨start, handleUserEvent fuel, handleConnectionEvent fuel⟩

end State

def handleEvent (env : Environment) (event : InputEvent) (state : State) : Handler State :=
  (State.interface loopFuel).process loopFuel env event state

/-- A pilot, by the events its machine handles, as long as no handler throws. -/
def client : TransitionSystem (Client State) Handling :=
  .ofStep ⟨.disconnected, .initial⟩ (Client.step handleEvent)

end FmClient.Pilot
