import FmClient.State.IState

/-! The states of the device, each with its own functions under the source's names. -/
namespace FmClient.Device
open Lib Handler ChannelsHandler

/-- The classes of `state::device::connected` with the data they carry. `Recovering`
is left out: nothing constructs it. -/
inductive ConnectedState where
  | ready
  | flying (initialChannels : List ChannelResponse)
  | releasing
  | released
  deriving DecidableEq

/-- The classes of `state::device`. -/
inductive State where
  | disconnected
  | connecting
  | connected (internalState : ConnectedState)
  | disconnecting
  deriving DecidableEq

/-! ### Connected states -/

abbrev Next := Handler (Option ConnectedState)

namespace Ready

def handleUserEvent (event : UserEvent) : Next := do
  match event with
  | .release => return some .releasing
  | _ => defaultEventHandle (.user event) "Ready"

def handleMessage (env : Environment) (message : ControlMessage) : Next := do
  match message.command with
  | .attachChannels => return some (.flying message.channelsResponse)
  | _ => defaultMessageHandle env message "Ready"

end Ready

namespace Flying

def attachChannels (env : Environment) (channels : List ChannelResponse) : Handler Unit := do
  let result ← validateChannels (env.batch channels)
  onEvent (.channelsOpened result)
  send { command := .attachChannels, response := some .accepted
         channelsIndication := ← getIds result }

def releaseChannels (channels : List ℤ) : Handler Unit := do
  onEvent (.channelsClosing (← getChannelsOf channels))
  closeChannels channels
  send { command := .releaseChannels, response := some .accepted, channelsIndication := channels }

def handleMessage (env : Environment) (message : ControlMessage) : Next := do
  match message.command with
  | .attachChannels =>
    attachChannels env message.channelsResponse
    return none
  | .releaseChannels =>
    releaseChannels message.channelsIndication
    return none
  | .operationEnded =>
    onEvent (.channelsClosing (← getChannels))
    closeAllChannels
    onEvent .operationEnded
    send { command := .operationEnded, response := some .accepted }
    return some .ready
  | _ => defaultMessageHandle env message "Flying"

end Flying

namespace Releasing

def start : Handler Unit := send { command := .release }

def handleMessage (env : Environment) (message : ControlMessage) : Next := do
  match message.command with
  | .release =>
    if message.response = .accepted then
      return some .released
    else defaultMessageHandle env message "Releasing"
  | _ => defaultMessageHandle env message "Releasing"

end Releasing

namespace ConnectedState

/-- No `start` of a connected state returns a successor. -/
def start (env : Environment) : ConnectedState → Handler (ConnectedState × Option ConnectedState)
  | .ready => return (.ready, none)
  | .flying initialChannels => do
    Flying.attachChannels env initialChannels
    return (.flying initialChannels, none)
  | .releasing => do Releasing.start; return (.releasing, none)
  | .released => return (.released, none)

def handleUserEvent (event : UserEvent) : ConnectedState → Next
  | .ready => Ready.handleUserEvent event
  | .flying _ => rejectUserEvent event "Flying"
  | .releasing => rejectUserEvent event "Releasing"
  | .released => rejectUserEvent event "Released"

def handleConnectionEvent (env : Environment) (event : ConnectionEvent) : ConnectedState → Next
  | .ready => handleReceived (Ready.handleMessage env) event "Ready"
  | .flying _ => handleReceived (Flying.handleMessage env) event "Flying"
  | .releasing => handleReceived (Releasing.handleMessage env) event "Releasing"
  | .released =>
    handleReceived (fun message => defaultMessageHandle env message "Released") event "Released"

def createOuterState : ConnectedState → Option State
  | .released => some .disconnecting
  | _ => none

end ConnectedState

/-! ### Outer states -/

namespace Connected

def start (env : Environment) (internalState : ConnectedState) : Handler ConnectedState := do
  let (internalState, _) ← internalState.start env
  onEvent .attached
  return internalState

def onNewState (fuel : ℕ) (env : Environment) (internalState : ConnectedState)
    (newState : Option ConnectedState) : Handler (State × Option State) := do
  let internalState ← transitions (ConnectedState.start env) fuel internalState newState
  return (.connected internalState, internalState.createOuterState)

def handleUserEvent (fuel : ℕ) (env : Environment) (event : UserEvent)
    (internalState : ConnectedState) : Handler (State × Option State) := do
  onNewState fuel env internalState (← internalState.handleUserEvent event)

def handleConnectionEvent (fuel : ℕ) (env : Environment) (event : ConnectionEvent)
    (internalState : ConnectedState) : Handler (State × Option State) := do
  onNewState fuel env internalState (← internalState.handleConnectionEvent env event)

end Connected

namespace Connecting

def start (env : Environment) : Handler (Option State) :=
  tryCatch (do
    let attachResponse ← outcome env.attach
    openFacadeConnection env attachResponse
    send { command := .setup, attachKey := some attachResponse.key }
    return none)
  fun
    | .thrown what => do
      log (.error ("Attach: " ++ what))
      onEvent (.error none)
      return some .disconnected
    | fault => throw fault

def handleMessage (env : Environment) (message : ControlMessage) : Handler (Option State) := do
  match message.command with
  | .setup =>
    if message.response = .accepted then
      return some (.connected .ready)
    else
      onEvent (.error (some message.message))
      return some .disconnecting
  | _ => defaultMessageHandle env message "Connecting"

end Connecting

namespace Disconnecting

def start (env : Environment) : Handler (Option State) := do
  closeFacadeConnection env
  onEvent .released
  return some .disconnected

end Disconnecting

namespace Disconnected

def handleUserEvent (event : UserEvent) : Handler (Option State) := do
  match event with
  | .attach => return some .connecting
  | _ => defaultEventHandle (.user event) "Disconnected"

end Disconnected

namespace State

def start (env : Environment) : State → Handler (State × Option State)
  | .disconnected => return (.disconnected, none)
  | .connecting => do return (.connecting, ← Connecting.start env)
  | .connected internalState => do
    return (.connected (← Connected.start env internalState), none)
  | .disconnecting => do return (.disconnecting, ← Disconnecting.start env)

def handleUserEvent (fuel : ℕ) (env : Environment) (event : UserEvent) :
    State → Handler (State × Option State)
  | .disconnected => do return (.disconnected, ← Disconnected.handleUserEvent event)
  | .connecting => do return (.connecting, ← rejectUserEvent event "Connecting")
  | .connected internalState => Connected.handleUserEvent fuel env event internalState
  | .disconnecting => do return (.disconnecting, ← rejectUserEvent event "Disconnecting")

def handleConnectionEvent (fuel : ℕ) (env : Environment) (event : ConnectionEvent) :
    State → Handler (State × Option State)
  | .disconnected => do
    return (.disconnected, ← defaultEventHandle (.connection event) "Disconnected")
  | .connecting => do
    return (.connecting, ← handleReceived (Connecting.handleMessage env) event "Connecting")
  | .connected internalState => Connected.handleConnectionEvent fuel env event internalState
  | .disconnecting => do
    return (.disconnecting, ← defaultEventHandle (.connection event) "Disconnecting")

def interface (fuel : ℕ) : IState State :=
  ⟨start, handleUserEvent fuel, handleConnectionEvent fuel⟩

end State

def handleEvent (env : Environment) (event : InputEvent) (state : State) : Handler State :=
  (State.interface loopFuel).process loopFuel env event state

/-- A device, by the events its machine handles, as long as no handler throws. -/
def client : TransitionSystem (Client State) Handling :=
  .ofStep ⟨.disconnected, .initial⟩ (Client.step handleEvent)

end FmClient.Device
