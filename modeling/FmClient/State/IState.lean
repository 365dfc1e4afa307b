import FmClient.Backend.ChannelsHandler
import FmClient.Lib.TransitionSystem

/-! The state classes' common defaults, the transition loop of
`IStateMachine::handleEvent`, and a client as the system of its handled events. -/
namespace FmClient
open Lib Handler

/-- `IStateMachine::recall`, called from a handler. -/
def «recall» : Handler Unit := do
  match (← get).deferred with
  | [] => return ()
  | event :: rest =>
    modify fun w => { w with deferred := rest }
    emit (.notified event)

/-- `ClientBackend::openFacadeConnection`; the configuration is taken to have `facade.useTls` and,
for TLS, `cert.facadeCertPath`, so that `get` does not throw before the dialling. -/
def openFacadeConnection (env : Environment) (response : AttachResponse) : Handler Unit := do
  emit (.dialed response.host (if env.useTls then response.tlsPort else response.unsafePort))
  outcome env.openFacade
  modify fun w => w.withReader true

/-- `ClientBackend::closeFacadeConnection` -/
def closeFacadeConnection (env : Environment) : Handler Unit := do
  modify fun w => w.withReader false
  emit .finished
  outcome env.closeFacade

def handleHeartbeat (env : Environment) (heartbeat : Heartbeat) : Handler Unit :=
  send { command := .heartbeat, response := some .accepted
         heartbeat := some { key := heartbeat.key, location := env.location } }

section
variable {σ : Type}

def defaultEventHandle (event : InputEvent) (state : String) : Handler (Option σ) := do
  log (.unexpectedEvent event state)
  return none

def defaultMessageHandle (env : Environment) (message : ControlMessage) (state : String) :
    Handler (Option σ) := do
  match message.command, message.heartbeat with
  | .heartbeat, some heartbeat => handleHeartbeat env heartbeat
  | _, _ => log (.unexpectedMessage message state)
  return none

/-- `handleUserEvent` of the states that serve no user event. -/
def rejectUserEvent (event : UserEvent) (state : String) : Handler (Option σ) :=
  defaultEventHandle (.user event) state

/-- `handleConnectionEvent` of the states that only serve messages. -/
def handleReceived (handleMessage : ControlMessage → Handler (Option σ))
    (event : ConnectionEvent) (state : String) : Handler (Option σ) :=
  match event with
  | .received message => handleMessage message
  | _ => defaultEventHandle (.connection event) state

/-- The virtual functions of a state class. A state may change in `start` and in a
handler (`validated`, `internalState`), so that both return it with its successor. -/
structure IState (σ : Type) where
  start : Environment → σ → Handler (σ × Option σ)
  handleUserEvent : Environment → UserEvent → σ → Handler (σ × Option σ)
  handleConnectionEvent : Environment → ConnectionEvent → σ → Handler (σ × Option σ)

/-- `while (nullptr != newState)`: swap the new state in and start it. -/
def transitions (start : σ → Handler (σ × Option σ)) : ℕ → σ → Option σ → Handler σ
  | _, state, none => return state
  | 0, _, some _ => throw .outOfFuel
  | fuel + 1, _, some newState => do
    let (state, next) ← start newState
    transitions start fuel state next

def IState.handleEvent (I : IState σ) (env : Environment) (event : InputEvent) (state : σ) :
    Handler (σ × Option σ) :=
  match event with
  | .user e => I.handleUserEvent env e state
  | .connection e => I.handleConnectionEvent env e state

/-- `IStateMachine::handleEvent` -/
def IState.process (I : IState σ) (fuel : ℕ) (env : Environment) (event : InputEvent)
    (state : σ) : Handler σ := do
  let (state, newState) ← I.handleEvent env event state
  transitions (I.start env) fuel state newState

/-- Every call outside succeeds, but for the channels that are not to be opened. -/
def Environment.permissive (opens : ℕ → Bool) : Environment where
  attach := .ok {}
  operate _ := .ok {}
  useTls := true
  openFacade := .ok ()
  closeFacade := .ok ()
  opens i := .ok (opens i)
  location := none

structure Client (σ : Type) where
  state : σ
  context : Context

/-- A label of a client: the event handled and what the calls outside gave. -/
structure Handling where
  environment : Environment
  event : InputEvent

def Client.step (handleEvent : Environment → InputEvent → σ → Handler σ) (c : Client σ)
    (a : Handling) : Option (Client σ) :=
  match handleEvent a.environment a.event c.state c.context with
  | .ok state context => some ⟨state, context⟩
  | .error _ _ => none

/-- Enough rounds for every transition loop: the successor of the state that handled
the event, and the successor of that one. -/
def loopFuel : ℕ := 2

end
end FmClient
