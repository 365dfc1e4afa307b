import FmClient.Event
import FmClient.Lib.KeyedList

/-! What the states of a client share, and the operations of `ChannelsHandler` on it. -/
namespace FmClient
open Lib

/-- The sockets that `buildSocket` chooses from. -/
inductive SocketKind where
  | udp | tcp | tlsTcp
  deriving DecidableEq

structure ChannelImpl where
  id : ℤ
  address : ℕ
  socket : SocketKind
  owned : Bool
  deriving DecidableEq

def ChannelImpl.pointer (c : ChannelImpl) : IChannel := ⟨c.id, c.address⟩

@[simp] theorem ChannelImpl.pointer_id (c : ChannelImpl) : c.pointer.id = c.id := rfl
@[simp] theorem ChannelImpl.pointer_address (c : ChannelImpl) :
    c.pointer.address = c.address := rfl

/-- `ChannelsHandler::channels`: each channel is stored under its own id. -/
abbrev Channels := KeyedList ChannelImpl.id

inductive LogEntry where
  | unexpectedEvent (event : InputEvent) (state : String)
  | unexpectedMessage (message : ControlMessage) (state : String)
  | info (text : String)
  | warning (text : String)
  | error (text : String)
  deriving DecidableEq

/-- What a handler does, in order: to the facade, to the listener, to the channels,
to the machine's own queue and to the facade connection. -/
inductive Effect where
  | sent (message : ClientMessage)
  | event (event : FacadeEvent)
  | logged (entry : LogEntry)
  | inserted (channel : IChannel)
  | opened (channel : IChannel) (accepted : Bool)
  | closed (channel : IChannel)
  | erased (channel : IChannel)
  | notified (event : InputEvent)
  | dialed (host : String) (port : ℕ)
  | finished
  deriving DecidableEq

/-- How a handler can end without a result: by an exception, by reading through
`channels.end()`, past the end of a repeated field or through a pointer to an erased
channel, by leaving a function without a value, or by a transition loop that has not ended
within its fuel. -/
inductive Fault where
  | thrown (what : String)
  | missingChannel (id : ℤ)
  | danglingChannel (channel : IChannel)
  | idsOutOfRange
  | noReturn
  | outOfFuel
  deriving DecidableEq

structure Context where
  channels : Channels
  constructed : ℕ
  keepReader : Bool
  deferred : List InputEvent
  trace : List Effect

def Context.initial : Context := ⟨.empty, 0, false, [], []⟩

namespace Context
variable (w : Context) (es fs : List Effect) (m n : Channels) (keepReader : Bool)

def emit : Context := { w with trace := w.trace ++ es }

def withChannels : Context := { w with channels := m }

def insertNew (c : ChannelImpl) (hc : c.id ∉ w.channels.keys) : Context :=
  { w with channels := w.channels.insertNew c hc, constructed := w.constructed + 1 }

def withReader : Context := { w with keepReader := keepReader }

@[simp] theorem emit_channels : (w.emit es).channels = w.channels := rfl
@[simp] theorem emit_constructed : (w.emit es).constructed = w.constructed := rfl
@[simp] theorem emit_keepReader : (w.emit es).keepReader = w.keepReader := rfl
@[simp] theorem emit_deferred : (w.emit es).deferred = w.deferred := rfl
@[simp] theorem emit_trace : (w.emit es).trace = w.trace ++ es := rfl

@[simp] theorem emit_emit : (w.emit es).emit fs = w.emit (es ++ fs) := by
  simp [emit]

@[simp] theorem emit_nil : w.emit [] = w := by
  simp [emit]

@[simp] theorem withChannels_channels : (w.withChannels m).channels = m := rfl
@[simp] theorem withChannels_constructed : (w.withChannels m).constructed = w.constructed := rfl
@[simp] theorem withChannels_keepReader : (w.withChannels m).keepReader = w.keepReader := rfl
@[simp] theorem withChannels_deferred : (w.withChannels m).deferred = w.deferred := rfl
@[simp] theorem withChannels_trace : (w.withChannels m).trace = w.trace := rfl
@[simp] theorem withChannels_self : w.withChannels w.channels = w := rfl
@[simp] theorem withChannels_withChannels :
    (w.withChannels m).withChannels n = w.withChannels n := rfl
@[simp] theorem emit_withChannels :
    (w.emit es).withChannels m = (w.withChannels m).emit es := rfl

section
variable {w} {c : ChannelImpl} (hc : c.id ∉ w.channels.keys)

@[simp] theorem insertNew_channels :
    (w.insertNew c hc).channels = w.channels.insertNew c hc := rfl
@[simp] theorem insertNew_constructed : (w.insertNew c hc).constructed = w.constructed + 1 := rfl
@[simp] theorem insertNew_keepReader : (w.insertNew c hc).keepReader = w.keepReader := rfl
@[simp] theorem insertNew_deferred : (w.insertNew c hc).deferred = w.deferred := rfl
@[simp] theorem insertNew_trace : (w.insertNew c hc).trace = w.trace := rfl

end

@[simp] theorem withReader_channels : (w.withReader keepReader).channels = w.channels := rfl
@[simp] theorem withReader_constructed :
    (w.withReader keepReader).constructed = w.constructed := rfl
@[simp] theorem withReader_keepReader : (w.withReader keepReader).keepReader = keepReader := rfl
@[simp] theorem withReader_deferred : (w.withReader keepReader).deferred = w.deferred := rfl
@[simp] theorem withReader_trace : (w.withReader keepReader).trace = w.trace := rfl
@[simp] theorem emit_withReader :
    (w.emit es).withReader keepReader = (w.withReader keepReader).emit es := rfl

end Context

/-- The outcomes of the calls a handler makes outside the client: of the core and the
facade, of the `i`-th `ChannelImpl::open` of a batch, and of the listener. -/
structure Environment where
  attach : Except String AttachResponse
  operate : ℤ → Except String OperateResponse
  useTls : Bool
  openFacade : Except String Unit
  closeFacade : Except String Unit
  opens : ℕ → Except String Bool
  location : Option Location

/-- A handler keeps what it has done up to a fault. -/
abbrev Handler := EStateM Fault Context

namespace Handler
variable {α β : Type} (w : Context)

def contextOf : EStateM.Result Fault Context α → Context
  | .ok _ v => v
  | .error _ v => v

@[simp] theorem contextOf_ok (a : α) : contextOf (.ok a w) = w := rfl

@[simp] theorem contextOf_error (f : Fault) :
    contextOf (.error f w : EStateM.Result Fault Context α) = w := rfl

@[simp] theorem pure_apply (a : α) : (pure a : Handler α) w = .ok a w := rfl

@[simp] theorem throw_apply (f : Fault) : (throw f : Handler α) w = .error f w := rfl

@[simp] theorem get_apply : (get : Handler Context) w = .ok w w := rfl

@[simp] theorem set_apply (v : Context) : (set v : Handler Unit) w = .ok () v := rfl

@[simp] theorem modify_apply (f : Context → Context) :
    (modify f : Handler Unit) w = .ok () (f w) := rfl

theorem bind_apply (x : Handler α) (f : α → Handler β) :
    (x >>= f) w = match x w with
      | .ok a v => f a v
      | .error e v => .error e v := by
  change EStateM.bind x f w = _
  unfold EStateM.bind
  cases x w <;> rfl

theorem tryCatch_apply (x : Handler α) (h : Fault → Handler α) :
    (tryCatch x h) w = match x w with
      | .ok a v => .ok a v
      | .error e v => h e v := by
  change EStateM.tryCatch x h w = _
  unfold EStateM.tryCatch
  cases x w <;> rfl

theorem bind_eq_ok {x : Handler α} {f : α → Handler β} {w v : Context} {b : β} :
    (x >>= f) w = .ok b v ↔ ∃ a u, x w = .ok a u ∧ f a u = .ok b v := by
  rw [bind_apply]
  cases x w <;> simp

def emit (e : Effect) : Handler Unit := modify fun w => w.emit [e]

def log (entry : LogEntry) : Handler Unit := emit (.logged entry)

/-- `ClientBackend::send`: the message is accepted for the facade. -/
def send (message : ClientMessage) : Handler Unit := emit (.sent message)

def onEvent (event : FacadeEvent) : Handler Unit := emit (.event event)

def outcome : Except String α → Handler α
  | .ok a => pure a
  | .error what => throw (.thrown what)

theorem map_apply (f : α → β) (x : Handler α) :
    (f <$> x) w = match x w with
      | .ok a v => .ok (f a) v
      | .error e v => .error e v := by
  rw [← bind_pure_comp, bind_apply]
  rfl

theorem map_eq_ok {f : α → β} {x : Handler α} {w v : Context} {b : β} :
    (f <$> x) w = .ok b v ↔ ∃ a, x w = .ok a v ∧ f a = b := by
  rw [map_apply]
  cases x w <;> simp [and_comm]

@[simp] theorem emit_apply (e : Effect) : emit e w = .ok () (w.emit [e]) := rfl
@[simp] theorem log_apply (entry : LogEntry) : log entry w = .ok () (w.emit [.logged entry]) := rfl
@[simp] theorem send_apply (message : ClientMessage) :
    send message w = .ok () (w.emit [.sent message]) := rfl
@[simp] theorem onEvent_apply (event : FacadeEvent) :
    onEvent event w = .ok () (w.emit [.event event]) := rfl

end Handler

namespace ChannelsHandler
open Handler

def openingLine (id : ℤ) : LogEntry := .info ("Opening channel id: " ++ toString id)
def validatedLine (id : ℤ) : LogEntry := .info ("Channel id: " ++ toString id ++ " validated")
def rejectedLine (id : ℤ) : LogEntry := .error ("Could not validate channel id: " ++ toString id)
def closingLine (id : ℤ) : LogEntry := .info ("Closing channel, id: " ++ toString id)
def notExistingLine (id : ℤ) : LogEntry :=
  .warning ("Trying to close not existing channel, id: " ++ toString id)
def ownedLine (id : ℤ) : LogEntry :=
  .info ("Setting channel, id: " ++ toString id ++ " as owned")

def getChannels : Handler (List IChannel) := do
  return (← get).channels.entries.map ChannelImpl.pointer

/-- `channels.find(id)->second` -/
def lookup (id : ℤ) : Handler ChannelImpl := do
  match (← get).channels.find id with
  | some c => return c
  | none => throw (.missingChannel id)

def getChannelsOf : List ℤ → Handler (List IChannel)
  | [] => return []
  | id :: ids => do
    let c ← lookup id
    let rest ← getChannelsOf ids
    return c.pointer :: rest

def getChannelsIds : Handler (List ℤ) := do
  return (← get).channels.keys

def buildSocket (parameters : ChannelResponse) : Handler SocketKind :=
  match parameters.protocol with
  | .udp =>
    match parameters.security with
    | .plainText => return .udp
    | .tls => throw (.thrown "UDP encryption not supported")
    -- the inner `switch` has no default: control reaches the end of the function
    | .other _ => throw .noReturn
  | .tcp =>
    match parameters.security with
    | .plainText => return .tcp
    | .tls => return .tlsTcp
    | .other _ => throw .noReturn
  | .other _ => throw (.thrown "Unexpected Protocol or Security type")

/-- `channels.emplace`: an entry under the same id stays and is returned instead. -/
def emplace (id : ℤ) (socket : SocketKind) : Handler IChannel := do
  let w ← get
  if h : id ∈ w.channels.keys then
    return (← lookup id).pointer
  else
    let c : ChannelImpl := ⟨id, w.constructed, socket, false⟩
    set (w.insertNew c h)
    emit (.inserted c.pointer)
    return c.pointer

/-- `ChannelImpl::open`, of which the caller sees the result or the exception. -/
def «open» (channel : IChannel) (result : Except String Bool) : Handler Bool := do
  let accepted ← outcome result
  emit (.opened channel accepted)
  return accepted

def erase (id : ℤ) : Handler Unit := do
  let w ← get
  match w.channels.find id with
  | some c =>
    set (w.withChannels (w.channels.erase id))
    emit (.erased c.pointer)
  | none => return ()

def validateChannel (c : ChannelResponse) (result : Except String Bool) :
    Handler (List IChannel) := do
  log (openingLine c.id)
  let socket ← buildSocket c
  let channel ← emplace c.id socket
  if ← «open» channel result then
    log (validatedLine c.id)
    return [channel]
  else
    log (rejectedLine c.id)
    erase c.id
    return []

/-- The channels to validate come with the outcomes of their `open` calls. -/
def validateChannels : List (ChannelResponse × Except String Bool) → Handler (List IChannel)
  | [] => return []
  | (c, result) :: rest => do
    let channel ← validateChannel c result
    let channels ← validateChannels rest
    return channel ++ channels

/-- `IChannel::getId` of each channel, which must be there still. -/
def getIds : List IChannel → Handler (List ℤ)
  | [] => return []
  | c :: channels => do
    if c ∈ (← getChannels) then
      return c.id :: (← getIds channels)
    else
      throw (.danglingChannel c)

def close (channel : IChannel) : Handler Unit := emit (.closed channel)

def closeChannels : List ℤ → Handler Unit
  | [] => return ()
  | id :: toClose => do
    match (← get).channels.find id with
    | some c =>
      log (closingLine id)
      close c.pointer
      erase id
    | none => log (notExistingLine id)
    closeChannels toClose

def closeEach : List ChannelImpl → Handler Unit
  | [] => return ()
  | c :: rest => do
    log (closingLine c.id)
    close c.pointer
    closeEach rest

def clear : Handler Unit := modify fun w =>
  (w.withChannels .empty).emit (w.channels.entries.map fun c => .erased c.pointer)

def closeAllChannels : Handler Unit := do
  closeEach (← get).channels.entries
  clear

def ownedAt (id : ℤ) (owned : Bool) (c : ChannelImpl) : ChannelImpl :=
  if c.id = id then { c with owned := owned } else c

@[simp] theorem ownedAt_id (id : ℤ) (owned : Bool) (c : ChannelImpl) :
    (ownedAt id owned c).id = c.id := by
  unfold ownedAt
  split <;> rfl

def setOwned (id : ℤ) (owned : Bool) : Handler Unit := do
  let _ ← lookup id
  modify fun w => w.withChannels (w.channels.mapValues (ownedAt id owned) (ownedAt_id id owned))

def setOwnedAll : List ℤ → Handler Unit
  | [] => return ()
  | id :: owned => do
    log (ownedLine id)
    setOwned id true
    setOwnedAll owned

end ChannelsHandler

def Environment.batch (env : Environment) (channels : List ChannelResponse) :
    List (ChannelResponse × Except String Bool) :=
  channels.mapIdx fun i c => (c, env.opens i)

/-- The ids of the channels whose `open` returned true, as they come in the batch. -/
def openedIds (batch : List (ChannelResponse × Except String Bool)) : List ℤ :=
  batch.filterMap fun x =>
    match x.2 with
    | .ok true => some x.1.id
    | _ => none

end FmClient
