import FmClient.State.Layers
import FmClient.State.Pilot

/-! What the pilot does with one event, from any state in which its machine rests:
one constructor of `Handled` for each way in which `handleEvent` can end. -/
namespace FmClient.Pilot
open Lib Handler ChannelsHandler

/-- A state the machine can be left in, unlike those that `start` or `createOuterState`
leaves at once. -/
def State.rests : State → Bool
  | .connected .released | .disconnecting => false
  | _ => true

def ConnectedState.serves : ConnectedState → InputEvent → Bool
  | .validatingChannels _ _, .connection (.received m) => m.command = .channelsReady
  | .operating, .user e =>
    match e with
    | .openChannels _ | .closeChannels _ | .requestControl _ | .release => true
    | _ => false
  | .operating, .connection .lost => true
  | .operating, .connection (.received m) =>
    m.command = .operationUpdated ∨ m.command = .releaseControl ∨ m.command = .release
  | .openingChannels _, .connection (.received m) => m.command = .addChannels
  | .closingChannels _, .connection (.received m) =>
    m.command = .removeChannels ∨ m.command = .release
  | .requestingControl _, .user .controlReady => true
  | .requestingControl _, .connection (.received m) =>
    m.command = .requestControl ∨ m.command = .controlReady ∧ m.response = .accepted
  | .releasingControl _, .user e =>
    match e with
    | .releaseAccepted _ | .releaseRejected _ => true
    | _ => false
  | .releasingControl _, .connection (.received m) => m.command = .controlReleased
  | _, _ => false

def State.serves : State → InputEvent → Bool
  | .disconnected, .user (.operate _ _) => true
  | .connecting _ _, .connection (.received m) => m.command = .setup
  | .connected s, e => s.serves e
  | _, _ => false

def State.isOpen : State → Bool
  | .connecting _ _ | .connected _ => true
  | _ => false

/-- `Recovering` and `Released` look at no message. -/
def State.receives : State → Bool
  | .connected .recovering | .connected .released => false
  | s => s.isOpen

def ConnectedState.name : ConnectedState → String
  | .validatingChannels _ _ => "ValidatingChannels"
  | .operating => "Operating"
  | .openingChannels _ => "OpeningChannels"
  | .closingChannels _ => "ClosingChannels"
  | .requestingControl _ => "RequestingControl"
  | .releasingControl _ => "ReleasingControl"
  | .recovering => "Recovering"
  | .released => "Released"

def State.name : State → String
  | .disconnected => "Disconnected"
  | .connecting _ _ => "Connecting"
  | .connected s => s.name
  | .disconnecting => "Disconnecting"

/-! ### The two layers -/

def ConnectedState.handle (env : Environment) (s : ConnectedState) : InputEvent → Next
  | .user event => s.handleUserEvent event
  | .connection event => s.handleConnectionEvent env event

def State.outer : State → Outer (ℤ × List ChannelRequest) ConnectedState
  | .disconnected => .disconnected
  | .connecting deviceId channels => .connecting (deviceId, channels)
  | .connected internalState => .connected internalState
  | .disconnecting => .disconnecting

def layers : Layers State (ℤ × List ChannelRequest) ConnectedState where
  state := {
    toFun := fun
      | .disconnected => .disconnected
      | .connecting request => .connecting request.1 request.2
      | .connected internalState => .connected internalState
      | .disconnecting => .disconnecting
    invFun := State.outer
    left_inv := fun s => by cases s <;> rfl
    right_inv := fun s => by cases s <;> rfl }
  begins
    | .operate deviceId channels => some (deviceId, channels)
    | _ => none
  answer env request := env.operate request.1
  setup request response :=
    { command := .setup, attachKey := some response.key, channelsRequest := request.2 }
  failure := .error
  accepted m := .validatingChannels m.channelsResponse []
  begun := .operationStarted
  connectedStart := ConnectedState.start
  handle env e s := s.handle env e
  createOuterState := ConnectedState.createOuterState

theorem layers_describe : layers.Describes State.interface where
  start fuel env s := by cases s <;> rfl
  handleEvent fuel env e s := by
    obtain e | e := e
    · cases s with
      | disconnected => cases e <;> rfl
      | _ => rfl
    · cases s <;> rfl
  once env n t next w v h := by
    cases n with
    | recovering | released =>
      cases h
      rfl
    | _ =>
      simp only [layers, ConnectedState.start, bind_pure_comp, map_eq_ok, Prod.mk.injEq] at h
      obtain ⟨_, _, _, rfl⟩ := h
      rfl
  outer s next h := by
    cases s <;> cases h
    rfl

section
variable {env : Environment} {e : InputEvent} {s n t : ConnectedState} {w v u : Context}

theorem handleEvent_connected (env : Environment) (e : InputEvent) (s : ConnectedState)
    (w : Context) : handleEvent env e (.connected s) w =
      handleConnected .connected (ConnectedState.start env) (State.start env)
        ConnectedState.createOuterState s (s.handle env e) w := by
  cases e <;>
    simp [handleEvent, IState.process, IState.handleEvent, State.interface, State.handleUserEvent,
      State.handleConnectionEvent, Connected.handleUserEvent, Connected.handleConnectionEvent,
      Connected.onNewState, ConnectedState.handle, handleConnected]

theorem handleEvent_stay (hx : s.handle env e w = .ok none v) (hs : s.createOuterState = none) :
    handleEvent env e (.connected s) w = .ok (.connected s) v :=
  (handleEvent_connected env e s w).trans (handleConnected_stay hx hs)

theorem handleEvent_enter (hx : s.handle env e w = .ok (some n) v)
    (hn : n.start env v = .ok (t, none) u) (ht : t.createOuterState = none) :
    handleEvent env e (.connected s) w = .ok (.connected t) u :=
  (handleEvent_connected env e s w).trans (handleConnected_enter hx hn ht)

theorem handleEvent_operating (hx : s.handle env e w = .ok (some .operating) v) :
    handleEvent env e (.connected s) w = .ok (.connected .operating) v.recalled :=
  handleEvent_enter hx (by simp [ConnectedState.start, bind_apply, recall_apply]) rfl

theorem transitions_disconnecting (env : Environment) (s : State) (w : Context) :
    Disconnects env .disconnected w
      (transitions (State.start env) loopFuel s (some .disconnecting) w) :=
  transitions_disconnects (by simp [State.start, Disconnecting.start]) rfl s w

theorem handleEvent_released (hx : s.handle env e w = .ok (some .released) v) :
    Disconnects env .disconnected v (handleEvent env e (.connected s) w) := by
  have hstart : ConnectedState.start env .released v = .ok (.released, none) v := rfl
  have houter : ConnectedState.createOuterState .released = some .disconnecting := rfl
  rw [handleEvent_connected, handleConnected_leave hx hstart houter]
  exact transitions_disconnecting env (.connected .released) v

end

/-! ### Every way to end -/

section
variable (w : Context)

def releaseContext : Context :=
  (w.withChannels .empty).emit
    (.event (.channelsClosing (pointers w.channels)) ::
      closeAllEffects w.channels ++ [.sent { command := .release, response := some .accepted }])

def ownedContext (ids : List ℤ) : Context :=
  (w.withChannels (ownedMapAll w.channels ids)).emit (ids.map fun id => .logged (ownedLine id))

end

inductive Handled (env : Environment) (w : Context) :
    State → InputEvent → EStateM.Result Fault Context State → Prop where
  | unexpected {s : State} {e : InputEvent} (hs : s.serves e = false)
      (hm : ∀ m, e = .received m → s.receives = false) :
      Handled env w s e (.ok s (w.emit [.logged (.unexpectedEvent e s.name)]))
  | defaulted {s : State} {m : ControlMessage} (hs : s.serves (.received m) = false)
      (ho : s.receives = true) :
      Handled env w s (.received m) (.ok s (w.emit [defaultEffect env m s.name]))
  -- Disconnected
  | operateRefused {d : ℤ} {chs : List ChannelRequest} {what : String}
      (ho : env.operate d = .error what) :
      Handled env w .disconnected (.user (.operate d chs))
        (.ok .disconnected (w.emit [.logged (.error what), .event (.error none)]))
  | dialFailed {d : ℤ} {chs : List ChannelRequest} {response : OperateResponse}
      {what : String} (ho : env.operate d = .ok response) (hf : env.openFacade = .error what) :
      Handled env w .disconnected (.user (.operate d chs))
        (.ok .disconnected (w.emit
          [.dialed response.host (env.port response), .logged (.error what),
            .event (.error none)]))
  | operateStarted {d : ℤ} {chs : List ChannelRequest} {response : OperateResponse}
      (ho : env.operate d = .ok response) (hf : env.openFacade = .ok ()) :
      Handled env w .disconnected (.user (.operate d chs))
        (.ok (.connecting d chs) ((w.withReader true).emit
          [.dialed response.host (env.port response),
            .sent { command := .setup, attachKey := some response.key
                    channelsRequest := chs }]))
  -- Connecting
  | setupAccepted {d : ℤ} {chs : List ChannelRequest} {m : ControlMessage} {v : Context}
      {ps : List IChannel} (hc : m.command = .setup) (hr : m.response = .accepted)
      (hv : Validations w (env.batch m.channelsResponse) (.ok ps v))
      (hps : ∀ p ∈ ps, p ∈ pointers v.channels) :
      Handled env w (.connecting d chs) (.received m)
        (.ok (.connected (.validatingChannels m.channelsResponse ps)) (v.emit
          [.sent { command := .channelsReady, channelsIndication := ps.map IChannel.id },
            .event .operationStarted]))
  | setupFailed {d : ℤ} {chs : List ChannelRequest} {m : ControlMessage} {v : Context}
      {f : Fault} (hc : m.command = .setup) (hr : m.response = .accepted)
      (hv : Validations w (env.batch m.channelsResponse) (.error f v)) :
      Handled env w (.connecting d chs) (.received m) (.error f v)
  /-- A channel accepted and then rejected in one batch. -/
  | setupDangling {d : ℤ} {chs : List ChannelRequest} {m : ControlMessage} {v : Context}
      {ps : List IChannel} {p : IChannel} (hc : m.command = .setup) (hr : m.response = .accepted)
      (hv : Validations w (env.batch m.channelsResponse) (.ok ps v)) (hp : p ∈ ps)
      (hnot : p ∉ pointers v.channels) :
      Handled env w (.connecting d chs) (.received m) (.error (.danglingChannel p) v)
  | setupRejected {d : ℤ} {chs : List ChannelRequest} {m : ControlMessage}
      {r : EStateM.Result Fault Context State} (hc : m.command = .setup)
      (hr : m.response ≠ .accepted)
      (hd : Disconnects env .disconnected (w.emit [.event (.error (some m.message))]) r) :
      Handled env w (.connecting d chs) (.received m) r
  -- ValidatingChannels
  | readyAccepted {chs : List ChannelResponse} {ps : List IChannel} {m : ControlMessage}
      (hc : m.command = .channelsReady) (hr : m.response = .accepted)
      (hids : ∀ id ∈ m.channelsIndication, id ∈ w.channels.keys) :
      Handled env w (.connected (.validatingChannels chs ps)) (.received m)
        (.ok (.connected .operating)
          ((ownedContext w m.channelsIndication).emit [.event (.channelsOpened ps)]).recalled)
  | readyMissing {chs : List ChannelResponse} {ps : List IChannel} {m : ControlMessage}
      {pre post : List ℤ} {id : ℤ} (hc : m.command = .channelsReady) (hr : m.response = .accepted)
      (hm : m.channelsIndication = pre ++ id :: post) (hid : id ∉ w.channels.keys) :
      Handled env w (.connected (.validatingChannels chs ps)) (.received m)
        (.error (.missingChannel id) ((ownedContext w pre).emit [.logged (ownedLine id)]))
  | readyRejected {chs : List ChannelResponse} {ps : List IChannel} {m : ControlMessage}
      (hc : m.command = .channelsReady) (hr : m.response ≠ .accepted) :
      Handled env w (.connected (.validatingChannels chs ps)) (.received m)
        (.ok (.connected (.validatingChannels chs ps)) (w.emit
          [.event (.error (some m.message)), .logged (.unexpectedMessage m "ValidatingChannels")]))
  -- Operating
  | openChannels {chs : List ChannelRequest} :
      Handled env w (.connected .operating) (.user (.openChannels chs))
        (.ok (.connected (.openingChannels chs))
          (w.emit [.sent { command := .addChannels, channelsRequest := chs }]))
  | closeChannels {e : UserEvent} {ids : List ℤ}
      (he : e = .closeChannels ids ∨ e = .release ∧ ids = w.channels.keys) :
      Handled env w (.connected .operating) (.user e)
        (.ok (.connected (.closingChannels ids))
          (w.emit [.sent { command := .removeChannels, channelsIndication := ids }]))
  | requestControl {id : ℤ} :
      Handled env w (.connected .operating) (.user (.requestControl id))
        (.ok (.connected (.requestingControl id))
          (w.emit [.sent { command := .requestControl, channelsIndication := [id] }]))
  | connectionLost :
      Handled env w (.connected .operating) (.connection .lost) (.ok (.connected .recovering) w)
  | operationUpdated {m : ControlMessage} (hc : m.command = .operationUpdated) :
      Handled env w (.connected .operating) (.received m)
        (.ok (.connected .operating) (w.emit [.event .operationUpdated]).recalled)
  | releaseControl {m : ControlMessage} {id : ℤ} {rest : List ℤ}
      (hc : m.command = .releaseControl) (hm : m.channelsIndication = id :: rest) :
      Handled env w (.connected .operating) (.received m)
        (.ok (.connected (.releasingControl id)) (w.emit [.event (.releaseControl id)]))
  | releaseControlEmpty {m : ControlMessage} (hc : m.command = .releaseControl)
      (hm : m.channelsIndication = []) :
      Handled env w (.connected .operating) (.received m) (.error .idsOutOfRange w)
  /-- From Operating and from ClosingChannels alike. -/
  | release {s : ConnectedState} {m : ControlMessage} {r : EStateM.Result Fault Context State}
      (hs : s = .operating ∨ ∃ ids, s = .closingChannels ids) (hc : m.command = .release)
      (hd : Disconnects env .disconnected (releaseContext w) r) :
      Handled env w (.connected s) (.received m) r
  -- OpeningChannels
  | addAccepted {chs : List ChannelRequest} {m : ControlMessage} {v : Context}
      {ps : List IChannel} (hc : m.command = .addChannels) (hr : m.response = .accepted)
      (hv : Validations w (env.batch m.channelsResponse) (.ok ps v))
      (hps : ∀ p ∈ ps, p ∈ pointers v.channels) :
      Handled env w (.connected (.openingChannels chs)) (.received m)
        (.ok (.connected (.validatingChannels m.channelsResponse ps)) (v.emit
          [.sent { command := .channelsReady, channelsIndication := ps.map IChannel.id }]))
  | addFailed {chs : List ChannelRequest} {m : ControlMessage} {v : Context} {f : Fault}
      (hc : m.command = .addChannels) (hr : m.response = .accepted)
      (hv : Validations w (env.batch m.channelsResponse) (.error f v)) :
      Handled env w (.connected (.openingChannels chs)) (.received m) (.error f v)
  | addDangling {chs : List ChannelRequest} {m : ControlMessage} {v : Context}
      {ps : List IChannel} {p : IChannel} (hc : m.command = .addChannels)
      (hr : m.response = .accepted)
      (hv : Validations w (env.batch m.channelsResponse) (.ok ps v)) (hp : p ∈ ps)
      (hnot : p ∉ pointers v.channels) :
      Handled env w (.connected (.openingChannels chs)) (.received m)
        (.error (.danglingChannel p) v)
  | addRejected {chs : List ChannelRequest} {m : ControlMessage} (hc : m.command = .addChannels)
      (hr : m.response ≠ .accepted) :
      Handled env w (.connected (.openingChannels chs)) (.received m)
        (.ok (.connected .operating)
          (w.emit [.event (.procedureRejected .addChannels m.message)]).recalled)
  -- ClosingChannels
  | removeAccepted {ids : List ℤ} {m : ControlMessage} {ps : List IChannel} {left : Channels}
      {es : List Effect} (hc : m.command = .removeChannels) (hr : m.response = .accepted)
      (hf : Finds w.channels ids ps) (hcl : Closes w.channels ids left es) :
      Handled env w (.connected (.closingChannels ids)) (.received m)
        (.ok (.connected .operating) ((w.withChannels left).emit
          (.event (.channelsClosing ps) :: es ++
            [.sent { command := .removeChannels, response := some .accepted }])).recalled)
  | removeMissing {ids : List ℤ} {m : ControlMessage} {id : ℤ} (hc : m.command = .removeChannels)
      (hr : m.response = .accepted) (hm : id ∈ ids) (hid : id ∉ w.channels.keys) :
      Handled env w (.connected (.closingChannels ids)) (.received m)
        (.error (.missingChannel id) w)
  | removeRejected {ids : List ℤ} {m : ControlMessage} (hc : m.command = .removeChannels)
      (hr : m.response ≠ .accepted) :
      Handled env w (.connected (.closingChannels ids)) (.received m)
        (.ok (.connected .operating)
          (w.emit [.event (.procedureRejected .removeChannels m.message)]).recalled)
  -- RequestingControl
  | controlReady {id : ℤ} :
      Handled env w (.connected (.requestingControl id)) (.user .controlReady)
        (.ok (.connected (.requestingControl id)) (w.emit [.sent { command := .controlReady }]))
  | requestAccepted {id : ℤ} {m : ControlMessage} (hc : m.command = .requestControl)
      (hr : m.response = .accepted) :
      Handled env w (.connected (.requestingControl id)) (.received m)
        (.ok (.connected (.requestingControl id))
          (w.emit [.event (.handoverAccepted m.handoverData)]))
  | requestRejected {id : ℤ} {m : ControlMessage} (hc : m.command = .requestControl)
      (hr : m.response ≠ .accepted) :
      Handled env w (.connected (.requestingControl id)) (.received m)
        (.ok (.connected .operating)
          (w.emit [.event (.procedureRejected .requestControl m.message)]).recalled)
  | handoverDone {id : ℤ} {m : ControlMessage} (hc : m.command = .controlReady)
      (hr : m.response = .accepted) (hid : id ∈ w.channels.keys) :
      Handled env w (.connected (.requestingControl id)) (.received m)
        (.ok (.connected .operating) ((w.withChannels (ownedMap w.channels id true)).emit
          [.event .handoverDone]).recalled)
  | handoverMissing {id : ℤ} {m : ControlMessage} (hc : m.command = .controlReady)
      (hr : m.response = .accepted) (hid : id ∉ w.channels.keys) :
      Handled env w (.connected (.requestingControl id)) (.received m)
        (.error (.missingChannel id) w)
  -- ReleasingControl
  | releaseAccepted {id : ℤ} {data : List UInt8} :
      Handled env w (.connected (.releasingControl id)) (.user (.releaseAccepted data))
        (.ok (.connected (.releasingControl id)) (w.emit
          [.sent { command := .releaseControl, response := some .accepted
                   handoverData := some data }]))
  | releaseRejected {id : ℤ} {text : String} :
      Handled env w (.connected (.releasingControl id)) (.user (.releaseRejected text))
        (.ok (.connected .operating) (w.emit
          [.sent { command := .releaseControl, response := some .accepted
                   message := some text }]).recalled)
  | controlReleased {id : ℤ} {m : ControlMessage} (hc : m.command = .controlReleased)
      (hid : id ∈ w.channels.keys) :
      Handled env w (.connected (.releasingControl id)) (.received m)
        (.ok (.connected .operating) ((w.withChannels (ownedMap w.channels id false)).emit
          [.event .controlReleased,
            .sent { command := .controlReleased, response := some .accepted }]).recalled)
  | releasedMissing {id : ℤ} {m : ControlMessage} (hc : m.command = .controlReleased)
      (hid : id ∉ w.channels.keys) :
      Handled env w (.connected (.releasingControl id)) (.received m)
        (.error (.missingChannel id) w)

section
variable {env : Environment} {s : ConnectedState} {e : InputEvent} {m : ControlMessage}

theorem handle_received_unserved (hr : s ≠ .released) (hc : s ≠ .recovering)
    (hs : s.serves (.received m) = false) (w : Context) :
    s.handle env (.received m) w = .ok none (w.emit [defaultEffect env m s.name]) := by
  rw [← defaultMessageHandle_apply]
  cases s with
  | validatingChannels chs ps =>
    have hm : m.command ≠ .channelsReady := by simpa [ConnectedState.serves] using hs
    simp only [ConnectedState.handle, ConnectedState.handleConnectionEvent, handleReceived,
      ValidatingChannels.handleMessage, ConnectedState.name]
  | operating =>
    obtain ⟨hm, hm', hm''⟩ : m.command ≠ .operationUpdated ∧ m.command ≠ .releaseControl ∧
      m.command ≠ .release := by simpa [ConnectedState.serves] using hs
    simp only [ConnectedState.handle, ConnectedState.handleConnectionEvent,
      Operating.handleConnectionEvent, Operating.handleMessage, ConnectedState.name]
  | openingChannels chs =>
    have hm : m.command ≠ .addChannels := by simpa [ConnectedState.serves] using hs
    simp only [ConnectedState.handle, ConnectedState.handleConnectionEvent, handleReceived,
      OpeningChannels.handleMessage, ConnectedState.name]
  | closingChannels ids =>
    obtain ⟨hm, hm'⟩ : m.command ≠ .removeChannels ∧ m.command ≠ .release := by
      simpa [ConnectedState.serves] using hs
    simp only [ConnectedState.handle, ConnectedState.handleConnectionEvent, handleReceived,
      ClosingChannels.handleMessage, ConnectedState.name]
  | requestingControl id =>
    obtain ⟨hm, hm'⟩ : m.command ≠ .requestControl ∧
      (m.command = .controlReady → m.response ≠ .accepted) := by
        simpa [ConnectedState.serves] using hs
    by_cases hready : m.command = .controlReady
    · simp only [ConnectedState.handle, ConnectedState.handleConnectionEvent, handleReceived,
        RequestingControl.handleMessage, hready, if_neg (hm' hready), ConnectedState.name]
    · simp only [ConnectedState.handle, ConnectedState.handleConnectionEvent, handleReceived,
        RequestingControl.handleMessage, ConnectedState.name]
  | releasingControl id =>
    have hm : m.command ≠ .controlReleased := by simpa [ConnectedState.serves] using hs
    simp only [ConnectedState.handle, ConnectedState.handleConnectionEvent, handleReceived,
      ReleasingControl.handleMessage, ConnectedState.name]
  | recovering => exact absurd rfl hc
  | released => exact absurd rfl hr

theorem handle_unserved (hr : s ≠ .released) (hs : s.serves e = false)
    (he : s = .recovering ∨ ∀ m, e ≠ .received m) (w : Context) :
    s.handle env e w = .ok none (w.emit [.logged (.unexpectedEvent e s.name)]) := by
  rw [← defaultEventHandle_apply]
  cases e with
  | user e =>
    cases s with
    | released => exact absurd rfl hr
    | operating => cases e <;> first | rfl | simp [ConnectedState.serves] at hs
    | requestingControl id => cases e <;> first | rfl | simp [ConnectedState.serves] at hs
    | releasingControl id => cases e <;> first | rfl | simp [ConnectedState.serves] at hs
    | _ => rfl
  | connection e =>
    cases s with
    | released => exact absurd rfl hr
    | recovering => rfl
    | _ => cases e <;> first | rfl | simp [ConnectedState.serves] at hs he

end

/-! ### The served events -/

section
variable {env : Environment} {m : ControlMessage} {w : Context}

theorem acceptRelease_apply (w : Context) :
    acceptRelease w = .ok (some .released) (releaseContext w) := by
  simp [acceptRelease, bind_apply, map_apply, getChannels_apply, closeAllChannels_apply,
    releaseContext]

theorem handled_release {s : ConnectedState} (hs : s = .operating ∨ ∃ ids, s = .closingChannels ids)
    (hc : m.command = .release) :
    Handled env w (.connected s) (.received m)
      (handleEvent env (.received m) (.connected s) w) := by
  have hx : s.handle env (.received m) w = .ok (some .released) (releaseContext w) := by
    rw [← acceptRelease_apply]
    obtain rfl | ⟨ids, rfl⟩ := hs <;>
      simp only [ConnectedState.handle, ConnectedState.handleConnectionEvent, handleReceived,
        Operating.handleConnectionEvent, Operating.handleMessage, ClosingChannels.handleMessage, hc]
  exact .release hs hc (handleEvent_released hx)

theorem handled_validatingChannels (chs : List ChannelResponse) (ps : List IChannel)
    (hc : m.command = .channelsReady) :
    Handled env w (.connected (.validatingChannels chs ps)) (.received m)
      (handleEvent env (.received m) (.connected (.validatingChannels chs ps)) w) := by
  have hx : (ConnectedState.validatingChannels chs ps).handle env (.received m) w =
      ValidatingChannels.handleMessage env ps m w := rfl
  simp only [ValidatingChannels.handleMessage, hc] at hx
  by_cases hr : m.response = .accepted
  · obtain ⟨hids, happly⟩ | ⟨pre, id, post, hm, hid, happly⟩ :=
      setOwnedAll_apply m.channelsIndication w
    · simp only [hr, if_true, bind_apply, happly, onEvent_apply, pure_apply] at hx
      rw [handleEvent_operating hx]
      exact .readyAccepted hc hr hids
    · simp only [hr, if_true, bind_apply, happly] at hx
      rw [handleEvent_connected, handleConnected_error hx]
      simpa [ownedContext] using Handled.readyMissing hc hr hm hid
  · simp only [hr, if_false, bind_apply, onEvent_apply, defaultMessageHandle_apply] at hx
    rw [handleEvent_stay hx rfl]
    simpa [defaultEffect, hc] using Handled.readyRejected (w := w) hc hr

theorem handled_operating_user (e : UserEvent)
    (hs : ConnectedState.operating.serves (.user e) = true) :
    Handled env w (.connected .operating) (.user e)
      (handleEvent env (.user e) (.connected .operating) w) := by
  cases e with
  | openChannels chs =>
    rw [handleEvent_enter (n := .openingChannels chs) rfl rfl rfl]
    exact .openChannels
  | closeChannels ids =>
    rw [handleEvent_enter (n := .closingChannels ids) rfl rfl rfl]
    exact .closeChannels (.inl rfl)
  | requestControl id =>
    rw [handleEvent_enter (n := .requestingControl id) rfl rfl rfl]
    exact .requestControl
  | release =>
    rw [handleEvent_enter (n := .closingChannels w.channels.keys) rfl rfl rfl]
    exact .closeChannels (.inr ⟨rfl, rfl⟩)
  | _ => simp [ConnectedState.serves] at hs

theorem handled_operating_received (hs : ConnectedState.operating.serves (.received m) = true) :
    Handled env w (.connected .operating) (.received m)
      (handleEvent env (.received m) (.connected .operating) w) := by
  have hx : ConnectedState.operating.handle env (.received m) w =
      Operating.handleMessage env m w := rfl
  have hm : m.command = .operationUpdated ∨ m.command = .releaseControl ∨
    m.command = .release := by simpa [ConnectedState.serves] using hs
  obtain hc | hc | hc := hm
  · simp only [Operating.handleMessage, hc, bind_apply, onEvent_apply, recall_apply,
      pure_apply] at hx
    rw [handleEvent_stay hx rfl]
    exact .operationUpdated hc
  · cases hids : m.channelsIndication with
    | nil =>
      simp only [Operating.handleMessage, hc, hids, throw_apply] at hx
      rw [handleEvent_connected, handleConnected_error hx]
      exact .releaseControlEmpty hc hids
    | cons id rest =>
      simp only [Operating.handleMessage, hc, hids, pure_apply] at hx
      rw [handleEvent_enter hx rfl rfl]
      exact .releaseControl hc hids
  · exact handled_release (.inl rfl) hc

theorem start_validatingChannels (env : Environment) (chs : List ChannelResponse)
    (ps : List IChannel) (w : Context) :
    (∃ qs v, Validations w (env.batch chs) (.ok qs v) ∧ (∀ p ∈ qs, p ∈ pointers v.channels) ∧
      ConnectedState.start env (.validatingChannels chs ps) w =
        .ok (.validatingChannels chs qs, none) (v.emit
          [.sent { command := .channelsReady, channelsIndication := qs.map IChannel.id }])) ∨
    (∃ f v, Validations w (env.batch chs) (.error f v) ∧
      ConnectedState.start env (.validatingChannels chs ps) w = .error f v) ∨
    ∃ qs v p, Validations w (env.batch chs) (.ok qs v) ∧ p ∈ qs ∧ p ∉ pointers v.channels ∧
      ConnectedState.start env (.validatingChannels chs ps) w = .error (.danglingChannel p) v := by
  have hv := validateChannels_apply (env.batch chs) w
  simp only [ConnectedState.start, ValidatingChannels.start, bind_apply]
  cases happly : validateChannels (env.batch chs) w with
  | error f v =>
    rw [happly] at hv
    exact .inr (.inl ⟨f, v, hv, rfl⟩)
  | ok qs v =>
    rw [happly] at hv
    obtain ⟨hps, hids⟩ | ⟨p, hp, hnot, hids⟩ := getIds_apply qs v
    · exact .inl ⟨qs, v, hv, hps, by simp [hids]⟩
    · exact .inr (.inr ⟨qs, v, p, hv, hp, hnot, by simp [hids]⟩)

theorem handled_openingChannels (chs : List ChannelRequest) (hc : m.command = .addChannels) :
    Handled env w (.connected (.openingChannels chs)) (.received m)
      (handleEvent env (.received m) (.connected (.openingChannels chs)) w) := by
  have hx : (ConnectedState.openingChannels chs).handle env (.received m) w =
      OpeningChannels.handleMessage env m w := rfl
  simp only [OpeningChannels.handleMessage, hc] at hx
  by_cases hr : m.response = .accepted
  · simp only [hr, if_true, pure_apply] at hx
    obtain ⟨qs, v, hv, hps, hstart⟩ | ⟨f, v, hv, hstart⟩ | ⟨qs, v, p, hv, hp, hnot, hstart⟩ :=
      start_validatingChannels env m.channelsResponse [] w
    · rw [handleEvent_enter hx hstart rfl]
      exact .addAccepted hc hr hv hps
    · rw [handleEvent_connected, handleConnected_enter_error hx hstart]
      exact .addFailed hc hr hv
    · rw [handleEvent_connected, handleConnected_enter_error hx hstart]
      exact .addDangling hc hr hv hp hnot
  · simp only [hr, if_false, bind_apply, onEvent_apply, pure_apply] at hx
    rw [handleEvent_operating hx]
    exact .addRejected hc hr

theorem handled_closingChannels (ids : List ℤ)
    (hc : m.command = .removeChannels) :
    Handled env w (.connected (.closingChannels ids)) (.received m)
      (handleEvent env (.received m) (.connected (.closingChannels ids)) w) := by
  have hx : (ConnectedState.closingChannels ids).handle env (.received m) w =
      ClosingChannels.handleMessage env ids m w := rfl
  simp only [ClosingChannels.handleMessage, hc] at hx
  by_cases hr : m.response = .accepted
  · obtain ⟨ps, happly, hf⟩ | ⟨id, hm, hid, happly⟩ := getChannelsOf_apply ids w
    · obtain ⟨left, es, hcl, hclose⟩ :=
        closeChannels_apply ids (w.emit [.event (.channelsClosing ps)])
      simp only [hr, if_true, bind_apply, happly, onEvent_apply, hclose, send_apply,
        pure_apply] at hx
      rw [handleEvent_operating hx]
      simpa using Handled.removeAccepted (w := w) hc hr hf hcl
    · simp only [hr, if_true, bind_apply, happly] at hx
      rw [handleEvent_connected, handleConnected_error hx]
      exact .removeMissing hc hr hm hid
  · simp only [hr, if_false, bind_apply, onEvent_apply, pure_apply] at hx
    rw [handleEvent_operating hx]
    exact .removeRejected hc hr

theorem handled_requestingControl (id : ℤ)
    (hs : (ConnectedState.requestingControl id).serves (.received m) = true) :
    Handled env w (.connected (.requestingControl id)) (.received m)
      (handleEvent env (.received m) (.connected (.requestingControl id)) w) := by
  have hx : (ConnectedState.requestingControl id).handle env (.received m) w =
      RequestingControl.handleMessage env id m w := rfl
  have hm : m.command = .requestControl ∨ m.command = .controlReady ∧ m.response = .accepted := by
    simpa [ConnectedState.serves] using hs
  obtain hc | ⟨hc, hr⟩ := hm
  · by_cases hr : m.response = .accepted
    · simp only [RequestingControl.handleMessage, hc, hr, if_true, bind_apply, onEvent_apply,
        pure_apply] at hx
      rw [handleEvent_stay hx rfl]
      exact .requestAccepted hc hr
    · simp only [RequestingControl.handleMessage, hc, hr, if_false, bind_apply, onEvent_apply,
        pure_apply] at hx
      rw [handleEvent_operating hx]
      exact .requestRejected hc hr
  · by_cases hid : id ∈ w.channels.keys
    · simp only [RequestingControl.handleMessage, hc, hr, if_true, bind_apply, setOwned_apply, hid,
        onEvent_apply, pure_apply] at hx
      rw [handleEvent_operating hx]
      exact .handoverDone hc hr hid
    · simp only [RequestingControl.handleMessage, hc, hr, if_true, bind_apply, setOwned_apply, hid,
        if_false] at hx
      rw [handleEvent_connected, handleConnected_error hx]
      exact .handoverMissing hc hr hid

theorem handled_releasingControl (id : ℤ) (hc : m.command = .controlReleased) :
    Handled env w (.connected (.releasingControl id)) (.received m)
      (handleEvent env (.received m) (.connected (.releasingControl id)) w) := by
  have hx : (ConnectedState.releasingControl id).handle env (.received m) w =
      ReleasingControl.handleMessage env id m w := rfl
  by_cases hid : id ∈ w.channels.keys
  · simp only [ReleasingControl.handleMessage, hc, bind_apply, setOwned_apply, hid, if_true,
      onEvent_apply, send_apply, pure_apply, Context.emit_emit] at hx
    rw [handleEvent_operating hx]
    exact .controlReleased hc hid
  · simp only [ReleasingControl.handleMessage, hc, bind_apply, setOwned_apply, hid, if_false] at hx
    rw [handleEvent_connected, handleConnected_error hx]
    exact .releasedMissing hc hid

theorem handled_served (e : InputEvent) (s : ConnectedState) (hs : s.serves e = true) :
    Handled env w (.connected s) e (handleEvent env e (.connected s) w) := by
  cases e with
  | user e =>
    cases s with
    | operating => exact handled_operating_user e hs
    | requestingControl id =>
      cases e with
      | controlReady =>
        rw [handleEvent_stay rfl rfl]
        exact .controlReady
      | _ => simp [ConnectedState.serves] at hs
    | releasingControl id =>
      cases e with
      | releaseAccepted data =>
        rw [handleEvent_stay rfl rfl]
        exact .releaseAccepted
      | releaseRejected text =>
        rw [handleEvent_operating rfl]
        exact .releaseRejected
      | _ => simp [ConnectedState.serves] at hs
    | _ => simp [ConnectedState.serves] at hs
  | connection e =>
    cases e with
    | received m =>
      cases s with
      | validatingChannels chs ps =>
        exact handled_validatingChannels chs ps (by simpa [ConnectedState.serves] using hs)
      | operating => exact handled_operating_received hs
      | openingChannels chs =>
        exact handled_openingChannels chs (by simpa [ConnectedState.serves] using hs)
      | closingChannels ids =>
        have hm : m.command = .removeChannels ∨ m.command = .release := by
          simpa [ConnectedState.serves] using hs
        obtain hc | hc := hm
        · exact handled_closingChannels ids hc
        · exact handled_release (.inr ⟨ids, rfl⟩) hc
      | requestingControl id => exact handled_requestingControl id hs
      | releasingControl id =>
        exact handled_releasingControl id (by simpa [ConnectedState.serves] using hs)
      | _ => simp [ConnectedState.serves] at hs
    | lost =>
      cases s with
      | operating =>
        rw [handleEvent_enter (n := .recovering) rfl rfl rfl]
        exact .connectionLost
      | _ => simp [ConnectedState.serves] at hs
    | _ => cases s <;> simp [ConnectedState.serves] at hs

theorem handled_connected (e : InputEvent) (s : ConnectedState) (hr : s ≠ .released) :
    Handled env w (.connected s) e (handleEvent env e (.connected s) w) := by
  have ho : s.createOuterState = none := by cases s <;> first | rfl | exact absurd rfl hr
  cases hs : s.serves e with
  | false =>
    by_cases he : s ≠ .recovering ∧ ∃ m, e = .received m
    · obtain ⟨hrec, m, rfl⟩ := he
      rw [handleEvent_stay (handle_received_unserved hr hrec hs w) ho]
      exact .defaulted hs (by cases s <;> first | rfl | contradiction)
    · have he' : s = .recovering ∨ ∀ m, e ≠ .received m := by
        simpa [or_iff_not_imp_left] using he
      rw [handleEvent_stay (handle_unserved hr hs he' w) ho]
      refine .unexpected hs fun m hm => ?_
      obtain rfl | hnot := he'
      · rfl
      · exact absurd hm (hnot m)
  | true => exact handled_served e s hs

theorem handled_disconnected (e : InputEvent) :
    Handled env w .disconnected e (handleEvent env e .disconnected w) := by
  cases e with
  | user e =>
    cases e with
    | operate d chs =>
      have hx : handleEvent env (.user (.operate d chs)) .disconnected w =
        transitions (State.start env) loopFuel .disconnected (some (.connecting d chs)) w := rfl
      cases ho : env.operate d with
      | error what =>
        rw [hx]
        simpa [loopFuel, transitions_some, State.start, Connecting.start, bind_apply, map_apply,
          tryCatch_apply, ho, outcome] using Handled.operateRefused (w := w) ho
      | ok response =>
        obtain ⟨hf, hopen⟩ | ⟨what, hf, hopen⟩ := openFacadeConnection_apply env response w
        · rw [hx]
          simpa [loopFuel, transitions_some, State.start, Connecting.start, bind_apply, map_apply,
            tryCatch_apply, ho, outcome, hopen] using Handled.operateStarted ho hf
        · rw [hx]
          simpa [loopFuel, transitions_some, State.start, Connecting.start, bind_apply, map_apply,
            tryCatch_apply, ho, outcome, hopen] using Handled.dialFailed ho hf
    | _ => exact .unexpected rfl fun _ _ => rfl
  | connection e => exact .unexpected rfl fun _ _ => rfl

theorem handled_connecting (d : ℤ) (chs : List ChannelRequest) (e : InputEvent) :
    Handled env w (.connecting d chs) e (handleEvent env e (.connecting d chs) w) := by
  cases e with
  | user e => exact .unexpected rfl (by simp)
  | connection e =>
    cases e with
    | received m =>
      have hx : handleEvent env (.received m) (.connecting d chs) w = (do
          transitions (State.start env) loopFuel (.connecting d chs)
            (← Connecting.handleMessage env m)) w := by
        simp [handleEvent, IState.process, IState.handleEvent, State.interface,
          State.handleConnectionEvent, handleReceived]
      rw [hx, bind_apply]
      by_cases hc : m.command = .setup
      · by_cases hr : m.response = .accepted
        · simp only [Connecting.handleMessage, hc, hr, if_true, pure_apply, loopFuel,
            transitions_some, State.start, Connected.start, bind_pure_comp, map_apply, bind_apply]
          obtain ⟨qs, v, hv, hps, hstart⟩ | ⟨f, v, hv, hstart⟩ |
            ⟨qs, v, p, hv, hp, hnot, hstart⟩ :=
              start_validatingChannels env m.channelsResponse [] w
          · simpa [hstart] using Handled.setupAccepted hc hr hv hps
          · simpa [hstart] using Handled.setupFailed hc hr hv
          · simpa [hstart] using Handled.setupDangling hc hr hv hp hnot
        · simp only [Connecting.handleMessage, hc, hr, if_false, bind_apply, onEvent_apply,
            pure_apply]
          exact .setupRejected hc hr (transitions_disconnecting env _ _)
      · simp only [Connecting.handleMessage, defaultMessageHandle_apply, transitions_none,
          pure_apply]
        exact .defaulted (by simpa [State.serves] using hc) rfl
    | _ => exact .unexpected rfl (by simp)

theorem handled (env : Environment) (e : InputEvent) (s : State) (hs : s.rests = true)
    (w : Context) : Handled env w s e (handleEvent env e s w) := by
  cases s with
  | disconnected => exact handled_disconnected e
  | connecting d chs => exact handled_connecting d chs e
  | connected s => exact handled_connected e s (by rintro rfl; simp [State.rests] at hs)
  | disconnecting => simp [State.rests] at hs

/-! ### Steps of the client -/

theorem acts_ownedContext (w : Context) (ids : List ℤ) : Acts w (ownedContext w ids) :=
  (Acts.setOwnedAll .refl ids).emit (by simp [Effect.isPlain])

theorem acts_releaseContext (w : Context) : Acts w (releaseContext w) := by
  rw [releaseContext, ← Context.emit_emit]
  exact (Acts.announceCloseAll .refl _).emit rfl

theorem Handled.acts {s : State} {e : InputEvent} {r : EStateM.Result Fault Context State}
    (h : Handled env w s e r) : Acts w (contextOf r) := by
  have hw : Acts w w := .refl
  cases h with
  | unexpected hs => exact hw.emit rfl
  | defaulted hs => exact hw.emit (by simp)
  | operateRefused ho => exact hw.emit rfl
  | dialFailed ho hf => exact hw.emit rfl
  | operateStarted ho hf => exact (hw.withReader true).emit rfl
  | setupAccepted hc hr hv hps => exact (hw.validations hv).emit rfl
  | setupFailed hc hr hv => exact hw.validations hv
  | setupDangling hc hr hv hp hnot => exact hw.validations hv
  | setupRejected hc hr hd => exact .disconnects hd (hw.emit rfl)
  | readyAccepted hc hr hids => exact (acts_ownedContext w _).emit_recalled rfl
  | readyMissing hc hr hm hid => exact (acts_ownedContext w _).emit rfl
  | readyRejected hc hr => exact hw.emit rfl
  | openChannels => exact hw.emit rfl
  | closeChannels he => exact hw.emit rfl
  | requestControl => exact hw.emit rfl
  | connectionLost => exact hw
  | operationUpdated hc => exact hw.emit_recalled rfl
  | releaseControl hc hm => exact hw.emit rfl
  | releaseControlEmpty hc hm => exact hw
  | release hs hc hd => exact .disconnects hd (acts_releaseContext w)
  | addAccepted hc hr hv hps => exact (hw.validations hv).emit rfl
  | addFailed hc hr hv => exact hw.validations hv
  | addDangling hc hr hv hp hnot => exact hw.validations hv
  | addRejected hc hr => exact hw.emit_recalled rfl
  | removeAccepted hc hr hf hcl =>
    rw [← Context.emit_emit]
    exact (hw.announceCloses _ hcl).emit_recalled rfl
  | removeMissing hc hr hm hid => exact hw
  | removeRejected hc hr => exact hw.emit_recalled rfl
  | controlReady => exact hw.emit rfl
  | requestAccepted hc hr => exact hw.emit rfl
  | requestRejected hc hr => exact hw.emit_recalled rfl
  | handoverDone hc hr hid => exact (hw.setOwned _ true).emit_recalled rfl
  | handoverMissing hc hr hid => exact hw
  | releaseAccepted => exact hw.emit rfl
  | releaseRejected => exact hw.emit_recalled rfl
  | controlReleased hc hid => exact (hw.setOwned _ false).emit_recalled rfl
  | releasedMissing hc hid => exact hw

@[simp] theorem seen_ownedContext {β : Type} (o : Observer β) (w : Context) (ids : List ℤ) :
    o (ownedContext w ids) = o w := by
  simp [ownedContext, o.see_channel (ownedLines_channel ids)]

@[simp] theorem seen_releaseContext {β : Type} (o : Observer β) (w : Context) :
    o (releaseContext w) = o w ++ ((o.event (.channelsClosing (pointers w.channels))).toList ++
      (o.message { command := .release, response := some .accepted }).toList) := by
  simp [releaseContext, o.see_channel (closeAllEffects_channel w.channels)]

theorem Handled.rests {s t : State} {e : InputEvent} {v : Context} (h : Handled env w s e (.ok t v))
    (hs : s.rests = true) : t.rests = true := by
  cases h with
  | unexpected | defaulted => exact hs
  | setupRejected hc hr hd | release hs hc hd =>
    cases hd
    rfl
  | _ => rfl

end

section
variable {c d : Client State} {a : Handling}

theorem reachable_rests (hc : client.Reachable c) : c.state.rests = true := by
  refine hc.invariant (P := fun c => c.state.rests = true) ?_ ?_
  · intro s hs
    cases hs
    rfl
  · intro s a t _ hs hstep
    have hh := handled a.environment a.event s.state hs s.context
    rw [Client.step_eq_some.mp hstep] at hh
    exact hh.rests hs

theorem step_handled (hc : client.Reachable c) (hs : client.step c a d) :
    Handled a.environment c.context c.state a.event (.ok d.state d.context) := by
  rw [← Client.step_eq_some.mp hs]
  exact handled a.environment a.event c.state (reachable_rests hc) c.context

/-- What every handled event keeps holds of every reachable client. -/
theorem reachable_invariant {P : State → Context → Prop} (hc : client.Reachable c)
    (hinit : P .disconnected .initial)
    (hkeep : ∀ {env s t e w v}, Handled env w s e (.ok t v) → P s w → P t v) :
    P c.state c.context := by
  refine hc.invariant (P := fun c => P c.state c.context) ?_ ?_
  · rintro _ rfl
    exact hinit
  · intro s a t hreach hs ht
    exact hkeep (step_handled hreach ht) hs

theorem reachable_context {P : Context → Prop} (hc : client.Reachable c)
    (hinit : P .initial) (hstep : ∀ w v, Act w v → P w → P v) : P c.context :=
  reachable_invariant (P := fun _ w => P w) hc hinit fun h hw => h.acts.invariant hstep hw

end

end FmClient.Pilot
