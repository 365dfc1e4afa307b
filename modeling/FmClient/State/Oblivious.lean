import FmClient.Backend.Oblivious
import FmClient.State.DeviceSpec
import FmClient.State.PilotSpec

/-! No state looks at what has been done before, so that `handleEvent` does the same with
another past. -/
namespace FmClient
open Lib Handler ChannelsHandler

theorem recall_oblivious : Oblivious «recall» := by
  refine .get_bind fun w past => ?_
  rw [Context.after_deferred]
  cases w.deferred with
  | nil => rfl
  | cons event rest => simp [bind_apply, Context.after, Context.emit]

section
variable {σ : Type} (env : Environment) (state : String)

theorem openFacadeConnection_oblivious (response : AttachResponse) :
    Oblivious (openFacadeConnection env response) :=
  .bind (.emit _) fun _ => .bind (.outcome _) fun _ => .modify fun w past => by simp

theorem closeFacadeConnection_oblivious : Oblivious (closeFacadeConnection env) :=
  .bind (.modify fun w past => by simp) fun _ => .bind (.emit _) fun _ => .outcome _

theorem defaultEventHandle_oblivious (event : InputEvent) :
    Oblivious (defaultEventHandle event state : Handler (Option σ)) :=
  .bind (.log _) fun _ => .pure none

theorem defaultMessageHandle_oblivious (message : ControlMessage) :
    Oblivious (defaultMessageHandle env message state : Handler (Option σ)) := by
  unfold defaultMessageHandle
  split
  · exact .bind (.send _) fun _ => .pure none
  · exact .bind (.log _) fun _ => .pure none

theorem rejectUserEvent_oblivious (event : UserEvent) :
    Oblivious (rejectUserEvent event state : Handler (Option σ)) :=
  defaultEventHandle_oblivious state (.user event)

theorem handleReceived_oblivious {handleMessage : ControlMessage → Handler (Option σ)}
    (h : ∀ m, Oblivious (handleMessage m)) (event : ConnectionEvent) :
    Oblivious (handleReceived handleMessage event state) := by
  unfold handleReceived
  split
  · exact h _
  · exact defaultEventHandle_oblivious state (.connection event)

theorem transitions_oblivious {start : σ → Handler (σ × Option σ)}
    (h : ∀ s, Oblivious (start s)) (fuel : ℕ) (s : σ) (next : Option σ) :
    Oblivious (transitions start fuel s next) := by
  induction fuel generalizing s next with
  | zero =>
    cases next with
    | none => exact .pure s
    | some n => exact .throw .outOfFuel
  | succ fuel ih =>
    cases next with
    | none => exact .pure s
    | some n => exact .bind (h n) fun r => ih r.1 r.2

end

/-! ### The outer states -/

namespace Layers
variable {σ δ κ : Type} {L : Layers σ δ κ} {env : Environment} {e : InputEvent}

theorem connect_oblivious (request : δ) : Oblivious (L.connect env request) := by
  refine .tryCatch ?_ fun e => ?_
  · exact .bind (.outcome _) fun response =>
      .bind (openFacadeConnection_oblivious env response) fun _ =>
        .bind (.send _) fun _ => .pure none
  · cases e with
    | thrown what => exact .bind (.log _) fun _ => .bind (.onEvent _) fun _ => .pure _
    | _ => exact .throw _

theorem disconnect_oblivious : Oblivious (L.disconnect env) :=
  .bind (closeFacadeConnection_oblivious env) fun _ => .bind (.onEvent _) fun _ => .pure _

theorem start_oblivious (hstart : ∀ s, Oblivious (L.connectedStart env s)) (s : Outer δ κ) :
    Oblivious (L.start env s) := by
  cases s with
  | disconnected => exact .pure _
  | connecting request => exact .bind (connect_oblivious request) fun _ => .pure _
  | connected s =>
    have henter : Oblivious (L.enter env s) :=
      .bind (hstart s) fun _ => .bind (.onEvent _) fun _ => .pure _
    exact henter.bind fun _ => .pure _
  | disconnecting => exact disconnect_oblivious.bind fun _ => .pure _

theorem request_oblivious : Oblivious (L.request e) := by
  obtain e | e := e
  · simp only [request]
    split
    · exact .pure _
    · exact defaultEventHandle_oblivious "Disconnected" _
  · exact defaultEventHandle_oblivious "Disconnected" _

theorem handleSetup_oblivious (m : ControlMessage) : Oblivious (L.handleSetup env m) := by
  unfold handleSetup
  split
  · exact .ite (.pure _) (.bind (.onEvent _) fun _ => .pure _)
  · exact defaultMessageHandle_oblivious env "Connecting" m

theorem await_oblivious : Oblivious (L.await env e) := by
  obtain e | e := e
  · exact rejectUserEvent_oblivious "Connecting" e
  · exact handleReceived_oblivious "Connecting" handleSetup_oblivious e

theorem handleEvent_oblivious (hstart : ∀ s, Oblivious (L.connectedStart env s))
    (hhandle : ∀ s, Oblivious (L.handle env e s)) (fuel : ℕ) (s : Outer δ κ) :
    Oblivious (L.handleEvent fuel env e s) := by
  cases s with
  | disconnected => exact request_oblivious.bind fun _ => .pure _
  | connecting request => exact await_oblivious.bind fun _ => .pure _
  | connected s =>
    have hnew (next : Option κ) : Oblivious (L.onNewState fuel env s next) :=
      .bind (transitions_oblivious hstart fuel s next) fun _ => .pure _
    exact (hhandle s).bind hnew
  | disconnecting => exact (defaultEventHandle_oblivious _ e).bind fun _ => .pure _

/-- It is enough that the connected states do not look. -/
theorem Describes.process_oblivious {I : ℕ → IState σ} (h : L.Describes I)
    (hstart : ∀ s, Oblivious (L.connectedStart env s))
    (hhandle : ∀ s, Oblivious (L.handle env e s)) (fuel : ℕ) (s : σ) :
    Oblivious ((I fuel).process fuel env e s) := by
  have hevent : Oblivious ((I fuel).handleEvent env e s) := by
    rw [← L.state.apply_symm_apply s, h.handleEvent]
    exact handleEvent_oblivious hstart hhandle fuel _
  refine hevent.bind fun r => transitions_oblivious (fun n => ?_) fuel r.1 r.2
  rw [h.start_eq]
  exact start_oblivious hstart _

end Layers

/-! ### The device -/

namespace Device
variable (env : Environment)

theorem attachChannels_oblivious (chs : List ChannelResponse) :
    Oblivious (Flying.attachChannels env chs) :=
  .bind (validateChannels_oblivious _) fun result => .bind (.onEvent _) fun _ =>
    .bind (getIds_oblivious result) fun _ => .send _

theorem releaseChannels_oblivious (ids : List ℤ) : Oblivious (Flying.releaseChannels ids) :=
  .bind (getChannelsOf_oblivious ids) fun _ => .bind (.onEvent _) fun _ =>
    .bind (closeChannels_oblivious ids) fun _ => .send _

theorem ready_message_oblivious (m : ControlMessage) : Oblivious (Ready.handleMessage env m) := by
  unfold Ready.handleMessage
  split
  · exact .pure _
  · exact defaultMessageHandle_oblivious env "Ready" m

theorem flying_message_oblivious (m : ControlMessage) : Oblivious (Flying.handleMessage env m) := by
  unfold Flying.handleMessage
  split
  · exact .bind (attachChannels_oblivious env _) fun _ => .pure none
  · exact .bind (releaseChannels_oblivious _) fun _ => .pure none
  · exact .bind getChannels_oblivious fun _ => .bind (.onEvent _) fun _ =>
      .bind closeAllChannels_oblivious fun _ => .bind (.onEvent _) fun _ =>
        .bind (.send _) fun _ => .pure _
  · exact defaultMessageHandle_oblivious env "Flying" m

theorem releasing_message_oblivious (m : ControlMessage) :
    Oblivious (Releasing.handleMessage env m) := by
  unfold Releasing.handleMessage
  split
  · exact .ite (.pure _) (defaultMessageHandle_oblivious env "Releasing" m)
  · exact defaultMessageHandle_oblivious env "Releasing" m

theorem connectedState_start_oblivious (s : ConnectedState) : Oblivious (s.start env) := by
  cases s with
  | ready | released => exact .pure _
  | flying chs => exact .bind (attachChannels_oblivious env chs) fun _ => .pure _
  | releasing => exact .bind (.send _) fun _ => .pure _

theorem connectedState_user_oblivious (e : UserEvent) (s : ConnectedState) :
    Oblivious (s.handleUserEvent e) := by
  cases s with
  | ready =>
    cases e with
    | release => exact .pure _
    | _ => exact defaultEventHandle_oblivious "Ready" _
  | _ => exact rejectUserEvent_oblivious _ e

theorem connectedState_connection_oblivious (e : ConnectionEvent) (s : ConnectedState) :
    Oblivious (s.handleConnectionEvent env e) := by
  cases s with
  | ready => exact handleReceived_oblivious _ (ready_message_oblivious env) e
  | flying chs => exact handleReceived_oblivious _ (flying_message_oblivious env) e
  | releasing => exact handleReceived_oblivious _ (releasing_message_oblivious env) e
  | released => exact handleReceived_oblivious _ (defaultMessageHandle_oblivious env _) e

theorem handleEvent_oblivious (e : InputEvent) (s : State) : Oblivious (handleEvent env e s) := by
  refine layers_describe.process_oblivious (connectedState_start_oblivious env) ?_ loopFuel s
  intro s
  cases e with
  | user e => exact connectedState_user_oblivious e s
  | connection e => exact connectedState_connection_oblivious env e s

end Device

/-! ### The pilot -/

namespace Pilot
variable (env : Environment)

theorem acceptRelease_oblivious : Oblivious acceptRelease :=
  .bind getChannels_oblivious fun _ => .bind (.onEvent _) fun _ =>
    .bind closeAllChannels_oblivious fun _ => .bind (.send _) fun _ => .pure _

theorem validating_message_oblivious (ps : List IChannel) (m : ControlMessage) :
    Oblivious (ValidatingChannels.handleMessage env ps m) := by
  unfold ValidatingChannels.handleMessage
  split
  · refine .ite ?_ ?_
    · exact .bind (setOwnedAll_oblivious _) fun _ => .bind (.onEvent _) fun _ => .pure _
    · exact .bind (.onEvent _) fun _ => defaultMessageHandle_oblivious env "ValidatingChannels" m
  · exact defaultMessageHandle_oblivious env "ValidatingChannels" m

theorem operating_user_oblivious (e : UserEvent) : Oblivious (Operating.handleUserEvent e) := by
  cases e with
  | openChannels | closeChannels | requestControl => exact .pure _
  | release => exact .bind getChannelsIds_oblivious fun _ => .pure _
  | _ => exact defaultEventHandle_oblivious "Operating" _

theorem operating_message_oblivious (m : ControlMessage) :
    Oblivious (Operating.handleMessage env m) := by
  unfold Operating.handleMessage
  split
  · exact .bind (.onEvent _) fun _ => .bind recall_oblivious fun _ => .pure none
  · split
    · exact .pure _
    · exact .throw _
  · exact acceptRelease_oblivious
  · exact defaultMessageHandle_oblivious env "Operating" m

theorem opening_message_oblivious (m : ControlMessage) :
    Oblivious (OpeningChannels.handleMessage env m) := by
  unfold OpeningChannels.handleMessage
  split
  · exact .ite (.pure _) (.bind (.onEvent _) fun _ => .pure _)
  · exact defaultMessageHandle_oblivious env "OpeningChannels" m

theorem closing_message_oblivious (ids : List ℤ) (m : ControlMessage) :
    Oblivious (ClosingChannels.handleMessage env ids m) := by
  unfold ClosingChannels.handleMessage
  split
  · refine .ite ?_ (.bind (.onEvent _) fun _ => .pure _)
    exact .bind (getChannelsOf_oblivious ids) fun _ => .bind (.onEvent _) fun _ =>
      .bind (closeChannels_oblivious ids) fun _ => .bind (.send _) fun _ => .pure _
  · exact acceptRelease_oblivious
  · exact defaultMessageHandle_oblivious env "ClosingChannels" m

theorem requesting_user_oblivious (e : UserEvent) :
    Oblivious (RequestingControl.handleUserEvent e) := by
  cases e with
  | controlReady => exact .bind (.send _) fun _ => .pure none
  | _ => exact defaultEventHandle_oblivious "RequestingControl" _

theorem requesting_message_oblivious (id : ℤ) (m : ControlMessage) :
    Oblivious (RequestingControl.handleMessage env id m) := by
  unfold RequestingControl.handleMessage
  split
  · exact .ite (.bind (.onEvent _) fun _ => .pure none) (.bind (.onEvent _) fun _ => .pure _)
  · refine .ite ?_ (defaultMessageHandle_oblivious env "RequestingControl" m)
    exact .bind (setOwned_oblivious id true) fun _ => .bind (.onEvent _) fun _ => .pure _
  · exact defaultMessageHandle_oblivious env "RequestingControl" m

theorem releasing_user_oblivious (e : UserEvent) :
    Oblivious (ReleasingControl.handleUserEvent e) := by
  cases e with
  | releaseAccepted | releaseRejected => exact .bind (.send _) fun _ => .pure _
  | _ => exact defaultEventHandle_oblivious "ReleasingControl" _

theorem releasing_message_oblivious (id : ℤ) (m : ControlMessage) :
    Oblivious (ReleasingControl.handleMessage env id m) := by
  unfold ReleasingControl.handleMessage
  split
  · exact .bind (setOwned_oblivious id false) fun _ => .bind (.onEvent _) fun _ =>
      .bind (.send _) fun _ => .pure _
  · exact defaultMessageHandle_oblivious env "ReleasingControl" m

theorem connectedState_start_oblivious (s : ConnectedState) : Oblivious (s.start env) := by
  cases s with
  | validatingChannels chs ps =>
    have hstart : Oblivious (ValidatingChannels.start env chs) :=
      .bind (validateChannels_oblivious _) fun ps => .bind (getIds_oblivious ps) fun _ =>
        .bind (.send _) fun _ => .pure ps
    exact hstart.bind fun _ => .pure _
  | operating => exact .bind recall_oblivious fun _ => .pure _
  | openingChannels | closingChannels | requestingControl =>
    exact .bind (.send _) fun _ => .pure _
  | releasingControl => exact .bind (.onEvent _) fun _ => .pure _
  | recovering | released => exact .pure _

theorem connectedState_user_oblivious (e : UserEvent) (s : ConnectedState) :
    Oblivious (s.handleUserEvent e) := by
  cases s with
  | operating => exact operating_user_oblivious e
  | requestingControl => exact requesting_user_oblivious e
  | releasingControl => exact releasing_user_oblivious e
  | _ => exact rejectUserEvent_oblivious _ e

theorem connectedState_connection_oblivious (e : ConnectionEvent) (s : ConnectedState) :
    Oblivious (s.handleConnectionEvent env e) := by
  cases s with
  | validatingChannels chs ps =>
    exact handleReceived_oblivious _ (validating_message_oblivious env ps) e
  | operating =>
    cases e with
    | received m => exact operating_message_oblivious env m
    | lost => exact .pure _
    | _ => exact defaultEventHandle_oblivious "Operating" _
  | openingChannels => exact handleReceived_oblivious _ (opening_message_oblivious env) e
  | closingChannels ids => exact handleReceived_oblivious _ (closing_message_oblivious env ids) e
  | requestingControl id =>
    exact handleReceived_oblivious _ (requesting_message_oblivious env id) e
  | releasingControl id => exact handleReceived_oblivious _ (releasing_message_oblivious env id) e
  | recovering | released => exact defaultEventHandle_oblivious _ (.connection e)

theorem handleEvent_oblivious (e : InputEvent) (s : State) : Oblivious (handleEvent env e s) := by
  refine layers_describe.process_oblivious (connectedState_start_oblivious env) ?_ loopFuel s
  intro s
  cases e with
  | user e => exact connectedState_user_oblivious e s
  | connection e => exact connectedState_connection_oblivious env e s

end Pilot
end FmClient
