import FmClient.State.Device
import FmClient.State.Layers

/-! What the device does with one event, from any state in which its machine rests:
one constructor of `Handled` for each way in which `handleEvent` can end. -/
namespace FmClient.Device
open Lib Handler ChannelsHandler

/-- A state the machine can be left in, unlike those that `start` or `createOuterState`
leaves at once. -/
def State.rests : State → Bool
  | .connected .released | .disconnecting => false
  | _ => true

def ConnectedState.serves : ConnectedState → InputEvent → Bool
  | .ready, .user .release => true
  | .ready, .connection (.received m) => m.command = .attachChannels
  | .flying _, .connection (.received m) =>
    m.command = .attachChannels ∨ m.command = .releaseChannels ∨ m.command = .operationEnded
  | .releasing, .connection (.received m) => m.command = .release ∧ m.response = .accepted
  | _, _ => false

def State.serves : State → InputEvent → Bool
  | .disconnected, .user .attach => true
  | .connecting, .connection (.received m) => m.command = .setup
  | .connected s, e => s.serves e
  | _, _ => false

def State.isOpen : State → Bool
  | .connecting | .connected _ => true
  | _ => false

def ConnectedState.name : ConnectedState → String
  | .ready => "Ready"
  | .flying _ => "Flying"
  | .releasing => "Releasing"
  | .released => "Released"

def State.name : State → String
  | .disconnected => "Disconnected"
  | .connecting => "Connecting"
  | .connected s => s.name
  | .disconnecting => "Disconnecting"

/-! ### The two layers -/

def ConnectedState.handle (env : Environment) (s : ConnectedState) : InputEvent → Next
  | .user event => s.handleUserEvent event
  | .connection event => s.handleConnectionEvent env event

def State.outer : State → Outer Unit ConnectedState
  | .disconnected => .disconnected
  | .connecting => .connecting ()
  | .connected internalState => .connected internalState
  | .disconnecting => .disconnecting

def layers : Layers State Unit ConnectedState where
  state := {
    toFun := fun
      | .disconnected => .disconnected
      | .connecting _ => .connecting
      | .connected internalState => .connected internalState
      | .disconnecting => .disconnecting
    invFun := State.outer
    left_inv := fun s => by cases s <;> rfl
    right_inv := fun s => by cases s <;> rfl }
  begins
    | .attach => some ()
    | _ => none
  answer env _ := env.attach
  setup _ response := { command := .setup, attachKey := some response.key }
  failure what := .error ("Attach: " ++ what)
  accepted _ := .ready
  begun := .attached
  connectedStart := ConnectedState.start
  handle env e s := s.handle env e
  createOuterState := ConnectedState.createOuterState

theorem layers_describe : layers.Describes State.interface where
  start fuel env s := by cases s <;> rfl
  handleEvent fuel env e s := by
    obtain e | e := e
    · cases s with
      | disconnected => cases e <;> rfl
      | _ => rfl
    · cases s <;> rfl
  once env n t next w v h := by
    cases n with
    | ready | released =>
      cases h
      rfl
    | _ =>
      simp only [layers, ConnectedState.start, bind_pure_comp, map_eq_ok, Prod.mk.injEq] at h
      obtain ⟨_, _, _, rfl⟩ := h
      rfl
  outer s next h := by
    cases s <;> cases h
    rfl

section
variable {env : Environment} {e : InputEvent} {s n t : ConnectedState} {w v u : Context}

theorem handleEvent_connected (env : Environment) (e : InputEvent) (s : ConnectedState)
    (w : Context) : handleEvent env e (.connected s) w =
      handleConnected .connected (ConnectedState.start env) (State.start env)
        ConnectedState.createOuterState s (s.handle env e) w := by
  cases e <;>
    simp [handleEvent, IState.process, IState.handleEvent, State.interface, State.handleUserEvent,
      State.handleConnectionEvent, Connected.handleUserEvent, Connected.handleConnectionEvent,
      Connected.onNewState, ConnectedState.handle, handleConnected]

theorem handleEvent_stay (hx : s.handle env e w = .ok none v) (hs : s.createOuterState = none) :
    handleEvent env e (.connected s) w = .ok (.connected s) v :=
  (handleEvent_connected env e s w).trans (handleConnected_stay hx hs)

theorem handleEvent_enter (hx : s.handle env e w = .ok (some n) v)
    (hn : n.start env v = .ok (t, none) u) (ht : t.createOuterState = none) :
    handleEvent env e (.connected s) w = .ok (.connected t) u :=
  (handleEvent_connected env e s w).trans (handleConnected_enter hx hn ht)

theorem transitions_disconnecting (env : Environment) (s : State) (w : Context) :
    Disconnects env .disconnected w
      (transitions (State.start env) loopFuel s (some .disconnecting) w) :=
  transitions_disconnects (by simp [State.start, Disconnecting.start]) rfl s w

theorem handleEvent_released (hx : s.handle env e w = .ok (some .released) v) :
    Disconnects env .disconnected v (handleEvent env e (.connected s) w) := by
  have hstart : ConnectedState.start env .released v = .ok (.released, none) v := rfl
  have houter : ConnectedState.createOuterState .released = some .disconnecting := rfl
  rw [handleEvent_connected, handleConnected_leave hx hstart houter]
  exact transitions_disconnecting env (.connected .released) v

end

/-! ### Every way to end -/

def endedContext (w : Context) : Context :=
  (w.withChannels .empty).emit
    (.event (.channelsClosing (pointers w.channels)) ::
      closeAllEffects w.channels ++
        [.event .operationEnded, .sent { command := .operationEnded, response := some .accepted }])

inductive Handled (env : Environment) (w : Context) :
    State → InputEvent → EStateM.Result Fault Context State → Prop where
  | unexpected {s : State} {e : InputEvent} (hs : s.serves e = false)
      (hm : ∀ m, e = .received m → s.isOpen = false) :
      Handled env w s e (.ok s (w.emit [.logged (.unexpectedEvent e s.name)]))
  | defaulted {s : State} {m : ControlMessage} (hs : s.serves (.received m) = false)
      (ho : s.isOpen = true) :
      Handled env w s (.received m) (.ok s (w.emit [defaultEffect env m s.name]))
  -- Disconnected
  | attachRefused {what : String} (ha : env.attach = .error what) :
      Handled env w .disconnected (.user .attach) (.ok .disconnected
        (w.emit [.logged (.error ("Attach: " ++ what)), .event (.error none)]))
  | dialFailed {response : AttachResponse} {what : String}
      (ha : env.attach = .ok response) (hf : env.openFacade = .error what) :
      Handled env w .disconnected (.user .attach) (.ok .disconnected (w.emit
        [.dialed response.host (env.port response), .logged (.error ("Attach: " ++ what)),
          .event (.error none)]))
  | attachStarted {response : AttachResponse} (ha : env.attach = .ok response)
      (hf : env.openFacade = .ok ()) :
      Handled env w .disconnected (.user .attach) (.ok .connecting ((w.withReader true).emit
        [.dialed response.host (env.port response),
          .sent { command := .setup, attachKey := some response.key }]))
  -- Connecting
  | setupAccepted {m : ControlMessage} (hc : m.command = .setup) (hr : m.response = .accepted) :
      Handled env w .connecting (.received m)
        (.ok (.connected .ready) (w.emit [.event .attached]))
  | setupRejected {m : ControlMessage} {r : EStateM.Result Fault Context State}
      (hc : m.command = .setup) (hr : m.response ≠ .accepted)
      (hd : Disconnects env .disconnected (w.emit [.event (.error (some m.message))]) r) :
      Handled env w .connecting (.received m) r
  -- Ready
  | release : Handled env w (.connected .ready) (.user .release)
      (.ok (.connected .releasing) (w.emit [.sent { command := .release }]))
  /-- In Ready the channels become those of the new operation. -/
  | attached {s : ConnectedState} {initialChannels : List ChannelResponse} {m : ControlMessage}
      {v : Context} {ps : List IChannel}
      (hs : s = .ready ∧ initialChannels = m.channelsResponse ∨ s = .flying initialChannels)
      (hc : m.command = .attachChannels)
      (hv : Validations w (env.batch m.channelsResponse) (.ok ps v))
      (hps : ∀ p ∈ ps, p ∈ pointers v.channels) :
      Handled env w (.connected s) (.received m)
        (.ok (.connected (.flying initialChannels)) (v.emit
          [.event (.channelsOpened ps), .sent { command := .attachChannels
                                                response := some .accepted
                                                channelsIndication := ps.map IChannel.id }]))
  | attachFailed {s : ConnectedState} {m : ControlMessage} {v : Context} {f : Fault}
      (hs : s = .ready ∨ ∃ initialChannels, s = .flying initialChannels)
      (hc : m.command = .attachChannels)
      (hv : Validations w (env.batch m.channelsResponse) (.error f v)) :
      Handled env w (.connected s) (.received m) (.error f v)
  /-- A channel accepted and then rejected in one batch. -/
  | attachDangling {s : ConnectedState} {m : ControlMessage} {v : Context} {ps : List IChannel}
      {p : IChannel} (hs : s = .ready ∨ ∃ initialChannels, s = .flying initialChannels)
      (hc : m.command = .attachChannels)
      (hv : Validations w (env.batch m.channelsResponse) (.ok ps v)) (hp : p ∈ ps)
      (hnot : p ∉ pointers v.channels) :
      Handled env w (.connected s) (.received m)
        (.error (.danglingChannel p) (v.emit [.event (.channelsOpened ps)]))
  -- Flying
  | releaseChannels {initialChannels : List ChannelResponse} {m : ControlMessage}
      {ps : List IChannel} {left : Channels} {es : List Effect} (hc : m.command = .releaseChannels)
      (hf : Finds w.channels m.channelsIndication ps)
      (hcl : Closes w.channels m.channelsIndication left es) :
      Handled env w (.connected (.flying initialChannels)) (.received m)
        (.ok (.connected (.flying initialChannels)) ((w.withChannels left).emit
          (.event (.channelsClosing ps) :: es ++
            [.sent { command := .releaseChannels, response := some .accepted
                     channelsIndication := m.channelsIndication }])))
  | releaseMissing {initialChannels : List ChannelResponse} {m : ControlMessage} {id : ℤ}
      (hc : m.command = .releaseChannels) (hm : id ∈ m.channelsIndication)
      (hid : id ∉ w.channels.keys) :
      Handled env w (.connected (.flying initialChannels)) (.received m)
        (.error (.missingChannel id) w)
  | operationEnded {initialChannels : List ChannelResponse} {m : ControlMessage}
      (hc : m.command = .operationEnded) :
      Handled env w (.connected (.flying initialChannels)) (.received m)
        (.ok (.connected .ready) (endedContext w))
  -- Releasing
  | released {m : ControlMessage} {r : EStateM.Result Fault Context State}
      (hc : m.command = .release) (hr : m.response = .accepted)
      (hd : Disconnects env .disconnected w r) :
      Handled env w (.connected .releasing) (.received m) r

section
variable {env : Environment} {s : ConnectedState} {e : InputEvent} {m : ControlMessage}
  {w : Context}

theorem handle_received_unserved (hr : s ≠ .released) (hs : s.serves (.received m) = false)
    (w : Context) :
    s.handle env (.received m) w = .ok none (w.emit [defaultEffect env m s.name]) := by
  rw [← defaultMessageHandle_apply]
  cases s with
  | ready =>
    have hm : m.command ≠ .attachChannels := by simpa [ConnectedState.serves] using hs
    simp only [ConnectedState.handle, ConnectedState.handleConnectionEvent, handleReceived,
      Ready.handleMessage, ConnectedState.name]
  | flying chs =>
    obtain ⟨hm, hm', hm''⟩ : m.command ≠ .attachChannels ∧ m.command ≠ .releaseChannels ∧
      m.command ≠ .operationEnded := by simpa [ConnectedState.serves] using hs
    simp only [ConnectedState.handle, ConnectedState.handleConnectionEvent, handleReceived,
      Flying.handleMessage, ConnectedState.name]
  | releasing =>
    have hm : m.command = .release → m.response ≠ .accepted := by
      simpa [ConnectedState.serves] using hs
    by_cases hrel : m.command = .release
    · simp only [ConnectedState.handle, ConnectedState.handleConnectionEvent, handleReceived,
        Releasing.handleMessage, hrel, if_neg (hm hrel), ConnectedState.name]
    · simp only [ConnectedState.handle, ConnectedState.handleConnectionEvent, handleReceived,
        Releasing.handleMessage, ConnectedState.name]
  | released => exact absurd rfl hr

theorem handle_unserved (hr : s ≠ .released) (hs : s.serves e = false)
    (he : ∀ m, e ≠ .received m) (w : Context) :
    s.handle env e w = .ok none (w.emit [.logged (.unexpectedEvent e s.name)]) := by
  rw [← defaultEventHandle_apply]
  cases e with
  | user e =>
    cases s with
    | released => exact absurd rfl hr
    | ready => cases e <;> first | rfl | simp [ConnectedState.serves] at hs
    | _ => rfl
  | connection e => cases e <;> cases s <;> first | rfl | simp at he

/-! ### The served events -/

theorem attachChannels_apply (env : Environment) (chs : List ChannelResponse) (w : Context) :
    (∃ ps v, Validations w (env.batch chs) (.ok ps v) ∧ (∀ p ∈ ps, p ∈ pointers v.channels) ∧
      Flying.attachChannels env chs w = .ok () (v.emit [.event (.channelsOpened ps),
        .sent { command := .attachChannels, response := some .accepted
                channelsIndication := ps.map IChannel.id }])) ∨
    (∃ f v, Validations w (env.batch chs) (.error f v) ∧
      Flying.attachChannels env chs w = .error f v) ∨
    ∃ ps v p, Validations w (env.batch chs) (.ok ps v) ∧ p ∈ ps ∧ p ∉ pointers v.channels ∧
      Flying.attachChannels env chs w =
        .error (.danglingChannel p) (v.emit [.event (.channelsOpened ps)]) := by
  have hv := validateChannels_apply (env.batch chs) w
  simp only [Flying.attachChannels, bind_apply]
  cases happly : validateChannels (env.batch chs) w with
  | error f v =>
    rw [happly] at hv
    exact .inr (.inl ⟨f, v, hv, rfl⟩)
  | ok ps v =>
    rw [happly] at hv
    obtain ⟨hps, hids⟩ | ⟨p, hp, hnot, hids⟩ :=
      getIds_apply ps (v.emit [.event (.channelsOpened ps)])
    · exact .inl ⟨ps, v, hv, hps, by simp [hids]⟩
    · exact .inr (.inr ⟨ps, v, p, hv, hp, hnot, by simp [hids]⟩)

theorem handled_ready_attachChannels (hc : m.command = .attachChannels) :
    Handled env w (.connected .ready) (.received m)
      (handleEvent env (.received m) (.connected .ready) w) := by
  have hx : ConnectedState.ready.handle env (.received m) w =
      .ok (some (.flying m.channelsResponse)) w := by
    simp [ConnectedState.handle, ConnectedState.handleConnectionEvent, handleReceived,
      Ready.handleMessage, hc]
  have hstart : ConnectedState.start env (.flying m.channelsResponse) w =
      (Flying.attachChannels env m.channelsResponse >>= fun _ =>
        pure (.flying m.channelsResponse, none)) w := rfl
  rw [bind_apply] at hstart
  obtain ⟨ps, v, hv, hps, happly⟩ | ⟨f, v, hv, happly⟩ | ⟨ps, v, p, hv, hp, hnot, happly⟩ :=
    attachChannels_apply env m.channelsResponse w
  · rw [happly] at hstart
    rw [handleEvent_enter hx hstart rfl]
    exact .attached (.inl ⟨rfl, rfl⟩) hc hv hps
  · rw [happly] at hstart
    rw [handleEvent_connected, handleConnected_enter_error hx hstart]
    exact .attachFailed (.inl rfl) hc hv
  · rw [happly] at hstart
    rw [handleEvent_connected, handleConnected_enter_error hx hstart]
    exact .attachDangling (.inl rfl) hc hv hp hnot

theorem handled_flying (chs : List ChannelResponse)
    (hs : (ConnectedState.flying chs).serves (.received m) = true) :
    Handled env w (.connected (.flying chs)) (.received m)
      (handleEvent env (.received m) (.connected (.flying chs)) w) := by
  have hx : (ConnectedState.flying chs).handle env (.received m) w =
      Flying.handleMessage env m w := rfl
  have hm : m.command = .attachChannels ∨ m.command = .releaseChannels ∨
    m.command = .operationEnded := by simpa [ConnectedState.serves] using hs
  obtain hc | hc | hc := hm
  · simp only [Flying.handleMessage, hc, bind_apply] at hx
    obtain ⟨ps, v, hv, hps, happly⟩ | ⟨f, v, hv, happly⟩ | ⟨ps, v, p, hv, hp, hnot, happly⟩ :=
      attachChannels_apply env m.channelsResponse w
    · rw [happly] at hx
      rw [handleEvent_stay hx rfl]
      exact .attached (.inr rfl) hc hv hps
    · rw [happly] at hx
      rw [handleEvent_connected, handleConnected_error hx]
      exact .attachFailed (.inr ⟨chs, rfl⟩) hc hv
    · rw [happly] at hx
      rw [handleEvent_connected, handleConnected_error hx]
      exact .attachDangling (.inr ⟨chs, rfl⟩) hc hv hp hnot
  · obtain ⟨ps, happly, hf⟩ | ⟨id, hm, hid, happly⟩ := getChannelsOf_apply m.channelsIndication w
    · obtain ⟨left, es, hcl, hclose⟩ :=
        closeChannels_apply m.channelsIndication (w.emit [.event (.channelsClosing ps)])
      simp only [Flying.handleMessage, Flying.releaseChannels, hc, bind_apply, happly,
        onEvent_apply, hclose, send_apply, pure_apply] at hx
      rw [handleEvent_stay hx rfl]
      simpa using Handled.releaseChannels (w := w) hc hf hcl
    · simp only [Flying.handleMessage, Flying.releaseChannels, hc, bind_apply, happly] at hx
      rw [handleEvent_connected, handleConnected_error hx]
      exact .releaseMissing hc hm hid
  · simp only [Flying.handleMessage, hc, bind_apply, getChannels_apply, onEvent_apply,
      closeAllChannels_apply, send_apply, pure_apply] at hx
    rw [handleEvent_enter hx rfl rfl]
    simpa [endedContext] using Handled.operationEnded (w := w) hc

theorem handled_served (e : InputEvent) (s : ConnectedState) (hs : s.serves e = true) :
    Handled env w (.connected s) e (handleEvent env e (.connected s) w) := by
  cases e with
  | user e =>
    cases s with
    | ready =>
      cases e with
      | release =>
        rw [handleEvent_enter (n := .releasing) rfl rfl rfl]
        exact .release
      | _ => simp [ConnectedState.serves] at hs
    | _ => simp [ConnectedState.serves] at hs
  | connection e =>
    cases e with
    | received m =>
      cases s with
      | ready => exact handled_ready_attachChannels (by simpa [ConnectedState.serves] using hs)
      | flying chs => exact handled_flying chs hs
      | releasing =>
        obtain ⟨hc, hr⟩ : m.command = .release ∧ m.response = .accepted := by
          simpa [ConnectedState.serves] using hs
        have hx : ConnectedState.releasing.handle env (.received m) w = .ok (some .released) w := by
          simp [ConnectedState.handle, ConnectedState.handleConnectionEvent, handleReceived,
            Releasing.handleMessage, hc, hr]
        exact .released hc hr (handleEvent_released hx)
      | released => simp [ConnectedState.serves] at hs
    | _ => cases s <;> simp [ConnectedState.serves] at hs

theorem handled_connected (e : InputEvent) (s : ConnectedState) (hr : s ≠ .released) :
    Handled env w (.connected s) e (handleEvent env e (.connected s) w) := by
  have ho : s.createOuterState = none := by cases s <;> first | rfl | exact absurd rfl hr
  cases hs : s.serves e with
  | false =>
    by_cases he : ∃ m, e = .received m
    · obtain ⟨m, rfl⟩ := he
      rw [handleEvent_stay (handle_received_unserved hr hs w) ho]
      exact .defaulted hs rfl
    · rw [handleEvent_stay (handle_unserved hr hs (not_exists.mp he) w) ho]
      exact .unexpected hs fun m hm => absurd ⟨m, hm⟩ he
  | true => exact handled_served e s hs

theorem handled_disconnected (e : InputEvent) :
    Handled env w .disconnected e (handleEvent env e .disconnected w) := by
  cases e with
  | user e =>
    cases e with
    | attach =>
      have hx : handleEvent env (.user .attach) .disconnected w =
        transitions (State.start env) loopFuel .disconnected (some .connecting) w := rfl
      rw [hx]
      cases ha : env.attach with
      | error what =>
        simpa [loopFuel, transitions_some, State.start, Connecting.start, bind_apply, map_apply,
          tryCatch_apply, ha, outcome] using Handled.attachRefused (w := w) ha
      | ok response =>
        obtain ⟨hf, hopen⟩ | ⟨what, hf, hopen⟩ := openFacadeConnection_apply env response w
        · simpa [loopFuel, transitions_some, State.start, Connecting.start, bind_apply, map_apply,
            tryCatch_apply, ha, outcome, hopen] using Handled.attachStarted ha hf
        · simpa [loopFuel, transitions_some, State.start, Connecting.start, bind_apply, map_apply,
            tryCatch_apply, ha, outcome, hopen] using Handled.dialFailed ha hf
    | _ => exact .unexpected rfl fun _ _ => rfl
  | connection e => exact .unexpected rfl fun _ _ => rfl

theorem handled_connecting (e : InputEvent) :
    Handled env w .connecting e (handleEvent env e .connecting w) := by
  cases e with
  | user e => exact .unexpected rfl (by simp)
  | connection e =>
    cases e with
    | received m =>
      have hx : handleEvent env (.received m) .connecting w = (do
          transitions (State.start env) loopFuel .connecting
            (← Connecting.handleMessage env m)) w := by
        simp [handleEvent, IState.process, IState.handleEvent, State.interface,
          State.handleConnectionEvent, handleReceived]
      rw [hx, bind_apply]
      by_cases hc : m.command = .setup
      · by_cases hr : m.response = .accepted
        · simpa [Connecting.handleMessage, hc, hr, loopFuel, transitions_some, State.start,
            Connected.start, ConnectedState.start, bind_apply, map_apply] using
            Handled.setupAccepted (w := w) hc hr
        · simp only [Connecting.handleMessage, hc, hr, if_false, bind_apply, onEvent_apply,
            pure_apply]
          exact .setupRejected hc hr (transitions_disconnecting env _ _)
      · simp only [Connecting.handleMessage, defaultMessageHandle_apply, transitions_none,
          pure_apply]
        exact .defaulted (by simpa [State.serves] using hc) rfl
    | _ => exact .unexpected rfl (by simp)

theorem handled (env : Environment) (e : InputEvent) (s : State) (hs : s.rests = true)
    (w : Context) : Handled env w s e (handleEvent env e s w) := by
  cases s with
  | disconnected => exact handled_disconnected e
  | connecting => exact handled_connecting e
  | connected s => exact handled_connected e s (by rintro rfl; simp [State.rests] at hs)
  | disconnecting => simp [State.rests] at hs

/-! ### Steps of the client -/

theorem acts_endedContext (w : Context) : Acts w (endedContext w) := by
  rw [endedContext, ← Context.emit_emit]
  exact (Acts.announceCloseAll .refl _).emit rfl

theorem Handled.acts {s : State} {e : InputEvent} {r : EStateM.Result Fault Context State}
    (h : Handled env w s e r) : Acts w (contextOf r) := by
  have hw : Acts w w := .refl
  cases h with
  | unexpected hs => exact hw.emit rfl
  | defaulted hs => exact hw.emit (by simp)
  | attachRefused ha => exact hw.emit rfl
  | dialFailed ha hf => exact hw.emit rfl
  | attachStarted ha hf => exact (hw.withReader true).emit rfl
  | setupAccepted hc hr => exact hw.emit rfl
  | setupRejected hc hr hd => exact .disconnects hd (hw.emit rfl)
  | release => exact hw.emit rfl
  | attached hs hc hv hps => exact (hw.validations hv).emit rfl
  | attachFailed hs hc hv => exact hw.validations hv
  | attachDangling hs hc hv hp hnot => exact (hw.validations hv).emit rfl
  | releaseChannels hc hf hcl =>
    rw [← Context.emit_emit]
    exact (hw.announceCloses _ hcl).emit rfl
  | releaseMissing hc hm hid => exact hw
  | operationEnded hc => exact acts_endedContext w
  | released hc hr hd => exact .disconnects hd hw

@[simp] theorem seen_endedContext {β : Type} (o : Observer β) (w : Context) :
    o (endedContext w) = o w ++ ((o.event (.channelsClosing (pointers w.channels))).toList ++
      ((o.event .operationEnded).toList ++
        (o.message { command := .operationEnded, response := some .accepted }).toList)) := by
  simp [endedContext, o.see_channel (closeAllEffects_channel w.channels)]

theorem Handled.rests {s t : State} {e : InputEvent} {v : Context} (h : Handled env w s e (.ok t v))
    (hs : s.rests = true) : t.rests = true := by
  cases h with
  | unexpected | defaulted => exact hs
  | setupRejected hc hr hd | released hc hr hd =>
    cases hd
    rfl
  | _ => rfl

end

section
variable {c d : Client State} {a : Handling}

theorem reachable_rests (hc : client.Reachable c) : c.state.rests = true := by
  refine hc.invariant (P := fun c => c.state.rests = true) ?_ ?_
  · intro s hs
    cases hs
    rfl
  · intro s a t _ hs hstep
    have hh := handled a.environment a.event s.state hs s.context
    rw [Client.step_eq_some.mp hstep] at hh
    exact hh.rests hs

theorem step_handled (hc : client.Reachable c) (hs : client.step c a d) :
    Handled a.environment c.context c.state a.event (.ok d.state d.context) := by
  rw [← Client.step_eq_some.mp hs]
  exact handled a.environment a.event c.state (reachable_rests hc) c.context

/-- What every handled event keeps holds of every reachable client. -/
theorem reachable_invariant {P : State → Context → Prop} (hc : client.Reachable c)
    (hinit : P .disconnected .initial)
    (hkeep : ∀ {env s t e w v}, Handled env w s e (.ok t v) → P s w → P t v) :
    P c.state c.context := by
  refine hc.invariant (P := fun c => P c.state c.context) ?_ ?_
  · rintro _ rfl
    exact hinit
  · intro s a t hreach hs ht
    exact hkeep (step_handled hreach ht) hs

theorem reachable_context {P : Context → Prop} (hc : client.Reachable c)
    (hinit : P .initial) (hstep : ∀ w v, Act w v → P w → P v) : P c.context :=
  reachable_invariant (P := fun _ w => P w) hc hinit fun h hw => h.acts.invariant hstep hw

end

end FmClient.Device
