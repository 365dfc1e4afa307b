import FmClient.State.DeviceSpec
import FmClient.State.PilotSpec

/-! Whether a client can get back to `Disconnected`: wherever it is but in `Recovering`, which no
event leads out of. -/
namespace FmClient
open Lib Handler ChannelsHandler

section
variable {σ : Type} {handleEvent : Environment → InputEvent → σ → Handler σ} {goal s t : σ}
  {w v : Context} {c d : Client σ} {n m : ℕ}

/-- So many events at most, with what the calls outside give, take the client to a state. -/
def LeadsIn (handleEvent : Environment → InputEvent → σ → Handler σ) (goal : σ) (n : ℕ)
    (c : Client σ) : Prop :=
  ∃ labels k d, labels.length ≤ n ∧
    TransitionSystem.execute (Client.step handleEvent) c labels = some (k, d) ∧ d.state = goal

theorem LeadsIn.here (h : c.state = goal) : LeadsIn handleEvent goal n c :=
  ⟨[], [], c, Nat.zero_le n, rfl, h⟩

theorem LeadsIn.next (env : Environment) (e : InputEvent) (h : handleEvent env e s w = .ok t v)
    (ht : LeadsIn handleEvent goal n ⟨t, v⟩) : LeadsIn handleEvent goal (n + 1) ⟨s, w⟩ := by
  obtain ⟨labels, k, d, hlength, hexecute, hd⟩ := ht
  have hstep : Client.step handleEvent ⟨s, w⟩ ⟨env, e⟩ = some ⟨t, v⟩ := Client.step_eq_some.mpr h
  refine ⟨⟨env, e⟩ :: labels, ⟨⟨s, w⟩, ⟨env, e⟩, ⟨t, v⟩⟩ :: k, d, Nat.succ_le_succ hlength, ?_, hd⟩
  rw [TransitionSystem.execute, hstep, Option.bind_some, hexecute, Option.map_some]

theorem LeadsIn.mono (h : LeadsIn handleEvent goal n c) (hn : n ≤ m) :
    LeadsIn handleEvent goal m c := by
  obtain ⟨labels, k, d, hlength, h⟩ := h
  exact ⟨labels, k, d, hlength.trans hn, h⟩

end

def Environment.kind : Environment := .permissive fun _ => true

def answering (command : Command) (response : Response) : InputEvent :=
  .received { command := command, response := response }

theorem Disconnects.returns {σ : Type} {disconnected : σ} {w : Context}
    {r : EStateM.Result Fault Context σ} (h : Disconnects .kind disconnected w r) :
    ∃ v, r = .ok disconnected v := by
  cases h with
  | closed hf => exact ⟨_, rfl⟩
  | failed hf => cases hf

/-! ### The pilot -/

namespace Pilot
variable {w : Context}

theorem release_returns {s : ConnectedState}
    (hs : s = .operating ∨ ∃ ids, s = .closingChannels ids) :
    LeadsIn handleEvent .disconnected 1 ⟨.connected s, w⟩ := by
  have hx : s.handle .kind (answering .release .accepted) w =
      .ok (some .released) (releaseContext w) := by
    obtain rfl | ⟨ids, rfl⟩ := hs <;> exact acceptRelease_apply w
  obtain ⟨v, hv⟩ := (handleEvent_released hx).returns
  exact .next _ _ hv (.here rfl)

theorem setup_returns (d : ℤ) (chs : List ChannelRequest) (w : Context) :
    LeadsIn handleEvent .disconnected 1 ⟨.connecting d chs, w⟩ := by
  have hx : handleEvent .kind (answering .setup (.other 1)) (.connecting d chs) w =
      transitions (State.start .kind) loopFuel (.connecting d chs) (some .disconnecting)
        (w.emit [.event (.error (some ""))]) := rfl
  obtain ⟨v, hv⟩ := (transitions_disconnecting .kind (.connecting d chs)
    (w.emit [.event (.error (some ""))])).returns
  exact .next _ _ (hx.trans hv) (.here rfl)

theorem returns (s : State) (hs : s.rests = true) (hrec : s ≠ .connected .recovering)
    (w : Context) : LeadsIn handleEvent .disconnected 2 ⟨s, w⟩ := by
  have hoperating (v : Context) : LeadsIn handleEvent .disconnected 1 ⟨.connected .operating, v⟩ :=
    release_returns (.inl rfl)
  cases s with
  | disconnected => exact .here rfl
  | disconnecting => cases hs
  | connecting d chs => exact (setup_returns d chs w).mono (Nat.le_succ 1)
  | connected s =>
    cases s with
    | validatingChannels chs ps =>
      exact LeadsIn.next .kind (answering .channelsReady .accepted)
        (handleEvent_operating (v := w.emit [.event (.channelsOpened ps)]) rfl) (hoperating _)
    | operating => exact (hoperating w).mono (Nat.le_succ 1)
    | openingChannels chs =>
      exact LeadsIn.next .kind (answering .addChannels (.other 1))
        (handleEvent_operating rfl) (hoperating _)
    | closingChannels ids => exact (release_returns (.inr ⟨ids, rfl⟩)).mono (Nat.le_succ 1)
    | requestingControl id =>
      exact LeadsIn.next .kind (answering .requestControl (.other 1))
        (handleEvent_operating rfl) (hoperating _)
    | releasingControl id =>
      exact LeadsIn.next .kind (.user (.releaseRejected ""))
        (handleEvent_operating rfl) (hoperating _)
    | recovering => exact absurd rfl hrec
    | released => cases hs

theorem handleEvent_recovering (env : Environment) (e : InputEvent) (w : Context) :
    handleEvent env e (.connected .recovering) w =
      .ok (.connected .recovering) (w.emit [.logged (.unexpectedEvent e "Recovering")]) := by
  cases e <;> rfl

theorem recovering_final {c d : Client State} (hc : c.state = .connected .recovering)
    {labels : List Handling} {k : List (Transition (Client State) Handling)}
    (hd : TransitionSystem.execute (Client.step handleEvent) c labels = some (k, d)) :
    d.state = .connected .recovering ∧
      d.context = c.context.emit
        (labels.map fun a => .logged (.unexpectedEvent a.event "Recovering")) := by
  induction labels generalizing c k with
  | nil =>
    cases hd
    exact ⟨hc, (Context.emit_nil _).symm⟩
  | cons a labels ih =>
    obtain ⟨s, w⟩ := c
    subst hc
    simp only [TransitionSystem.execute, Client.step, handleEvent_recovering, Option.bind_some,
      Option.map_eq_some_iff, Prod.mk.injEq] at hd
    obtain ⟨⟨k', d'⟩, hk, -, rfl⟩ := hd
    obtain ⟨hstate, hcontext⟩ := ih rfl hk
    exact ⟨hstate, hcontext.trans (Context.emit_emit _ _ _)⟩

end Pilot

/-! ### The device -/

namespace Device
variable {w : Context}

theorem setup_returns (w : Context) :
    LeadsIn handleEvent .disconnected 1 ⟨.connecting, w⟩ := by
  have hx : handleEvent .kind (answering .setup (.other 1)) .connecting w =
      transitions (State.start .kind) loopFuel .connecting (some .disconnecting)
        (w.emit [.event (.error (some ""))]) := rfl
  obtain ⟨v, hv⟩ := (transitions_disconnecting .kind .connecting
    (w.emit [.event (.error (some ""))])).returns
  exact .next _ _ (hx.trans hv) (.here rfl)

theorem releasing_returns (w : Context) :
    LeadsIn handleEvent .disconnected 1 ⟨.connected .releasing, w⟩ := by
  have hx : ConnectedState.releasing.handle .kind (answering .release .accepted) w =
      .ok (some .released) w := rfl
  obtain ⟨v, hv⟩ := (handleEvent_released hx).returns
  exact .next _ _ hv (.here rfl)

theorem ready_returns (w : Context) :
    LeadsIn handleEvent .disconnected 2 ⟨.connected .ready, w⟩ :=
  LeadsIn.next .kind (.user .release)
    (handleEvent_enter (t := .releasing) rfl rfl rfl) (releasing_returns _)

theorem flying_returns (chs : List ChannelResponse) (w : Context) :
    LeadsIn handleEvent .disconnected 3 ⟨.connected (.flying chs), w⟩ := by
  have hx : (ConnectedState.flying chs).handle .kind (answering .operationEnded .accepted) w =
      Flying.handleMessage .kind { command := .operationEnded, response := .accepted } w := rfl
  simp only [Flying.handleMessage, bind_apply, getChannels_apply, onEvent_apply,
    closeAllChannels_apply, send_apply, pure_apply] at hx
  exact .next _ _ (handleEvent_enter hx rfl rfl) (ready_returns _)

theorem returns (s : State) (hs : s.rests = true) (w : Context) :
    LeadsIn handleEvent .disconnected 3 ⟨s, w⟩ := by
  cases s with
  | disconnected => exact .here rfl
  | disconnecting => cases hs
  | connecting => exact (setup_returns w).mono (by decide)
  | connected s =>
    cases s with
    | ready => exact (ready_returns w).mono (by decide)
    | flying chs => exact flying_returns chs w
    | releasing => exact (releasing_returns w).mono (by decide)
    | released => cases hs

end Device

/-- A pilot can get back to `Disconnected` within two events from wherever it is but `Recovering`,
which it never leaves and where it does nothing but log; a device within three. -/
theorem session_can_end :
    (∀ c, Pilot.client.Reachable c →
      (c.state ≠ .connected .recovering → LeadsIn Pilot.handleEvent .disconnected 2 c) ∧
      (c.state = .connected .recovering → ∀ labels k d,
        TransitionSystem.execute (Client.step Pilot.handleEvent) c labels = some (k, d) →
        d.state = .connected .recovering ∧ d.context = c.context.emit
          (labels.map fun a => .logged (.unexpectedEvent a.event "Recovering")))) ∧
    ∀ c, Device.client.Reachable c → LeadsIn Device.handleEvent .disconnected 3 c := by
  refine ⟨fun c hc => ⟨fun hrec => ?_, fun hrec labels k d hd => ?_⟩, fun c hc => ?_⟩
  · exact Pilot.returns c.state (Pilot.reachable_rests hc) hrec c.context
  · exact Pilot.recovering_final hrec hd
  · exact Device.returns c.state (Device.reachable_rests hc) c.context

def operatingThen (e : InputEvent) : List Handling :=
  [.user (.operate 7 []),
    .received { command := .setup, response := .accepted, channelsResponse := [{ id := 1 }] },
    .received { command := .channelsReady, response := .accepted, channelsIndication := [1] },
    e].map (Handling.mk .kind)

/-- A pilot that is asked for control can be released, and one that loses its connection is
lost. -/
theorem session_can_end_lost : ∃ c d, Pilot.client.Reachable c ∧ Pilot.client.Reachable d ∧
    c.state = .connected (.releasingControl 1) ∧ LeadsIn Pilot.handleEvent .disconnected 2 c ∧
    d.state = .connected .recovering ∧ ∀ labels k e,
      TransitionSystem.execute (Client.step Pilot.handleEvent) d labels = some (k, e) →
      e.state = .connected .recovering ∧ e.context = d.context.emit
        (labels.map fun a => .logged (.unexpectedEvent a.event "Recovering")) := by
  obtain ⟨h, c, hr, hc⟩ := TransitionSystem.exists_run ⟨.disconnected, .initial⟩
    (Client.step Pilot.handleEvent) (operatingThen (.received
      { command := .releaseControl, response := .accepted, channelsIndication := [1] }))
    (p := fun _ c => decide (c.state = .connected (.releasingControl 1))) (by decide +kernel)
  obtain ⟨k, d, hk, hd⟩ := TransitionSystem.exists_run ⟨.disconnected, .initial⟩
    (Client.step Pilot.handleEvent) (operatingThen (.connection .lost))
    (p := fun _ c => decide (c.state = .connected .recovering)) (by decide +kernel)
  have hc := of_decide_eq_true hc
  have hd := of_decide_eq_true hd
  refine ⟨c, d, hr.reachable, hk.reachable, hc, (session_can_end.1 c hr.reachable).1 ?_, hd,
    (session_can_end.1 d hk.reachable).2 hd⟩
  rw [hc]
  decide

end FmClient
