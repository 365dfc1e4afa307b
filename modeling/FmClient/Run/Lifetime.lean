import FmClient.Backend.Reported
import FmClient.State.DeviceSpec
import FmClient.State.PilotSpec

/-! Whether a channel that the listener was told of is still there. A rejected channel is
erased with no notice, so that this rests on no rejection naming a channel that is open. -/
namespace FmClient
open Lib Handler ChannelsHandler

theorem Context.recalls_isQuiet (w : Context) : w.recalls.all Effect.isQuiet = true := by
  unfold recalls
  cases w.deferred <;> rfl

@[simp] theorem defaultEffect_isQuiet (env : Environment) (message : ControlMessage)
    (state : String) : (defaultEffect env message state).isQuiet = true := by
  unfold defaultEffect
  split <;> rfl

namespace Sound
variable {w : Context}

theorem recalled (h : Sound w) : Sound w.recalled :=
  h.quiet (Acts.recalled .refl) w.recalled_trace w.recalls_isQuiet

theorem disconnects {σ : Type} {env : Environment} {disconnected : σ}
    {r : EStateM.Result Fault Context σ} (h : Sound w)
    (hd : Disconnects env disconnected w r) : Sound (contextOf r) := by
  cases hd with
  | closed hf => exact (h.withReader false).emit rfl
  | failed hf => exact (h.withReader false).emit rfl

theorem validations {batch : List (ChannelResponse × Except String Bool)}
    {out : EStateM.Result Fault Context (List IChannel)} (h : Sound w)
    (hv : Validations w batch out) (hfresh : FreshRejections w.channels.keys batch) :
    Sound (contextOf out) :=
  (Intact.validations h hv (fun _ hid => hid) hfresh).1.sound

theorem validations_mem {batch : List (ChannelResponse × Except String Bool)} {v : Context}
    {ps : List IChannel} (h : Sound w) (hv : Validations w batch (.ok ps v))
    (hfresh : FreshRejections w.channels.keys batch) : ∀ p ∈ ps, p ∈ pointers v.channels :=
  (Intact.validations h hv (fun _ hid => hid) hfresh).2 ps v rfl

end Sound

/-! ### The pilot -/

namespace Pilot
variable {env : Environment} {s t : State} {e : InputEvent} {w v : Context}
  {r : EStateM.Result Fault Context State}

def batch (env : Environment) : State → InputEvent → List (ChannelResponse × Except String Bool)
  | .connecting _ _, .connection (.received m) =>
    if m.command = .setup ∧ m.response = .accepted then env.batch m.channelsResponse else []
  | .connected (.openingChannels _), .connection (.received m) =>
    if m.command = .addChannels ∧ m.response = .accepted then env.batch m.channelsResponse else []
  | _, _ => []

theorem batch_of_unserved (hs : s.serves e = false) : batch env s e = [] := by
  unfold batch
  split <;> simp_all [State.serves, ConnectedState.serves]

/-- No channel that the event makes the pilot reject is open by then. -/
def FreshStep (c : Client State) (a : Handling) : Prop :=
  FreshRejections c.context.channels.keys (batch a.environment c.state a.event)

instance (c : Client State) (a : Handling) : Decidable (FreshStep c a) :=
  FreshRejections.decide _ _

def State.pending : State → List IChannel
  | .connected (.validatingChannels _ ps) => ps
  | _ => []

theorem sound_ownedContext (h : Sound w) (ids : List ℤ) : Sound (ownedContext w ids) :=
  (h.setOwnedAll ids).emit (by simp [Effect.isQuiet, Effect.isPlain, Effect.isReport])

theorem Handled.sound (h : Handled env w s e r) (hw : Sound w)
    (hps : ∀ p ∈ s.pending, p ∈ pointers w.channels)
    (hfresh : FreshRejections w.channels.keys (batch env s e)) : Sound (contextOf r) := by
  cases h with
  | unexpected hs => exact hw.emit rfl
  | defaulted hs => exact hw.emit (by simp)
  | operateStarted ho hf => exact (hw.withReader true).emit rfl
  | setupAccepted hc hr hv | addAccepted hc hr hv =>
    exact (hw.validations hv (by simpa [batch, hc, hr] using hfresh)).emit rfl
  | setupFailed hc hr hv | addFailed hc hr hv | setupDangling hc hr hv | addDangling hc hr hv =>
    exact hw.validations hv (by simpa [batch, hc, hr] using hfresh)
  | setupRejected hc hr hd => exact Sound.disconnects (hw.emit rfl) hd
  | readyAccepted hc hr hids =>
    refine ((sound_ownedContext hw _).opened ?_).recalled
    simpa [ownedContext, State.pending] using hps
  | readyMissing hc hr hm hid =>
    exact (sound_ownedContext hw _).emit rfl
  | release hs hc hd =>
    have hclosed : Sound (releaseContext w) := by
      rw [releaseContext, ← Context.emit_emit]
      exact hw.closeAll.emit rfl
    exact hclosed.disconnects hd
  | removeAccepted hc hr hf hcl =>
    rw [← Context.emit_emit]
    exact ((hw.closes hf hcl).emit rfl).recalled
  | handoverDone hc hr hid => exact ((hw.setOwned _ true).emit rfl).recalled
  | controlReleased hc hid => exact ((hw.setOwned _ false).emit rfl).recalled
  | connectionLost | releaseControlEmpty | removeMissing | handoverMissing | releasedMissing =>
    exact hw
  | operationUpdated hc => exact (hw.emit rfl).recalled
  | addRejected | removeRejected | requestRejected | releaseRejected =>
    exact (hw.emit rfl).recalled
  | _ => exact hw.emit rfl

theorem Handled.pending (h : Handled env w s e (.ok t v)) (hw : Sound w)
    (hps : ∀ p ∈ s.pending, p ∈ pointers w.channels)
    (hfresh : FreshRejections w.channels.keys (batch env s e)) :
    ∀ p ∈ t.pending, p ∈ pointers v.channels := by
  cases h with
  | unexpected hs | defaulted hs => exact hps
  | setupAccepted hc hr hv | addAccepted hc hr hv =>
    have hmem := hw.validations_mem hv (by simpa [batch, hc, hr] using hfresh)
    simpa [State.pending] using hmem
  | readyRejected hc hr => exact hps
  | setupRejected hc hr hd | release hs hc hd =>
    cases hd
    simp [State.pending]
  | _ => simp [State.pending]

end Pilot

/-! ### The device -/

namespace Device
variable {env : Environment} {s : State} {e : InputEvent} {w : Context}
  {r : EStateM.Result Fault Context State}

def batch (env : Environment) : State → InputEvent → List (ChannelResponse × Except String Bool)
  | .connected .ready, .connection (.received m)
  | .connected (.flying _), .connection (.received m) =>
    if m.command = .attachChannels then env.batch m.channelsResponse else []
  | _, _ => []

theorem batch_of_unserved (hs : s.serves e = false) : batch env s e = [] := by
  unfold batch
  split <;> simp_all [State.serves, ConnectedState.serves]

theorem batch_attachChannels {s : ConnectedState} {m : ControlMessage}
    (hs : s = .ready ∨ ∃ chs, s = .flying chs) (hc : m.command = .attachChannels) :
    batch env (.connected s) (.received m) = env.batch m.channelsResponse := by
  obtain rfl | ⟨chs, rfl⟩ := hs <;> simp [batch, hc]

def FreshStep (c : Client State) (a : Handling) : Prop :=
  FreshRejections c.context.channels.keys (batch a.environment c.state a.event)

instance (c : Client State) (a : Handling) : Decidable (FreshStep c a) :=
  FreshRejections.decide _ _

theorem Handled.sound (h : Handled env w s e r) (hw : Sound w)
    (hfresh : FreshRejections w.channels.keys (batch env s e)) : Sound (contextOf r) := by
  cases h with
  | unexpected hs => exact hw.emit rfl
  | defaulted hs => exact hw.emit (by simp)
  | attachStarted ha hf => exact (hw.withReader true).emit rfl
  | setupRejected hc hr hd => exact Sound.disconnects (hw.emit rfl) hd
  | attached hs hc hv =>
    rw [batch_attachChannels (hs.imp And.left fun h => ⟨_, h⟩) hc] at hfresh
    have hopened := (hw.validations hv hfresh).opened (hw.validations_mem hv hfresh)
    rw [← List.singleton_append, ← Context.emit_emit]
    exact hopened.emit rfl
  | attachFailed hs hc hv =>
    rw [batch_attachChannels hs hc] at hfresh
    exact hw.validations hv hfresh
  | attachDangling hs hc hv hp hnot =>
    rw [batch_attachChannels hs hc] at hfresh
    exact absurd (hw.validations_mem hv hfresh _ hp) hnot
  | releaseChannels hc hf hcl =>
    rw [← Context.emit_emit]
    exact (hw.closes hf hcl).emit rfl
  | releaseMissing hc hm hid => exact hw
  | operationEnded hc =>
    rw [endedContext, ← Context.emit_emit]
    exact hw.closeAll.emit rfl
  | released hc hr hd => exact hw.disconnects hd
  | _ => exact hw.emit rfl

end Device

/-! ### Runs -/

/-- Every channel reported to the listener, and not as closing since, was there at every
moment so far, and the map holds it. -/
def Protected (w : Context) : Prop :=
  Always Valid w.trace ∧ ∀ p ∈ reported w.trace, p ∈ pointers w.channels

theorem Sound.protected {w : Context} (h : Sound w) : Protected w :=
  ⟨h.valid, fun _ hp => h.reported_mem hp⟩

/-- What every handled event keeps that rejects no open channel. -/
theorem Pilot.fresh_invariant {P : State → Context → Prop}
    {h : List (Transition (Client State) Handling)} {c : Client State} (hr : client.Run h c)
    (hfresh : ∀ t ∈ h, FreshStep t.source t.label) (hinit : P .disconnected .initial)
    (hkeep : ∀ {env s t e w v}, Handled env w s e (.ok t v) → FreshStep ⟨s, w⟩ ⟨env, e⟩ → P s w →
      P t v) : P c.state c.context := by
  refine hr.invariant_of_forall (C := fun t => FreshStep t.source t.label)
    (P := fun c => P c.state c.context) ?_ ?_ hfresh
  · rintro _ rfl
    exact hinit
  · intro s a t hreach hs ht hfresh
    exact hkeep (step_handled hreach ht) hfresh hs

theorem Pilot.run_sound {h : List (Transition (Client State) Handling)} {c : Client State}
    (hr : client.Run h c) (hfresh : ∀ t ∈ h, FreshStep t.source t.label) :
    Sound c.context ∧ ∀ p ∈ c.state.pending, p ∈ pointers c.context.channels := by
  refine fresh_invariant (P := fun s w => Sound w ∧ ∀ p ∈ s.pending, p ∈ pointers w.channels)
    hr hfresh ⟨.initial, by simp [State.pending]⟩ fun hh hfresh hinv => ?_
  obtain ⟨hw, hps⟩ := hinv
  exact ⟨hh.sound hw hps hfresh, hh.pending hw hps hfresh⟩

theorem Device.fresh_invariant {P : State → Context → Prop}
    {h : List (Transition (Client State) Handling)} {c : Client State} (hr : client.Run h c)
    (hfresh : ∀ t ∈ h, FreshStep t.source t.label) (hinit : P .disconnected .initial)
    (hkeep : ∀ {env s t e w v}, Handled env w s e (.ok t v) → FreshStep ⟨s, w⟩ ⟨env, e⟩ → P s w →
      P t v) : P c.state c.context := by
  refine hr.invariant_of_forall (C := fun t => FreshStep t.source t.label)
    (P := fun c => P c.state c.context) ?_ ?_ hfresh
  · rintro _ rfl
    exact hinit
  · intro s a t hreach hs ht hfresh
    exact hkeep (step_handled hreach ht) hfresh hs

theorem Device.run_sound {h : List (Transition (Client State) Handling)} {c : Client State}
    (hr : client.Run h c) (hfresh : ∀ t ∈ h, FreshStep t.source t.label) : Sound c.context :=
  fresh_invariant (P := fun _ w => Sound w) hr hfresh .initial fun hh hfresh hw =>
    hh.sound hw hfresh

/-- As long as no rejected channel was open, a reported channel stays until it is reported as
closing. The same holds of the event handled next, whether its handler ends or throws. -/
theorem reported_protected (a : Handling) :
    (∀ h c, Pilot.client.Run h c → (∀ t ∈ h, Pilot.FreshStep t.source t.label) →
      Protected c.context ∧ (Pilot.FreshStep c a →
        Protected (contextOf (Pilot.handleEvent a.environment a.event c.state c.context)))) ∧
    ∀ h c, Device.client.Run h c → (∀ t ∈ h, Device.FreshStep t.source t.label) →
      Protected c.context ∧ (Device.FreshStep c a →
        Protected (contextOf (Device.handleEvent a.environment a.event c.state c.context))) := by
  refine ⟨fun h c hr hfresh => ?_, fun h c hr hfresh => ?_⟩
  · obtain ⟨hw, hps⟩ := Pilot.run_sound hr hfresh
    refine ⟨hw.protected, fun ha => ?_⟩
    have hh := Pilot.handled a.environment a.event c.state (Pilot.reachable_rests hr.reachable)
      c.context
    exact (hh.sound hw hps ha).protected
  · have hw := Device.run_sound hr hfresh
    refine ⟨hw.protected, fun ha => ?_⟩
    have hh := Device.handled a.environment a.event c.state (Device.reachable_rests hr.reachable)
      c.context
    exact (hh.sound hw ha).protected

def attachRun (opens : ℕ → Bool) (channels : List ChannelResponse) : List Handling :=
  ([.user .attach, .received { command := .setup, response := .accepted },
    .received { command := .attachChannels, response := .accepted
                channelsResponse := [{ id := 1 }] }].map
    (Handling.mk (.permissive fun _ => true))) ++
  [⟨.permissive opens, .received { command := .attachChannels, response := .accepted
                                   channelsResponse := channels }⟩]

/-- Channel 2 is rejected, and channel 1 stays, also when the next event is the end of the
operation. -/
theorem reported_protected_rejection : ∃ h c, Device.client.Run h c ∧
    reported c.context.trace = [⟨1, 0⟩] ∧ Protected c.context ∧
    Protected (contextOf (Device.handleEvent (.permissive fun _ => true)
      (.received { command := .operationEnded, response := .accepted }) c.state c.context)) := by
  let a : Handling := ⟨.permissive fun _ => true,
    .received { command := .operationEnded, response := .accepted }⟩
  obtain ⟨h, c, hr, hp⟩ := TransitionSystem.exists_run ⟨.disconnected, .initial⟩
    (Client.step Device.handleEvent) (attachRun (fun _ => false) [{ id := 2 }])
    (p := fun h c => decide ((∀ t ∈ h, Device.FreshStep t.source t.label) ∧
      Device.FreshStep c a ∧ reported c.context.trace = [⟨1, 0⟩])) (by decide +kernel)
  obtain ⟨hfresh, ha, hreported⟩ := of_decide_eq_true hp
  obtain ⟨hnow, hnext⟩ := (reported_protected a).2 h c hr hfresh
  exact ⟨h, c, hr, hreported, hnow, hnext ha⟩

/-- Channel 1 is attached again and rejected: it is erased, and the listener still holds it. -/
theorem reported_erased : ¬ ((∀ h c, Pilot.client.Run h c → Protected c.context) ∧
    ∀ h c, Device.client.Run h c → Protected c.context) := by
  intro ⟨_, hclaim⟩
  obtain ⟨h, c, hr, hp⟩ := TransitionSystem.exists_run ⟨.disconnected, .initial⟩
    (Client.step Device.handleEvent) (attachRun (fun _ => false) [{ id := 1 }])
    (p := fun _ c => decide (¬ Valid c.context.trace)) (by decide +kernel)
  exact of_decide_eq_true hp (hclaim h c hr).1.last

end FmClient
