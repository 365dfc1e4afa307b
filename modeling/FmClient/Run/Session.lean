import FmClient.Backend.Tracked
import FmClient.State.DeviceSpec
import FmClient.State.PilotSpec

/-! What a session leaves behind: where the machines come to rest, and what has become
of the channels and of the reader by then. -/
namespace FmClient
open Lib ChannelsHandler Handler

/-! ### Transition loops -/

namespace Pilot
variable {s : State}

theorem not_transient (hs : s.rests = true) : s ≠ .disconnecting ∧ s ≠ .connected .released := by
  constructor <;>
    · rintro rfl
      cases hs

theorem Handled.ne_outOfFuel {env : Environment} {e : InputEvent} {w v : Context} :
    ¬ Handled env w s e (.error .outOfFuel v) := by
  intro h
  cases h with
  | setupFailed hc hr hv | addFailed hc hr hv => simpa using hv.fault
  | setupRejected hc hr hd | release hs hc hd => cases hd

end Pilot

namespace Device
variable {s : State}

theorem not_transient (hs : s.rests = true) : s ≠ .disconnecting ∧ s ≠ .connected .released := by
  constructor <;>
    · rintro rfl
      cases hs

theorem Handled.ne_outOfFuel {env : Environment} {e : InputEvent} {w v : Context} :
    ¬ Handled env w s e (.error .outOfFuel v) := by
  intro h
  cases h with
  | attachFailed hs hc hv => simpa using hv.fault
  | setupRejected hc hr hd | released hc hr hd => cases hd

end Device

/-! ### Between sessions -/

/-- The states in which the pilot has no channels. -/
def Pilot.State.vacant : Pilot.State → Bool
  | .disconnected | .connecting _ _ => true
  | _ => false

/-- The states in which the device has no channels. -/
def Device.State.vacant : Device.State → Bool
  | .disconnected | .connecting | .connected .ready | .connected .releasing => true
  | _ => false

/-- Where there are to be no channels there are none, and nothing is read between sessions. -/
structure Idle {σ : Type} (vacant : σ → Bool) (disconnected s : σ) (w : Context) : Prop where
  channels : vacant s = true → w.channels = .empty
  keepReader : s = disconnected → w.keepReader = false

theorem Idle.initial {σ : Type} (vacant : σ → Bool) (disconnected : σ) :
    Idle vacant disconnected disconnected .initial := ⟨fun _ => rfl, fun _ => rfl⟩

theorem Pilot.Handled.idle {env : Environment} {s t : Pilot.State} {e : InputEvent} {w v : Context}
    (h : Pilot.Handled env w s e (.ok t v)) (hi : Idle State.vacant .disconnected s w) :
    Idle State.vacant .disconnected t v := by
  cases h with
  | unexpected hs | defaulted hs => exact ⟨hi.channels, hi.keepReader⟩
  | operateRefused ho | dialFailed ho hf => exact ⟨hi.channels, hi.keepReader⟩
  | operateStarted ho hf => exact ⟨fun _ => hi.channels rfl, by simp⟩
  | setupRejected hc hr hd =>
    cases hd
    exact ⟨fun _ => hi.channels rfl, fun _ => rfl⟩
  | release hs hc hd =>
    cases hd
    exact ⟨fun _ => rfl, fun _ => rfl⟩
  | _ => exact ⟨by simp [State.vacant], by simp⟩

theorem Device.Handled.idle {env : Environment} {s t : Device.State} {e : InputEvent}
    {w v : Context} (h : Device.Handled env w s e (.ok t v))
    (hi : Idle State.vacant .disconnected s w) : Idle State.vacant .disconnected t v := by
  cases h with
  | unexpected hs | defaulted hs => exact ⟨hi.channels, hi.keepReader⟩
  | attachRefused ha | dialFailed ha hf => exact ⟨hi.channels, hi.keepReader⟩
  | attachStarted ha hf => exact ⟨fun _ => hi.channels rfl, by simp⟩
  | setupAccepted hc hr | release => exact ⟨fun _ => hi.channels rfl, by simp⟩
  | setupRejected hc hr hd | released hc hr hd =>
    cases hd
    exact ⟨fun _ => hi.channels rfl, fun _ => rfl⟩
  | operationEnded hc => exact ⟨fun _ => rfl, by simp⟩
  | _ => exact ⟨by simp [State.vacant], by simp⟩

theorem Pilot.reachable_idle {c : Client Pilot.State} (hc : Pilot.client.Reachable c) :
    Idle Pilot.State.vacant .disconnected c.state c.context :=
  reachable_invariant hc (.initial _ _) Handled.idle

theorem Device.reachable_idle {c : Client Device.State} (hc : Device.client.Reachable c) :
    Idle Device.State.vacant .disconnected c.state c.context :=
  reachable_invariant hc (.initial _ _) Handled.idle

def Cleared (w : Context) : Prop :=
  w.channels = .empty ∧ ∀ p, .inserted p ∈ w.trace → Removed w.trace p

theorem Tracked.cleared {w : Context} (h : Tracked w) (hw : w.channels = .empty) : Cleared w := by
  refine ⟨hw, fun p hp => (h.removed p hp).resolve_left ?_⟩
  simp [hw]

/-- After every handled event the transition loops have ended, whatever rounds they are
allowed beyond two; no transient state rests, and no channel or reader outlives its session. -/
theorem sessions_end :
    (∀ c, Pilot.client.Reachable c →
      (c.state ≠ .disconnecting ∧ c.state ≠ .connected .released) ∧
      (∀ env e, (∀ fuel, loopFuel ≤ fuel →
          (Pilot.State.interface fuel).process fuel env e c.state c.context =
            Pilot.handleEvent env e c.state c.context) ∧
        ∀ v, Pilot.handleEvent env e c.state c.context ≠ .error .outOfFuel v) ∧
      (c.state.vacant = true → Cleared c.context) ∧
      (c.state = .disconnected → c.context.keepReader = false)) ∧
    (∀ c, Device.client.Reachable c →
      (c.state ≠ .disconnecting ∧ c.state ≠ .connected .released) ∧
      (∀ env e, (∀ fuel, loopFuel ≤ fuel →
          (Device.State.interface fuel).process fuel env e c.state c.context =
            Device.handleEvent env e c.state c.context) ∧
        ∀ v, Device.handleEvent env e c.state c.context ≠ .error .outOfFuel v) ∧
      (c.state.vacant = true → Cleared c.context) ∧
      (c.state = .disconnected → c.context.keepReader = false)) := by
  constructor
  · intro c hc
    have hrests := Pilot.reachable_rests hc
    have hidle := Pilot.reachable_idle hc
    have htracked := Pilot.reachable_context hc Tracked.initial fun _ _ => Tracked.act
    refine ⟨Pilot.not_transient hrests, fun env e => ⟨fun fuel hfuel => ?_, fun v => ?_⟩,
      fun hv => htracked.cleared (hidle.channels hv), hidle.keepReader⟩
    · exact congrFun (Pilot.layers_describe.process_fuel env e c.state hfuel) c.context
    · exact fun h => Pilot.Handled.ne_outOfFuel (h ▸ Pilot.handled env e c.state hrests c.context)
  · intro c hc
    have hrests := Device.reachable_rests hc
    have hidle := Device.reachable_idle hc
    have htracked := Device.reachable_context hc Tracked.initial fun _ _ => Tracked.act
    refine ⟨Device.not_transient hrests, fun env e => ⟨fun fuel hfuel => ?_, fun v => ?_⟩,
      fun hv => htracked.cleared (hidle.channels hv), hidle.keepReader⟩
    · exact congrFun (Device.layers_describe.process_fuel env e c.state hfuel) c.context
    · exact fun h => Device.Handled.ne_outOfFuel (h ▸ Device.handled env e c.state hrests c.context)

/-- A flight with one channel, up to the release of the device. -/
theorem sessions_end_flight : ∃ c, Device.client.Reachable c ∧ c.state = .disconnected ∧
    .inserted ⟨1, 0⟩ ∈ c.context.trace ∧ Removed c.context.trace ⟨1, 0⟩ ∧
      c.context.keepReader = false := by
  obtain ⟨h, c, hr, hp⟩ := TransitionSystem.exists_run ⟨.disconnected, .initial⟩
    (Client.step Device.handleEvent)
    ([.user .attach, .received { command := .setup, response := .accepted },
      .received { command := .attachChannels, response := .accepted
                  channelsResponse := [{ id := 1 }] },
      .received { command := .operationEnded, response := .accepted }, .user .release,
      .received { command := .release, response := .accepted }].map
      (Handling.mk (.permissive fun _ => true)))
    (p := fun _ c => decide (c.state = .disconnected ∧ .inserted ⟨1, 0⟩ ∈ c.context.trace))
    (by decide +kernel)
  obtain ⟨hs, hi⟩ := of_decide_eq_true hp
  obtain ⟨_, _, hcleared, hreader⟩ := sessions_end.2 c hr.reachable
  exact ⟨c, hr.reachable, hs, hi, (hcleared (by simp [hs, Device.State.vacant])).2 _ hi, hreader hs⟩

end FmClient
