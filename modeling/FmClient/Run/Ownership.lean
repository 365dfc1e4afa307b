import FmClient.Backend.Tracked
import FmClient.Lib.History
import FmClient.State.DeviceSpec
import FmClient.State.PilotSpec

/-! The owned flag of a channel: it tells what became last of the control of the channel,
and nothing but a handover changes it. -/
namespace FmClient
open Lib Handler ChannelsHandler

namespace Pilot

/-- Control of the channel `id` is gained: it was handed over, or was free. -/
def State.gains : State → InputEvent → ℤ → Bool
  | .connected (.validatingChannels _ _), .connection (.received m), id =>
    m.command = .channelsReady ∧ m.response = .accepted ∧ id ∈ m.channelsIndication
  | .connected (.requestingControl channelId), .connection (.received m), id =>
    m.command = .controlReady ∧ m.response = .accepted ∧ channelId = id
  | _, _, _ => false

/-- Control of the channel `id` is given up. -/
def State.loses : State → InputEvent → ℤ → Bool
  | .connected (.releasingControl channelId), .connection (.received m), id =>
    m.command = .controlReleased ∧ channelId = id
  | _, _, _ => false

theorem gains_serves {s : State} {e : InputEvent} {id : ℤ} (h : s.gains e id = true) :
    s.serves e = true := by
  unfold State.gains at h
  split at h <;> simp_all [State.serves, ConnectedState.serves]

theorem loses_serves {s : State} {e : InputEvent} {id : ℤ} (h : s.loses e id = true) :
    s.serves e = true := by
  unfold State.loses at h
  split at h <;> simp_all [State.serves, ConnectedState.serves]

def ownedAfter (s : State) (e : InputEvent) (c : ChannelImpl) : Bool :=
  s.gains e c.id || c.owned && !s.loses e c.id

/-- The entries after an event: those before it with their flags after it, and new ones. -/
def Entries (s : State) (e : InputEvent) (w v : Context) : Prop :=
  ∀ c ∈ v.channels, (∃ d ∈ w.channels, c = { d with owned := ownedAfter s e d }) ∨
    c.owned = false ∧ w.constructed ≤ c.address ∧ s.gains e c.id = false

section
variable {env : Environment} {s t : State} {e : InputEvent} {w v : Context}

theorem entries_of_extends (hg : ∀ id, s.gains e id = false) (hl : ∀ id, s.loses e id = false)
    (h : ∀ c ∈ v.channels, c ∈ w.channels ∨ c.owned = false ∧ w.constructed ≤ c.address) :
    Entries s e w v := by
  intro c hc
  obtain hc | ⟨howned, hnew⟩ := h c hc
  · exact .inl ⟨c, hc, by simp [ownedAfter, hg, hl]⟩
  · exact .inr ⟨howned, hnew, hg c.id⟩

theorem mem_ownedMapAll {m : Channels} {ids : List ℤ} {c : ChannelImpl}
    (hc : c ∈ ownedMapAll m ids) :
    ∃ d ∈ m, c = { d with owned := decide (d.id ∈ ids) || d.owned } := by
  induction ids generalizing m with
  | nil => exact ⟨c, hc, by simp⟩
  | cons id ids ih =>
    obtain ⟨d, hd, rfl⟩ := ih hc
    obtain ⟨x, hx, rfl⟩ := mem_ownedMap.mp hd
    refine ⟨x, hx, ?_⟩
    by_cases hid : x.id = id <;> simp [ownedAt, hid]

theorem Handled.entries (h : Handled env w s e (.ok t v)) : Entries s e w v := by
  cases h with
  | unexpected hs | defaulted hs =>
    refine entries_of_extends (fun id => ?_) (fun id => ?_) fun c hc => .inl hc
    · exact Bool.eq_false_iff.mpr fun h => by simp [gains_serves h] at hs
    · exact Bool.eq_false_iff.mpr fun h => by simp [loses_serves h] at hs
  | setupAccepted hc hr hv | addAccepted hc hr hv =>
    exact entries_of_extends (by simp [State.gains]) (by simp [State.loses]) hv.extends.2
  | setupRejected hc hr hd =>
    cases hd
    exact entries_of_extends (by simp [State.gains]) (by simp [State.loses]) fun c hc => .inl hc
  | release hs hc hd =>
    cases hd
    exact fun c hc => absurd hc (KeyedList.not_mem_empty c)
  | readyAccepted hc hr hids =>
    intro c hmem
    obtain ⟨d, hd, rfl⟩ := mem_ownedMapAll hmem
    exact .inl ⟨d, hd, by simp [ownedAfter, State.gains, State.loses, hc, hr]⟩
  | removeAccepted hc hr hf hcl =>
    exact entries_of_extends (by simp [State.gains]) (by simp [State.loses]) fun c hmem =>
      .inl (hcl.mem_iff.mp hmem).1
  | @handoverDone id m hc hr hid =>
    intro c hmem
    obtain ⟨d, hd, rfl⟩ := mem_ownedMap.mp hmem
    refine .inl ⟨d, hd, ?_⟩
    by_cases heq : d.id = id
    · simp [ownedAfter, State.gains, ownedAt, hc, hr, heq]
    · simp [ownedAfter, State.gains, State.loses, ownedAt, heq, Ne.symm heq]
  | @controlReleased id m hc hid =>
    intro c hmem
    obtain ⟨d, hd, rfl⟩ := mem_ownedMap.mp hmem
    refine .inl ⟨d, hd, ?_⟩
    by_cases heq : d.id = id
    · simp [ownedAfter, State.gains, State.loses, ownedAt, hc, heq]
    · simp [ownedAfter, State.gains, State.loses, ownedAt, heq, Ne.symm heq]
  | requestRejected hc hr =>
    exact entries_of_extends (by simp [State.gains, hc]) (by simp [State.loses]) fun c hc => .inl hc
  | _ =>
    exact entries_of_extends (by simp [State.gains, *]) (by simp [State.loses, *])
      fun c hc => .inl hc

end

/-! ### Histories -/

abbrev Step := Transition (Client State) Handling

def Step.effects (t : Step) : List Effect :=
  t.target.context.trace.drop t.source.context.trace.length

def Gains (id : ℤ) (t : Step) : Prop := t.source.state.gains t.label.event id = true

def Loses (id : ℤ) (t : Step) : Prop := t.source.state.loses t.label.event id = true

/-- Since the channel was inserted, its id was last gained. -/
def GainedLast (p : IChannel) : List Step → Prop :=
  Since (Gains p.id) fun t => Loses p.id t ∨ .inserted p ∈ t.effects

theorem gainedLast_next {h : List Step} {t : Step} {p : IChannel} :
    GainedLast p (h ++ [t]) ↔
      Gains p.id t ∨ GainedLast p h ∧ ¬ (Loses p.id t ∨ .inserted p ∈ t.effects) := since_concat

theorem reachable_tracked {c : Client State} (hc : client.Reachable c) : Tracked c.context :=
  reachable_context hc .initial fun _ _ => .act

/-- A step takes each flag to what the history up to the step says. -/
theorem owned_next {h : List Step} {c d : Client State} {a : Handling} (hc : client.Reachable c)
    (hs : client.step c a d)
    (ih : ∀ x ∈ c.context.channels, x.owned = true ↔ GainedLast x.pointer h) :
    ∀ x ∈ d.context.channels, x.owned = true ↔ GainedLast x.pointer (h ++ [⟨c, a, d⟩]) := by
  intro x hx
  have hh := step_handled hc hs
  have hbefore := reachable_tracked hc
  have hafter := reachable_tracked (hc.next hs)
  have hinserted {p : IChannel} : .inserted p ∈ Step.effects ⟨c, a, d⟩ ↔
      .inserted p ∈ d.context.trace ∧ c.context.constructed ≤ p.address :=
    hbefore.inserted_mem_drop hh.acts
  rw [gainedLast_next]
  obtain ⟨y, hy, heq⟩ | ⟨howned, hnew, hg⟩ := hh.entries x hx
  · have hpointer : x.pointer = y.pointer := by
      rw [heq]
      rfl
    have hold : .inserted y.pointer ∉ Step.effects ⟨c, a, d⟩ := fun hmem =>
      absurd (hinserted.mp hmem).2 (not_le.mpr (hbefore.address_lt hy))
    have howned : x.owned = ownedAfter c.state a.event y := by rw [heq]
    rw [hpointer, howned, ← ih y hy]
    simp [ownedAfter, Gains, Loses, hold]
  · have hmem := hinserted.mpr ⟨hafter.inserted _ (pointer_mem_pointers hx), hnew⟩
    have hgains : ¬ Gains x.pointer.id ⟨c, a, d⟩ := by simp [Gains, hg]
    refine iff_of_false (by simp [howned]) ?_
    rintro (h | ⟨-, h⟩)
    · exact hgains h
    · exact h (.inr hmem)

theorem owned_eq_after {c d : Client State} {a : Handling} (hc : client.Reachable c)
    (hs : client.step c a d) {x y : ChannelImpl} (hx : x ∈ c.context.channels)
    (hy : y ∈ d.context.channels) (hp : y.pointer = x.pointer) :
    y.owned = ownedAfter c.state a.event x := by
  have hlt := (reachable_tracked hc).address_lt hx
  obtain ⟨z, hz, rfl⟩ | ⟨-, hnew, -⟩ := (step_handled hc hs).entries y hy
  · have hzx : z = x := KeyedList.eq_of_key_eq hz hx (congrArg IChannel.id hp)
    rw [hzx]
  · have haddress : y.address = x.address := congrArg IChannel.address hp
    omega

theorem owned_changed {c d : Client State} {a : Handling} (hc : client.Reachable c)
    (hs : client.step c a d) {x y : ChannelImpl} (hx : x ∈ c.context.channels)
    (hy : y ∈ d.context.channels) (hp : y.pointer = x.pointer) (hne : y.owned ≠ x.owned) :
    Gains x.id ⟨c, a, d⟩ ∨ Loses x.id ⟨c, a, d⟩ := by
  by_contra hnot
  obtain ⟨hg, hl⟩ := not_or.mp hnot
  refine hne ?_
  simp only [Gains, Loses, Bool.not_eq_true] at hg hl
  simp [owned_eq_after hc hs hx hy hp, ownedAfter, hg, hl]

end Pilot

theorem Device.Handled.entries {env : Environment} {s t : Device.State} {e : InputEvent}
    {w v : Context} (h : Device.Handled env w s e (.ok t v)) :
    ∀ c ∈ v.channels, c ∈ w.channels ∨ c.owned = false := by
  intro c hc
  cases h with
  | attached hs hm hv => exact (hv.extends.2 c hc).imp_right And.left
  | releaseChannels hm hf hcl => exact .inl (hcl.mem_iff.mp hc).1
  | operationEnded hm => exact absurd hc (KeyedList.not_mem_empty c)
  | setupRejected hm hr hd | released hm hr hd =>
    cases hd
    exact .inl hc
  | _ => exact .inl hc

/-- A pilot's channel is owned exactly when, since it was inserted, the last handover of its
id was a gain; no other event changes a flag; and a device owns no channel. -/
theorem owned_iff_gained :
    (∀ h c, Pilot.client.Run h c →
      (∀ x ∈ c.context.channels, x.owned = true ↔ Pilot.GainedLast x.pointer h) ∧
      ∀ t ∈ h, ∀ x ∈ t.source.context.channels, ∀ y ∈ t.target.context.channels,
        y.pointer = x.pointer → y.owned ≠ x.owned → Pilot.Gains x.id t ∨ Pilot.Loses x.id t) ∧
    ∀ h c, Device.client.Run h c → ∀ x ∈ c.context.channels, x.owned = false := by
  refine ⟨fun h c hr => ⟨?_, ?_⟩, fun h c hr => ?_⟩
  · refine hr.induct (P := fun h c => ∀ x ∈ c.context.channels,
      x.owned = true ↔ Pilot.GainedLast x.pointer h) ?_ ?_
    · rintro s rfl x hx
      exact absurd hx (KeyedList.not_mem_empty x)
    · intro h s a t hr ih hs
      exact Pilot.owned_next hr.reachable hs ih
  · intro t ht x hx y hy hpointer hne
    obtain ⟨hreach, hs⟩ := hr.mem_step ht
    exact Pilot.owned_changed hreach hs hx hy hpointer hne
  · refine Device.reachable_invariant (P := fun _ w => ∀ x ∈ w.channels, x.owned = false)
      hr.reachable (fun x hx => absurd hx (KeyedList.not_mem_empty x)) fun hh hall x hx => ?_
    obtain hx | howned := hh.entries x hx
    · exact hall x hx
    · exact howned

/-- Control of a channel given up and taken again: the flag is set, by the second gain. -/
theorem owned_iff_gained_again : ∃ h c, Pilot.client.Run h c ∧
    c.context.channels.entries = [⟨1, 0, .udp, true⟩] ∧ Pilot.GainedLast ⟨1, 0⟩ h := by
  obtain ⟨h, c, hr, hp⟩ := TransitionSystem.exists_run ⟨.disconnected, .initial⟩
    (Client.step Pilot.handleEvent)
    ([.user (.operate 7 []), .received { command := .setup, response := .accepted
                                         channelsResponse := [{ id := 1 }] },
      .received { command := .channelsReady, response := .accepted, channelsIndication := [1] },
      .received { command := .releaseControl, response := .accepted, channelsIndication := [1] },
      .user (.releaseAccepted []),
      .received { command := .controlReleased, response := .accepted },
      .user (.requestControl 1),
      .received { command := .controlReady, response := .accepted }].map
      (Handling.mk (.permissive fun _ => true)))
    (p := fun _ c => decide (c.context.channels.entries = [⟨1, 0, .udp, true⟩])) (by decide +kernel)
  have hentries := of_decide_eq_true hp
  have hmem : (⟨1, 0, .udp, true⟩ : ChannelImpl) ∈ c.context.channels := by
    simp [KeyedList.mem_def, hentries]
  exact ⟨h, c, hr, hentries, ((owned_iff_gained.1 h c hr).1 _ hmem).mp rfl⟩

end FmClient
