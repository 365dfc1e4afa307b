import FmClient.Run.FacadeView

/-! What the application knows of: a channel that is open and that the listener has not been told
of is one that the pilot waits with, until the facade has confirmed it. -/
namespace FmClient
open Lib Handler ChannelsHandler

/-- The open channels have been reported, or are to be. -/
def Disclosed (w : Context) (pending : List IChannel) : Prop :=
  ∀ p ∈ pointers w.channels, p ∈ reported w.trace ∨ p ∈ pending

theorem report_of_channel {e : Effect} (he : e.isChannel = true) : e.isReport = false := by
  cases e <;> first | rfl | exact absurd he Bool.false_ne_true

theorem reported_channel {t es : List Effect} (hes : es.all Effect.isChannel = true) :
    reported (t ++ es) = reported t :=
  reported_append fun e he => report_of_channel (List.all_eq_true.mp hes e he)

namespace ChannelsHandler
variable {w v : Context} {batch : List (ChannelResponse × Except String Bool)}
  {ps : List IChannel} {p : IChannel}

theorem Emplacement.pointers_cases {id : ℤ} {c : ChannelImpl} (h : Emplacement w id c v)
    (hp : p ∈ pointers v.channels) : p ∈ pointers w.channels ∨ p = c.pointer := by
  cases h with
  | existing hc hid => exact .inl hp
  | new socket hid => simpa using hp

theorem Validation.pointers_cases {r : ChannelResponse} {result : Except String Bool}
    (h : Validation w r result (.ok ps v)) (hp : p ∈ pointers v.channels) :
    p ∈ pointers w.channels ∨ p ∈ ps := by
  cases h with
  | accepted hr he => exact (he.pointers_cases hp).imp_right List.mem_singleton.mpr
  | rejected hr he =>
    obtain ⟨hc, hid⟩ := he.mem
    obtain ⟨hp, hne⟩ := (mem_pointers_erase hc).mp (hid ▸ hp)
    exact .inl ((he.pointers_cases hp).resolve_right hne)

theorem Validations.pointers_cases (h : Validations w batch (.ok ps v))
    (hp : p ∈ pointers v.channels) : p ∈ pointers w.channels ∨ p ∈ ps := by
  induction batch generalizing w ps with
  | nil =>
    cases h
    exact .inl hp
  | cons x rest ih =>
    cases h with
    | cons hr hs =>
      rw [List.mem_append]
      obtain hp | hp := ih hs
      · exact (hr.pointers_cases hp).imp_right .inl
      · exact .inr (.inr hp)

theorem Closes.pointers_iff {m left : Channels} {ids : List ℤ} {es : List Effect}
    (h : Closes m ids left es) : p ∈ pointers left ↔ p ∈ pointers m ∧ p.id ∉ ids := by
  simp only [mem_pointers, h.mem_iff]
  constructor
  · rintro ⟨c, ⟨hc, hid⟩, rfl⟩
    exact ⟨⟨c, hc, rfl⟩, hid⟩
  · rintro ⟨⟨c, hc, rfl⟩, hid⟩
    exact ⟨c, ⟨hc, hid⟩, rfl⟩

end ChannelsHandler

namespace Disclosed
variable {w v : Context} {ps qs : List IChannel} {es : List Effect}

theorem keep (h : Disclosed w ps) (hm : ∀ p ∈ pointers v.channels, p ∈ pointers w.channels)
    (ht : reported v.trace = reported w.trace) : Disclosed v ps := by
  intro p hp
  rw [ht]
  exact h p (hm p hp)

theorem emit (h : Disclosed w ps) (hes : ∀ e ∈ es, e.isReport = false) : Disclosed (w.emit es) ps :=
  h.keep (fun _ hp => hp) (reported_append hes)

theorem recalled (h : Disclosed w ps) : Disclosed w.recalled ps :=
  h.keep (fun _ hp => hp) (reported_append fun e he => by
    have hquiet := List.all_eq_true.mp w.recalls_isQuiet e he
    simp_all [Effect.isQuiet])

theorem of_empty (hm : w.channels = .empty) : Disclosed w ps := by
  simp [Disclosed, hm]

theorem withReader (h : Disclosed w ps) (keepReader : Bool) :
    Disclosed (w.withReader keepReader) ps :=
  h.keep (fun _ hp => hp) rfl

theorem setOwned (h : Disclosed w ps) (id : ℤ) (owned : Bool) :
    Disclosed (w.withChannels (ownedMap w.channels id owned)) ps :=
  h.keep (fun p hp => by simpa using hp) rfl

theorem disconnects {σ : Type} {env : Environment} {disconnected s : σ} (h : Disclosed w ps)
    (hd : Disconnects env disconnected w (.ok s v)) : s = disconnected ∧ Disclosed v ps := by
  cases hd
  exact ⟨rfl, (h.withReader false).emit (by simp [Effect.isReport])⟩

theorem validations {batch : List (ChannelResponse × Except String Bool)} (h : Disclosed w ps)
    (hv : Validations w batch (.ok qs v)) : Disclosed v (ps ++ qs) := by
  obtain ⟨es, ht, hes⟩ := hv.channel
  have hreported : reported v.trace = reported w.trace := by
    rw [contextOf_ok] at ht
    rw [ht, reported_channel hes]
  intro p hp
  rw [hreported, List.mem_append]
  obtain hp | hp := hv.pointers_cases hp
  · exact (h p hp).imp_right .inl
  · exact .inr (.inr hp)

theorem opened (h : Disclosed w ps) : Disclosed (w.emit [.event (.channelsOpened ps)]) [] := by
  intro p hp
  rw [Context.emit_trace, reported_concat]
  exact .inl (List.mem_append.mpr (h p hp))

theorem closes {ids : List ℤ} {left : Channels} (h : Disclosed w ps) (hf : Finds w.channels ids qs)
    (hcl : Closes w.channels ids left es) :
    Disclosed ((w.withChannels left).emit (.event (.channelsClosing qs) :: es)) ps := by
  intro p hp
  obtain ⟨hp, hid⟩ := hcl.pointers_iff.mp hp
  have hnot : p ∉ qs := fun hmem => hid (hf.map_id ▸ List.mem_map_of_mem hmem)
  have htrace : w.trace ++ .event (.channelsClosing qs) :: es =
      w.trace ++ [.event (.channelsClosing qs)] ++ es := by simp
  rw [Context.emit_trace, Context.withChannels_trace, htrace, reported_channel hcl.channel,
    reported_concat]
  refine (h p hp).imp_left fun hp => ?_
  simp [report, hp, hnot]

end Disclosed

namespace Pilot
variable {env : Environment} {s t : State} {e : InputEvent} {w v : Context}

theorem Handled.disclosed (h : Handled env w s e (.ok t v)) (hw : Disclosed w s.pending) :
    Disclosed v t.pending := by
  cases h with
  | unexpected hs => exact hw.emit (by simp [Effect.isReport])
  | @defaulted s m hs =>
    have hquiet := defaultEffect_isQuiet env m s.name
    exact hw.emit (by simp_all [Effect.isQuiet])
  | setupAccepted hc hr hv | addAccepted hc hr hv =>
    exact (hw.validations hv).emit (by simp [Effect.isReport])
  | setupRejected hc hr hd =>
    obtain ⟨rfl, hv⟩ := (hw.emit (by simp [Effect.isReport])).disconnects hd
    exact hv
  | release hs hc hd =>
    obtain ⟨rfl, hv⟩ := (@Disclosed.of_empty _ [] rfl).disconnects hd
    exact hv
  | @readyAccepted chs ps m hc hr hids =>
    have howned : Disclosed (ownedContext w m.channelsIndication) ps := by
      refine hw.keep (fun p hp => by simpa [ownedContext] using hp) ?_
      exact reported_channel (ownedLines_channel _)
    exact howned.opened.recalled
  | readyRejected hc hr => exact hw.emit (by simp [Effect.isReport])
  | removeAccepted hc hr hf hcl =>
    rw [← Context.emit_emit]
    exact ((hw.closes hf hcl).emit (by simp [Effect.isReport])).recalled
  | operationUpdated | addRejected | removeRejected | requestRejected | releaseRejected =>
    exact Disclosed.recalled (hw.emit (by simp [Effect.isReport]))
  | handoverDone hc hr hid =>
    exact ((hw.setOwned _ true).emit (by simp [Effect.isReport])).recalled
  | controlReleased hc hid =>
    exact ((hw.setOwned _ false).emit (by simp [Effect.isReport])).recalled
  | operateStarted => exact (hw.withReader true).emit (by simp [Effect.isReport])
  | connectionLost => exact hw
  | _ => exact hw.emit (by simp [Effect.isReport])

theorem reachable_disclosed {c : Client State} (hc : client.Reachable c) :
    Disclosed c.context c.state.pending :=
  reachable_invariant (P := fun s w => Disclosed w s.pending) hc (.of_empty rfl) Handled.disclosed

end Pilot

namespace Device
variable {env : Environment} {s t : State} {e : InputEvent} {w v : Context}

theorem Handled.disclosed (h : Handled env w s e (.ok t v)) (hw : Disclosed w []) :
    Disclosed v [] := by
  cases h with
  | unexpected hs => exact hw.emit (by simp [Effect.isReport])
  | @defaulted s m hs =>
    have hquiet := defaultEffect_isQuiet env m s.name
    exact hw.emit (by simp_all [Effect.isQuiet])
  | attachStarted => exact (hw.withReader true).emit (by simp [Effect.isReport])
  | setupRejected hc hr hd =>
    exact ((hw.emit (by simp [Effect.isReport])).disconnects hd).2
  | attached hs hc hv =>
    rw [← List.singleton_append, ← Context.emit_emit]
    exact (hw.validations hv).opened.emit (by simp [Effect.isReport])
  | releaseChannels hc hf hcl =>
    rw [← Context.emit_emit]
    exact (hw.closes hf hcl).emit (by simp [Effect.isReport])
  | operationEnded hc => exact .of_empty rfl
  | released hc hr hd => exact (hw.disconnects hd).2
  | _ => exact hw.emit (by simp [Effect.isReport])

theorem reachable_disclosed {c : Client State} (hc : client.Reachable c) :
    Disclosed c.context [] :=
  reachable_invariant (P := fun _ w => Disclosed w []) hc (.of_empty rfl) Handled.disclosed

end Device

/-- Every open channel has been reported to the listener and not as closing since, or waits for
the facade to confirm it. Where no rejected channel was open, these are the open channels. -/
theorem channels_disclosed :
    (∀ h c, Pilot.client.Run h c → Disclosed c.context c.state.pending ∧
      ((∀ t ∈ h, Pilot.FreshStep t.source t.label) → ∀ p, p ∈ pointers c.context.channels ↔
        p ∈ reported c.context.trace ∨ p ∈ c.state.pending)) ∧
    ∀ h c, Device.client.Run h c → Disclosed c.context [] ∧
      ((∀ t ∈ h, Device.FreshStep t.source t.label) → ∀ p, p ∈ pointers c.context.channels ↔
        p ∈ reported c.context.trace) := by
  refine ⟨fun h c hr => ?_, fun h c hr => ?_⟩
  · have hdisclosed := Pilot.reachable_disclosed hr.reachable
    refine ⟨hdisclosed, fun hfresh p => ⟨hdisclosed p, ?_⟩⟩
    obtain ⟨hw, hpending⟩ := Pilot.run_sound hr hfresh
    rintro (hp | hp)
    · exact hw.reported_mem hp
    · exact hpending p hp
  · have hdisclosed := Device.reachable_disclosed hr.reachable
    refine ⟨hdisclosed, fun hfresh p => ⟨fun hp => ?_, (Device.run_sound hr hfresh).reported_mem⟩⟩
    exact (hdisclosed p hp).resolve_right List.not_mem_nil

/-- Of two channels one is rejected, and the other waits for the facade. -/
theorem channels_disclosed_waiting : ∃ h c, Pilot.client.Run h c ∧
    c.state.pending = [⟨2, 1⟩] ∧ reported c.context.trace = [] ∧
    Disclosed c.context c.state.pending ∧ ∀ p, p ∈ pointers c.context.channels ↔
      p ∈ reported c.context.trace ∨ p ∈ c.state.pending := by
  obtain ⟨h, c, hr, hp⟩ := TransitionSystem.exists_run ⟨.disconnected, .initial⟩
    (Client.step Pilot.handleEvent)
    [⟨.permissive fun _ => true, .user (.operate 7 [])⟩,
      ⟨.permissive fun i => i == 1, .received
        { command := .setup, response := .accepted
          channelsResponse := [{ id := 1 }, { id := 2 }] }⟩]
    (p := fun h c => decide ((∀ t ∈ h, Pilot.FreshStep t.source t.label) ∧
      c.state.pending = [⟨2, 1⟩] ∧ reported c.context.trace = [])) (by decide +kernel)
  obtain ⟨hfresh, hpending, hreported⟩ := of_decide_eq_true hp
  obtain ⟨hdisclosed, hall⟩ := channels_disclosed.1 h c hr
  exact ⟨h, c, hr, hpending, hreported, hdisclosed, hall hfresh⟩

end FmClient
