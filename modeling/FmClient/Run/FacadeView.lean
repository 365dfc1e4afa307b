import FmClient.Run.Lifetime
import FmClient.Run.Session

/-! What the facade takes to be open, from the messages it was sent, next to the keys of
the map. A batch that ends with the rejection of an open channel sets them apart. -/
namespace FmClient
open Lib Handler ChannelsHandler

def outcomes (batch : List (ChannelResponse × Except String Bool)) : List (ℤ × Bool) :=
  batch.map fun x => (x.1.id, x.2.toOption.getD false)

/-- An id that a batch rejects in the end was not open, nor accepted earlier in the batch. -/
def Settled (keys : List ℤ) (outcomes : List (ℤ × Bool)) : Prop :=
  ∀ id, Since (· = (id, false)) (· = (id, true)) outcomes → id ∉ keys ∧ (id, true) ∉ outcomes

@[simp] theorem settled_nil (keys : List ℤ) : Settled keys [] := by
  simp [Settled]

def Agrees (view : List ℤ) (m : Channels) : Prop := ∀ id, id ∈ view ↔ id ∈ m.keys

@[simp] theorem agrees_ownedMap {view : List ℤ} {m : Channels} {id : ℤ} {owned : Bool} :
    Agrees view (ownedMap m id owned) ↔ Agrees view m := by
  simp [Agrees]

@[simp] theorem agrees_ownedMapAll {view : List ℤ} {m : Channels} {ids : List ℤ} :
    Agrees view (ownedMapAll m ids) ↔ Agrees view m := by
  simp [Agrees]

namespace ChannelsHandler
variable {w v : Context} {batch : List (ChannelResponse × Except String Bool)}
  {ps : List IChannel} {id : ℤ}

theorem Validation.map_id {r : ChannelResponse} {accepted : Bool}
    (h : Validation w r (.ok accepted) (.ok ps v)) :
    ps.map IChannel.id = if accepted then [r.id] else [] := by
  cases h with
  | accepted hr he => simp [he.mem.2]
  | rejected hr he => rfl

theorem Validation.result {r : ChannelResponse} {result : Except String Bool}
    (h : Validation w r result (.ok ps v)) : ∃ accepted, result = .ok accepted := by
  cases h with
  | accepted hr he => exact ⟨true, rfl⟩
  | rejected hr he => exact ⟨false, rfl⟩

theorem Validations.mem_ids (h : Validations w batch (.ok ps v)) :
    id ∈ ps.map IChannel.id ↔ (id, true) ∈ outcomes batch := by
  induction batch generalizing w ps with
  | nil =>
    cases h
    simp [outcomes]
  | cons x rest ih =>
    cases h with
    | @cons _ u _ r result _ ps qs hr hs =>
      obtain ⟨accepted, rfl⟩ := hr.result
      rw [List.map_append, List.mem_append, hr.map_id, ih hs]
      cases accepted <;> simp [outcomes, Except.toOption]

theorem Validations.mem_keys (h : Validations w batch (.ok ps v)) : id ∈ v.channels.keys ↔
    Since (· = (id, true)) (· = (id, false)) (outcomes batch) ∨
      id ∈ w.channels.keys ∧ (id, false) ∉ outcomes batch := by
  induction batch generalizing w ps with
  | nil =>
    cases h
    simp [outcomes]
  | cons x rest ih =>
    cases h with
    | @cons _ u _ r result _ ps qs hr hs =>
      obtain ⟨accepted, rfl⟩ := hr.result
      have hcons : outcomes ((r, .ok accepted) :: rest) = (r.id, accepted) :: outcomes rest := rfl
      rw [ih hs, hr.mem_keys, hcons, since_cons]
      cases accepted <;> simp <;> grind

theorem Validations.agrees_iff {view : List ℤ} (h : Validations w batch (.ok ps v))
    (hw : Agrees view w.channels) :
    Agrees (view ++ ps.map IChannel.id) v.channels ↔ Settled w.channels.keys (outcomes batch) := by
  refine forall_congr' fun id => ?_
  rw [List.mem_append, hw id, h.mem_ids, h.mem_keys]
  by_cases hlast : Since (· = (id, false)) (· = (id, true)) (outcomes batch)
  · have hnot := hlast.not_swap (by simp)
    obtain ⟨_, hmem, rfl⟩ := hlast.exists
    simp [hlast, hnot, hmem]
  · have hone : (∃ x ∈ outcomes batch, x = (id, true) ∨ x = (id, false)) →
        Since (· = (id, true)) (· = (id, false)) (outcomes batch) :=
      fun hx => (since_or_since hx).resolve_right hlast
    refine iff_of_true ⟨?_, ?_⟩ fun h => absurd h hlast
    · rintro (hid | hid)
      · by_cases hmem : (id, false) ∈ outcomes batch
        · exact .inl (hone ⟨_, hmem, .inr rfl⟩)
        · exact .inr ⟨hid, hmem⟩
      · exact .inl (hone ⟨_, hid, .inl rfl⟩)
    · rintro (hsince | ⟨hid, -⟩)
      · obtain ⟨_, hmem, rfl⟩ := hsince.exists
        exact .inr hmem
      · exact .inl hid

theorem Closes.mem_keys {m left : Channels} {ids : List ℤ} {es : List Effect}
    (h : Closes m ids left es) : id ∈ left.keys ↔ id ∈ m.keys ∧ id ∉ ids := by
  simp only [KeyedList.mem_keys, h.mem_iff]
  constructor
  · rintro ⟨c, ⟨hc, hid⟩, rfl⟩
    exact ⟨⟨c, hc, rfl⟩, hid⟩
  · rintro ⟨⟨c, hc, rfl⟩, hid⟩
    exact ⟨c, ⟨hc, hid⟩, rfl⟩

theorem Closes.agrees {m left : Channels} {ids : List ℤ} {es : List Effect} {view : List ℤ}
    (h : Closes m ids left es) (hm : Agrees view m) : Agrees (view.filter (· ∉ ids)) left := by
  intro id
  simp [h.mem_keys, hm id]

end ChannelsHandler

/-! ### Listening to the messages -/

@[simps] def messages : Observer ClientMessage where
  message := some

@[simp] abbrev listened {β : Type} (listen : β → ClientMessage → β) (b : β) (w : Context) : β :=
  (messages w).foldl listen b

/-! ### The device -/

namespace Device
variable {env : Environment} {s t : State} {e : InputEvent} {w v : Context}

/-- The facade's list of open channels once it has a message of the device. -/
def listen (view : List ℤ) (message : ClientMessage) : List ℤ :=
  match message.command, message.response with
  | .attachChannels, some _ => view ++ message.channelsIndication
  | .releaseChannels, some _ => view.filter (· ∉ message.channelsIndication)
  | .operationEnded, some _ => []
  | _, _ => view

@[simp] abbrev view (w : Context) : List ℤ := listened listen [] w

theorem listen_defaultEffect (env : Environment) (m : ControlMessage) (state : String)
    (ids : List ℤ) :
    ([defaultEffect env m state].filterMap messages.see).foldl listen ids = ids := by
  unfold defaultEffect
  split <;> rfl

theorem Handled.view_vacant (h : Handled env w s e (.ok t v)) (hs : s.vacant = true → view w = []) :
    t.vacant = true → view v = [] := by
  cases h with
  | unexpected => simpa using hs
  | defaulted => simpa [listen_defaultEffect] using hs
  | operationEnded hc => simp [listen]
  | setupRejected hc hr hd | released hc hr hd =>
    cases hd
    simpa [State.vacant] using hs rfl
  | attachRefused | dialFailed | attachStarted | setupAccepted | release =>
    simpa [State.vacant, listen] using hs rfl
  | _ => simp [State.vacant]

theorem reachable_agrees {c : Client State} (hc : client.Reachable c)
    (hs : c.state.vacant = true) : Agrees (view c.context) c.context.channels := by
  have hview : view c.context = [] :=
    reachable_invariant (P := fun s w => s.vacant = true → view w = []) hc (fun _ => rfl)
      Handled.view_vacant hs
  intro id
  rw [hview, (reachable_idle hc).channels hs, KeyedList.keys_empty]

theorem Handled.agrees_iff (h : Handled env w s e (.ok t v))
    (hw : Agrees (view w) w.channels) :
    Agrees (view v) v.channels ↔ Settled w.channels.keys (outcomes (batch env s e)) := by
  cases h with
  | attached hs hc hv =>
    have hbatch := hv.agrees_iff hw
    rw [batch_attachChannels (hs.imp And.left fun h => ⟨_, h⟩) hc]
    simpa [listen, messages.seen_validated hv] using hbatch
  | releaseChannels hc hf hcl =>
    have hleft := hcl.agrees hw
    refine iff_of_true ?_ (by simp [batch, hc, outcomes])
    simpa [listen, messages.see_channel hcl.channel] using hleft
  | operationEnded hc =>
    refine iff_of_true (fun id => ?_) (by simp [batch, hc, outcomes])
    have hempty : (endedContext w).channels = .empty := rfl
    simp [listen, hempty]
  | unexpected hs =>
    refine iff_of_true ?_ (by simp [batch_of_unserved hs, outcomes])
    simpa using hw
  | defaulted hs =>
    refine iff_of_true ?_ (by simp [batch_of_unserved hs, outcomes])
    simpa [listen_defaultEffect] using hw
  | setupRejected hc hr hd | released hc hr hd =>
    cases hd
    exact iff_of_true (by simpa using hw) (settled_nil _)
  | _ => exact iff_of_true (by simpa [listen] using hw) (settled_nil _)

end Device

/-! ### The pilot -/

namespace Pilot
variable {env : Environment} {s t : State} {e : InputEvent} {w v : Context}

structure View where
  reported : List ℤ
  toClose : List ℤ
  deriving DecidableEq

/-- The facade's view of the channels once it has a message of the pilot. The confirmation
of `REMOVE_CHANNELS` comes without ids: they were those of the request. -/
def listen (view : View) (message : ClientMessage) : View :=
  match message.command, message.response with
  | .channelsReady, none => { view with reported := view.reported ++ message.channelsIndication }
  | .removeChannels, none => { view with toClose := message.channelsIndication }
  | .removeChannels, some _ =>
    { view with reported := view.reported.filter (· ∉ view.toClose) }
  | .release, some _ => { view with reported := [] }
  | _, _ => view

@[simp] abbrev view (w : Context) : View := listened listen ⟨[], []⟩ w

theorem listen_defaultEffect (env : Environment) (m : ControlMessage) (state : String)
    (view : View) :
    ([defaultEffect env m state].filterMap messages.see).foldl listen view = view := by
  unfold defaultEffect
  split <;> rfl

/-- What the facade knows where there are no channels, and while some are to be closed. -/
structure Known (s : State) (view : View) : Prop where
  vacant : s.vacant = true → view.reported = []
  toClose : ∀ ids, s = .connected (.closingChannels ids) → view.toClose = ids

theorem Handled.known (h : Handled env w s e (.ok t v)) (hs : Known s (view w)) :
    Known t (view v) := by
  cases h with
  | unexpected => simpa using hs
  | defaulted => simpa [listen_defaultEffect] using hs
  | closeChannels he => exact ⟨by simp [State.vacant], by simp [listen]⟩
  | setupRejected hc hr hd =>
    cases hd
    exact ⟨by simpa [State.vacant] using hs.vacant rfl, by simp⟩
  | release hs' hc hd =>
    cases hd
    exact ⟨by simp [listen], by simp⟩
  | operateRefused | dialFailed | operateStarted =>
    exact ⟨by simpa [State.vacant, listen] using hs.vacant rfl, by simp⟩
  | _ => exact ⟨by simp [State.vacant], by simp⟩

theorem reachable_known {c : Client State} (hc : client.Reachable c) :
    Known c.state (view c.context) :=
  reachable_invariant (P := fun s w => Known s (view w)) hc ⟨fun _ => rfl, by simp⟩ Handled.known

theorem reachable_agrees {c : Client State} (hc : client.Reachable c)
    (hs : c.state.vacant = true) : Agrees (view c.context).reported c.context.channels := by
  intro id
  rw [(reachable_known hc).vacant hs, (reachable_idle hc).channels hs, KeyedList.keys_empty]

theorem Handled.agrees_iff (h : Handled env w s e (.ok t v)) (hs : Known s (view w))
    (hw : Agrees (view w).reported w.channels) :
    Agrees (view v).reported v.channels ↔ Settled w.channels.keys (outcomes (batch env s e)) := by
  cases h with
  | setupAccepted hc hr hv | addAccepted hc hr hv =>
    have hbatch := hv.agrees_iff hw
    simpa [batch, hc, hr, listen, messages.seen_validated hv] using hbatch
  | removeAccepted hc hr hf hcl =>
    have hleft := hcl.agrees hw
    have hids := hs.toClose _ rfl
    refine iff_of_true ?_ (settled_nil _)
    simpa [listen, messages.see_channel hcl.channel, hids] using hleft
  | release hs' hc hd =>
    refine iff_of_true (fun id => ?_) ?_
    · cases hd
      have hempty : (releaseContext w).channels = .empty := rfl
      simp [listen, hempty]
    · obtain rfl | ⟨ids, rfl⟩ := hs' <;> exact settled_nil _
  | unexpected hs =>
    refine iff_of_true ?_ (by simp [batch_of_unserved hs, outcomes])
    simpa using hw
  | defaulted hs =>
    refine iff_of_true ?_ (by simp [batch_of_unserved hs, outcomes])
    simpa [listen_defaultEffect] using hw
  | setupRejected hc hr hd =>
    cases hd
    exact iff_of_true (by simpa using hw) (by simp [batch, hr, outcomes])
  | readyAccepted hc hr hids =>
    refine iff_of_true ?_ (settled_nil _)
    simpa [ownedContext, messages.see_channel (ownedLines_channel _)] using hw
  | _ => exact iff_of_true (by simpa [listen] using hw) (by simp_all [batch, outcomes])

end Pilot

/-! ### Runs -/

def Pilot.State.isConnected : Pilot.State → Bool
  | .connected _ => true
  | _ => false

def Device.State.isConnected : Device.State → Bool
  | .connected _ => true
  | _ => false

def Pilot.SettledStep (t : Transition (Client Pilot.State) Handling) : Prop :=
  Settled t.source.context.channels.keys
    (outcomes (Pilot.batch t.label.environment t.source.state t.label.event))

def Device.SettledStep (t : Transition (Client Device.State) Handling) : Prop :=
  Settled t.source.context.channels.keys
    (outcomes (Device.batch t.label.environment t.source.state t.label.event))

theorem Pilot.vacant_of_outside {c : Client State} (hc : client.Reachable c)
    (hs : c.state.isConnected ≠ true) : c.state.vacant = true := by
  have hrests := reachable_rests hc
  cases h : c.state with
  | connected s => simp [h, State.isConnected] at hs
  | disconnecting => simp [h, State.rests] at hrests
  | disconnected | connecting => rfl

theorem Device.vacant_of_outside {c : Client State} (hc : client.Reachable c)
    (hs : c.state.isConnected ≠ true) : c.state.vacant = true := by
  have hrests := reachable_rests hc
  cases h : c.state with
  | connected s => simp [h, State.isConnected] at hs
  | disconnecting => simp [h, State.rests] at hrests
  | disconnected | connecting => rfl

theorem Pilot.run_agrees_iff {h : List (Transition (Client State) Handling)} {c : Client State}
    (hr : client.Run h c) : (∀ t ∈ h, t.target.state.isConnected = true →
        Agrees (view t.target.context).reported t.target.context.channels) ↔
      ∀ t ∈ h, SettledStep t := by
  refine hr.forall_target_iff (D := fun c => c.state.isConnected = true)
    (P := fun c => Agrees (view c.context).reported c.context.channels) ?_ ?_ ?_
  · intro s hs
    cases hs
    exact reachable_agrees (.init rfl) rfl
  · intro s hs houtside
    exact reachable_agrees hs (vacant_of_outside hs houtside)
  · intro s a t hs hagrees ht
    exact (step_handled hs ht).agrees_iff (reachable_known hs) hagrees

theorem Device.run_agrees_iff {h : List (Transition (Client State) Handling)} {c : Client State}
    (hr : client.Run h c) : (∀ t ∈ h, t.target.state.isConnected = true →
        Agrees (view t.target.context) t.target.context.channels) ↔ ∀ t ∈ h, SettledStep t := by
  refine hr.forall_target_iff (D := fun c => c.state.isConnected = true)
    (P := fun c => Agrees (view c.context) c.context.channels) ?_ ?_ ?_
  · intro s hs
    cases hs
    exact reachable_agrees (.init rfl) rfl
  · intro s hs houtside
    exact reachable_agrees hs (vacant_of_outside hs houtside)
  · intro s a t hs hagrees ht
    exact (step_handled hs ht).agrees_iff hagrees

/-- After every event handled in a connected state the facade's list is that of the map,
exactly as long as no batch ends with the rejection of a channel that was open or accepted:
in any run of a pilot, and in any run of a device. -/
theorem facade_view_iff {h : List (Transition (Client Pilot.State) Handling)}
    {c : Client Pilot.State} {k : List (Transition (Client Device.State) Handling)}
    {d : Client Device.State} (hr : Pilot.client.Run h c) (kr : Device.client.Run k d) :
    ((∀ t ∈ h, t.target.state.isConnected = true →
        Agrees (Pilot.view t.target.context).reported t.target.context.channels) ↔
      ∀ t ∈ h, Pilot.SettledStep t) ∧
    ((∀ t ∈ k, t.target.state.isConnected = true →
        Agrees (Device.view t.target.context) t.target.context.channels) ↔
      ∀ t ∈ k, Device.SettledStep t) :=
  ⟨Pilot.run_agrees_iff hr, Device.run_agrees_iff kr⟩

/-- Channel 1 is attached again and rejected: the map loses it, the facade's list does not. -/
theorem facade_view_drifts : ¬ ((∀ h c, Pilot.client.Run h c → ∀ t ∈ h,
      t.target.state.isConnected = true →
        Agrees (Pilot.view t.target.context).reported t.target.context.channels) ∧
    ∀ h c, Device.client.Run h c → ∀ t ∈ h, t.target.state.isConnected = true →
      Agrees (Device.view t.target.context) t.target.context.channels) := by
  intro ⟨_, hclaim⟩
  obtain ⟨h, c, hr, hp⟩ := TransitionSystem.exists_run ⟨.disconnected, .initial⟩
    (Client.step Device.handleEvent) (attachRun (fun _ => false) [{ id := 1 }])
    (p := fun h _ => decide (∃ t ∈ h, t.target.state.isConnected = true ∧
      1 ∈ Device.view t.target.context ∧ 1 ∉ t.target.context.channels.keys)) (by decide +kernel)
  obtain ⟨t, ht, hs, hmem, hkeys⟩ := of_decide_eq_true hp
  exact hkeys ((hclaim h c hr t ht hs 1).mp hmem)

/-- A pilot closes one of two channels, and a device attaches channel 1 again, which is
rejected and then accepted: both batches are settled. -/
theorem facade_view_settles : ∃ h c k d, Pilot.client.Run h c ∧ Device.client.Run k d ∧
    (∀ t ∈ h, Pilot.SettledStep t) ∧ (∀ t ∈ k, Device.SettledStep t) ∧
    (Pilot.view c.context).reported = [2] ∧ Device.view d.context = [1, 1] := by
  obtain ⟨h, c, hr, hp⟩ := TransitionSystem.exists_run ⟨.disconnected, .initial⟩
    (Client.step Pilot.handleEvent)
    ([.user (.operate 7 []), .received { command := .setup, response := .accepted
                                         channelsResponse := [{ id := 1 }, { id := 2 }] },
      .received { command := .channelsReady, response := .accepted },
      .user (.closeChannels [1]),
      .received { command := .removeChannels, response := .accepted }].map
      (Handling.mk (.permissive fun _ => true)))
    (p := fun h c => decide ((∀ t ∈ h, (∀ id ∈ (Pilot.view t.target.context).reported,
        id ∈ t.target.context.channels.keys) ∧
      ∀ id ∈ t.target.context.channels.keys, id ∈ (Pilot.view t.target.context).reported) ∧
      (Pilot.view c.context).reported = [2])) (by decide +kernel)
  obtain ⟨k, d, kr, kp⟩ := TransitionSystem.exists_run ⟨.disconnected, .initial⟩
    (Client.step Device.handleEvent) (attachRun (fun i => i = 1) [{ id := 1 }, { id := 1 }])
    (p := fun k d => decide ((∀ t ∈ k, (∀ id ∈ Device.view t.target.context,
        id ∈ t.target.context.channels.keys) ∧
      ∀ id ∈ t.target.context.channels.keys, id ∈ Device.view t.target.context) ∧
      Device.view d.context = [1, 1])) (by decide +kernel)
  obtain ⟨hagrees, hview⟩ := of_decide_eq_true hp
  obtain ⟨kagrees, kview⟩ := of_decide_eq_true kp
  obtain ⟨hiff, kiff⟩ := facade_view_iff hr kr
  refine ⟨h, c, k, d, hr, kr, hiff.mp fun t ht _ id => ?_, kiff.mp fun t ht _ id => ?_,
    hview, kview⟩
  · exact ⟨(hagrees t ht).1 id, (hagrees t ht).2 id⟩
  · exact ⟨(kagrees t ht).1 id, (kagrees t ht).2 id⟩

end FmClient
