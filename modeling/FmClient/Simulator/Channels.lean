import FmClient.Run.Lifetime
import FmClient.Run.Session
import FmClient.Simulator.ISimulator

/-! The map of a simulator beside that of its client: whatever the traffic thread wakes up to, it
sends on channels that exist, and between two events it holds the reported ones. -/
namespace FmClient
open Lib Handler ChannelsHandler ISimulator

def Effect.isUnseen : Effect → Bool
  | .event (.channelsOpened _) | .event (.channelsClosing _) | .closed _ => false
  | _ => true

theorem Effect.isUnseen_iff {e : Effect} :
    e.isUnseen = true ↔ notices e = false ∧ e.isReport = false := by
  cases e with
  | event event => cases event <;> simp [isUnseen, notices, isReport]
  | _ => simp [isUnseen, notices, isReport]

theorem Effect.not_isOpening {e : Effect} (he : notices e = false) : e.isOpening = false := by
  cases e with
  | event event => cases event <;> simp_all [notices, isOpening]
  | _ => rfl

theorem Effect.isUnseen_of_isQuiet {e : Effect} (he : e.isQuiet = true) : e.isUnseen = true := by
  cases e with
  | event event => cases event <;> simp_all [isQuiet, isReport, isUnseen]
  | _ => simp_all [isQuiet, isPlain, isUnseen]

theorem ChannelsHandler.Validations.unseen {w : Context}
    {batch : List (ChannelResponse × Except String Bool)}
    {out : EStateM.Result Fault Context (List IChannel)} (h : Validations w batch out) :
    ∃ es, (contextOf out).trace = w.trace ++ es ∧ es.all Effect.isUnseen = true := by
  obtain ⟨es, ht, hes⟩ := h.validating
  refine ⟨es, ht, List.all_eq_true.mpr fun e he => ?_⟩
  have hvalidating := List.all_eq_true.mp hes e he
  cases e <;> first | rfl | exact absurd hvalidating Bool.false_ne_true

/-! ### Closing -/

theorem ChannelsHandler.Closes.isClosing {m left : Channels} {ids : List ℤ} {es : List Effect}
    (h : Closes m ids left es) : ∀ e ∈ es, e.isClosing = true := by
  induction h with
  | nil => simp
  | found hc h ih => simpa [Effect.isClosing] using ih
  | missing hid h ih => simpa [Effect.isClosing] using ih

theorem ChannelsHandler.Finds.found {m : Channels} {ids : List ℤ} {ps : List IChannel}
    (h : Finds m ids ps) {p : IChannel} (hp : p ∈ ps) : ∃ c ∈ m, c.id ∈ ids ∧ c.pointer = p := by
  induction h with
  | nil => simp at hp
  | @cons c ids ps hc h ih =>
    obtain rfl | hp := List.mem_cons.mp hp
    · exact ⟨c, hc, List.mem_cons_self, rfl⟩
    · obtain ⟨d, hd, hid, rfl⟩ := ih hp
      exact ⟨d, hd, List.mem_cons_of_mem _ hid, rfl⟩

theorem ChannelsHandler.Closes.mem_closed {m left : Channels} {ids : List ℤ} {es : List Effect}
    (h : Closes m ids left es) {p : IChannel} :
    .closed p ∈ es ↔ ∃ c ∈ m, c.id ∈ ids ∧ c.pointer = p := by
  induction h with
  | nil => simp
  | @found m n c ids es hc h ih =>
    have hhead : .closed p ∈ .logged (closingLine c.id) :: .closed c.pointer ::
        .erased c.pointer :: es ↔ p = c.pointer ∨ .closed p ∈ es := by simp
    rw [hhead, ih]
    constructor
    · rintro (rfl | ⟨d, hd, hid, rfl⟩)
      · exact ⟨c, hc, List.mem_cons_self, rfl⟩
      · exact ⟨d, (KeyedList.mem_erase.mp hd).1, List.mem_cons_of_mem _ hid, rfl⟩
    · rintro ⟨d, hd, hid, rfl⟩
      by_cases heq : d.id = c.id
      · rw [KeyedList.eq_of_key_eq hd hc heq]
        exact .inl rfl
      · exact .inr ⟨d, KeyedList.mem_erase.mpr ⟨hd, heq⟩,
          (List.mem_cons.mp hid).resolve_left heq, rfl⟩
  | @missing m n id ids es hid h ih =>
    have hne {d : ChannelImpl} (hd : d ∈ m) : d.id ≠ id := fun heq =>
      hid (heq ▸ KeyedList.key_mem_keys hd)
    have htail : .closed p ∈ .logged (notExistingLine id) :: es ↔ .closed p ∈ es := by simp
    rw [htail, ih]
    refine exists_congr fun d => and_congr_right fun hd => and_congr_left fun _ => ?_
    rw [List.mem_cons, or_iff_right (hne hd)]

theorem closing_of_closes {m left : Channels} {ids : List ℤ} {ps : List IChannel}
    {es : List Effect} (hf : Finds m ids ps) (h : Closes m ids left es) : Closing ps es where
  effects := h.isClosing
  closed p := by
    rw [h.mem_closed]
    refine ⟨?_, hf.found⟩
    rintro ⟨c, hc, hid, rfl⟩
    exact hf.mem hc hid
  erased := by
    clear hf
    induction h with
    | nil => exact each_nil
    | @found m n c ids es hc h ih =>
      have hpair : Each ClosedBefore
          ([] ++ [.logged (closingLine c.id), .closed c.pointer]) :=
        (each_append (by simp [ClosedBefore])).mpr each_nil
      have hone : Each ClosedBefore
          ([.logged (closingLine c.id), .closed c.pointer] ++ [.erased c.pointer]) :=
        each_concat.mpr ⟨hpair, by simp [ClosedBefore]⟩
      exact hone.append fun u e hu => (ih u e hu).after _
    | @missing m n id ids es hid h ih =>
      have hline : Each ClosedBefore ([] ++ [.logged (notExistingLine id)]) :=
        (each_append (by simp [ClosedBefore])).mpr each_nil
      exact hline.append fun u e hu => (ih u e hu).after _

theorem closing_closeAllEffects (m : Channels) : Closing (pointers m) (closeAllEffects m) where
  effects := by
    intro e he
    simp only [closeAllEffects, List.mem_append, List.mem_flatMap, List.mem_map, List.mem_cons,
      List.not_mem_nil, or_false] at he
    obtain ⟨c, -, rfl | rfl⟩ | ⟨c, -, rfl⟩ := he <;> rfl
  closed p := by
    simp [closeAllEffects, pointers, eq_comm]
  erased := by
    have hclosed : Each ClosedBefore ([] ++
        m.entries.flatMap fun c => [.logged (closingLine c.id), .closed c.pointer]) := by
      refine (each_append fun e he u p heq => ?_).mpr each_nil
      subst heq
      simp at he
    refine hclosed.append ?_
    rintro u _ hu p rfl
    have hp : .erased p ∈ m.entries.map fun c => Effect.erased c.pointer := hu.subset (by simp)
    obtain ⟨c, hc, heq⟩ := List.mem_map.mp hp
    cases heq
    simp only [List.nil_append, List.mem_append, List.mem_flatMap]
    exact .inl ⟨c, hc, by simp⟩

/-! ### What a handler may do -/

def Unseen (w v : Context) : Prop :=
  ∃ es, v.trace = w.trace ++ es ∧ es.all Effect.isUnseen = true

theorem all_isUnseen_of_all_isQuiet {es : List Effect} (hes : es.all Effect.isQuiet = true) :
    es.all Effect.isUnseen = true := by
  rw [List.all_eq_true] at hes ⊢
  exact fun e he => Effect.isUnseen_of_isQuiet (hes e he)

namespace Unseen
variable {w v : Context} {es : List Effect}

theorem refl : Unseen w w := ⟨[], (List.append_nil _).symm, rfl⟩

theorem emit (h : Unseen w v) (hes : es.all Effect.isUnseen = true) : Unseen w (v.emit es) := by
  obtain ⟨fs, ht, hfs⟩ := h
  exact ⟨fs ++ es, by rw [Context.emit_trace, ht, List.append_assoc], by simp [hfs, hes]⟩

theorem recalled (h : Unseen w v) : Unseen w v.recalled := by
  obtain ⟨fs, ht, hfs⟩ := h
  refine ⟨fs ++ v.recalls, by rw [Context.recalled_trace, ht, List.append_assoc], ?_⟩
  rw [List.all_append, hfs, all_isUnseen_of_all_isQuiet v.recalls_isQuiet]
  rfl

theorem disconnects {σ : Type} {env : Environment} {disconnected : σ}
    {r : EStateM.Result Fault Context σ} (h : Unseen w v)
    (hd : Disconnects env disconnected v r) : Unseen w (contextOf r) := by
  cases hd with
  | closed hf => exact h.emit rfl
  | failed hf => exact h.emit rfl

end Unseen

/-- As it was before and after each event, and safe at every moment. -/
structure Followed (w : Context) : Prop where
  sound : Sound w
  sendable : Always Sendable w.trace
  held : Holds (reported w.trace) w.trace
  threads : Threads w.trace

namespace Followed
variable {w v : Context} {es : List Effect} {ps : List IChannel}

theorem initial : Followed .initial where
  sound := .initial
  sendable := by
    refine always_nil.mpr fun s hs => ?_
    cases hs
    simp [ISimulator.initial]
  held s hs := by
    cases hs
    simp [ISimulator.initial, reported, Context.initial]
  threads := .initial

theorem unique (h : Followed w) {p q : IChannel} (hp : p ∈ pointers w.channels)
    (hq : q ∈ reported w.trace) (hid : q.id = p.id) : q = p := by
  obtain ⟨c, hc, rfl⟩ := mem_pointers.mp hp
  obtain ⟨d, hd, rfl⟩ := mem_pointers.mp (h.sound.reported_mem hq)
  rw [KeyedList.eq_of_key_eq hd hc hid]

theorem unseen (h : Followed w) (hv : Sound v) (hu : Unseen w v) : Followed v := by
  obtain ⟨es, ht, hes⟩ := hu
  have hsplit : ∀ e ∈ es, notices e = false ∧ e.isReport = false := fun e he =>
    Effect.isUnseen_iff.mp (List.all_eq_true.mp hes e he)
  have hheld (u : List Effect) (hu : u <+: es) :
      Holds (reported (w.trace ++ u)) (w.trace ++ u) := by
    rw [reported_append fun e he => (hsplit e (hu.subset he)).2]
    exact h.held.append fun e he => (hsplit e (hu.subset he)).1
  refine ⟨hv, ?_, ?_, ?_⟩ <;> rw [ht]
  · refine always_append h.sendable fun u hu => (hheld u hu).sendable ?_
    have hvalid := hv.valid
    rw [ht] at hvalid
    exact hvalid _ ((List.prefix_append_right_inj _).mpr hu)
  · exact hheld es List.prefix_rfl
  · exact h.threads.append fun e he => Effect.not_isOpening (hsplit e he).1

theorem opened (h : Followed w) (hps : ∀ p ∈ ps, p ∈ pointers w.channels) :
    Followed (w.emit [.event (.channelsOpened ps)]) := by
  have hs := h.sound.opened hps
  have hheld : Holds (reported w.trace ++ ps) (w.trace ++ [.event (.channelsOpened ps)]) := by
    refine h.held.opened fun p hp q hq hid => ?_
    obtain hq | hq := hq
    · exact h.unique (hps p hp) hq hid
    · obtain ⟨c, hc, rfl⟩ := mem_pointers.mp (hps p hp)
      obtain ⟨d, hd, rfl⟩ := mem_pointers.mp (hps q hq)
      rw [KeyedList.eq_of_key_eq hd hc hid]
  rw [← show reported (w.trace ++ [.event (.channelsOpened ps)]) = reported w.trace ++ ps from
    reported_concat] at hheld
  exact ⟨hs, always_concat.mpr ⟨h.sendable, hheld.sendable hs.valid.last⟩, hheld,
    h.threads.opened h.held⟩

theorem announced (h : Followed w) (hv : Sound (v.emit (.event (.channelsClosing ps) :: es)))
    (ht : v.trace = w.trace) (hc : Closing ps es) (hps : ∀ p ∈ ps, p ∈ pointers w.channels) :
    Followed (v.emit (.event (.channelsClosing ps) :: es)) := by
  have hreports : ∀ e ∈ es, e.isReport = false := fun e he => by
    have hclosing := hc.effects e he
    cases e <;> simp_all [Effect.isClosing, Effect.isReport]
  have hunique : ∀ p ∈ ps, ∀ q ∈ reported w.trace, q.id = p.id → q = p := fun p hp q hq =>
    h.unique (hps p hp) hq
  have hbefore : Holds (reported w.trace) (w.trace ++ [.event (.channelsClosing ps)]) :=
    h.held.append (by simp [notices])
  have hpresent : ∀ p ∈ reported w.trace, p ∈ present (w.trace ++ [.event (.channelsClosing ps)]) :=
    fun p hp => mem_present_append (h.sound.valid.last p hp) (by simp)
  have hsends : Always Sendable (w.trace ++ [.event (.channelsClosing ps)]) :=
    always_concat.mpr ⟨h.sendable, hbefore.sendable hpresent⟩
  have hquiet : ∀ e ∈ es, e.isOpening = false := fun e he => by
    have hclosing := hc.effects e he
    cases e <;> simp_all [Effect.isClosing, Effect.isOpening]
  have hthreads : Threads (w.trace ++ [.event (.channelsClosing ps)]) :=
    h.threads.append (by simp [Effect.isOpening])
  refine ⟨hv, ?_, ?_, ?_⟩ <;> rw [Context.emit_trace, ht, List.append_cons]
  · exact hc.sendable hsends hbefore hpresent hunique
  · rw [reported_append hreports, reported_concat]
    refine (hbefore.closing hc.effects fun p hp => hunique p ((hc.closed p).mp hp)).congr ?_
    simp [report, hc.closed]
  · exact hthreads.append hquiet

theorem closes {ids : List ℤ} {left : Channels} (h : Followed w) (hf : Finds w.channels ids ps)
    (hcl : Closes w.channels ids left es) :
    Followed ((w.withChannels left).emit (.event (.channelsClosing ps) :: es)) := by
  refine h.announced (h.sound.closes hf hcl) rfl (closing_of_closes hf hcl) fun p hp => ?_
  obtain ⟨c, hc, -, rfl⟩ := hf.found hp
  exact pointer_mem_pointers hc

theorem closeAll (h : Followed w) : Followed ((w.withChannels .empty).emit
    (.event (.channelsClosing (pointers w.channels)) :: closeAllEffects w.channels)) :=
  h.announced h.sound.closeAll rfl (closing_closeAllEffects w.channels) fun _ hp => hp

end Followed

/-! ### The pilot -/

namespace Pilot
variable {env : Environment} {s : State} {e : InputEvent} {w : Context}
  {r : EStateM.Result Fault Context State}

theorem unseen_ownedContext (w : Context) (ids : List ℤ) : Unseen w (ownedContext w ids) :=
  Unseen.emit (v := w.withChannels _) .refl (by simp [Effect.isUnseen])

theorem Handled.followed (h : Handled env w s e r) (hw : Followed w)
    (hps : ∀ p ∈ s.pending, p ∈ pointers w.channels)
    (hfresh : FreshRejections w.channels.keys (batch env s e)) : Followed (contextOf r) := by
  have hs := h.sound hw.sound hps hfresh
  have hrefl : Unseen w w := .refl
  have howned (ids : List ℤ) : Followed (ownedContext w ids) :=
    hw.unseen (sound_ownedContext hw.sound ids) (unseen_ownedContext w ids)
  cases h with
  | readyAccepted hc hr hids =>
    refine ((howned _).opened ?_).unseen hs (Unseen.recalled .refl)
    simpa [ownedContext, State.pending] using hps
  | release _ hc hd =>
    have hclosed : Followed (releaseContext w) := by
      rw [releaseContext, ← Context.emit_emit]
      exact hw.closeAll.unseen (hw.closeAll.sound.emit rfl) (Unseen.emit .refl rfl)
    exact hclosed.unseen hs (Unseen.disconnects .refl hd)
  | removeAccepted hc hr hf hcl =>
    rw [← Context.emit_emit] at hs ⊢
    exact (hw.closes hf hcl).unseen hs (Unseen.emit .refl rfl).recalled
  | setupAccepted hc hr hv | addAccepted hc hr hv =>
    obtain ⟨es, ht, hes⟩ := hv.unseen
    exact hw.unseen hs (Unseen.emit ⟨es, ht, hes⟩ rfl)
  | setupFailed hc hr hv | addFailed hc hr hv | setupDangling hc hr hv | addDangling hc hr hv =>
    exact hw.unseen hs hv.unseen
  | setupRejected hc hr hd => exact hw.unseen hs ((hrefl.emit rfl).disconnects hd)
  | defaulted => exact hw.unseen hs (hrefl.emit (all_isUnseen_of_all_isQuiet (by simp)))
  | readyMissing hc hr hm hid => exact hw.unseen hs ((unseen_ownedContext w _).emit rfl)
  | connectionLost | releaseControlEmpty | removeMissing | handoverMissing | releasedMissing =>
    exact hw
  | operationUpdated hc => exact hw.unseen hs (hrefl.emit rfl).recalled
  | addRejected | removeRejected | requestRejected | releaseRejected | handoverDone
  | controlReleased =>
    exact hw.unseen hs (Unseen.recalled (Unseen.emit (v := w.withChannels _) .refl rfl))
  | operateStarted ho hf =>
    exact hw.unseen hs (Unseen.emit (v := w.withReader true) .refl rfl)
  | _ => exact hw.unseen hs (hrefl.emit rfl)

end Pilot

/-! ### The device -/

namespace Device
variable {env : Environment} {s : State} {e : InputEvent} {w : Context}
  {r : EStateM.Result Fault Context State}

theorem Handled.followed (h : Handled env w s e r) (hw : Followed w)
    (hfresh : FreshRejections w.channels.keys (batch env s e)) : Followed (contextOf r) := by
  have hs := h.sound hw.sound hfresh
  have hrefl : Unseen w w := .refl
  cases h with
  | defaulted => exact hw.unseen hs (hrefl.emit (all_isUnseen_of_all_isQuiet (by simp)))
  | attachStarted ha hf => exact hw.unseen hs (Unseen.emit (v := w.withReader true) .refl rfl)
  | setupRejected hc hr hd => exact hw.unseen hs ((hrefl.emit rfl).disconnects hd)
  | attached hs' hc hv =>
    rw [batch_attachChannels (hs'.imp And.left fun h => ⟨_, h⟩) hc] at hfresh
    have hbatch := hw.unseen (hw.sound.validations hv hfresh) hv.unseen
    have hopened := hbatch.opened (hw.sound.validations_mem hv hfresh)
    rw [← List.singleton_append, ← Context.emit_emit] at hs ⊢
    exact hopened.unseen hs (Unseen.emit .refl rfl)
  | attachFailed _ hc hv => exact hw.unseen hs hv.unseen
  | attachDangling hs' hc hv hp hnot =>
    rw [batch_attachChannels hs' hc] at hfresh
    exact absurd (hw.sound.validations_mem hv hfresh _ hp) hnot
  | releaseChannels hc hf hcl =>
    rw [← Context.emit_emit] at hs ⊢
    exact (hw.closes hf hcl).unseen hs (Unseen.emit .refl rfl)
  | releaseMissing hc hm hid => exact hw
  | operationEnded hc =>
    rw [endedContext, ← Context.emit_emit] at hs ⊢
    exact hw.closeAll.unseen hs (Unseen.emit .refl rfl)
  | released hc hr hd => exact hw.unseen hs (hrefl.disconnects hd)
  | _ => exact hw.unseen hs (hrefl.emit rfl)

end Device

/-! ### Runs -/

theorem Pilot.run_followed {h : List (Transition (Client State) Handling)} {c : Client State}
    (hr : client.Run h c) (hfresh : ∀ t ∈ h, FreshStep t.source t.label) :
    Followed c.context ∧ ∀ p ∈ c.state.pending, p ∈ pointers c.context.channels := by
  refine fresh_invariant (P := fun s w => Followed w ∧ ∀ p ∈ s.pending, p ∈ pointers w.channels)
    hr hfresh ⟨.initial, by simp [State.pending]⟩ fun hh hfresh hinv => ?_
  obtain ⟨hw, hps⟩ := hinv
  exact ⟨hh.followed hw hps hfresh, hh.pending hw.sound hps hfresh⟩

theorem Device.run_followed {h : List (Transition (Client State) Handling)} {c : Client State}
    (hr : client.Run h c) (hfresh : ∀ t ∈ h, FreshStep t.source t.label) : Followed c.context :=
  fresh_invariant (P := fun _ w => Followed w) hr hfresh .initial fun hh hfresh hw =>
    hh.followed hw hfresh

/-- As long as no rejected channel was open, the traffic thread sends on channels that exist,
whenever it wakes up: the handler that runs next, or throws, included. -/
theorem traffic_sends_on_channels (a : Handling) :
    (∀ h c, Pilot.client.Run h c → (∀ t ∈ h, Pilot.FreshStep t.source t.label) →
      Always Sendable c.context.trace ∧ (Pilot.FreshStep c a → Always Sendable
        (contextOf (Pilot.handleEvent a.environment a.event c.state c.context)).trace)) ∧
    ∀ h c, Device.client.Run h c → (∀ t ∈ h, Device.FreshStep t.source t.label) →
      Always Sendable c.context.trace ∧ (Device.FreshStep c a → Always Sendable
        (contextOf (Device.handleEvent a.environment a.event c.state c.context)).trace) := by
  refine ⟨fun h c hr hfresh => ?_, fun h c hr hfresh => ?_⟩
  · obtain ⟨hw, hps⟩ := Pilot.run_followed hr hfresh
    have hh := Pilot.handled a.environment a.event c.state (Pilot.reachable_rests hr.reachable)
      c.context
    exact ⟨hw.sendable, fun ha => (hh.followed hw hps ha).sendable⟩
  · have hw := Device.run_followed hr hfresh
    have hh := Device.handled a.environment a.event c.state (Device.reachable_rests hr.reachable)
      c.context
    exact ⟨hw.sendable, fun ha => (hh.followed hw ha).sendable⟩

def operationRun : List Handling :=
  [.user .attach, .received { command := .setup, response := .accepted },
    .received { command := .attachChannels, response := .accepted
                channelsResponse := [{ id := 1 }, { id := 2 }] },
    .received { command := .releaseChannels, response := .accepted, channelsIndication := [1] },
    .received { command := .operationEnded, response := .accepted }].map
  (Handling.mk (.permissive fun _ => true))

/-- Channel 2 is left when channel 1 has been closed, and nothing once the operation has ended. -/
theorem traffic_sends_on_channels_operation : ∃ h c, Device.client.Run h c ∧
    (simulate c.context.trace).bind trafficRound = some [⟨2, 1⟩] ∧
    Always Sendable c.context.trace ∧
    Always Sendable (contextOf (Device.handleEvent (.permissive fun _ => true)
      (.received { command := .operationEnded, response := .accepted }) c.state
        c.context)).trace := by
  let a : Handling := ⟨.permissive fun _ => true,
    .received { command := .operationEnded, response := .accepted }⟩
  obtain ⟨h, c, hr, hp⟩ := TransitionSystem.exists_run ⟨.disconnected, .initial⟩
    (Client.step Device.handleEvent) (operationRun.take 4)
    (p := fun h c => decide ((∀ t ∈ h, Device.FreshStep t.source t.label) ∧
      Device.FreshStep c a ∧
      (simulate c.context.trace).bind trafficRound = some [⟨2, 1⟩])) (by decide +kernel)
  obtain ⟨hfresh, ha, hround⟩ := of_decide_eq_true hp
  obtain ⟨hnow, hnext⟩ := (traffic_sends_on_channels a).2 h c hr hfresh
  exact ⟨h, c, hr, hround, hnow, hnext ha⟩

/-- A simulator that has not been terminated holds the channels that were reported and not
announced to be closing since; its traffic thread ends once the machine is between sessions. -/
theorem simulator_holds_reported :
    (∀ h c s, Pilot.client.Run h c → (∀ t ∈ h, Pilot.FreshStep t.source t.label) →
      simulate c.context.trace = some s →
      (∀ p, p ∈ s.channels ↔ p ∈ reported c.context.trace) ∧
        (c.state.vacant = true → s.trafficRound = none)) ∧
    ∀ h c s, Device.client.Run h c → (∀ t ∈ h, Device.FreshStep t.source t.label) →
      simulate c.context.trace = some s →
      (∀ p, p ∈ s.channels ↔ p ∈ reported c.context.trace) ∧
        (c.state.vacant = true → s.trafficRound = none) := by
  have hround {w : Context} {s : ISimulator} (hw : Followed w) (hs : simulate w.trace = some s)
      (hempty : w.channels = .empty) : s.trafficRound = none := by
    have hnone : s.channels.entries = [] := by
      refine List.eq_nil_iff_forall_not_mem.mpr fun p hp => ?_
      have hreported := ((hw.held s hs).1 p).mp hp
      simpa [hempty] using hw.sound.reported_mem hreported
    rw [trafficRound, hnone]
    rfl
  refine ⟨fun h c s hr hfresh hs => ?_, fun h c s hr hfresh hs => ?_⟩
  · obtain ⟨hw, -⟩ := Pilot.run_followed hr hfresh
    exact ⟨(hw.held s hs).1, fun hv =>
      hround hw hs ((Pilot.reachable_idle hr.reachable).channels hv)⟩
  · have hw := Device.run_followed hr hfresh
    exact ⟨(hw.held s hs).1, fun hv =>
      hround hw hs ((Device.reachable_idle hr.reachable).channels hv)⟩

theorem simulator_holds_reported_operation : ∃ h c s, Device.client.Run h c ∧
    simulate c.context.trace = some s ∧ s.trafficThread = true ∧ s.trafficRound = none ∧
    ∀ p, p ∈ s.channels ↔ p ∈ reported c.context.trace := by
  obtain ⟨h, c, hr, hp⟩ := TransitionSystem.exists_run ⟨.disconnected, .initial⟩
    (Client.step Device.handleEvent) operationRun
    (p := fun h c => decide ((∀ t ∈ h, Device.FreshStep t.source t.label) ∧
      (simulate c.context.trace).any ISimulator.trafficThread = true ∧
      c.state.vacant = true)) (by decide +kernel)
  obtain ⟨hfresh, hs, hv⟩ := of_decide_eq_true hp
  obtain ⟨s, hs, hthread⟩ := Option.any_eq_true .. |>.mp hs
  obtain ⟨hheld, hround⟩ := simulator_holds_reported.2 h c s hr hfresh hs
  exact ⟨h, c, s, hr, hs, hthread, hround hv, hheld⟩

/-- The program of a simulator is terminated by the second opening of channels at a moment when
none is reported, and by nothing else. -/
theorem terminated_iff :
    (∀ h c, Pilot.client.Run h c → (∀ t ∈ h, Pilot.FreshStep t.source t.label) →
      (simulate c.context.trace = none ↔ 2 ≤ firstOpenings c.context.trace)) ∧
    ∀ h c, Device.client.Run h c → (∀ t ∈ h, Device.FreshStep t.source t.label) →
      (simulate c.context.trace = none ↔ 2 ≤ firstOpenings c.context.trace) :=
  ⟨fun _ _ hr hfresh => (Pilot.run_followed hr hfresh).1.threads.terminated,
    fun _ _ hr hfresh => (Device.run_followed hr hfresh).threads.terminated⟩

/-- A second operation, after the first has ended, or a channel attached after the only one was
released. -/
theorem terminated_iff_second_operation : ∃ h c, Device.client.Run h c ∧
    firstOpenings c.context.trace = 2 ∧ simulate c.context.trace = none := by
  obtain ⟨h, c, hr, hp⟩ := TransitionSystem.exists_run ⟨.disconnected, .initial⟩
    (Client.step Device.handleEvent) (operationRun ++ [⟨.permissive fun _ => true,
      .received { command := .attachChannels, response := .accepted
                  channelsResponse := [{ id := 1 }] }⟩])
    (p := fun h c => decide ((∀ t ∈ h, Device.FreshStep t.source t.label) ∧
      firstOpenings c.context.trace = 2)) (by decide +kernel)
  obtain ⟨hfresh, htwo⟩ := of_decide_eq_true hp
  exact ⟨h, c, hr, htwo, (terminated_iff.2 h c hr hfresh).mpr htwo.ge⟩

end FmClient
