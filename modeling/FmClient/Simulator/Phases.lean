import FmClient.Core.Beginning
import FmClient.Simulator.Simulation

/-! The programs of the simulators up to their end: neither runs out of work before it is told
that it is done, and what its client is doing then. -/
namespace FmClient
open Lib Handler ChannelsHandler Facade

/-! ### Handlers -/

section
variable {w v : Context}

theorem ChannelsHandler.Emplacement.keepReader {id : ℤ} {c : ChannelImpl}
    (h : Emplacement w id c v) : v.keepReader = w.keepReader := by
  cases h <;> rfl

theorem ChannelsHandler.Validation.keepReader {r : ChannelResponse}
    {result : Except String Bool} {out : EStateM.Result Fault Context (List IChannel)}
    (h : Validation w r result out) : (contextOf out).keepReader = w.keepReader := by
  cases h with
  | unsupported hr hf => rfl
  | failed hr he | accepted hr he | rejected hr he => exact he.keepReader

theorem ChannelsHandler.Validations.keepReader
    {batch : List (ChannelResponse × Except String Bool)}
    {out : EStateM.Result Fault Context (List IChannel)} (h : Validations w batch out) :
    (contextOf out).keepReader = w.keepReader := by
  induction h with
  | nil => rfl
  | stop hr => exact hr.keepReader
  | cons hr hs ih | later hr hs ih => exact ih.trans hr.keepReader

end

/-- The events by which a simulator is told that it is done. -/
def FacadeEvent.ends : FacadeEvent → Bool
  | .error _ | .released => true
  | _ => false

@[simps] def endings : Observer FacadeEvent where
  event e := if e.ends then some e else none

theorem endings_eq (w : Context) : endings w = (delivered w.trace).filter FacadeEvent.ends := by
  rw [← List.filterMap_eq_filter]
  exact Observer.seen_events w _

/-- Where a handler leaves a client: at its end and told so, reading, or where it was. -/
inductive Leaves {σ : Type} (disconnected : σ) (begins rejects : Bool) (w : Context) (s : σ) :
    σ → Context → Prop where
  | ended {v : Context} (hb : s = disconnected → begins = true) (hr : rejects = false)
      (he : (endings w).length < (endings v).length) :
      Leaves disconnected begins rejects w s disconnected v
  | reading {t : σ} {v : Context} (ht : t ≠ disconnected) (hb : s = disconnected → begins = true)
      (hk : (s ≠ disconnected → w.keepReader = true) → v.keepReader = true)
      (hr : rejects = false) (he : endings v = endings w) :
      Leaves disconnected begins rejects w s t v
  /-- The end is told of, but the client goes on. -/
  | rejected {v : Context} (hs : s ≠ disconnected) (hk : v.keepReader = w.keepReader)
      (hr : rejects = true) (he : (endings w).length < (endings v).length) :
      Leaves disconnected begins rejects w s s v
  | kept {v : Context} (hs : s = disconnected) (hb : begins = false) (hr : rejects = false)
      (he : delivered v.trace = delivered w.trace) :
      Leaves disconnected begins rejects w s disconnected v

theorem Leaves.quiet {σ : Type} {disconnected s : σ} {begins : Bool} {w v : Context}
    (hb : begins = false) (hk : v.keepReader = w.keepReader)
    (he : delivered v.trace = delivered w.trace) : Leaves disconnected begins false w s s v := by
  by_cases hd : s = disconnected
  · subst hd
    exact .kept rfl hb rfl he
  · refine .reading hd (fun h => absurd h hd) (fun hread => hk.trans (hread hd)) rfl ?_
    rw [endings_eq, he, endings_eq]

/-- Where the facade rejects the channels that a pilot has validated. -/
def Pilot.State.rejects : Pilot.State → InputEvent → Bool
  | .connected (.validatingChannels _ _), .connection (.received m) =>
    m.command = .channelsReady ∧ m.response ≠ .accepted
  | _, _ => false

theorem Pilot.State.rejects_of_serves {s : State} {e : InputEvent} (h : s.serves e = false) :
    s.rejects e = false := by
  unfold rejects
  split
  · simp_all [State.serves, ConnectedState.serves]
  · rfl

theorem Pilot.State.rejects_of_command {s : State} {m : ControlMessage}
    (hc : m.command ≠ .channelsReady) : s.rejects (.received m) = false := by
  unfold rejects
  split
  · simp_all
  · rfl

theorem Pilot.handleEvent_readyRejected {env : Environment} {chs : List ChannelResponse}
    {ps : List IChannel} {m : ControlMessage} {w : Context} (hr : m.response ≠ .accepted) :
    ∃ v, handleEvent env (.received m) (.connected (.validatingChannels chs ps)) w =
      .ok (.connected (.validatingChannels chs ps)) v := by
  have hh := handled env (.received m) (.connected (.validatingChannels chs ps)) rfl w
  generalize hx : handleEvent env (.received m) (.connected (.validatingChannels chs ps)) w = r
  rw [hx] at hh
  cases hh with
  | readyRejected => exact ⟨_, rfl⟩
  | readyAccepted _ hr' => exact absurd hr' hr
  | readyMissing _ hr' => exact absurd hr' hr
  | unexpected => exact ⟨_, rfl⟩
  | defaulted => exact ⟨_, rfl⟩
  | release hs => simp at hs

theorem Pilot.Handled.leaves {env : Environment} {s t : State} {e : InputEvent} {w v : Context}
    (h : Handled env w s e (.ok t v)) :
    Leaves .disconnected (s.begins e).isSome (s.rejects e) w s t v := by
  cases h with
  | unexpected hs =>
    rw [State.rejects_of_serves hs, State.begins_of_unserved hs]
    exact .quiet rfl rfl (by simp)
  | defaulted hs =>
    rw [State.rejects_of_serves hs, State.begins_of_unserved hs]
    exact .quiet rfl rfl (by simp)
  | operateRefused ho => exact .ended (fun _ => rfl) rfl (by simp [FacadeEvent.ends])
  | dialFailed ho hf => exact .ended (fun _ => rfl) rfl (by simp [FacadeEvent.ends])
  | operateStarted ho hf =>
    exact .reading State.noConfusion (fun _ => rfl) (fun _ => rfl) rfl (by simp)
  | setupRejected hc hr hd =>
    cases hd with
    | closed hf => exact .ended State.noConfusion rfl (by simp [FacadeEvent.ends])
  | release hs hc hd =>
    cases hd with
    | closed hf =>
      refine .ended State.noConfusion (State.rejects_of_command (by simp [hc])) ?_
      simp [FacadeEvent.ends]
  | readyRejected hc hr =>
    exact .rejected State.noConfusion rfl (by simp [State.rejects, hc, hr])
      (by simp [FacadeEvent.ends])
  | setupAccepted hc hr hv =>
    exact .reading State.noConfusion State.noConfusion
      (fun hk => hv.keepReader.trans (hk State.noConfusion)) rfl
      (by simp [endings.seen_validated hv, FacadeEvent.ends])
  | addAccepted hc hr hv =>
    exact .reading State.noConfusion State.noConfusion
      (fun hk => hv.keepReader.trans (hk State.noConfusion)) rfl
      (by simp [endings.seen_validated hv])
  | readyAccepted hc hr hids =>
    exact .reading State.noConfusion State.noConfusion (fun hk => hk State.noConfusion)
      (by simp [State.rejects, hr])
      (by simp [FacadeEvent.ends])
  | removeAccepted hc hr hf hcl =>
    exact .reading State.noConfusion State.noConfusion (fun hk => hk State.noConfusion) rfl
      (by simp [FacadeEvent.ends, endings.see_channel hcl.channel])
  | _ =>
    exact .reading State.noConfusion State.noConfusion (fun hk => hk State.noConfusion) rfl
      (by simp [FacadeEvent.ends])

theorem Pilot.leaves {env : Environment} {s t : State} {e : InputEvent} {w v : Context}
    (hs : s.rests = true) (ht : handleEvent env e s w = .ok t v) :
    Leaves .disconnected (s.begins e).isSome (s.rejects e) w s t v :=
  (ht ▸ handled env e s hs w).leaves

theorem Device.Handled.leaves {env : Environment} {s t : State} {e : InputEvent} {w v : Context}
    (h : Handled env w s e (.ok t v)) :
    Leaves .disconnected (s.begins e).isSome false w s t v := by
  cases h with
  | unexpected hs =>
    rw [State.begins_of_unserved hs]
    exact .quiet rfl rfl (by simp)
  | defaulted hs =>
    rw [State.begins_of_unserved hs]
    exact .quiet rfl rfl (by simp)
  | attachRefused ho => exact .ended (fun _ => rfl) rfl (by simp [FacadeEvent.ends])
  | dialFailed ho hf => exact .ended (fun _ => rfl) rfl (by simp [FacadeEvent.ends])
  | attachStarted ho hf =>
    exact .reading State.noConfusion (fun _ => rfl) (fun _ => rfl) rfl (by simp)
  | setupRejected hc hr hd | released hc hr hd =>
    cases hd with
    | closed hf => exact .ended State.noConfusion rfl (by simp [FacadeEvent.ends])
  | attached hs hc hv =>
    exact .reading State.noConfusion State.noConfusion
      (fun hk => hv.keepReader.trans (hk State.noConfusion)) rfl
      (by simp [endings.seen_validated hv, FacadeEvent.ends])
  | releaseChannels hc hf hcl =>
    exact .reading State.noConfusion State.noConfusion (fun hk => hk State.noConfusion) rfl
      (by simp [FacadeEvent.ends, endings.see_channel hcl.channel])
  | operationEnded hc =>
    exact .reading State.noConfusion State.noConfusion (fun hk => hk State.noConfusion) rfl
      (by simp [FacadeEvent.ends])
  | _ =>
    exact .reading State.noConfusion State.noConfusion (fun hk => hk State.noConfusion) rfl
      (by simp [FacadeEvent.ends])

theorem Device.leaves {env : Environment} {s t : State} {e : InputEvent} {w v : Context}
    (hs : s.rests = true) (ht : handleEvent env e s w = .ok t v) :
    Leaves .disconnected (s.begins e).isSome false w s t v :=
  (ht ▸ handled env e s hs w).leaves

/-! ### Phases of a program -/

/-- A client whose simulator is told of every end, and begins no session but the first. -/
structure Simulated {σ : Type} (M : ClientMachine σ) (react : FacadeEvent → Reaction)
    (first : UserEvent) (begins : σ → InputEvent → Option Beginning)
    (rejects : σ → InputEvent → Bool) : Prop where
  leaves (env : Environment) (e : InputEvent) (s t : σ) (w v : Context)
    (hs : M.rests s = true) (ht : M.handleEvent env e s w = .ok t v) :
    Leaves M.initial (begins s e).isSome (rejects s e) w s t v
  done (event : FacadeEvent) : (react event).done = event.ends
  events (event : FacadeEvent) : ∀ e ∈ (react event).events, begins M.initial (.user e) = none
  first : (begins M.initial (.user first)).isSome = true
  message (m : ControlMessage) : begins M.initial (.received m) = none
  user (s : σ) (e : UserEvent) : rejects s (.user e) = false
  rejected (env : Environment) (e : InputEvent) (s : σ) (w : Context) (hs : M.rests s = true)
    (hr : rejects s e = true) : ∃ t v, M.handleEvent env e s w = .ok t v

theorem pilot_simulated (deviceId : ℤ) (nearRealTime : ℕ) :
    Simulated pilot PilotSimulator.handleEvent (PilotSimulator.start deviceId nearRealTime)
      Pilot.State.begins Pilot.State.rejects where
  leaves _ _ _ _ _ _ := Pilot.leaves
  done event := by
    cases event with
    | procedureRejected command message =>
      by_cases hc : command = .requestControl <;>
        simp [PilotSimulator.handleEvent, FacadeEvent.ends, hc]
    | _ => rfl
  events event e he := by
    have hconnects := (PilotSimulator.unpaid event e he).1
    cases e <;> first | rfl | cases hconnects
  first := rfl
  message _ := rfl
  user s e := by
    unfold Pilot.State.rejects
    split <;> first | rfl | contradiction
  rejected env e s w hs hr := by
    unfold Pilot.State.rejects at hr
    split at hr
    · simp only [decide_eq_true_eq] at hr
      exact ⟨_, Pilot.handleEvent_readyRejected hr.2⟩
    · cases hr

theorem device_simulated : Simulated device DeviceSimulator.handleEvent DeviceSimulator.start
    Device.State.begins fun _ _ => false where
  leaves _ _ _ _ _ _ := Device.leaves
  done event := by cases event <;> rfl
  events event e he := by
    have hconnects := DeviceSimulator.unpaid event e he
    cases e <;> first | rfl | cases hconnects
  first := rfl
  message _ := rfl
  user _ _ := rfl
  rejected _ _ _ _ _ hr := nomatch hr

namespace Simulation
variable {σ : Type} {M : ClientMachine σ} {react : FacadeEvent → Reaction} {first : UserEvent}
  {begins : σ → InputEvent → Option Beginning} {rejects : σ → InputEvent → Bool}
  {r s t : Simulation σ} {env : Environment} {e : InputEvent} {state : σ} {v : Context}

/-- A program before its first event, while its client reads, and at its end. -/
inductive Phase (initial : σ) (begins : σ → InputEvent → Option Beginning) (first : UserEvent)
    (s : Simulation σ) : Prop where
  | waits (hs : s.client.state = initial) (he : s.emitted = [first]) (hd : s.done = false)
  | reads (hs : s.client.state ≠ initial) (hk : s.client.context.keepReader = true)
      (he : ∀ e ∈ s.emitted, begins initial (.user e) = none)
  | finished (hs : s.client.state = initial) (hd : s.done = true)
      (he : ∀ e ∈ s.emitted, begins initial (.user e) = none)

theorem handle_ok (hr : M.handleEvent env e r.client.state r.client.context = .ok state v) :
    r.handle M react env e = r.after react state false v := by
  simp [handle, hr]

theorem trace_grows (hs : M.rests r.client.state = true)
    (hr : M.handleEvent env e r.client.state r.client.context = .ok state v) :
    ∃ es, v.trace = r.client.context.trace ++ es := by
  obtain ⟨_, ⟨es, ht, -⟩, -⟩ := M.handles env e r.client.state r.client.context hs
  rw [hr] at ht
  exact ⟨es, ht⟩

theorem after_done (state : σ) (hS : Simulated M react first begins rejects)
    (ht : ∃ es, v.trace = r.client.context.trace ++ es) :
    (r.after react state false v).done = true ↔
      r.done = true ∨ (endings r.client.context).length < (endings v).length := by
  obtain ⟨es, ht⟩ := ht
  have hcount : endings v = endings r.client.context ++ (delivered es).filter FacadeEvent.ends := by
    rw [endings_eq, ht, delivered_append, List.filter_append, endings_eq]
  have hany : ((delivered es).map react).any Reaction.done = true ↔
      0 < ((delivered es).filter FacadeEvent.ends).length := by
    rw [List.any_map, List.any_eq_true, List.length_pos_iff]
    simp [hS.done]
  simp only [after, ht, List.drop_left, Bool.or_eq_true, hany]
  refine or_congr_right ?_
  rw [hcount, List.length_append]
  omega

theorem after_emitted (state : σ) (v : Context) (hS : Simulated M react first begins rejects)
    (he : ∀ e ∈ r.emitted, begins M.initial (.user e) = none) :
    ∀ e ∈ (r.after react state false v).emitted, begins M.initial (.user e) = none := by
  intro e hmem
  obtain hmem | hmem := List.mem_append.mp hmem
  · exact he e hmem
  · simp only [List.flatMap_map, List.mem_flatMap] at hmem
    obtain ⟨event, -, hmem⟩ := hmem
    exact hS.events event e hmem

/-- What a program may handle next: an event that begins no session where there is none, or its
first event, or one while the client reads. -/
inductive Phase.Ready (initial : σ) (begins : σ → InputEvent → Option Beginning)
    (first : UserEvent) (r : Simulation σ) (e : InputEvent) : Prop where
  | idle (hp : Phase initial begins first r) (hs : r.client.state = initial)
      (hb : begins initial e = none)
  | busy (hs : r.client.state = initial → (begins initial e).isSome = true ∧ r.done = false)
      (hk : r.client.state ≠ initial → r.client.context.keepReader = true)
      (he : ∀ e ∈ r.emitted, begins initial (.user e) = none)

theorem Phase.Ready.handle (hS : Simulated M react first begins rejects)
    (hrests : M.rests r.client.state = true)
    (hr : M.handleEvent env e r.client.state r.client.context = .ok state v)
    (h : Phase.Ready M.initial begins first r e) :
    Phase M.initial begins first (r.after react state false v) ∧
      ((r.done = true → r.client.state = M.initial) →
        (((r.after react state false v).done = true → state = M.initial) ↔
          rejects r.client.state e = false)) := by
  have hleaves := hS.leaves _ _ _ _ _ _ hrests hr
  have hgrows := trace_grows hrests hr
  cases h with
  | idle hp hs hb =>
    have hb' : (begins r.client.state e).isSome = false := by rw [hs, hb]; rfl
    cases hleaves with
    | ended hbegins | reading _ hbegins =>
      rw [hbegins hs] at hb'
      cases hb'
    | rejected hs' => exact absurd hs hs'
    | kept _ _ hrejects he =>
      obtain ⟨es, ht⟩ := hgrows
      have hnone : delivered es = [] := by simpa [ht] using he
      have hafter : r.after react M.initial false v =
          { r with client := ⟨M.initial, v⟩, wedged := false } := by
        simp [after, ht, hnone]
      rw [hafter]
      refine ⟨?_, fun _ => ⟨fun _ => hrejects, fun _ _ => rfl⟩⟩
      cases hp with
      | waits _ he hd => exact .waits rfl he hd
      | reads hs' => exact absurd hs hs'
      | finished _ hd he => exact .finished rfl hd he
  | busy hs hk he =>
    have hdone := after_done state hS hgrows
    have hemitted := after_emitted state v hS he
    cases hleaves with
    | ended _ hrejects hlt =>
      exact ⟨.finished rfl (hdone.mpr (.inr hlt)) hemitted,
        fun _ => ⟨fun _ => hrejects, fun _ _ => rfl⟩⟩
    | reading ht _ hread hrejects heq =>
      refine ⟨.reads ht (hread hk) hemitted, fun hover => ⟨fun _ => hrejects, fun _ hd => ?_⟩⟩
      have hdone' : r.done = true := (hdone.mp hd).resolve_right (by rw [heq]; exact lt_irrefl _)
      have hfalse := (hs (hover hdone')).2
      rw [hdone'] at hfalse
      cases hfalse
    | rejected hs' hsame hrejects hlt =>
      refine ⟨.reads hs' (hsame.trans (hk hs')) hemitted, fun _ => ⟨fun h => ?_, fun h => ?_⟩⟩
      · exact absurd (h (hdone.mpr (.inr hlt))) hs'
      · rw [hrejects] at h
        cases h
    | kept hs' hb _ _ =>
      rw [hs', (hs hs').1] at hb
      cases hb

/-- A step in which the facade rejects what the client goes on with. -/
def Rejecting (rejects : σ → InputEvent → Bool)
    (t : Transition (Simulation σ) SimulationAction) : Prop :=
  ∃ m env, t.label = .received m env ∧ rejects t.source.client.state (.received m) = true

theorem handle_unwedged (hw : (r.handle M react env e).wedged = false) :
    ∃ state v, M.handleEvent env e r.client.state r.client.context = .ok state v := by
  cases hr : M.handleEvent env e r.client.state r.client.context with
  | ok state v => exact ⟨state, v, rfl⟩
  | error f v => simp [handle, hr, after] at hw

theorem Phase.ready_user (hS : Simulated M react first begins rejects)
    (hp : Phase M.initial begins first s) {i : ℕ} {e : UserEvent} (he : s.emitted[i]? = some e) :
    Phase.Ready M.initial begins first (s.take i) (.user e) := by
  have hsub {x : UserEvent} (hx : x ∈ s.emitted.eraseIdx i) : x ∈ s.emitted :=
    List.mem_of_mem_eraseIdx hx
  cases hp with
  | waits hs hemitted hd =>
    have hi : i = 0 := by
      have hlt := (List.getElem?_eq_some_iff.mp he).1
      simpa [hemitted] using hlt
    subst hi
    rw [hemitted] at he
    cases he
    refine .busy (fun _ => ⟨hS.first, hd⟩) (fun hs' => absurd hs hs') ?_
    simp [take, hemitted]
  | reads hs hk hemitted =>
    exact .busy (fun hs' => absurd hs' hs) (fun _ => hk) fun x hx => hemitted x (hsub hx)
  | finished hs hd hemitted =>
    exact .idle (.finished hs hd fun x hx => hemitted x (hsub hx)) hs
      (hemitted e (List.mem_of_getElem? he))

theorem Phase.ready_received (hS : Simulated M react first begins rejects)
    (hp : Phase M.initial begins first s) (m : ControlMessage) :
    Phase.Ready M.initial begins first s (.received m) := by
  cases hp with
  | waits hs he hd => exact .idle (.waits hs he hd) hs (hS.message m)
  | reads hs hk he => exact .busy (fun hs' => absurd hs' hs) (fun _ => hk) he
  | finished hs hd he => exact .idle (.finished hs hd he) hs (hS.message m)

theorem Phase.step (hS : Simulated M react first begins rejects) {a : SimulationAction}
    (hrests : M.rests s.client.state = true) (hp : Phase M.initial begins first s)
    (hs : s.step M react a = some t) (hw : t.wedged = false) :
    Phase M.initial begins first t ∧ ((s.done = true → s.client.state = M.initial) →
      ((t.done = true → t.client.state = M.initial) ↔ ¬ Rejecting rejects ⟨s, a, t⟩)) := by
  obtain ⟨-, ⟨i, env, e, rfl, he, rfl⟩ | ⟨env, m, rfl, rfl⟩⟩ := step_cases hs
  · obtain ⟨state, v, hr⟩ := handle_unwedged hw
    obtain ⟨hphase, hdone⟩ := (hp.ready_user hS he).handle (r := s.take i) hS hrests hr
    rw [handle_ok hr]
    refine ⟨hphase, fun hover => (hdone hover).trans ⟨fun _ => ?_, fun _ => hS.user _ e⟩⟩
    rintro ⟨_, _, heq, _⟩
    cases heq
  · obtain ⟨state, v, hr⟩ := handle_unwedged hw
    obtain ⟨hphase, hdone⟩ := (hp.ready_received hS m).handle hS hrests hr
    rw [handle_ok hr]
    refine ⟨hphase, fun hover => (hdone hover).trans ⟨fun h => ?_, fun h => ?_⟩⟩
    · rintro ⟨_, _, heq, hrejects⟩
      cases heq
      rw [h] at hrejects
      cases hrejects
    · exact Bool.eq_false_iff.mpr fun hrejects => h ⟨m, env, rfl, hrejects⟩

theorem rests_step {a : SimulationAction} (hs : M.rests s.client.state = true)
    (hstep : s.step M react a = some t) : M.rests t.client.state = true := by
  obtain ⟨-, ⟨i, env, e, -, rfl⟩ | ⟨env, m, rfl⟩⟩ := step_handle hstep
  · exact handle_rests (s := s.take i) hs
  · exact handle_rests hs

theorem unwedged_step {a : SimulationAction} (hstep : s.step M react a = some t) :
    s.wedged = false := (step_cases hstep).1

/-- In every state that its handlers have not left by throwing, a program is in a phase. -/
theorem reachable_phase (hS : Simulated M react first begins rejects)
    (hs : (simulation M react first).Reachable s) : M.rests s.client.state = true ∧
      (s.wedged = false → Phase M.initial begins first s) := by
  refine hs.invariant (P := fun s => M.rests s.client.state = true ∧
    (s.wedged = false → Phase M.initial begins first s)) ?_ ?_
  · rintro _ rfl
    exact ⟨M.initial_rests, fun _ => .waits rfl rfl rfl⟩
  · intro s a t _ hinv hstep
    obtain ⟨hrests, hp⟩ := hinv
    exact ⟨rests_step hrests hstep, fun hw =>
      (Phase.step hS hrests (hp (unwedged_step hstep)) hstep hw).1⟩

theorem Rejecting.unwedged (hS : Simulated M react first begins rejects) {a : SimulationAction}
    (hrests : M.rests s.client.state = true) (hstep : s.step M react a = some t)
    (h : Rejecting rejects ⟨s, a, t⟩) : t.wedged = false := by
  obtain ⟨m, env, heq, hrejects⟩ := h
  obtain ⟨state, v, hr⟩ := hS.rejected env (.received m) s.client.state s.client.context hrests
    hrejects
  obtain ⟨-, ⟨_, _, _, rfl, _, rfl⟩ | ⟨_, _, rfl, rfl⟩⟩ := step_cases hstep
  · cases heq
  · cases heq
    rw [handle_ok hr]
    rfl

/-- A program that is done is left connected by a rejection only. -/
theorem ends_iff (hS : Simulated M react first begins rejects)
    {h : List (Transition (Simulation σ) SimulationAction)}
    (hr : (simulation M react first).Run h s) :
    (∀ t ∈ h, t.target.wedged = false → t.target.done = true →
      t.target.client.state = M.initial) ↔ ∀ t ∈ h, ¬ Rejecting rejects t := by
  refine hr.forall_iff
    (I := fun s => s.wedged = false → s.done = true → s.client.state = M.initial)
    (G := fun t => t.target.wedged = false → t.target.done = true →
      t.target.client.state = M.initial) ?_ ?_ ?_
  · rintro _ rfl _ hd
    cases hd
  · intro s a t hs hover hstep hno hw
    obtain ⟨hrests, hp⟩ := reachable_phase hS hs
    have hunwedged := unwedged_step hstep
    exact ((Phase.step hS hrests (hp hunwedged) hstep hw).2 (hover hunwedged)).mpr hno
  · intro s a t hs hover hstep
    obtain ⟨hrests, hp⟩ := reachable_phase hS hs
    have hunwedged := unwedged_step hstep
    have hiff (hw : t.wedged = false) :=
      (Phase.step hS hrests (hp hunwedged) hstep hw).2 (hover hunwedged)
    constructor
    · intro hg hrejecting
      have hw := hrejecting.unwedged hS hrests hstep
      exact (hiff hw).mp (hg hw) hrejecting
    · exact fun hno hw => (hiff hw).mpr hno

end Simulation

/-! ### The programs -/

/-- As long as neither simulator is done, and no handler has thrown, there is work for its
`io_service`: its first event, or what the client reads. -/
theorem simulators_keep_working :
    (∀ deviceId nearRealTime s, (pilotSim deviceId nearRealTime).Reachable s →
      s.wedged = false → s.done = false →
        s.client.state = .disconnected ∧
          s.emitted = [PilotSimulator.start deviceId nearRealTime] ∨
        s.client.state ≠ .disconnected ∧ s.client.context.keepReader = true) ∧
    ∀ s, deviceSim.Reachable s → s.wedged = false → s.done = false →
      s.client.state = .disconnected ∧ s.emitted = [DeviceSimulator.start] ∨
      s.client.state ≠ .disconnected ∧ s.client.context.keepReader = true := by
  constructor
  · intro deviceId nearRealTime s hs hw hdone
    cases (Simulation.reachable_phase (pilot_simulated deviceId nearRealTime) hs).2 hw with
    | waits hs he _ => exact .inl ⟨hs, he⟩
    | reads hs hk _ => exact .inr ⟨hs, hk⟩
    | finished _ hd _ => rw [hdone] at hd; cases hd
  · intro s hs hw hdone
    cases (Simulation.reachable_phase device_simulated hs).2 hw with
    | waits hs he _ => exact .inl ⟨hs, he⟩
    | reads hs hk _ => exact .inr ⟨hs, hk⟩
    | finished _ hd _ => rw [hdone] at hd; cases hd

theorem simulators_keep_working_request : ∃ s, (pilotSim 7 0).Reachable s ∧
    s.client.state = .connected (.requestingControl 1) ∧
    (s.client.state = .disconnected ∧ s.emitted = [PilotSimulator.start 7 0] ∨
      s.client.state ≠ .disconnected ∧ s.client.context.keepReader = true) := by
  obtain ⟨h, s, hr, hp⟩ := TransitionSystem.exists_run
    ⟨⟨.disconnected, .initial⟩, false, [PilotSimulator.start 7 0], false⟩
    (Simulation.step pilot PilotSimulator.handleEvent) pilotSimRun
    (p := fun _ s => decide (s.client.state = .connected (.requestingControl 1) ∧
      s.wedged = false ∧ s.done = false))
    (by decide +kernel)
  obtain ⟨hstate, hw, hdone⟩ := of_decide_eq_true hp
  exact ⟨s, hr.reachable, hstate, simulators_keep_working.1 7 0 s hr.reachable hw hdone⟩

/-- Once done, the device's simulator is disconnected, and the pilot's one is unless the facade has
rejected the channels that its client had validated. -/
theorem simulators_end :
    (∀ deviceId nearRealTime h s, (pilotSim deviceId nearRealTime).Run h s →
      ((∀ t ∈ h, t.target.wedged = false → t.target.done = true →
        t.target.client.state = .disconnected) ↔
          ∀ t ∈ h, ¬ Simulation.Rejecting Pilot.State.rejects t)) ∧
    ∀ h s, deviceSim.Run h s → ∀ t ∈ h, t.target.wedged = false → t.target.done = true →
      t.target.client.state = .disconnected := by
  refine ⟨fun deviceId nearRealTime h s hr =>
    Simulation.ends_iff (pilot_simulated deviceId nearRealTime) hr, fun h s hr => ?_⟩
  refine (Simulation.ends_iff device_simulated hr).mpr fun t _ ⟨_, _, _, hrejects⟩ => ?_
  cases hrejects

def rejectedRun : List SimulationAction :=
  [.notified 0 (.permissive fun _ => true),
    .received { command := .setup, response := .accepted, channelsResponse := [{ id := 1 }] }
      (.permissive fun _ => true),
    .received { command := .channelsReady, response := .other 1 } (.permissive fun _ => true)]

theorem simulators_end_rejected : ∃ h s, (pilotSim 7 0).Run h s ∧ s.done = true ∧
    s.client.state ≠ .disconnected ∧
    ((∀ t ∈ h, t.target.wedged = false → t.target.done = true →
      t.target.client.state = .disconnected) ↔
        ∀ t ∈ h, ¬ Simulation.Rejecting Pilot.State.rejects t) := by
  obtain ⟨h, s, hr, hp⟩ := TransitionSystem.exists_run
    ⟨⟨.disconnected, .initial⟩, false, [PilotSimulator.start 7 0], false⟩
    (Simulation.step pilot PilotSimulator.handleEvent) rejectedRun
    (p := fun _ s => decide (s.done = true ∧ s.client.state ≠ .disconnected))
    (by decide +kernel)
  obtain ⟨hdone, hstate⟩ := of_decide_eq_true hp
  exact ⟨h, s, hr, hdone, hstate, simulators_end.1 7 0 h s hr⟩

end FmClient
