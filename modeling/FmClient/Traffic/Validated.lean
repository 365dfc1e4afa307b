import FmClient.Facade.Calls
import FmClient.Run.FacadeView
import FmClient.Traffic.Validation

/-! A client whose channels are opened over the network, over whole runs: what it does to the
sockets, and that the facade and the listener are told of the channels confirmed there. -/
namespace FmClient
open Lib Handler ChannelsHandler Facade

/-- The ids by which a message says that channels have been opened. -/
def ClientMessage.indicated? (m : ClientMessage) : Option (List ℤ) :=
  match m.command with
  | .channelsReady | .attachChannels => some m.channelsIndication
  | _ => none

def FacadeEvent.opened? : FacadeEvent → Option (List ℤ)
  | .channelsOpened ps => some (ps.map IChannel.id)
  | _ => none

@[simps] def indications : Observer (List ℤ) where
  message := ClientMessage.indicated?

@[simps] def reports : Observer (List ℤ) where
  event := FacadeEvent.opened?

theorem indications_defaultEffect (env : Environment) (message : ControlMessage) (state : String) :
    [defaultEffect env message state].filterMap indications.see = [] :=
  indications.see_defaultEffect (fun m hm => by simp [ClientMessage.indicated?, hm]) _ _ _

theorem reports_defaultEffect (env : Environment) (message : ControlMessage) (state : String) :
    [defaultEffect env message state].filterMap reports.see = [] :=
  reports.see_defaultEffect (fun _ _ => rfl) _ _ _

/-- What a handler makes of the channels that it validates, if any: the facade is told of those
that were opened, and the listener as well, or it is left for later. -/
structure Validated (env : Environment) (channels : Option (List ChannelResponse))
    (before after : List (List ℤ)) (w v : Context) : Prop where
  answered : ∀ x ∈ channels.elim [] env.batch, answered x = true
  indicated : indications v =
    indications w ++ channels.toList.map fun cs => openedIds (env.batch cs)
  reported : reports v ++ after =
    reports w ++ before ++ channels.toList.map fun cs => openedIds (env.batch cs)
  kept : ∀ id ∈ v.channels.keys,
    (lastAnswer id (channels.elim [] env.batch)).elim (id ∈ w.channels.keys) (· = true)

namespace Validated
variable {env : Environment} {channels : Option (List ChannelResponse)}
  {before after : List (List ℤ)} {w v : Context}

theorem of_none (hchannels : channels = none) (hafter : after = before)
    (hindicated : indications v = indications w) (hreported : reports v = reports w)
    (hkept : ∀ id ∈ v.channels.keys, id ∈ w.channels.keys) :
    Validated env channels before after w v := by
  subst hchannels hafter
  exact ⟨by simp, by simpa, by simp [hreported], by simpa [lastAnswer]⟩

theorem of_validations {cs : List ChannelResponse} {ps : List IChannel} {u : Context}
    (hv : Validations w (env.batch cs) (.ok ps u)) (hchannels : channels = some cs)
    (hindicated : indications v = indications u ++ [ps.map IChannel.id])
    (hreported : reports v ++ after = reports u ++ before ++ [ps.map IChannel.id])
    (hkeys : v.channels.keys = u.channels.keys) : Validated env channels before after w v := by
  subst hchannels
  have hindications : indications u = indications w := indications.seen_validated hv
  have hreports : reports u = reports w := reports.seen_validated hv
  rw [hv.ids_opened] at hindicated hreported
  refine ⟨hv.answered, by simp [hindicated, hindications], by simp [hreported, hreports], ?_⟩
  intro id hid
  rw [hkeys] at hid
  exact (hv.mem_keys_lastAnswer id).mp hid

end Validated

namespace Pilot
variable {env : Environment} {s t : State} {e : InputEvent} {w v : Context}

def State.validates : State → InputEvent → Option (List ChannelResponse)
  | .connecting _ _, .connection (.received m) =>
    if m.command = .setup ∧ m.response = .accepted then some m.channelsResponse else none
  | .connected (.openingChannels _), .connection (.received m) =>
    if m.command = .addChannels ∧ m.response = .accepted then some m.channelsResponse else none
  | _, _ => none

def State.unreported : State → List (List ℤ)
  | .connected (.validatingChannels _ ps) => [ps.map IChannel.id]
  | _ => []

theorem State.validates_of_unserved (hs : s.serves e = false) : s.validates e = none := by
  unfold validates
  split <;> simp_all [serves, ConnectedState.serves]

theorem Handled.validated (h : Handled env w s e (.ok t v)) :
    Validated env (s.validates e) s.unreported t.unreported w v := by
  cases h with
  | unexpected hs =>
    exact .of_none (State.validates_of_unserved hs) rfl (by simp) (by simp) (by simp)
  | defaulted hs =>
    exact .of_none (State.validates_of_unserved hs) rfl (by simp [indications_defaultEffect])
      (by simp [reports_defaultEffect]) (by simp)
  | setupAccepted hc hr hv | addAccepted hc hr hv =>
    refine .of_validations hv (by simp [State.validates, hc, hr]) ?_ ?_ rfl
    · simp [ClientMessage.indicated?]
    · simp [State.unreported, FacadeEvent.opened?]
  | setupRejected hc hr hd =>
    cases hd
    exact .of_none (by simp [State.validates, hr]) rfl (by simp)
      (by simp [FacadeEvent.opened?]) (by simp)
  | @readyAccepted chs ps m hc hr hids =>
    refine ⟨by simp [State.validates], ?_, ?_, ?_⟩
    · simp [State.validates]
    · simp [State.validates, State.unreported, FacadeEvent.opened?]
    · simp [State.validates, lastAnswer, ownedContext]
  | readyRejected hc hr =>
    exact .of_none rfl rfl (by simp) (by simp [FacadeEvent.opened?]) (by simp)
  | @release s m _ hs hc hd =>
    have hnone : State.validates (.connected s) (.received m) = none ∧
        State.unreported (.connected s) = [] := by
      obtain rfl | ⟨ids, rfl⟩ := hs <;> exact ⟨rfl, rfl⟩
    cases hd
    refine .of_none hnone.1 hnone.2.symm ?_ ?_ (by simp [releaseContext])
    · simp [ClientMessage.indicated?]
    · simp [FacadeEvent.opened?]
  | removeAccepted hc hr hf hcl =>
    refine .of_none rfl rfl ?_ ?_ ?_
    · simp [indications.see_channel hcl.channel, ClientMessage.indicated?]
    · simp [reports.see_channel hcl.channel, FacadeEvent.opened?]
    · exact fun id hid => (hcl.mem_keys.mp hid).1
  | addRejected hc hr =>
    exact .of_none (by simp [State.validates, hr]) rfl (by simp)
      (by simp [FacadeEvent.opened?]) (by simp)
  | _ =>
    exact .of_none rfl rfl (by simp [ClientMessage.indicated?]) (by simp [FacadeEvent.opened?])
      (by simp)

theorem Handled.silent {f : Fault} (h : Handled env w s e (.error f v)) :
    indications v = indications w := by
  cases h with
  | setupFailed hc hr hv | addFailed hc hr hv | setupDangling hc hr hv | addDangling hc hr hv =>
    exact indications.seen_validations hv
  | setupRejected hc hr hd =>
    cases hd
    simp
  | release hs hc hd =>
    cases hd
    simp [ClientMessage.indicated?]
  | readyMissing hc hr hm hid => simp
  | _ => rfl

end Pilot

namespace Device
variable {env : Environment} {s t : State} {e : InputEvent} {w v : Context}

def State.validates : State → InputEvent → Option (List ChannelResponse)
  | .connected .ready, .connection (.received m)
  | .connected (.flying _), .connection (.received m) =>
    if m.command = .attachChannels then some m.channelsResponse else none
  | _, _ => none

theorem State.validates_of_unserved (hs : s.serves e = false) : s.validates e = none := by
  unfold validates
  split <;> simp_all [serves, ConnectedState.serves]

theorem Handled.validated (h : Handled env w s e (.ok t v)) :
    Validated env (s.validates e) [] [] w v := by
  cases h with
  | unexpected hs =>
    exact .of_none (State.validates_of_unserved hs) rfl (by simp) (by simp) (by simp)
  | defaulted hs =>
    exact .of_none (State.validates_of_unserved hs) rfl (by simp [indications_defaultEffect])
      (by simp [reports_defaultEffect]) (by simp)
  | setupRejected hc hr hd | released hc hr hd =>
    cases hd
    exact .of_none rfl rfl (by simp) (by simp [FacadeEvent.opened?]) (by simp)
  | @attached s chs m _ _ hs hc hv =>
    have hvalidates : State.validates (.connected s) (.received m) = some m.channelsResponse := by
      obtain ⟨rfl, -⟩ | rfl := hs <;> simp [State.validates, hc]
    refine .of_validations hv hvalidates ?_ ?_ rfl
    · simp [ClientMessage.indicated?]
    · simp [FacadeEvent.opened?]
  | releaseChannels hc hf hcl =>
    refine .of_none (by simp [State.validates, hc]) rfl ?_ ?_ ?_
    · simp [indications.see_channel hcl.channel, ClientMessage.indicated?]
    · simp [reports.see_channel hcl.channel, FacadeEvent.opened?]
    · exact fun id hid => (hcl.mem_keys.mp hid).1
  | operationEnded hc =>
    refine .of_none (by simp [State.validates, hc]) rfl ?_ ?_ (by simp [endedContext])
    · simp [ClientMessage.indicated?]
    · simp [FacadeEvent.opened?]
  | _ =>
    exact .of_none rfl rfl (by simp [ClientMessage.indicated?]) (by simp [FacadeEvent.opened?])
      (by simp)

theorem Handled.silent {f : Fault} (h : Handled env w s e (.error f v)) :
    indications v = indications w := by
  cases h with
  | setupRejected hc hr hd | released hc hr hd =>
    cases hd
    simp
  | attachFailed hs hc hv => exact indications.seen_validations hv
  | attachDangling hs hc hv =>
    rw [Observer.seen_emit]
    simpa using indications.seen_validated hv
  | _ => rfl

end Device

/-! ### A client whose channels are opened over the network -/

namespace Traffic
variable {σ : Type}

/-- A client by the channels that it validates, and by those of them that the listener has not
been told of. -/
structure Validator (σ : Type) where
  machine : ClientMachine σ
  validates : σ → InputEvent → Option (List ChannelResponse)
  unreported : σ → List (List ℤ)
  initial_unreported : unreported machine.initial = []
  validated (env : Environment) (e : InputEvent) (s t : σ) (w v : Context)
    (hs : machine.rests s = true) (h : machine.handleEvent env e s w = .ok t v) :
    Validated env (validates s e) (unreported s) (unreported t) w v
  silent (env : Environment) (e : InputEvent) (s : σ) (w v : Context) (f : Fault)
    (hs : machine.rests s = true) (h : machine.handleEvent env e s w = .error f v) :
    indications v = indications w

def pilotValidator : Validator Pilot.State where
  machine := pilot
  validates := Pilot.State.validates
  unreported := Pilot.State.unreported
  initial_unreported := rfl
  validated env e s t w v hs h := by
    have hh : Pilot.Handled env w s e (pilot.handleEvent env e s w) := Pilot.handled env e s hs w
    rw [h] at hh
    exact hh.validated
  silent env e s w v f hs h := by
    have hh : Pilot.Handled env w s e (pilot.handleEvent env e s w) := Pilot.handled env e s hs w
    rw [h] at hh
    exact hh.silent

def deviceValidator : Validator Device.State where
  machine := device
  validates := Device.State.validates
  unreported _ := []
  initial_unreported := rfl
  validated env e s t w v hs h := by
    have hh : Device.Handled env w s e (device.handleEvent env e s w) := Device.handled env e s hs w
    rw [h] at hh
    exact hh.validated
  silent env e s w v f hs h := by
    have hh : Device.Handled env w s e (device.handleEvent env e s w) := Device.handled env e s hs w
    rw [h] at hh
    exact hh.silent

/-- An event, with the networks that the channels of its batch are opened over and what the other
calls outside give its handler. -/
structure Reaching where
  network : ℕ → Network
  environment : Environment
  event : InputEvent

namespace Reaching
variable (protobuf : Protobuf) (a : Reaching) (cs : List ChannelResponse)

def attempts : List Attempt := cs.mapIdx fun i c => ⟨c, a.network i⟩

def openings : Environment :=
  { a.environment with opens := fun i =>
      (a.attempts cs)[i]?.elim (a.environment.opens i) (Attempt.result protobuf) }

theorem attempts_channels : (a.attempts cs).map Attempt.channel = cs := by
  refine List.ext_getElem? fun i => ?_
  cases hc : cs[i]? <;> simp [attempts, hc]

theorem openings_batch : (a.openings protobuf cs).batch cs =
    (a.attempts cs).map (Attempt.validation protobuf) := by
  have hbatch : (a.openings protobuf cs).batch ((a.attempts cs).map Attempt.channel) =
      (a.attempts cs).map (Attempt.validation protobuf) :=
    Attempt.batch_eq fun i attempt hattempt => by simp [openings, hattempt]
  rwa [attempts_channels] at hbatch

end Reaching

structure Opened (σ : Type) where
  client : Client σ
  calls : List SocketCall

def Validator.environment (U : Validator σ) (protobuf : Protobuf) (s : σ) (a : Reaching) :
    Environment := a.openings protobuf ((U.validates s a.event).getD [])

def Opened.step (U : Validator σ) (protobuf : Protobuf) (s : Opened σ) (a : Reaching) :
    Option (Opened σ) :=
  (s.client.step U.machine.handleEvent
    ⟨U.environment protobuf s.client.state a, a.event⟩).map fun c =>
    ⟨c, (U.validates s.client.state a.event).elim s.calls fun cs => Validating.callsOf
      (Validating.validateChannels protobuf (a.attempts cs) (s.client.context, s.calls))⟩

def opened (U : Validator σ) (protobuf : Protobuf) : TransitionSystem (Opened σ) Reaching :=
  .ofStep ⟨⟨U.machine.initial, .initial⟩, []⟩ (Opened.step U protobuf)

def batches (U : Validator σ) (h : List (Transition (Opened σ) Reaching)) : List (List Attempt) :=
  h.filterMap fun t => (U.validates t.source.client.state t.label.event).map t.label.attempts

def confirmedIds (protobuf : Protobuf) (batch : List Attempt) : List ℤ :=
  (batch.filter (Attempt.confirmed protobuf)).map (·.channel.id)

def lastAttempt (id : ℤ) (attempts : List Attempt) : Option Attempt :=
  (attempts.filter (·.channel.id = id)).getLast?

/-- What the sockets, the facade, the listener and the map get of the batches of a run. -/
structure Vouched (U : Validator σ) (protobuf : Protobuf)
    (h : List (Transition (Opened σ) Reaching)) (s : Opened σ) : Prop where
  conversations : ∃ conversations, List.Forall₂ (fun a calls =>
      Attempt.Conversation protobuf a calls (.ok (a.confirmed protobuf)))
        (batches U h).flatten conversations ∧ s.calls = conversations.flatten
  indicated : indications s.client.context = (batches U h).map (confirmedIds protobuf)
  reported : reports s.client.context ++ U.unreported s.client.state =
    indications s.client.context
  confirmed : ∀ id ∈ s.client.context.channels.keys, ∃ a,
    lastAttempt id (batches U h).flatten = some a ∧ a.confirmed protobuf = true

section
variable {U : Validator σ} {protobuf : Protobuf} {h : List (Transition (Opened σ) Reaching)}
  {s t : Opened σ} {a : Reaching} {batch : List Attempt}

theorem openedIds_confirmed
    (h : ∀ x ∈ batch.map (Attempt.validation protobuf), answered x = true) :
    openedIds (batch.map (Attempt.validation protobuf)) = confirmedIds protobuf batch := by
  induction batch with
  | nil => rfl
  | cons a rest ih =>
    obtain ⟨ha, hrest⟩ := List.forall_mem_cons.mp h
    have hresult := a.result_of_isOk protobuf (Bool.and_eq_true_iff.mp ha).2
    have ih := ih hrest
    rw [openedIds] at ih ⊢
    rw [List.map_cons, List.filterMap_cons, ih, Attempt.validation, hresult]
    cases hconfirmed : a.confirmed protobuf <;> simp [confirmedIds, hconfirmed]

theorem lastAnswer_attempts (id : ℤ)
    (h : ∀ x ∈ batch.map (Attempt.validation protobuf), answered x = true) :
    lastAnswer id (batch.map (Attempt.validation protobuf)) =
      (lastAttempt id batch).map (Attempt.confirmed protobuf) := by
  induction batch with
  | nil => rfl
  | cons a rest ih =>
    obtain ⟨ha, hrest⟩ := List.forall_mem_cons.mp h
    have hresult := a.result_of_isOk protobuf (Bool.and_eq_true_iff.mp ha).2
    rw [List.map_cons, Attempt.validation, lastAnswer, ih hrest, hresult]
    by_cases hid : a.channel.id = id
    · simp only [hid, if_true, lastAttempt, List.filter_cons, decide_true, List.getLast?_cons]
      cases (rest.filter (·.channel.id = id)).getLast? <;> simp [Except.toOption]
    · simp [hid, lastAttempt]

theorem lastAttempt_append (id : ℤ) (before after : List Attempt) :
    lastAttempt id (before ++ after) = (lastAttempt id after).or (lastAttempt id before) := by
  simp [lastAttempt, List.getLast?_append]

theorem Opened.step_eq_some (hs : s.step U protobuf a = some t) :
    U.machine.handleEvent (U.environment protobuf s.client.state a) a.event s.client.state
      s.client.context = .ok t.client.state t.client.context ∧
    t.calls = (U.validates s.client.state a.event).elim s.calls fun cs =>
      s.calls ++ (Validating.made protobuf (a.attempts cs)).flatMap (Attempt.calls protobuf) := by
  obtain ⟨c, hc, rfl⟩ := Option.map_eq_some_iff.mp hs
  refine ⟨Client.step_eq_some.mp hc, ?_⟩
  cases U.validates s.client.state a.event with
  | none => rfl
  | some cs =>
    simp only [Option.elim_some, Validating.validateChannels_apply, Validating.callsOf_beside]

theorem opened_rests (hs : (opened U protobuf).Reachable s) :
    U.machine.rests s.client.state = true := by
  refine hs.invariant (P := fun s => U.machine.rests s.client.state = true) ?_ ?_
  · rintro _ rfl
    exact U.machine.initial_rests
  · intro s a t _ hrests hstep
    exact U.machine.rests_next _ _ _ _ _ _ hrests (Opened.step_eq_some hstep).1

namespace Vouched

theorem initial : Vouched U protobuf [] ⟨⟨U.machine.initial, .initial⟩, []⟩ where
  conversations := ⟨[], .nil, rfl⟩
  indicated := rfl
  reported := by simp [U.initial_unreported]
  confirmed := by simp [Context.initial]

theorem skip (hv : Vouched U protobuf h s) (hnone : U.validates s.client.state a.event = none)
    (hcalls : t.calls = s.calls)
    (hvalidated : Validated (U.environment protobuf s.client.state a) none
      (U.unreported s.client.state) (U.unreported t.client.state) s.client.context
      t.client.context) : Vouched U protobuf (h ++ [⟨s, a, t⟩]) t := by
  have hbatches : batches U (h ++ [⟨s, a, t⟩]) = batches U h := by simp [batches, hnone]
  have hindicated : indications t.client.context = indications s.client.context := by
    simpa using hvalidated.indicated
  refine ⟨?_, ?_, ?_, ?_⟩
  · rw [hbatches, hcalls]
    exact hv.conversations
  · rw [hbatches, hindicated]
    exact hv.indicated
  · have hreported := hvalidated.reported
    rw [hv.reported] at hreported
    simpa [hindicated] using hreported
  · intro id hid
    rw [hbatches]
    exact hv.confirmed id (hvalidated.kept id hid)

theorem validate {cs : List ChannelResponse} (hv : Vouched U protobuf h s)
    (hsome : U.validates s.client.state a.event = some cs)
    (hcalls : t.calls = s.calls ++
      (Validating.made protobuf (a.attempts cs)).flatMap (Attempt.calls protobuf))
    (hvalidated : Validated (U.environment protobuf s.client.state a) (some cs)
      (U.unreported s.client.state) (U.unreported t.client.state) s.client.context
      t.client.context) : Vouched U protobuf (h ++ [⟨s, a, t⟩]) t := by
  have hbatches : batches U (h ++ [⟨s, a, t⟩]) = batches U h ++ [a.attempts cs] := by
    simp [batches, hsome]
  have henvironment : (U.environment protobuf s.client.state a).batch cs =
      (a.attempts cs).map (Attempt.validation protobuf) := by
    rw [Validator.environment, hsome]
    exact a.openings_batch protobuf cs
  have hanswered : ∀ x ∈ (a.attempts cs).map (Attempt.validation protobuf), answered x = true :=
    henvironment ▸ hvalidated.answered
  have hids := openedIds_confirmed hanswered
  have hindicated : indications t.client.context =
      indications s.client.context ++ [confirmedIds protobuf (a.attempts cs)] := by
    simpa [henvironment, hids] using hvalidated.indicated
  refine ⟨?_, ?_, ?_, ?_⟩
  · obtain ⟨conversations, hall, hbefore⟩ := hv.conversations
    refine ⟨conversations ++ (a.attempts cs).map (Attempt.calls protobuf), ?_, ?_⟩
    · rw [hbatches, List.flatten_concat]
      refine List.rel_append hall ?_
      rw [List.forall₂_map_right_iff]
      refine List.forall₂_same.mpr fun attempt hattempt => ?_
      have hok := hanswered _ (List.mem_map_of_mem hattempt)
      have hconversation := attempt.conversation protobuf
      rwa [attempt.result_of_isOk protobuf (Bool.and_eq_true_iff.mp hok).2] at hconversation
    · rw [hcalls, Validating.made_eq protobuf hanswered, hbefore, List.flatten_append,
        List.flatMap_def]
  · rw [hbatches, hindicated, hv.indicated, List.map_append, List.map_singleton]
  · have hreported := hvalidated.reported
    rw [hv.reported] at hreported
    simpa [henvironment, hids, hindicated] using hreported
  · intro id hid
    have hkept := hvalidated.kept id hid
    rw [Option.elim_some, henvironment, lastAnswer_attempts id hanswered] at hkept
    rw [hbatches, List.flatten_concat, lastAttempt_append]
    cases hlast : lastAttempt id (a.attempts cs) with
    | none => simpa [hlast] using hv.confirmed id (by simpa [hlast] using hkept)
    | some attempt => exact ⟨attempt, rfl, by simpa [hlast] using hkept⟩

end Vouched

theorem vouched (hr : (opened U protobuf).Run h s) : Vouched U protobuf h s := by
  induction hr with
  | start hs =>
    cases hs
    exact .initial
  | @next h s t a hr ht ih =>
    obtain ⟨hhandled, hcalls⟩ := Opened.step_eq_some ht
    have hvalidated := U.validated _ _ _ _ _ _ (opened_rests hr.reachable) hhandled
    cases hasked : U.validates s.client.state a.event with
    | none =>
      rw [hasked] at hcalls hvalidated
      exact ih.skip hasked hcalls hvalidated
    | some cs =>
      rw [hasked] at hcalls hvalidated
      exact ih.validate hasked hcalls hvalidated

end

def Silent (U : Validator σ) (protobuf : Protobuf) (s : Opened σ) : Prop :=
  ∀ a f v, U.machine.handleEvent (U.environment protobuf s.client.state a) a.event s.client.state
    s.client.context = .error f v → indications v = indications s.client.context

theorem silent {U : Validator σ} {protobuf : Protobuf} {s : Opened σ}
    (hs : (opened U protobuf).Reachable s) : Silent U protobuf s :=
  fun _ _ _ h => U.silent _ _ _ _ _ _ (opened_rests hs) h

/-- In any run the facade and the listener are told of exactly the channels that the peers have
confirmed, batch by batch, and only such channels are in the map. -/
theorem channels_validated (protobuf : Protobuf) :
    (∀ h s, (opened pilotValidator protobuf).Run h s →
      Vouched pilotValidator protobuf h s ∧ Silent pilotValidator protobuf s) ∧
    ∀ h s, (opened deviceValidator protobuf).Run h s →
      Vouched deviceValidator protobuf h s ∧ Silent deviceValidator protobuf s :=
  ⟨fun _ _ hr => ⟨vouched hr, silent hr.reachable⟩,
    fun _ _ hr => ⟨vouched hr, silent hr.reachable⟩⟩

def confirmingRun : List Reaching :=
  let answering (value : UInt8) : Network := ⟨.ok (), .ok 0, .ok [8, value]⟩
  let environment := Environment.permissive fun _ => true
  [⟨fun _ => answering 0, environment, .user (.operate 7 [])⟩,
    ⟨fun i => answering (if i = 0 then 1 else 0), environment,
      .received { command := .setup, response := .accepted
                  channelsResponse := [{ id := 1 }, { id := 2 }] }⟩,
    ⟨fun _ => answering 0, environment,
      .received { command := .channelsReady, response := .accepted, channelsIndication := [1] }⟩,
    ⟨fun _ => answering 0, environment, .user (.openChannels [])⟩]

def unreachable : Reaching :=
  ⟨fun _ => ⟨.error "Connection refused", .ok 0, .ok []⟩, .permissive fun _ => true,
    .received { command := .addChannels, response := .accepted, channelsResponse := [{ id := 3 }] }⟩

theorem channels_validated_confirming : ∃ h s v, (opened pilotValidator enumeration).Run h s ∧
    reports s.client.context = [[1]] ∧ s.calls.length = 10 ∧
    Vouched pilotValidator enumeration h s ∧
    pilot.handleEvent (pilotValidator.environment enumeration s.client.state unreachable)
      unreachable.event s.client.state s.client.context =
        .error (.thrown "Connection refused") v ∧
    indications v = indications s.client.context := by
  obtain ⟨h, s, hr, hp⟩ := TransitionSystem.exists_run ⟨⟨.disconnected, .initial⟩, []⟩
    (Opened.step pilotValidator enumeration) confirmingRun
    (p := fun _ s => decide (reports s.client.context = [[1]] ∧ s.calls.length = 10) &&
      match pilot.handleEvent (pilotValidator.environment enumeration s.client.state unreachable)
        unreachable.event s.client.state s.client.context with
      | .error f _ => f = .thrown "Connection refused"
      | .ok _ _ => false) (by decide +kernel)
  obtain ⟨hreports, hthrown⟩ := Bool.and_eq_true_iff.mp hp
  obtain ⟨hreports, hlength⟩ := of_decide_eq_true hreports
  have hrun : (opened pilotValidator enumeration).Run h s := hr
  obtain ⟨hvouched, hsilent⟩ := (channels_validated enumeration).1 h s hrun
  cases hout : pilot.handleEvent
      (pilotValidator.environment enumeration s.client.state unreachable) unreachable.event
      s.client.state s.client.context with
  | ok => simp [hout] at hthrown
  | error f v =>
    obtain rfl : f = .thrown "Connection refused" := by simpa [hout] using hthrown
    exact ⟨h, s, v, hrun, hreports, hlength, hvouched, hout, hsilent _ _ _ hout⟩

end Traffic
end FmClient
