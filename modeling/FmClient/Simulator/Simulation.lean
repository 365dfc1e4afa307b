import FmClient.Backend.ClientBackend
import FmClient.Core.Sessions
import FmClient.Run.Wire
import FmClient.Simulator.ISimulator

/-! The programs of the two simulators: each starts its client with one event, and has events of
its own for what the client tells it. -/
namespace FmClient
open Lib Handler ChannelsHandler Computability Facade

/-- What `handleEvent` of a simulator does: the events that it passes to `notifyEvent`, now or
after some seconds, and whether it sets `done`. -/
structure Reaction where
  events : List UserEvent := []
  done : Bool := false

namespace PilotSimulator

/-- The second request is the first one but for the id. -/
def start (deviceId : ℤ) (nearRealTime : ℕ) : UserEvent :=
  .operate deviceId [⟨1, .udp, .plainText, nearRealTime⟩, ⟨8, .udp, .plainText, nearRealTime⟩]

def handleEvent : FacadeEvent → Reaction
  | .channelsOpened _ => { events := [.closeChannels [8]] }
  | .channelsClosing _ => { events := [.requestControl 1] }
  | .handoverAccepted _ => { events := [.controlReady] }
  | .procedureRejected command _ =>
    if command = .requestControl then { events := [.release] } else {}
  | .error _ | .released => { done := true }
  | _ => {}

end PilotSimulator

namespace DeviceSimulator

def start : UserEvent := .attach

def handleEvent : FacadeEvent → Reaction
  | .operationEnded => { events := [.release] }
  | .error _ | .released => { done := true }
  | _ => {}

end DeviceSimulator

/-- A client and its simulator, with the events that are still to be passed to `notifyEvent`.
Once a handler has thrown, the machine takes no more events. -/
structure Simulation (σ : Type) where
  client : Client σ
  wedged : Bool
  emitted : List UserEvent
  done : Bool

inductive SimulationAction where
  | notified (event : ℕ) (environment : Environment)
  | received (message : ControlMessage) (environment : Environment)

namespace Simulation
variable {σ : Type} (M : ClientMachine σ) (react : FacadeEvent → Reaction) (s : Simulation σ)

def after (state : σ) (wedged : Bool) (context : Context) : Simulation σ :=
  let reactions := (delivered (context.trace.drop s.client.context.trace.length)).map react
  { client := ⟨state, context⟩
    wedged := wedged
    emitted := s.emitted ++ reactions.flatMap Reaction.events
    done := s.done || reactions.any Reaction.done }

def handle (env : Environment) (event : InputEvent) : Simulation σ :=
  match M.handleEvent env event s.client.state s.client.context with
  | .ok state context => s.after react state false context
  | .error _ context => s.after react s.client.state true context

def take (event : ℕ) : Simulation σ := { s with emitted := s.emitted.eraseIdx event }

/-- Nothing happens any more once the program has been terminated. -/
def step (a : SimulationAction) : Option (Simulation σ) :=
  if s.wedged || (simulate s.client.context.trace).isNone then none
  else match a with
    | .notified i env => (s.emitted[i]?).map fun e => (s.take i).handle M react env (.user e)
    | .received message env => some (s.handle M react env (.received message))

end Simulation

def simulation {σ : Type} (M : ClientMachine σ) (react : FacadeEvent → Reaction)
    (first : UserEvent) : TransitionSystem (Simulation σ) SimulationAction :=
  .ofStep ⟨⟨M.initial, .initial⟩, false, [first], false⟩ (Simulation.step M react)

def pilotSim (deviceId : ℤ) (nearRealTime : ℕ) :
    TransitionSystem (Simulation Pilot.State) SimulationAction :=
  simulation pilot PilotSimulator.handleEvent (PilotSimulator.start deviceId nearRealTime)

def deviceSim : TransitionSystem (Simulation Device.State) SimulationAction :=
  simulation device DeviceSimulator.handleEvent DeviceSimulator.start

/-! ### What is paid for by events -/

namespace Simulation
variable {σ : Type} {M : ClientMachine σ} {react : FacadeEvent → Reaction} {s t : Simulation σ}

theorem step_cases {a : SimulationAction} (hs : s.step M react a = some t) :
    s.wedged = false ∧ ((∃ i env e, a = .notified i env ∧ s.emitted[i]? = some e ∧
        t = (s.take i).handle M react env (.user e)) ∨
      ∃ env m, a = .received m env ∧ t = s.handle M react env (.received m)) := by
  unfold step at hs
  split at hs
  · cases hs
  · rename_i hw
    refine ⟨Bool.eq_false_iff.mpr fun hwedged => hw (by rw [hwedged, Bool.true_or]), ?_⟩
    split at hs
    · obtain ⟨e, he, rfl⟩ := Option.map_eq_some_iff.mp hs
      exact .inl ⟨_, _, e, rfl, he, rfl⟩
    · cases hs
      exact .inr ⟨_, _, rfl, rfl⟩

theorem step_handle {a : SimulationAction} (hs : s.step M react a = some t) :
    s.wedged = false ∧ ((∃ i env e, s.emitted[i]? = some e ∧
        t = (s.take i).handle M react env (.user e)) ∨
      ∃ env m, t = s.handle M react env (.received m)) := by
  obtain ⟨hw, ⟨i, env, e, -, he, ht⟩ | ⟨env, m, -, ht⟩⟩ := step_cases hs
  · exact ⟨hw, .inl ⟨i, env, e, he, ht⟩⟩
  · exact ⟨hw, .inr ⟨env, m, ht⟩⟩

variable (s) {env : Environment} {e : InputEvent}

theorem handle_context : (s.handle M react env e).client.context =
    contextOf (M.handleEvent env e s.client.state s.client.context) := by
  unfold handle
  split <;> simp_all [after]

theorem handle_emitted : ∃ es, (s.handle M react env e).emitted = s.emitted ++ es ∧
    ∀ x ∈ es, ∃ event, x ∈ (react event).events := by
  unfold handle
  split
  all_goals
    refine ⟨_, rfl, fun x hx => ?_⟩
    simp only [List.flatMap_map, List.mem_flatMap] at hx
    obtain ⟨event, -, hx⟩ := hx
    exact ⟨event, hx⟩

variable {s} in
theorem handle_rests (hs : M.rests s.client.state = true) :
    M.rests (s.handle M react env e).client.state = true := by
  unfold handle
  split
  · rename_i state context hr
    exact M.rests_next env e _ _ _ _ hs hr
  · exact hs

end Simulation

/-- What a machine owes after a handler; a wedged one owes nothing. -/
def owedAfter {σ : Type} (owed : σ → ℕ) : EStateM.Result Fault Context σ → ℕ
  | .ok t _ => owed t
  | .error _ _ => 0

/-- Whatever is counted in the trace, or owed by the machine, was paid for by an event. -/
def Paid {σ : Type} (M : ClientMachine σ) (count : List Effect → ℕ) (owed : σ → ℕ)
    (pays : InputEvent → Bool) : Prop :=
  ∀ env e s w, M.rests s = true →
    count (contextOf (M.handleEvent env e s w)).trace + owedAfter owed (M.handleEvent env e s w) ≤
      count w.trace + owed s + (pays e).toNat

namespace Simulation
variable {σ : Type} {M : ClientMachine σ} {react : FacadeEvent → Reaction} {first : UserEvent}
  {count : List Effect → ℕ} {owed : σ → ℕ} {pays : InputEvent → Bool} {s t : Simulation σ}

def owes (owed : σ → ℕ) (s : Simulation σ) : ℕ := if s.wedged then 0 else owed s.client.state

def purse (pays : InputEvent → Bool) (s : Simulation σ) : ℕ :=
  s.emitted.countP fun e => pays (.user e)

theorem purse_handle {env : Environment} {e : InputEvent}
    (hreact : ∀ event, ∀ e ∈ (react event).events, pays (.user e) = false) :
    (s.handle M react env e).purse pays = s.purse pays := by
  obtain ⟨es, hes, hmem⟩ : ∃ es, (s.handle M react env e).emitted = s.emitted ++ es ∧
      ∀ x ∈ es, ∃ event, x ∈ (react event).events := s.handle_emitted
  have hnone : es.countP (fun e => pays (.user e)) = 0 := by
    refine List.countP_eq_zero.mpr fun x hx => ?_
    obtain ⟨event, hx⟩ := hmem x hx
    simp [hreact event x hx]
  rw [purse, hes, List.countP_append, hnone]
  rfl

theorem owes_handle {env : Environment} {e : InputEvent} : (s.handle M react env e).owes owed =
    owedAfter owed (M.handleEvent env e s.client.state s.client.context) := by
  unfold handle
  split <;> simp_all [after, owes, owedAfter]

/-- The events of a simulator that pay are those that it starts with. -/
theorem paid (hM : Paid M count owed pays) (hcount : count [] = 0) (howed : owed M.initial = 0)
    (hmessage : ∀ m, pays (.received m) = false)
    (hreact : ∀ event, ∀ e ∈ (react event).events, pays (.user e) = false)
    (hs : (simulation M react first).Reachable s) :
    count s.client.context.trace + s.owes owed + s.purse pays ≤ (pays (.user first)).toNat := by
  have hinv : M.rests s.client.state = true ∧
      count s.client.context.trace + s.owes owed + s.purse pays ≤ (pays (.user first)).toNat := by
    refine hs.invariant (P := fun s => M.rests s.client.state = true ∧
      count s.client.context.trace + s.owes owed + s.purse pays ≤ (pays (.user first)).toNat) ?_ ?_
    · rintro _ rfl
      refine ⟨M.initial_rests, ?_⟩
      cases hfirst : pays (.user first) <;>
        simp [Context.initial, hcount, owes, howed, purse, hfirst]
    · intro s a t _ hinv hstep
      obtain ⟨hrests, hpaid⟩ := hinv
      obtain ⟨hwedged, ⟨i, env, e, he, rfl⟩ | ⟨env, m, rfl⟩⟩ := step_handle hstep
      · have htaken : s.purse pays = (s.take i).purse pays + (pays (.user e)).toNat :=
          Backend.Session.countP_eraseIdx (fun e => pays (.user e)) he
        have hone := hM env (.user e) s.client.state s.client.context hrests
        refine ⟨handle_rests (s := s.take i) hrests, ?_⟩
        rw [handle_context, owes_handle, purse_handle hreact]
        simp only [owes, hwedged, Bool.false_eq_true, if_false] at hpaid
        simp only [take] at hone htaken ⊢
        omega
      · have hone := hM env (.received m) s.client.state s.client.context hrests
        refine ⟨handle_rests hrests, ?_⟩
        rw [handle_context, owes_handle, purse_handle hreact]
        rw [hmessage m] at hone
        simp only [owes, hwedged, Bool.false_eq_true, if_false, Bool.toNat_false] at hpaid hone
        omega
  exact hinv.2

end Simulation

/-! ### Connecting and opening channels -/

def Effect.isGreeting : Effect → Bool
  | .sent message => message.command = .setup
  | _ => false

def greetings (t : List Effect) : ℕ := t.countP Effect.isGreeting

def openings (t : List Effect) : ℕ := t.countP Effect.isOpening

def InputEvent.connects : InputEvent → Bool
  | .user .attach | .user (.operate _ _) => true
  | _ => false

def InputEvent.opens : InputEvent → Bool
  | .user (.operate _ _) | .user (.openChannels _) => true
  | _ => false

theorem openings_append (t es : List Effect) : openings (t ++ es) = openings t + openings es :=
  List.countP_append

theorem greetings_eq (w : Context) :
    greetings w.trace = (introductions w).countP Effect.isGreeting := by
  rw [greetings, Observer.seen, List.countP_filterMap]
  refine List.countP_congr fun e _ => ?_
  cases e with
  | sent message =>
    by_cases hm : message.command = .setup <;> simp [Observer.see, Effect.isGreeting, hm]
  | event event =>
    by_cases he : event = .error none <;> simp [Observer.see, Effect.isGreeting, he]
  | _ => rfl

theorem greetings_introduced (env : Environment) (b : Beginning) :
    (introduced env b).countP Effect.isGreeting ≤ 1 := by
  unfold introduced
  split
  · exact Nat.zero_le _
  · cases env.openFacade <;> simp [Effect.isGreeting]

/-- A greeting takes an event that connects. -/
theorem CoreUser.paid_greetings {σ : Type} (U : CoreUser σ)
    (hconnects : ∀ s e b, U.begins s e = some b → e.connects = true) :
    Paid U.machine greetings (fun _ => 0) InputEvent.connects := by
  intro env e s w hs
  have howed : owedAfter (fun _ => 0) (U.machine.handleEvent env e s w) = 0 := by
    cases U.machine.handleEvent env e s w <;> rfl
  rw [howed, greetings_eq, greetings_eq, U.introduces env e s w hs, List.countP_append]
  cases hb : U.begins s e with
  | none => simp
  | some b => simpa [hconnects s e b hb] using greetings_introduced env b

@[simps] def openingEvents : Observer FacadeEvent where
  event e := if (Effect.event e).isOpening then some e else none

theorem openings_eq (w : Context) : openings w.trace = (openingEvents w).length := by
  rw [openings, Observer.seen, List.length_filterMap_eq_countP]
  refine List.countP_congr fun e _ => ?_
  cases e with
  | event event => cases he : (Effect.event event).isOpening <;> simp [Observer.see, he]
  | _ => rfl

namespace Pilot
variable {env : Environment} {s : State} {e : InputEvent} {w : Context}
  {r : EStateM.Result Fault Context State}

theorem paid_greetings : Paid pilot greetings (fun _ => 0) InputEvent.connects := by
  refine coreUser.paid_greetings fun s e b hb => ?_
  have hb : s.begins e = some b := hb
  unfold State.begins at hb
  split at hb
  · rfl
  · cases hb

def State.opening : State → Bool
  | .connecting _ _ | .connected (.validatingChannels _ _) | .connected (.openingChannels _) => true
  | _ => false

theorem Handled.openings (h : Handled env w s e r) :
    openings (contextOf r).trace + owedAfter (fun s => s.opening.toNat) r ≤
      openings w.trace + s.opening.toNat + e.opens.toNat := by
  simp only [openings_eq]
  cases h with
  | unexpected hs => simp [owedAfter]
  | defaulted hs =>
    have hnone := openingEvents.see_defaultEffect (fun m _ => rfl)
    simp [owedAfter, hnone]
  | setupAccepted hc hr hv | addAccepted hc hr hv =>
    simp [openingEvents.seen_validated hv, owedAfter, State.opening, Effect.isOpening]
  | setupFailed hc hr hv | addFailed hc hr hv | setupDangling hc hr hv | addDangling hc hr hv =>
    have hsame := openingEvents.seen_validations hv
    simp only [contextOf_ok, contextOf_error] at hsame
    simp [owedAfter, hsame, Nat.add_assoc]
  | setupRejected hc hr hd | release hs hc hd =>
    have hrest : owedAfter (fun s : State => s.opening.toNat) r = 0 := by cases hd <;> rfl
    rw [openingEvents.seen_disconnects rfl hd, hrest]
    simp [Effect.isOpening, Nat.add_assoc]
  | removeAccepted hc hr hf hcl =>
    simp [openingEvents.see_channel hcl.channel, owedAfter, State.opening, Effect.isOpening]
  | _ => simp [owedAfter, State.opening, InputEvent.opens, Effect.isOpening]

theorem paid_openings : Paid pilot openings (fun s => s.opening.toNat) InputEvent.opens :=
  fun env e s w hs => (handled env e s hs w).openings

end Pilot

theorem Device.paid_greetings : Paid device greetings (fun _ => 0) InputEvent.connects := by
  refine coreUser.paid_greetings fun s e b hb => ?_
  have hb : s.begins e = some b := hb
  unfold State.begins at hb
  split at hb
  · rfl
  · cases hb

/-! ### The programs -/

/-- The program is terminated at the second opening at the earliest. -/
theorem openings_of_simulate {t : List Effect} :
    (simulate t = none → 2 ≤ openings t) ∧
      ∀ s, simulate t = some s → s.trafficThread = true → 1 ≤ openings t := by
  induction t using List.reverseRecOn with
  | nil =>
    refine ⟨by simp [simulate], ?_⟩
    rintro _ ⟨⟩ h
    cases h
  | append_singleton t e ih =>
    obtain ⟨hnone, hsome⟩ := ih
    rw [openings_append, simulate_concat]
    cases hs : simulate t with
    | none =>
      refine ⟨fun _ => (hnone hs).trans (Nat.le_add_right _ _), ?_⟩
      rintro s ⟨⟩
    | some s =>
      have hthread := hsome s hs
      cases he : e.isOpening with
      | false =>
        obtain ⟨u, hu, heq⟩ := observe_of_not_opening he s
        rw [Option.bind_some, hu]
        refine ⟨by simp, ?_⟩
        rintro _ ⟨⟩ h
        exact (hthread (heq ▸ h)).trans (Nat.le_add_right _ _)
      | true =>
        have hone : openings [e] = 1 := by simp [openings, he]
        rw [Option.bind_some, hone]
        refine ⟨fun h => ?_, fun _ _ _ => Nat.le_add_left 1 _⟩
        have hjoinable : s.trafficThread = true := by
          unfold Effect.isOpening at he
          split at he
          · exact ISimulator.addChannels_eq_none h
          · cases he
        exact Nat.succ_le_succ (hthread hjoinable)

namespace Simulation
variable {σ : Type} {M : ClientMachine σ} {react : FacadeEvent → Reaction} {first : UserEvent}
  {s : Simulation σ}

theorem handle_step {env : Environment} {e : InputEvent}
    (hw : (s.handle M react env e).wedged = false) :
    (machine M).step s.client ⟨env, e⟩ (s.handle M react env e).client := by
  refine Client.step_eq_some.mpr ?_
  unfold handle at hw ⊢
  split at hw
  · assumption
  · cases hw

/-- Up to an exception, the client of a simulation does what it does on its own. -/
theorem reachable_client (hs : (simulation M react first).Reachable s)
    (hw : s.wedged = false) : (machine M).Reachable s.client := by
  have hinv : s.wedged = false → (machine M).Reachable s.client := by
    refine hs.invariant (P := fun s => s.wedged = false → (machine M).Reachable s.client) ?_ ?_
    · rintro _ rfl _
      exact .init rfl
    · intro s a t _ hc hstep hw
      obtain ⟨hwedged, ⟨i, env, e, he, rfl⟩ | ⟨env, m, rfl⟩⟩ := step_handle hstep
      · exact (hc hwedged).next (handle_step (s := s.take i) hw)
      · exact (hc hwedged).next (handle_step hw)
  exact hinv hw

end Simulation

theorem greetings_eq_countP (w : Context) : greetings w.trace =
    (Wire.signals w).countP fun s => s.command = .setup := by
  rw [greetings, Wire.signals_eq, sent, List.countP_map, List.countP_filterMap]
  refine List.countP_congr fun e _ => ?_
  cases e with
  | sent message =>
    simp only [Effect.isGreeting, Effect.sent?, Wire.signal, Option.map_some, Option.getD_some,
      Function.comp_apply]
    exact Iff.rfl
  | _ => simp [Effect.isGreeting, Effect.sent?]

/-- A client that has greeted once at most is in its first session. -/
theorem one_session {sessions : Language Wire.Signal} {w : Context} {x : List Wire.Signal}
    (hheaded : ∀ y ∈ sessions, Headed Wire.Signal.IsSetup y) (hx : x ∈ sessions)
    (hw : Wire.signals w ∈ prefixes sessions∗) (hone : greetings w.trace ≤ 1) :
    Wire.signals w ∈ prefixes sessions := by
  refine mem_prefixes_of_unmarked_tail hheaded hx hw ?_
  rw [greetings_eq_countP] at hone
  cases hy : Wire.signals w with
  | nil => simp
  | cons a y =>
    rw [hy] at hw hone
    have ha : Wire.Signal.IsSetup a := mark_of_mem_prefixes hheaded hw
    have hcons : (a :: y).countP (fun s => s.command = .setup) =
        y.countP (fun s => s.command = .setup) + 1 :=
      List.countP_cons_of_pos (decide_eq_true (p := a.command = .setup) ha)
    have hnone : y.countP (fun s => s.command = .setup) = 0 := by omega
    intro b hb hmark
    exact List.countP_eq_zero.mp hnone b hb (decide_eq_true hmark)

theorem PilotSimulator.unpaid (event : FacadeEvent) : ∀ e ∈ (handleEvent event).events,
    (InputEvent.user e).connects = false ∧ (InputEvent.user e).opens = false := by
  unfold handleEvent
  split <;> try split
  all_goals simp [InputEvent.connects, InputEvent.opens]

theorem DeviceSimulator.unpaid (event : FacadeEvent) : ∀ e ∈ (handleEvent event).events,
    (InputEvent.user e).connects = false := by
  unfold handleEvent
  split <;> simp [InputEvent.connects]

/-- The pilot simulator opens channels once at most, and is never terminated. -/
theorem pilotSim_survives {deviceId : ℤ} {nearRealTime : ℕ} {s : Simulation Pilot.State}
    (hs : (pilotSim deviceId nearRealTime).Reachable s) :
    openings s.client.context.trace ≤ 1 ∧ simulate s.client.context.trace ≠ none := by
  have hpaid : openings s.client.context.trace + _ + _ ≤ 1 :=
    Simulation.paid Pilot.paid_openings rfl rfl (fun _ => rfl)
      (fun event e he => (PilotSimulator.unpaid event e he).2) hs
  have hone : openings s.client.context.trace ≤ 1 := by omega
  refine ⟨hone, fun hnone => ?_⟩
  have htwo := openings_of_simulate.1 hnone
  omega

def pilotSimRun : List SimulationAction :=
  [.notified 0 (.permissive fun _ => true),
    .received { command := .setup, response := .accepted
                channelsResponse := [{ id := 1 }, { id := 8 }] } (.permissive fun _ => true),
    .received { command := .channelsReady, response := .accepted, channelsIndication := [1, 8] }
      (.permissive fun _ => true),
    .notified 0 (.permissive fun _ => true),
    .received { command := .removeChannels, response := .accepted } (.permissive fun _ => true),
    .notified 0 (.permissive fun _ => true)]

theorem pilotSim_survives_request : ∃ s, (pilotSim 7 0).Reachable s ∧
    s.client.state = .connected (.requestingControl 1) ∧
    (openings s.client.context.trace ≤ 1 ∧ simulate s.client.context.trace ≠ none) := by
  obtain ⟨h, s, hr, hp⟩ := TransitionSystem.exists_run
    ⟨⟨.disconnected, .initial⟩, false, [PilotSimulator.start 7 0], false⟩
    (Simulation.step pilot PilotSimulator.handleEvent) pilotSimRun
    (p := fun _ s => decide (s.client.state = .connected (.requestingControl 1)))
    (by decide +kernel)
  exact ⟨s, hr.reachable, of_decide_eq_true hp, pilotSim_survives hr.reachable⟩

/-- Whatever the client of a simulator sends, in all its life, is of one session. -/
theorem simulators_one_session :
    (∀ deviceId nearRealTime s, (pilotSim deviceId nearRealTime).Reachable s → s.wedged = false →
      Wire.signals s.client.context ∈ prefixes Wire.Pilot.session) ∧
    ∀ s, deviceSim.Reachable s → s.wedged = false →
      Wire.signals s.client.context ∈ prefixes Wire.Device.session := by
  constructor
  · intro deviceId nearRealTime s hs hw
    have hpaid : greetings s.client.context.trace + _ + _ ≤ 1 :=
      Simulation.paid Pilot.paid_greetings rfl rfl (fun _ => rfl)
        (fun event e he => (PilotSimulator.unpaid event e he).1) hs
    refine one_session (x := [⟨.setup, none⟩]) (fun _ => Wire.Pilot.session_headed) ?_
      (Wire.Pilot.mem_prefixes_of_phase _ _ (Wire.Pilot.wire (Simulation.reachable_client hs hw)))
      (by omega)
    exact .inl (mem_mul_star rfl)
  · intro s hs hw
    have hpaid : greetings s.client.context.trace + _ + _ ≤ 1 :=
      Simulation.paid Device.paid_greetings rfl rfl (fun _ => rfl)
        DeviceSimulator.unpaid hs
    refine one_session (x := [⟨.setup, none⟩]) (fun _ => Wire.Device.session_headed) ?_
      (Wire.Device.mem_prefixes_of_phase _ _
        (Wire.Device.wire (Simulation.reachable_client hs hw)))
      (by omega)
    exact .inl (mem_mul_star rfl)

def deviceSimRun : List SimulationAction :=
  [.notified 0 (.permissive fun _ => true),
    .received { command := .setup, response := .accepted } (.permissive fun _ => true),
    .received { command := .attachChannels, response := .accepted
                channelsResponse := [{ id := 1 }] } (.permissive fun _ => true),
    .received { command := .operationEnded, response := .accepted } (.permissive fun _ => true),
    .notified 0 (.permissive fun _ => true),
    .received { command := .release, response := .accepted } (.permissive fun _ => true)]

theorem simulators_one_session_released : ∃ s, deviceSim.Reachable s ∧ s.done = true ∧
    (Wire.signals s.client.context).length = 4 ∧
    Wire.signals s.client.context ∈ prefixes Wire.Device.session := by
  obtain ⟨h, s, hr, hp⟩ := TransitionSystem.exists_run
    ⟨⟨.disconnected, .initial⟩, false, [DeviceSimulator.start], false⟩
    (Simulation.step device DeviceSimulator.handleEvent) deviceSimRun
    (p := fun _ s => decide (s.done = true ∧ (Wire.signals s.client.context).length = 4 ∧
      s.wedged = false)) (by decide +kernel)
  obtain ⟨hdone, hlength, hw⟩ := of_decide_eq_true hp
  exact ⟨s, hr.reachable, hdone, hlength, simulators_one_session.2 s hr.reachable hw⟩

end FmClient
