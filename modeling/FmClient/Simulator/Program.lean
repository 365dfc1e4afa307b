import FmClient.Core.Sessions
import FmClient.Simulator.Simulation

/-! The start of the pilot's simulator, which chooses its device from Core's list, and whom it
operates from then on. -/
namespace FmClient
open Lib Handler ChannelsHandler Facade

/-- `PilotSimulator::start`: the event that it posts. -/
def PilotSimulator.startWith (core : Core.CoreClient) (x : Core.Exchange) (nearRealTime : ℕ) :
    Core.Exchanging UserEvent := do
  match ← core.listConnectedDevices x with
  | device :: _ => return start device.id nearRealTime
  | [] => throw "No device to connect"

theorem PilotSimulator.startWith_ok {core : Core.CoreClient} {x : Core.Exchange}
    {nearRealTime : ℕ} {first : UserEvent} {calls done : List Core.Call}
    (h : startWith core x nearRealTime calls = .ok first done) :
    ∃ devices device, core.Lists x devices ∧
      devices.find? (fun d => d.connectionState = .connected) = some device ∧
        first = start device.id nearRealTime := by
  rw [startWith, Core.Exchanging.bind_apply, Core.CoreClient.listConnectedDevices,
    Core.Exchanging.bind_apply] at h
  cases hr : core.listDevices x calls with
  | error what v => simp [hr] at h
  | ok devices v =>
    rw [hr] at h
    simp only [Core.Exchanging.pure_apply] at h
    cases hd : devices.filter (fun d => d.connectionState = .connected) with
    | nil =>
      rw [hd] at h
      cases h
    | cons device rest =>
      rw [hd] at h
      cases h
      refine ⟨devices, device, Core.CoreClient.lists_of_listDevices hr, ?_, rfl⟩
      rw [← List.head?_filter, hd, List.head?_cons]

def pilotProgram (core : Core.CoreClient) (nearRealTime : ℕ) :
    TransitionSystem (Simulation Pilot.State) SimulationAction where
  init s := ∃ x first done, PilotSimulator.startWith core x nearRealTime [] = .ok first done ∧
    s = ⟨⟨.disconnected, .initial⟩, false, [first], false⟩
  step s a t := s.step pilot PilotSimulator.handleEvent a = some t

namespace Simulation
variable {σ : Type} {M : ClientMachine σ} {react : FacadeEvent → Reaction} {first : UserEvent}
  {s t : Simulation σ}

def notified? (t : Transition (Simulation σ) SimulationAction) : Option UserEvent :=
  match t.label with
  | .notified i _ => t.source.emitted[i]?
  | .received _ _ => none

theorem emitted_origin (hs : (simulation M react first).Reachable s) :
    ∀ e ∈ s.emitted, e = first ∨ ∃ event, e ∈ (react event).events := by
  refine hs.invariant
    (P := fun s => ∀ e ∈ s.emitted, e = first ∨ ∃ event, e ∈ (react event).events) ?_ ?_
  · rintro _ rfl e he
    exact .inl (List.mem_singleton.mp he)
  · intro s a t _ ih hstep
    have hhandle (r : Simulation σ) (env : Environment) (x : InputEvent)
        (hr : ∀ e ∈ r.emitted, e ∈ s.emitted) :
        ∀ e ∈ (r.handle M react env x).emitted, e = first ∨ ∃ event, e ∈ (react event).events := by
      intro e he
      obtain ⟨es, hes, horigin⟩ : ∃ es, (r.handle M react env x).emitted = r.emitted ++ es ∧
          ∀ e ∈ es, ∃ event, e ∈ (react event).events := r.handle_emitted
      rw [hes] at he
      obtain he | he := List.mem_append.mp he
      · exact ih e (hr e he)
      · exact .inr (horigin e he)
    obtain ⟨-, ⟨i, env, e, he, rfl⟩ | ⟨env, m, rfl⟩⟩ := step_handle hstep
    · exact hhandle (s.take i) env _ fun _ => List.mem_of_mem_eraseIdx
    · exact hhandle s env _ fun _ he => he

end Simulation

/-- The device that the simulator has operated, once for all, is the first one that Core lists
as connected. -/
theorem pilotProgram_operates {core : Core.CoreClient} {nearRealTime : ℕ}
    {h : List (Transition (Simulation Pilot.State) SimulationAction)} {s : Simulation Pilot.State}
    (hr : (pilotProgram core nearRealTime).Run h s) :
    ∃ x devices device, core.Lists x devices ∧
      devices.find? (fun d => d.connectionState = .connected) = some device ∧
      (∀ t ∈ h, ∀ deviceId channels, Simulation.notified? t = some (.operate deviceId channels) →
        deviceId = device.id) ∧
      greetings s.client.context.trace ≤ 1 := by
  have hrun : ∃ x devices device, core.Lists x devices ∧
      devices.find? (fun d => d.connectionState = .connected) = some device ∧
      (pilotSim device.id nearRealTime).Run h s := by
    induction hr with
    | start hs =>
      obtain ⟨x, first, done, hstart, rfl⟩ := hs
      obtain ⟨devices, device, hlists, hfind, rfl⟩ := PilotSimulator.startWith_ok hstart
      exact ⟨x, devices, device, hlists, hfind, .start rfl⟩
    | next hr ht ih =>
      obtain ⟨x, devices, device, hlists, hfind, hrun⟩ := ih
      exact ⟨x, devices, device, hlists, hfind, hrun.next ht⟩
  obtain ⟨x, devices, device, hlists, hfind, hrun⟩ := hrun
  refine ⟨x, devices, device, hlists, hfind, fun t ht deviceId channels hnotified => ?_, ?_⟩
  · obtain ⟨hsource, -⟩ := hrun.mem_step ht
    unfold Simulation.notified? at hnotified
    split at hnotified
    · obtain heq | ⟨event, he⟩ := Simulation.emitted_origin hsource _
        (List.mem_of_getElem? hnotified)
      · cases heq
        rfl
      · have hconnects := (PilotSimulator.unpaid event _ he).1
        cases hconnects
    · cases hnotified
  · have hpaid : greetings s.client.context.trace + _ + _ ≤ 1 :=
      Simulation.paid Pilot.paid_greetings rfl rfl (fun _ => rfl)
        (fun event e he => (PilotSimulator.unpaid event e he).1) hrun.reachable
    omega

def listedDevices : Core.Exchange := .answering 200
  "[\x7b\"id\":3\x7d,\x7b\"id\":7,\"connectionState\":\"CONNECTED\"\x7d]"

theorem pilotProgram_operates_connected : ∃ h s, (pilotProgram Core.twoDevices 0).Run h s ∧
    s.client.state = .connected (.requestingControl 1) ∧
    ∃ x devices device, Core.twoDevices.Lists x devices ∧
      devices.find? (fun d => d.connectionState = .connected) = some device ∧
      (∀ t ∈ h, ∀ deviceId channels, Simulation.notified? t = some (.operate deviceId channels) →
        deviceId = device.id) ∧
      greetings s.client.context.trace ≤ 1 := by
  obtain ⟨h, s, hr, hp⟩ := TransitionSystem.exists_run
    ⟨⟨.disconnected, .initial⟩, false, [PilotSimulator.start 7 0], false⟩
    (Simulation.step pilot PilotSimulator.handleEvent) pilotSimRun
    (p := fun _ s => decide (s.client.state = .connected (.requestingControl 1)))
    (by decide +kernel)
  have hstart : ∃ done, PilotSimulator.startWith Core.twoDevices listedDevices 0 [] =
      .ok (PilotSimulator.start 7 0) done := ⟨_, rfl⟩
  obtain ⟨done, hstart⟩ := hstart
  have hrun : (pilotProgram Core.twoDevices 0).Run h s := by
    clear hp
    induction hr with
    | start hs => exact .start ⟨_, _, _, hstart, hs⟩
    | next hr ht ih => exact ih.next ht
  exact ⟨h, s, hrun, of_decide_eq_true hp, pilotProgram_operates hrun⟩

end FmClient
