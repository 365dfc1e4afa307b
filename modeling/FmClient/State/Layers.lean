import FmClient.State.IStateSpec
import Mathlib.Logic.Equiv.Defs

/-! What the two machines have in common: four outer states, one of which holds a state with
handlers of its own, and a transition loop over each of the two layers. -/
namespace FmClient
open Lib Handler

/-- The outer states, with what `Connecting` is to ask for and what `Connected` holds. -/
inductive Outer (δ κ : Type) where
  | disconnected
  | connecting (request : δ)
  | connected (internalState : κ)
  | disconnecting

def Outer.rank {δ κ : Type} : Outer δ κ → ℕ
  | .disconnected | .connected _ => 0
  | .connecting _ | .disconnecting => 1

/-- A machine, by what tells it from the other one. -/
structure Layers (σ δ κ : Type) where
  state : Outer δ κ ≃ σ
  begins : UserEvent → Option δ
  answer : Environment → δ → Except String AttachResponse
  setup : δ → AttachResponse → ClientMessage
  failure : String → LogEntry
  accepted : ControlMessage → κ
  begun : FacadeEvent
  connectedStart : Environment → κ → Handler (κ × Option κ)
  handle : Environment → InputEvent → κ → Handler (Option κ)
  createOuterState : κ → Option σ

namespace Layers
variable {σ δ κ : Type} (L : Layers σ δ κ)

/-- `Connecting::start` -/
def connect (env : Environment) (request : δ) : Handler (Option σ) :=
  tryCatch (do
    let response ← outcome (L.answer env request)
    openFacadeConnection env response
    send (L.setup request response)
    return none)
  fun
    | .thrown what => do
      log (L.failure what)
      onEvent (.error none)
      return some (L.state .disconnected)
    | fault => throw fault

/-- `Disconnecting::start` -/
def disconnect (env : Environment) : Handler (Option σ) := do
  closeFacadeConnection env
  onEvent .released
  return some (L.state .disconnected)

/-- `Connected::start` -/
def enter (env : Environment) (internalState : κ) : Handler κ := do
  let (internalState, _) ← L.connectedStart env internalState
  onEvent L.begun
  return internalState

def start (env : Environment) : Outer δ κ → Handler (σ × Option σ)
  | .disconnected => return (L.state .disconnected, none)
  | .connecting request => do return (L.state (.connecting request), ← L.connect env request)
  | .connected internalState => do
    return (L.state (.connected (← L.enter env internalState)), none)
  | .disconnecting => do return (L.state .disconnecting, ← L.disconnect env)

def request (event : InputEvent) : Handler (Option σ) :=
  match event with
  | .user e =>
    match L.begins e with
    | some request => return some (L.state (.connecting request))
    | none => defaultEventHandle event "Disconnected"
  | .connection _ => defaultEventHandle event "Disconnected"

/-- `Connecting::handleMessage` -/
def handleSetup (env : Environment) (message : ControlMessage) : Handler (Option σ) := do
  match message.command with
  | .setup =>
    if message.response = .accepted then
      return some (L.state (.connected (L.accepted message)))
    else
      onEvent (.error (some message.message))
      return some (L.state .disconnecting)
  | _ => defaultMessageHandle env message "Connecting"

def await (env : Environment) (event : InputEvent) : Handler (Option σ) :=
  match event with
  | .user e => rejectUserEvent e "Connecting"
  | .connection e => handleReceived (L.handleSetup env) e "Connecting"

/-- `Connected::onNewState` -/
def onNewState (fuel : ℕ) (env : Environment) (internalState : κ) (newState : Option κ) :
    Handler (σ × Option σ) := do
  let internalState ← transitions (L.connectedStart env) fuel internalState newState
  return (L.state (.connected internalState), L.createOuterState internalState)

def handleEvent (fuel : ℕ) (env : Environment) (event : InputEvent) :
    Outer δ κ → Handler (σ × Option σ)
  | .disconnected => do return (L.state .disconnected, ← L.request event)
  | .connecting request => do return (L.state (.connecting request), ← L.await env event)
  | .connected internalState => do
    L.onNewState fuel env internalState (← L.handle env event internalState)
  | .disconnecting => do
    return (L.state .disconnecting, ← defaultEventHandle event "Disconnecting")

/-- The machine does what its layers do; a connected state starts no other, and leads out of
`Connected` to `Disconnecting` only. -/
structure Describes (I : ℕ → IState σ) : Prop where
  start (fuel : ℕ) (env : Environment) (s : Outer δ κ) :
    (I fuel).start env (L.state s) = L.start env s
  handleEvent (fuel : ℕ) (env : Environment) (e : InputEvent) (s : Outer δ κ) :
    (I fuel).handleEvent env e (L.state s) = L.handleEvent fuel env e s
  once (env : Environment) (n t : κ) (next : Option κ) (w v : Context)
    (h : L.connectedStart env n w = .ok (t, next) v) : next = none
  outer (s : κ) (next : σ) (h : L.createOuterState s = some next) : next = L.state .disconnecting

section
variable {L : Layers σ δ κ} {env : Environment} {w v : Context}

theorem connect_next {request : δ} {next : σ} (h : L.connect env request w = .ok (some next) v) :
    next = L.state .disconnected := by
  rw [connect, tryCatch_apply] at h
  split at h
  · rename_i heq
    simp only [bind_eq_ok] at heq
    obtain ⟨_, _, _, _, _, _, _, _, _, hnone⟩ := heq
    cases h
    cases hnone
  · split at h
    · simp only [bind_eq_ok] at h
      obtain ⟨_, _, _, _, _, _, hnext⟩ := h
      cases hnext
      rfl
    · cases h

/-- Whatever starts another state leads back to `Disconnected`. -/
theorem start_next {n : Outer δ κ} {t next : σ} (h : L.start env n w = .ok (t, some next) v) :
    next = L.state .disconnected ∧ n.rank = 1 := by
  cases n with
  | disconnected => simp [start] at h
  | connecting request =>
    simp only [start, bind_pure_comp, map_eq_ok, Prod.mk.injEq] at h
    obtain ⟨next', hstart, -, rfl⟩ := h
    exact ⟨connect_next hstart, rfl⟩
  | connected s => simp [start, map_eq_ok] at h
  | disconnecting =>
    simp only [start, disconnect, bind_pure_comp, map_eq_ok, Prod.mk.injEq, bind_eq_ok] at h
    obtain ⟨_, ⟨_, _, _, _, _, rfl⟩, -, hnext⟩ := h
    cases hnext
    exact ⟨rfl, rfl⟩

variable {I : ℕ → IState σ} {fuel : ℕ}

theorem Describes.start_eq (h : L.Describes I) (fuel : ℕ) (env : Environment) (s : σ) :
    (I fuel).start env s = L.start env (L.state.symm s) := by
  rw [← h.start fuel, Equiv.apply_symm_apply]

theorem Describes.transitions_outer (h : L.Describes I) (env : Environment)
    (hfuel : loopFuel ≤ fuel) :
    transitions ((I fuel).start env) fuel = transitions ((I loopFuel).start env) loopFuel := by
  have hstart : (I fuel).start env = (I loopFuel).start env := by
    funext s
    rw [h.start_eq, h.start_eq]
  rw [hstart]
  refine transitions_eq (fun s => (L.state.symm s).rank) ?_ ?_ hfuel
  · intro n t next w v hn
    rw [h.start_eq] at hn
    obtain ⟨rfl, hrank⟩ := start_next hn
    rw [hrank, Equiv.symm_apply_apply]
    exact Nat.zero_lt_one
  · intro n
    cases L.state.symm n <;> simp [Outer.rank, loopFuel]

theorem Describes.transitions_connected (h : L.Describes I) (env : Environment)
    (hfuel : loopFuel ≤ fuel) :
    transitions (L.connectedStart env) fuel = transitions (L.connectedStart env) loopFuel := by
  refine transitions_eq (fun _ => 0) ?_ (by simp [loopFuel]) hfuel
  intro n t next w v hn
  cases h.once env n t _ w v hn

/-- Neither transition loop needs more than its two rounds. -/
theorem Describes.process_fuel (h : L.Describes I) (env : Environment) (e : InputEvent) (s : σ)
    (hfuel : loopFuel ≤ fuel) :
    (I fuel).process fuel env e s = (I loopFuel).process loopFuel env e s := by
  have hevent : (I fuel).handleEvent env e s = (I loopFuel).handleEvent env e s := by
    rw [← L.state.apply_symm_apply s, h.handleEvent, h.handleEvent]
    cases L.state.symm s with
    | connected k =>
      simp only [Layers.handleEvent, onNewState, h.transitions_connected env hfuel]
    | _ => rfl
  unfold IState.process
  rw [hevent, h.transitions_outer env hfuel]

end
end Layers

/-! ### An event in `Connected` -/

section
variable {σ κ : Type} {connected : κ → σ} {start : κ → Handler (κ × Option κ)}
  {outerStart : σ → Handler (σ × Option σ)} {createOuterState : κ → Option σ}
  {handle : Handler (Option κ)} {s n t : κ} {w v u : Context} {f : Fault}

/-- The connected state handles it; then come the loop over the connected states and the one over
the outer states. -/
def handleConnected (connected : κ → σ) (start : κ → Handler (κ × Option κ))
    (outerStart : σ → Handler (σ × Option σ)) (createOuterState : κ → Option σ) (s : κ)
    (handle : Handler (Option κ)) : Handler σ := do
  let state ← transitions start loopFuel s (← handle)
  transitions outerStart loopFuel (connected state) (createOuterState state)

theorem handleConnected_stay (hx : handle w = .ok none v) (hs : createOuterState s = none) :
    handleConnected connected start outerStart createOuterState s handle w =
      .ok (connected s) v := by
  simp [handleConnected, bind_apply, hx, hs]

theorem handleConnected_error (hx : handle w = .error f v) :
    handleConnected connected start outerStart createOuterState s handle w = .error f v := by
  simp [handleConnected, bind_apply, hx]

theorem handleConnected_enter (hx : handle w = .ok (some n) v) (hn : start n v = .ok (t, none) u)
    (ht : createOuterState t = none) :
    handleConnected connected start outerStart createOuterState s handle w =
      .ok (connected t) u := by
  simp [handleConnected, bind_apply, hx, loopFuel, transitions_some, hn, ht]

theorem handleConnected_enter_error (hx : handle w = .ok (some n) v)
    (hn : start n v = .error f u) :
    handleConnected connected start outerStart createOuterState s handle w = .error f u := by
  simp [handleConnected, bind_apply, hx, loopFuel, transitions_some, hn]

theorem handleConnected_leave {next : σ} (hx : handle w = .ok (some n) v)
    (hn : start n v = .ok (n, none) v) (ho : createOuterState n = some next) :
    handleConnected connected start outerStart createOuterState s handle w =
      transitions outerStart loopFuel (connected n) (some next) v := by
  simp [handleConnected, bind_apply, hx, loopFuel, transitions_some, hn, ho]

theorem transitions_disconnects {env : Environment} {disconnecting disconnected : σ}
    (hstart : outerStart disconnecting = do
      closeFacadeConnection env
      onEvent .released
      return (disconnecting, some disconnected))
    (hend : outerStart disconnected = pure (disconnected, none)) (s : σ) (w : Context) :
    Disconnects env disconnected w
      (transitions outerStart loopFuel s (some disconnecting) w) := by
  cases hf : env.closeFacade with
  | ok =>
    simpa [loopFuel, transitions_some, hstart, hend, closeFacadeConnection, bind_apply, map_apply,
      outcome, hf] using (.closed hf : Disconnects env disconnected w _)
  | error what =>
    simpa [loopFuel, transitions_some, hstart, closeFacadeConnection, bind_apply, map_apply,
      outcome, hf] using (.failed hf : Disconnects env disconnected w _)

end
end FmClient
