import FmClient.Backend.Acts
import FmClient.Backend.Outward
import FmClient.State.IState

/-! What the functions that all states use do to the context, and why a transition loop ends. -/
namespace FmClient
open Lib Handler

namespace Context
variable (w : Context) (es : List Effect) (m : Channels) (keepReader : Bool)

def recalls : List Effect := (w.deferred.take 1).map .notified

def recalled : Context := { w with deferred := w.deferred.tail }.emit w.recalls

@[simp] theorem recalled_channels : w.recalled.channels = w.channels := rfl
@[simp] theorem recalled_constructed : w.recalled.constructed = w.constructed := rfl
@[simp] theorem recalled_keepReader : w.recalled.keepReader = w.keepReader := rfl
@[simp] theorem recalled_trace : w.recalled.trace = w.trace ++ w.recalls := rfl

theorem recalls_internal : w.recalls.all Effect.isInternal = true := by
  unfold recalls
  cases w.deferred <;> rfl

@[simp] theorem delivered_recalls : delivered w.recalls = [] :=
  delivered_internal w.recalls_internal

@[simp] theorem sent_recalls : sent w.recalls = [] := sent_internal w.recalls_internal

@[simp] theorem seen_recalled {β : Type} (o : Observer β) : o w.recalled = o w := by
  refine o.seen_silent (w := { w with deferred := w.deferred.tail }) ?_
  unfold recalls
  cases w.deferred <;> rfl

theorem recalls_isPlain : w.recalls.all Effect.isPlain = true := by
  unfold recalls
  cases w.deferred <;> rfl

end Context

variable {env : Environment} {w v : Context} {σ : Type}

theorem recall_apply (w : Context) : «recall» w = .ok () w.recalled := by
  obtain ⟨channels, constructed, keepReader, deferred, trace⟩ := w
  cases deferred with
  | nil => simp [«recall», bind_apply, Context.recalled, Context.recalls]
  | cons event rest => simp [«recall», bind_apply, Context.recalled, Context.recalls]

def Environment.port (env : Environment) (response : AttachResponse) : ℕ :=
  if env.useTls then response.tlsPort else response.unsafePort

theorem openFacadeConnection_apply (env : Environment) (response : AttachResponse) (w : Context) :
    env.openFacade = .ok () ∧ openFacadeConnection env response w =
        .ok () ((w.withReader true).emit [.dialed response.host (env.port response)]) ∨
      ∃ what, env.openFacade = .error what ∧ openFacadeConnection env response w =
        .error (.thrown what) (w.emit [.dialed response.host (env.port response)]) := by
  cases h : env.openFacade with
  | ok => simp [openFacadeConnection, bind_apply, outcome, h, Environment.port]
  | error what => simp [openFacadeConnection, bind_apply, outcome, h, Environment.port]

theorem defaultEventHandle_apply (event : InputEvent) (state : String) (w : Context) :
    (defaultEventHandle event state : Handler (Option σ)) w =
      .ok none (w.emit [.logged (.unexpectedEvent event state)]) := rfl

/-- What `defaultMessageHandle` does: it answers a heartbeat and logs anything else. -/
def defaultEffect (env : Environment) (message : ControlMessage) (state : String) : Effect :=
  match message.command, message.heartbeat with
  | .heartbeat, some heartbeat =>
    .sent { command := .heartbeat, response := some .accepted
            heartbeat := some { key := heartbeat.key, location := env.location } }
  | _, _ => .logged (.unexpectedMessage message state)

theorem defaultEffect_of_ne {message : ControlMessage} (h : message.command ≠ .heartbeat)
    (env : Environment) (state : String) :
    defaultEffect env message state = .logged (.unexpectedMessage message state) := by
  unfold defaultEffect
  split
  · contradiction
  · rfl

theorem defaultMessageHandle_apply (env : Environment) (message : ControlMessage)
    (state : String) (w : Context) :
    (defaultMessageHandle env message state : Handler (Option σ)) w =
      .ok none (w.emit [defaultEffect env message state]) := by
  cases hc : message.command <;> cases hh : message.heartbeat <;>
    simp [defaultMessageHandle, defaultEffect, handleHeartbeat, map_apply, hc, hh]

theorem Observer.see_defaultEffect {β : Type} (o : Observer β)
    (h : ∀ m : ClientMessage, m.command = .heartbeat → o.message m = none) (env : Environment)
    (message : ControlMessage) (state : String) :
    [defaultEffect env message state].filterMap o.see = [] := by
  unfold defaultEffect
  split <;> simp [h]

/-- How `Disconnecting::start` ends. -/
inductive Disconnects (env : Environment) (disconnected : σ) (w : Context) :
    EStateM.Result Fault Context σ → Prop where
  | closed (hf : env.closeFacade = .ok ()) : Disconnects env disconnected w
      (.ok disconnected ((w.withReader false).emit [.finished, .event .released]))
  | failed {what : String} (hf : env.closeFacade = .error what) : Disconnects env disconnected w
      (.error (.thrown what) ((w.withReader false).emit [.finished]))

theorem Observer.seen_disconnects {β : Type} (o : Observer β) {disconnected : σ}
    {r : EStateM.Result Fault Context σ} (ho : o.event .released = none)
    (h : Disconnects env disconnected w r) : o (contextOf r) = o w := by
  cases h <;> simp [ho]

namespace Acts

theorem recalled (h : Acts w v) : Acts w v.recalled :=
  h.tail (.other rfl rfl v.recalled_trace v.recalls_isPlain)

theorem emit_recalled {es : List Effect} (h : Acts w v) (hes : es.all Effect.isPlain = true) :
    Acts w (v.emit es).recalled :=
  (h.emit hes).recalled

theorem disconnects {disconnected : σ} {r : EStateM.Result Fault Context σ}
    (hd : Disconnects env disconnected v r) (h : Acts w v) : Acts w (contextOf r) := by
  cases hd with
  | closed hf => exact (h.withReader false).emit rfl
  | failed hf => exact (h.withReader false).emit rfl

end Acts

@[simp] theorem defaultEffect_isPlain (env : Environment) (message : ControlMessage)
    (state : String) : (defaultEffect env message state).isPlain = true := by
  unfold defaultEffect
  split <;> rfl

theorem Client.step_eq_some {handleEvent : Environment → InputEvent → σ → Handler σ}
    {c d : Client σ} {a : Handling} : Client.step handleEvent c a = some d ↔
      handleEvent a.environment a.event c.state c.context = .ok d.state d.context := by
  unfold Client.step
  cases handleEvent a.environment a.event c.state c.context with
  | ok state context => cases d; simp
  | error f context => simp

@[simp] theorem delivered_defaultEffect (env : Environment) (message : ControlMessage)
    (state : String) : delivered [defaultEffect env message state] = [] := by
  unfold defaultEffect
  split <;> rfl

/-! ### Transition loops -/

section
variable {start : σ → Handler (σ × Option σ)}

@[simp] theorem transitions_none (fuel : ℕ) (s : σ) :
    transitions start fuel s none = pure s := by
  cases fuel <;> rfl

theorem transitions_some (fuel : ℕ) (s n : σ) (w : Context) :
    transitions start (fuel + 1) s (some n) w = match start n w with
      | .ok (t, next) v => transitions start fuel t next v
      | .error f v => .error f v := by
  simp only [transitions, bind_apply]
  cases start n w <;> rfl

/-- Where each successor that `start` returns has a lower rank, a loop ends: more rounds
than the rank of its first state change nothing. -/
theorem transitions_of_rank (rank : σ → ℕ)
    (hstart : ∀ n t next w v, start n w = .ok (t, some next) v → rank next < rank n)
    {fuel more : ℕ} {s n : σ} (hfuel : rank n < fuel) (hmore : rank n < more) (w : Context) :
    transitions start fuel s (some n) w = transitions start more s (some n) w := by
  induction fuel generalizing more s n w with
  | zero => omega
  | succ fuel ih =>
    obtain ⟨more, rfl⟩ := Nat.exists_eq_succ_of_ne_zero (Nat.ne_zero_of_lt hmore)
    rw [transitions_some, transitions_some]
    cases h : start n w with
    | error f v => rfl
    | ok r v =>
      obtain ⟨t, _ | next⟩ := r
      · simp
      · have hlt := hstart n t next w v h
        exact ih (by omega) (by omega) v

theorem transitions_eq (rank : σ → ℕ) {enough fuel : ℕ}
    (hstart : ∀ n t next w v, start n w = .ok (t, some next) v → rank next < rank n)
    (hrank : ∀ n, rank n < enough) (hfuel : enough ≤ fuel) :
    transitions start fuel = transitions start enough := by
  funext s next w
  cases next with
  | none => simp
  | some n =>
    have hlt := hrank n
    exact transitions_of_rank rank hstart (by omega) hlt w

end

end FmClient
