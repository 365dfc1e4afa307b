import FmClient.Core.CoreClient
import FmClient.Run.Session

/-! Where a session begins: no handler but the one that begins it looks at an answer of Core, and
that one at the answer to its own query only. -/
namespace FmClient
open Lib Handler ChannelsHandler

/-- The session that a handler begins, if its state and event are to begin one. -/
structure Beginning where
  query : Core.Query
  channels : List ChannelRequest := []
  deriving DecidableEq

def Environment.answer (env : Environment) : Core.Query → Except String AttachResponse
  | .attach => env.attach
  | .operate deviceId => env.operate deviceId

def Environment.withCore (env : Environment)
    (answer : Core.Query → Except String AttachResponse) : Environment :=
  { env with attach := answer .attach, operate := fun deviceId => answer (.operate deviceId) }

@[simp] theorem Environment.withCore_answer (env : Environment)
    (answer : Core.Query → Except String AttachResponse) (q : Core.Query) :
    (env.withCore answer).answer q = answer q := by
  cases q <;> rfl

def Pilot.State.begins : Pilot.State → InputEvent → Option Beginning
  | .disconnected, .user (.operate deviceId channels) => some ⟨.operate deviceId, channels⟩
  | _, _ => none

theorem Pilot.State.begins_of_unserved {s : State} {e : InputEvent} (hs : s.serves e = false) :
    s.begins e = none := by
  unfold begins
  split <;> simp_all [serves]

def Device.State.begins : Device.State → InputEvent → Option Beginning
  | .disconnected, .user .attach => some ⟨.attach, []⟩
  | _, _ => none

theorem Device.State.begins_of_unserved {s : State} {e : InputEvent} (hs : s.serves e = false) :
    s.begins e = none := by
  unfold begins
  split <;> simp_all [serves]

section
variable {σ : Type} {start start' : σ → Handler (σ × Option σ)}

theorem transitions_congr {P : σ → Prop} (hsame : ∀ n, P n → start n = start' n)
    (hnext : ∀ n t m w v, start n w = .ok (t, some m) v → P m) (fuel : ℕ) (s : σ)
    {next : Option σ} (hp : ∀ n, next = some n → P n) :
    transitions start fuel s next = transitions start' fuel s next := by
  induction fuel generalizing s next with
  | zero => cases next <;> rfl
  | succ fuel ih =>
    cases next with
    | none => rfl
    | some n =>
      funext w
      rw [transitions_some, transitions_some, ← hsame n (hp n rfl)]
      cases hr : start n w with
      | error f v => rfl
      | ok r v =>
        obtain ⟨t, next⟩ := r
        refine congrFun (ih t fun m hm => ?_) v
        subst hm
        exact hnext n t m w v hr

theorem process_congr {I : IState σ} {P : σ → Prop} {env env' : Environment} {e : InputEvent}
    {s : σ} (hevent : I.handleEvent env e s = I.handleEvent env' e s)
    (hsame : ∀ n, P n → I.start env n = I.start env' n)
    (hnext : ∀ n t m w v, I.start env n w = .ok (t, some m) v → P m)
    (hp : ∀ t n w v, I.handleEvent env e s w = .ok (t, some n) v → P n) (fuel : ℕ) (w : Context) :
    I.process fuel env e s w = I.process fuel env' e s w := by
  unfold IState.process
  rw [← hevent, bind_apply, bind_apply]
  cases hr : I.handleEvent env e s w with
  | error => rfl
  | ok r v =>
    obtain ⟨t, next⟩ := r
    refine congrFun (transitions_congr hsame hnext fuel t fun n hn => ?_) v
    subst hn
    exact hp t n w v hr

end

/-! ### A handler between two answers -/

/-- A machine that has nothing from Core but the answer that `Connecting` asks for. -/
structure Layers.Asks {σ δ κ : Type} (L : Layers σ δ κ) (beginning : δ → Beginning) : Prop where
  answer (env : Environment) (f : Core.Query → Except String AttachResponse) (d : δ) :
    L.answer (env.withCore f) d = f (beginning d).query
  connectedStart (env : Environment) (f : Core.Query → Except String AttachResponse) :
    L.connectedStart (env.withCore f) = L.connectedStart env
  handle (env : Environment) (f : Core.Query → Except String AttachResponse) (e : InputEvent)
    (s : κ) : L.handle (env.withCore f) e s = L.handle env e s

namespace Layers.Asks
variable {σ δ κ : Type} {L : Layers σ δ κ} {beginning : δ → Beginning} {env : Environment}
  {f g : Core.Query → Except String AttachResponse} {e : InputEvent}

theorem start (h : L.Asks beginning) (n : Outer δ κ)
    (hn : ∀ d, n = .connecting d → f (beginning d).query = g (beginning d).query) :
    L.start (env.withCore f) n = L.start (env.withCore g) n := by
  cases n with
  | connecting d =>
    have hanswer : L.answer (env.withCore f) d = L.answer (env.withCore g) d := by
      rw [h.answer, h.answer, hn d rfl]
    simp only [Layers.start, connect, hanswer]
    rfl
  | connected s => simp only [Layers.start, enter, h.connectedStart]
  | _ => rfl

theorem handleEvent (h : L.Asks beginning) (fuel : ℕ) (s : Outer δ κ) :
    L.handleEvent fuel (env.withCore f) e s = L.handleEvent fuel env e s := by
  cases s with
  | connected s => simp only [Layers.handleEvent, onNewState, h.handle, h.connectedStart]
  | _ => rfl

end Layers.Asks

section
variable {σ δ κ : Type} {L : Layers σ δ κ} {I : ℕ → IState σ} {env : Environment}
  {e : InputEvent} {w v : Context}

theorem Layers.handleSetup_next {m : ControlMessage} {next : σ}
    (h : L.handleSetup env m w = .ok (some next) v) (d : δ) : next ≠ L.state (.connecting d) := by
  have hstay : defaultMessageHandle env m "Connecting" w ≠ .ok (some next) v := by
    rw [defaultMessageHandle_apply]
    exact nofun
  cases hc : m.command with
  | setup =>
    by_cases hr : m.response = .accepted
    · simp only [handleSetup, hc, if_pos hr] at h
      cases h
      simp
    · simp only [handleSetup, hc, if_neg hr, bind_eq_ok] at h
      obtain ⟨_, _, _, h⟩ := h
      cases h
      simp
  | _ =>
    simp only [handleSetup, hc] at h
    exact absurd h hstay

/-- Only `Disconnected` leads to `Connecting`. -/
theorem Layers.Describes.begins (h : L.Describes I) {s : Outer δ κ} {t : σ} {d : δ} {fuel : ℕ}
    (hx : L.handleEvent fuel env e s w = .ok (t, some (L.state (.connecting d))) v) :
    s = .disconnected ∧ ∃ x, e = .user x ∧ L.begins x = some d := by
  cases s with
  | disconnected =>
    obtain x | x := e
    · cases hb : L.begins x with
      | none => simp [Layers.handleEvent, request, hb, map_eq_ok, defaultEventHandle_apply] at hx
      | some b =>
        have hd : b = d := by
          simp [Layers.handleEvent, request, hb] at hx
          exact hx.1.2
        exact ⟨rfl, x, rfl, hd ▸ hb⟩
    · cases hx
  | connecting d' =>
    simp only [Layers.handleEvent, bind_pure_comp, map_eq_ok, Prod.mk.injEq] at hx
    obtain ⟨next, hx, -, rfl⟩ := hx
    obtain x | x := e
    · cases hx
    · cases x with
      | received m => exact absurd rfl (handleSetup_next hx d)
      | _ => cases hx
  | connected k =>
    simp only [Layers.handleEvent, onNewState, bind_pure_comp, bind_eq_ok, map_eq_ok,
      Prod.mk.injEq] at hx
    obtain ⟨_, _, _, k', _, -, hnext⟩ := hx
    cases L.state.injective (h.outer k' _ hnext)
  | disconnecting =>
    simp only [Layers.handleEvent, bind_pure_comp, map_eq_ok, defaultEventHandle_apply,
      Prod.mk.injEq] at hx
    obtain ⟨_, hx, -, rfl⟩ := hx
    cases hx

/-- A handler reads Core's answer to the query that it is to make, and no other. -/
theorem Layers.Asks.reads {beginning : δ → Beginning} (hL : L.Asks beginning) (hI : L.Describes I)
    {f g : Core.Query → Except String AttachResponse} {s : σ}
    (h : ∀ x d, s = L.state .disconnected → e = .user x → L.begins x = some d →
      f (beginning d).query = g (beginning d).query) (fuel : ℕ) (w : Context) :
    (I fuel).process fuel (env.withCore f) e s w =
      (I fuel).process fuel (env.withCore g) e s w := by
  have hevent (f : Core.Query → Except String AttachResponse) :
      (I fuel).handleEvent (env.withCore f) e s = (I fuel).handleEvent env e s := by
    rw [← L.state.apply_symm_apply s, hI.handleEvent, hI.handleEvent, hL.handleEvent]
  refine process_congr
    (P := fun n => ∀ d, n = L.state (.connecting d) →
      f (beginning d).query = g (beginning d).query)
    ((hevent f).trans (hevent g).symm) (fun n hn => ?_) ?_ ?_ fuel w
  · rw [hI.start_eq, hI.start_eq]
    exact hL.start _ fun d hd => hn d ((Equiv.symm_apply_eq _).mp hd)
  · intro n t m w v hstart d hm
    rw [hI.start_eq] at hstart
    exact absurd (hm.symm.trans (start_next hstart).1) (by simp)
  · intro t n w v hr d hn
    subst hn
    rw [hevent, ← L.state.apply_symm_apply s, hI.handleEvent] at hr
    obtain ⟨hs, x, hx, hb⟩ := hI.begins hr
    exact h x d ((Equiv.symm_apply_eq _).mp hs) hx hb

end

namespace Pilot

theorem layers_asks :
    layers.Asks fun request => ⟨.operate request.1, request.2⟩ where
  answer _ _ _ := rfl
  connectedStart env f := by
    funext s
    cases s <;> rfl
  handle env f e s := by
    obtain e | e := e
    · rfl
    · cases s <;> rfl

theorem reads {env : Environment} {f g : Core.Query → Except String AttachResponse} {s : State}
    {e : InputEvent} (h : ∀ b, s.begins e = some b → f b.query = g b.query) (w : Context) :
    handleEvent (env.withCore f) e s w = handleEvent (env.withCore g) e s w := by
  refine layers_asks.reads layers_describe (fun x d hs he hb => ?_) loopFuel w
  subst hs he
  cases x <;> cases hb
  exact h _ rfl

end Pilot

namespace Device

theorem layers_asks : layers.Asks fun _ => ⟨.attach, []⟩ where
  answer _ _ _ := rfl
  connectedStart env f := by
    funext s
    cases s <;> rfl
  handle env f e s := by
    obtain e | e := e
    · rfl
    · cases s <;> rfl

theorem reads {env : Environment} {f g : Core.Query → Except String AttachResponse} {s : State}
    {e : InputEvent} (h : ∀ b, s.begins e = some b → f b.query = g b.query) (w : Context) :
    handleEvent (env.withCore f) e s w = handleEvent (env.withCore g) e s w := by
  refine layers_asks.reads layers_describe (fun x d hs he hb => ?_) loopFuel w
  subst hs he
  cases x <;> cases hb
  exact h _ rfl

end Device
end FmClient
