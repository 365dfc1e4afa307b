import FmClient.Backend.Outward
import FmClient.State.DeviceSpec

/-! What a refused release leaves: `Releasing`, which serves an acceptance and nothing else.
To the application and to the facade it is not `Ready`. -/
namespace FmClient.Device
open Lib Handler ChannelsHandler

/-- What the client has sent, what it has delivered, and its channels. -/
def outward (w : Context) : List ClientMessage × List FacadeEvent × Channels :=
  (sent w.trace, delivered w.trace, w.channels)

def seen (c : Client State) (labels : List Handling) :
    Option (List ClientMessage × List FacadeEvent × Channels) :=
  (TransitionSystem.execute (Client.step handleEvent) c labels).map fun r => outward r.2.context

/-- Nobody can tell the two clients apart at any point of a sequence of events. -/
def Alike (c d : Client State) (labels : List Handling) : Prop :=
  ∀ handled, handled <+: labels → seen c handled = seen d handled

/-- An event that means as little to `Ready` as to `Releasing`. -/
def Ignored (e : InputEvent) : Prop :=
  ConnectedState.ready.serves e = false ∧ ConnectedState.releasing.serves e = false

instance (e : InputEvent) : Decidable (Ignored e) := inferInstanceAs (Decidable (_ ∧ _))

def Refuses (m : ControlMessage) : Prop := m.command = .release ∧ m.response ≠ .accepted

def answers (env : Environment) : InputEvent → List ClientMessage
  | .connection (.received m) => sent [defaultEffect env m ""]
  | _ => []

section
variable {c d : Client State} {a : Handling} {labels : List Handling} {s : ConnectedState}
  {w v : Context}

@[simp] theorem seen_nil : seen c [] = some (outward c.context) := rfl

theorem seen_cons : seen c (a :: labels) =
    (Client.step handleEvent c a).bind fun d => seen d labels := by
  simp only [seen, TransitionSystem.execute]
  cases Client.step handleEvent c a with
  | none => rfl
  | some d => simp [Function.comp_def]

theorem alike_nil (h : outward c.context = outward d.context) : Alike c d [] := by
  intro handled hp
  rw [List.prefix_nil.mp hp, seen_nil, seen_nil, h]

theorem alike_cons {c' d' : Client State} (hc : Client.step handleEvent c a = some c')
    (hd : Client.step handleEvent d a = some d') (h : outward c.context = outward d.context) :
    Alike c d (a :: labels) ↔ Alike c' d' labels := by
  constructor
  · intro halike handled hp
    simpa [seen_cons, hc, hd] using halike (a :: handled) ((List.prefix_cons_inj a).mpr hp)
  · intro halike handled hp
    obtain rfl | ⟨t, rfl, ht⟩ := List.prefix_cons_iff.mp hp
    · rw [seen_nil, seen_nil, h]
    · simpa [seen_cons, hc, hd] using halike t ht

theorem sent_defaultEffect (env : Environment) (m : ControlMessage) (state : String) :
    sent [defaultEffect env m state] = answers env (.received m) := by
  change sent [defaultEffect env m state] = sent [defaultEffect env m ""]
  unfold defaultEffect
  split <;> rfl

theorem step_unserved (hr : s ≠ .released) (hs : s.serves a.event = false) (w : Context) :
    ∃ v, Client.step handleEvent ⟨.connected s, w⟩ a = some ⟨.connected s, v⟩ ∧
      outward v = (sent w.trace ++ answers a.environment a.event, delivered w.trace,
        w.channels) := by
  have ho : s.createOuterState = none := by cases s <;> first | rfl | exact absurd rfl hr
  obtain ⟨env, e⟩ := a
  by_cases he : ∃ m, e = .received m
  · obtain ⟨m, rfl⟩ := he
    have hx : handleEvent env (.received m) (.connected s) w = _ :=
      handleEvent_stay (handle_received_unserved hr hs w) ho
    refine ⟨w.emit [defaultEffect env m s.name], Client.step_eq_some.mpr hx, ?_⟩
    simp [outward, sent_defaultEffect]
  · have hx : handleEvent env e (.connected s) w = _ :=
      handleEvent_stay (handle_unserved hr hs (not_exists.mp he) w) ho
    refine ⟨w.emit [.logged (.unexpectedEvent e s.name)], Client.step_eq_some.mpr hx, ?_⟩
    have hnone : answers env e = [] := by
      unfold answers
      split
      · rename_i m
        exact absurd ⟨m, rfl⟩ he
      · rfl
    simp [outward, hnone]

theorem alike_of_ignored (h : outward w = outward v) (hall : ∀ a ∈ labels, Ignored a.event) :
    Alike ⟨.connected .releasing, w⟩ ⟨.connected .ready, v⟩ labels := by
  induction labels generalizing w v with
  | nil => exact alike_nil h
  | cons a labels ih =>
    obtain ⟨⟨hready, hreleasing⟩, hrest⟩ := List.forall_mem_cons.mp hall
    obtain ⟨w', hw, how⟩ := step_unserved (s := .releasing) (by simp) hreleasing w
    obtain ⟨v', hv, hov⟩ := step_unserved (s := .ready) (by simp) hready v
    refine (alike_cons hw hv h).mpr (ih ?_ hrest)
    simp only [outward, Prod.mk.injEq] at h
    rw [how, hov, h.1, h.2.1, h.2.2]

theorem Handled.outward_ne {env : Environment} {e : InputEvent} {t : State}
    (h : Handled env w (.connected s) e (.ok t v)) (hs : s = .ready ∨ s = .releasing)
    (he : s.serves e = true) :
    outward v ≠ (sent w.trace ++ answers env e, delivered w.trace, w.channels) := by
  cases h with
  | unexpected hu | defaulted hu =>
    rw [State.serves, he] at hu
    cases hu
  | release => simp [outward, answers]
  | attached hs' hc hv hps => simp [outward, hv.delivered]
  | released hc hr hd =>
    cases hd
    simp [outward]
  | _ => simp at hs

theorem ready_serves_not {e : InputEvent} (h : ConnectedState.ready.serves e = true) :
    ConnectedState.releasing.serves e = false := by
  unfold ConnectedState.serves at h
  split at h <;> simp_all [ConnectedState.serves]

theorem seen_ne {s' : ConnectedState} (hs : s = .ready ∨ s = .releasing) (hr : s' ≠ .released)
    (hserves : s.serves a.event = true) (hnot : s'.serves a.event = false)
    (h : outward w = outward v) :
    seen ⟨.connected s, w⟩ [a] ≠ seen ⟨.connected s', v⟩ [a] := by
  obtain ⟨v', hv, hov⟩ := step_unserved hr hnot v
  have hrests : (State.connected s).rests = true := by obtain rfl | rfl := hs <;> rfl
  have hh := handled a.environment a.event (.connected s) hrests w
  rw [seen_cons, seen_cons, hv]
  cases hc : Client.step handleEvent ⟨.connected s, w⟩ a with
  | none => simp
  | some d =>
    rw [Client.step_eq_some.mp hc] at hh
    have hne := hh.outward_ne hs hserves
    simp only [outward, Prod.mk.injEq] at h
    rw [h.1, h.2.1, h.2.2, ← hov] at hne
    simpa using hne

theorem ignored_of_alike (h : outward w = outward v)
    (halike : Alike ⟨.connected .releasing, w⟩ ⟨.connected .ready, v⟩ labels) :
    ∀ a ∈ labels, Ignored a.event := by
  induction labels generalizing w v with
  | nil => simp
  | cons a labels ih =>
    have hfirst := halike [a] (by simp)
    have hignored : Ignored a.event := by
      unfold Ignored
      rw [← Bool.not_eq_true, ← Bool.not_eq_true]
      constructor
      · intro hserves
        exact seen_ne (.inl rfl) (by simp) hserves (ready_serves_not hserves) h.symm hfirst.symm
      · intro hserves
        cases hready : ConnectedState.ready.serves a.event with
        | true => simp [ready_serves_not hready] at hserves
        | false => exact seen_ne (.inr rfl) (by simp) hserves hready h hfirst
    obtain ⟨w', hw, how⟩ := step_unserved (s := .releasing) (by simp) hignored.2 w
    obtain ⟨v', hv, hov⟩ := step_unserved (s := .ready) (by simp) hignored.1 v
    have hout : outward w' = outward v' := by
      simp only [outward, Prod.mk.injEq] at h
      rw [how, hov, h.1, h.2.1, h.2.2]
    exact List.forall_mem_cons.mpr ⟨hignored, ih hout ((alike_cons hw hv h).mp halike)⟩

theorem refused_eq {m : ControlMessage} {env : Environment}
    (hc : c.state = .connected .releasing) (hm : Refuses m)
    (hs : client.step c ⟨env, .received m⟩ d) : d = ⟨.connected .releasing, d.context⟩ := by
  have hunserved : ConnectedState.releasing.serves (.received m) = false := by
    simp [ConnectedState.serves, hm.2]
  have hstep := Client.step_eq_some.mp hs
  rw [hc, handleEvent_stay (handle_received_unserved (by simp) hunserved _) rfl] at hstep
  obtain ⟨state, w⟩ := d
  cases hstep
  rfl

/-- A refused release leaves a device that nobody can tell from one in `Ready` exactly as long
as all that happens means nothing to either. -/
theorem refused_alike_iff {m : ControlMessage} {env : Environment}
    (hc : c.state = .connected .releasing) (hm : Refuses m)
    (hs : client.step c ⟨env, .received m⟩ d) (labels : List Handling) :
    Alike d ⟨.connected .ready, d.context⟩ labels ↔ ∀ a ∈ labels, Ignored a.event := by
  rw [refused_eq hc hm hs]
  exact ⟨ignored_of_alike rfl, alike_of_ignored rfl⟩

end

def refusedRun : List Handling :=
  [.user .attach, .received { command := .setup, response := .accepted }, .user .release].map
    (Handling.mk (.permissive fun _ => true))

def refusal : ControlMessage := { command := .release, response := .other 1 }

theorem refuses_refusal : Refuses refusal := by simp [Refuses, refusal]

theorem exists_refused : ∃ h c d, client.Run h c ∧ c.state = .connected .releasing ∧
    client.step c ⟨.permissive fun _ => true, .received refusal⟩ d := by
  obtain ⟨h, c, hr, hp⟩ := TransitionSystem.exists_run ⟨.disconnected, .initial⟩
    (Client.step handleEvent) refusedRun
    (p := fun _ c => decide (c.state = .connected .releasing) &&
      (Client.step handleEvent c ⟨.permissive fun _ => true, .received refusal⟩).isSome)
    (by decide +kernel)
  simp only [Bool.and_eq_true, decide_eq_true_eq, Option.isSome_iff_exists] at hp
  obtain ⟨hc, d, hd⟩ := hp
  exact ⟨h, c, d, hr, hc, hd⟩

/-- Heartbeats and stray messages can follow. -/
theorem refused_alike_iff_heartbeat : ∃ h c d, client.Run h c ∧
    client.step c ⟨.permissive fun _ => true, .received refusal⟩ d ∧
    Alike d ⟨.connected .ready, d.context⟩
      [⟨.permissive fun _ => true, .received { command := .heartbeat, response := .accepted
                                               heartbeat := some { key := "k" } }⟩,
        ⟨.permissive fun _ => true, .received { command := .setup, response := .accepted }⟩] := by
  obtain ⟨h, c, d, hr, hc, hd⟩ := exists_refused
  refine ⟨h, c, d, hr, hd, (refused_alike_iff hc refuses_refusal hd _).mpr ?_⟩
  decide

/-- After the refusal the device does not answer `ATTACH_CHANNELS`. -/
theorem refused_stranded : ¬ ∀ h c d m env labels, client.Run h c →
    c.state = .connected .releasing → Refuses m →
    client.step c ⟨env, .received m⟩ d → Alike d ⟨.connected .ready, d.context⟩ labels := by
  intro hclaim
  obtain ⟨h, c, d, hr, hc, hd⟩ := exists_refused
  let attach : ControlMessage := { command := .attachChannels, response := .accepted }
  have halike := hclaim h c d refusal _ [⟨.permissive fun _ => true, .received attach⟩] hr hc
    refuses_refusal hd
  rw [refused_eq hc refuses_refusal hd] at halike
  have hignored := ignored_of_alike rfl halike _ List.mem_cons_self
  simp [Ignored, ConnectedState.serves, attach] at hignored

end FmClient.Device
