import FmClient.State.PilotSpec

/-! What becomes of a request that arrives while the pilot is busy with a procedure.
No state defers an event, so that only `ClosingChannels` keeps one: it serves `RELEASE`. -/
namespace FmClient.Pilot
open Lib Handler ChannelsHandler

/-- The states of a procedure, between `Operating` and `Operating`. -/
def ConnectedState.inProcedure : ConnectedState → Bool
  | .validatingChannels _ _ | .openingChannels _ | .closingChannels _ | .requestingControl _
  | .releasingControl _ => true
  | .operating | .recovering | .released => false

/-- The requests of the user and of the facade that `Operating` serves. -/
def isRequest : InputEvent → Bool
  | .user (.openChannels _) | .user (.closeChannels _) | .user (.requestControl _)
  | .user .release => true
  | .connection (.received m) =>
    m.command = .release ∨ m.command = .releaseControl ∨ m.command = .operationUpdated
  | _ => false

def Unexpected (e : InputEvent) (es : List Effect) : Prop :=
  ∃ entry state, .logged entry ∈ es ∧
    (entry = .unexpectedEvent e state ∨
      ∃ m, e = .received m ∧ entry = .unexpectedMessage m state)

/-- An event handled in context `w` was served, or was put in the deferred list. -/
def Kept (w : Context) (e : InputEvent) (v : Context) : Prop :=
  ¬ Unexpected e (v.trace.drop w.trace.length) ∨ v.deferred = w.deferred ++ [e]

theorem not_kept {w : Context} {e : InputEvent} {entry : LogEntry} (state : String)
    (he : entry = .unexpectedEvent e state ∨
      ∃ m, e = .received m ∧ entry = .unexpectedMessage m state) :
    ¬ Kept w e (w.emit [.logged entry]) := by
  rintro (h | h)
  · exact h ⟨entry, state, by simp, he⟩
  · simp at h

theorem kept_release {env : Environment} {w : Context} {e : InputEvent}
    {r : EStateM.Result Fault Context State}
    (hd : Disconnects env .disconnected (releaseContext w) r) : Kept w e (contextOf r) := by
  refine .inl ?_
  intro ⟨entry, state, hmem, hentry⟩
  have hne (id : ℤ) : entry ≠ closingLine id := by
    intro heq
    subst heq
    simp [closingLine] at hentry
  cases hd <;> simp [releaseContext, closeAllEffects, hne] at hmem

theorem kept_iff {env : Environment} {s : ConnectedState} {e : InputEvent}
    (w : Context) (hs : s.inProcedure = true) (he : isRequest e = true) :
    Kept w e (contextOf (handleEvent env e (.connected s) w)) ↔
      ∃ ids m, s = .closingChannels ids ∧ e = .received m ∧ m.command = .release := by
  have hr : s ≠ .released := by
    intro heq
    subst heq
    simp [ConnectedState.inProcedure] at hs
  have hserved : (∃ ids m, s = .closingChannels ids ∧ e = .received m ∧ m.command = .release) →
      (State.connected s).serves e = true := by
    rintro ⟨ids, m, rfl, rfl, hc⟩
    simp [State.serves, ConnectedState.serves, hc]
  have hh : Handled env w (.connected s) e _ := handled_connected e s hr
  generalize handleEvent env e (.connected s) w = r at hh
  cases hh with
  | unexpected hu =>
    refine iff_of_false (not_kept s.name (.inl rfl)) fun h => ?_
    simp [hserved h] at hu
  | @defaulted _ m hu =>
    have hne : m.command ≠ .heartbeat := fun h => by simp [isRequest, h] at he
    rw [defaultEffect_of_ne hne]
    refine iff_of_false (not_kept s.name (.inr ⟨m, rfl, rfl⟩)) fun h => ?_
    simp [hserved h] at hu
  | release hs' hc hd =>
    obtain rfl | ⟨ids, rfl⟩ := hs'
    · simp [ConnectedState.inProcedure] at hs
    · exact iff_of_true (kept_release hd) ⟨ids, _, rfl, rfl, hc⟩
  | _ => simp_all [isRequest, ConnectedState.inProcedure]

/-- A request that arrives in a procedure is kept exactly when it is a `RELEASE` that
arrives in `ClosingChannels`. -/
theorem request_kept_iff {c : Client State} {s : ConnectedState} {e : InputEvent}
    (hs : c.state = .connected s) (hp : s.inProcedure = true)
    (he : isRequest e = true) (env : Environment) :
    Kept c.context e (contextOf (handleEvent env e c.state c.context)) ↔
      ∃ ids m, s = .closingChannels ids ∧ e = .received m ∧ m.command = .release := by
  rw [hs]
  exact kept_iff c.context hp he

def operatingRun : List Handling :=
  [.user (.operate 7 []), .received { command := .setup, response := .accepted
                                      channelsResponse := [{ id := 1 }] },
    .received { command := .channelsReady, response := .accepted, channelsIndication := [1] }].map
    (Handling.mk (.permissive fun _ => true))

theorem request_kept_closing : ∃ c, client.Reachable c ∧
    c.state = .connected (.closingChannels [1]) ∧ ∀ env m, m.command = .release →
      Kept c.context (.received m)
        (contextOf (handleEvent env (.received m) c.state c.context)) := by
  obtain ⟨h, c, hr, hp⟩ := TransitionSystem.exists_run ⟨.disconnected, .initial⟩
    (Client.step handleEvent)
    (operatingRun ++ [⟨.permissive fun _ => true, .user (.closeChannels [1])⟩])
    (p := fun _ c => decide (c.state = .connected (.closingChannels [1]))) (by decide +kernel)
  have hs := of_decide_eq_true hp
  refine ⟨c, hr.reachable, hs, fun env m hm => ?_⟩
  exact (request_kept_iff hs rfl (by simp [isRequest, hm]) env).mpr ⟨[1], m, rfl, rfl, hm⟩

/-- `RELEASE` in `RequestingControl` is reported as unexpected, and dropped. -/
theorem release_dropped : ¬ ∀ c s env e, client.Reachable c → c.state = .connected s →
    s.inProcedure = true → isRequest e = true →
      Kept c.context e (contextOf (handleEvent env e c.state c.context)) := by
  intro hclaim
  obtain ⟨h, c, hr, hp⟩ := TransitionSystem.exists_run ⟨.disconnected, .initial⟩
    (Client.step handleEvent)
    (operatingRun ++ [⟨.permissive fun _ => true, .user (.requestControl 1)⟩])
    (p := fun _ c => decide (c.state = .connected (.requestingControl 1))) (by decide +kernel)
  have hs := of_decide_eq_true hp
  have hkept := hclaim c _ (.permissive fun _ => true)
    (.received { command := .release, response := .accepted }) hr.reachable hs rfl rfl
  rw [hs] at hkept
  obtain ⟨ids, m, hids, -⟩ := (kept_iff c.context rfl rfl).mp hkept
  cases hids

end FmClient.Pilot
