import FmClient.Run.Deferral
import FmClient.Run.Ownership

/-! The two handovers of a pilot: what it sends, gives up and takes between entering
`ReleasingControl` or `RequestingControl` and leaving it. Neither state remembers what was
answered, so that the order is kept exactly when the user and the facade keep it. -/
namespace FmClient.Pilot
open Lib Handler ChannelsHandler

/-! ### Stays -/

section
variable {stay : State → Bool} {p q : Step → Prop} {h : List Step} {c : Client State} {t : Step}

def Enters (stay : State → Bool) (t : Step) : Prop :=
  stay t.source.state = false ∧ stay t.target.state = true

instance : DecidablePred (Enters stay) := fun _ => inferInstanceAs (Decidable (_ ∧ _))

def InStay (stay : State → Bool) (p : Step → Prop) : List Step → Prop := Since p (Enters stay)

instance [DecidablePred p] : Decidable (InStay stay p h) :=
  inferInstanceAs (Decidable (Since _ _ _))

theorem inStay_congr (hr : client.Run h c) (hc : stay c.state = true)
    (hpq : ∀ s a t, client.Reachable s → client.step s a t → stay t.state = true →
      (p ⟨s, a, t⟩ ↔ q ⟨s, a, t⟩)) : InStay stay p h ↔ InStay stay q h := by
  unfold InStay
  induction hr with
  | start => simp
  | @next h s d a hr hs ih =>
    rw [since_concat, since_concat, hpq _ _ _ hr.reachable hs hc]
    cases hb : stay s.state with
    | true => rw [ih hb]
    | false =>
      have henters : Enters stay ⟨s, a, d⟩ := ⟨hb, hc⟩
      simp [henters]

end

def State.isReleasing : State → Bool
  | .connected (.releasingControl _) => true
  | _ => false

def State.isRequesting : State → Bool
  | .connected (.requestingControl _) => true
  | _ => false

/-! ### What a handover says -/

/-- The messages by which control changes hands. -/
def isHandover (m : ClientMessage) : Bool :=
  m.command = .releaseControl ∨ m.command = .controlReleased ∨ m.command = .controlReady

def State.handover : State → InputEvent → List ClientMessage
  | .connected (.releasingControl _), .user (.releaseAccepted data) =>
    [{ command := .releaseControl, response := some .accepted, handoverData := some data }]
  | .connected (.releasingControl _), .user (.releaseRejected text) =>
    [{ command := .releaseControl, response := some .accepted, message := some text }]
  | .connected (.releasingControl _), .connection (.received m) =>
    if m.command = .controlReleased then
      [{ command := .controlReleased, response := some .accepted }] else []
  | .connected (.requestingControl _), .user .controlReady => [{ command := .controlReady }]
  | _, _ => []

def State.takesOver : State → InputEvent → Bool
  | .connected (.requestingControl _), .connection (.received m) =>
    m.command = .controlReady ∧ m.response = .accepted
  | _, _ => false

theorem handover_unserved {s : State} {e : InputEvent} (hs : s.serves e = false) :
    s.handover e = [] ∧ s.takesOver e = false := by
  constructor
  · unfold State.handover
    split <;> simp_all [State.serves, ConnectedState.serves]
  · unfold State.takesOver
    split <;> simp_all [State.serves, ConnectedState.serves]

theorem sent_defaultEffect_handover (env : Environment) (m : ControlMessage) (state : String) :
    (sent [defaultEffect env m state]).filter isHandover = [] := by
  unfold defaultEffect
  split <;> simp [isHandover]

def Outcome (s : State) (e : InputEvent) (es : List Effect) : Prop :=
  (sent es).filter isHandover = s.handover e ∧
    (.handoverDone ∈ delivered es ↔ s.takesOver e = true)

theorem Outcome.append {s : State} {e : InputEvent} {es fs : List Effect} (h : Outcome s e es)
    (hfs : fs.all Effect.isInternal = true) : Outcome s e (es ++ fs) := by
  obtain ⟨hsent, hdone⟩ := h
  exact ⟨by simpa [sent_internal hfs] using hsent, by simpa [delivered_internal hfs] using hdone⟩

theorem outcome_internal {s : State} {e : InputEvent} {es : List Effect}
    (hes : es.all Effect.isInternal = true) (hs : s.handover e = [])
    (ht : s.takesOver e = false) : Outcome s e es := by
  simp [Outcome, sent_internal hes, delivered_internal hes, hs, ht]

section
variable {env : Environment} {s t : State} {e : InputEvent} {w v : Context}

theorem outcome_defaulted {m : ControlMessage} (hs : s.serves (.received m) = false) :
    Outcome s (.received m) [defaultEffect env m s.name] := by
  obtain ⟨hnone, hdone⟩ := handover_unserved hs
  exact ⟨by rw [sent_defaultEffect_handover, hnone], by simp [hdone]⟩

theorem outcome_recalled {u : Context} {es : List Effect} (hu : u.trace = w.trace ++ es)
    (h : Outcome s e es) : ∃ fs, u.recalled.trace = w.trace ++ fs ∧ Outcome s e fs :=
  ⟨es ++ u.recalls, by simp [hu], h.append u.recalls_internal⟩

theorem Handled.outcome (h : Handled env w s e (.ok t v)) :
    ∃ es, v.trace = w.trace ++ es ∧ Outcome s e es := by
  cases h with
  | unexpected hs =>
    obtain ⟨hnone, hdone⟩ := handover_unserved hs
    exact ⟨_, rfl, outcome_internal rfl hnone hdone⟩
  | defaulted hs => exact ⟨_, rfl, outcome_defaulted hs⟩
  | setupAccepted hc hr hv | addAccepted hc hr hv =>
    obtain ⟨es, ht, hes⟩ := hv.internal
    simp only [contextOf_ok] at ht
    refine ⟨es ++ _, by rw [Context.emit_trace, ht, List.append_assoc], ?_⟩
    simp [Outcome, State.handover, State.takesOver, isHandover, sent_internal hes,
      delivered_internal hes]
  | setupRejected hc hr hd =>
    cases hd
    refine ⟨[_] ++ [_, _], List.append_assoc _ _ _, ?_⟩
    simp [Outcome, State.handover, State.takesOver]
  | release hs hc hd =>
    have hclosed := sent_internal (closeAllEffects_internal w.channels)
    have hsilent := delivered_internal (closeAllEffects_internal w.channels)
    obtain rfl | ⟨ids, rfl⟩ := hs <;> cases hd <;> refine ⟨_ ++ [_, _], List.append_assoc _ _ _, ?_⟩
    all_goals simp [Outcome, State.handover, State.takesOver, isHandover, hclosed, hsilent]
  | connectionLost => exact ⟨[], (List.append_nil _).symm, outcome_internal rfl rfl rfl⟩
  | @readyAccepted _ _ m hc hr hids =>
    have hlines := ownedLines_internal m.channelsIndication
    refine outcome_recalled (List.append_assoc _ _ _) ?_
    simp [Outcome, State.handover, State.takesOver, sent_internal hlines, delivered_internal hlines]
  | removeAccepted hc hr hf hcl =>
    refine outcome_recalled rfl ?_
    simp [Outcome, State.handover, State.takesOver, isHandover, sent_internal hcl.internal,
      delivered_internal hcl.internal]
  | operationUpdated | addRejected | removeRejected | requestRejected | handoverDone
  | releaseRejected | controlReleased =>
    refine outcome_recalled rfl ?_
    simp [Outcome, State.handover, State.takesOver, isHandover, *]
  | _ =>
    refine ⟨_, rfl, ?_⟩
    simp [Outcome, State.handover, State.takesOver, isHandover, *]

end

/-! ### Steps of a run -/

section
variable {c d : Client State} {a : Handling}

theorem step_outcome (hc : client.Reachable c) (hs : client.step c a d) :
    Outcome c.state a.event (Step.effects ⟨c, a, d⟩) := by
  obtain ⟨es, ht, hes⟩ := (step_handled hc hs).outcome
  simpa [Step.effects, ht] using hes

theorem filter_sent {p : ClientMessage → Bool} (hp : ∀ m, p m = true → isHandover m = true)
    (hc : client.Reachable c) (hs : client.step c a d) :
    (sent (Step.effects ⟨c, a, d⟩)).filter p = (c.state.handover a.event).filter p := by
  rw [← (step_outcome hc hs).1, List.filter_filter]
  refine List.filter_congr fun m _ => ?_
  cases hm : p m with
  | false => rfl
  | true => simp [hp m hm]

def Turned (owned : Bool) (t : Step) : Prop :=
  ∃ x ∈ t.source.context.channels, ∃ y ∈ t.target.context.channels,
    y.pointer = x.pointer ∧ x.owned = !owned ∧ y.owned = owned

theorem gains_of_turned (hc : client.Reachable c) (hs : client.step c a d)
    (h : Turned true ⟨c, a, d⟩) : ∃ id, c.state.gains a.event id = true := by
  obtain ⟨x, hx, y, hy, hp, hbefore, hafter⟩ := h
  have howned := owned_eq_after hc hs hx hy hp
  refine ⟨x.id, ?_⟩
  simpa [ownedAfter, hbefore, hafter] using howned.symm

theorem loses_of_turned (hc : client.Reachable c) (hs : client.step c a d)
    (h : Turned false ⟨c, a, d⟩) : ∃ id, c.state.loses a.event id = true := by
  obtain ⟨x, hx, y, hy, hp, hbefore, hafter⟩ := h
  have howned := owned_eq_after hc hs hx hy hp
  refine ⟨x.id, ?_⟩
  simp only [ownedAfter, hbefore, hafter, Bool.not_false, Bool.true_and] at howned
  have hlost := howned.symm
  simp only [Bool.or_eq_false_iff, Bool.not_eq_false'] at hlost
  exact hlost.2

end

/-! ### Releasing control -/

def State.grants : State → InputEvent → Bool
  | .connected (.releasingControl _), .user (.releaseAccepted _) => true
  | _, _ => false

def State.refuses : State → InputEvent → Bool
  | .connected (.releasingControl _), .user (.releaseRejected _) => true
  | _, _ => false

def State.releases : State → InputEvent → Bool
  | .connected (.releasingControl _), .connection (.received m) => m.command = .controlReleased
  | _, _ => false

def answers (t : Step) : List ClientMessage :=
  (sent t.effects).filter fun m => m.command = .releaseControl

/-- Control is given up: a flag is cleared, or the facade gets the confirmation. -/
def GivesUp (t : Step) : Prop :=
  Turned false t ∨ ∃ m ∈ sent t.effects, m.command = .controlReleased

def AnswersAccepted (t : Step) : Prop := ∃ m ∈ answers t, m.response = some .accepted

def Grants (t : Step) : Prop := t.source.state.grants t.label.event = true

instance : DecidablePred Grants := fun _ => inferInstanceAs (Decidable (_ = true))

/-- What giving up control is to be: one answer in each stay, the one that the user decided
on, and nothing given up before an answer that accepts. -/
structure Consented (h : List Step) (t : Step) : Prop where
  once : (answers t).length ≤ 1 ∧
    (answers t ≠ [] → ¬ InStay State.isReleasing (fun t => answers t ≠ []) h)
  decided : ∀ m ∈ answers t,
    m.response = some .accepted ↔ ∃ data, t.label.event = .user (.releaseAccepted data)
  refused : t.source.state.refuses t.label.event = true →
    (∃ m ∈ answers t, m.response ≠ some .accepted) ∧
      t.target.context.channels = t.source.context.channels
  givesUp : GivesUp t → InStay State.isReleasing AnswersAccepted h

/-- The user never refuses, agrees once in a stay, and the facade takes control after that. -/
@[mk_iff] structure Granted (h : List Step) (t : Step) : Prop where
  refused : t.source.state.refuses t.label.event = false
  once : Grants t → ¬ InStay State.isReleasing Grants h
  released : t.source.state.releases t.label.event = true → InStay State.isReleasing Grants h

instance (h : List Step) (t : Step) : Decidable (Granted h t) :=
  decidable_of_iff _ (granted_iff h t).symm

section
variable {h : List Step} {c d : Client State} {a : Handling}

theorem grants_isReleasing {s : State} {e : InputEvent} (h : s.grants e = true) :
    s.isReleasing = true := by
  unfold State.grants at h
  split at h <;> simp_all [State.isReleasing]

theorem releases_isReleasing {s : State} {e : InputEvent} (h : s.releases e = true) :
    s.isReleasing = true := by
  unfold State.releases at h
  split at h <;> simp_all [State.isReleasing]

theorem releases_of_loses {s : State} {e : InputEvent} {id : ℤ} (h : s.loses e id = true) :
    s.releases e = true := by
  unfold State.loses at h
  split at h <;> simp_all [State.releases]

theorem Handled.not_isReleasing {env : Environment} {s t : State} {e : InputEvent}
    {w v : Context} (h : Handled env w s e (.ok t v)) (hr : s.refuses e = true) :
    t.isReleasing = false := by
  unfold State.refuses at hr
  split at hr
  · cases h with
    | unexpected hs => simp [State.serves, ConnectedState.serves] at hs
    | releaseRejected => rfl
  · cases hr

theorem answers_cases (hc : client.Reachable c) (hs : client.step c a d) :
    (∃ m, answers ⟨c, a, d⟩ = [m] ∧ m.response = some .accepted ∧
      ((c.state.grants a.event = true ∧ ∃ data, a.event = .user (.releaseAccepted data)) ∨
        (c.state.refuses a.event = true ∧ ∃ text, a.event = .user (.releaseRejected text)))) ∨
    answers ⟨c, a, d⟩ = [] ∧ c.state.grants a.event = false ∧ c.state.refuses a.event = false := by
  have hanswers : answers ⟨c, a, d⟩ =
      (c.state.handover a.event).filter fun m => m.command = .releaseControl :=
    filter_sent (fun m hm => by simp_all [isHandover]) hc hs
  rw [hanswers]
  generalize c.state = s
  generalize a.event = e
  unfold State.handover
  split <;> simp [State.grants, State.refuses]

theorem answers_ne_nil_iff (hc : client.Reachable c) (hs : client.step c a d) :
    (answers ⟨c, a, d⟩ ≠ [] ↔ AnswersAccepted ⟨c, a, d⟩) ∧ (AnswersAccepted ⟨c, a, d⟩ ↔
      c.state.grants a.event = true ∨ c.state.refuses a.event = true) := by
  obtain ⟨m, heq, hr, hcase⟩ | ⟨heq, hg, hr⟩ := answers_cases hc hs
  · have hor := hcase.imp And.left And.left
    simp [AnswersAccepted, heq, hr, hor]
  · simp [AnswersAccepted, heq, hg, hr]

theorem answers_iff_grants (hc : client.Reachable c) (hs : client.step c a d)
    (hd : d.state.isReleasing = true) :
    (answers ⟨c, a, d⟩ ≠ [] ↔ Grants ⟨c, a, d⟩) ∧
      (AnswersAccepted ⟨c, a, d⟩ ↔ Grants ⟨c, a, d⟩) := by
  obtain ⟨hne, hiff⟩ := answers_ne_nil_iff hc hs
  have hrefuses : c.state.refuses a.event = false := by
    by_contra hr
    simp [(step_handled hc hs).not_isReleasing (by simpa using hr)] at hd
  have hgrants : AnswersAccepted ⟨c, a, d⟩ ↔ Grants ⟨c, a, d⟩ := by
    rw [hiff, hrefuses]
    simp [Grants]
  exact ⟨hne.trans hgrants, hgrants⟩

theorem givesUp_iff (hc : client.Reachable c) (hs : client.step c a d) :
    GivesUp ⟨c, a, d⟩ ↔ c.state.releases a.event = true := by
  have hsent : (∃ m ∈ sent (Step.effects ⟨c, a, d⟩), m.command = .controlReleased) ↔
      c.state.releases a.event = true := by
    have hfilter : (sent (Step.effects ⟨c, a, d⟩)).filter (fun m => m.command = .controlReleased) =
        (c.state.handover a.event).filter fun m => m.command = .controlReleased :=
      filter_sent (fun m hm => by simp_all [isHandover]) hc hs
    have hmem := congrArg (· ≠ []) hfilter
    simp only [ne_eq, List.filter_eq_nil_iff, decide_eq_true_eq, not_forall, not_not,
      exists_prop, eq_iff_iff] at hmem
    rw [hmem]
    generalize c.state = s
    generalize a.event = e
    unfold State.handover
    split <;> simp [State.releases]
  refine ⟨fun h => ?_, fun h => .inr (hsent.mpr h)⟩
  obtain hturned | h := h
  · obtain ⟨id, hl⟩ := loses_of_turned hc hs hturned
    exact releases_of_loses hl
  · exact hsent.mp h

theorem consented_iff (hr : client.Run h c) (hs : client.step c a d) :
    Consented h ⟨c, a, d⟩ ↔ Granted h ⟨c, a, d⟩ := by
  have hc := hr.reachable
  have hstay (hin : c.state.isReleasing = true) :
      (InStay State.isReleasing (fun t => answers t ≠ []) h ↔ InStay State.isReleasing Grants h) ∧
      (InStay State.isReleasing AnswersAccepted h ↔ InStay State.isReleasing Grants h) :=
    ⟨inStay_congr hr hin fun _ _ _ hc hs hd => (answers_iff_grants hc hs hd).1,
      inStay_congr hr hin fun _ _ _ hc hs hd => (answers_iff_grants hc hs hd).2⟩
  obtain ⟨hne, haccepted⟩ := answers_ne_nil_iff hc hs
  constructor
  · intro hp
    refine ⟨?_, fun hg => ?_, fun hrel => ?_⟩
    · by_contra hrefuses
      obtain ⟨m, hm, hnot⟩ := (hp.refused (by simpa using hrefuses)).1
      obtain ⟨m', heq, hacc, -⟩ | ⟨heq, -, -⟩ := answers_cases hc hs
      · rw [heq, List.mem_singleton] at hm
        exact hnot (hm ▸ hacc)
      · simp [heq] at hm
    · rw [← (hstay (grants_isReleasing hg)).1]
      exact hp.once.2 (hne.mpr (haccepted.mpr (.inl hg)))
    · rw [← (hstay (releases_isReleasing hrel)).2]
      exact hp.givesUp ((givesUp_iff hc hs).mpr hrel)
  · intro hp
    have hgranted (hans : answers ⟨c, a, d⟩ ≠ []) : Grants ⟨c, a, d⟩ := by
      simpa [Grants, hp.refused] using haccepted.mp (hne.mp hans)
    refine ⟨⟨?_, fun hans => ?_⟩, fun m hm => ?_, fun hrefuses => ?_, fun hgives => ?_⟩
    · obtain ⟨m, heq, -⟩ | ⟨heq, -⟩ := answers_cases hc hs <;> simp [heq]
    · have hg := hgranted hans
      rw [(hstay (grants_isReleasing hg)).1]
      exact hp.once hg
    · obtain ⟨m', heq, hacc, ⟨-, hdata⟩ | ⟨hrefuses, -⟩⟩ | ⟨heq, -⟩ := answers_cases hc hs
      · rw [heq, List.mem_singleton] at hm
        exact iff_of_true (hm ▸ hacc) hdata
      · simp [hp.refused] at hrefuses
      · simp [heq] at hm
    · simp [hp.refused] at hrefuses
    · have hrel := (givesUp_iff hc hs).mp hgives
      rw [(hstay (releases_isReleasing hrel)).2]
      exact hp.released hrel

end

/-- Control is given up as it should be in exactly the runs in which the user, in each stay in
`ReleasingControl`, agrees once and never refuses, and the facade takes control after that. -/
theorem releasing_consented_iff {h : List Step} {c : Client State} (hr : client.Run h c) :
    Each Consented h ↔ Each Granted h :=
  hr.each_iff fun _ _ _ _ hr hs => consented_iff hr hs

def releasingRun (events : List InputEvent) : List Handling :=
  operatingRun ++ (.received { command := .releaseControl, response := .accepted
                               channelsIndication := [1] } :: events).map
    (Handling.mk (.permissive fun _ => true))

/-- The user agrees, and control is given up. -/
theorem releasing_consented_iff_agreed : ∃ h c, client.Run h c ∧ Each Consented h ∧
    c.context.channels.entries = [⟨1, 0, .udp, false⟩] ∧
    { command := .controlReleased, response := some .accepted } ∈ sent c.context.trace := by
  obtain ⟨h, c, hr, hp⟩ := TransitionSystem.exists_run ⟨.disconnected, .initial⟩
    (Client.step handleEvent) (releasingRun [.user (.releaseAccepted []),
      .received { command := .controlReleased, response := .accepted }])
    (p := fun h c => decide (Each Granted h ∧
      c.context.channels.entries = [⟨1, 0, .udp, false⟩] ∧
      { command := .controlReleased, response := some .accepted } ∈ sent c.context.trace))
    (by decide +kernel)
  obtain ⟨hgranted, hlast⟩ := of_decide_eq_true hp
  exact ⟨h, c, hr, (releasing_consented_iff hr).mpr hgranted, hlast⟩

/-- The user refuses, and the facade is told that the request is accepted. -/
theorem refusal_accepted : ¬ ∀ h c, client.Run h c → Each Consented h := by
  intro hclaim
  obtain ⟨h, c, hr, hp⟩ := TransitionSystem.exists_run ⟨.disconnected, .initial⟩
    (Client.step handleEvent) (releasingRun [.user (.releaseRejected "not now")])
    (p := fun h _ => decide (¬ Each Granted h)) (by decide +kernel)
  refine of_decide_eq_true hp ?_
  exact (hr.each_iff fun _ _ _ _ hr hs => consented_iff hr hs).mp (hclaim h c hr)

/-! ### Requesting control -/

def State.isReady : State → InputEvent → Bool
  | .connected (.requestingControl _), .user .controlReady => true
  | _, _ => false

def State.isPermitted : State → InputEvent → Bool
  | .connected (.requestingControl _), .connection (.received m) =>
    m.command = .requestControl ∧ m.response = .accepted
  | _, _ => false

def readies (t : Step) : List ClientMessage :=
  (sent t.effects).filter fun m => m.command = .controlReady

/-- Control is taken: the listener hears of it, or the request sets a flag. -/
def TakesOver (t : Step) : Prop :=
  .handoverDone ∈ delivered t.effects ∨ t.source.state.isRequesting = true ∧ Turned true t

def SaysReady (t : Step) : Prop := readies t ≠ []

def Ready (t : Step) : Prop := t.source.state.isReady t.label.event = true

def Permitted (t : Step) : Prop := t.source.state.isPermitted t.label.event = true

instance : DecidablePred Ready := fun _ => inferInstanceAs (Decidable (_ = true))

instance : DecidablePred Permitted := fun _ => inferInstanceAs (Decidable (_ = true))

/-- What taking control is to be: the pilot says in each stay once that it is ready, after
the facade's permission, and takes over by the facade's answer to that. -/
structure InOrder (h : List Step) (t : Step) : Prop where
  once : (readies t).length ≤ 1 ∧ (SaysReady t → ¬ InStay State.isRequesting SaysReady h)
  permitted : SaysReady t → InStay State.isRequesting Permitted h
  takesOver : TakesOver t → t.source.state.takesOver t.label.event = true ∧
    InStay State.isRequesting SaysReady h

/-- The user is ready once in a stay, after the facade's permission, and the facade's own
`CONTROL_READY` comes after that. -/
@[mk_iff] structure Awaited (h : List Step) (t : Step) : Prop where
  once : Ready t → ¬ InStay State.isRequesting Ready h
  permitted : Ready t → InStay State.isRequesting Permitted h
  takesOver : t.source.state.takesOver t.label.event = true → InStay State.isRequesting Ready h

instance (h : List Step) (t : Step) : Decidable (Awaited h t) :=
  decidable_of_iff _ (awaited_iff h t).symm

section
variable {h : List Step} {c d : Client State} {a : Handling}

theorem isReady_isRequesting {s : State} {e : InputEvent} (h : s.isReady e = true) :
    s.isRequesting = true := by
  unfold State.isReady at h
  split at h <;> simp_all [State.isRequesting]

theorem takesOver_isRequesting {s : State} {e : InputEvent} (h : s.takesOver e = true) :
    s.isRequesting = true := by
  unfold State.takesOver at h
  split at h <;> simp_all [State.isRequesting]

theorem takesOver_of_gains {s : State} {e : InputEvent} {id : ℤ} (hs : s.isRequesting = true)
    (h : s.gains e id = true) : s.takesOver e = true := by
  unfold State.gains at h
  split at h <;> simp_all [State.takesOver, State.isRequesting]

theorem saysReady_iff (hc : client.Reachable c) (hs : client.step c a d) :
    (readies ⟨c, a, d⟩).length ≤ 1 ∧ (SaysReady ⟨c, a, d⟩ ↔ Ready ⟨c, a, d⟩) := by
  have hreadies : readies ⟨c, a, d⟩ =
      (c.state.handover a.event).filter fun m => m.command = .controlReady :=
    filter_sent (fun m hm => by simp_all [isHandover]) hc hs
  simp only [SaysReady, Ready, hreadies]
  generalize c.state = s
  generalize a.event = e
  unfold State.handover
  split <;> simp [State.isReady]
  split <;> simp

theorem takesOver_iff (hc : client.Reachable c) (hs : client.step c a d) :
    TakesOver ⟨c, a, d⟩ ↔ c.state.takesOver a.event = true := by
  have hdone := (step_outcome hc hs).2
  refine ⟨fun h => ?_, fun h => .inl (hdone.mpr h)⟩
  obtain h | ⟨hin, hturned⟩ := h
  · exact hdone.mp h
  · obtain ⟨id, hg⟩ := gains_of_turned hc hs hturned
    exact takesOver_of_gains hin hg

theorem inOrder_iff (hr : client.Run h c) (hs : client.step c a d) :
    InOrder h ⟨c, a, d⟩ ↔ Awaited h ⟨c, a, d⟩ := by
  obtain ⟨hlength, hiff⟩ := saysReady_iff hr.reachable hs
  have htakes := takesOver_iff hr.reachable hs
  have hstay (hin : c.state.isRequesting = true) :
      InStay State.isRequesting SaysReady h ↔ InStay State.isRequesting Ready h :=
    inStay_congr hr hin fun _ _ _ hc hs _ => (saysReady_iff hc hs).2
  constructor
  · intro hp
    refine ⟨fun hready => ?_, fun hready => hp.permitted (hiff.mpr hready), fun htake => ?_⟩
    · rw [← hstay (isReady_isRequesting hready)]
      exact hp.once.2 (hiff.mpr hready)
    · rw [← hstay (takesOver_isRequesting htake)]
      exact (hp.takesOver (htakes.mpr htake)).2
  · intro hp
    refine ⟨⟨hlength, fun hsaid => ?_⟩, fun hsaid => hp.permitted (hiff.mp hsaid),
      fun htook => ?_⟩
    · have hready := hiff.mp hsaid
      rw [hstay (isReady_isRequesting hready)]
      exact hp.once hready
    · have htake := htakes.mp htook
      rw [hstay (takesOver_isRequesting htake)]
      exact ⟨htake, hp.takesOver htake⟩

end

/-- Control is taken in order in exactly the runs in which, in each stay in
`RequestingControl`, the user is ready once and after the facade's permission, and the facade's
`CONTROL_READY` comes after that. -/
theorem requesting_inOrder_iff {h : List Step} {c : Client State} (hr : client.Run h c) :
    Each InOrder h ↔ Each Awaited h :=
  hr.each_iff fun _ _ _ _ hr hs => inOrder_iff hr hs

def requestingRun (events : List InputEvent) : List Handling :=
  operatingRun ++ (.user (.requestControl 1) :: events).map
    (Handling.mk (.permissive fun _ => true))

/-- Permission, readiness and the end of a handover. -/
theorem requesting_inOrder_iff_done : ∃ h c, client.Run h c ∧ Each InOrder h ∧
    c.state = .connected .operating ∧ .handoverDone ∈ delivered c.context.trace := by
  obtain ⟨h, c, hr, hp⟩ := TransitionSystem.exists_run ⟨.disconnected, .initial⟩
    (Client.step handleEvent) (requestingRun
      [.received { command := .requestControl, response := .accepted }, .user .controlReady,
        .received { command := .controlReady, response := .accepted }])
    (p := fun h c => decide (Each Awaited h ∧ c.state = .connected .operating ∧
      .handoverDone ∈ delivered c.context.trace)) (by decide +kernel)
  obtain ⟨hawaited, hlast⟩ := of_decide_eq_true hp
  exact ⟨h, c, hr, (requesting_inOrder_iff hr).mpr hawaited, hlast⟩

/-- The facade is told that the pilot is ready before it has sent any handover data. -/
theorem ready_unpermitted : ¬ ∀ h c, client.Run h c → Each InOrder h := by
  intro hclaim
  obtain ⟨h, c, hr, hp⟩ := TransitionSystem.exists_run ⟨.disconnected, .initial⟩
    (Client.step handleEvent) (requestingRun [.user .controlReady])
    (p := fun h _ => decide (¬ Each Awaited h)) (by decide +kernel)
  refine of_decide_eq_true hp ?_
  exact (hr.each_iff fun _ _ _ _ hr hs => inOrder_iff hr hs).mp (hclaim h c hr)

end FmClient.Pilot
