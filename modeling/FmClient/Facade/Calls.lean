import FmClient.Backend.Outward
import FmClient.State.DeviceSpec
import FmClient.State.PilotSpec

/-! The calls that a handler makes to the backend and to its machine, and their order: a
connection is opened, greeted with `SETUP`, used and closed. -/
namespace FmClient.Facade
open Lib Handler ChannelsHandler

/-- A call from inside a handler, with what comes of it. -/
inductive Call where
  | send (message : ClientMessage)
  | dial (ok : Bool)
  | finish (ok : Bool)
  | notifyEvent (event : InputEvent)
  deriving DecidableEq

def call? (env : Environment) : Effect → Option Call
  | .sent message => some (.send message)
  | .dialed _ _ => some (.dial env.openFacade.isOk)
  | .finished => some (.finish env.closeFacade.isOk)
  | .notified event => some (.notifyEvent event)
  | _ => none

def calls (env : Environment) (es : List Effect) : List Call := es.filterMap (call? env)

/-- How far the client is with a connection: in `openFacadeConnection`, before `SETUP`, after
it, and in `closeFacadeConnection`. -/
inductive Stage where
  | closed | dialing | greeting | opened | closing
  deriving DecidableEq

def Stage.isOpen : Stage → Bool
  | .greeting | .opened => true
  | _ => false

/-- The stage once a call has returned, if it may be made. -/
def Stage.next : Stage → Call → Option Stage
  | s, .notifyEvent _ => some s
  | .closed, .dial ok | .dialing, .dial ok => some (if ok then .greeting else .closed)
  | .greeting, .send message => if message.command = .setup then some .opened else none
  | .opened, .send _ => some .opened
  | .opened, .finish _ | .closing, .finish _ => some .closed
  | _, _ => none

def Stage.follow (s : Stage) (cs : List Call) : Option Stage := cs.foldlM Stage.next s

def Call.isDial : Call → Bool
  | .dial _ => true
  | _ => false

/-- A connection is opened by the first call of a handler, if at all. -/
def dialsFirst (cs : List Call) : Bool := !cs.tail.any Call.isDial

section
variable (env : Environment) (s : Stage) (cs ds : List Call) (es fs : List Effect)

@[simp] theorem calls_nil : calls env [] = [] := rfl
@[simp] theorem calls_append : calls env (es ++ fs) = calls env es ++ calls env fs :=
  List.filterMap_append
@[simp] theorem calls_sent (message : ClientMessage) :
    calls env (.sent message :: es) = .send message :: calls env es := rfl
@[simp] theorem calls_event (event : FacadeEvent) :
    calls env (.event event :: es) = calls env es := rfl
@[simp] theorem calls_logged (entry : LogEntry) :
    calls env (.logged entry :: es) = calls env es := rfl
@[simp] theorem calls_dialed (host : String) (port : ℕ) :
    calls env (.dialed host port :: es) = .dial env.openFacade.isOk :: calls env es := rfl
@[simp] theorem calls_finished :
    calls env (.finished :: es) = .finish env.closeFacade.isOk :: calls env es := rfl

variable {es} in
theorem calls_channel (h : es.all Effect.isChannel = true) : calls env es = [] := by
  refine List.filterMap_eq_nil_iff.mpr fun e he => ?_
  have hchannel := List.all_eq_true.mp h e he
  cases e <;> first | rfl | exact absurd hchannel Bool.false_ne_true

@[simp] theorem follow_nil : s.follow [] = some s := rfl

@[simp] theorem follow_cons (c : Call) :
    s.follow (c :: cs) = (s.next c).bind fun t => t.follow cs := rfl

@[simp] theorem follow_append :
    s.follow (cs ++ ds) = (s.follow cs).bind fun t => t.follow ds := by
  simp [Stage.follow, List.foldlM_append]

@[simp] theorem follow_recalls (w : Context) : s.follow (calls env w.recalls) = some s := by
  unfold Context.recalls
  cases w.deferred <;> cases s <;> rfl

theorem dialsFirst_append (hc : dialsFirst cs = true) (hd : ds.any Call.isDial = false) :
    dialsFirst (cs ++ ds) = true := by
  cases cs with
  | nil =>
    simp only [dialsFirst, List.nil_append, Bool.not_eq_true', List.any_eq_false] at hd ⊢
    exact fun c hc => hd c (List.mem_of_mem_tail hc)
  | cons c cs =>
    simp only [dialsFirst, List.tail_cons, Bool.not_eq_true', List.cons_append,
      List.any_append, Bool.or_eq_false_iff] at hc ⊢
    exact ⟨hc, hd⟩

theorem dials_recalls (w : Context) : (calls env w.recalls).any Call.isDial = false := by
  unfold Context.recalls
  cases w.deferred <;> rfl

theorem dialsFirst_defaultEffect (m : ControlMessage) (state : String) :
    dialsFirst (calls env [defaultEffect env m state]) = true := by
  unfold defaultEffect
  split <;> rfl

@[simp] theorem follow_defaultEffect (m : ControlMessage) (state : String) :
    Stage.opened.follow (calls env [defaultEffect env m state]) = some .opened := by
  unfold defaultEffect
  split <;> rfl

end

/-! ### Handlers that keep to the order -/

section
variable {env : Environment} {e : InputEvent} {w v : Context}

/-- What a handler adds to the trace leads from one stage to another. -/
def Leads (env : Environment) (w v : Context) (s t : Stage) : Prop :=
  ∃ es, v.trace = w.trace ++ es ∧ s.follow (calls env es) = some t ∧
    dialsFirst (calls env es) = true

theorem Leads.recalled {s t : Stage} (h : Leads env w v s t) : Leads env w v.recalled s t := by
  obtain ⟨es, ht, hf, hd⟩ := h
  refine ⟨es ++ v.recalls, by simp [ht], by simp [hf], ?_⟩
  rw [calls_append]
  exact dialsFirst_append _ _ hd (dials_recalls env v)

theorem leads_of_trace {s t : Stage} {es : List Effect} (ht : v.trace = w.trace ++ es)
    (hf : s.follow (calls env es) = some t) (hd : dialsFirst (calls env es) = true) :
    Leads env w v s t := ⟨es, ht, hf, hd⟩

theorem leads_channel {s t : Stage} {u : Context} (hu : ∃ es, u.trace = w.trace ++ es ∧
    es.all Effect.isChannel = true) (h : Leads env u v s t) : Leads env w v s t := by
  obtain ⟨es, ht, hes⟩ := hu
  obtain ⟨fs, hv, hf, hd⟩ := h
  refine ⟨es ++ fs, by rw [hv, ht, List.append_assoc], ?_, ?_⟩ <;>
    simpa [calls_channel env hes]

theorem leads_refl (w : Context) (s : Stage) : Leads env w w s s :=
  ⟨[], (List.append_nil _).symm, rfl, rfl⟩

/-- A handler keeps to the order, and ends in the stage of the state it leaves the machine in. -/
def Keeps {σ : Type} (stage : σ → Stage) (env : Environment) (w : Context) (s : Stage)
    (r : EStateM.Result Fault Context σ) : Prop :=
  ∃ t, Leads env w (contextOf r) s t ∧ ∀ state v, r = .ok state v → stage state = t

variable {σ : Type} {stage : σ → Stage} {s t : Stage}

theorem Leads.keeps {state : σ} (h : Leads env w v s (stage state)) :
    Keeps stage env w s (.ok state v) := by
  refine ⟨_, h, ?_⟩
  intro u v heq
  cases heq
  rfl

theorem Leads.keeps_error {f : Fault} (h : Leads env w v s t) :
    Keeps stage env w s (.error f v) :=
  ⟨t, h, by simp⟩

theorem Leads.keeps_disconnects {disconnected : σ} {u : Context}
    {r : EStateM.Result Fault Context σ} (h : Leads env w u s .opened)
    (hstage : stage disconnected = .closed) (hd : Disconnects env disconnected u r) :
    Keeps stage env w s r := by
  obtain ⟨es, ht, hf, hfirst⟩ := h
  cases hd with
  | closed =>
    refine Leads.keeps ⟨es ++ _, by simp [ht]; rfl, ?_, ?_⟩
    · simp [hf, Stage.next, hstage]
    · rw [calls_append]
      exact dialsFirst_append _ _ hfirst rfl
  | failed =>
    refine Leads.keeps_error (t := .closed) ⟨es ++ _, by simp [ht]; rfl, ?_, ?_⟩
    · simp [hf, Stage.next]
    · rw [calls_append]
      exact dialsFirst_append _ _ hfirst rfl

end

/-- The handlers of a client, all of which keep to the order. -/
structure ClientMachine (σ : Type) where
  handleEvent : Environment → InputEvent → σ → Handler σ
  initial : σ
  rests : σ → Bool
  stage : σ → Stage
  initial_rests : rests initial = true
  initial_stage : stage initial = .closed
  stage_settled (s : σ) : stage s = .closed ∨ stage s = .opened
  handles (env : Environment) (e : InputEvent) (s : σ) (w : Context) (hs : rests s = true) :
    Keeps stage env w (stage s) (handleEvent env e s w)
  rests_next (env : Environment) (e : InputEvent) (s t : σ) (w v : Context)
    (hs : rests s = true) (ht : handleEvent env e s w = .ok t v) : rests t = true

/-! ### The pilot -/

def pilotStage : Pilot.State → Stage
  | .disconnected | .disconnecting => .closed
  | .connecting _ _ | .connected _ => .opened

theorem pilot_keeps {env : Environment} {s : Pilot.State} {e : InputEvent} {w : Context}
    {r : EStateM.Result Fault Context Pilot.State} (h : Pilot.Handled env w s e r) :
    Keeps pilotStage env w (pilotStage s) r := by
  cases h with
  | unexpected hu => exact (leads_of_trace rfl rfl rfl).keeps
  | defaulted hu ho =>
    have hopened : pilotStage s = .opened := by cases s <;> first | rfl | cases ho
    rw [hopened]
    refine (leads_of_trace rfl ?_ (dialsFirst_defaultEffect _ _ _)).keeps
    rw [hopened]
    exact follow_defaultEffect _ _ _
  | operateRefused ho => exact (leads_of_trace rfl rfl rfl).keeps
  | dialFailed ho hf =>
    refine (leads_of_trace rfl ?_ rfl).keeps
    simp [pilotStage, Stage.next, hf, Except.isOk, Except.toBool]
  | operateStarted ho hf =>
    refine (leads_of_trace rfl ?_ rfl).keeps
    simp [pilotStage, Stage.next, hf, Except.isOk, Except.toBool]
  | setupAccepted hc hr hv | addAccepted hc hr hv =>
    exact (leads_channel hv.channel (leads_of_trace rfl rfl rfl)).keeps
  | setupFailed hc hr hv | addFailed hc hr hv | setupDangling hc hr hv | addDangling hc hr hv =>
    exact (leads_channel hv.channel (leads_refl _ _)).keeps_error
  | setupRejected hc hr hd => exact (leads_of_trace rfl rfl rfl).keeps_disconnects rfl hd
  | release hs' hc hd =>
    refine (leads_of_trace rfl ?_ ?_).keeps_disconnects rfl hd
    · simp [calls_channel env (closeAllEffects_channel w.channels), pilotStage, Stage.next]
    · simp [calls_channel env (closeAllEffects_channel w.channels), dialsFirst]
  | readyAccepted hc hr hids =>
    refine (leads_of_trace (List.append_assoc _ _ _) ?_ ?_).recalled.keeps
    · simp [calls_channel env (ownedLines_channel _), pilotStage]
    · simp [calls_channel env (ownedLines_channel _), dialsFirst]
  | readyMissing hc hr hm hid =>
    refine (leads_of_trace (t := .opened) (List.append_assoc _ _ _) ?_ ?_).keeps_error
    · simp [calls_channel env (ownedLines_channel _), pilotStage]
    · simp [calls_channel env (ownedLines_channel _), dialsFirst]
  | removeAccepted hc hr hf hcl =>
    refine (leads_of_trace rfl ?_ ?_).recalled.keeps
    · simp [calls_channel env hcl.channel, pilotStage, Stage.next]
    · simp [calls_channel env hcl.channel, dialsFirst]
  | operationUpdated | addRejected | removeRejected | requestRejected | handoverDone
  | releaseRejected | controlReleased => exact (leads_of_trace rfl rfl rfl).recalled.keeps
  | connectionLost => exact Leads.keeps (leads_refl w (pilotStage (.connected .recovering)))
  | releaseControlEmpty | removeMissing | handoverMissing | releasedMissing =>
    exact (leads_refl _ _).keeps_error
  | _ => exact (leads_of_trace rfl rfl rfl).keeps

def pilot : ClientMachine Pilot.State where
  handleEvent := Pilot.handleEvent
  initial := .disconnected
  rests := Pilot.State.rests
  stage := pilotStage
  initial_rests := rfl
  initial_stage := rfl
  stage_settled s := by cases s <;> simp [pilotStage]
  handles env e s w hs := pilot_keeps (Pilot.handled env e s hs w)
  rests_next env e s t w v hs ht := (ht ▸ Pilot.handled env e s hs w).rests hs

/-! ### The device -/

def deviceStage : Device.State → Stage
  | .disconnected | .disconnecting => .closed
  | .connecting | .connected _ => .opened

theorem device_keeps {env : Environment} {s : Device.State} {e : InputEvent} {w : Context}
    {r : EStateM.Result Fault Context Device.State} (h : Device.Handled env w s e r) :
    Keeps deviceStage env w (deviceStage s) r := by
  cases h with
  | unexpected hu => exact (leads_of_trace rfl rfl rfl).keeps
  | defaulted hu ho =>
    have hopened : deviceStage s = .opened := by cases s <;> first | rfl | cases ho
    rw [hopened]
    refine (leads_of_trace rfl ?_ (dialsFirst_defaultEffect _ _ _)).keeps
    rw [hopened]
    exact follow_defaultEffect _ _ _
  | attachRefused ho => exact (leads_of_trace rfl rfl rfl).keeps
  | dialFailed ho hf =>
    refine (leads_of_trace rfl ?_ rfl).keeps
    simp [deviceStage, Stage.next, hf, Except.isOk, Except.toBool]
  | attachStarted ho hf =>
    refine (leads_of_trace rfl ?_ rfl).keeps
    simp [deviceStage, Stage.next, hf, Except.isOk, Except.toBool]
  | setupRejected hc hr hd => exact (leads_of_trace rfl rfl rfl).keeps_disconnects rfl hd
  | released hc hr hd => exact (leads_refl _ _).keeps_disconnects rfl hd
  | attached hs' hc hv => exact (leads_channel hv.channel (leads_of_trace rfl rfl rfl)).keeps
  | attachFailed hs' hc hv => exact (leads_channel hv.channel (leads_refl _ _)).keeps_error
  | attachDangling hs' hc hv hp hnot =>
    exact (leads_channel hv.channel (leads_of_trace rfl rfl rfl)).keeps_error
  | releaseChannels hc hf hcl =>
    refine (leads_of_trace rfl ?_ ?_).keeps
    · simp [calls_channel env hcl.channel, deviceStage, Stage.next]
    · simp [calls_channel env hcl.channel, dialsFirst]
  | releaseMissing => exact (leads_refl _ _).keeps_error
  | operationEnded hc =>
    refine (leads_of_trace rfl ?_ ?_).keeps
    · simp [calls_channel env (closeAllEffects_channel w.channels), deviceStage, Stage.next]
    · simp [calls_channel env (closeAllEffects_channel w.channels), dialsFirst]
  | _ => exact (leads_of_trace rfl rfl rfl).keeps

def device : ClientMachine Device.State where
  handleEvent := Device.handleEvent
  initial := .disconnected
  rests := Device.State.rests
  stage := deviceStage
  initial_rests := rfl
  initial_stage := rfl
  stage_settled s := by cases s <;> simp [deviceStage]
  handles env e s w hs := device_keeps (Device.handled env e s hs w)
  rests_next env e s t w v hs ht := (ht ▸ Device.handled env e s hs w).rests hs

end FmClient.Facade
