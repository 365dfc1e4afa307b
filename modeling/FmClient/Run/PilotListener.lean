import FmClient.Lib.PrefixLanguage
import FmClient.State.PilotSpec

/-! The protocol between a pilot and its listener: the events delivered in any run are
a prefix of a word of a regular language. -/
namespace FmClient.Pilot
open Lib Handler ChannelsHandler Computability

/-! ### The language -/

def procedure : Language FacadeEvent.Kind :=
  symbol .operationUpdated + symbol .procedureRejected +
    (symbol .error)∗ * symbol .channelsOpened + symbol .channelsClosing +
    (symbol .handoverAccepted)∗ * (symbol .procedureRejected + symbol .handoverDone) +
    symbol .releaseControl + symbol .releaseControl * symbol .controlReleased

def starting : Language FacadeEvent.Kind := symbol .operationStarted * (symbol .error)∗

def operation : Language FacadeEvent.Kind := starting * symbol .channelsOpened * procedure∗

/-- Everything from a connect, or an attempt at it, to the end. -/
def session : Language FacadeEvent.Kind :=
  symbol .error + symbol .error * symbol .released +
    operation * (symbol .channelsClosing * symbol .released)

/-- What has been delivered by the time a state is at rest. -/
def phase : State → Language FacadeEvent.Kind
  | .disconnected | .connecting _ _ | .disconnecting => session∗
  | .connected s =>
    match s with
    | .validatingChannels _ _ => session∗ * starting + session∗ * operation * (symbol .error)∗
    | .requestingControl _ => session∗ * operation * (symbol .handoverAccepted)∗
    | .releasingControl _ => session∗ * operation * symbol .releaseControl
    | .operating | .openingChannels _ | .closingChannels _ | .recovering | .released =>
      session∗ * operation

/-! ### Words of the language -/

section
variable {x y : List FacadeEvent.Kind}

theorem mem_procedure : x ∈ procedure ↔ x ∈ symbol .operationUpdated ∨
    x ∈ symbol .procedureRejected ∨ x ∈ (symbol .error)∗ * symbol .channelsOpened ∨
    x ∈ symbol .channelsClosing ∨
    x ∈ (symbol .handoverAccepted)∗ * (symbol .procedureRejected + symbol .handoverDone) ∨
    x ∈ symbol .releaseControl ∨ x ∈ symbol .releaseControl * symbol .controlReleased := by
  simp only [procedure, Language.mem_add, or_assoc]

theorem append_session (hx : x ∈ session∗) (hy : y ∈ session) : x ++ y ∈ session∗ :=
  append_mem_of_le kstar_mul_le_kstar hx hy

theorem append_procedure (hx : x ∈ session∗ * operation) (hy : y ∈ procedure) :
    x ++ y ∈ session∗ * operation := by
  have hle : session∗ * operation * procedure ≤ session∗ * operation := by
    rw [mul_assoc, operation, mul_assoc _ _ procedure]
    gcongr
    exact kstar_mul_le_kstar
  exact append_mem_of_le hle hx hy

theorem append_end (hx : x ∈ session∗ * operation) :
    x ++ [.channelsClosing, .released] ∈ session∗ := by
  have hle : session∗ * operation * (symbol .channelsClosing * symbol .released) ≤ session∗ := by
    rw [mul_assoc]
    refine le_trans ?_ (kstar_mul_le_kstar (a := session))
    gcongr
    exact fun y hy => .inr hy
  exact append_mem_of_le hle hx ⟨[_], rfl, [_], rfl, rfl⟩

theorem append_first (hx : x ∈ session∗ * starting) :
    x ++ [.channelsOpened] ∈ session∗ * operation := by
  have hle : session∗ * starting * symbol .channelsOpened ≤ session∗ * operation := by
    rw [mul_assoc, operation]
    gcongr session∗ * ?_
    exact le_mul_of_one_le_right' one_le_kstar
  exact append_symbol_mem hle hx

theorem append_opened (hx : x ∈ session∗ * starting + session∗ * operation * (symbol .error)∗) :
    x ++ [.channelsOpened] ∈ session∗ * operation := by
  obtain hx | ⟨a, ha, b, hb, rfl⟩ := hx
  · exact append_first hx
  · rw [List.append_assoc]
    have hmem := Language.append_mem_mul hb (mem_symbol FacadeEvent.Kind.channelsOpened)
    exact append_procedure ha (mem_procedure.mpr (by tauto))

theorem append_handover (hx : x ∈ session∗ * operation * (symbol .handoverAccepted)∗)
    (hy : y ∈ symbol .procedureRejected + symbol .handoverDone) :
    x ++ y ∈ session∗ * operation := by
  obtain ⟨a, ha, b, hb, rfl⟩ := hx
  rw [List.append_assoc]
  have hmem := Language.append_mem_mul hb hy
  exact append_procedure ha (mem_procedure.mpr (by tauto))

theorem append_release (hx : x ∈ session∗ * operation * symbol .releaseControl) :
    x ∈ session∗ * operation ∧ x ++ [.controlReleased] ∈ session∗ * operation := by
  obtain ⟨a, ha, b, hb, rfl⟩ := hx
  constructor
  · exact append_procedure ha (mem_procedure.mpr (by tauto))
  · rw [List.append_assoc]
    have hmem := Language.append_mem_mul hb (mem_symbol FacadeEvent.Kind.controlReleased)
    exact append_procedure ha (mem_procedure.mpr (by tauto))

end

/-! ### Phases -/

theorem mem_prefixes_of_phase (s : State) (x : List FacadeEvent.Kind) (hx : x ∈ phase s) :
    x ∈ prefixes session∗ := by
  have hoperation (y : List FacadeEvent.Kind) (hy : x ++ y ∈ session∗ * operation) :
      x ∈ prefixes session∗ := by
    refine mem_prefixes_of_append (y := y ++ [.channelsClosing, .released]) ?_
    rw [← List.append_assoc]
    exact append_end hy
  match s, hx with
  | .disconnected, hx | .connecting _ _, hx | .disconnecting, hx => exact ⟨x, hx, List.prefix_rfl⟩
  | .connected s, hx =>
    match s, hx with
    | .operating, hx | .openingChannels _, hx | .closingChannels _, hx | .recovering, hx
    | .released, hx => exact hoperation [] ((List.append_nil x).symm ▸ hx)
    | .validatingChannels _ _, hx => exact hoperation [.channelsOpened] (append_opened hx)
    | .requestingControl _, hx => exact hoperation [.handoverDone] (append_handover hx (.inr rfl))
    | .releasingControl _, hx =>
      exact hoperation [] ((List.append_nil x).symm ▸ (append_release hx).1)

/-! ### What each event adds -/

theorem Handled.phase {env : Environment} {s t : State} {e : InputEvent} {w v : Context}
    (h : Handled env w s e (.ok t v)) (hx : heard w ∈ phase s) : heard v ∈ phase t := by
  cases h with
  | unexpected hs =>
    rw [heard.seen_silent rfl]
    exact hx
  | defaulted hs =>
    rw [heard.seen_silent (heard.see_defaultEffect (fun _ _ => rfl) _ _ _)]
    exact hx
  | operateRefused ho | dialFailed ho hf =>
    rw [Observer.seen_emit]
    exact append_session hx (.inl (.inl rfl))
  | operateStarted ho hf =>
    rw [heard.seen_silent rfl]
    exact hx
  | setupAccepted hc hr hv =>
    rw [Observer.seen_emit, heard.seen_validated hv]
    exact .inl ⟨_, hx, [.operationStarted], mem_mul_star rfl, rfl⟩
  | setupRejected hc hr hd =>
    cases hd
    rw [Observer.seen_emit, Observer.seen_withReader, Observer.seen_emit, List.append_assoc]
    exact append_session hx (.inl (.inr ⟨[_], rfl, [_], rfl, rfl⟩))
  | readyAccepted hc hr hids =>
    rw [Context.seen_recalled, Observer.seen_emit, seen_ownedContext]
    exact append_opened hx
  | readyRejected hc hr =>
    rw [Observer.seen_emit]
    obtain ⟨a, ha, b, hb, heq⟩ | hx := hx
    · rw [← heq, List.append_assoc]
      exact .inl ⟨a, ha, _, append_star hb rfl, rfl⟩
    · exact .inr (append_star hx rfl)
  | openChannels | closeChannels he | controlReady | releaseAccepted =>
    rw [heard.seen_silent rfl]
    exact hx
  | requestControl =>
    rw [heard.seen_silent rfl]
    exact mem_mul_star hx
  | connectionLost => exact hx
  | operationUpdated hc =>
    rw [Context.seen_recalled, Observer.seen_emit]
    exact append_procedure hx (mem_procedure.mpr (.inl rfl))
  | releaseControl hc hm =>
    rw [Observer.seen_emit]
    exact Language.append_mem_mul hx rfl
  | @release s m r hs hc hd =>
    have hx' : heard w ∈ session∗ * operation := by
      obtain rfl | ⟨ids, rfl⟩ := hs <;> exact hx
    cases hd
    rw [Observer.seen_emit, Observer.seen_withReader, seen_releaseContext, List.append_assoc]
    exact append_end hx'
  | addAccepted hc hr hv =>
    rw [heard.seen_silent rfl, heard.seen_validated hv]
    exact .inr (mem_mul_star hx)
  | addRejected hc hr | removeRejected hc hr =>
    rw [Context.seen_recalled, Observer.seen_emit]
    exact append_procedure hx (mem_procedure.mpr (.inr (.inl rfl)))
  | removeAccepted hc hr hf hcl =>
    have hword := append_procedure hx (mem_procedure.mpr (.inr (.inr (.inr (.inl rfl)))))
    simpa [Pilot.phase, heard.see_channel hcl.channel, FacadeEvent.getType] using hword
  | requestAccepted hc hr =>
    rw [Observer.seen_emit]
    exact append_star hx rfl
  | requestRejected hc hr =>
    rw [Context.seen_recalled, Observer.seen_emit]
    exact append_handover hx (.inl rfl)
  | handoverDone hc hr hid =>
    rw [Context.seen_recalled, Observer.seen_emit]
    exact append_handover hx (.inr rfl)
  | releaseRejected =>
    rw [Context.seen_recalled, heard.seen_silent rfl]
    exact (append_release hx).1
  | controlReleased hc hid =>
    rw [Context.seen_recalled, Observer.seen_emit]
    exact (append_release hx).2

/-- What the listener of a pilot is given is, at any time of any run, a prefix of a word of
sessions: a failed connect, a rejected setup, or an operation from start to release. -/
theorem pilot_listener_protocol {h : List (Transition (Client State) Handling)} {c : Client State}
    (hr : client.Run h c) :
    ∃ word ∈ session∗, (delivered c.context.trace).map FacadeEvent.getType <+: word := by
  rw [← heard_eq]
  refine output_mem_prefixes (fun c : Client State => heard c.context) (fun c => phase c.state)
    hr.reachable ?_ ?_ fun c => mem_prefixes_of_phase c.state
  · intro s hs
    cases hs
    exact Language.nil_mem_kstar _
  · intro s a t hs hx ht
    exact (step_handled hs ht).phase hx

/-- An operation in which the facade releases the pilot. -/
theorem pilot_listener_protocol_release : ∃ c, client.Reachable c ∧
    heard c.context = [.operationStarted, .error, .channelsOpened, .releaseControl,
      .channelsClosing, .released] ∧ ∃ word ∈ session∗, heard c.context <+: word := by
  obtain ⟨h, c, hr, hp⟩ := TransitionSystem.exists_run ⟨.disconnected, .initial⟩
    (Client.step handleEvent)
    ([.user (.operate 7 []), .received { command := .setup, response := .accepted
                                         channelsResponse := [{ id := 1 }] },
      .received { command := .channelsReady, response := .other 1 },
      .received { command := .channelsReady, response := .accepted, channelsIndication := [1] },
      .received { command := .releaseControl, response := .accepted, channelsIndication := [1] },
      .user (.releaseRejected "busy"), .received { command := .release, response := .accepted }].map
      (Handling.mk (.permissive fun _ => true)))
    (p := fun _ c => decide (heard c.context = [.operationStarted, .error, .channelsOpened,
      .releaseControl, .channelsClosing, .released])) (by decide +kernel)
  exact ⟨c, hr.reachable, of_decide_eq_true hp, heard_eq _ ▸ pilot_listener_protocol hr⟩

end FmClient.Pilot
