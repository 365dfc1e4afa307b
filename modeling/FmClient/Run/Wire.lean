import FmClient.Lib.Headed
import FmClient.Lib.PrefixLanguage
import FmClient.State.DeviceSpec
import FmClient.State.PilotSpec

/-! The protocol between a client and the facade, from the client's end: the messages that it
sends in any run are a prefix of a word of a regular language. -/
namespace FmClient.Wire
open Lib Handler ChannelsHandler Computability

/-- A message, by its command and by the response of one that answers. -/
structure Signal where
  command : Command
  response : Option Response
  deriving DecidableEq

def signal (m : ClientMessage) : Signal := ⟨m.command, m.response⟩

/-- What a client has sent. -/
@[simps] def signals : Observer Signal where
  message m := some (signal m)

theorem signals_eq (w : Context) : signals w = (sent w.trace).map signal := by
  rw [← List.filterMap_eq_map']
  exact Observer.seen_messages w _

def request (c : Command) : Language Signal := symbol ⟨c, none⟩
def answer (c : Command) : Language Signal := symbol ⟨c, some .accepted⟩

def beats : Language Signal := (answer .heartbeat)∗

def opening : Language Signal := request .setup * beats

def asking (c : Command) : Language Signal := request c * beats

theorem signals_defaultEffect (env : Environment) (m : ControlMessage) (state : String) :
    [defaultEffect env m state].filterMap signals.see = [] ∨
      [defaultEffect env m state].filterMap signals.see = [⟨.heartbeat, some .accepted⟩] := by
  unfold defaultEffect
  split
  · exact .inr rfl
  · exact .inl rfl

theorem phase_defaultEffect {env : Environment} {m : ControlMessage} {state : String} {w : Context}
    {L : Language Signal} (hL : ∀ x ∈ L, x ++ [⟨.heartbeat, some .accepted⟩] ∈ L)
    (hx : signals w ∈ L) : signals (w.emit [defaultEffect env m state]) ∈ L := by
  rw [Observer.seen_emit]
  obtain h | h := signals_defaultEffect env m state
  · rw [h, List.append_nil]
    exact hx
  · rw [h]
    exact hL _ hx

section
variable {K L M : Language Signal} {x y : List Signal}

theorem append_last (hx : x ∈ K * (L * M∗)) (hy : y ∈ M) : x ++ y ∈ K * (L * M∗) := by
  rw [← mul_assoc] at hx ⊢
  exact append_star hx hy

theorem append_request {c : Command} (hx : x ∈ L) : x ++ [⟨c, none⟩] ∈ L * asking c :=
  Language.append_mem_mul hx (mem_mul_star rfl)

end

/-! ### Where a connection begins -/

def Signal.IsSetup (s : Signal) : Prop := s.command = .setup

section
variable {L : Language Signal} {x : List Signal} {c : Command}

theorem request_unmarked (hc : c ≠ .setup) : request c ≤ unmarked Signal.IsSetup :=
  symbol_unmarked hc

theorem answer_unmarked (hc : c ≠ .setup) : answer c ≤ unmarked Signal.IsSetup :=
  symbol_unmarked hc

theorem beats_unmarked : beats ≤ unmarked Signal.IsSetup :=
  star_unmarked (answer_unmarked (by decide))

theorem asking_unmarked (hc : c ≠ .setup) : asking c ≤ unmarked Signal.IsSetup :=
  mul_unmarked (request_unmarked hc) beats_unmarked

theorem opening_headed (hx : x ∈ opening) : Headed Signal.IsSetup x := by
  obtain ⟨_, rfl, y, hy, rfl⟩ := hx
  exact ⟨_, y, rfl, rfl, beats_unmarked hy⟩

theorem opened_headed (hL : L ≤ unmarked Signal.IsSetup) (hx : x ∈ opening * L) :
    Headed Signal.IsSetup x := by
  obtain ⟨y, hy, z, hz, rfl⟩ := hx
  exact (opening_headed hy).append (hL hz)

end

def Plain (w v : Context) : Prop :=
  ∃ es, v.trace = w.trace ++ es ∧ ∀ m ∈ sent es, m.command ≠ .setup

def Introduces (w v : Context) : Prop :=
  ∃ es, v.trace = w.trace ++ es ∧ ∀ m ∈ sent es, m.command = .setup →
    ∃ host port, es = [.dialed host port, .sent m]

namespace Plain
variable {w v u : Context} {es : List Effect}

theorem refl (w : Context) : Plain w w := ⟨[], (List.append_nil _).symm, by simp⟩

theorem emit (h : Plain w v) (hes : ∀ m ∈ sent es, m.command ≠ .setup) : Plain w (v.emit es) := by
  obtain ⟨fs, ht, hfs⟩ := h
  refine ⟨fs ++ es, ?_, ?_⟩
  · rw [Context.emit_trace, ht, List.append_assoc]
  · rw [sent_append]
    exact List.forall_mem_append.mpr ⟨hfs, hes⟩

theorem withChannels (h : Plain w v) (m : Channels) : Plain w (v.withChannels m) := h

theorem recalled (h : Plain w v) : Plain w v.recalled := by
  obtain ⟨es, ht, hes⟩ := h
  exact ⟨es ++ v.recalls, by rw [Context.recalled_trace, ht, List.append_assoc], by simpa using hes⟩

theorem validations {batch : List (ChannelResponse × Except String Bool)} {ps : List IChannel}
    (h : Validations w batch (.ok ps v)) : Plain w v := by
  obtain ⟨es, ht, hes⟩ := h.internal
  exact ⟨es, ht, by simp [sent_internal hes]⟩

theorem introduces (h : Plain w v) : Introduces w v := by
  obtain ⟨es, ht, hes⟩ := h
  exact ⟨es, ht, fun m hm hc => absurd hc (hes m hm)⟩

theorem disconnects {σ : Type} {env : Environment} {disconnected t : σ}
    (h : Plain w v) (hd : Disconnects env disconnected v (.ok t u)) : Plain w u := by
  cases hd
  obtain ⟨es, ht, hes⟩ := h
  refine ⟨es ++ [.finished, .event .released], ?_, by simpa using hes⟩
  rw [Context.emit_trace, Context.withReader_trace, ht, List.append_assoc]

end Plain

theorem defaultEffect_plain (env : Environment) (m : ControlMessage) (state : String) :
    ∀ n ∈ sent [defaultEffect env m state], n.command ≠ .setup := by
  unfold defaultEffect
  split <;> simp

/-! ### The pilot -/

namespace Pilot
open FmClient.Pilot

def requesting : Language Signal :=
  request .requestControl * (answer .heartbeat + request .controlReady)∗

def action : Language Signal :=
  answer .heartbeat + answer .releaseControl + answer .controlReleased +
    asking .addChannels + asking .addChannels * request .channelsReady +
    asking .removeChannels + asking .removeChannels * answer .removeChannels + requesting

def operation : Language Signal := opening * request .channelsReady * action∗

def session : Language Signal := opening + operation * answer .release

/-- What has been sent by the time a state is at rest. -/
def phase : State → Language Signal
  | .disconnected | .disconnecting => session∗
  | .connecting _ _ => session∗ * opening
  | .connected s =>
    match s with
    | .openingChannels _ => session∗ * operation * asking .addChannels
    | .closingChannels _ => session∗ * operation * asking .removeChannels
    | .requestingControl _ => session∗ * operation * requesting
    | .validatingChannels _ _ | .operating | .releasingControl _ | .recovering | .released =>
      session∗ * operation

section
variable {x y : List Signal}

theorem mem_action : x ∈ action ↔ x ∈ answer .heartbeat ∨ x ∈ answer .releaseControl ∨
    x ∈ answer .controlReleased ∨ x ∈ asking .addChannels ∨
    x ∈ asking .addChannels * request .channelsReady ∨ x ∈ asking .removeChannels ∨
    x ∈ asking .removeChannels * answer .removeChannels ∨ x ∈ requesting := by
  simp only [action, Language.mem_add, or_assoc]

theorem append_action (hx : x ∈ session∗ * operation) (hy : y ∈ action) :
    x ++ y ∈ session∗ * operation := append_last hx hy

theorem append_procedure {L : Language Signal} (hx : x ∈ session∗ * operation * L)
    (hy : ∀ z ∈ L, z ++ y ∈ action) : x ++ y ∈ session∗ * operation := by
  obtain ⟨a, ha, b, hb, rfl⟩ := hx
  rw [List.append_assoc]
  exact append_action ha (hy b hb)

theorem append_release (hx : x ∈ session∗ * operation) :
    x ++ [⟨.release, some .accepted⟩] ∈ session∗ := by
  obtain ⟨a, ha, b, hb, rfl⟩ := hx
  rw [List.append_assoc]
  exact append_kstar ha (.inr (Language.append_mem_mul hb rfl))

theorem asked {c : Command} (hx : x ∈ session∗ * operation * asking c)
    (hc : c = .addChannels ∨ c = .removeChannels) : x ∈ session∗ * operation := by
  rw [← List.append_nil x]
  refine append_procedure hx fun z hz => ?_
  rw [List.append_nil, mem_action]
  obtain rfl | rfl := hc
  · exact .inr (.inr (.inr (.inl hz)))
  · exact .inr (.inr (.inr (.inr (.inr (.inl hz)))))

theorem requested (hx : x ∈ session∗ * operation * requesting) : x ∈ session∗ * operation := by
  rw [← List.append_nil x]
  refine append_procedure hx fun z hz => ?_
  rw [List.append_nil, mem_action]
  simp only [hz, or_true]

theorem mem_operation (s : ConnectedState) (hx : x ∈ phase (.connected s)) :
    x ∈ session∗ * operation := by
  cases s with
  | openingChannels => exact asked hx (.inl rfl)
  | closingChannels => exact asked hx (.inr rfl)
  | requestingControl => exact requested hx
  | _ => exact hx

theorem mem_prefixes_of_phase (s : State) (x : List Signal) (hx : x ∈ phase s) :
    x ∈ prefixes session∗ := by
  cases s with
  | disconnected | disconnecting => exact ⟨x, hx, List.prefix_rfl⟩
  | connecting =>
    obtain ⟨a, ha, b, hb, rfl⟩ := hx
    exact ⟨_, append_kstar ha (.inl hb), List.prefix_rfl⟩
  | connected s => exact mem_prefixes_of_append (append_release (mem_operation s hx))

theorem append_beat {s : State} (hs : s.receives = true) (x : List Signal) (hx : x ∈ phase s) :
    x ++ [⟨.heartbeat, some .accepted⟩] ∈ phase s := by
  cases s with
  | disconnected | disconnecting => cases hs
  | connecting => exact append_last hx rfl
  | connected s =>
    cases s with
    | openingChannels | closingChannels => exact append_last hx rfl
    | requestingControl => exact append_last hx (.inl rfl)
    | _ => exact append_action hx (mem_action.mpr (.inl rfl))

end

section
variable {env : Environment} {s t : State} {e : InputEvent} {w v : Context}

theorem Handled.wire (h : Handled env w s e (.ok t v))
    (hx : signals w ∈ phase s) : signals v ∈ phase t := by
  cases h with
  | unexpected hu =>
    rw [signals.seen_silent rfl]
    exact hx
  | defaulted hu ho => exact phase_defaultEffect (append_beat ho) hx
  | operateRefused ho | dialFailed ho hf =>
    rw [signals.seen_silent rfl]
    exact hx
  | operateStarted ho hf =>
    rw [Observer.seen_emit]
    exact append_request hx
  | setupAccepted hc hr hv =>
    rw [Observer.seen_emit, signals.seen_validated hv]
    obtain ⟨a, ha, b, hb, heq⟩ := hx
    rw [← heq, List.append_assoc]
    exact Language.append_mem_mul ha (mem_mul_star (Language.append_mem_mul hb rfl))
  | setupRejected hc hr hd =>
    cases hd
    rw [signals.seen_silent rfl, Observer.seen_withReader, signals.seen_silent rfl]
    obtain ⟨a, ha, b, hb, heq⟩ := hx
    rw [← heq]
    exact append_kstar ha (.inl hb)
  | readyAccepted hc hr hids =>
    rw [Context.seen_recalled, signals.seen_silent rfl, seen_ownedContext]
    exact hx
  | readyRejected hc hr =>
    rw [signals.seen_silent rfl]
    exact hx
  | openChannels | closeChannels he =>
    rw [Observer.seen_emit]
    exact append_request hx
  | requestControl =>
    rw [Observer.seen_emit]
    exact Language.append_mem_mul hx (mem_mul_star rfl)
  | connectionLost => exact hx
  | operationUpdated hc =>
    rw [Context.seen_recalled, signals.seen_silent rfl]
    exact hx
  | releaseControl hc hm =>
    rw [signals.seen_silent rfl]
    exact hx
  | @release s m r hs' hc hd =>
    cases hd
    rw [signals.seen_silent rfl, Observer.seen_withReader, seen_releaseContext]
    exact append_release (mem_operation s hx)
  | addAccepted hc hr hv =>
    rw [Observer.seen_emit, signals.seen_validated hv]
    refine append_procedure hx fun z hz => ?_
    have hready := Language.append_mem_mul hz (mem_symbol (⟨.channelsReady, none⟩ : Signal))
    exact mem_action.mpr (.inr (.inr (.inr (.inr (.inl hready)))))
  | addRejected hc hr =>
    rw [Context.seen_recalled, signals.seen_silent rfl]
    exact asked hx (.inl rfl)
  | @removeAccepted ids m ps left es hc hr hf hcl =>
    rw [Context.seen_recalled]
    have hsent : signals ((w.withChannels left).emit (.event (.channelsClosing ps) :: es ++
        [.sent { command := .removeChannels, response := some .accepted }])) =
        signals w ++ [⟨.removeChannels, some .accepted⟩] := by
      simp [signals.see_channel hcl.channel, signal]
    rw [hsent]
    refine append_procedure hx fun z hz => ?_
    have hanswer := Language.append_mem_mul hz
      (mem_symbol (⟨.removeChannels, some .accepted⟩ : Signal))
    exact mem_action.mpr (.inr (.inr (.inr (.inr (.inr (.inr (.inl hanswer)))))))
  | removeRejected hc hr =>
    rw [Context.seen_recalled, signals.seen_silent rfl]
    exact asked hx (.inr rfl)
  | controlReady =>
    rw [Observer.seen_emit]
    exact append_last hx (.inr rfl)
  | requestAccepted hc hr =>
    rw [signals.seen_silent rfl]
    exact hx
  | requestRejected hc hr =>
    rw [Context.seen_recalled, signals.seen_silent rfl]
    exact requested hx
  | handoverDone hc hr hid =>
    rw [Context.seen_recalled, signals.seen_silent rfl]
    exact requested hx
  | releaseAccepted =>
    rw [Observer.seen_emit]
    exact append_action hx (mem_action.mpr (.inr (.inl rfl)))
  | releaseRejected =>
    rw [Context.seen_recalled, Observer.seen_emit]
    exact append_action hx (mem_action.mpr (.inr (.inl rfl)))
  | controlReleased hc hid =>
    rw [Context.seen_recalled, Observer.seen_emit]
    exact append_action hx (mem_action.mpr (.inr (.inr (.inl rfl))))

end

theorem wire {c : Client State} (hc : client.Reachable c) : signals c.context ∈ phase c.state :=
  reachable_invariant (P := fun s w => signals w ∈ phase s) hc (Language.nil_mem_kstar _)
    Handled.wire

theorem action_unmarked : action ≤ unmarked Signal.IsSetup := by
  have hadd : asking .addChannels ≤ unmarked Signal.IsSetup := asking_unmarked (by decide)
  have hremove : asking .removeChannels ≤ unmarked Signal.IsSetup := asking_unmarked (by decide)
  have hrequesting : requesting ≤ unmarked Signal.IsSetup :=
    mul_unmarked (request_unmarked (by decide)) (star_unmarked
      (add_unmarked (answer_unmarked (by decide)) (request_unmarked (by decide))))
  refine add_unmarked (add_unmarked (add_unmarked (add_unmarked (add_unmarked (add_unmarked
    (add_unmarked ?_ ?_) ?_) hadd) ?_) hremove) ?_) hrequesting
  · exact answer_unmarked (by decide)
  · exact answer_unmarked (by decide)
  · exact answer_unmarked (by decide)
  · exact mul_unmarked hadd (request_unmarked (by decide))
  · exact mul_unmarked hremove (answer_unmarked (by decide))

theorem session_headed {x : List Signal} (hx : x ∈ session) : Headed Signal.IsSetup x := by
  obtain hx | hx := hx
  · exact opening_headed hx
  · rw [operation, mul_assoc, mul_assoc] at hx
    exact opened_headed (mul_unmarked (request_unmarked (by decide))
      (mul_unmarked (star_unmarked action_unmarked) (answer_unmarked (by decide)))) hx

theorem Handled.introduces {env : Environment} {s t : State} {e : InputEvent} {w v : Context}
    (h : Handled env w s e (.ok t v)) : Introduces w v := by
  have hw := Plain.refl w
  cases h with
  | operateStarted ho hf => exact ⟨_, rfl, by simp⟩
  | defaulted hs => exact (hw.emit (defaultEffect_plain _ _ _)).introduces
  | setupAccepted hc hr hv | addAccepted hc hr hv =>
    exact ((Plain.validations hv).emit (by simp)).introduces
  | setupRejected hc hr hd => exact ((hw.emit (by simp)).disconnects hd).introduces
  | @readyAccepted chs ps m hc hr hids =>
    have howned : Plain w (ownedContext w m.channelsIndication) :=
      (hw.withChannels _).emit (by simp [sent_internal (ownedLines_internal _)])
    exact (howned.emit (by simp)).recalled.introduces
  | release hs hc hd =>
    have hreleased : Plain w (releaseContext w) :=
      (hw.withChannels _).emit (by simp [sent_internal (closeAllEffects_internal w.channels)])
    exact (hreleased.disconnects hd).introduces
  | removeAccepted hc hr hf hcl =>
    exact ((hw.withChannels _).emit (by simp [sent_internal hcl.internal])).recalled.introduces
  | connectionLost => exact hw.introduces
  | operationUpdated | addRejected | removeRejected | requestRejected | releaseRejected =>
    exact (hw.emit (by simp)).recalled.introduces
  | handoverDone | controlReleased =>
    exact ((hw.withChannels _).emit (by simp)).recalled.introduces
  | _ => exact (hw.emit (by simp)).introduces

end Pilot

/-! ### The device -/

namespace Device
open FmClient.Device

def flight : Language Signal :=
  answer .attachChannels *
    (answer .heartbeat + answer .attachChannels + answer .releaseChannels)∗

def attachment : Language Signal :=
  opening * (answer .heartbeat + flight * answer .operationEnded)∗

def session : Language Signal := opening + attachment * asking .release

/-- What has been sent by the time a state is at rest. -/
def phase : State → Language Signal
  | .disconnected | .disconnecting => session∗
  | .connecting => session∗ * opening
  | .connected s =>
    match s with
    | .ready => session∗ * attachment
    | .flying _ => session∗ * attachment * flight
    | .releasing | .released => session∗ * attachment * asking .release

section
variable {x y : List Signal}

theorem append_end (hx : x ∈ session∗ * attachment * flight) :
    x ++ [⟨.operationEnded, some .accepted⟩] ∈ session∗ * attachment := by
  obtain ⟨a, ha, b, hb, rfl⟩ := hx
  rw [List.append_assoc]
  exact append_last ha (.inr (Language.append_mem_mul hb rfl))

theorem released (hx : x ∈ session∗ * attachment * asking .release) : x ∈ session∗ := by
  rw [mul_assoc] at hx
  obtain ⟨a, ha, b, hb, rfl⟩ := hx
  exact append_kstar ha (.inr hb)

theorem mem_prefixes_of_phase (s : State) (x : List Signal) (hx : x ∈ phase s) :
    x ∈ prefixes session∗ := by
  have hready (y : List Signal) (hy : y ∈ session∗ * attachment) : y ∈ prefixes session∗ :=
    mem_prefixes_of_append (released (append_request hy))
  cases s with
  | disconnected | disconnecting => exact ⟨x, hx, List.prefix_rfl⟩
  | connecting =>
    obtain ⟨a, ha, b, hb, rfl⟩ := hx
    exact ⟨_, append_kstar ha (.inl hb), List.prefix_rfl⟩
  | connected s =>
    cases s with
    | ready => exact hready x hx
    | flying =>
      obtain ⟨word, hword, hprefix⟩ := hready _ (append_end hx)
      exact ⟨word, hword, (List.prefix_append x _).trans hprefix⟩
    | releasing | released => exact ⟨x, released hx, List.prefix_rfl⟩

theorem append_beat {s : State} (hs : s.isOpen = true) (x : List Signal) (hx : x ∈ phase s) :
    x ++ [⟨.heartbeat, some .accepted⟩] ∈ phase s := by
  cases s with
  | disconnected | disconnecting => cases hs
  | connecting => exact append_last hx rfl
  | connected s =>
    cases s with
    | ready => exact append_last hx (.inl rfl)
    | flying => exact append_last hx (.inl (.inl rfl))
    | releasing | released => exact append_last hx rfl

end

section
variable {env : Environment} {s t : State} {e : InputEvent} {w v : Context}

theorem Handled.wire (h : Handled env w s e (.ok t v))
    (hx : signals w ∈ phase s) : signals v ∈ phase t := by
  cases h with
  | unexpected hu =>
    rw [signals.seen_silent rfl]
    exact hx
  | defaulted hu ho => exact phase_defaultEffect (append_beat ho) hx
  | attachRefused ha | dialFailed ha hf =>
    rw [signals.seen_silent rfl]
    exact hx
  | attachStarted ha hf =>
    rw [Observer.seen_emit]
    exact append_request hx
  | setupAccepted hc hr =>
    rw [signals.seen_silent rfl]
    obtain ⟨a, ha, b, hb, heq⟩ := hx
    rw [← heq]
    exact Language.append_mem_mul ha (mem_mul_star hb)
  | setupRejected hc hr hd =>
    cases hd
    rw [signals.seen_silent rfl, Observer.seen_withReader, signals.seen_silent rfl]
    obtain ⟨a, ha, b, hb, heq⟩ := hx
    rw [← heq]
    exact append_kstar ha (.inl hb)
  | release =>
    rw [Observer.seen_emit]
    exact append_request hx
  | attached hs' hc hv =>
    rw [Observer.seen_emit, signals.seen_validated hv]
    obtain ⟨rfl, -⟩ | rfl := hs'
    · exact Language.append_mem_mul hx (mem_mul_star rfl)
    · exact append_last hx (.inl (.inr rfl))
  | @releaseChannels chs m ps left es hc hf hcl =>
    have hsent : signals ((w.withChannels left).emit (.event (.channelsClosing ps) :: es ++
        [.sent { command := .releaseChannels, response := some .accepted
                 channelsIndication := m.channelsIndication }])) =
        signals w ++ [⟨.releaseChannels, some .accepted⟩] := by
      simp [signals.see_channel hcl.channel, signal]
    rw [hsent]
    exact append_last hx (.inr rfl)
  | operationEnded hc =>
    rw [seen_endedContext]
    exact append_end hx
  | released hc hr hd =>
    cases hd
    rw [signals.seen_silent rfl, Observer.seen_withReader]
    exact released hx

end

theorem wire {c : Client State} (hc : client.Reachable c) : signals c.context ∈ phase c.state :=
  reachable_invariant (P := fun s w => signals w ∈ phase s) hc (Language.nil_mem_kstar _)
    Handled.wire

theorem attachment_unmarked : (answer .heartbeat + flight * answer .operationEnded)∗ ≤
    unmarked Signal.IsSetup := by
  have hflight : flight ≤ unmarked Signal.IsSetup :=
    mul_unmarked (answer_unmarked (by decide)) (star_unmarked (add_unmarked (add_unmarked
      (answer_unmarked (by decide)) (answer_unmarked (by decide))) (answer_unmarked (by decide))))
  exact star_unmarked (add_unmarked (answer_unmarked (by decide))
    (mul_unmarked hflight (answer_unmarked (by decide))))

theorem session_headed {x : List Signal} (hx : x ∈ session) : Headed Signal.IsSetup x := by
  obtain hx | hx := hx
  · exact opening_headed hx
  · rw [attachment, mul_assoc] at hx
    exact opened_headed (mul_unmarked attachment_unmarked (asking_unmarked (by decide))) hx

theorem Handled.introduces {env : Environment} {s t : State} {e : InputEvent} {w v : Context}
    (h : Handled env w s e (.ok t v)) : Introduces w v := by
  have hw := Plain.refl w
  cases h with
  | attachStarted ha hf => exact ⟨_, rfl, by simp⟩
  | defaulted hs => exact (hw.emit (defaultEffect_plain _ _ _)).introduces
  | setupRejected hc hr hd => exact ((hw.emit (by simp)).disconnects hd).introduces
  | attached hs hc hv => exact ((Plain.validations hv).emit (by simp)).introduces
  | releaseChannels hc hf hcl =>
    exact ((hw.withChannels _).emit (by simp [sent_internal hcl.internal])).introduces
  | operationEnded hc =>
    exact ((hw.withChannels _).emit
      (by simp [sent_internal (closeAllEffects_internal w.channels)])).introduces
  | released hc hr hd => exact (hw.disconnects hd).introduces
  | _ => exact (hw.emit (by simp)).introduces

end Device
end FmClient.Wire
