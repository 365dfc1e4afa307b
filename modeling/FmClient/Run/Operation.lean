import FmClient.Run.Heartbeat

/-! The device in operation: each command of the facade gets its answer, in the order in which
the commands are handled, and nothing else is sent but heartbeats. -/
namespace FmClient
open Lib Handler ChannelsHandler

namespace Device

def State.operates : State → Bool
  | .connected .ready | .connected (.flying _) => true
  | _ => false

/-- The answer that a command is due, if it is one that the state serves. -/
def operationAnswer (env : Environment) (s : State) (m : ControlMessage) : List ClientMessage :=
  match s, m.command with
  | .connected .ready, .attachChannels | .connected (.flying _), .attachChannels =>
    [{ command := .attachChannels, response := some .accepted
       channelsIndication := openedIds (env.batch m.channelsResponse) }]
  | .connected (.flying _), .releaseChannels =>
    [{ command := .releaseChannels, response := some .accepted
       channelsIndication := m.channelsIndication }]
  | .connected (.flying _), .operationEnded =>
    [{ command := .operationEnded, response := some .accepted }]
  | _, _ => []

def sentCommands (w : Context) : List ClientMessage := (sent w.trace).filter (!·.isHeartbeat)

theorem operationAnswer_unserved {env : Environment} {s : State} {m : ControlMessage}
    (hs : s.serves (.received m) = false) : operationAnswer env s m = [] := by
  unfold operationAnswer
  split <;> simp_all [State.serves, ConnectedState.serves]

theorem operationAnswer_attach {env : Environment} {s : State} {m : ControlMessage}
    (hs : s.operates = true) (hc : m.command = .attachChannels) : operationAnswer env s m =
      [{ command := .attachChannels, response := some .accepted
         channelsIndication := openedIds (env.batch m.channelsResponse) }] := by
  unfold State.operates at hs
  split at hs
  · simp [operationAnswer, hc]
  · simp [operationAnswer, hc]
  · cases hs

theorem Handled.operation_answered {env : Environment} {s t : State} {m : ControlMessage}
    {w v : Context} (h : Handled env w s (.received m) (.ok t v)) (hs : s.operates = true) :
    sentCommands v = sentCommands w ++ operationAnswer env s m ∧ t.operates = true := by
  cases h with
  | unexpected hu => exact ⟨by simp [sentCommands, operationAnswer_unserved hu], hs⟩
  | defaulted hu =>
    refine ⟨?_, hs⟩
    have hdefault : (sent [defaultEffect env m s.name]).filter (!·.isHeartbeat) = [] := by
      unfold defaultEffect
      split <;> simp [ClientMessage.isHeartbeat]
    simp [sentCommands, operationAnswer_unserved hu, hdefault]
  | attached hs' hc hv hps =>
    refine ⟨?_, rfl⟩
    simp [sentCommands, hv.sent, operationAnswer_attach hs hc, hv.ids_opened,
      ClientMessage.isHeartbeat]
  | releaseChannels hc hf hcl =>
    refine ⟨?_, rfl⟩
    simp [sentCommands, operationAnswer, hc, sent_internal hcl.internal, ClientMessage.isHeartbeat]
  | operationEnded hc =>
    refine ⟨?_, rfl⟩
    simp [sentCommands, operationAnswer, hc, endedContext,
      sent_internal (closeAllEffects_internal _), ClientMessage.isHeartbeat]
  | _ => cases hs

def answerDue (t : Transition (Client State) Handling) : List ClientMessage :=
  match t.label.event with
  | .connection (.received m) => operationAnswer t.label.environment t.source.state m
  | _ => []

/-- Over any sequence of messages handled in `Ready` and `Flying`, each step sends the answer
that its message is due, and nothing else but heartbeats. -/
theorem operations_answered {c d : Client State} {labels : List Handling}
    {h : List (Transition (Client State) Handling)} (hc : c.state.operates = true)
    (hlabels : ∀ a ∈ labels, ∃ m, a.event = .received m)
    (he : TransitionSystem.execute (Client.step handleEvent) c labels = some (h, d)) :
    sentCommands d.context = sentCommands c.context ++ h.flatMap answerDue ∧
      d.state.operates = true ∧ ∀ t ∈ h, t.source.state.operates = true ∧
        sentCommands t.target.context = sentCommands t.source.context ++ answerDue t := by
  induction labels generalizing c h with
  | nil =>
    cases he
    exact ⟨(List.append_nil _).symm, hc, by simp⟩
  | cons a labels ih =>
    obtain ⟨⟨m, hm⟩, hrest⟩ := List.forall_mem_cons.mp hlabels
    simp only [TransitionSystem.execute, Option.bind_eq_some_iff, Option.map_eq_some_iff,
      Prod.mk.injEq] at he
    obtain ⟨c', hs, ⟨k, d'⟩, hk, rfl, rfl⟩ := he
    have hrests : c.state.rests = true := by
      unfold State.operates at hc
      split at hc <;> simp_all [State.rests]
    have hh := handled a.environment a.event c.state hrests c.context
    rw [Client.step_eq_some.mp hs, hm] at hh
    obtain ⟨hstep, hc'⟩ := hh.operation_answered hc
    have hdue : answerDue ⟨c, a, c'⟩ = operationAnswer a.environment c.state m := by
      simp [answerDue, hm]
    obtain ⟨hsent, hd, hall⟩ := ih hc' hrest hk
    refine ⟨?_, hd, List.forall_mem_cons.mpr ⟨⟨hc, ?_⟩, hall⟩⟩
    · rw [hsent, hstep, List.flatMap_cons, hdue, List.append_assoc]
    · rw [hstep, hdue]

def operationsRun : List Handling :=
  [.received { command := .attachChannels, response := .accepted
               channelsResponse := [{ id := 1 }, { id := 2 }] },
    .received { command := .releaseChannels, response := .accepted, channelsIndication := [1] },
    .received { command := .operationEnded, response := .accepted },
    .received { command := .attachChannels, response := .accepted }].map
    (Handling.mk (.permissive fun i => i = 0))

theorem operations_answered_twice : ∃ c d h,
    TransitionSystem.execute (Client.step handleEvent) c operationsRun = some (h, d) ∧
      sentCommands d.context = h.flatMap answerDue ∧ h.length = 4 := by
  let c : Client State := ⟨.connected .ready, .initial⟩
  have hexec : (TransitionSystem.execute (Client.step handleEvent) c operationsRun).isSome = true :=
    by decide +kernel
  obtain ⟨⟨h, d⟩, he⟩ := Option.isSome_iff_exists.mp hexec
  have hlabels : ∀ a ∈ operationsRun, ∃ m, a.event = .received m := by
    simp [operationsRun, InputEvent.received]
  refine ⟨c, d, h, he, (operations_answered rfl hlabels he).1, ?_⟩
  simpa [operationsRun] using congrArg List.length (TransitionSystem.execute_labels he)

end Device
end FmClient
