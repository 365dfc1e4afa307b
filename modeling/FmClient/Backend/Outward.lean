import FmClient.Backend.ChannelsSpec
import Mathlib.Tactic.Simps.Basic

/-! What others get to see of a trace: the events given to the listener and the messages
sent to the facade. The channel operations add nothing to either, and so nothing to what any
observer sees of them. -/
namespace FmClient
open ChannelsHandler Handler

def Effect.event? : Effect → Option FacadeEvent
  | .event e => some e
  | _ => none

def Effect.sent? : Effect → Option ClientMessage
  | .sent m => some m
  | _ => none

def delivered (trace : List Effect) : List FacadeEvent := trace.filterMap Effect.event?

def sent (trace : List Effect) : List ClientMessage := trace.filterMap Effect.sent?

section
variable (t u : List Effect)

@[simp] theorem delivered_nil : delivered [] = [] := rfl
@[simp] theorem delivered_append : delivered (t ++ u) = delivered t ++ delivered u :=
  List.filterMap_append
@[simp] theorem delivered_event (event : FacadeEvent) :
    delivered (.event event :: t) = event :: delivered t := rfl
@[simp] theorem delivered_sent (message : ClientMessage) :
    delivered (.sent message :: t) = delivered t := rfl
@[simp] theorem delivered_logged (entry : LogEntry) :
    delivered (.logged entry :: t) = delivered t := rfl
@[simp] theorem delivered_dialed (host : String) (port : ℕ) :
    delivered (.dialed host port :: t) = delivered t := rfl
@[simp] theorem delivered_finished : delivered (.finished :: t) = delivered t := rfl
@[simp] theorem sent_nil : sent [] = [] := rfl
@[simp] theorem sent_append : sent (t ++ u) = sent t ++ sent u := List.filterMap_append
@[simp] theorem sent_event (event : FacadeEvent) : sent (.event event :: t) = sent t := rfl
@[simp] theorem sent_sent (message : ClientMessage) :
    sent (.sent message :: t) = message :: sent t := rfl
@[simp] theorem sent_logged (entry : LogEntry) : sent (.logged entry :: t) = sent t := rfl
@[simp] theorem sent_dialed (host : String) (port : ℕ) :
    sent (.dialed host port :: t) = sent t := rfl
@[simp] theorem sent_finished : sent (.finished :: t) = sent t := rfl

end

def Effect.isInternal : Effect → Bool
  | .event _ | .sent _ => false
  | _ => true

theorem delivered_internal {es : List Effect} (h : es.all Effect.isInternal = true) :
    delivered es = [] := by
  refine List.filterMap_eq_nil_iff.mpr fun e he => ?_
  cases e with
  | event event => exact absurd (List.all_eq_true.mp h _ he) Bool.false_ne_true
  | _ => rfl

theorem sent_internal {es : List Effect} (h : es.all Effect.isInternal = true) :
    sent es = [] := by
  refine List.filterMap_eq_nil_iff.mpr fun e he => ?_
  cases e with
  | sent message => exact absurd (List.all_eq_true.mp h _ he) Bool.false_ne_true
  | _ => rfl

def Effect.isChannel : Effect → Bool
  | .logged _ | .inserted _ | .opened _ _ | .closed _ | .erased _ => true
  | _ => false

/-- Those of a validation, which closes nothing. -/
def Effect.isValidating : Effect → Bool
  | .logged _ | .inserted _ | .opened _ _ | .erased _ => true
  | _ => false

theorem internal_of_channel {es : List Effect} (h : es.all Effect.isChannel = true) :
    es.all Effect.isInternal = true := by
  refine List.all_eq_true.mpr fun e he => ?_
  have hchannel := List.all_eq_true.mp h e he
  cases e <;> first | rfl | exact absurd hchannel Bool.false_ne_true

/-! ### Observers -/

/-- Somebody outside, by what is seen of each message, event and dialling: something or nothing. -/
structure Observer (β : Type) where
  message : ClientMessage → Option β := fun _ => none
  event : FacadeEvent → Option β := fun _ => none
  dialed : String → ℕ → Option β := fun _ _ => none

namespace Observer
variable {β : Type} (o : Observer β) (w : Context) {es : List Effect}

def see : Effect → Option β
  | .sent message => o.message message
  | .event event => o.event event
  | .dialed host port => o.dialed host port
  | _ => none

def seen : List β := w.trace.filterMap o.see

instance : CoeFun (Observer β) fun _ => Context → List β := ⟨seen⟩

@[simp] theorem see_sent (message : ClientMessage) (t : List Effect) :
    (.sent message :: t).filterMap o.see = (o.message message).toList ++ t.filterMap o.see := by
  rw [List.filterMap_cons, see]
  cases o.message message <;> rfl

@[simp] theorem see_event (event : FacadeEvent) (t : List Effect) :
    (.event event :: t).filterMap o.see = (o.event event).toList ++ t.filterMap o.see := by
  rw [List.filterMap_cons, see]
  cases o.event event <;> rfl

@[simp] theorem see_dialed (host : String) (port : ℕ) (t : List Effect) :
    (.dialed host port :: t).filterMap o.see =
      (o.dialed host port).toList ++ t.filterMap o.see := by
  rw [List.filterMap_cons, see]
  cases o.dialed host port <;> rfl

@[simp] theorem see_logged (entry : LogEntry) (t : List Effect) :
    (.logged entry :: t).filterMap o.see = t.filterMap o.see := rfl

@[simp] theorem see_finished (t : List Effect) :
    (.finished :: t).filterMap o.see = t.filterMap o.see := rfl

theorem see_channel (h : es.all Effect.isChannel = true) : es.filterMap o.see = [] := by
  refine List.filterMap_eq_nil_iff.mpr fun e he => ?_
  have hchannel := List.all_eq_true.mp h e he
  cases e <;> first | rfl | exact absurd hchannel Bool.false_ne_true

@[simp] theorem seen_initial : o .initial = [] := rfl

@[simp] theorem seen_emit : o (w.emit es) = o w ++ es.filterMap o.see := List.filterMap_append

variable {w} in
theorem seen_silent (h : es.filterMap o.see = []) : o (w.emit es) = o w := by simp [h]

@[simp] theorem seen_withChannels (m : Channels) : o (w.withChannels m) = o w := rfl

@[simp] theorem seen_withReader (keepReader : Bool) : o (w.withReader keepReader) = o w := rfl

theorem seen_messages (f : ClientMessage → Option β) :
    (Observer.seen { message := f } w) = (sent w.trace).filterMap f := by
  rw [seen, sent, List.filterMap_filterMap]
  refine List.filterMap_congr fun e _ => ?_
  cases e <;> rfl

theorem seen_events (f : FacadeEvent → Option β) :
    (Observer.seen { event := f } w) = (delivered w.trace).filterMap f := by
  rw [seen, delivered, List.filterMap_filterMap]
  refine List.filterMap_congr fun e _ => ?_
  cases e <;> rfl

end Observer

@[simps] def heard : Observer FacadeEvent.Kind where
  event e := some e.getType

theorem heard_eq (w : Context) : heard w = (delivered w.trace).map FacadeEvent.getType := by
  rw [← List.filterMap_eq_map']
  exact Observer.seen_events w _

namespace ChannelsHandler
variable {w v : Context} {es : List Effect}

theorem Closes.channel {m left : Channels} {ids : List ℤ} (h : Closes m ids left es) :
    es.all Effect.isChannel = true := by
  induction h with
  | nil => rfl
  | found hc h ih => simpa [Effect.isChannel] using ih
  | missing hid h ih => simpa [Effect.isChannel] using ih

theorem Closes.internal {m left : Channels} {ids : List ℤ} (h : Closes m ids left es) :
    es.all Effect.isInternal = true := internal_of_channel h.channel

theorem closeAllEffects_channel (m : Channels) :
    (closeAllEffects m).all Effect.isChannel = true := by
  simp [closeAllEffects, Effect.isChannel]

theorem closeAllEffects_internal (m : Channels) :
    (closeAllEffects m).all Effect.isInternal = true :=
  internal_of_channel (closeAllEffects_channel m)

theorem ownedLines_channel (ids : List ℤ) :
    (ids.map fun id => Effect.logged (ownedLine id)).all Effect.isChannel = true := by
  simp [Effect.isChannel]

theorem ownedLines_internal (ids : List ℤ) :
    (ids.map fun id => Effect.logged (ownedLine id)).all Effect.isInternal = true :=
  internal_of_channel (ownedLines_channel ids)

theorem Emplacement.validating {id : ℤ} {c : ChannelImpl} (h : Emplacement w id c v) :
    ∃ es, v.trace = w.trace ++ es ∧ es.all Effect.isValidating = true := by
  cases h with
  | existing hc hid => exact ⟨[], (List.append_nil _).symm, rfl⟩
  | new socket hid => exact ⟨_, rfl, rfl⟩

theorem Validation.validating {r : ChannelResponse} {result : Except String Bool}
    {out : EStateM.Result Fault Context (List IChannel)} (h : Validation w r result out) :
    ∃ es, (contextOf out).trace = w.trace ++ es ∧ es.all Effect.isValidating = true := by
  cases h with
  | unsupported hr hf => exact ⟨_, rfl, rfl⟩
  | failed hr he | accepted hr he | rejected hr he =>
    obtain ⟨es, ht, hes⟩ := he.validating
    simp only [contextOf_error, contextOf_ok, Context.emit_trace, Context.withChannels_trace, ht,
      List.append_assoc]
    exact ⟨_, rfl, by simp [Effect.isValidating, hes]⟩

theorem Validations.validating {batch : List (ChannelResponse × Except String Bool)}
    {out : EStateM.Result Fault Context (List IChannel)} (h : Validations w batch out) :
    ∃ es, (contextOf out).trace = w.trace ++ es ∧ es.all Effect.isValidating = true := by
  induction h with
  | nil => exact ⟨[], (List.append_nil _).symm, rfl⟩
  | stop hr => exact hr.validating
  | cons hr hs ih | later hr hs ih =>
    obtain ⟨es, ht, hes⟩ := hr.validating
    obtain ⟨fs, hu, hfs⟩ := ih
    simp only [contextOf_ok, contextOf_error] at ht hu ⊢
    exact ⟨es ++ fs, by rw [hu, ht, List.append_assoc], by simp [hes, hfs]⟩

theorem Validations.channel {batch : List (ChannelResponse × Except String Bool)}
    {out : EStateM.Result Fault Context (List IChannel)} (h : Validations w batch out) :
    ∃ es, (contextOf out).trace = w.trace ++ es ∧ es.all Effect.isChannel = true := by
  obtain ⟨es, ht, hes⟩ := h.validating
  refine ⟨es, ht, List.all_eq_true.mpr fun e he => ?_⟩
  have hvalidating := List.all_eq_true.mp hes e he
  cases e <;> first | rfl | exact absurd hvalidating Bool.false_ne_true

theorem Validations.internal {batch : List (ChannelResponse × Except String Bool)}
    {out : EStateM.Result Fault Context (List IChannel)} (h : Validations w batch out) :
    ∃ es, (contextOf out).trace = w.trace ++ es ∧ es.all Effect.isInternal = true := by
  obtain ⟨es, ht, hes⟩ := h.channel
  exact ⟨es, ht, internal_of_channel hes⟩

theorem Validations.delivered {batch : List (ChannelResponse × Except String Bool)}
    {ps : List IChannel} (h : Validations w batch (.ok ps v)) :
    delivered v.trace = delivered w.trace := by
  obtain ⟨es, ht, hes⟩ := h.internal
  simpa [delivered_internal hes] using congrArg FmClient.delivered ht

theorem Validations.sent {batch : List (ChannelResponse × Except String Bool)}
    {ps : List IChannel} (h : Validations w batch (.ok ps v)) : sent v.trace = sent w.trace := by
  obtain ⟨es, ht, hes⟩ := h.internal
  simpa [sent_internal hes] using congrArg FmClient.sent ht

end ChannelsHandler

namespace Observer
variable {β : Type} (o : Observer β) {w v : Context} {ps : List IChannel}
  {batch : List (ChannelResponse × Except String Bool)}

theorem seen_validations {out : EStateM.Result Fault Context (List IChannel)}
    (h : Validations w batch out) : o (contextOf out) = o w := by
  obtain ⟨es, ht, hes⟩ := h.channel
  rw [seen, ht, List.filterMap_append, o.see_channel hes, List.append_nil, seen]

theorem seen_validated (h : Validations w batch (.ok ps v)) : o v = o w := o.seen_validations h

end Observer

end FmClient
