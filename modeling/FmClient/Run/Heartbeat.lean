import FmClient.Run.Deferral
import FmClient.State.DeviceSpec
import FmClient.State.Oblivious
import Mathlib.Data.List.Induction

/-! Heartbeats leave no trace but their answers: a run goes on as it would have without them. -/
namespace FmClient
open Lib Handler

def Handling.heartbeat? (a : Handling) : Option Heartbeat :=
  match a.event with
  | .connection (.received m) => if m.command = .heartbeat then m.heartbeat else none
  | _ => none

def heartbeatAnswer (env : Environment) (beat : Heartbeat) : ClientMessage :=
  { command := .heartbeat, response := some .accepted
    heartbeat := some { key := beat.key, location := env.location } }

def ClientMessage.isHeartbeat (m : ClientMessage) : Bool := m.command = .heartbeat

def Handling.isInput (a : Handling) : Bool :=
  match a.event with
  | .user _ | .connection (.received _) => true
  | _ => false

/-- The second sequence is the first one with heartbeats put in. -/
inductive Inserted : List Handling → List Handling → Prop where
  | nil : Inserted [] []
  | keep {as bs : List Handling} (a : Handling) (h : Inserted as bs) :
      Inserted (as ++ [a]) (bs ++ [a])
  | insert {as bs : List Handling} {b : Handling} (hb : b.heartbeat?.isSome = true)
      (h : Inserted as bs) : Inserted as (bs ++ [b])

theorem Inserted.append {as bs : List Handling} (h : Inserted as bs) (cs : List Handling) :
    Inserted (as ++ cs) (bs ++ cs) := by
  induction cs using List.reverseRecOn with
  | nil => simpa using h
  | append_singleton cs a ih => simpa using ih.keep a

theorem Inserted.between {b : Handling} (hb : b.heartbeat?.isSome = true)
    (before later : List Handling) : Inserted (before ++ later) (before ++ [b] ++ later) :=
  ((Inserted.nil.append before).insert hb).append later

/-! ### The common default -/

section
variable {env : Environment} {m : ControlMessage} {beat : Heartbeat}

theorem defaultEffect_beat (hb : (Handling.mk env (.received m)).heartbeat? = some beat)
    (state : String) : defaultEffect env m state = .sent (heartbeatAnswer env beat) := by
  have hm : m.command = .heartbeat ∧ m.heartbeat = some beat := by
    simpa [Handling.heartbeat?] using hb
  simp [defaultEffect, hm.1, hm.2, heartbeatAnswer]

theorem defaultEffect_other (hb : (Handling.mk env (.received m)).heartbeat? = none)
    (state : String) : defaultEffect env m state = .logged (.unexpectedMessage m state) := by
  unfold defaultEffect
  split
  · rename_i beat hc hm
    simp [Handling.heartbeat?, hc, hm] at hb
  · rfl

theorem received_of_beat {a : Handling} (hb : a.heartbeat? = some beat) :
    ∃ m, a.event = .received m ∧ m.command = .heartbeat := by
  unfold Handling.heartbeat? at hb
  split at hb
  · rename_i m heq
    split at hb
    · rename_i hc
      exact ⟨m, heq, hc⟩
    · cases hb
  · cases hb

end

section
variable {σ : Type}

/-- The answers to the heartbeats of a run that came while the session was open. -/
def heartbeatAnswers (isOpen : σ → Bool) (h : List (Transition (Client σ) Handling)) :
    List ClientMessage :=
  h.filterMap fun t => if isOpen t.source.state then
    t.label.heartbeat?.map (heartbeatAnswer t.label.environment) else none

/-- Nothing but the trace tells the clients apart. -/
def SameState (c d : Client σ) : Prop :=
  d.state = c.state ∧ d.context = { c.context with trace := d.context.trace }

/-- What heartbeats do, and what they do not do. -/
structure Transparent (client : TransitionSystem (Client σ) Handling) (isOpen : σ → Bool) :
    Prop where
  answered (h : List (Transition (Client σ) Handling)) (c d : Client σ) (a : Handling)
    (beat : Heartbeat) (hr : client.Run h c) (hinput : ∀ t ∈ h, t.label.isInput = true)
    (ho : isOpen c.state = true) (hb : a.heartbeat? = some beat) :
    client.step c a d ↔
      d = ⟨c.state, c.context.emit [.sent (heartbeatAnswer a.environment beat)]⟩
  inserted (h : List (Transition (Client σ) Handling)) (c : Client σ) (labels : List Handling)
    (hr : client.Run h c) (hinput : ∀ t ∈ h, t.label.isInput = true)
    (hlabels : Inserted (h.map Transition.label) labels) :
    ∃ k d, client.Run k d ∧ k.map Transition.label = labels ∧ SameState c d ∧
      delivered d.context.trace = delivered c.context.trace ∧
      (sent d.context.trace).filter (!·.isHeartbeat) =
        (sent c.context.trace).filter (!·.isHeartbeat) ∧
      (sent d.context.trace).filter (·.isHeartbeat) = heartbeatAnswers isOpen k

/-- A machine that answers heartbeats in the states where it should, and does nothing else
about them. -/
structure Answers (handleEvent : Environment → InputEvent → σ → Handler σ)
    (rests answering : σ → Bool) : Prop where
  oblivious (env : Environment) (e : InputEvent) (s : σ) : Oblivious (handleEvent env e s)
  beat (env : Environment) (m : ControlMessage) (s : σ) (w : Context) (hr : rests s = true)
    (hm : m.command = .heartbeat) : ∃ state entry, handleEvent env (.received m) s w =
      .ok s (w.emit [if answering s then defaultEffect env m state else .logged entry])
  other (a : Handling) (s t : σ) (w v : Context) (hb : a.heartbeat? = none)
    (hr : rests s = true) (ht : handleEvent a.environment a.event s w = .ok t v) :
    (sent v.trace).filter (·.isHeartbeat) = (sent w.trace).filter (·.isHeartbeat)

variable {handleEvent : Environment → InputEvent → σ → Handler σ}
  {rests answering isOpen : σ → Bool}
  {s₀ : σ} {c c' d : Client σ} {a : Handling}

theorem Answers.answer (hm : Answers handleEvent rests answering) {beat : Heartbeat} {s : σ}
    (hb : a.heartbeat? = some beat) (hr : rests s = true) (hs : answering s = true) (w : Context) :
    handleEvent a.environment a.event s w =
      .ok s (w.emit [.sent (heartbeatAnswer a.environment beat)]) := by
  obtain ⟨env, e⟩ := a
  obtain ⟨m, rfl, hc⟩ := received_of_beat hb
  obtain ⟨state, entry, hx⟩ := hm.beat env m s w hr hc
  rw [hx, if_pos hs, defaultEffect_beat hb]

theorem Answers.ignore (hm : Answers handleEvent rests answering) {beat : Heartbeat} {s : σ}
    (hb : a.heartbeat? = some beat) (hr : rests s = true) (hs : answering s = false) (w : Context) :
    ∃ entry, handleEvent a.environment a.event s w = .ok s (w.emit [.logged entry]) := by
  obtain ⟨env, e⟩ := a
  obtain ⟨m, rfl, hc⟩ := received_of_beat hb
  obtain ⟨state, entry, hx⟩ := hm.beat env m s w hr hc
  exact ⟨entry, by rw [hx, hs, if_neg Bool.false_ne_true]⟩

theorem SameState.step (hobl : ∀ env e s, Oblivious (handleEvent env e s)) (h : SameState c d)
    (ha : Client.step handleEvent c a = some c') :
    ∃ d' es, Client.step handleEvent d a = some d' ∧ SameState c' d' ∧
      c'.context.trace = c.context.trace ++ es ∧ d'.context.trace = d.context.trace ++ es := by
  obtain ⟨hstate, hcontext⟩ := h
  let fresh : Context := { c.context with trace := [] }
  have hc : c.context = fresh.after c.context.trace := by simp [fresh, Context.after]
  have hd : d.context = fresh.after d.context.trace := by
    rw [hcontext]
    simp [fresh, Context.after]
  have hstep := Client.step_eq_some.mp ha
  have hsame := hobl a.environment a.event c.state fresh
  rw [hc, hsame] at hstep
  cases hfresh : handleEvent a.environment a.event c.state fresh with
  | error f v => simp [hfresh] at hstep
  | ok t v =>
    rw [hfresh, resume_ok] at hstep
    simp only [EStateM.Result.ok.injEq] at hstep
    obtain ⟨ht, hv⟩ := hstep
    have hx := hsame d.context.trace
    rw [← hd, hfresh, resume_ok, ← hstate] at hx
    refine ⟨⟨t, v.after d.context.trace⟩, v.trace, Client.step_eq_some.mpr hx, ⟨ht, ?_⟩, ?_, rfl⟩
    · rw [← hv]
      simp [Context.after]
    · rw [← hv]
      rfl

theorem heartbeatAnswers_concat (isOpen : σ → Bool)
    (h : List (Transition (Client σ) Handling)) (t : Transition (Client σ) Handling) :
    heartbeatAnswers isOpen (h ++ [t]) =
      heartbeatAnswers isOpen h ++ heartbeatAnswers isOpen [t] := List.filterMap_append

theorem Answers.sent_beats (hm : Answers handleEvent rests answering) (hc : rests c.state = true)
    (hs : Client.step handleEvent c a = some d) :
    (sent d.context.trace).filter (·.isHeartbeat) =
      (sent c.context.trace).filter (·.isHeartbeat) ++
        heartbeatAnswers answering [⟨c, a, d⟩] := by
  have hstep := Client.step_eq_some.mp hs
  cases hb : a.heartbeat? with
  | none => simpa [heartbeatAnswers, hb] using hm.other a _ _ _ _ hb hc hstep
  | some beat =>
    cases ho : answering c.state with
    | true =>
      rw [hm.answer hb hc ho] at hstep
      simp only [EStateM.Result.ok.injEq] at hstep
      rw [← hstep.2]
      simp [heartbeatAnswers, hb, ho, ClientMessage.isHeartbeat, heartbeatAnswer]
    | false =>
      obtain ⟨entry, hx⟩ := hm.ignore hb hc ho c.context
      rw [hx] at hstep
      simp only [EStateM.Result.ok.injEq] at hstep
      rw [← hstep.2]
      simp [heartbeatAnswers, ho]

theorem Answers.step_beat (hm : Answers handleEvent rests answering) {beat : Heartbeat}
    (hb : a.heartbeat? = some beat) (hc : rests c.state = true) :
    ∃ e, Client.step handleEvent c a = some ⟨c.state, c.context.emit [e]⟩ ∧
      delivered [e] = [] ∧ (sent [e]).filter (!·.isHeartbeat) = [] := by
  cases ho : answering c.state with
  | true =>
    refine ⟨.sent (heartbeatAnswer a.environment beat), Client.step_eq_some.mpr ?_, rfl, ?_⟩
    · exact hm.answer hb hc ho _
    · simp [ClientMessage.isHeartbeat, heartbeatAnswer]
  | false =>
    obtain ⟨entry, hx⟩ := hm.ignore hb hc ho c.context
    exact ⟨.logged entry, Client.step_eq_some.mpr hx, rfl, rfl⟩

theorem Answers.run_inserted (hm : Answers handleEvent rests answering)
    (hrests : ∀ c, (TransitionSystem.ofStep ⟨s₀, .initial⟩ (Client.step handleEvent)).Reachable c →
      rests c.state = true) {as bs : List Handling} (hi : Inserted as bs)
    {h : List (Transition (Client σ) Handling)} {c : Client σ}
    (hr : (TransitionSystem.ofStep ⟨s₀, .initial⟩ (Client.step handleEvent)).Run h c)
    (hlabels : h.map Transition.label = as) :
    ∃ k d, (TransitionSystem.ofStep ⟨s₀, .initial⟩ (Client.step handleEvent)).Run k d ∧
      k.map Transition.label = bs ∧ SameState c d ∧
      delivered d.context.trace = delivered c.context.trace ∧
      (sent d.context.trace).filter (!·.isHeartbeat) =
        (sent c.context.trace).filter (!·.isHeartbeat) ∧
      (sent d.context.trace).filter (·.isHeartbeat) = heartbeatAnswers answering k := by
  induction hi generalizing h c with
  | nil =>
    obtain rfl := List.map_eq_nil_iff.mp hlabels
    cases hr.nil
    exact ⟨[], _, .start rfl, rfl, ⟨rfl, rfl⟩, rfl, rfl, rfl⟩
  | @keep as bs a hi ih =>
    obtain ⟨h, last, rfl, hfirst, hlast⟩ := List.map_eq_append_iff.mp hlabels
    obtain ⟨t, rfl, rfl⟩ := List.map_eq_singleton_iff.mp hlast
    obtain ⟨hbefore, hs, rfl⟩ := hr.concat
    obtain ⟨k, d, hk, hmap, hsame, hdelivered, hother, hbeats⟩ := ih hbefore hfirst
    obtain ⟨d', es, hstep, hsame', htrace, htrace'⟩ := hsame.step hm.oblivious hs
    refine ⟨k ++ [⟨d, t.label, d'⟩], d', hk.next hstep, by simp [hmap], hsame', ?_, ?_, ?_⟩
    · rw [htrace, htrace', delivered_append, delivered_append, hdelivered]
    · rw [htrace, htrace', sent_append, sent_append, List.filter_append, List.filter_append, hother]
    · rw [hm.sent_beats (hrests _ hk.reachable) hstep, hbeats, heartbeatAnswers_concat]
  | @insert as bs b hb hi ih =>
    obtain ⟨k, d, hk, hmap, hsame, hdelivered, hother, hbeats⟩ := ih hr hlabels
    obtain ⟨beat, hb⟩ := Option.isSome_iff_exists.mp hb
    obtain ⟨e, hstep, hde, hse⟩ := hm.step_beat hb (hrests _ hk.reachable)
    have hsame' : SameState c ⟨d.state, d.context.emit [e]⟩ := by
      refine ⟨hsame.1, ?_⟩
      rw [hsame.2]
      rfl
    refine ⟨k ++ [⟨d, b, _⟩], _, hk.next hstep, by simp [hmap], hsame', ?_, ?_, ?_⟩
    · simp [hdelivered, hde]
    · simp [hother, hse]
    · rw [hm.sent_beats (hrests _ hk.reachable) hstep, hbeats, heartbeatAnswers_concat]

theorem Inserted.isInput {as bs : List Handling} (hi : Inserted as bs)
    (has : ∀ a ∈ as, a.isInput = true) : ∀ b ∈ bs, b.isInput = true := by
  induction hi with
  | nil => exact has
  | keep a hi ih =>
    simp only [List.forall_mem_append, List.forall_mem_singleton] at has ⊢
    exact ⟨ih has.1, has.2⟩
  | @insert as bs b hb hi ih =>
    simp only [List.forall_mem_append, List.forall_mem_singleton]
    refine ⟨ih has, ?_⟩
    unfold Handling.heartbeat? at hb
    unfold Handling.isInput
    split at hb
    · rename_i m heq
      rw [heq]
    · cases hb

/-- What such a machine does in runs that keep it from the states in which it is deaf. -/
theorem Answers.transparent (hm : Answers handleEvent rests answering)
    (hrests : ∀ c, (TransitionSystem.ofStep ⟨s₀, .initial⟩ (Client.step handleEvent)).Reachable c →
      rests c.state = true)
    (hopen : ∀ h c, (TransitionSystem.ofStep ⟨s₀, .initial⟩ (Client.step handleEvent)).Run h c →
      (∀ t ∈ h, t.label.isInput = true) → isOpen c.state = answering c.state ∧
        ∀ t ∈ h, isOpen t.source.state = answering t.source.state) :
    Transparent (.ofStep ⟨s₀, .initial⟩ (Client.step handleEvent)) isOpen where
  answered h c d a beat hr hinput ho hb := by
    rw [(hopen h c hr hinput).1] at ho
    have hx := hm.answer hb (hrests c hr.reachable) ho c.context
    refine Client.step_eq_some.trans ?_
    rw [hx]
    cases d
    simp [eq_comm]
  inserted h c labels hr hinput hlabels := by
    obtain ⟨k, d, hk, hmap, hsame, hdelivered, hother, hbeats⟩ :=
      hm.run_inserted hrests hlabels hr rfl
    have hkinput : ∀ t ∈ k, t.label.isInput = true := by
      have hall := hlabels.isInput (by simpa using hinput)
      rw [← hmap] at hall
      simpa using hall
    refine ⟨k, d, hk, hmap, hsame, hdelivered, hother, hbeats.trans ?_⟩
    refine List.filterMap_congr fun t ht => ?_
    rw [(hopen k d hk hkinput).2 t ht]

end

/-! ### The pilot -/

namespace Pilot
open ChannelsHandler

section
variable {env : Environment} {s t : State} {e : InputEvent} {w v : Context}

theorem Handled.sent_beats (h : Handled env w s e (.ok t v))
    (hb : (Handling.mk env e).heartbeat? = none) :
    (sent v.trace).filter (·.isHeartbeat) = (sent w.trace).filter (·.isHeartbeat) := by
  cases h with
  | defaulted => simp [defaultEffect_other hb]
  | setupAccepted hc hr hv | addAccepted hc hr hv => simp [hv.sent, ClientMessage.isHeartbeat]
  | setupRejected hc hr hd =>
    cases hd
    simp
  | release hs hc hd =>
    cases hd
    simp [releaseContext, sent_internal (closeAllEffects_internal _), ClientMessage.isHeartbeat]
  | readyAccepted => simp [ownedContext, sent_internal (ownedLines_internal _)]
  | removeAccepted hc hr hf hcl =>
    simp [sent_internal hcl.internal, ClientMessage.isHeartbeat]
  | _ => simp [ClientMessage.isHeartbeat]

theorem Handled.beat {m : ControlMessage} {r : EStateM.Result Fault Context State}
    (h : Handled env w s (.received m) r) (hm : m.command = .heartbeat) : ∃ state entry,
      r = .ok s (w.emit [if s.receives then defaultEffect env m state else .logged entry]) := by
  cases h with
  | unexpected hs hd => exact ⟨"", _, by rw [hd m rfl, if_neg Bool.false_ne_true]⟩
  | defaulted hs ho => exact ⟨_, .info "", by rw [if_pos ho]⟩
  | _ => simp_all

theorem heartbeats_answered : Answers handleEvent State.rests State.receives where
  oblivious := handleEvent_oblivious
  beat env m s w hr := (handled env (.received m) s hr w).beat
  other a s _ w _ hb hr ht := (ht ▸ handled a.environment a.event s hr w).sent_beats hb

theorem Handled.not_recovering (h : Handled env w s e (.ok t v))
    (he : (Handling.mk env e).isInput = true) (hs : s ≠ .connected .recovering) :
    t ≠ .connected .recovering := by
  cases h with
  | unexpected | defaulted => exact hs
  | connectionLost => cases he
  | setupRejected hc hr hd | release hs' hc hd =>
    cases hd
    simp
  | _ => simp

end

theorem isOpen_eq {s : State} (hr : s.rests = true) (hs : s ≠ .connected .recovering) :
    s.isOpen = s.receives := by
  cases s with
  | connected s =>
    cases s with
    | recovering => exact absurd rfl hs
    | released => cases hr
    | _ => rfl
  | _ => rfl

theorem transparent : Transparent client State.isOpen := by
  refine heartbeats_answered.transparent (fun _ hc => reachable_rests hc)
    fun h c (hr : client.Run h c) hinput => ?_
  have hinit (c : Client State) (hc : client.init c) : c.state ≠ .connected .recovering := by
    cases hc
    simp
  refine ⟨isOpen_eq (reachable_rests hr.reachable) ?_, ?_⟩
  · exact hr.invariant_of_forall (P := fun c => c.state ≠ .connected .recovering) hinit
      (fun _ _ _ hc hs hd ha => (step_handled hc hd).not_recovering ha hs) hinput
  · refine hr.forall_of_forall (I := fun c => c.state ≠ .connected .recovering) hinit ?_ hinput
    intro c a d hc hs hd ha
    exact ⟨(step_handled hc hd).not_recovering ha hs, isOpen_eq (reachable_rests hc) hs⟩

end Pilot

/-! ### The device -/

namespace Device
open ChannelsHandler

section
variable {env : Environment} {s t : State} {e : InputEvent} {w v : Context}

theorem Handled.sent_beats (h : Handled env w s e (.ok t v))
    (hb : (Handling.mk env e).heartbeat? = none) :
    (sent v.trace).filter (·.isHeartbeat) = (sent w.trace).filter (·.isHeartbeat) := by
  cases h with
  | defaulted => simp [defaultEffect_other hb]
  | attached hs hc hv => simp [hv.sent, ClientMessage.isHeartbeat]
  | setupRejected hc hr hd | released hc hr hd =>
    cases hd
    simp
  | releaseChannels hc hf hcl => simp [sent_internal hcl.internal, ClientMessage.isHeartbeat]
  | operationEnded =>
    simp [endedContext, sent_internal (closeAllEffects_internal _), ClientMessage.isHeartbeat]
  | _ => simp [ClientMessage.isHeartbeat]

theorem Handled.beat {m : ControlMessage} {r : EStateM.Result Fault Context State}
    (h : Handled env w s (.received m) r) (hm : m.command = .heartbeat) : ∃ state entry,
      r = .ok s (w.emit [if s.isOpen then defaultEffect env m state else .logged entry]) := by
  cases h with
  | unexpected hs hd => exact ⟨"", _, by rw [hd m rfl, if_neg Bool.false_ne_true]⟩
  | defaulted hs ho => exact ⟨_, .info "", by rw [if_pos ho]⟩
  | _ => simp_all

end

theorem heartbeats_answered : Answers handleEvent State.rests State.isOpen where
  oblivious := handleEvent_oblivious
  beat env m s w hr := (handled env (.received m) s hr w).beat
  other a s _ w _ hb hr ht := (ht ▸ handled a.environment a.event s hr w).sent_beats hb

theorem transparent : Transparent client State.isOpen :=
  heartbeats_answered.transparent (fun _ hc => reachable_rests hc)
    fun _ _ _ _ => ⟨rfl, fun _ _ => rfl⟩

end Device

/-- Heartbeats are transparent to a pilot and to a device. -/
theorem heartbeats_transparent :
    Transparent Pilot.client Pilot.State.isOpen ∧ Transparent Device.client Device.State.isOpen :=
  ⟨Pilot.transparent, Device.transparent⟩

/-- A heartbeat comes between `SETUP` and `CHANNELS_READY`. -/
theorem heartbeats_transparent_operating : ∃ c k d, Pilot.client.Run k d ∧ k.length = 4 ∧
    c.state = .connected .operating ∧ SameState c d := by
  let env : Environment := .permissive fun _ => true
  let beat : Handling := ⟨env, .received { command := .heartbeat, response := .accepted
                                           heartbeat := some { key := "k" } }⟩
  have hexec : ((TransitionSystem.execute (Client.step Pilot.handleEvent)
      ⟨.disconnected, .initial⟩ Pilot.operatingRun).any fun r =>
        decide (r.2.state = .connected .operating)) = true := by decide +kernel
  rw [Option.any_eq_true] at hexec
  obtain ⟨⟨h, c⟩, he, hs⟩ := hexec
  have hlabels := TransitionSystem.execute_labels he
  have hi : Inserted (h.map Transition.label)
      (Pilot.operatingRun.take 2 ++ [beat] ++ Pilot.operatingRun.drop 2) := by
    rw [hlabels, ← List.take_append_drop 2 Pilot.operatingRun]
    exact .between rfl _ _
  have hinput : ∀ t ∈ h, t.label.isInput = true := by
    have hall : ∀ a ∈ Pilot.operatingRun, a.isInput = true := by decide
    rw [← hlabels] at hall
    simpa using hall
  obtain ⟨k, d, hk, hmap, hsame, -⟩ := heartbeats_transparent.1.inserted h c _
    (TransitionSystem.run_execute _ _ _ he) hinput hi
  have hlength : k.length = 4 := by simpa [Pilot.operatingRun] using congrArg List.length hmap
  exact ⟨c, k, d, hk, hlength, of_decide_eq_true hs, hsame⟩

end FmClient
