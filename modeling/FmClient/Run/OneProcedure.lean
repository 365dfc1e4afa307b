import FmClient.Lib.Obligation
import FmClient.Run.Deferral

/-! One procedure at a time: a request to the facade, up to the message that ends it. -/
namespace FmClient.Pilot
open Lib Handler ChannelsHandler

/-- What a pilot waits for in a procedure. -/
inductive AwaitedReply where
  | addChannels | channelsReady | removeChannels | requestControl
  deriving DecidableEq

/-- The procedure that a message to the facade begins. An answer begins none. -/
def begun (m : ClientMessage) : Option AwaitedReply :=
  match m.command, m.response with
  | .addChannels, none => some .addChannels
  | .removeChannels, none => some .removeChannels
  | .requestControl, none => some .requestControl
  | _, _ => none

def AwaitedReply.after (k : AwaitedReply) (m : ControlMessage) : Option AwaitedReply :=
  match k with
  | .addChannels =>
    if m.command = .addChannels then
      if m.response = .accepted then some .channelsReady else none
    else some .addChannels
  | .channelsReady =>
    if m.command = .channelsReady ∧ m.response = .accepted then none else some .channelsReady
  | .removeChannels =>
    if m.command = .removeChannels ∨ m.command = .release then none else some .removeChannels
  | .requestControl =>
    if m.command = .requestControl ∧ m.response ≠ .accepted ∨
        m.command = .controlReady ∧ m.response = .accepted then none
    else some .requestControl

def AwaitedReply.next (k : AwaitedReply) : InputEvent → Option AwaitedReply
  | .connection (.received m) => k.after m
  | _ => some k

def State.awaits : State → Option AwaitedReply
  | .connected (.openingChannels _) => some .addChannels
  | .connected (.validatingChannels _ _) => some .channelsReady
  | .connected (.closingChannels _) => some .removeChannels
  | .connected (.requestingControl _) => some .requestControl
  | _ => none

def State.releasesControl : State → Bool
  | .connected (.releasingControl _) => true
  | _ => false

def begunBetween (w v : Context) : List AwaitedReply :=
  ((sent v.trace).drop (sent w.trace).length).filterMap begun

section
variable {env : Environment} {s t : State} {e : InputEvent} {m : ControlMessage} {w v : Context}

theorem next_unserved (hs : s.serves e = false) : s.awaits.bind (·.next e) = s.awaits := by
  cases e with
  | user e => cases s.awaits <;> rfl
  | connection e =>
    cases e with
    | received m =>
      unfold State.awaits
      split <;>
        simp_all [State.serves, ConnectedState.serves, AwaitedReply.next, AwaitedReply.after]
    | _ => cases s.awaits <;> rfl

/-- What a step does about procedures. -/
@[mk_iff]
inductive Advances : State → InputEvent → State → List AwaitedReply → Prop where
  | «begin» {t : State} {e : InputEvent} {k : AwaitedReply} (ht : t.awaits = some k)
      (hk : k ≠ .channelsReady) : Advances (.connected .operating) e t [k]
  /-- The channels of `SETUP` are validated without a request. -/
  | setup {s t : State} {e : InputEvent} (hs : s.awaits = none)
      (ht : t.awaits = some .channelsReady) : Advances s e t []
  | follow {s t : State} {e : InputEvent} (ht : t.awaits = s.awaits.bind (·.next e)) :
      Advances s e t []

theorem begunBetween_of_sent {l : List ClientMessage} (h : sent v.trace = sent w.trace ++ l) :
    begunBetween w v = l.filterMap begun := by
  simp [begunBetween, h]

theorem Advances.of_sent {l : List ClientMessage} (h : sent v.trace = sent w.trace ++ l)
    (hl : l.filterMap begun = []) (ht : t.awaits = s.awaits.bind (·.next e)) :
    Advances s e t (begunBetween w v) := by
  rw [begunBetween_of_sent h, hl]
  exact .follow ht

theorem Handled.advances (h : Handled env w s e (.ok t v)) :
    Advances s e t (begunBetween w v) := by
  cases h with
  | unexpected hs =>
    exact .of_sent (l := []) (by simp) rfl (next_unserved hs).symm
  | @defaulted _ m hs =>
    refine .of_sent (by simp; rfl) ?_ (next_unserved hs).symm
    unfold defaultEffect
    split <;> rfl
  | setupAccepted hc hr hv =>
    rw [begunBetween_of_sent (by simp [hv.sent]; rfl)]
    exact .setup rfl rfl
  | openChannels | closeChannels | requestControl =>
    rw [begunBetween_of_sent (by simp; rfl)]
    exact .begin rfl (by simp)
  | setupRejected hc hr hd =>
    cases hd
    exact .of_sent (l := []) (by simp) rfl rfl
  | readyAccepted hc hr hids =>
    refine .of_sent (l := []) ?_ rfl ?_
    · simp [ownedContext, sent_internal (ownedLines_internal _)]
    · simp [State.awaits, AwaitedReply.next, AwaitedReply.after, hc, hr]
  | addAccepted hc hr hv =>
    rw [begunBetween_of_sent (by simp [hv.sent]; rfl)]
    exact .follow (by simp [State.awaits, AwaitedReply.next, AwaitedReply.after, hc, hr])
  | release hs' hc hd =>
    cases hd
    have hsent := sent_internal (closeAllEffects_internal w.channels)
    refine .of_sent (by simp [releaseContext, hsent]; rfl) rfl ?_
    obtain rfl | ⟨ids, rfl⟩ := hs'
    · rfl
    · simp [State.awaits, AwaitedReply.next, AwaitedReply.after, hc]
  | removeAccepted hc hr hf hcl =>
    refine .of_sent (by simp [sent_internal hcl.internal]; rfl) rfl ?_
    simp [State.awaits, AwaitedReply.next, AwaitedReply.after, hc]
  | connectionLost => exact .of_sent (l := []) (by simp) rfl rfl
  | readyRejected hc hr | addRejected hc hr | removeRejected hc hr | requestAccepted hc hr
  | requestRejected hc hr | handoverDone hc hr =>
    refine .of_sent (by simp; rfl) rfl ?_
    simp [State.awaits, AwaitedReply.next, AwaitedReply.after, hc, hr]
  | _ => exact .of_sent (by simp; rfl) rfl rfl

end

/-! ### Whole runs -/

def AwaitedReply.follow (k : AwaitedReply) (t : Transition (Client State) Handling) :
    Option AwaitedReply :=
  k.next t.label.event

section
variable (h : List (Transition (Client State) Handling)) (s : State)
  (t : Transition (Client State) Handling)

def requests : List AwaitedReply := begunBetween t.source.context t.target.context

def requested : Option AwaitedReply := (requests t).head?

def entersReleasing : Prop :=
  t.source.state.releasesControl = false ∧ t.target.state.releasesControl = true

def startsAnother : Prop := (requested t).isSome = true ∨ entersReleasing t

def validatesAdded : Prop :=
  t.source.state.awaits = some .addChannels ∧ t.target.state.awaits = some .channelsReady

def validatesSetup : Prop :=
  t.source.state.awaits = none ∧ t.target.state.awaits = some .channelsReady

instance : Decidable (validatesAdded t) := inferInstanceAs (Decidable (_ ∧ _))

instance : Decidable (validatesSetup t) := inferInstanceAs (Decidable (_ ∧ _))

/-- What the pilot waits for in a procedure that a request has begun. -/
def inProgress : Option AwaitedReply :=
  if s.awaits = some .channelsReady ∧ ¬ Since validatesAdded validatesSetup h then none
  else s.awaits

end

section
variable {h : List (Transition (Client State) Handling)} {c : Client State}

theorem Handled.entersReleasing {env : Environment} {s t : State} {e : InputEvent}
    {w v : Context} (hh : Handled env w s e (.ok t v)) (hs : s.releasesControl = false)
    (ht : t.releasesControl = true) : s.awaits = none := by
  cases hh with
  | releaseControl => rfl
  | unexpected | defaulted => simp [hs] at ht
  | setupRejected hc hr hd | release hs' hc hd =>
    cases hd
    cases ht
  | releaseAccepted => cases hs
  | _ => cases ht

/-- What carries the runs: what is outstanding is what the state waits for. -/
structure OneAtATime (h : List (Transition (Client State) Handling)) (c : Client State) :
    Prop where
  outstanding : outstanding requested AwaitedReply.follow h = inProgress h c.state
  exclusive : Exclusive requested AwaitedReply.follow startsAnother h
  single : ∀ t ∈ h, (requests t).length ≤ 1

theorem inProgress_of_ne {s : State} (hs : s.awaits ≠ some .channelsReady) :
    inProgress h s = s.awaits := by
  simp [inProgress, hs]

theorem next_channelsReady {k n : AwaitedReply} {e : InputEvent} (hk : k.next e = some n) :
    (n = .channelsReady → k = .addChannels ∨ k = .channelsReady) ∧
      (k = .channelsReady → n = .channelsReady) := by
  unfold AwaitedReply.next at hk
  split at hk
  · cases k <;> simp_all [AwaitedReply.after]
  · cases hk
    exact ⟨.inr, id⟩

theorem inProgress_follow {t : Transition (Client State) Handling}
    (ht : t.target.state.awaits = t.source.state.awaits.bind (·.follow t)) :
    inProgress (h ++ [t]) t.target.state =
      (inProgress h t.source.state).bind (·.follow t) := by
  cases hk : t.source.state.awaits with
  | none =>
    rw [hk, Option.bind_none] at ht
    simp [inProgress, ht, hk]
  | some k =>
    rw [hk, Option.bind_some] at ht
    have hsetup : ¬ validatesSetup t := by simp [validatesSetup, hk]
    by_cases hready : k = .channelsReady
    · -- the validation goes on or ends, whatever it was begun by
      subst hready
      have hadded : ¬ validatesAdded t := by simp [validatesAdded, hk]
      by_cases hsince : Since validatesAdded validatesSetup h
      · simp [inProgress, since_concat, hadded, hsetup, hsince, ht, hk]
      · cases hn : AwaitedReply.follow .channelsReady t with
        | none => simp [inProgress, ht, hk, hn, hsince]
        | some n =>
          obtain rfl := (next_channelsReady hn).2 rfl
          simp [inProgress, since_concat, hadded, hsetup, hsince, ht, hk, hn]
    · have hsource : inProgress h t.source.state = some k := by
        rw [inProgress_of_ne (by simpa [hk] using hready), hk]
      rw [hsource, Option.bind_some, ← ht]
      by_cases htarget : t.target.state.awaits = some .channelsReady
      · rw [htarget] at ht
        have hadd : k = .addChannels := ((next_channelsReady ht.symm).1 rfl).resolve_right hready
        have hadded : validatesAdded t := ⟨hadd ▸ hk, htarget⟩
        simp [inProgress, since_concat, hadded, htarget]
      · exact inProgress_of_ne htarget

theorem OneAtATime.step {a : Handling} {d : Client State} (hi : OneAtATime h c)
    (hc : client.Reachable c) (hs : client.step c a d) : OneAtATime (h ++ [⟨c, a, d⟩]) d := by
  have hh := step_handled hc hs
  have hrequests : requests ⟨c, a, d⟩ = begunBetween c.context d.context := rfl
  obtain ⟨houtstanding, hexclusive, hsingle⟩ := hi
  have hadv := (advances_iff _ _ _ _).mp hh.advances
  rw [← hrequests] at hadv
  -- a request, or the way into `ReleasingControl`, needs a state that waits for nothing
  have hblocked : startsAnother ⟨c, a, d⟩ → c.state.awaits = none := by
    rintro (hreq | ⟨hfrom, hto⟩)
    · obtain ⟨k, -, -, hop, -⟩ | ⟨-, -, hnone⟩ | ⟨-, hnone⟩ := hadv
      · rw [hop]
        rfl
      · simp [requested, hnone] at hreq
      · simp [requested, hnone] at hreq
    · exact hh.entersReleasing hfrom hto
  constructor
  · rw [outstanding_concat, houtstanding]
    obtain ⟨k, hk, hne, hop, hreq⟩ | ⟨hsetup, hready, hreq⟩ | ⟨hnext, hreq⟩ := hadv
    · have hd : inProgress (h ++ [⟨c, a, d⟩]) d.state = some k := by
        rw [inProgress_of_ne (by simpa [hk] using hne), hk]
      simp [requested, hreq, hd]
    · have hnot : ¬ Since validatesAdded validatesSetup (h ++ [⟨c, a, d⟩]) := by
        simp [since_concat, validatesAdded, validatesSetup, hsetup, hready]
      simp [requested, hreq, inProgress, hsetup, hready, hnot]
    · rw [show requested ⟨c, a, d⟩ = none by simp [requested, hreq], Option.none_or]
      exact (inProgress_follow (t := ⟨c, a, d⟩) hnext).symm
  · refine each_concat.mpr ⟨hexclusive, fun hb => ?_⟩
    rw [houtstanding, inProgress_of_ne (by simp [hblocked hb]), hblocked hb]
  · refine List.forall_mem_append.mpr ⟨hsingle, List.forall_mem_singleton.mpr ?_⟩
    obtain ⟨k, -, -, -, hreq⟩ | ⟨-, -, hreq⟩ | ⟨-, hreq⟩ := hadv <;> simp [hreq]

theorem Run.oneAtATime (hr : client.Run h c) : OneAtATime h c := by
  refine hr.induct (P := OneAtATime) ?_ fun h c a d hr hi hs => hi.step hr.reachable hs
  intro c hc
  cases hc
  exact ⟨rfl, each_nil, by simp⟩

/-- A step sends one request at most. After a request there is neither another one nor the way
into `ReleasingControl` until the messages that end it have been handled, and a message ends a
procedure of the pilot exactly if it ends that of exactly one request before it. -/
structure OneProcedure (h : List (Transition (Client State) Handling)) : Prop where
  single (t : Transition (Client State) Handling) (ht : t ∈ h) : (requests t).length ≤ 1
  ended (u v w : List (Transition (Client State) Handling))
    (a b : Transition (Client State) Handling) (k : AwaitedReply) (hh : h = u ++ a :: v ++ b :: w)
    (ha : requested a = some k) (hb : startsAnother b) : remaining AwaitedReply.follow k v = none
  matched (u w : List (Transition (Client State) Handling))
    (b : Transition (Client State) Handling) (hh : h = u ++ b :: w) :
    (∃ k, inProgress u b.source.state = some k ∧ k.follow b = none) ↔
      ∃! i, EndedBy requested AwaitedReply.follow u b i

theorem one_procedure_at_a_time (hr : client.Run h c) : OneProcedure h where
  single := (Run.oneAtATime hr).single
  ended u v w a b k hh ha hb := by
    have hexclusive := (Run.oneAtATime hr).exclusive
    rw [hh] at hexclusive
    exact hexclusive.ended (fun _ => .inl) ha hb
  matched u w b hh := by
    rw [hh] at hr
    obtain ⟨houtstanding, hexclusive, -⟩ := Run.oneAtATime hr.before
    rw [← houtstanding]
    exact hexclusive.exists_unique fun _ => .inl

end

def proceduresRun : List Handling := operatingRun ++
  [.user (.openChannels [⟨2, .udp, .plainText, 0⟩]),
    .received { command := .addChannels, response := .accepted, channelsResponse := [{ id := 2 }] },
    .received { command := .channelsReady, response := .accepted, channelsIndication := [2] },
    .user (.closeChannels [2]), .received { command := .removeChannels, response := .accepted },
    .user (.requestControl 1)].map (Handling.mk (.permissive fun _ => true))

theorem one_procedure_at_a_time_three : ∃ h c, client.Run h c ∧
    h.flatMap requests = [.addChannels, .removeChannels, .requestControl] ∧ OneProcedure h := by
  obtain ⟨h, c, hr, hp⟩ := TransitionSystem.exists_run ⟨.disconnected, .initial⟩
    (Client.step handleEvent) proceduresRun
    (p := fun h _ => decide (h.flatMap requests = [.addChannels, .removeChannels, .requestControl]))
    (by decide +kernel)
  exact ⟨h, c, hr, of_decide_eq_true hp, one_procedure_at_a_time hr⟩

end FmClient.Pilot
