import FmClient.Core.Beginning
import FmClient.Facade.Refinement

/-! A client with Core behind it, over whole runs: what it asks Core for, and how each session
with the facade begins with what Core has granted. -/
namespace FmClient
open Lib Handler ChannelsHandler Facade

/-- What only the beginning of a session does. -/
@[simps] def introductions : Observer Effect where
  message m := if m.command = .setup then some (.sent m) else none
  event e := if e = .error none then some (.event e) else none
  dialed host port := some (.dialed host port)

def introduced (env : Environment) (b : Beginning) : List Effect :=
  match env.answer b.query with
  | .error _ => [.event (.error none)]
  | .ok response =>
    .dialed response.host (if env.useTls then response.tlsPort else response.unsafePort) ::
      match env.openFacade with
      | .error _ => [.event (.error none)]
      | .ok _ => [.sent { command := .setup, attachKey := some response.key
                          channelsRequest := b.channels }]

namespace Pilot
variable {env : Environment} {s : State} {e : InputEvent} {w : Context}
  {r : EStateM.Result Fault Context State}

theorem Handled.introductions (h : Handled env w s e r) :
    introductions (contextOf r) = introductions w ++ (s.begins e).elim [] (introduced env) := by
  cases h with
  | unexpected hs => simp [State.begins_of_unserved hs]
  | defaulted hs =>
    have hnone := introductions.see_defaultEffect (fun m hm => by simp [hm])
    simp [State.begins_of_unserved hs, hnone]
  | operateRefused ho | dialFailed ho hf | operateStarted ho hf =>
    simp [State.begins, introduced, Environment.answer, Environment.port, *]
  | setupAccepted hc hr hv | addAccepted hc hr hv =>
    simp [State.begins, introductions.seen_validated hv]
  | setupFailed hc hr hv | addFailed hc hr hv | setupDangling hc hr hv | addDangling hc hr hv =>
    simpa [State.begins] using introductions.seen_validations hv
  | setupRejected hc hr hd | release hs hc hd =>
    rw [introductions.seen_disconnects rfl hd]
    simp [State.begins]
  | readyMissing hc hr hm hid => simp [State.begins]
  | removeAccepted hc hr hf hcl => simp [State.begins, introductions.see_channel hcl.channel]
  | _ => simp [State.begins]

end Pilot

namespace Device
variable {env : Environment} {s : State} {e : InputEvent} {w : Context}
  {r : EStateM.Result Fault Context State}

theorem Handled.introductions (h : Handled env w s e r) :
    introductions (contextOf r) = introductions w ++ (s.begins e).elim [] (introduced env) := by
  cases h with
  | unexpected hs => simp [State.begins_of_unserved hs]
  | defaulted hs =>
    have hnone := introductions.see_defaultEffect (fun m hm => by simp [hm])
    simp [State.begins_of_unserved hs, hnone]
  | attachRefused ha | dialFailed ha hf | attachStarted ha hf =>
    simp [State.begins, introduced, Environment.answer, Environment.port, *]
  | setupRejected hc hr hd | released hc hr hd =>
    rw [introductions.seen_disconnects rfl hd]
    simp [State.begins]
  | attached hs hc hv | attachDangling hs hc hv =>
    simp [State.begins, introductions.seen_validated hv]
  | attachFailed hs hc hv => simpa [State.begins] using introductions.seen_validations hv
  | releaseChannels hc hf hcl => simp [State.begins, introductions.see_channel hcl.channel]
  | _ => simp [State.begins]

end Device

/-! ### A client with Core behind it -/

/-- A client by the sessions that it begins. -/
structure CoreUser (σ : Type) where
  machine : ClientMachine σ
  begins : σ → InputEvent → Option Beginning
  introduces (env : Environment) (e : InputEvent) (s : σ) (w : Context)
    (hs : machine.rests s = true) :
    introductions (contextOf (machine.handleEvent env e s w)) =
      introductions w ++ (begins s e).elim [] (introduced env)
  reads (env : Environment) (f g : Core.Query → Except String AttachResponse) (e : InputEvent)
    (s : σ) (w : Context) (h : ∀ b, begins s e = some b → f b.query = g b.query) :
    machine.handleEvent (env.withCore f) e s w = machine.handleEvent (env.withCore g) e s w

def Pilot.coreUser : CoreUser Pilot.State where
  machine := pilot
  begins := State.begins
  introduces env e s w hs := (handled env e s hs w).introductions
  reads _ _ _ _ _ w h := reads h w

def Device.coreUser : CoreUser Device.State where
  machine := device
  begins := State.begins
  introduces env e s w hs := (handled env e s hs w).introductions
  reads _ _ _ _ _ w h := reads h w

namespace Core
open Exchanging
variable {σ : Type}

def result {α : Type} : EStateM.Result String (List Call) α → Except String α
  | .ok a _ => .ok a
  | .error what _ => .error what

def callsOf {α : Type} : EStateM.Result String (List Call) α → List Call
  | .ok _ calls => calls
  | .error _ calls => calls

/-- The answers of a handler's environment are those of its exchange with Core. -/
def CoreClient.environment (core : CoreClient) (x : Exchange) (env : Environment) : Environment :=
  env.withCore fun q => result (core.ask x q [])

structure Served (σ : Type) where
  client : Client σ
  calls : List Call

/-- An event, with what the exchange with Core and the other calls outside give its handler. -/
structure Serving where
  exchange : Exchange
  environment : Environment
  event : InputEvent

namespace Served
variable (U : CoreUser σ) (core : CoreClient)

def step (s : Served σ) (a : Serving) : Option (Served σ) :=
  (s.client.step U.machine.handleEvent ⟨core.environment a.exchange a.environment, a.event⟩).map
    fun c => ⟨c, s.calls ++
      (U.begins s.client.state a.event).elim [] fun b => callsOf (core.ask a.exchange b.query [])⟩

end Served

def served (U : CoreUser σ) (core : CoreClient) : TransitionSystem (Served σ) Serving :=
  .ofStep ⟨⟨U.machine.initial, .initial⟩, []⟩ (Served.step U core)

def attempted (U : CoreUser σ) (h : List (Transition (Served σ) Serving)) :
    List (Beginning × Serving) :=
  h.filterMap fun t =>
    (U.begins t.source.client.state t.label.event).map fun b => (b, t.label)

/-- What comes of one: what is done on the network to Core, and what of it the facade and the
listener get to see. -/
inductive Introduction (core : CoreClient) (b : Beginning) (a : Serving) :
    List Call → List Effect → Prop where
  | refused {k : ℕ} (h : ∀ response, ¬ core.Grants a.exchange b.query response) :
      Introduction core b a ((core.client.conversation (core.request b.query)).take k)
        [.event (.error none)]
  | undialed {response : AttachResponse} {port : ℕ} {what : String}
      (h : core.Grants a.exchange b.query response)
      (hport : port = if a.environment.useTls then response.tlsPort else response.unsafePort)
      (hf : a.environment.openFacade = .error what) :
      Introduction core b a (core.client.conversation (core.request b.query))
        [.dialed response.host port, .event (.error none)]
  | begun {response : AttachResponse} {port : ℕ}
      (h : core.Grants a.exchange b.query response)
      (hport : port = if a.environment.useTls then response.tlsPort else response.unsafePort)
      (hf : a.environment.openFacade = .ok ()) :
      Introduction core b a (core.client.conversation (core.request b.query))
        [.dialed response.host port, .sent { command := .setup, attachKey := some response.key
                                             channelsRequest := b.channels }]

theorem introduction (core : CoreClient) (b : Beginning) (a : Serving) :
    Introduction core b a (network (callsOf (core.ask a.exchange b.query [])))
      (introduced (core.environment a.exchange a.environment) b) := by
  have hasked := core.asked a.exchange b.query []
  have hanswer : (core.environment a.exchange a.environment).answer b.query =
      result (core.ask a.exchange b.query []) := Environment.withCore_answer _ _ _
  have hopen : (core.environment a.exchange a.environment).openFacade =
      a.environment.openFacade := rfl
  unfold introduced
  rw [hanswer, hopen]
  cases hr : core.ask a.exchange b.query [] with
  | error what calls =>
    rw [hr] at hasked
    cases hasked with
    | @refused _ es k h hes =>
      simp only [callsOf, result, List.nil_append, hes]
      exact .refused h
  | ok response calls =>
    rw [hr] at hasked
    cases hasked with
    | granted h hes =>
      simp only [callsOf, result, List.nil_append, hes]
      cases hf : a.environment.openFacade with
      | error what => exact .undialed h rfl hf
      | ok => exact .begun h rfl hf

section
variable {U : CoreUser σ} {core : CoreClient} {h : List (Transition (Served σ) Serving)}
  {s t : Served σ} {a : Serving}

theorem Served.step_eq_some (hs : s.step U core a = some t) :
    U.machine.handleEvent (core.environment a.exchange a.environment) a.event s.client.state
      s.client.context = .ok t.client.state t.client.context ∧
    t.calls = s.calls ++ (U.begins s.client.state a.event).elim [] fun b =>
      callsOf (core.ask a.exchange b.query []) := by
  obtain ⟨c, hc, rfl⟩ := Option.map_eq_some_iff.mp hs
  exact ⟨Client.step_eq_some.mp hc, rfl⟩

theorem served_rests (hs : (served U core).Reachable s) :
    U.machine.rests s.client.state = true := by
  refine hs.invariant (P := fun s => U.machine.rests s.client.state = true) ?_ ?_
  · rintro _ rfl
    exact U.machine.initial_rests
  · intro s a t _ hrests hstep
    exact U.machine.rests_next _ _ _ _ _ _ hrests (Served.step_eq_some hstep).1

/-- In any run Core is asked for each session that is to begin, one conversation after the other,
and the facade gets to see only what was granted then. -/
theorem sessions_granted (hr : (served U core).Run h s) :
    ∃ attempts : List (List Call × List Effect),
      List.Forall₂ (fun b a => Introduction core b.1 b.2 a.1 a.2) (attempted U h) attempts ∧
        network s.calls = attempts.flatMap Prod.fst ∧
          introductions s.client.context = attempts.flatMap Prod.snd := by
  induction hr with
  | start hs =>
    cases hs
    exact ⟨[], .nil, rfl, rfl⟩
  | @next h s t a hr ht ih =>
    obtain ⟨attempts, hforall, hcalls, hintroductions⟩ := ih
    obtain ⟨hhandled, hmade⟩ := Served.step_eq_some ht
    have hintroduced := U.introduces (core.environment a.exchange a.environment) a.event
      s.client.state s.client.context (served_rests hr.reachable)
    rw [hhandled] at hintroduced
    cases hb : U.begins s.client.state a.event with
    | none =>
      refine ⟨attempts, ?_, ?_, ?_⟩
      · simpa [attempted, hb] using hforall
      · simpa [hmade, hb] using hcalls
      · simpa [hb, hintroductions] using hintroduced
    | some b =>
      refine ⟨attempts ++ [(network (callsOf (core.ask a.exchange b.query [])),
        introduced (core.environment a.exchange a.environment) b)], ?_, ?_, ?_⟩
      · have hlast : attempted U (h ++ [⟨s, a, t⟩]) = attempted U h ++ [(b, a)] := by
          simp [attempted, hb]
        rw [hlast]
        exact List.rel_append hforall (.cons (introduction core b a) .nil)
      · simp [hmade, hb, hcalls]
      · simpa [hb, hintroductions] using hintroduced

/-- The same event, with another exchange where no session begins. -/
def reanswered (U : CoreUser σ) (f : Transition (Served σ) Serving → Exchange)
    (t : Transition (Served σ) Serving) : Transition (Served σ) Serving :=
  { t with label := { t.label with
      exchange := match U.begins t.source.client.state t.label.event with
        | some _ => t.label.exchange
        | none => f t } }

theorem Served.step_exchange (hb : U.begins s.client.state a.event = none) (x : Exchange) :
    step U core s { a with exchange := x } = step U core s a := by
  have hreads := U.reads a.environment (fun q => result (core.ask x q []))
    (fun q => result (core.ask a.exchange q [])) a.event s.client.state s.client.context
    (by simp [hb])
  have hclient : s.client.step U.machine.handleEvent ⟨core.environment x a.environment, a.event⟩ =
      s.client.step U.machine.handleEvent
        ⟨core.environment a.exchange a.environment, a.event⟩ := by
    simp only [Client.step, CoreClient.environment, hreads]
  simp only [step, hb, hclient, Option.elim_none]

/-- Whatever Core is like where no session begins, a run stays as it is. -/
theorem answers_unread (hr : (served U core).Run h s)
    (f : Transition (Served σ) Serving → Exchange) :
    (served U core).Run (h.map (reanswered U f)) s := by
  induction hr with
  | start hs => exact .start hs
  | @next h s t a hr ht ih =>
    have hstep : s.step U core (reanswered U f ⟨s, a, t⟩).label = some t := by
      unfold reanswered
      cases hb : U.begins s.client.state a.event with
      | some b => exact ht
      | none => exact (Served.step_exchange hb _).trans ht
    rw [List.map_append]
    exact ih.next hstep

end

/-! ### Refused, then granted -/

def Exchange.answering (status : ℕ) (text : String) : Exchange where
  setHostName := .ok ()
  resolve := .ok ()
  connect := .ok ()
  handshake := .ok ()
  write := .ok ()
  reply _ := .ok ⟨status, "", text⟩
  shutdown := { value := 0, isEof := true }

def grantedText : String := "\x7b\"host\":\"facade\",\"tlsPort\":443,\"key\":\"key\"\x7d"

def grantedResponse (text : String) : Option AttachResponse :=
  if text = grantedText then some { host := "facade", tlsPort := 443, key := "key" } else none

/-- A client of a core that has two devices, the second of which is connected. -/
def twoDevices : CoreClient where
  client := ⟨"core", 443, "apiKey", "agent"⟩
  json := {
    attachResponse := grantedResponse
    operateResponse := grantedResponse
    listDevicesResponse _ := some [⟨3, .other 0⟩, ⟨7, .connected⟩]
    operateRequest _ := "\x7b\"requestedDeviceId\":\"7\"\x7d" }

def grantedRun : List Serving :=
  [⟨.answering 404 "", .permissive fun _ => true, .user (.operate 7 [])⟩,
    ⟨.answering 200 grantedText, .permissive fun _ => true, .user (.operate 7 [])⟩]

theorem sessions_granted_operate : ∃ h s, (served Pilot.coreUser twoDevices).Run h s ∧
    introductions s.client.context = [.event (.error none), .dialed "facade" 443,
      .sent { command := .setup, attachKey := some "key" }] ∧
    ∃ attempts : List (List Call × List Effect),
      List.Forall₂ (fun b a => Introduction twoDevices b.1 b.2 a.1 a.2)
        (attempted Pilot.coreUser h) attempts ∧
        network s.calls = attempts.flatMap Prod.fst ∧
          introductions s.client.context = attempts.flatMap Prod.snd := by
  obtain ⟨h, s, hr, hp⟩ := TransitionSystem.exists_run ⟨⟨.disconnected, .initial⟩, []⟩
    (Served.step Pilot.coreUser twoDevices) grantedRun
    (p := fun _ s => decide (introductions s.client.context = [.event (.error none),
      .dialed "facade" 443, .sent { command := .setup, attachKey := some "key" }]))
    (by decide +kernel)
  exact ⟨h, s, hr, of_decide_eq_true hp, sessions_granted hr⟩

/-- A heartbeat is answered alike, whatever Core is like then. -/
theorem answers_unread_heartbeat : ∃ h s, (served Pilot.coreUser twoDevices).Run h s ∧
    s.client.state = .connecting 7 [] ∧ h.length = 3 ∧
    (served Pilot.coreUser twoDevices).Run
      (h.map (reanswered Pilot.coreUser fun _ => .answering 500 "")) s := by
  obtain ⟨h, s, hr, hp⟩ := TransitionSystem.exists_run ⟨⟨.disconnected, .initial⟩, []⟩
    (Served.step Pilot.coreUser twoDevices)
    (grantedRun ++ [⟨.answering 404 "", .permissive fun _ => true, .received
      { command := .heartbeat, response := .accepted, heartbeat := some { key := "beat" } }⟩])
    (p := fun h s => decide (s.client.state = .connecting 7 [] ∧ h.length = 3))
    (by decide +kernel)
  obtain ⟨hstate, hlength⟩ := of_decide_eq_true hp
  have hrun : (served Pilot.coreUser twoDevices).Run h s := hr
  exact ⟨h, s, hrun, hstate, hlength, answers_unread hrun fun _ => .answering 500 ""⟩

end Core
end FmClient
