import FmClient.Run.Deferral

/-! The procedures that the user starts in `Operating`, up to the facade's refusal. All but
the second step of `OPEN_CHANNELS` leave the channels alone until the facade has accepted. -/
namespace FmClient.Pilot
open Lib Handler ChannelsHandler

def startsProcedure : InputEvent → Bool
  | .user (.openChannels _) | .user (.closeChannels _) | .user (.requestControl _) => true
  | _ => false

/-- The facade refuses the step of the procedure that the state waits for. -/
def ConnectedState.refusedBy : ConnectedState → ControlMessage → Bool
  | .openingChannels _, m => m.command = .addChannels ∧ m.response ≠ .accepted
  | .validatingChannels _ _, m => m.command = .channelsReady ∧ m.response ≠ .accepted
  | .closingChannels _, m => m.command = .removeChannels ∧ m.response ≠ .accepted
  | .requestingControl _, m => m.command = .requestControl ∧ m.response ≠ .accepted
  | _, _ => false

/-- A pilot in a procedure that was started in `c₀`, after any messages and other events
that have not ended it. -/
inductive Procedure (c₀ : Client State) : Client State → Prop where
  | start {c : Client State} {a : Handling} (hs : client.step c₀ a c)
      (ha : startsProcedure a.event = true) : Procedure c₀ c
  | next {c d : Client State} {s : ConnectedState} {a : Handling} (hp : Procedure c₀ c)
      (hs : client.step c a d) (hd : d.state = .connected s) (hin : s.inProcedure = true) :
      Procedure c₀ d

/-- Back in `Operating` with the same keys and the same owned flags. -/
def Restored (c₀ d : Client State) : Prop :=
  d.state = .connected .operating ∧
  (∀ id, id ∈ d.context.channels.keys ↔ id ∈ c₀.context.channels.keys) ∧
  ∀ x ∈ c₀.context.channels, ∀ y ∈ d.context.channels, y.id = x.id → y.owned = x.owned

def Unaltered (m : Channels) (w : Context) : State → Prop
  | .connected (.validatingChannels _ _) => True
  | .connected (.openingChannels _) | .connected (.closingChannels _)
  | .connected (.requestingControl _) => w.channels = m
  | _ => False

section
variable {env : Environment} {e : InputEvent} {s t : State} {n : ConnectedState}
  {w v : Context} {channels : Channels}

theorem operating_serves (he : startsProcedure e = true) :
    (State.connected .operating).serves e = true := by
  unfold startsProcedure at he
  split at he <;> simp_all [State.serves, ConnectedState.serves]

theorem Handled.unaltered_start (h : Handled env w (.connected .operating) e (.ok t v))
    (he : startsProcedure e = true) : Unaltered w.channels v t := by
  cases h with
  | unexpected hs | defaulted hs => simp [operating_serves he] at hs
  | openChannels | closeChannels | requestControl => rfl
  | _ => simp_all [startsProcedure]

theorem Handled.unaltered_next (h : Handled env w s e (.ok (.connected n) v))
    (hn : n.inProcedure = true) (hs : Unaltered channels w s) :
    Unaltered channels v (.connected n) := by
  cases h with
  | unexpected hu | defaulted hu => cases n <;> simp_all [Unaltered]
  | addAccepted | readyRejected => trivial
  | controlReady | requestAccepted => exact hs
  | setupRejected hc hr hd | release hs' hc hd => cases hd
  | _ => simp_all [Unaltered, ConnectedState.inProcedure]

end

theorem Procedure.unaltered {c₀ c : Client State} (h₀ : client.Reachable c₀)
    (hop : c₀.state = .connected .operating) (hp : Procedure c₀ c) :
    client.Reachable c ∧ Unaltered c₀.context.channels c.context c.state := by
  induction hp with
  | start hs ha =>
    have hh := step_handled h₀ hs
    rw [hop] at hh
    exact ⟨h₀.next hs, hh.unaltered_start ha⟩
  | next hp hs hd hin ih =>
    obtain ⟨hc, hunaltered⟩ := ih
    have hh := step_handled hc hs
    rw [hd] at hh ⊢
    exact ⟨hc.next hs, hh.unaltered_next hin hunaltered⟩

theorem refusedBy_serves {s : ConnectedState} {m : ControlMessage} (hr : s.refusedBy m = true) :
    s.serves (.received m) = true ∧ m.response ≠ .accepted := by
  unfold ConnectedState.refusedBy at hr
  split at hr <;> simp_all [ConnectedState.serves]

theorem handled_refused {env : Environment} {s : ConnectedState} {m : ControlMessage}
    {w : Context} {r : EStateM.Result Fault Context State}
    (hr : s.refusedBy m = true) (h : Handled env w (.connected s) (.received m) r) :
    ∃ t v, r = .ok t v ∧ v.channels = w.channels ∧
      (t = .connected .operating ↔ ∀ chs ps, s ≠ .validatingChannels chs ps) := by
  obtain ⟨hserved, hne⟩ := refusedBy_serves hr
  cases h with
  | unexpected hs | defaulted hs => simp [State.serves, hserved] at hs
  | addRejected | removeRejected | requestRejected | readyRejected =>
    exact ⟨_, _, rfl, rfl, by simp⟩
  | release hs hc hd => obtain rfl | ⟨ids, rfl⟩ := hs <;> simp [ConnectedState.refusedBy, hc] at hr
  | _ => simp_all [ConnectedState.refusedBy]

theorem refusedBy_validating_iff {s : ConnectedState} {m : ControlMessage}
    (hr : s.refusedBy m = true) :
    (∀ chs ps, s ≠ .validatingChannels chs ps) ↔ m.command ≠ .channelsReady := by
  cases s <;> simp_all [ConnectedState.refusedBy]

/-- A refusal restores what the procedure found exactly if it is not that of `CHANNELS_READY`,
the second step of `OPEN_CHANNELS`. -/
theorem refused_restored_iff {c₀ c : Client State} {s : ConnectedState} {m : ControlMessage}
    (h₀ : client.Reachable c₀) (hop : c₀.state = .connected .operating) (hp : Procedure c₀ c)
    (hs : c.state = .connected s) (hr : s.refusedBy m = true) (env : Environment) :
    (∃ d, client.step c ⟨env, .received m⟩ d ∧ Restored c₀ d) ↔ m.command ≠ .channelsReady := by
  obtain ⟨hc, hunaltered⟩ := hp.unaltered h₀ hop
  have hh := handled env (.received m) c.state (reachable_rests hc) c.context
  rw [hs] at hh hunaltered
  obtain ⟨t, v, hres, hchannels, hoperating⟩ := handled_refused hr hh
  rw [refusedBy_validating_iff hr] at hoperating
  have hstep (d : Client State) :
      client.step c ⟨env, .received m⟩ d ↔ d = ⟨t, v⟩ := by
    refine Client.step_eq_some.trans ?_
    rw [hs, hres]
    cases d
    simp [eq_comm]
  simp only [hstep, exists_eq_left, Restored, hoperating]
  refine and_iff_left_of_imp fun hne => ?_
  have hsame : v.channels = c₀.context.channels := by
    rw [hchannels]
    cases s <;> simp_all [Unaltered, ConnectedState.refusedBy]
  rw [hsame]
  exact ⟨fun id => Iff.rfl, fun x hx y hy hid => by rw [KeyedList.eq_of_key_eq hy hx hid]⟩

def State.inProcedure : State → Bool
  | .connected s => s.inProcedure
  | _ => false

theorem Procedure.execute {c₀ c d : Client State} {labels : List Handling}
    {k : List (Transition (Client State) Handling)} (hp : Procedure c₀ c)
    (he : TransitionSystem.execute (Client.step handleEvent) c labels = some (k, d))
    (hk : ∀ t ∈ k, t.target.state.inProcedure = true) : Procedure c₀ d := by
  induction labels generalizing c k with
  | nil =>
    cases he
    exact hp
  | cons a as ih =>
    simp only [TransitionSystem.execute, Option.bind_eq_some_iff, Option.map_eq_some_iff,
      Prod.mk.injEq] at he
    obtain ⟨t, ht, ⟨k', d'⟩, hk', rfl, rfl⟩ := he
    obtain ⟨hin, hrest⟩ := List.forall_mem_cons.mp hk
    cases hs : t.state with
    | connected s =>
      rw [hs] at hin
      exact ih (.next hp ht hs hin) hk' hrest
    | _ => simp [hs, State.inProcedure] at hin

def openingRun (events : List InputEvent) : List Handling :=
  (.user (.openChannels [⟨2, .udp, .plainText, 0⟩]) :: events).map
    (Handling.mk (.permissive fun _ => true))

def opensBy (events : List InputEvent) (p : Client State → Client State → Bool)
    (c₀ : Client State) : Bool :=
  decide (c₀.state = .connected .operating) &&
    (TransitionSystem.execute (Client.step handleEvent) c₀ (openingRun events)).any fun r =>
      decide (∀ t ∈ r.1, t.target.state.inProcedure = true) && p c₀ r.2

theorem exists_procedure (events : List InputEvent) {p : Client State → Client State → Bool}
    (he : ((TransitionSystem.execute (Client.step handleEvent) ⟨.disconnected, .initial⟩
      operatingRun).any fun r => opensBy events p r.2) = true) :
    ∃ c₀ c, client.Reachable c₀ ∧ c₀.state = .connected .operating ∧ Procedure c₀ c ∧
      p c₀ c = true := by
  obtain ⟨h, c₀, hr, hp⟩ := TransitionSystem.exists_run ⟨.disconnected, .initial⟩
    (Client.step handleEvent) operatingRun (p := fun _ => opensBy events p) he
  simp only [opensBy, Bool.and_eq_true, decide_eq_true_eq, Option.any_eq_true] at hp
  obtain ⟨hop, ⟨k, c⟩, hk, hin, hp⟩ := hp
  simp only [openingRun, List.map_cons, TransitionSystem.execute, Option.bind_eq_some_iff,
    Option.map_eq_some_iff, Prod.mk.injEq] at hk
  obtain ⟨t, ht, ⟨k', c'⟩, hk', rfl, rfl⟩ := hk
  obtain ⟨-, hrest⟩ := List.forall_mem_cons.mp hin
  exact ⟨c₀, c', hr.reachable, hop, (Procedure.start ht rfl).execute hk' hrest, hp⟩

/-- `ADD_CHANNELS` is refused, and channel 1 is as before. -/
theorem refused_restored_iff_add : ∃ c₀ c d m, Procedure c₀ c ∧
    client.step c ⟨.permissive fun _ => true, .received m⟩ d ∧ Restored c₀ d ∧
    m.response = .other 1 := by
  let m : ControlMessage := { command := .addChannels, response := .other 1 }
  let setup : ControlMessage := { command := .setup, response := .accepted }
  obtain ⟨c₀, c, h₀, hop, hp, hs⟩ := exists_procedure [.received setup]
    (p := fun _ c => decide (c.state = .connected (.openingChannels [⟨2, .udp, .plainText, 0⟩])))
    (by decide +kernel)
  obtain ⟨d, hd, hrestored⟩ := (refused_restored_iff (m := m) h₀ hop hp (of_decide_eq_true hs) rfl
    (.permissive fun _ => true)).mpr (by simp [m])
  exact ⟨c₀, c, d, m, hp, hd, hrestored, rfl⟩

/-- `CHANNELS_READY` is refused once channel 2 is in the map, and there it stays. -/
theorem refused_ready_kept : ¬ ∀ c₀ c s m env, client.Reachable c₀ →
    c₀.state = .connected .operating → Procedure c₀ c → c.state = .connected s →
    s.refusedBy m = true → ∃ d, client.step c ⟨env, .received m⟩ d ∧ Restored c₀ d := by
  intro hclaim
  let env : Environment := .permissive fun _ => true
  let m : ControlMessage := { command := .channelsReady, response := .other 1 }
  let added : ControlMessage :=
    { command := .addChannels, response := .accepted, channelsResponse := [{ id := 2 }] }
  obtain ⟨c₀, c, h₀, hop, hp, hs⟩ := exists_procedure [.received added]
    (p := fun c₀ c => decide (c.state = .connected (.validatingChannels [{ id := 2 }] [⟨2, 1⟩]) ∧
      c₀.context.channels.keys = [1] ∧ c.context.channels.keys = [1, 2])) (by decide +kernel)
  obtain ⟨hstate, hkeys₀, hkeys⟩ := of_decide_eq_true hs
  obtain ⟨d, hd, -, hsame, -⟩ := hclaim c₀ c _ m env h₀ hop hp hstate rfl
  have hh := step_handled (hp.unaltered h₀ hop).1 hd
  rw [hstate] at hh
  obtain ⟨t, v, hres, hchannels, -⟩ := handled_refused rfl hh
  cases hres
  simpa [hkeys₀, hchannels, hkeys] using hsame 2

end FmClient.Pilot
