import FmClient.State.DeviceSpec
import FmClient.State.PilotSpec

/-! Lookups by id, of which only that of `closeChannels` checks whether there is an entry.
The others are safe exactly when the ids they are given are those of open channels. -/
namespace FmClient
open Lib Handler ChannelsHandler

/-- A read through `channels.end()`, or past the end of a repeated field. -/
def Fault.isLookup : Fault → Bool
  | .missingChannel _ | .idsOutOfRange => true
  | _ => false

def missesLookup {σ : Type} : EStateM.Result Fault Context σ → Bool
  | .ok _ _ => false
  | .error f _ => f.isLookup

section
variable {σ : Type} {s : σ} {w v : Context} {f : Fault}

@[simp] theorem missesLookup_missing (id : ℤ) :
    missesLookup (.error (.missingChannel id) w : EStateM.Result Fault Context σ) = true := rfl

@[simp] theorem missesLookup_outOfRange :
    missesLookup (.error .idsOutOfRange w : EStateM.Result Fault Context σ) = true := rfl

theorem missesLookup_validations {batch : List (ChannelResponse × Except String Bool)}
    (h : Validations w batch (.error f v)) :
    missesLookup (.error f v : EStateM.Result Fault Context σ) = false := by
  obtain rfl | ⟨what, rfl⟩ := h.fault <;> rfl

theorem missesLookup_disconnects {env : Environment} {r : EStateM.Result Fault Context σ}
    (h : Disconnects env s w r) : missesLookup r = false := by
  cases h <;> rfl

end

/-- The ids that a pilot's handler looks up, by its state and the event, are open. -/
def Pilot.Resolves (keys : List ℤ) : Pilot.State → InputEvent → Prop
  | .connected s, .connection (.received m) =>
    match s with
    | .validatingChannels _ _ => m.command = .channelsReady → m.response = .accepted →
        ∀ id ∈ m.channelsIndication, id ∈ keys
    | .closingChannels ids => m.command = .removeChannels → m.response = .accepted →
        ∀ id ∈ ids, id ∈ keys
    | .requestingControl id => m.command = .controlReady → m.response = .accepted → id ∈ keys
    | .releasingControl id => m.command = .controlReleased → id ∈ keys
    | .operating => m.command = .releaseControl → m.channelsIndication ≠ []
    | _ => True
  | _, _ => True

/-- The ids that a device's handler looks up, by its state and the event, are open. -/
def Device.Resolves (keys : List ℤ) : Device.State → InputEvent → Prop
  | .connected (.flying _), .connection (.received m) =>
    m.command = .releaseChannels → ∀ id ∈ m.channelsIndication, id ∈ keys
  | _, _ => True

theorem Pilot.resolves_of_unserved {s : Pilot.State} {e : InputEvent} {keys : List ℤ}
    (hs : s.serves e = false) : Pilot.Resolves keys s e := by
  unfold Pilot.Resolves
  split
  · split <;> simp_all [Pilot.State.serves, Pilot.ConnectedState.serves]
  · trivial

theorem Device.resolves_of_unserved {s : Device.State} {e : InputEvent} {keys : List ℤ}
    (hs : s.serves e = false) : Device.Resolves keys s e := by
  unfold Device.Resolves
  split
  · simp_all [Device.State.serves, Device.ConnectedState.serves]
  · trivial

theorem Pilot.Handled.missesLookup_iff {env : Environment} {s : Pilot.State} {e : InputEvent}
    {w : Context} {r : EStateM.Result Fault Context Pilot.State}
    (h : Pilot.Handled env w s e r) :
    missesLookup r = false ↔ Pilot.Resolves w.channels.keys s e := by
  cases h with
  | unexpected hs | defaulted hs => exact iff_of_true rfl (Pilot.resolves_of_unserved hs)
  | setupFailed hc hr hv => exact iff_of_true (missesLookup_validations hv) trivial
  | addFailed hc hr hv =>
    exact iff_of_true (missesLookup_validations hv) (by simp [Pilot.Resolves])
  | setupRejected hc hr hd => exact iff_of_true (missesLookup_disconnects hd) trivial
  | release hs hc hd =>
    refine iff_of_true (missesLookup_disconnects hd) ?_
    obtain rfl | ⟨ids, rfl⟩ := hs <;> simp [Pilot.Resolves, hc]
  | readyAccepted hc hr hids => exact iff_of_true rfl fun _ _ => hids
  | readyMissing hc hr hm hid =>
    refine iff_of_false (by simp) fun h => hid (h hc hr _ ?_)
    simp [hm]
  | removeAccepted hc hr hf hcl => exact iff_of_true rfl fun _ _ => hf.mem_keys
  | removeMissing hc hr hm hid => exact iff_of_false (by simp) fun h => hid (h hc hr _ hm)
  | handoverDone hc hr hid => exact iff_of_true rfl fun _ _ => hid
  | handoverMissing hc hr hid => exact iff_of_false (by simp) fun h => hid (h hc hr)
  | controlReleased hc hid => exact iff_of_true rfl fun _ => hid
  | releasedMissing hc hid => exact iff_of_false (by simp) fun h => hid (h hc)
  | releaseControl hc hm =>
    refine iff_of_true rfl fun _ => ?_
    simp [hm]
  | releaseControlEmpty hc hm => exact iff_of_false (by simp) fun h => h hc hm
  | _ => exact iff_of_true rfl (by simp_all [Pilot.Resolves])

theorem Device.Handled.missesLookup_iff {env : Environment} {s : Device.State} {e : InputEvent}
    {w : Context} {r : EStateM.Result Fault Context Device.State}
    (h : Device.Handled env w s e r) :
    missesLookup r = false ↔ Device.Resolves w.channels.keys s e := by
  cases h with
  | unexpected hs | defaulted hs => exact iff_of_true rfl (Device.resolves_of_unserved hs)
  | attachFailed hs hc hv =>
    refine iff_of_true (missesLookup_validations hv) ?_
    obtain rfl | ⟨chs, rfl⟩ := hs <;> simp [Device.Resolves, hc]
  | setupRejected hc hr hd | released hc hr hd =>
    exact iff_of_true (missesLookup_disconnects hd) trivial
  | attachDangling hs hc hv =>
    refine iff_of_true rfl ?_
    obtain rfl | ⟨chs, rfl⟩ := hs <;> simp [Device.Resolves, hc]
  | attached hs hc hv =>
    refine iff_of_true rfl ?_
    obtain ⟨rfl, -⟩ | rfl := hs <;> simp [Device.Resolves, hc]
  | releaseChannels hc hf hcl => exact iff_of_true rfl fun _ => hf.mem_keys
  | releaseMissing hc hm hid => exact iff_of_false (by simp) fun h => hid (h hc _ hm)
  | operationEnded hc => exact iff_of_true rfl (by simp [Device.Resolves, hc])
  | _ => exact iff_of_true rfl trivial

/-- A handler looks up only what there is exactly when the ids that it takes from the event
or from its state are those of open channels, and `RELEASE_CONTROL` comes with an id. -/
theorem lookups_safe_iff (env : Environment) (e : InputEvent) :
    (∀ c, Pilot.client.Reachable c →
      (missesLookup (Pilot.handleEvent env e c.state c.context) = false ↔
        Pilot.Resolves c.context.channels.keys c.state e)) ∧
    ∀ c, Device.client.Reachable c →
      (missesLookup (Device.handleEvent env e c.state c.context) = false ↔
        Device.Resolves c.context.channels.keys c.state e) :=
  ⟨fun _ hc => (Pilot.handled env e _ (Pilot.reachable_rests hc) _).missesLookup_iff,
    fun _ hc => (Device.handled env e _ (Device.reachable_rests hc) _).missesLookup_iff⟩

def releaseOne : ControlMessage :=
  { command := .releaseChannels, response := .accepted, channelsIndication := [1] }

/-- A device in an operation without channels is told to release channel 1. -/
theorem lookup_missing : ¬ ((∀ c, Pilot.client.Reachable c → ∀ env e,
      missesLookup (Pilot.handleEvent env e c.state c.context) = false) ∧
    ∀ c, Device.client.Reachable c → ∀ env e,
      missesLookup (Device.handleEvent env e c.state c.context) = false) := by
  intro ⟨_, hclaim⟩
  obtain ⟨h, c, hr, hp⟩ := TransitionSystem.exists_run ⟨.disconnected, .initial⟩
    (Client.step Device.handleEvent)
    ([.user .attach, .received { command := .setup, response := .accepted },
      .received { command := .attachChannels, response := .accepted }].map
      (Handling.mk (.permissive fun _ => true)))
    (p := fun _ c => missesLookup (Device.handleEvent (.permissive fun _ => true)
      (.received releaseOne) c.state c.context)) (by decide +kernel)
  rw [hclaim c hr.reachable] at hp
  cases hp

/-- The same device is told to release the channel that it has. -/
theorem lookups_safe_released : ∃ c, Device.client.Reachable c ∧ c.context.channels.keys = [1] ∧
    ∀ env, missesLookup (Device.handleEvent env (.received releaseOne) c.state c.context) =
      false := by
  obtain ⟨h, c, hr, hp⟩ := TransitionSystem.exists_run ⟨.disconnected, .initial⟩
    (Client.step Device.handleEvent)
    ([.user .attach, .received { command := .setup, response := .accepted },
      .received { command := .attachChannels, response := .accepted
                  channelsResponse := [{ id := 1 }] }].map
      (Handling.mk (.permissive fun _ => true)))
    (p := fun _ c => decide (c.state = .connected (.flying [{ id := 1 }]) ∧
      c.context.channels.keys = [1])) (by decide +kernel)
  obtain ⟨hs, hk⟩ := of_decide_eq_true hp
  refine ⟨c, hr.reachable, hk, fun env => ((lookups_safe_iff env _).2 c hr.reachable).mpr ?_⟩
  rw [hs, hk]
  exact fun _ id hid => hid

end FmClient
