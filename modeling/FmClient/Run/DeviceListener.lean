import FmClient.Lib.History
import FmClient.Lib.PrefixLanguage
import FmClient.State.DeviceSpec

/-! The protocol between a device and its listener: the events delivered in any run are
a prefix of a word of a regular language. -/
namespace FmClient.Device
open Lib Handler ChannelsHandler Computability

/-! ### The language -/

def flight : Language FacadeEvent.Kind :=
  symbol .channelsOpened * (symbol .channelsOpened + symbol .channelsClosing)∗

def operation : Language FacadeEvent.Kind :=
  flight * (symbol .channelsClosing * symbol .operationEnded)

def attachment : Language FacadeEvent.Kind := symbol .attached * operation∗

/-- Everything from a connect, or an attempt at it, to the end. -/
def session : Language FacadeEvent.Kind :=
  symbol .error + symbol .error * symbol .released + attachment * symbol .released

/-- What has been delivered by the time a state is at rest. -/
def phase : State → Language FacadeEvent.Kind
  | .disconnected | .connecting | .disconnecting => session∗
  | .connected s =>
    match s with
    | .flying _ => session∗ * attachment * flight
    | .ready | .releasing | .released => session∗ * attachment

section
variable {x y : List FacadeEvent.Kind}

theorem append_session (hx : x ∈ session∗) (hy : y ∈ session) : x ++ y ∈ session∗ :=
  append_mem_of_le kstar_mul_le_kstar hx hy

theorem append_released (hx : x ∈ session∗ * attachment) : x ++ [.released] ∈ session∗ := by
  obtain ⟨a, ha, b, hb, rfl⟩ := hx
  rw [List.append_assoc]
  exact append_session ha (.inr (Language.append_mem_mul hb rfl))

theorem append_end (hx : x ∈ session∗ * attachment * flight) :
    x ++ [.channelsClosing, .operationEnded] ∈ session∗ * attachment := by
  obtain ⟨_, ⟨a, ha, _, ⟨b, hb, c, hc, rfl⟩, rfl⟩, d, hd, rfl⟩ := hx
  have hword : d ++ [.channelsClosing, .operationEnded] ∈ operation :=
    Language.append_mem_mul hd ⟨[_], rfl, [_], rfl, rfl⟩
  have hmore : b ++ (c ++ (d ++ [.channelsClosing, .operationEnded])) ∈ attachment :=
    Language.append_mem_mul hb (append_mem_of_le kstar_mul_le_kstar hc hword)
  simpa using Language.append_mem_mul ha hmore

theorem append_channels (hx : x ∈ session∗ * attachment * flight)
    (hy : y ∈ symbol .channelsOpened + symbol .channelsClosing) :
    x ++ y ∈ session∗ * attachment * flight := by
  obtain ⟨a, ha, b, hb, rfl⟩ := hx
  rw [List.append_assoc]
  exact Language.append_mem_mul ha (append_star hb hy)

theorem mem_prefixes_of_phase (s : State) (x : List FacadeEvent.Kind) (hx : x ∈ phase s) :
    x ∈ prefixes session∗ :=
  match s, hx with
  | .disconnected, hx | .connecting, hx | .disconnecting, hx => ⟨x, hx, List.prefix_rfl⟩
  | .connected s, hx =>
    match s, hx with
    | .ready, hx | .releasing, hx | .released, hx => mem_prefixes_of_append (append_released hx)
    | .flying _, hx =>
      mem_prefixes_of_append (List.append_assoc x _ _ ▸ append_released (append_end hx))

end

/-! ### What each event adds -/

section
variable {env : Environment} {s t : State} {e : InputEvent} {w v : Context}

theorem Handled.phase (h : Handled env w s e (.ok t v)) (hx : heard w ∈ phase s) :
    heard v ∈ phase t := by
  cases h with
  | unexpected hs =>
    rw [heard.seen_silent rfl]
    exact hx
  | defaulted hs =>
    rw [heard.seen_silent (heard.see_defaultEffect (fun _ _ => rfl) _ _ _)]
    exact hx
  | attachRefused ha | dialFailed ha hf =>
    rw [Observer.seen_emit]
    exact append_session hx (.inl (.inl rfl))
  | attachStarted ha hf | release =>
    rw [heard.seen_silent rfl]
    exact hx
  | setupAccepted hc hr =>
    rw [Observer.seen_emit]
    exact Language.append_mem_mul hx (mem_mul_star rfl)
  | setupRejected hc hr hd =>
    cases hd
    rw [Observer.seen_emit, Observer.seen_withReader, Observer.seen_emit, List.append_assoc]
    exact append_session hx (.inl (.inr ⟨[_], rfl, [_], rfl, rfl⟩))
  | attached hs hc hv =>
    rw [Observer.seen_emit, heard.seen_validated hv]
    obtain ⟨rfl, -⟩ | rfl := hs
    · exact Language.append_mem_mul hx (mem_mul_star rfl)
    · exact append_channels hx (.inl rfl)
  | releaseChannels hc hf hcl =>
    have hword := append_channels hx (.inr rfl)
    simpa [Device.phase, heard.see_channel hcl.channel, FacadeEvent.getType] using hword
  | operationEnded hc =>
    rw [seen_endedContext]
    exact append_end hx
  | released hc hr hd =>
    cases hd
    rw [Observer.seen_emit, Observer.seen_withReader]
    exact append_released hx

/-! ### What follows for the listener -/

def InOperation : List FacadeEvent.Kind → Prop := Since (· = .channelsOpened) (· = .operationEnded)

def InSession : List FacadeEvent.Kind → Prop := Since (· = .attached) (· = .released)

/-- An event in its place: no release within an operation, no channels outside a session. -/
def InPlace (before : List FacadeEvent.Kind) (k : FacadeEvent.Kind) : Prop :=
  (k = .released → ¬ InOperation before) ∧
    (k = .channelsOpened ∨ k = .channelsClosing → InSession before)

variable {x : List FacadeEvent.Kind} {k : FacadeEvent.Kind}

theorem inOperation_concat : InOperation (x ++ [k]) ↔
    k = .channelsOpened ∨ InOperation x ∧ k ≠ .operationEnded := since_concat

theorem inSession_concat : InSession (x ++ [k]) ↔ k = .attached ∨ InSession x ∧ k ≠ .released :=
  since_concat

structure Orderly (s : State) (x : List FacadeEvent.Kind) : Prop where
  each : Each InPlace x
  operation : InOperation x → ∃ channels, s = .connected (.flying channels)
  session : (∃ s', s = .connected s') → InSession x

theorem Orderly.channels {chs : List ChannelResponse} (ho : Orderly s x)
    (hs : ∃ s', s = .connected s') (hk : k = .channelsOpened ∨ k = .channelsClosing) :
    Orderly (.connected (.flying chs)) (x ++ [k]) := by
  have hsession := ho.session hs
  have hne : k ≠ .released := by
    intro heq
    subst heq
    simp at hk
  exact ⟨each_concat.mpr ⟨ho.each, fun h => absurd h hne, fun _ => hsession⟩,
    fun _ => ⟨chs, rfl⟩, fun _ => inSession_concat.mpr (.inr ⟨hsession, hne⟩)⟩

theorem Orderly.released (ho : Orderly s x) (hs : ∀ chs, s ≠ .connected (.flying chs)) :
    Orderly .disconnected (x ++ [.released]) := by
  have hop : ¬ InOperation x := fun h => (ho.operation h).elim hs
  exact ⟨each_concat.mpr ⟨ho.each, fun _ => hop, by simp⟩,
    by simp [inOperation_concat, hop], by simp⟩

theorem Handled.orderly (h : Handled env w s e (.ok t v)) (ho : Orderly s (heard w)) :
    Orderly t (heard v) := by
  have hop (hs : ∀ chs, s ≠ .connected (.flying chs)) : ¬ InOperation (heard w) :=
    fun h => (ho.operation h).elim hs
  have herror (hs : ∀ chs, s ≠ .connected (.flying chs)) (t : State)
      (ht : ∀ t', t ≠ .connected t') : Orderly t (heard w ++ [.error]) :=
    ⟨each_concat.mpr ⟨ho.each, by simp [InPlace]⟩, by simp [inOperation_concat, hop hs],
      by simp [ht]⟩
  cases h with
  | unexpected hs =>
    rw [heard.seen_silent rfl]
    exact ho
  | defaulted hs =>
    rw [heard.seen_silent (heard.see_defaultEffect (fun _ _ => rfl) _ _ _)]
    exact ho
  | attachRefused ha | dialFailed ha hf =>
    rw [Observer.seen_emit]
    exact herror (by simp) _ (by simp)
  | attachStarted ha hf =>
    rw [heard.seen_silent rfl, Observer.seen_withReader]
    exact ⟨ho.each, fun h => absurd h (hop (by simp)), by simp⟩
  | setupAccepted hc hr =>
    rw [Observer.seen_emit]
    exact ⟨each_concat.mpr ⟨ho.each, by simp [InPlace, FacadeEvent.getType]⟩,
      by simp [inOperation_concat, hop, FacadeEvent.getType],
      fun _ => inSession_concat.mpr (.inl rfl)⟩
  | setupRejected hc hr hd =>
    cases hd
    rw [Observer.seen_emit, Observer.seen_withReader, Observer.seen_emit]
    exact (herror (by simp) .connecting (by simp)).released (by simp)
  | release =>
    rw [heard.seen_silent rfl]
    exact ⟨ho.each, fun h => absurd h (hop (by simp)), fun _ => ho.session ⟨_, rfl⟩⟩
  | attached hs hc hv =>
    rw [Observer.seen_emit, heard.seen_validated hv]
    exact ho.channels ⟨_, rfl⟩ (.inl rfl)
  | @releaseChannels chs m ps left es hc hf hcl =>
    have hnext : Orderly (.connected (.flying chs)) (heard w ++ [.channelsClosing]) :=
      ho.channels ⟨_, rfl⟩ (.inr rfl)
    simpa [heard.see_channel hcl.channel, FacadeEvent.getType] using hnext
  | @operationEnded chs m hc =>
    have hnext : Orderly (.connected (.flying chs)) (heard w ++ [.channelsClosing]) :=
      ho.channels ⟨_, rfl⟩ (.inr rfl)
    have hended : ¬ InOperation (heard w ++ [.channelsClosing] ++ [.operationEnded]) := by
      rw [inOperation_concat]
      simp
    have hends : heard (endedContext w) = heard w ++ [.channelsClosing] ++ [.operationEnded] := by
      simp [FacadeEvent.getType]
    rw [hends]
    exact ⟨each_concat.mpr ⟨hnext.each, by simp [InPlace]⟩, fun h => absurd h hended,
      fun _ => inSession_concat.mpr (.inr ⟨hnext.session ⟨_, rfl⟩, by simp⟩)⟩
  | released hc hr hd =>
    cases hd
    rw [Observer.seen_emit, Observer.seen_withReader]
    exact ho.released (by simp)

end

/-- What the listener of a device is given is, at any time of any run, a prefix of a word of
sessions: a failed connect, a rejected setup, or operations while the device is attached. -/
theorem device_listener_protocol {h : List (Transition (Client State) Handling)} {c : Client State}
    (hr : client.Run h c) :
    (∃ word ∈ session∗, (delivered c.context.trace).map FacadeEvent.getType <+: word) ∧
      ∀ before k, before ++ [k] <+: (delivered c.context.trace).map FacadeEvent.getType →
        (k = .released → ¬ InOperation before) ∧
          (k = .channelsOpened ∨ k = .channelsClosing → InSession before) := by
  rw [← heard_eq]
  constructor
  · refine output_mem_prefixes (fun c : Client State => heard c.context) (fun c => phase c.state)
      hr.reachable ?_ ?_ fun c => mem_prefixes_of_phase c.state
    · intro s hs
      cases hs
      exact Language.nil_mem_kstar _
    · intro s a t hs hx ht
      exact (step_handled hs ht).phase hx
  · refine (reachable_invariant (P := fun s w => Orderly s (heard w)) hr.reachable ?_
      Handled.orderly).each
    exact ⟨each_nil, fun h => absurd h not_since_nil, by simp⟩

/-- Two operations, the second with its channel closed before its end. -/
theorem device_listener_protocol_operations : ∃ c, client.Reachable c ∧
    heard c.context = [.attached, .channelsOpened, .channelsClosing, .operationEnded,
      .channelsOpened, .channelsClosing, .channelsClosing, .operationEnded, .released] ∧
    ∃ word ∈ session∗, heard c.context <+: word := by
  obtain ⟨h, c, hr, hp⟩ := TransitionSystem.exists_run ⟨.disconnected, .initial⟩
    (Client.step handleEvent)
    ([.user .attach, .received { command := .setup, response := .accepted },
      .received { command := .attachChannels, response := .accepted
                  channelsResponse := [{ id := 1 }] },
      .received { command := .operationEnded, response := .accepted },
      .received { command := .attachChannels, response := .accepted
                  channelsResponse := [{ id := 1 }, { id := 2 }] },
      .received { command := .releaseChannels, response := .accepted, channelsIndication := [2] },
      .received { command := .operationEnded, response := .accepted }, .user .release,
      .received { command := .release, response := .accepted }].map
      (Handling.mk (.permissive fun _ => true)))
    (p := fun _ c => decide (heard c.context = [.attached, .channelsOpened, .channelsClosing,
      .operationEnded, .channelsOpened, .channelsClosing, .channelsClosing, .operationEnded,
      .released])) (by decide +kernel)
  exact ⟨c, hr.reachable, of_decide_eq_true hp, heard_eq _ ▸ (device_listener_protocol hr).1⟩

end FmClient.Device
