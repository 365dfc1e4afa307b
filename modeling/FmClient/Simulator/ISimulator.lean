import FmClient.Backend.Reported

/-! `ISimulator`, the listener of the client simulators: the map of the channels on which its
traffic thread sends, as the handlers of a client keep it. -/
namespace FmClient
open Lib

structure ISimulator where
  channels : KeyedList IChannel.id
  /-- The channels with a `ChannelListener`. -/
  listeners : List IChannel
  /-- Whether `trafficThread` is joinable. -/
  trafficThread : Bool

namespace ISimulator

def initial : ISimulator := ⟨.empty, [], false⟩

/-- `channels.insert`: an entry under the same id stays. -/
def insert (m : KeyedList IChannel.id) (c : IChannel) : KeyedList IChannel.id :=
  if h : c.id ∈ m.keys then m else m.insertNew c h

def addChannel (s : ISimulator) (c : IChannel) : ISimulator :=
  { s with channels := insert s.channels c, listeners := s.listeners ++ [c] }

/-- Where there was no channel a thread is started. To assign it to one that is joinable is
`std::terminate`: `none`. -/
def addChannels (s : ISimulator) (channels : List IChannel) : Option ISimulator :=
  let t := channels.foldl addChannel s
  if s.channels.entries.isEmpty then
    if s.trafficThread then none else some { t with trafficThread := true }
  else some t

/-- `ChannelListener::onClosed` -/
def onClosed (s : ISimulator) (channel : IChannel) : ISimulator :=
  { s with channels := s.channels.erase channel.id }

/-- `onEvent` before `handleEvent` -/
def onEvent (s : ISimulator) : FacadeEvent → Option ISimulator
  | .channelsOpened channels => s.addChannels channels
  | _ => some s

/-- What the simulator makes of an effect. `ChannelImpl::onClosed` calls the listener that is
set, if any. -/
def observe (s : ISimulator) : Effect → Option ISimulator
  | .event event => s.onEvent event
  | .closed channel => some (if channel ∈ s.listeners then s.onClosed channel else s)
  | _ => some s

/-- What `trafficSimulator` does under the lock: the channels it sends on, or its end. -/
def trafficRound (s : ISimulator) : Option (List IChannel) :=
  if s.channels.entries.isEmpty then none else some s.channels.entries

end ISimulator

/-- The simulator after the effects of its client, unless the program was terminated. -/
def simulate (t : List Effect) : Option ISimulator := t.foldlM ISimulator.observe .initial

def Sendable (t : List Effect) : Prop :=
  ∀ s, simulate t = some s → ∀ p ∈ s.channels, p ∈ present t

/-- The simulator holds these channels, each with a listener. -/
def Holds (ps : List IChannel) (t : List Effect) : Prop :=
  ∀ s, simulate t = some s → (∀ p, p ∈ s.channels ↔ p ∈ ps) ∧ ∀ p ∈ s.channels, p ∈ s.listeners

namespace ISimulator
variable {s u : ISimulator} {e : Effect} {p c : IChannel}

def notices : Effect → Bool
  | .event (.channelsOpened _) | .closed _ => true
  | _ => false

theorem observe_of_not (he : notices e = false) (s : ISimulator) : s.observe e = some s := by
  unfold observe
  split
  · unfold onEvent
    split <;> simp_all [notices]
  · simp [notices] at he
  · rfl

@[simp] theorem addChannel_listeners : (s.addChannel c).listeners = s.listeners ++ [c] := rfl

theorem mem_insert {m : KeyedList IChannel.id} (hunique : ∀ q ∈ m, q.id = c.id → q = c) :
    p ∈ insert m c ↔ p ∈ m ∨ p = c := by
  unfold insert
  split
  · rename_i h
    obtain ⟨q, hq, hid⟩ := KeyedList.mem_keys.mp h
    have hc : c ∈ m := hunique q hq hid ▸ hq
    exact ⟨.inl, fun h => h.elim (fun h => h) fun h => h ▸ hc⟩
  · exact KeyedList.mem_insertNew

theorem mem_addChannel_foldl {ps : List IChannel} (hunique : ∀ p ∈ ps, ∀ q, q ∈ s.channels ∨
    q ∈ ps → q.id = p.id → q = p) :
    p ∈ (ps.foldl addChannel s).channels ↔ p ∈ s.channels ∨ p ∈ ps := by
  induction ps generalizing s with
  | nil => simp
  | cons c ps ih =>
    obtain ⟨hc, hps⟩ := List.forall_mem_cons.mp hunique
    have hinsert {q : IChannel} : q ∈ (s.addChannel c).channels ↔ q ∈ s.channels ∨ q = c :=
      mem_insert fun q hq => hc q (.inl hq)
    rw [List.foldl_cons, ih, hinsert, List.mem_cons, or_assoc]
    intro p hp q hq
    refine hps p hp q ?_
    rw [hinsert] at hq
    simpa [or_assoc] using hq

theorem mem_listeners_foldl {ps : List IChannel} :
    p ∈ (ps.foldl addChannel s).listeners ↔ p ∈ s.listeners ∨ p ∈ ps := by
  induction ps generalizing s with
  | nil => simp
  | cons c ps ih => simp [ih, or_assoc]

theorem foldl_trafficThread {ps : List IChannel} :
    (ps.foldl addChannel s).trafficThread = s.trafficThread := by
  induction ps generalizing s with
  | nil => rfl
  | cons c ps ih => exact ih

theorem addChannels_eq_some {ps : List IChannel} (h : s.addChannels ps = some u) :
    u.channels = (ps.foldl addChannel s).channels ∧
      u.listeners = (ps.foldl addChannel s).listeners := by
  simp only [addChannels] at h
  split at h
  · split at h <;> cases h
    exact ⟨rfl, rfl⟩
  · cases h
    exact ⟨rfl, rfl⟩

theorem addChannels_eq_none {ps : List IChannel} (h : s.addChannels ps = none) :
    s.trafficThread = true := by
  simp only [addChannels] at h
  split at h
  · split at h
    · assumption
    · cases h
  · cases h

end ISimulator

section
variable {t es : List Effect} {e : Effect} {s : ISimulator} {p : IChannel} {ps qs : List IChannel}
open ISimulator

theorem simulate_concat : simulate (t ++ [e]) = (simulate t).bind (·.observe e) := by
  simp [simulate, List.foldlM_append]

theorem simulate_append (hes : ∀ e ∈ es, notices e = false) : simulate (t ++ es) = simulate t := by
  induction es generalizing t with
  | nil => rw [List.append_nil]
  | cons e es ih =>
    obtain ⟨he, hes⟩ := List.forall_mem_cons.mp hes
    rw [List.append_cons, ih hes, simulate_concat, funext (observe_of_not he), Option.bind_fun_some]

theorem Holds.append (h : Holds ps t) (hes : ∀ e ∈ es, notices e = false) :
    Holds ps (t ++ es) := by
  rw [Holds, simulate_append hes]
  exact h

theorem Holds.sendable (h : Holds ps t) (hps : ∀ p ∈ ps, p ∈ present t) : Sendable t :=
  fun s hs p hp => hps p (((h s hs).1 p).mp hp)

theorem Holds.opened (h : Holds ps t) (hunique : ∀ p ∈ qs, ∀ q, q ∈ ps ∨ q ∈ qs → q.id = p.id →
    q = p) : Holds (ps ++ qs) (t ++ [.event (.channelsOpened qs)]) := by
  intro s hs
  rw [simulate_concat, Option.bind_eq_some_iff] at hs
  obtain ⟨u, hu, hadd⟩ := hs
  obtain ⟨hchannels, hlisteners⟩ := addChannels_eq_some hadd
  obtain ⟨hmem, hlistens⟩ := h u hu
  have hheld (p : IChannel) : p ∈ s.channels ↔ p ∈ ps ∨ p ∈ qs := by
    rw [hchannels, mem_addChannel_foldl, hmem]
    intro p hp q hq
    rw [hmem] at hq
    exact hunique p hp q hq
  refine ⟨fun p => by rw [hheld, List.mem_append], fun p hp => ?_⟩
  rw [hlisteners, mem_listeners_foldl]
  rw [hheld, ← hmem] at hp
  exact hp.imp_left (hlistens p)

def Effect.isClosing : Effect → Bool
  | .logged _ | .closed _ | .erased _ => true
  | _ => false

theorem Holds.congr (h : Holds ps t) (hps : ∀ p, p ∈ ps ↔ p ∈ qs) : Holds qs t := fun s hs =>
  ⟨fun p => ((h s hs).1 p).trans (hps p), (h s hs).2⟩

theorem Holds.closed {c : IChannel} (h : Holds ps t) (hunique : ∀ q ∈ ps, q.id = c.id → q = c) :
    Holds (ps.filter (· ≠ c)) (t ++ [.closed c]) := by
  intro s hs
  rw [simulate_concat, Option.bind_eq_some_iff] at hs
  obtain ⟨u, hu, hclosed⟩ := hs
  obtain ⟨hmem, hlistens⟩ := h u hu
  simp only [observe, Option.some.injEq] at hclosed
  split at hclosed <;> subst hclosed
  · have hheld (p : IChannel) : p ∈ (u.onClosed c).channels ↔ p ∈ ps ∧ p ≠ c := by
      rw [onClosed, KeyedList.mem_erase, hmem]
      exact and_congr_right fun hp => not_congr ⟨hunique p hp, congrArg IChannel.id⟩
    refine ⟨fun p => by simp [hheld], fun p hp => hlistens p ?_⟩
    exact (hmem p).mpr ((hheld p).mp hp).1
  · -- without a listener it was not held
    rename_i hnot
    refine ⟨fun p => ?_, hlistens⟩
    rw [hmem, List.mem_filter, decide_eq_true_iff]
    refine ⟨fun hp => ⟨hp, ?_⟩, And.left⟩
    rintro rfl
    exact hnot (hlistens p ((hmem p).mpr hp))

theorem Holds.closing (h : Holds ps t) (hes : ∀ e ∈ es, e.isClosing = true)
    (hunique : ∀ p, .closed p ∈ es → ∀ q ∈ ps, q.id = p.id → q = p) :
    Holds (ps.filter fun p => .closed p ∉ es) (t ++ es) := by
  induction es using List.reverseRecOn with
  | nil => simpa using h
  | append_singleton es e ih =>
    obtain ⟨hes, he⟩ := List.forall_mem_append.mp hes
    have hbefore := ih hes fun p hp => hunique p (by simp [hp])
    rw [← List.append_assoc]
    by_cases hclosed : ∃ c, e = .closed c
    · obtain ⟨c, rfl⟩ := hclosed
      have hc : ∀ q ∈ ps.filter fun p => .closed p ∉ es, q.id = c.id → q = c := fun q hq =>
        hunique c (by simp) q (List.mem_filter.mp hq).1
      exact (hbefore.closed hc).congr (by simp [and_comm])
    · have hnotice : ∀ x ∈ [e], notices x = false := by
        have he' := he e (List.mem_singleton_self e)
        cases e <;> simp_all [notices, Effect.isClosing]
      refine (hbefore.append hnotice).congr fun p => ?_
      have hne : Effect.closed p ≠ e := fun heq => hclosed ⟨p, heq.symm⟩
      simp [hne]

theorem mem_present_append (hp : p ∈ present t) (hes : .erased p ∉ es) : p ∈ present (t ++ es) := by
  induction es using List.reverseRecOn with
  | nil => rwa [List.append_nil]
  | append_singleton es e ih =>
    simp only [List.mem_append, List.mem_singleton, not_or] at hes
    rw [← List.append_assoc, present_concat]
    exact mem_exist (ih hes.1) (Ne.symm hes.2)

def ClosedBefore (u : List Effect) (e : Effect) : Prop := ∀ p, e = .erased p → .closed p ∈ u

theorem ClosedBefore.after {u : List Effect} (h : ClosedBefore u e) (t : List Effect) :
    ClosedBefore (t ++ u) e := fun p he => List.mem_append_right t (h p he)

/-- What closes channels: each is closed before it is erased. -/
structure Closing (ps : List IChannel) (es : List Effect) : Prop where
  effects : ∀ e ∈ es, e.isClosing = true
  closed : ∀ p, .closed p ∈ es ↔ p ∈ ps
  erased : Each ClosedBefore es

theorem Closing.prior (h : Closing qs es) {u : List Effect} (hu : u <+: es)
    (hp : .erased p ∈ u) : .closed p ∈ u := by
  obtain ⟨x, y, rfl⟩ := List.append_of_mem hp
  have hx : x ++ [.erased p] <+: es := by
    refine List.IsPrefix.trans ⟨y, ?_⟩ hu
    simp
  exact List.mem_append_left _ (h.erased x _ hx p rfl)

theorem Closing.sendable (h : Closing qs es) (ht : Always Sendable t) (hheld : Holds ps t)
    (hps : ∀ p ∈ ps, p ∈ present t) (hunique : ∀ p ∈ qs, ∀ q ∈ ps, q.id = p.id → q = p) :
    Always Sendable (t ++ es) := by
  refine always_append ht fun u hu => ?_
  have hmem : ∀ e ∈ u, e ∈ es := fun e he => hu.subset he
  have hu' : Holds (ps.filter fun p => .closed p ∉ u) (t ++ u) :=
    hheld.closing (fun e he => h.effects e (hmem e he)) fun p hp =>
      hunique p ((h.closed p).mp (hmem _ hp))
  refine hu'.sendable fun p hp => ?_
  obtain ⟨hp, hnot⟩ := List.mem_filter.mp hp
  exact mem_present_append (hps p hp) fun herased => of_decide_eq_true hnot (h.prior hu herased)

end

/-! ### Traffic threads -/

/-- The reported channels, and how often some were opened while there were none. -/
def countFirst (a : List IChannel × ℕ) (e : Effect) : List IChannel × ℕ :=
  (report a.1 e, match e with
    | .event (.channelsOpened _) => if a.1.isEmpty then a.2 + 1 else a.2
    | _ => a.2)

/-- How often channels were opened while none was reported. -/
def firstOpenings (t : List Effect) : ℕ := (t.foldl countFirst ([], 0)).2

def Effect.isOpening : Effect → Bool
  | .event (.channelsOpened _) => true
  | _ => false

/-- The first opening of that kind starts the traffic thread, the second one terminates the
program. -/
structure Threads (t : List Effect) : Prop where
  terminated : simulate t = none ↔ 2 ≤ firstOpenings t
  joinable : ∀ s, simulate t = some s → (s.trafficThread = true ↔ 0 < firstOpenings t)

section
variable {t es : List Effect} {e : Effect} {ps : List IChannel}
open ISimulator

theorem countFirst_fst : (t.foldl countFirst ([], 0)).1 = reported t := by
  induction t using List.reverseRecOn with
  | nil => rfl
  | append_singleton t e ih =>
    rw [List.foldl_append, reported_concat, ← ih]
    rfl

theorem firstOpenings_opened : firstOpenings (t ++ [.event (.channelsOpened ps)]) =
    if (reported t).isEmpty then firstOpenings t + 1 else firstOpenings t := by
  simp only [firstOpenings, List.foldl_append, List.foldl_cons, List.foldl_nil, countFirst,
    countFirst_fst]

theorem firstOpenings_concat (he : e.isOpening = false) :
    firstOpenings (t ++ [e]) = firstOpenings t := by
  simp only [firstOpenings, List.foldl_append, List.foldl_cons, List.foldl_nil, countFirst]
  split
  · cases he
  · rfl

theorem observe_of_not_opening (he : e.isOpening = false) (s : ISimulator) :
    ∃ u, s.observe e = some u ∧ u.trafficThread = s.trafficThread := by
  unfold observe
  split
  · refine ⟨s, ?_, rfl⟩
    unfold onEvent
    split
    · cases he
    · rfl
  · split <;> exact ⟨_, rfl, rfl⟩
  · exact ⟨s, rfl, rfl⟩

theorem Threads.initial : Threads [] where
  terminated := by simp [simulate, firstOpenings]
  joinable s hs := by
    cases hs
    simp [ISimulator.initial, firstOpenings]

theorem Threads.append (h : Threads t) (hes : ∀ e ∈ es, e.isOpening = false) :
    Threads (t ++ es) := by
  induction es using List.reverseRecOn with
  | nil => rwa [List.append_nil]
  | append_singleton es e ih =>
    obtain ⟨hes, he⟩ := List.forall_mem_append.mp hes
    obtain ⟨hterminated, hjoinable⟩ := ih hes
    have he := he e (List.mem_singleton_self e)
    rw [← List.append_assoc]
    cases hs : simulate (t ++ es) with
    | none =>
      refine ⟨?_, ?_⟩ <;> rw [simulate_concat, hs, firstOpenings_concat he]
      · simpa using hterminated.mp hs
      · simp
    | some s =>
      obtain ⟨u, hu, hthread⟩ := observe_of_not_opening he s
      refine ⟨?_, ?_⟩ <;> rw [simulate_concat, hs, firstOpenings_concat he, Option.bind_some, hu]
      · rw [← hterminated, hs]
        simp
      · rintro _ ⟨⟩
        rw [hthread]
        exact hjoinable s hs

theorem Threads.opened (h : Threads t) (hheld : Holds (reported t) t) :
    Threads (t ++ [.event (.channelsOpened ps)]) := by
  cases hs : simulate t with
  | none =>
    have hmany := h.terminated.mp hs
    refine ⟨?_, ?_⟩ <;> rw [simulate_concat, hs, firstOpenings_opened]
    · simp only [Option.bind_none, true_iff]
      split <;> omega
    · simp
  | some s =>
    have hempty : s.channels.entries.isEmpty = (reported t).isEmpty := by
      rw [Bool.eq_iff_iff, List.isEmpty_iff, List.isEmpty_iff, List.eq_nil_iff_forall_not_mem,
        List.eq_nil_iff_forall_not_mem]
      exact forall_congr' fun p => not_congr ((hheld s hs).1 p)
    have hthread := h.joinable s hs
    have hfew : ¬ 2 ≤ firstOpenings t := by simp [← h.terminated, hs]
    constructor <;> rw [simulate_concat, hs, firstOpenings_opened, Option.bind_some, observe,
      onEvent, addChannels, hempty] <;> cases hr : (reported t).isEmpty
    case terminated.false => simpa using hfew
    case joinable.false =>
      rintro _ ⟨⟩
      rw [foldl_trafficThread]
      exact hthread
    case terminated.true =>
      cases hj : s.trafficThread with
      | true =>
        have hone := hthread.mp hj
        simp only [if_true, true_iff]
        omega
      | false =>
        have hnone : ¬ 0 < firstOpenings t := fun h => by simp [hthread.mpr h] at hj
        simp only [Bool.false_eq_true, if_true, if_false, reduceCtorEq, false_iff]
        omega
    case joinable.true =>
      intro u hu
      cases hj : s.trafficThread <;> simp only [hj, Bool.false_eq_true, if_true, if_false,
        Option.some.injEq, reduceCtorEq] at hu
      subst hu
      simp

end
end FmClient
