import FmClient.Backend.Tracked
import FmClient.Run.Deferral

/-! Closing channels, from the state being entered to the message that ends it. The ids are
those given on entry; the channels they name are looked up at the end. -/
namespace FmClient
open Lib Handler ChannelsHandler

def Effect.closesNone : Effect → Bool
  | .closed _ | .event (.channelsClosing _) => false
  | _ => true

namespace ChannelsHandler
variable {m left : Channels} {ids : List ℤ} {es : List Effect}

theorem Closes.closed (h : Closes m ids left es) {p : IChannel} (hp : .closed p ∈ es) :
    ∃ c ∈ m, c.id ∈ ids ∧ c.pointer = p := by
  induction h with
  | nil => simp at hp
  | @found m n c ids es hc h ih =>
    have hmem : p = c.pointer ∨ .closed p ∈ es := by simpa using hp
    cases hmem with
    | inl heq => exact ⟨c, hc, List.mem_cons_self, heq.symm⟩
    | inr hmem =>
      obtain ⟨d, hd, hid, hpd⟩ := ih hmem
      exact ⟨d, (KeyedList.mem_erase.mp hd).1, List.mem_cons_of_mem _ hid, hpd⟩
  | missing hid h ih =>
    obtain ⟨d, hd, hmem, hpd⟩ := ih (by simpa using hp)
    exact ⟨d, hd, List.mem_cons_of_mem _ hmem, hpd⟩

theorem Closes.count_closed (h : Closes m ids left es) {c : ChannelImpl} (hc : c ∈ m)
    (hid : c.id ∈ ids) : es.count (.closed c.pointer) = 1 := by
  induction h with
  | nil => simp at hid
  | @found m n d ids es hd h ih =>
    by_cases hcd : c.id = d.id
    · have hsame : c = d := KeyedList.eq_of_key_eq hc hd hcd
      subst hsame
      have hgone : .closed c.pointer ∉ es := by
        intro hp
        obtain ⟨x, hx, -, hxp⟩ := h.closed hp
        exact (KeyedList.mem_erase.mp hx).2 (congrArg IChannel.id hxp)
      simp [List.count_eq_zero_of_not_mem hgone]
    · have hne : ¬ d.pointer = c.pointer := fun hp => hcd (congrArg IChannel.id hp).symm
      have hrest := (List.mem_cons.mp hid).resolve_left hcd
      simpa [hne] using ih (KeyedList.mem_erase.mpr ⟨hc, hcd⟩) hrest
  | @missing m n id ids es hmiss h ih =>
    have hne : c.id ≠ id := fun heq => hmiss (heq ▸ KeyedList.key_mem_keys hc)
    simpa using ih hc ((List.mem_cons.mp hid).resolve_left hne)

theorem Finds.mem_iff {ps : List IChannel} (h : Finds m ids ps) {p : IChannel} :
    p ∈ ps ↔ ∃ c ∈ m, c.id ∈ ids ∧ c.pointer = p := by
  constructor
  · intro hp
    induction h with
    | nil => simp at hp
    | @cons c ids ps hc hs ih =>
      cases List.mem_cons.mp hp with
      | inl heq => exact ⟨c, hc, List.mem_cons_self, heq.symm⟩
      | inr hp =>
        obtain ⟨d, hd, hid, hdp⟩ := ih hp
        exact ⟨d, hd, List.mem_cons_of_mem _ hid, hdp⟩
  · intro hp
    obtain ⟨c, hc, hid, hcp⟩ := hp
    exact hcp ▸ h.mem hc hid

end ChannelsHandler

/-- From `w` to `v` exactly the channels that are `removed` have gone: each was closed once, none
other was, and `CHANNELS_CLOSING` named them before the first was closed. -/
structure Transaction (w : Context) (removed : ChannelImpl → Prop) (v : Context) : Prop where
  left : ∀ x, x ∈ v.channels ↔ x ∈ w.channels ∧ ¬ removed x
  once : ∀ x ∈ w.channels, removed x → v.trace.count (.closed x.pointer) = 1
  others : ∀ p, (∀ x ∈ w.channels, removed x → x.pointer ≠ p) →
    v.trace.count (.closed p) = w.trace.count (.closed p)
  announced : ∃ before rest, v.trace = w.trace ++ before ++ rest ∧
    before.all Effect.closesNone = true ∧
    (rest = [] ∧ (∀ x ∈ w.channels, ¬ removed x) ∨
      ∃ ps after, rest = .event (.channelsClosing ps) :: after ∧
        (∀ qs, .event (.channelsClosing qs) ∉ after) ∧
        ∀ p, p ∈ ps ↔ ∃ x ∈ w.channels, removed x ∧ x.pointer = p)

theorem count_closed_closesNone {es : List Effect} (h : es.all Effect.closesNone = true)
    (p : IChannel) : es.count (.closed p) = 0 :=
  List.count_eq_zero_of_not_mem fun hp => Bool.false_ne_true (List.all_eq_true.mp h _ hp)

theorem Tracked.count_closed {w : Context} (h : Tracked w) {c : ChannelImpl}
    (hc : c ∈ w.channels) : w.trace.count (.closed c.pointer) = 0 :=
  List.count_eq_zero_of_not_mem (h.unclosed _ (pointer_mem_pointers hc))

namespace Transaction
variable {w u v : Context} {removed : ChannelImpl → Prop} {before : List Effect}

theorem none (hm : v.channels = w.channels) (ht : v.trace = w.trace ++ before)
    (hb : before.all Effect.closesNone = true) (hr : ∀ x ∈ w.channels, ¬ removed x) :
    Transaction w removed v where
  left := by
    intro x
    rw [hm]
    exact ⟨fun hx => ⟨hx, hr x hx⟩, fun hx => hx.1⟩
  once := fun x hx hrem => absurd hrem (hr x hx)
  others := by
    intro p _
    rw [ht, List.count_append, count_closed_closesNone hb, Nat.add_zero]
  announced := ⟨before, [], by simp [ht], hb, .inl ⟨rfl, hr⟩⟩

theorem announce {ps : List IChannel} {after : List Effect} (h : Tracked w)
    (ht : v.trace = w.trace ++ .event (.channelsClosing ps) :: after)
    (hleft : ∀ x, x ∈ v.channels ↔ x ∈ w.channels ∧ ¬ removed x)
    (honce : ∀ x ∈ w.channels, removed x → after.count (.closed x.pointer) = 1)
    (hothers : ∀ p, .closed p ∈ after → ∃ x ∈ w.channels, removed x ∧ x.pointer = p)
    (hevents : ∀ qs, .event (.channelsClosing qs) ∉ after)
    (hps : ∀ p, p ∈ ps ↔ ∃ x ∈ w.channels, removed x ∧ x.pointer = p) :
    Transaction w removed v where
  left := hleft
  once := by
    intro x hx hrem
    rw [ht, List.count_append, h.count_closed hx, List.count_cons, honce x hx hrem]
    simp
  others := by
    intro p hp
    have hnone : .closed p ∉ after := by
      intro hmem
      obtain ⟨x, hx, hrem, hxp⟩ := hothers p hmem
      exact hp x hx hrem hxp
    rw [ht, List.count_append, List.count_cons, List.count_eq_zero_of_not_mem hnone]
    simp
  announced := ⟨[], _, by simp [ht], rfl, .inr ⟨ps, after, rfl, hevents, hps⟩⟩

theorem preceded (h : Transaction u removed v) (hm : u.channels = w.channels)
    (ht : u.trace = w.trace ++ before) (hb : before.all Effect.closesNone = true) :
    Transaction w removed v where
  left := hm ▸ h.left
  once := hm ▸ h.once
  others := by
    intro p hp
    rw [h.others p (hm ▸ hp), ht, List.count_append, count_closed_closesNone hb, Nat.add_zero]
  announced := by
    obtain ⟨more, rest, htrace, hmore, hrest⟩ := h.announced
    refine ⟨before ++ more, rest, ?_, ?_, hm ▸ hrest⟩
    · rw [htrace, ht, List.append_assoc w.trace]
    · rw [List.all_append, hb, hmore, Bool.and_self]

theorem followed (h : Transaction w removed u) (after : List Effect)
    (hm : v.channels = u.channels) (ht : v.trace = u.trace ++ after)
    (hafter : after.all Effect.closesNone = true) : Transaction w removed v where
  left := hm ▸ h.left
  once := by
    intro x hx hrem
    rw [ht, List.count_append, h.once x hx hrem, count_closed_closesNone hafter]
  others := by
    intro p hp
    rw [ht, List.count_append, h.others p hp, count_closed_closesNone hafter, Nat.add_zero]
  announced := by
    obtain ⟨before, rest, htrace, hbefore, hrest⟩ := h.announced
    cases hrest with
    | inl hnone =>
      refine ⟨before ++ after, [], ?_, ?_, .inl ⟨rfl, hnone.2⟩⟩
      · simp [ht, htrace, hnone.1]
      · rw [List.all_append, hbefore, hafter, Bool.and_self]
    | inr hsome =>
      obtain ⟨ps, more, hrest, hevents, hps⟩ := hsome
      refine ⟨before, _, ?_, hbefore, .inr ⟨ps, more ++ after, rfl, ?_, hps⟩⟩
      · simp [ht, htrace, hrest]
      · intro qs hqs
        cases List.mem_append.mp hqs with
        | inl hmore => exact hevents qs hmore
        | inr hqs => exact Bool.false_ne_true (List.all_eq_true.mp hafter _ hqs)

end Transaction

theorem Context.recalls_closesNone (w : Context) : w.recalls.all Effect.closesNone = true := by
  unfold recalls
  cases w.deferred <;> rfl

theorem Transaction.recalled {w v : Context} {removed : ChannelImpl → Prop}
    (h : Transaction w removed v) : Transaction w removed v.recalled :=
  h.followed _ rfl v.recalled_trace v.recalls_closesNone

namespace Pilot

def State.closes : State → Bool
  | .connected (.closingChannels _) => true
  | _ => false

/-- The messages that end `ClosingChannels`. -/
def endsClosing : InputEvent → Bool
  | .connection (.received m) => m.command = .removeChannels ∨ m.command = .release
  | _ => false

/-- The channels that such a message removes: all of them, those asked for, or none. -/
def removed (ids : List ℤ) (e : InputEvent) (x : ChannelImpl) : Prop :=
  match e with
  | .connection (.received m) => m.command = .release ∨ m.response = .accepted ∧ x.id ∈ ids
  | _ => False

def Waited (c d : Client State) : Prop :=
  d.state = c.state ∧ d.context.channels = c.context.channels ∧
    ∃ es, d.context.trace = c.context.trace ++ es ∧ es.all Effect.closesNone = true

/-- From `c` on the client has waited, and from `d` it waits on until a message ends it: then
that message's channels are removed. -/
structure ClosingAs (c : Client State) (ids : List ℤ) (d : Client State) : Prop where
  waited : Waited c d
  waits : ∀ env e, endsClosing e = false →
    ∃ v, handleEvent env e d.state d.context = .ok d.state v ∧ Waited c ⟨d.state, v⟩
  ends : ∀ env e, endsClosing e = true →
    Transaction c.context (removed ids e) (contextOf (handleEvent env e d.state d.context)) ∧
      ∀ t v, handleEvent env e d.state d.context = .ok t v → t.closes = false

section
variable {c d u : Client State} {env : Environment} {e : InputEvent} {w : Context}
  {ids : List ℤ} {r : EStateM.Result Fault Context State}

theorem Waited.refl (c : Client State) : Waited c c :=
  ⟨rfl, rfl, [], (List.append_nil _).symm, rfl⟩

theorem Waited.trans (h : Waited c d) (h' : Waited d u) : Waited c u := by
  obtain ⟨hs, hm, es, ht, hes⟩ := h
  obtain ⟨hs', hm', fs, ht', hfs⟩ := h'
  refine ⟨hs'.trans hs, hm'.trans hm, es ++ fs, ?_, ?_⟩
  · rw [ht', ht, List.append_assoc]
  · rw [List.all_append, hes, hfs, Bool.and_self]

theorem defaultEffect_closesNone (env : Environment) (m : ControlMessage) (state : String) :
    (defaultEffect env m state).closesNone = true := by
  unfold defaultEffect
  split <;> rfl

theorem serves_of_ends {s : State} (hs : s.closes = true) (he : endsClosing e = true) :
    s.serves e = true := by
  unfold State.closes at hs
  unfold endsClosing at he
  split at hs
  · split at he
    · exact he
    · cases he
  · cases hs

theorem Handled.waits (h : Handled env w (.connected (.closingChannels ids)) e r)
    (he : endsClosing e = false) :
    ∃ v, r = .ok (.connected (.closingChannels ids)) v ∧
      Waited ⟨.connected (.closingChannels ids), w⟩ ⟨.connected (.closingChannels ids), v⟩ := by
  cases h with
  | unexpected hs => exact ⟨_, rfl, rfl, rfl, _, rfl, rfl⟩
  | @defaulted _ m hs =>
    exact ⟨_, rfl, rfl, rfl, _, rfl, by simp [defaultEffect_closesNone]⟩
  | release hs hc hd | removeAccepted hc hr hf hcl | removeMissing hc hr hm hid
  | removeRejected hc hr => simp [endsClosing, hc] at he

theorem disconnects_closesNone {v : Context} (h : Disconnects env .disconnected v r) :
    (contextOf r).channels = v.channels ∧ ∃ es, (contextOf r).trace = v.trace ++ es ∧
      es.all Effect.closesNone = true := by
  cases h with
  | closed hf => exact ⟨rfl, _, rfl, rfl⟩
  | failed hf => exact ⟨rfl, _, rfl, rfl⟩

theorem Handled.closes (h : Handled env w (.connected (.closingChannels ids)) e r)
    (he : endsClosing e = true) (hw : Tracked w) (hids : ∀ id ∈ ids, id ∈ w.channels.keys) :
    Transaction w (removed ids e) (contextOf r) := by
  cases h with
  | unexpected hs | defaulted hs =>
    rw [serves_of_ends rfl he] at hs
    cases hs
  | @release _ m _ hs hc hd =>
    have hall : ∀ x, removed ids (.received m) x := fun x => .inl hc
    obtain ⟨hm, es, ht, hes⟩ := disconnects_closesNone hd
    have hclosed : Transaction w (removed ids (.received m)) ((w.withChannels .empty).emit
        (.event (.channelsClosing (pointers w.channels)) :: closeAllEffects w.channels)) := by
      refine .announce hw rfl ?_ ?_ ?_ ?_ ?_
      · intro x
        simp [hall]
      · intro x hx _
        exact count_closeAllEffects (pointer_mem_pointers hx)
      · intro p hp
        obtain ⟨x, hx, hxp⟩ := mem_pointers.mp (closed_mem_closeAllEffects.mp hp)
        exact ⟨x, hx, hall x, hxp⟩
      · simp [closeAllEffects]
      · intro p
        simp [mem_pointers, hall]
    refine hclosed.followed (.sent { command := .release, response := some .accepted } :: es)
      hm ?_ hes
    simp [ht, releaseContext]
  | @removeAccepted _ m ps left es hc hr hf hcl =>
    have hiff : ∀ x, removed ids (.received m) x ↔ x.id ∈ ids := by
      intro x
      simp [removed, hc, hr]
    have hclosed : Transaction w (removed ids (.received m)) ((w.withChannels left).emit
        (.event (.channelsClosing ps) :: es)) := by
      refine .announce hw rfl ?_ ?_ ?_ ?_ ?_
      · intro x
        rw [hiff]
        exact hcl.mem_iff
      · intro x hx hrem
        exact hcl.count_closed hx ((hiff x).mp hrem)
      · intro p hp
        simpa only [hiff] using hcl.closed hp
      · intro qs hqs
        exact absurd (List.all_eq_true.mp hcl.internal _ hqs) Bool.false_ne_true
      · intro p
        simpa only [hiff] using hf.mem_iff
    refine Transaction.recalled (hclosed.followed
      [.sent { command := .removeChannels, response := some .accepted }] rfl ?_ rfl)
    simp
  | @removeMissing _ m id hc hr hm hid => exact absurd (hids id hm) hid
  | @removeRejected _ m hc hr =>
    refine Transaction.recalled (.none rfl rfl rfl ?_)
    intro x _ hrem
    simp [removed, hc, hr] at hrem

theorem Handled.ends {s t : State} {v : Context} (h : Handled env w s e (.ok t v))
    (hs : s.closes = true) (he : endsClosing e = true) : t.closes = false := by
  cases h with
  | unexpected hu | defaulted hu =>
    rw [serves_of_ends hs he] at hu
    cases hu
  | release hs' hc hd =>
    cases hd
    rfl
  | removeAccepted | removeRejected => rfl
  | _ => cases hs

theorem Handled.asks_all {t : State} {v : Context}
    (h : Handled env w (.connected .operating) (.user .release) (.ok t v)) :
    t = .connected (.closingChannels v.channels.keys) := by
  cases h with
  | unexpected hs => cases hs
  | closeChannels he =>
    cases he with
    | inl hclose => cases hclose
    | inr hrelease =>
      rw [hrelease.2]
      rfl

theorem execute_waits {labels : List Handling} {h : List (Transition (Client State) Handling)}
    (hs : c.state = .connected (.closingChannels ids))
    (he : TransitionSystem.execute (Client.step handleEvent) c labels = some (h, d))
    (hstay : ∀ t ∈ h, t.target.state.closes = true) : Waited c d := by
  induction labels generalizing c h with
  | nil =>
    cases he
    exact .refl _
  | cons a labels ih =>
    simp only [TransitionSystem.execute, Option.bind_eq_some_iff, Option.map_eq_some_iff,
      Prod.mk.injEq] at he
    obtain ⟨c', hstep, ⟨k, d'⟩, hk, rfl, rfl⟩ := he
    obtain ⟨hc', hrest⟩ := List.forall_mem_cons.mp hstay
    have hh := handled a.environment a.event c.state (by simp [hs, State.rests]) c.context
    rw [Client.step_eq_some.mp hstep] at hh
    have hnot : endsClosing a.event = false := by
      by_contra hend
      have hleft := hh.ends (by simp [hs, State.closes]) (by simpa using hend)
      simp [hleft] at hc'
    rw [hs] at hh
    obtain ⟨v, hv, hwait⟩ := hh.waits hnot
    obtain ⟨state, context⟩ := c
    obtain ⟨state', context'⟩ := c'
    cases hs
    cases hv
    exact hwait.trans (ih rfl hk hrest)

theorem closingAs_of_execute {labels : List Handling}
    {h : List (Transition (Client State) Handling)} (hc : client.Reachable c)
    (hs : c.state = .connected (.closingChannels ids))
    (hids : ∀ id ∈ ids, id ∈ c.context.channels.keys)
    (he : TransitionSystem.execute (Client.step handleEvent) c labels = some (h, d))
    (hstay : ∀ t ∈ h, t.target.state.closes = true) : ClosingAs c ids d := by
  have hwaited := execute_waits hs he hstay
  have hstate := hwaited.1
  have hchannels := hwaited.2.1
  obtain ⟨es, htrace, hes⟩ := hwaited.2.2
  obtain ⟨k, hr⟩ := hc
  have htracked : Tracked d.context :=
    reachable_context (hr.execute he).reachable Tracked.initial fun _ _ => Tracked.act
  refine ⟨hwaited, ?_, ?_⟩
  · intro env e hnot
    have hh := handled env e d.state (by simp [hstate, hs, State.rests]) d.context
    rw [hstate, hs] at hh ⊢
    obtain ⟨v, hv, hwait⟩ := hh.waits hnot
    obtain ⟨-, hm, fs, ht, hfs⟩ := hwait
    exact ⟨v, hv, hwaited.trans (u := ⟨.connected (.closingChannels ids), v⟩)
      ⟨(hstate.trans hs).symm, hm, fs, ht, hfs⟩⟩
  · intro env e hend
    have hh := handled env e d.state (by simp [hstate, hs, State.rests]) d.context
    refine ⟨?_, ?_⟩
    · rw [hstate, hs] at hh ⊢
      exact (hh.closes hend htracked (hchannels ▸ hids)).preceded hchannels htrace hes
    · intro t v hv
      rw [hv] at hh
      exact hh.ends (by simp [hstate, hs, State.closes]) hend

/-- Closing is a transaction on the channels asked for, whatever is handled before the message
that ends it; a release of the user's that is accepted leaves none. -/
theorem closing_transaction :
    (∀ (c d : Client State) (ids : List ℤ) (labels : List Handling)
      (h : List (Transition (Client State) Handling)), client.Reachable c →
      c.state = .connected (.closingChannels ids) → (∀ id ∈ ids, id ∈ c.context.channels.keys) →
      TransitionSystem.execute (Client.step handleEvent) c labels = some (h, d) →
      (∀ t ∈ h, t.target.state.closes = true) → ClosingAs c ids d) ∧
    ∀ (c d u : Client State) (env env' : Environment) (labels : List Handling)
      (h : List (Transition (Client State) Handling)) (m : ControlMessage), client.Reachable c →
      c.state = .connected .operating → client.step c ⟨env, .user .release⟩ d →
      TransitionSystem.execute (Client.step handleEvent) d labels = some (h, u) →
      (∀ t ∈ h, t.target.state.closes = true) →
      m.command = .removeChannels → m.response = .accepted →
      (contextOf (handleEvent env' (.received m) u.state u.context)).channels.keys = [] := by
  refine ⟨fun c d ids labels h hc hs hids he hstay => closingAs_of_execute hc hs hids he hstay, ?_⟩
  intro c d u env env' labels h m hc hs hstep he hstay hcommand hresponse
  have hd : d.state = .connected (.closingChannels d.context.channels.keys) := by
    have hh := step_handled hc hstep
    rw [hs] at hh
    exact hh.asks_all
  have hclosing := closingAs_of_execute (hc.next hstep) hd (fun id hid => hid) he hstay
  have hend := (hclosing.ends env' (.received m) (by simp [endsClosing, hcommand])).1
  refine List.eq_nil_iff_forall_not_mem.mpr fun id hid => ?_
  obtain ⟨x, hx, -⟩ := KeyedList.mem_keys.mp hid
  obtain ⟨hxd, hkept⟩ := (hend.left x).mp hx
  exact hkept (.inr ⟨hresponse, KeyedList.key_mem_keys hxd⟩)

end

/-- Channel 1 asked for twice, and a release by the user; in both something else comes first. -/
theorem closing_transaction_twice : ∃ c d c' u v, c.state = .connected (.closingChannels [1, 1]) ∧
    ClosingAs c [1, 1] d ∧ c'.context.channels.keys = [1] ∧ Waited c' u ∧
    (contextOf v).channels.keys = [] ∧
    v = handleEvent (.permissive fun _ => true)
      (.received { command := .removeChannels, response := .accepted }) u.state u.context := by
  let env : Environment := .permissive fun _ => true
  let other : List Handling := [⟨env, .received { command := .setup, response := .accepted }⟩]
  let stays (r : List (Transition (Client State) Handling) × Client State) : Bool :=
    decide (∀ t ∈ r.1, t.target.state.closes = true)
  obtain ⟨h, c, hr, hp⟩ := TransitionSystem.exists_run ⟨.disconnected, .initial⟩
    (Client.step handleEvent) (operatingRun ++ [⟨env, .user (.closeChannels [1, 1])⟩])
    (p := fun _ c => decide (c.state = .connected (.closingChannels [1, 1]) ∧
      c.context.channels.keys = [1]) &&
      (TransitionSystem.execute (Client.step handleEvent) c other).any stays) (by decide +kernel)
  obtain ⟨hc, hstays⟩ := Bool.and_eq_true_iff.mp hp
  obtain ⟨hs, hkeys⟩ := of_decide_eq_true hc
  rw [Option.any_eq_true] at hstays
  obtain ⟨⟨k, d⟩, hd, hall⟩ := hstays
  have hclosing := closing_transaction.1 c d [1, 1] other k hr.reachable hs (by simp [hkeys]) hd
    (of_decide_eq_true hall)
  obtain ⟨h', o, hr', hp'⟩ := TransitionSystem.exists_run ⟨.disconnected, .initial⟩
    (Client.step handleEvent) operatingRun
    (p := fun _ o => decide (o.state = .connected .operating) &&
      (Client.step handleEvent o ⟨env, .user .release⟩).any fun (c : Client State) =>
        decide (c.context.channels.keys = [1]) &&
        (TransitionSystem.execute (Client.step handleEvent) c other).any stays) (by decide +kernel)
  obtain ⟨ho, hp'⟩ := Bool.and_eq_true_iff.mp hp'
  rw [Option.any_eq_true] at hp'
  obtain ⟨c', hstep, hp'⟩ := hp'
  obtain ⟨hkeys', hstays'⟩ := Bool.and_eq_true_iff.mp hp'
  rw [Option.any_eq_true] at hstays'
  obtain ⟨⟨k', u⟩, hu, hall'⟩ := hstays'
  have hempty := closing_transaction.2 o c' u env env other k'
    { command := .removeChannels, response := .accepted } hr'.reachable (of_decide_eq_true ho) hstep
    hu (of_decide_eq_true hall') rfl rfl
  have hclosing' : c'.state = .connected (.closingChannels c'.context.channels.keys) := by
    have hh := step_handled hr'.reachable hstep
    rw [of_decide_eq_true ho] at hh
    exact hh.asks_all
  exact ⟨c, d, c', u, _, hs, hclosing, of_decide_eq_true hkeys',
    execute_waits hclosing' hu (of_decide_eq_true hall'), hempty, rfl⟩

end Pilot
end FmClient
