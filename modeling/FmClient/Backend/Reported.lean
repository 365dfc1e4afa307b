import FmClient.Backend.Acts
import FmClient.Lib.History

/-! The channels that the listener holds pointers to, and those there are, read off the
trace: a pointer that was reported must not outlive its channel. -/
namespace FmClient
open Lib ChannelsHandler Handler

def report (ps : List IChannel) : Effect → List IChannel
  | .event (.channelsOpened qs) => ps ++ qs
  | .event (.channelsClosing qs) => ps.filter (· ∉ qs)
  | _ => ps

/-- The channels reported as open and not as closing since. -/
def reported (t : List Effect) : List IChannel := t.foldl report []

def exist (ps : List IChannel) : Effect → List IChannel
  | .inserted p => ps ++ [p]
  | .erased p => ps.filter (· ≠ p)
  | _ => ps

/-- The channels inserted and not erased since. -/
def present (t : List Effect) : List IChannel := t.foldl exist []

/-- No reported channel is gone. -/
def Valid (t : List Effect) : Prop := ∀ p ∈ reported t, p ∈ present t

instance (t : List Effect) : Decidable (Valid t) :=
  inferInstanceAs (Decidable (∀ p ∈ reported t, p ∈ present t))

section
variable {t es : List Effect} {e : Effect} {p : IChannel}

theorem reported_concat : reported (t ++ [e]) = report (reported t) e := by
  simp [reported]

theorem present_concat : present (t ++ [e]) = exist (present t) e := by
  simp [present]

def Effect.isReport : Effect → Bool
  | .event (.channelsOpened _) | .event (.channelsClosing _) => true
  | _ => false

theorem report_of_not (h : e.isReport = false) (ps : List IChannel) : report ps e = ps := by
  unfold report
  split <;> simp_all [Effect.isReport]

theorem reported_append (hes : ∀ e ∈ es, e.isReport = false) : reported (t ++ es) = reported t := by
  induction es generalizing t with
  | nil => rw [List.append_nil]
  | cons e es ih =>
    obtain ⟨he, hes⟩ := List.forall_mem_cons.mp hes
    rw [List.append_cons, ih hes, reported_concat, report_of_not he]

theorem mem_exist (hp : p ∈ present t) (he : e ≠ .erased p) : p ∈ exist (present t) e := by
  unfold exist
  split
  · exact List.mem_append_left _ hp
  · exact List.mem_filter.mpr ⟨hp, decide_eq_true fun h => he (by rw [h])⟩
  · exact hp

/-- Nothing but the erasure of a reported channel makes a pointer dangle. -/
theorem valid_append (h : Always Valid t) (hes : ∀ e ∈ es, e.isReport = false)
    (herased : ∀ p, .erased p ∈ es → p ∉ reported t) : Always Valid (t ++ es) := by
  induction es generalizing t with
  | nil => rwa [List.append_nil]
  | cons e es ih =>
    obtain ⟨he, hes⟩ := List.forall_mem_cons.mp hes
    have hreported : reported (t ++ [e]) = reported t := by rw [reported_concat, report_of_not he]
    rw [List.append_cons]
    refine ih (always_concat.mpr ⟨h, fun p hp => ?_⟩) hes fun p hp => ?_
    · rw [hreported] at hp
      rw [present_concat]
      refine mem_exist (h.last p hp) ?_
      intro heq
      subst heq
      exact herased p List.mem_cons_self hp
    · rw [hreported]
      exact herased p (List.mem_cons_of_mem _ hp)

theorem valid_opened {ps : List IChannel} (h : Always Valid t) (hps : ∀ p ∈ ps, p ∈ present t) :
    Always Valid (t ++ [.event (.channelsOpened ps)]) := by
  refine always_concat.mpr ⟨h, fun p hp => ?_⟩
  rw [reported_concat] at hp
  rw [present_concat]
  obtain hp | hp := List.mem_append.mp hp
  · exact h.last p hp
  · exact hps p hp

theorem valid_closing (h : Always Valid t) (ps : List IChannel) :
    Always Valid (t ++ [.event (.channelsClosing ps)]) := by
  refine always_concat.mpr ⟨h, fun p hp => ?_⟩
  rw [reported_concat] at hp
  rw [present_concat]
  exact h.last p (List.mem_filter.mp hp).1

end

/-! ### The channels there are -/

/-- The trace says which channels the map holds. -/
def Mirrors (w : Context) : Prop := ∀ p, p ∈ present w.trace ↔ p ∈ pointers w.channels

theorem present_append {t es : List Effect} (hes : ∀ e ∈ es, ∀ ps, exist ps e = ps) :
    present (t ++ es) = present t := by
  induction es generalizing t with
  | nil => rw [List.append_nil]
  | cons e es ih =>
    obtain ⟨he, hes⟩ := List.forall_mem_cons.mp hes
    rw [List.append_cons, ih hes, present_concat, he]

theorem exist_of_plain {e : Effect} (he : e.isPlain = true) (ps : List IChannel) :
    exist ps e = ps := by
  unfold exist
  split <;> simp_all [Effect.isPlain]

theorem mem_present_erases {t : List Effect} (ps : List IChannel) {p : IChannel} :
    p ∈ present (t ++ ps.map .erased) ↔ p ∈ present t ∧ p ∉ ps := by
  induction ps generalizing t with
  | nil => simp
  | cons q ps ih =>
    rw [List.map_cons, List.append_cons, ih, present_concat]
    simp [exist, and_assoc]

namespace Mirrors
variable {w v : Context}

theorem initial : Mirrors .initial := by
  simp [Mirrors, Context.initial, present]

theorem erase {c : ChannelImpl} {e e' : Effect} (h : Mirrors w) (hc : c ∈ w.channels)
    (he : ∀ ps, exist ps e = ps) (he' : ∀ ps, exist ps e' = ps) :
    Mirrors ((w.withChannels (w.channels.erase c.id)).emit [e, e', .erased c.pointer]) := by
  intro p
  have hsplit : w.trace ++ [e, e', .erased c.pointer] =
      w.trace ++ [e, e'] ++ [.erased c.pointer] := by simp
  rw [Context.emit_trace, Context.withChannels_trace, hsplit, present_concat,
    present_append (by simp [he, he'])]
  simp [exist, mem_pointers_erase hc, h p]

theorem closeAll (h : Mirrors w) :
    Mirrors ((w.withChannels .empty).emit (closeAllEffects w.channels)) := by
  intro p
  have hclosed : ∀ e ∈ w.channels.entries.flatMap fun c =>
      [Effect.logged (closingLine c.id), .closed c.pointer], ∀ ps, exist ps e = ps := by
    intro e he ps
    simp only [List.mem_flatMap, List.mem_cons, List.not_mem_nil, or_false] at he
    obtain ⟨c, -, rfl | rfl⟩ := he <;> rfl
  have herased : (w.channels.entries.map fun c => Effect.erased c.pointer) =
      (pointers w.channels).map .erased := by simp [pointers]
  rw [Context.emit_trace, Context.withChannels_trace, closeAllEffects, ← List.append_assoc,
    herased, mem_present_erases, present_append hclosed]
  simp [h p]

theorem act (ha : Act w v) (h : Mirrors w) : Mirrors v := by
  cases ha with
  | other hm hn ht hes =>
    intro p
    rw [ht, hm, present_append fun e he => exist_of_plain (List.all_eq_true.mp hes e he)]
    exact h p
  | insert socket hid =>
    intro p
    simp [present_concat, exist, h p, ChannelImpl.pointer]
  | reject hc => exact h.erase hc (fun _ => rfl) fun _ => rfl
  | close hc => exact h.erase hc (fun _ => rfl) fun _ => rfl
  | closeAll => exact h.closeAll
  | setOwned id owned => simpa [Mirrors] using h

end Mirrors

/-! ### Batches -/

theorem ChannelsHandler.Closes.not_report {m left : Channels} {ids : List ℤ} {es : List Effect}
    (h : Closes m ids left es) : ∀ e ∈ es, e.isReport = false := by
  induction h with
  | nil => simp
  | found hc h ih => simpa [Effect.isReport] using ih
  | missing hid h ih => simpa [Effect.isReport] using ih

/-- No element of the batch that is rejected names a channel that is open, be it from before
or from earlier in the batch; what follows an exception does not count. -/
def FreshRejections : List ℤ → List (ChannelResponse × Except String Bool) → Prop
  | _, [] => True
  | keys, (r, result) :: rest =>
    supported r = true →
      match result with
      | .ok true => FreshRejections (r.id :: keys) rest
      | .ok false => r.id ∉ keys ∧ FreshRejections keys rest
      | .error _ => True

instance FreshRejections.decide : (keys : List ℤ) →
    (batch : List (ChannelResponse × Except String Bool)) → Decidable (FreshRejections keys batch)
  | _, [] => isTrue trivial
  | keys, (r, .ok true) :: rest =>
    have := decide (r.id :: keys) rest
    inferInstanceAs (Decidable (supported r = true → FreshRejections (r.id :: keys) rest))
  | keys, (r, .ok false) :: rest =>
    have := decide keys rest
    inferInstanceAs (Decidable (supported r = true → r.id ∉ keys ∧ FreshRejections keys rest))
  | _, (_, .error _) :: _ => isTrue fun _ => trivial

theorem FreshRejections.next {keys : List ℤ} {r : ChannelResponse} {result : Except String Bool}
    {rest : List (ChannelResponse × Except String Bool)} {w v : Context} {ps : List IChannel}
    (h : FreshRejections keys ((r, result) :: rest)) (hr : Validation w r result (.ok ps v))
    (hkeys : ∀ id ∈ w.channels.keys, id ∈ keys) :
    ∃ later, (∀ id ∈ v.channels.keys, id ∈ later) ∧ FreshRejections later rest := by
  cases hr with
  | accepted hs he =>
    refine ⟨r.id :: keys, fun id hid => ?_, h hs⟩
    obtain hid | rfl := he.mem_keys.mp hid
    · exact List.mem_cons_of_mem _ (hkeys id hid)
    · exact List.mem_cons_self
  | rejected hs he =>
    refine ⟨keys, fun id hid => ?_, (h hs).2⟩
    obtain ⟨hid, hne⟩ := KeyedList.mem_keys_erase.mp hid
    exact hkeys id ((he.mem_keys.mp hid).resolve_right hne)

/-- Traces are valid, and those of the channels that there are. -/
structure Sound (w : Context) : Prop where
  valid : Always Valid w.trace
  mirrors : Mirrors w

theorem Sound.reported_mem {w : Context} (h : Sound w) {p : IChannel}
    (hp : p ∈ reported w.trace) : p ∈ pointers w.channels :=
  (h.mirrors p).mp (h.valid.last p hp)

structure Intact (w v : Context) : Prop where
  sound : Sound v
  reported : reported v.trace = reported w.trace
  pointers : ∀ p ∈ pointers w.channels, p ∈ pointers v.channels

namespace Intact
variable {w v u : Context}

theorem trans (h : Intact w v) (h' : Intact v u) : Intact w u :=
  ⟨h'.sound, h'.reported.trans h.reported, fun p hp => h'.pointers p (h.pointers p hp)⟩

theorem emit {es : List Effect} (h : Sound w) (hes : ∀ e ∈ es, e.isReport = false)
    (hplain : es.all Effect.isPlain = true) : Intact w (w.emit es) where
  sound := by
    have hact : Act w (w.emit es) := .other rfl rfl rfl hplain
    refine ⟨valid_append h.valid hes fun p hp => ?_, h.mirrors.act hact⟩
    simpa [Effect.isPlain] using List.all_eq_true.mp hplain _ hp
  reported := reported_append hes
  pointers _ hp := hp

theorem emplacement {id : ℤ} {c : ChannelImpl} (h : Sound w) (he : Emplacement w id c v) :
    Intact w v := by
  cases he with
  | existing hc hid => exact ⟨h, rfl, fun _ hp => hp⟩
  | new socket hid =>
    have hes : ∀ e ∈ [Effect.inserted ⟨id, w.constructed⟩], e.isReport = false := by
      simp [Effect.isReport]
    exact ⟨⟨valid_append h.valid hes (by simp), h.mirrors.act (.insert socket hid)⟩,
      reported_append hes, fun p hp => by simp [hp]⟩

theorem rejected {id : ℤ} {c : ChannelImpl} (h : Sound w) (he : Emplacement w id c v)
    (hid : id ∉ w.channels.keys) : Intact w ((v.withChannels (v.channels.erase id)).emit
      [.opened c.pointer false, .logged (rejectedLine id), .erased c.pointer]) := by
  have hv := emplacement h he
  obtain ⟨hc, rfl⟩ := he.mem
  have hnew : c.pointer ∉ ChannelsHandler.pointers w.channels := fun hp => by
    rw [← map_id_pointers] at hid
    exact hid (List.mem_map_of_mem hp)
  have hreported : c.pointer ∉ FmClient.reported v.trace := fun hp =>
    hnew (h.reported_mem (hv.reported ▸ hp))
  have hes : ∀ e ∈ [Effect.opened c.pointer false, .logged (rejectedLine c.id),
      .erased c.pointer], e.isReport = false := by simp [Effect.isReport]
  refine ⟨⟨valid_append hv.sound.valid hes ?_, hv.sound.mirrors.act (.reject hc)⟩,
    (reported_append hes).trans hv.reported, fun p hp => (mem_pointers_erase hc).mpr ⟨?_, ?_⟩⟩
  · simpa using hreported
  · exact hv.pointers p hp
  · intro heq
    subst heq
    exact hnew hp

theorem validation {r : ChannelResponse} {result : Except String Bool}
    {out : EStateM.Result Fault Context (List IChannel)} (h : Sound w)
    (hv : Validation w r result out)
    (hfresh : supported r = true → result = .ok false → r.id ∉ w.channels.keys) :
    Intact w (contextOf out) := by
  have hlog : Intact w (w.emit [.logged (openingLine r.id)]) :=
    emit h (by simp [Effect.isReport]) rfl
  cases hv with
  | unsupported hr hf => exact hlog
  | failed hr he => exact hlog.trans (emplacement hlog.sound he)
  | accepted hr he =>
    have he' := emplacement hlog.sound he
    exact hlog.trans (he'.trans (emit he'.sound (by simp [Effect.isReport]) rfl))
  | rejected hr he => exact hlog.trans (rejected hlog.sound he (hfresh hr rfl))

theorem validations {keys : List ℤ} {batch : List (ChannelResponse × Except String Bool)}
    {out : EStateM.Result Fault Context (List IChannel)} (h : Sound w)
    (hv : Validations w batch out) (hkeys : ∀ id ∈ w.channels.keys, id ∈ keys)
    (hfresh : FreshRejections keys batch) :
    Intact w (contextOf out) ∧
      ∀ ps v, out = .ok ps v → ∀ p ∈ ps, p ∈ ChannelsHandler.pointers v.channels := by
  induction batch generalizing w keys out with
  | nil =>
    cases hv
    exact ⟨⟨h, rfl, fun _ hp => hp⟩, by rintro ps v ⟨⟩ p ⟨⟩⟩
  | cons x rest ih =>
    obtain ⟨r, result⟩ := x
    have hone {out : EStateM.Result Fault Context (List IChannel)}
        (hr : Validation w r result out) : Intact w (contextOf out) := by
      refine validation h hr fun hs hresult hid => ?_
      subst hresult
      exact (hfresh hs).1 (hkeys _ hid)
    cases hv with
    | stop hr => exact ⟨hone hr, by simp⟩
    | later hr hs =>
      have hi := hone hr
      obtain ⟨later, hlater, hrest⟩ := hfresh.next hr hkeys
      exact ⟨hi.trans (ih hi.sound hs hlater hrest).1, by simp⟩
    | cons hr hs =>
      have hi := hone hr
      obtain ⟨later, hlater, hrest⟩ := hfresh.next hr hkeys
      obtain ⟨hi', hqs⟩ := ih hi.sound hs hlater hrest
      refine ⟨hi.trans hi', ?_⟩
      rintro _ _ ⟨⟩ p hp
      obtain hp | hp := List.mem_append.mp hp
      · exact hi'.pointers p (hr.pointers_mem p hp)
      · exact hqs _ _ rfl p hp

end Intact

/-! ### Reports -/

def Effect.isQuiet (e : Effect) : Bool := e.isPlain && !e.isReport

namespace Sound
variable {w v : Context} {es : List Effect}

theorem initial : Sound .initial where
  valid := always_nil.mpr (by simp [Valid, reported])
  mirrors := .initial

theorem of_acts (h : Sound w) (ha : Acts w v) (hv : Always Valid v.trace) : Sound v :=
  ⟨hv, ha.invariant (fun _ _ hact => Mirrors.act hact) h.mirrors⟩

theorem quiet (h : Sound w) (ha : Acts w v) (ht : v.trace = w.trace ++ es)
    (hes : es.all Effect.isQuiet = true) : Sound v := by
  have hall : ∀ e ∈ es, e.isPlain = true ∧ e.isReport = false := by
    simpa [Effect.isQuiet] using hes
  refine h.of_acts ha ?_
  rw [ht]
  refine valid_append h.valid (fun e he => (hall e he).2) fun p hp => ?_
  cases (hall _ hp).1

theorem emit (h : Sound w) (hes : es.all Effect.isQuiet = true) : Sound (w.emit es) := by
  refine h.quiet (Acts.emit .refl ?_) rfl hes
  rw [List.all_eq_true] at hes ⊢
  exact fun e he => (Bool.and_eq_true_iff.mp (hes e he)).1

theorem withReader (h : Sound w) (keepReader : Bool) : Sound (w.withReader keepReader) :=
  ⟨h.valid, h.mirrors⟩

theorem setOwnedAll (h : Sound w) (ids : List ℤ) :
    Sound (w.withChannels (ownedMapAll w.channels ids)) :=
  h.quiet (Acts.setOwnedAll .refl ids) (List.append_nil _).symm rfl

theorem setOwned (h : Sound w) (id : ℤ) (owned : Bool) :
    Sound (w.withChannels (ownedMap w.channels id owned)) :=
  h.quiet (Acts.setOwned .refl id owned) (List.append_nil _).symm rfl

theorem opened (h : Sound w) {ps : List IChannel} (hps : ∀ p ∈ ps, p ∈ pointers w.channels) :
    Sound (w.emit [.event (.channelsOpened ps)]) := by
  have ha : Acts w (w.emit [.event (.channelsOpened ps)]) := Acts.emit .refl rfl
  exact h.of_acts ha (valid_opened h.valid fun p hp => (h.mirrors p).mpr (hps p hp))

theorem announced (h : Sound w) {ps : List IChannel}
    (ha : Acts w (v.emit (.event (.channelsClosing ps) :: es))) (ht : v.trace = w.trace)
    (hes : ∀ e ∈ es, e.isReport = false)
    (herased : ∀ p, .erased p ∈ es → p ∈ ps) :
    Sound (v.emit (.event (.channelsClosing ps) :: es)) := by
  refine h.of_acts ha ?_
  rw [Context.emit_trace, ht, List.append_cons]
  refine valid_append (valid_closing h.valid ps) hes fun p hp hmem => ?_
  rw [reported_concat] at hmem
  simpa [herased p hp] using (List.mem_filter.mp hmem).2

theorem closes (h : Sound w) {ids : List ℤ} {ps : List IChannel} {left : Channels}
    (hf : Finds w.channels ids ps) (hcl : Closes w.channels ids left es) :
    Sound ((w.withChannels left).emit (.event (.channelsClosing ps) :: es)) := by
  refine h.announced (Acts.announceCloses .refl ps hcl) rfl hcl.not_report fun p hp => ?_
  obtain ⟨c, hc, hid, rfl⟩ := hcl.erased hp
  exact hf.mem hc hid

theorem closeAll (h : Sound w) : Sound ((w.withChannels .empty).emit
    (.event (.channelsClosing (pointers w.channels)) :: closeAllEffects w.channels)) := by
  refine h.announced (Acts.announceCloseAll .refl _) rfl ?_ fun p hp => ?_
  · intro e he
    simp only [closeAllEffects, List.mem_append, List.mem_flatMap, List.mem_map, List.mem_cons,
      List.not_mem_nil, or_false] at he
    obtain ⟨c, -, rfl | rfl⟩ | ⟨c, -, rfl⟩ := he <;> rfl
  · simpa [closeAllEffects, pointers] using hp

end Sound

end FmClient
