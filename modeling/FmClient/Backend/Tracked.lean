import FmClient.Backend.Acts

/-! The trace accounts for every channel: one that was inserted is still there, was
closed once, or was erased because its validation failed. -/
namespace FmClient
open Lib ChannelsHandler

/-- A channel that is gone: closed once, or erased because its validation failed. -/
def Removed (trace : List Effect) (p : IChannel) : Prop :=
  .erased p ∈ trace ∧ (trace.count (.closed p) = 1 ∨ trace.count (.closed p) = 0 ∧
    [.opened p false, .logged (rejectedLine p.id), .erased p] <:+: trace)

theorem Removed.append {t es : List Effect} {p : IChannel} (h : Removed t p)
    (hes : .closed p ∉ es) : Removed (t ++ es) p := by
  have hcount : (t ++ es).count (.closed p) = t.count (.closed p) := by
    rw [List.count_append, List.count_eq_zero_of_not_mem hes, Nat.add_zero]
  refine ⟨List.mem_append_left _ h.1, ?_⟩
  rw [hcount]
  exact h.2.imp_right fun ⟨hzero, hinfix⟩ =>
    ⟨hzero, hinfix.trans (List.prefix_append t es).isInfix⟩

structure Tracked (w : Context) : Prop where
  fresh : ∀ p, .inserted p ∈ w.trace → p.address < w.constructed
  inserted : ∀ p ∈ pointers w.channels, .inserted p ∈ w.trace
  unclosed : ∀ p ∈ pointers w.channels, .closed p ∉ w.trace
  closed : ∀ p, .closed p ∈ w.trace → .inserted p ∈ w.trace
  removed : ∀ p, .inserted p ∈ w.trace → p ∈ pointers w.channels ∨ Removed w.trace p

theorem closed_mem_closeAllEffects {m : Channels} {p : IChannel} :
    .closed p ∈ closeAllEffects m ↔ p ∈ pointers m := by
  simp [closeAllEffects, pointers, eq_comm]

theorem count_closed_pointers (cs : List ChannelImpl) (p : IChannel) :
    (cs.flatMap fun c => [.logged (closingLine c.id), Effect.closed c.pointer]).count (.closed p) =
      (cs.map ChannelImpl.pointer).count p := by
  induction cs with
  | nil => rfl
  | cons c cs ih =>
    by_cases h : c.pointer = p
    · simpa [h] using ih
    · simpa [h] using ih

theorem count_closeAllEffects {m : Channels} {p : IChannel} (hp : p ∈ pointers m) :
    (closeAllEffects m).count (.closed p) = 1 := by
  have hone : (m.entries.map ChannelImpl.pointer).count p = 1 :=
    List.count_eq_one_of_mem (nodup_pointers m) hp
  have hzero : (m.entries.map fun c => Effect.erased c.pointer).count (.closed p) = 0 :=
    List.count_eq_zero_of_not_mem (by simp)
  rw [closeAllEffects, List.count_append, count_closed_pointers, hone, hzero]

namespace Tracked
variable {w v : Context}

theorem other {es : List Effect} (h : Tracked w) (hm : v.channels = w.channels)
    (hn : v.constructed = w.constructed) (ht : v.trace = w.trace ++ es)
    (hes : es.all Effect.isPlain = true) : Tracked v := by
  have hins (p : IChannel) : .inserted p ∉ es := fun hp => by
    simpa [Effect.isPlain] using List.all_eq_true.mp hes _ hp
  have hcl (p : IChannel) : .closed p ∉ es := fun hp => by
    simpa [Effect.isPlain] using List.all_eq_true.mp hes _ hp
  constructor
  · simpa [ht, hn, hins] using h.fresh
  · simpa [ht, hm, hins] using h.inserted
  · simpa [ht, hm, hcl] using h.unclosed
  · simpa [ht, hins, hcl] using h.closed
  · simp only [ht, hm, List.mem_append, hins, or_false]
    exact fun p hp => (h.removed p hp).imp_right (·.append (hcl p))

theorem insert {id : ℤ} (h : Tracked w) (socket : SocketKind) (hid : id ∉ w.channels.keys) :
    Tracked ((w.insertNew ⟨id, w.constructed, socket, false⟩ hid).emit
      [.inserted ⟨id, w.constructed⟩]) := by
  have hnew : .closed ⟨id, w.constructed⟩ ∉ w.trace := fun hcl =>
    Nat.lt_irrefl _ (h.fresh _ (h.closed _ hcl))
  have hmem (p : IChannel) :
      p ∈ pointers (w.channels.insertNew ⟨id, w.constructed, socket, false⟩ hid) ↔
        p ∈ pointers w.channels ∨ p = ⟨id, w.constructed⟩ := mem_pointers_insertNew
  constructor
  · intro p hp
    obtain hp | hp := List.mem_append.mp hp
    · exact Nat.lt_succ_of_lt (h.fresh p hp)
    · cases List.mem_singleton.mp hp
      exact Nat.lt_succ_self _
  · intro p hp
    obtain hp | rfl := (hmem p).mp hp
    · exact List.mem_append_left _ (h.inserted p hp)
    · exact List.mem_append_right _ List.mem_cons_self
  · intro p hp
    obtain hp | rfl := (hmem p).mp hp
    · simpa using h.unclosed p hp
    · simpa using hnew
  · intro p hp
    exact List.mem_append_left _ (h.closed p (by simpa using hp))
  · intro p hp
    obtain hp | hp := List.mem_append.mp hp
    · exact (h.removed p hp).imp (fun hp => (hmem p).mpr (.inl hp)) (·.append (by simp))
    · cases List.mem_singleton.mp hp
      exact .inl ((hmem _).mpr (.inr rfl))

theorem erase {c : ChannelImpl} {es : List Effect} (h : Tracked w) (hc : c ∈ w.channels)
    (hins : ∀ p, .inserted p ∉ es) (hcl : ∀ p, .closed p ∈ es → p = c.pointer)
    (hr : Removed (w.trace ++ es) c.pointer) :
    Tracked ((w.withChannels (w.channels.erase c.id)).emit es) := by
  constructor
  · simpa [hins] using h.fresh
  · intro p hp
    exact List.mem_append_left _ (h.inserted p ((mem_pointers_erase hc).mp hp).1)
  · intro p hp hmem
    obtain ⟨hp, hne⟩ := (mem_pointers_erase hc).mp hp
    obtain hmem | hmem := List.mem_append.mp hmem
    · exact h.unclosed p hp hmem
    · exact hne (hcl p hmem)
  · intro p hp
    obtain hp | hp := List.mem_append.mp hp
    · exact List.mem_append_left _ (h.closed p hp)
    · rw [hcl p hp]
      exact List.mem_append_left _ (h.inserted _ (pointer_mem_pointers hc))
  · intro p hp
    by_cases heq : p = c.pointer
    · rw [heq]
      exact .inr hr
    · refine (h.removed p (by simpa [hins] using hp)).imp (fun hp => ?_) fun hr => ?_
      · exact (mem_pointers_erase hc).mpr ⟨hp, heq⟩
      · exact hr.append fun hp => heq (hcl p hp)

theorem closeAll (h : Tracked w) :
    Tracked ((w.withChannels .empty).emit (closeAllEffects w.channels)) := by
  have hins (p : IChannel) : .inserted p ∉ closeAllEffects w.channels := by simp [closeAllEffects]
  constructor
  · simpa [hins] using h.fresh
  · simp
  · simp
  · intro p hp
    obtain hp | hp := List.mem_append.mp hp
    · exact List.mem_append_left _ (h.closed p hp)
    · exact List.mem_append_left _ (h.inserted p (closed_mem_closeAllEffects.mp hp))
  · intro p hp
    refine .inr ?_
    by_cases hmem : p ∈ pointers w.channels
    · have hzero : w.trace.count (.closed p) = 0 :=
        List.count_eq_zero_of_not_mem (h.unclosed p hmem)
      refine ⟨List.mem_append_right _ ?_, .inl ?_⟩
      · obtain ⟨c, hc, rfl⟩ := mem_pointers.mp hmem
        exact List.mem_append_right _ (List.mem_map.mpr ⟨c, hc, rfl⟩)
      · rw [Context.emit_trace, Context.withChannels_trace, List.count_append, hzero,
          count_closeAllEffects hmem]
    · have hr := (h.removed p (by simpa [hins] using hp)).resolve_left hmem
      exact hr.append fun hcl => hmem (closed_mem_closeAllEffects.mp hcl)

theorem setOwned (h : Tracked w) (id : ℤ) (owned : Bool) :
    Tracked (w.withChannels (ownedMap w.channels id owned)) := by
  constructor
  · exact h.fresh
  · simpa using h.inserted
  · simpa using h.unclosed
  · exact h.closed
  · simpa using h.removed

theorem initial : Tracked .initial := by
  constructor <;> simp [Context.initial]

theorem act (ha : Act w v) (h : Tracked w) : Tracked v := by
  cases ha with
  | other hm hn ht hes => exact h.other hm hn ht hes
  | insert socket hid => exact h.insert socket hid
  | @reject c hc =>
    have hzero := List.count_eq_zero_of_not_mem (h.unclosed _ (pointer_mem_pointers hc))
    have hr := List.suffix_append w.trace
      [.opened c.pointer false, .logged (rejectedLine c.id), .erased c.pointer]
    exact h.erase hc (by simp) (by simp) ⟨by simp, .inr ⟨by simpa using hzero, hr.isInfix⟩⟩
  | close hc =>
    have hzero := List.count_eq_zero_of_not_mem (h.unclosed _ (pointer_mem_pointers hc))
    exact h.erase hc (by simp) (by simp) ⟨by simp, .inl (by simpa using hzero)⟩
  | closeAll => exact h.closeAll
  | setOwned id owned => exact h.setOwned id owned

theorem address_lt (h : Tracked w) {c : ChannelImpl} (hc : c ∈ w.channels) :
    c.address < w.constructed :=
  h.fresh _ (h.inserted _ (pointer_mem_pointers hc))

theorem inserted_mem_drop (h : Tracked w) (ha : Acts w v) {p : IChannel} :
    .inserted p ∈ v.trace.drop w.trace.length ↔
      .inserted p ∈ v.trace ∧ w.constructed ≤ p.address := by
  obtain ⟨es, ht, -, hnew⟩ := ha.grow
  rw [ht, List.drop_left, List.mem_append]
  constructor
  · exact fun hp => ⟨.inr hp, hnew p hp⟩
  · rintro ⟨hp | hp, hle⟩
    · exact absurd (h.fresh p hp) (by omega)
    · exact hp

end Tracked

end FmClient
