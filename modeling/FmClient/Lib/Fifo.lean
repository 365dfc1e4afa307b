import Mathlib.Data.List.Nodup

/-! A deque of which some elements are held, the oldest first. Elements are popped by position:
it does no harm as long as the front is not held, or as the oldest holder gives up with it. -/
namespace FmClient.Lib
variable {κ : Type*} {held queue : List κ} {k : κ}

/-- What is held is in the deque, in its order, and no two elements are alike. -/
structure Held (held queue : List κ) : Prop where
  sublist : held.Sublist queue
  nodup : queue.Nodup

namespace Held

theorem nil : Held ([] : List κ) [] := ⟨List.Sublist.slnil, List.nodup_nil⟩

theorem mem (h : Held held queue) : ∀ k ∈ held, k ∈ queue := fun _ hk => h.sublist.subset hk

theorem pushFree (h : Held held queue) (hk : k ∉ queue) : Held held (queue ++ [k]) :=
  ⟨h.sublist.trans (List.sublist_append_left _ _), List.nodup_append.mpr
    ⟨h.nodup, List.nodup_singleton k, fun _ hx _ hy heq =>
      hk (List.mem_singleton.mp hy ▸ heq ▸ hx)⟩⟩

theorem push (h : Held held queue) (hk : k ∉ queue) : Held (held ++ [k]) (queue ++ [k]) :=
  ⟨h.sublist.append (List.Sublist.refl [k]), (h.pushFree hk).nodup⟩

theorem release (h : Held held queue) : Held held.tail queue.tail := by
  refine ⟨?_, h.nodup.sublist (List.tail_sublist queue)⟩
  have hsub := h.sublist
  cases held with
  | nil => exact List.nil_sublist _
  | cons k held =>
    cases queue with
    | nil => cases hsub
    | cons q queue => exact hsub.of_cons_cons

/-- Popping the front does no harm exactly if it is not held. -/
theorem pop_iff (h : Held held queue) :
    (∀ k ∈ held, k ∈ queue.tail) ↔ ∀ q ∈ queue.head?, q ∉ held := by
  cases queue with
  | nil => simpa using h.mem
  | cons q queue =>
    have hq : q ∉ queue := (List.nodup_cons.mp h.nodup).1
    simp only [List.tail_cons, List.head?_cons, Option.mem_def, Option.some.injEq, forall_eq']
    constructor
    · exact fun hkept hheld => hq (hkept q hheld)
    · intro hfree k hk
      cases List.mem_cons.mp (h.mem k hk) with
      | inl heq => exact absurd (heq ▸ hk) hfree
      | inr hmem => exact hmem

theorem pop (h : Held held queue) (hfree : ∀ q ∈ queue.head?, q ∉ held) :
    Held held queue.tail := by
  refine ⟨?_, h.nodup.sublist (List.tail_sublist queue)⟩
  have hsub := h.sublist
  cases queue with
  | nil => exact hsub
  | cons q queue =>
    cases List.sublist_cons_iff.mp hsub with
    | inl hrest => exact hrest
    | inr hfront =>
      obtain ⟨rest, rfl, -⟩ := hfront
      exact absurd List.mem_cons_self (hfree q rfl)

end Held

theorem eq_of_singleton {x y : κ} {i : ℕ} (hq : queue = [x]) (hi : queue[i]? = some y) :
    i = 0 ∧ y = x := by
  subst hq
  obtain ⟨hlt, heq⟩ := List.getElem?_eq_some_iff.mp hi
  obtain rfl : i = 0 := by simpa using hlt
  exact ⟨rfl, heq.symm⟩

end FmClient.Lib
