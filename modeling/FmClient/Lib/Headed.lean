import FmClient.Lib.PrefixLanguage
import Mathlib.Computability.Language

/-! Words that begin with a mark and have no other. A series of them can be cut in one way only,
so that a headed part of the series is a part of one of its words. -/
namespace FmClient.Lib
open Computability
variable {α : Type*} {mark : α → Prop} {x y z w : List α} {words : List (List α)}
  {L M : Language α} {a : α}

def Headed (mark : α → Prop) (x : List α) : Prop :=
  ∃ a y, x = a :: y ∧ mark a ∧ ∀ b ∈ y, ¬ mark b

def unmarked (mark : α → Prop) : Language α := {x | ∀ b ∈ x, ¬ mark b}

theorem Headed.append (hx : Headed mark x) (hy : y ∈ unmarked mark) : Headed mark (x ++ y) := by
  obtain ⟨a, x, rfl, ha, hx⟩ := hx
  exact ⟨a, x ++ y, rfl, ha, List.forall_mem_append.mpr ⟨hx, hy⟩⟩

theorem Headed.tail_unmarked (h : Headed mark (a :: x)) : ∀ b ∈ x, ¬ mark b := by
  obtain ⟨c, y, heq, -, hy⟩ := h
  cases heq
  exact hy

theorem symbol_unmarked (ha : ¬ mark a) : ({[a]} : Language α) ≤ unmarked mark := by
  rintro x rfl
  simpa [unmarked] using ha

theorem add_unmarked (hL : L ≤ unmarked mark) (hM : M ≤ unmarked mark) : L + M ≤ unmarked mark :=
  fun _ hx => hx.elim (@hL _) (@hM _)

theorem mul_unmarked (hL : L ≤ unmarked mark) (hM : M ≤ unmarked mark) : L * M ≤ unmarked mark := by
  rintro _ ⟨x, hx, y, hy, rfl⟩
  exact List.forall_mem_append.mpr ⟨hL hx, hM hy⟩

theorem star_unmarked (hL : L ≤ unmarked mark) : L∗ ≤ unmarked mark := by
  rintro x ⟨words, rfl, hwords⟩
  intro b hb
  obtain ⟨w, hw, hbw⟩ := List.mem_flatten.mp hb
  exact hL (hwords w hw) b hbw

theorem mark_of_prefix_flatten (hwords : ∀ w ∈ words, Headed mark w)
    (h : a :: x <+: words.flatten) : mark a := by
  cases words with
  | nil => simp at h
  | cons w rest =>
    obtain ⟨b, y, rfl, hb, -⟩ := hwords w List.mem_cons_self
    rw [List.flatten_cons, List.cons_append, List.cons_prefix_cons] at h
    exact h.1 ▸ hb

theorem Headed.prefix_of_append (hw : Headed mark w) (hy : Headed mark y)
    (hwords : ∀ w ∈ words, Headed mark w) (h : y <+: w ++ words.flatten) : y <+: w := by
  obtain hle | hle := List.prefix_or_prefix_of_prefix h (List.prefix_append w words.flatten)
  · exact hle
  · obtain ⟨u, rfl⟩ := hle
    cases u with
    | nil => simp
    | cons b u =>
      rw [List.prefix_append_right_inj] at h
      have hb := mark_of_prefix_flatten hwords h
      obtain ⟨a, w, rfl, -, -⟩ := hw
      exact absurd hb (hy.tail_unmarked b (by simp))

theorem mark_of_mem_prefixes (hL : ∀ w ∈ L, Headed mark w) (h : a :: x ∈ prefixes L∗) : mark a := by
  obtain ⟨_, ⟨words, rfl, hwords⟩, hprefix⟩ := h
  exact mark_of_prefix_flatten (fun w hw => hL w (hwords w hw)) hprefix

/-- A series of headed words without a second mark goes no further than one of them. -/
theorem mem_prefixes_of_unmarked_tail (hL : ∀ w ∈ L, Headed mark w) (hw : w ∈ L)
    (hx : x ∈ prefixes L∗) (htail : ∀ b ∈ x.tail, ¬ mark b) : x ∈ prefixes L := by
  cases x with
  | nil => exact ⟨w, hw, List.nil_prefix⟩
  | cons a x =>
    obtain ⟨_, ⟨words, rfl, hwords⟩, h⟩ := hx
    have hheaded : ∀ w ∈ words, Headed mark w := fun w hw => hL w (hwords w hw)
    have hx : Headed mark (a :: x) := ⟨a, x, rfl, mark_of_prefix_flatten hheaded h, htail⟩
    cases words with
    | nil => simp at h
    | cons v rest =>
      obtain ⟨hv, hrest⟩ := List.forall_mem_cons.mp hheaded
      exact ⟨v, hwords v List.mem_cons_self, hv.prefix_of_append hx hrest h⟩

/-- A headed part of a series of headed words is where one of them is, and is all of it if the
series goes on with a mark. -/
theorem Headed.mem_of_flatten (hwords : ∀ w ∈ words, Headed mark w) (hy : Headed mark y)
    (h : x ++ y ++ z <+: words.flatten) : ∃ w ∈ words, y <+: w ∧ (∀ c ∈ z.head?, mark c →
      y = w) := by
  induction words generalizing x with
  | nil =>
    obtain ⟨a, y, rfl, -, -⟩ := hy
    simp at h
  | cons w rest ih =>
    obtain ⟨hw, hrest⟩ := List.forall_mem_cons.mp hwords
    rw [List.flatten_cons, List.append_assoc] at h
    have hx : x <+: w ++ rest.flatten := (List.prefix_append x _).trans h
    obtain ⟨u, rfl⟩ | ⟨u, rfl⟩ :=
      List.prefix_or_prefix_of_prefix (List.prefix_append w rest.flatten) hx
    · -- the word ends before the part begins
      rw [List.append_assoc, List.prefix_append_right_inj, ← List.append_assoc] at h
      obtain ⟨v, hv, hyv⟩ := ih hrest h
      exact ⟨v, List.mem_cons_of_mem _ hv, hyv⟩
    · rw [List.append_assoc, List.prefix_append_right_inj] at h
      cases u with
      | nil =>
        rw [List.nil_append] at h
        obtain ⟨v, hv, hyv⟩ := ih hrest (x := []) h
        exact ⟨v, List.mem_cons_of_mem _ hv, hyv⟩
      | cons b u =>
        -- the part begins within the word, and so where the word does
        obtain ⟨a, y, rfl, ha, hunmarked⟩ := hy
        have hab : a = b := by
          rw [List.cons_append, List.cons_append, List.cons_prefix_cons] at h
          exact h.1
        subst hab
        cases x with
        | cons e x => exact absurd ha (hw.tail_unmarked a (by simp))
        | nil =>
          have hy : Headed mark (a :: y) := ⟨a, y, rfl, ha, hunmarked⟩
          have hprefix := hw.prefix_of_append hy hrest ((List.prefix_append _ z).trans h)
          refine ⟨_, List.mem_cons_self, hprefix, fun c hc hmark => ?_⟩
          obtain ⟨z, rfl⟩ := List.head?_eq_some_iff.mp hc
          obtain ⟨v, hv⟩ := hprefix
          cases v with
          | nil => simpa using hv
          | cons d v =>
            rw [List.nil_append] at hv
            rw [← hv, List.append_assoc, List.prefix_append_right_inj, List.cons_append,
              List.cons_prefix_cons] at h
            rw [← hv] at hw
            exact absurd hmark (hw.tail_unmarked c (by simp [h.1]))

end FmClient.Lib
