import Mathlib.Data.List.Forall2

/-! Two lists in step, and a stream that is put together from pieces of what it should be. -/
namespace FmClient.Lib
variable {α β : Type*}

theorem forall₂_concat {R : α → β → Prop} {x : List α} {y : List β} {a : α} {b : β} :
    List.Forall₂ R (x ++ [a]) (y ++ [b]) ↔ List.Forall₂ R x y ∧ R a b := by
  rw [← List.forall₂_reverse_iff, List.reverse_concat, List.reverse_concat, List.forall₂_cons,
    List.forall₂_reverse_iff, and_comm]

/-- Each piece is the beginning of its part. -/
def Begins (x y : List (List α)) : Prop := List.Forall₂ (· <+: ·) x y

variable {x y : List (List α)} {a b : List α}

theorem Begins.concat (h : Begins x y) (hab : a <+: b) : Begins (x ++ [a]) (y ++ [b]) :=
  forall₂_concat.mpr ⟨h, hab⟩

theorem Begins.length_flatten_le (h : Begins x y) : x.flatten.length ≤ y.flatten.length := by
  induction h with
  | nil => exact Nat.le_refl _
  | cons hab _ ih =>
    simp only [List.flatten_cons, List.length_append]
    exact Nat.add_le_add hab.length_le ih

theorem Begins.flatten_eq_iff (h : Begins x y) : x.flatten = y.flatten ↔ x = y := by
  refine ⟨fun heq => ?_, congrArg List.flatten⟩
  induction h with
  | nil => rfl
  | @cons a b x y hab hxy ih =>
    rw [List.flatten_cons, List.flatten_cons] at heq
    have hlength := congrArg List.length heq
    simp only [List.length_append] at hlength
    have hrest := Begins.length_flatten_le hxy
    have hfirst : a.length = b.length := by
      have hle := hab.length_le
      omega
    obtain ⟨rfl, htail⟩ := List.append_inj heq hfirst
    rw [ih htail]

end FmClient.Lib
