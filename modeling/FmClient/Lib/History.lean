import FmClient.Lib.TransitionSystem
import Mathlib.Data.List.Induction

/-! Properties of a history that grows at its end: what has happened last, and what
has held at every moment. -/
namespace FmClient.Lib
variable {α : Type*} {p q : α → Prop} {P : List α → Prop} {C : List α → α → Prop}
  {x y : List α} {a : α}

/-- There has been a `p`, and no `q` after it. -/
def Since (p q : α → Prop) (x : List α) : Prop :=
  ∃ u a v, x = u ++ a :: v ∧ p a ∧ ∀ b ∈ v, ¬ q b

@[simp] theorem not_since_nil : ¬ Since p q [] := by
  simp [Since]

theorem since_concat : Since p q (x ++ [a]) ↔ p a ∨ Since p q x ∧ ¬ q a := by
  constructor
  · intro ⟨u, b, v, heq, hp, hq⟩
    obtain rfl | ⟨v, c, rfl⟩ := List.eq_nil_or_concat v
    · obtain ⟨_, hab⟩ := List.append_inj' heq rfl
      cases hab
      exact .inl hp
    · have heq' : x ++ [a] = (u ++ b :: v) ++ [c] := by simpa using heq
      obtain ⟨hx, hac⟩ := List.append_inj' heq' rfl
      cases hac
      exact .inr ⟨⟨u, b, v, hx, hp, fun d hd => hq d (by simp [hd])⟩, hq a (by simp)⟩
  · rintro (hp | ⟨⟨u, b, v, rfl, hp, hq⟩, ha⟩)
    · exact ⟨x, a, [], rfl, hp, by simp⟩
    · refine ⟨u, b, v ++ [a], by simp, hp, fun d hd => ?_⟩
      obtain hd | hd := List.mem_append.mp hd
      · exact hq d hd
      · rwa [List.mem_singleton.mp hd]

theorem since_cons : Since p q (a :: x) ↔ Since p q x ∨ p a ∧ ∀ b ∈ x, ¬ q b := by
  constructor
  · intro ⟨u, b, v, heq, hp, hq⟩
    cases u with
    | nil =>
      cases heq
      exact .inr ⟨hp, hq⟩
    | cons c u =>
      cases heq
      exact .inl ⟨u, b, v, rfl, hp, hq⟩
  · rintro (⟨u, b, v, rfl, hp, hq⟩ | ⟨hp, hq⟩)
    · exact ⟨a :: u, b, v, rfl, hp, hq⟩
    · exact ⟨[], a, x, rfl, hp, hq⟩

theorem Since.exists (h : Since p q x) : ∃ a ∈ x, p a := by
  obtain ⟨u, a, v, rfl, hp, -⟩ := h
  exact ⟨a, by simp, hp⟩

theorem since_or_since (h : ∃ a ∈ x, p a ∨ q a) : Since p q x ∨ Since q p x := by
  induction x using List.reverseRecOn with
  | nil => simp at h
  | append_singleton x a ih =>
    simp only [since_concat]
    by_cases hp : p a
    · exact .inl (.inl hp)
    · by_cases hq : q a
      · exact .inr (.inl hq)
      · have hx : ∃ a ∈ x, p a ∨ q a := by simpa [or_and_right, exists_or, hp, hq] using h
        exact (ih hx).imp (fun h => .inr ⟨h, hq⟩) fun h => .inr ⟨h, hp⟩

theorem Since.not_swap (hpq : ∀ a, p a → ¬ q a) (h : Since p q x) : ¬ Since q p x := by
  induction x using List.reverseRecOn with
  | nil => simp at h
  | append_singleton x a ih =>
    rw [since_concat] at h ⊢
    obtain hp | ⟨hx, hq⟩ := h
    · rintro (hq | ⟨-, hp'⟩)
      · exact hpq a hp hq
      · exact hp' hp
    · rintro (hq' | ⟨hx', -⟩)
      · exact hq hq'
      · exact ih hx hx'

/-- Whether `p` was last, from one end of the history to the other. -/
def sinceFold (p q : α → Prop) [DecidablePred p] [DecidablePred q] (x : List α) : Bool :=
  x.foldl (fun held a => decide (p a) || held && !decide (q a)) false

theorem sinceFold_iff [DecidablePred p] [DecidablePred q] :
    sinceFold p q x = true ↔ Since p q x := by
  induction x using List.reverseRecOn with
  | nil => simp [sinceFold]
  | append_singleton x a ih =>
    rw [since_concat, ← ih]
    simp [sinceFold]

instance [DecidablePred p] [DecidablePred q] : Decidable (Since p q x) :=
  decidable_of_iff _ sinceFold_iff

def Always (P : List α → Prop) (x : List α) : Prop := ∀ u, u <+: x → P u

theorem Always.last (h : Always P x) : P x := h x List.prefix_rfl

theorem always_nil : Always P [] ↔ P [] := by
  simp [Always]

theorem always_concat : Always P (x ++ [a]) ↔ Always P x ∧ P (x ++ [a]) := by
  constructor
  · exact fun h => ⟨fun u hu => h u (hu.trans (List.prefix_append x [a])), h.last⟩
  · intro ⟨h, hlast⟩ u hu
    obtain rfl | hu := List.prefix_concat_iff.mp hu
    · exact hlast
    · exact h u hu

theorem always_append (hx : Always P x) (hy : ∀ u, u <+: y → P (x ++ u)) : Always P (x ++ y) := by
  induction y using List.reverseRecOn with
  | nil => rwa [List.append_nil]
  | append_singleton y a ih =>
    rw [← List.append_assoc, always_concat]
    refine ⟨ih fun u hu => hy u (hu.trans (List.prefix_append y [a])), ?_⟩
    rw [List.append_assoc]
    exact hy _ List.prefix_rfl

/-- Everything that happens is compatible with what came before. -/
def Each (C : List α → α → Prop) (x : List α) : Prop := ∀ u a, u ++ [a] <+: x → C u a

theorem each_nil : Each C [] := by
  simp [Each]

theorem each_concat : Each C (x ++ [a]) ↔ Each C x ∧ C x a := by
  constructor
  · exact fun h => ⟨fun u b hu => h u b (hu.trans (List.prefix_append x [a])),
      h x a List.prefix_rfl⟩
  · intro ⟨h, hlast⟩ u b hu
    obtain heq | hu := List.prefix_concat_iff.mp hu
    · obtain ⟨rfl, hb⟩ := List.append_inj' heq rfl
      cases hb
      exact hlast
    · exact h u b hu

theorem Each.append (hx : Each C x) (hy : ∀ u a, u ++ [a] <+: y → C (x ++ u) a) :
    Each C (x ++ y) := by
  induction y using List.reverseRecOn with
  | nil => rwa [List.append_nil]
  | append_singleton y a ih =>
    rw [← List.append_assoc, each_concat]
    exact ⟨ih fun u b hu => hy u b (hu.trans (List.prefix_append y [a])), hy y a List.prefix_rfl⟩

theorem each_append (hy : ∀ a ∈ y, ∀ u, C u a) : Each C (x ++ y) ↔ Each C x := by
  induction y using List.reverseRecOn with
  | nil => rw [List.append_nil]
  | append_singleton y a ih =>
    obtain ⟨hy, ha⟩ := List.forall_mem_append.mp hy
    rw [← List.append_assoc, each_concat, ih hy]
    exact and_iff_left (List.forall_mem_singleton.mp ha _)

theorem each_const : Each (fun _ => p) x ↔ ∀ a ∈ x, p a := by
  induction x using List.reverseRecOn with
  | nil => simp [each_nil]
  | append_singleton x a ih =>
    rw [each_concat, ih, List.forall_mem_append, List.forall_mem_singleton]

theorem each_iff_getElem : Each C x ↔ ∀ i (hi : i < x.length), C (x.take i) x[i] := by
  induction x using List.reverseRecOn with
  | nil => simp [each_nil]
  | append_singleton x a ih =>
    rw [each_concat, ih]
    constructor
    · intro ⟨h, hlast⟩ i hi
      by_cases hlt : i < x.length
      · simpa [List.take_append_of_le_length (Nat.le_of_lt hlt), hlt] using h i hlt
      · have heq : i = x.length := by
          simp only [List.length_append, List.length_singleton] at hi
          omega
        subst heq
        simpa using hlast
    · intro h
      refine ⟨fun i hi => ?_, by simpa using h x.length (by simp)⟩
      have hi' : i < (x ++ [a]).length := by
        simp only [List.length_append, List.length_singleton]
        omega
      simpa [List.take_append_of_le_length (Nat.le_of_lt hi), hi] using h i hi'

instance [∀ u a, Decidable (C u a)] : Decidable (Each C x) :=
  decidable_of_iff _ each_iff_getElem.symm

/-- Along a run it is enough to compare two conditions step by step. -/
theorem TransitionSystem.Run.each_iff {σ β : Type*} {A : TransitionSystem σ β}
    {h : List (Transition σ β)} {s : σ} {C D : List (Transition σ β) → Transition σ β → Prop}
    (hr : A.Run h s)
    (hiff : ∀ u s a t, A.Run u s → A.step s a t → (C u ⟨s, a, t⟩ ↔ D u ⟨s, a, t⟩)) :
    Each C h ↔ Each D h := by
  induction hr with
  | start => exact iff_of_true each_nil each_nil
  | next hr ht ih => rw [each_concat, each_concat, ih, hiff _ _ _ _ hr ht]

end FmClient.Lib
