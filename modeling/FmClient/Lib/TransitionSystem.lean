import Mathlib.Data.List.Basic

/-! Labelled transition systems and their finite runs. A run keeps every
transition it took, so that a property may speak of the whole history. -/
namespace FmClient.Lib

structure TransitionSystem (σ α : Type*) where
  init : σ → Prop
  step : σ → α → σ → Prop

/-- One step of a run: the state before, the label and the state after. -/
structure Transition (σ α : Type*) where
  source : σ
  label : α
  target : σ

namespace TransitionSystem
variable {σ τ α β : Type*} {A : TransitionSystem σ α} {h : List (Transition σ α)} {s : σ}

inductive Run (A : TransitionSystem σ α) : List (Transition σ α) → σ → Prop where
  | start {s : σ} (hs : A.init s) : Run A [] s
  | next {h : List (Transition σ α)} {s t : σ} {a : α} (hr : Run A h s)
      (ht : A.step s a t) : Run A (h ++ [⟨s, a, t⟩]) t

def Reachable (A : TransitionSystem σ α) (s : σ) : Prop := ∃ h, A.Run h s

theorem Run.reachable (hr : A.Run h s) : A.Reachable s := ⟨h, hr⟩

theorem Reachable.init (hs : A.init s) : A.Reachable s := ⟨[], .start hs⟩

theorem Reachable.next {t : σ} {a : α} (hs : A.Reachable s) (ht : A.step s a t) :
    A.Reachable t := by
  obtain ⟨h, hr⟩ := hs
  exact ⟨_, hr.next ht⟩

theorem Run.nil (hr : A.Run [] s) : A.init s := by
  generalize hk : ([] : List (Transition σ α)) = k at hr
  cases hr with
  | start hs => exact hs
  | next hr ht => simp at hk

theorem Run.concat {t : Transition σ α} (hr : A.Run (h ++ [t]) s) :
    A.Run h t.source ∧ A.step t.source t.label t.target ∧ s = t.target := by
  generalize hk : h ++ [t] = k at hr
  cases hr with
  | start => simp at hk
  | next hr ht =>
    obtain ⟨rfl, heq⟩ := List.append_inj' hk rfl
    cases heq
    exact ⟨hr, ht, rfl⟩

theorem Run.before {u w : List (Transition σ α)} {t : Transition σ α}
    (hr : A.Run (u ++ t :: w) s) : A.Run u t.source := by
  generalize hk : u ++ t :: w = k at hr
  induction hr generalizing w with
  | start => simp at hk
  | @next k s v a hr ht ih =>
    obtain rfl | ⟨w, x, rfl⟩ := List.eq_nil_or_concat w
    · obtain ⟨rfl, heq⟩ := List.append_inj' hk rfl
      cases heq
      exact hr
    · rw [List.concat_eq_append, ← List.cons_append, ← List.append_assoc] at hk
      obtain ⟨hk, -⟩ := List.append_inj' hk rfl
      exact ih hk

/-- A predicate of history and state that every step extends holds of every run. -/
theorem Run.induct {P : List (Transition σ α) → σ → Prop} (hr : A.Run h s)
    (hinit : ∀ s, A.init s → P [] s)
    (hstep : ∀ h s a t, A.Run h s → P h s → A.step s a t → P (h ++ [⟨s, a, t⟩]) t) :
    P h s := by
  induction hr with
  | start hs => exact hinit _ hs
  | next hr ht ih => exact hstep _ _ _ _ hr ih ht

/-- An inductive invariant holds of every reachable state. -/
theorem Reachable.invariant {P : σ → Prop} (hs : A.Reachable s)
    (hinit : ∀ s, A.init s → P s)
    (hstep : ∀ s a t, A.Reachable s → P s → A.step s a t → P t) : P s := by
  obtain ⟨h, hr⟩ := hs
  exact hr.induct (P := fun _ s => P s) hinit fun _ s a t hr hp ht => hstep s a t ⟨_, hr⟩ hp ht

/-- An invariant that only steps meeting `C` keep holds of the runs made of such steps. -/
theorem Run.invariant_of_forall {P : σ → Prop} {C : Transition σ α → Prop} (hr : A.Run h s)
    (hinit : ∀ s, A.init s → P s)
    (hstep : ∀ s a t, A.Reachable s → P s → A.step s a t → C ⟨s, a, t⟩ → P t)
    (hall : ∀ t ∈ h, C t) : P s := by
  induction hr with
  | start hs => exact hinit _ hs
  | next hr ht ih =>
    have hp := ih fun t hmem => hall t (List.mem_append_left _ hmem)
    exact hstep _ _ _ hr.reachable hp ht (hall _ (by simp))

/-- Where steps that meet `C` keep `I` and are good from an `I`-state, all steps of the runs made
of such steps are good. -/
theorem Run.forall_of_forall {I : σ → Prop} {G C : Transition σ α → Prop} (hr : A.Run h s)
    (hinit : ∀ s, A.init s → I s)
    (hstep : ∀ s a t, A.Reachable s → I s → A.step s a t → C ⟨s, a, t⟩ → I t ∧ G ⟨s, a, t⟩)
    (hall : ∀ t ∈ h, C t) : ∀ t ∈ h, G t := by
  suffices hs : I s ∧ ∀ t ∈ h, G t from hs.2
  induction hr with
  | start hs => exact ⟨hinit _ hs, by simp⟩
  | next hr ht ih =>
    simp only [List.forall_mem_append, List.forall_mem_singleton] at hall ⊢
    obtain ⟨hi, hg⟩ := ih hall.1
    obtain ⟨hi', hgt⟩ := hstep _ _ _ hr.reachable hi ht hall.2
    exact ⟨hi', hg, hgt⟩

/-- Where steps that meet `C` keep `I`, and a step from an `I`-state is good exactly when it
meets `C`, all steps of a run are good exactly when all of them meet `C`. -/
theorem Run.forall_iff {I : σ → Prop} {G C : Transition σ α → Prop} (hr : A.Run h s)
    (hinit : ∀ s, A.init s → I s)
    (hkeep : ∀ s a t, A.Reachable s → I s → A.step s a t → C ⟨s, a, t⟩ → I t)
    (hiff : ∀ s a t, A.Reachable s → I s → A.step s a t → (G ⟨s, a, t⟩ ↔ C ⟨s, a, t⟩)) :
    (∀ t ∈ h, G t) ↔ ∀ t ∈ h, C t := by
  suffices hs : ((∀ t ∈ h, G t) ↔ ∀ t ∈ h, C t) ∧ ((∀ t ∈ h, C t) → I s) from hs.1
  induction hr with
  | start hs => exact ⟨by simp, fun _ => hinit _ hs⟩
  | @next h s t a hr ht ih =>
    obtain ⟨hall, hlast⟩ := ih
    simp only [List.forall_mem_append, List.forall_mem_singleton]
    refine ⟨?_, fun ⟨hc, hd⟩ => hkeep _ _ _ hr.reachable (hlast hc) ht hd⟩
    constructor
    · intro ⟨hg, hgt⟩
      have hc := hall.mp hg
      exact ⟨hc, (hiff _ _ _ hr.reachable (hlast hc) ht).mp hgt⟩
    · intro ⟨hc, hct⟩
      exact ⟨hall.mpr hc, (hiff _ _ _ hr.reachable (hlast hc) ht).mpr hct⟩

/-- Where a step from a `P`-state leads to a `P`-state exactly when it meets `C`, a run stays
in `P` exactly when all its steps meet `C`. Only the states in `D` need be looked at, if the
others are in `P` anyway. -/
theorem Run.forall_target_iff {D P : σ → Prop} {C : Transition σ α → Prop} (hr : A.Run h s)
    (hinit : ∀ s, A.init s → P s) (houtside : ∀ s, A.Reachable s → ¬ D s → P s)
    (hstep : ∀ s a t, A.Reachable s → P s → A.step s a t → (P t ↔ C ⟨s, a, t⟩)) :
    (∀ t ∈ h, D t.target → P t.target) ↔ ∀ t ∈ h, C t := by
  refine hr.forall_iff (I := P) (G := fun t => D t.target → P t.target) hinit ?_ ?_
  · intro s a t hs hp ht
    exact (hstep s a t hs hp ht).mpr
  · intro s a t hs hp ht
    rw [← hstep s a t hs hp ht]
    refine ⟨fun h => ?_, fun h _ => h⟩
    by_cases hd : D t
    · exact h hd
    · exact houtside t (hs.next ht) hd

theorem Run.mem_step (hr : A.Run h s) {t : Transition σ α} (ht : t ∈ h) :
    A.Reachable t.source ∧ A.step t.source t.label t.target := by
  induction hr with
  | start => simp at ht
  | next hr hs ih =>
    obtain hmem | hmem := List.mem_append.mp ht
    · exact ih hmem
    · rw [List.mem_singleton.mp hmem]
      exact ⟨hr.reachable, hs⟩

def restrict (A : TransitionSystem σ α) (D : Transition σ α → Prop) : TransitionSystem σ α where
  init := A.init
  step s a t := A.step s a t ∧ D ⟨s, a, t⟩

theorem Run.restrict {D : Transition σ α → Prop} (hr : A.Run h s) (hd : ∀ t ∈ h, D t) :
    (A.restrict D).Run h s := by
  induction hr with
  | start hs => exact .start hs
  | next hr ht ih =>
    obtain ⟨hbefore, hlast⟩ := List.forall_mem_append.mp hd
    exact (ih hbefore).next ⟨ht, List.forall_mem_singleton.mp hlast⟩

def ofStep (s₀ : σ) (f : σ → α → Option σ) : TransitionSystem σ α where
  init s := s = s₀
  step s a t := f s a = some t

/-- The transitions along a list of labels, and the last state, where all are enabled. -/
def execute (f : σ → α → Option σ) : σ → List α → Option (List (Transition σ α) × σ)
  | s, [] => some ([], s)
  | s, a :: as => (f s a).bind fun t => (execute f t as).map fun r => (⟨s, a, t⟩ :: r.1, r.2)

variable {s₀ : σ} {f : σ → α → Option σ} {labels : List α} {k : List (Transition σ α)} {u : σ}

theorem Run.execute (hr : (ofStep s₀ f).Run h s)
    (he : TransitionSystem.execute f s labels = some (k, u)) :
    (ofStep s₀ f).Run (h ++ k) u := by
  induction labels generalizing h s k with
  | nil =>
    cases he
    simpa using hr
  | cons a as ih =>
    simp only [TransitionSystem.execute, Option.bind_eq_some_iff, Option.map_eq_some_iff,
      Prod.mk.injEq] at he
    obtain ⟨t, ht, ⟨k', u'⟩, hk, rfl, rfl⟩ := he
    simpa [List.append_assoc] using ih (hr.next ht) hk

theorem execute_labels (he : execute f s labels = some (h, u)) :
    h.map Transition.label = labels := by
  induction labels generalizing s h with
  | nil =>
    cases he
    rfl
  | cons a as ih =>
    simp only [execute, Option.bind_eq_some_iff, Option.map_eq_some_iff, Prod.mk.injEq] at he
    obtain ⟨t, -, ⟨k, v⟩, hk, rfl, rfl⟩ := he
    rw [List.map_cons, ih hk]

theorem run_execute (s₀ : σ) (f : σ → α → Option σ) (labels : List α)
    (he : execute f s₀ labels = some (k, u)) : (ofStep s₀ f).Run k u := by
  simpa using (Run.start (A := ofStep s₀ f) (s := s₀) rfl).execute he

/-- A run with a property that can be computed, from its labels. -/
theorem exists_run (s₀ : σ) (f : σ → α → Option σ) (labels : List α)
    {p : List (Transition σ α) → σ → Bool}
    (he : (execute f s₀ labels).any (fun r => p r.1 r.2) = true) :
    ∃ h s, (ofStep s₀ f).Run h s ∧ p h s = true := by
  rw [Option.any_eq_true] at he
  obtain ⟨⟨h, s⟩, he, hp⟩ := he
  exact ⟨h, s, run_execute s₀ f labels he, hp⟩

end TransitionSystem
end FmClient.Lib
