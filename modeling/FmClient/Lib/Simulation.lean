import FmClient.Lib.TransitionSystem

/-! Forward simulation: what one system does, seen through a function of its states, is done by
another. Some steps are not seen at all. -/
namespace FmClient.Lib
variable {σ τ α β : Type*}

/-- A step that meets `C` is seen as a step of `B`, or leaves what is seen as it was. -/
structure Simulation (A : TransitionSystem σ α) (B : TransitionSystem τ β) (f : σ → τ)
    (seen : Transition σ α → Option β) (C : Transition σ α → Prop) : Prop where
  init (s : σ) (hs : A.init s) : B.init (f s)
  step (s : σ) (a : α) (t : σ) (b : β) (hr : A.Reachable s) (hs : A.step s a t) (hc : C ⟨s, a, t⟩)
    (hb : seen ⟨s, a, t⟩ = some b) : B.step (f s) b (f t)
  stutter (s : σ) (a : α) (t : σ) (hr : A.Reachable s) (hs : A.step s a t) (hc : C ⟨s, a, t⟩)
    (hb : seen ⟨s, a, t⟩ = none) : f t = f s

namespace Simulation
variable {A : TransitionSystem σ α} {B : TransitionSystem τ β} {f : σ → τ}
  {seen : Transition σ α → Option β} {C : Transition σ α → Prop}
  {h : List (Transition σ α)} {s : σ}

theorem run (hsim : Simulation A B f seen C) (hr : A.Run h s) (hall : ∀ t ∈ h, C t) :
    ∃ k, B.Run k (f s) ∧ k.map Transition.label = h.filterMap seen := by
  induction hr with
  | start hs => exact ⟨[], .start (hsim.init _ hs), rfl⟩
  | @next h s t a hr ht ih =>
    obtain ⟨hall, hlast⟩ := List.forall_mem_append.mp hall
    have hc := List.forall_mem_singleton.mp hlast
    obtain ⟨k, hk, hlabels⟩ := ih hall
    rw [List.filterMap_append, ← hlabels]
    cases hb : seen ⟨s, a, t⟩ with
    | none =>
      refine ⟨k, ?_, by simp [hb]⟩
      rw [hsim.stutter s a t hr.reachable ht hc hb]
      exact hk
    | some b =>
      have hstep := hsim.step s a t b hr.reachable ht hc hb
      exact ⟨_, hk.next hstep, by simp [hb]⟩

end Simulation
end FmClient.Lib
