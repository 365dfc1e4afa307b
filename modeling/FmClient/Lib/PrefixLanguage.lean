import FmClient.Lib.TransitionSystem
import Mathlib.Computability.Language
import Mathlib.Order.CompletePartialOrder

/-! Systems whose output is, at any time, a prefix of a word of a language: each state
has a phase, a language of the outputs so far, from which every word can be completed. -/
namespace FmClient.Lib
open Computability
variable {α σ β : Type*} {L M N : Language α} {x y : List α} {a : α}

def symbol (a : α) : Language α := {[a]}

theorem mem_symbol (a : α) : [a] ∈ symbol a := rfl

def prefixes (L : Language α) : Language α := {x | ∃ w ∈ L, x <+: w}

theorem append_mem_of_le (h : L * M ≤ N) (hx : x ∈ L) (hy : y ∈ M) : x ++ y ∈ N :=
  h (Language.append_mem_mul hx hy)

theorem append_symbol_mem (h : L * symbol a ≤ N) (hx : x ∈ L) : x ++ [a] ∈ N :=
  append_mem_of_le h hx (mem_symbol a)

theorem append_kstar (hx : x ∈ L∗) (hy : y ∈ L) : x ++ y ∈ L∗ :=
  append_mem_of_le kstar_mul_le_kstar hx hy

theorem mem_mul_star (hx : x ∈ L) : x ∈ L * M∗ :=
  ⟨x, hx, [], Language.nil_mem_kstar M, List.append_nil x⟩

theorem append_star (hx : x ∈ L * M∗) (hy : y ∈ M) : x ++ y ∈ L * M∗ := by
  have hle : L * M∗ * M ≤ L * M∗ := by
    rw [mul_assoc]
    gcongr
    exact kstar_mul_le_kstar
  exact append_mem_of_le hle hx hy

theorem mem_prefixes_of_append (h : x ++ y ∈ L) : x ∈ prefixes L :=
  ⟨x ++ y, h, List.prefix_append x y⟩

/-- Where every step takes the output from the phase of its source to that of its target,
and every phase can be completed, the output is a prefix of a word. -/
theorem output_mem_prefixes {A : TransitionSystem σ β} {s : σ} (output : σ → List α)
    (phase : σ → Language α) (hs : A.Reachable s) (hinit : ∀ s, A.init s → output s ∈ phase s)
    (hstep : ∀ s b t, A.Reachable s → output s ∈ phase s → A.step s b t → output t ∈ phase t)
    (hphase : ∀ s x, x ∈ phase s → x ∈ prefixes L) : output s ∈ prefixes L :=
  hphase s _ (hs.invariant (P := fun s => output s ∈ phase s) hinit hstep)

end FmClient.Lib
