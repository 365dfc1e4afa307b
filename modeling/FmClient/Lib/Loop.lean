import Mathlib.Logic.Function.Iterate

/-! A loop that runs while a test on its state holds, with fuel for its rounds: whether it ends
is a question of the states its body goes through. -/
namespace FmClient.Lib
variable {σ : Type*} (go : σ → Bool) (body : σ → σ)

/-- `none` when the fuel is used up before the test fails. -/
def whileLoop : ℕ → σ → Option σ
  | 0, _ => none
  | fuel + 1, s => if go s then whileLoop fuel (body s) else some s

section
variable {go body} {s t : σ} {n fuel : ℕ}

/-- With enough fuel the loop comes to the first state where the test fails. -/
theorem whileLoop_of_first (hgo : ∀ m < n, go (body^[m] s) = true)
    (hstop : go (body^[n] s) = false) : whileLoop go body (n + 1) s = some (body^[n] s) := by
  induction n generalizing s with
  | zero =>
    have hs : go s = false := hstop
    simp [whileLoop, hs]
  | succ n ih =>
    have hs : go s = true := hgo 0 n.succ_pos
    have hrest := ih (fun m hm => hgo (m + 1) (Nat.succ_lt_succ hm)) hstop
    simpa [whileLoop, hs] using hrest

theorem first_of_whileLoop (h : whileLoop go body fuel s = some t) :
    ∃ n, (∀ m < n, go (body^[m] s) = true) ∧ go (body^[n] s) = false ∧ body^[n] s = t := by
  induction fuel generalizing s with
  | zero => cases h
  | succ fuel ih =>
    cases hs : go s with
    | false =>
      simp only [whileLoop, hs, Bool.false_eq_true, if_false, Option.some.injEq] at h
      exact ⟨0, fun m hm => absurd hm m.not_lt_zero, hs, h⟩
    | true =>
      simp only [whileLoop, hs, if_true] at h
      obtain ⟨n, hgo, hstop, ht⟩ := ih h
      refine ⟨n + 1, ?_, hstop, ht⟩
      intro m hm
      cases m with
      | zero => exact hs
      | succ m => exact hgo m (Nat.lt_of_succ_lt_succ hm)

theorem whileLoop_unique {fuel' : ℕ} {t' : σ} (h : whileLoop go body fuel s = some t)
    (h' : whileLoop go body fuel' s = some t') : t = t' := by
  obtain ⟨m, hgo, hstop, ht⟩ := first_of_whileLoop h
  obtain ⟨n, hgo', hstop', ht'⟩ := first_of_whileLoop h'
  have hmn : m = n := by
    by_contra hne
    cases Nat.lt_or_gt_of_ne hne with
    | inl hlt => simp [hgo' m hlt] at hstop
    | inr hgt => simp [hgo n hgt] at hstop'
  subst hmn
  exact ht.symm.trans ht'

end
end FmClient.Lib
