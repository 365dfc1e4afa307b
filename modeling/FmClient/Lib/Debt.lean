import FmClient.Lib.TransitionSystem

/-! A debt that some steps leave behind and that stays until a bad step pays for it: the runs
without such steps are those that come to no bad step, however they are settled. -/
namespace FmClient.Lib
variable {σ α : Type*}

/-- `incurs` steps leave a state in `debt`, from which a `bad` step is always at hand. -/
structure Debt (A : TransitionSystem σ α) (incurs bad : Transition σ α → Prop) (debt : σ → Prop)
    (settles : α → Prop) : Prop where
  init {s : σ} (hs : A.init s) : ¬ debt s
  source {s t : σ} {a : α} (hr : A.Reachable s) (hs : A.step s a t) (ht : debt t) :
    debt s ∨ incurs ⟨s, a, t⟩
  target {s t : σ} {a : α} (hr : A.Reachable s) (hs : A.step s a t) (ht : incurs ⟨s, a, t⟩) :
    debt t
  kept {s t : σ} {a : α} (hr : A.Reachable s) (hs : A.step s a t) (hd : debt s) :
    debt t ∨ bad ⟨s, a, t⟩
  due {s t : σ} {a : α} (hr : A.Reachable s) (hs : A.step s a t) (hb : bad ⟨s, a, t⟩) : debt s
  payable {s : σ} (hr : A.Reachable s) (hd : debt s) :
    ∃ a t, settles a ∧ A.step s a t ∧ bad ⟨s, a, t⟩
  harmless {s t : σ} {a : α} (ha : settles a) (hs : A.step s a t) : ¬ incurs ⟨s, a, t⟩

namespace Debt
variable {A : TransitionSystem σ α} {incurs bad : Transition σ α → Prop} {debt : σ → Prop}
  {settles : α → Prop} {h : List (Transition σ α)} {s : σ}

theorem none_bad (hd : Debt A incurs bad debt settles) (hr : A.Run h s)
    (hnone : ∀ t ∈ h, ¬ incurs t) : ¬ debt s ∧ ∀ t ∈ h, ¬ bad t := by
  induction hr with
  | start hs => exact ⟨hd.init hs, by simp⟩
  | next hr ht ih =>
    obtain ⟨hfree, hgood⟩ := ih fun t hmem => hnone t (List.mem_append_left _ hmem)
    refine ⟨fun hdebt => ?_, List.forall_mem_append.mpr ⟨hgood, ?_⟩⟩
    · cases hd.source hr.reachable ht hdebt with
      | inl hsource => exact hfree hsource
      | inr hincurs => exact hnone _ (by simp) hincurs
    · exact List.forall_mem_singleton.mpr fun hbad => hfree (hd.due hr.reachable ht hbad)

/-- What was incurred is owed still, or has been paid for. -/
theorem owed (hd : Debt A incurs bad debt settles) (hr : A.Run h s)
    (hincurs : ∃ t ∈ h, incurs t) : debt s ∨ ∃ t ∈ h, bad t := by
  induction hr with
  | start => simp at hincurs
  | @next h s v a hr hv ih =>
    by_cases hlast : incurs ⟨s, a, v⟩
    · exact .inl (hd.target hr.reachable hv hlast)
    · have hbefore : ∃ t ∈ h, incurs t := by simpa [or_and_right, exists_or, hlast] using hincurs
      obtain hdebt | ⟨t, ht, hbad⟩ := ih hbefore
      · exact (hd.kept hr.reachable hv hdebt).imp_right fun hbad => ⟨_, by simp, hbad⟩
      · exact .inr ⟨t, List.mem_append_left _ ht, hbad⟩

/-- A run incurs nothing exactly if no way to settle it comes to a bad step. -/
theorem forall_iff (hd : Debt A incurs bad debt settles) (hr : A.Run h s) :
    (∀ t ∈ h, ¬ incurs t) ↔ ∀ k u, A.Run (h ++ k) u → (∀ t ∈ k, settles t.label) →
      ∀ t ∈ h ++ k, ¬ bad t := by
  constructor
  · intro hnone k u hru hk
    refine (hd.none_bad hru (List.forall_mem_append.mpr ⟨hnone, fun t ht => ?_⟩)).2
    exact hd.harmless (hk t ht) (hru.mem_step (List.mem_append_right _ ht)).2
  · intro hgood t ht hincurs
    obtain hdebt | ⟨t, ht, hbad⟩ := hd.owed hr ⟨t, ht, hincurs⟩
    · obtain ⟨a, u, ha, hs, hbad⟩ := hd.payable hr.reachable hdebt
      refine hgood _ _ (hr.next hs) ?_ _ ?_ hbad
      · simpa using ha
      · simp
    · exact hgood [] s (by simpa using hr) (by simp) t (by simpa using ht) hbad

end Debt
end FmClient.Lib
