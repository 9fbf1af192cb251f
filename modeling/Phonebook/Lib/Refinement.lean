import Phonebook.Lib.Runs

/-! # Refinement mappings and fair schedules

A detailed system and a plain one go by the same schedule. If a map takes every step of the detailed
system to the same step of the plain one or to no step at all, it takes every run to a run of the
plain system on a part of the schedule (`Refines.run`), and what every step of the plain system
keeps holds along the detailed runs (`Refines.transfer`).

If two runs are related, operations that are seen keep them so when both runs do them and the others
when only one does, then a run and the run without what is not seen end related (`unwinding`).

A system whose steps do nothing or bring it closer to its end, and in which one of them does
something as long as the end is not reached, reaches it under every fair schedule
(`Progresses.fair`). -/

namespace Phonebook.Lib.Refinement

open Phonebook.Lib.Runs

variable {σ τ ο : Type*}

/-! ### Refinement mappings -/

/-- Under the invariant, each step is seen through the map as the plain step or as none. -/
structure Refines (step : σ → ο → σ) (plain : τ → ο → τ) (Inv : σ → Prop) (map : σ → τ) : Prop where
  keeps : ∀ s o, Inv s → Inv (step s o)
  follows : ∀ s o, Inv s → map (step s o) = map s ∨ map (step s o) = plain (map s) o

variable {step : σ → ο → σ} {plain : τ → ο → τ} {Inv : σ → Prop} {map : σ → τ} {s : σ}

/-- **Refinement**: a run, seen through the map, is a run of the plain system on a part of the
schedule, and the plain run passes through no states but those seen. -/
theorem Refines.run_prefixes (h : Refines step plain Inv map) (hs : Inv s) (ops : List ο) :
    ∃ ops', ops'.Sublist ops ∧ map (exec step s ops) = exec plain (map s) ops' ∧
      ∀ pre', pre' <+: ops' → ∃ pre, pre <+: ops ∧
        map (exec step s pre) = exec plain (map s) pre' := by
  induction ops using List.reverseRecOn with
  | nil =>
    refine ⟨[], .refl [], rfl, fun pre' hpre' => ⟨[], List.prefix_refl [], ?_⟩⟩
    rw [List.prefix_nil.mp hpre']
    rfl
  | append_singleton ops o ih =>
    obtain ⟨ops', hsub, hmap, hseen⟩ := ih
    have hinv : Inv (exec step s ops) := exec_induction step hs h.keeps ops
    have hlonger : ∀ pre', pre' <+: ops' → ∃ pre, pre <+: ops ++ [o] ∧
        map (exec step s pre) = exec plain (map s) pre' := by
      intro pre' hpre'
      obtain ⟨pre, hpre, heq⟩ := hseen pre' hpre'
      exact ⟨pre, hpre.trans (List.prefix_append ops [o]), heq⟩
    rcases h.follows _ o hinv with hstay | hstep
    · refine ⟨ops', hsub.trans (List.sublist_append_left ops [o]), ?_, hlonger⟩
      rw [exec_concat, hstay, hmap]
    · have hlast : map (exec step s (ops ++ [o])) = exec plain (map s) (ops' ++ [o]) := by
        rw [exec_concat, exec_concat, hstep, hmap]
      refine ⟨ops' ++ [o], hsub.append (.refl [o]), hlast, fun pre' hpre' => ?_⟩
      rcases List.prefix_concat_iff.mp hpre' with rfl | hpre'
      · exact ⟨ops ++ [o], List.prefix_refl _, hlast⟩
      · exact hlonger pre' hpre'

theorem Refines.run (h : Refines step plain Inv map) (hs : Inv s) (ops : List ο) :
    ∃ ops', ops'.Sublist ops ∧ map (exec step s ops) = exec plain (map s) ops' := by
  obtain ⟨ops', hsub, hmap, -⟩ := h.run_prefixes hs ops
  exact ⟨ops', hsub, hmap⟩

theorem Refines.comp {υ : Type*} {coarse : υ → ο → υ} {Inv' : τ → Prop} {map' : τ → υ}
    (h' : Refines plain coarse Inv' map') (h : Refines step plain Inv map) :
    Refines step coarse (fun s => Inv s ∧ Inv' (map s)) (map' ∘ map) := by
  refine ⟨fun s o ⟨hs, hs'⟩ => ⟨h.keeps s o hs, ?_⟩, fun s o ⟨hs, hs'⟩ => ?_⟩
  · rcases h.follows s o hs with hstay | hstep
    · rw [hstay]
      exact hs'
    · rw [hstep]
      exact h'.keeps (map s) o hs'
  · rcases h.follows s o hs with hstay | hstep
    · exact Or.inl (congrArg map' hstay)
    · rw [Function.comp_apply, Function.comp_apply, hstep]
      exact h'.follows (map s) o hs'

/-- **Transfer** of an invariant of the plain system. -/
theorem Refines.transfer (h : Refines step plain Inv map) (hs : Inv s) {P : τ → Prop}
    (h0 : P (map s))
    (hP : ∀ t o, P t → P (plain t o)) (ops : List ο) : P (map (exec step s ops)) := by
  obtain ⟨ops', -, hmap⟩ := h.run hs ops
  rw [hmap]
  exact exec_induction plain h0 hP ops'

/-! ### Runs without what is not seen -/

variable (step) in
/-- **Unwinding.** -/
theorem unwinding (Rel : σ → σ → Prop) (seen : ο → Bool)
    (hseen : ∀ s s' o, seen o = true → Rel s s' → Rel (step s o) (step s' o))
    (hhidden : ∀ s s' o, seen o = false → Rel s s' → Rel (step s o) s') {s s' : σ} (h : Rel s s')
    (ops : List ο) :
    Rel (exec step s ops) (exec step s' (ops.filter seen)) := by
  induction ops using List.reverseRecOn with
  | nil => exact h
  | append_singleton ops o ih =>
    rw [exec_concat, List.filter_append]
    cases ho : seen o with
    | true =>
      rw [List.filter_cons_of_pos ho, List.filter_nil, exec_concat]
      exact hseen _ _ o ho ih
    | false =>
      rw [List.filter_cons_of_neg (by rw [ho]; exact Bool.false_ne_true), List.filter_nil,
        List.append_nil]
      exact hhidden _ _ o ho ih

/-! ### Fair schedules -/

/-- Every operation comes again and again. -/
def Fair (schedule : ℕ → ο) : Prop := ∀ o n, ∃ m, n ≤ m ∧ schedule m = o

/-- The state after the first operations of the schedule. -/
def after (step : σ → ο → σ) (s : σ) (schedule : ℕ → ο) (n : ℕ) : σ :=
  exec step s ((List.range n).map schedule)

theorem after_succ (schedule : ℕ → ο) (n : ℕ) :
    after step s schedule (n + 1) = step (after step s schedule n) (schedule n) := by
  rw [after, List.range_succ, List.map_append, List.map_singleton, exec_concat]
  rfl

/-- Under the invariant, steps do nothing or bring the system closer to the end, and before the end
some step does something. -/
structure Progresses (step : σ → ο → σ) (Inv : σ → Prop) (measure : σ → ℕ) (Done : σ → Prop) :
    Prop where
  keeps : ∀ s o, Inv s → Inv (step s o)
  decreases : ∀ s o, Inv s → step s o = s ∨ measure (step s o) < measure s
  live : ∀ s, Inv s → ¬ Done s → ∃ o, step s o ≠ s

variable {measure : σ → ℕ} {Done : σ → Prop}

theorem Progresses.inv_after (h : Progresses step Inv measure Done) (hs : Inv s) (schedule : ℕ → ο)
    (n : ℕ) :
    Inv (after step s schedule n) := exec_induction step hs h.keeps _

theorem Progresses.same_or_closer (h : Progresses step Inv measure Done) (hs : Inv s)
    (schedule : ℕ → ο) {n m : ℕ} (hnm : n ≤ m) :
    after step s schedule m = after step s schedule n ∨
      measure (after step s schedule m) < measure (after step s schedule n) := by
  induction m, hnm using Nat.le_induction with
  | base => exact Or.inl rfl
  | succ m _ ih =>
    rw [after_succ]
    rcases h.decreases _ (schedule m) (h.inv_after hs schedule m) with hsame | hlt
    · rw [hsame]
      exact ih
    · right
      rcases ih with heq | hlt'
      · rwa [← heq]
      · exact hlt.trans hlt'

/-- **Termination under fairness.** The system reaches its end under every fair schedule. -/
theorem Progresses.fair (h : Progresses step Inv measure Done) (hs : Inv s) {schedule : ℕ → ο}
    (hfair : Fair schedule) : ∃ n, Done (after step s schedule n) := by
  -- from any point of the schedule on, by how far the end is
  suffices hfrom :
    ∀ k n, measure (after step s schedule n) = k → ∃ m, Done (after step s schedule m) from
    hfrom _ 0 rfl
  intro k
  induction k using Nat.strong_induction_on with
  | _ k ih =>
    intro n hk
    by_cases hdone : Done (after step s schedule n)
    · exact ⟨n, hdone⟩
    obtain ⟨o, ho⟩ := h.live _ (h.inv_after hs schedule n) hdone
    -- the operation that would do something now comes at some time
    obtain ⟨m, hnm, hm⟩ := hfair o n
    have hcloser : measure (after step s schedule (m + 1)) < k := by
      rw [after_succ, hm, ← hk]
      rcases h.decreases _ o (h.inv_after hs schedule m) with hsame | hlt <;>
        rcases h.same_or_closer hs schedule hnm with heq | hlt'
      · rw [heq] at hsame
        exact absurd hsame ho
      · rwa [hsame]
      · rwa [heq] at hlt ⊢
      · exact hlt.trans hlt'
    exact ih _ hcloser (m + 1) rfl

end Phonebook.Lib.Refinement
