import Mathlib.Logic.Function.Basic
import Phonebook.Lib.Linearizability

/-! # Atomic objects

An object whose operations are invoked, take effect in one step and are answered. In the order of
the effects its history is linearizable (`Accounts.step`), and so is that of every system whose
steps are seen as steps of the object (`linearizes_of_simulation`). -/

namespace Phonebook.Lib.Atomic

open Phonebook.Lib.Linearizability Phonebook.Lib.Runs

/-- How far an operation is. -/
inductive Stage (ρ : Type*) where
  | idle
  | pending
  | done (r : ρ)
  | answered (r : ρ)

/-- The state of the object, how far each operation is, and what was invoked and answered. -/
structure Object (ι σ ρ : Type*) where
  state : σ
  stage : ι → Stage ρ
  history : List (Event ι ρ)

variable {ι σ ρ τ : Type*} [DecidableEq ι] {apply : σ → ι → σ × ρ}

/-- A step of the operation `i`. -/
inductive Step (apply : σ → ι → σ × ρ) (a : Object ι σ ρ) (i : ι) : Object ι σ ρ → Prop
  | stay : Step apply a i a
  | invoke (h : a.stage i = .idle) :
    Step apply a i ⟨a.state, Function.update a.stage i .pending, a.history ++ [.invoke i]⟩
  | effect (h : a.stage i = .pending) :
    Step apply a i ⟨(apply a.state i).1, Function.update a.stage i (.done (apply a.state i).2),
      a.history⟩
  | answer (r : ρ) (h : a.stage i = .done r) :
    Step apply a i ⟨a.state, Function.update a.stage i (.answered r), a.history ++ [.answer i r]⟩

/-- What the stage of an operation says about the order of the effects. -/
def InOrder (apply : σ → ι → σ × ρ) (s₀ : σ) (h : List (Event ι ρ)) (order : List ι) (i : ι) :
    Stage ρ → Prop
  | .idle => i ∉ order
  | .pending => i ∉ order ∧ .invoke i ∈ h
  | .done r | .answered r => (i, r) ∈ seqAnswers apply s₀ order

/-- The order accounts for the object. -/
structure Accounts (apply : σ → ι → σ × ρ) (s₀ : σ) (a : Object ι σ ρ) (order : List ι) : Prop where
  linearizes : Linearizes apply s₀ a.history order
  state : seqState apply s₀ order = a.state
  stands : ∀ i, InOrder apply s₀ a.history order i (a.stage i)

variable {s₀ : σ} {a a' : Object ι σ ρ} {order order' : List ι} {i : ι}

omit [DecidableEq ι] in
theorem InOrder.mono {h h' : List (Event ι ρ)} (hh : h ⊆ h')
    (hord : order' = order ∨ order' = order ++ [i]) {j : ι} (hj : j ≠ i) {x : Stage ρ}
    (hx : InOrder apply s₀ h order j x) :
    InOrder apply s₀ h' order' j x := by
  have hout : j ∉ order → j ∉ order' := by
    rintro hn
    rcases hord with rfl | rfl
    · exact hn
    · simp [hn, hj]
  have hans : ∀ r, (j, r) ∈ seqAnswers apply s₀ order → (j, r) ∈ seqAnswers apply s₀ order' := by
    intro r hr
    rcases hord with rfl | rfl
    · exact hr
    · rw [seqAnswers_concat]
      exact List.mem_append_left _ hr
  cases x with
  | idle => exact hout hx
  | pending => exact ⟨hout hx.1, hh hx.2⟩
  | done r => exact hans r hx
  | answered r => exact hans r hx

theorem Accounts.stands_update (h : Accounts apply s₀ a order) {h' : List (Event ι ρ)}
    (hh : a.history ⊆ h') (hord : order' = order ∨ order' = order ++ [i]) {x : Stage ρ}
    (hx : InOrder apply s₀ h' order' i x) (j : ι) :
    InOrder apply s₀ h' order' j (Function.update a.stage i x j) := by
  by_cases hj : j = i
  · subst hj
    rw [Function.update_self]
    exact hx
  · rw [Function.update_of_ne hj]
    exact (h.stands j).mono hh hord hj

theorem Accounts.invoke (h : Accounts apply s₀ a order) (hstage : a.stage i = .idle) :
    Accounts apply s₀ ⟨a.state, Function.update a.stage i .pending,
      a.history ++ [.invoke i]⟩ order := by
  have hi := h.stands i
  rw [hstage] at hi
  refine ⟨h.linearizes.invoke hi, h.state, h.stands_update (List.subset_append_left _ _)
    (Or.inl rfl) ?_⟩
  exact ⟨hi, List.mem_append_right _ (List.mem_singleton_self _)⟩

/-- An operation takes effect: it comes next in the order. -/
theorem Accounts.effect (h : Accounts apply s₀ a order) (hstage : a.stage i = .pending) :
    Accounts apply s₀ ⟨(apply a.state i).1, Function.update a.stage i (.done (apply a.state i).2),
      a.history⟩
      (order ++ [i]) := by
  have hi := h.stands i
  rw [hstage] at hi
  refine ⟨h.linearizes.effect hi.1 hi.2, ?_, h.stands_update (List.Subset.refl _) (Or.inr rfl) ?_⟩
  · rw [seqState_concat, h.state]
  · show (i, (apply a.state i).2) ∈ seqAnswers apply s₀ (order ++ [i])
    rw [seqAnswers_concat, h.state]
    exact List.mem_append_right _ (List.mem_singleton_self _)

theorem Accounts.answer (h : Accounts apply s₀ a order) {r : ρ} (hstage : a.stage i = .done r) :
    Accounts apply s₀ ⟨a.state, Function.update a.stage i (.answered r),
      a.history ++ [.answer i r]⟩ order := by
  have hi := h.stands i
  rw [hstage] at hi
  exact ⟨h.linearizes.answer hi, h.state, h.stands_update (List.subset_append_left _ _)
    (Or.inl rfl) hi⟩

/-- **One step** of the object: the order grows by the operation that takes effect. -/
theorem Accounts.step (h : Accounts apply s₀ a order) (hs : Step apply a i a') :
    ∃ order', Accounts apply s₀ a' order' := by
  cases hs with
  | stay => exact ⟨order, h⟩
  | invoke hstage => exact ⟨order, h.invoke hstage⟩
  | effect hstage => exact ⟨order ++ [i], h.effect hstage⟩
  | answer r hstage => exact ⟨order, h.answer hstage⟩

/-- **Linearizability by simulation.** -/
theorem linearizes_of_simulation {step : τ → ι → τ} (Sim : τ → Object ι σ ρ → Prop)
    (hstep : ∀ t a i, Sim t a → ∃ a', Step apply a i a' ∧ Sim (step t i) a') {t : τ}
    (h0 : Sim t ⟨s₀, fun _ => .idle, []⟩) (ops : List ι) :
    ∃ a order, Sim (exec step t ops) a ∧ Linearizes apply s₀ a.history order := by
  have hstart : Accounts apply s₀ (⟨s₀, fun _ => .idle, []⟩ : Object ι σ ρ) [] :=
    ⟨.nil, rfl, fun _ => List.not_mem_nil⟩
  obtain ⟨a, ⟨order, hord⟩, hsim⟩ :
    ∃ a, (∃ order, Accounts apply s₀ a order) ∧ Sim (exec step t ops) a := by
    induction ops using List.reverseRecOn with
    | nil => exact ⟨_, ⟨[], hstart⟩, h0⟩
    | append_singleton ops i ih =>
      obtain ⟨a, ⟨order, hord⟩, hsim⟩ := ih
      obtain ⟨a', hs, hsim'⟩ := hstep _ a i hsim
      rw [exec_concat]
      exact ⟨a', hord.step hs, hsim'⟩
  exact ⟨a, order, hsim, hord.linearizes⟩

/-! ### Answers that come to light late

What an operation answers may be known only some time after its effect. Until it is answered, the
sequential object may be revised to give another answer. -/

variable {apply' : σ → ι → σ × ρ}

/-- The operation took effect in a state with the property. -/
def Met (apply : σ → ι → σ × ρ) (s₀ : σ) (order : List ι) (i : ι) (P : σ → Prop) : Prop :=
  ∃ pre post, order = pre ++ i :: post ∧ P (seqState apply s₀ pre)

section Met
omit [DecidableEq ι]
variable {P : σ → Prop}

theorem met_concat (hP : P (seqState apply s₀ order)) : Met apply s₀ (order ++ [i]) i P :=
  ⟨order, [], rfl, hP⟩

theorem Met.append (h : Met apply s₀ order i P) (l : List ι) : Met apply s₀ (order ++ l) i P := by
  obtain ⟨pre, post, rfl, hP⟩ := h
  exact ⟨pre, post ++ l, by simp, hP⟩

theorem met_concat_of_ne {j : ι} (hj : j ≠ i) :
    Met apply s₀ (order ++ [i]) j P ↔ Met apply s₀ order j P := by
  refine ⟨?_, fun h => h.append [i]⟩
  rintro ⟨pre, post, hsplit, hP⟩
  rcases concat_eq_append_cons hsplit with ⟨-, heq, -⟩ | ⟨post', -, hold⟩
  · exact absurd heq.symm hj
  · exact ⟨pre, post', hold, hP⟩

theorem Met.mem_seqAnswers (h : Met apply s₀ order i P) {r : ρ}
    (hr : ∀ s, P s → (apply s i).2 = r) :
    (i, r) ∈ seqAnswers apply s₀ order := by
  obtain ⟨pre, post, rfl, hP⟩ := h
  induction pre generalizing s₀ with
  | nil =>
    rw [← hr s₀ hP]
    exact List.mem_cons_self
  | cons j pre ih => exact List.mem_cons_of_mem _ (ih hP)

theorem seqState_congr {ρ' : Type*} {apply' : σ → ι → σ × ρ'}
    (h : ∀ s, ∀ j ∈ order, (apply' s j).1 = (apply s j).1) (s : σ) :
    seqState apply' s order = seqState apply s order := by
  induction order generalizing s with
  | nil => rfl
  | cons j order ih =>
    have hj : (apply' s j).1 = (apply s j).1 := h s j List.mem_cons_self
    unfold seqState at ih ⊢
    rw [List.foldl_cons, List.foldl_cons, hj]
    exact ih (fun s k hk => h s k (List.mem_cons_of_mem j hk)) _

theorem mem_seqAnswers_congr (h : ∀ s, ∀ j ∈ order, (apply' s j).1 = (apply s j).1) {k : ι} {r : ρ}
    (hk : ∀ s, k ∈ order → apply' s k = apply s k) {s : σ}
    (hr : (k, r) ∈ seqAnswers apply s order) :
    (k, r) ∈ seqAnswers apply' s order := by
  induction order generalizing s with
  | nil => exact hr
  | cons j order ih =>
    have hj : (apply' s j).1 = (apply s j).1 := h s j List.mem_cons_self
    rw [seqAnswers, hj]
    rcases List.mem_cons.mp hr with heq | hr
    · obtain ⟨rfl, rfl⟩ := Prod.mk.inj heq
      rw [hk s List.mem_cons_self]
      exact List.mem_cons_self
    · exact List.mem_cons_of_mem _ (ih (fun s k hk => h s k (List.mem_cons_of_mem j hk))
        (fun s hin => hk s (List.mem_cons_of_mem j hin)) hr)

theorem Met.revise (h : Met apply s₀ order i P)
    (hstate : ∀ s, ∀ j ∈ order, (apply' s j).1 = (apply s j).1) :
    Met apply' s₀ order i P := by
  obtain ⟨pre, post, rfl, hP⟩ := h
  refine ⟨pre, post, rfl, ?_⟩
  rw [seqState_congr (fun s j hj => hstate s j (List.mem_append_left _ hj))]
  exact hP

end Met

/-- **Revision** of the object at an operation that was not answered. -/
theorem Accounts.revise (h : Accounts apply s₀ a order)
    (hstate : ∀ s, ∀ j ∈ order, (apply' s j).1 = (apply s j).1)
    (hothers : ∀ s, ∀ j ∈ order, j ≠ i → apply' s j = apply s j)
    (hunanswered : ∀ r, .answer i r ∉ a.history) {x : Stage ρ}
    (hx : InOrder apply' s₀ a.history order i x) :
    Accounts apply' s₀ ⟨a.state, Function.update a.stage i x, a.history⟩ order := by
  have hmem :
    ∀ j r, j ≠ i → (j, r) ∈ seqAnswers apply s₀ order → (j, r) ∈ seqAnswers apply' s₀ order :=
    fun j r hj => mem_seqAnswers_congr hstate fun s hin => hothers s j hin hj
  refine ⟨⟨h.linearizes.nodup, h.linearizes.invoked, fun j r hr => ?_, h.linearizes.realTime⟩, ?_,
    fun j => ?_⟩
  · refine hmem j r ?_ (h.linearizes.answered j r hr)
    rintro rfl
    exact hunanswered r hr
  · rw [seqState_congr hstate]
    exact h.state
  · by_cases hj : j = i
    · subst hj
      show InOrder apply' s₀ a.history order j (Function.update a.stage j x j)
      rw [Function.update_self]
      exact hx
    · show InOrder apply' s₀ a.history order j (Function.update a.stage i x j)
      rw [Function.update_of_ne hj]
      have hold := h.stands j
      revert hold
      cases a.stage j with
      | idle | pending => exact fun hold => hold
      | done r | answered r => exact hmem j r hj

end Phonebook.Lib.Atomic
