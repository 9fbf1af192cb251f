import Phonebook.Lib.Runs

/-! # Operations on one cell each

A state of cells, and operations with outputs that each look at one cell and change no other,
besides what all of them may look at and none changes. Operations on different cells commute, so a
list of them comes to the same in every order (`Local.perm`). -/

namespace Phonebook.Lib.Cells

open Phonebook.Lib.Runs

/-! ### Operations that commute -/

section Commute
variable {σ ο ρ : Type*} (step : σ → ο → σ × ρ)

/-- The operations of a run with their outputs. -/
def outputs (s : σ) : List ο → List (ο × ρ)
  | [] => []
  | o :: ops => (o, (step s o).2) :: outputs (step s o).1 ops

/-- Two operations that come to the same, outputs included, whichever is first. -/
structure Commute (a b : ο) : Prop where
  state : ∀ s, (step (step s a).1 b).1 = (step (step s b).1 a).1
  left : ∀ s, (step (step s b).1 a).2 = (step s a).2
  right : ∀ s, (step (step s a).1 b).2 = (step s b).2

variable {step}

theorem Commute.symm {a b : ο} (h : Commute step a b) : Commute step b a :=
  ⟨fun s => (h.state s).symm, h.right, h.left⟩

/-- **Reordering**: operations any two of which commute leave the same state and have the same
outputs in every order. -/
theorem final_outputs_perm {ops ops' : List ο} (h : ops.Perm ops')
    (hc : ops.Pairwise (Commute step)) (s : σ) :
    final step s ops = final step s ops' ∧ (outputs step s ops).Perm (outputs step s ops') := by
  induction h generalizing s with
  | nil => exact ⟨rfl, .nil⟩
  | cons o _ ih =>
    obtain ⟨hstate, houtputs⟩ := ih hc.of_cons (step s o).1
    exact ⟨hstate, houtputs.cons _⟩
  | swap b a ops =>
    have hab : Commute step a b := (List.pairwise_cons.mp hc).1 b List.mem_cons_self
    constructor
    · show final step (step (step s a).1 b).1 ops = final step (step (step s b).1 a).1 ops
      rw [hab.state]
    · simp only [outputs, hab.state, hab.left, hab.right]
      exact .swap _ _ _
  | trans h₁ _ ih₁ ih₂ =>
    obtain ⟨hstate₁, houtputs₁⟩ := ih₁ hc s
    obtain ⟨hstate₂, houtputs₂⟩ := ih₂ (h₁.pairwise hc Commute.symm) s
    exact ⟨hstate₁.trans hstate₂, houtputs₁.trans houtputs₂⟩

end Commute

/-! ### Cells -/

section Cells
variable {σ κ ν γ ο ρ : Type*}

/-- Each operation reads what is common and the cell of its key, and changes no cell but that. -/
structure Local (cell : σ → κ → ν) (base : σ → γ) (key : ο → κ) (step : σ → ο → σ × ρ) : Prop where
  ext : ∀ s s', base s = base s' → (∀ k, cell s k = cell s' k) → s = s'
  fixed : ∀ s o, base (step s o).1 = base s
  frame : ∀ s o k, k ≠ key o → cell (step s o).1 k = cell s k
  own : ∀ s s' o, base s = base s' → cell s (key o) = cell s' (key o) →
    cell (step s o).1 (key o) = cell (step s' o).1 (key o) ∧ (step s o).2 = (step s' o).2

variable {cell : σ → κ → ν} {base : σ → γ} {key : ο → κ} {step : σ → ο → σ × ρ}

theorem Local.after (h : Local cell base key step) {a b : ο} (hne : key a ≠ key b) (s : σ) :
    cell (step (step s b).1 a).1 (key a) = cell (step s a).1 (key a) ∧
      (step (step s b).1 a).2 = (step s a).2 :=
  h.own _ _ a (h.fixed s b) (h.frame s b _ hne)

theorem Local.commute (h : Local cell base key step) {a b : ο} (hne : key a ≠ key b) :
    Commute step a b := by
  refine ⟨fun s => h.ext _ _ ?_ fun k => ?_, fun s => (h.after hne s).2,
    fun s => (h.after hne.symm s).2⟩
  · rw [h.fixed, h.fixed, h.fixed, h.fixed]
  · by_cases hka : k = key a
    · subst hka
      rw [h.frame _ b _ hne, (h.after hne s).1]
    by_cases hkb : k = key b
    · subst hkb
      rw [h.frame _ a _ hka, (h.after hne.symm s).1]
    · rw [h.frame _ b _ hkb, h.frame _ a _ hka, h.frame _ a _ hka, h.frame _ b _ hkb]

/-- **Operations on distinct cells** leave the same state and have the same outputs in every
order. -/
theorem Local.perm (h : Local cell base key step) {ops ops' : List ο} (hp : ops.Perm ops')
    (hd : (ops.map key).Nodup) (s : σ) :
    final step s ops = final step s ops' ∧ (outputs step s ops).Perm (outputs step s ops') := by
  refine final_outputs_perm hp ?_ s
  have hdistinct : ops.Pairwise fun a b => key a ≠ key b := List.pairwise_map.mp hd
  exact hdistinct.imp h.commute

end Cells

end Phonebook.Lib.Cells
