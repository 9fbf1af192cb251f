import Mathlib.Data.Fintype.Card
import Mathlib.Tactic.Common
import Phonebook.Lib.Runs

/-! # Counting shared pointers

Finitely many holders, each with a shared pointer that is null or points to an object. The use count
of an object is the number of holders that point to it; a holder is unique if the count of its
object is one. An object becomes free, with nobody pointing to it, only when its unique holder lets
go. If steps take their pointers from pointers there are or from new objects, it is free ever after
(`Hands.free_forever`), so an object somebody points to never was free (`Hands.held_since`). -/

namespace Phonebook.Lib.SharedPtr

variable {H R : Type*} [Fintype H] [DecidableEq R]

/-- `use_count` of the object. -/
def useCount (ptr : H → Option R) (r : R) : ℕ := (Finset.univ.filter fun h => ptr h = some r).card

/-- `p && p.unique()` for the pointer of the holder. -/
def Unique (ptr : H → Option R) (h : H) : Prop := ∃ r ∈ ptr h, useCount ptr r = 1

instance (ptr : H → Option R) (h : H) : Decidable (Unique ptr h) :=
  match hp : ptr h with
  | none => .isFalse (by rintro ⟨r, hr, -⟩; rw [hp] at hr; cases hr)
  | some r => decidable_of_iff (useCount ptr r = 1)
      ⟨fun h1 => ⟨r, hp, h1⟩, by
        rintro ⟨r', hr', h1⟩
        obtain rfl : r = r' := by rw [hp] at hr'; exact Option.some.inj hr'
        exact h1⟩

variable {ptr : H → Option R} {h h' : H} {r : R}

/-- Nobody points to the object. -/
def Free (ptr : H → Option R) (r : R) : Prop := ∀ h, ptr h ≠ some r

theorem useCount_eq_one_iff (hr : ptr h = some r) :
    useCount ptr r = 1 ↔ ∀ h', ptr h' = some r → h' = h := by
  unfold useCount
  rw [Finset.card_eq_one]
  constructor
  · rintro ⟨x, hx⟩ h' hr'
    have hmem : ∀ k, ptr k = some r → k = x := fun k hk => by
      have hk' : k ∈ Finset.univ.filter fun h => ptr h = some r := by simp [hk]
      rw [hx] at hk'
      exact Finset.mem_singleton.mp hk'
    rw [hmem h' hr', hmem h hr]
  · intro hall
    refine ⟨h, Finset.ext fun k => ?_⟩
    simp only [Finset.mem_filter, Finset.mem_univ, true_and, Finset.mem_singleton]
    exact ⟨hall k, fun hk => hk ▸ hr⟩

theorem unique_iff (hr : ptr h = some r) : Unique ptr h ↔ ∀ h', ptr h' = some r → h' = h := by
  rw [← useCount_eq_one_iff hr]
  constructor
  · rintro ⟨r', hr', h1⟩
    obtain rfl : r = r' := by rw [hr] at hr'; exact Option.some.inj hr'
    exact h1
  · exact fun h1 => ⟨r, hr, h1⟩

theorem not_unique_of_null (hn : ptr h = none) : ¬ Unique ptr h := by
  rintro ⟨r, hr, -⟩
  rw [hn] at hr
  cases hr

theorem not_unique_of_shared (hr : ptr h = some r) (hr' : ptr h' = some r) (hne : h' ≠ h) :
    ¬ Unique ptr h :=
  fun hu => hne ((unique_iff hr).mp hu h' hr')

section Update
variable [DecidableEq H] {x : Option R}

/-- **Release**: an object nobody points to after one holder's pointer was overwritten was free
before, or that holder was the unique one to point to it. -/
theorem free_of_update (hf : Free (Function.update ptr h x) r) :
    Free ptr r ∨ (ptr h = some r ∧ Unique ptr h) := by
  by_cases hr : ptr h = some r
  · right
    refine ⟨hr, (unique_iff hr).mpr fun h' hr' => ?_⟩
    by_contra hne
    exact hf h' (by rw [Function.update_of_ne hne]; exact hr')
  · left
    intro h' hr'
    have hne : h' ≠ h := fun heq => hr (heq ▸ hr')
    exact hf h' (by rw [Function.update_of_ne hne]; exact hr')

/-- **Move**: the pointer of another holder goes to the one that is overwritten. -/
theorem free_of_move (hne : h' ≠ h)
    (hf : Free (Function.update (Function.update ptr h (ptr h')) h' none) r) :
    Free ptr r ∨ (ptr h = some r ∧ Unique ptr h) := by
  have hreceived : ptr h' ≠ some r := fun hr' => hf h (by
    rw [Function.update_of_ne hne.symm, Function.update_self]
    exact hr')
  refine free_of_update (x := ptr h') fun k hk => ?_
  by_cases hkh : k = h'
  · subst hkh
    rw [Function.update_of_ne hne] at hk
    exact hreceived hk
  · exact hf k (by rw [Function.update_of_ne hkh]; exact hk)

theorem useCount_update (hr : ptr h ≠ some r) (hx : x ≠ some r) :
    useCount (Function.update ptr h x) r = useCount ptr r := by
  unfold useCount
  congr 1
  ext k
  by_cases hk : k = h
  · subst hk
    simp [hr, hx]
  · simp [Function.update_of_ne hk]

theorem unique_update (hne : h' ≠ h) (hr : ∀ r, ptr h' = some r → ptr h ≠ some r ∧ x ≠ some r) :
    Unique (Function.update ptr h x) h' ↔ Unique ptr h' := by
  unfold Unique
  rw [Function.update_of_ne hne]
  refine exists_congr fun r => and_congr_right fun hp => ?_
  rw [useCount_update (hr r hp).1 (hr r hp).2]

end Update

/-! ### Runs -/

section Runs
open Phonebook.Lib.Runs
variable {σ ο K : Type*}

/-- Objects are numbered in the order of allocation, pointers are to objects there are, and a step
hands on pointers there are or makes one to a new object. -/
structure Hands (step : σ → ο → σ) (Inv : σ → Prop) (ptr : σ → K → Option ℕ) (allocated : σ → ℕ) :
    Prop where
  keeps : ∀ s o, Inv s → Inv (step s o)
  grows : ∀ s o, Inv s → allocated s ≤ allocated (step s o)
  passes : ∀ s o, Inv s → ∀ k r, ptr (step s o) k = some r →
    (∃ k', ptr s k' = some r) ∨ (r = allocated s ∧ r < allocated (step s o))

variable {step : σ → ο → σ} {Inv : σ → Prop} {ptr : σ → K → Option ℕ} {allocated : σ → ℕ} {s : σ}

theorem Hands.inv (h : Hands step Inv ptr allocated) (hs : Inv s) (ops : List ο) :
    Inv (exec step s ops) :=
  exec_induction step hs h.keeps ops

theorem Hands.valid (h : Hands step Inv ptr allocated) (hs : Inv s)
    (h0 : ∀ k r, ptr s k = some r → r < allocated s)
    (ops : List ο) : ∀ k r, ptr (exec step s ops) k = some r → r < allocated (exec step s ops) := by
  induction ops using List.reverseRecOn with
  | nil => exact h0
  | append_singleton ops o ih =>
    rw [exec_concat]
    intro k r hr
    rcases h.passes _ o (h.inv hs ops) k r hr with ⟨k', hk'⟩ | ⟨-, hlt⟩
    · exact (ih k' r hk').trans_le (h.grows _ o (h.inv hs ops))
    · exact hlt

theorem Hands.allocated_mono (h : Hands step Inv ptr allocated) (hs : Inv s) (ops : List ο) :
    allocated s ≤ allocated (exec step s ops) := by
  induction ops using List.reverseRecOn with
  | nil => exact le_refl _
  | append_singleton ops o ih =>
    rw [exec_concat]
    exact ih.trans (h.grows _ o (h.inv hs ops))

/-- **No resurrection**: an object that nobody points to is free ever after. -/
theorem Hands.free_forever (h : Hands step Inv ptr allocated) (hs : Inv s) {r : ℕ}
    (hr : r < allocated s)
    (hf : Free (ptr s) r) (ops : List ο) : Free (ptr (exec step s ops)) r := by
  induction ops using List.reverseRecOn with
  | nil => exact hf
  | append_singleton ops o ih =>
    rw [exec_concat]
    intro k hk
    rcases h.passes _ o (h.inv hs ops) k r hk with ⟨k', hk'⟩ | ⟨rfl, -⟩
    · exact ih k' hk'
    · exact absurd (h.allocated_mono hs ops) (not_le_of_gt hr)

/-- Who points to an object now, somebody has pointed to it all the time there was one. -/
theorem Hands.held_since (h : Hands step Inv ptr allocated) (hs : Inv s) {ops pre : List ο}
    (hp : pre <+: ops) {k : K} {r : ℕ} (hk : ptr (exec step s ops) k = some r)
    (hr : r < allocated (exec step s pre)) :
    ∃ k', ptr (exec step s pre) k' = some r := by
  obtain ⟨post, rfl⟩ := hp
  by_contra hfree
  rw [exec_append] at hk
  exact h.free_forever (h.inv hs pre) hr (fun k' hk' => hfree ⟨k', hk'⟩) post k hk

end Runs

end Phonebook.Lib.SharedPtr
