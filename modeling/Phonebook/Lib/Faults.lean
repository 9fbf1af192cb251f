import Phonebook.Lib.Refinement

/-! # Systems that may fail

A step of a system may hang, and it may break the system, of which nothing is known afterwards. A
system with such faults stands still at a step that hangs and once it is broken. So far as it goes
it goes like the system without faults: on a part of the schedule (`Fault.refines`), and on all of
it while it is whole and nothing hangs (`Fault.exec_of_whole`). If nothing hangs, it reaches its
end under every fair schedule or breaks on the way (`Fault.progresses`). -/

namespace Phonebook.Lib.Faults

open Phonebook.Lib.Runs Phonebook.Lib.Refinement

variable {σ ο : Type*}

/-- The operations that are never over in a state, and those that leave the system broken in the
state they led to. -/
structure Fault (σ ο : Type*) where
  hangs : σ → ο → Bool
  breaks : σ → ο → Bool

/-- A system, and whether it is whole. -/
structure Faulty (σ : Type*) where
  state : σ
  whole : Bool

/-- A system that is whole. -/
def sound (s : σ) : Faulty σ := ⟨s, true⟩

/-- The faults of a system seen through a map. -/
def Fault.comap {τ : Type*} (map : τ → σ) (F : Fault σ ο) : Fault τ ο where
  hangs t := F.hangs (map t)
  breaks t := F.breaks (map t)

variable (F : Fault σ ο) (next : σ → ο → σ)

/-- A step of the system with its faults. -/
def Fault.step (s : Faulty σ) (o : ο) : Faulty σ :=
  if s.whole = true ∧ F.hangs s.state o = false then
    ⟨next s.state o, !F.breaks (next s.state o) o⟩
  else s

variable {F next} {s : Faulty σ} {o : ο}

theorem Fault.step_of_hangs (h : F.hangs s.state o = true) : F.step next s o = s :=
  if_neg fun hgoes => by rw [h] at hgoes; cases hgoes.2

theorem Fault.step_of_broken (h : s.whole = false) : F.step next s o = s :=
  if_neg fun hgoes => by rw [h] at hgoes; cases hgoes.1

theorem Fault.step_of_goes (hw : s.whole = true) (hh : F.hangs s.state o = false) :
    F.step next s o = ⟨next s.state o, !F.breaks (next s.state o) o⟩ :=
  if_pos ⟨hw, hh⟩

/-! ### Runs -/

variable (F next) in
/-- With faults, a system takes some of its steps. -/
theorem Fault.refines : Refines (F.step next) next (fun _ => True) Faulty.state := by
  refine ⟨fun _ _ _ => trivial, fun s o _ => ?_⟩
  unfold Fault.step
  split_ifs
  · exact Or.inr rfl
  · exact Or.inl rfl

theorem Fault.whole_of_step (h : (F.step next s o).whole = true) : s.whole = true := by
  by_contra hbroken
  rw [Bool.not_eq_true] at hbroken
  rw [Fault.step_of_broken hbroken, hbroken] at h
  cases h

/-- While nothing hangs and nothing breaks, a system with faults is the system without. -/
theorem Fault.exec_of_whole (hh : ∀ s o, F.hangs s o = false) {s : σ} {ops : List ο}
    (hw : (exec (F.step next) (sound s) ops).whole = true) :
    (exec (F.step next) (sound s) ops).state = exec next s ops := by
  induction ops using List.reverseRecOn with
  | nil => rfl
  | append_singleton ops o ih =>
    rw [exec_concat] at hw ⊢
    have hbefore := Fault.whole_of_step hw
    rw [Fault.step_of_goes hbefore (hh _ o), exec_concat, ih hbefore]

theorem Fault.exists_breaks {s : σ} {ops : List ο}
    (hw : (exec (F.step next) (sound s) ops).whole = false) :
    ∃ o ∈ ops, F.breaks (exec (F.step next) (sound s) ops).state o = true := by
  induction ops using List.reverseRecOn with
  | nil => cases hw
  | append_singleton ops o ih =>
    rw [exec_concat] at hw ⊢
    cases hbefore : (exec (F.step next) (sound s) ops).whole with
    | false =>
      obtain ⟨o', ho', hbreaks⟩ := ih hbefore
      refine ⟨o', List.mem_append_left _ ho', ?_⟩
      rw [Fault.step_of_broken hbefore]
      exact hbreaks
    | true =>
      refine ⟨o, List.mem_append_right _ (List.mem_singleton_self o), ?_⟩
      cases hhangs : F.hangs (exec (F.step next) (sound s) ops).state o with
      | true =>
        rw [Fault.step_of_hangs hhangs, hbefore] at hw
        cases hw
      | false =>
        rw [Fault.step_of_goes hbefore hhangs] at hw ⊢
        simpa using hw

/-! ### Progress -/

variable {Inv : σ → Prop} {measure : σ → ℕ} {Done : σ → Prop}

/-- **Progress with faults**: if nothing hangs, a system that comes to its end comes to its end or
breaks. -/
theorem Fault.progresses (h : Progresses next Inv measure Done)
    (hh : ∀ s o, F.hangs s o = false) :
    Progresses (F.step next) (fun s => Inv s.state)
      (fun s => measure s.state + if s.whole = true then 1 else 0)
      fun s => s.whole = false ∨ Done s.state := by
  refine ⟨fun s o hs => ?_, fun s o hs => ?_, fun s hs hdone => ?_⟩
  · rcases (Fault.refines F next).follows s o trivial with heq | heq
    · rw [heq]
      exact hs
    · rw [heq]
      exact h.keeps s.state o hs
  · cases hw : s.whole with
    | false => exact Or.inl (Fault.step_of_broken hw)
    | true =>
      rw [Fault.step_of_goes hw (hh _ o)]
      cases hbreaks : F.breaks (next s.state o) o with
      | true =>
        right
        rcases h.decreases s.state o hs with hsame | hlt
        · simp [hsame]
        · simp only [Bool.not_true, Bool.false_eq_true, if_false, if_true]
          omega
      | false =>
        rcases h.decreases s.state o hs with hsame | hlt
        · left
          rw [hsame, Bool.not_false, ← hw]
        · right
          simp only [Bool.not_false, if_true]
          omega
  · obtain ⟨hw, hend⟩ := not_or.mp hdone
    rw [Bool.not_eq_false] at hw
    obtain ⟨o, ho⟩ := h.live s.state hs hend
    refine ⟨o, fun heq => ho ?_⟩
    rw [Fault.step_of_goes hw (hh _ o)] at heq
    exact congrArg Faulty.state heq

end Phonebook.Lib.Faults
