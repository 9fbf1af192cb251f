import Mathlib.Data.List.Pairwise
import Phonebook.Lib.Refinement

/-! # Calls that overlap

A step of a system may be a call of one of its objects. Taken as one step, the call is over at once.
Taken as two, it reads the object when it begins and writes it when it ends, and what other calls
wrote in between is lost. If an object lets in one call at a time, nothing is lost: the system with
calls in two steps goes like the one with calls in one step (`Framed.refines`). -/

namespace Phonebook.Lib.Overlap

open Phonebook.Lib.Refinement

variable {σ ο κ β : Type*}

/-- The objects that steps call, and how their contents are read and written. -/
structure Objects (σ ο κ β : Type*) where
  callee : σ → ο → Option κ
  read : σ → κ → β
  write : σ → κ → β → σ

/-- A system, and the calls that have begun, each with its object and what it read of it. -/
structure Overlapped (σ ο κ β : Type*) where
  state : σ
  begun : List (ο × κ × β)

/-- A system in which no call has begun. -/
def quiet (s : σ) : Overlapped σ ο κ β := ⟨s, []⟩

variable (O : Objects σ ο κ β) (next : σ → ο → σ)

section Step
variable [DecidableEq ο] [DecidableEq κ] (excludes : Bool)

/-- A step of the system with calls in two steps. If the objects exclude calls that overlap, a call
waits until its object is free. -/
def Objects.overlap (s : Overlapped σ ο κ β) (o : ο) : Overlapped σ ο κ β :=
  match O.callee s.state o with
  | none => { s with state := next s.state o }
  | some k =>
    match s.begun.lookup o with
    | some (_, v) => ⟨next (O.write s.state k v) o, s.begun.filter fun call => call.1 ≠ o⟩
    | none =>
      if excludes && s.begun.any fun call => call.2.1 = k then s
      else { s with begun := (o, k, O.read s.state k) :: s.begun }

end Step

/-- A call that has begun stays one whatever other operations do, and operations change no object
but the one they call. -/
structure Framed (Inv : σ → Prop) : Prop where
  keeps : ∀ s o, Inv s → Inv (next s o)
  callee : ∀ s o o' k, Inv s → o' ≠ o → O.callee s o = some k → O.callee (next s o') o = some k
  read : ∀ s o o' k, Inv s → O.callee s o = some k → O.callee s o' ≠ some k →
    O.read (next s o') k = O.read s k
  write : ∀ s k, O.write s k (O.read s k) = s

/-- The calls that have begun call different objects, which are as they were read. -/
structure Undisturbed (s : Overlapped σ ο κ β) : Prop where
  callee : ∀ call ∈ s.begun, O.callee s.state call.1 = some call.2.1
  read : ∀ call ∈ s.begun, O.read s.state call.2.1 = call.2.2
  apart : s.begun.Pairwise fun call call' => call.2.1 ≠ call'.2.1

variable {O next} {Inv : σ → Prop} {s : Overlapped σ ο κ β} {o : ο}

theorem undisturbed_quiet (s : σ) : Undisturbed O (quiet s) :=
  ⟨fun _ h => absurd h List.not_mem_nil, fun _ h => absurd h List.not_mem_nil, .nil⟩

theorem Undisturbed.found [BEq ο] [LawfulBEq ο] (h : Undisturbed O s) {k k' : κ} {v : β}
    (hk : O.callee s.state o = some k) (hv : s.begun.lookup o = some (k', v)) :
    (o, k, v) ∈ s.begun := by
  obtain ⟨l, l', hsplit, -⟩ := List.lookup_eq_some_iff.mp hv
  have hin : (o, k', v) ∈ s.begun := by rw [hsplit]; simp
  have hk' : O.callee s.state o = some k' := h.callee _ hin
  obtain rfl : k' = k := Option.some.inj (hk'.symm.trans hk)
  exact hin

theorem Undisturbed.keys_ne (h : Undisturbed O s) {call call' : ο × κ × β} (hcall : call ∈ s.begun)
    (hcall' : call' ∈ s.begun) (hne : call ≠ call') : call.2.1 ≠ call'.2.1 := by
  have hsymm : Std.Symm fun call call' : ο × κ × β => call.2.1 ≠ call'.2.1 := ⟨fun _ _ h => h.symm⟩
  exact h.apart.forall hcall hcall' hne

/-- **A step in one**, if the calls that go on are calls of others and of other objects. -/
theorem Undisturbed.step (hf : Framed O next Inv) (hinv : Inv s.state) (h : Undisturbed O s)
    {begun : List (ο × κ × β)} (hsub : begun.Sublist s.begun) (hothers : ∀ call ∈ begun, call.1 ≠ o)
    (hobjects : ∀ call ∈ begun, O.callee s.state o ≠ some call.2.1) :
    Undisturbed O ⟨next s.state o, begun⟩ := by
  refine ⟨fun call hcall => ?_, fun call hcall => ?_, h.apart.sublist hsub⟩
  · exact hf.callee _ _ _ _ hinv (hothers call hcall).symm (h.callee call (hsub.subset hcall))
  · have hsame : O.read (next s.state o) call.2.1 = O.read s.state call.2.1 :=
      hf.read _ call.1 o _ hinv (h.callee call (hsub.subset hcall)) (hobjects call hcall)
    exact hsame.trans (h.read call (hsub.subset hcall))

section Refines
variable [DecidableEq ο] [DecidableEq κ]

/-- **The system with calls in two steps**, if objects exclude calls that overlap. -/
theorem Undisturbed.overlap (hf : Framed O next Inv) (hinv : Inv s.state) (h : Undisturbed O s)
    (o : ο) :
    Undisturbed O (O.overlap next true s o) ∧
      ((O.overlap next true s o).state = s.state ∨
        (O.overlap next true s o).state = next s.state o) := by
  unfold Objects.overlap
  cases hk : O.callee s.state o with
  | none =>
    refine ⟨h.step hf hinv (.refl _) (fun call hcall => ?_) fun call _ => ?_, Or.inr rfl⟩
    · rintro rfl
      rw [h.callee call hcall] at hk
      cases hk
    · rw [hk]
      exact (Option.some_ne_none _).symm
  | some k =>
    dsimp only
    rcases hv : s.begun.lookup o with _ | ⟨k', v⟩
    · -- the call begins, or waits for another
      dsimp only
      split_ifs with hbusy
      · exact ⟨h, Or.inl rfl⟩
      refine ⟨⟨?_, ?_, ?_⟩, Or.inl rfl⟩
      · rintro call (_ | ⟨_, hcall⟩)
        · exact hk
        · exact h.callee call hcall
      · rintro call (_ | ⟨_, hcall⟩)
        · rfl
        · exact h.read call hcall
      · refine List.pairwise_cons.mpr ⟨fun call hcall => ?_, h.apart⟩
        rintro rfl
        refine hbusy ?_
        rw [Bool.true_and, List.any_eq_true]
        exact ⟨call, hcall, decide_eq_true rfl⟩
    · -- the call ends, and the object is as it was
      have hin := h.found hk hv
      have hsame : O.write s.state k v = s.state := by
        have hread : O.read s.state k = v := h.read _ hin
        rw [← hread]
        exact hf.write s.state k
      dsimp only
      rw [hsame]
      refine ⟨h.step hf hinv List.filter_sublist (fun call hcall => ?_) fun call hcall heq => ?_,
        Or.inr rfl⟩
      · exact of_decide_eq_true (List.mem_filter.mp hcall).2
      · have hother : call ≠ (o, k, v) := by
          rintro rfl
          exact of_decide_eq_true (List.mem_filter.mp hcall).2 rfl
        have hkey : call.2.1 = k := Option.some.inj (heq.symm.trans hk)
        exact h.keys_ne (List.mem_filter.mp hcall).1 hin hother hkey

/-- **Refinement**: calls that exclude each other are calls in one step. -/
theorem Framed.refines (hf : Framed O next Inv) :
    Refines (O.overlap next true) next (fun s => Inv s.state ∧ Undisturbed O s)
      Overlapped.state := by
  refine ⟨fun s o ⟨hinv, h⟩ => ?_, fun s o ⟨hinv, h⟩ => (h.overlap hf hinv o).2⟩
  obtain ⟨hkept, hstate⟩ := h.overlap hf hinv o
  refine ⟨?_, hkept⟩
  rcases hstate with heq | heq
  · rw [heq]
    exact hinv
  · rw [heq]
    exact hf.keeps s.state o hinv

end Refines

end Phonebook.Lib.Overlap
