import Mathlib.Data.List.Infix
import Mathlib.Tactic.Common

/-! # Runs of a step function, and logs

The states a step function passes through along a list of operations, the rule that an invariant
holds along the whole run exactly when every operation of it was harmless in the state it met, and
the keys that a log of grants and revocations leaves in force. -/

namespace Phonebook.Lib.Runs

theorem concat_eq_append_cons {α : Type*} {l pre post : List α} {e x : α}
    (h : l ++ [e] = pre ++ x :: post) :
    (l = pre ∧ e = x ∧ post = []) ∨ ∃ post', post = post' ++ [e] ∧ l = pre ++ x :: post' := by
  rcases List.eq_nil_or_concat post with rfl | ⟨post', y, rfl⟩
  · obtain ⟨hl, he⟩ := List.append_inj' h rfl
    exact Or.inl ⟨hl, by simpa using he, rfl⟩
  · rw [List.concat_eq_append, ← List.cons_append, ← List.append_assoc] at h
    obtain ⟨hl, he⟩ := List.append_inj' h rfl
    obtain rfl : e = y := by simpa using he
    exact Or.inr ⟨post', by simp, hl⟩

/-! ### Runs -/

section Runs
variable {σ ο : Type*} (step : σ → ο → σ)

/-- The state after the operations. -/
def exec (s : σ) (ops : List ο) : σ := ops.foldl step s

@[simp] theorem exec_nil (s : σ) : exec step s [] = s := rfl

@[simp] theorem exec_cons (s : σ) (o : ο) (ops : List ο) :
    exec step s (o :: ops) = exec step (step s o) ops := rfl

theorem exec_append (s : σ) (ops ops' : List ο) :
    exec step s (ops ++ ops') = exec step (exec step s ops) ops' := List.foldl_append

theorem exec_concat (s : σ) (ops : List ο) (o : ο) :
    exec step s (ops ++ [o]) = step (exec step s ops) o := by
  rw [exec_append]; rfl

/-- **The run rule**: what holds at the start and is kept by every step holds after every run. -/
theorem exec_induction {P : σ → Prop} {s : σ} (h0 : P s) (hstep : ∀ s o, P s → P (step s o))
    (ops : List ο) : P (exec step s ops) := by
  induction ops generalizing s with
  | nil => exact h0
  | cons o ops ih => exact ih (hstep s o h0)

/-- The property holds in every state of the run. -/
def Along (P : σ → Prop) (s : σ) (ops : List ο) : Prop := ∀ pre, pre <+: ops → P (exec step s pre)

/-- Every operation of the run is `Ok` in the state it meets. -/
def StepsOk (Ok : σ → ο → Prop) (s : σ) (ops : List ο) : Prop :=
  ∀ pre o, pre ++ [o] <+: ops → Ok (exec step s pre) o

variable {step}

theorem StepsOk.initial {Ok : σ → ο → Prop} {s : σ} {pre ops : List ο} (hp : pre <+: ops)
    (h : StepsOk step Ok s ops) : StepsOk step Ok s pre :=
  fun pre' o hpre => h pre' o (hpre.trans hp)

theorem stepsOk_of_forall {Q : ο → Prop} {s : σ} {ops : List ο} (h : ∀ o ∈ ops, Q o) :
    StepsOk step (fun _ o => Q o) s ops :=
  fun _ o hp => h o (hp.subset (List.mem_append_right _ (List.mem_singleton_self o)))

theorem stepsOk_iff_getElem {Ok : σ → ο → Prop} {s : σ} {ops : List ο} :
    StepsOk step Ok s ops ↔ ∀ k (hk : k < ops.length), Ok (exec step s (ops.take k)) ops[k] := by
  constructor
  · intro h k hk
    refine h (ops.take k) ops[k] ?_
    rw [List.take_append_getElem]
    exact List.take_prefix _ _
  · rintro h pre o ⟨post, rfl⟩
    have hpre := h pre.length (by simp)
    simpa using hpre

theorem stepsOk_congr {Ok Ok' : σ → ο → Prop} {I : σ → Prop} {s : σ} (h0 : I s)
    (hstep : ∀ s o, I s → I (step s o)) (h : ∀ s o, I s → (Ok s o ↔ Ok' s o)) (ops : List ο) :
    StepsOk step Ok s ops ↔ StepsOk step Ok' s ops :=
  forall_congr' fun pre => forall_congr' fun o => imp_congr_right fun _ =>
    h _ o (exec_induction step h0 hstep pre)

/-- The run rule for steps that keep the invariant when they are `Ok`. -/
theorem inv_of_stepsOk {Ok : σ → ο → Prop} {I : σ → Prop} {s : σ} (h0 : I s)
    (hok : ∀ s o, I s → Ok s o → I (step s o)) (ops : List ο) :
    StepsOk step Ok s ops → I (exec step s ops) := by
  induction ops using List.reverseRecOn with
  | nil => exact fun _ => h0
  | append_singleton ops o ih =>
    intro h
    rw [exec_concat]
    exact hok _ _ (ih (h.initial (List.prefix_append ops [o]))) (h ops o (List.prefix_refl _))

/-- **A property along a run.** If `Ok` steps keep the invariant, the invariant gives the property,
and a step that is not `Ok` breaks the property, then the property holds in every state of a run if
and only if every step of the run is `Ok`. -/
theorem along_iff_stepsOk {Ok : σ → ο → Prop} {I P : σ → Prop} {s : σ} (h0 : I s)
    (hok : ∀ s o, I s → Ok s o → I (step s o)) (hP : ∀ s, I s → P s)
    (hbad : ∀ s o, I s → ¬ Ok s o → ¬ P (step s o)) (ops : List ο) :
    Along step P s ops ↔ StepsOk step Ok s ops := by
  constructor
  · induction ops using List.reverseRecOn with
    | nil => exact fun _ pre o h => absurd (List.prefix_nil.mp h) (by simp)
    | append_singleton ops o ih =>
      intro h
      have hops : StepsOk step Ok s ops :=
        ih fun pre hp => h pre (hp.trans (List.prefix_append ops [o]))
      intro pre o' hpre
      rcases List.prefix_concat_iff.mp hpre with heq | hlt
      · obtain ⟨rfl, ho⟩ := List.append_inj' heq rfl
        obtain rfl : o' = o := by simpa using ho
        by_contra hno
        have hbroken := hbad _ _ (inv_of_stepsOk h0 hok pre hops) hno
        rw [← exec_concat step] at hbroken
        exact hbroken (h _ (List.prefix_refl _))
      · exact hops pre o' hlt
  · exact fun h pre hp => hP _ (inv_of_stepsOk h0 hok pre (h.initial hp))

end Runs

/-! ### Purging a run -/

section Purge
variable {σ ο ρ : Type*} (step : σ → ο → σ × ρ) (Hidden : σ → ο → Prop)
  [∀ s o, Decidable (Hidden s o)]

/-- The final state of a run with outputs. -/
def final (s : σ) (ops : List ο) : σ := exec (fun s o => (step s o).1) s ops

/-- The operations of the run with their outputs, each marked if it was hidden when it came. -/
def trace (s : σ) : List ο → List (ο × ρ × Bool)
  | [] => []
  | o :: ops => (o, (step s o).2, decide (Hidden s o)) :: trace (step s o).1 ops

/-- The operations without those that are hidden when they come. -/
def purge (s : σ) : List ο → List ο
  | [] => []
  | o :: ops => if Hidden s o then purge (step s o).1 ops else o :: purge (step s o).1 ops

variable {step Hidden}

/-- **Purging**: if hidden operations leave the state alone, a run without them ends in the same
state and gives the others the same outputs. -/
theorem final_purge (h : ∀ s o, Hidden s o → (step s o).1 = s) (s : σ) (ops : List ο) :
    final step s (purge step Hidden s ops) = final step s ops := by
  induction ops generalizing s with
  | nil => rfl
  | cons o ops ih =>
    unfold purge
    split_ifs with ho
    · rw [h s o ho, ih]
      show _ = final step (step s o).1 ops
      rw [h s o ho]
    · exact ih (step s o).1

theorem trace_purge (h : ∀ s o, Hidden s o → (step s o).1 = s) (s : σ) (ops : List ο) :
    trace step Hidden s (purge step Hidden s ops) =
      (trace step Hidden s ops).filter fun t => !t.2.2 := by
  induction ops generalizing s with
  | nil => rfl
  | cons o ops ih =>
    unfold purge
    split_ifs with ho
    · rw [h s o ho, ih]
      simp [trace, ho, h s o ho]
    · simp only [trace, ih]
      simp [ho]

end Purge

/-! ### Logs of grants and revocations -/

section Logs
variable {ε κ : Type*} (grants revokes : ε → κ → Prop)

/-- Some event of the log granted the key and no later one revoked it. -/
def InForce (log : List ε) (u : κ) : Prop :=
  ∃ pre e post, log = pre ++ e :: post ∧ grants e u ∧ ∀ e' ∈ post, ¬ revokes e' u

variable {grants revokes}

theorem inForce_nil (u : κ) : ¬ InForce grants revokes [] u := by
  rintro ⟨pre, e, post, h, -⟩
  simp at h

/-- **One more event**: the keys in force are those it grants and those in force before that it does
not revoke. -/
theorem inForce_concat {log : List ε} {e : ε} {u : κ} :
    InForce grants revokes (log ++ [e]) u ↔
      grants e u ∨ (InForce grants revokes log u ∧ ¬ revokes e u) := by
  constructor
  · rintro ⟨pre, e', post, heq, hg, hr⟩
    rcases concat_eq_append_cons heq with ⟨-, rfl, rfl⟩ | ⟨post', rfl, rfl⟩
    · exact Or.inl hg
    · exact Or.inr ⟨⟨pre, e', post', rfl, hg, fun x hx => hr x (by simp [hx])⟩, hr e (by simp)⟩
  · rintro (hg | ⟨⟨pre, e', post, rfl, hg, hr⟩, hn⟩)
    · exact ⟨log, e, [], rfl, hg, by simp⟩
    · refine ⟨pre, e', post ++ [e], by simp, hg, fun x hx => ?_⟩
      rcases List.mem_append.mp hx with hx | hx
      · exact hr x hx
      · rw [List.mem_singleton.mp hx]; exact hn

end Logs

end Phonebook.Lib.Runs
