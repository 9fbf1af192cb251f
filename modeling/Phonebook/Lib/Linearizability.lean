import Mathlib.Data.List.Nodup
import Phonebook.Lib.Runs

/-! # Linearizability by a growing order

Operations, named by `ι`, are invoked and answered in a history. A sequential object says what each
operation does to a state and what it answers. An order of operations *linearizes* the history if it
lists, once each, only invoked operations and at least the answered ones, if running them one after
the other in it gives the answers the history has, and if an operation answered before another was
invoked stands before it.

A proof builds the order along the concurrent run: `invoke` and `answer` extend the history,
`effect` extends the order at the moment an operation takes effect. Whoever uses the object reasons
with the order as if the operations came one after the other (`in_order`). -/

namespace Phonebook.Lib.Linearizability

open Phonebook.Lib.Runs

/-- What a client sees of an operation. -/
inductive Event (ι ρ : Type*) where
  | invoke (i : ι)
  | answer (i : ι) (r : ρ)
deriving DecidableEq

variable {ι σ ρ : Type*}

/-- The event is of one of these operations. -/
def Event.isOf (seen : ι → Bool) : Event ι ρ → Bool
  | .invoke i | .answer i _ => seen i

/-- The event is an answer of the operation. -/
def Event.answers [DecidableEq ι] (i : ι) : Event ι ρ → Bool
  | .answer j _ => decide (j = i)
  | .invoke _ => false

/-- `i` was answered before `j` was invoked. -/
def RealTime (h : List (Event ι ρ)) (i j : ι) : Prop :=
  ∃ pre mid post r, h = pre ++ .answer i r :: mid ++ .invoke j :: post

/-- `i` stands before `j`. -/
def Before (order : List ι) (i j : ι) : Prop := [i, j].Sublist order

section Sequential
variable (apply : σ → ι → σ × ρ)

/-- The state after the operations, one after the other. -/
def seqState (s : σ) (order : List ι) : σ := order.foldl (fun s i => (apply s i).1) s

/-- The answers of the operations, one after the other. -/
def seqAnswers (s : σ) : List ι → List (ι × ρ)
  | [] => []
  | i :: order => (i, (apply s i).2) :: seqAnswers (apply s i).1 order

@[simp] theorem seqState_nil (s : σ) : seqState apply s [] = s := rfl

theorem seqState_concat (s : σ) (order : List ι) (i : ι) :
    seqState apply s (order ++ [i]) = (apply (seqState apply s order) i).1 := by
  simp [seqState]

theorem seqAnswers_concat (s : σ) (order : List ι) (i : ι) :
    seqAnswers apply s (order ++ [i]) =
      seqAnswers apply s order ++ [(i, (apply (seqState apply s order) i).2)] := by
  induction order generalizing s with
  | nil => rfl
  | cons j order ih => simp [seqAnswers, ih, seqState]

theorem mem_of_mem_seqAnswers {s : σ} {order : List ι} {i : ι} {r : ρ}
    (h : (i, r) ∈ seqAnswers apply s order) : i ∈ order := by
  induction order generalizing s with
  | nil => simp [seqAnswers] at h
  | cons j order ih =>
    rcases List.mem_cons.mp h with h | h
    · rw [(Prod.mk.inj h).1]; simp
    · exact List.mem_cons_of_mem j (ih h)

/-- **The order linearizes the history** from the state `s`. -/
structure Linearizes (s : σ) (h : List (Event ι ρ)) (order : List ι) : Prop where
  nodup : order.Nodup
  invoked : ∀ i ∈ order, Event.invoke i ∈ h
  answered : ∀ i r, Event.answer i r ∈ h → (i, r) ∈ seqAnswers apply s order
  realTime : ∀ i j, RealTime h i j → j ∈ order → Before order i j

end Sequential

variable {apply : σ → ι → σ × ρ} {s : σ} {h : List (Event ι ρ)} {order : List ι}

theorem Before.append {i j : ι} (hb : Before order i j) (order' : List ι) :
    Before (order ++ order') i j := hb.trans (List.sublist_append_left order order')

theorem before_concat {i j : ι} (hi : i ∈ order) : Before (order ++ [j]) i j :=
  List.Sublist.append (List.singleton_sublist.mpr hi) (List.Sublist.refl [j])

theorem RealTime.answered {i j : ι} (hr : RealTime h i j) : ∃ r, Event.answer i r ∈ h := by
  obtain ⟨pre, mid, post, r, rfl⟩ := hr
  exact ⟨r, by simp⟩

/-- One more event makes a new real-time pair only when it is the later operation's invocation. -/
theorem realTime_concat {e : Event ι ρ} {i j : ι} (hr : RealTime (h ++ [e]) i j) :
    RealTime h i j ∨ e = .invoke j := by
  obtain ⟨pre, mid, post, r, heq⟩ := hr
  rcases concat_eq_append_cons heq with ⟨-, rfl, -⟩ | ⟨post', -, rfl⟩
  · exact Or.inr rfl
  · exact Or.inl ⟨pre, mid, post', r, rfl⟩

theorem RealTime.append {i j : ι} (hr : RealTime h i j) (l : List (Event ι ρ)) :
    RealTime (h ++ l) i j := by
  obtain ⟨pre, mid, post, r, rfl⟩ := hr
  exact ⟨pre, mid, post ++ l, r, by simp⟩

theorem realTime_of_answered {i j : ι} {r : ρ} (hr : Event.answer i r ∈ h) :
    RealTime (h ++ [.invoke j]) i j := by
  obtain ⟨pre, mid, rfl⟩ := List.append_of_mem hr
  exact ⟨pre, mid, [], r, by simp⟩

theorem Linearizes.nil : Linearizes apply s ([] : List (Event ι ρ)) [] where
  nodup := List.nodup_nil
  invoked := by simp
  answered := by simp
  realTime := by simp

/-- **Invocation** of an operation that has had no effect yet. -/
theorem Linearizes.invoke (hl : Linearizes apply s h order) {i : ι} (hi : i ∉ order) :
    Linearizes apply s (h ++ [.invoke i]) order where
  nodup := hl.nodup
  invoked := fun j hj => List.mem_append_left _ (hl.invoked j hj)
  answered := fun j r hj => hl.answered j r (by simpa using hj)
  realTime := fun j k hr hk => by
    rcases realTime_concat hr with hr | he
    · exact hl.realTime j k hr hk
    · cases he; exact absurd hk hi

/-- **Effect** of an operation that is invoked and has had none yet. -/
theorem Linearizes.effect (hl : Linearizes apply s h order) {i : ι} (hi : i ∉ order)
    (hinv : Event.invoke i ∈ h) : Linearizes apply s h (order ++ [i]) where
  nodup := by
    rw [List.nodup_append]
    refine ⟨hl.nodup, List.nodup_singleton i, fun j hj k hk => ?_⟩
    rw [List.mem_singleton.mp hk]
    rintro rfl; exact hi hj
  invoked := fun j hj => by
    rcases List.mem_append.mp hj with hj | hj
    · exact hl.invoked j hj
    · rw [List.mem_singleton.mp hj]; exact hinv
  answered := fun j r hj => by
    rw [seqAnswers_concat]
    exact List.mem_append_left _ (hl.answered j r hj)
  realTime := fun j k hr hk => by
    rcases List.mem_append.mp hk with hk | hk
    · exact (hl.realTime j k hr hk).append [i]
    · rw [List.mem_singleton.mp hk]
      obtain ⟨r, hj⟩ := hr.answered
      exact before_concat (mem_of_mem_seqAnswers apply (hl.answered j r hj))

/-- **Answer** of an operation, with what the sequential run gives it. -/
theorem Linearizes.answer (hl : Linearizes apply s h order) {i : ι} {r : ρ}
    (hr : (i, r) ∈ seqAnswers apply s order) :
    Linearizes apply s (h ++ [.answer i r]) order where
  nodup := hl.nodup
  invoked := fun j hj => List.mem_append_left _ (hl.invoked j hj)
  answered := fun j r' hj => by
    rcases List.mem_append.mp hj with hj | hj
    · exact hl.answered j r' hj
    · obtain ⟨rfl, rfl⟩ := Event.answer.inj (List.mem_singleton.mp hj)
      exact hr
  realTime := fun j k hrt hk => by
    rcases realTime_concat hrt with hrt | he
    · exact hl.realTime j k hrt hk
    · cases he

theorem seqAnswers_view {ρ' : Type*} {apply' : σ → ι → σ × ρ'} {view : ι → ρ → ρ'}
    (happly : ∀ s i, apply' s i = ((apply s i).1, view i (apply s i).2)) (s : σ) (order : List ι) :
    seqAnswers apply' s order = (seqAnswers apply s order).map fun x => (x.1, view x.1 x.2) := by
  induction order generalizing s with
  | nil => rfl
  | cons i order ih => rw [seqAnswers, seqAnswers, List.map_cons, ← ih, happly]

/-- **Wider intervals.** If every operation is invoked earlier and answered later in one history
than in another, in which the answers are seen through `view`, an order that linearizes the other
linearizes the one. -/
theorem Linearizes.widen (hl : Linearizes apply s h order) {ρ' : Type*} {apply' : σ → ι → σ × ρ'}
    {h' : List (Event ι ρ')} (view : ι → ρ → ρ')
    (happly : ∀ s i, apply' s i = ((apply s i).1, view i (apply s i).2))
    (hinv : ∀ i, Event.invoke i ∈ h → Event.invoke i ∈ h')
    (hans : ∀ i r', Event.answer i r' ∈ h' → ∃ r, r' = view i r ∧ Event.answer i r ∈ h)
    (hrt : ∀ i j, RealTime h' i j → RealTime h i j ∨ Event.invoke j ∉ h) :
    Linearizes apply' s h' order where
  nodup := hl.nodup
  invoked i hi := hinv i (hl.invoked i hi)
  answered i r' hr' := by
    obtain ⟨r, rfl, hr⟩ := hans i r' hr'
    rw [seqAnswers_view happly]
    exact List.mem_map_of_mem (f := fun x : ι × ρ => (x.1, view x.1 x.2)) (hl.answered i r hr)
  realTime i j hr hj := by
    rcases hrt i j hr with hold | hnot
    · exact hl.realTime i j hold hj
    · exact absurd (hl.invoked j hj) hnot

theorem Linearizes.mem_iff (hl : Linearizes apply s h order)
    (hall : ∀ i, Event.invoke i ∈ h → ∃ r, Event.answer i r ∈ h) {i : ι} :
    i ∈ order ↔ Event.invoke i ∈ h := by
  refine ⟨hl.invoked i, fun hi => ?_⟩
  obtain ⟨r, hr⟩ := hall i hi
  exact mem_of_mem_seqAnswers apply (hl.answered i r hr)

theorem Linearizes.mem_of_any [DecidableEq ι] (hl : Linearizes apply s h order) {i : ι}
    (hi : h.any (Event.answers i) = true) : i ∈ order := by
  obtain ⟨e, he, hei⟩ := List.any_eq_true.mp hi
  cases e with
  | invoke j => cases hei
  | answer j r =>
    obtain rfl : j = i := of_decide_eq_true hei
    exact mem_of_mem_seqAnswers apply (hl.answered j r he)

theorem seqState_append (s : σ) (order order' : List ι) :
    seqState apply s (order ++ order') = seqState apply (seqState apply s order) order' :=
  List.foldl_append

theorem split_of_mem_seqAnswers {i : ι} {r : ρ} (hr : (i, r) ∈ seqAnswers apply s order) :
    ∃ pre post, order = pre ++ i :: post ∧ (apply (seqState apply s pre) i).2 = r := by
  induction order generalizing s with
  | nil => cases hr
  | cons j order ih =>
    rcases List.mem_cons.mp hr with heq | hr
    · obtain ⟨rfl, rfl⟩ := Prod.mk.inj heq
      exact ⟨[], order, rfl, rfl⟩
    · obtain ⟨pre, post, rfl, hpre⟩ := ih hr
      exact ⟨j :: pre, post, rfl, hpre⟩

theorem Before.mem_left {pre post : List ι} {i j : ι} (hb : Before (pre ++ j :: post) i j)
    (hnodup : (pre ++ j :: post).Nodup) : i ∈ pre := by
  have hpost : j ∉ post := (List.nodup_cons.mp (List.nodup_append.mp hnodup).2.1).1
  unfold Before at hb
  obtain ⟨l, l', heq, hl, hl'⟩ := List.sublist_append_iff.mp hb
  cases l with
  | nil =>
    rw [List.nil_append] at heq
    rw [← heq] at hl'
    -- both would stand after `pre`, where `j` comes first
    have hj : j ∈ post := by
      cases hl' with
      | cons _ h => exact h.subset (by simp)
      | cons_cons _ h => exact h.subset (by simp)
    exact absurd hj hpost
  | cons k l =>
    obtain ⟨rfl, -⟩ := List.cons.inj heq
    exact hl.subset List.mem_cons_self

/-- **Calls in real time.** Of two answered operations, one of which was answered before the other
was invoked, the order has the one before the other, each with the answer it gives there. -/
theorem Linearizes.in_order (hl : Linearizes apply s h order) {i j : ι} {r r' : ρ}
    (hi : .answer i r ∈ h) (hj : .answer j r' ∈ h) (hrt : RealTime h i j) :
    ∃ pre mid post, order = pre ++ i :: mid ++ j :: post ∧ (apply (seqState apply s pre) i).2 = r ∧
      (apply (seqState apply s (pre ++ i :: mid)) j).2 = r' := by
  obtain ⟨before, post, hsplit, hj⟩ := split_of_mem_seqAnswers (hl.answered j r' hj)
  have hnodup := hl.nodup
  have hbefore : Before order i j := hl.realTime i j hrt (by rw [hsplit]; simp)
  rw [hsplit] at hnodup hbefore
  obtain ⟨pre, mid, rfl⟩ := List.append_of_mem (hbefore.mem_left hnodup)
  obtain ⟨pre', post', hsplit', hi⟩ := split_of_mem_seqAnswers (hl.answered i r hi)
  refine ⟨pre, mid, post, hsplit, ?_, hj⟩
  -- there is one place for `i` in the order
  have hplace : pre ++ i :: (mid ++ j :: post) = pre' ++ i :: post' := by
    rw [← hsplit', hsplit, List.append_assoc, List.cons_append]
  rw [List.append_assoc, List.cons_append] at hnodup
  obtain ⟨-, hrest, hdisj⟩ := List.nodup_append.mp hnodup
  have hpre : i ∉ pre := fun hin => hdisj i hin i List.mem_cons_self rfl
  have hpost : i ∉ mid ++ j :: post := (List.nodup_cons.mp hrest).1
  obtain ⟨rfl, -, -⟩ := (List.append_cons_inj_of_notMem hpre hpost).mp hplace
  exact hi

end Phonebook.Lib.Linearizability
