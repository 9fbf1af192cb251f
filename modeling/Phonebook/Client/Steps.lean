import Phonebook.Client.AsyncRequest

/-! # What a statement does

A statement first consults responses: it issues a request, it waits for the one its variable held
last, or it asks whether one arrived. Then, if that went well, pointers change. Between statements
only declared variables hold requests. -/

namespace Phonebook.Client.Steps

open Phonebook.Data.Values Phonebook.Lib.Runs Phonebook.Lib.SharedPtr Phonebook.Client.AsyncRequest

variable {V P : Type} [Fintype V] [DecidableEq V]

/-- The part of a statement that touches responses. -/
def consult (s : Program V P) : Op V P → Program V P × Cpp Unit
  | .construct _ | .copyConstruct _ _ | .moveConstruct _ _ => (s, .returns ())
  | .copyAssign v other | .moveAssign v other =>
    if s.self (.variable v) = s.self (.variable other) then (s, .returns ()) else s.waitIfUnique
      (.variable v)
  | .computeSum req response result => (issued s response result).waitIfUnique (.variable req)
  | .wait v => s.wait (.variable v)
  | .completed v arrived =>
    match s.completed (.variable v) arrived with
    | (s, .returns _) => (s, .returns ())
    | (s, .throws e) => (s, .throws e)
    | (s, .undefined) => (s, .undefined)
  | .destroy v => s.waitIfUnique (.variable v)

/-- The pointers after a statement that went well. -/
def pointers (s : Program V P) : Op V P → Holder V → Option Ref
  | .construct v | .destroy v => Function.update s.self (.variable v) none
  | .copyConstruct v other | .copyAssign v other =>
    Function.update s.self (.variable v) (s.self (.variable other))
  | .moveConstruct v other =>
    Function.update (Function.update s.self (.variable v) (s.self (.variable other)))
      (.variable other) none
  | .moveAssign v other =>
    if s.self (.variable v) = s.self (.variable other) then s.self
    else Function.update (Function.update s.self (.variable v) (s.self (.variable other)))
      (.variable other) none
  | .computeSum req _ _ => Function.update s.self (.variable req) (some s.heap.length)
  | .wait _ | .completed _ _ => s.self

/-- The variables declared after a statement. -/
def declares (s : Program V P) : Op V P → V → Bool
  | .construct v | .copyConstruct v _ | .moveConstruct v _ => Function.update s.declared v true
  | .destroy v => Function.update s.declared v false
  | _ => s.declared

/-- Between statements: requests are held by declared variables only. -/
structure AtRest (s : Program V P) : Prop where
  valid : Valid s
  temporary : s.self .temporary = none
  asyncRequestImpl : s.self .asyncRequestImpl = none
  undeclared : ∀ v, s.declared v = false → s.self (.variable v) = none

/-- How a statement may end: it goes well, it throws and the program goes on with its pointers as
they were, or the program is over. -/
inductive Ends (s : Program V P) (o : Op V P) (s' : Program V P) : Prop
  | returned (hc : (consult s o).2 = .returns ()) (self : s'.self = pointers s o)
      (declared : s'.declared = declares s o) (fate : s'.fate = s.fate)
  | threw (e : Exn) (hc : (consult s o).2 = .throws e) (hd : ∀ v, o ≠ .destroy v)
      (self : s'.self = s.self) (declared : s'.declared = s.declared) (fate : s'.fate = s.fate)
  | over (hc : (consult s o).2 = .undefined ∨ ∃ v e, o = .destroy v ∧ (consult s o).2 = .throws e)
      (fate : s'.fate ≠ .running)

/-- A statement does to the responses what consulting them does, and ends in one of the three
ways. -/
structure Performed (s : Program V P) (o : Op V P) (s' : Program V P) : Prop where
  heap : s'.heap = (consult s o).1.heap
  log : s'.log = (consult s o).1.log
  ends : Ends s o s'

variable {s : Program V P}

/-- Consulting responses declares nothing and lets the program go on. -/
structure Goes (s s' : Program V P) : Prop where
  declared : s'.declared = s.declared
  fate : s'.fate = s.fate

omit [Fintype V] [DecidableEq V] in
theorem goes_of_frame {s' : Program V P} (hf : Frame s s') : Goes s s' := ⟨hf.declared, hf.fate⟩

theorem goes_consult (hv : Valid s) (o : Op V P) : Goes s (consult s o).1 := by
  have hstay : Goes s s := ⟨rfl, rfl⟩
  cases o with
  | construct | copyConstruct | moveConstruct => exact hstay
  | copyAssign v other | moveAssign v other =>
    dsimp only [consult]
    split_ifs
    · exact hstay
    · exact goes_of_frame (frame_waitIfUnique hv _)
  | computeSum req response result =>
    have hf := frame_waitIfUnique (valid_issued hv response result) (.variable req)
    exact ⟨hf.declared, hf.fate⟩
  | wait v => exact goes_of_frame (frame_wait hv _)
  | completed v arrived =>
    have hres := completed_result hv (.variable v) arrived
    dsimp only [consult]
    generalize s.completed (.variable v) arrived = x at hres
    cases hres with
    | invalid => exact hstay
    | pending | late => exact ⟨rfl, rfl⟩
  | destroy v => exact goes_of_frame (frame_waitIfUnique hv _)

/-- After consulting responses: if that went well the pointers are the new ones, else the old
ones. -/
def finish (self self' : Holder V → Option Ref) : Program V P × Cpp Unit → Program V P × Cpp Unit
  | (s, .returns ()) => ({ s with self := self' }, .returns ())
  | (s, exit) => ({ s with self := self }, exit)

theorem performed_of_finish (hv : Valid s) {o : Op V P} (hd : ∀ v, o ≠ .destroy v)
    (hdecl : declares s o = s.declared)
    (hp : perform s o = settle (finish s.self (pointers s o) (consult s o))) :
    Performed s o (perform s o) := by
  have hg : Goes s (consult s o).1 := goes_consult hv o
  rw [hp]
  rcases hc : consult s o with ⟨s', exit⟩
  replace hg : Goes s s' := by rw [hc] at hg; exact hg
  rcases exit with ⟨⟨⟩⟩ | e | _
  · exact ⟨by rw [hc]; rfl, by rw [hc]; rfl,
      .returned (by rw [hc]) rfl (hg.declared.trans hdecl.symm) hg.fate⟩
  · exact ⟨by rw [hc]; rfl, by rw [hc]; rfl, .threw e (by rw [hc]) hd rfl hg.declared hg.fate⟩
  · exact ⟨by rw [hc]; rfl, by rw [hc]; rfl, .over (Or.inl (by rw [hc])) nofun⟩

omit [Fintype V] [DecidableEq V] in
theorem same_iff (s : Program V P) (h h' : Holder V) :
    (h = h' ∨ s.self h = s.self h') ↔ s.self h = s.self h' := or_iff_right_of_imp (congrArg s.self)

omit [Fintype V] [DecidableEq V] in
theorem finish_same {self : Holder V → Option Ref} {x : Program V P × Cpp Unit}
    (hx : x.1.self = self) :
    finish self self x = x := by
  subst hx
  rcases x with ⟨s', ⟨⟨⟩⟩ | e | _⟩ <;> rfl

omit [DecidableEq V] in
theorem assign_eq_finish (hv : Valid s) (v : V) (f : Program V P → Program V P)
    (self' : Holder V → Option Ref)
    (hf : ∀ s' : Program V P, s'.self = s.self → f s' = { s' with self := self' }) :
    (match s.waitIfUnique (.variable v) with
      | (s', .returns ()) => (f s', .returns ())
      | (s', exit) => (s', exit)) = finish s.self self' (s.waitIfUnique (.variable v)) := by
  have hself : (s.waitIfUnique (.variable v)).1.self = s.self := (frame_waitIfUnique hv _).self
  rcases hw : s.waitIfUnique (.variable v) with ⟨s', exit⟩
  replace hself : s'.self = s.self := by rw [hw] at hself; exact hself
  rcases exit with ⟨⟨⟩⟩ | e | _
  · exact congrArg (·, Cpp.returns ()) (hf s' hself)
  · show (s', Cpp.throws e) = ({ s' with self := s.self }, Cpp.throws e)
    rw [← hself]
  · show (s', Cpp.undefined) = ({ s' with self := s.self }, Cpp.undefined)
    rw [← hself]

theorem perform_eq_finish (hr : AtRest s) {o : Op V P} (hd : ∀ v, o ≠ .destroy v)
    (hdecl : declares s o = s.declared) :
    perform s o = settle (finish s.self (pointers s o) (consult s o)) := by
  have hv : Valid s := hr.valid
  cases o with
  | construct | copyConstruct | moveConstruct =>
    dsimp only [declares] at hdecl
    simp only [perform, Program.declare, Program.put, consult, pointers, finish, settle, hdecl]
  | copyAssign v other =>
    refine congrArg settle ?_
    dsimp only [Program.copyAssign, consult, pointers]
    rw [if_congr (same_iff s _ _) rfl rfl]
    split_ifs with heq
    · rw [← heq, Function.update_eq_self]
      rfl
    · exact assign_eq_finish hv v (fun s' => s'.put (.variable v) (s'.self (.variable other))) _
        fun s' hs' => by simp only [Program.put, hs']
  | moveAssign v other =>
    refine congrArg settle ?_
    dsimp only [Program.moveAssign, consult, pointers]
    rw [if_congr (same_iff s _ _) rfl rfl]
    split_ifs with heq
    · rfl
    · exact assign_eq_finish hv v
        (fun s' => (s'.put (.variable v) (s'.self (.variable other))).put (.variable other) none) _
        fun s' hs' => by simp only [Program.put, hs']
  | computeSum req response result =>
    refine congrArg settle ?_
    rw [computeSum_eq hv hr.temporary hr.asyncRequestImpl]
    rfl
  | wait v =>
    refine congrArg settle ?_
    exact (finish_same (frame_wait hv _).self).symm
  | completed v arrived =>
    have hres := completed_result hv (.variable v) arrived
    dsimp only [perform, consult, pointers]
    generalize s.completed (.variable v) arrived = x at hres
    cases hres with
    | invalid | pending | late => rfl
  | destroy v => exact absurd rfl (hd v)

/-- **One statement**: what it does to the responses and to the pointers, and how it ends. -/
theorem performed (hr : AtRest s) (o : Op V P) : Performed s o (perform s o) := by
  have hv : Valid s := hr.valid
  cases o with
  | construct | copyConstruct | moveConstruct => exact ⟨rfl, rfl, .returned rfl rfl rfl rfl⟩
  | copyAssign | moveAssign | computeSum | wait | completed =>
    exact performed_of_finish hv nofun rfl (perform_eq_finish hr nofun rfl)
  | destroy v =>
    have hf : Frame s (s.waitIfUnique (.variable v)).1 := frame_waitIfUnique hv _
    dsimp only [perform, Program.destruct]
    rcases hw : s.waitIfUnique (.variable v) with ⟨s', exit⟩
    have hc : consult s (.destroy v) = (s', exit) := hw
    replace hf : Frame s s' := by rw [hw] at hf; exact hf
    rcases exit with ⟨⟨⟩⟩ | e | _
    · exact ⟨by rw [hc]; rfl, by rw [hc]; rfl, .returned (by rw [hc])
        (by simp only [Program.put, hf.self, pointers])
          (by simp only [Program.put, hf.declared, declares]) hf.fate⟩
    · exact ⟨by rw [hc], by rw [hc], .over (Or.inr ⟨v, e, rfl, by rw [hc]⟩) (by rintro ⟨⟩)⟩
    · exact ⟨by rw [hc], by rw [hc], .over (Or.inl (by rw [hc])) (by rintro ⟨⟩)⟩

theorem self_of_not_returned (hr : AtRest s) {o : Op V P} (hc : (consult s o).2 ≠ .returns ()) :
    (perform s o).self = s.self := by
  have hfinish :
    ∀ {x : Program V P × Cpp Unit} {self self' : Holder V → Option Ref}, x.2 ≠ .returns () →
      (settle (finish self self' x)).self = self := by
    rintro ⟨s', ⟨⟨⟩⟩ | e | _⟩ self self' hx
    · exact absurd rfl hx
    · rfl
    · rfl
  cases o with
  | construct | copyConstruct | moveConstruct => exact absurd rfl hc
  | copyAssign | moveAssign | computeSum | wait | completed =>
    refine (congrArg Program.self (perform_eq_finish hr ?_ rfl)).trans (hfinish hc)
    nofun
  | destroy v =>
    have hf : Frame s (s.waitIfUnique (.variable v)).1 := frame_waitIfUnique hr.valid _
    dsimp only [perform, Program.destruct, consult] at hc ⊢
    rcases hw : s.waitIfUnique (.variable v) with ⟨s', exit⟩
    rw [hw] at hf hc
    rcases exit with ⟨⟨⟩⟩ | e | _
    · exact absurd rfl hc
    · exact hf.self
    · exact hf.self

/-! ### Between statements -/

/-- How many requests a statement issues. -/
def issues : Op V P → ℕ
  | .computeSum _ _ _ => 1
  | _ => 0

theorem heap_consult (hv : Valid s) (o : Op V P) :
    (consult s o).1.heap.length = s.heap.length + issues o := by
  cases o with
  | construct | copyConstruct | moveConstruct => rfl
  | copyAssign v other | moveAssign v other =>
    dsimp only [consult]
    split_ifs
    · rfl
    · exact (frame_waitIfUnique hv _).heap
  | computeSum req response result =>
    rw [consult, (frame_waitIfUnique (valid_issued hv response result) _).heap]
    simp [issued, issues]
  | wait v => exact (frame_wait hv _).heap
  | completed v arrived =>
    have hres := completed_result hv (.variable v) arrived
    dsimp only [consult]
    generalize s.completed (.variable v) arrived = x at hres
    cases hres with
    | invalid | pending | late => rfl
  | destroy v => exact (frame_waitIfUnique hv _).heap

omit [Fintype V] in
/-- A request there is after the statement was there before, or it is held. -/
theorem lt_or_held (s : Program V P) (o : Op V P) {r : Ref} (hlt : r < s.heap.length + issues o) :
    r < s.heap.length ∨ ∃ h, pointers s o h = some r := by
  cases o with
  | computeSum req response result =>
    rcases Nat.lt_succ_iff_lt_or_eq.mp hlt with hold | rfl
    · exact Or.inl hold
    · exact Or.inr ⟨.variable req, Function.update_self ..⟩
  | _ => exact Or.inl hlt

omit [Fintype V] in
theorem moved_cases (self : Holder V → Option Ref) (v other : V) (h : Holder V) :
    Function.update (Function.update self (.variable v) (self (.variable other)))
      (.variable other) none h = none ∨
      ∃ h', Function.update (Function.update self (.variable v) (self (.variable other)))
        (.variable other) none h = self h' := by
  simp only [Function.update_apply]
  split_ifs
  · exact Or.inl rfl
  · exact Or.inr ⟨.variable other, rfl⟩
  · exact Or.inr ⟨h, rfl⟩

omit [Fintype V] in
/-- A pointer after a statement is null, the new request, or a pointer from before. -/
theorem pointers_cases (s : Program V P) (o : Op V P) (h : Holder V) :
    pointers s o h = none ∨ (∃ h', pointers s o h = s.self h') ∨
      (pointers s o h = some s.heap.length ∧ issues o = 1) := by
  cases o with
  | construct v | destroy v =>
    dsimp only [pointers]
    rw [Function.update_apply]
    split_ifs
    · exact Or.inl rfl
    · exact Or.inr (Or.inl ⟨h, rfl⟩)
  | copyConstruct v other | copyAssign v other =>
    dsimp only [pointers]
    rw [Function.update_apply]
    split_ifs
    · exact Or.inr (Or.inl ⟨.variable other, rfl⟩)
    · exact Or.inr (Or.inl ⟨h, rfl⟩)
  | moveConstruct v other => exact (moved_cases s.self v other h).imp_right Or.inl
  | moveAssign v other =>
    dsimp only [pointers]
    split_ifs
    · exact Or.inr (Or.inl ⟨h, rfl⟩)
    · exact (moved_cases s.self v other h).imp_right Or.inl
  | computeSum req response result =>
    dsimp only [pointers]
    rw [Function.update_apply]
    split_ifs
    · exact Or.inr (Or.inr ⟨rfl, rfl⟩)
    · exact Or.inr (Or.inl ⟨h, rfl⟩)
  | wait | completed => exact Or.inr (Or.inl ⟨h, rfl⟩)

omit [Fintype V] in
theorem pointers_of_ne_variable (s : Program V P) (o : Op V P) {h : Holder V}
    (hh : ∀ v, h ≠ .variable v) :
    pointers s o h = s.self h := by
  cases o with
  | moveAssign v other =>
    dsimp only [pointers]
    split_ifs
    · rfl
    · rw [Function.update_of_ne (hh other), Function.update_of_ne (hh v)]
  | moveConstruct v other =>
    dsimp only [pointers]
    rw [Function.update_of_ne (hh other), Function.update_of_ne (hh v)]
  | construct v | destroy v | copyConstruct v | copyAssign v | computeSum v =>
    exact Function.update_of_ne (hh v) _ _
  | wait | completed => rfl

omit [Fintype V] in
theorem pointers_undeclared (hr : AtRest s) {o : Op V P} (hs : o.Scoped s) {w : V}
    (hw : declares s o w = false) : pointers s o (.variable w) = none := by
  have hold : s.declared w = false → s.self (.variable w) = none := hr.undeclared w
  have hne : ∀ v, s.declared v = true → s.declared w = false → w ≠ v := fun v hv hw heq => by
    rw [heq, hv] at hw
    cases hw
  -- a variable that is declared now is another one, and what is not declared now was not before
  have hnew : ∀ v, Function.update s.declared v true w = false → w ≠ v ∧ s.declared w = false :=
    fun v hw => by
    by_cases heq : w = v
    · subst heq
      simp at hw
    · exact ⟨heq, by simpa [heq] using hw⟩
  cases o with
  | construct v =>
    simp [pointers, (hnew v hw).1, hold (hnew v hw).2]
  | copyConstruct v other =>
    simp [pointers, (hnew v hw).1, hold (hnew v hw).2]
  | moveConstruct v other =>
    simp [pointers, (hnew v hw).1, hold (hnew v hw).2, Function.update_apply]
  | copyAssign v other =>
    simp [pointers, hne v hs.1 hw, hold hw]
  | moveAssign v other =>
    dsimp only [pointers]
    split_ifs
    · exact hold hw
    · simp [hne v hs.1 hw, hne other hs.2 hw, hold hw]
  | computeSum v response result =>
    simp [pointers, hne v hs hw, hold hw]
  | wait | completed => exact hold hw
  | destroy v =>
    simp only [pointers, declares, Function.update_apply, Holder.variable.injEq] at hw ⊢
    split_ifs with heq
    · rfl
    · exact hold (by simpa [heq] using hw)

omit [Fintype V] [DecidableEq V] in
theorem atRest_start : AtRest (Program.start : Program V P) :=
  ⟨fun _ _ h => (by cases h), rfl, rfl, fun _ _ => rfl⟩

theorem atRest_perform (hr : AtRest s) {o : Op V P} (hs : o.Scoped s)
    (hf : (perform s o).fate = .running) :
    AtRest (perform s o) := by
  obtain ⟨hheap, -, hends⟩ := performed hr o
  have hlen := heap_consult hr.valid o
  rw [← hheap] at hlen
  rcases hends with ⟨-, hself, hdecl, -⟩ | ⟨-, -, -, hself, hdecl, -⟩ | ⟨-, hover⟩
  · refine ⟨fun h r hp => ?_, ?_, ?_, fun v hv => ?_⟩
    · rw [hself] at hp
      rcases pointers_cases s o h with hnull | ⟨h', hold⟩ | ⟨hnew, ho⟩
      · rw [hnull] at hp
        cases hp
      · rw [hold] at hp
        rw [hlen]
        exact (hr.valid h' r hp).trans_le (Nat.le_add_right _ _)
      · rw [hnew] at hp
        rw [hlen, ho, ← Option.some.inj hp]
        exact Nat.lt_succ_self _
    · rw [hself, pointers_of_ne_variable s o (by rintro v ⟨⟩), hr.temporary]
    · rw [hself, pointers_of_ne_variable s o (by rintro v ⟨⟩), hr.asyncRequestImpl]
    · rw [hself]
      rw [hdecl] at hv
      exact pointers_undeclared hr hs hv
  · refine ⟨fun h r hp => ?_, ?_, ?_, fun v hv => ?_⟩
    · rw [hself] at hp
      rw [hlen]
      exact (hr.valid h r hp).trans_le (Nat.le_add_right _ _)
    · rw [hself, hr.temporary]
    · rw [hself, hr.asyncRequestImpl]
    · rw [hself]
      rw [hdecl] at hv
      exact hr.undeclared v hv
  · exact absurd hf hover

end Phonebook.Client.Steps
