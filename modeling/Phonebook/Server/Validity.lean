import Phonebook.Server.Lifetime

/-! # Valid and invalid providers

A `Provider` is valid from its construction until it is moved from or the engine is finalized, which
resets it through the callback it left with the engine. The program with its pointers and callbacks
follows this (`follows_exec`). Every member function looks at `self` before it goes through it, but
the move constructor does not: so a run dereferences a null `self`, or fails to make an invalid
provider of an invalid one, exactly when it moves from a provider that is not valid any more
(`neverNull_iff`). -/

namespace Phonebook.Server.Validity

open Phonebook.Data.Values Phonebook.Server.Backends Phonebook.Server.Provider Phonebook.Lib.Runs
open Phonebook.Server.Lifetime

variable {A α : Type} [DecidableEq A]

/-! ### What an operation dereferences -/

/-- `if(self)` before a use of `self`. -/
def guarded (p : Provider α) : List (Option (ProviderImpl α)) :=
  if p.self.isSome then [p.self] else []

/-- The `self` pointers an operation dereferences, in the order it gets to them; it does not get
beyond a null one. -/
def dereferenced (s : Program A α) : Op A α → List (Option (ProviderImpl α))
  | .construct a impl =>
    match s.objects a, s.finalized with
    | none, false => [some impl]
    | _, _ => []
  | .moveConstruct a other =>
    match s.objects a, s.objects other with
    | none, some p =>
      -- `other.self` without a look at it, and `self` once it was moved
      match p.self with
      | none => [none]
      | some impl => [some impl, some impl]
    | _, _ => []
  | .destroy a | .getConfig a | .setSecurityToken a _ => (s.objects a).elim [] guarded
  | .operatorBool _ | .finalize => []

omit [DecidableEq A] in
theorem none_not_mem_guarded (p : Option (Provider α)) : none ∉ p.elim [] guarded := by
  rcases p with _ | ⟨_ | impl⟩ <;> simp [guarded]

omit [DecidableEq A] in
/-- **The one null `self`** that is dereferenced: that of a provider that is moved from and is null
already. -/
theorem none_mem_dereferenced_iff (s : Program A α) (o : Op A α) :
    none ∈ dereferenced s o ↔
      ∃ a other,
        o = .moveConstruct a other ∧ s.objects a = none ∧ s.objects other = some ⟨none⟩ := by
  cases o with
  | construct a impl =>
    refine iff_of_false ?_ (by rintro ⟨_, _, heq, -⟩; cases heq)
    rcases ha : s.objects a with _ | p <;> rcases hf : s.finalized with _ | _ <;>
      simp [dereferenced, ha, hf]
  | moveConstruct a other =>
    rcases ha : s.objects a with _ | p <;> rcases ho : s.objects other with _ | ⟨_ | impl⟩ <;>
      simp [dereferenced, ha, ho]
  | destroy a | getConfig a | setSecurityToken a token =>
    refine iff_of_false (none_not_mem_guarded (s.objects a)) ?_
    rintro ⟨_, _, heq, -⟩
    cases heq
  | operatorBool | finalize =>
    refine iff_of_false List.not_mem_nil ?_
    rintro ⟨_, _, heq, -⟩
    cases heq

theorem step_returns (s : Program A α) (o : Op A α) (h : none ∉ dereferenced s o) :
    ∃ s', s.step o = .returns s' := by
  cases o with
  | construct a impl =>
    rcases ha : s.objects a with _ | p <;> rcases hf : s.finalized with _ | _ <;>
      simp [Program.step, Program.construct, ha, hf]
  | moveConstruct a other =>
    rcases ha : s.objects a with _ | p <;> rcases ho : s.objects other with _ | ⟨_ | impl⟩ <;>
      simp [Program.step, Program.moveConstruct, dereferenced, ha, ho] at h ⊢
  | destroy a =>
    rcases ha : s.objects a with _ | ⟨_ | impl⟩ <;> simp [Program.step, Program.destroy, ha]
  | setSecurityToken a token =>
    rcases ha : s.objects a with _ | ⟨_ | impl⟩ <;>
      simp [Program.step, Program.setSecurityToken, ha]
  | getConfig | operatorBool => exact ⟨s, rfl⟩
  | finalize => rcases hf : s.finalized with _ | _ <;> simp [Program.step, Program.finalize, hf]

/-! ### Validity, without pointers and callbacks -/

/-- What is at an address. -/
inductive Status where
  | absent
  | valid
  | invalid
deriving DecidableEq

/-- The providers of a program, and whether its engine was finalized. -/
structure Lives (A : Type) where
  status : A → Status
  finalized : Bool

namespace Lives

/-- Before the first provider. -/
def start : Lives A := ⟨fun _ => .absent, false⟩

variable (l : Lives A)

/-- The status at one address changes. -/
def put (a : A) (x : Status) : Lives A := { l with status := Function.update l.status a x }

/-- Providers are constructed valid; a moved one hands on what it was and becomes invalid;
finalization makes all of them invalid. -/
def step : Op A α → Lives A
  | .construct a _ => if l.status a = .absent ∧ l.finalized = false then l.put a .valid else l
  | .moveConstruct a other =>
    if l.status a = .absent ∧ l.status other ≠ .absent then
      (l.put a (l.status other)).put other .invalid else l
  | .destroy a => l.put a .absent
  | .getConfig _ | .setSecurityToken _ _ | .operatorBool _ => l
  | .finalize =>
    if l.finalized then l else ⟨fun a => if l.status a = .absent then .absent else .invalid, true⟩

/-- The operation does not move from a provider that is invalid. -/
def MovesFromValid (o : Op A α) : Prop :=
  ∀ a other, o = .moveConstruct a other → l.status a = .absent → l.status other ≠ .invalid

end Lives

/-! ### The program follows -/

/-- Whether there is an object, and whether its pointer is null. -/
def statusOf : Option (Provider α) → Status
  | none => .absent
  | some ⟨none⟩ => .invalid
  | some ⟨some _⟩ => .valid

/-- The objects have the status they should have, and each valid one a callback that will reset
it. -/
structure Follows (s : Program A α) (l : Lives A) : Prop where
  status : ∀ a, statusOf (s.objects a) = l.status a
  finalized : s.finalized = l.finalized
  target : ∀ cb ∈ s.callbacks, cb.target = cb.owner
  registered : ∀ a, l.status a = .valid → ∃ cb ∈ s.callbacks, cb.owner = a

variable {s : Program A α} {l : Lives A} {a : A}

omit [DecidableEq A] in
theorem statusOf_eq_absent {p : Option (Provider α)} : statusOf p = .absent ↔ p = none := by
  rcases p with _ | ⟨_ | impl⟩ <;> simp [statusOf]

omit [DecidableEq A] in
theorem statusOf_eq_invalid {p : Option (Provider α)} :
    statusOf p = .invalid ↔ p = some ⟨none⟩ := by
  rcases p with _ | ⟨_ | impl⟩ <;> simp [statusOf]

omit [DecidableEq A] in
theorem Follows.absent_iff (h : Follows s l) (a : A) :
    l.status a = .absent ↔ s.objects a = none := by
  rw [← h.status, statusOf_eq_absent]

omit [DecidableEq A] in
theorem Follows.ne_absent (h : Follows s l) {a : A} {p : Provider α} (ha : s.objects a = some p) :
    l.status a ≠ .absent := by
  intro habsent
  rw [(h.absent_iff a).mp habsent] at ha
  cases ha

omit [DecidableEq A] in
theorem Follows.invalid_iff (h : Follows s l) (a : A) :
    l.status a = .invalid ↔ s.objects a = some ⟨none⟩ := by
  rw [← h.status, statusOf_eq_invalid]

theorem Follows.put (h : Follows s l) (p : Option (Provider α))
    (hp : statusOf p = .valid → l.status a = .valid) :
    Follows (s.put a p) (l.put a (statusOf p)) where
  status b := by
    by_cases hb : b = a
    · subst hb
      simp [Program.put, Lives.put]
    · simp [Program.put, Lives.put, hb, h.status b]
  finalized := h.finalized
  target := h.target
  registered b hb := by
    by_cases hba : b = a
    · subst hba
      exact h.registered b (hp (by simpa [Lives.put] using hb))
    · exact h.registered b (by simpa [Lives.put, hba] using hb)

theorem Follows.register (h : Follows s l) (a : A) (impl : ProviderImpl α) :
    Follows ((s.put a (some ⟨some impl⟩)).pushFinalizeCallback a a) (l.put a .valid) where
  status b := by
    by_cases hb : b = a
    · subst hb
      simp [Program.put, Program.pushFinalizeCallback, Lives.put, statusOf]
    · simp [Program.put, Program.pushFinalizeCallback, Lives.put, hb, h.status b]
  finalized := h.finalized
  target cb hcb := by
    rcases List.mem_cons.mp hcb with rfl | hcb
    · rfl
    · exact h.target cb hcb
  registered b hb := by
    by_cases hba : b = a
    · exact ⟨⟨a, a⟩, List.mem_cons_self, hba.symm⟩
    · obtain ⟨cb, hcb, howner⟩ := h.registered b (by simpa [Lives.put, hba] using hb)
      exact ⟨cb, List.mem_cons_of_mem _ hcb, howner⟩

theorem Follows.pop (h : Follows s l) (ha : l.status a ≠ .valid) :
    Follows (s.popFinalizeCallback a) l where
  status := h.status
  finalized := h.finalized
  target cb hcb := h.target cb (List.mem_of_mem_eraseP hcb)
  registered b hb := by
    obtain ⟨cb, hcb, rfl⟩ := h.registered b hb
    have hne : cb.owner ≠ a := fun heq => ha (heq ▸ hb)
    exact ⟨cb, (List.mem_eraseP_of_neg (by simpa using hne)).mpr hcb, rfl⟩

theorem Follows.construct (h : Follows s l) (impl : ProviderImpl α) {s' : Program A α}
    (hs : s.step (.construct a impl) = .returns s') :
    Follows s' (l.step (.construct a impl : Op A α)) := by
  dsimp only [Lives.step]
  rcases ha : s.objects a with _ | p
  · rcases hf : s.finalized with _ | _ <;>
      simp only [Program.step, Program.construct, ha, hf] at hs <;> cases hs
    · rw [if_pos ⟨(h.absent_iff a).mpr ha, h.finalized.symm.trans hf⟩]
      exact h.register a impl
    · have hover : l.finalized = true := h.finalized.symm.trans hf
      rw [if_neg fun hnew => by rw [hover] at hnew; cases hnew.2]
      exact h
  · simp only [Program.step, ha] at hs
    cases hs
    rw [if_neg fun hnew => h.ne_absent ha hnew.1]
    exact h

theorem Follows.moveConstruct (h : Follows s l) {other : A} {s' : Program A α}
    (hs : s.step (.moveConstruct a other) = .returns s') :
    Follows s' (l.step (.moveConstruct a other : Op A α)) := by
  dsimp only [Lives.step]
  rcases ha : s.objects a with _ | p
  · have habsent : l.status a = .absent := (h.absent_iff a).mpr ha
    rcases ho : s.objects other with _ | ⟨_ | impl⟩ <;>
      simp only [Program.step, Program.moveConstruct, ha, ho] at hs <;> cases hs
    · rw [if_neg fun hnew => hnew.2 ((h.absent_iff other).mpr ho)]
      exact h
    · have hvalid : l.status other = .valid := by rw [← h.status, ho, statusOf]
      have hne : l.status a ≠ .valid := by simp [habsent]
      rw [if_pos ⟨habsent, by simp [hvalid]⟩, hvalid]
      exact ((h.pop hne).register a impl).put (some ⟨none⟩) fun hbad => by cases hbad
  · simp only [Program.step, ha] at hs
    cases hs
    rw [if_neg fun hnew => h.ne_absent ha hnew.1]
    exact h

theorem Follows.destroy (h : Follows s l) {s' : Program A α}
    (hs : s.step (.destroy a) = .returns s') :
    Follows s' (l.step (.destroy a : Op A α)) := by
  have hgone : Follows (s.put a none) (l.put a .absent) := h.put none nofun
  rcases ha : s.objects a with _ | ⟨_ | impl⟩ <;>
    simp only [Program.step, Program.destroy, ha] at hs <;> cases hs
  · have hsame : l.put a .absent = l := by
      rw [Lives.put, ← (h.absent_iff a).mpr ha, Function.update_eq_self]
    rw [Lives.step, hsame]
    exact h
  · exact hgone
  · exact hgone.pop (by simp [Lives.put])

theorem Follows.setSecurityToken (h : Follows s l) {token : String} {s' : Program A α}
    (hs : s.step (.setSecurityToken a token) = .returns s') : Follows s' l := by
  rcases ha : s.objects a with _ | ⟨_ | impl⟩ <;>
    simp only [Program.step, Program.setSecurityToken, ha] at hs <;> cases hs
  · exact h
  · exact h
  · have hvalid : l.status a = .valid := by rw [← h.status, ha, statusOf]
    have hput := h.put (a := a) (some ⟨some { impl with mToken := token }⟩) fun _ => hvalid
    have hsame : l.put a .valid = l := by rw [Lives.put, ← hvalid, Function.update_eq_self]
    rw [statusOf, hsame] at hput
    exact hput

theorem Follows.finalize (h : Follows s l) {s' : Program A α}
    (hs : s.step .finalize = .returns s') :
    Follows s' (l.step (.finalize : Op A α)) := by
  dsimp only [Lives.step]
  rcases hf : s.finalized with _ | _ <;> simp only [Program.step, Program.finalize, hf] at hs <;>
    cases hs
  · rw [if_neg (by simp [← h.finalized, hf])]
    refine ⟨fun a => ?_, rfl, fun cb hcb => absurd hcb List.not_mem_nil, fun a ha => ?_⟩
    · dsimp only
      rcases ha : s.objects a with _ | ⟨_ | impl⟩
      · rw [if_pos ((h.absent_iff a).mpr ha)]
        split_ifs <;> rfl
      · have hinvalid : l.status a = .invalid := (h.invalid_iff a).mpr ha
        simp only [hinvalid, reduceCtorEq, if_false]
        split_ifs <;> rfl
      · have hvalid : l.status a = .valid := by rw [← h.status, ha, statusOf]
        obtain ⟨cb, hcb, howner⟩ := h.registered a hvalid
        have hany : s.callbacks.any (·.target = a) = true :=
          List.any_eq_true.mpr ⟨cb, hcb, by simp [h.target cb hcb, howner]⟩
        rw [if_pos hany, if_neg (by simp [hvalid])]
        rfl
    · dsimp only at ha
      split_ifs at ha
  · rw [if_pos (h.finalized.symm.trans hf)]
    exact h

/-- **One operation** that is defined. -/
theorem Follows.step (h : Follows s l) {o : Op A α} {s' : Program A α}
    (hs : s.step o = .returns s') :
    Follows s' (l.step o) := by
  cases o with
  | construct a impl => exact h.construct impl hs
  | moveConstruct a other => exact h.moveConstruct hs
  | destroy a => exact h.destroy hs
  | getConfig | operatorBool =>
    cases hs
    exact h
  | setSecurityToken a token => exact h.setSecurityToken hs
  | finalize => exact h.finalize hs

/-! ### Runs -/

omit [DecidableEq A] in
theorem follows_start : Follows (Program.start : Program A α) Lives.start where
  status _ := rfl
  finalized := rfl
  target := nofun
  registered _ ha := by cases ha

/-- **A run** that is defined so far. -/
theorem follows_exec (ops : List (Op A α)) {s : Program A α}
    (hs : exec stepDefined (.returns .start) ops = .returns s) :
    Follows s (exec Lives.step .start ops) := by
  induction ops using List.reverseRecOn generalizing s with
  | nil =>
    cases hs
    exact follows_start
  | append_singleton ops o ih =>
    rw [exec_concat] at hs ⊢
    rcases hx : exec stepDefined (.returns .start) ops with s' | e | _ <;> rw [hx] at hs
    · exact (ih hx).step hs
    · cases hs
    · cases hs

/-- The run is defined so far, the operation dereferences no null `self`, and if it moves from an
invalid provider it makes an invalid one. -/
def NeverNull (x : Cpp (Program A α)) (o : Op A α) : Prop :=
  ∃ s, x = .returns s ∧ none ∉ dereferenced s o ∧
    ∀ a other, o = .moveConstruct a other → s.objects a = none → s.objects other = some ⟨none⟩ →
      ∃ s', s.step o = .returns s' ∧ s'.objects a = some ⟨none⟩

theorem neverNull_returns_iff (h : Follows s l) (o : Op A α) :
    NeverNull (.returns s) o ↔ l.MovesFromValid o := by
  constructor
  · rintro ⟨_, ⟨⟩, hderef, -⟩ a other rfl habsent hinvalid
    refine hderef ((none_mem_dereferenced_iff s _).mpr ⟨a, other, rfl, ?_, ?_⟩)
    · exact (h.absent_iff a).mp habsent
    · exact (h.invalid_iff other).mp hinvalid
  · intro hmove
    have hvalid :
      ∀ a other, o = .moveConstruct a other → s.objects a = none → s.objects other ≠ some ⟨none⟩ :=
      fun a other ho ha hother => hmove a other ho ((h.absent_iff a).mpr ha)
        ((h.invalid_iff other).mpr hother)
    refine ⟨s, rfl, fun hderef => ?_, fun a other ho ha hother => absurd hother
      (hvalid a other ho ha)⟩
    obtain ⟨a, other, ho, ha, hother⟩ := (none_mem_dereferenced_iff s o).mp hderef
    exact hvalid a other ho ha hother

/-- A run that never moves from an invalid provider is defined. -/
theorem exec_returns (ops : List (Op A α))
    (h : StepsOk Lives.step Lives.MovesFromValid .start ops) :
    ∃ s : Program A α, exec stepDefined (.returns .start) ops = .returns s := by
  induction ops using List.reverseRecOn with
  | nil => exact ⟨_, rfl⟩
  | append_singleton ops o ih =>
    obtain ⟨s, hs⟩ := ih (h.initial (List.prefix_append ops [o]))
    obtain ⟨_, ⟨⟩, hderef, -⟩ :=
      (neverNull_returns_iff (follows_exec ops hs) o).mpr (h ops o (List.prefix_refl _))
    rw [exec_concat, hs]
    exact step_returns s o hderef

/-- **Null `self`.** Along a program's run no operation dereferences a null `self`, and moving from
an invalid provider makes an invalid one, if and only if no operation moves from a provider that was
moved from before, was made from an invalid one, or met the engine's finalization. -/
theorem neverNull_iff (ops : List (Op A α)) :
    StepsOk stepDefined NeverNull (.returns .start) ops ↔
      StepsOk Lives.step Lives.MovesFromValid .start ops := by
  constructor
  · intro h pre o hp
    have hstep : NeverNull (exec stepDefined (.returns .start) pre) o := h pre o hp
    obtain ⟨s, hs, -⟩ := h pre o hp
    rw [hs] at hstep
    exact (neverNull_returns_iff (follows_exec pre hs) o).mp hstep
  · intro h pre o hp
    obtain ⟨s, hs⟩ := exec_returns pre (h.initial ((List.prefix_append pre [o]).trans hp))
    rw [hs]
    exact (neverNull_returns_iff (follows_exec pre hs) o).mpr (h pre o hp)

/-- A provider is moved twice. -/
def moveTwice : List (Op ℕ DummyPhonebook) :=
  [.construct 0 ⟨"", ∅⟩, .moveConstruct 1 0, .moveConstruct 2 0]

/-- The second move goes through the null `self` of the moved-from provider. -/
theorem not_neverNull_moveTwice : ¬ StepsOk stepDefined NeverNull (.returns .start) moveTwice := by
  intro h
  obtain ⟨s, hs, hderef, -⟩ :=
    h [.construct 0 ⟨"", ∅⟩, .moveConstruct 1 0] (.moveConstruct 2 0) (List.prefix_refl _)
  cases hs
  exact hderef (List.mem_singleton_self _)

end Phonebook.Server.Validity
