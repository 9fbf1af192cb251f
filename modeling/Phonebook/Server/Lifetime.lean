import Phonebook.Lib.Runs
import Phonebook.Server.Provider

/-! # Provider objects and finalize callbacks

A constructed `Provider` leaves a callback with the engine that resets it at finalization. The move
constructor pops the callback of the new object, which has none, and not the one of the object it
moves from; that one stays, and the destructor of a moved-from object, which holds nothing to pop it
through, leaves it behind. So the callbacks and the objects stay in step exactly as long as no
moved-from object is destroyed (`sound_iff`). -/

namespace Phonebook.Server.Lifetime

open Phonebook.Data.Values Phonebook.Server.Backends Phonebook.Server.Provider Phonebook.Lib.Runs

/-- `yp::Provider`: its pointer is null when it was moved from or reset. -/
structure Provider (α : Type) where
  self : Option (ProviderImpl α)

/-- A callback under its owner; it captured a pointer to the object it resets. -/
structure Callback (A : Type) where
  owner : A
  target : A
deriving DecidableEq

/-- The provider objects of a program by their addresses, and its engine with the callbacks
registered, the latest first. -/
structure Program (A α : Type) where
  objects : A → Option (Provider α)
  callbacks : List (Callback A)
  finalized : Bool

/-- What a program does with providers. -/
inductive Op (A α : Type) where
  | construct (a : A) (impl : ProviderImpl α)
  | moveConstruct (a other : A)
  | destroy (a : A)
  | getConfig (a : A)
  | setSecurityToken (a : A) (token : String)
  | operatorBool (a : A)
  | finalize

variable {A α : Type} [DecidableEq A]

namespace Program

/-- A program before its first provider. -/
def start : Program A α := ⟨fun _ => none, [], false⟩

variable (s : Program A α)

/-- The object at the address is put, replaced or, for `none`, gone. -/
def put (a : A) (p : Option (Provider α)) : Program A α :=
  { s with objects := Function.update s.objects a p }

/-- `engine::push_finalize_callback`. -/
def pushFinalizeCallback (owner target : A) : Program A α :=
  { s with callbacks := ⟨owner, target⟩ :: s.callbacks }

/-- `engine::pop_finalize_callback`: the latest callback under the owner goes, if there is one. -/
def popFinalizeCallback (owner : A) : Program A α :=
  { s with callbacks := s.callbacks.eraseP fun cb => cb.owner = owner }

/-- There is an object at the address. -/
def Alive (a : A) : Prop := ∃ p, s.objects a = some p

/-- `Provider::Provider`. -/
def construct (a : A) (impl : ProviderImpl α) : Cpp (Program A α) :=
  .returns ((s.put a (some ⟨some impl⟩)).pushFinalizeCallback a a)

/-- `Provider::Provider(Provider&&)`: the callback popped is that of the new object. -/
def moveConstruct (a other : A) (p : Provider α) : Cpp (Program A α) :=
  match p.self with
  | none => .undefined
  | some impl =>
    let s := s.popFinalizeCallback a
    let s := (s.put a (some ⟨some impl⟩)).put other (some ⟨none⟩)
    .returns (s.pushFinalizeCallback a a)

/-- `Provider::~Provider`. -/
def destroy (a : A) (p : Provider α) : Cpp (Program A α) :=
  match p.self with
  | some _ => .returns ((s.popFinalizeCallback a).put a none)
  | none => .returns (s.put a none)

/-- `Provider::setSecurityToken`. -/
def setSecurityToken (a : A) (p : Provider α) (token : String) : Cpp (Program A α) :=
  match p.self with
  | some impl => .returns (s.put a (some ⟨some { impl with mToken := token }⟩))
  | none => .returns s

/-- The engine's finalization runs every callback. -/
def finalize : Cpp (Program A α) :=
  .returns
    { objects := fun a => if s.callbacks.any (·.target = a) then (s.objects a).map fun _ =>
      ⟨none⟩ else s.objects a
      callbacks := []
      finalized := true }

/-- One operation. One that makes no sense in the state, such as a construction where an object is,
is passed over. -/
def step : Op A α → Cpp (Program A α)
  | .construct a impl =>
    match s.objects a, s.finalized with
    | none, false => s.construct a impl
    | _, _ => .returns s
  | .moveConstruct a other =>
    match s.objects a, s.objects other with
    | none, some p => s.moveConstruct a other p
    | _, _ => .returns s
  | .destroy a =>
    match s.objects a with
    | none => .returns s
    | some p => s.destroy a p
  | .setSecurityToken a token =>
    match s.objects a with
    | none => .returns s
    | some p => s.setSecurityToken a p token
  -- `getConfig` and `operator bool` read the object
  | .getConfig _ | .operatorBool _ => .returns s
  | .finalize => if s.finalized then .returns s else s.finalize

end Program

/-- The next operation of a program whose operations so far were defined. -/
def stepDefined (x : Cpp (Program A α)) (o : Op A α) : Cpp (Program A α) :=
  match x with
  | .returns s => s.step o
  | .throws e => .throws e
  | .undefined => .undefined

/-- Every callback belongs to and resets an object that is alive, and a valid object has exactly
one. -/
structure CallbacksOk (s : Program A α) : Prop where
  alive : ∀ cb ∈ s.callbacks, s.Alive cb.owner ∧ s.Alive cb.target
  one : ∀ a impl, s.objects a = some ⟨some impl⟩ →
    s.callbacks.countP (fun cb => cb.owner = a) = 1 ∧
      s.callbacks.countP (fun cb => cb.target = a) = 1

/-- The callbacks are in order before finalization, and the objects it would reset are alive. -/
def Sound (x : Cpp (Program A α)) : Prop :=
  ∀ s, x = .returns s → s.finalized = false →
    CallbacksOk s ∧ ∀ a ∈ s.callbacks.map Callback.target, s.Alive a

/-- The operation does not destroy a moved-from object before finalization. -/
def Ok (x : Cpp (Program A α)) (o : Op A α) : Prop :=
  ∀ s, x = .returns s → s.finalized = false → ∀ a, o = .destroy a → s.objects a ≠ some ⟨none⟩

/-! ### Lists with elements erased -/

section Erase
variable {β : Type} {p q : β → Bool} {l : List β}

theorem countP_eraseP_self (h : l.countP p = 1) : (l.eraseP p).countP p = 0 := by
  obtain ⟨x, hx, hpx⟩ := List.countP_pos_iff.mp (h ▸ Nat.one_pos)
  obtain ⟨y, l₁, l₂, -, hy, rfl, he⟩ := List.exists_of_eraseP hx hpx
  rw [List.countP_append, List.countP_cons_of_pos hy] at h
  rw [he, List.countP_append]
  omega

theorem countP_eraseP_of_disjoint (h : ∀ x, p x = true → q x = false) :
    (l.eraseP p).countP q = l.countP q := by
  by_cases hp : ∃ x ∈ l, p x = true
  · obtain ⟨x, hx, hpx⟩ := hp
    obtain ⟨y, l₁, l₂, -, hy, rfl, he⟩ := List.exists_of_eraseP hx hpx
    have hq : ¬ q y = true := by simp [h y hy]
    rw [he, List.countP_append, List.countP_append, List.countP_cons_of_neg hq]
  · rw [List.eraseP_of_forall_not fun x hx hpx => hp ⟨x, hx, hpx⟩]

end Erase

/-! ### The invariant -/

/-- Every callback resets its owner, which is alive, and every object that is alive, moved-from or
not, has exactly one. -/
structure InStep (s : Program A α) : Prop where
  target : ∀ cb ∈ s.callbacks, cb.target = cb.owner
  alive : ∀ cb ∈ s.callbacks, s.Alive cb.owner
  one : ∀ a, s.Alive a → s.callbacks.countP (fun cb => cb.owner = a) = 1

variable {s : Program A α} {a : A}

theorem alive_put_some {p : Provider α} {b : A} :
    (s.put a (some p)).Alive b ↔ b = a ∨ s.Alive b := by
  unfold Program.Alive Program.put
  by_cases hb : b = a
  · subst hb
    simp
  · simp [hb]

theorem alive_put_none {b : A} : (s.put a none).Alive b ↔ b ≠ a ∧ s.Alive b := by
  unfold Program.Alive Program.put
  by_cases hb : b = a
  · subst hb
    simp
  · simp [hb]

theorem InStep.countP_of_dead (h : InStep s) (ha : ¬ s.Alive a) :
    s.callbacks.countP (fun cb => cb.owner = a) = 0 := by
  rw [List.countP_eq_zero]
  intro cb hcb
  have hne : cb.owner ≠ a := fun heq => ha (heq ▸ h.alive cb hcb)
  simpa using hne

theorem InStep.put (h : InStep s) (ha : s.Alive a) (p : Provider α) :
    InStep (s.put a (some p)) where
  target := h.target
  alive cb hcb := alive_put_some.mpr (Or.inr (h.alive cb hcb))
  one b hb := h.one b ((alive_put_some.mp hb).elim (fun heq => heq ▸ ha) id)

theorem InStep.register (h : InStep s) (ha : ¬ s.Alive a) (p : Provider α) :
    InStep ((s.put a (some p)).pushFinalizeCallback a a) := by
  refine ⟨fun cb hcb => ?_, fun cb hcb => ?_, fun b hb => ?_⟩
  · rcases List.mem_cons.mp hcb with rfl | hcb
    · rfl
    · exact h.target cb hcb
  · rcases List.mem_cons.mp hcb with rfl | hcb
    · exact alive_put_some.mpr (Or.inl rfl)
    · exact alive_put_some.mpr (Or.inr (h.alive cb hcb))
  · show List.countP (fun cb => decide (cb.owner = b)) (⟨a, a⟩ :: s.callbacks) = 1
    rw [List.countP_cons]
    by_cases hba : b = a
    · subst hba
      rw [h.countP_of_dead ha]
      simp
    · have hold : s.Alive b := (alive_put_some.mp hb).resolve_left hba
      rw [h.one b hold]
      simp [Ne.symm hba]

theorem InStep.unregister (h : InStep s) (ha : s.Alive a) :
    InStep ((s.popFinalizeCallback a).put a none) := by
  have hgone : (s.callbacks.eraseP fun cb => cb.owner = a).countP (fun cb => cb.owner = a) = 0 :=
    countP_eraseP_self (h.one a ha)
  have hsub :
    ∀ cb ∈ s.callbacks.eraseP fun cb => cb.owner = a, cb ∈ s.callbacks ∧ cb.owner ≠ a := by
    intro cb hcb
    refine ⟨List.mem_of_mem_eraseP hcb, ?_⟩
    simpa using List.countP_eq_zero.mp hgone cb hcb
  refine ⟨fun cb hcb => h.target cb (hsub cb hcb).1, fun cb hcb => ?_, fun b hb => ?_⟩
  · exact alive_put_none.mpr ⟨(hsub cb hcb).2, h.alive cb (hsub cb hcb).1⟩
  · obtain ⟨hba, hold⟩ := alive_put_none.mp hb
    show List.countP (fun cb => decide (cb.owner = b))
      (s.callbacks.eraseP fun cb => cb.owner = a) = 1
    rw [countP_eraseP_of_disjoint, h.one b hold]
    intro cb hcb
    have heq : cb.owner = a := by simpa using hcb
    have hne : cb.owner ≠ b := fun h => hba (h.symm.trans heq)
    simpa using hne

theorem InStep.pop_of_dead (h : InStep s) (ha : ¬ s.Alive a) : s.popFinalizeCallback a = s := by
  have hnone : ∀ cb ∈ s.callbacks, ¬ (decide (cb.owner = a)) = true :=
    List.countP_eq_zero.mp (h.countP_of_dead ha)
  show { s with callbacks := s.callbacks.eraseP fun cb => cb.owner = a } = s
  rw [List.eraseP_of_forall_not hnone]

omit [DecidableEq A] in
theorem not_alive_of_none (h : s.objects a = none) : ¬ s.Alive a := by
  rintro ⟨p, hp⟩
  rw [h] at hp
  cases hp

/-- Before finalization the callbacks and the objects are in step. -/
def InStepAt (x : Cpp (Program A α)) : Prop := ∀ s, x = .returns s → s.finalized = false → InStep s

theorem InStep.moveConstruct (h : InStep s) (ha : ¬ s.Alive a) {other : A} {p : Provider α}
    (ho : s.objects other = some p) : InStepAt (s.moveConstruct a other p) := by
  intro s' hs' _
  rcases p with ⟨_ | impl⟩
  · cases hs'
  · rw [Program.moveConstruct, h.pop_of_dead ha] at hs'
    cases hs'
    exact (h.register ha ⟨some impl⟩).put (alive_put_some.mpr (Or.inr ⟨_, ho⟩)) ⟨none⟩

theorem InStep.destroy (h : InStep s) {p : Provider α} (ha : s.objects a = some p)
    (hp : p ≠ ⟨none⟩) : InStepAt (s.destroy a p) := by
  intro s' hs' _
  rcases p with ⟨_ | impl⟩
  · exact absurd rfl hp
  · cases hs'
    exact h.unregister ⟨_, ha⟩

theorem InStep.setSecurityToken (h : InStep s) {p : Provider α} (ha : s.objects a = some p)
    (token : String) :
    InStepAt (s.setSecurityToken a p token) := by
  intro s' hs' _
  rcases p with ⟨_ | impl⟩
  · cases hs'
    exact h
  · cases hs'
    exact h.put ⟨_, ha⟩ _

theorem finalized_step {s' : Program A α} {o : Op A α} (hs : s.step o = .returns s')
    (hf : s.finalized = true) : s'.finalized = true := by
  cases o with
  | construct a impl =>
    rcases ha : s.objects a with _ | p <;> simp only [Program.step, ha, hf] at hs <;> cases hs <;>
      exact hf
  | moveConstruct a other =>
    rcases ha : s.objects a with _ | p <;> rcases ho : s.objects other with _ | ⟨_ | impl⟩ <;>
      simp only [Program.step, Program.moveConstruct, ha, ho] at hs <;> cases hs <;> exact hf
  | destroy a =>
    rcases ha : s.objects a with _ | ⟨_ | impl⟩ <;>
      simp only [Program.step, Program.destroy, ha] at hs <;> cases hs <;> exact hf
  | setSecurityToken a token =>
    rcases ha : s.objects a with _ | ⟨_ | impl⟩ <;>
      simp only [Program.step, Program.setSecurityToken, ha] at hs <;> cases hs <;> exact hf
  | getConfig | operatorBool =>
    cases hs
    exact hf
  | finalize =>
    rw [Program.step, if_pos hf] at hs
    cases hs
    exact hf

/-- **One step**, other than the destruction of a moved-from object. -/
theorem inStep_step (h : s.finalized = false → InStep s) (o : Op A α)
    (hok : s.finalized = false → ∀ a, o = .destroy a → s.objects a ≠ some ⟨none⟩) :
    InStepAt (s.step o) := by
  have hstay : InStepAt (.returns s) := fun s' hs' hfin => by
    cases hs'
    exact h hfin
  rcases hfin : s.finalized with _ | _
  · have hin : InStep s := h hfin
    cases o with
    | construct a impl =>
      rcases ha : s.objects a with _ | p
      · rintro s' hs' -
        simp only [Program.step, ha, hfin, Program.construct] at hs'
        cases hs'
        exact hin.register (not_alive_of_none ha) _
      · simpa only [Program.step, ha] using hstay
    | moveConstruct a other =>
      rcases ha : s.objects a with _ | p <;> rcases ho : s.objects other with _ | p'
      · simpa only [Program.step, ha, ho] using hstay
      · simpa only [Program.step, ha, ho] using hin.moveConstruct (not_alive_of_none ha) ho
      · simpa only [Program.step, ha, ho] using hstay
      · simpa only [Program.step, ha, ho] using hstay
    | destroy a =>
      rcases ha : s.objects a with _ | p
      · simpa only [Program.step, ha] using hstay
      · have hp : p ≠ ⟨none⟩ := fun hp => hok hfin a rfl (hp ▸ ha)
        simpa only [Program.step, ha] using hin.destroy ha hp
    | getConfig | operatorBool => exact hstay
    | setSecurityToken a token =>
      rcases ha : s.objects a with _ | p
      · simpa only [Program.step, ha] using hstay
      · simpa only [Program.step, ha] using hin.setSecurityToken ha token
    | finalize =>
      intro s' hs' hfin'
      simp only [Program.step, hfin, Program.finalize] at hs'
      cases hs'
      cases hfin'
  · intro s' hs' hfin'
    rw [finalized_step hs' hfin] at hfin'
    cases hfin'

theorem InStep.callbacksOk (h : InStep s) : CallbacksOk s where
  alive cb hcb := ⟨h.alive cb hcb, h.target cb hcb ▸ h.alive cb hcb⟩
  one a impl ha := by
    have hone : s.callbacks.countP (fun cb => cb.owner = a) = 1 := h.one a ⟨_, ha⟩
    refine ⟨hone, ?_⟩
    rw [← hone]
    exact List.countP_congr fun cb hcb => by simp [h.target cb hcb]

/-- Destroying a moved-from object leaves its callback. -/
theorem not_callbacksOk_of_destroy (h : InStep s) (ha : s.objects a = some ⟨none⟩) :
    ¬ CallbacksOk (s.put a none) := by
  intro hok
  have hone : s.callbacks.countP (fun cb => cb.owner = a) = 1 := h.one a ⟨_, ha⟩
  obtain ⟨cb, hcb, howner⟩ := List.countP_pos_iff.mp (hone ▸ Nat.one_pos)
  have halive : (s.put a none).Alive cb.owner := (hok.alive cb hcb).1
  exact (alive_put_none.mp halive).1 (by simpa using howner)

/-- **Callbacks and objects.** Along a program's run the callbacks are in order in every state
before finalization, and so finalization resets no destroyed object, if and only if no step before
finalization destroys a moved-from object. -/
theorem sound_iff (ops : List (Op A α)) :
    Along stepDefined Sound (.returns .start) ops ↔
      StepsOk stepDefined Ok (.returns .start) ops := by
  refine along_iff_stepsOk (I := InStepAt) ?_ ?_ ?_ ?_ ops
  · rintro s hs -
    cases hs
    exact ⟨nofun, nofun, fun a ha => absurd ha (not_alive_of_none rfl)⟩
  · intro x o hx hok
    cases x with
    | returns s => exact inStep_step (hx s rfl) o fun hfin a ho => hok s rfl hfin a ho
    | throws | undefined => exact nofun
  · intro x hx s hs hfin
    have hin : InStep s := hx s hs hfin
    refine ⟨hin.callbacksOk, fun a ha => ?_⟩
    obtain ⟨cb, hcb, rfl⟩ := List.mem_map.mp ha
    exact (hin.callbacksOk.alive cb hcb).2
  · intro x o hx hbad hsound
    unfold Ok at hbad
    push Not at hbad
    obtain ⟨s, rfl, hfin, a, rfl, ha⟩ := hbad
    have hstep : stepDefined (.returns s) (.destroy a) = .returns (s.put a none) := by
      simp [stepDefined, Program.step, Program.destroy, ha]
    exact not_callbacksOk_of_destroy (hx s rfl hfin) ha (hsound _ hstep hfin).1

/-- A provider is constructed, moved, and the moved-from object is destroyed, as when a
`std::vector<Provider>` grows. -/
def grow : List (Op ℕ DummyPhonebook) :=
  [.construct 0 ⟨"", ∅⟩, .moveConstruct 1 0, .destroy 0]

/-- The callback of the destroyed object is still registered. -/
theorem not_sound_grow : ¬ Along stepDefined Sound (.returns .start) grow := by
  intro h
  obtain ⟨hok, -⟩ := h grow (List.prefix_refl _) _ rfl rfl
  obtain ⟨p, hp⟩ := (hok.alive ⟨0, 0⟩ (by decide)).1
  cases hp

end Phonebook.Server.Lifetime
