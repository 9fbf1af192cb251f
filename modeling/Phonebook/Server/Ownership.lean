import Phonebook.Lib.SharedPtr
import Phonebook.Server.Locking

/-! # Who holds a backend

A backend lives as long as a shared pointer to it does: the entry of an id, the `unique_ptr` of the
create or open that made it, or the copy that `FIND_PHONEBOOK` put on the stack of a handler, which
outlives the entry. No handler calls a backend that may have been freed (`no_use_after_free`), and a
backend is registered under one id at most, ever (`registered_once`). -/

namespace Phonebook.Server.Ownership

open Phonebook.Data.Values Phonebook.Server.Backends Phonebook.Server.Provider
open Phonebook.Server.Handlers Phonebook.Server.Threads Phonebook.Server.Destruction
open Phonebook.Server.Removal Phonebook.Server.Locking Phonebook.Lib.Runs Phonebook.Lib.SharedPtr

/-- The backend that a local variable of the handler points to. -/
def pcPointer : Pc → Option Ref
  | .built o | .inserting o | .copied o | .found o => some o
  | .replying phonebook _ => phonebook
  | .idle
  | .received | .ready | .looking | .closing | .destroying | .erasing _ | .refusing _ | .refused _
  | .leaving _ | .answered _ => none

/-- The `unique_ptr` among the local variables of the handler. -/
def pcUnique : Pc → Option Ref
  | .built o | .inserting o => some o
  | _ => none

variable {ι α : Type}

/-- The pointers to backends: those of the entries, and those on the stacks of the handlers. -/
def pointer (c : Locked ι α) : Owner ι → Option Ref
  | .entry id => c.mBackends.lookup id
  | .thread i => pcPointer (c.pc i)

/-- The pointers that are not copies of another. -/
def uniquePtr (c : Locked ι α) : Owner ι → Option Ref
  | .entry id => c.mBackends.lookup id
  | .thread i => pcUnique (c.pc i)

/-- The backend that the next statement of the handler calls. -/
def calls (reqs : ι → Request) (c : Locked ι α) (i : ι) : Option Ref :=
  match c.pc i, reqs i with
  | .destroying, .destroyPhonebook _ id => c.mBackends.lookup id
  | .found o, _ => some o
  | _, _ => none

variable [DecidableEq ι] {env : Env α} {reqs : ι → Request} {c c' : Locked ι α} {i : ι}

/-! ### What a step does with pointers -/

/-- From one state to the other the thread of `i` went on and pointers were handed on, one of them
perhaps to a backend made in between. -/
structure Passed (c c' : Locked ι α) : Prop where
  grows : c.heap.length ≤ c'.heap.length
  passes : ∀ a o, pointer c' a = some o →
    (∃ a', pointer c a' = some o) ∨ (o = c.heap.length ∧ o < c'.heap.length)
  owns : ∀ a o, uniquePtr c' a = some o →
    uniquePtr c a = some o ∨ (∃ i, uniquePtr c (.thread i) = some o) ∨ o = c.heap.length
  single : (∀ a o, uniquePtr c a = some o → o < c.heap.length) →
    (∀ a a' o, uniquePtr c a = some o → uniquePtr c a' = some o → a = a') →
      ∀ a a' o, uniquePtr c' a = some o → uniquePtr c' a' = some o → a = a'

omit [DecidableEq ι] in
theorem passed_same : Passed c c :=
  ⟨le_refl _, fun a _ h => Or.inl ⟨a, h⟩, fun _ _ h => Or.inl h, fun _ h => h⟩

theorem pointer_thread {pc : Pc} (hpc : c'.pc = Function.update c.pc i pc) (j : ι) :
    pointer c' (.thread j) = if j = i then pcPointer pc else pointer c (.thread j) := by
  show pcPointer (c'.pc j) = _
  rw [hpc, Function.update_apply]
  split_ifs <;> rfl

theorem unique_thread {pc : Pc} (hpc : c'.pc = Function.update c.pc i pc) (j : ι) :
    uniquePtr c' (.thread j) = if j = i then pcUnique pc else uniquePtr c (.thread j) := by
  show pcUnique (c'.pc j) = _
  rw [hpc, Function.update_apply]
  split_ifs <;> rfl

theorem passed_on (i : ι) (pc : Pc) (hpc : c'.pc = Function.update c.pc i pc)
    (hheap : c.heap.length ≤ c'.heap.length)
    (hreg : ∀ id o, c'.mBackends.lookup id = some o → c.mBackends.lookup id = some o)
    (hptr : ∀ o, pcPointer pc = some o → ∃ a, pointer c a = some o)
    (hunique : ∀ o, pcUnique pc = some o → pcUnique (c.pc i) = some o) : Passed c c' := by
  have hback : ∀ a o, uniquePtr c' a = some o → uniquePtr c a = some o := by
    rintro (id | j) o h
    · exact hreg id o h
    · rw [unique_thread hpc] at h
      split_ifs at h with hj
      · exact hj ▸ hunique o h
      · exact h
  refine ⟨hheap, ?_, fun a o h => Or.inl (hback a o h),
    fun _ hs a a' o ha ha' => hs a a' o (hback a o ha) (hback a' o ha')⟩
  rintro (id | j) o h
  · exact Or.inl ⟨.entry id, hreg id o h⟩
  · rw [pointer_thread hpc] at h
    split_ifs at h
    · exact Or.inl (hptr o h)
    · exact Or.inl ⟨.thread j, h⟩

theorem passed_drop {pc : Pc} (hpc : c'.pc = Function.update c.pc i pc)
    (hheap : c.heap.length ≤ c'.heap.length)
    (hreg : ∀ id o, c'.mBackends.lookup id = some o → c.mBackends.lookup id = some o)
    (hnone : pcPointer pc = none) : Passed c c' := by
  refine passed_on i pc hpc hheap hreg ?_ ?_
  · rintro o h
    rw [hnone] at h
    cases h
  · rintro o h
    cases pc with
    | built | inserting => cases hnone
    | _ => cases h

theorem passed_goto {pc : Pc} (hnone : pcPointer pc = none) : Passed c (c.goto i pc) :=
  passed_drop rfl (le_refl _) (fun _ _ h => h) hnone

omit [DecidableEq ι] in
theorem lookup_of_erase {m : Finmap fun _ : UUID => Ref} (id : UUID) {id' : UUID} {o : Ref}
    (h : (m.erase id).lookup id' = some o) : id' ≠ id ∧ m.lookup id' = some o := by
  by_cases hid : id' = id
  · subst hid
    rw [Finmap.lookup_erase] at h
    cases h
  · rw [Finmap.lookup_erase_ne hid] at h
    exact ⟨hid, h⟩

theorem passed_build (x : Prepared α) : Passed c (c.build i x) := by
  cases x with
  | refused | escaped => exact passed_goto rfl
  | built b =>
    have hpc : (c.build i (.built b)).pc = Function.update c.pc i (.built c.heap.length) := rfl
    have hlen : (c.build i (.built b)).heap.length = c.heap.length + 1 := by simp [Locked.build]
    have hcases : ∀ a o, uniquePtr (c.build i (.built b)) a = some o →
        uniquePtr c a = some o ∨ (a = .thread i ∧ o = c.heap.length) := by
      rintro (id | j) o h
      · exact Or.inl h
      · rw [unique_thread hpc] at h
        split_ifs at h with hj
        · exact Or.inr ⟨hj ▸ rfl, (Option.some.inj h).symm⟩
        · exact Or.inl h
    refine ⟨by omega, ?_, fun a o h => (hcases a o h).imp_right fun hnew => Or.inr hnew.2,
      fun hlt hs => ?_⟩
    · rintro (id | j) o h
      · exact Or.inl ⟨.entry id, h⟩
      · rw [pointer_thread hpc] at h
        split_ifs at h
        · obtain rfl : c.heap.length = o := Option.some.inj h
          exact Or.inr ⟨rfl, hlen ▸ Nat.lt_succ_self _⟩
        · exact Or.inl ⟨.thread j, h⟩
    · intro a a' o ha ha'
      rcases hcases a o ha with hold | ⟨rfl, rfl⟩ <;> rcases hcases a' _ ha' with hold' | ⟨rfl, ho'⟩
      · exact hs a a' o hold hold'
      · exact absurd ho' (hlt a o hold).ne
      · exact absurd (hlt a' _ hold') (lt_irrefl _)
      · rfl

theorem passed_prologue (r : Request) : Passed c (c.prologue env i r) := by
  cases r with
  | createPhonebook | openPhonebook => exact passed_build _
  | closePhonebook | destroyPhonebook =>
    dsimp only [Locked.prologue]
    split_ifs <;> exact passed_goto rfl
  | checkPhonebook | sayHello | computeSum => exact passed_goto rfl

theorem passed_lock {pc : Pc} (hptr : pcPointer pc = pcPointer (c.pc i))
    (hunique : pcUnique pc = pcUnique (c.pc i)) :
    Passed c (c.lock i pc) := by
  rcases hmtx : c.mBackendsMtx with _ | j <;> simp only [Locked.lock, hmtx]
  · have hp : Passed c { c.goto i pc with mBackendsMtx := some i } :=
      passed_on i pc rfl (le_refl _) (fun _ _ h => h) (fun o h => ⟨.thread i, hptr.symm.trans h⟩)
        fun o h => hunique.symm.trans h
    exact hp
  · exact passed_same

theorem passed_inserted {o : Ref} (id : UUID) {out : Outcome} (hpc : c.pc i = .inserting o)
    (hupdate : c'.pc = Function.update c.pc i (.leaving out))
    (hreg : c'.mBackends = c.mBackends.insert id o)
    (hheap : c'.heap = c.heap) : Passed c c' := by
  have hown : uniquePtr c (.thread i) = some o := by rw [uniquePtr, hpc]; rfl
  have hentry : ∀ id' o', c'.mBackends.lookup id' = some o' →
      (id' = id ∧ o' = o) ∨ c.mBackends.lookup id' = some o' := by
    intro id' o' h
    rw [hreg] at h
    by_cases hid : id' = id
    · subst hid
      rw [Finmap.lookup_insert] at h
      exact Or.inl ⟨rfl, (Option.some.inj h).symm⟩
    · rw [Finmap.lookup_insert_of_ne _ hid] at h
      exact Or.inr h
  have hcases : ∀ a o', uniquePtr c' a = some o' →
      (a = .entry id ∧ o' = o) ∨ (a ≠ .thread i ∧ uniquePtr c a = some o') := by
    rintro (id' | j) o' h
    · rcases hentry id' o' h with ⟨rfl, rfl⟩ | hold
      · exact Or.inl ⟨rfl, rfl⟩
      · exact Or.inr ⟨by rintro ⟨⟩, hold⟩
    · rw [unique_thread hupdate] at h
      split_ifs at h with hj
      · cases h
      · exact Or.inr ⟨fun heq => hj (Owner.thread.inj heq), h⟩
  refine ⟨hheap ▸ le_refl _, ?_, fun a o' h => ?_, fun _ hs => ?_⟩
  · rintro (id' | j) o' h
    · rcases hentry id' o' h with ⟨-, rfl⟩ | hold
      · exact Or.inl ⟨.thread i, by rw [pointer, hpc]; rfl⟩
      · exact Or.inl ⟨.entry id', hold⟩
    · rw [pointer_thread hupdate] at h
      split_ifs at h
      · cases h
      · exact Or.inl ⟨.thread j, h⟩
  · rcases hcases a o' h with ⟨-, rfl⟩ | ⟨-, hold⟩
    · exact Or.inr (Or.inl ⟨i, hown⟩)
    · exact Or.inl hold
  · intro a a' o' ha ha'
    rcases hcases a o' ha with ⟨rfl, rfl⟩ | ⟨hne, hold⟩ <;>
      rcases hcases a' o' ha' with ⟨rfl, ho⟩ | ⟨hne', hold'⟩
    · rfl
    · exact absurd (hs a' (.thread i) o' hold' hown) hne'
    · exact absurd (hs a (.thread i) o' hold (ho ▸ hown)) hne
    · exact hs a a' o' hold hold'

theorem passed_insert {o : Ref} (hpc : c.pc i = .inserting o) (r : Request) :
    Passed c (c.insert i o r) := by
  cases r with
  | createPhonebook token ty config id | openPhonebook token ty config id =>
    exact passed_inserted id hpc rfl rfl rfl
  | closePhonebook | destroyPhonebook | checkPhonebook | sayHello | computeSum => exact passed_same

theorem passed_find (id : UUID) (send : String → Response) : Passed c (c.find env i id send) := by
  rcases hl : c.mBackends.lookup id with _ | o <;> simp only [Locked.find, hl]
  · exact passed_goto rfl
  · refine passed_on i (.copied o) rfl (le_refl _) (fun _ _ h => h) ?_ ?_
    · rintro o' h
      exact ⟨.entry id, hl.trans h⟩
    · rintro o' ⟨⟩

theorem passed_count (id : UUID) {pc : Pc} (hnone : pcPointer pc = none) :
    Passed c (c.count env i id pc) := by
  unfold Locked.count
  cases c.mBackends.lookup id with
  | none => exact passed_goto rfl
  | some o => exact passed_goto hnone

theorem passed_look (r : Request) : Passed c (c.look env i r) := by
  cases r with
  | createPhonebook | openPhonebook => exact passed_same
  | closePhonebook token id => exact passed_count id rfl
  | destroyPhonebook token id => exact passed_count id rfl
  | checkPhonebook id | sayHello id | computeSum id x y =>
    rw [Locked.look]
    exact passed_find id _

theorem passed_close (r : Request) : Passed c (c.close i r) := by
  cases r with
  | closePhonebook token id =>
    dsimp only [Locked.close]
    cases c.mBackends.lookup id with
    | none => exact passed_goto rfl
    | some o => exact passed_drop rfl (le_refl _) (fun _ _ h => (lookup_of_erase id h).2) rfl
  | createPhonebook | openPhonebook | destroyPhonebook | checkPhonebook | sayHello | computeSum =>
    exact passed_same

theorem passed_destroy (r : Request) : Passed c (c.destroy env i r) := by
  cases r with
  | destroyPhonebook token id =>
    dsimp only [Locked.destroy]
    rcases c.mBackends.lookup id with _ | o <;> dsimp only
    · exact passed_goto rfl
    rcases c.heap[o]? with _ | b <;> dsimp only
    · exact passed_same
    rcases env.ops.destroy b.derived with ⟨result | e | _, d⟩
    · exact passed_drop rfl (List.length_set ..).ge (fun _ _ h => h) rfl
    · exact passed_drop rfl (List.length_set ..).ge (fun _ _ h => h) rfl
    · exact passed_drop rfl (List.length_set ..).ge (fun _ _ h => h) rfl
  | createPhonebook | openPhonebook | closePhonebook | checkPhonebook | sayHello | computeSum =>
    exact passed_same

theorem passed_erase (out : Outcome) (r : Request) : Passed c (c.erase i out r) := by
  cases r with
  | destroyPhonebook token id =>
    exact passed_drop rfl (le_refl _) (fun _ _ h => (lookup_of_erase id h).2) rfl
  | createPhonebook | openPhonebook | closePhonebook | checkPhonebook | sayHello | computeSum =>
    exact passed_same

theorem passed_call {o : Ref} (hpc : c.pc i = .found o) (r : Request) :
    Passed c (c.call env i o r) := by
  rcases hb : c.heap[o]? with _ | b <;> simp only [Locked.call, hb]
  · exact passed_same
  · refine passed_on i (.replying (some o) (callBackend env r b.derived).1) rfl
      (List.length_set ..).ge
      (fun _ _ h => h) ?_ ?_
    · rintro o' ⟨⟩
      exact ⟨.thread i, by rw [pointer, hpc]; rfl⟩
    · rintro o' ⟨⟩

/-- **One step** of any thread. -/
theorem passed_step (c : Locked ι α) (i : ι) : Passed c (c.step env i reqs) := by
  unfold Locked.step
  cases hpc : c.pc i with
  | idle => exact passed_drop rfl (le_refl _) (fun _ _ h => h) rfl
  | received => exact passed_prologue (reqs i)
  | built o => exact passed_lock (by rw [hpc]; rfl) (by rw [hpc]; rfl)
  | ready => exact passed_lock (by rw [hpc]; rfl) (by rw [hpc]; rfl)
  | inserting o => exact passed_insert hpc (reqs i)
  | looking => exact passed_look (reqs i)
  | closing => exact passed_close (reqs i)
  | destroying => exact passed_destroy (reqs i)
  | erasing out => exact passed_erase out (reqs i)
  | refusing out => exact passed_drop rfl (le_refl _) (fun _ _ h => h) rfl
  | refused out => exact passed_drop rfl (le_refl _) (fun _ _ h => h) rfl
  | copied o =>
    have hheld : ∃ a, pointer c a = some o := ⟨.thread i, by rw [pointer, hpc]; rfl⟩
    refine passed_on i (Locked.afterFind o (reqs i)) rfl (le_refl _) (fun _ _ h => h) ?_ ?_
    · intro o' h
      cases hreq : reqs i <;> rw [hreq] at h <;> obtain rfl : o = o' :=
        Option.some.inj h <;> exact hheld
    · intro o' h
      cases hreq : reqs i <;> rw [hreq] at h <;> cases h
  | leaving out => exact passed_drop rfl (le_refl _) (fun _ _ h => h) rfl
  | found o => exact passed_call hpc (reqs i)
  | replying phonebook out => exact passed_drop rfl (le_refl _) (fun _ _ h => h) rfl
  | answered out => exact passed_same

/-! ### What a step does with backends -/

/-- **One step** changes no backend but the one it calls. -/
theorem heap_step (c : Locked ι α) (i : ι) {o : Ref} (ho : o < c.heap.length)
    (hcalls : calls reqs c i ≠ some o) :
    (c.step env i reqs).heap[o]? = c.heap[o]? := by
  have hset :
    ∀ o' (b : Backend α), calls reqs c i = some o' → (c.heap.set o' b)[o]? = c.heap[o]? := by
    intro o' b hc
    refine List.getElem?_set_ne ?_
    rintro rfl
    exact hcalls hc
  have hbuild : ∀ x : Prepared α, (c.build i x).heap[o]? = c.heap[o]? := by
    intro x
    cases x with
    | refused | escaped => rfl
    | built b => exact List.getElem?_append_left ho
  unfold Locked.step
  cases hpc : c.pc i with
  | idle | replying | refused | leaving | copied | answered | refusing => rfl
  | received =>
    cases hreq : reqs i with
    | createPhonebook | openPhonebook => exact hbuild _
    | closePhonebook | destroyPhonebook =>
      dsimp only [Locked.prologue]
      split_ifs <;> rfl
    | checkPhonebook | sayHello | computeSum => rfl
  | built | ready =>
    dsimp only [Locked.lock]
    cases c.mBackendsMtx <;> rfl
  | inserting | erasing => cases reqs i <;> rfl
  | looking =>
    cases reqs i with
    | createPhonebook | openPhonebook => rfl
    | closePhonebook token id | destroyPhonebook token id =>
      dsimp only [Locked.look, Locked.count]
      cases c.mBackends.lookup id <;> rfl
    | checkPhonebook id | sayHello id | computeSum id x y =>
      dsimp only [Locked.look, Locked.find]
      cases c.mBackends.lookup id <;> rfl
  | closing =>
    cases reqs i with
    | closePhonebook token id =>
      dsimp only [Locked.close]
      cases c.mBackends.lookup id <;> rfl
    | createPhonebook | openPhonebook | destroyPhonebook | checkPhonebook | sayHello | computeSum =>
      rfl
  | destroying =>
    cases hreq : reqs i with
    | destroyPhonebook token id =>
      dsimp only [Locked.destroy]
      rcases hl : c.mBackends.lookup id with _ | o' <;> dsimp only
      · rfl
      have hc : calls reqs c i = some o' := by rw [calls, hpc, hreq]; exact hl
      rcases c.heap[o']? with _ | b
      · rfl
      dsimp only
      rcases env.ops.destroy b.derived with ⟨result | e | _, d⟩
      · exact hset o' _ hc
      · exact hset o' _ hc
      · exact hset o' _ hc
    | createPhonebook | openPhonebook | closePhonebook | checkPhonebook | sayHello | computeSum =>
      rfl
  | found o' =>
    have hc : calls reqs c i = some o' := by
      rw [calls, hpc]
    dsimp only [Locked.call]
    rcases c.heap[o']? with _ | b
    · rfl
    · exact hset o' _ hc

/-! ### Runs -/

theorem hands (env : Env α) (reqs : ι → Request) :
    Hands (fun c i => Locked.step env c i reqs) (fun _ => True) pointer fun c => c.heap.length :=
  ⟨fun _ _ h => h, fun c i _ => (passed_step c i).grows,
    fun c i _ a o h => (passed_step c i).passes a o h⟩

omit [DecidableEq ι] in
theorem valid_start (mToken : String) (s : Store α) :
    ∀ a o, pointer (.start mToken s : Locked ι α) a = some o →
      o < (Locked.start mToken s : Locked ι α).heap.length := by
  rintro (id | j) o h
  · exact s.allocated id o h
  · cases h

theorem valid_run (env : Env α) (reqs : ι → Request) (mToken : String) (s : Store α)
    (schedule : List ι) :
    ∀ a o, pointer (lockedRun env reqs (.start mToken s) schedule) a = some o →
      o < (lockedRun env reqs (.start mToken s) schedule).heap.length :=
  (hands env reqs).valid trivial (valid_start mToken s) schedule

omit [DecidableEq ι] in
theorem pointer_of_unique {a : Owner ι} {o : Ref} (h : uniquePtr c a = some o) :
    pointer c a = some o := by
  rcases a with id | j
  · exact h
  · dsimp only [uniquePtr, pointer] at h ⊢
    cases hpc : c.pc j with
    | built | inserting =>
      rw [hpc] at h
      exact h
    | _ =>
      rw [hpc] at h
      cases h

/-- No two entries point to one backend, and a `unique_ptr` to none that an entry points to. -/
theorem single_run (env : Env α) (reqs : ι → Request) (mToken : String) (s : Store α)
    (schedule : List ι) :
    ∀ a a' o, uniquePtr (lockedRun env reqs (.start mToken s) schedule) a = some o →
      uniquePtr (lockedRun env reqs (.start mToken s) schedule) a' = some o → a = a' := by
  induction schedule using List.reverseRecOn with
  | nil =>
    rintro (id | j) (id' | j') o h h'
    · rw [s.owned id id' o h h']
    · cases h'
    · cases h
    · cases h
  | append_singleton schedule i ih =>
    rw [lockedRun, exec_concat]
    refine (passed_step _ i).single (fun a o h => ?_) ih
    exact valid_run env reqs mToken s schedule a o (pointer_of_unique h)

omit [DecidableEq ι] in
theorem pointer_of_calls {o : Ref} (h : calls reqs c i = some o) : ∃ a, pointer c a = some o := by
  unfold calls at h
  split at h
  · next id _ _ => exact ⟨.entry id, h⟩
  · next o' hpc =>
    obtain rfl : o' = o := Option.some.inj h
    exact ⟨.thread i, by rw [pointer, hpc]; rfl⟩
  · cases h

/-- **No use after free.** Whatever the schedule, a handler calls only backends that were made and
to which somebody has held a pointer at every moment since, and every other backend is left as it is
by the step. -/
theorem no_use_after_free (env : Env α) (reqs : ι → Request) (mToken : String) (s : Store α)
    (schedule : List ι) (i : ι) :
    let c := lockedRun env reqs (.start mToken s) schedule
    (∀ o, calls reqs c i = some o → o < c.heap.length ∧
      ∀ pre, pre <+: schedule → o < (lockedRun env reqs (.start mToken s) pre).heap.length →
        ∃ a, pointer (lockedRun env reqs (.start mToken s) pre) a = some o) ∧
    ∀ o,
      o < c.heap.length → calls reqs c i ≠ some o → (c.step env i reqs).heap[o]? = c.heap[o]? := by
  intro c
  refine ⟨fun o hc => ?_, fun o ho hc => heap_step c i ho hc⟩
  obtain ⟨a, ha⟩ := pointer_of_calls hc
  exact ⟨valid_run env reqs mToken s schedule a o ha,
    fun pre hp ho => (hands env reqs).held_since trivial hp ha ho⟩

theorem owner_of_registered (env : Env α) (reqs : ι → Request) (mToken : String) (s : Store α)
    {pre schedule : List ι} (hp : pre <+: schedule) {id : UUID} {o : Ref}
    (hl : (lockedRun env reqs (.start mToken s) pre).mBackends.lookup id = some o) {a : Owner ι}
    (ha : uniquePtr (lockedRun env reqs (.start mToken s) schedule) a = some o) :
    a = .entry id := by
  obtain ⟨post, rfl⟩ := hp
  induction post using List.reverseRecOn generalizing a with
  | nil =>
    rw [List.append_nil] at ha
    exact single_run env reqs mToken s pre a (.entry id) o ha hl
  | append_singleton post i ih =>
    have hlt : o < (lockedRun env reqs (.start mToken s) (pre ++ post)).heap.length := by
      have hmade := valid_run env reqs mToken s pre (.entry id) o hl
      rw [lockedRun, exec_append]
      exact hmade.trans_le ((hands env reqs).allocated_mono trivial post)
    rw [← List.append_assoc, lockedRun, exec_concat] at ha
    rcases (passed_step _ i).owns a o ha with hold | ⟨j, hold⟩ | hnew
    · exact ih hold
    · cases ih hold
    · exact absurd hnew hlt.ne

/-- **One id for each backend.** Whatever the schedule, a backend that is registered was never
registered under another id, now or at any moment before; and one that a handler has in its
`unique_ptr` was never registered, and is in the `unique_ptr` of no other. -/
theorem registered_once (env : Env α) (reqs : ι → Request) (mToken : String) (s : Store α)
    (schedule : List ι) (o : Ref) :
    let c := lockedRun env reqs (.start mToken s) schedule
    (∀ pre, pre <+: schedule →
      ∀ id id', (lockedRun env reqs (.start mToken s) pre).mBackends.lookup id = some o →
      c.mBackends.lookup id' = some o → id' = id) ∧
    ∀ i, pcUnique (c.pc i) = some o →
      (∀ pre, pre <+: schedule →
        ∀ id, (lockedRun env reqs (.start mToken s) pre).mBackends.lookup id ≠ some o) ∧
      ∀ j, pcUnique (c.pc j) = some o → j = i := by
  intro c
  refine ⟨fun pre hp id id' hl hl' => ?_, fun i hi => ⟨fun pre hp id hl => ?_, fun j hj => ?_⟩⟩
  · exact Owner.entry.inj (owner_of_registered env reqs mToken s hp hl (a := .entry id') hl')
  · cases owner_of_registered env reqs mToken s hp hl (a := .thread i) hi
  · exact Owner.thread.inj (single_run env reqs mToken s schedule (.thread j) (.thread i) o hj hi)

end Phonebook.Server.Ownership
