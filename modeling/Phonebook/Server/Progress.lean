import Mathlib.Algebra.BigOperators.Group.Finset.Basic
import Mathlib.Algebra.Order.BigOperators.Group.Finset
import Phonebook.Server.Ownership
import Phonebook.Server.Process

/-! # Every handler ends

No handler waits for anything but the mutex and the code it calls: the factory, the backends, their
destructors included, and `respond`. As long as that code returns, a handler that cannot go on has
ended or waits for one that can, and every statement brings its handler closer to the end. So any
handler can be brought to its end unless it, or the one that has the mutex, calls what never returns
(`can_end`); and if all these calls return, the requests are finitely many and every thread runs
again and again, all requests are answered, once each, and the mutex is free (`handlers_end`). Both
are said of a process that no handler has ended by undefined behaviour or an exception, and of
backends whose operations act on their own object alone: one that calls the provider again from
`destroy` is one that never returns. -/

namespace Phonebook.Server.Progress

open Phonebook.Data.Values Phonebook.Server.Backends Phonebook.Server.Provider
open Phonebook.Server.Handlers Phonebook.Server.Threads Phonebook.Server.Removal
open Phonebook.Server.Locking Phonebook.Server.Ownership Phonebook.Server.Process
open Phonebook.Lib.Linearizability Phonebook.Lib.Runs Phonebook.Lib.Refinement Phonebook.Lib.Faults

/-- How many statements the handler has at most before it. -/
def rank : Pc → ℕ
  | .idle => 9
  | .received => 8
  | .built _ | .ready => 7
  | .inserting _ | .looking => 6
  | .closing | .destroying | .refusing _ | .copied _ => 5
  | .erasing _ => 4
  | .leaving _ => 3
  | .found _ => 2
  | .refused _ | .replying _ _ => 1
  | .answered _ => 0

variable {ι α : Type} [DecidableEq ι] {env : Env α} {reqs : ι → Request} {c c' : Locked ι α} {i : ι}

/-- What a step of the thread of `i` does for progress. -/
inductive Advances (c : Locked ι α) (i : ι) (c' : Locked ι α) : Prop
  | ended (out : Outcome) (hpc : c.pc i = .answered out) (same : c' = c)
  | waits (j : ι) (hi : (c.pc i).inside = false) (hmtx : c.mBackendsMtx = some j) (same : c' = c)
  | moves (pc : Pc) (hpc : c'.pc = Function.update c.pc i pc) (hrank : rank pc < rank (c.pc i))
      (token : c'.mToken = c.mToken)
      (mtx : c'.mBackendsMtx = c.mBackendsMtx ∨ c'.mBackendsMtx = none ∨ c'.mBackendsMtx = some i)

theorem advances_moved (pc : Pc) (hrank : rank pc < rank (c.pc i))
    (hpc : c'.pc = Function.update c.pc i pc)
    (htoken : c'.mToken = c.mToken) (hmtx : c'.mBackendsMtx = c.mBackendsMtx) : Advances c i c' :=
  .moves pc hpc hrank htoken (Or.inl hmtx)

theorem advances_prologue (hpc : c.pc i = .received) (r : Request) :
    Advances c i (c.prologue env i r) := by
  have hgoto : ∀ {pc : Pc}, rank pc < 8 → Advances c i (c.goto i pc) := fun h =>
    advances_moved _ (by rw [hpc]; exact h) rfl rfl rfl
  have hbuild : ∀ x : Prepared α, Advances c i (c.build i x) := by
    intro x
    cases x with
    | refused error => exact hgoto (by simp [rank])
    | escaped exit => exact hgoto (by simp [rank])
    | built b => exact .moves (.built c.heap.length) rfl (by rw [hpc]; simp [rank]) rfl (Or.inl rfl)
  cases r with
  | createPhonebook | openPhonebook => exact hbuild _
  | closePhonebook | destroyPhonebook =>
    dsimp only [Locked.prologue]
    split_ifs
    · exact hgoto (by simp [rank])
    · exact hgoto (by simp [rank])
  | checkPhonebook | sayHello | computeSum => exact hgoto (by simp [rank])

theorem advances_lock {pc : Pc} (hi : (c.pc i).inside = false) (hrank : rank pc < rank (c.pc i)) :
    Advances c i (c.lock i pc) := by
  rcases hmtx : c.mBackendsMtx with _ | j <;> simp only [Locked.lock, hmtx]
  · exact .moves pc rfl hrank rfl (Or.inr (Or.inr rfl))
  · exact .waits j hi hmtx rfl

theorem advances_look (hpc : c.pc i = .looking) (hd : drawn (reqs i) = none) :
    Advances c i (c.look env i (reqs i)) := by
  have hgoto : ∀ {pc : Pc}, rank pc < 6 → Advances c i (c.goto i pc) := fun h =>
    advances_moved _ (by rw [hpc]; exact h) rfl rfl rfl
  cases hreq : reqs i with
  | createPhonebook | openPhonebook => rw [hreq] at hd; cases hd
  | closePhonebook token id | destroyPhonebook token id =>
    dsimp only [Locked.look, Locked.count]
    cases c.mBackends.lookup id with
    | none => exact hgoto (by simp [rank])
    | some o => exact hgoto (by simp [rank])
  | checkPhonebook id | sayHello id | computeSum id x y =>
    dsimp only [Locked.look, Locked.find]
    cases c.mBackends.lookup id with
    | none => exact hgoto (by simp [rank])
    | some o => exact .moves (.copied o) rfl (by rw [hpc]; simp [rank]) rfl (Or.inl rfl)

theorem advances_destroy (hpc : c.pc i = .destroying) {token : String} {id : UUID} {o : Ref}
    {b : Backend α} (hreq : reqs i = .destroyPhonebook token id)
    (hl : c.mBackends.lookup id = some o) (hb : c.heap[o]? = some b) :
    Advances c i (c.destroy env i (reqs i)) := by
  simp only [Locked.destroy, hreq, hl, hb]
  rcases env.ops.destroy b.derived with ⟨result | e | _, d⟩
  · exact advances_moved (.erasing _) (by rw [hpc]; simp [rank]) rfl rfl rfl
  · exact advances_moved (.leaving _) (by rw [hpc]; simp [rank]) rfl rfl rfl
  · exact advances_moved (.leaving _) (by rw [hpc]; simp [rank]) rfl rfl rfl

/-- **One step** of a thread brings it closer to the end, unless it is there or waits for the
mutex. -/
theorem advances_step (env : Env α) (h : Consistent reqs c)
    (hv : ∀ a o, pointer c a = some o → o < c.heap.length) (i : ι) :
    Advances c i (c.step env i reqs) := by
  have hfits := h.fits i
  unfold Locked.step
  cases hpc : c.pc i with
  | idle => exact advances_moved .received (by rw [hpc]; simp [rank]) rfl rfl rfl
  | received => exact advances_prologue hpc (reqs i)
  | built o => exact advances_lock (by rw [hpc]; rfl) (by rw [hpc]; simp [rank])
  | ready => exact advances_lock (by rw [hpc]; rfl) (by rw [hpc]; simp [rank])
  | inserting o =>
    rw [hpc] at hfits
    obtain ⟨id, hd⟩ := hfits
    cases hreq : reqs i with
    | createPhonebook | openPhonebook =>
      exact advances_moved (.leaving _) (by rw [hpc]; simp [rank]) rfl rfl rfl
    | closePhonebook | destroyPhonebook | checkPhonebook | sayHello | computeSum =>
      rw [hreq] at hd; cases hd
  | looking =>
    rw [hpc] at hfits
    exact advances_look hpc hfits
  | closing =>
    rw [hpc] at hfits
    obtain ⟨token, id, o, hreq, hl⟩ := hfits
    simp only [Locked.close, hreq, hl]
    exact advances_moved (.leaving _) (by rw [hpc]; simp [rank]) rfl rfl rfl
  | destroying =>
    rw [hpc] at hfits
    obtain ⟨token, id, o, hreq, hl⟩ := hfits
    exact advances_destroy hpc hreq hl (List.getElem?_eq_getElem (hv (.entry id) o hl))
  | erasing out =>
    rw [hpc] at hfits
    obtain ⟨token, id, hreq⟩ := hfits
    simp only [Locked.erase, hreq]
    exact advances_moved (.leaving out) (by rw [hpc]; simp [rank]) rfl rfl rfl
  | refusing out => exact advances_moved (.refused out) (by rw [hpc]; simp [rank]) rfl rfl rfl
  | refused out =>
    exact .moves (.answered out) rfl (by rw [hpc]; simp [rank]) rfl (Or.inr (Or.inl rfl))
  | copied o =>
    refine .moves (Locked.afterFind o (reqs i)) rfl ?_ rfl (Or.inr (Or.inl rfl))
    rw [hpc]
    cases reqs i <;> simp [Locked.afterFind, rank]
  | leaving out =>
    exact .moves (.replying none out) rfl (by rw [hpc]; simp [rank]) rfl (Or.inr (Or.inl rfl))
  | found o =>
    have ho : o < c.heap.length := hv (.thread i) o (by rw [pointer, hpc]; rfl)
    simp only [Locked.call, List.getElem?_eq_getElem ho]
    exact advances_moved (.replying (some o) _) (by rw [hpc]; simp [rank]) rfl rfl rfl
  | replying phonebook out =>
    exact advances_moved (.answered out) (by rw [hpc]; simp [rank]) rfl rfl rfl
  | answered out => exact .ended out hpc rfl

/-! ### From any moment on -/

/-- What holds of the threads of every schedule: each stands where it can, and points to backends
there are. -/
structure Runs (reqs : ι → Request) (c : Locked ι α) : Prop where
  consistent : Consistent reqs c
  valid : ∀ a o, pointer c a = some o → o < c.heap.length

theorem Runs.step (h : Runs reqs c) (i : ι) : Runs reqs (c.step env i reqs) := by
  refine ⟨h.consistent.step i, fun a o ha => ?_⟩
  rcases (passed_step c i).passes a o ha with ⟨a', ha'⟩ | ⟨-, hlt⟩
  · exact (h.valid a' o ha').trans_le (passed_step c i).grows
  · exact hlt

theorem runs_run (env : Env α) (reqs : ι → Request) (mToken : String) (s : Store α)
    (schedule : List ι) :
    Runs reqs (lockedRun env reqs (.start mToken s) schedule) :=
  ⟨consistent_run env reqs mToken s schedule, valid_run env reqs mToken s schedule⟩

theorem pc_step_of_ne (h : Runs reqs c) (env : Env α) {j : ι} (hj : j ≠ i) :
    (c.step env i reqs).pc j = c.pc j := by
  cases advances_step env h.consistent h.valid i with
  | ended out hpc same => rw [same]
  | waits k hi hmtx same => rw [same]
  | moves pc hpc hrank token mtx => rw [hpc, Function.update_of_ne hj]

theorem mToken_run (env : Env α) (reqs : ι → Request) (mToken : String) (s : Store α)
    (schedule : List ι) :
    (lockedRun env reqs (.start mToken s) schedule).mToken = mToken := by
  induction schedule using List.reverseRecOn with
  | nil => rfl
  | append_singleton schedule i ih =>
    have h := runs_run env reqs mToken s schedule
    rw [lockedRun_concat]
    cases advances_step env h.consistent h.valid i with
    | ended out hpc same => rw [same, ih]
    | waits j hi hmtx same => rw [same, ih]
    | moves pc hpc hrank token mtx => exact token.trans ih

section Process
variable {hangs : ι → Pc → Bool} {p : Faulty (Locked ι α)}

theorem runs_process (mToken : String) (s : Store α) (schedule : List ι) :
    Runs reqs (processRun env reqs hangs mToken s schedule).state :=
  process_induction ⟨consistent_start mToken s, valid_start mToken s⟩
    (fun _ i h => h.step i) schedule

variable (env) in
/-- A thread that no other keeps from the mutex, and whose calls return, ends if it runs long
enough, and leaves the mutex free, unless it ends the process. -/
theorem ends_alone (h : Runs reqs p.state) (hgoes : ∀ pc, hangs i pc = false)
    (hmtx : p.state.mBackendsMtx = none ∨ p.state.mBackendsMtx = some i) :
    ∃ k, let p' := exec (step env reqs hangs) p (List.replicate k i)
      p'.whole = false ∨ ((∃ out, p'.state.pc i = .answered out) ∧
        p'.state.mBackendsMtx = none) := by
  -- on how far the end is
  induction hk : rank (p.state.pc i) using Nat.strong_induction_on generalizing p with
  | _ k ih =>
    cases hw : p.whole with
    | false => exact ⟨0, Or.inl hw⟩
    | true =>
      cases advances_step env h.consistent h.valid i with
      | ended out hpc same =>
        refine ⟨0, Or.inr ⟨⟨out, hpc⟩, hmtx.resolve_right fun hi => ?_⟩⟩
        have hin := (h.consistent.holder i).mpr hi
        rw [hpc] at hin
        cases hin
      | waits j hi hj same =>
        -- the mutex would be held by this thread, which is not under it
        have hj' : p.state.mBackendsMtx = some i := hmtx.resolve_left (by rw [hj]; rintro ⟨⟩)
        rw [(h.consistent.holder i).mpr hj'] at hi
        cases hi
      | moves pc hpc hrank token mtx =>
        have hstep : step env reqs hangs p i =
            ⟨p.state.step env i reqs, !lost ((p.state.step env i reqs).pc i)⟩ :=
              step_of_goes hw hgoes
        have hmtx' : (p.state.step env i reqs).mBackendsMtx = none ∨
            (p.state.step env i reqs).mBackendsMtx = some i := by
          rcases mtx with heq | hnone | hsome
          · rw [heq]
            exact hmtx
          · exact Or.inl hnone
          · exact Or.inr hsome
        have hpc' : (p.state.step env i reqs).pc i = pc := by rw [hpc, Function.update_self]
        obtain ⟨n, hend⟩ := ih (rank pc) (hk ▸ hrank) (p := step env reqs hangs p i)
          (by rw [hstep]; exact h.step i) (by rw [hstep]; exact hmtx') (by rw [hstep, hpc'])
        exact ⟨n + 1, hend⟩

/-- The handler is about to lock the mutex. -/
def AtLock (pc : Pc) : Prop := pc = .ready ∨ ∃ o, pc = .built o

/-- A call under the mutex that never returns keeps the mutex, and every thread that is about to
lock it. -/
theorem held_for_ever {j : ι} (h : Runs reqs p.state) (hmtx : p.state.mBackendsMtx = some j)
    (hhangs : (faults reqs hangs).hangs p.state j = true) (later : List ι) :
    let p' := exec (step env reqs hangs) p later
    p'.state.mBackendsMtx = some j ∧ ∀ i, AtLock (p.state.pc i) → p'.state.pc i = p.state.pc i := by
  suffices hkept : Runs reqs (exec (step env reqs hangs) p later).state ∧
      ∀ i,
        i = j ∨ AtLock (p.state.pc i) → (exec (step env reqs hangs) p later).state.pc i =
          p.state.pc i by
    refine ⟨(hkept.1.consistent.holder j).mp ?_, fun i hi => hkept.2 i (Or.inr hi)⟩
    rw [hkept.2 j (Or.inl rfl)]
    exact (h.consistent.holder j).mpr hmtx
  induction later using List.reverseRecOn with
  | nil => exact ⟨h, fun _ _ => rfl⟩
  | append_singleton later k ih =>
    rw [exec_concat]
    generalize exec (step env reqs hangs) p later = q at ih ⊢
    obtain ⟨hq, hsame⟩ := ih
    have hj : q.state.pc j = p.state.pc j := hsame j (Or.inl rfl)
    by_cases hgoes : q.whole = true ∧ (faults reqs hangs).hangs q.state k = false
    swap
    · rw [show step env reqs hangs q k = q from if_neg hgoes]
      exact ⟨hq, hsame⟩
    rw [show step env reqs hangs q k = _ from Fault.step_of_goes hgoes.1 hgoes.2]
    refine ⟨hq.step k, fun i hi => ?_⟩
    show (q.state.step env k reqs).pc i = p.state.pc i
    rw [← hsame i hi]
    by_cases hik : i = k
    · subst hik
      rcases hi with rfl | hlock
      · -- the thread that has the mutex does not go on
        have hhung : (faults reqs hangs).hangs q.state i = true := by
          show (foreign (reqs i) (q.state.pc i) && hangs i (q.state.pc i)) = true
          rw [hj]
          exact hhangs
        rw [hhung] at hgoes
        cases hgoes.2
      · have hheld : q.state.mBackendsMtx = some j := by
          rw [← hq.consistent.holder, hj, h.consistent.holder]
          exact hmtx
        rw [← hsame i (Or.inr hlock)] at hlock
        unfold Locked.step
        rcases hlock with hpc | ⟨o, hpc⟩ <;> simp only [hpc, Locked.lock, hheld]
    · exact pc_step_of_ne hq env hik

/-- **Any handler can end**, unless it is kept from it by code that is not the provider's. However
many requests there are, after any schedule of a process the threads can go on so that the handler
of `i` ends, or one ends the process, if the calls of `i` and of the thread that has the mutex
return. If that thread is in a call that never returns, no thread that is about to lock the mutex
ever does. -/
theorem can_end (env : Env α) (reqs : ι → Request) (hangs : ι → Pc → Bool) (mToken : String)
    (s : Store α) (schedule : List ι) :
    let p := processRun env reqs hangs mToken s schedule
    (∀ i, (∀ j, j = i ∨ p.state.mBackendsMtx = some j → ∀ pc, hangs j pc = false) →
      ∃ later, let p' := processRun env reqs hangs mToken s (schedule ++ later)
        (∃ j, lost (p'.state.pc j) = true) ∨ ∃ out, p'.state.pc i = .answered out) ∧
    ∀ j, p.state.mBackendsMtx = some j → (faults reqs hangs).hangs p.state j = true →
      ∀ later, let p' := processRun env reqs hangs mToken s (schedule ++ later)
        p'.state.mBackendsMtx = some j ∧ ∀ i, AtLock (p.state.pc i) →
          p'.state.pc i = p.state.pc i := by
  intro p
  have h : Runs reqs p.state := runs_process mToken s schedule
  have hrun : ∀ later, processRun env reqs hangs mToken s (schedule ++ later) =
      exec (step env reqs hangs) p later := fun later => exec_append _ _ _ _
  refine ⟨fun i hgoes => ?_, fun j hmtx hhangs later => ?_⟩
  · -- first the thread that has the mutex, if any
    obtain ⟨before, hfree, hruns⟩ : ∃ before, ((exec (step env reqs hangs) p before).whole = false ∨
        (exec (step env reqs hangs) p before).state.mBackendsMtx = none) ∧
          Runs reqs (exec (step env reqs hangs) p before).state := by
      cases hmtx : p.state.mBackendsMtx with
      | none => exact ⟨[], Or.inr hmtx, h⟩
      | some j =>
        obtain ⟨k, hend⟩ := ends_alone env h (hgoes j (Or.inr hmtx)) (Or.inr hmtx)
        refine ⟨List.replicate k j, hend.imp_right And.right, ?_⟩
        rw [← hrun]
        exact runs_process mToken s _
    rcases hfree with hbroken | hfree
    · refine ⟨before, Or.inl (exists_lost ?_)⟩
      rw [hrun]
      exact hbroken
    · obtain ⟨k, hend⟩ := ends_alone env hruns (hgoes i (Or.inl rfl)) (Or.inl hfree)
      rw [← exec_append] at hend
      refine ⟨before ++ List.replicate k i, ?_⟩
      rcases hend with hbroken | ⟨hout, -⟩
      · refine Or.inl (exists_lost ?_)
        rw [hrun]
        exact hbroken
      · rw [hrun]
        exact Or.inr hout
  · rw [hrun]
    exact held_for_ever h hmtx hhangs later

end Process

/-! ### Answers -/

theorem history_step (env : Env α) (reqs : ι → Request) (p : Pool ι α) (i : ι) :
    (p.step env i reqs).history = p.history ∨
      (p.step env i reqs).history = p.history ++ [.invoke i] ∨
        ∃ out, (p.step env i reqs).history = p.history ++ [.answer i out] := by
  have hfind : ∀ (id : UUID) (send : String → Response) (next : Ref → Phase),
      (p.find env i id send next).history = p.history := by
    intro id send next
    dsimp only [Pool.find]
    cases p.mBackends.lookup id <;> rfl
  have hbuild : ∀ x : Prepared α, (p.build i x).history = p.history := fun x => by cases x <;> rfl
  unfold Pool.step
  cases p.phase i with
  | idle => exact Or.inr (Or.inl rfl)
  | replying out => exact Or.inr (Or.inr ⟨out, rfl⟩)
  | answered out => exact Or.inl rfl
  | built o =>
    left
    cases reqs i <;> rfl
  | found o =>
    left
    dsimp only [Pool.call]
    cases p.heap[o]? <;> rfl
  | received =>
    left
    cases reqs i with
    | createPhonebook | openPhonebook => exact hbuild _
    | closePhonebook | destroyPhonebook =>
      dsimp only [Pool.prologue]
      split_ifs <;> rfl
    | checkPhonebook | sayHello | computeSum => rfl
  | ready =>
    left
    cases reqs i with
    | createPhonebook | openPhonebook => rfl
    | closePhonebook token id =>
      dsimp only [Pool.lockedSection, Pool.close]
      cases p.mBackends.lookup id <;> rfl
    | destroyPhonebook token id =>
      dsimp only [Pool.lockedSection, Pool.destroy]
      rcases p.mBackends.lookup id with _ | o
      · rfl
      dsimp only
      rcases p.heap[o]? with _ | b
      · rfl
      dsimp only
      rcases env.ops.destroy b.derived with ⟨result | e | _, d⟩ <;> rfl
    | checkPhonebook | sayHello | computeSum => exact hfind _ _ _

/-- A request is in the history once it was received, and its answer once it was sent, each of them
once. -/
structure Logged (c : Pool ι α) : Prop where
  nodup : c.history.Nodup
  invoked : ∀ i, .invoke i ∈ c.history ↔ c.phase i ≠ .idle
  answered : ∀ i out, .answer i out ∈ c.history ↔ c.phase i = .answered out

/-- Neither before the request was received nor after it was answered. -/
def Underway (ph : Phase) : Prop := ph ≠ .idle ∧ ∀ out, ph ≠ .answered out

section Logged
variable {p p' : Pool ι α} (h : Logged p)
include h

theorem Logged.quiet {ph : Phase} (hold : Underway (p.phase i)) (hnew : Underway ph)
    (hphase : p'.phase = Function.update p.phase i ph) (hhist : p'.history = p.history) :
    Logged p' := by
  refine ⟨hhist ▸ h.nodup, fun j => ?_, fun j out => ?_⟩
  · rw [hhist, h.invoked, hphase]
    by_cases hj : j = i
    · subst hj
      rw [Function.update_self]
      exact iff_of_true hold.1 hnew.1
    · rw [Function.update_of_ne hj]
  · rw [hhist, h.answered, hphase]
    by_cases hj : j = i
    · subst hj
      rw [Function.update_self]
      exact iff_of_false (hold.2 out) (hnew.2 out)
    · rw [Function.update_of_ne hj]

theorem Logged.goto {ph : Phase} (hold : Underway (p.phase i)) (hnew : Underway ph) :
    Logged (p.goto i ph) :=
  h.quiet hold hnew rfl rfl

theorem Logged.build (hold : Underway (p.phase i)) (x : Prepared α) : Logged (p.build i x) := by
  cases x with
  | refused | escaped => exact h.goto hold ⟨by rintro ⟨⟩, by rintro _ ⟨⟩⟩
  | built b =>
    have hnew : Underway (.built p.heap.length) := ⟨by rintro ⟨⟩, by rintro _ ⟨⟩⟩
    exact h.quiet hold hnew rfl rfl

theorem Logged.find (hold : Underway (p.phase i)) (id : UUID) (send : String → Response)
    {next : Ref → Phase}
    (hnext : ∀ o, Underway (next o)) : Logged (p.find env i id send next) := by
  rcases hl : p.mBackends.lookup id with _ | o
  · rw [Pool.find_unknown env hl]
    exact h.goto hold ⟨by rintro ⟨⟩, by rintro _ ⟨⟩⟩
  · rw [Pool.find_known env hl]
    exact h.quiet hold (hnext o) rfl rfl

theorem Logged.lockedSection (hold : Underway (p.phase i)) (r : Request) :
    Logged (p.lockedSection env i r) := by
  have hreplying : ∀ out, Underway (.replying out) := fun out => ⟨by rintro ⟨⟩, by rintro _ ⟨⟩⟩
  have hfound : ∀ o, Underway (.found o) := fun o => ⟨by rintro ⟨⟩, by rintro _ ⟨⟩⟩
  cases r with
  | createPhonebook | openPhonebook => exact h
  | closePhonebook token id =>
    dsimp only [Pool.lockedSection, Pool.close]
    cases p.mBackends.lookup id with
    | none => exact h.goto hold (hreplying _)
    | some o => exact h.quiet hold (hreplying _) rfl rfl
  | destroyPhonebook token id =>
    dsimp only [Pool.lockedSection, Pool.destroy]
    rcases p.mBackends.lookup id with _ | o <;> dsimp only
    · exact h.goto hold (hreplying _)
    rcases p.heap[o]? with _ | b <;> dsimp only
    · exact h
    rcases env.ops.destroy b.derived with ⟨result | e | _, d⟩
    · exact h.quiet hold (hreplying _) rfl rfl
    · exact h.quiet hold (hreplying _) rfl rfl
    · exact h.quiet hold (hreplying _) rfl rfl
  | checkPhonebook id =>
    rw [Pool.lockedSection]
    exact h.find hold id _ fun o => hreplying _
  | sayHello id | computeSum id x y =>
    rw [Pool.lockedSection]
    exact h.find hold id _ hfound

/-- **One step** of any thread. -/
theorem Logged.step (i : ι) : Logged (p.step env i reqs) := by
  have hreplying : ∀ out, Underway (.replying out) := fun out => ⟨by rintro ⟨⟩, by rintro _ ⟨⟩⟩
  unfold Pool.step
  cases hph : p.phase i with
  | idle =>
    refine ⟨?_, fun j => ?_, fun j out => ?_⟩
    · have hnew : .invoke i ∉ p.history := by rw [h.invoked, not_not, hph]
      show (p.history ++ [Event.invoke i]).Nodup
      rw [← List.concat_eq_append]
      exact h.nodup.concat hnew
    · show .invoke j ∈ p.history ++ [.invoke i] ↔ Function.update p.phase i .received j ≠ .idle
      by_cases hj : j = i
      · subst hj
        simp
      · simp [hj, h.invoked]
    · show .answer j out ∈ p.history ++ [.invoke i] ↔
        Function.update p.phase i .received j = .answered out
      by_cases hj : j = i
      · subst hj
        simp [h.answered, hph]
      · simp [hj, h.answered]
  | received =>
    have hold : Underway (p.phase i) := by rw [hph]; exact ⟨by rintro ⟨⟩, by rintro _ ⟨⟩⟩
    cases reqs i with
    | createPhonebook | openPhonebook => exact h.build hold _
    | closePhonebook token id | destroyPhonebook token id =>
      dsimp only [Pool.prologue]
      split_ifs
      · exact h.goto hold (hreplying _)
      · exact h.goto hold ⟨by rintro ⟨⟩, by rintro _ ⟨⟩⟩
    | checkPhonebook | sayHello | computeSum => exact h.goto hold ⟨by rintro ⟨⟩, by rintro _ ⟨⟩⟩
  | built o =>
    have hold : Underway (p.phase i) := by rw [hph]; exact ⟨by rintro ⟨⟩, by rintro _ ⟨⟩⟩
    cases reqs i with
    | createPhonebook | openPhonebook => exact h.quiet hold (hreplying _) rfl rfl
    | closePhonebook | destroyPhonebook | checkPhonebook | sayHello | computeSum => exact h
  | ready => exact h.lockedSection (by rw [hph]; exact ⟨by rintro ⟨⟩, by rintro _ ⟨⟩⟩) (reqs i)
  | found o =>
    have hold : Underway (p.phase i) := by rw [hph]; exact ⟨by rintro ⟨⟩, by rintro _ ⟨⟩⟩
    dsimp only [Pool.call]
    rcases p.heap[o]? with _ | b <;> dsimp only
    · exact h
    · exact h.quiet hold (hreplying _) rfl rfl
  | replying out =>
    refine ⟨?_, fun j => ?_, fun j out' => ?_⟩
    · have hnew : .answer i out ∉ p.history := by rw [h.answered, hph]; rintro ⟨⟩
      show (p.history ++ [Event.answer i out]).Nodup
      rw [← List.concat_eq_append]
      exact h.nodup.concat hnew
    · show .invoke j ∈ p.history ++ [.answer i out] ↔
        Function.update p.phase i (.answered out) j ≠ .idle
      by_cases hj : j = i
      · subst hj
        simp [h.invoked, hph]
      · simp [hj, h.invoked]
    · show .answer j out' ∈ p.history ++ [.answer i out] ↔
        Function.update p.phase i (.answered out) j = .answered out'
      by_cases hj : j = i
      · subst hj
        simp [h.answered, hph, eq_comm]
      · simp [hj, h.answered]
  | answered out => exact h

end Logged

/-! ### Fair schedules -/

/-- How many statements all handlers have at most before them. -/
def remaining [Fintype ι] (c : Locked ι α) : ℕ := Finset.univ.sum fun i => rank (c.pc i)

theorem remaining_lt [Fintype ι] {pc : Pc} (hpc : c'.pc = Function.update c.pc i pc)
    (hrank : rank pc < rank (c.pc i)) : remaining c' < remaining c := by
  refine Finset.sum_lt_sum (fun j _ => ?_) ⟨i, Finset.mem_univ i, ?_⟩
  · rw [hpc, Function.update_apply]
    split_ifs with hj
    · exact hj ▸ hrank.le
    · exact le_refl _
  · rw [hpc, Function.update_self]
    exact hrank

theorem progresses [Fintype ι] (env : Env α) (reqs : ι → Request) :
    Progresses (fun c i => Locked.step env c i reqs) (Runs reqs) remaining
      fun c => ∀ i, ∃ out, c.pc i = .answered out := by
  refine ⟨fun c i h => h.step i, fun c i h => ?_, fun c h hdone => ?_⟩
  · cases advances_step env h.consistent h.valid i with
    | ended out hpc same => exact Or.inl same
    | waits j hi hmtx same => exact Or.inl same
    | moves pc hpc hrank token mtx => exact Or.inr (remaining_lt hpc hrank)
  · have hmoves :
      ∀ {i pc}, (c.step env i reqs).pc = Function.update c.pc i pc → rank pc < rank (c.pc i) →
        c.step env i reqs ≠ c := by
      intro i pc hpc hrank heq
      have hlt := remaining_lt hpc hrank
      rw [heq] at hlt
      exact lt_irrefl _ hlt
    obtain ⟨i, hi⟩ := not_forall.mp hdone
    cases advances_step env h.consistent h.valid i with
    | ended out hpc same => exact absurd ⟨out, hpc⟩ hi
    | moves pc hpc hrank token mtx => exact ⟨i, hmoves hpc hrank⟩
    | waits j hout hmtx same =>
      -- the thread that has the mutex can go on
      have hj : (c.pc j).inside = true := (h.consistent.holder j).mpr hmtx
      cases advances_step env h.consistent h.valid j with
      | ended out hpc => rw [hpc] at hj; cases hj
      | waits _ hi' => rw [hj] at hi'; cases hi'
      | moves pc hpc hrank token mtx => exact ⟨j, hmoves hpc hrank⟩

omit [DecidableEq ι] in
theorem logged_start (mToken : String) (s : Store α) : Logged (.start mToken s : Pool ι α) :=
  ⟨List.nodup_nil, fun i => by simp [Pool.start], fun i out => by simp [Pool.start]⟩

omit [DecidableEq ι] in
/-- When every handler has ended, the mutex is free and every request was answered once. -/
theorem Runs.all_answered (h : Runs reqs c) (hlogged : Logged (pool reqs c))
    (hdone : ∀ i, ∃ out, c.pc i = .answered out) :
    c.mBackendsMtx = none ∧ c.history.Nodup ∧
      ∀ i, .invoke i ∈ c.history ∧ ∃! out, .answer i out ∈ c.history := by
  refine ⟨?_, hlogged.nodup, fun i => ?_⟩
  · by_contra hmtx
    obtain ⟨j, hj⟩ := Option.ne_none_iff_exists'.mp hmtx
    obtain ⟨out, hout⟩ := hdone j
    have hin := (h.consistent.holder j).mpr hj
    rw [hout] at hin
    cases hin
  · obtain ⟨out, hout⟩ := hdone i
    have hphase : (pool reqs c).phase i = .answered out := pool_phase hout
    refine ⟨(hlogged.invoked i).mpr (by rw [hphase]; rintro ⟨⟩), out,
      (hlogged.answered i out).mpr hphase, ?_⟩
    intro out' hout'
    exact (Phase.answered.inj (hphase.symm.trans ((hlogged.answered i out').mp hout'))).symm

theorem logged_process {hangs : ι → Pc → Bool} (mToken : String) (s : Store α) (schedule : List ι) :
    Logged (pool reqs (processRun env reqs hangs mToken s schedule).state) := by
  have hboth : let c := (processRun env reqs hangs mToken s schedule).state
      Consistent reqs c ∧ Logged (pool reqs c) := by
    refine process_induction (P := fun c => Consistent reqs c ∧ Logged (pool reqs c))
      ⟨consistent_start mToken s, logged_start mToken s⟩ (fun c i hc => ⟨hc.1.step i, ?_⟩) schedule
    rcases pool_follows env hc.1 i with heq | heq <;> rw [heq]
    · exact hc.2
    · exact hc.2.step i
  exact hboth.2

/-- **No deadlock, no starvation.** If the code that the handlers call returns, finitely many
requests come and every thread runs again and again, there is a moment at which every handler has
ended, each request was received and answered exactly once, and the mutex is free, or else a handler
has ended the process. -/
theorem handlers_end [Fintype ι] (env : Env α) (reqs : ι → Request) {hangs : ι → Pc → Bool}
    (hreturns : ∀ i pc, foreign (reqs i) pc = true → hangs i pc = false) (mToken : String)
    (s : Store α) {schedule : ℕ → ι} (hfair : Fair schedule) :
    ∃ n, let p := after (step env reqs hangs) (sound (.start mToken s)) schedule n
      (∃ i, lost (p.state.pc i) = true) ∨
        p.state.mBackendsMtx = none ∧ p.state.history.Nodup ∧
          ∀ i, .invoke i ∈ p.state.history ∧ ∃! out, .answer i out ∈ p.state.history := by
  have hstart : Runs reqs (.start mToken s : Locked ι α) :=
    ⟨consistent_start mToken s, valid_start mToken s⟩
  obtain ⟨n, hdone⟩ := (Fault.progresses (progresses env reqs) (faults_goes hreturns)).fair
    (s := sound (Locked.start mToken s)) hstart hfair
  refine ⟨n, ?_⟩
  rcases hdone with hbroken | hdone
  · exact Or.inl (exists_lost hbroken)
  · exact Or.inr (Runs.all_answered (runs_process mToken s _) (logged_process mToken s _) hdone)

/-- Requests of two threads: one creates a phonebook, the other asks for it. -/
def createAndCheck : Bool → Request
  | false => .createPhonebook "" "dummy" "\x7b\x7d" .clear
  | true => .checkPhonebook .clear

theorem handlers_end_createAndCheck :
    ∃ n,
      let env := DummyPhonebook.env .sample uuidUnparse
      let alternate : ℕ → Bool := fun n => n % 2 == 0
      let p :=
        after (step env createAndCheck fun _ _ => false) (sound (.start "" .empty)) alternate n
      (∃ i, lost (p.state.pc i) = true) ∨
        p.state.mBackendsMtx = none ∧ p.state.history.Nodup ∧
          ∀ i, .invoke i ∈ p.state.history ∧ ∃! out, .answer i out ∈ p.state.history := by
  refine handlers_end _ createAndCheck (fun _ _ _ => rfl) "" .empty fun i n => ?_
  cases i with
  | true => exact ⟨2 * n, by omega, by simp⟩
  | false => exact ⟨2 * n + 1, by omega, by simp⟩

end Phonebook.Server.Progress
