import Phonebook.Server.Progress
import Phonebook.Server.Token

/-! # Requests with a wrong token

A handler that rejects the token of its request replies before it comes to the mutex. So whatever
the schedule, the other handlers stand where they would stand without it, statement by statement,
and it waits for none of them: its third statement is its last (`denied_unseen`). -/

namespace Phonebook.Server.Admission

open Phonebook.Data.Values Phonebook.Server.Backends Phonebook.Server.Provider
open Phonebook.Server.Handlers Phonebook.Server.Threads Phonebook.Server.Token
open Phonebook.Server.Locking Phonebook.Server.Progress Phonebook.Lib.Linearizability
open Phonebook.Lib.Runs Phonebook.Lib.Refinement

variable {ι α : Type}

/-! ### Some of the threads -/

/-- As if the other threads had received nothing. -/
def only (seen : ι → Bool) (c : Locked ι α) : Locked ι α :=
  { c with
    pc := fun i => if seen i then c.pc i else .idle
    history := c.history.filter (Event.isOf seen) }

variable {seen : ι → Bool} {c : Locked ι α} {i : ι}

@[simp] theorem only_mBackends : (only seen c).mBackends = c.mBackends := rfl

@[simp] theorem only_mBackendsMtx : (only seen c).mBackendsMtx = c.mBackendsMtx := rfl

@[simp] theorem only_heap : (only seen c).heap = c.heap := rfl

@[simp] theorem only_log : (only seen c).log = c.log := rfl

theorem only_pc (hi : seen i = true) : (only seen c).pc i = c.pc i := if_pos hi

theorem only_history_concat (e : Event ι Outcome) (he : e.isOf seen = true) :
    (c.history ++ [e]).filter (Event.isOf seen) = (only seen c).history ++ [e] := by
  rw [List.filter_append, List.filter_cons_of_pos he, List.filter_nil]
  rfl

variable [DecidableEq ι] {env : Env α} {reqs : ι → Request}

section Seen
variable (hi : seen i = true)
include hi

theorem only_update (pc : Pc) :
    (fun j => if seen j then Function.update c.pc i pc j else .idle) =
      Function.update (only seen c).pc i pc := by
  funext j
  by_cases hj : j = i
  · subst hj
    rw [if_pos hi, Function.update_self, Function.update_self]
  · rw [Function.update_of_ne hj, Function.update_of_ne hj]
    rfl

theorem only_moved (c' : Locked ι α) (pc : Pc) (hpc : c'.pc = Function.update c.pc i pc)
    (hhist : c'.history = c.history) :
    only seen c' = { c' with
      pc := Function.update (only seen c).pc i pc, history := (only seen c).history } := by
  rw [only, hpc, hhist, only_update hi]
  rfl

theorem only_goto (pc : Pc) : only seen (c.goto i pc) = (only seen c).goto i pc :=
  only_moved hi _ pc rfl rfl

theorem only_lock (pc : Pc) : only seen (c.lock i pc) = (only seen c).lock i pc := by
  simp only [Locked.lock, only_mBackendsMtx]
  cases c.mBackendsMtx with
  | none => exact only_moved hi _ pc rfl rfl
  | some j => rfl

theorem only_unlock (pc : Pc) : only seen (c.unlock i pc) = (only seen c).unlock i pc :=
  only_moved hi _ pc rfl rfl

theorem only_answer (pc : Pc) (out : Outcome) :
    only seen (c.answer i pc out) = (only seen c).answer i pc out := by
  rw [only, Locked.answer, only_history_concat (.answer i out) hi, Locked.goto, only_update hi]
  rfl

theorem only_build (x : Prepared α) : only seen (c.build i x) = (only seen c).build i x := by
  cases x with
  | refused error => exact only_goto hi _
  | escaped exit => exact only_goto hi _
  | built b => exact only_moved hi _ (.built c.heap.length) rfl rfl

theorem only_prologue (r : Request) :
    only seen (c.prologue env i r) = (only seen c).prologue env i r := by
  cases r with
  | createPhonebook | openPhonebook => exact only_build hi _
  | closePhonebook | destroyPhonebook =>
    rw [Locked.prologue, Locked.prologue, apply_ite (only seen), only_goto hi, only_goto hi]
    rfl
  | checkPhonebook | sayHello | computeSum => exact only_goto hi _

theorem only_insert (o : Ref) (r : Request) :
    only seen (c.insert i o r) = (only seen c).insert i o r := by
  cases r with
  | createPhonebook | openPhonebook => exact only_moved hi _ (.leaving _) rfl rfl
  | closePhonebook | destroyPhonebook | checkPhonebook | sayHello | computeSum => rfl

theorem only_look (r : Request) : only seen (c.look env i r) = (only seen c).look env i r := by
  cases r with
  | createPhonebook | openPhonebook => rfl
  | closePhonebook token id | destroyPhonebook token id =>
    simp only [Locked.look, Locked.count, only_mBackends]
    cases c.mBackends.lookup id with
    | none => exact only_goto hi _
    | some o => exact only_goto hi _
  | checkPhonebook id | sayHello id | computeSum id x y =>
    simp only [Locked.look, Locked.find, only_mBackends]
    cases c.mBackends.lookup id with
    | none => exact only_goto hi _
    | some o => exact only_moved hi _ (.copied o) rfl rfl

theorem only_close (r : Request) : only seen (c.close i r) = (only seen c).close i r := by
  cases r with
  | closePhonebook token id =>
    simp only [Locked.close, only_mBackends]
    cases c.mBackends.lookup id with
    | none => exact only_goto hi _
    | some o => exact only_moved hi _ (.leaving _) rfl rfl
  | createPhonebook | openPhonebook | destroyPhonebook | checkPhonebook | sayHello | computeSum =>
    rfl

theorem only_destroy (r : Request) :
    only seen (c.destroy env i r) = (only seen c).destroy env i r := by
  cases r with
  | destroyPhonebook token id =>
    simp only [Locked.destroy, only_mBackends, only_heap]
    rcases c.mBackends.lookup id with _ | o
    · exact only_goto hi _
    dsimp only
    rcases c.heap[o]? with _ | b
    · rfl
    dsimp only
    rcases env.ops.destroy b.derived with ⟨result | e | _, d⟩
    · exact only_moved hi _ (.erasing _) rfl rfl
    · exact only_moved hi _ (.leaving _) rfl rfl
    · exact only_moved hi _ (.leaving _) rfl rfl
  | createPhonebook | openPhonebook | closePhonebook | checkPhonebook | sayHello | computeSum => rfl

theorem only_erase (out : Outcome) (r : Request) :
    only seen (c.erase i out r) = (only seen c).erase i out r := by
  cases r with
  | destroyPhonebook token id => exact only_moved hi _ (.leaving out) rfl rfl
  | createPhonebook | openPhonebook | closePhonebook | checkPhonebook | sayHello | computeSum => rfl

theorem only_call (o : Ref) (r : Request) :
    only seen (c.call env i o r) = (only seen c).call env i o r := by
  simp only [Locked.call, only_heap]
  rcases c.heap[o]? with _ | b
  · rfl
  · exact only_moved hi _ (.replying (some o) _) rfl rfl

/-- **A step of one of these threads** depends on none of the others. -/
theorem only_step : only seen (c.step env i reqs) = (only seen c).step env i reqs := by
  unfold Locked.step
  rw [only_pc hi]
  cases c.pc i with
  | idle =>
    dsimp only
    rw [only, Locked.receive, only_history_concat (.invoke i) hi, Locked.goto, only_update hi]
    rfl
  | received => exact only_prologue hi (reqs i)
  | built o => exact only_lock hi (.inserting o)
  | ready => exact only_lock hi .looking
  | inserting o => exact only_insert hi o (reqs i)
  | looking => exact only_look hi (reqs i)
  | closing => exact only_close hi (reqs i)
  | destroying => exact only_destroy hi (reqs i)
  | erasing out => exact only_erase hi out (reqs i)
  | refusing out => exact only_answer hi (.refused out) out
  | refused out => exact only_unlock hi (.answered out)
  | copied o => exact only_unlock hi _
  | leaving out => exact only_unlock hi (.replying none out)
  | found o => exact only_call hi o (reqs i)
  | replying phonebook out => exact only_answer hi (.answered out) out
  | answered out => rfl

end Seen

/-! ### Rejected tokens -/

/-- The request carries no token, or one that the provider does not reject. -/
def admitted (mToken : String) (r : Request) : Bool :=
  (tokenOf r).all fun token => !decide (Rejects mToken token)

/-- Where the handler of a request with a rejected token stands after so many statements. -/
def turnedDown (r : Request) : ℕ → Pc
  | 0 => .idle
  | 1 => .received
  | 2 => .replying none ([denial r], .returns ())
  | _ + 3 => .answered ([denial r], .returns ())

theorem rejects_of_not_admitted {mToken : String} {r : Request} (h : admitted mToken r = false) :
    ∃ token, tokenOf r = some token ∧ Rejects mToken token := by
  unfold admitted at h
  cases ht : tokenOf r with
  | none =>
    rw [ht] at h
    cases h
  | some token =>
    rw [ht] at h
    exact ⟨token, rfl, by simpa using h⟩

theorem prologue_denied {r : Request} (h : admitted c.mToken r = false) :
    c.prologue env i r = c.goto i (.replying none ([denial r], .returns ())) := by
  obtain ⟨token, ht, hr⟩ := rejects_of_not_admitted h
  cases r with
  | createPhonebook | openPhonebook =>
    cases ht
    rw [Locked.prologue, prepare_of_rejects hr]
    rfl
  | closePhonebook | destroyPhonebook =>
    cases ht
    rw [Locked.prologue, if_pos hr]
    rfl
  | checkPhonebook | sayHello | computeSum => cases ht

/-- **A step of a handler that rejects the token** is its next statement, and touches nothing. -/
theorem denied_step (env : Env α) (seen : ι → Bool) (h : admitted c.mToken (reqs i) = false) {n : ℕ}
    (hpc : c.pc i = turnedDown (reqs i) n) :
    ∃ new, (∀ e ∈ new, e.isOf seen = seen i) ∧
      c.step env i reqs = { c.goto i (turnedDown (reqs i) (n + 1)) with history := c.history ++
        new } := by
  unfold Locked.step
  rw [hpc]
  rcases n with _ | _ | _ | n
  · refine ⟨[.invoke i], ?_, rfl⟩
    simp [Event.isOf]
  · refine ⟨[], by simp, ?_⟩
    rw [List.append_nil]
    exact prologue_denied h
  · refine ⟨[.answer i ([denial (reqs i)], .returns ())], ?_, rfl⟩
    simp [Event.isOf]
  · refine ⟨[], by simp, ?_⟩
    have hsame : Function.update c.pc i (turnedDown (reqs i) (n + 3 + 1)) = c.pc := by
      rw [show turnedDown (reqs i) (n + 3 + 1) = c.pc i from hpc.symm, Function.update_eq_self]
    rw [List.append_nil, Locked.goto, hsame]
    rfl

theorem only_unseen (hi : seen i = false) (pc : Pc) {new : List (Event ι Outcome)}
    (hnew : ∀ e ∈ new, e.isOf seen = seen i) :
    only seen { c.goto i pc with history := c.history ++ new } = only seen c := by
  have hpc : (fun j => if seen j then Function.update c.pc i pc j else .idle) =
      fun j => if seen j then c.pc j else .idle := by
    funext j
    by_cases hj : j = i
    · subst hj
      rw [hi]
      rfl
    · rw [Function.update_of_ne hj]
  have hhist :
    (c.history ++ new).filter (Event.isOf seen) = c.history.filter (Event.isOf seen) := by
    have hnone : new.filter (Event.isOf seen) = [] := by
      refine List.filter_eq_nil_iff.mpr fun e he => ?_
      rw [hnew e he, hi]
      exact Bool.false_ne_true
    rw [List.filter_append, hnone, List.append_nil]
  simp only [only, Locked.goto, hpc, hhist]

/-! ### Runs -/

/-- Where the handler of a request with a rejected token stands is a matter of its own
statements. -/
theorem denied_run (env : Env α) (reqs : ι → Request) (mToken : String) (s : Store α)
    (schedule : List ι) (h : admitted mToken (reqs i) = false) :
    (lockedRun env reqs (.start mToken s) schedule).pc i =
      turnedDown (reqs i) (schedule.count i) := by
  induction schedule using List.reverseRecOn with
  | nil => rfl
  | append_singleton schedule j ih =>
    rw [lockedRun_concat, List.count_append]
    by_cases hj : j = i
    · subst hj
      have hd :
        admitted (lockedRun env reqs (.start mToken s) schedule).mToken (reqs j) = false := by
        rw [mToken_run]
        exact h
      obtain ⟨new, -, hstep⟩ := denied_step env (fun _ => true) hd ih
      rw [hstep, List.count_singleton_self]
      exact Function.update_self ..
    · rw [pc_step_of_ne (runs_run env reqs mToken s schedule) env (Ne.symm hj), ih,
        List.count_singleton,
        if_neg (by simpa using hj), Nat.add_zero]

/-- The threads of the other requests, in the run with those that are rejected and in the run
without. -/
theorem only_run (env : Env α) (reqs : ι → Request) (mToken : String) (s : Store α)
    (schedule : List ι) :
    only (fun i => admitted mToken (reqs i)) (lockedRun env reqs (.start mToken s) schedule) =
      lockedRun env reqs (.start mToken s) (schedule.filter fun i => admitted mToken (reqs i)) := by
  set seen : ι → Bool := fun i => admitted mToken (reqs i)
  refine (unwinding (fun c i => Locked.step env c i reqs)
    (fun c c' => (∃ pre, lockedRun env reqs (.start mToken s) pre = c) ∧
      only seen c = c') seen ?_ ?_ ?_ schedule).2
  · rintro _ _ i hi ⟨⟨pre, rfl⟩, rfl⟩
    exact ⟨⟨pre ++ [i], lockedRun_concat ..⟩, only_step hi⟩
  · rintro _ _ i hi ⟨⟨pre, rfl⟩, rfl⟩
    refine ⟨⟨pre ++ [i], lockedRun_concat ..⟩, ?_⟩
    have hd : admitted (lockedRun env reqs (.start mToken s) pre).mToken (reqs i) = false := by
      rw [mToken_run]
      exact hi
    obtain ⟨new, hnew, hstep⟩ := denied_step env seen hd (denied_run env reqs mToken s pre hi)
    rw [hstep]
    exact only_unseen hi _ hnew
  · refine ⟨⟨[], rfl⟩, ?_⟩
    simp [only, Locked.start]

/-- **Requests with a wrong token are not noticed.** Whatever the schedule, the registry, its mutex,
the backends and what is done to them are the same as without the threads whose token is rejected,
and every other handler stands at the same statement. A handler that rejects its token waits for
none of them: with its third statement it ends, and has sent the denial. -/
theorem denied_unseen (env : Env α) (reqs : ι → Request) (mToken : String) (s : Store α)
    (schedule : List ι) :
    let seen : ι → Bool := fun i => admitted mToken (reqs i)
    let c := lockedRun env reqs (.start mToken s) schedule
    let c' := lockedRun env reqs (.start mToken s) (schedule.filter seen)
    c.mBackends = c'.mBackends ∧ c.mBackendsMtx = c'.mBackendsMtx ∧ c.heap = c'.heap ∧
      c.log = c'.log ∧
      (∀ i, seen i = true → c.pc i = c'.pc i) ∧ c.history.filter (Event.isOf seen) = c'.history ∧
      ∀ i,
        seen i = false → 3 ≤ schedule.count i →
          c.pc i = .answered ([denial (reqs i)], .returns ()) := by
  intro seen c c'
  have honly : only seen c = c' := only_run env reqs mToken s schedule
  refine ⟨?_, ?_, ?_, ?_, fun i hi => ?_, ?_, fun i hi hthree => ?_⟩
  · rw [← honly, only_mBackends]
  · rw [← honly, only_mBackendsMtx]
  · rw [← honly, only_heap]
  · rw [← honly, only_log]
  · rw [← honly, only_pc hi]
  · exact congrArg Locked.history honly
  · obtain ⟨n, hn⟩ := Nat.exists_eq_add_of_le' hthree
    have hpc : c.pc i = turnedDown (reqs i) (schedule.count i) :=
      denied_run env reqs mToken s schedule hi
    rw [hpc, hn]
    rfl

end Phonebook.Server.Admission
