import Phonebook.Server.Commutation
import Phonebook.Server.Progress

/-! # The calls of backends

From the moment a handler is about to call a backend until it has called it, no other handler makes
it call another (`calls_step_of_ne`): it has the mutex, or a copy of the shared pointer. With the
sections under the lock as single steps the call is the step that is seen (`calls_of_pool`). -/

namespace Phonebook.Server.Calls

open Phonebook.Data.Values Phonebook.Server.Backends Phonebook.Server.Provider
open Phonebook.Server.Handlers Phonebook.Server.Threads Phonebook.Server.Removal
open Phonebook.Server.Commutation Phonebook.Server.Locking Phonebook.Server.Ownership
open Phonebook.Server.Progress

variable {ι α : Type}

/-- The backend that the next step of the thread calls, if sections are single steps. -/
def poolCalls (reqs : ι → Request) (c : Pool ι α) (i : ι) : Option Ref :=
  match c.phase i, reqs i with
  | .ready, .destroyPhonebook _ id => c.mBackends.lookup id
  | .found o, _ => some o
  | _, _ => none

variable [DecidableEq ι] {env : Env α} {reqs : ι → Request} {c : Locked ι α} {i j : ι} {o : Ref}

/-! ### Other threads -/

theorem mBackends_step (hi : (c.pc i).inside = false) :
    (c.step env i reqs).mBackends = c.mBackends := by
  unfold Locked.step
  cases hpc : c.pc i with
  | idle | replying | answered => rfl
  | received =>
    have hbuild : ∀ x : Prepared α, (c.build i x).mBackends = c.mBackends := by
      rintro (_ | _ | _) <;> rfl
    cases reqs i with
    | createPhonebook | openPhonebook => exact hbuild _
    | closePhonebook | destroyPhonebook =>
      dsimp only [Locked.prologue]
      split_ifs <;> rfl
    | checkPhonebook | sayHello | computeSum => rfl
  | built | ready =>
    dsimp only [Locked.lock]
    cases c.mBackendsMtx <;> rfl
  | found o =>
    dsimp only [Locked.call]
    cases c.heap[o]? <;> rfl
  | inserting | looking | closing | destroying | erasing | refusing | refused | copied | leaving =>
    rw [hpc] at hi
    cases hi

/-- **A handler about to call a backend** is so until it does, whatever the other threads do. -/
theorem calls_step_of_ne (h : Runs reqs c) (hj : j ≠ i) (hc : calls reqs c j = some o) :
    calls reqs (c.step env i reqs) j = some o := by
  have hpc : (c.step env i reqs).pc j = c.pc j := pc_step_of_ne h env hj
  unfold calls at hc ⊢
  rw [hpc]
  cases hpcj : c.pc j with
  | destroying =>
    -- the thread has the mutex, so the other is not under it
    have hmtx : c.mBackendsMtx = some j := (h.consistent.holder j).mp (by rw [hpcj]; rfl)
    have hout : (c.pc i).inside = false := by
      rw [← Bool.not_eq_true]
      intro hin
      exact hj (Option.some.inj (hmtx.symm.trans ((h.consistent.holder i).mp hin)))
    rw [hpcj] at hc
    rw [mBackends_step hout]
    exact hc
  | found o' =>
    rw [hpcj] at hc
    exact hc
  | idle | received | built | ready | inserting | looking | closing | erasing | refusing | refused
  | copied | leaving | replying | answered =>
    rw [hpcj] at hc
    cases hc

/-! ### Sections as single steps -/

/-- **A step that is seen** among the sections as the call of a backend is that call. -/
theorem calls_of_pool (h : Consistent reqs c) (hseen : pool reqs (c.step env i reqs) ≠ pool reqs c)
    (hc : poolCalls reqs (pool reqs c) i = some o) : calls reqs c i = some o := by
  have hfits := h.fits i
  unfold poolCalls at hc
  unfold Locked.step at hseen
  cases hpc : c.pc i with
  | ready =>
    rw [hpc] at hseen
    exact absurd (pool_lock (by rw [hpc]; rfl) rfl) hseen
  | looking =>
    -- the section that calls `destroy` looks at the map first, which is not seen
    have hin : (c.pc i).inside = true := by rw [hpc]; rfl
    have hreg : (pool reqs c).mBackends = c.mBackends :=
      registry_of_holder ((h.holder i).mp hin) (by rw [hpc]; rfl)
    rw [hpc] at hseen
    rw [pool_phase hpc, hreg] at hc
    cases hreq : reqs i with
    | destroyPhonebook token id =>
      rw [hreq] at hc hseen
      simp only [phaseOf] at hc
      simp only [Locked.look, Locked.count, hc] at hseen
      refine absurd ?_ hseen
      rw [pool_goto_inside h hin .destroying (by rw [hpc]; rfl) rfl]
      exact pool_goto_self (by rw [hpc]; rfl)
    | createPhonebook | openPhonebook | closePhonebook | checkPhonebook | sayHello | computeSum =>
      rw [hreq] at hc
      cases hc
  | closing =>
    rw [hpc] at hfits
    obtain ⟨token, id, o', hreq, -⟩ := hfits
    rw [pool_phase hpc, hreq] at hc
    cases hc
  | destroying =>
    have hreg : (pool reqs c).mBackends = c.mBackends :=
      registry_of_holder ((h.holder i).mp (by rw [hpc]; rfl)) (by rw [hpc]; rfl)
    rw [pool_phase hpc, hreg] at hc
    rw [calls, hpc]
    rw [hpc] at hfits
    obtain ⟨token, id, o', hreq, -⟩ := hfits
    rw [hreq] at hc ⊢
    exact hc
  | copied o' =>
    rw [hpc] at hseen
    refine absurd (pool_unlock h (by rw [hpc]; rfl) ?_ (by rw [hpc]; rfl)) hseen
    rw [hpc]
    cases reqs i <;> rfl
  | found o' =>
    rw [pool_phase hpc] at hc
    rw [calls, hpc]
    exact hc
  | idle
  | received | built | inserting | erasing | refusing | refused | leaving | replying | answered =>
    rw [pool_phase hpc] at hc
    cases hc

omit [DecidableEq ι] in
theorem lookup_of_registry {id : UUID} (hl : (registry reqs c).lookup id = some o) :
    c.mBackends.lookup id = some o := by
  unfold registry at hl
  split at hl
  · exact hl
  · exact (lookup_of_erase _ hl).2

end Phonebook.Server.Calls
