import Phonebook.Lib.Faults
import Phonebook.Server.Locking

/-! # The process of a provider

A handler runs code that is not the provider's: the static functions of a backend class, the
operations and the destructor of a backend, and the library's `respond`. Such code may never return,
and then the handler stays where it is, with the mutex if it has it. A handler that comes to
undefined behaviour, or is left by an exception, which nothing catches, ends the process: nothing is
known of what the other handlers do afterwards. -/

namespace Phonebook.Server.Process

open Phonebook.Server.Backends Phonebook.Server.Provider Phonebook.Server.Threads
open Phonebook.Server.Removal Phonebook.Server.Locking
open Phonebook.Lib.Runs Phonebook.Lib.Refinement Phonebook.Lib.Faults

/-- The statement runs code that is not the provider's. Where a pointer to a backend is dropped, that
may be the destructor of the backend. -/
def foreign (r : Request) : Pc → Bool
  | .received => (drawn r).isSome
  | .inserting _ | .closing | .destroying | .erasing _ | .found _ => true
  | .refusing out => !out.1.isEmpty
  | .replying phonebook out => phonebook.isSome || !out.1.isEmpty
  | .idle | .built _ | .ready | .looking | .refused _ | .copied _ | .leaving _ | .answered _ => false

/-- The handler does not return: it ends in undefined behaviour, or by an exception. -/
def fails (out : Outcome) : Bool :=
  match out.2 with
  | .returns _ => false
  | .throws _ | .undefined => true

/-- The handler has come to such an end. -/
def lost : Pc → Bool
  | .erasing out | .refusing out | .refused out | .leaving out | .replying _ out
  | .answered out => fails out
  | .idle | .received | .built _ | .ready | .inserting _ | .looking | .closing | .destroying
  | .copied _ | .found _ => false

variable {ι α : Type}

/-- What may happen to the process at a step of a thread: `hangs` tells where code that is not the
provider's never returns to the handler. -/
def faults (reqs : ι → Request) (hangs : ι → Pc → Bool) : Fault (Locked ι α) ι where
  hangs c i := foreign (reqs i) (c.pc i) && hangs i (c.pc i)
  breaks c i := lost (c.pc i)

theorem faults_goes {reqs : ι → Request} {hangs : ι → Pc → Bool}
    (hreturns : ∀ i pc, foreign (reqs i) pc = true → hangs i pc = false)
    (c : Locked ι α) (i : ι) : (faults reqs hangs).hangs c i = false := by
  show (foreign (reqs i) (c.pc i) && hangs i (c.pc i)) = false
  cases hforeign : foreign (reqs i) (c.pc i) with
  | false => rfl
  | true => rw [hreturns i _ hforeign, Bool.and_false]

variable [DecidableEq ι]

/-- A step of the thread of `i`, as far as it goes. -/
def step (env : Env α) (reqs : ι → Request) (hangs : ι → Pc → Bool) :
    Faulty (Locked ι α) → ι → Faulty (Locked ι α) :=
  (faults reqs hangs).step fun c i => c.step env i reqs

/-- The process after the steps of a schedule. -/
def processRun (env : Env α) (reqs : ι → Request) (hangs : ι → Pc → Bool) (mToken : String)
    (s : Store α) (schedule : List ι) : Faulty (Locked ι α) :=
  exec (step env reqs hangs) (sound (.start mToken s)) schedule

variable {env : Env α} {reqs : ι → Request} {hangs : ι → Pc → Bool} {mToken : String} {s : Store α}
variable {p : Faulty (Locked ι α)} {i : ι}

/-- What every step of a thread keeps holds in the process. -/
theorem process_induction {P : Locked ι α → Prop} (h0 : P (.start mToken s))
    (hP : ∀ c i, P c → P (c.step env i reqs)) (schedule : List ι) :
    P (processRun env reqs hangs mToken s schedule).state := by
  have hrefines := Fault.refines (faults reqs hangs) fun (c : Locked ι α) i => c.step env i reqs
  exact hrefines.transfer (s := sound (.start mToken s)) trivial h0 hP schedule

theorem step_of_goes (hw : p.whole = true) (hgoes : ∀ pc, hangs i pc = false) :
    step env reqs hangs p i =
      ⟨p.state.step env i reqs, !lost ((p.state.step env i reqs).pc i)⟩ := by
  refine Fault.step_of_goes hw ?_
  show (foreign (reqs i) (p.state.pc i) && hangs i (p.state.pc i)) = false
  rw [hgoes, Bool.and_false]

/-- The process has taken some of the steps. -/
theorem process_refines (env : Env α) (reqs : ι → Request) (hangs : ι → Pc → Bool) (mToken : String)
    (s : Store α) (schedule : List ι) :
    ∃ schedule', schedule'.Sublist schedule ∧
      (processRun env reqs hangs mToken s schedule).state =
        lockedRun env reqs (.start mToken s) schedule' := by
  have hrefines := Fault.refines (faults reqs hangs) fun (c : Locked ι α) i => c.step env i reqs
  exact hrefines.run (s := sound (.start mToken s)) trivial schedule

theorem exists_lost {schedule : List ι}
    (hw : (processRun env reqs hangs mToken s schedule).whole = false) :
    ∃ i, lost ((processRun env reqs hangs mToken s schedule).state.pc i) = true := by
  obtain ⟨i, -, hlost⟩ := Fault.exists_breaks hw
  exact ⟨i, hlost⟩

/-! ### With the sections as single steps -/

/-- The thread has come to the end of the process. -/
def lostPhase : Phase → Bool
  | .replying out | .answered out => fails out
  | .idle | .received | .built _ | .ready | .found _ => false

/-- What may happen to the process at a step of a thread, if the code that is not the provider's
returns. -/
def poolFaults : Fault (Pool ι α) ι where
  hangs _ _ := false
  breaks c i := lostPhase (c.phase i)

/-- The process after the steps of a schedule. -/
def poolRun (env : Env α) (reqs : ι → Request) (mToken : String) (s : Store α) (schedule : List ι) :
    Faulty (Pool ι α) :=
  exec (poolFaults.step fun c i => c.step env i reqs) (sound (.start mToken s)) schedule

/-- A process that has not ended has taken all steps. -/
theorem pool_of_whole {schedule : List ι} (hw : (poolRun env reqs mToken s schedule).whole = true) :
    (poolRun env reqs mToken s schedule).state = run env reqs (.start mToken s) schedule :=
  Fault.exec_of_whole (fun _ _ => rfl) hw

end Phonebook.Server.Process
