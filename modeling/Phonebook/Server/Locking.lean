import Phonebook.Lib.Refinement
import Phonebook.Server.Removal

/-! # The mutex of the registry

The handlers statement by statement: `m_backends_mtx` is locked and unlocked by steps of their own,
a thread that finds it locked stays where it is, and between the two the map is looked at, the
backend destroyed, the entry erased or the refusal sent, one after the other. A thread that holds
the mutex is the only one between its `lock_guard`'s constructor and destructor
(`mutual_exclusion`), so the pointer that `destroyPhonebookRPC` takes out of the map once more is
the one `count` saw. Seen through `pool`, the steps under the lock are the single sections of
`Threads`: a section happens at its lookup if that failed or is all there is to it, at the call of
`destroy`, and at the `erase` or the insertion else (`sections_atomic`). -/

namespace Phonebook.Server.Locking

open Phonebook.Data.Values Phonebook.Server.Backends Phonebook.Server.Provider
open Phonebook.Server.Handlers Phonebook.Server.Threads Phonebook.Server.Removal
open Phonebook.Lib.Linearizability Phonebook.Lib.Runs Phonebook.Lib.Refinement

/-- Where a handler stands, with the local variables it goes on with. -/
inductive Pc where
  | idle
  | received
  /-- before the lock, with the `unique_ptr` of a create or open -/
  | built (o : Ref)
  /-- before the lock -/
  | ready
  /-- under the lock, before `m_backends[phonebook_id] = std::move(backend)` -/
  | inserting (o : Ref)
  /-- under the lock, before `count` or `find` -/
  | looking
  /-- under the lock, before the `erase` of close -/
  | closing
  /-- under the lock, before `m_backends[phonebook_id]->destroy()` -/
  | destroying
  /-- under the lock, between `destroy` and `erase` -/
  | erasing (out : Outcome)
  /-- under the lock, before the response that the id is not found -/
  | refusing (out : Outcome)
  /-- under the lock, after that response -/
  | refused (out : Outcome)
  /-- under the lock, with the shared pointer that `FIND_PHONEBOOK` copied -/
  | copied (o : Ref)
  /-- under the lock, with nothing left to do there -/
  | leaving (out : Outcome)
  /-- after the lock, with the backend to call -/
  | found (o : Ref)
  | replying (phonebook : Option Ref) (out : Outcome)
  | answered (out : Outcome)

/-- Between the constructor and the destructor of the `lock_guard`. -/
def Pc.inside : Pc → Bool
  | .inserting _
  | .looking | .closing | .destroying | .erasing _ | .refusing _ | .refused _ | .copied _
  | .leaving _ => true
  | .idle | .received | .built _ | .ready | .found _ | .replying _ _ | .answered _ => false

/-- A provider, its mutex with the thread that holds it, and the threads that serve its requests. -/
structure Locked (ι α : Type) where
  mToken : String
  mBackends : Finmap fun _ : UUID => Ref
  mBackendsMtx : Option ι
  heap : List (Backend α)
  pc : ι → Pc
  history : List (Event ι Outcome)
  log : List (Act ι)

variable {ι α : Type} [DecidableEq ι] (env : Env α)

/-! ### The handlers, statement by statement -/

namespace Locked

/-- Before anything was received. -/
def start (mToken : String) (s : Store α) : Locked ι α :=
  ⟨mToken, s.mBackends, none, s.heap, fun _ => .idle, [], []⟩

variable (c : Locked ι α) (i : ι)

/-- The thread of `i` goes on to another statement. -/
def goto (pc : Pc) : Locked ι α := { c with pc := Function.update c.pc i pc }

/-- The constructor of the `lock_guard`, at which a thread stays as long as the mutex is locked. -/
def lock (pc : Pc) : Locked ι α :=
  match c.mBackendsMtx with
  | none => { c.goto i pc with mBackendsMtx := some i }
  | some _ => c

/-- The destructor of the `lock_guard`. -/
def unlock (pc : Pc) : Locked ι α := { c.goto i pc with mBackendsMtx := none }

/-- The request arrives. -/
def receive : Locked ι α := { c.goto i .received with history := c.history ++ [.invoke i] }

/-- The responses are sent. -/
def answer (pc : Pc) (out : Outcome) : Locked ι α :=
  { c.goto i pc with history := c.history ++ [.answer i out] }

/-- What a create or open goes on to. -/
def build : Prepared α → Locked ι α
  | .refused error => c.goto i (.replying none ([failed error], .returns ()))
  | .escaped exit => c.goto i (.replying none ([], exit))
  | .built b => { c.goto i (.built c.heap.length) with heap := c.heap ++ [b] }

/-- The part of the handler before the lock. -/
def prologue : Request → Locked ι α
  | .createPhonebook token ty config _ =>
    c.build i (prepare env c.mToken token ty config (env.factory.createPhonebook ty))
  | .openPhonebook token ty config _ =>
    c.build i (prepare env c.mToken token ty config (env.factory.openPhonebook ty))
  | .closePhonebook token _ | .destroyPhonebook token _ =>
    if Rejects c.mToken token then
      c.goto i (.replying none ([.bool ⟨false, "Invalid security token"⟩], .returns ()))
    else c.goto i .ready
  | .checkPhonebook _ | .sayHello _ | .computeSum _ _ _ => c.goto i .ready

/-- `m_backends[phonebook_id] = std::move(backend)`. -/
def insert (o : Ref) : Request → Locked ι α
  | .createPhonebook _ _ _ id | .openPhonebook _ _ _ id =>
    { c.goto i (.leaving ([added id], .returns ())) with
      mBackends := c.mBackends.insert id o, log := c.log ++ [.insert i o] }
  | _ => c

/-- `m_backends.find(phonebook_id)` and, if that found it, the copy of the shared pointer. -/
def find (id : UUID) (send : String → Response) : Locked ι α :=
  match c.mBackends.lookup id with
  | none =>
    c.goto i (.refusing
      ([send ("Phonebook with UUID " ++ env.uuidUnparse id ++ " not found")], .returns ()))
  | some o => { c.goto i (.copied o) with log := c.log ++ [.lookup i o] }

/-- `m_backends.count(phonebook_id) == 0`. -/
def count (id : UUID) (pc : Pc) : Locked ι α :=
  match c.mBackends.lookup id with
  | none => c.goto i (.refusing (notFound env id))
  | some _ => c.goto i pc

/-- The first look at the map. -/
def look : Request → Locked ι α
  | .closePhonebook _ id => c.count env i id .closing
  | .destroyPhonebook _ id => c.count env i id .destroying
  | .checkPhonebook id => c.find env i id fun e => .bool ⟨false, e⟩
  | .sayHello id => c.find env i id fun e => .bool ⟨false, e⟩
  | .computeSum id _ _ =>
    c.find env i id fun e => .int32 { RequestResult.init with success := false, error := e }
  | .createPhonebook .. | .openPhonebook .. => c

/-- The `erase` of close. -/
def close : Request → Locked ι α
  | .closePhonebook _ id =>
    match c.mBackends.lookup id with
    | none => c.goto i (.leaving ([.bool .init], .returns ()))
    | some o =>
      { c.goto i (.leaving ([.bool .init], .returns ())) with
        mBackends := c.mBackends.erase id, log := c.log ++ [.erase i o] }
  | _ => c

/-- `m_backends[phonebook_id]->destroy()`, through the null pointer that `operator[]` makes of an
entry there is not. An exception unwinds the handler. -/
def destroy : Request → Locked ι α
  | .destroyPhonebook _ id =>
    match c.mBackends.lookup id with
    | none => c.goto i (.leaving ([], .undefined))
    | some o =>
      match c.heap[o]? with
      | none => c
      | some b =>
        match env.ops.destroy b.derived with
        | (.returns result, d) =>
          { c.goto i (.erasing ([.bool result], .returns ())) with
            heap := c.heap.set o { b with derived := d }, log := c.log ++ [.destroy i o true] }
        | (.throws e, d) =>
          { c.goto i (.leaving ([], .throws e)) with
            heap := c.heap.set o { b with derived := d }, log := c.log ++ [.destroy i o false] }
        | (.undefined, d) =>
          { c.goto i (.leaving ([], .undefined)) with
            heap := c.heap.set o { b with derived := d }, log := c.log ++ [.destroy i o false] }
  | _ => c

/-- The `erase` of destroy. -/
def erase (out : Outcome) : Request → Locked ι α
  | .destroyPhonebook _ id => { c.goto i (.leaving out) with mBackends := c.mBackends.erase id }
  | _ => c

/-- The statement after `FIND_PHONEBOOK`. -/
def afterFind (o : Ref) : Request → Pc
  | .checkPhonebook _ => .replying (some o) ([.bool .init], .returns ())
  | _ => .found o

/-- The call of the backend that was found. -/
def call (o : Ref) (r : Request) : Locked ι α :=
  match c.heap[o]? with
  | none => c
  | some b =>
    { c.goto i (.replying (some o) (callBackend env r b.derived).1) with
      heap := c.heap.set o { b with derived := (callBackend env r b.derived).2 }
      log := c.log ++ [.call i o] }

/-- One step of the thread of `i`. -/
def step (reqs : ι → Request) : Locked ι α :=
  match c.pc i with
  | .idle => c.receive i
  | .received => c.prologue env i (reqs i)
  | .built o => c.lock i (.inserting o)
  | .ready => c.lock i .looking
  | .inserting o => c.insert i o (reqs i)
  | .looking => c.look env i (reqs i)
  | .closing => c.close i (reqs i)
  | .destroying => c.destroy env i (reqs i)
  | .erasing out => c.erase i out (reqs i)
  | .refusing out => c.answer i (.refused out) out
  | .refused out => c.unlock i (.answered out)
  | .copied o => c.unlock i (afterFind o (reqs i))
  | .leaving out => c.unlock i (.replying none out)
  | .found o => c.call env i o (reqs i)
  | .replying _ out => c.answer i (.answered out) out
  | .answered _ => c

end Locked

/-- The threads after the steps of a schedule. -/
def lockedRun (reqs : ι → Request) (c : Locked ι α) (schedule : List ι) : Locked ι α :=
  exec (fun c i => c.step env i reqs) c schedule

theorem lockedRun_concat (reqs : ι → Request) (c : Locked ι α) (schedule : List ι) (i : ι) :
    lockedRun env reqs c (schedule ++ [i]) = (lockedRun env reqs c schedule).step env i reqs :=
  exec_concat ..

variable {env} {reqs : ι → Request} {c c' : Locked ι α} {i : ι}

/-! ### Who holds the mutex -/

/-- The handler of the request gets to the statement, and the map still has the entry it saw
there. -/
def Fits (m : Finmap fun _ : UUID => Ref) (r : Request) : Pc → Prop
  | .built _ | .inserting _ => ∃ id, drawn r = some id
  | .ready | .looking | .refusing _ | .refused _ => drawn r = none
  | .closing => ∃ token id o, r = .closePhonebook token id ∧ m.lookup id = some o
  | .destroying => ∃ token id o, r = .destroyPhonebook token id ∧ m.lookup id = some o
  | .erasing _ => ∃ token id, r = .destroyPhonebook token id
  | .copied _ => drawn r = none ∧ removes r = none
  | .found _ => (∃ id, r = .sayHello id) ∨ ∃ id x y, r = .computeSum id x y
  | .idle | .received | .leaving _ | .replying _ _ | .answered _ => True

/-- A thread under the lock is the one that holds the mutex, and every handler is where it can
be. -/
structure Consistent (reqs : ι → Request) (c : Locked ι α) : Prop where
  holder : ∀ i, (c.pc i).inside = true ↔ c.mBackendsMtx = some i
  fits : ∀ i, Fits c.mBackends (reqs i) (c.pc i)

theorem fits_of_outside {m m' : Finmap fun _ : UUID => Ref} {r : Request} {pc : Pc}
    (ho : pc.inside = false)
    (h : Fits m r pc) : Fits m' r pc := by
  cases pc with
  | idle | received | built | ready | found | replying | answered => exact h
  | inserting | looking | closing | destroying | erasing | refusing | refused | copied | leaving =>
    cases ho

/-- What a step may do to the mutex: nothing, or take it when it is free, or give it back. Only a
thread that has it changes the map. -/
inductive Holds (c c' : Locked ι α) (i : ι) (pc : Pc) : Prop
  | outside (hi : (c.pc i).inside = false) (hpc : pc.inside = false)
    (mtx : c'.mBackendsMtx = c.mBackendsMtx) (reg : c'.mBackends = c.mBackends)
  | takes (free : c.mBackendsMtx = none) (hpc : pc.inside = true) (mtx : c'.mBackendsMtx = some i)
      (reg : c'.mBackends = c.mBackends)
  | keeps (hi : (c.pc i).inside = true) (hpc : pc.inside = true)
    (mtx : c'.mBackendsMtx = c.mBackendsMtx)
  | gives (hi : (c.pc i).inside = true) (hpc : pc.inside = false) (mtx : c'.mBackendsMtx = none)
      (reg : c'.mBackends = c.mBackends)

omit [DecidableEq ι] in
theorem Consistent.alone (h : Consistent reqs c) {pc : Pc} (hh : Holds c c' i pc) {j : ι}
    (hj : j ≠ i) (hin : (c.pc j).inside = true) :
    (c.pc i).inside = false ∧ c'.mBackendsMtx = c.mBackendsMtx := by
  have hmtx : c.mBackendsMtx = some j := (h.holder j).mp hin
  have hout : (c.pc i).inside ≠ true :=
    fun hi => hj (Option.some.inj (hmtx.symm.trans ((h.holder i).mp hi)))
  cases hh with
  | outside hi _ mtx => exact ⟨hi, mtx⟩
  | takes free => rw [hmtx] at free; cases free
  | keeps hi => exact absurd hi hout
  | gives hi => exact absurd hi hout

/-- **One step**, whatever it is, if it takes and gives back the mutex as it should. -/
theorem Consistent.moved (h : Consistent reqs c) {pc : Pc} (hpc : c'.pc = Function.update c.pc i pc)
    (hh : Holds c c' i pc) (hfits : Fits c'.mBackends (reqs i) pc) : Consistent reqs c' := by
  refine ⟨fun j => ?_, fun j => ?_⟩
  · rw [hpc]
    by_cases hj : j = i
    · subst hj
      rw [Function.update_self]
      cases hh with
      | outside hi hout mtx => rw [mtx, ← h.holder, hi, hout]
      | takes _ hin mtx => simp [hin, mtx]
      | keeps hi hin mtx => rw [mtx, ← h.holder, hi, hin]
      | gives _ hout mtx => simp [hout, mtx]
    · rw [Function.update_of_ne hj, h.holder]
      constructor
      · intro hmtx
        rw [(h.alone hh hj ((h.holder j).mpr hmtx)).2, hmtx]
      · intro hmtx
        cases hh with
        | outside _ _ mtx => rw [← mtx, hmtx]
        | takes _ _ mtx => exact absurd (Option.some.inj (hmtx.symm.trans mtx)) hj
        | keeps _ _ mtx => rw [← mtx, hmtx]
        | gives _ _ mtx => rw [mtx] at hmtx; cases hmtx
  · rw [hpc]
    by_cases hj : j = i
    · subst hj
      rw [Function.update_self]
      exact hfits
    · rw [Function.update_of_ne hj]
      cases hin : (c.pc j).inside with
      | false => exact fits_of_outside hin (h.fits j)
      | true =>
        -- the other thread has the mutex, so this one has not touched the map
        have hout : (c.pc i).inside = false := (h.alone hh hj hin).1
        have hreg : c'.mBackends = c.mBackends := by
          cases hh with
          | outside _ _ _ reg | takes _ _ _ reg | gives _ _ _ reg => exact reg
          | keeps hi => rw [hout] at hi; cases hi
        rw [hreg]
        exact h.fits j

theorem Consistent.goto (h : Consistent reqs c) {pc : Pc} (ho : (c.pc i).inside = pc.inside)
    (hfits : Fits c.mBackends (reqs i) pc) : Consistent reqs (c.goto i pc) := by
  refine h.moved rfl ?_ hfits
  cases hpc : pc.inside with
  | false => exact .outside (ho.trans hpc) hpc rfl rfl
  | true => exact .keeps (ho.trans hpc) hpc rfl

theorem Consistent.lock (h : Consistent reqs c) {pc : Pc} (hpc : pc.inside = true)
    (hfits : Fits c.mBackends (reqs i) pc) : Consistent reqs (c.lock i pc) := by
  unfold Locked.lock
  cases hmtx : c.mBackendsMtx with
  | none => exact h.moved rfl (.takes hmtx hpc rfl rfl) hfits
  | some j => exact h

theorem Consistent.unlock (h : Consistent reqs c) {pc : Pc} (hi : (c.pc i).inside = true)
    (hpc : pc.inside = false)
    (hfits : Fits c.mBackends (reqs i) pc) : Consistent reqs (c.unlock i pc) :=
  h.moved rfl (.gives hi hpc rfl rfl) hfits

theorem Consistent.build (h : Consistent reqs c) (hi : (c.pc i).inside = false) {id : UUID}
    (hd : drawn (reqs i) = some id) (x : Prepared α) : Consistent reqs (c.build i x) := by
  cases x with
  | refused error => exact h.goto hi trivial
  | escaped exit => exact h.goto hi trivial
  | built b => exact h.moved rfl (.outside hi rfl rfl rfl) ⟨id, hd⟩

theorem Consistent.prologue (h : Consistent reqs c) (hi : (c.pc i).inside = false) :
    Consistent reqs (c.prologue env i (reqs i)) := by
  cases hreq : reqs i with
  | createPhonebook token ty config id | openPhonebook token ty config id =>
    exact h.build hi (by rw [hreq]; rfl) _
  | closePhonebook token id | destroyPhonebook token id =>
    dsimp only [Locked.prologue]
    split_ifs
    · exact h.goto hi trivial
    · refine h.goto hi ?_
      rw [hreq]
      rfl
  | checkPhonebook id | sayHello id | computeSum id x y =>
    refine h.goto hi ?_
    rw [hreq]
    rfl

theorem Consistent.find (h : Consistent reqs c) (hi : (c.pc i).inside = true)
    (hd : drawn (reqs i) = none) (hr : removes (reqs i) = none) (id : UUID)
    (send : String → Response) :
    Consistent reqs (c.find env i id send) := by
  unfold Locked.find
  cases c.mBackends.lookup id with
  | none => exact h.goto hi hd
  | some o => exact h.moved rfl (.keeps hi rfl rfl) ⟨hd, hr⟩

theorem Consistent.count (h : Consistent reqs c) (hi : (c.pc i).inside = true)
    (hd : drawn (reqs i) = none) {id : UUID} {pc : Pc} (hpc : pc.inside = true)
    (hfits : ∀ o, c.mBackends.lookup id = some o → Fits c.mBackends (reqs i) pc) :
    Consistent reqs (c.count env i id pc) := by
  unfold Locked.count
  cases hl : c.mBackends.lookup id with
  | none => exact h.goto hi hd
  | some o => exact h.goto (hi.trans hpc.symm) (hfits o hl)

theorem Consistent.look (h : Consistent reqs c) (hi : (c.pc i).inside = true)
    (hd : drawn (reqs i) = none) :
    Consistent reqs (c.look env i (reqs i)) := by
  cases hreq : reqs i with
  | createPhonebook | openPhonebook => exact h
  | closePhonebook token id =>
    exact h.count hi hd rfl fun o ho => ⟨token, id, o, hreq, ho⟩
  | destroyPhonebook token id =>
    exact h.count hi hd rfl fun o ho => ⟨token, id, o, hreq, ho⟩
  | checkPhonebook id | sayHello id | computeSum id x y =>
    rw [Locked.look]
    exact h.find hi hd (by rw [hreq]; rfl) _ _

theorem Consistent.destroy (h : Consistent reqs c) (hi : (c.pc i).inside = true) {token : String}
    {id : UUID} {o : Ref} (hreq : reqs i = .destroyPhonebook token id)
    (hl : c.mBackends.lookup id = some o) :
    Consistent reqs (c.destroy env i (reqs i)) := by
  rw [hreq]
  dsimp only [Locked.destroy]
  rw [hl]
  dsimp only
  rcases c.heap[o]? with _ | b
  · exact h
  dsimp only
  rcases env.ops.destroy b.derived with ⟨result | e | _, d⟩
  · exact h.moved rfl (.keeps hi rfl rfl) ⟨token, id, hreq⟩
  · exact h.moved rfl (.keeps hi rfl rfl) trivial
  · exact h.moved rfl (.keeps hi rfl rfl) trivial

/-- **One step** of any thread. -/
theorem Consistent.step (h : Consistent reqs c) (i : ι) : Consistent reqs (c.step env i reqs) := by
  have hfits := h.fits i
  unfold Locked.step
  cases hpc : c.pc i with
  | idle => exact h.moved rfl (.outside (by rw [hpc]; rfl) rfl rfl rfl) trivial
  | received => exact h.prologue (by rw [hpc]; rfl)
  | built o =>
    rw [hpc] at hfits
    exact h.lock rfl hfits
  | ready =>
    rw [hpc] at hfits
    exact h.lock rfl hfits
  | inserting o =>
    cases hreq : reqs i with
    | createPhonebook | openPhonebook =>
      exact h.moved rfl (.keeps (by rw [hpc]; rfl) rfl rfl) trivial
    | closePhonebook | destroyPhonebook | checkPhonebook | sayHello | computeSum => exact h
  | looking =>
    rw [hpc] at hfits
    exact h.look (by rw [hpc]; rfl) hfits
  | closing =>
    rw [hpc] at hfits
    obtain ⟨token, id, o, hreq, hl⟩ := hfits
    simp only [Locked.close, hreq, hl]
    exact h.moved rfl (.keeps (by rw [hpc]; rfl) rfl rfl) trivial
  | destroying =>
    rw [hpc] at hfits
    obtain ⟨token, id, o, hreq, hl⟩ := hfits
    exact h.destroy (by rw [hpc]; rfl) hreq hl
  | erasing out =>
    rw [hpc] at hfits
    obtain ⟨token, id, hreq⟩ := hfits
    simp only [Locked.erase, hreq]
    exact h.moved rfl (.keeps (by rw [hpc]; rfl) rfl rfl) trivial
  | refusing out =>
    rw [hpc] at hfits
    exact h.moved rfl (.keeps (by rw [hpc]; rfl) rfl rfl) hfits
  | refused out => exact h.unlock (by rw [hpc]; rfl) rfl trivial
  | copied o =>
    rw [hpc] at hfits
    cases hreq : reqs i with
    | createPhonebook | openPhonebook => rw [hreq] at hfits; cases hfits.1
    | closePhonebook | destroyPhonebook => rw [hreq] at hfits; cases hfits.2
    | checkPhonebook id => exact h.unlock (by rw [hpc]; rfl) rfl trivial
    | sayHello id => exact h.unlock (by rw [hpc]; rfl) rfl (Or.inl ⟨id, hreq⟩)
    | computeSum id x y => exact h.unlock (by rw [hpc]; rfl) rfl (Or.inr ⟨id, x, y, hreq⟩)
  | leaving out => exact h.unlock (by rw [hpc]; rfl) rfl trivial
  | found o =>
    rcases hb : c.heap[o]? with _ | b <;> simp only [Locked.call, hb]
    · exact h
    · exact h.moved rfl (.outside (by rw [hpc]; rfl) rfl rfl rfl) trivial
  | replying phonebook out => exact h.moved rfl (.outside (by rw [hpc]; rfl) rfl rfl rfl) trivial
  | answered out => exact h

omit [DecidableEq ι] in
theorem consistent_start (mToken : String) (s : Store α) :
    Consistent reqs (.start mToken s : Locked ι α) :=
  ⟨fun i => by simp [Locked.start, Pc.inside], fun _ => trivial⟩

theorem consistent_run (env : Env α) (reqs : ι → Request) (mToken : String) (s : Store α)
    (schedule : List ι) :
    Consistent reqs (lockedRun env reqs (.start mToken s) schedule) :=
  exec_induction (fun c i => Locked.step env c i reqs) (P := Consistent reqs)
    (consistent_start mToken s)
    (fun _ i h => h.step i) schedule

/-- **Mutual exclusion.** Whatever the schedule, two threads are never both between the constructor
and the destructor of their `lock_guard`s, and while one thread is between the call of `destroy` and
the two lookups around it the entry stays where it was. -/
theorem mutual_exclusion (env : Env α) (reqs : ι → Request) (mToken : String) (s : Store α)
    (schedule : List ι) :
    (∀ i j, ((lockedRun env reqs (.start mToken s) schedule).pc i).inside = true →
      ((lockedRun env reqs (.start mToken s) schedule).pc j).inside = true → i = j) ∧
    ∀ i token id, reqs i = .destroyPhonebook token id →
      (lockedRun env reqs (.start mToken s) schedule).pc i = .destroying →
        ∃ o, (lockedRun env reqs (.start mToken s) schedule).mBackends.lookup id = some o := by
  have h := consistent_run env reqs mToken s schedule
  refine ⟨fun i j hi hj => ?_, fun i token id hreq hpc => ?_⟩
  · exact Option.some.inj (((h.holder i).mp hi).symm.trans ((h.holder j).mp hj))
  · have hfits := h.fits i
    rw [hpc] at hfits
    obtain ⟨token', id', o, hreq', hl⟩ := hfits
    cases hreq.symm.trans hreq'
    exact ⟨o, hl⟩

/-! ### Sections under the lock are single steps -/

/-- Where the thread stands for those who see sections under the lock as one step. -/
def phaseOf (r : Request) : Pc → Phase
  | .idle => .idle
  | .received => .received
  | .built o | .inserting o => .built o
  | .ready | .looking | .closing | .destroying => .ready
  | .erasing out | .refusing out | .leaving out | .replying _ out => .replying out
  | .refused out | .answered out => .answered out
  | .copied o =>
    match r with
    | .checkPhonebook _ => .replying ([.bool .init], .returns ())
    | _ => .found o
  | .found o => .found o

/-- The entry that a thread between `destroy` and `erase` is about to erase. -/
def doomed (r : Request) : Pc → Option UUID
  | .erasing _ => (removes r).map Prod.snd
  | _ => none

/-- The map without the entry that the holder of the mutex is about to erase. -/
def registry (reqs : ι → Request) (c : Locked ι α) : Finmap fun _ : UUID => Ref :=
  match c.mBackendsMtx.bind fun i => doomed (reqs i) (c.pc i) with
  | none => c.mBackends
  | some id => c.mBackends.erase id

/-- The threads with their sections under the lock as one step each. -/
def pool (reqs : ι → Request) (c : Locked ι α) : Pool ι α :=
  ⟨c.mToken, registry reqs c, c.heap, fun i => phaseOf (reqs i) (c.pc i), c.history, c.log⟩

omit [DecidableEq ι] in
theorem registry_of_free (h : c.mBackendsMtx = none) : registry reqs c = c.mBackends := by
  rw [registry, h]
  rfl

omit [DecidableEq ι] in
theorem registry_of_holder (h : c.mBackendsMtx = some i) (hd : doomed (reqs i) (c.pc i) = none) :
    registry reqs c = c.mBackends := by
  rw [registry, h, Option.bind_some, hd]

theorem phase_update (pc : ι → Pc) (i : ι) (x : Pc) :
    (fun j => phaseOf (reqs j) (Function.update pc i x j)) =
      Function.update (fun j => phaseOf (reqs j) (pc j)) i (phaseOf (reqs i) x) := by
  funext j
  by_cases hj : j = i
  · subst hj
    rw [Function.update_self, Function.update_self]
  · rw [Function.update_of_ne hj, Function.update_of_ne hj]

theorem registry_of_outside (c' : Locked ι α) (h : Consistent reqs c) (hi : (c.pc i).inside = false)
    {pc : Pc} (hpc : c'.pc = Function.update c.pc i pc) (hmtx : c'.mBackendsMtx = c.mBackendsMtx)
    (hreg : c'.mBackends = c.mBackends) : registry reqs c' = registry reqs c := by
  have hsame : (c'.mBackendsMtx.bind fun j => doomed (reqs j) (c'.pc j)) =
      c.mBackendsMtx.bind fun j => doomed (reqs j) (c.pc j) := by
    rw [hmtx, hpc]
    cases hh : c.mBackendsMtx with
    | none => rfl
    | some j =>
      have hne : j ≠ i := by
        rintro rfl
        rw [(h.holder j).mpr hh] at hi
        cases hi
      rw [Option.bind_some, Option.bind_some, Function.update_of_ne hne]
  rw [registry, registry, hsame, hreg]

theorem pool_moved (c c' : Locked ι α) (i : ι) (pc : Pc) (hpc : c'.pc = Function.update c.pc i pc)
    (htoken : c'.mToken = c.mToken) {m : Finmap fun _ : UUID => Ref} (hreg : registry reqs c' = m) :
    pool reqs c' = ⟨c.mToken, m, c'.heap, Function.update (pool reqs c).phase i
      (phaseOf (reqs i) pc), c'.history,
      c'.log⟩ := by
  rw [pool, hreg, htoken, hpc, phase_update]
  rfl

theorem pool_stayed (c' : Locked ι α) {pc : Pc} (hpc : c'.pc = Function.update c.pc i pc)
    (htoken : c'.mToken = c.mToken) (hheap : c'.heap = c.heap) (hhistory : c'.history = c.history)
    (hlog : c'.log = c.log) (hphase : phaseOf (reqs i) pc = phaseOf (reqs i) (c.pc i))
    (hreg : registry reqs c' = registry reqs c) :
    pool reqs c' = pool reqs c := by
  rw [pool_moved c c' i pc hpc htoken hreg, hphase, hheap, hhistory, hlog]
  have hsame :
    Function.update (pool reqs c).phase i (phaseOf (reqs i) (c.pc i)) = (pool reqs c).phase :=
    Function.update_eq_self i _
  rw [hsame]
  rfl

omit [DecidableEq ι] in
theorem pool_phase {pc : Pc} (hpc : c.pc i = pc) : (pool reqs c).phase i = phaseOf (reqs i) pc := by
  rw [← hpc]
  rfl

theorem pool_goto (h : Consistent reqs c) (hi : (c.pc i).inside = false) (pc : Pc) :
    pool reqs (c.goto i pc) = (pool reqs c).goto i (phaseOf (reqs i) pc) := by
  have hreg : registry reqs (c.goto i pc) = registry reqs c :=
    registry_of_outside (c.goto i pc) h hi rfl rfl rfl
  exact pool_moved c (c.goto i pc) i pc rfl rfl hreg

theorem pool_build (h : Consistent reqs c) (hi : (c.pc i).inside = false) (x : Prepared α) :
    pool reqs (c.build i x) = (pool reqs c).build i x := by
  cases x with
  | refused error => exact pool_goto h hi _
  | escaped exit => exact pool_goto h hi _
  | built b =>
    have hreg : registry reqs (c.build i (.built b)) = registry reqs c :=
      registry_of_outside (c.build i (.built b)) h hi rfl rfl rfl
    exact pool_moved c (c.build i (.built b)) i (.built c.heap.length) rfl rfl hreg

theorem pool_prologue (h : Consistent reqs c) (hi : (c.pc i).inside = false) :
    pool reqs (c.prologue env i (reqs i)) = (pool reqs c).prologue env i (reqs i) := by
  cases hreq : reqs i with
  | createPhonebook | openPhonebook => exact pool_build h hi _
  | closePhonebook token id | destroyPhonebook token id =>
    dsimp only [Locked.prologue, Pool.prologue]
    rw [show (pool reqs c).mToken = c.mToken from rfl]
    split_ifs
    · exact pool_goto h hi _
    · exact pool_goto h hi _
  | checkPhonebook | sayHello | computeSum => exact pool_goto h hi _

theorem pool_goto_self {ph : Phase} (hph : ph = phaseOf (reqs i) (c.pc i)) :
    (pool reqs c).goto i ph = pool reqs c := by
  have hsame : Function.update (pool reqs c).phase i ph = (pool reqs c).phase := by
    rw [hph]
    exact Function.update_eq_self i _
  rw [Pool.goto, hsame]

theorem pool_lock {pc : Pc} (hphase : phaseOf (reqs i) pc = phaseOf (reqs i) (c.pc i))
    (hd : doomed (reqs i) pc = none) : pool reqs (c.lock i pc) = pool reqs c := by
  rcases hmtx : c.mBackendsMtx with _ | j <;> simp only [Locked.lock, hmtx]
  refine pool_stayed _ rfl rfl rfl rfl rfl hphase ?_
  rw [registry_of_free hmtx]
  refine registry_of_holder rfl ?_
  show doomed (reqs i) (Function.update c.pc i pc i) = none
  rw [Function.update_self, hd]

section Inside
variable (h : Consistent reqs c) (hi : (c.pc i).inside = true)
include h hi

theorem registry_inside (c' : Locked ι α) (pc : Pc) (hpc : c'.pc = Function.update c.pc i pc)
    (hmtx : c'.mBackendsMtx = c.mBackendsMtx) (hd : doomed (reqs i) pc = none) :
    registry reqs c' = c'.mBackends := by
  refine registry_of_holder (hmtx.trans ((h.holder i).mp hi)) ?_
  rw [hpc, Function.update_self, hd]

theorem pool_unlock {pc : Pc} (hphase : phaseOf (reqs i) pc = phaseOf (reqs i) (c.pc i))
    (hd : doomed (reqs i) (c.pc i) = none) : pool reqs (c.unlock i pc) = pool reqs c := by
  refine pool_stayed _ rfl rfl rfl rfl rfl hphase ?_
  rw [registry_of_holder ((h.holder i).mp hi) hd]
  exact registry_of_free rfl

theorem pool_goto_inside (pc : Pc) (hd : doomed (reqs i) (c.pc i) = none)
    (hpc : doomed (reqs i) pc = none) :
    pool reqs (c.goto i pc) = (pool reqs c).goto i (phaseOf (reqs i) pc) := by
  have hreg : registry reqs (c.goto i pc) = registry reqs c := by
    rw [registry_inside h hi (c.goto i pc) pc rfl rfl hpc]
    exact (registry_of_holder ((h.holder i).mp hi) hd).symm
  exact pool_moved c (c.goto i pc) i pc rfl rfl hreg

theorem pool_find (hd : doomed (reqs i) (c.pc i) = none) (id : UUID) (send : String → Response)
    (next : Ref → Phase) (hnext : ∀ o, phaseOf (reqs i) (.copied o) = next o) :
    pool reqs (c.find env i id send) = (pool reqs c).find env i id send next := by
  have hreg : (pool reqs c).mBackends = c.mBackends := registry_of_holder ((h.holder i).mp hi) hd
  rcases hl : c.mBackends.lookup id with _ | o
  · rw [Pool.find_unknown env (hreg ▸ hl)]
    simp only [Locked.find, hl]
    exact pool_goto_inside h hi _ hd rfl
  · rw [Pool.find_known env (hreg ▸ hl)]
    simp only [Locked.find, hl]
    let c' : Locked ι α := { c.goto i (.copied o) with log := c.log ++ [.lookup i o] }
    have hafter : registry reqs c' = (pool reqs c).mBackends := by
      rw [registry_inside h hi c' (.copied o) rfl rfl rfl]
      exact hreg.symm
    rw [pool_moved c c' i (.copied o) rfl rfl hafter, hnext]
    rfl

theorem pool_refused (hd : doomed (reqs i) (c.pc i) = none) (out : Outcome) :
    pool reqs (c.goto i (.refusing out)) = (pool reqs c).goto i (.replying out) :=
  pool_goto_inside h hi (.refusing out) hd rfl

theorem pool_close {token : String} {id : UUID} {o : Ref} (hreq : reqs i = .closePhonebook token id)
    (hd : doomed (reqs i) (c.pc i) = none) (hl : c.mBackends.lookup id = some o) :
    pool reqs (c.close i (reqs i)) = (pool reqs c).close env i id := by
  have hreg : (pool reqs c).mBackends = c.mBackends := registry_of_holder ((h.holder i).mp hi) hd
  rw [Pool.close_known env (hreg ▸ hl)]
  simp only [Locked.close, hreq, hl]
  let c' : Locked ι α :=
    { c.goto i (.leaving ([.bool .init], .returns ())) with
      mBackends := c.mBackends.erase id, log := c.log ++ [.erase i o] }
  have hafter : registry reqs c' = (pool reqs c).mBackends.erase id := by
    rw [hreg]
    exact registry_inside h hi c' (.leaving ([.bool .init], .returns ())) rfl rfl rfl
  exact pool_moved c c' i (.leaving ([.bool .init], .returns ())) rfl rfl hafter

theorem pool_destroy {token : String} {id : UUID} {o : Ref}
    (hreq : reqs i = .destroyPhonebook token id) (hd : doomed (reqs i) (c.pc i) = none)
    (hl : c.mBackends.lookup id = some o) :
    pool reqs (c.destroy env i (reqs i)) = (pool reqs c).destroy env i id := by
  have hreg : (pool reqs c).mBackends = c.mBackends := registry_of_holder ((h.holder i).mp hi) hd
  have hl' : (pool reqs c).mBackends.lookup id = some o := hreg ▸ hl
  rcases hb : c.heap[o]? with _ | b
  · simp only [Locked.destroy, Pool.destroy, hreq, hl, hl', hb,
      show (pool reqs c).heap = c.heap from rfl]
  rcases hdes : env.ops.destroy b.derived with ⟨result | e | _, d⟩
  · rw [Pool.destroy_returned env hl' hb hdes]
    simp only [Locked.destroy, hreq, hl, hb, hdes]
    let c' : Locked ι α :=
      { c.goto i (.erasing ([.bool result], .returns ())) with
        heap := c.heap.set o { b with derived := d }, log := c.log ++ [.destroy i o true] }
    -- what the map will be after the `erase` is what it is seen to be now
    have hafter : registry reqs c' = (pool reqs c).mBackends.erase id := by
      have hmtx : c'.mBackendsMtx = some i := (h.holder i).mp hi
      have hpc : c'.pc i = .erasing ([.bool result], .returns ()) := Function.update_self ..
      rw [registry, hmtx, Option.bind_some, hpc, hreq, hreg]
      rfl
    exact pool_moved c c' i (.erasing ([.bool result], .returns ())) rfl rfl hafter
  · rw [Pool.destroy_threw env hl' hb hdes]
    simp only [Locked.destroy, hreq, hl, hb, hdes]
    let c' : Locked ι α :=
      { c.goto i (.leaving ([], .throws e)) with
        heap := c.heap.set o { b with derived := d }, log := c.log ++ [.destroy i o false] }
    have hafter : registry reqs c' = (pool reqs c).mBackends := by
      rw [hreg]
      exact registry_inside h hi c' (.leaving ([], .throws e)) rfl rfl rfl
    exact pool_moved c c' i (.leaving ([], .throws e)) rfl rfl hafter
  · rw [Pool.destroy_undefined env hl' hb hdes]
    simp only [Locked.destroy, hreq, hl, hb, hdes]
    let c' : Locked ι α :=
      { c.goto i (.leaving ([], .undefined)) with
        heap := c.heap.set o { b with derived := d }, log := c.log ++ [.destroy i o false] }
    have hafter : registry reqs c' = (pool reqs c).mBackends := by
      rw [hreg]
      exact registry_inside h hi c' (.leaving ([], .undefined)) rfl rfl rfl
    exact pool_moved c c' i (.leaving ([], .undefined)) rfl rfl hafter

theorem pool_erase {token : String} {id : UUID} {out : Outcome}
    (hreq : reqs i = .destroyPhonebook token id)
    (hpc : c.pc i = .erasing out) : pool reqs (c.erase i out (reqs i)) = pool reqs c := by
  simp only [Locked.erase, hreq]
  let c' : Locked ι α := { c.goto i (.leaving out) with mBackends := c.mBackends.erase id }
  have hreg : registry reqs c' = registry reqs c := by
    rw [registry_inside h hi c' (.leaving out) rfl rfl rfl, registry, (h.holder i).mp hi,
      Option.bind_some, hpc, hreq]
    rfl
  exact pool_stayed c' rfl rfl rfl rfl rfl (by rw [hpc]; rfl) hreg

theorem pool_insert (o : Ref) (hd : doomed (reqs i) (c.pc i) = none) :
    pool reqs (c.insert i o (reqs i)) = (pool reqs c).insert i o (reqs i) := by
  have hreg : (pool reqs c).mBackends = c.mBackends := registry_of_holder ((h.holder i).mp hi) hd
  cases hreq : reqs i with
  | createPhonebook token ty config id | openPhonebook token ty config id =>
    let c' : Locked ι α :=
      { c.goto i (.leaving ([added id], .returns ())) with
        mBackends := c.mBackends.insert id o, log := c.log ++ [.insert i o] }
    have hafter : registry reqs c' = (pool reqs c).mBackends.insert id o := by
      rw [hreg]
      exact registry_inside h hi c' (.leaving ([added id], .returns ())) rfl rfl rfl
    exact pool_moved c c' i (.leaving ([added id], .returns ())) rfl rfl hafter
  | closePhonebook | destroyPhonebook | checkPhonebook | sayHello | computeSum => rfl

/-- The first look is seen as the section if it failed or found what `FIND_PHONEBOOK` looks for, and
not at all if the entry is still to be removed. -/
theorem pool_look (hpc : c.pc i = .looking) :
    pool reqs (c.look env i (reqs i)) = pool reqs c ∨
      pool reqs (c.look env i (reqs i)) = (pool reqs c).lockedSection env i (reqs i) := by
  have hd : doomed (reqs i) (c.pc i) = none := by rw [hpc]; rfl
  have hreg : (pool reqs c).mBackends = c.mBackends := registry_of_holder ((h.holder i).mp hi) hd
  cases hreq : reqs i with
  | createPhonebook | openPhonebook => exact Or.inl rfl
  | closePhonebook token id =>
    dsimp only [Locked.look, Locked.count, Pool.lockedSection]
    rcases hl : c.mBackends.lookup id with _ | o
    · right
      rw [Pool.close_unknown env (hreg ▸ hl)]
      exact pool_refused h hi hd _
    · left
      rw [pool_goto_inside h hi .closing hd rfl]
      exact pool_goto_self (by rw [hpc]; rfl)
  | destroyPhonebook token id =>
    dsimp only [Locked.look, Locked.count, Pool.lockedSection]
    rcases hl : c.mBackends.lookup id with _ | o
    · right
      rw [Pool.destroy_unknown env (hreg ▸ hl)]
      exact pool_refused h hi hd _
    · left
      rw [pool_goto_inside h hi .destroying hd rfl]
      exact pool_goto_self (by rw [hpc]; rfl)
  | checkPhonebook id | sayHello id | computeSum id x y =>
    right
    exact pool_find h hi hd id _ _ fun o => by rw [hreq]; rfl

end Inside

theorem pool_call (h : Consistent reqs c) (hi : (c.pc i).inside = false) (o : Ref) (r : Request) :
    pool reqs (c.call env i o r) = (pool reqs c).call env i o r := by
  rcases hb : c.heap[o]? with _ | b
  · simp only [Locked.call, Pool.call, hb, show (pool reqs c).heap = c.heap from rfl]
  simp only [Locked.call, Pool.call, hb, show (pool reqs c).heap = c.heap from rfl]
  let c' : Locked ι α :=
    { c.goto i (.replying (some o) (callBackend env r b.derived).1) with
      heap := c.heap.set o { b with derived := (callBackend env r b.derived).2 }
      log := c.log ++ [.call i o] }
  have hreg : registry reqs c' = registry reqs c := registry_of_outside c' h hi rfl rfl rfl
  exact pool_moved c c' i (.replying (some o) (callBackend env r b.derived).1) rfl rfl hreg

/-- **One step** of any thread is a step of the same thread among the sections, or none. -/
theorem pool_follows (env : Env α) (h : Consistent reqs c) (i : ι) :
    pool reqs (c.step env i reqs) = pool reqs c ∨
      pool reqs (c.step env i reqs) = (pool reqs c).step env i reqs := by
  have hfits := h.fits i
  unfold Locked.step Pool.step
  cases hpc : c.pc i with
  | idle =>
    right
    rw [pool_phase hpc]
    have hreg := registry_of_outside (c.receive i) h (by rw [hpc]; rfl) rfl rfl rfl
    exact pool_moved c (c.receive i) i .received rfl rfl hreg
  | received =>
    right
    rw [pool_phase hpc]
    exact pool_prologue h (by rw [hpc]; rfl)
  | built o => exact Or.inl (pool_lock (by rw [hpc]; rfl) rfl)
  | ready => exact Or.inl (pool_lock (by rw [hpc]; rfl) rfl)
  | inserting o =>
    right
    rw [pool_phase hpc]
    exact pool_insert h (by rw [hpc]; rfl) o (by rw [hpc]; rfl)
  | looking =>
    rw [pool_phase hpc]
    exact pool_look h (by rw [hpc]; rfl) hpc
  | closing =>
    right
    rw [hpc] at hfits
    obtain ⟨token, id, o, hreq, hl⟩ := hfits
    rw [pool_phase hpc]
    show _ = (pool reqs c).lockedSection env i (reqs i)
    rw [pool_close h (by rw [hpc]; rfl) hreq (by rw [hpc]; rfl) hl, hreq]
    rfl
  | destroying =>
    right
    rw [hpc] at hfits
    obtain ⟨token, id, o, hreq, hl⟩ := hfits
    rw [pool_phase hpc]
    show _ = (pool reqs c).lockedSection env i (reqs i)
    rw [pool_destroy h (by rw [hpc]; rfl) hreq (by rw [hpc]; rfl) hl, hreq]
    rfl
  | erasing out =>
    rw [hpc] at hfits
    obtain ⟨token, id, hreq⟩ := hfits
    exact Or.inl (pool_erase h (by rw [hpc]; rfl) hreq hpc)
  | refusing out =>
    right
    rw [pool_phase hpc]
    have hreg : registry reqs (c.answer i (.refused out) out) = registry reqs c := by
      rw [registry_inside h (by rw [hpc]; rfl) (c.answer i (.refused out) out)
        (.refused out) rfl rfl rfl]
      exact (registry_of_holder ((h.holder i).mp (by rw [hpc]; rfl)) (by rw [hpc]; rfl)).symm
    exact pool_moved c (c.answer i (.refused out) out) i (.refused out) rfl rfl hreg
  | refused out =>
    exact Or.inl (pool_unlock h (by rw [hpc]; rfl) (by rw [hpc]; rfl) (by rw [hpc]; rfl))
  | copied o =>
    refine Or.inl (pool_unlock h (by rw [hpc]; rfl) ?_ (by rw [hpc]; rfl))
    rw [hpc]
    cases reqs i <;> rfl
  | leaving out =>
    exact Or.inl (pool_unlock h (by rw [hpc]; rfl) (by rw [hpc]; rfl) (by rw [hpc]; rfl))
  | found o =>
    right
    rw [pool_phase hpc]
    exact pool_call h (by rw [hpc]; rfl) o (reqs i)
  | replying phonebook out =>
    right
    rw [pool_phase hpc]
    have hreg :=
      registry_of_outside (c.answer i (.answered out) out) h (by rw [hpc]; rfl) rfl rfl rfl
    exact pool_moved c (c.answer i (.answered out) out) i (.answered out) rfl rfl hreg
  | answered out => exact Or.inl rfl

theorem pool_refines (env : Env α) (reqs : ι → Request) :
    Refines (fun c i => Locked.step env c i reqs) (fun c i => Pool.step env c i reqs)
      (Consistent reqs) (pool reqs) :=
  ⟨fun _ i h => h.step i, fun _ i h => pool_follows env h i⟩

/-- **Sections under the lock are atomic.** Whatever the schedule, the threads that lock and unlock
`m_backends_mtx` statement by statement receive and answer the same requests in the same order, with
the same outcomes, and do the same to the registry and the objects, as threads whose sections are
single steps do on some part of the schedule; and whenever the mutex is free the registry is the
same. -/
theorem sections_atomic (env : Env α) (reqs : ι → Request) (mToken : String) (s : Store α)
    (schedule : List ι) :
    ∃ schedule', schedule'.Sublist schedule ∧
      let c := lockedRun env reqs (.start mToken s) schedule
      let c' := run env reqs (.start mToken s) schedule'
      c.history = c'.history ∧ c.log = c'.log ∧ c.heap = c'.heap ∧
        (c.mBackendsMtx = none → c.mBackends = c'.mBackends) := by
  obtain ⟨schedule', hsub, hmap⟩ :=
    (pool_refines env reqs).run (consistent_start mToken s) schedule
  refine ⟨schedule', hsub, ?_⟩
  have hpool : pool reqs (lockedRun env reqs (.start mToken s) schedule) =
    run env reqs (.start mToken s) schedule' :=
    hmap
  refine ⟨congrArg Pool.history hpool, congrArg Pool.log hpool, congrArg Pool.heap hpool,
    fun hfree => ?_⟩
  rw [← registry_of_free hfree]
  exact congrArg Pool.mBackends hpool

end Phonebook.Server.Locking
