import Mathlib.Data.Fintype.Sum
import Mathlib.Tactic.DeriveFintype
import Phonebook.Lib.Runs
import Phonebook.Lib.SharedPtr
import Phonebook.Data.Values

/-! # Asynchronous requests

`AsyncRequest` objects share the `AsyncRequestImpl` of a request. A client program has finitely many
variables of that type; while it issues a request there are two more holders, the local
`async_request_impl` of `computeSum` and the temporary that is moved into the variable. A request is
waited for explicitly or when its last object goes or is assigned to; the first wait runs the
callback, which consumes the response and writes the value or throws. What happens to the responses
is logged. -/

namespace Phonebook.Client.AsyncRequest

open Phonebook.Data.Values Phonebook.Lib.Runs Phonebook.Lib.SharedPtr

/-- A request, numbered in the order of issue. -/
abbrev Ref := ℕ

/-- `AsyncRequestImpl`: the response the pending `async_response` will turn out to be, whether its
`wait` was called, `m_waited`, and the result pointer the callback captured. -/
structure AsyncRequestImpl (P : Type) where
  response : RequestResult Int32
  consumed : Bool
  mWaited : Bool
  result : Option P

/-- What happens to a request: its callback runs, `wait` or `received` is called on its
`async_response`, or a value is written through its result pointer. -/
inductive Event (P : Type) where
  | callback (r : Ref)
  | wait (r : Ref)
  | received (r : Ref)
  | write (r : Ref) (p : P) (value : Option Int32)
deriving DecidableEq

/-- The holders of a shared pointer to an `AsyncRequestImpl`. -/
inductive Holder (V : Type) where
  | variable (v : V)
  | temporary
  | asyncRequestImpl
deriving DecidableEq, Fintype

/-- Whether the program still runs: an exception that leaves a destructor terminates it. -/
inductive Fate where
  | running
  | terminated
  | undefined
deriving DecidableEq

/-- A client program: the pointers, which variables are declared, the requests issued and the
log. -/
structure Program (V P : Type) where
  self : Holder V → Option Ref
  declared : V → Bool
  heap : List (AsyncRequestImpl P)
  log : List (Event P)
  fate : Fate

variable {V P : Type} [Fintype V] [DecidableEq V]

namespace Program

/-- Before the first declaration. -/
def start : Program V P := ⟨fun _ => none, fun _ => false, [], [], .running⟩

variable (s : Program V P)

/-- The pointer of a holder is overwritten. -/
def put (h : Holder V) (x : Option Ref) : Program V P :=
  { s with self := Function.update s.self h x }

/-- The `m_wait_callback` that `computeSum` installs. A second `wait` on the response is
undefined. -/
def waitCallback (r : Ref) (impl : AsyncRequestImpl P) : Program V P × Cpp Unit :=
  let s := { s with log := s.log ++ [.callback r, .wait r] }
  if impl.consumed then (s, .undefined)
  else
    let s := { s with heap := s.heap.set r { impl with consumed := true } }
    if impl.response.success then
      match impl.result with
      | some p => ({ s with log := s.log ++ [.write r p impl.response.value] }, .returns ())
      | none => (s, .returns ())
    else (s, .throws (.stdException impl.response.error))

/-- `AsyncRequest::wait`; `m_waited` is set after the callback, unless it throws. -/
def wait (h : Holder V) : Program V P × Cpp Unit :=
  match s.self h with
  | none => (s, .throws (.stdException "Invalid yp::AsyncRequest object"))
  | some r =>
    match s.heap[r]? with
    | none => (s, .undefined)
    | some impl =>
      if impl.mWaited then (s, .returns ())
      else
        match s.waitCallback r impl with
        | (s, .returns ()) =>
          ({ s with heap := s.heap.set r { impl with consumed := true, mWaited := true } },
            .returns ())
        | (s, exit) => (s, exit)

/-- `AsyncRequest::completed`, with the answer of `received`, which looks at `m_waited` nowhere. -/
def completed (h : Holder V) (arrived : Bool) : Program V P × Cpp Bool :=
  match s.self h with
  | none => (s, .throws (.stdException "Invalid yp::AsyncRequest object"))
  | some r =>
    match s.heap[r]? with
    | none => (s, .undefined)
    | some impl =>
      let s := { s with log := s.log ++ [.received r] }
      if impl.consumed then (s, .undefined) else (s, .returns arrived)

/-- `if(self && self.unique()) wait();` -/
def waitIfUnique (h : Holder V) : Program V P × Cpp Unit :=
  if Unique s.self h then s.wait h else (s, .returns ())

/-- `AsyncRequest::~AsyncRequest`, which is `noexcept`. -/
def destruct (h : Holder V) : Program V P :=
  match s.waitIfUnique h with
  | (s, .returns ()) => s.put h none
  | (s, .throws _) => { s with fate := .terminated }
  | (s, .undefined) => { s with fate := .undefined }

/-- `AsyncRequest::operator=(const AsyncRequest&)`. -/
def copyAssign (h other : Holder V) : Program V P × Cpp Unit :=
  if h = other ∨ s.self h = s.self other then (s, .returns ())
  else
    match s.waitIfUnique h with
    | (s, .returns ()) => (s.put h (s.self other), .returns ())
    | (s, exit) => (s, exit)

/-- `AsyncRequest::operator=(AsyncRequest&&)`. -/
def moveAssign (h other : Holder V) : Program V P × Cpp Unit :=
  if h = other ∨ s.self h = s.self other then (s, .returns ())
  else
    match s.waitIfUnique h with
    | (s, .returns ()) => ((s.put h (s.self other)).put other none, .returns ())
    | (s, exit) => (s, exit)

/-- The asynchronous branch of `PhonebookHandle::computeSum` on a valid handle, with the response
the request will get. The constructor of the temporary copies the local pointer, which lives on
until the end. -/
def computeSum (req : V) (response : RequestResult Int32) (result : Option P) :
    Program V P × Cpp Unit :=
  let r := s.heap.length
  let s : Program V P := { s with heap := s.heap ++ [⟨response, false, false, result⟩] }
  let s := s.put .asyncRequestImpl (some r)
  let s := s.put .temporary (some r)
  let (s, exit) := s.moveAssign (.variable req) .temporary
  let s := s.destruct .temporary
  (s.put .asyncRequestImpl none, exit)

/-- A variable comes into being. -/
def declare (v : V) (x : Option Ref) : Program V P :=
  { s.put (.variable v) x with declared := Function.update s.declared v true }

end Program

/-! ### Programs -/

/-- A statement of a client program. -/
inductive Op (V P : Type) where
  | construct (v : V)
  | copyConstruct (v other : V)
  | moveConstruct (v other : V)
  | copyAssign (v other : V)
  | moveAssign (v other : V)
  | computeSum (req : V) (response : RequestResult Int32) (result : Option P)
  | wait (v : V)
  | completed (v : V) (arrived : Bool)
  | destroy (v : V)

/-- The program goes on after the statement, its exceptions being caught, unless it is undefined. -/
def settle {β : Type} : Program V P × Cpp β → Program V P
  | (s, .undefined) => { s with fate := .undefined }
  | (s, _) => s

/-- The variables a statement needs to be declared, and those it declares. -/
def Op.Scoped (s : Program V P) : Op V P → Prop
  | .construct v => s.declared v = false
  | .copyConstruct v other | .moveConstruct v other =>
    s.declared v = false ∧ s.declared other = true
  | .copyAssign v other | .moveAssign v other => s.declared v = true ∧ s.declared other = true
  | .computeSum v _ _ | .wait v | .completed v _ | .destroy v => s.declared v = true

instance (s : Program V P) (o : Op V P) : Decidable (o.Scoped s) := by
  cases o <;> unfold Op.Scoped <;> infer_instance

/-- What a statement does. -/
def perform (s : Program V P) : Op V P → Program V P
  | .construct v => s.declare v none
  | .copyConstruct v other => s.declare v (s.self (.variable other))
  | .moveConstruct v other => (s.declare v (s.self (.variable other))).put (.variable other) none
  | .copyAssign v other => settle (s.copyAssign (.variable v) (.variable other))
  | .moveAssign v other => settle (s.moveAssign (.variable v) (.variable other))
  | .computeSum v response result => settle (s.computeSum v response result)
  | .wait v => settle (s.wait (.variable v))
  | .completed v arrived => settle (s.completed (.variable v) arrived)
  | .destroy v =>
    let s := s.destruct (.variable v)
    { s with declared := Function.update s.declared v false }

/-- One statement. One that the language would not accept there, and every one after the end of the
program, is passed over. -/
def step (s : Program V P) (o : Op V P) : Program V P :=
  if s.fate = .running ∧ o.Scoped s then perform s o else s

/-- The state after the statements. -/
def run (ops : List (Op V P)) : Program V P := exec step .start ops

/-! ### What the functions do -/

/-- The pointers point to requests that were issued. -/
def Valid (s : Program V P) : Prop := ∀ h r, s.self h = some r → r < s.heap.length

omit [Fintype V] [DecidableEq V] in
theorem Valid.object {s : Program V P} (hv : Valid s) {h : Holder V} {r : Ref}
    (hp : s.self h = some r) :
    ∃ impl, s.heap[r]? = some impl := ⟨_, List.getElem?_eq_getElem (hv h r hp)⟩

/-- What the callback of a successful response writes. -/
def writes (r : Ref) (impl : AsyncRequestImpl P) : List (Event P) :=
  impl.result.toList.map fun p => .write r p impl.response.value

/-- How a call of `wait` may go: on a null pointer, on a request that was waited for, on one whose
callback threw before, and on one whose callback runs for the first time, on a failure and on a
success. -/
inductive WaitResult (s : Program V P) (h : Holder V) : Program V P × Cpp Unit → Prop
  | invalid (null : s.self h = none) :
    WaitResult s h (s, .throws (.stdException "Invalid yp::AsyncRequest object"))
  | again (r : Ref) (impl : AsyncRequestImpl P) (ptr : s.self h = some r)
    (obj : s.heap[r]? = some impl)
      (waited : impl.mWaited = true) : WaitResult s h (s, .returns ())
  | twice (r : Ref) (impl : AsyncRequestImpl P) (ptr : s.self h = some r)
    (obj : s.heap[r]? = some impl) (waited : impl.mWaited = false)
    (consumed : impl.consumed = true) :
    WaitResult s h ({ s with log := s.log ++ [.callback r, .wait r] }, .undefined)
  | failed (r : Ref) (impl : AsyncRequestImpl P) (ptr : s.self h = some r)
    (obj : s.heap[r]? = some impl) (waited : impl.mWaited = false)
    (consumed : impl.consumed = false) (failure : impl.response.success = false) :
    WaitResult s h
      ({ s with
          heap := s.heap.set r { impl with consumed := true },
            log := s.log ++ [.callback r, .wait r] },
        .throws (.stdException impl.response.error))
  | succeeded (r : Ref) (impl : AsyncRequestImpl P) (ptr : s.self h = some r)
    (obj : s.heap[r]? = some impl) (waited : impl.mWaited = false)
    (consumed : impl.consumed = false) (success : impl.response.success = true) :
    WaitResult s h
      ({ s with
          heap := s.heap.set r { impl with consumed := true, mWaited := true }
          log := s.log ++ ([.callback r, .wait r] ++ writes r impl) },
        .returns ())

variable {s : Program V P} {h : Holder V}

omit [Fintype V] [DecidableEq V] in
theorem wait_result (hv : Valid s) (h : Holder V) : WaitResult s h (s.wait h) := by
  unfold Program.wait
  rcases hp : s.self h with _ | r
  · exact .invalid hp
  obtain ⟨impl, hobj⟩ := hv.object hp
  dsimp only
  rw [hobj]
  dsimp only
  rcases hw : impl.mWaited with _ | _
  · unfold Program.waitCallback
    rcases hc : impl.consumed with _ | _
    · rcases hs : impl.response.success with _ | _
      · exact .failed r impl hp hobj hw hc hs
      · have hres := WaitResult.succeeded (s := s) (h := h) r impl hp hobj hw hc hs
        rcases hr : impl.result with _ | p <;> simpa [writes, hr] using hres
    · exact .twice r impl hp hobj hw hc
  · exact .again r impl hp hobj hw

/-- How a call of `completed` may go: on a null pointer, on a request whose response is pending, and
on one whose response was consumed. -/
inductive CompletedResult (s : Program V P) (h : Holder V) (arrived : Bool) :
    Program V P × Cpp Bool → Prop
  | invalid (null : s.self h = none) :
    CompletedResult s h arrived (s, .throws (.stdException "Invalid yp::AsyncRequest object"))
  | pending (r : Ref) (impl : AsyncRequestImpl P) (ptr : s.self h = some r)
    (obj : s.heap[r]? = some impl) (consumed : impl.consumed = false) :
    CompletedResult s h arrived ({ s with log := s.log ++ [.received r] }, .returns arrived)
  | late (r : Ref) (impl : AsyncRequestImpl P) (ptr : s.self h = some r)
    (obj : s.heap[r]? = some impl) (consumed : impl.consumed = true) :
    CompletedResult s h arrived ({ s with log := s.log ++ [.received r] }, .undefined)

omit [Fintype V] [DecidableEq V] in
theorem completed_result (hv : Valid s) (h : Holder V) (arrived : Bool) :
    CompletedResult s h arrived (s.completed h arrived) := by
  unfold Program.completed
  rcases hp : s.self h with _ | r
  · exact .invalid hp
  obtain ⟨impl, hobj⟩ := hv.object hp
  dsimp only
  rw [hobj]
  dsimp only
  rcases hc : impl.consumed with _ | _
  · exact .pending r impl hp hobj hc
  · exact .late r impl hp hobj hc

/-- Only the responses and the log differ. -/
structure Frame (s s' : Program V P) : Prop where
  self : s'.self = s.self
  declared : s'.declared = s.declared
  heap : s'.heap.length = s.heap.length
  fate : s'.fate = s.fate

omit [Fintype V] [DecidableEq V] in
theorem frame_wait (hv : Valid s) (h : Holder V) : Frame s (s.wait h).1 := by
  have hres := wait_result hv h
  generalize s.wait h = x at hres
  cases hres with
  | invalid | again => exact ⟨rfl, rfl, rfl, rfl⟩
  | twice => exact ⟨rfl, rfl, rfl, rfl⟩
  | failed | succeeded => exact ⟨rfl, rfl, List.length_set .., rfl⟩

omit [DecidableEq V] in
theorem frame_waitIfUnique (hv : Valid s) (h : Holder V) : Frame s (s.waitIfUnique h).1 := by
  unfold Program.waitIfUnique
  split_ifs
  · exact frame_wait hv h
  · exact ⟨rfl, rfl, rfl, rfl⟩

theorem destruct_of_not_unique (hu : ¬ Unique s.self h) : s.destruct h = s.put h none := by
  rw [Program.destruct, Program.waitIfUnique, if_neg hu]

/-- A request just sent, held by the local pointer and the temporary. -/
def issued (s : Program V P) (response : RequestResult Int32) (result : Option P) : Program V P :=
  { s with
    self :=
      Function.update (Function.update s.self .asyncRequestImpl (some s.heap.length)) .temporary
      (some s.heap.length)
    heap := s.heap ++ [⟨response, false, false, result⟩] }

omit [Fintype V] in
theorem valid_issued (hv : Valid s) (response : RequestResult Int32) (result : Option P) :
    Valid (issued s response result) := by
  intro h r hr
  have hlen : (issued s response result).heap.length = s.heap.length + 1 := by simp [issued]
  rw [hlen]
  simp only [issued, Function.update_apply] at hr
  split_ifs at hr
  · rw [← Option.some.inj hr]
    exact Nat.lt_succ_self _
  · rw [← Option.some.inj hr]
    exact Nat.lt_succ_self _
  · exact Nat.lt_succ_of_lt (hv h r hr)

omit [Fintype V] in
theorem issued_variable (response : RequestResult Int32) (result : Option P) (v : V) :
    (issued s response result).self (.variable v) = s.self (.variable v) := by
  simp [issued]

omit [Fintype V] in
theorem issued_heap (response : RequestResult Int32) (result : Option P) {r : Ref}
    {impl : AsyncRequestImpl P} :
    (issued s response result).heap[r]? = some impl ↔
      s.heap[r]? = some impl ∨ (r = s.heap.length ∧ impl = ⟨response, false, false, result⟩) := by
  dsimp only [issued]
  rcases lt_trichotomy r s.heap.length with hlt | rfl | hgt
  · rw [List.getElem?_append_left hlt]
    exact ⟨Or.inl, fun h => h.resolve_right fun hnew => hlt.ne hnew.1⟩
  · simp [eq_comm]
  · have hnone : (s.heap ++ [⟨response, false, false, result⟩])[r]? = none :=
      List.getElem?_eq_none (by rw [List.length_append]; exact Nat.succ_le_of_lt hgt)
    have hold : s.heap[r]? = none := List.getElem?_eq_none hgt.le
    rw [hnone, hold]
    exact ⟨nofun, fun h => h.elim nofun fun hnew => absurd hnew.1 hgt.ne'⟩

/-- **Issuing a request**: the request the variable held is waited for if it was the last, and then
either the variable holds the new one, or, when that wait throws, nobody does. -/
theorem computeSum_eq (hv : Valid s) (ht : s.self .temporary = none)
    (hl : s.self .asyncRequestImpl = none) (v : V) (response : RequestResult Int32)
    (result : Option P) :
    s.computeSum v response result =
      match (issued s response result).waitIfUnique (.variable v) with
      | (s', .returns ()) =>
        ({ s' with self := Function.update s.self (.variable v) (some s.heap.length) }, .returns ())
      | (s', exit) => ({ s' with self := s.self }, exit) := by
  have hnew : (issued s response result).self .temporary = some s.heap.length := by simp [issued]
  have hguard : ¬ (Holder.variable v = .temporary ∨
      (issued s response result).self (.variable v) =
        (issued s response result).self .temporary) := by
    rintro (heq | heq)
    · cases heq
    · rw [issued_variable, hnew] at heq
      exact absurd (hv _ _ heq) (lt_irrefl _)
  have hself : ((issued s response result).waitIfUnique (.variable v)).1.self =
    (issued s response result).self :=
    (frame_waitIfUnique (valid_issued hv response result) (.variable v)).self
  show (match (issued s response result).moveAssign (.variable v) .temporary with
    | (s, exit) => ((s.destruct .temporary).put .asyncRequestImpl none, exit)) = _
  rw [Program.moveAssign, if_neg hguard]
  rcases hwait : (issued s response result).waitIfUnique (.variable v) with ⟨s', exit⟩
  replace hself : s'.self = (issued s response result).self := by rw [hwait] at hself; exact hself
  -- the request the variable held could not be waited for: the new one loses both its holders
  have hdropped :
    (s'.destruct .temporary).put .asyncRequestImpl none = { s' with self := s.self } := by
    have hshared : ¬ Unique s'.self .temporary := by
      rw [hself]
      have hlocal : (issued s response result).self .asyncRequestImpl = some s.heap.length := by
        simp [issued]
      exact not_unique_of_shared hnew hlocal nofun
    rw [destruct_of_not_unique hshared]
    simp only [Program.put, hself]
    congr 1
    funext h
    rcases h with w | _ | _
    · simp [issued]
    · simp [ht]
    · simp [hl]
  rcases exit with ⟨⟨⟩⟩ | e | _
  · dsimp only
    have hnull :
      ¬ Unique ((s'.put (.variable v) (s'.self .temporary)).put .temporary none).self .temporary :=
      not_unique_of_null (by simp [Program.put])
    rw [destruct_of_not_unique hnull]
    simp only [Program.put, hself, hnew]
    congr 2
    funext h
    rcases h with w | _ | _
    · by_cases hw : w = v
      · subst hw
        simp
      · simp [issued, hw]
    · simp [ht]
    · simp [hl]
  · exact congrArg (·, Cpp.throws e) hdropped
  · exact congrArg (·, Cpp.undefined) hdropped

/-- Whether the variable is the last holder is not changed by the request on its way. -/
theorem unique_issued (hv : Valid s) (ht : s.self .temporary = none)
    (hl : s.self .asyncRequestImpl = none) (v : V) (response : RequestResult Int32)
    (result : Option P) :
    Unique (issued s response result).self (.variable v) ↔ Unique s.self (.variable v) := by
  have hne : ∀ r, s.self (.variable v) = some r → some s.heap.length ≠ some r := fun r hr heq =>
    absurd (hv _ _ hr) (by rw [← Option.some.inj heq]; exact lt_irrefl _)
  have htmp : Holder.variable v ≠ .temporary := nofun
  have hlocal : Holder.variable v ≠ .asyncRequestImpl := nofun
  dsimp only [issued]
  rw [unique_update htmp, unique_update hlocal]
  · exact fun r hr => ⟨by rw [hl]; exact nofun, hne r hr⟩
  · intro r hr
    rw [Function.update_of_ne hlocal] at hr
    have htl : Holder.temporary ≠ (.asyncRequestImpl : Holder V) := nofun
    rw [Function.update_of_ne htl, ht]
    exact ⟨nofun, hne r hr⟩

end Phonebook.Client.AsyncRequest
