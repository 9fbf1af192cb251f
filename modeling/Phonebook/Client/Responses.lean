import Phonebook.Client.Steps

/-! # Responses

`wait` consumes an `async_response`. It is called when `m_waited` is not set, which a callback that
threw did not do, and `received` is called without a look at it. So a program respects its responses
exactly as long as it does not get to the `wait` of a request that failed before, and does not ask
whether a response it consumed has arrived (`respected_iff`). -/

namespace Phonebook.Client.Responses

open Phonebook.Data.Values Phonebook.Lib.Runs Phonebook.Lib.SharedPtr Phonebook.Client.AsyncRequest
open Phonebook.Client.Steps

variable {V P : Type}

/-- `wait` is called on each response at most once, and `received` never after it. -/
def Respected (log : List (Event P)) : Prop :=
  ∀ pre r post, log = pre ++ .wait r :: post → .wait r ∉ post ∧ .received r ∉ post

/-- The response was waited for. -/
def Consumed (s : Program V P) (r : Ref) : Prop :=
  ∃ impl, s.heap[r]? = some impl ∧ impl.consumed = true

/-- The response was waited for and is a failure, so that the callback threw. -/
def FailedBefore (s : Program V P) (r : Ref) : Prop :=
  ∃ impl, s.heap[r]? = some impl ∧ impl.consumed = true ∧ impl.response.success = false

/-- What one more event needs. -/
def Allowed (log : List (Event P)) : Event P → Prop
  | .wait r | .received r => .wait r ∉ log
  | .callback _ | .write _ _ _ => True

/-! ### Logs -/

section Logs
variable {log : List (Event P)} {e : Event P} {r : Ref}

theorem respected_nil : Respected ([] : List (Event P)) := by
  intro pre r post h
  simp at h

theorem Respected.concat (h : Respected log) (he : Allowed log e) : Respected (log ++ [e]) := by
  intro pre r post heq
  rcases concat_eq_append_cons heq with ⟨-, -, rfl⟩ | ⟨post', rfl, hlog⟩
  · exact ⟨List.not_mem_nil, List.not_mem_nil⟩
  · obtain ⟨hwait, hreceived⟩ := h pre r post' hlog
    have hmem : .wait r ∈ log := by simp [hlog]
    constructor
    · rw [List.mem_append, List.mem_singleton]
      rintro (hw | rfl)
      · exact hwait hw
      · exact he hmem
    · rw [List.mem_append, List.mem_singleton]
      rintro (hw | rfl)
      · exact hreceived hw
      · exact he hmem

theorem not_respected (hw : .wait r ∈ log) {new : List (Event P)}
    (hnew : .wait r ∈ new ∨ .received r ∈ new) :
    ¬ Respected (log ++ new) := by
  intro h
  obtain ⟨pre, post, rfl⟩ := List.append_of_mem hw
  obtain ⟨hwait, hreceived⟩ := h pre r (post ++ new) (by simp)
  rcases hnew with hn | hn
  · exact hwait (List.mem_append_right _ hn)
  · exact hreceived (List.mem_append_right _ hn)

theorem Respected.consume (h : Respected log) (hw : .wait r ∉ log) (impl : AsyncRequestImpl P) :
    Respected (log ++ [.callback r, .wait r]) ∧
      Respected (log ++ ([.callback r, .wait r] ++ writes r impl)) := by
  have hcallback : Respected (log ++ [.callback r]) := h.concat trivial
  have hwait : Respected (log ++ [.callback r, .wait r]) := by
    have hw' : .wait r ∉ log ++ [.callback r] := by simp [hw]
    simpa using hcallback.concat (e := .wait r) hw'
  refine ⟨hwait, ?_⟩
  rcases hr : impl.result with _ | p
  · simpa [writes, hr] using hwait
  · simpa [writes, hr] using hwait.concat (e := .write r p impl.response.value) trivial

end Logs

/-! ### What the statements keep -/

/-- The responses that were waited for are known as such, `m_waited` tells those that were
successes, and all of them were respected. -/
structure Tidy (s : Program V P) : Prop where
  logged : ∀ r, .wait r ∈ s.log ↔ Consumed s r
  waited : ∀ (r : Ref) (impl : AsyncRequestImpl P), s.heap[r]? = some impl →
    impl.mWaited = (impl.consumed && impl.response.success)
  respected : Respected s.log

variable {s s' : Program V P}

theorem Tidy.congr (ht : Tidy s) (hheap : s'.heap = s.heap) (hlog : s'.log = s.log) : Tidy s' := by
  refine ⟨fun r => ?_, fun r => ?_, ?_⟩
  · rw [hlog, ht.logged r, Consumed, Consumed, hheap]
  · rw [hheap]
    exact ht.waited r
  · rw [hlog]
    exact ht.respected

variable [DecidableEq V]

theorem Tidy.issued (ht : Tidy s) (response : RequestResult Int32) (result : Option P) :
    Tidy (issued s response result) := by
  refine ⟨fun r => (ht.logged r).trans ?_, fun r impl hobj => ?_, ht.respected⟩
  · constructor
    · rintro ⟨impl, hobj, hc⟩
      exact ⟨impl, (issued_heap response result).mpr (Or.inl hobj), hc⟩
    · rintro ⟨impl, hobj, hc⟩
      rcases (issued_heap response result).mp hobj with hold | ⟨-, rfl⟩
      · exact ⟨impl, hold, hc⟩
      · cases hc
  · rcases (issued_heap response result).mp hobj with hold | ⟨-, rfl⟩
    · exact ht.waited r impl hold
    · rfl

omit [DecidableEq V] in
theorem Tidy.consume (ht : Tidy s) {r : Ref} {impl : AsyncRequestImpl P}
    (hobj : s.heap[r]? = some impl) {new : List (Event P)} (hnew : Respected (s.log ++ new))
    (hr : ∀ r', .wait r' ∈ new ↔ r' = r) :
    Tidy { s with
      heap := s.heap.set r { impl with consumed := true, mWaited := impl.response.success }
      log := s.log ++ new } := by
  have hlt : r < s.heap.length := (List.getElem?_eq_some_iff.mp hobj).1
  refine ⟨fun r' => ?_, fun r' impl' hobj' => ?_, hnew⟩
  · rw [List.mem_append, hr, ht.logged r']
    by_cases heq : r' = r
    · subst heq
      simp [Consumed, hlt]
    · simp [Consumed, heq, List.getElem?_set_ne (Ne.symm heq)]
  · by_cases heq : r' = r
    · subst heq
      rw [List.getElem?_set_self hlt] at hobj'
      rw [← Option.some.inj hobj']
      rfl
    · rw [List.getElem?_set_ne (Ne.symm heq)] at hobj'
      exact ht.waited r' impl' hobj'

omit [DecidableEq V] in
theorem Tidy.fresh (ht : Tidy s) {r : Ref} {impl : AsyncRequestImpl P}
    (hobj : s.heap[r]? = some impl)
    (hc : impl.consumed = false) : .wait r ∉ s.log := by
  rw [ht.logged r]
  rintro ⟨impl', hobj', hc'⟩
  obtain rfl : impl = impl' := Option.some.inj (hobj.symm.trans hobj')
  rw [hc] at hc'
  cases hc'

omit [DecidableEq V] in
/-- A wait that does not meet a request that failed before. -/
theorem Tidy.wait (ht : Tidy s) (hv : Valid s) (h : Holder V)
    (hok : ∀ r, s.self h = some r → ¬ FailedBefore s r) : Tidy (s.wait h).1 := by
  have hres := wait_result hv h
  generalize s.wait h = x at hres
  cases hres with
  | invalid | again => exact ht
  | twice r impl ptr obj waited consumed =>
    have hfailure : impl.response.success = false := by
      have hw := ht.waited r impl obj
      rw [waited, consumed] at hw
      exact hw.symm
    exact absurd ⟨impl, obj, consumed, hfailure⟩ (hok r ptr)
  | failed r impl ptr obj waited consumed failure =>
    have hnew := (ht.respected.consume (ht.fresh obj consumed) impl).1
    have hkept := ht.consume obj hnew (by simp)
    rw [show impl.response.success = impl.mWaited from failure.trans waited.symm] at hkept
    exact hkept
  | succeeded r impl ptr obj waited consumed success =>
    have hnew := (ht.respected.consume (ht.fresh obj consumed) impl).2
    have hkept := ht.consume obj hnew (by simp [writes])
    rw [success] at hkept
    exact hkept

omit [DecidableEq V] in
theorem Tidy.completed (ht : Tidy s) (hv : Valid s) (h : Holder V) (arrived : Bool)
    (hok : ∀ r, s.self h = some r → ¬ Consumed s r) : Tidy (s.completed h arrived).1 := by
  have hres := completed_result hv h arrived
  generalize s.completed h arrived = x at hres
  cases hres with
  | invalid => exact ht
  | pending r impl ptr obj consumed =>
    refine ⟨fun r' => ?_, ht.waited, ht.respected.concat (ht.fresh obj consumed)⟩
    rw [List.mem_append, ht.logged r']
    simp [Consumed]
  | late r impl ptr obj consumed => exact absurd ⟨impl, obj, consumed⟩ (hok r ptr)

/-! ### Which responses a statement gets to -/

variable [Fintype V]

/-- The request the variable holds, when it is the last to hold it. -/
def lastOf (s : Program V P) (v : V) : Option Ref :=
  if Unique s.self (.variable v) then s.self (.variable v) else none

/-- The request whose `wait` the statement calls, if any. -/
def waitsFor (s : Program V P) : Op V P → Option Ref
  | .wait v => s.self (.variable v)
  | .destroy v | .computeSum v _ _ => lastOf s v
  | .copyAssign v other | .moveAssign v other =>
    if s.self (.variable v) = s.self (.variable other) then none else lastOf s v
  | .construct _ | .copyConstruct _ _ | .moveConstruct _ _ | .completed _ _ => none

/-- The request whose `received` the statement calls, if any. -/
def asksFor (s : Program V P) : Op V P → Option Ref
  | .completed v _ => s.self (.variable v)
  | _ => none

/-- The statement does not get to the `wait` of a request that failed before, and does not ask
whether a response arrived that was consumed. -/
def Ok (s : Program V P) (o : Op V P) : Prop :=
  s.fate = .running → o.Scoped s →
    (∀ r, waitsFor s o = some r → ¬ FailedBefore s r) ∧ ∀ r, asksFor s o = some r → ¬ Consumed s r

omit [DecidableEq V] in
theorem Tidy.waitIfUnique (ht : Tidy s) (hv : Valid s) (v : V)
    (hok : ∀ r, lastOf s v = some r → ¬ FailedBefore s r) :
    Tidy (s.waitIfUnique (.variable v)).1 := by
  unfold Program.waitIfUnique
  split_ifs with hu
  · exact ht.wait hv _ fun r hp => hok r (by rw [lastOf, if_pos hu, hp])
  · exact ht

theorem lastOf_issued (hr : AtRest s) {v : V} {response : RequestResult Int32} {result : Option P} :
    lastOf (issued s response result) v = lastOf s v := by
  unfold lastOf
  rw [issued_variable, if_congr
    (unique_issued hr.valid hr.temporary hr.asyncRequestImpl v response result) rfl rfl]

/-- A statement that is `Ok`. -/
theorem Tidy.consult (ht : Tidy s) (hr : AtRest s) {o : Op V P}
    (hw : ∀ r, waitsFor s o = some r → ¬ FailedBefore s r)
    (ha : ∀ r, asksFor s o = some r → ¬ Consumed s r) :
    Tidy (consult s o).1 := by
  have hv : Valid s := hr.valid
  cases o with
  | construct | copyConstruct | moveConstruct => exact ht
  | copyAssign v other | moveAssign v other =>
    dsimp only [Steps.consult, waitsFor] at hw ⊢
    split_ifs at hw ⊢
    · exact ht
    · exact ht.waitIfUnique hv v hw
  | computeSum req response result =>
    refine (ht.issued response result).waitIfUnique (valid_issued hv response result) req
      fun r hlast => ?_
    rw [lastOf_issued hr] at hlast
    rintro ⟨impl, hobj, hc, hfailure⟩
    rcases (issued_heap response result).mp hobj with hold | ⟨-, rfl⟩
    · exact hw r hlast ⟨impl, hold, hc, hfailure⟩
    · cases hc
  | wait v => exact ht.wait hv _ hw
  | completed v arrived =>
    have hkept := ht.completed hv (.variable v) arrived ha
    dsimp only [Steps.consult]
    generalize s.completed (.variable v) arrived = x at hkept
    rcases x with ⟨s', b | e | _⟩ <;> exact hkept
  | destroy v => exact ht.waitIfUnique hv v hw

/-! ### Programs that respect their responses -/

omit [DecidableEq V] [Fintype V] in
theorem wait_failedBefore (ht : Tidy s) {h : Holder V} {r : Ref} (hp : s.self h = some r)
    (hf : FailedBefore s r) :
    (s.wait h).2 = .undefined ∧ (s.wait h).1.log = s.log ++ [.callback r, .wait r] := by
  obtain ⟨impl, hobj, hc, hfailure⟩ := hf
  have hw : impl.mWaited = false := by
    rw [ht.waited r impl hobj, hfailure, Bool.and_false]
  simp [Program.wait, Program.waitCallback, hp, hobj, hw, hc]

omit [DecidableEq V] [Fintype V] in
theorem not_respected_wait (ht : Tidy s) {h : Holder V} {r : Ref} (hp : s.self h = some r)
    (hf : FailedBefore s r) : ¬ Respected (s.wait h).1.log := by
  rw [(wait_failedBefore ht hp hf).2]
  obtain ⟨impl, hobj, hc, -⟩ := hf
  exact not_respected ((ht.logged r).mpr ⟨impl, hobj, hc⟩) (Or.inl (by simp))

omit [DecidableEq V] in
theorem not_respected_waitIfUnique (ht : Tidy s) {v : V} {r : Ref} (hp : lastOf s v = some r)
    (hf : FailedBefore s r) : ¬ Respected (s.waitIfUnique (.variable v)).1.log := by
  unfold lastOf at hp
  split_ifs at hp with hu
  rw [Program.waitIfUnique, if_pos hu]
  exact not_respected_wait ht hp hf

theorem not_respected_of_waitsFor (ht : Tidy s) (hr : AtRest s) {o : Op V P} {r : Ref}
    (hp : waitsFor s o = some r) (hf : FailedBefore s r) : ¬ Respected (consult s o).1.log := by
  cases o with
  | construct | copyConstruct | moveConstruct | completed => cases hp
  | copyAssign v other | moveAssign v other =>
    dsimp only [Steps.consult, waitsFor] at hp ⊢
    split_ifs at hp ⊢
    exact not_respected_waitIfUnique ht hp hf
  | computeSum req response result =>
    refine not_respected_waitIfUnique (ht.issued response result) ((lastOf_issued hr).trans hp) ?_
    obtain ⟨impl, hobj, hc⟩ := hf
    exact ⟨impl, (issued_heap response result).mpr (Or.inl hobj), hc⟩
  | wait v => exact not_respected_wait ht hp hf
  | destroy v => exact not_respected_waitIfUnique ht hp hf

theorem not_respected_of_asksFor (ht : Tidy s) {o : Op V P} {r : Ref} (hp : asksFor s o = some r)
    (hf : Consumed s r) : ¬ Respected (consult s o).1.log := by
  cases o with
  | completed v arrived =>
    have hwaited : .wait r ∈ s.log := (ht.logged r).mpr hf
    obtain ⟨impl, hobj, hc⟩ := hf
    have hlog : (consult s (.completed v arrived)).1.log = s.log ++ [.received r] := by
      have hp' : s.self (.variable v) = some r := hp
      simp [Steps.consult, Program.completed, hp', hobj, hc]
    rw [hlog]
    exact not_respected hwaited (Or.inr (by simp))
  | _ => cases hp

/-- **Responses.** Along a program's run every response is waited for at most once and not asked
about afterwards, if and only if no statement gets to the `wait` of a request that failed before, be
it explicitly or by destroying or overwriting the last object of the request, and none calls
`completed` on a request that was waited for. -/
theorem respected_iff (ops : List (Op V P)) :
    Along step (fun s => Respected s.log) .start ops ↔ StepsOk step Ok .start ops := by
  refine along_iff_stepsOk (I := fun s => (s.fate = .running → AtRest s ∧ Tidy s) ∧ Respected s.log)
    ?_ ?_ (fun s hs => hs.2) ?_ ops
  · refine ⟨fun _ => ⟨atRest_start, fun r => ?_, fun r impl hobj => ?_, respected_nil⟩,
      respected_nil⟩
    · simp [Program.start, Consumed]
    · cases hobj
  · intro s o hs hok
    unfold step
    split_ifs with hrun
    · obtain ⟨hr, ht⟩ := hs.1 hrun.1
      obtain ⟨hw, ha⟩ := hok hrun.1 hrun.2
      obtain ⟨hheap, hlog, -⟩ := performed hr o
      have hkept : Tidy (perform s o) := (ht.consult hr hw ha).congr hheap hlog
      exact ⟨fun hf => ⟨atRest_perform hr hrun.2 hf, hkept⟩, hkept.respected⟩
    · exact hs
  · intro s o hs hbad
    unfold Ok at hbad
    push Not at hbad
    obtain ⟨hf, hscoped, hbad⟩ := hbad
    obtain ⟨hr, ht⟩ := hs.1 hf
    rw [step, if_pos ⟨hf, hscoped⟩, (performed hr o).log]
    by_cases hw : ∀ r, waitsFor s o = some r → ¬ FailedBefore s r
    · obtain ⟨r, hp, hc⟩ := hbad hw
      exact not_respected_of_asksFor ht hp hc
    · push Not at hw
      obtain ⟨r, hp, hfailed⟩ := hw
      exact not_respected_of_waitsFor ht hr hp hfailed

/-- The phonebook asked for the sum is unknown, so the wait throws; then the request is
destroyed. -/
def failThenDestroy : List (Op Unit Unit) :=
  [.construct (), .computeSum ()
    ⟨false, "Phonebook with UUID 00000000-0000-0000-0000-000000000000 not found", none⟩
    none, .wait (), .destroy ()]

/-- The destructor waits for the response again. -/
theorem not_respected_failThenDestroy :
    ¬ Along step (fun s => Respected s.log) .start failThenDestroy := by
  intro h
  have hlog : (exec step .start failThenDestroy).log =
    [.callback 0, .wait 0, .callback 0, .wait 0] := by decide
  obtain ⟨hwait, -⟩ :=
    h failThenDestroy (List.prefix_refl _) [.callback 0] 0 [.callback 0, .wait 0] hlog
  exact hwait (by simp)

end Phonebook.Client.Responses
