import Phonebook.Client.Responses

/-! # Completion of successful requests

When all responses are successes, `m_waited` is set exactly for the requests that were waited for,
and the one that lets go of a request last waits for it first. So the callback of each request runs
once, by the time nothing holds it any more (`completed_exactlyOnce`). -/

namespace Phonebook.Client.Completion

open Phonebook.Data.Values Phonebook.Lib.Runs Phonebook.Lib.SharedPtr Phonebook.Client.AsyncRequest
open Phonebook.Client.Steps Phonebook.Client.Responses

variable {V P : Type}

/-- The request an event is about. -/
def request : Event P → Ref
  | .callback r | .wait r | .received r | .write r _ _ => r

/-- What happens to a successful request: its callback runs, waits, and writes to the result pointer
if there is one. -/
def completion (r : Ref) (response : RequestResult Int32) (result : Option P) : List (Event P) :=
  [.callback r, .wait r] ++ result.toList.map fun p => .write r p response.value

/-- The events about a request, in their order. -/
def story (log : List (Event P)) (r : Ref) : List (Event P) := log.filter fun e => request e = r

/-- A statement that gets a successful response, if any, and does not call `completed`. -/
def Succeeds : Op V P → Prop
  | .computeSum _ response _ => response.success = true
  | .completed _ _ => False
  | _ => True

/-- The callback ran and `m_waited` is set. -/
def Waited (s : Program V P) (r : Ref) : Prop :=
  ∃ impl, s.heap[r]? = some impl ∧ impl.mWaited = true

/-- All responses are successes, `m_waited` is set as soon as one was consumed, and then, and only
then, the request has its completion in the log. -/
structure Exact (s : Program V P) : Prop where
  request_lt : ∀ e ∈ s.log, request e < s.heap.length
  impl : ∀ (r : Ref) (impl : AsyncRequestImpl P), s.heap[r]? = some impl →
    impl.response.success = true ∧ impl.mWaited = impl.consumed ∧
      story s.log r = if impl.mWaited then completion r impl.response impl.result else []

/-- The requests stay what they are, and `m_waited` stays set. -/
def Grows (s s' : Program V P) : Prop :=
  ∀ (r : Ref) (impl : AsyncRequestImpl P),
    s.heap[r]? = some impl → ∃ impl', s'.heap[r]? = some impl' ∧
    impl'.response = impl.response ∧ impl'.result = impl.result ∧
      (impl.mWaited = true → impl'.mWaited = true)

variable {s s' : Program V P} {r : Ref}

theorem Grows.refl (s : Program V P) : Grows s s := fun _ impl hobj => ⟨impl, hobj, rfl, rfl, id⟩

theorem Grows.trans {s'' : Program V P} (h : Grows s s') (h' : Grows s' s'') : Grows s s'' := by
  intro r impl hobj
  obtain ⟨impl', hobj', hresponse, hresult, hwaited⟩ := h r impl hobj
  obtain ⟨impl'', hobj'', hresponse', hresult', hwaited'⟩ := h' r impl' hobj'
  exact ⟨impl'', hobj'', hresponse'.trans hresponse, hresult'.trans hresult, hwaited' ∘ hwaited⟩

theorem Grows.waited (h : Grows s s') (hr : Waited s r) : Waited s' r := by
  obtain ⟨impl, hobj, hwaited⟩ := hr
  obtain ⟨impl', hobj', -, -, hkept⟩ := h r impl hobj
  exact ⟨impl', hobj', hkept hwaited⟩

/-! ### Waiting -/

theorem story_append (log new : List (Event P)) (r : Ref) :
    story (log ++ new) r = story log r ++ story new r :=
  List.filter_append ..

theorem story_completion (r r' : Ref) (response : RequestResult Int32) (result : Option P) :
    story (completion r response result) r' =
      if r = r' then completion r response result else [] := by
  rcases result with _ | p <;> by_cases h : r = r' <;> simp [story, completion, request, h]

theorem request_completion {e : Event P} {response : RequestResult Int32} {result : Option P}
    (he : e ∈ completion r response result) : request e = r := by
  rcases result with _ | p
  · simp only [completion, Option.toList_none, List.map_nil, List.append_nil, List.mem_cons,
      List.not_mem_nil, or_false] at he
    rcases he with rfl | rfl <;> rfl
  · simp only [completion, Option.toList_some, List.map_cons, List.map_nil, List.cons_append,
      List.nil_append, List.mem_cons, List.not_mem_nil, or_false] at he
    rcases he with rfl | rfl | rfl <;> rfl

theorem Exact.congr (hs : Exact s) (hheap : s'.heap = s.heap) (hlog : s'.log = s.log) :
    Exact s' := by
  refine ⟨?_, ?_⟩
  · rw [hlog, hheap]
    exact hs.request_lt
  · rw [hlog, hheap]
    exact hs.impl

theorem Exact.complete (hs : Exact s) {impl : AsyncRequestImpl P} (hobj : s.heap[r]? = some impl)
    (hw : impl.mWaited = false) :
    Exact { s with
      heap := s.heap.set r { impl with consumed := true, mWaited := true }
      log := s.log ++ completion r impl.response impl.result } := by
  have hlt : r < s.heap.length := (List.getElem?_eq_some_iff.mp hobj).1
  obtain ⟨hsuccess, -, hstory⟩ := hs.impl r impl hobj
  refine ⟨fun e he => ?_, fun r' impl' hobj' => ?_⟩
  · rw [List.length_set]
    rcases List.mem_append.mp he with he | he
    · exact hs.request_lt e he
    · rw [request_completion he]
      exact hlt
  · dsimp only at hobj' ⊢
    rw [story_append, story_completion]
    by_cases heq : r = r'
    · subst heq
      rw [List.getElem?_set_self hlt] at hobj'
      rw [← Option.some.inj hobj', hstory, hw]
      exact ⟨hsuccess, rfl, by simp⟩
    · rw [List.getElem?_set_ne heq] at hobj'
      rw [if_neg heq, List.append_nil]
      exact hs.impl r' impl' hobj'

theorem Exact.wait_cases (hs : Exact s) (hv : Valid s) (h : Holder V) :
    (s.self h = none ∧ s.wait h = (s, .throws (.stdException "Invalid yp::AsyncRequest object"))) ∨
      ∃ r impl, s.self h = some r ∧ s.heap[r]? = some impl ∧
        ((impl.mWaited = true ∧ s.wait h = (s, .returns ())) ∨
          (impl.mWaited = false ∧ s.wait h =
            ({ s with
                heap := s.heap.set r { impl with consumed := true, mWaited := true }
                log := s.log ++ completion r impl.response impl.result }, .returns ()))) := by
  have hres := wait_result hv h
  generalize s.wait h = x at hres ⊢
  cases hres with
  | invalid null => exact Or.inl ⟨null, rfl⟩
  | again r impl ptr obj waited => exact Or.inr ⟨r, impl, ptr, obj, Or.inl ⟨waited, rfl⟩⟩
  | twice r impl ptr obj waited consumed =>
    have hsame : impl.mWaited = impl.consumed := (hs.impl r impl obj).2.1
    rw [waited, consumed] at hsame
    cases hsame
  | failed r impl ptr obj waited consumed failure =>
    have hsuccess : impl.response.success = true := (hs.impl r impl obj).1
    rw [failure] at hsuccess
    cases hsuccess
  | succeeded r impl ptr obj waited => exact Or.inr ⟨r, impl, ptr, obj, Or.inr ⟨waited, rfl⟩⟩

theorem Exact.wait (hs : Exact s) (hv : Valid s) (h : Holder V) : Exact (s.wait h).1 := by
  rcases hs.wait_cases hv h with ⟨-, hw⟩ | ⟨r, impl, -, hobj, ⟨-, hw⟩ | ⟨hwaited, hw⟩⟩
  · rw [hw]
    exact hs
  · rw [hw]
    exact hs
  · rw [hw]
    exact hs.complete hobj hwaited

theorem Exact.wait_returns (hs : Exact s) (hv : Valid s) {h : Holder V} (hp : s.self h = some r) :
    (s.wait h).2 = .returns () ∧ Waited (s.wait h).1 r := by
  rcases hs.wait_cases hv h with ⟨hnull, -⟩ | ⟨r', impl, hp', hobj, hw⟩
  · rw [hnull] at hp
    cases hp
  obtain rfl : r' = r := Option.some.inj (hp'.symm.trans hp)
  rcases hw with ⟨hwaited, hw⟩ | ⟨-, hw⟩
  · rw [hw]
    exact ⟨rfl, impl, hobj, hwaited⟩
  · rw [hw]
    have hlt : r' < s.heap.length := (List.getElem?_eq_some_iff.mp hobj).1
    exact ⟨rfl, _, List.getElem?_set_self hlt, rfl⟩

theorem Exact.grows_wait (hs : Exact s) (hv : Valid s) (h : Holder V) : Grows s (s.wait h).1 := by
  rcases hs.wait_cases hv h with ⟨-, hw⟩ | ⟨r', impl, -, hobj, ⟨-, hw⟩ | ⟨-, hw⟩⟩
  · rw [hw]
    exact Grows.refl s
  · rw [hw]
    exact Grows.refl s
  · rw [hw]
    intro r impl' hobj'
    have hlt : r' < s.heap.length := (List.getElem?_eq_some_iff.mp hobj).1
    by_cases heq : r' = r
    · subst heq
      obtain rfl : impl = impl' := Option.some.inj (hobj.symm.trans hobj')
      exact ⟨_, List.getElem?_set_self hlt, rfl, rfl, fun _ => rfl⟩
    · exact ⟨impl', by rw [List.getElem?_set_ne heq]; exact hobj', rfl, rfl, id⟩

theorem wait_of_waited {h : Holder V} (hp : s.self h = some r) (hr : Waited s r) :
    s.wait h = (s, .returns ()) := by
  obtain ⟨impl, hobj, hwaited⟩ := hr
  simp only [Program.wait, hp, hobj, hwaited, if_true]

/-! ### Statements -/

variable [DecidableEq V]

theorem Exact.issued (hs : Exact s) {response : RequestResult Int32}
    (hsuccess : response.success = true)
    (result : Option P) : Exact (issued s response result) := by
  have hlen : (AsyncRequest.issued s response result).heap.length = s.heap.length + 1 := by
    simp [AsyncRequest.issued]
  refine ⟨fun e he => ?_, fun r impl hobj => ?_⟩
  · rw [hlen]
    exact Nat.lt_succ_of_lt (hs.request_lt e he)
  · rcases (issued_heap response result).mp hobj with hold | ⟨rfl, rfl⟩
    · exact hs.impl r impl hold
    · refine ⟨hsuccess, rfl, List.filter_eq_nil_iff.mpr fun e he => ?_⟩
      have hlt : request e < s.heap.length := hs.request_lt e he
      simp [hlt.ne]

theorem grows_issued (s : Program V P) (response : RequestResult Int32) (result : Option P) :
    Grows s (issued s response result) :=
  fun _ impl hobj => ⟨impl, (issued_heap response result).mpr (Or.inl hobj), rfl, rfl, id⟩

variable [Fintype V]

omit [DecidableEq V] in
theorem Exact.waitIfUnique (hs : Exact s) (hv : Valid s) (v : V) :
    Exact (s.waitIfUnique (.variable v)).1 ∧ (s.waitIfUnique (.variable v)).2 = .returns () ∧
      (∀ r, lastOf s v = some r → Waited (s.waitIfUnique (.variable v)).1 r) ∧
      Grows s (s.waitIfUnique (.variable v)).1 := by
  unfold Program.waitIfUnique lastOf
  split_ifs with hu
  · obtain ⟨r, hp, -⟩ := hu
    exact ⟨hs.wait hv _, (hs.wait_returns hv hp).1, fun r' hp' => (hs.wait_returns hv hp').2,
      hs.grows_wait hv _⟩
  · refine ⟨hs, rfl, fun r hlast => ?_, Grows.refl s⟩
    cases hlast

/-- Consulting responses that are successes: all goes well, or it was a wait on a null pointer, and
the request the statement waits for has `m_waited` set afterwards. -/
theorem Exact.consult (hs : Exact s) (hr : AtRest s) {o : Op V P} (ho : Succeeds o) :
    Exact (consult s o).1 ∧ ((consult s o).2 = .returns () ∨ perform s o = s) ∧
      (∀ r, waitsFor s o = some r → Waited (consult s o).1 r) ∧ Grows s (consult s o).1 := by
  have hv : Valid s := hr.valid
  cases o with
  | construct | copyConstruct | moveConstruct => exact ⟨hs, Or.inl rfl, nofun, Grows.refl s⟩
  | copyAssign v other | moveAssign v other =>
    dsimp only [Steps.consult, waitsFor]
    split_ifs
    · exact ⟨hs, Or.inl rfl, fun _ => False.elim, Grows.refl s⟩
    · obtain ⟨hexact, hexit, hwaited⟩ := hs.waitIfUnique hv v
      exact ⟨hexact, Or.inl hexit, hwaited⟩
  | computeSum req response result =>
    obtain ⟨hexact, hexit, hwaited, hgrows⟩ :=
      (hs.issued ho result).waitIfUnique (valid_issued hv response result) req
    refine ⟨hexact, Or.inl hexit, fun r hp => hwaited r ?_,
      (grows_issued s response result).trans hgrows⟩
    exact (lastOf_issued hr).trans hp
  | wait v =>
    rcases hs.wait_cases hv (.variable v) with ⟨hnull, hw⟩ | ⟨r, impl, hp, -⟩
    · refine ⟨hs.wait hv _, Or.inr ?_, fun r hp => ?_, hs.grows_wait hv _⟩
      · rw [perform, hw]
        rfl
      · rw [waitsFor, hnull] at hp
        cases hp
    · exact ⟨hs.wait hv _, Or.inl (hs.wait_returns hv hp).1,
        fun r' hp' => (hs.wait_returns hv hp').2,
        hs.grows_wait hv _⟩
  | completed v arrived => exact ho.elim
  | destroy v =>
    obtain ⟨hexact, hexit, hwaited⟩ := hs.waitIfUnique hv v
    exact ⟨hexact, Or.inl hexit, hwaited⟩

theorem free_pointers (hr : AtRest s) {o : Op V P} (hscoped : o.Scoped s)
    (hf : Free (pointers s o) r) : Free s.self r ∨ waitsFor s o = some r := by
  have hlast :
    ∀ v, s.self (.variable v) = some r ∧ Unique s.self (.variable v) → lastOf s v = some r :=
    fun v h => by rw [lastOf, if_pos h.2, h.1]
  have hnot :
    ∀ v, s.declared v = false → ¬ (s.self (.variable v) = some r ∧ Unique s.self (.variable v)) :=
    fun v hv h => by
      rw [hr.undeclared v hv] at h
      cases h.1
  cases o with
  | construct v => exact Or.inl ((free_of_update hf).resolve_right (hnot v hscoped))
  | copyConstruct v other => exact Or.inl ((free_of_update hf).resolve_right (hnot v hscoped.1))
  | moveConstruct v other =>
    have hne : Holder.variable other ≠ .variable v := by
      rintro ⟨⟩
      have hno : s.declared v = false := hscoped.1
      rw [hscoped.2] at hno
      cases hno
    exact Or.inl ((free_of_move hne hf).resolve_right (hnot v hscoped.1))
  | copyAssign v other =>
    dsimp only [pointers, waitsFor] at hf ⊢
    split_ifs with heq
    · rw [← heq, Function.update_eq_self] at hf
      exact Or.inl hf
    · exact (free_of_update hf).imp_right (hlast v)
  | moveAssign v other =>
    dsimp only [pointers, waitsFor] at hf ⊢
    split_ifs at hf ⊢ with heq
    · exact Or.inl hf
    · have hne : Holder.variable other ≠ .variable v := by
        rintro ⟨⟩
        exact heq rfl
      exact (free_of_move hne hf).imp_right (hlast v)
  | computeSum req response result => exact (free_of_update hf).imp_right (hlast req)
  | wait | completed => exact Or.inl hf
  | destroy v => exact (free_of_update hf).imp_right (hlast v)

/-- What holds between the statements of a program whose requests succeed. -/
structure Settled (s : Program V P) : Prop where
  running : s.fate = .running
  rest : AtRest s
  exact : Exact s
  free : ∀ r, r < s.heap.length → Free s.self r → Waited s r

omit [DecidableEq V] [Fintype V] in
theorem settled_start : Settled (Program.start : Program V P) :=
  ⟨rfl, atRest_start, ⟨nofun, nofun⟩, nofun⟩

/-- **One statement.** -/
theorem settled_step (hs : Settled s) {o : Op V P} (ho : Succeeds o) :
    Settled (step s o) ∧ Grows s (step s o) := by
  unfold step
  split_ifs with hrun
  · obtain ⟨hexact, hexit, hwaited, hgrows⟩ := hs.exact.consult hs.rest ho
    rcases hexit with hreturns | hsame
    · obtain ⟨hheap, hlog, hends⟩ := performed hs.rest o
      have hlen : (perform s o).heap.length = s.heap.length + issues o := by
        rw [hheap, heap_consult hs.rest.valid]
      have hafter : Grows (consult s o).1 (perform s o) := by
        unfold Grows
        rw [hheap]
        exact Grows.refl _
      rcases hends with ⟨-, hself, -, hfate⟩ | ⟨e, hthrows, -⟩ | ⟨hover, -⟩
      · have hrunning : (perform s o).fate = .running := hfate.trans hrun.1
        refine ⟨⟨hrunning, atRest_perform hs.rest hrun.2 hrunning, hexact.congr hheap hlog,
          fun r hlt hf => ?_⟩,
          hgrows.trans hafter⟩
        rw [hself] at hf
        have hold : r < s.heap.length := by
          rcases lt_or_held s o (hlen ▸ hlt) with hold | ⟨h, hp⟩
          · exact hold
          · exact absurd hp (hf h)
        rcases free_pointers hs.rest hrun.2 hf with hfree | hwaits
        · exact (hgrows.trans hafter).waited (hs.free r hold hfree)
        · exact hafter.waited (hwaited r hwaits)
      · rw [hreturns] at hthrows
        cases hthrows
      · rw [hreturns] at hover
        rcases hover with h | ⟨v, e, -, h⟩ <;> cases h
    · rw [hsame]
      exact ⟨hs, Grows.refl s⟩
  · exact ⟨hs, Grows.refl s⟩

/-- A run, and what it does with the requests there were. -/
theorem settled_exec (hs : Settled s) {ops : List (Op V P)} (hok : ∀ o ∈ ops, Succeeds o) :
    Settled (exec step s ops) ∧ Grows s (exec step s ops) := by
  refine inv_of_stepsOk (I := fun s' => Settled s' ∧ Grows s s') ⟨hs, Grows.refl s⟩ ?_ ops
    (stepsOk_of_forall hok)
  rintro s' o ⟨hs', hgrows⟩ ho
  obtain ⟨hnext, hgrows'⟩ := settled_step hs' ho
  exact ⟨hnext, hgrows.trans hgrows'⟩

theorem settled_run {ops : List (Op V P)} (hok : ∀ o ∈ ops, Succeeds o) : Settled (run ops) :=
  (settled_exec settled_start hok).1

omit [DecidableEq V] [Fintype V] in
theorem Exact.callback_mem_iff (hs : Exact s) (hlt : r < s.heap.length) :
    .callback r ∈ s.log ↔ Waited s r := by
  have hobj : s.heap[r]? = some s.heap[r] := List.getElem?_eq_getElem hlt
  have hstory := (hs.impl r _ hobj).2.2
  have hmem : .callback r ∈ s.log ↔ .callback r ∈ story s.log r := by simp [story, request]
  rw [hmem, hstory]
  constructor
  · intro h
    split_ifs at h with hw
    · exact ⟨_, hobj, hw⟩
    · cases h
  · rintro ⟨impl, hobj', hw⟩
    obtain rfl : s.heap[r] = impl := Option.some.inj (hobj.symm.trans hobj')
    rw [if_pos hw]
    simp [completion]

/-! ### Runs -/

/-- A statement of the program issues the request, with the response and the result pointer. -/
def Issues (ops : List (Op V P)) (r : Ref) (response : RequestResult Int32) (result : Option P) :
    Prop :=
  ∃ pre req, pre ++ [.computeSum req response result] <+: ops ∧ (run pre).declared req = true ∧
    (run pre).heap.length = r

theorem sent_step (hs : Settled s) {req : V} (hd : s.declared req = true)
    {response : RequestResult Int32} (ho : response.success = true) (result : Option P) :
    ∃ impl, (step s (.computeSum req response result)).heap[s.heap.length]? = some impl ∧
      impl.response = response ∧ impl.result = result := by
  obtain ⟨-, -, -, hgrows⟩ :=
    (hs.exact.issued ho result).waitIfUnique (valid_issued hs.rest.valid response result) req
  have hnew :
    (issued s response result).heap[s.heap.length]? = some ⟨response, false, false, result⟩ :=
    (issued_heap response result).mpr (Or.inr ⟨rfl, rfl⟩)
  obtain ⟨impl, hobj, hresponse, hresult, -⟩ := hgrows _ _ hnew
  refine ⟨impl, ?_, hresponse, hresult⟩
  rw [step, if_pos ⟨hs.running, hd⟩, (performed hs.rest _).heap]
  exact hobj

theorem Issues.sent {ops : List (Op V P)} (hok : ∀ o ∈ ops, Succeeds o)
    {response : RequestResult Int32} {result : Option P} (h : Issues ops r response result) :
    ∃ impl, (run ops).heap[r]? = some impl ∧ impl.response = response ∧ impl.result = result := by
  obtain ⟨pre, req, ⟨post, rfl⟩, hdeclared, rfl⟩ := h
  have hpre : Settled (run pre) := settled_run fun o ho => hok o (by simp [ho])
  have ho : Succeeds (.computeSum req response result) := hok _ (by simp)
  obtain ⟨impl, hobj, hresponse, hresult⟩ := sent_step hpre hdeclared ho result
  have hafter :=
    settled_exec (settled_step hpre ho).1 fun o ho => hok o (List.mem_append_right _ ho)
  obtain ⟨impl', hobj', hresponse', hresult', -⟩ := hafter.2 _ impl hobj
  have hrun : run (pre ++ [.computeSum req response result] ++ post) =
      exec step (step (run pre) (.computeSum req response result)) post := by
    rw [run, exec_append, exec_concat]
    rfl
  exact ⟨impl', by rw [hrun]; exact hobj', hresponse'.trans hresponse, hresult'.trans hresult⟩

/-- **Completion of successful requests.** In a program whose responses are all successes, that
never calls `completed` and in whose end no variable is left, each request issued has its callback
run exactly once and its result pointer, if not null, written exactly once, with the value. The
callback has run in every state in which nobody holds the request any more, and wherever it has run
a further `wait` does nothing. -/
theorem completed_exactlyOnce (ops : List (Op V P)) (hok : ∀ o ∈ ops, Succeeds o)
    (hend : ∀ v, (run ops).declared v = false) :
    (run ops).fate = .running ∧
      (∀ r response result, Issues ops r response result →
        story (run ops).log r = completion r response result) ∧
      ∀ pre, pre <+: ops → ∀ r, r < (run pre).heap.length →
        (Free (run pre).self r → .callback r ∈ (run pre).log) ∧
        (.callback r ∈ (run pre).log → ∀ v, (run pre).self (.variable v) = some r →
          (run pre).wait (.variable v) = (run pre, .returns ())) := by
  have hsettled : ∀ pre, pre <+: ops → Settled (run pre) := fun pre hp =>
    settled_run fun o ho => hok o (hp.subset ho)
  have hlast : Settled (run ops) := hsettled ops (List.prefix_refl ops)
  refine ⟨hlast.running, fun r response result hissued => ?_, fun pre hp r hlt => ?_⟩
  · obtain ⟨impl, hobj, rfl, rfl⟩ := hissued.sent hok
    -- no variable is left, so nobody holds the request
    have hfree : Free (run ops).self r := by
      rintro (v | _ | _) hself
      · rw [hlast.rest.undeclared v (hend v)] at hself
        cases hself
      · rw [hlast.rest.temporary] at hself
        cases hself
      · rw [hlast.rest.asyncRequestImpl] at hself
        cases hself
    obtain ⟨impl', hobj', hwaited⟩ := hlast.free r (List.getElem?_eq_some_iff.mp hobj).1 hfree
    obtain rfl : impl = impl' := Option.some.inj (hobj.symm.trans hobj')
    rw [(hlast.exact.impl r impl hobj).2.2, if_pos hwaited]
  · have hs : Settled (run pre) := hsettled pre hp
    rw [hs.exact.callback_mem_iff hlt]
    exact ⟨hs.free r hlt, fun hwaited v hself => wait_of_waited hself hwaited⟩

/-- A request is copied, its first variable is given another request, and that is overwritten by the
copy. -/
def copyAndReuse : List (Op Bool Bool) :=
  [.construct false, .computeSum false ⟨true, "", some 3⟩ (some true), .copyConstruct true false,
    .copyAssign true true, .computeSum false ⟨true, "", some 7⟩ none, .moveAssign false true,
      .wait false,
    .wait false, .destroy true, .destroy false]

theorem completed_exactlyOnce_copyAndReuse :
    story (run copyAndReuse).log 0 = [.callback 0, .wait 0, .write 0 true (some 3)] ∧
      story (run copyAndReuse).log 1 = [.callback 1, .wait 1] := by
  obtain ⟨-, hissued, -⟩ :=
    completed_exactlyOnce copyAndReuse (by simp [copyAndReuse, Succeeds]) (by decide)
  refine ⟨hissued 0 ⟨true, "", some 3⟩ (some true) ⟨copyAndReuse.take 1, false,
    ?_, by decide, by decide⟩,
    hissued 1 ⟨true, "", some 7⟩ none ⟨copyAndReuse.take 4, false, ?_, by decide, by decide⟩⟩
  · exact ⟨copyAndReuse.drop 2, rfl⟩
  · exact ⟨copyAndReuse.drop 5, rfl⟩

end Phonebook.Client.Completion
