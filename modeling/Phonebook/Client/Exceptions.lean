import Phonebook.Client.Completion

/-! # Failed requests

The callback of a failed response throws out of `wait`. Where the destructor of `AsyncRequest`
called it, that ends the program; where the assignment at the end of `computeSum` called it, the
request just sent loses the local pointer and the temporary without having reached its variable.
Either happens exactly when the variable at hand is the last to hold a request that failed
(`quiet_iff`, `noneDropped_iff`). -/

namespace Phonebook.Client.Exceptions

open Phonebook.Data.Values Phonebook.Lib.Runs Phonebook.Lib.SharedPtr Phonebook.Client.AsyncRequest
open Phonebook.Client.Steps Phonebook.Client.Responses Phonebook.Client.Completion

variable {V P : Type} [Fintype V] [DecidableEq V] {s : Program V P}

/-- The variable is not the last to hold a request whose response is a failure. -/
def LastSucceeds (s : Program V P) (v : V) : Prop :=
  ∀ (r : Ref) (impl : AsyncRequestImpl P), lastOf s v = some r → s.heap[r]? = some impl →
    impl.response.success = true

/-- While the program runs it is at rest between its statements, and knows its responses. -/
def Orderly (s : Program V P) : Prop := s.fate = .running → AtRest s ∧ Tidy s

/-! ### The exit of a wait -/

omit [Fintype V] [DecidableEq V] in
theorem wait_returns_iff (ht : Tidy s) (hv : Valid s) {h : Holder V} {r : Ref}
    {impl : AsyncRequestImpl P} (hp : s.self h = some r) (hobj : s.heap[r]? = some impl) :
    (s.wait h).2 = .returns () ↔ impl.response.success = true := by
  have hres := wait_result hv h
  have hsame :
    ∀ {r' : Ref} {impl' : AsyncRequestImpl P}, s.self h = some r' → s.heap[r']? = some impl' →
      impl' = impl := fun hp' hobj' => by
    obtain rfl := Option.some.inj (hp.symm.trans hp')
    exact Option.some.inj (hobj'.symm.trans hobj)
  generalize s.wait h = x at hres
  have hwaited := ht.waited r impl hobj
  cases hres with
  | invalid null => rw [hp] at null; cases null
  | again r' impl' ptr obj waited =>
    obtain rfl := hsame ptr obj
    rw [waited] at hwaited
    simp [(Bool.and_eq_true_iff.mp hwaited.symm).2]
  | twice r' impl' ptr obj waited consumed =>
    obtain rfl := hsame ptr obj
    rw [waited, consumed, Bool.true_and] at hwaited
    simp [← hwaited]
  | failed r' impl' ptr obj waited consumed failure =>
    obtain rfl := hsame ptr obj
    simp [failure]
  | succeeded r' impl' ptr obj waited consumed success =>
    obtain rfl := hsame ptr obj
    simp [success]

omit [DecidableEq V] in
theorem waitIfUnique_returns_iff (ht : Tidy s) (hv : Valid s) (v : V) :
    (s.waitIfUnique (.variable v)).2 = .returns () ↔ LastSucceeds s v := by
  unfold Program.waitIfUnique LastSucceeds lastOf
  split_ifs with hu
  · obtain ⟨r, hp, -⟩ := hu
    obtain ⟨impl, hobj⟩ := hv.object hp
    rw [wait_returns_iff ht hv hp hobj]
    constructor
    · rintro hsuccess r' impl' hp' hobj'
      obtain rfl := Option.some.inj (hp.symm.trans hp')
      rwa [Option.some.inj (hobj'.symm.trans hobj)]
    · exact fun h => h r impl hp hobj
  · refine iff_of_true rfl fun r impl hlast => ?_
    cases hlast

theorem consult_computeSum_returns_iff (ht : Tidy s) (hr : AtRest s) (req : V)
    (response : RequestResult Int32) (result : Option P) :
    (consult s (.computeSum req response result)).2 = .returns () ↔ LastSucceeds s req := by
  rw [consult, waitIfUnique_returns_iff (ht.issued response result)
    (valid_issued hr.valid response result)]
  unfold LastSucceeds
  rw [lastOf_issued hr]
  refine forall_congr' fun r => forall_congr' fun impl => forall_congr' fun hlast => ?_
  rw [issued_heap]
  constructor
  · exact fun h hobj => h (Or.inl hobj)
  · rintro h (hobj | ⟨rfl, -⟩)
    · exact h hobj
    · unfold lastOf at hlast
      split_ifs at hlast
      exact absurd (hr.valid _ _ hlast) (lt_irrefl _)

omit [DecidableEq V] in
theorem waitIfUnique_undefined (ht : Tidy s) {v : V} {r : Ref} (hp : lastOf s v = some r)
    (hf : FailedBefore s r) : (s.waitIfUnique (.variable v)).2 = .undefined := by
  unfold lastOf at hp
  split_ifs at hp with hu
  rw [Program.waitIfUnique, if_pos hu]
  exact (wait_failedBefore ht hp hf).1

theorem consult_undefined (ht : Tidy s) (hr : AtRest s) {o : Op V P} {r : Ref}
    (h : (waitsFor s o = some r ∧ FailedBefore s r) ∨ (asksFor s o = some r ∧ Consumed s r)) :
    (consult s o).2 = .undefined := by
  cases o with
  | construct | copyConstruct | moveConstruct =>
    exact h.elim (by rintro ⟨⟨⟩, -⟩) (by rintro ⟨⟨⟩, -⟩)
  | copyAssign v other | moveAssign v other =>
    obtain ⟨hp, hf⟩ := h.resolve_right (by rintro ⟨⟨⟩, -⟩)
    dsimp only [consult, waitsFor] at hp ⊢
    split_ifs at hp ⊢
    exact waitIfUnique_undefined ht hp hf
  | computeSum req response result =>
    obtain ⟨hp, impl, hobj, hc⟩ := h.resolve_right (by rintro ⟨⟨⟩, -⟩)
    exact waitIfUnique_undefined (ht.issued response result) ((lastOf_issued hr).trans hp)
      ⟨impl, (issued_heap response result).mpr (Or.inl hobj), hc⟩
  | wait v =>
    obtain ⟨hp, hf⟩ := h.resolve_right (by rintro ⟨⟨⟩, -⟩)
    exact (wait_failedBefore ht hp hf).1
  | completed v arrived =>
    obtain ⟨hp, impl, hobj, hc⟩ := h.resolve_left (by rintro ⟨⟨⟩, -⟩)
    have hp' : s.self (.variable v) = some r := hp
    simp [consult, Program.completed, hp', hobj, hc]
  | destroy v =>
    obtain ⟨hp, hf⟩ := h.resolve_right (by rintro ⟨⟨⟩, -⟩)
    exact waitIfUnique_undefined ht hp hf

/-! ### Between statements -/

omit [DecidableEq V] [Fintype V] in
theorem orderly_start : Orderly (Program.start : Program V P) := fun _ => by
  refine ⟨atRest_start, fun r => ?_, fun r impl hobj => ?_, respected_nil⟩
  · simp [Program.start, Consumed]
  · cases hobj

/-- **One statement** keeps the responses known: one that would not is undefined and ends the
program. -/
theorem orderly_step (s : Program V P) (o : Op V P) (hs : Orderly s) : Orderly (step s o) := by
  unfold step
  split_ifs with hrun
  · intro hf
    obtain ⟨hr, ht⟩ := hs hrun.1
    obtain ⟨hheap, hlog, hends⟩ := performed hr o
    refine ⟨atRest_perform hr hrun.2 hf, ?_⟩
    by_cases hbad : ∃ r, (waitsFor s o = some r ∧ FailedBefore s r) ∨
      (asksFor s o = some r ∧ Consumed s r)
    · obtain ⟨r, hbad⟩ := hbad
      have hexit := consult_undefined ht hr hbad
      rcases hends with ⟨hc, -⟩ | ⟨e, hc, -⟩ | ⟨-, hfate⟩
      · rw [hc] at hexit
        cases hexit
      · rw [hc] at hexit
        cases hexit
      · exact absurd hf hfate
    · push Not at hbad
      exact (ht.consult hr (fun r => (hbad r).1) fun r => (hbad r).2).congr hheap hlog
  · exact hs

/-! ### Destructors that raise -/

/-- No destructor raises: the program is not terminated, and it goes on when a variable is
destroyed. -/
def Quiet (s : Program V P) (o : Op V P) : Prop :=
  s.fate = .running → o.Scoped s →
    (step s o).fate ≠ .terminated ∧ ∀ v, o = .destroy v → (step s o).fate = .running

/-- A variable that is destroyed is not the last to hold a request that failed. -/
def DestroysSafely (s : Program V P) (o : Op V P) : Prop :=
  s.fate = .running → o.Scoped s → ∀ v, o = .destroy v → LastSucceeds s v

omit [Fintype V] [DecidableEq V] in
theorem fate_settle_finish {x : Program V P × Cpp Unit} (hx : x.1.fate = .running)
    (self self' : Holder V → Option Ref) :
    (settle (finish self self' x)).fate ≠ .terminated := by
  rcases x with ⟨s', ⟨⟨⟩⟩ | e | _⟩
  · exact ne_of_eq_of_ne hx nofun
  · exact ne_of_eq_of_ne hx nofun
  · nofun

/-- The temporary of `computeSum` never waits: only the destruction of a variable ends the program
by an exception. -/
theorem not_terminated (hr : AtRest s) {o : Op V P} (hd : ∀ v, o ≠ .destroy v)
    (hf : s.fate = .running) :
    (perform s o).fate ≠ .terminated := by
  have hconsult : (consult s o).1.fate = .running := (goes_consult hr.valid o).fate.trans hf
  cases o with
  | construct | copyConstruct | moveConstruct => exact ne_of_eq_of_ne hf nofun
  | destroy v => exact absurd rfl (hd v)
  | copyAssign | moveAssign | computeSum | wait | completed =>
    rw [perform_eq_finish hr hd rfl]
    exact fate_settle_finish hconsult _ _

theorem destroy_running_iff (ht : Tidy s) (hr : AtRest s) (v : V) (hf : s.fate = .running) :
    (perform s (.destroy v)).fate = .running ↔ LastSucceeds s v := by
  rw [← waitIfUnique_returns_iff ht hr.valid v]
  have hexit : (consult s (.destroy v)).2 = (s.waitIfUnique (.variable v)).2 := rfl
  obtain ⟨-, -, hends⟩ := performed hr (.destroy v)
  rw [← hexit]
  rcases hends with ⟨hc, -, -, hfate⟩ | ⟨e, -, hd, -⟩ | ⟨hc, hfate⟩
  · exact iff_of_true (hfate.trans hf) hc
  · exact absurd rfl (hd v)
  · refine iff_of_false hfate fun hreturns => ?_
    rw [hreturns] at hc
    rcases hc with h | ⟨w, e, -, h⟩ <;> cases h

/-- **Destructors that raise.** Along a program's run no destructor of `AsyncRequest` raises, if and
only if no variable is destroyed that is the last to hold a request whose response is a failure,
whether that was waited for or not. -/
theorem quiet_iff (ops : List (Op V P)) :
    StepsOk step Quiet .start ops ↔ StepsOk step DestroysSafely .start ops := by
  refine stepsOk_congr orderly_start orderly_step (fun s o hs => ?_) ops
  refine forall_congr' fun hf => forall_congr' fun hscoped => ?_
  obtain ⟨hr, ht⟩ := hs hf
  rw [step, if_pos ⟨hf, hscoped⟩]
  constructor
  · rintro ⟨-, hgoes⟩ v rfl
    exact (destroy_running_iff ht hr v hf).mp (hgoes v rfl)
  · intro hsafe
    by_cases hd : ∀ v, o ≠ .destroy v
    · exact ⟨not_terminated hr hd hf, fun v hv => absurd hv (hd v)⟩
    · push Not at hd
      obtain ⟨v, rfl⟩ := hd
      have hgoes := (destroy_running_iff ht hr v hf).mpr (hsafe v rfl)
      refine ⟨fun hterminated => ?_, fun _ _ => hgoes⟩
      cases hgoes.symm.trans hterminated

/-- A request to an unknown phonebook goes out of scope. -/
def failAndForget : List (Op Unit Unit) :=
  [.construct (), .computeSum ()
    ⟨false, "Phonebook with UUID 00000000-0000-0000-0000-000000000000 not found", none⟩
    none, .destroy ()]

/-- The exception leaves the destructor. -/
theorem not_quiet_failAndForget : ¬ StepsOk step Quiet .start failAndForget := by
  intro h
  have hraised : (run failAndForget).fate = .terminated := by decide
  exact (h (failAndForget.take 2) (.destroy ()) (List.prefix_refl _) (by decide)
    (by decide)).1 hraised

/-! ### Requests that are dropped -/

/-- Every request that nobody holds any more was waited for. -/
def NoneDropped (s : Program V P) : Prop := ∀ r, r < s.heap.length → Free s.self r → .wait r ∈ s.log

/-- A call of `computeSum` ends with its variable tracking the new request, or the request waited
for. -/
def KeepsTrack (s : Program V P) (o : Op V P) : Prop :=
  s.fate = .running → o.Scoped s → ∀ req response result, o = .computeSum req response result →
    (step s o).self (.variable req) = some s.heap.length ∨ .wait s.heap.length ∈ (step s o).log

/-- The variable given to `computeSum` is not the last to hold a request that failed. -/
def IssuesSafely (s : Program V P) (o : Op V P) : Prop :=
  s.fate = .running → o.Scoped s → ∀ req response result, o = .computeSum req response result →
    LastSucceeds s req

omit [Fintype V] [DecidableEq V] in
theorem wait_mem_wait (ht : Tidy s) (hv : Valid s) (h : Holder V) (r : Ref) :
    .wait r ∈ (s.wait h).1.log ↔ .wait r ∈ s.log ∨ s.self h = some r := by
  have hres := wait_result hv h
  generalize s.wait h = x at hres
  cases hres with
  | invalid null => simp [null]
  | again r' impl ptr obj waited =>
    have hconsumed : impl.consumed = true := by
      have hw := ht.waited r' impl obj
      rw [waited] at hw
      exact (Bool.and_eq_true_iff.mp hw.symm).1
    refine ⟨Or.inl, fun h => h.elim id fun hp => ?_⟩
    obtain rfl := Option.some.inj (hp.symm.trans ptr)
    exact (ht.logged r).mpr ⟨impl, obj, hconsumed⟩
  | twice r' impl ptr | failed r' impl ptr | succeeded r' impl ptr => simp [ptr, writes, eq_comm]

omit [DecidableEq V] in
theorem wait_mem_waitIfUnique (ht : Tidy s) (hv : Valid s) (v : V) (r : Ref) :
    .wait r ∈ (s.waitIfUnique (.variable v)).1.log ↔ .wait r ∈ s.log ∨ lastOf s v = some r := by
  unfold Program.waitIfUnique lastOf
  split_ifs
  · exact wait_mem_wait ht hv _ r
  · simp

theorem wait_mem_consult (ht : Tidy s) (hr : AtRest s) (o : Op V P) (r : Ref) :
    .wait r ∈ (consult s o).1.log ↔ .wait r ∈ s.log ∨ waitsFor s o = some r := by
  have hv : Valid s := hr.valid
  cases o with
  | construct | copyConstruct | moveConstruct => simp [consult, waitsFor]
  | copyAssign v other | moveAssign v other =>
    dsimp only [consult, waitsFor]
    split_ifs
    · simp
    · exact wait_mem_waitIfUnique ht hv v r
  | computeSum req response result =>
    rw [consult, wait_mem_waitIfUnique (ht.issued response result)
      (valid_issued hv response result), lastOf_issued hr]
    rfl
  | wait v => exact wait_mem_wait ht hv _ r
  | completed v arrived =>
    have hres := completed_result hv (.variable v) arrived
    dsimp only [consult, waitsFor]
    generalize s.completed (.variable v) arrived = x at hres
    cases hres with
    | invalid => simp
    | pending | late => simp
  | destroy v => exact wait_mem_waitIfUnique ht hv v r

theorem length_fresh (ht : Tidy s) (hr : AtRest s) (o : Op V P) :
    .wait s.heap.length ∉ (consult s o).1.log ∧ Free s.self s.heap.length := by
  have hfree : Free s.self s.heap.length := fun h hp => lt_irrefl _ (hr.valid h _ hp)
  refine ⟨fun hw => ?_, hfree⟩
  have hlast : ∀ v, lastOf s v ≠ some s.heap.length := fun v hp => by
    unfold lastOf at hp
    split_ifs at hp
    exact hfree _ hp
  rcases (wait_mem_consult ht hr o _).mp hw with hlog | hwaits
  · obtain ⟨impl, hobj, -⟩ := (ht.logged _).mp hlog
    exact lt_irrefl _ (List.getElem?_eq_some_iff.mp hobj).1
  · cases o with
    | construct | copyConstruct | moveConstruct | completed => cases hwaits
    | copyAssign v other | moveAssign v other =>
      dsimp only [waitsFor] at hwaits
      split_ifs at hwaits
      exact hlast v hwaits
    | computeSum v | destroy v => exact hlast v hwaits
    | wait v => exact hfree _ hwaits

/-- A statement that issues its request safely, if any, drops none. -/
theorem NoneDropped.perform (hs : NoneDropped s) (ht : Tidy s) (hr : AtRest s) {o : Op V P}
    (hscoped : o.Scoped s)
    (hsafe : ∀ req response result, o = .computeSum req response result → LastSucceeds s req) :
    NoneDropped (perform s o) := by
  intro r hlt hfree
  obtain ⟨hheap, hlog, -⟩ := performed hr o
  rw [hheap, heap_consult hr.valid] at hlt
  rw [hlog, wait_mem_consult ht hr]
  by_cases hc : (consult s o).2 = .returns ()
  · have hself : (AsyncRequest.perform s o).self = pointers s o := by
      rcases (performed hr o).ends with ⟨-, hself, -⟩ | ⟨e, hthrew, -⟩ | ⟨hover, -⟩
      · exact hself
      · exact nomatch hc.symm.trans hthrew
      · rcases hover with h | ⟨v, e, -, h⟩ <;> exact nomatch hc.symm.trans h
    rw [hself] at hfree
    have hold : r < s.heap.length := (lt_or_held s o hlt).resolve_right fun ⟨h, hp⟩ => hfree h hp
    exact (free_pointers hr hscoped hfree).imp_left (hs r hold)
  · -- the pointers stay, and a request was issued only if that goes well
    rw [self_of_not_returned hr hc] at hfree
    have hissues : issues o = 0 := by
      cases o with
      | computeSum req response result =>
        exact absurd ((consult_computeSum_returns_iff ht hr req response result).mpr
          (hsafe _ _ _ rfl)) hc
      | _ => rfl
    rw [hissues] at hlt
    exact Or.inl (hs r hlt hfree)

theorem dropped_of_failed (ht : Tidy s) (hr : AtRest s) {req : V} (response : RequestResult Int32)
    (result : Option P) (hfailed : ¬ LastSucceeds s req) :
    ¬ NoneDropped (perform s (.computeSum req response result)) := by
  intro h
  obtain ⟨hheap, hlog, -⟩ := performed hr (.computeSum req response result)
  have hc : (consult s (.computeSum req response result)).2 ≠ .returns () := fun hreturns =>
    hfailed ((consult_computeSum_returns_iff ht hr req response result).mp hreturns)
  obtain ⟨hwait, hfree⟩ := length_fresh ht hr (.computeSum req response result)
  refine hwait ?_
  rw [← hlog]
  refine h _ ?_ (by rw [self_of_not_returned hr hc]; exact hfree)
  rw [hheap, heap_consult hr.valid]
  exact Nat.lt_succ_self _

/-- **Requests that are dropped.** Along a program's run no request is dropped without having been
waited for and each call of `computeSum` leaves its variable with the new request, if and only if no
call is given the last variable to hold a request whose response is a failure. -/
theorem noneDropped_iff (ops : List (Op V P)) :
    (Along step NoneDropped .start ops ∧ StepsOk step KeepsTrack .start ops) ↔
      StepsOk step IssuesSafely .start ops := by
  have hdropped : Along step NoneDropped .start ops ↔ StepsOk step IssuesSafely .start ops := by
    refine along_iff_stepsOk (I := fun s => Orderly s ∧ NoneDropped s)
      ⟨orderly_start, fun r hr => ?_⟩
      ?_ (fun s hs => hs.2) ?_ ops
    · exact absurd hr (Nat.not_lt_zero r)
    · rintro s o ⟨hs, hnone⟩ hsafe
      refine ⟨orderly_step s o hs, ?_⟩
      unfold step
      split_ifs with hrun
      · obtain ⟨hr, ht⟩ := hs hrun.1
        exact hnone.perform ht hr hrun.2 (hsafe hrun.1 hrun.2)
      · exact hnone
    · rintro s o ⟨hs, -⟩ hbad
      unfold IssuesSafely at hbad
      push Not at hbad
      obtain ⟨hf, hscoped, req, response, result, rfl, hfailed⟩ := hbad
      obtain ⟨hr, ht⟩ := hs hf
      rw [step, if_pos ⟨hf, hscoped⟩]
      exact dropped_of_failed ht hr response result hfailed
  refine ⟨fun h => hdropped.mp h.1, fun h => ⟨hdropped.mpr h, ?_⟩⟩
  rintro pre o hpre hf hscoped req response result rfl
  obtain ⟨hr, ht⟩ := exec_induction step orderly_start orderly_step pre hf
  have hreturns := (consult_computeSum_returns_iff ht hr req response result).mpr
    (h pre _ hpre hf hscoped req response result rfl)
  rw [step, if_pos ⟨hf, hscoped⟩]
  obtain ⟨-, -, hends⟩ := performed hr (.computeSum req response result)
  rcases hends with ⟨-, hself, -⟩ | ⟨e, hthrew, -⟩ | ⟨hover, -⟩
  · exact Or.inl (by rw [hself]; exact Function.update_self ..)
  · cases hreturns.symm.trans hthrew
  · rcases hover with hover | ⟨v, e, ho, -⟩
    · cases hreturns.symm.trans hover
    · cases ho

/-- The variable of a request to an unknown phonebook is used for another request. -/
def failAndReuse : List (Op Unit Unit) :=
  [.construct (), .computeSum ()
    ⟨false, "Phonebook with UUID 00000000-0000-0000-0000-000000000000 not found", none⟩
    none, .computeSum () ⟨true, "", some 7⟩ none]

/-- The second request is sent and dropped. -/
theorem dropped_failAndReuse :
    ¬ (Along step NoneDropped .start failAndReuse ∧
      StepsOk step KeepsTrack .start failAndReuse) := by
  rintro ⟨hnone, -⟩
  have hself : Free (exec step .start failAndReuse).self 1 := by unfold Free; decide
  have hsent : (exec step .start failAndReuse).heap.length = 2 := by decide
  have hlog : (exec step .start failAndReuse).log = [.callback 0, .wait 0] := by decide
  have hwaited :=
    hnone failAndReuse (List.prefix_refl _) 1 (by rw [hsent]; exact Nat.one_lt_two) hself
  rw [hlog] at hwaited
  simp at hwaited

end Phonebook.Client.Exceptions
