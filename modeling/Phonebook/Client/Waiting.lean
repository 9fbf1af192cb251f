import Phonebook.Client.Handle
import Phonebook.Client.Steps

/-! # Waiting for sums

`PhonebookHandle::computeSum` deals with the response twice: in the synchronous branch, and in the
callback that the first `wait` on the request runs. Both come to `deliver`. A request that was
issued stays open until it is waited for, whatever is done with the others (`Pending.wait`), so the
first wait on it does what the synchronous call does, in whatever order the requests are handled and
waited for (`async_eq_sync`). -/

namespace Phonebook.Client.Waiting

open Phonebook.Data.Values Phonebook.Server.Backends Phonebook.Server.Provider
open Phonebook.Server.Handlers Phonebook.Client.Handle Phonebook.Client.AsyncRequest
open Phonebook.Client.Steps Phonebook.Lib.Runs Phonebook.Lib.SharedPtr

/-! ### What a response does to the caller -/

section Deliver
variable {P : Type} [DecidableEq P]

/-- What the result pointers point to; `none` is a value that was never assigned. -/
abbrev Memory (P : Type) := P → Option Int32

/-- What a logged event does to the memory. -/
def store (m : Memory P) : Event P → Memory P
  | .write _ q value => Function.update m q value
  | .callback _ | .wait _ | .received _ => m

/-- The memory after the events. -/
def memory (m : Memory P) (log : List (Event P)) : Memory P := log.foldl store m

/-- The value of a success is written through a pointer that is not null, and the error of a failure
is thrown. -/
def deliver (response : RequestResult Int32) (result : Option P) (m : Memory P) :
    Cpp Unit × Memory P :=
  if response.success then (.returns (), result.elim m fun q => Function.update m q response.value)
  else (.throws (.stdException response.error), m)

end Deliver

/-! ### The synchronous call -/

section Sync
variable {α P : Type} [DecidableEq P]

/-- A call of `computeSum` on a handle to a phonebook, with its result pointer. -/
structure SumCall (P : Type) where
  phonebookId : UUID
  x : Int32
  y : Int32
  result : Option P

/-- The request the call sends. -/
def SumCall.request (c : SumCall P) : Request := .computeSum c.phonebookId c.x c.y

/-- The synchronous call, with what it does to the memory; `none` if no response comes back. -/
def syncCall (env : Env α) (p : ProviderImpl α) (c : SumCall P) (m : Memory P) :
    Option (Cpp Unit × Memory P) :=
  match computeSum env p ⟨some ⟨c.phonebookId⟩⟩ c.x c.y with
  | .returned value => some (.returns (), c.result.elim m fun q => Function.update m q value)
  | .thrown what => some (.throws (.stdException what), m)
  | .unanswered => none

theorem syncCall_of_response {env : Env α} {p : ProviderImpl α} {c : SumCall P}
    {response : RequestResult Int32} (h : (serve env p c.request).responses = [.int32 response])
    (m : Memory P) :
    syncCall env p c m = some (deliver response c.result m) := by
  have hresponses : (computeSumRPC env p c.phonebookId c.x c.y).responses = [.int32 response] := h
  unfold syncCall computeSum deliver
  dsimp only
  rw [hresponses]
  rcases hs : response.success with _ | _ <;> simp [hs]

/-- Computing a sum leaves the registered backends as they are. -/
def SumsKeepBackends (env : Env α) (p : ProviderImpl α) : Prop :=
  ∀ id b, p.mBackends.lookup id = some b → ∀ x y, (env.ops.computeSum b.derived x y).2 = b.derived

omit [DecidableEq P] in
theorem serve_request_provider {env : Env α} {p : ProviderImpl α} (h : SumsKeepBackends env p)
    (c : SumCall P) :
    (serve env p c.request).provider = p := by
  show (computeSumRPC env p c.phonebookId c.x c.y).provider = p
  rcases hl : p.mBackends.lookup c.phonebookId with _ | b
  · rw [computeSumRPC_unknown hl]
    rfl
  · have hkept := h c.phonebookId b hl c.x c.y
    rcases hc : env.ops.computeSum b.derived c.x c.y with ⟨r | e | _, d⟩ <;> rw [hc] at hkept
    · rw [computeSumRPC_returned env hl hc]
      exact congrArg (ProviderImpl.mk p.mToken) (insert_of_lookup hl hkept)
    · rw [computeSumRPC_threw hl hc]
      exact congrArg (ProviderImpl.mk p.mToken) (insert_of_lookup hl hkept)
    · rw [computeSumRPC_undefined hl hc]
      rfl

variable {n : ℕ}

/-- The provider after it handled the calls in the order. -/
def handled (env : Env α) (calls : Fin n → SumCall P) (p : ProviderImpl α) (order : List (Fin n)) :
    ProviderImpl α :=
  exec (fun p i => (serve env p (calls i).request).provider) p order

/-- The response to a call when the provider handles the calls in the order. -/
def Responded (env : Env α) (calls : Fin n → SumCall P) (p : ProviderImpl α) (order : List (Fin n))
    (i : Fin n)
    (response : RequestResult Int32) : Prop :=
  ∃ pre, pre ++ [i] <+: order ∧
    (serve env (handled env calls p pre) (calls i).request).responses = [.int32 response]

omit [DecidableEq P] in
theorem handled_eq {env : Env α} {p : ProviderImpl α} (h : SumsKeepBackends env p)
    (calls : Fin n → SumCall P)
    (order : List (Fin n)) : handled env calls p order = p :=
  exec_induction (P := fun q => q = p) _ rfl
    (fun q i hq => by rw [hq]; exact serve_request_provider h (calls i)) order

end Sync

/-! ### A request that was not waited for -/

section Open
variable {V P : Type} {s : Program V P} {v : V} {response : RequestResult Int32} {result : Option P}

/-- The variable holds a request with this response and result pointer, and it was not waited
for. -/
def Open (s : Program V P) (v : V) (response : RequestResult Int32) (result : Option P) : Prop :=
  ∃ r, s.self (.variable v) = some r ∧ s.heap[r]? = some ⟨response, false, false, result⟩

/-- **The first wait** delivers the response. -/
theorem wait_of_open [DecidableEq P] (h : Open s v response result) (m : Memory P) :
    ((s.wait (.variable v)).2, memory m (s.wait (.variable v)).1.log) = deliver response result
      (memory m s.log) := by
  obtain ⟨r, hself, hobj⟩ := h
  unfold Program.wait Program.waitCallback deliver
  rw [hself]
  dsimp only
  rw [hobj]
  rcases hs : response.success with _ | _
  · simp [hs, memory, store]
  · rcases result with _ | q <;> simp [hs, memory, store]

theorem wait_open_cases (h : Open s v response result) :
    ∃ (r : Ref) (impl : AsyncRequestImpl P) (new : List (Event P)), s.self (.variable v) = some r ∧
      (s.wait (.variable v)).1 = { s with heap := s.heap.set r impl, log := s.log ++ new } ∧
        (s.wait (.variable v)).2 ≠ .undefined := by
  obtain ⟨r, hself, hobj⟩ := h
  unfold Program.wait Program.waitCallback
  rw [hself]
  dsimp only
  rw [hobj]
  rcases hs : response.success with _ | _
  · exact ⟨r, _, [.callback r, .wait r], rfl, by simp [hs]; rfl, by simp [hs]⟩
  · rcases result with _ | q
    · exact ⟨r, _, [.callback r, .wait r], rfl, by simp [hs]; rfl, by simp [hs]⟩
    · exact ⟨r, _, [.callback r, .wait r, .write r q response.value],
        rfl, by simp [hs]; rfl, by simp [hs]⟩

end Open

/-! ### Requests issued together -/

section Pending
variable {V P : Type} [Fintype V] [DecidableEq V] {s : Program V P} {v : V}
variable {responses : V → RequestResult Int32} {results : V → Option P} {opened : V → Prop}

/-- Some variables hold each a request of its own, which was not waited for. -/
structure Pending (responses : V → RequestResult Int32) (results : V → Option P) (opened : V → Prop)
    (s : Program V P) : Prop where
  running : s.fate = .running
  rest : AtRest s
  own : ∀ v w r, s.self (.variable v) = some r → s.self (.variable w) = some r → v = w
  declared : ∀ v, opened v → s.declared v = true
  request : ∀ v, opened v → Open s v (responses v) (results v)

theorem computeSum_empty (hr : AtRest s) (hv : s.self (.variable v) = none)
    (response : RequestResult Int32) (result : Option P) :
    s.computeSum v response result =
      ({ s with
          self := Function.update s.self (.variable v) (some s.heap.length)
          heap := s.heap ++ [⟨response, false, false, result⟩] },
        .returns ()) := by
  have hnull : ¬ Unique (issued s response result).self (.variable v) :=
    not_unique_of_null ((issued_variable response result v).trans hv)
  rw [computeSum_eq hr.valid hr.temporary hr.asyncRequestImpl, Program.waitIfUnique, if_neg hnull]
  rfl

theorem open_computeSum (hr : AtRest s) (hv : s.self (.variable v) = none)
    (response : RequestResult Int32)
    (result : Option P) : Open (s.computeSum v response result).1 v response result := by
  rw [computeSum_empty hr hv]
  exact ⟨s.heap.length, Function.update_self .., by simp⟩

/-- The statements that issue one request into a new variable. -/
def issue (responses : V → RequestResult Int32) (results : V → Option P) (v : V) : List (Op V P) :=
  [.construct v, .computeSum v (responses v) (results v)]

theorem atRest_step (hr : AtRest s) {o : Op V P} (hf : (step s o).fate = .running) :
    AtRest (step s o) := by
  unfold step at hf ⊢
  split_ifs at hf ⊢ with hrun
  · exact atRest_perform hr hrun.2 hf
  · exact hr

variable (responses results) in
theorem exec_issue (hr : AtRest s) (hf : s.fate = .running) (hv : s.declared v = false) :
    exec step s (issue responses results v) =
        { s with
          self := Function.update s.self (.variable v) (some s.heap.length)
          declared := Function.update s.declared v true
          heap := s.heap ++ [⟨responses v, false, false, results v⟩] } ∧
      AtRest (exec step s (issue responses results v)) := by
  have hnull : s.self (.variable v) = none := hr.undeclared v hv
  have hconstruct :
    step s (.construct v) = { s with declared := Function.update s.declared v true } := by
    have hsame : Function.update s.self (.variable v) none = s.self := by
      rw [← hnull, Function.update_eq_self]
    rw [step, if_pos ⟨hf, hv⟩]
    simp only [perform, Program.declare, Program.put, hsame]
  have hrest : AtRest (step s (.construct v)) := atRest_step hr (by rw [hconstruct]; exact hf)
  have hissued : exec step s (issue responses results v) =
      { s with
        self := Function.update s.self (.variable v) (some s.heap.length)
        declared := Function.update s.declared v true
        heap := s.heap ++ [⟨responses v, false, false, results v⟩] } := by
    rw [issue, exec_cons, exec_cons, exec_nil]
    rw [hconstruct] at hrest ⊢
    rw [step, if_pos ⟨hf, Function.update_self ..⟩, perform, computeSum_empty hrest hnull]
    rfl
  refine ⟨hissued, ?_⟩
  rw [issue, exec_cons, exec_cons, exec_nil] at hissued ⊢
  exact atRest_step hrest (by rw [hissued]; exact hf)

/-- **One more request** is issued. -/
theorem Pending.issue (h : Pending responses results opened s) (hv : s.declared v = false) :
    Pending responses results (fun w => opened w ∨ w = v)
      (exec step s (issue responses results v)) := by
  obtain ⟨hissued, hrest⟩ := exec_issue responses results h.rest h.running hv
  rw [hissued] at hrest ⊢
  -- the new request has a number that nobody held
  have hnew : ∀ w r, s.self (.variable w) = some r → r ≠ s.heap.length :=
    fun w r hr => (h.rest.valid _ _ hr).ne
  refine ⟨h.running, hrest, fun w w' r hw hw' => ?_, fun w hw => ?_, fun w hw => ?_⟩
  · simp only [Function.update_apply, Holder.variable.injEq] at hw hw'
    split_ifs at hw hw' with hwv hwv' hwv'
    · rw [hwv, hwv']
    · exact absurd (Option.some.inj hw).symm (hnew w' r hw')
    · exact absurd (Option.some.inj hw').symm (hnew w r hw)
    · exact h.own w w' r hw hw'
  · by_cases hwv : w = v
    · simp [hwv]
    · simpa [hwv] using h.declared w (hw.resolve_right hwv)
  · by_cases hwv : w = v
    · rw [hwv]
      exact ⟨s.heap.length, Function.update_self .., by simp⟩
    · obtain ⟨r, hself, hobj⟩ := h.request w (hw.resolve_right hwv)
      have hlt : r < s.heap.length := (List.getElem?_eq_some_iff.mp hobj).1
      exact ⟨r, by simpa [hwv] using hself, by rw [List.getElem?_append_left hlt]; exact hobj⟩

/-- **One wait**, on a request that is open. -/
theorem Pending.wait (h : Pending responses results opened s) (hv : opened v) :
    Pending responses results (fun w => opened w ∧ w ≠ v) (step s (.wait v)) := by
  have hrun : s.fate = .running ∧ (Op.wait v : Op V P).Scoped s := ⟨h.running, h.declared v hv⟩
  obtain ⟨r, impl, new, hself, hstate, hexit⟩ := wait_open_cases (h.request v hv)
  have hstep : step s (.wait v) = { s with heap := s.heap.set r impl, log := s.log ++ new } := by
    rw [step, if_pos hrun, perform, ← hstate]
    rcases hw : s.wait (.variable v) with ⟨s', exit | e | _⟩
    · rfl
    · rfl
    · rw [hw] at hexit
      exact absurd rfl hexit
  have hrest : AtRest (step s (.wait v)) := atRest_step h.rest (by rw [hstep]; exact h.running)
  rw [hstep] at hrest ⊢
  refine ⟨h.running, hrest, h.own, fun w hw => h.declared w hw.1, fun w hw => ?_⟩
  obtain ⟨r', hself', hobj⟩ := h.request w hw.1
  have hne : r ≠ r' := by
    rintro rfl
    exact hw.2 (h.own w v r hself' hself)
  exact ⟨r', hself', by rw [List.getElem?_set_ne hne]; exact hobj⟩

omit [Fintype V] [DecidableEq V] in
theorem Pending.mono {opened' : V → Prop} (h : Pending responses results opened s)
    (hsub : ∀ v, opened' v → opened v) : Pending responses results opened' s :=
  ⟨h.running, h.rest, h.own, fun v hv => h.declared v (hsub v hv),
    fun v hv => h.request v (hsub v hv)⟩

variable (responses results) in
theorem pending_issues (vs : List V) (hnodup : vs.Nodup) :
    Pending responses results (· ∈ vs) (run (vs.flatMap (issue responses results))) ∧
      ∀ v ∉ vs, (run (vs.flatMap (issue responses results))).declared v = false := by
  induction vs using List.reverseRecOn with
  | nil => exact ⟨⟨rfl, atRest_start, nofun, nofun, nofun⟩, fun _ _ => rfl⟩
  | append_singleton vs v ih =>
    have hsplit : (vs ++ [v]).Nodup ↔ vs.Nodup ∧ v ∉ vs := by
      rw [← List.concat_eq_append, List.nodup_concat, and_comm]
    obtain ⟨hvs, hv⟩ := hsplit.mp hnodup
    obtain ⟨hpending, hrest⟩ := ih hvs
    have hrun : run ((vs ++ [v]).flatMap (issue responses results)) =
        exec step (run (vs.flatMap (issue responses results))) (issue responses results v) := by
      rw [List.flatMap_append, List.flatMap_singleton, run, exec_append]
      rfl
    rw [hrun]
    refine ⟨(hpending.issue (hrest v hv)).mono fun w hw => by simpa using hw, fun w hw => ?_⟩
    obtain ⟨hwvs, hwv⟩ : w ∉ vs ∧ w ≠ v := by simpa using hw
    rw [(exec_issue responses results hpending.rest hpending.running (hrest v hv)).1]
    simpa [hwv] using hrest w hwvs

/-- **Waits**, each on a request of its own. -/
theorem Pending.waits (h : Pending responses results opened s) {pre : List V} (hnodup : pre.Nodup)
    (hopened : ∀ v ∈ pre, opened v) :
    Pending responses results (fun v => opened v ∧ v ∉ pre) (exec step s (pre.map .wait)) := by
  induction pre generalizing s opened with
  | nil => exact h.mono fun v hv => hv.1
  | cons v pre ih =>
    obtain ⟨hv, hpre⟩ := List.nodup_cons.mp hnodup
    have hone : Pending responses results (fun w => opened w ∧ w ≠ v) (step s (.wait v)) :=
      h.wait (hopened v List.mem_cons_self)
    have hall :=
      ih hone hpre fun w hw => ⟨hopened w (List.mem_cons_of_mem v hw), fun heq => hv (heq ▸ hw)⟩
    refine hall.mono fun w hw => ?_
    obtain ⟨hwv, hwpre⟩ : w ≠ v ∧ w ∉ pre := by simpa using hw.2
    exact ⟨⟨hw.1, hwv⟩, hwpre⟩

end Pending

/-! ### Asynchronous calls are synchronous calls -/

section Agreement
variable {α P : Type} [DecidableEq P] {n : ℕ}

/-- The calls are issued one after the other, each with an `AsyncRequest` of its own. -/
def issueAll (calls : Fin n → SumCall P) (responses : Fin n → RequestResult Int32) :
    List (Op (Fin n) P) :=
  (List.finRange n).flatMap (issue responses fun i => (calls i).result)

/-- **Asynchronous and synchronous calls.** Let a provider whose backends are left as they are by
sums handle the calls in any order, and the caller wait for the requests in any order. Then the
first wait on each request returns or throws as the synchronous call does, and does to the memory
what the synchronous call does; and the provider is the same after the calls of either kind. -/
theorem async_eq_sync (env : Env α) (p : ProviderImpl α) (hkeep : SumsKeepBackends env p)
    (calls : Fin n → SumCall P) (order : List (Fin n)) (responses : Fin n → RequestResult Int32)
    (hresponded : ∀ i, Responded env calls p order i (responses i)) (waits : List (Fin n))
    (hwaits : waits.Perm (List.finRange n)) (m : Memory P) :
    (∀ pre i, pre ++ [i] <+: waits →
      let s := run (issueAll calls responses ++ pre.map .wait)
      syncCall env p (calls i) (memory m s.log) =
        some ((s.wait (.variable i)).2, memory m (s.wait (.variable i)).1.log)) ∧
    handled env calls p order = p ∧ handled env calls p (List.finRange n) = p := by
  refine ⟨fun pre i hpre => ?_, handled_eq hkeep calls order, handled_eq hkeep calls _⟩
  have hnodup : (pre ++ [i]).Nodup :=
    (hwaits.nodup_iff.mpr (List.nodup_finRange n)).sublist hpre.sublist
  obtain ⟨hi, hpre⟩ : i ∉ pre ∧ pre.Nodup := by
    rw [← List.concat_eq_append, List.nodup_concat] at hnodup
    exact hnodup
  have hissued :=
    (pending_issues responses (fun i => (calls i).result) (List.finRange n)
      (List.nodup_finRange n)).1
  have hopen :=
    (hissued.waits hpre fun v _ => List.mem_finRange v).request i ⟨List.mem_finRange i, hi⟩
  obtain ⟨before, -, hresponse⟩ := hresponded i
  rw [handled_eq hkeep] at hresponse
  dsimp only
  rw [syncCall_of_response hresponse, run, issueAll, exec_append]
  exact congrArg some (wait_of_open hopen m).symm

/-- A provider with one dummy phonebook, for the zero id. -/
def oneDummy : ProviderImpl DummyPhonebook := ⟨"", Finmap.singleton .clear ⟨"dummy", ⟨.object []⟩⟩⟩

theorem lookup_oneDummy : oneDummy.mBackends.lookup .clear = some ⟨"dummy", ⟨.object []⟩⟩ :=
  Finmap.lookup_singleton_eq

/-- A call to the phonebook there is, and one to another. -/
def twoCalls : Fin 2 → SumCall Bool
  | 0 => ⟨.clear, 42, 52, some false⟩
  | 1 => ⟨⟨fun _ => 1⟩, 42, 51, some true⟩

/-- Their responses. -/
def twoResponses : Fin 2 → RequestResult Int32
  | 0 => ⟨true, "", some 94⟩
  | 1 => ⟨false, "Phonebook with UUID 01010101-0101-0101-0101-010101010101 not found", none⟩

theorem async_eq_sync_twoCalls :
    let s := run (issueAll twoCalls twoResponses ++ [.wait 1])
    syncCall (DummyPhonebook.env .sample uuidUnparse) oneDummy (twoCalls 0)
      (memory (fun _ => none) s.log) =
      some ((s.wait (.variable 0)).2, memory (fun _ => none) (s.wait (.variable 0)).1.log) := by
  refine (async_eq_sync (DummyPhonebook.env .sample uuidUnparse) oneDummy
    (fun _ _ _ _ _ => rfl) twoCalls [0, 1]
    twoResponses (fun i => ?_) [1, 0] (by decide) fun _ => none).1 [1] 0 (List.prefix_refl _)
  match i with
  | 0 =>
    refine ⟨[], ⟨[1], rfl⟩, ?_⟩
    show (computeSumRPC _ oneDummy .clear 42 52).responses = _
    rw [computeSumRPC_returned _ lookup_oneDummy rfl]
    rfl
  | 1 =>
    refine ⟨[0], List.prefix_refl _, ?_⟩
    have hunknown : oneDummy.mBackends.lookup ⟨fun _ => 1⟩ = none := by decide
    have hkept :
      handled (DummyPhonebook.env .sample uuidUnparse) twoCalls oneDummy [0] = oneDummy :=
      handled_eq (fun _ _ _ _ _ => rfl) twoCalls [0]
    rw [hkept]
    show (computeSumRPC _ oneDummy ⟨fun _ => 1⟩ 42 51).responses = _
    rw [computeSumRPC_unknown hunknown]
    decide

end Agreement

end Phonebook.Client.Waiting
