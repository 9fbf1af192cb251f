import Phonebook.Lib.Cells
import Phonebook.Server.Handlers

/-! # Requests on different phonebooks

What a handler does depends on the token of the provider and on the entry of one id, the one the
request names or will draw, and it changes no other entry (`serve_eq`). So the registry is a row of
cells, and requests for different ids may be handled in any order (`requests_perm`), unless one of
them ends the process: a handler left by an exception, or in undefined behaviour, does, and those
after it are not handled (`not_requests_perm_createNullCheck`). -/

namespace Phonebook.Server.Commutation

open Phonebook.Data.Values Phonebook.Data.JsonTree Phonebook.Lib.Runs Phonebook.Lib.Cells
open Phonebook.Server.Backends Phonebook.Server.Provider Phonebook.Server.Handlers

variable {α : Type} (env : Env α)

/-- The id a request is about. -/
def target : Request → UUID
  | .createPhonebook _ _ _ drawn | .openPhonebook _ _ _ drawn => drawn
  | .closePhonebook _ id
  | .destroyPhonebook _ id | .checkPhonebook id | .sayHello id | .computeSum id _ _ => id

/-- The entry of an id is set or cleared. -/
def put (p : ProviderImpl α) (id : UUID) : Option (Backend α) → ProviderImpl α
  | some b => { p with mBackends := p.mBackends.insert id b }
  | none => { p with mBackends := p.mBackends.erase id }

/-- What becomes of an entry, the responses, and how the handler ends. -/
abbrev Slot (α : Type) := Option (Backend α) × List Response × Cpp Unit

/-- The two RPCs that add a phonebook, seen from the entry of the id they draw. -/
def fill (id : UUID) (found : Option (Backend α)) : Prepared α → Slot α
  | .refused error => (found, [failed error], .returns ())
  | .escaped exit => (found, [], exit)
  | .built b => (some b, [added id], .returns ())

/-- A handler seen from the entry of the id its request is about. -/
def slot (mToken : String) (found : Option (Backend α)) : Request → Slot α
  | .createPhonebook token ty config drawn =>
    fill drawn found (prepare env mToken token ty config (env.factory.createPhonebook ty))
  | .openPhonebook token ty config drawn =>
    fill drawn found (prepare env mToken token ty config (env.factory.openPhonebook ty))
  | .closePhonebook token id =>
    if Rejects mToken token then (found, [.bool ⟨false, "Invalid security token"⟩], .returns ())
    else
      match found with
      | none =>
        (none, [.bool ⟨false, "Phonebook " ++ env.uuidUnparse id ++ " not found"⟩], .returns ())
      | some _ => (none, [.bool .init], .returns ())
  | .destroyPhonebook token id =>
    if Rejects mToken token then (found, [.bool ⟨false, "Invalid security token"⟩], .returns ())
    else
      match found with
      | none =>
        (none, [.bool ⟨false, "Phonebook " ++ env.uuidUnparse id ++ " not found"⟩], .returns ())
      | some b =>
        match env.ops.destroy b.derived with
        | (.returns r, _) => (none, [.bool r], .returns ())
        | (.throws e, d) => (some { b with derived := d }, [], .throws e)
        | (.undefined, _) => (some b, [], .undefined)
  | .checkPhonebook id =>
    match found with
    | none =>
      (none, [.bool ⟨false, "Phonebook with UUID " ++ env.uuidUnparse id ++ " not found"⟩],
        .returns ())
    | some b => (some b, [.bool .init], .returns ())
  | .sayHello id =>
    match found with
    | none =>
      (none, [.bool ⟨false, "Phonebook with UUID " ++ env.uuidUnparse id ++ " not found"⟩],
        .returns ())
    | some b =>
      (some { b with derived := (env.ops.sayHello b.derived).2 }, [],
        (env.ops.sayHello b.derived).1)
  | .computeSum id x y =>
    match found with
    | none =>
      (none, [.int32 ⟨false, "Phonebook with UUID " ++ env.uuidUnparse id ++ " not found", none⟩],
        .returns ())
    | some b =>
      match env.ops.computeSum b.derived x y with
      | (.returns r, d) => (some { b with derived := d }, [.int32 r], .returns ())
      | (.throws e, d) => (some { b with derived := d }, [], .throws e)
      | (.undefined, _) => (some b, [], .undefined)

/-! ### Entries -/

section Entries
variable {p : ProviderImpl α} {id : UUID}

@[simp] theorem mToken_put (x : Option (Backend α)) : (put p id x).mToken = p.mToken := by
  rcases x with _ | b <;> rfl

theorem lookup_put_self (x : Option (Backend α)) : (put p id x).mBackends.lookup id = x := by
  rcases x with _ | b
  · exact Finmap.lookup_erase id p.mBackends
  · exact Finmap.lookup_insert p.mBackends

theorem lookup_put_of_ne {id' : UUID} (hne : id' ≠ id) (x : Option (Backend α)) :
    (put p id x).mBackends.lookup id' = p.mBackends.lookup id' := by
  rcases x with _ | b
  · exact Finmap.lookup_erase_ne hne
  · exact Finmap.lookup_insert_of_ne p.mBackends hne

theorem provider_ext {p' : ProviderImpl α} (htoken : p.mToken = p'.mToken)
    (h : ∀ id, p.mBackends.lookup id = p'.mBackends.lookup id) : p = p' := by
  rcases p with ⟨token, m⟩
  rcases p' with ⟨token', m'⟩
  obtain rfl : token = token' := htoken
  obtain rfl : m = m' := Finmap.ext_lookup h
  rfl

theorem put_lookup {x : Option (Backend α)} (hx : p.mBackends.lookup id = x) : put p id x = p := by
  refine provider_ext (mToken_put x) fun id' => ?_
  by_cases hid : id' = id
  · subst hid
    rw [lookup_put_self, hx]
  · exact lookup_put_of_ne hid x

end Entries

/-! ### Handlers -/

/-- A run that does this to the entry. -/
def fromSlot (p : ProviderImpl α) (id : UUID) (x : Slot α) : Run α := ⟨put p id x.1, x.2.1, x.2.2⟩

variable {env}

theorem fromSlot_kept {p : ProviderImpl α} {id : UUID} {found : Option (Backend α)}
    (hl : p.mBackends.lookup id = found) (responses : List Response) (exit : Cpp Unit) :
    fromSlot p id (found, responses, exit) = ⟨p, responses, exit⟩ := by
  rw [fromSlot, put_lookup hl]

theorem finish_eq {p : ProviderImpl α} {id : UUID} {found : Option (Backend α)}
    (hl : p.mBackends.lookup id = found) (x : Prepared α) :
    finish p id x = fromSlot p id (fill id found x) := by
  rcases x with error | exit | b
  · exact (fromSlot_kept hl _ _).symm
  · exact (fromSlot_kept hl _ _).symm
  · rfl

/-- **A handler and its entry**: it does to the entry of its id what the entry alone says, and to
the others nothing. -/
theorem serve_eq (p : ProviderImpl α) (r : Request) :
    serve env p r = fromSlot p (target r)
      (slot env p.mToken (p.mBackends.lookup (target r)) r) := by
  rcases r with ⟨token, ty, config, id⟩ | ⟨token, ty, config, id⟩ | ⟨token, id⟩ | ⟨token, id⟩ | id
    | id | ⟨id, x, y⟩
  · rw [serve, createPhonebookRPC_eq]
    exact finish_eq rfl _
  · rw [serve, openPhonebookRPC_eq]
    exact finish_eq rfl _
  · dsimp only [serve, slot, target]
    by_cases hr : Rejects p.mToken token
    · rw [closePhonebookRPC_rejected hr, if_pos hr, fromSlot_kept rfl]
      rfl
    rw [if_neg hr]
    rcases hl : p.mBackends.lookup id with _ | b
    · rw [closePhonebookRPC_unknown hr (Finmap.lookup_eq_none.mp hl), fromSlot_kept hl]
      rfl
    · rw [closePhonebookRPC_known hr (Finmap.mem_of_lookup_eq_some hl)]
      rfl
  · dsimp only [serve, slot, target]
    by_cases hr : Rejects p.mToken token
    · rw [destroyPhonebookRPC_rejected hr, if_pos hr, fromSlot_kept rfl]
      rfl
    rw [if_neg hr]
    rcases hl : p.mBackends.lookup id with _ | b
    · rw [destroyPhonebookRPC_unknown hr hl, fromSlot_kept hl]
      rfl
    dsimp only
    rcases hd : env.ops.destroy b.derived with ⟨res | e | _, d⟩
    · rw [destroyPhonebookRPC_reported hr hl hd]
      rfl
    · rw [destroyPhonebookRPC_threw hr hl hd]
      rfl
    · rw [destroyPhonebookRPC_undefined hr hl hd]
      exact (fromSlot_kept hl _ _).symm
  · dsimp only [serve, slot, target]
    rcases hl : p.mBackends.lookup id with _ | b
    · rw [checkPhonebookRPC_unknown hl, fromSlot_kept hl]
      rfl
    · rw [checkPhonebookRPC_known hl, fromSlot_kept hl]
      rfl
  · dsimp only [serve, slot, target]
    rcases hl : p.mBackends.lookup id with _ | b
    · rw [sayHelloRPC_unknown hl, fromSlot_kept hl]
      rfl
    · rw [sayHelloRPC_known hl]
      rfl
  · dsimp only [serve, slot, target]
    rcases hl : p.mBackends.lookup id with _ | b
    · rw [computeSumRPC_unknown hl, fromSlot_kept hl]
      rfl
    dsimp only
    rcases hc : env.ops.computeSum b.derived x y with ⟨res | e | _, d⟩
    · rw [computeSumRPC_returned env hl hc]
      rfl
    · rw [computeSumRPC_threw hl hc]
      rfl
    · rw [computeSumRPC_undefined hl hc]
      exact (fromSlot_kept hl _ _).symm

/-! ### Requests -/

/-- One request: the provider after it, its responses and its end. -/
def answer (env : Env α) (p : ProviderImpl α) (r : Request) :
    ProviderImpl α × List Response × Cpp Unit :=
  ((serve env p r).provider, (serve env p r).responses, (serve env p r).exit)

theorem local_answer (env : Env α) :
    Local (fun p id => p.mBackends.lookup id) ProviderImpl.mToken target (answer env) := by
  refine ⟨fun p p' => provider_ext, fun p r => ?_, fun p r id hid => ?_,
    fun p p' r htoken hfound => ?_⟩
  · simp [answer, serve_eq, fromSlot]
  · simp only [answer, serve_eq, fromSlot, lookup_put_of_ne hid]
  · simp only [answer, serve_eq, fromSlot, lookup_put_self, htoken, hfound, and_self]

/-- One request to a process, which may have ended: the provider after it, and what the request came
to. It is not handled if the process has ended, and ends it if its handler does not return. -/
def request (env : Env α) : Option (ProviderImpl α) → Request →
    Option (ProviderImpl α) × Option (List Response × Cpp Unit)
  | none, _ => (none, none)
  | some p, r =>
    match answer env p r with
    | (p', responses, .returns ()) => (some p', some (responses, .returns ()))
    | (_, responses, exit) => (none, some (responses, exit))

/-- The handler of the request returns, so that the process goes on. -/
def Returns (env : Env α) (p : ProviderImpl α) (r : Request) : Prop :=
  (serve env p r).exit = .returns ()

theorem request_of_returns {p : ProviderImpl α} {r : Request} (h : Returns env p r) :
    request env (some p) r = (some (answer env p r).1, some (answer env p r).2) := by
  have hexit : (answer env p r).2.2 = .returns () := h
  rcases hr : answer env p r with ⟨p', responses, exit⟩
  rw [hr] at hexit
  obtain rfl : exit = .returns () := hexit
  simp only [request, hr]

/-- A handler ends after one about another id as it would have ended before. -/
theorem Returns.after {p : ProviderImpl α} {r r' : Request} (h : Returns env p r)
    (hne : target r ≠ target r') :
    Returns env (answer env p r').1 r :=
  (congrArg Prod.snd ((local_answer env).after hne p).2).trans h

/-- As long as handlers return, the process goes through all requests. -/
theorem requests_of_returns {p : ProviderImpl α} {reqs : List Request}
    (hd : (reqs.map target).Nodup) (hreturns : ∀ r ∈ reqs, Returns env p r) :
    final (request env) (some p) reqs = some (final (answer env) p reqs) ∧
      outputs (request env) (some p) reqs = (outputs (answer env) p reqs).map fun x =>
        (x.1, some x.2) := by
  induction reqs generalizing p with
  | nil => exact ⟨rfl, rfl⟩
  | cons r reqs ih =>
    obtain ⟨hnot, hrest⟩ := List.nodup_cons.mp hd
    have hr := request_of_returns (hreturns r List.mem_cons_self)
    have hlater : ∀ r' ∈ reqs, Returns env (answer env p r).1 r' := fun r' hr' => by
      have hne : target r' ≠ target r := fun heq => hnot (heq ▸ List.mem_map_of_mem hr')
      exact (hreturns r' (List.mem_cons_of_mem r hr')).after hne
    obtain ⟨hfinal, houtputs⟩ := ih hrest hlater
    constructor
    · show final (request env) (request env (some p) r).1 reqs = _
      rw [hr]
      exact hfinal
    · simp only [outputs, hr, List.map_cons, houtputs]

/-- **Requests on different phonebooks.** Requests about pairwise distinct ids whose handlers would
each return, handled in any order, leave the same provider, and each has the same responses. -/
theorem requests_perm (env : Env α) (p : ProviderImpl α) {reqs reqs' : List Request}
    (hp : reqs.Perm reqs') (hd : (reqs.map target).Nodup) (hreturns : ∀ r ∈ reqs, Returns env p r) :
    (∃ p', final (request env) (some p) reqs = some p' ∧
      final (request env) (some p) reqs' = some p') ∧
      (outputs (request env) (some p) reqs).Perm (outputs (request env) (some p) reqs') := by
  have hd' : (reqs'.map target).Nodup := (hp.map target).nodup_iff.mp hd
  obtain ⟨hfinal, houtputs⟩ := requests_of_returns hd hreturns
  obtain ⟨hfinal', houtputs'⟩ := requests_of_returns hd' fun r hr => hreturns r (hp.mem_iff.mpr hr)
  obtain ⟨hsame, hperm⟩ := (local_answer env).perm hp hd p
  refine ⟨⟨final (answer env) p reqs, hfinal, ?_⟩, ?_⟩
  · rw [hfinal', hsame]
  · rw [houtputs, houtputs']
    exact hperm.map _

/-- A provider with one phonebook. -/
def oneRegistered : ProviderImpl DummyPhonebook := ⟨"", Finmap.singleton .clear ⟨"dummy", ⟨.null⟩⟩⟩

/-- An unknown phonebook is closed, the one there is asked for a sum, and another is created. -/
def closeSumCreate : List Request :=
  [.closePhonebook "" ⟨fun _ => 2⟩, .computeSum .clear 1 2,
    .createPhonebook "" "dummy" "\x7b\x7d" ⟨fun _ => 1⟩]

theorem requests_perm_closeSumCreate :
    (outputs (request (DummyPhonebook.env .sample uuidUnparse))
      (some oneRegistered) closeSumCreate).Perm
      (outputs (request (DummyPhonebook.env .sample uuidUnparse))
        (some oneRegistered) closeSumCreate.reverse) := by
  have hreturns :
    ∀ r ∈ closeSumCreate, Returns (DummyPhonebook.env .sample uuidUnparse) oneRegistered r := by
    simp only [closeSumCreate, List.forall_mem_cons, List.not_mem_nil, false_implies, implies_true,
      and_true]
    exact ⟨rfl, rfl, rfl⟩
  exact (requests_perm _ _ (List.reverse_perm closeSumCreate).symm (by decide) hreturns).2

/-- A provider linked with a class whose `create` returns a null pointer. -/
def nullEnv : Env Unit := unitEnv (.returns .init) (ypBackendRegistration nullType "null" .empty)

/-- A phonebook of that class is created, and another is checked. -/
def createNullCheck : List Request :=
  [.createPhonebook "" "null" "\x7b\x7d" ⟨fun _ => 1⟩, .checkPhonebook .clear]

/-- The name is written through the null pointer, and the check is handled only if it comes
first. -/
theorem not_requests_perm_createNullCheck :
    (createNullCheck.map target).Nodup ∧
      ¬ (outputs (request nullEnv)
        (some ⟨"", Finmap.singleton .clear ⟨"null", ()⟩⟩) createNullCheck).Perm
        (outputs (request nullEnv)
          (some ⟨"", Finmap.singleton .clear ⟨"null", ()⟩⟩) createNullCheck.reverse) := by
  refine ⟨by decide, fun h => ?_⟩
  have hhandled := (h.map fun x => x.2.isSome).count_eq true
  exact absurd hhandled (by decide)

end Phonebook.Server.Commutation
