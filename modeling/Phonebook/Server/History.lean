import Phonebook.Lib.Runs
import Phonebook.Client.Handle

/-! # The history of the registry

The log of a provider has what its constructor was told by its own calls and then every request with
its responses. An id is in force if the constructor or a create or open granted it and no later
close or destroy of it was answered with success. With the dummy backend, the registered ids are
exactly those in force (`mem_after`), so everything a client can ask about an id follows from the
log (`registry_history`). -/

namespace Phonebook.Server.History

open Phonebook.Data.Values Phonebook.Data.JsonTree Phonebook.Server.Backends
open Phonebook.Server.Provider Phonebook.Server.Handlers Phonebook.Client.Handle Phonebook.Lib.Runs

/-! ### Logs -/

/-- An entry of the log. -/
inductive Event where
  | constructed (results : List (RequestResult UUID))
  | answered (r : Request) (responses : List Response)

/-- The event hands out the id: the constructor, or a successful create or open, returned it. -/
def Grants : Event → UUID → Prop
  | .constructed results, u => ∃ res ∈ results, res.success = true ∧ res.value = some u
  | .answered (.createPhonebook ..) responses, u | .answered (.openPhonebook ..) responses, u =>
    ∃ res, Response.uuid res ∈ responses ∧ res.success = true ∧ res.value = some u
  | .answered _ _, _ => False

/-- The event takes the id back: a close or destroy of it was answered with success. -/
def Revokes : Event → UUID → Prop
  | .answered (.closePhonebook _ id) responses, u
  | .answered (.destroyPhonebook _ id) responses, u =>
    u = id ∧ ∃ resp ∈ responses, resp.success = true
  | _, _ => False

/-- A provider with its log. -/
structure Logged (α : Type) where
  provider : ProviderImpl α
  log : List Event

variable {α : Type} (env : Env α)

/-- The provider a constructor made, with the first entry of its log. -/
def Logged.start (c : Construction α) : Logged α := ⟨c.provider, [.constructed c.results]⟩

/-- One request. -/
def Logged.step (s : Logged α) (r : Request) : Logged α :=
  ⟨(serve env s.provider r).provider, s.log ++ [.answered r (serve env s.provider r).responses]⟩

/-- The provider after the constructor and the requests. -/
def after (generate : ℕ → UUID) (config : String) (reqs : List Request) : Logged α :=
  exec (Logged.step env) (.start (construct env generate config)) reqs

variable {env}

/-! ### The registered ids are those in force -/

theorem grants_added {id u : UUID} :
    (∃ res, Response.uuid res ∈ [added id] ∧ res.success = true ∧ res.value = some u) ↔ u = id := by
  constructor
  · rintro ⟨res, hres, -, hv⟩
    rw [List.mem_singleton, added, Response.uuid.injEq] at hres
    subst hres
    exact (Option.some.inj hv).symm
  · rintro rfl
    exact ⟨_, List.mem_singleton.mpr rfl, rfl, rfl⟩

theorem not_grants_failed {error : String} {u : UUID} :
    ¬ ∃ res, Response.uuid res ∈ [failed error] ∧ res.success = true ∧ res.value = some u := by
  rintro ⟨res, hres, hs, -⟩
  rw [List.mem_singleton, failed, Response.uuid.injEq] at hres
  subst hres
  cases hs

theorem mem_finish {p : ProviderImpl α} {id u : UUID} (x : Prepared α) :
    u ∈ (finish p id x).provider.mBackends ↔
      (∃ res, Response.uuid res ∈ (finish p id x).responses ∧ res.success = true ∧
        res.value = some u) ∨ u ∈ p.mBackends := by
  rcases finish_cases (p := p) id x with ⟨error, hx⟩ | ⟨exit, -, hx⟩ | ⟨b, -, hx⟩ <;> rw [hx]
  · exact (or_iff_right not_grants_failed).symm
  · simp [escape]
  · exact Finmap.mem_insert.trans (or_congr_left grants_added.symm)

theorem mem_insert_of_lookup {m : Registry α} {id u : UUID} {b b' : Backend α}
    (hl : m.lookup id = some b) :
    u ∈ m.insert id b' ↔ u ∈ m := by
  rw [Finmap.mem_insert]
  refine or_iff_right_of_imp fun h => ?_
  rw [h]; exact Finmap.mem_of_lookup_eq_some hl

/-- **One request**: the ids registered after it are those it granted, and those registered before
that it did not revoke. -/
theorem mem_serve (hd : env.ops.DestroySucceeds) (p : ProviderImpl α) (r : Request) (u : UUID) :
    u ∈ (serve env p r).provider.mBackends ↔
      Grants (.answered r (serve env p r).responses) u ∨
        (u ∈ p.mBackends ∧ ¬ Revokes (.answered r (serve env p r).responses) u) := by
  cases r with
  | createPhonebook token ty config id =>
    rw [serve, createPhonebookRPC_eq]
    simpa [Grants, Revokes] using mem_finish _
  | openPhonebook token ty config id =>
    rw [serve, openPhonebookRPC_eq]
    simpa [Grants, Revokes] using mem_finish _
  | closePhonebook token id =>
    rw [serve]
    by_cases hr : Rejects p.mToken token
    · rw [closePhonebookRPC_rejected hr]
      simp [respond, Grants, Revokes]
    by_cases hid : id ∈ p.mBackends
    · rw [closePhonebookRPC_known hr hid]
      simp [respond, Grants, Revokes, Finmap.mem_erase, and_comm]
    · rw [closePhonebookRPC_unknown hr hid]
      simp [respond, Grants, Revokes]
  | destroyPhonebook token id =>
    rw [serve]
    by_cases hr : Rejects p.mToken token
    · rw [destroyPhonebookRPC_rejected hr]
      simp [respond, Grants, Revokes]
    rcases hl : p.mBackends.lookup id with _ | b
    · rw [destroyPhonebookRPC_unknown hr hl]
      simp [respond, Grants, Revokes]
    · obtain ⟨res, hres, hs⟩ := hd b.derived
      rw [destroyPhonebookRPC_reported hr hl (Prod.ext hres rfl)]
      simp [respond, Grants, Revokes, Finmap.mem_erase, and_comm, hs]
  | checkPhonebook id =>
    rw [serve]
    rcases hl : p.mBackends.lookup id with _ | b
    · rw [checkPhonebookRPC_unknown hl]; simp [respond, Grants, Revokes]
    · rw [checkPhonebookRPC_known hl]; simp [respond, Grants, Revokes]
  | sayHello id =>
    rw [serve]
    rcases hl : p.mBackends.lookup id with _ | b
    · rw [sayHelloRPC_unknown hl]; simp [respond, Grants, Revokes]
    · rw [sayHelloRPC_known hl]; simp [escape, Grants, Revokes, mem_insert_of_lookup hl]
  | computeSum id x y =>
    rw [serve]
    rcases hl : p.mBackends.lookup id with _ | b
    · rw [computeSumRPC_unknown hl]; simp [respond, Grants, Revokes]
    · rcases hc : env.ops.computeSum b.derived x y with ⟨res | e | _, d⟩
      · rw [computeSumRPC_returned env hl hc]
        simp [respond, Grants, Revokes, mem_insert_of_lookup hl]
      · rw [computeSumRPC_threw hl hc]
        simp [escape, Grants, Revokes, mem_insert_of_lookup hl]
      · rw [computeSumRPC_undefined hl hc]
        simp [escape, Grants, Revokes]

/-- The constructor registers the ids its calls returned. -/
theorem mem_construct (generate : ℕ → UUID) (config : String) (u : UUID) :
    u ∈ (construct env generate config).provider.mBackends ↔
      Grants (.constructed (construct env generate config).results) u := by
  refine construct_induction env
    (P := fun p results => u ∈ p.mBackends ↔
      Grants (.constructed results) u) ?_ ?_ ?_ generate config
  · simp [Grants, Finmap.notMem_empty]
  · intro p results result h hf
    simpa [Grants, or_and_right, exists_or, hf] using h
  · intro p results id ty config v b h _ _
    rw [Finmap.mem_insert, h]
    simp only [Grants, List.mem_append, List.mem_singleton, or_and_right, exists_or, exists_eq_left,
      true_and, Option.some.injEq]
    rw [or_comm, eq_comm (a := u)]

/-- **The registered ids are those in force**, after any requests. -/
theorem mem_after (hd : env.ops.DestroySucceeds) (generate : ℕ → UUID) (config : String)
    (reqs : List Request) (u : UUID) :
    u ∈ (after env generate config reqs).provider.mBackends ↔
      InForce Grants Revokes (after env generate config reqs).log u := by
  refine exec_induction (Logged.step env)
    (P := fun s : Logged α => u ∈ s.provider.mBackends ↔ InForce Grants Revokes s.log u) ?_ ?_ reqs
  · show _ ↔ InForce Grants Revokes ([] ++ [.constructed _]) u
    rw [inForce_concat, or_iff_left fun h => inForce_nil u h.1]
    exact mem_construct generate config u
  · intro s r ih
    show _ ↔ InForce Grants Revokes (s.log ++ [_]) u
    rw [inForce_concat, ← ih]
    exact mem_serve hd s.provider r u

/-! ### What else stays the same along the requests -/

/-- The backend was made from a parsed configuration, by the factory for create or for open. -/
def Made (env : Env α) (b : Backend α) : Prop :=
  ∃ ty config v,
    env.json.parse config = .value v ∧ (env.factory.createPhonebook ty v = .returns (some b) ∨
    env.factory.openPhonebook ty v = .returns (some b))

/-- The state a backend may be in after a call. -/
def Called (env : Env α) (d d' : α) : Prop :=
  d' = (env.ops.sayHello d).2 ∨ (∃ x y, d' = (env.ops.computeSum d x y).2) ∨
    d' = (env.ops.destroy d).2

/-- What a request may do to the provider: nothing, add a backend that was made, remove one, or call
one. -/
inductive Changed (env : Env α) (p : ProviderImpl α) : ProviderImpl α → Prop
  | nothing : Changed env p p
  | added (id : UUID) (b : Backend α) (hb : Made env b) :
    Changed env p { p with mBackends := p.mBackends.insert id b }
  | removed (id : UUID) : Changed env p { p with mBackends := p.mBackends.erase id }
  | called (id : UUID) (b : Backend α) (d : α) (hl : p.mBackends.lookup id = some b)
      (hd : Called env b.derived d) :
    Changed env p { p with mBackends := p.mBackends.insert id { b with derived := d } }

theorem changed_finish {p : ProviderImpl α} {id : UUID} {x : Prepared α}
    (hx : ∀ b, x = .built b → Made env b) : Changed env p (finish p id x).provider := by
  cases x with
  | refused | escaped => exact .nothing
  | built b => exact .added id b (hx b rfl)

theorem changed_serve (p : ProviderImpl α) (r : Request) :
    Changed env p (serve env p r).provider := by
  cases r with
  | createPhonebook token ty config id =>
    rw [serve, createPhonebookRPC_eq]
    refine changed_finish fun b hb => ?_
    obtain ⟨-, v, hv, hm⟩ := prepare_built hb
    exact ⟨ty, config, v, hv, Or.inl hm⟩
  | openPhonebook token ty config id =>
    rw [serve, openPhonebookRPC_eq]
    refine changed_finish fun b hb => ?_
    obtain ⟨-, v, hv, hm⟩ := prepare_built hb
    exact ⟨ty, config, v, hv, Or.inr hm⟩
  | closePhonebook token id =>
    rw [serve]
    by_cases hr : Rejects p.mToken token
    · rw [closePhonebookRPC_rejected hr]
      exact .nothing
    by_cases hid : id ∈ p.mBackends
    · rw [closePhonebookRPC_known hr hid]
      exact .removed id
    · rw [closePhonebookRPC_unknown hr hid]
      exact .nothing
  | destroyPhonebook token id =>
    rw [serve]
    by_cases hr : Rejects p.mToken token
    · rw [destroyPhonebookRPC_rejected hr]
      exact .nothing
    rcases hl : p.mBackends.lookup id with _ | b
    · rw [destroyPhonebookRPC_unknown hr hl]
      exact .nothing
    · rcases hd : env.ops.destroy b.derived with ⟨res | e | _, d⟩
      · rw [destroyPhonebookRPC_reported hr hl hd]
        exact .removed id
      · rw [destroyPhonebookRPC_threw hr hl hd]
        exact .called id b d hl (Or.inr (Or.inr (by rw [hd])))
      · rw [destroyPhonebookRPC_undefined hr hl hd]
        exact .nothing
  | checkPhonebook id =>
    rw [serve]
    rcases hl : p.mBackends.lookup id with _ | b
    · rw [checkPhonebookRPC_unknown hl]
      exact .nothing
    · rw [checkPhonebookRPC_known hl]
      exact .nothing
  | sayHello id =>
    rw [serve]
    rcases hl : p.mBackends.lookup id with _ | b
    · rw [sayHelloRPC_unknown hl]
      exact .nothing
    · rw [sayHelloRPC_known hl]
      exact .called id b _ hl (Or.inl rfl)
  | computeSum id x y =>
    rw [serve]
    rcases hl : p.mBackends.lookup id with _ | b
    · rw [computeSumRPC_unknown hl]
      exact .nothing
    · have hcalled : Changed env p _ := .called id b _ hl (Or.inr (Or.inl ⟨x, y, rfl⟩))
      rcases hc : env.ops.computeSum b.derived x y with ⟨res | e | _, d⟩ <;> rw [hc] at hcalled
      · rw [computeSumRPC_returned env hl hc]
        exact hcalled
      · rw [computeSumRPC_threw hl hc]
        exact hcalled
      · rw [computeSumRPC_undefined hl hc]
        exact .nothing

theorem serve_mToken (p : ProviderImpl α) (r : Request) :
    (serve env p r).provider.mToken = p.mToken := by
  have hchanged : Changed env p (serve env p r).provider := changed_serve p r
  generalize (serve env p r).provider = p' at hchanged
  cases hchanged with
  | nothing | added | removed | called => rfl

theorem forall_lookup_insert {P : Backend α → Prop} {m : Registry α} {id : UUID} {b : Backend α}
    (h : ∀ id b, m.lookup id = some b → P b) (hb : P b) :
    ∀ id' b', (m.insert id b).lookup id' = some b' → P b' := by
  intro id' b' hl
  by_cases hid : id' = id
  · subst hid
    rw [Finmap.lookup_insert] at hl
    cases hl; exact hb
  · rw [Finmap.lookup_insert_of_ne _ hid] at hl
    exact h id' b' hl

theorem forall_lookup_erase {P : Backend α → Prop} {m : Registry α}
    (h : ∀ id b, m.lookup id = some b → P b)
    (id : UUID) : ∀ id' b', (m.erase id).lookup id' = some b' → P b' := by
  intro id' b' hl
  by_cases hid : id' = id
  · subst hid
    rw [Finmap.lookup_erase] at hl
    cases hl
  · rw [Finmap.lookup_erase_ne hid] at hl
    exact h id' b' hl

theorem mToken_after (generate : ℕ → UUID) (config : String) (reqs : List Request) :
    (after env generate config reqs).provider.mToken = "" := by
  refine exec_induction (Logged.step env) (P := fun s : Logged α => s.provider.mToken = "") ?_
    (fun s r h => (serve_mToken s.provider r).trans h) reqs
  exact construct_induction env (P := fun p _ => p.mToken = "") rfl
    (fun p results result h _ => h) (fun p results id ty config v b h _ _ => h) generate config

/-- **A walk** over entries whose configurations are read back from their dumps lists every entry
with its configuration. -/
theorem walkConfig_of {c : α → Json} {walk : List (Sigma fun _ : UUID => Backend α)}
    (hget : ∀ e ∈ walk, env.ops.getConfig e.2.derived = .returns (env.json.dump (c e.2.derived)))
    (hread : ∀ e ∈ walk, env.json.Rereads (c e.2.derived)) :
    walkConfig env walk = .returns
      (walk.map fun e => phonebookDocument env e.1 e.2.mName (c e.2.derived)) := by
  induction walk with
  | nil => rfl
  | cons e rest ih =>
    have hparse : env.json.parse (env.json.dump (c e.2.derived)) = .value (c e.2.derived) :=
      hread e (by simp)
    have he :
      phonebookConfig env e = .returns (phonebookDocument env e.1 e.2.mName (c e.2.derived)) := by
      simp [phonebookConfig, hget e (by simp), hparse]
    unfold walkConfig
    rw [he]
    dsimp only
    rw [ih (fun e' he' => hget e' (by simp [he'])) fun e' he' => hread e' (by simp [he'])]
    rfl

/-! ### What an observer sees of an id -/

section Observers
variable {p : ProviderImpl α} {u : UUID}

theorem checkPhonebookRPC_success_iff :
    (∃ resp ∈ (checkPhonebookRPC env p u).responses, resp.success = true) ↔ u ∈ p.mBackends := by
  rcases hl : p.mBackends.lookup u with _ | b
  · refine iff_of_false ?_ (Finmap.lookup_eq_none.mp hl)
    rw [checkPhonebookRPC_unknown hl]
    simp [respond]
  · refine iff_of_true ?_ (Finmap.mem_of_lookup_eq_some hl)
    rw [checkPhonebookRPC_known hl]
    simp [respond]

theorem closePhonebookRPC_success_iff {token : String} (ht : ¬ Rejects p.mToken token) :
    (∃ resp ∈ (closePhonebookRPC env p token u).responses, resp.success = true) ↔
      u ∈ p.mBackends := by
  by_cases hu : u ∈ p.mBackends
  · refine iff_of_true ?_ hu
    rw [closePhonebookRPC_known ht hu]
    simp [respond]
  · refine iff_of_false ?_ hu
    rw [closePhonebookRPC_unknown ht hu]
    simp [respond]

theorem destroyPhonebookRPC_success_iff {token : String} (hd : env.ops.DestroySucceeds)
    (ht : ¬ Rejects p.mToken token) :
    (∃ resp ∈ (destroyPhonebookRPC env p token u).responses, resp.success = true) ↔
      u ∈ p.mBackends := by
  rcases hl : p.mBackends.lookup u with _ | b
  · refine iff_of_false ?_ (Finmap.lookup_eq_none.mp hl)
    rw [destroyPhonebookRPC_unknown ht hl]
    simp [respond]
  · refine iff_of_true ?_ (Finmap.mem_of_lookup_eq_some hl)
    obtain ⟨r, hr, hs⟩ := hd b.derived
    rw [destroyPhonebookRPC_reported ht hl (Prod.ext hr rfl)]
    simp [respond, hs]

/-- How often a list of documents has the id. -/
def timesListed (unparse : UUID → String) (docs : List Json) (u : UUID) : ℕ :=
  docs.countP fun d => d.stringMember? "__id__" = some (unparse u)

theorem timesListed_walk (env : Env α) (hinj : Function.Injective env.uuidUnparse)
    {walk : List (Sigma fun _ : UUID => Backend α)} (hw : WalkOrder p.mBackends walk)
    (config : (Sigma fun _ : UUID => Backend α) → Json) :
    timesListed env.uuidUnparse
        (walk.map fun e => phonebookDocument env e.1 e.2.mName (config e)) u =
      if u ∈ p.mBackends then 1 else 0 := by
  have hnodup : walk.keys.Nodup := by
    have h := p.mBackends.nodupKeys
    rwa [← hw, Multiset.coe_nodupKeys] at h
  have hmem : u ∈ p.mBackends ↔ u ∈ walk.keys := by
    rw [Finmap.mem_def, ← hw, Multiset.coe_keys, Multiset.mem_coe]
  have hentry : ∀ e : Sigma fun _ : UUID => Backend α,
      (phonebookDocument env e.1 e.2.mName (config e)).stringMember? "__id__" =
        some (env.uuidUnparse u) ↔ e.1 = u := by
    intro e
    rw [← hinj.eq_iff]
    simp [phonebookDocument, Json.stringMember?]
  calc timesListed env.uuidUnparse
        (walk.map fun e => phonebookDocument env e.1 e.2.mName (config e)) u
      = walk.countP (fun e => e.1 = u) := by
        unfold timesListed
        rw [List.countP_map]
        exact List.countP_congr fun e _ => by simp [hentry e]
    _ = walk.keys.count u := by
        rw [List.count, List.keys, List.countP_map]
        exact List.countP_congr fun e _ => by simp
    _ = if u ∈ p.mBackends then 1 else 0 := by
        rw [hnodup.count]
        simp only [hmem]

end Observers

/-! ### A provider with dummy phonebooks -/

section Dummy
variable {lib : JsonLib} {unparse : UUID → String}

theorem computeSum_dummy_iff {p : ProviderImpl DummyPhonebook} {u : UUID} {x y : Int32} :
    (∃ v, computeSum (DummyPhonebook.env lib unparse) p ⟨some ⟨u⟩⟩ x y = .returned v) ↔
      u ∈ p.mBackends := by
  rcases hl : p.mBackends.lookup u with _ | b
  · refine iff_of_false ?_ (Finmap.lookup_eq_none.mp hl)
    rintro ⟨v, hv⟩
    simp [computeSum, computeSumRPC_unknown hl, respond] at hv
  · refine iff_of_true ⟨some (x + y), ?_⟩ (Finmap.mem_of_lookup_eq_some hl)
    have hc := computeSumRPC_returned (x := x) (y := y) (DummyPhonebook.env lib unparse) hl rfl
    simp [computeSum, hc, respond]

/-- If the library reads their configurations back, the walk lists every entry with its own. -/
theorem getConfig_dummy {walk : List (Sigma fun _ : UUID => Backend DummyPhonebook)}
    (hread : ∀ e ∈ walk, lib.Rereads e.2.derived.mConfig) :
    getConfig (DummyPhonebook.env lib unparse) walk =
      .returns (lib.dump (configDocument (walk.map fun e =>
        phonebookDocument (DummyPhonebook.env lib unparse) e.1 e.2.mName
          e.2.derived.mConfig))) := by
  have hwalk : walkConfig (DummyPhonebook.env lib unparse) walk = .returns (walk.map fun e =>
      phonebookDocument (DummyPhonebook.env lib unparse) e.1 e.2.mName e.2.derived.mConfig) :=
    walkConfig_of (fun e _ => rfl) hread
  unfold getConfig
  rw [hwalk]
  rfl

end Dummy

/-- **The registry and its history.** After any constructor and any requests, for every id: it is in
force by the log if and only if a check of it succeeds, if and only if a checked handle to it can be
made, if and only if a sum computed through any handle ever made for it returns, if and only if
closing it would succeed, if and only if destroying it would; and then, and only then, the
configuration lists it, once, if the library reads the registered configurations back. A sum of the
dummy backend that is out of range wraps around here, so that it returns as well. -/
theorem registry_history (lib : JsonLib) (unparse : UUID → String) (generate : ℕ → UUID)
    (config : String) (reqs : List Request) (u : UUID) :
    let env := DummyPhonebook.env lib unparse
    let s := after env generate config reqs
    let inForce := InForce Grants Revokes s.log u
    (inForce ↔ ∃ resp ∈ (checkPhonebookRPC env s.provider u).responses, resp.success = true) ∧
      (inForce ↔ ∃ h, makePhonebookHandle env s.provider u true = .returned h) ∧
      (∀ earlier, earlier <+: reqs → ∀ check h,
        makePhonebookHandle env (after env generate config earlier).provider u check = .returned h →
          ∀ x y, inForce ↔ ∃ v, computeSum env s.provider h x y = .returned v) ∧
      (∀ token,
        (inForce ↔
          ∃ resp ∈ (closePhonebookRPC env s.provider token u).responses, resp.success = true) ∧
        (inForce ↔
          ∃ resp ∈ (destroyPhonebookRPC env s.provider token u).responses, resp.success = true)) ∧
      (Function.Injective unparse → ∀ walk, WalkOrder s.provider.mBackends walk →
        (∀ e ∈ walk, lib.Rereads e.2.derived.mConfig) →
          ∃ docs, getConfig env walk = .returns (lib.dump (configDocument docs)) ∧
          (inForce ↔ timesListed unparse docs u = 1) ∧
          (¬ inForce ↔ timesListed unparse docs u = 0)) := by
  intro env s inForce
  have hd : env.ops.DestroySucceeds := DummyPhonebook.ops_destroySucceeds lib
  have hreg : u ∈ s.provider.mBackends ↔ inForce := mem_after hd generate config reqs u
  refine ⟨?_, ?_, ?_, ?_, ?_⟩
  · exact hreg.symm.trans checkPhonebookRPC_success_iff.symm
  · exact hreg.symm.trans makePhonebookHandle_checked_iff.symm
  · intro earlier _ check h hm x y
    obtain rfl := makePhonebookHandle_returned hm
    exact hreg.symm.trans computeSum_dummy_iff.symm
  · intro token
    have hadmit : ¬ Rejects s.provider.mToken token := by
      rw [show s.provider.mToken = "" from mToken_after generate config reqs]
      exact fun hr => absurd hr.1 (by decide)
    exact ⟨hreg.symm.trans (closePhonebookRPC_success_iff hadmit).symm,
      hreg.symm.trans (destroyPhonebookRPC_success_iff hd hadmit).symm⟩
  · intro hinj walk hw hread
    have hcount := timesListed_walk env (u := u) hinj hw fun e => e.2.derived.mConfig
    refine ⟨_, getConfig_dummy hread, ?_⟩
    rw [show timesListed unparse _ u = _ from hcount, ← hreg]
    by_cases hu : u ∈ s.provider.mBackends
    · simp [hu]
    · simp [hu]

/-- The text of a configuration with one dummy phonebook. -/
def oneDummyConfig : String := "\x7b\"phonebooks\":[\x7b\"type\":\"dummy\"\x7d]\x7d"

/-- The phonebook of that configuration, after a request that is not answered. -/
theorem registry_history_oneDummy :
    let env := DummyPhonebook.env .sample uuidUnparse
    let s := after env (fun _ => .clear) oneDummyConfig [.sayHello .clear]
    InForce Grants Revokes s.log .clear ∧
      (∃ v, computeSum env s.provider ⟨some ⟨.clear⟩⟩ 20 22 = .returned v) ∧
      ∀ walk, WalkOrder s.provider.mBackends walk →
        ∃ docs, getConfig env walk = .returns (env.json.dump (configDocument docs)) ∧
          timesListed uuidUnparse docs .clear = 1 := by
  intro env s
  obtain ⟨hcheck, -, hsum, -, hlist⟩ :=
    registry_history .sample uuidUnparse (fun _ => .clear) oneDummyConfig [.sayHello .clear] .clear
  have hforce : InForce Grants Revokes s.log .clear := hcheck.mpr ⟨.bool .init, by decide, rfl⟩
  refine ⟨hforce, ?_, fun walk hw => ?_⟩
  · exact (hsum [] (by simp) false _ rfl 20 22).mp hforce
  · have hentries : s.provider.mBackends.entries = {⟨.clear, ⟨"dummy", ⟨.object []⟩⟩⟩} := rfl
    have hread : ∀ e ∈ walk, JsonLib.sample.Rereads e.2.derived.mConfig := fun e he => by
      have hmem : e ∈ s.provider.mBackends.entries := hw ▸ Multiset.mem_coe.mpr he
      rw [hentries, Multiset.mem_singleton] at hmem
      rw [hmem]
      rfl
    obtain ⟨docs, hdocs, honce, -⟩ := hlist uuidUnparse_injective walk hw hread
    exact ⟨docs, hdocs, honce.mp hforce⟩

end Phonebook.Server.History
