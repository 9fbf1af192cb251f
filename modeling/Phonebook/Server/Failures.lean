import Phonebook.Server.Handlers

/-! # Failures

Three questions about runs that do not go well. Is a request that is answered with a failure one
that changed nothing (`atomic_iff`)? Does every handler respond as often as the client of its RPC
expects (`respondsAsDeclared_iff`)? Does a configuration that is not a JSON value stay inside the
handlers that parse it (`contained_iff`)? Each has one kind of input on which the answer is no. -/

namespace Phonebook.Server.Failures

open Phonebook.Data.Values Phonebook.Data.JsonTree Phonebook.Server.Backends
open Phonebook.Server.Provider Phonebook.Server.Handlers

variable {α : Type} (env : Env α)

/-! ### Failed requests and the registry -/

/-- The four RPCs of `Admin`. -/
def IsAdmin : Request → Prop
  | .createPhonebook .. | .openPhonebook .. | .closePhonebook .. | .destroyPhonebook .. => True
  | .checkPhonebook .. | .sayHello .. | .computeSum .. => False

/-- If the response says that the request failed, the registry is the one before it. -/
def Atomic (p : ProviderImpl α) (r : Request) : Prop :=
  ∀ resp ∈ (serve env p r).responses, resp.success = false →
    (serve env p r).provider.mBackends = p.mBackends

/-- The request destroys a registered phonebook, and the backend reports that it could not. -/
def DestroyFails (p : ProviderImpl α) (r : Request) : Prop :=
  ∃ token id b res d, r = .destroyPhonebook token id ∧ ¬ Rejects p.mToken token ∧
    p.mBackends.lookup id = some b ∧ env.ops.destroy b.derived = (.returns res, d) ∧
      res.success = false

variable {env} {p : ProviderImpl α}

theorem atomic_respond {r : Request} {resp : Response} (h : serve env p r = respond p resp) :
    Atomic env p r := by
  intro resp' _ _
  rw [h]; rfl

theorem atomic_of_success {r : Request} {p' : ProviderImpl α} {resp : Response}
    (h : serve env p r = respond p' resp) (hs : resp.success = true) : Atomic env p r := by
  intro resp' hr hf
  rw [h] at hr
  rw [List.mem_singleton.mp hr, hs] at hf
  cases hf

theorem atomic_escape {r : Request} {p' : ProviderImpl α} {exit : Cpp Unit}
    (h : serve env p r = escape p' exit) : Atomic env p r := by
  intro resp' hr _
  rw [h] at hr
  simp [escape] at hr

theorem atomic_finish {r : Request} {id : UUID} {x : Prepared α}
    (h : serve env p r = finish p id x) :
    Atomic env p r := by
  rcases finish_cases (p := p) id x with ⟨error, hx⟩ | ⟨exit, -, hx⟩ | ⟨b, -, hx⟩ <;> rw [hx] at h
  · exact atomic_respond h
  · exact atomic_escape h
  · exact atomic_of_success h rfl

theorem not_destroyFails {r : Request} (h : ∀ token id, r ≠ .destroyPhonebook token id) :
    ¬ DestroyFails env p r := by
  rintro ⟨token, id, _, _, _, heq, -⟩
  exact h token id heq

theorem DestroyFails.reported {token : String} {id : UUID}
    (h : DestroyFails env p (.destroyPhonebook token id)) :
    ¬ Rejects p.mToken token ∧ ∃ b res d, p.mBackends.lookup id = some b ∧
      env.ops.destroy b.derived = (.returns res, d) ∧ res.success = false := by
  obtain ⟨_, _, b, res, d, heq, hr, hl, hd, hf⟩ := h
  cases heq
  exact ⟨hr, b, res, d, hl, hd, hf⟩

theorem atomic_destroy_iff (token : String) (id : UUID) :
    Atomic env p (.destroyPhonebook token id) ↔
      ¬ DestroyFails env p (.destroyPhonebook token id) := by
  have hs : serve env p (.destroyPhonebook token id) = destroyPhonebookRPC env p token id := rfl
  by_cases hr : Rejects p.mToken token
  · exact iff_of_true (atomic_respond (hs.trans (destroyPhonebookRPC_rejected hr))) fun h =>
      h.reported.1 hr
  rcases hl : p.mBackends.lookup id with _ | b
  · refine iff_of_true (atomic_respond (hs.trans (destroyPhonebookRPC_unknown hr hl))) fun h => ?_
    obtain ⟨-, b, _, _, hl', -⟩ := h.reported
    rw [hl] at hl'; cases hl'
  rcases hd : env.ops.destroy b.derived with ⟨res | e | _, d⟩
  · have hrun := hs.trans (destroyPhonebookRPC_reported hr hl hd)
    cases hres : res.success with
    | true =>
      refine iff_of_true (atomic_of_success hrun hres) fun h => ?_
      obtain ⟨-, b', res', d', hl', hd', hf⟩ := h.reported
      rw [hl] at hl'; cases hl'
      rw [hd] at hd'; cases hd'
      rw [hres] at hf; cases hf
    | false =>
      refine iff_of_false (fun hat => ?_)
        (not_not_intro ⟨token, id, b, res, d, rfl, hr, hl, hd, hres⟩)
      have herase := hat (.bool res) (by rw [hrun]; simp [respond]) hres
      rw [hrun] at herase
      have hmem : id ∈ p.mBackends := Finmap.mem_of_lookup_eq_some hl
      rw [← herase] at hmem
      exact Finmap.notMem_erase_self hmem
  all_goals
    have hrun : ∃ p' exit, serve env p (.destroyPhonebook token id) = escape p' exit := by
      rw [hs]; unfold destroyPhonebookRPC; rw [if_neg hr, hl]; dsimp only; rw [hd]
      exact ⟨_, _, rfl⟩
    obtain ⟨p', exit, hrun⟩ := hrun
    refine iff_of_true (atomic_escape hrun) fun h => ?_
    obtain ⟨-, b', res', d', hl', hd', -⟩ := h.reported
    rw [hl] at hl'; cases hl'
    rw [hd] at hd'; cases hd'

/-- **Failed admin requests are atomic, except one kind**: the destruction of a registered phonebook
whose backend reports failure, which removes the entry all the same. -/
theorem atomic_iff {r : Request} (h : IsAdmin r) : Atomic env p r ↔ ¬ DestroyFails env p r := by
  cases r with
  | createPhonebook token ty config id =>
    exact iff_of_true (atomic_finish (createPhonebookRPC_eq env p token ty config id))
      (not_destroyFails (by rintro _ _ ⟨⟩))
  | openPhonebook token ty config id =>
    exact iff_of_true (atomic_finish (openPhonebookRPC_eq env p token ty config id))
      (not_destroyFails (by rintro _ _ ⟨⟩))
  | closePhonebook token id =>
    refine iff_of_true ?_ (not_destroyFails (by rintro _ _ ⟨⟩))
    by_cases hr : Rejects p.mToken token
    · exact atomic_respond (closePhonebookRPC_rejected hr)
    by_cases hid : id ∈ p.mBackends
    · exact atomic_of_success (closePhonebookRPC_known hr hid) rfl
    · exact atomic_respond (closePhonebookRPC_unknown hr hid)
  | destroyPhonebook token id => exact atomic_destroy_iff token id
  | checkPhonebook | sayHello | computeSum => exact absurd h id

/-- A provider linked with a backend whose `destroy` reports failure. -/
def stubborn : Env Unit := unitEnv (.returns ⟨false, "Resource busy"⟩) .empty

/-- The provider with one such phonebook under the cleared id. -/
def stubbornProvider : ProviderImpl Unit := ⟨"", Finmap.singleton .clear ⟨"stubborn", ()⟩⟩

/-- Closing the same phonebook is atomic. -/
theorem atomic_close_stubborn : Atomic stubborn stubbornProvider (.closePhonebook "" .clear) :=
  (atomic_iff (by trivial)).mpr (not_destroyFails (by rintro _ _ ⟨⟩))

theorem destroyFails_stubborn :
    DestroyFails stubborn stubbornProvider (.destroyPhonebook "" .clear) :=
  ⟨"", .clear, ⟨"stubborn", ()⟩, ⟨false, "Resource busy"⟩, (), rfl, by decide, rfl, rfl, rfl⟩

/-- The destruction reported as failed removes the phonebook. -/
theorem not_atomic_stubborn : ¬ Atomic stubborn stubbornProvider (.destroyPhonebook "" .clear) := by
  rw [atomic_destroy_iff]
  exact not_not_intro destroyFails_stubborn

/-! ### As many responses as the client expects -/

/-- How the client of the RPC defines its remote procedure: `ClientImpl` disables the response of
`yp_say_hello`, all others keep theirs. -/
def expectsResponse : Request → Bool
  | .sayHello _ => false
  | _ => true

/-- The configuration string of a request that has one. -/
def configOf : Request → Option String
  | .createPhonebook _ _ config _ | .openPhonebook _ _ config _ => some config
  | _ => none

/-- The handler responds once if the client expects a response, and not at all otherwise. -/
def RespondsAsDeclared (env : Env α) (p : ProviderImpl α) (r : Request) : Prop :=
  (serve env p r).responses.length = if expectsResponse r then 1 else 0

/-- A hello to a phonebook that is not registered. -/
def HelloToUnknown (p : ProviderImpl α) (r : Request) : Prop :=
  ∃ id, r = .sayHello id ∧ id ∉ p.mBackends

theorem not_helloToUnknown {r : Request} (h : expectsResponse r = true) : ¬ HelloToUnknown p r := by
  rintro ⟨id, heq, -⟩
  rw [heq] at h
  cases h

theorem finish_responses (id : UUID) {x : Prepared α} (h : ∀ exit, x ≠ .escaped exit) :
    (finish p id x).responses.length = 1 := by
  obtain ⟨⟨result, hresult⟩, -⟩ := finish_answers p id h
  rw [hresult, List.length_singleton]

/-- **Every handler responds as its client expects, except one**: `sayHelloRPC` on an unknown id
responds through the macro it shares with the two handlers that must. -/
theorem respondsAsDeclared_iff {r : Request} (hops : env.ops.Normal)
    (hnull : ∀ v, env.factory.SafeOn v)
    (hjson : ∀ config, configOf r = some config → ¬ env.json.OutOfRange config) :
    RespondsAsDeclared env p r ↔ ¬ HelloToUnknown p r := by
  unfold RespondsAsDeclared
  cases r with
  | createPhonebook token ty config id =>
    refine iff_of_true ?_ (not_helloToUnknown rfl)
    rw [serve, createPhonebookRPC_eq]
    exact finish_responses id (prepare_ne_escaped (hjson config rfl) fun v _ => (hnull v ty).1)
  | openPhonebook token ty config id =>
    refine iff_of_true ?_ (not_helloToUnknown rfl)
    rw [serve, openPhonebookRPC_eq]
    exact finish_responses id (prepare_ne_escaped (hjson config rfl) fun v _ => (hnull v ty).2)
  | closePhonebook token id =>
    refine iff_of_true ?_ (not_helloToUnknown rfl)
    rw [serve]
    by_cases hr : Rejects p.mToken token
    · rw [closePhonebookRPC_rejected hr]; rfl
    by_cases hid : id ∈ p.mBackends
    · rw [closePhonebookRPC_known hr hid]; rfl
    · rw [closePhonebookRPC_unknown hr hid]; rfl
  | destroyPhonebook token id =>
    refine iff_of_true ?_ (not_helloToUnknown rfl)
    rw [serve]
    by_cases hr : Rejects p.mToken token
    · rw [destroyPhonebookRPC_rejected hr]; rfl
    rcases hl : p.mBackends.lookup id with _ | b
    · rw [destroyPhonebookRPC_unknown hr hl]; rfl
    · obtain ⟨res, hres⟩ := hops.destroy b.derived
      rw [destroyPhonebookRPC_reported hr hl (Prod.ext hres rfl)]; rfl
  | checkPhonebook id =>
    refine iff_of_true ?_ (not_helloToUnknown rfl)
    rw [serve]
    rcases hl : p.mBackends.lookup id with _ | b
    · rw [checkPhonebookRPC_unknown hl]; rfl
    · rw [checkPhonebookRPC_known hl]; rfl
  | sayHello id =>
    rw [serve]
    rcases hl : p.mBackends.lookup id with _ | b
    · rw [sayHelloRPC_unknown hl]
      refine iff_of_false (by simp [respond, expectsResponse]) (not_not_intro ⟨id, rfl, ?_⟩)
      exact Finmap.lookup_eq_none.mp hl
    · rw [sayHelloRPC_known hl]
      refine iff_of_true (by simp [escape, expectsResponse]) ?_
      rintro ⟨id', heq, hid⟩
      cases heq; exact hid (Finmap.mem_of_lookup_eq_some hl)
  | computeSum id x y =>
    refine iff_of_true ?_ (not_helloToUnknown rfl)
    rw [serve]
    rcases hl : p.mBackends.lookup id with _ | b
    · rw [computeSumRPC_unknown hl]; rfl
    · obtain ⟨res, hres⟩ := hops.computeSum b.derived x y
      rw [computeSumRPC_returned env hl (Prod.ext hres rfl)]; rfl

/-- Creating a dummy phonebook is answered once. -/
theorem respondsAsDeclared_create_dummy :
    RespondsAsDeclared (DummyPhonebook.env .sample uuidUnparse) ⟨"", ∅⟩
      (.createPhonebook "" "dummy" "\x7b\x7d" .clear) := by
  refine (respondsAsDeclared_iff (DummyPhonebook.ops_normal _) DummyPhonebook.factory_safeOn
    ?_).mpr ?_
  · rintro config heq ⟨what, h⟩
    obtain rfl : "\x7b\x7d" = config := by simpa [configOf] using heq
    simp [DummyPhonebook.env, JsonLib.sample] at h
  · exact not_helloToUnknown rfl

/-- A hello to an unknown phonebook is answered although the client takes no response. -/
theorem not_respondsAsDeclared_hello :
    ¬ RespondsAsDeclared (DummyPhonebook.env .sample uuidUnparse) ⟨"", ∅⟩ (.sayHello .clear) := by
  unfold RespondsAsDeclared
  rw [serve, sayHelloRPC_unknown (by simp)]
  simp [respond, expectsResponse]

/-! ### Configurations that are not JSON -/

/-- Whatever happens to the text in the three places that parse it stays inside them: the shared
function and `openPhonebookRPC` end with a result, a failure that leaves the registry alone where
the text is not a JSON value, and the constructor ends with a provider, an empty one in that
case. -/
structure Contained (env : Env α) (config : String) : Prop where
  create : ∀ (p : ProviderImpl α) id ty, ∃ result p',
    createPhonebook env p id ty config = (.returns result, p') ∧
      (¬ env.json.Parses config → result.success = false ∧ p'.mBackends = p.mBackends)
  openRPC : ∀ (p : ProviderImpl α) token ty id, ∃ resp p',
    openPhonebookRPC env p token ty config id = respond p' resp ∧
      (¬ env.json.Parses config → resp.success = false ∧ p'.mBackends = p.mBackends)
  started : ∀ generate, (construct env generate config).exit.Normal ∧
    (¬ env.json.Parses config → (construct env generate config).provider.mBackends = ∅)

/-- An element has this type and this text for its configuration. -/
def Listed (env : Env α) (phonebooks : List Json) (ty config : String) : Prop :=
  ∃ e ∈ phonebooks, e.stringMember? "type" = some ty ∧ config = env.json.dump (configMember e)

/-- No registered backend hands its registration a null pointer for the value of the text, nor for
the configuration of a phonebook it lists. -/
def NullFree (env : Env α) (config : String) : Prop :=
  ∀ v, env.json.parse config = .value v → env.factory.SafeOn v ∧
    ∀ ty config', Listed env (elements v) ty config' →
      ∀ w, env.json.parse config' = .value w → env.factory.createPhonebook ty w ≠ .undefined

/-- The loop of the constructor ends normally if each of its calls does; the provider and the id of
a call do not matter. -/
theorem loadPhonebooks_normal_iff (generate : ℕ → UUID) (phonebooks : List Json)
    (p : ProviderImpl α) (results : List (RequestResult UUID)) :
    (loadPhonebooks env generate p results phonebooks).exit.Normal ↔
      ∀ ty config, Listed env phonebooks ty config → Harmless env ty config := by
  induction phonebooks generalizing p results with
  | nil => simp [loadPhonebooks, Listed]
  | cons e rest ih =>
    unfold loadPhonebooks
    rcases ht : e.stringMember? "type" with _ | ty
    · rw [ih]
      simp [Listed, ht]
    · dsimp only
      rw [show (e.member? "config").getD (.object []) = configMember e from rfl]
      set config := env.json.dump (configMember e) with hconfig
      have hsplit : ∀ ty' config', Listed env (e :: rest) ty' config' ↔
          (ty' = ty ∧ config' = config) ∨ Listed env rest ty' config' := by
        intro ty' config'
        simp only [Listed, List.mem_cons, exists_eq_or_imp, ht, Option.some.injEq, ← hconfig,
          eq_comm (a := ty)]
      have hcall := createPhonebook_returns_iff env p (generate results.length) ty config
      simp only [hsplit, or_imp, forall_and]
      rcases hc : createPhonebook env p (generate results.length) ty config
        with ⟨result | ex | _, p'⟩
      · have hret := hcall.mp ⟨result, p', hc⟩
        dsimp only
        rw [ih]
        refine ⟨fun h => ⟨?_, h⟩, fun h => h.2⟩
        rintro ty' config' ⟨rfl, rfl⟩
        exact hret
      all_goals
        have hret := mt hcall.mpr (by rw [hc]; rintro ⟨_, _, h⟩; cases h)
        exact iff_of_false (by simp) fun h => hret (h.1 ty config ⟨rfl, rfl⟩)

/-- **The text stays contained unless it holds a number out of range** (or a backend hands out a
null pointer), given that the library never writes such a number itself. -/
theorem contained_iff {config : String} (hdump : env.json.DumpInRange) :
    Contained env config ↔ ¬ env.json.OutOfRange config ∧ NullFree env config := by
  have p : ProviderImpl α := ⟨"", ∅⟩
  constructor
  · intro h
    have hcreate : ∀ ty, Harmless env ty config := fun ty => by
      obtain ⟨result, p', hc, -⟩ := h.create p .clear ty
      exact (createPhonebook_returns_iff env p .clear ty config).mp ⟨result, p', hc⟩
    refine ⟨(hcreate "").1, fun v hv => ⟨fun name => ⟨(hcreate name).2 v hv, fun hu => ?_⟩, ?_⟩⟩
    · obtain ⟨resp, p', ho, -⟩ := h.openRPC ⟨"", ∅⟩ "" name .clear
      obtain ⟨exit, he⟩ :=
        (prepare_escaped_iff "" "" name config (env.factory.openPhonebook name)).mpr
        ⟨by decide, Or.inr ⟨v, hv, hu⟩⟩
      rw [openPhonebookRPC_eq, he] at ho
      simp [finish, escape, respond] at ho
    · intro ty config' hl w hw
      have hs := (h.started fun _ => .clear).1
      unfold construct at hs
      rw [hv] at hs
      dsimp only at hs
      unfold elements at hl
      rcases hph : v.arrayMember? "phonebooks" with _ | phonebooks <;> rw [hph] at hl hs
      · obtain ⟨e, he, -⟩ := hl
        cases he
      · exact ((loadPhonebooks_normal_iff _ _ _ _).mp hs ty config' hl).2 w hw
  · rintro ⟨hrange, hnull⟩
    have hharm : ∀ ty, Harmless env ty config :=
      fun ty => ⟨hrange, fun v hv => ((hnull v hv).1 ty).1⟩
    refine ⟨fun p id ty => ?_, fun p token ty id => ?_, fun generate => ?_⟩
    · obtain ⟨result, p', hc⟩ := (createPhonebook_returns_iff env p id ty config).mpr (hharm ty)
      refine ⟨result, p', hc, fun hn => ?_⟩
      rcases createPhonebook_returned hc with ⟨hf, rfl⟩ | ⟨v, -, hv, -⟩
      · exact ⟨hf, rfl⟩
      · exact absurd ⟨v, hv⟩ hn
    · rw [openPhonebookRPC_eq]
      rcases finish_cases (p := p) id
        (prepare env p.mToken token ty config (env.factory.openPhonebook ty))
        with ⟨error, hx⟩ | ⟨exit, he, -⟩ | ⟨b, hb, hx⟩
      · exact ⟨_, _, hx, fun _ => ⟨rfl, rfl⟩⟩
      · exact absurd he (prepare_ne_escaped hrange (fun v hv => ((hnull v hv).1 ty).2) exit)
      · obtain ⟨-, v, hv, -⟩ := prepare_built hb
        exact ⟨_, _, hx, fun hn => absurd ⟨v, hv⟩ hn⟩
    · unfold construct
      cases hp : env.json.parse config with
      | parseError what => exact ⟨by simp, fun _ => rfl⟩
      | outOfRange what => exact absurd ⟨what, hp⟩ hrange
      | value v =>
        refine ⟨?_, fun hn => absurd ⟨v, hp⟩ hn⟩
        dsimp only
        rcases hph : v.arrayMember? "phonebooks" with _ | phonebooks
        · simp
        · have hlisted : elements v = phonebooks := by rw [elements, hph, Option.getD_some]
          refine (loadPhonebooks_normal_iff _ _ _ _).mpr fun ty config' hl => ⟨?_, ?_⟩
          · obtain ⟨e, -, -, rfl⟩ := hl
            exact hdump _
          · exact (hnull v hp).2 ty config' (hlisted ▸ hl)

/-- A provider linked with the dummy backend contains an empty configuration. -/
theorem contained_dummy : Contained (DummyPhonebook.env .sample uuidUnparse) "\x7b\x7d" := by
  refine (contained_iff JsonLib.sample_dumpInRange).mpr ⟨?_,
    fun v _ => ⟨DummyPhonebook.factory_safeOn v, ?_⟩⟩
  · rintro ⟨what, h⟩
    simp [DummyPhonebook.env, JsonLib.sample] at h
  · intro ty config' _ w _
    exact (DummyPhonebook.factory_safeOn w ty).1

/-- A number out of range is not contained. -/
theorem not_contained_overflow : ¬ Contained (DummyPhonebook.env .sample uuidUnparse) "1e999" := by
  intro h
  obtain ⟨result, p', hc, -⟩ := h.create ⟨"", ∅⟩ .clear "dummy"
  refine ((createPhonebook_returns_iff _ _ _ _ _).mp ⟨result, p', hc⟩).1
    ⟨"number overflow parsing '1e999'", ?_⟩
  simp [DummyPhonebook.env, JsonLib.sample]

end Phonebook.Server.Failures
