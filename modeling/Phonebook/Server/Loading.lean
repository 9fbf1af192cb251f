import Phonebook.Server.Registered

/-! # What the constructor loads

The constructor goes through the array of its configuration and makes a phonebook of each element it
can. As long as the ids it draws differ, none replaces another, so what it leaves registered is what
its elements give one by one (`construct_loads`). -/

namespace Phonebook.Server.Loading

open Phonebook.Data.Values Phonebook.Data.JsonTree Phonebook.Server.Backends
open Phonebook.Server.Provider Phonebook.Server.Handlers Phonebook.Server.Registered

variable {α : Type}

/-- The backend an element gives: it has a string for a type, a backend is registered under that
name, and its `create` accepts the configuration. -/
def accepted (types : List (String × BackendType α)) (e : Json) : Option (Backend α) :=
  match e.stringMember? "type" with
  | none => none
  | some ty =>
    match lastRegistered types ty with
    | none => none
    | some T =>
      match T.create (configMember e) with
      | .returns (some d) => some ⟨ty, d⟩
      | _ => none

/-- The registered backends, without their ids. -/
def backends (m : Registry α) : Multiset (Backend α) := m.entries.map Sigma.snd

/-- The `create` registered for the type of an element, if any, returns an object or throws. -/
def Loadable (types : List (String × BackendType α)) (e : Json) : Prop :=
  ∀ ty T, e.stringMember? "type" = some ty → lastRegistered types ty = some T →
    ObjectOrException (T.create (configMember e))

theorem mem_of_lastRegistered {types : List (String × BackendType α)} {name : String}
    {T : BackendType α}
    (h : lastRegistered types name = some T) : ∃ t ∈ types, t.2 = T := by
  obtain ⟨t, ht, rfl⟩ := Option.map_eq_some_iff.mp h
  exact ⟨t, List.mem_reverse.mp (List.mem_of_find?_eq_some ht), rfl⟩

@[simp] theorem backends_empty : backends (∅ : Registry α) = 0 := rfl

theorem backends_insert {m : Registry α} {id : UUID} {b : Backend α} (hid : id ∉ m) :
    backends (m.insert id b) = backends m + {b} := by
  rw [backends, Finmap.entries_insert_of_notMem hid, Multiset.map_cons, ← Multiset.singleton_add,
    add_comm]
  rfl

/-! ### One element -/

section Element
variable {env : Env α} {types : List (String × BackendType α)}

/-- **One element with a type**: its call of `createPhonebook` returns, and adds the backend the
element gives, if any. -/
theorem createPhonebook_element (p : ProviderImpl α) (id : UUID) {e : Json} {ty : String}
    (he : Loadable types e) (hty : e.stringMember? "type" = some ty)
    (hconfig : env.json.Rereads (configMember e)) :
    ∃ result, createPhonebook (linked env types) p id ty (env.json.dump (configMember e)) =
      (.returns result, match accepted types e with
        | none => p
        | some b => { p with mBackends := p.mBackends.insert id b }) := by
  have hparse : (linked env types).json.parse (env.json.dump (configMember e)) =
    .value (configMember e) := hconfig
  unfold createPhonebook accepted
  rw [hparse, hty]
  dsimp only
  rw [show (linked env types).factory = registerAll types from rfl, createPhonebook_registerAll]
  rcases hT : lastRegistered types ty with _ | T
  · exact ⟨_, rfl⟩
  dsimp only [Option.map_some]
  rcases he ty T hty hT with ⟨d, hd⟩ | ⟨ex, hex⟩
  · rw [hd]
    exact ⟨_, rfl⟩
  · rw [hex]
    exact ⟨_, rfl⟩

end Element

/-! ### The loop -/

section Loop
variable {env : Env α} {types : List (String × BackendType α)} {generate : ℕ → UUID}

/-- The ids registered so far are among those drawn. -/
def Drawn (generate : ℕ → UUID) (n : ℕ) (m : Registry α) : Prop :=
  ∀ id ∈ m, ∃ k < n, generate k = id

theorem Drawn.succ {n : ℕ} {m : Registry α} (h : Drawn generate n m) : Drawn generate (n + 1) m :=
  fun id hid => by
  obtain ⟨k, hk, rfl⟩ := h id hid
  exact ⟨k, by omega, rfl⟩

theorem Drawn.insert {n : ℕ} {m : Registry α} (h : Drawn generate n m) (b : Backend α) :
    Drawn generate (n + 1) (m.insert (generate n) b) := by
  intro id hid
  rcases Finmap.mem_insert.mp hid with rfl | hid
  · exact ⟨n, by omega, rfl⟩
  · exact h.succ id hid

/-- **The loop** adds what its elements give, if it draws no id twice. -/
theorem loadPhonebooks_loads (es : List Json) (hes : ∀ e ∈ es, Loadable types e)
    (hconfigs : ∀ e ∈ es, env.json.Rereads (configMember e)) (p : ProviderImpl α)
    (results : List (RequestResult UUID)) (hdrawn : Drawn generate results.length p.mBackends)
    (hfresh : Set.InjOn generate (Set.Iio (results.length + es.length))) :
    (loadPhonebooks (linked env types) generate p results es).exit = .returns () ∧
      backends (loadPhonebooks (linked env types) generate p results es).provider.mBackends =
        backends p.mBackends + (es.filterMap (accepted types) : List (Backend α)) := by
  induction es generalizing p results with
  | nil => exact ⟨rfl, by simp [loadPhonebooks]⟩
  | cons e rest ih =>
    have hrest : ∀ e' ∈ rest, env.json.Rereads (configMember e') :=
      fun e' he' => hconfigs e' (by simp [he'])
    have hloadable : ∀ e' ∈ rest, Loadable types e' := fun e' he' => hes e' (by simp [he'])
    rw [List.length_cons] at hfresh
    unfold loadPhonebooks
    rcases hty : e.stringMember? "type" with _ | ty
    · have hnone : accepted types e = none := by rw [accepted, hty]
      rw [List.filterMap_cons_none hnone]
      exact ih hloadable hrest p results hdrawn (hfresh.mono (Set.Iio_subset_Iio (by omega)))
    · obtain ⟨result, hcall⟩ :=
        createPhonebook_element p (generate results.length) (hes e (by simp)) hty
          (hconfigs e (by simp))
      have hlen : (results ++ [result]).length = results.length + 1 := by simp
      replace hfresh : Set.InjOn generate (Set.Iio ((results ++ [result]).length + rest.length)) :=
        hfresh.mono (Set.Iio_subset_Iio (by omega))
      dsimp only
      rw [show env.json.dump (configMember e) =
        (linked env types).json.dump ((e.member? "config").getD (.object [])) from rfl] at hcall
      rw [hcall]
      dsimp only
      rcases haccepted : accepted types e with _ | b
      · rw [List.filterMap_cons_none haccepted]
        exact ih hloadable hrest p _ (by rw [hlen]; exact hdrawn.succ) hfresh
      · -- the id is not registered: it was not drawn before
        have hnew : generate results.length ∉ p.mBackends := fun hmem => by
          obtain ⟨k, hk, heq⟩ := hdrawn _ hmem
          have hsame : k = results.length :=
            hfresh (Set.mem_Iio.mpr (by omega)) (Set.mem_Iio.mpr (by omega)) heq
          omega
        rw [List.filterMap_cons_some haccepted]
        obtain ⟨hexit, hbackends⟩ := ih hloadable hrest
          { p with mBackends := p.mBackends.insert (generate results.length) b } _
          (by rw [hlen]; exact hdrawn.insert b) hfresh
        refine ⟨hexit, hbackends.trans ?_⟩
        rw [backends_insert hnew, add_assoc, Multiset.singleton_add, Multiset.cons_coe]

end Loop

/-! ### The constructor -/

theorem construct_elements {env : Env α} {types : List (String × BackendType α)}
    {generate : ℕ → UUID} {config : String} {v : Json} (hv : env.json.parse config = .value v)
    (hes : ∀ e ∈ elements v, Loadable types e)
    (hfresh : Set.InjOn generate (Set.Iio (elements v).length))
    (hconfigs : ∀ e ∈ elements v, env.json.Rereads (configMember e)) :
    (construct (linked env types) generate config).exit = .returns () ∧
      backends (construct (linked env types) generate config).provider.mBackends =
        ((elements v).filterMap (accepted types) : List (Backend α)) := by
  have hparse : (linked env types).json.parse config = .value v := hv
  unfold construct
  rw [hparse]
  dsimp only
  unfold elements at hes hfresh hconfigs ⊢
  rcases harray : v.arrayMember? "phonebooks" with _ | es
  · exact ⟨rfl, rfl⟩
  rw [harray] at hes hfresh hconfigs
  have hdrawn : Drawn generate ([] : List (RequestResult UUID)).length (∅ : Registry α) :=
    fun id hid =>
    absurd hid Finmap.notMem_empty
  have hloads := loadPhonebooks_loads es hes hconfigs ⟨"", ∅⟩ [] hdrawn (by simpa using hfresh)
  simpa using hloads

/-- **What the constructor loads.** With backend types whose `create` returns an object or throws: a
configuration that is a JSON document leaves registered, if the ids drawn differ and the library
reads the elements' configurations back from their dumps, exactly the backends its elements give; a
document that is not an object with an array `phonebooks`, and a text that is not JSON, leave
nothing registered. -/
theorem construct_loads (env : Env α) (types : List (String × BackendType α))
    (hcreate : ∀ t ∈ types, ∀ v, ObjectOrException (t.2.create v)) (generate : ℕ → UUID)
    (config : String) :
    let c := construct (linked env types) generate config
    (∀ v, env.json.parse config = .value v → Set.InjOn generate (Set.Iio (elements v).length) →
      (∀ e ∈ elements v, env.json.Rereads (configMember e)) →
        c.exit = .returns () ∧ backends c.provider.mBackends =
          ((elements v).filterMap (accepted types) : List (Backend α))) ∧
    (∀ v, env.json.parse config = .value v → v.arrayMember? "phonebooks" = none →
      c.exit = .returns () ∧ c.provider.mBackends = ∅) ∧
    ∀ what, env.json.parse config = .parseError what → c.exit = .returns () ∧
      c.provider.mBackends = ∅ := by
  refine ⟨fun v hv hfresh hconfigs => construct_elements hv
    (fun e _ ty T _ hT => ?_) hfresh hconfigs,
    fun v hv hnone => ?_, fun what hwhat => ?_⟩
  · obtain ⟨t, ht, rfl⟩ := mem_of_lastRegistered hT
    exact hcreate t ht _
  · have hparse : (linked env types).json.parse config = .value v := hv
    unfold construct
    rw [hparse]
    dsimp only
    rw [hnone]
    exact ⟨rfl, rfl⟩
  · have hparse : (linked env types).json.parse config = .parseError what := hwhat
    unfold construct
    rw [hparse]
    exact ⟨rfl, rfl⟩

/-- A configuration with one dummy phonebook. -/
theorem construct_loads_oneDummy :
    backends
      (construct (linked (DummyPhonebook.env .sample uuidUnparse) [("dummy", DummyPhonebook.type)])
      (fun _ => .clear) "\x7b\"phonebooks\":[\x7b\"type\":\"dummy\"\x7d]\x7d").provider.mBackends =
        {⟨"dummy", ⟨.object []⟩⟩} := by
  have hcreate : ∀ t ∈ [("dummy", DummyPhonebook.type)], ∀ v, ObjectOrException (t.2.create v) := by
    rintro t ht v
    obtain rfl := List.mem_singleton.mp ht
    exact Or.inl ⟨⟨v⟩, rfl⟩
  have hfresh : Set.InjOn (fun _ : ℕ => UUID.clear) (Set.Iio 1) := fun a ha b hb _ => by
    simp only [Set.mem_Iio] at ha hb
    omega
  have hloads :=
    (construct_loads (DummyPhonebook.env .sample uuidUnparse) _ hcreate (fun _ => .clear)
    "\x7b\"phonebooks\":[\x7b\"type\":\"dummy\"\x7d]\x7d").1 _ rfl hfresh
  refine (hloads fun e he => ?_).2
  obtain rfl := List.mem_singleton.mp he
  rfl

end Phonebook.Server.Loading
