import Phonebook.Server.Registered

/-! # Creating and opening

Create and open are two copies of one procedure over two maps of the factory, which the
registrations fill together. So they differ in nothing but the static function they call, and where
the two static functions of the type registered last come to the same, the two RPCs do
(`open_eq_create`). -/

namespace Phonebook.Server.Opening

open Phonebook.Data.Values Phonebook.Data.JsonTree Phonebook.Server.Backends
open Phonebook.Server.Provider Phonebook.Server.Handlers Phonebook.Server.Registered

variable {α : Type}

/-- The static functions of the type come to the same on the configuration, an object or an
exception, if it is JSON. -/
def EqualOutcomes (lib : JsonLib) (T : BackendType α) (config : String) : Prop :=
  ∀ v, lib.parse config = .value v → T.open' v = T.create v ∧ ObjectOrException (T.create v)

/-- Both requests were answered once, with the same result, and left the same provider. -/
def SameAnswer (opened created : Run α) : Prop :=
  (∃ result, created.responses = [.uuid result] ∧ opened.responses = [.uuid result]) ∧
    opened.provider = created.provider ∧ created.exit = .returns () ∧ opened.exit = .returns ()

theorem prepare_congr {env : Env α} {mToken token ty config : String}
    {make make' : Json → Cpp (Option (Backend α))}
    (h : ∀ v, env.json.parse config = .value v → make v = make' v) :
    prepare env mToken token ty config make = prepare env mToken token ty config make' := by
  unfold prepare
  split_ifs
  · rfl
  · cases hp : env.json.parse config with
    | parseError | outOfRange => rfl
    | value v =>
      dsimp only
      rw [h v hp]

theorem called_ne_undefined (name : String) {x : Option (Cpp (Option α))}
    (hx : ∀ y ∈ x, ObjectOrException y) :
    called name x ≠ .undefined := by
  rcases x with _ | y
  · exact nofun
  · rcases hx y rfl with ⟨d, rfl⟩ | ⟨e, rfl⟩
    · exact nofun
    · exact nofun

/-- **One more registration** under a name replaces both functions of that name and no others. -/
theorem functions_concat (types : List (String × BackendType α)) (name : String) (T : BackendType α)
    (other : String) :
    ((registerAll (types ++ [(name, T)])).createFn other =
        if other = name then some (named name T.create) else (registerAll types).createFn other) ∧
      ((registerAll (types ++ [(name, T)])).openFn other =
        if other = name then some (named name T.open') else (registerAll types).openFn other) := by
  rw [registerAll_concat]
  exact ⟨Function.update_apply .., Function.update_apply ..⟩

/-- **Create and open agree.** After any registrations, for every state of the provider, token,
name, configuration without a number out of range and drawn id, an open request is answered like a
create request and leaves the same provider, if the static functions of the type registered last
under the name come to the same. A name is unknown to one map of the factory exactly when it is
unknown to the other, and a registration under a name that has one replaces both functions. -/
theorem open_eq_create (env : Env α) (types : List (String × BackendType α)) :
    (∀ (p : ProviderImpl α) (token ty config : String) (id : UUID), ¬ env.json.OutOfRange config →
      (∀ T, lastRegistered types ty = some T → EqualOutcomes env.json T config) →
        SameAnswer (openPhonebookRPC (linked env types) p token ty config id)
          (createPhonebookRPC (linked env types) p token ty config id)) ∧
    (∀ name, (registerAll types).createFn name = none ↔ (registerAll types).openFn name = none) ∧
    ∀ name T other,
      ((registerAll (types ++ [(name, T)])).createFn other =
        if other = name then some (named name T.create) else (registerAll types).createFn other) ∧
      ((registerAll (types ++ [(name, T)])).openFn other =
        if other = name then some (named name T.open') else (registerAll types).openFn other) := by
  refine ⟨fun p token ty config id hconfig hequal => ?_, fun name => ?_, functions_concat types⟩
  · have hmake : ∀ v, env.json.parse config = .value v →
        (registerAll types).openPhonebook ty v = (registerAll types).createPhonebook ty v := by
      intro v hv
      rw [openPhonebook_registerAll, createPhonebook_registerAll]
      cases hT : lastRegistered types ty with
      | none => rfl
      | some T => exact congrArg (fun x => called ty (some x)) (hequal T hT v hv).1
    have hprepare :
      prepare (linked env types) p.mToken token ty config ((registerAll types).openPhonebook ty) =
        prepare (linked env types) p.mToken token ty config
          ((registerAll types).createPhonebook ty) :=
      prepare_congr hmake
    have hdefined : ∀ v, env.json.parse config = .value v →
        (registerAll types).createPhonebook ty v ≠ .undefined := by
      intro v hv
      rw [createPhonebook_registerAll]
      refine called_ne_undefined ty fun y hy => ?_
      obtain ⟨T, hT, rfl⟩ := Option.map_eq_some_iff.mp hy
      exact (hequal T hT v hv).2
    have hanswered : ∀ exit, prepare (linked env types) p.mToken token ty config
        ((registerAll types).createPhonebook ty) ≠ .escaped exit :=
          prepare_ne_escaped hconfig hdefined
    obtain ⟨⟨result, hresult⟩, hexit⟩ := finish_answers p id hanswered
    have hopen : openPhonebookRPC (linked env types) p token ty config id =
        createPhonebookRPC (linked env types) p token ty config id := by
      rw [openPhonebookRPC_eq, createPhonebookRPC_eq]
      exact congrArg (finish p id) hprepare
    rw [SameAnswer, hopen, createPhonebookRPC_eq]
    exact ⟨⟨result, hresult, hresult⟩, rfl, hexit, hexit⟩
  · rw [(functions_registerAll types name).1, (functions_registerAll types name).2,
      Option.map_eq_none_iff,
      Option.map_eq_none_iff]

/-- The dummy backend, whose static functions come to the same on the empty configuration. -/
theorem open_eq_create_dummy :
    SameAnswer
      (openPhonebookRPC (linked (DummyPhonebook.env .sample uuidUnparse)
        [("dummy", DummyPhonebook.type)]) ⟨"", ∅⟩ ""
        "dummy" "\x7b\x7d" .clear)
      (createPhonebookRPC (linked (DummyPhonebook.env .sample uuidUnparse)
        [("dummy", DummyPhonebook.type)]) ⟨"", ∅⟩
        "" "dummy" "\x7b\x7d" .clear) := by
  refine (open_eq_create (DummyPhonebook.env .sample uuidUnparse)
    [("dummy", DummyPhonebook.type)]).1 ⟨"", ∅⟩ ""
    "dummy" "\x7b\x7d" .clear ?_ ?_
  · rintro ⟨what, h⟩
    cases h
  · rintro T ⟨⟩ v -
    exact ⟨rfl, Or.inl ⟨_, rfl⟩⟩

end Phonebook.Server.Opening
