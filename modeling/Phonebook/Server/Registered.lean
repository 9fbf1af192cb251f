import Phonebook.Server.Handlers

/-! # Registered backend types

The factory after any sequence of registrations calls the static functions of the type registered
last under a name, and writes the name into the object it got. A handler answers every outcome of
that call with success and a new entry, or with a failure and the registry as it was, unless there
is no object to write the name into (`wellAnswered_iff`). -/

namespace Phonebook.Server.Registered

open Phonebook.Data.Values Phonebook.Data.JsonTree Phonebook.Server.Backends
open Phonebook.Server.Provider Phonebook.Server.Handlers

variable {α : Type}

/-! ### The factory -/

/-- The factory after the registrations, in their order. -/
def registerAll (types : List (String × BackendType α)) : PhonebookFactory α :=
  types.foldl (fun f t => ypBackendRegistration t.2 t.1 f) .empty

/-- The backend type registered last under the name. -/
def lastRegistered (types : List (String × BackendType α)) (name : String) :
    Option (BackendType α) :=
  (types.reverse.find? fun t => t.1 = name).map Prod.snd

theorem registerAll_concat (types : List (String × BackendType α)) (t : String × BackendType α) :
    registerAll (types ++ [t]) = ypBackendRegistration t.2 t.1 (registerAll types) := by
  rw [registerAll, List.foldl_append]
  rfl

theorem lastRegistered_concat (types : List (String × BackendType α)) (t : String × BackendType α)
    (name : String) :
    lastRegistered (types ++ [t]) name = if t.1 = name then some t.2 else
      lastRegistered types name := by
  unfold lastRegistered
  rw [List.reverse_append, List.reverse_singleton, List.singleton_append, List.find?_cons]
  by_cases h : t.1 = name <;> simp [h]

/-- **Registration**: under every name the factory has both functions of the type registered
last. -/
theorem functions_registerAll (types : List (String × BackendType α)) (name : String) :
    (registerAll types).createFn name = (lastRegistered types name).map
      (fun T => named name T.create) ∧
      (registerAll types).openFn name = (lastRegistered types name).map fun T =>
        named name T.open' := by
  induction types using List.reverseRecOn with
  | nil => exact ⟨rfl, rfl⟩
  | append_singleton types t ih =>
    rw [registerAll_concat, lastRegistered_concat]
    by_cases h : t.1 = name
    · subst h
      simp [ypBackendRegistration]
    · have hne : name ≠ t.1 := fun heq => h heq.symm
      simpa [ypBackendRegistration, h, hne] using ih

/-- What the factory makes of the outcome of a static function, if one is registered. -/
def called (name : String) : Option (Cpp (Option α)) → Cpp (Option (Backend α))
  | none => .returns none
  | some (.returns (some d)) => .returns (some ⟨name, d⟩)
  | some (.returns none) => .undefined
  | some (.throws e) => .throws e
  | some .undefined => .undefined

theorem named_eq (name : String) (make : Json → Cpp (Option α)) (v : Json) :
    named name make v = called name (some (make v)) := by
  unfold named
  rcases make v with (_ | d) | e | _ <;> rfl

theorem createPhonebook_registerAll (types : List (String × BackendType α)) (name : String)
    (v : Json) :
    (registerAll types).createPhonebook name v = called name
      ((lastRegistered types name).map (·.create v)) := by
  unfold PhonebookFactory.createPhonebook
  rw [(functions_registerAll types name).1]
  rcases lastRegistered types name with _ | T
  · rfl
  · exact named_eq name T.create v

theorem openPhonebook_registerAll (types : List (String × BackendType α)) (name : String)
    (v : Json) :
    (registerAll types).openPhonebook name v = called name
      ((lastRegistered types name).map (·.open' v)) := by
  unfold PhonebookFactory.openPhonebook
  rw [(functions_registerAll types name).2]
  rcases lastRegistered types name with _ | T
  · rfl
  · exact named_eq name T.open' v

/-! ### The handlers -/

/-- The handler got the object from the static function: the token was accepted, and a function that
is registered returned one. -/
def Got (p : ProviderImpl α) (token : String) (made : Option (Cpp (Option α))) (d : α) : Prop :=
  ¬ Rejects p.mToken token ∧ made = some (.returns (some d))

/-- The handler returned and answered once: with success and one entry more, whose name is the type
requested, if it got an object, and else with a failure, all entries being as they were. -/
def WellAnswered (p : ProviderImpl α) (token ty : String) (id : UUID)
    (made : Option (Cpp (Option α)))
    (run : Run α) : Prop :=
  run.exit = .returns () ∧ ∃ resp, run.responses = [resp] ∧
    ((∃ d, Got p token made d ∧ resp.success = true ∧
        run.provider = { p with mBackends := p.mBackends.insert id ⟨ty, d⟩ }) ∨
      ((∀ d, ¬ Got p token made d) ∧ resp.success = false ∧ run.provider = p))

section Outcomes
variable {env : Env α} {p : ProviderImpl α} {token ty config : String} {id : UUID}
  {made : Option (Cpp (Option α))}

theorem wellAnswered_refused {error : String} (h : ∀ d, ¬ Got p token made d) :
    WellAnswered p token ty id made (finish p id (.refused error)) :=
  ⟨rfl, failed error, rfl, Or.inr ⟨h, rfl, rfl⟩⟩

/-- **Every outcome of the static function but one** is answered well: not a null pointer. -/
theorem wellAnswered_finish_iff {v : Json} {make : Json → Cpp (Option (Backend α))}
    (hv : env.json.parse config = .value v) (hmake : make v = called ty made)
    (hdefined : made ≠ some .undefined) :
    (called ty made ≠ .undefined ∧
        WellAnswered p token ty id made (finish p id (prepare env p.mToken token ty config make))) ↔
      made ≠ some (.returns none) := by
  by_cases hr : Rejects p.mToken token
  · have hnot : ∀ d, ¬ Got p token made d := fun d h => h.1 hr
    rw [prepare_of_rejects hr, and_iff_left (wellAnswered_refused hnot)]
    rcases made with _ | (_ | d) | e | _ <;> simp [called] at hdefined ⊢
  rw [prepare, if_neg hr, hv]
  dsimp only
  rw [hmake]
  have hnone : (∀ d, made ≠ some (.returns (some d))) → ∀ d, ¬ Got p token made d :=
    fun h d hg => h d hg.2
  rcases made with _ | (_ | d) | e | _
  · exact iff_of_true ⟨nofun, wellAnswered_refused (hnone nofun)⟩ nofun
  · exact iff_of_false (fun h => h.1 rfl) (fun h => h rfl)
  · refine iff_of_true ⟨nofun, rfl, added id, rfl, Or.inl ⟨d, ⟨hr, rfl⟩, rfl, rfl⟩⟩ ?_
    simp
  · exact iff_of_true ⟨nofun, wellAnswered_refused (hnone nofun)⟩ nofun
  · exact absurd rfl hdefined

end Outcomes

/-- A provider linked with backend types registered in this order. -/
def linked (env : Env α) (types : List (String × BackendType α)) : Env α :=
  { env with factory := registerAll types }

/-- **Outcomes of the factory.** For any registered backend types, any name and any configuration on
which the static functions registered last under the name return or throw, neither the factory nor
the handler dereferences a null pointer, and the handler answers well, if and only if the static
function does not return a null pointer; so for create, and so for open. -/
theorem wellAnswered_iff (env : Env α) (types : List (String × BackendType α)) (p : ProviderImpl α)
    (token ty config : String) (id : UUID) (v : Json) (hv : env.json.parse config = .value v)
    (hdefined : ∀ T, lastRegistered types ty = some T → T.create v ≠ .undefined ∧
      T.open' v ≠ .undefined) :
    (((registerAll types).createPhonebook ty v ≠ .undefined ∧
        WellAnswered p token ty id ((lastRegistered types ty).map (·.create v))
          (createPhonebookRPC (linked env types) p token ty config id)) ↔
      ∀ T, lastRegistered types ty = some T → T.create v ≠ .returns none) ∧
    (((registerAll types).openPhonebook ty v ≠ .undefined ∧
        WellAnswered p token ty id ((lastRegistered types ty).map (·.open' v))
          (openPhonebookRPC (linked env types) p token ty config id)) ↔
      ∀ T, lastRegistered types ty = some T → T.open' v ≠ .returns none) := by
  have hmap : ∀ (f : BackendType α → Cpp (Option α)) (x : Cpp (Option α)),
      (lastRegistered types ty).map f ≠ some x ↔ ∀ T, lastRegistered types ty = some T → f T ≠ x :=
        fun f x => by
    simp [Option.map_eq_some_iff]
  constructor
  · rw [createPhonebook_registerAll, createPhonebookRPC_eq, ← hmap (·.create v)]
    refine wellAnswered_finish_iff hv (createPhonebook_registerAll types ty v) ?_
    exact (hmap _ _).mpr fun T hT => (hdefined T hT).1
  · rw [openPhonebook_registerAll, openPhonebookRPC_eq, ← hmap (·.open' v)]
    refine wellAnswered_finish_iff hv (openPhonebook_registerAll types ty v) ?_
    exact (hmap _ _).mpr fun T hT => (hdefined T hT).2

/-- The dummy backend is registered, and accepts the empty configuration. -/
theorem wellAnswered_iff_dummy :
    WellAnswered ⟨"", ∅⟩ "" "dummy" .clear (some (.returns (some ⟨.object []⟩)))
      (createPhonebookRPC (linked (DummyPhonebook.env .sample uuidUnparse)
        [("dummy", DummyPhonebook.type)]) ⟨"", ∅⟩ ""
        "dummy" "\x7b\x7d" .clear) := by
  have h :=
    (wellAnswered_iff (DummyPhonebook.env .sample uuidUnparse) [("dummy", DummyPhonebook.type)]
      ⟨"", ∅⟩ ""
    "dummy" "\x7b\x7d" .clear (.object []) rfl (by rintro T ⟨⟩; exact ⟨nofun, nofun⟩)).1
  exact (h.mpr (by rintro T ⟨⟩; nofun)).2

/-- The name is written into an object that is not there. -/
theorem not_wellAnswered_nullType :
    ¬ ((registerAll [("null", nullType)]).createPhonebook "null" (.object []) ≠ .undefined ∧
      WellAnswered ⟨"", ∅⟩ "" "null" .clear (some (.returns none))
        (createPhonebookRPC (linked (unitEnv (.returns .init) .empty) [("null", nullType)])
          ⟨"", ∅⟩ ""
          "null" "\x7b\x7d" .clear)) := by
  rintro ⟨hdefined, -⟩
  exact hdefined rfl

end Phonebook.Server.Registered
