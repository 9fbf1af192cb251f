import Phonebook.Server.Provider

/-! # What the handlers do

The two RPCs that add a phonebook first prepare it, which looks at the token, the configuration and
the factory but not at the registry, and then finish (`createPhonebookRPC_eq`,
`openPhonebookRPC_eq`). The other handlers are one lookup and what follows from it. With these
equations every question about a run of a handler is a case analysis over a handful of ends. -/

namespace Phonebook.Server.Handlers

open Phonebook.Data.Values Phonebook.Data.JsonTree Phonebook.Server.Backends
open Phonebook.Server.Provider

variable {α : Type} (env : Env α)

/-! ### Create and open -/

/-- What the preparation of a phonebook comes to. -/
inductive Prepared (α : Type) where
  | refused (error : String)
  | escaped (exit : Cpp Unit)
  | built (b : Backend α)

/-- The part of create and open before the registry is touched, `make` being the factory's function
for the type. -/
def prepare (mToken token phonebookType phonebookConfig : String)
    (make : Json → Cpp (Option (Backend α))) : Prepared α :=
  if Rejects mToken token then .refused "Invalid security token"
  else
    match env.json.parse phonebookConfig with
    | .parseError what => .refused what
    | .outOfRange what => .escaped (.throws (.outOfRange what))
    | .value v =>
      match make v with
      | .throws ex => .refused ex.what
      | .undefined => .escaped .undefined
      | .returns none => .refused ("Unknown phonebook type " ++ phonebookType)
      | .returns (some b) => .built b

/-- The result sent when create or open fails. -/
def failed (error : String) : Response :=
  .uuid { (RequestResult.init : RequestResult UUID) with success := false, error := error }

/-- The result sent when create or open added the phonebook. -/
def added (id : UUID) : Response :=
  .uuid { (RequestResult.init : RequestResult UUID) with value := some id }

/-- The part of create and open after the preparation. -/
def finish (p : ProviderImpl α) (id : UUID) : Prepared α → Run α
  | .refused error => respond p (failed error)
  | .escaped exit => escape p exit
  | .built b => respond { p with mBackends := p.mBackends.insert id b } (added id)

theorem createPhonebookRPC_eq (p : ProviderImpl α) (token ty config : String) (id : UUID) :
    createPhonebookRPC env p token ty config id =
      finish p id (prepare env p.mToken token ty config (env.factory.createPhonebook ty)) := by
  unfold createPhonebookRPC prepare createPhonebook
  split_ifs
  · rfl
  · cases env.json.parse config with
    | parseError | outOfRange => rfl
    | value v =>
      dsimp only
      rcases env.factory.createPhonebook ty v with (_ | _) | _ | _ <;> rfl

theorem openPhonebookRPC_eq (p : ProviderImpl α) (token ty config : String) (id : UUID) :
    openPhonebookRPC env p token ty config id =
      finish p id (prepare env p.mToken token ty config (env.factory.openPhonebook ty)) := by
  unfold openPhonebookRPC prepare
  split_ifs
  · rfl
  · cases env.json.parse config with
    | parseError | outOfRange => rfl
    | value v =>
      dsimp only
      rcases env.factory.openPhonebook ty v with (_ | _) | _ | _ <;> rfl

variable {env}

theorem prepare_of_rejects {mToken token ty config : String}
    {make : Json → Cpp (Option (Backend α))} (h : Rejects mToken token) :
    prepare env mToken token ty config make = .refused "Invalid security token" := if_pos h

/-- **When the preparation escapes**: on a number out of range or a null pointer. -/
theorem prepare_escaped_iff (mToken token ty config : String)
    (make : Json → Cpp (Option (Backend α))) :
    (∃ exit, prepare env mToken token ty config make = .escaped exit) ↔
      ¬ Rejects mToken token ∧ (env.json.OutOfRange config ∨
        ∃ v, env.json.parse config = .value v ∧ make v = .undefined) := by
  unfold prepare JsonLib.OutOfRange
  by_cases hr : Rejects mToken token
  · simp [hr]
  simp only [hr, if_false, not_false_eq_true, true_and]
  cases env.json.parse config with
  | parseError what => simp
  | outOfRange what => simp
  | value v => rcases hm : make v with (_ | _) | _ | _ <;> simp [hm]

theorem prepare_ne_escaped {mToken token ty config : String}
    {make : Json → Cpp (Option (Backend α))} (hjson : ¬ env.json.OutOfRange config)
    (hmake : ∀ v, env.json.parse config = .value v → make v ≠ .undefined)
    (exit : Cpp Unit) : prepare env mToken token ty config make ≠ .escaped exit := by
  intro h
  obtain ⟨-, hout | ⟨v, hv, hundefined⟩⟩ := (prepare_escaped_iff _ _ _ _ _).mp ⟨exit, h⟩
  · exact hjson hout
  · exact hmake v hv hundefined

theorem prepare_built {mToken token ty config : String} {make : Json → Cpp (Option (Backend α))}
    {b : Backend α} (h : prepare env mToken token ty config make = .built b) :
    ¬ Rejects mToken token ∧ ∃ v, env.json.parse config = .value v ∧
      make v = .returns (some b) := by
  unfold prepare at h
  split_ifs at h with hr
  refine ⟨hr, ?_⟩
  cases hp : env.json.parse config with
  | parseError what => rw [hp] at h; cases h
  | outOfRange what => rw [hp] at h; cases h
  | value v =>
    rw [hp] at h
    dsimp only at h
    rcases hm : make v with (_ | b') | _ | _ <;> rw [hm] at h <;> cases h
    exact ⟨v, rfl, hm⟩

variable {p : ProviderImpl α}

/-- The configuration has no number out of range, and the factory does not dereference a null
pointer on its value. -/
def Harmless (env : Env α) (ty config : String) : Prop :=
  ¬ env.json.OutOfRange config ∧
    ∀ v, env.json.parse config = .value v → env.factory.createPhonebook ty v ≠ .undefined

theorem createPhonebook_returns_iff (env : Env α) (p : ProviderImpl α) (id : UUID)
    (ty config : String) :
    (∃ result p', createPhonebook env p id ty config = (.returns result, p')) ↔
      Harmless env ty config := by
  unfold createPhonebook Harmless JsonLib.OutOfRange
  cases env.json.parse config with
  | parseError what => simp
  | outOfRange what => simp
  | value v => rcases hm : env.factory.createPhonebook ty v with (_ | _) | _ | _ <;> simp [hm]

theorem createPhonebook_returned {id : UUID} {ty config : String} {result : RequestResult UUID}
    {p' : ProviderImpl α} (h : createPhonebook env p id ty config = (.returns result, p')) :
    (result.success = false ∧ p' = p) ∨ ∃ v b, env.json.parse config = .value v ∧
      env.factory.createPhonebook ty v = .returns (some b) ∧ result = ⟨true, "", some id⟩ ∧
        p' = { p with mBackends := p.mBackends.insert id b } := by
  unfold createPhonebook at h
  cases hp : env.json.parse config with
  | parseError what => rw [hp] at h; cases h; exact Or.inl ⟨rfl, rfl⟩
  | outOfRange what => rw [hp] at h; cases h
  | value v =>
    rw [hp] at h
    dsimp only at h
    rcases hm : env.factory.createPhonebook ty v with (_ | b) | _ | _ <;> rw [hm] at h <;> cases h
    · exact Or.inl ⟨rfl, rfl⟩
    · exact Or.inr ⟨v, b, rfl, hm, rfl, rfl⟩
    · exact Or.inl ⟨rfl, rfl⟩

theorem createPhonebook_escaped {id : UUID} {ty config : String} {x : Cpp (RequestResult UUID)}
    {p' : ProviderImpl α} (h : createPhonebook env p id ty config = (x, p')) (hx : ¬ x.Normal) :
    p' = p := by
  unfold createPhonebook at h
  cases hp : env.json.parse config with
  | parseError what => rw [hp] at h; cases h; exact absurd ⟨_, rfl⟩ hx
  | outOfRange what => rw [hp] at h; cases h; rfl
  | value v =>
    rw [hp] at h
    dsimp only at h
    rcases hm : env.factory.createPhonebook ty v with (_ | b) | _ | _ <;> rw [hm] at h <;>
      cases h <;>
      first | rfl | exact absurd ⟨_, rfl⟩ hx

/-- **The constructor rule**: what holds of the empty provider and is kept by every call of the
loop, failed or not, holds of the provider and the results of the constructor. -/
theorem construct_induction (env : Env α) {P : ProviderImpl α → List (RequestResult UUID) → Prop}
    (h0 : P ⟨"", ∅⟩ [])
    (hfailed : ∀ p results result, P p results → result.success = false → P p (results ++ [result]))
    (hadded : ∀ p results id ty config v b, P p results → env.json.parse config = .value v →
      env.factory.createPhonebook ty v = .returns (some b) →
        P { p with mBackends := p.mBackends.insert id b } (results ++ [⟨true, "", some id⟩]))
    (generate : ℕ → UUID) (config : String) :
    P (construct env generate config).provider (construct env generate config).results := by
  have hload :
    ∀ (phonebooks : List Json) (p : ProviderImpl α) (results : List (RequestResult UUID)),
      P p results → P (loadPhonebooks env generate p results phonebooks).provider
        (loadPhonebooks env generate p results phonebooks).results := by
    intro phonebooks
    induction phonebooks with
    | nil => exact fun p results h => h
    | cons e rest ih =>
      intro p results h
      unfold loadPhonebooks
      rcases e.stringMember? "type" with _ | ty
      · exact ih p results h
      · dsimp only
        rcases hc : createPhonebook env p (generate results.length) ty
          (env.json.dump ((e.member? "config").getD (.object []))) with ⟨result | ex | _, p'⟩
        · refine ih p' _ ?_
          rcases createPhonebook_returned hc with ⟨hf, rfl⟩ | ⟨v, b, hv, hm, rfl, rfl⟩
          · exact hfailed _ results result h hf
          · exact hadded p results _ ty _ v b h hv hm
        all_goals
          obtain rfl := createPhonebook_escaped hc (by simp)
          exact h
  unfold construct
  cases env.json.parse config with
  | parseError | outOfRange => exact h0
  | value v =>
    dsimp only
    rcases v.arrayMember? "phonebooks" with _ | phonebooks
    · exact h0
    · exact hload phonebooks _ [] h0

/-- Create and open, one way or the other: a refusal, an escape, or one new entry. -/
theorem finish_cases (id : UUID) (x : Prepared α) :
    (∃ error, finish p id x = respond p (failed error)) ∨
      (∃ exit, x = .escaped exit ∧ finish p id x = escape p exit) ∨
      ∃ b, x = .built b ∧
        finish p id x = respond { p with mBackends := p.mBackends.insert id b } (added id) := by
  cases x with
  | refused error => exact Or.inl ⟨error, rfl⟩
  | escaped exit => exact Or.inr (Or.inl ⟨exit, rfl, rfl⟩)
  | built b => exact Or.inr (Or.inr ⟨b, rfl, rfl⟩)

theorem finish_answers (p : ProviderImpl α) (id : UUID) {x : Prepared α}
    (hx : ∀ exit, x ≠ .escaped exit) :
    (∃ result, (finish p id x).responses = [.uuid result]) ∧
      (finish p id x).exit = .returns () := by
  rcases finish_cases (p := p) id x with ⟨error, h⟩ | ⟨exit, rfl, -⟩ | ⟨b, -, h⟩
  · rw [h]
    exact ⟨⟨_, rfl⟩, rfl⟩
  · exact absurd rfl (hx exit)
  · rw [h]
    exact ⟨⟨_, rfl⟩, rfl⟩

/-! ### The other handlers, case by case -/

theorem insert_of_lookup {m : Registry α} {id : UUID} {b : Backend α} (hb : m.lookup id = some b)
    {d : α} (hd : d = b.derived) : m.insert id { b with derived := d } = m := by
  subst hd
  refine Finmap.ext_lookup fun id' => ?_
  by_cases hid : id' = id
  · subst hid
    rw [Finmap.lookup_insert, hb]
  · rw [Finmap.lookup_insert_of_ne _ hid]

section Others
variable {token : String} {id : UUID}

theorem closePhonebookRPC_rejected (h : Rejects p.mToken token) :
    closePhonebookRPC env p token id = respond p (.bool ⟨false, "Invalid security token"⟩) :=
  if_pos h

theorem closePhonebookRPC_unknown (h : ¬ Rejects p.mToken token) (hid : id ∉ p.mBackends) :
    closePhonebookRPC env p token id =
      respond p (.bool ⟨false, "Phonebook " ++ env.uuidUnparse id ++ " not found"⟩) := by
  unfold closePhonebookRPC
  rw [if_neg h, if_pos hid]

theorem closePhonebookRPC_known (h : ¬ Rejects p.mToken token) (hid : id ∈ p.mBackends) :
    closePhonebookRPC env p token id =
      respond { p with mBackends := p.mBackends.erase id } (.bool .init) := by
  unfold closePhonebookRPC
  rw [if_neg h, if_neg (not_not_intro hid)]

theorem destroyPhonebookRPC_rejected (h : Rejects p.mToken token) :
    destroyPhonebookRPC env p token id = respond p (.bool ⟨false, "Invalid security token"⟩) :=
  if_pos h

theorem destroyPhonebookRPC_unknown (h : ¬ Rejects p.mToken token)
    (hid : p.mBackends.lookup id = none) :
    destroyPhonebookRPC env p token id =
      respond p (.bool ⟨false, "Phonebook " ++ env.uuidUnparse id ++ " not found"⟩) := by
  unfold destroyPhonebookRPC
  rw [if_neg h, hid]

theorem destroyPhonebookRPC_reported {b : Backend α} {r : RequestResultBool} {d : α}
    (h : ¬ Rejects p.mToken token) (hid : p.mBackends.lookup id = some b)
    (hd : env.ops.destroy b.derived = (.returns r, d)) :
    destroyPhonebookRPC env p token id =
      respond { p with mBackends := p.mBackends.erase id } (.bool r) := by
  unfold destroyPhonebookRPC
  rw [if_neg h, hid]
  dsimp only
  rw [hd]

theorem destroyPhonebookRPC_threw {b : Backend α} {e : Exn} {d : α} (h : ¬ Rejects p.mToken token)
    (hid : p.mBackends.lookup id = some b) (hd : env.ops.destroy b.derived = (.throws e, d)) :
    destroyPhonebookRPC env p token id =
      escape { p with mBackends := p.mBackends.insert id { b with derived := d } } (.throws e) := by
  unfold destroyPhonebookRPC
  rw [if_neg h, hid]
  dsimp only
  rw [hd]

theorem destroyPhonebookRPC_undefined {b : Backend α} {d : α} (h : ¬ Rejects p.mToken token)
    (hid : p.mBackends.lookup id = some b) (hd : env.ops.destroy b.derived = (.undefined, d)) :
    destroyPhonebookRPC env p token id = escape p .undefined := by
  unfold destroyPhonebookRPC
  rw [if_neg h, hid]
  dsimp only
  rw [hd]

theorem checkPhonebookRPC_unknown (hid : p.mBackends.lookup id = none) :
    checkPhonebookRPC env p id =
      respond p (.bool ⟨false, "Phonebook with UUID " ++ env.uuidUnparse id ++ " not found"⟩) := by
  unfold checkPhonebookRPC findPhonebook
  rw [hid]

theorem checkPhonebookRPC_known {b : Backend α} (hid : p.mBackends.lookup id = some b) :
    checkPhonebookRPC env p id = respond p (.bool .init) := by
  unfold checkPhonebookRPC findPhonebook
  rw [hid]; rfl

theorem sayHelloRPC_unknown (hid : p.mBackends.lookup id = none) :
    sayHelloRPC env p id =
      respond p (.bool ⟨false, "Phonebook with UUID " ++ env.uuidUnparse id ++ " not found"⟩) := by
  unfold sayHelloRPC findPhonebook
  rw [hid]

theorem sayHelloRPC_known {b : Backend α} (hid : p.mBackends.lookup id = some b) :
    sayHelloRPC env p id =
      escape { p with mBackends :=
        p.mBackends.insert id { b with derived := (env.ops.sayHello b.derived).2 } }
        (env.ops.sayHello b.derived).1 := by
  unfold sayHelloRPC findPhonebook
  rw [hid]

theorem computeSumRPC_unknown {x y : Int32} (hid : p.mBackends.lookup id = none) :
    computeSumRPC env p id x y = respond p
      (.int32 ⟨false, "Phonebook with UUID " ++ env.uuidUnparse id ++ " not found", none⟩) := by
  unfold computeSumRPC findPhonebook
  rw [hid]; rfl

theorem computeSumRPC_returned (env : Env α) {x y : Int32} {b : Backend α} {r : RequestResult Int32}
    {d : α} (hid : p.mBackends.lookup id = some b)
    (hc : env.ops.computeSum b.derived x y = (.returns r, d)) :
    computeSumRPC env p id x y =
      respond { p with mBackends := p.mBackends.insert id { b with derived := d } } (.int32 r) := by
  unfold computeSumRPC findPhonebook
  rw [hid]
  dsimp only
  rw [hc]

theorem computeSumRPC_threw {x y : Int32} {b : Backend α} {e : Exn} {d : α}
    (hid : p.mBackends.lookup id = some b)
    (hc : env.ops.computeSum b.derived x y = (.throws e, d)) :
    computeSumRPC env p id x y =
      escape { p with mBackends := p.mBackends.insert id { b with derived := d } } (.throws e) := by
  unfold computeSumRPC findPhonebook
  rw [hid]
  dsimp only
  rw [hc]

theorem computeSumRPC_undefined {x y : Int32} {b : Backend α} {d : α}
    (hid : p.mBackends.lookup id = some b)
    (hc : env.ops.computeSum b.derived x y = (.undefined, d)) :
    computeSumRPC env p id x y = escape p .undefined := by
  unfold computeSumRPC findPhonebook
  rw [hid]
  dsimp only
  rw [hc]

end Others

end Phonebook.Server.Handlers
