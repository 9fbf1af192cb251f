import Mathlib.Data.Finmap
import Phonebook.Server.Backends

/-! # The provider

`ProviderImpl` with its token and its map `m_backends` of registered backends, the constructor, and
the handlers of the seven RPCs, each run alone from receipt to return. A handler's run is the
responses it sent, the way it ended and the provider it left. The id `UUID::generate` would draw for
a create or open request is part of the request. -/

namespace Phonebook.Server.Provider

open Phonebook.Data.Values Phonebook.Data.JsonTree Phonebook.Server.Backends

/-- `m_backends`. -/
abbrev Registry (α : Type) := Finmap (fun _ : UUID => Backend α)

/-- `ProviderImpl`: the security token and the registered backends. -/
structure ProviderImpl (α : Type) where
  mToken : String
  mBackends : Registry α

/-- A run of one handler. -/
structure Run (α : Type) where
  provider : ProviderImpl α
  responses : List Response
  exit : Cpp Unit

variable {α : Type} (env : Env α)

/-- `req.respond` as the last thing a handler does. -/
def respond (p : ProviderImpl α) (r : Response) : Run α := ⟨p, [r], .returns ()⟩

/-- The handler is left by an exception or by undefined behaviour, without a response. -/
def escape (p : ProviderImpl α) (exit : Cpp Unit) : Run α := ⟨p, [], exit⟩

/-- The test every admin RPC makes of the token it was sent. -/
def Rejects (mToken token : String) : Prop := 0 < mToken.length ∧ mToken ≠ token

instance (mToken token : String) : Decidable (Rejects mToken token) := by
  unfold Rejects; infer_instance

/-! ### Admin RPCs -/

/-- `ProviderImpl::createPhonebook`, with the id it draws. -/
def createPhonebook (p : ProviderImpl α) (phonebookId : UUID)
    (phonebookType phonebookConfig : String) :
    Cpp (RequestResult UUID) × ProviderImpl α :=
  let result : RequestResult UUID := .init
  match env.json.parse phonebookConfig with
  | .parseError what => (.returns { result with error := what, success := false }, p)
  -- only `parse_error` is caught
  | .outOfRange what => (.throws (.outOfRange what), p)
  | .value jsonConfig =>
    match env.factory.createPhonebook phonebookType jsonConfig with
    | .throws ex => (.returns { result with success := false, error := ex.what }, p)
    | .undefined => (.undefined, p)
    | .returns none =>
      (.returns { result with success := false, error := "Unknown phonebook type " ++
        phonebookType }, p)
    | .returns (some backend) =>
      (.returns { result with value := some phonebookId },
        { p with mBackends := p.mBackends.insert phonebookId backend })

/-- `ProviderImpl::createPhonebookRPC`. -/
def createPhonebookRPC (p : ProviderImpl α) (token phonebookType phonebookConfig : String)
    (phonebookId : UUID) : Run α :=
  let result : RequestResult UUID := .init
  if Rejects p.mToken token then
    respond p (.uuid { result with success := false, error := "Invalid security token" })
  else
    match createPhonebook env p phonebookId phonebookType phonebookConfig with
    | (.returns result, p) => respond p (.uuid result)
    | (.throws e, p) => escape p (.throws e)
    | (.undefined, p) => escape p .undefined

/-- `ProviderImpl::openPhonebookRPC`. -/
def openPhonebookRPC (p : ProviderImpl α) (token phonebookType phonebookConfig : String)
    (phonebookId : UUID) : Run α :=
  let result : RequestResult UUID := .init
  if Rejects p.mToken token then
    respond p (.uuid { result with success := false, error := "Invalid security token" })
  else
    match env.json.parse phonebookConfig with
    | .parseError what => respond p (.uuid { result with error := what, success := false })
    | .outOfRange what => escape p (.throws (.outOfRange what))
    | .value jsonConfig =>
      match env.factory.openPhonebook phonebookType jsonConfig with
      | .throws ex => respond p (.uuid { result with success := false, error := ex.what })
      | .undefined => escape p .undefined
      | .returns none =>
        respond p (.uuid
          { result with success := false, error := "Unknown phonebook type " ++ phonebookType })
      | .returns (some backend) =>
        respond { p with mBackends := p.mBackends.insert phonebookId backend }
          (.uuid { result with value := some phonebookId })

/-- `ProviderImpl::closePhonebookRPC`. -/
def closePhonebookRPC (p : ProviderImpl α) (token : String) (phonebookId : UUID) : Run α :=
  let result : RequestResultBool := .init
  if Rejects p.mToken token then
    respond p (.bool { result with success := false, error := "Invalid security token" })
  else if phonebookId ∉ p.mBackends then
    respond p (.bool { result with
      success := false, error := "Phonebook " ++ env.uuidUnparse phonebookId ++ " not found" })
  else
    respond { p with mBackends := p.mBackends.erase phonebookId } (.bool result)

/-- `ProviderImpl::destroyPhonebookRPC`. The entry is erased whatever `destroy` reported; when it
throws, the object stays registered, as the call left it. -/
def destroyPhonebookRPC (p : ProviderImpl α) (token : String) (phonebookId : UUID) : Run α :=
  let result : RequestResultBool := .init
  if Rejects p.mToken token then
    respond p (.bool { result with success := false, error := "Invalid security token" })
  else
    match p.mBackends.lookup phonebookId with
    | none =>
      respond p (.bool { result with
        success := false, error := "Phonebook " ++ env.uuidUnparse phonebookId ++ " not found" })
    | some b =>
      match env.ops.destroy b.derived with
      | (.returns result, _) =>
        respond { p with mBackends := p.mBackends.erase phonebookId } (.bool result)
      | (.throws e, d) =>
        escape { p with mBackends := p.mBackends.insert phonebookId { b with derived := d } }
          (.throws e)
      | (.undefined, _) => escape p .undefined

/-! ### Client RPCs -/

/-- `FIND_PHONEBOOK`: the macro responds and returns from the handler when the id is unknown, and
otherwise goes on with the backend found. `send` packs the error into the handler's `result`. -/
def findPhonebook (p : ProviderImpl α) (phonebookId : UUID) (send : String → Response)
    (body : Backend α → Run α) : Run α :=
  match p.mBackends.lookup phonebookId with
  | none => respond p (send ("Phonebook with UUID " ++ env.uuidUnparse phonebookId ++ " not found"))
  | some b => body b

/-- `ProviderImpl::checkPhonebookRPC`. -/
def checkPhonebookRPC (p : ProviderImpl α) (phonebookId : UUID) : Run α :=
  let result : RequestResultBool := .init
  findPhonebook env p phonebookId (fun e => .bool { result with success := false, error := e })
    fun _ => respond p (.bool { result with success := true })

/-- `ProviderImpl::sayHelloRPC`. -/
def sayHelloRPC (p : ProviderImpl α) (phonebookId : UUID) : Run α :=
  let result : RequestResultBool := .init
  findPhonebook env p phonebookId (fun e => .bool { result with success := false, error := e })
    fun b =>
      let (exit, d) := env.ops.sayHello b.derived
      escape { p with mBackends := p.mBackends.insert phonebookId { b with derived := d } } exit

/-- `ProviderImpl::computeSumRPC`. -/
def computeSumRPC (p : ProviderImpl α) (phonebookId : UUID) (x y : Int32) : Run α :=
  let result : RequestResult Int32 := .init
  findPhonebook env p phonebookId (fun e => .int32 { result with success := false, error := e })
    fun b =>
      match env.ops.computeSum b.derived x y with
      | (.returns result, d) =>
        respond { p with mBackends := p.mBackends.insert phonebookId { b with derived := d } }
          (.int32 result)
      | (.throws e, d) =>
        escape { p with mBackends := p.mBackends.insert phonebookId { b with derived := d } }
          (.throws e)
      | (.undefined, _) => escape p .undefined

/-! ### Requests -/

/-- A request of one of the seven RPCs, with its arguments; `drawn` is the id `UUID::generate`
returns while it is handled. -/
inductive Request where
  | createPhonebook (token phonebookType phonebookConfig : String) (drawn : UUID)
  | openPhonebook (token phonebookType phonebookConfig : String) (drawn : UUID)
  | closePhonebook (token : String) (phonebookId : UUID)
  | destroyPhonebook (token : String) (phonebookId : UUID)
  | checkPhonebook (phonebookId : UUID)
  | sayHello (phonebookId : UUID)
  | computeSum (phonebookId : UUID) (x y : Int32)

/-- The handler the RPC is defined with. -/
def serve (p : ProviderImpl α) : Request → Run α
  | .createPhonebook token ty config drawn => createPhonebookRPC env p token ty config drawn
  | .openPhonebook token ty config drawn => openPhonebookRPC env p token ty config drawn
  | .closePhonebook token id => closePhonebookRPC env p token id
  | .destroyPhonebook token id => destroyPhonebookRPC env p token id
  | .checkPhonebook id => checkPhonebookRPC env p id
  | .sayHello id => sayHelloRPC env p id
  | .computeSum id x y => computeSumRPC env p id x y

/-! ### The constructor -/

/-- A run of the constructor: the provider, the results of its calls of `createPhonebook`, which the
source discards, and how it ended. -/
structure Construction (α : Type) where
  provider : ProviderImpl α
  results : List (RequestResult UUID)
  exit : Cpp Unit

/-- The loop of the constructor over the array `phonebooks`; `generate n` is the id the `n`-th call
of `UUID::generate` returns. An element without a string `type` is skipped. -/
def loadPhonebooks (generate : ℕ → UUID) (p : ProviderImpl α)
    (results : List (RequestResult UUID)) :
    List Json → Construction α
  | [] => ⟨p, results, .returns ()⟩
  | phonebook :: rest =>
    match phonebook.stringMember? "type" with
    | none => loadPhonebooks generate p results rest
    | some phonebookType =>
      let phonebookConfig := (phonebook.member? "config").getD (.object [])
      match createPhonebook env p (generate results.length) phonebookType
          (env.json.dump phonebookConfig) with
      | (.returns result, p) => loadPhonebooks generate p (results ++ [result]) rest
      | (.throws e, p) => ⟨p, results, .throws e⟩
      | (.undefined, p) => ⟨p, results, .undefined⟩

/-- The elements the constructor goes through: none if the document is not an object with an array
`phonebooks`. -/
def elements (v : Json) : List Json := (v.arrayMember? "phonebooks").getD []

/-- The configuration of an element, the empty object if it has none. -/
def configMember (e : Json) : Json := (e.member? "config").getD (.object [])

/-- `ProviderImpl::ProviderImpl`. -/
def construct (generate : ℕ → UUID) (config : String) : Construction α :=
  let p : ProviderImpl α := ⟨"", ∅⟩
  match env.json.parse config with
  | .parseError _ => ⟨p, [], .returns ()⟩
  | .outOfRange what => ⟨p, [], .throws (.outOfRange what)⟩
  | .value jsonConfig =>
    match jsonConfig.arrayMember? "phonebooks" with
    | none => ⟨p, [], .returns ()⟩
    | some phonebooks => loadPhonebooks env generate p [] phonebooks

/-! ### The configuration of a running provider -/

/-- The entries of the map in the order a walk over it meets them. -/
def WalkOrder (m : Registry α) (walk : List (Sigma fun _ : UUID => Backend α)) : Prop :=
  (walk : Multiset (Sigma fun _ : UUID => Backend α)) = m.entries

/-- The JSON object `getConfig` builds for one entry, with its members in the order of their
keys. -/
def phonebookDocument (id : UUID) (name : String) (config : Json) : Json :=
  .object [("__id__", .string (env.uuidUnparse id)), ("config", config), ("type", .string name)]

/-- One iteration of the loop of `getConfig`. -/
def phonebookConfig (entry : Sigma fun _ : UUID => Backend α) : Cpp Json :=
  match env.ops.getConfig entry.2.derived with
  | .returns config =>
    match env.json.parse config with
    | .value v => .returns (phonebookDocument env entry.1 entry.2.mName v)
    | .parseError what => .throws (.parseError what)
    | .outOfRange what => .throws (.outOfRange what)
  | .throws e => .throws e
  | .undefined => .undefined

/-- The loop of `getConfig`, collecting the objects pushed to `config["phonebooks"]`. -/
def walkConfig : List (Sigma fun _ : UUID => Backend α) → Cpp (List Json)
  | [] => .returns []
  | entry :: rest =>
    match phonebookConfig env entry with
    | .returns v =>
      match walkConfig rest with
      | .returns vs => .returns (v :: vs)
      | .throws e => .throws e
      | .undefined => .undefined
    | .throws e => .throws e
    | .undefined => .undefined

/-- The JSON document `getConfig` builds before it dumps it. -/
def configDocument (phonebooks : List Json) : Json := .object [("phonebooks", .array phonebooks)]

/-- `ProviderImpl::getConfig`, for a walk over the map. -/
def getConfig (walk : List (Sigma fun _ : UUID => Backend α)) : Cpp String :=
  match walkConfig env walk with
  | .returns phonebooks => .returns (env.json.dump (configDocument phonebooks))
  | .throws e => .throws e
  | .undefined => .undefined

end Phonebook.Server.Provider
