import Phonebook.Client.Handle
import Phonebook.Data.Archives

/-! # Remote calls

A client call serializes its arguments, the provider deserializes the arguments of the RPC's
handler, runs it and serializes the result it responds with, and the client deserializes the result
of the type it expects. Nothing but the order in which the two sides go through the archive makes
them fit. They do: every remote call comes to what the handler called directly comes to
(`remote_eq_direct`). -/

namespace Phonebook.Client.Remote

open Phonebook.Data.Values Phonebook.Data.Archives Phonebook.Lib.Codecs Phonebook.Server.Backends
open Phonebook.Server.Provider Phonebook.Server.Handlers Phonebook.Client.Handle

/-- What a remote call meets: the archive, the libraries and backends and the state of the provider,
the storage its results are created in and the id that is drawn. -/
structure Peer (σ α : Type) where
  archive : Archive σ
  env : Env α
  provider : ProviderImpl α
  storage : Storage
  drawn : UUID

/-- A request on its way: the name of the RPC and the arguments. -/
structure Message (σ : Type) where
  rpc : String
  arguments : List σ

/-! ### The side of the provider -/

section Server
variable {σ α : Type} (peer : Peer σ α)

/-- The handlers the names are defined with, and the types of their arguments. -/
def receive (m : Message σ) : Option Request :=
  let A := peer.archive
  match m.rpc with
  | "yp_create_phonebook" =>
    ((A.string.pair (A.string.pair A.string)).read m.arguments).map
      fun (token, phonebookType, phonebookConfig) =>
      .createPhonebook token phonebookType phonebookConfig peer.drawn
  | "yp_open_phonebook" =>
    ((A.string.pair (A.string.pair A.string)).read m.arguments).map
      fun (token, phonebookType, phonebookConfig) =>
      .openPhonebook token phonebookType phonebookConfig peer.drawn
  | "yp_close_phonebook" =>
    ((A.string.pair A.uuid).read m.arguments).map fun (token, phonebookId) =>
      .closePhonebook token phonebookId
  | "yp_destroy_phonebook" =>
    ((A.string.pair A.uuid).read m.arguments).map fun (token, phonebookId) =>
      .destroyPhonebook token phonebookId
  | "yp_check_phonebook" =>
    (A.uuid.read m.arguments).map fun phonebookId => .checkPhonebook phonebookId
  | "yp_say_hello" => (A.uuid.read m.arguments).map fun phonebookId => .sayHello phonebookId
  | "yp_compute_sum" =>
    ((A.uuid.pair (A.int32.pair A.int32)).read m.arguments).map fun (phonebookId, x, y) =>
      .computeSum phonebookId x y
  | _ => none

/-- The responses of the provider to a message, and the provider afterwards. -/
def handle (m : Message σ) : List (List σ) × ProviderImpl α :=
  match receive peer m with
  | none => ([], peer.provider)
  | some r =>
    let run := serve peer.env peer.provider r
    (run.responses.map (peer.archive.respond peer.storage), run.provider)

end Server

/-! ### The side of the client -/

section Client
variable {σ α : Type} (peer : Peer σ α)

/-- `rpc.on(ph)(...)`, the response being taken for a value of the type. -/
def on {β : Type} (c : Codec σ β) (m : Message σ) : Option β × ProviderImpl α :=
  ((handle peer m).1.head?.bind c.read, (handle peer m).2)

/-- What a client makes of the success flag and the error of a result. -/
def unwrap {β : Type} (success : Bool) (error : String) (value : β) : Call β :=
  if success then .returned value else .thrown error

/-- A call for a result with an id. -/
def callUUID (m : Message σ) : Call UUID × ProviderImpl α :=
  let (result, p) := on peer (peer.archive.requestResult peer.archive.uuid) m
  (match result with
    | none => .unanswered
    | some (success, error, value) => unwrap success error value, p)

/-- A call for a result without a value of its own. -/
def callBool {β : Type} (m : Message σ) (value : β) : Call β × ProviderImpl α :=
  let (result, p) := on peer peer.archive.requestResultBool m
  (match result with
    | none => .unanswered
    | some result => unwrap result.success result.error value, p)

namespace Admin

/-- `Admin::createPhonebook`. -/
def createPhonebook (phonebookType phonebookConfig token : String) : Call UUID × ProviderImpl α :=
  let A := peer.archive
  callUUID peer ⟨"yp_create_phonebook",
    (A.string.pair (A.string.pair A.string)).put (token, phonebookType, phonebookConfig)⟩

/-- `Admin::openPhonebook`. -/
def openPhonebook (phonebookType phonebookConfig token : String) : Call UUID × ProviderImpl α :=
  let A := peer.archive
  callUUID peer ⟨"yp_open_phonebook",
    (A.string.pair (A.string.pair A.string)).put (token, phonebookType, phonebookConfig)⟩

/-- `Admin::closePhonebook`. -/
def closePhonebook (phonebookId : UUID) (token : String) : Call Unit × ProviderImpl α :=
  callBool peer ⟨"yp_close_phonebook",
    (peer.archive.string.pair peer.archive.uuid).put (token, phonebookId)⟩ ()

/-- `Admin::destroyPhonebook`. -/
def destroyPhonebook (phonebookId : UUID) (token : String) : Call Unit × ProviderImpl α :=
  callBool peer ⟨"yp_destroy_phonebook",
    (peer.archive.string.pair peer.archive.uuid).put (token, phonebookId)⟩ ()

end Admin

/-- `Client::makePhonebookHandle`. -/
def makePhonebookHandle (phonebookId : UUID) (check : Bool) :
    Call PhonebookHandle × ProviderImpl α :=
  if check then callBool peer ⟨"yp_check_phonebook", peer.archive.uuid.put phonebookId⟩
    ⟨some ⟨phonebookId⟩⟩
  else (.returned ⟨some ⟨phonebookId⟩⟩, peer.provider)

/-- `PhonebookHandle::computeSum` without a request to fill in. `result` is what the pointer points
to, if it is not null; afterwards it is in the second component. -/
def computeSum (h : PhonebookHandle) (x y : Int32) (result : Option Int32) :
    Call Unit × Option Int32 × ProviderImpl α :=
  match h.self with
  | none => (.thrown "Invalid yp::PhonebookHandle object", result, peer.provider)
  | some impl =>
    let A := peer.archive
    let (response, p) := on peer (A.requestResult A.int32)
      ⟨"yp_compute_sum", (A.uuid.pair (A.int32.pair A.int32)).put (impl.mPhonebookId, x, y)⟩
    match response with
    | none => (.unanswered, result, p)
    | some (success, error, value) =>
      (unwrap success error (), if success then result.map fun _ => value else result, p)

end Client

/-! ### Calling the handlers directly -/

section Direct
variable {α : Type} (stale : Storage)

/-- What a handler's result with an id comes to. -/
def directUUID (run : Run α) : Call UUID × ProviderImpl α :=
  (match run.responses with
    | .uuid r :: _ => if r.success then .returned (r.value.getD stale.uuid) else .thrown r.error
    | _ => .unanswered, run.provider)

/-- What a handler's result without a value of its own comes to. -/
def directBool {β : Type} (run : Run α) (value : β) : Call β × ProviderImpl α :=
  (match run.responses with
    | .bool r :: _ => if r.success then .returned value else .thrown r.error
    | _ => .unanswered, run.provider)

/-- What the result of `computeSumRPC` comes to, and what is written to a result pointer. -/
def directSum (run : Run α) (result : Option Int32) : Call Unit × Option Int32 × ProviderImpl α :=
  match run.responses with
  | .int32 r :: _ =>
    if r.success then (.returned (), result.map fun _ => r.value.getD stale.int32, run.provider)
    else (.thrown r.error, result, run.provider)
  | _ => (.unanswered, result, run.provider)

end Direct

/-! ### Responses have the type of their RPC -/

section Typed
variable {α : Type} {env : Env α} {p : ProviderImpl α}

/-- A run that responds at most once, with a result of the kind. -/
def Answers {β : Type} (kind : β → Response) (run : Run α) : Prop :=
  run.responses = [] ∨ ∃ r, run.responses = [kind r]

theorem answers_finish (id : UUID) (x : Prepared α) : Answers .uuid (finish p id x) := by
  rcases x with error | exit | b
  · exact Or.inr ⟨_, rfl⟩
  · exact Or.inl rfl
  · exact Or.inr ⟨_, rfl⟩

theorem answers_closePhonebookRPC (token : String) (id : UUID) :
    Answers .bool (closePhonebookRPC env p token id) := by
  unfold closePhonebookRPC
  split_ifs <;> exact Or.inr ⟨_, rfl⟩

theorem answers_destroyPhonebookRPC (token : String) (id : UUID) :
    Answers .bool (destroyPhonebookRPC env p token id) := by
  by_cases hr : Rejects p.mToken token
  · rw [destroyPhonebookRPC_rejected hr]
    exact Or.inr ⟨_, rfl⟩
  rcases hl : p.mBackends.lookup id with _ | b
  · rw [destroyPhonebookRPC_unknown hr hl]
    exact Or.inr ⟨_, rfl⟩
  rcases hd : env.ops.destroy b.derived with ⟨r | e | _, d⟩
  · rw [destroyPhonebookRPC_reported hr hl hd]
    exact Or.inr ⟨_, rfl⟩
  · rw [destroyPhonebookRPC_threw hr hl hd]
    exact Or.inl rfl
  · rw [destroyPhonebookRPC_undefined hr hl hd]
    exact Or.inl rfl

theorem answers_checkPhonebookRPC (id : UUID) : Answers .bool (checkPhonebookRPC env p id) := by
  rcases hl : p.mBackends.lookup id with _ | b
  · rw [checkPhonebookRPC_unknown hl]
    exact Or.inr ⟨_, rfl⟩
  · rw [checkPhonebookRPC_known hl]
    exact Or.inr ⟨_, rfl⟩

theorem answers_computeSumRPC (id : UUID) (x y : Int32) :
    Answers .int32 (computeSumRPC env p id x y) := by
  rcases hl : p.mBackends.lookup id with _ | b
  · rw [computeSumRPC_unknown hl]
    exact Or.inr ⟨_, rfl⟩
  rcases hc : env.ops.computeSum b.derived x y with ⟨r | e | _, d⟩
  · rw [computeSumRPC_returned env hl hc]
    exact Or.inr ⟨_, rfl⟩
  · rw [computeSumRPC_threw hl hc]
    exact Or.inl rfl
  · rw [computeSumRPC_undefined hl hc]
    exact Or.inl rfl

end Typed

/-! ### Remote calls are direct calls -/

section Remote
variable {σ α : Type} {peer : Peer σ α} {m : Message σ} {r : Request}

theorem on_eq {β γ : Type} {kind : β → Response} (c : Codec σ γ) (view : β → γ)
    (hr : receive peer m = some r)
    (hkind : ∀ b, peer.archive.respond peer.storage (kind b) = c.put (view b))
    (ha : Answers kind (serve peer.env peer.provider r)) :
    ((serve peer.env peer.provider r).responses = [] ∧
      on peer c m = (none, (serve peer.env peer.provider r).provider)) ∨
    ∃ b, (serve peer.env peer.provider r).responses = [kind b] ∧
      on peer c m = (some (view b), (serve peer.env peer.provider r).provider) := by
  have hhandle : handle peer m = ((serve peer.env peer.provider r).responses.map
      (peer.archive.respond peer.storage), (serve peer.env peer.provider r).provider) := by
    rw [handle, hr]
  rcases ha with hnone | ⟨b, hb⟩
  · refine Or.inl ⟨hnone, ?_⟩
    rw [on, hhandle, hnone]
    rfl
  · refine Or.inr ⟨b, hb, ?_⟩
    rw [on, hhandle, hb]
    simp [hkind]

theorem callUUID_eq (hr : receive peer m = some r)
    (ha : Answers .uuid (serve peer.env peer.provider r)) :
    callUUID peer m = directUUID peer.storage (serve peer.env peer.provider r) := by
  have hon := on_eq (peer.archive.requestResult peer.archive.uuid) (members peer.storage.uuid) hr
    (fun _ => rfl) ha
  unfold callUUID directUUID
  rcases hon with ⟨hnone, hon⟩ | ⟨b, hb, hon⟩
  · rw [hon, hnone]
  · rw [hon, hb]
    rfl

theorem callBool_eq {β : Type} (value : β) (hr : receive peer m = some r)
    (ha : Answers .bool (serve peer.env peer.provider r)) :
    callBool peer m value = directBool (serve peer.env peer.provider r) value := by
  have hon := on_eq peer.archive.requestResultBool id hr (fun _ => rfl) ha
  unfold callBool directBool
  rcases hon with ⟨hnone, hon⟩ | ⟨b, hb, hon⟩
  · rw [hon, hnone]
  · rw [hon, hb]
    rfl

theorem computeSum_eq (peer : Peer σ α) (id : UUID) (x y : Int32) (result : Option Int32) :
    computeSum peer ⟨some ⟨id⟩⟩ x y result =
      directSum peer.storage (computeSumRPC peer.env peer.provider id x y) result := by
  have hr : receive peer ⟨"yp_compute_sum",
      (peer.archive.uuid.pair (peer.archive.int32.pair peer.archive.int32)).put (id, x, y)⟩ =
        some (.computeSum id x y) := by
    simp [receive]
  have hon := on_eq (peer.archive.requestResult peer.archive.int32) (members peer.storage.int32) hr
    (fun _ => rfl) (answers_computeSumRPC id x y)
  unfold computeSum directSum
  rcases hon with ⟨hnone, hon⟩ | ⟨b, hb, hon⟩
  · replace hnone : (computeSumRPC peer.env peer.provider id x y).responses = [] := hnone
    rw [hnone]
    dsimp only
    rw [hon]
    rfl
  · replace hb : (computeSumRPC peer.env peer.provider id x y).responses = [.int32 b] := hb
    rw [hb]
    dsimp only
    rw [hon]
    rcases hs : b.success with _ | _
    · simp [members, unwrap, hs, serve]
    · simp [members, unwrap, hs, serve]

/-- **Remote calls.** For every state of the provider and all arguments, each remote call ends as
its handler called directly with these arguments says, with the value or with an exception of the
error, and leaves the provider as the handler does. -/
theorem remote_eq_direct (peer : Peer σ α) :
    (∀ ty config token, Admin.createPhonebook peer ty config token =
      directUUID peer.storage
        (createPhonebookRPC peer.env peer.provider token ty config peer.drawn)) ∧
    (∀ ty config token, Admin.openPhonebook peer ty config token =
      directUUID peer.storage
        (openPhonebookRPC peer.env peer.provider token ty config peer.drawn)) ∧
    (∀ id token, Admin.closePhonebook peer id token =
      directBool (closePhonebookRPC peer.env peer.provider token id) ()) ∧
    (∀ id token, Admin.destroyPhonebook peer id token =
      directBool (destroyPhonebookRPC peer.env peer.provider token id) ()) ∧
    (∀ id, makePhonebookHandle peer id true =
      directBool (checkPhonebookRPC peer.env peer.provider id) ⟨some ⟨id⟩⟩) ∧
    ∀ id x y result, computeSum peer ⟨some ⟨id⟩⟩ x y result =
      directSum peer.storage (computeSumRPC peer.env peer.provider id x y) result := by
  refine ⟨fun ty config token => ?_, fun ty config token => ?_, fun id token => ?_,
    fun id token => ?_,
    fun id => ?_, computeSum_eq peer⟩
  · refine callUUID_eq (r := .createPhonebook token ty config peer.drawn) (by simp [receive]) ?_
    rw [serve, createPhonebookRPC_eq]
    exact answers_finish _ _
  · refine callUUID_eq (r := .openPhonebook token ty config peer.drawn) (by simp [receive]) ?_
    rw [serve, openPhonebookRPC_eq]
    exact answers_finish _ _
  · exact callBool_eq () (r := .closePhonebook token id) (by simp [receive])
      (answers_closePhonebookRPC token id)
  · exact callBool_eq () (r := .destroyPhonebook token id) (by simp [receive])
      (answers_destroyPhonebookRPC token id)
  · exact callBool_eq _ (r := .checkPhonebook id) (by simp [receive]) (answers_checkPhonebookRPC id)

end Remote

end Phonebook.Client.Remote
