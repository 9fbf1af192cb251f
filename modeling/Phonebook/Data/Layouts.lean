import Phonebook.Data.Archives
import Phonebook.Lib.Members

/-! # The layouts of `RequestResult` in an archive

Each `serialize` is one list of members, which an archive goes through in the same order whether it
writes or reads; two of the layouts have one member for two of the accessors. Results of any of the
types written one after the other are loaded again as they were, each into an object of its type
(`loadAll_saveAll`). -/

namespace Phonebook.Data.Layouts

open Phonebook.Data.Values Phonebook.Data.Archives Phonebook.Lib.Codecs Phonebook.Lib.Members

/-- An object of the primary template as its storage holds it: there is always something in its
value. -/
structure Stored (α : Type) where
  mSuccess : Bool
  mError : String
  mValue : α
deriving DecidableEq

/-- A result of one of the types there are RPCs for, and of `std::string`. -/
inductive Result where
  | uuid (r : Stored UUID)
  | int32 (r : Stored Int32)
  | string (r : RequestResultString)
  | bool (r : RequestResultBool)
deriving DecidableEq

/-- What `value()` refers to. -/
inductive Value where
  | uuid (u : UUID)
  | int32 (i : Int32)
  | string (s : String)
  | bool (b : Bool)
deriving DecidableEq

/-- The type a result is an object of. -/
inductive ResultType where
  | uuid
  | int32
  | string
  | bool
deriving DecidableEq

namespace Result

/-- The type of the result. -/
def type : Result → ResultType
  | uuid _ => .uuid
  | int32 _ => .int32
  | string _ => .string
  | bool _ => .bool

/-- `success()`. -/
def success : Result → Bool
  | uuid r => r.mSuccess
  | int32 r => r.mSuccess
  | string r => r.success
  | bool r => r.success

/-- `error()`. -/
def error : Result → String
  | uuid r => r.mError
  | int32 r => r.mError
  | string r => r.error
  | bool r => r.error

/-- `value()`. -/
def value : Result → Value
  | uuid r => .uuid r.mValue
  | int32 r => .int32 r.mValue
  | string r => .string r.value
  | bool r => .bool r.value

end Result

/-! ### Writing and reading -/

section Serialize
variable {σ : Type} (A : Archive σ)

/-- `RequestResult<T>::serialize`. -/
def serialize {α : Type} (value : Codec σ α) : List (Member σ (Stored α)) :=
  [⟨Bool, A.bool, Stored.mSuccess, fun x r => { r with mSuccess := x }⟩,
    ⟨String, A.string, Stored.mError, fun x r => { r with mError := x }⟩,
    ⟨α, value, Stored.mValue, fun x r => { r with mValue := x }⟩]

/-- `RequestResult<std::string>::serialize`. -/
def serializeString : List (Member σ RequestResultString) :=
  [⟨Bool, A.bool, RequestResultString.success, fun x r => { r with success := x }⟩,
    ⟨String, A.string, RequestResultString.content, fun x r => { r with content := x }⟩]

/-- `RequestResult<bool>::serialize`. -/
def serializeBool : List (Member σ RequestResultBool) :=
  [⟨Bool, A.bool, RequestResultBool.success, fun x r => { r with success := x }⟩,
    ⟨String, A.string, RequestResultBool.error, fun x r => { r with error := x }⟩]

/-- A result is written to the archive. -/
def saveResult : Result → List σ
  | .uuid r => save (serialize A A.uuid) r
  | .int32 r => save (serialize A A.int32) r
  | .string r => save (serializeString A) r
  | .bool r => save (serializeBool A) r

/-- A result is loaded from the archive into an object of its type. -/
def loadResult (into : Result) (l : List σ) : Option (Result × List σ) :=
  match into with
  | .uuid r => (load (serialize A A.uuid) r l).map fun x => (.uuid x.1, x.2)
  | .int32 r => (load (serialize A A.int32) r l).map fun x => (.int32 x.1, x.2)
  | .string r => (load (serializeString A) r l).map fun x => (.string x.1, x.2)
  | .bool r => (load (serializeBool A) r l).map fun x => (.bool x.1, x.2)

/-- **One result**, whatever was in the object it is loaded into. -/
theorem loadResult_saveResult (r into : Result) (rest : List σ) (htype : into.type = r.type) :
    loadResult A into (saveResult A r ++ rest) = some (r, rest) := by
  cases r with
  | uuid r =>
    cases into with
    | uuid into => rw [saveResult, loadResult, load_save]; rfl
    | int32 | string | bool => cases htype
  | int32 r =>
    cases into with
    | int32 into => rw [saveResult, loadResult, load_save]; rfl
    | uuid | string | bool => cases htype
  | string r =>
    cases into with
    | string into => rw [saveResult, loadResult, load_save]; rfl
    | uuid | int32 | bool => cases htype
  | bool r =>
    cases into with
    | bool into => rw [saveResult, loadResult, load_save]; rfl
    | uuid | int32 | string => cases htype

end Serialize

/-! ### Results in a row -/

/-- **Results in an archive.** Results of any of the types, written one after the other to an
archive whatever follows, are loaded into as many objects of the same types as they were, with the
same success, error and value each, and what follows them is left. -/
theorem loadAll_results {σ : Type} (A : Archive σ) (results intos : List Result)
    (htypes : intos.map Result.type = results.map Result.type) (rest : List σ) :
    ∃ loaded,
      loadAll (loadResult A) intos (saveAll (saveResult A) results ++ rest) = some (loaded, rest) ∧
      loaded = results ∧ loaded.map (fun r => (r.success, r.error, r.value)) =
        results.map fun r => (r.success, r.error, r.value) :=
  ⟨results, loadAll_saveAll (loadResult_saveResult A) results intos htypes rest, rfl, rfl⟩

/-- A failure with a string for its value, a sum, a failed check and an id, loaded into fresh
objects. -/
theorem loadAll_results_four :
    ∃ loaded, loadAll (loadResult Archive.plain)
      [.string .init, .int32 ⟨true, "", 0⟩, .bool .init, .uuid ⟨true, "", .clear⟩]
      (saveAll (saveResult Archive.plain) [.string ⟨false, "no"⟩, .int32 ⟨true, "", -5⟩,
        .bool ⟨false, "gone"⟩,
        .uuid ⟨true, "", ⟨fun i => i.val.toUInt8⟩⟩] ++ [.bool true]) = some (loaded, [.bool true]) ∧
      loaded.map Result.error = ["no", "", "gone", ""] := by
  obtain ⟨loaded, hload, rfl, -⟩ := loadAll_results Archive.plain
    [.string ⟨false, "no"⟩, .int32 ⟨true, "", -5⟩, .bool ⟨false, "gone"⟩,
      .uuid ⟨true, "", ⟨fun i => i.val.toUInt8⟩⟩]
    [.string .init, .int32 ⟨true, "", 0⟩, .bool .init, .uuid ⟨true, "", .clear⟩] rfl [.bool true]
  exact ⟨_, hload, rfl⟩

end Phonebook.Data.Layouts
