import Phonebook.Server.Handlers

/-! # Handles to phonebooks

`Client::makePhonebookHandle` and the synchronous `PhonebookHandle::computeSum`, each one call to
the provider and a look at the response. A handle is the id it was made for, so it does not notice
what happens to the phonebook. -/

namespace Phonebook.Client.Handle

open Phonebook.Data.Values Phonebook.Server.Backends Phonebook.Server.Provider
open Phonebook.Server.Handlers

/-- How a client call ends: with a value, with an `Exception`, or not at all because no response of
the expected type came. -/
inductive Call (β : Type) where
  | returned (b : β)
  | thrown (what : String)
  | unanswered
deriving DecidableEq

/-- `PhonebookHandleImpl`. -/
structure PhonebookHandleImpl where
  mPhonebookId : UUID
deriving DecidableEq

/-- `PhonebookHandle`: a pointer, null in a default-constructed handle. -/
structure PhonebookHandle where
  self : Option PhonebookHandleImpl
deriving DecidableEq

variable {α : Type} (env : Env α) (p : ProviderImpl α)

/-- `Client::makePhonebookHandle`. -/
def makePhonebookHandle (phonebookId : UUID) (check : Bool) : Call PhonebookHandle :=
  let result : Option RequestResultBool :=
    if check then
      match (checkPhonebookRPC env p phonebookId).responses with
      | .bool result :: _ => some result
      | _ => none
    else some { RequestResultBool.init with success := true }
  match result with
  | none => .unanswered
  | some result => if result.success then .returned ⟨some ⟨phonebookId⟩⟩ else .thrown result.error

/-- `PhonebookHandle::computeSum` without a request to fill in; what it returns is the value written
to a non-null `result`. -/
def computeSum (h : PhonebookHandle) (x y : Int32) : Call (Option Int32) :=
  match h.self with
  | none => .thrown "Invalid yp::PhonebookHandle object"
  | some impl =>
    match (computeSumRPC env p impl.mPhonebookId x y).responses with
    | .int32 response :: _ =>
      if response.success then .returned response.value else .thrown response.error
    | _ => .unanswered

variable {env p}

theorem makePhonebookHandle_returned {id : UUID} {check : Bool} {h : PhonebookHandle}
    (hm : makePhonebookHandle env p id check = .returned h) : h = ⟨some ⟨id⟩⟩ := by
  unfold makePhonebookHandle at hm
  dsimp only at hm
  split at hm
  · cases hm
  · split_ifs at hm
    exact (Call.returned.inj hm).symm

theorem makePhonebookHandle_checked_iff {id : UUID} :
    (∃ h, makePhonebookHandle env p id true = .returned h) ↔ id ∈ p.mBackends := by
  rcases hl : p.mBackends.lookup id with _ | b
  · refine iff_of_false ?_ (Finmap.lookup_eq_none.mp hl)
    rintro ⟨h, hm⟩
    simp [makePhonebookHandle, checkPhonebookRPC_unknown hl, respond] at hm
  · refine iff_of_true ⟨⟨some ⟨id⟩⟩, ?_⟩ (Finmap.mem_of_lookup_eq_some hl)
    simp [makePhonebookHandle, checkPhonebookRPC_known hl, respond]

end Phonebook.Client.Handle
