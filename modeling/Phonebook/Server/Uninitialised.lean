import Phonebook.Server.Handlers
import Phonebook.Data.Archives

/-! # Uninitialised data in responses

A result is created in storage that held something before, and serializing it writes all its
members. What is sent does not depend on the earlier contents if every member was assigned by then.
The constructor of `UUID` sees to that for ids; nothing does for the sum of a failed `computeSumRPC`
(`determined_iff`). -/

namespace Phonebook.Server.Uninitialised

open Phonebook.Data.Values Phonebook.Data.Archives Phonebook.Lib.Codecs Phonebook.Server.Backends
open Phonebook.Server.Provider Phonebook.Server.Handlers

variable {σ α : Type} (A : Archive σ) (env : Env α) (p : ProviderImpl α)

/-- The bytes a handler sends, given the earlier contents of the storage of its result. -/
def sent (r : Request) (stale : Storage) : List (List σ) :=
  (serve env p r).responses.map (A.respond stale)

/-- Any two runs that differ only in the earlier contents of the storage send the same bytes. -/
def Determined (r : Request) : Prop := ∀ stale stale', sent A env p r stale = sent A env p r stale'

/-- Every member of the result was assigned. -/
def Assigned : Response → Prop
  | .uuid r => r.value.isSome
  | .bool _ => True
  | .int32 r => r.value.isSome

variable {A env p}

theorem respond_determined_iff (resp : Response) :
    (∀ stale stale', A.respond stale resp = A.respond stale' resp) ↔ Assigned resp := by
  rcases resp with ⟨success, error, value⟩ | r | ⟨success, error, value⟩
  · rcases value with _ | u
    · refine iff_of_false (fun h => ?_) (by simp [Assigned])
      have hsame := (A.requestResult A.uuid).put_injective (h ⟨.clear, 0⟩ ⟨⟨fun _ => 1⟩, 0⟩)
      have huuid : UUID.clear = ⟨fun _ => 1⟩ := congrArg (fun m => m.2.2) hsame
      exact absurd huuid (by decide)
    · exact iff_of_true (fun _ _ => rfl) rfl
  · exact iff_of_true (fun _ _ => rfl) trivial
  · rcases value with _ | i
    · refine iff_of_false (fun h => ?_) (by simp [Assigned])
      have hsame := (A.requestResult A.int32).put_injective (h ⟨.clear, 0⟩ ⟨.clear, 1⟩)
      have hint : (0 : Int32) = 1 := congrArg (fun m => m.2.2) hsame
      exact absurd hint (by decide)
    · exact iff_of_true (fun _ _ => rfl) rfl

theorem determined_iff_assigned (r : Request) :
    Determined A env p r ↔ ∀ resp ∈ (serve env p r).responses, Assigned resp := by
  have hmap : Determined A env p r ↔
      ∀ resp ∈ (serve env p r).responses,
        ∀ stale stale', A.respond stale resp = A.respond stale' resp := by
    constructor
    · intro h resp hmem stale stale'
      exact List.map_inj_left.mp (h stale stale') resp hmem
    · intro h stale stale'
      exact List.map_inj_left.mpr fun resp hmem => h resp hmem stale stale'
  rw [hmap]
  exact forall₂_congr fun resp _ => respond_determined_iff resp

theorem determined_of_respond {r : Request} {p' : ProviderImpl α} {resp : Response}
    (h : serve env p r = respond p' resp) (ha : Assigned resp) : Determined A env p r := by
  rw [determined_iff_assigned, h]
  intro resp' hmem
  rw [List.mem_singleton.mp hmem]
  exact ha

theorem determined_of_escape {r : Request} {p' : ProviderImpl α} {exit : Cpp Unit}
    (h : serve env p r = escape p' exit) : Determined A env p r := by
  rw [determined_iff_assigned, h]
  exact fun resp hmem => absurd hmem List.not_mem_nil

theorem determined_finish {r : Request} {id : UUID} {x : Prepared α}
    (h : serve env p r = finish p id x) :
    Determined A env p r := by
  rcases x with error | exit | b
  · exact determined_of_respond h rfl
  · exact determined_of_escape h
  · exact determined_of_respond h rfl

/-! ### The dummy backend -/

section Dummy
variable {lib : Phonebook.Data.JsonTree.JsonLib} {unparse : UUID → String}
  {p : ProviderImpl DummyPhonebook}

/-- The sum of numbers for a phonebook that is not registered. -/
def SumOfUnknown (p : ProviderImpl DummyPhonebook) (r : Request) : Prop :=
  ∃ id x y, r = .computeSum id x y ∧ id ∉ p.mBackends

theorem determined_computeSum_iff (id : UUID) (x y : Int32) :
    Determined A (DummyPhonebook.env lib unparse) p (.computeSum id x y) ↔ id ∈ p.mBackends := by
  rcases hl : p.mBackends.lookup id with _ | b
  · have hid : id ∉ p.mBackends := Finmap.lookup_eq_none.mp hl
    refine iff_of_false (fun h => ?_) hid
    have hrun : serve (DummyPhonebook.env lib unparse) p (.computeSum id x y) = respond p
        (.int32 ⟨false, "Phonebook with UUID " ++ unparse id ++ " not found", none⟩) :=
          computeSumRPC_unknown hl
    rw [determined_iff_assigned, hrun] at h
    simpa [Assigned] using h _ (List.mem_singleton_self _)
  · exact iff_of_true (determined_of_respond (computeSumRPC_returned _ hl rfl) rfl)
      (Finmap.mem_of_lookup_eq_some hl)

/-- **Uninitialised data.** With the dummy backend, the bytes a handler sends do not depend on what
its storage held before, for every request but one kind: the sum of numbers for a phonebook that is
not registered. -/
theorem determined_iff (A : Archive σ) (lib : Phonebook.Data.JsonTree.JsonLib)
    (unparse : UUID → String) (p : ProviderImpl DummyPhonebook) (r : Request) :
    Determined A (DummyPhonebook.env lib unparse) p r ↔ ¬ SumOfUnknown p r := by
  have hbool : ∀ {r : Request} {p' : ProviderImpl DummyPhonebook} {res : RequestResultBool},
      serve (DummyPhonebook.env lib unparse) p r = respond p' (.bool res) →
        Determined A (DummyPhonebook.env lib unparse) p r :=
          fun h => determined_of_respond h trivial
  have hother :
    Determined A (DummyPhonebook.env lib unparse) p r → (∀ id x y, r ≠ .computeSum id x y) →
      (Determined A (DummyPhonebook.env lib unparse) p r ↔ ¬ SumOfUnknown p r) := fun h hne =>
    iff_of_true h (by rintro ⟨id, x, y, heq, -⟩; exact hne id x y heq)
  rcases r with ⟨token, ty, config, id⟩ | ⟨token, ty, config, id⟩ | ⟨token, id⟩ | ⟨token, id⟩ | id
    | id | ⟨id, x, y⟩
  · exact hother (determined_finish (createPhonebookRPC_eq _ p token ty config id)) nofun
  · exact hother (determined_finish (openPhonebookRPC_eq _ p token ty config id)) nofun
  · refine hother ?_ nofun
    by_cases hr : Rejects p.mToken token
    · exact hbool (closePhonebookRPC_rejected hr)
    by_cases hid : id ∈ p.mBackends
    · exact hbool (closePhonebookRPC_known hr hid)
    · exact hbool (closePhonebookRPC_unknown hr hid)
  · refine hother ?_ nofun
    by_cases hr : Rejects p.mToken token
    · exact hbool (destroyPhonebookRPC_rejected hr)
    rcases hl : p.mBackends.lookup id with _ | b
    · exact hbool (destroyPhonebookRPC_unknown hr hl)
    · exact hbool (destroyPhonebookRPC_reported hr hl rfl)
  · refine hother ?_ nofun
    rcases hl : p.mBackends.lookup id with _ | b
    · exact hbool (checkPhonebookRPC_unknown hl)
    · exact hbool (checkPhonebookRPC_known hl)
  · refine hother ?_ nofun
    rcases hl : p.mBackends.lookup id with _ | b
    · exact hbool (sayHelloRPC_unknown hl)
    · exact determined_of_escape (sayHelloRPC_known hl)
  · rw [determined_computeSum_iff]
    constructor
    · rintro hid ⟨id', x', y', heq, hnot⟩
      cases heq
      exact hnot hid
    · intro h
      by_contra hid
      exact h ⟨id, x, y, rfl, hid⟩

end Dummy

/-- A provider without phonebooks sends what the storage held. -/
theorem not_determined_sumOfUnknown :
    ¬ Determined Archive.plain (DummyPhonebook.env .sample uuidUnparse) ⟨"", ∅⟩
      (.computeSum .clear 1 2) := by
  intro h
  have hsame := h ⟨.clear, 0⟩ ⟨.clear, 42⟩
  exact absurd hsame (by decide)

end Phonebook.Server.Uninitialised
