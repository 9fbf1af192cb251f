import Phonebook.Lib.Runs
import Phonebook.Server.Handlers

/-! # The security token

An admin request whose token the provider rejects is answered before anything else is looked at, so
it can be cut out of any run without a trace (`token_noninterference`), and its answer depends on
the RPC alone. -/

namespace Phonebook.Server.Token

open Phonebook.Data.Values Phonebook.Data.JsonTree Phonebook.Server.Backends
open Phonebook.Server.Provider Phonebook.Server.Handlers Phonebook.Lib.Runs

variable {α : Type} (env : Env α)

/-- What happens to a provider: a request arrives, or `Provider::setSecurityToken` is called. -/
inductive Op where
  | request (r : Request)
  | setSecurityToken (token : String)

/-- One operation: the provider after it, the responses sent and how it ended. -/
def apply (p : ProviderImpl α) : Op → ProviderImpl α × List Response × Cpp Unit
  | .request r => ((serve env p r).provider, (serve env p r).responses, (serve env p r).exit)
  | .setSecurityToken token => ({ p with mToken := token }, [], .returns ())

/-- The token of a request that carries one. -/
def tokenOf : Request → Option String
  | .createPhonebook token _ _ _ | .openPhonebook token _ _ _ | .closePhonebook token _
  | .destroyPhonebook token _ => some token
  | .checkPhonebook _ | .sayHello _ | .computeSum _ _ _ => none

/-- The operation is an admin request, and the provider has a token that differs from its own. -/
def Unauthorised (p : ProviderImpl α) (o : Op) : Prop :=
  ∃ r token, o = .request r ∧ tokenOf r = some token ∧ Rejects p.mToken token

instance (p : ProviderImpl α) : ∀ o, Decidable (Unauthorised p o)
  | .setSecurityToken token => .isFalse (by rintro ⟨r, t, h, -⟩; cases h)
  | .request r =>
    match ht : tokenOf r with
    | none => .isFalse (by rintro ⟨r', t, h, ht', -⟩; cases h; rw [ht] at ht'; cases ht')
    | some token =>
      decidable_of_iff (Rejects p.mToken token)
        ⟨fun h => ⟨r, token, rfl, ht, h⟩, by
          rintro ⟨r', t, h, ht', hr⟩
          cases h; rw [ht] at ht'; cases ht'; exact hr⟩

/-- The name the RPC is defined under. -/
def rpcName : Request → String
  | .createPhonebook .. => "yp_create_phonebook"
  | .openPhonebook .. => "yp_open_phonebook"
  | .closePhonebook .. => "yp_close_phonebook"
  | .destroyPhonebook .. => "yp_destroy_phonebook"
  | .checkPhonebook .. => "yp_check_phonebook"
  | .sayHello .. => "yp_say_hello"
  | .computeSum .. => "yp_compute_sum"

/-- The answer to a request whose token is rejected. -/
def denial : Request → Response
  | .createPhonebook .. | .openPhonebook .. => failed "Invalid security token"
  | _ => .bool ⟨false, "Invalid security token"⟩

variable {env}

theorem serve_rejected {p : ProviderImpl α} {r : Request} {token : String}
    (ht : tokenOf r = some token)
    (h : Rejects p.mToken token) : serve env p r = respond p (denial r) := by
  cases r with
  | createPhonebook | openPhonebook =>
    cases ht
    first
      | rw [serve, createPhonebookRPC_eq, prepare_of_rejects h]; rfl
      | rw [serve, openPhonebookRPC_eq, prepare_of_rejects h]; rfl
  | closePhonebook => cases ht; exact closePhonebookRPC_rejected h
  | destroyPhonebook => cases ht; exact destroyPhonebookRPC_rejected h
  | checkPhonebook | sayHello | computeSum => cases ht

theorem apply_unauthorised (env : Env α) {p : ProviderImpl α} {o : Op} (h : Unauthorised p o) :
    ∃ r, o = .request r ∧ apply env p o = (p, [denial r], .returns ()) := by
  obtain ⟨r, token, rfl, ht, hr⟩ := h
  exact ⟨r, rfl, by rw [apply, serve_rejected ht hr]; rfl⟩

theorem denial_eq_of_rpcName {r r' : Request} (h : rpcName r = rpcName r') :
    denial r = denial r' := by
  cases r <;> cases r' <;> first | rfl | simp [rpcName] at h

/-- **Noninterference of the security token.** Without its unauthorised requests a run ends in the
same provider and every other operation of it has the same outcome; and the outcome of an
unauthorised request is the same at any two providers and for any two requests of one RPC. -/
theorem token_noninterference (env : Env α) (p : ProviderImpl α) (ops : List Op) :
    final (apply env) p (purge (apply env) Unauthorised p ops) = final (apply env) p ops ∧
      trace (apply env) Unauthorised p (purge (apply env) Unauthorised p ops) =
        ((trace (apply env) Unauthorised p ops).filter fun t => !t.2.2) ∧
      ∀ (p₁ p₂ : ProviderImpl α) r₁ r₂, rpcName r₁ = rpcName r₂ → Unauthorised p₁ (.request r₁) →
        Unauthorised p₂ (.request r₂) →
          (apply env p₁ (.request r₁)).2 = (apply env p₂ (.request r₂)).2 := by
  have hid : ∀ (p : ProviderImpl α) o, Unauthorised p o → (apply env p o).1 = p := fun p o h => by
    obtain ⟨r, -, ha⟩ := apply_unauthorised env h
    rw [ha]
  refine ⟨final_purge hid p ops, trace_purge hid p ops, fun p₁ p₂ r₁ r₂ hrpc h₁ h₂ => ?_⟩
  obtain ⟨_, he₁, ha₁⟩ := apply_unauthorised env h₁
  obtain ⟨_, he₂, ha₂⟩ := apply_unauthorised env h₂
  cases he₁; cases he₂
  rw [ha₁, ha₂, denial_eq_of_rpcName hrpc]

/-- With a token set, a wrong one is answered alike whether or not the configuration parses. -/
theorem token_noninterference_create :
    let env := DummyPhonebook.env .sample uuidUnparse
    let p : ProviderImpl DummyPhonebook := ⟨"secret", ∅⟩
    (apply env p (.request (.createPhonebook "guess" "dummy" "\x7b\x7d" .clear))).2 =
      (apply env p (.request (.createPhonebook "" "other" "syntax error" .clear))).2 := by
  intro env p
  have hun : ∀ token ty config, "secret" ≠ token →
      Unauthorised p (.request (.createPhonebook token ty config .clear)) :=
    fun token ty config h => ⟨_, token, rfl, rfl, by decide, h⟩
  exact (token_noninterference env p []).2.2 p p
    (.createPhonebook "guess" "dummy" "\x7b\x7d" .clear)
    (.createPhonebook "" "other" "syntax error" .clear) rfl (hun _ _ _ (by decide))
      (hun _ _ _ (by decide))

end Phonebook.Server.Token
