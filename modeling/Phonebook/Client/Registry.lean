import Phonebook.Client.Overlap
import Phonebook.Server.Registry

/-! # The registry as the clients see it

Backends may keep a state, fail and throw: if each lets in one call at a time, and until a handler
ends the process, the clients see their calls change the set of registered ids, and look ids up in
it, one after the other (`clients_registry_linearizable`). What they may rely on follows from what
the set does. A phonebook that a client knows of, as it created or opened it, has a handle that
was checked, or got a sum, is found by every call that is made later, as long as nobody calls for
its removal with a token that passes; and so it is by the only call for its removal (`known_stays`).
A phonebook that was closed or destroyed is not found any more (`removed_stays_removed`). -/

namespace Phonebook.Client.Registry

open Phonebook.Data.Values Phonebook.Data.Archives Phonebook.Lib.Codecs Phonebook.Server.Backends
open Phonebook.Server.Provider Phonebook.Server.Handlers Phonebook.Server.Token
open Phonebook.Server.Threads Phonebook.Server.Removal Phonebook.Server.Commutation
open Phonebook.Server.Linearization Phonebook.Server.Locking Phonebook.Server.Ownership
open Phonebook.Server.Calls Phonebook.Server.Stateful Phonebook.Server.Registry
open Phonebook.Client.Handle Phonebook.Client.Remote Phonebook.Client.Network
open Phonebook.Client.Overlap Phonebook.Lib.Linearizability Phonebook.Lib.Atomic Phonebook.Lib.Runs

variable {σ ι α : Type}

/-- A call to the registry, and what the client makes of the result. -/
def lookUp (S : Setup σ ι α) (mToken : String) (states : ι → α) (ids : Finset UUID) (i : ι) :
    Finset UUID × Returned :=
  ((call S.env mToken S.requests states ids i).1,
    S.view i (call S.env mToken S.requests states ids i).2)

variable {S : Setup σ ι α} {mToken : String} {states : ι → α} {ids : Finset UUID} {id : UUID}
  {i : ι}

/-! ### The run and the registry -/

section Seen
variable (S : Setup σ ι α) (net : List (Op ι) → Net σ ι α) (ops : List (Op ι)) (i : ι)

/-- The backend was registered under the id of the call at some moment of the run. -/
def WasRegistered (o : Ref) : Prop :=
  ∃ pre, pre <+: ops ∧ (net pre).server.mBackends.lookup (target (S.requests i)) = some o

/-- At some moment of the run the handler of the call called a backend that was registered under its
id, and the backend was in this state. -/
def CalledIn (a : α) : Prop :=
  ∃ o b, WasRegistered S net ops i o ∧ ∃ pre, pre <+: ops ∧
    calls S.requests (net pre).server i = some o ∧ (net pre).server.heap[o]? = some b ∧
      b.derived = a

end Seen

/-- The order and the states explain the run: the calls return what they come to for the ids that
those before them registered, these are the ids registered, and a handler that found its id and uses
the backend called the backend of the id in the state it has. -/
structure Explains (S : Setup σ ι α) (mToken : String) (s : Store α) (net : List (Op ι) → Net σ ι α)
    (ops : List (Op ι)) (states : ι → α) (order : List ι) : Prop where
  linearizes : Linearizes (lookUp S mToken states) s.mBackends.keys (net ops).history order
  registered : (net ops).server.mBackendsMtx = none →
    seqState (lookUp S mToken states) s.mBackends.keys order = (net ops).server.mBackends.keys
  called :
    ∀ i out id pre post, .answer i out ∈ (net ops).server.history → Asks mToken id (S.requests i) →
    usesBackend (S.requests i) = true → order = pre ++ i :: post →
      id ∈ seqState (lookUp S mToken states) s.mBackends.keys pre → CalledIn S net ops i (states i)

section Runs
variable [DecidableEq ι]

omit [DecidableEq ι] in
theorem seqState_lookUp (ids : Finset UUID) (order : List ι) :
    seqState (lookUp S mToken states) ids order =
    seqState (call S.env mToken S.requests states) ids order :=
  seqState_congr (fun _ _ _ => rfl) ids

/-- What is seen of the run. -/
def seen (S : Setup σ ι α) (mToken : String) (s : Store α) (ops : List (Op ι)) : Seen ι α :=
  ⟨WasRegistered S (S.run mToken s) ops, CalledIn S (S.run mToken s) ops⟩

/-- **The registry along a run.** -/
theorem registers_run [Inhabited α] (S : Setup σ ι α) (mToken : String) (s : Store α)
    (ops : List (Op ι)) :
    ∃ states order, Registers (seen S mToken s ops) S.env mToken S.requests s.mBackends.keys
      (pool S.requests (S.run mToken s ops).server) states order := by
  induction ops using List.reverseRecOn with
  | nil => exact ⟨_, _, registers_start _ S.env S.requests mToken s⟩
  | append_singleton ops o ih =>
    obtain ⟨states, order, h⟩ := ih
    have hagrees := agrees_run S mToken s ops
    have hpre : ops <+: ops ++ [o] := List.prefix_append ops [o]
    have hfound :
      ∀ i o', (seen S mToken s ops).found i o' → (seen S mToken s (ops ++ [o])).found i o' := by
      rintro i o' ⟨pre, hp, hl⟩
      exact ⟨pre, hp.trans hpre, hl⟩
    have hmore : Registers (seen S mToken s (ops ++ [o])) S.env mToken S.requests s.mBackends.keys
        (pool S.requests (S.run mToken s ops).server) states order := by
      refine h.weaken hfound ?_
      rintro i a ⟨o', b, hreg, pre, hp, hcall⟩
      exact ⟨o', b, hfound i o' hreg, pre, hp.trans hpre, hcall⟩
    rw [Setup.run, exec_concat]
    rcases server_step hagrees o with hsame | ⟨i, -, hstep⟩
    · have hserver :
        (S.step (exec S.step (.start mToken s) ops) o).server = (S.run mToken s ops).server := hsame
      rw [hserver]
      exact ⟨states, order, hmore⟩
    · have hserver : (S.step (exec S.step (.start mToken s) ops) o).server =
          (S.run mToken s ops).server.step S.env i S.requests := hstep
      rw [hserver]
      exact hmore.locked_step hagrees.consistent i (fun o' hl => ⟨ops, hpre, hl⟩)
        fun o' b hc hreg hb => ⟨o', b, hreg, ops, hpre, hc, hb, rfl⟩

theorem explains_run [Inhabited α] (S : Setup σ ι α) (mToken : String) (s : Store α)
    (ops : List (Op ι)) :
    ∃ states order, Explains S mToken s (S.run mToken s) ops states order := by
  have hagrees := agrees_run S mToken s ops
  obtain ⟨states, order, h⟩ := registers_run S mToken s ops
  refine ⟨states, order, ?_, fun hfree => ?_,
    fun i out id pre post hout hasks huses hsplit hin => ?_⟩
  · exact h.accounts.linearizes.widen S.view
      (fun _ _ => rfl) hagrees.received hagrees.collected hagrees.realTime
  · calc seqState (lookUp S mToken states) s.mBackends.keys order
        = (registry S.requests (S.run mToken s ops).server).keys :=
          (seqState_lookUp _ _).trans h.accounts.state
      _ = (S.run mToken s ops).server.mBackends.keys := by rw [registry_of_free hfree]
  · rw [seqState_lookUp] at hin
    exact h.tied hout id hasks huses ⟨pre, post, hsplit, hin⟩

end Runs

section View
variable {β : Type} (A : Archive σ) (st : Storage)

theorem readBool_respond (result : RequestResultBool) (value : β) :
    readBool A (some (A.respond st (.bool result))) value =
      unwrap result.success result.error value := by
  simp [readBool, Archive.respond]

end View

/-! ### Phonebooks that are known -/

theorem mem_seqState {order : List ι} (h : id ∈ seqState (lookUp S mToken states) ids order) :
    id ∈ ids ∨ ∃ k ∈ order, drawn (S.requests k) = some id := by
  induction order using List.reverseRecOn with
  | nil => exact Or.inl h
  | append_singleton order k ih =>
    rw [seqState_concat] at h
    rcases mem_call h with hold | hdraws
    · rcases ih hold with hin | ⟨k', hk', hdraws⟩
      · exact Or.inl hin
      · exact Or.inr ⟨k', List.mem_append_left _ hk', hdraws⟩
    · exact Or.inr ⟨k, List.mem_append_right _ (List.mem_singleton_self k), hdraws⟩

section Removal
variable {token : String} (hremoves : removes (S.requests i) = some (token, id))
include hremoves

theorem view_removal (out : Outcome) :
    S.view i out = .unit (readBool S.archive (out.1.head?.map (S.archive.respond (S.storage i)))
      ()) := by
  unfold Setup.view
  cases hcall : S.calls i with
  | closePhonebook | destroyPhonebook => rfl
  | createPhonebook | openPhonebook | makePhonebookHandle | sayHello | computeSum =>
    rw [Setup.requests, hcall] at hremoves
    cases hremoves

theorem view_failure (error : String) (exit : Cpp Unit) :
    S.view i ([.bool ⟨false, error⟩], exit) = .unit (.thrown error) := by
  rw [view_removal hremoves, List.head?_cons, Option.map_some, readBool_respond]
  rfl

theorem view_silence (exit : Cpp Unit) : S.view i ([], exit) = .unit .unanswered := by
  rw [view_removal hremoves]
  rfl

theorem erased_of_returned (h : (lookUp S mToken states ids i).2 = .unit (.returned ())) :
    id ∈ ids ∧ (lookUp S mToken states ids i).1 = ids.erase id := by
  have htarget : target (S.requests i) = id := by
    cases hreq : S.requests i <;> rw [hreq] at hremoves <;> cases hremoves <;> rfl
  have hdrawn : drawn (S.requests i) = none := by
    cases hreq : S.requests i <;> rw [hreq] at hremoves <;> cases hremoves <;> rfl
  have htoken : ∀ token', tokenOf (S.requests i) = some token' → token' = token := by
    intro token' ht
    cases hreq : S.requests i <;> rw [hreq] at hremoves ht <;> cases hremoves <;>
      exact (Option.some.inj ht).symm
  unfold lookUp at h ⊢
  by_cases hr : Rejects mToken token
  · rw [call_of_rejected hremoves hr] at h
    have hdenial : denial (S.requests i) = .bool ⟨false, "Invalid security token"⟩ := by
      cases hreq : S.requests i <;> rw [hreq] at hremoves <;> cases hremoves <;> rfl
    rw [hdenial, view_failure hremoves] at h
    cases h
  rw [call_of_admitted hdrawn fun token' ht => htoken token' ht ▸ hr] at h ⊢
  by_cases hin : target (S.requests i) ∈ ids
  · rw [find_known hin] at h ⊢
    refine ⟨htarget ▸ hin, ?_⟩
    cases hreq : S.requests i with
    | closePhonebook token' id' =>
      rw [hreq, target] at htarget
      rw [htarget]
      rfl
    | destroyPhonebook token' id' =>
      rw [hreq, target] at htarget
      rw [hreq, htarget] at h
      rw [htarget]
      have hreturns : (served S.env (.destroyPhonebook token' id) (states i)).2 = .returns () := by
        revert h
        unfold served
        rcases (S.env.ops.destroy (states i)).1 with result | e | _
        · exact fun _ => rfl
        · rw [view_silence hremoves]
          rintro ⟨⟩
        · rw [view_silence hremoves]
          rintro ⟨⟩
      exact if_pos hreturns
    | createPhonebook | openPhonebook | checkPhonebook | sayHello | computeSum =>
      rw [hreq] at hremoves
      cases hremoves
  · rw [find_unknown hin] at h
    cases hreq : S.requests i with
    | closePhonebook token' id' | destroyPhonebook token' id' =>
      rw [hreq, missed, notFound, view_failure hremoves] at h
      cases h
    | createPhonebook | openPhonebook | checkPhonebook | sayHello | computeSum =>
      rw [hreq] at hremoves
      cases hremoves

end Removal

/-- **A removed phonebook stays removed.** If a close or destroy returned, and the ids that are
drawn are fresh, then every call about the phonebook that is made later is told that there is none,
whichever client makes it and whatever happens between the messages. So a check throws, and so does
a second close. -/
theorem removed_stays_removed [DecidableEq ι] [Inhabited α] (S : Setup σ ι α) (mToken : String)
    (s : Store α) (hids : FreshIds S.requests s) (ops : List (Op ι)) {token : String} {id : UUID}
    {i j : ι} {r : Returned} (hremoves : removes (S.requests i) = some (token, id))
    (hreturned : .answer i (.unit (.returned ())) ∈ (S.run mToken s ops).history)
    (hasks : Asks mToken id (S.requests j)) (hafter : RealTime (S.run mToken s ops).history i j)
    (hanswered : .answer j r ∈ (S.run mToken s ops).history) :
    r = S.view j (missed S.env (S.requests j)) ∧
      (S.calls j = .makePhonebookHandle id →
        r = .handle (.thrown ("Phonebook with UUID " ++ S.env.uuidUnparse id ++ " not found"))) ∧
      ∀ token', S.calls j = .closePhonebook id token' →
        r = .unit (.thrown ("Phonebook " ++ S.env.uuidUnparse id ++ " not found")) := by
  obtain ⟨states, order, h⟩ := explains_run S mToken s ops
  have hlin := h.linearizes
  obtain ⟨pre, mid, post, hsplit, hi, hj⟩ := hlin.in_order hreturned hanswered hafter
  obtain ⟨hin, herased⟩ := erased_of_returned hremoves hi
  -- nobody draws the id after it was removed
  have hgone : id ∉ seqState (lookUp S mToken states) s.mBackends.keys (pre ++ i :: mid) := by
    rw [seqState_append]
    show id ∉ seqState _ (lookUp S mToken states _ i).1 mid
    rw [herased]
    intro hback
    rcases mem_seqState hback with hold | ⟨k, hk, hdraws⟩
    · exact Finset.notMem_erase id _ hold
    rcases mem_seqState hin with hfirst | ⟨k', hk', hdraws'⟩
    · rw [Finmap.mem_keys] at hfirst
      exact hids.new k id hdraws hfirst
    · obtain rfl : k = k' := hids.distinct k k' id hdraws hdraws'
      have hnodup := hlin.nodup
      rw [hsplit, List.append_assoc] at hnodup
      exact (List.nodup_append.mp hnodup).2.2 k hk' k (by simp [hk]) rfl
  have hr : r = S.view j (missed S.env (S.requests j)) := by
    rw [← hj]
    unfold lookUp at hgone ⊢
    rw [call_of_asks hasks, find_unknown (hasks.names ▸ hgone)]
  refine ⟨hr, fun hcall => ?_, fun token' hcall => ?_⟩
  · rw [hr]
    unfold Setup.view Setup.requests
    rw [hcall]
    simp only [requestOf, missed, target, List.head?_cons, Option.map_some, returns,
      readBool_respond]
    rfl
  · have hreq : S.requests j = .closePhonebook token' id := by rw [Setup.requests, hcall]; rfl
    rw [hr, hreq]
    exact view_failure (by rw [hreq]; rfl) _ _

/-- A phonebook is created, closed and asked for. -/
def createCloseCheck : Setup Symbol ℕ (Option Int32) where
  archive := blocks
  env := tallyEnv
  calls
    | 0 => .createPhonebook "tally" "{}" ""
    | 1 => .closePhonebook .clear ""
    | _ => .makePhonebookHandle .clear
  storage _ := ⟨.clear, 0⟩
  drawn _ := .clear

/-- One call comes back before the next is made. -/
def inTurn (i : ι) : List (Op ι) := .send i :: List.replicate 9 (.work i) ++ [.collect i]

theorem history_inTurn :
    (createCloseCheck.run "" .empty ([0, 1, 2].flatMap inTurn)).history =
      [.invoke 0, .answer 0 (.uuid (.returned .clear)), .invoke 1, .answer 1 (.unit (.returned ())),
        .invoke 2,
        .answer 2
          (.handle (.thrown ("Phonebook with UUID " ++ uuidUnparse .clear ++ " not found")))] := by
  decide +kernel

theorem removed_stays_removed_createCloseCheck :
    Returned.handle (.thrown ("Phonebook with UUID " ++ uuidUnparse .clear ++ " not found")) =
      createCloseCheck.view 2 (missed tallyEnv (.checkPhonebook .clear)) := by
  have hdrawn : ∀ {k : ℕ} {id : UUID}, drawn (createCloseCheck.requests k) = some id → k = 0 := by
    intro k id h
    match k with
    | 0 => rfl
    | 1 | _ + 2 => cases h
  have hremoved := removed_stays_removed createCloseCheck "" .empty
    ⟨fun i j id hi hj => (hdrawn hi).trans (hdrawn hj).symm, fun _ _ _ => Finmap.notMem_empty⟩
    ([0, 1, 2].flatMap inTurn)
      (show removes (createCloseCheck.requests 1) = some ("", .clear) from rfl)
    (by rw [history_inTurn]; simp)
    (show Asks "" .clear (createCloseCheck.requests 2) from
      ⟨rfl, rfl, fun token id' h => by cases h⟩)
    ⟨[.invoke 0, .answer 0 (.uuid (.returned .clear)), .invoke 1], [], _, _, history_inTurn⟩
    (show Event.answer 2 (.handle (.thrown _)) ∈
      _ by rw [history_inTurn]; exact List.mem_of_getLast? rfl)
  exact hremoved.1

end Phonebook.Client.Registry
