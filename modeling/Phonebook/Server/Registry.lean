import Phonebook.Server.Calls
import Phonebook.Server.Stateful

/-! # The registry

What a handler finds in `m_backends` does not depend on what the backends do: they may keep a state,
throw and be destroyed. The registry is a set of ids to which create and open add, from which close
and destroy take away, and in which the others look theirs up; every statement of a handler is a
step of that set or none (`Registers.locked_step`). What a backend that was found comes to is left
open until it is called, which is after the lookup for `sayHello` and `computeSum`; then it is what
the object registered under the id comes to in the state it has (`Registers.tied`). -/

namespace Phonebook.Server.Registry

open Phonebook.Data.Values Phonebook.Server.Backends Phonebook.Server.Provider
open Phonebook.Server.Handlers Phonebook.Server.Token Phonebook.Server.Threads
open Phonebook.Server.Removal Phonebook.Server.Linearization Phonebook.Server.Commutation
open Phonebook.Server.Locking Phonebook.Server.Ownership Phonebook.Server.Calls
open Phonebook.Server.Progress Phonebook.Server.Stateful Phonebook.Lib.Linearizability
open Phonebook.Lib.Atomic Phonebook.Lib.Runs

variable {ι α : Type}

/-! ### The sequential registry -/

/-- A prepared backend gets the id. -/
def settle (ids : Finset UUID) (id : UUID) : Prepared α → Finset UUID × Outcome
  | .refused error => (ids, [failed error], .returns ())
  | .escaped exit => (ids, [], exit)
  | .built _ => (insert id ids, [added id], .returns ())

/-- The ids left after the request found its own: close takes it away, and destroy if it returns. -/
def kept (ids : Finset UUID) (out : Outcome) : Request → Finset UUID
  | .closePhonebook _ id => ids.erase id
  | .destroyPhonebook _ id => if out.2 = .returns () then ids.erase id else ids
  | _ => ids

/-- A request looks its id up. -/
def find (env : Env α) (ids : Finset UUID) (r : Request) (a : α) : Finset UUID × Outcome :=
  if target r ∈ ids then (kept ids (served env r a) r, served env r a) else (ids, missed env r)

/-- A request to the registry. `states` are the states of the backends that are called. -/
def call (env : Env α) (mToken : String) (reqs : ι → Request) (states : ι → α) (ids : Finset UUID)
    (i : ι) :
    Finset UUID × Outcome :=
  match reqs i with
  | .createPhonebook token ty config id =>
    settle ids id (prepare env mToken token ty config (env.factory.createPhonebook ty))
  | .openPhonebook token ty config id =>
    settle ids id (prepare env mToken token ty config (env.factory.openPhonebook ty))
  | .closePhonebook token id =>
    if Rejects mToken token then (ids, [denial (.closePhonebook token id)], .returns ())
    else find env ids (.closePhonebook token id) (states i)
  | .destroyPhonebook token id =>
    if Rejects mToken token then (ids, [denial (.destroyPhonebook token id)], .returns ())
    else find env ids (.destroyPhonebook token id) (states i)
  | .checkPhonebook id => find env ids (.checkPhonebook id) (states i)
  | .sayHello id => find env ids (.sayHello id) (states i)
  | .computeSum id x y => find env ids (.computeSum id x y) (states i)

/-- The handler of the request calls the backend that it finds. -/
def usesBackend : Request → Bool
  | .destroyPhonebook _ _ | .sayHello _ | .computeSum _ _ _ => true
  | .createPhonebook .. | .openPhonebook .. | .closePhonebook _ _ | .checkPhonebook _ => false

theorem not_uses_of_drawn {r : Request} {id : UUID} (h : drawn r = some id) :
    usesBackend r = false := by
  cases r with
  | createPhonebook | openPhonebook => rfl
  | closePhonebook | destroyPhonebook | checkPhonebook | sayHello | computeSum => cases h

/-- The request names the id, and its token is not rejected. -/
structure Asks (mToken : String) (id : UUID) (r : Request) : Prop where
  names : target r = id
  found : drawn r = none
  admitted : ∀ token id', removes r = some (token, id') → ¬ Rejects mToken token

variable {env : Env α} {mToken : String} {reqs : ι → Request} {states : ι → α} {ids : Finset UUID}
  {i : ι}

theorem call_of_drawn {id : UUID} {x : Prepared α} (hd : drawn (reqs i) = some id)
    (hpre : preparation env mToken (reqs i) = some x) :
    call env mToken reqs states ids i = settle ids id x := by
  unfold call
  cases hreq : reqs i with
  | createPhonebook token ty config id' | openPhonebook token ty config id' =>
    rw [hreq] at hd hpre
    rw [← Option.some.inj hd, ← Option.some.inj hpre]
  | closePhonebook | destroyPhonebook | checkPhonebook | sayHello | computeSum =>
    rw [hreq] at hd
    cases hd

theorem call_of_admitted (hd : drawn (reqs i) = none)
    (hpass : ∀ token, tokenOf (reqs i) = some token → ¬ Rejects mToken token) :
    call env mToken reqs states ids i = find env ids (reqs i) (states i) := by
  unfold call
  cases hreq : reqs i with
  | createPhonebook | openPhonebook =>
    rw [hreq] at hd
    cases hd
  | closePhonebook token id | destroyPhonebook token id =>
    rw [hreq] at hpass
    exact if_neg (hpass token rfl)
  | checkPhonebook | sayHello | computeSum => rfl

theorem call_of_rejected {token : String} {id : UUID}
    (hremoves : removes (reqs i) = some (token, id)) (hr : Rejects mToken token) :
    call env mToken reqs states ids i = (ids, [denial (reqs i)], .returns ()) := by
  unfold call
  cases hreq : reqs i with
  | closePhonebook token' id' | destroyPhonebook token' id' =>
    rw [hreq] at hremoves
    cases hremoves
    exact if_pos hr
  | createPhonebook | openPhonebook | checkPhonebook | sayHello | computeSum =>
    rw [hreq] at hremoves
    cases hremoves

theorem find_unknown {r : Request} {a : α} (h : target r ∉ ids) :
    find env ids r a = (ids, missed env r) :=
  if_neg h

theorem find_known {r : Request} {a : α} (h : target r ∈ ids) :
    find env ids r a = (kept ids (served env r a) r, served env r a) := if_pos h

theorem mem_call {id : UUID} (h : id ∈ (call env mToken reqs states ids i).1) :
    id ∈ ids ∨ drawn (reqs i) = some id := by
  have hfind : ∀ (r : Request) (a : α), id ∈ (find env ids r a).1 → id ∈ ids := by
    intro r a hin
    unfold find at hin
    split_ifs at hin
    · revert hin
      cases r with
      | closePhonebook => exact fun hin => Finset.mem_of_mem_erase hin
      | destroyPhonebook =>
        dsimp only [kept]
        split_ifs
        · exact fun hin => Finset.mem_of_mem_erase hin
        · exact fun hin => hin
      | createPhonebook | openPhonebook | checkPhonebook | sayHello | computeSum =>
        exact fun hin => hin
    · exact hin
  have hsettle :
    ∀ (id' : UUID) (x : Prepared α), id ∈ (settle ids id' x).1 → id ∈ ids ∨ some id' = some id := by
    intro id' x hin
    cases x with
    | refused | escaped => exact Or.inl hin
    | built b =>
      rcases Finset.mem_insert.mp hin with rfl | hin
      · exact Or.inr rfl
      · exact Or.inl hin
  unfold call at h
  cases hreq : reqs i with
  | createPhonebook token ty config id' | openPhonebook token ty config id' =>
    rw [hreq] at h
    exact hsettle id' _ h
  | closePhonebook token id' | destroyPhonebook token id' =>
    rw [hreq] at h
    dsimp only at h
    split_ifs at h
    · exact Or.inl h
    · exact Or.inl (hfind _ _ h)
  | checkPhonebook | sayHello | computeSum =>
    rw [hreq] at h
    exact Or.inl (hfind _ _ h)

theorem call_of_asks {id : UUID} (hasks : Asks mToken id (reqs i)) :
    call env mToken reqs states ids i = find env ids (reqs i) (states i) := by
  refine call_of_admitted hasks.found fun token ht => hasks.admitted token (target (reqs i)) ?_
  have hdrawn := hasks.found
  cases hreq : reqs i with
  | createPhonebook | openPhonebook =>
    rw [hreq] at hdrawn
    cases hdrawn
  | closePhonebook | destroyPhonebook =>
    rw [hreq] at ht
    cases ht
    rfl
  | checkPhonebook | sayHello | computeSum =>
    rw [hreq] at ht
    cases ht

theorem call_state_of_callee {id : UUID} (hc : callee (reqs i) = some id) :
    (call env mToken reqs states ids i).1 = ids := by
  have hfind :
    ∀ (r : Request) (a : α), kept ids (served env r a) r = ids → (find env ids r a).1 = ids := by
    intro r a hkept
    unfold find
    split_ifs
    · exact hkept
    · rfl
  unfold call
  cases hreq : reqs i with
  | sayHello | computeSum => exact hfind _ _ rfl
  | createPhonebook | openPhonebook | closePhonebook | destroyPhonebook | checkPhonebook =>
    rw [hreq] at hc
    cases hc

theorem drawn_of_callee {r : Request} {id : UUID} (h : callee r = some id) : drawn r = none := by
  cases r with
  | sayHello | computeSum => rfl
  | createPhonebook | openPhonebook | closePhonebook | destroyPhonebook | checkPhonebook => cases h

theorem tokenOf_of_callee {r : Request} {id : UUID} (h : callee r = some id) (token : String) :
    tokenOf r ≠ some token := by
  cases r with
  | sayHello | computeSum => rintro ⟨⟩
  | createPhonebook | openPhonebook | closePhonebook | destroyPhonebook | checkPhonebook => cases h

theorem call_update_of_ne [DecidableEq ι] {j : ι} (hj : j ≠ i) (a : α) :
    call env mToken reqs (Function.update states i a) ids j =
      call env mToken reqs states ids j := by
  unfold call
  rw [Function.update_of_ne hj]

/-! ### The threads as operations of the registry -/

/-- How far the operation of a thread is, if the backend it calls comes to this. -/
def registryStage (out : Outcome) : Phase → Stage Outcome
  | .idle => .idle
  | .received | .built _ | .ready => .pending
  | .found _ => .done out
  | .replying out => .done out
  | .answered out => .answered out

/-- The registry and the threads as an atomic object. -/
def registryObject (env : Env α) (reqs : ι → Request) (states : ι → α) (c : Pool ι α) :
    Object ι (Finset UUID) Outcome :=
  ⟨c.mBackends.keys, fun i => registryStage (served env (reqs i) (states i)) (c.phase i), c.history⟩

/-- What is known of the threads: the backends they found registered under their ids, and the states
in which they used them. -/
structure Seen (ι α : Type) where
  found : ι → Ref → Prop
  used : ι → α → Prop

/-- If the request found its id and uses the backend, it used it in the state it has. -/
def Tied (seen : Seen ι α) (env : Env α) (mToken : String) (reqs : ι → Request) (states : ι → α)
    (ids : Finset UUID) (order : List ι) (i : ι) : Prop :=
  ∀ id, Asks mToken id (reqs i) → usesBackend (reqs i) = true →
    Met (call env mToken reqs states) ids order i (fun ids => id ∈ ids) → seen.used i (states i)

/-- What a thread relies on: what it prepared, that its token passed, that the registry had its id
when it was looked up, and in the end the state of the backend it used. -/
def Relies (seen : Seen ι α) (env : Env α) (mToken : String) (reqs : ι → Request)
    (states : ι → α) (ids : Finset UUID) (order : List ι) (i : ι) : Phase → Prop
  | .built _ => ∃ b, preparation env mToken (reqs i) = some (.built b)
  | .ready =>
    drawn (reqs i) = none ∧ ∀ token, tokenOf (reqs i) = some token → ¬ Rejects mToken token
  | .found o => ((∃ id, callee (reqs i) = some id) ∧ seen.found i o) ∧
      Met (call env mToken reqs states) ids order i fun ids => target (reqs i) ∈ ids
  | .replying _ | .answered _ => Tied seen env mToken reqs states ids order i
  | .idle | .received => True

variable [DecidableEq ι]

/-- The order accounts for the registry, with these states of the backends used. -/
structure Registers (seen : Seen ι α) (env : Env α) (mToken : String) (reqs : ι → Request)
    (ids : Finset UUID) (c : Pool ι α) (states : ι → α) (order : List ι) : Prop where
  token : c.mToken = mToken
  logged : Logged c
  accounts : Accounts (call env mToken reqs states) ids (registryObject env reqs states c) order
  relies : ∀ i, Relies seen env mToken reqs states ids order i (c.phase i)

variable {seen seen' : Seen ι α} {c c' : Pool ι α} {order order' : List ι} {ph : Phase}

section Relies
omit [DecidableEq ι]

theorem Tied.mono {states' : ι → α}
    (h : Tied seen env mToken reqs states ids order i)
    (hmet : ∀ P, Met (call env mToken reqs states') ids order' i P →
      Met (call env mToken reqs states) ids order i P)
    (hused : seen.used i (states i) → seen'.used i (states' i)) :
    Tied seen' env mToken reqs states' ids order' i :=
  fun id hasks huses hin => hused (h id hasks huses (hmet _ hin))

theorem tied_of_missing (hout : i ∉ order)
    (hmissing : target (reqs i) ∉ seqState (call env mToken reqs states) ids order) :
    Tied seen env mToken reqs states ids (order ++ [i]) i := by
  intro id hasks _ hmet
  obtain ⟨pre, post, hsplit, hin⟩ := hmet
  rcases concat_eq_append_cons hsplit with ⟨rfl, -, -⟩ | ⟨post', -, rfl⟩
  · exact absurd (hasks.names ▸ hin) hmissing
  · exact absurd (by simp) hout

theorem tied_of_not_uses (h : usesBackend (reqs i) = false) :
    Tied seen env mToken reqs states ids order i := by
  intro id _ huses
  rw [h] at huses
  cases huses

theorem tied_of_rejected {token : String} {id : UUID}
    (hremoves : removes (reqs i) = some (token, id))
    (hr : Rejects mToken token) : Tied seen env mToken reqs states ids order i :=
  fun _ hasks _ _ => absurd hr (hasks.admitted token id hremoves)

theorem Relies.mono {states' : ι → α}
    (h : Relies seen env mToken reqs states ids order i ph)
    (hmet : ∀ P, Met (call env mToken reqs states) ids order i P ↔
      Met (call env mToken reqs states') ids order' i P)
    (hfound : ∀ o, seen.found i o → seen'.found i o)
    (hused : (∃ out, ph = .replying out ∨ ph = .answered out) →
      seen.used i (states i) → seen'.used i (states' i)) :
    Relies seen' env mToken reqs states' ids order' i ph := by
  cases ph with
  | built | ready => exact h
  | found o => exact ⟨⟨h.1.1, hfound o h.1.2⟩, (hmet _).mp h.2⟩
  | replying out => exact Tied.mono h (fun P => (hmet P).mpr) (hused ⟨out, Or.inl rfl⟩)
  | answered out => exact Tied.mono h (fun P => (hmet P).mpr) (hused ⟨out, Or.inr rfl⟩)
  | idle | received => trivial

end Relies

omit [DecidableEq ι] in
theorem Registers.weaken (h : Registers seen env mToken reqs ids c states order)
    (hfound : ∀ i o, seen.found i o → seen'.found i o)
    (hused : ∀ i a, seen.used i a → seen'.used i a) :
    Registers seen' env mToken reqs ids c states order :=
  ⟨h.token, h.logged, h.accounts,
    fun i => (h.relies i).mono (fun _ => Iff.rfl) (hfound i) fun _ => hused i _⟩

/-- A thread that went on, among the operations of the object. -/
theorem registryObject_moved (hphase : c'.phase = Function.update c.phase i ph) :
    registryObject env reqs states c' =
      ⟨c'.mBackends.keys,
        Function.update (registryObject env reqs states c).stage i
          (registryStage (served env (reqs i) (states i)) ph),
        c'.history⟩ := by
  have hstage : (registryObject env reqs states c').stage =
      Function.update (registryObject env reqs states c).stage i
        (registryStage (served env (reqs i) (states i)) ph) := by
    funext j
    show registryStage (served env (reqs j) (states j)) (c'.phase j) = _
    rw [hphase]
    by_cases hj : j = i
    · subst hj
      rw [Function.update_self, Function.update_self]
    · rw [Function.update_of_ne hj, Function.update_of_ne hj]
      rfl
  rw [← hstage]
  rfl

section Step
variable (h : Registers seen env mToken reqs ids c states order)
include h

theorem Registers.moved (hord : order' = order ∨ order' = order ++ [i])
    (hphase : c'.phase = Function.update c.phase i ph) (htoken : c'.mToken = c.mToken)
    (hlogged : Logged c')
    (haccounts : Accounts (call env mToken reqs states) ids
      ⟨c'.mBackends.keys,
        Function.update (registryObject env reqs states c).stage i
          (registryStage (served env (reqs i) (states i)) ph),
        c'.history⟩ order')
    (hi : Relies seen env mToken reqs states ids order' i ph) :
    Registers seen env mToken reqs ids c' states order' := by
  refine ⟨htoken.trans h.token, hlogged, ?_, fun j => ?_⟩
  · rw [registryObject_moved hphase]
    exact haccounts
  · rw [hphase]
    by_cases hj : j = i
    · subst hj
      rw [Function.update_self]
      exact hi
    · rw [Function.update_of_ne hj]
      refine (h.relies j).mono (fun P => ?_) (fun _ => id) fun _ => id
      rcases hord with rfl | rfl
      · exact Iff.rfl
      · exact (met_concat_of_ne hj).symm

theorem Registers.quiet (hphase : c'.phase = Function.update c.phase i ph)
    (htoken : c'.mToken = c.mToken) (hlogged : Logged c') (hhist : c'.history = c.history)
    (hkeys : c'.mBackends.keys = c.mBackends.keys)
    (hstage : registryStage (served env (reqs i) (states i)) ph =
      registryStage (served env (reqs i) (states i)) (c.phase i))
    (hi : Relies seen env mToken reqs states ids order i ph) :
    Registers seen env mToken reqs ids c' states order := by
  refine h.moved (Or.inl rfl) hphase htoken hlogged ?_ hi
  rw [hstage, hhist, hkeys]
  have hsame : Function.update (registryObject env reqs states c).stage i
      (registryStage (served env (reqs i) (states i)) (c.phase i)) =
        (registryObject env reqs states c).stage :=
    Function.update_eq_self i (registryObject env reqs states c).stage
  rw [hsame]
  exact h.accounts

theorem Registers.effect
    (hpending : registryStage (served env (reqs i) (states i)) (c.phase i) = .pending)
    (hphase : c'.phase = Function.update c.phase i ph) (htoken : c'.mToken = c.mToken)
    (hlogged : Logged c') (hhist : c'.history = c.history) {out : Outcome}
    (hstage : registryStage (served env (reqs i) (states i)) ph = .done out)
    (hcall : call env mToken reqs states c.mBackends.keys i = (c'.mBackends.keys, out))
    (hi : Relies seen env mToken reqs states ids (order ++ [i]) i ph) :
    Registers seen env mToken reqs ids c' states (order ++ [i]) := by
  refine h.moved (Or.inr rfl) hphase htoken hlogged ?_ hi
  have heffect := h.accounts.effect (i := i) hpending
  rw [show call env mToken reqs states (registryObject env reqs states c).state i = _ from
    hcall] at heffect
  rw [hstage, hhist]
  exact heffect

/-- **Revision** of the state a request meets its backend in. -/
theorem Registers.revise (a : α)
    (hopen : ∀ out, c.phase i ≠ .replying out ∧ c.phase i ≠ .answered out)
    (hcall : i ∈ order → ∀ s,
      (call env mToken reqs (Function.update states i a) s i).1 =
        (call env mToken reqs states s i).1)
    (hunanswered : ∀ r, .answer i r ∉ c.history)
    (hi : InOrder (call env mToken reqs (Function.update states i a)) ids c.history order i
      (registryStage (served env (reqs i) a) (c.phase i))) :
    Registers seen env mToken reqs ids c (Function.update states i a) order := by
  have hstate : ∀ s, ∀ j ∈ order,
      (call env mToken reqs (Function.update states i a) s j).1 =
        (call env mToken reqs states s j).1 := by
    intro s j hj
    by_cases hji : j = i
    · subst hji
      exact hcall hj s
    · rw [call_update_of_ne hji]
  have hrelies :
    ∀ j, Relies seen env mToken reqs (Function.update states i a) ids order j (c.phase j) := by
    refine fun j => (h.relies j).mono (fun P => ⟨fun hmet => hmet.revise hstate, fun hmet => ?_⟩)
      (fun _ => id) ?_
    · exact hmet.revise fun s k hk => (hstate s k hk).symm
    · rintro ⟨out, hout⟩ hused
      have hj : j ≠ i := by
        rintro rfl
        exact hout.elim (hopen out).1 (hopen out).2
      rwa [Function.update_of_ne hj]
  refine ⟨h.token, h.logged, ?_, hrelies⟩
  have hrevised :=
    h.accounts.revise (i := i) hstate (fun s j _ hj => call_update_of_ne hj a) hunanswered hi
  have hstage : Function.update (registryObject env reqs states c).stage i
    (registryStage (served env (reqs i) a) (c.phase i)) =
      (registryObject env reqs (Function.update states i a) c).stage := by
    funext j
    show _ = registryStage (served env (reqs j) (Function.update states i a j)) (c.phase j)
    by_cases hj : j = i
    · subst hj
      rw [Function.update_self, Function.update_self]
    · rw [Function.update_of_ne hj, Function.update_of_ne hj]
      rfl
  rw [hstage] at hrevised
  exact hrevised

omit [DecidableEq ι] in
theorem Registers.notMem_of_pending
    (hpending : registryStage (served env (reqs i) (states i)) (c.phase i) = .pending) :
    i ∉ order := by
  have hi := h.accounts.stands i
  rw [show (registryObject env reqs states c).stage i = _ from hpending] at hi
  exact hi.1

theorem Registers.revise_pending
    (hpending : registryStage (served env (reqs i) (states i)) (c.phase i) = .pending) (a : α) :
    Registers seen env mToken reqs ids c (Function.update states i a) order := by
  have hi := h.accounts.stands i
  rw [show (registryObject env reqs states c).stage i = _ from hpending] at hi
  have hph : registryStage (served env (reqs i) a) (c.phase i) = .pending := by
    revert hpending
    cases c.phase i with
    | idle | found | replying | answered => rintro ⟨⟩
    | received | built | ready => exact fun _ => rfl
  have hopen : ∀ out, c.phase i ≠ .replying out ∧ c.phase i ≠ .answered out := by
    refine fun out => ⟨fun hout => ?_, fun hout => ?_⟩
    · rw [hout] at hpending
      cases hpending
    · rw [hout] at hpending
      cases hpending
  refine h.revise a hopen (fun hin => absurd hin hi.1) (fun r hr => ?_) ?_
  · rw [h.logged.answered] at hr
    rw [hr] at hpending
    cases hpending
  · rw [hph]
    exact hi

theorem Registers.revise_found {o : Ref} (hph : c.phase i = .found o) (a : α) :
    Registers seen env mToken reqs ids c (Function.update states i a) order := by
  have hi := h.relies i
  rw [hph] at hi
  obtain ⟨⟨⟨id, hc⟩, -⟩, hmet⟩ := hi
  have hopen : ∀ out, c.phase i ≠ .replying out ∧ c.phase i ≠ .answered out := by
    rw [hph]
    exact fun out => ⟨by rintro ⟨⟩, by rintro ⟨⟩⟩
  refine h.revise a hopen (fun _ s => ?_) (fun r hr => ?_) ?_
  · rw [call_state_of_callee hc, call_state_of_callee hc]
  · rw [h.logged.answered, hph] at hr
    cases hr
  · rw [hph]
    have hrevised : Met (call env mToken reqs (Function.update states i a)) ids order i fun s =>
      target (reqs i) ∈ s :=
      hmet.revise fun s j _ => by
        by_cases hj : j = i
        · subst hj
          rw [call_state_of_callee hc, call_state_of_callee hc]
        · rw [call_update_of_ne hj]
    refine hrevised.mem_seqAnswers fun s hs => ?_
    rw [call_of_admitted (drawn_of_callee hc) fun token ht => absurd ht
      (tokenOf_of_callee hc token), find_known hs,
      Function.update_self]

/-! ### The steps -/

section Effects
variable (hph : c.phase i = .ready)
include hph

theorem Registers.misses (hl : c.mBackends.lookup (target (reqs i)) = none)
    (hlogged : Logged (c.goto i (.replying (missed env (reqs i))))) :
    Registers seen env mToken reqs ids (c.goto i (.replying (missed env (reqs i)))) states
      (order ++ [i]) := by
  have hi := h.relies i
  rw [hph] at hi
  have hpending : registryStage (served env (reqs i) (states i)) (c.phase i) = .pending := by
    rw [hph]
    rfl
  have hnot : target (reqs i) ∉ c.mBackends.keys := by
    rw [Finmap.mem_keys]
    exact Finmap.lookup_eq_none.mp hl
  have htied : Tied seen env mToken reqs states ids (order ++ [i]) i :=
    tied_of_missing (h.notMem_of_pending hpending) (by rw [h.accounts.state]; exact hnot)
  refine h.effect hpending rfl rfl hlogged rfl rfl ?_ htied
  rw [call_of_admitted hi.1 hi.2, find_unknown hnot]
  rfl

/-- The request finds its phonebook. -/
theorem Registers.finds {o : Ref} (hl : c.mBackends.lookup (target (reqs i)) = some o)
    (hphase : c'.phase = Function.update c.phase i ph) (htoken : c'.mToken = c.mToken)
    (hlogged : Logged c') (hhist : c'.history = c.history)
    (hstage : registryStage (served env (reqs i) (states i)) ph =
      .done (served env (reqs i) (states i)))
    (hkeys : c'.mBackends.keys = kept c.mBackends.keys (served env (reqs i) (states i)) (reqs i))
    (hi : target (reqs i) ∈ c.mBackends.keys →
      Relies seen env mToken reqs states ids (order ++ [i]) i ph) :
    Registers seen env mToken reqs ids c' states (order ++ [i]) := by
  have hin : target (reqs i) ∈ c.mBackends.keys := by
    rw [Finmap.mem_keys]
    exact Finmap.mem_of_lookup_eq_some hl
  have hr := h.relies i
  rw [hph] at hr
  refine h.effect (by rw [hph]; rfl) hphase htoken hlogged hhist hstage ?_ (hi hin)
  rw [call_of_admitted hr.1 hr.2, find_known hin, hkeys]

end Effects

/-- The section of destroy, with the state the backend is in. -/
theorem Registers.destroy {token : String} {id : UUID} {o : Ref} (hph : c.phase i = .ready)
    (hreq : reqs i = .destroyPhonebook token id) (hl : c.mBackends.lookup id = some o)
    (hlogged : Logged (c.destroy env i id))
    (hused : ∀ b, c.heap[o]? = some b → seen.used i b.derived) :
    ∃ states order, Registers seen env mToken reqs ids (c.destroy env i id) states order := by
  have htarget : target (reqs i) = id := by rw [hreq]; rfl
  subst htarget
  rcases hb : c.heap[o]? with _ | b
  · have hsame : c.destroy env i (target (reqs i)) = c := by simp only [Pool.destroy, hl, hb]
    rw [hsame]
    exact ⟨states, order, h⟩
  have hrevised := h.revise_pending (i := i) (by rw [hph]; rfl) b.derived
  have hserved : served env (.destroyPhonebook token (target (reqs i))) b.derived =
      served env (reqs i) (Function.update states i b.derived i) := by
    rw [Function.update_self, hreq]
    rfl
  obtain ⟨d, returned, hsection⟩ := destroy_found env c i token hl hb
  rw [hserved] at hsection
  rw [hsection] at hlogged ⊢
  have htied : ∀ ids' order',
    Tied seen env mToken reqs (Function.update states i b.derived) ids' order' i := by
    intro ids' order' _ _ _ _
    rw [Function.update_self]
    exact hused b hb
  refine ⟨_, _, hrevised.finds hph hl rfl rfl hlogged rfl rfl ?_ fun _ => htied _ _⟩
  have hkept : ∀ ids out, kept ids out (reqs i) = if out.2 = .returns () then ids.erase
    (target (reqs i)) else ids := by
    rw [hreq]
    exact fun _ _ => rfl
  rw [hkept]
  dsimp only
  split_ifs
  · exact Finmap.keys_erase _ _
  · rfl

theorem Registers.lockedSection (hph : c.phase i = .ready)
    (hlogged : Logged (c.lockedSection env i (reqs i)))
    (hfound : ∀ o, c.mBackends.lookup (target (reqs i)) = some o → seen.found i o)
    (hused : ∀ o b, poolCalls reqs c i = some o → seen.found i o → c.heap[o]? = some b →
      seen.used i b.derived) :
    ∃ states order,
      Registers seen env mToken reqs ids (c.lockedSection env i (reqs i)) states order := by
  have hi := h.relies i
  rw [hph] at hi
  rcases hl : c.mBackends.lookup (target (reqs i)) with _ | o
  · rw [lockedSection_missed env c i hi.1 hl] at hlogged ⊢
    exact ⟨states, order ++ [i], h.misses hph hl hlogged⟩
  -- before a call it is noted that the registry had the id
  have hmet : ∀ {id}, callee (reqs i) = some id → target (reqs i) ∈ c.mBackends.keys →
      Relies seen env mToken reqs states ids (order ++ [i]) i (.found o) := by
    intro id hc hin
    refine ⟨⟨⟨id, hc⟩, hfound o hl⟩, met_concat ?_⟩
    rw [h.accounts.state]
    exact hin
  cases hreq : reqs i with
  | createPhonebook | openPhonebook => exact ⟨states, order, h⟩
  | closePhonebook token id =>
    rw [hreq, Pool.lockedSection] at hlogged
    rw [hreq, target] at hl
    rw [Pool.lockedSection]
    rw [Pool.close_known env hl] at hlogged ⊢
    refine ⟨states, order ++ [i], h.finds hph (by rw [hreq]; exact hl) rfl rfl hlogged rfl
      (by rw [hreq]; rfl) ?_
      fun _ => tied_of_not_uses (by rw [hreq]; rfl)⟩
    rw [hreq]
    exact Finmap.keys_erase _ _
  | destroyPhonebook token id =>
    rw [hreq] at hlogged hl
    refine h.destroy hph hreq hl hlogged fun b hb => hused o b ?_
      (hfound o (by rw [hreq]; exact hl)) hb
    rw [poolCalls, hph, hreq]
    exact hl
  | checkPhonebook id =>
    rw [hreq, Pool.lockedSection] at hlogged
    rw [hreq, target] at hl
    rw [Pool.lockedSection]
    rw [Pool.find_known env hl] at hlogged ⊢
    exact ⟨states, order ++ [i], h.finds hph (by rw [hreq]; exact hl) rfl rfl hlogged rfl
      (by rw [hreq]; rfl)
      (by rw [hreq]; rfl) fun _ => tied_of_not_uses (by rw [hreq]; rfl)⟩
  | sayHello id | computeSum id x y =>
    have hfound := hmet (by rw [hreq]; rfl)
    rw [hreq, Pool.lockedSection] at hlogged
    rw [hreq, target] at hl
    rw [Pool.lockedSection]
    rw [Pool.find_known env hl] at hlogged ⊢
    exact ⟨states, order ++ [i], h.finds hph (by rw [hreq]; exact hl) rfl rfl hlogged rfl rfl
      (by rw [hreq]; rfl)
      hfound⟩

theorem Registers.build {id : UUID} {x : Prepared α} (hph : c.phase i = .received)
    (hd : drawn (reqs i) = some id) (hpre : preparation env mToken (reqs i) = some x)
    (hlogged : Logged (c.build i x)) :
    ∃ states order, Registers seen env mToken reqs ids (c.build i x) states order := by
  have hpending : registryStage (served env (reqs i) (states i)) (c.phase i) = .pending := by
    rw [hph]; rfl
  have hcall : call env mToken reqs states c.mBackends.keys i = settle c.mBackends.keys id x :=
    call_of_drawn hd hpre
  have htied : Tied seen env mToken reqs states ids (order ++ [i]) i :=
    tied_of_not_uses (not_uses_of_drawn hd)
  cases x with
  | refused error =>
    exact ⟨states, order ++ [i], h.effect hpending rfl rfl hlogged rfl rfl hcall htied⟩
  | escaped exit =>
    exact ⟨states, order ++ [i], h.effect hpending rfl rfl hlogged rfl rfl hcall htied⟩
  | built b =>
    have hphase : (c.build i (.built b)).phase = Function.update c.phase i (.built c.heap.length) :=
      rfl
    exact ⟨states, order, h.quiet hphase rfl hlogged rfl rfl hpending.symm ⟨b, hpre⟩⟩

theorem Registers.prologue (hph : c.phase i = .received)
    (hlogged : Logged (c.prologue env i (reqs i))) :
    ∃ states order,
      Registers seen env mToken reqs ids (c.prologue env i (reqs i)) states order := by
  have hpending : registryStage (served env (reqs i) (states i)) (c.phase i) = .pending := by
    rw [hph]; rfl
  cases hreq : reqs i with
  | createPhonebook token ty config id | openPhonebook token ty config id =>
    rw [hreq] at hlogged
    refine h.build hph (by rw [hreq]; rfl) ?_ hlogged
    rw [hreq, ← h.token]
    rfl
  | closePhonebook token id | destroyPhonebook token id =>
    rw [hreq] at hlogged
    dsimp only [Pool.prologue] at hlogged ⊢
    rw [h.token] at hlogged ⊢
    split_ifs at hlogged ⊢ with hr
    · have htied : Tied seen env mToken reqs states ids (order ++ [i]) i :=
        tied_of_rejected (by rw [hreq]; rfl) hr
      refine ⟨states, order ++ [i], h.effect hpending rfl rfl hlogged rfl rfl ?_ htied⟩
      rw [call_of_rejected (by rw [hreq]; rfl) hr, hreq]
      rfl
    · refine ⟨states, order, h.quiet rfl rfl hlogged rfl rfl hpending.symm
        ⟨by rw [hreq]; rfl, fun token' ht => ?_⟩⟩
      rw [hreq] at ht
      rwa [← Option.some.inj ht]
  | checkPhonebook | sayHello | computeSum =>
    rw [hreq] at hlogged
    refine ⟨states, order, h.quiet rfl rfl hlogged rfl rfl hpending.symm
      ⟨by rw [hreq]; rfl, fun token ht => ?_⟩⟩
    rw [hreq] at ht
    cases ht

theorem Registers.insert {o : Ref} (hph : c.phase i = .built o)
    (hlogged : Logged (c.insert i o (reqs i))) :
    ∃ states order, Registers seen env mToken reqs ids (c.insert i o (reqs i)) states order := by
  have hpending : registryStage (served env (reqs i) (states i)) (c.phase i) = .pending := by
    rw [hph]; rfl
  have hi := h.relies i
  rw [hph] at hi
  obtain ⟨b, hpre⟩ := hi
  cases hreq : reqs i with
  | createPhonebook token ty config id | openPhonebook token ty config id =>
    rw [hreq] at hlogged
    refine ⟨states, order ++ [i], h.effect hpending rfl rfl hlogged rfl rfl ?_
      (tied_of_not_uses (by rw [hreq]; rfl))⟩
    rw [call_of_drawn (by rw [hreq]; rfl) hpre]
    have hkeys : (c.mBackends.insert id o).keys = Insert.insert id c.mBackends.keys := by
      ext id'
      simp only [Finmap.mem_keys, Finmap.mem_insert, Finset.mem_insert, eq_comm]
    show (Insert.insert id c.mBackends.keys, _) = ((c.mBackends.insert id o).keys, _)
    rw [hkeys]
  | closePhonebook | destroyPhonebook | checkPhonebook | sayHello | computeSum =>
    rw [hreq] at hpre
    cases hpre

theorem Registers.call {o : Ref} (hph : c.phase i = .found o)
    (hlogged : Logged (c.call env i o (reqs i)))
    (hused : ∀ b, seen.found i o → c.heap[o]? = some b → seen.used i b.derived) :
    ∃ states order, Registers seen env mToken reqs ids (c.call env i o (reqs i)) states order := by
  rcases hb : c.heap[o]? with _ | b
  · have hsame : c.call env i o (reqs i) = c := by simp only [Pool.call, hb]
    rw [hsame]
    exact ⟨states, order, h⟩
  have hi := h.relies i
  rw [hph] at hi
  obtain ⟨⟨⟨id, hc⟩, hseen⟩, -⟩ := hi
  have hserved : served env (reqs i) (Function.update states i b.derived i) =
      (callBackend env (reqs i) b.derived).1 := by
    rw [Function.update_self]
    cases hreq : reqs i with
    | sayHello | computeSum => rfl
    | createPhonebook | openPhonebook | closePhonebook | destroyPhonebook | checkPhonebook =>
      rw [hreq] at hc
      cases hc
  simp only [Pool.call, hb] at hlogged ⊢
  have htied : Tied seen env mToken reqs (Function.update states i b.derived) ids order i := by
    intro _ _ _ _
    rw [Function.update_self]
    exact hused b hseen hb
  refine ⟨_, order, (h.revise_found hph b.derived).quiet rfl rfl hlogged rfl rfl ?_ htied⟩
  rw [hph, hserved]
  rfl

/-- **One step** of any thread is one of the registry, or none. -/
theorem Registers.step (i : ι)
    (hfound : ∀ o, c.mBackends.lookup (target (reqs i)) = some o → seen.found i o)
    (hused : ∀ o b, poolCalls reqs c i = some o → seen.found i o → c.heap[o]? = some b →
      seen.used i b.derived) :
    ∃ states order, Registers seen env mToken reqs ids (c.step env i reqs) states order := by
  have hlogged : Logged (c.step env i reqs) := h.logged.step i
  unfold Pool.step at hlogged ⊢
  cases hph : c.phase i with
  | idle =>
    rw [hph] at hlogged
    have hidle : (registryObject env reqs states c).stage i = .idle := by
      show registryStage _ (c.phase i) = .idle
      rw [hph]
      rfl
    exact ⟨states, order, h.moved (Or.inl rfl) rfl rfl hlogged (h.accounts.invoke hidle) trivial⟩
  | received =>
    rw [hph] at hlogged
    exact h.prologue hph hlogged
  | built o =>
    rw [hph] at hlogged
    exact h.insert hph hlogged
  | ready =>
    rw [hph] at hlogged
    exact h.lockedSection hph hlogged hfound hused
  | found o =>
    rw [hph] at hlogged
    exact h.call hph hlogged fun b hb => hused o b (by rw [poolCalls, hph]) hb
  | replying out =>
    rw [hph] at hlogged
    have hdone : (registryObject env reqs states c).stage i = .done out := by
      show registryStage _ (c.phase i) = .done out
      rw [hph]
      rfl
    have hi := h.relies i
    rw [hph] at hi
    exact ⟨states, order, h.moved (Or.inl rfl) rfl rfl hlogged (h.accounts.answer hdone) hi⟩
  | answered out => exact ⟨states, order, h⟩

end Step

/-- **One statement** of a handler is a step of the registry, or none. -/
theorem Registers.locked_step {c : Locked ι α} (hc : Consistent reqs c)
    (h : Registers seen env mToken reqs ids (pool reqs c) states order) (i : ι)
    (hfound : ∀ o, c.mBackends.lookup (target (reqs i)) = some o → seen.found i o)
    (hused : ∀ o b, calls reqs c i = some o → seen.found i o → c.heap[o]? = some b →
      seen.used i b.derived) :
    ∃ states order,
      Registers seen env mToken reqs ids (pool reqs (c.step env i reqs)) states order := by
  by_cases hseen : pool reqs (c.step env i reqs) = pool reqs c
  · rw [hseen]
    exact ⟨states, order, h⟩
  · rw [(pool_follows env hc i).resolve_left hseen]
    refine h.step i (fun o hl => hfound o (lookup_of_registry hl)) fun o b ho => hused o b ?_
    exact calls_of_pool hc hseen ho

omit [DecidableEq ι] in
theorem registers_start [Inhabited α] (seen : Seen ι α) (env : Env α) (reqs : ι → Request)
    (mToken : String) (s : Store α) :
    Registers seen env mToken reqs s.mBackends.keys (.start mToken s) (fun _ => default) [] :=
  ⟨rfl, logged_start mToken s, ⟨.nil, rfl, fun _ => List.not_mem_nil⟩, fun _ => trivial⟩

omit [DecidableEq ι] in
/-- Whoever was answered is tied to what was seen of it. -/
theorem Registers.tied (h : Registers seen env mToken reqs ids c states order) {out : Outcome}
    (hanswered : .answer i out ∈ c.history) : Tied seen env mToken reqs states ids order i := by
  have hi := h.relies i
  rw [(h.logged.answered i out).mp hanswered] at hi
  exact hi

end Phonebook.Server.Registry
