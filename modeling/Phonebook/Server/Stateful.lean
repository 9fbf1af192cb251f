import Phonebook.Lib.Atomic
import Phonebook.Server.Commutation
import Phonebook.Server.Linearization
import Phonebook.Server.Removal

/-! # Backends with state

A call on a backend comes after the lock, so for a backend with state it takes effect later than the
lookup. If no phonebook that somebody calls is closed or destroyed, the call still meets the backend
that is registered, and the threads are an atomic provider: create, open, close, destroy and check
take effect in their sections, and a call when it is made. -/

namespace Phonebook.Server.Stateful

open Phonebook.Data.Values Phonebook.Server.Backends Phonebook.Server.Provider
open Phonebook.Server.Handlers Phonebook.Server.Token Phonebook.Server.Threads
open Phonebook.Server.Destruction Phonebook.Server.Removal Phonebook.Server.Linearization
open Phonebook.Server.Commutation Phonebook.Lib.Linearizability Phonebook.Lib.Atomic
open Phonebook.Lib.Runs

/-- The id whose backend is called after the lock. -/
def callee : Request → Option UUID
  | .sayHello id | .computeSum id _ _ => some id
  | .createPhonebook ..
  | .openPhonebook .. | .closePhonebook .. | .destroyPhonebook .. | .checkPhonebook _ => none

/-- `computeSum` and `destroy` are defined, whatever they do to the object. -/
structure Defined {α : Type} (ops : BackendOps α) : Prop where
  computeSum : ∀ a x y, (ops.computeSum a x y).1 ≠ .undefined
  destroy : ∀ a, (ops.destroy a).1 ≠ .undefined

variable {ι α : Type}

/-- No phonebook that a request calls is closed or destroyed by one that passes the token check. -/
def KeepsCalled (mToken : String) (reqs : ι → Request) : Prop :=
  ∀ i j token id,
    removes (reqs i) = some (token, id) → ¬ Rejects mToken token → callee (reqs j) ≠ some id

/-- Before its effect an operation is pending, calls included. -/
def stageOf : Phase → Stage Outcome
  | .idle => .idle
  | .received | .built _ | .ready | .found _ => .pending
  | .replying out => .done out
  | .answered out => .answered out

/-- The provider and the threads as an atomic object. -/
def object (c : Pool ι α) (p : ProviderImpl α) : Object ι (ProviderImpl α) Outcome :=
  ⟨p, stageOf ∘ c.phase, c.history⟩

variable {env : Env α} {reqs : ι → Request} {c c' : Pool ι α} {p p' : ProviderImpl α} {i : ι}
  {mToken : String}

/-- What a thread relies on: the id it drew is not taken, what it built is what it prepared, its
token passed, and the backend it found is registered still. -/
def Relies (env : Env α) (reqs : ι → Request) (c : Pool ι α) (i : ι) : Phase → Prop
  | .idle | .received => ∀ id, drawn (reqs i) = some id → c.mBackends.lookup id = none
  | .built o => ∃ b id, c.heap[o]? = some b ∧ preparation env c.mToken (reqs i) = some (.built b) ∧
      drawn (reqs i) = some id ∧ c.mBackends.lookup id = none
  | .ready =>
    drawn (reqs i) = none ∧ ∀ token, tokenOf (reqs i) = some token → ¬ Rejects c.mToken token
  | .found o => ∃ id, callee (reqs i) = some id ∧ c.mBackends.lookup id = some o
  | .replying _ | .answered _ => True

/-! ### The section under the lock -/

/-- What the handler of a request comes to that finds its phonebook, with the backend in this
state. -/
def served (env : Env α) (r : Request) (a : α) : Outcome :=
  match r with
  | .closePhonebook _ _ | .checkPhonebook _ => ([.bool .init], .returns ())
  | .destroyPhonebook _ _ =>
    match (env.ops.destroy a).1 with
    | .returns result => ([.bool result], .returns ())
    | .throws e => ([], .throws e)
    | .undefined => ([], .undefined)
  | _ => (callBackend env r a).1

/-- What the handler of a request comes to that does not find its phonebook. -/
def missed (env : Env α) : Request → Outcome
  | .closePhonebook _ id | .destroyPhonebook _ id => notFound env id
  | .computeSum id _ _ =>
    ([.int32 { RequestResult.init with
      success := false, error := "Phonebook with UUID " ++ env.uuidUnparse id ++ " not found" }],
        .returns ())
  | r =>
    ([.bool ⟨false, "Phonebook with UUID " ++ env.uuidUnparse (target r) ++ " not found"⟩],
      .returns ())

section Section
variable [DecidableEq ι]

theorem lockedSection_missed (env : Env α) (c : Pool ι α) (i : ι) {r : Request}
    (hd : drawn r = none) (hl : c.mBackends.lookup (target r) = none) :
    c.lockedSection env i r = c.goto i (.replying (missed env r)) := by
  cases r with
  | createPhonebook | openPhonebook => cases hd
  | closePhonebook token id => exact Pool.close_unknown env hl
  | destroyPhonebook token id => exact Pool.destroy_unknown env hl
  | checkPhonebook id | sayHello id | computeSum id x y =>
    have hl' : c.mBackends.lookup id = none := hl
    rw [Pool.lockedSection, Pool.find_unknown env hl']
    rfl

theorem destroy_found (env : Env α) (c : Pool ι α) (i : ι) (token : String) {id : UUID} {o : Ref}
    {b : Backend α} (hl : c.mBackends.lookup id = some o) (hb : c.heap[o]? = some b) :
    ∃ d returned, c.destroy env i id =
      { c.goto i (.replying (served env (.destroyPhonebook token id) b.derived)) with
        mBackends :=
          if (served env (.destroyPhonebook token id) b.derived).2 = .returns () then
            c.mBackends.erase id
          else c.mBackends
        heap := c.heap.set o { b with derived := d }
        log := c.log ++ [.destroy i o returned] } := by
  rcases hd : env.ops.destroy b.derived with ⟨result | e | _, d⟩
  · refine ⟨d, true, ?_⟩
    rw [Pool.destroy_returned env hl hb hd]
    simp only [served, hd, if_true]
  · refine ⟨d, false, ?_⟩
    rw [Pool.destroy_threw env hl hb hd]
    simp only [served, hd, reduceCtorEq, if_false]
    rfl
  · refine ⟨d, false, ?_⟩
    rw [Pool.destroy_undefined env hl hb hd]
    simp only [served, hd, reduceCtorEq, if_false]
    rfl

omit [DecidableEq ι] in
theorem slot_missed (env : Env α) {mToken : String} {r : Request} (hd : drawn r = none)
    (hpass : ∀ token, tokenOf r = some token → ¬ Rejects mToken token) :
    slot env mToken none r = (none, missed env r) := by
  cases r with
  | createPhonebook | openPhonebook => cases hd
  | closePhonebook token id | destroyPhonebook token id => exact if_neg (hpass token rfl)
  | checkPhonebook | sayHello | computeSum => rfl

end Section

/-! ### Threads among the steps of others -/

theorem Relies.frame {j : ι} {ph : Phase} (h : Relies env reqs c j ph)
    (htoken : c'.mToken = c.mToken)
    (hheap : ∀ o b, ph = .built o → c.heap[o]? = some b → c'.heap[o]? = some b)
    (hnone : ∀ id, drawn (reqs j) = some id → c.mBackends.lookup id = none →
      c'.mBackends.lookup id = none)
    (hsome : ∀ id o, callee (reqs j) = some id → c.mBackends.lookup id = some o →
      c'.mBackends.lookup id = some o) :
    Relies env reqs c' j ph := by
  cases ph with
  | idle => exact fun id hd => hnone id hd (h id hd)
  | received => exact fun id hd => hnone id hd (h id hd)
  | built o =>
    obtain ⟨b, id, hb, hpre, hd, hl⟩ := h
    exact ⟨b, id, hheap o b rfl hb, htoken ▸ hpre, hd, hnone id hd hl⟩
  | ready =>
    refine ⟨h.1, fun token ht => ?_⟩
    rw [htoken]
    exact h.2 token ht
  | found o =>
    obtain ⟨id, hcallee, hl⟩ := h
    exact ⟨id, hcallee, hsome id o hcallee hl⟩
  | replying out => trivial
  | answered out => trivial

variable [DecidableEq ι]

/-- The objects a step may change are registered. -/
def KeepsBuilt (c c' : Pool ι α) : Prop :=
  ∀ o b, c.heap[o]? = some b → (∀ id, c.mBackends.lookup id ≠ some o) → c'.heap[o]? = some b

section All
variable (hown : Owned c) (h : ∀ j, Relies env reqs c j (c.phase j)) (ph : Phase)
  (hphase : c'.phase = Function.update c.phase i ph) (htoken : c'.mToken = c.mToken)
  (hheap : KeepsBuilt c c') (hi : Relies env reqs c' i ph)
include hown h hphase htoken hheap hi

theorem relies_all
    (hnone : ∀ j id, j ≠ i → drawn (reqs j) = some id → c.mBackends.lookup id = none →
      c'.mBackends.lookup id = none)
    (hsome : ∀ j id o, callee (reqs j) = some id → c.mBackends.lookup id = some o →
      c'.mBackends.lookup id = some o)
    (j : ι) : Relies env reqs c' j (c'.phase j) := by
  rw [hphase]
  by_cases hj : j = i
  · subst hj
    rw [Function.update_self]
    exact hi
  · rw [Function.update_of_ne hj]
    refine (h j).frame htoken (fun o b hbuilt hb => hheap o b hb fun id hl => ?_)
      (fun id => hnone j id hj) (hsome j)
    -- what a thread has built is not registered
    cases hown.single (.entry id) (.thread j) o hl (owned_of_built hbuilt)

theorem relies_same (hreg : c'.mBackends = c.mBackends) (j : ι) :
    Relies env reqs c' j (c'.phase j) :=
  relies_all hown h ph hphase htoken hheap hi (fun _ _ _ _ hl => hreg ▸ hl)
    (fun _ _ _ _ hl => hreg ▸ hl) j

theorem relies_insert {id : UUID} {o : Ref} (hdistinct : ∀ j, j ≠ i → drawn (reqs j) ≠ some id)
    (hl : c.mBackends.lookup id = none) (hreg : c'.mBackends = c.mBackends.insert id o) (j : ι) :
    Relies env reqs c' j (c'.phase j) := by
  refine relies_all hown h ph hphase htoken hheap hi (fun k id' hk hd hnone => ?_)
    (fun k id' o' _ hsome => ?_) j
  · have hne : id' ≠ id := fun heq => hdistinct k hk (heq ▸ hd)
    rw [hreg, Finmap.lookup_insert_of_ne _ hne, hnone]
  · have hne : id' ≠ id := by
      rintro rfl
      rw [hl] at hsome
      cases hsome
    rw [hreg, Finmap.lookup_insert_of_ne _ hne, hsome]

theorem relies_erase {id : UUID} (hcalled : ∀ j, callee (reqs j) ≠ some id)
    (hreg : c'.mBackends = c.mBackends.erase id)
    (j : ι) : Relies env reqs c' j (c'.phase j) := by
  refine relies_all hown h ph hphase htoken hheap hi (fun k id' _ _ hnone => ?_)
    (fun k id' o' hc hsome => ?_) j
  · by_cases hid : id' = id
    · rw [hreg, hid, Finmap.lookup_erase]
    · rw [hreg, Finmap.lookup_erase_ne hid, hnone]
  · have hne : id' ≠ id := fun heq => hcalled k (heq ▸ hc)
    rw [hreg, Finmap.lookup_erase_ne hne, hsome]

end All

omit [DecidableEq ι] in
/-- An object that is registered under one id is written to: the others stay as they are. -/
theorem heap_set_of_ne (hown : Owned c) {id : UUID} {o o' : Ref}
    (hl : c.mBackends.lookup id = some o) {a : Owner ι} (hne : a ≠ .entry id)
    (ha : owned c a = some o') (b : Backend α) :
    (c.heap.set o b)[o']? = c.heap[o']? := by
  refine List.getElem?_set_ne ?_
  rintro rfl
  exact hne (hown.single a (.entry id) o ha hl)

omit [DecidableEq ι] in
theorem keepsBuilt_set {id : UUID} {o : Ref} (hl : c.mBackends.lookup id = some o) {b : Backend α}
    (hheap : c'.heap = c.heap.set o b) : KeepsBuilt c c' := by
  intro o' b' hb' hno
  have hne : o ≠ o' := by
    rintro rfl
    exact hno id hl
  rw [hheap, List.getElem?_set_ne hne, hb']

/-! ### The provider -/

omit [DecidableEq ι] in
theorem represents_put (h : Represents c p) (htoken : c'.mToken = c.mToken) {id : UUID}
    {x : Option (Backend α)}
    (hself : Option.Rel (fun o b => c'.heap[o]? = some b) (c'.mBackends.lookup id) x)
    (hother : ∀ id', id' ≠ id → c'.mBackends.lookup id' = c.mBackends.lookup id')
    (hheap : ∀ id' o, id' ≠ id → c.mBackends.lookup id' = some o → c'.heap[o]? = c.heap[o]?) :
    Represents c' (put p id x) where
  token := by rw [htoken, h.token, mToken_put]
  registry id' := by
    by_cases hid : id' = id
    · subst hid
      rw [lookup_put_self]
      exact hself
    · rw [lookup_put_of_ne hid, hother id' hid]
      have hold := h.registry id'
      rcases hl : c.mBackends.lookup id' with _ | o
      · rw [hl] at hold
        cases hb : p.mBackends.lookup id' with
        | none => exact .none
        | some b => rw [hb] at hold; exact absurd hold Option.not_rel_none_some
      · obtain ⟨b, hb, hlb⟩ := h.known hl
        rw [hlb]
        exact .some ((hheap id' o hid hl).trans hb)

omit [DecidableEq ι] in
theorem atOnce_eq (env : Env α) (reqs : ι → Request) (p : ProviderImpl α) (i : ι) :
    atOnce env reqs p i =
      (put p (target (reqs i)) (slot env p.mToken (p.mBackends.lookup (target (reqs i)))
        (reqs i)).1,
        (slot env p.mToken (p.mBackends.lookup (target (reqs i))) (reqs i)).2) := by
  rw [atOnce, serve_eq]
  rfl

/-! ### Steps of the pool and of the object -/

/-- From one pool to the other is a step of the object, or none, and every thread can rely on what
it did. -/
structure Goes (env : Env α) (reqs : ι → Request) (c : Pool ι α) (p : ProviderImpl α) (i : ι)
    (c' : Pool ι α) :
    Prop where
  token : c'.mToken = c.mToken
  relies : ∀ j, Relies env reqs c' j (c'.phase j)
  provider : ∃ p', Represents c' p' ∧ Step (atOnce env reqs) (object c p) i (object c' p')

theorem object_moved (c' : Pool ι α) (p' : ProviderImpl α) (ph : Phase)
    (hphase : c'.phase = Function.update c.phase i ph) :
    object c' p' = ⟨p', Function.update (stageOf ∘ c.phase) i (stageOf ph), c'.history⟩ := by
  rw [object, hphase, Function.comp_update]

section Steps
variable (hown : Owned c) (hrelies : ∀ j, Relies env reqs c j (c.phase j)) (hrep : Represents c p)
include hown hrelies hrep

theorem goes_quiet {ph : Phase} (hm : Moved c c' i ph) (hhist : c'.history = c.history)
    (hreg : c'.mBackends = c.mBackends) (hstage : stageOf ph = stageOf (c.phase i))
    (hi : Relies env reqs c' i ph) :
    Goes env reqs c p i c' := by
  refine ⟨hm.token, relies_same hown hrelies _ hm.phase hm.token
    (fun o b hb _ => hm.heap o b hb) hi hreg, p,
    hrep.moved hm hreg, ?_⟩
  have hsame : Function.update (stageOf ∘ c.phase) i (stageOf ph) = stageOf ∘ c.phase := by
    rw [hstage]
    exact Function.update_eq_self i (stageOf ∘ c.phase)
  rw [object_moved c' p ph hm.phase, hsame, hhist]
  exact .stay

omit hown hrelies in
theorem goes_effect (hpending : stageOf (c.phase i) = .pending) (out : Outcome)
    (hphase : c'.phase = Function.update c.phase i (.replying out)) (htoken : c'.mToken = c.mToken)
    (hhist : c'.history = c.history) {x : Option (Backend α)}
    (hslot : slot env p.mToken (p.mBackends.lookup (target (reqs i))) (reqs i) = (x, out))
    (hself : Option.Rel (fun o b => c'.heap[o]? = some b) (c'.mBackends.lookup (target (reqs i))) x)
    (hother : ∀ id', id' ≠ target (reqs i) → c'.mBackends.lookup id' = c.mBackends.lookup id')
    (hheap : ∀ id' o, id' ≠ target (reqs i) → c.mBackends.lookup id' = some o →
      c'.heap[o]? = c.heap[o]?)
    (hall : ∀ j, Relies env reqs c' j (c'.phase j)) : Goes env reqs c p i c' := by
  refine ⟨htoken, hall, put p (target (reqs i)) x,
    represents_put hrep htoken hself hother hheap, ?_⟩
  have hat : atOnce env reqs p i = (put p (target (reqs i)) x, out) := by rw [atOnce_eq, hslot]
  have hstep : Step (atOnce env reqs) (object c p) i _ := .effect hpending
  rw [show atOnce env reqs (object c p).state i = _ from hat] at hstep
  rw [object_moved c' _ (.replying out) hphase, hhist]
  exact hstep

theorem goes_answered (hpending : stageOf (c.phase i) = .pending) (out : Outcome)
    (hm : Moved c c' i (.replying out)) (hhist : c'.history = c.history)
    (hreg : c'.mBackends = c.mBackends)
    (hslot : slot env p.mToken (p.mBackends.lookup (target (reqs i))) (reqs i) =
      (p.mBackends.lookup (target (reqs i)), out)) : Goes env reqs c p i c' := by
  have hkept : KeepsBuilt c c' := fun o b hb _ => hm.heap o b hb
  refine goes_effect hrep hpending out hm.phase hm.token hhist hslot ?_ (fun _ _ => by rw [hreg])
    (fun id' o _ hl => ?_)
    (relies_same hown hrelies _ hm.phase hm.token hkept trivial hreg)
  · rw [hreg]
    exact rel_of_heap hm.heap (hrep.registry _)
  · obtain ⟨b, hb, -⟩ := hrep.known hl
    rw [hb, hm.heap o b hb]

theorem goes_build {id : UUID} {x : Prepared α} (hph : c.phase i = .received)
    (hd : drawn (reqs i) = some id) (hpre : preparation env c.mToken (reqs i) = some x)
    (hslot : ∀ found, slot env p.mToken found (reqs i) = fill id found x) :
    Goes env reqs c p i (c.build i x) := by
  have hpending : stageOf (c.phase i) = .pending := by rw [hph]; rfl
  cases x with
  | refused error =>
    exact goes_answered hown hrelies hrep hpending _ (moved_goto c i _) rfl rfl (hslot _)
  | escaped exit =>
    exact goes_answered hown hrelies hrep hpending _ (moved_goto c i _) rfl rfl (hslot _)
  | built b =>
    have hm : Moved c (c.build i (.built b)) i (.built c.heap.length) :=
      ⟨rfl, rfl, fun _ h => h, heap_append b⟩
    have hnone : c.mBackends.lookup id = none := by
      have hr := hrelies i
      rw [hph] at hr
      exact hr id hd
    refine goes_quiet hown hrelies hrep hm rfl rfl (by rw [hpending]; rfl)
      ⟨b, id, ?_, hpre, hd, hnone⟩
    show (c.heap ++ [b])[c.heap.length]? = some b
    simp

theorem goes_prologue (hph : c.phase i = .received) :
    Goes env reqs c p i (c.prologue env i (reqs i)) := by
  have hpending : stageOf (c.phase i) = .pending := by rw [hph]; rfl
  have hready :
    drawn (reqs i) = none → (∀ token, tokenOf (reqs i) = some token → ¬ Rejects c.mToken token) →
      Goes env reqs c p i (c.goto i .ready) := fun hd ht =>
    goes_quiet hown hrelies hrep (moved_goto c i _) rfl rfl (by rw [hpending]; rfl) ⟨hd, ht⟩
  cases hreq : reqs i with
  | createPhonebook token ty config id =>
    refine goes_build hown hrelies hrep hph (by rw [hreq]; rfl) (by rw [hreq]; rfl) fun found => ?_
    rw [hreq, hrep.token]
    rfl
  | openPhonebook token ty config id =>
    refine goes_build hown hrelies hrep hph (by rw [hreq]; rfl) (by rw [hreq]; rfl) fun found => ?_
    rw [hreq, hrep.token]
    rfl
  | closePhonebook token id | destroyPhonebook token id =>
    dsimp only [Pool.prologue]
    split_ifs with hr
    · refine goes_answered hown hrelies hrep hpending _ (moved_goto c i _) rfl rfl ?_
      rw [hrep.token] at hr
      rw [hreq]
      dsimp only [slot]
      rw [if_pos hr]
    · refine hready (by rw [hreq]; rfl) fun token' ht => ?_
      rw [hreq] at ht
      rwa [← Option.some.inj ht]
  | checkPhonebook | sayHello | computeSum =>
    exact hready (by rw [hreq]; rfl) (by rw [hreq]; rintro token ht; cases ht)

theorem goes_insert (hdistinct : ∀ j id, j ≠ i → drawn (reqs i) = some id →
    drawn (reqs j) ≠ some id) {o : Ref}
    (hph : c.phase i = .built o) : Goes env reqs c p i (c.insert i o (reqs i)) := by
  have hpending : stageOf (c.phase i) = .pending := by rw [hph]; rfl
  have hr := hrelies i
  rw [hph] at hr
  obtain ⟨b, id, hb, hpre, hd, hl⟩ := hr
  cases hreq : reqs i with
  | createPhonebook token ty config id' | openPhonebook token ty config id' =>
    rw [hreq] at hpre hd
    obtain rfl : id' = id := Option.some.inj hd
    have htarget : target (reqs i) = id' := by rw [hreq]; rfl
    refine goes_effect hrep hpending ([added id'], .returns ()) rfl rfl rfl
      (x := some b) ?_ ?_ (fun id₁ hne => ?_)
      (fun _ _ _ _ => rfl) (relies_insert hown hrelies (.replying _) rfl rfl
        (fun _ _ hb _ => hb) trivial
        (fun j hj => hdistinct j id' hj (by rw [hreq]; rfl)) hl rfl)
    · rw [hreq, slot, ← hrep.token, Option.some.inj hpre]
      rfl
    · rw [htarget]
      show Option.Rel _ ((c.mBackends.insert id' o).lookup id') (some b)
      rw [Finmap.lookup_insert]
      exact .some hb
    · rw [htarget] at hne
      exact Finmap.lookup_insert_of_ne _ hne
  | closePhonebook | destroyPhonebook | checkPhonebook | sayHello | computeSum =>
    rw [hreq] at hd
    cases hd

theorem goes_close {token : String} {id : UUID} {o : Ref} (hph : c.phase i = .ready)
    (hreq : reqs i = .closePhonebook token id) (hr : ¬ Rejects c.mToken token)
    (hcalled : ∀ j, callee (reqs j) ≠ some id) (hl : c.mBackends.lookup id = some o) :
    Goes env reqs c p i (c.close env i id) := by
  have hpending : stageOf (c.phase i) = .pending := by rw [hph]; rfl
  have htarget : target (reqs i) = id := by rw [hreq]; rfl
  rw [hrep.token] at hr
  obtain ⟨b, hb, hlb⟩ := hrep.known hl
  rw [Pool.close_known env hl]
  refine goes_effect hrep hpending ([.bool .init], .returns ()) rfl rfl rfl
    (x := none) ?_ ?_ (fun id' hne => ?_)
    (fun _ _ _ _ => rfl) (relies_erase hown hrelies (.replying _) rfl rfl
      (fun _ _ hb _ => hb) trivial hcalled rfl)
  · rw [htarget, hlb, hreq]
    dsimp only [slot]
    rw [if_neg hr]
  · rw [htarget]
    show Option.Rel _ ((c.mBackends.erase id).lookup id) none
    rw [Finmap.lookup_erase]
    exact .none
  · rw [htarget] at hne
    exact Finmap.lookup_erase_ne hne

theorem goes_destroy (hdef : Defined env.ops) {token : String} {id : UUID} {o : Ref}
    (hph : c.phase i = .ready) (hreq : reqs i = .destroyPhonebook token id)
    (hr : ¬ Rejects c.mToken token) (hcalled : ∀ j, callee (reqs j) ≠ some id)
    (hl : c.mBackends.lookup id = some o) :
    Goes env reqs c p i (c.destroy env i id) := by
  have hpending : stageOf (c.phase i) = .pending := by rw [hph]; rfl
  have htarget : target (reqs i) = id := by rw [hreq]; rfl
  rw [hrep.token] at hr
  obtain ⟨b, hb, hlb⟩ := hrep.known hl
  -- the backends of the other entries are left alone
  have hothers :
    ∀ (b' : Backend α) id' o', id' ≠ target (reqs i) → c.mBackends.lookup id' = some o' →
      (c.heap.set o b')[o']? = c.heap[o']? := by
    intro b' id' o' hne hl'
    rw [htarget] at hne
    exact heap_set_of_ne hown hl (a := .entry id') (fun heq => hne (Owner.entry.inj heq)) hl' b'
  rcases hd : env.ops.destroy b.derived with ⟨result | e | _, d⟩
  · rw [Pool.destroy_returned env hl hb hd]
    refine goes_effect hrep hpending ([.bool result], .returns ()) rfl rfl rfl
      (x := none) ?_ ?_ (fun id' hne => ?_)
      (hothers _) (relies_erase hown hrelies (.replying _) rfl rfl
        (keepsBuilt_set hl rfl) trivial hcalled rfl)
    · rw [htarget, hlb, hreq]
      dsimp only [slot]
      rw [if_neg hr, hd]
    · rw [htarget]
      show Option.Rel _ ((c.mBackends.erase id).lookup id) none
      rw [Finmap.lookup_erase]
      exact .none
    · rw [htarget] at hne
      exact Finmap.lookup_erase_ne hne
  · rw [Pool.destroy_threw env hl hb hd]
    refine goes_effect hrep hpending ([], .throws e) rfl rfl rfl
      (x := some { b with derived := d }) ?_ ?_
      (fun _ _ => rfl) (hothers _)
        (relies_same hown hrelies (.replying _) rfl rfl (keepsBuilt_set hl rfl) trivial rfl)
    · rw [htarget, hlb, hreq]
      dsimp only [slot]
      rw [if_neg hr, hd]
    · rw [htarget]
      show Option.Rel _ (c.mBackends.lookup id) _
      rw [hl]
      exact .some (List.getElem?_set_self (List.getElem?_eq_some_iff.mp hb).1)
  · exact absurd (congrArg Prod.fst hd) (hdef.destroy b.derived)

theorem goes_lockedSection (hdef : Defined env.ops) (hkeeps : KeepsCalled c.mToken reqs)
    (hph : c.phase i = .ready) :
    Goes env reqs c p i (c.lockedSection env i (reqs i)) := by
  have hpending : stageOf (c.phase i) = .pending := by rw [hph]; rfl
  have hr := hrelies i
  rw [hph] at hr
  obtain ⟨hd, ht⟩ := hr
  rcases hl : c.mBackends.lookup (target (reqs i)) with _ | o
  · rw [lockedSection_missed env c i hd hl]
    refine goes_answered hown hrelies hrep hpending _ (moved_goto c i _) rfl rfl ?_
    rw [hrep.token] at ht
    rw [hrep.unknown hl, slot_missed env hd ht]
  obtain ⟨b, hb, hlb⟩ := hrep.known hl
  cases hreq : reqs i with
  | createPhonebook | openPhonebook =>
    rw [hreq] at hd
    cases hd
  | closePhonebook token id =>
    rw [hreq, target] at hl
    have hpass := ht token (by rw [hreq]; rfl)
    exact goes_close hown hrelies hrep hph hreq hpass
      (fun j => hkeeps i j token id (by rw [hreq]; rfl) hpass) hl
  | destroyPhonebook token id =>
    rw [hreq, target] at hl
    have hpass := ht token (by rw [hreq]; rfl)
    exact goes_destroy hown hrelies hrep hdef hph hreq hpass
      (fun j => hkeeps i j token id (by rw [hreq]; rfl) hpass) hl
  | checkPhonebook id =>
    have hslot : slot env p.mToken (some b) (reqs i) = (some b, [.bool .init], .returns ()) := by
      rw [hreq]; rfl
    rw [hreq, target] at hl
    rw [Pool.lockedSection, Pool.find_known env hl]
    have hm :=
      moved_section c i (.replying ([.bool .init], .returns ())) c.mBackends
        (c.log ++ [.lookup i o])
    refine goes_answered hown hrelies hrep hpending _ hm rfl rfl ?_
    rw [hlb, hslot]
  | sayHello id | computeSum id x y =>
    rw [hreq, target] at hl
    rw [Pool.lockedSection, Pool.find_known env hl]
    have hm := moved_section c i (.found o) c.mBackends (c.log ++ [.lookup i o])
    exact goes_quiet hown hrelies hrep hm rfl rfl (by rw [hpending]; rfl)
      ⟨id, by rw [hreq]; rfl, hl⟩

end Steps

omit [DecidableEq ι] in
theorem slot_call (hdef : Defined env.ops) {r : Request} {id : UUID} (hc : callee r = some id)
    (mToken : String)
    (b : Backend α) : target r = id ∧ slot env mToken (some b) r =
      (some { b with derived := (callBackend env r b.derived).2 },
        (callBackend env r b.derived).1) := by
  cases r with
  | sayHello id' =>
    obtain rfl : id' = id := Option.some.inj hc
    exact ⟨rfl, rfl⟩
  | computeSum id' x y =>
    obtain rfl : id' = id := Option.some.inj hc
    refine ⟨rfl, ?_⟩
    dsimp only [slot, callBackend]
    rcases hx : env.ops.computeSum b.derived x y with ⟨result | e | _, d⟩
    · rfl
    · rfl
    · exact absurd (congrArg Prod.fst hx) (hdef.computeSum b.derived x y)
  | createPhonebook | openPhonebook | closePhonebook | destroyPhonebook | checkPhonebook => cases hc

section Steps
variable (hown : Owned c) (hrelies : ∀ j, Relies env reqs c j (c.phase j)) (hrep : Represents c p)
include hown hrelies hrep

theorem goes_call (hdef : Defined env.ops) {o : Ref} (hph : c.phase i = .found o) :
    Goes env reqs c p i (c.call env i o (reqs i)) := by
  have hpending : stageOf (c.phase i) = .pending := by rw [hph]; rfl
  have hr := hrelies i
  rw [hph] at hr
  obtain ⟨id, hc, hl⟩ := hr
  obtain ⟨b, hb, hlb⟩ := hrep.known hl
  obtain ⟨htarget, hslot⟩ := slot_call hdef hc p.mToken b
  simp only [Pool.call, hb]
  refine goes_effect hrep hpending (callBackend env (reqs i) b.derived).1 rfl rfl rfl
    (x := some { b with derived := (callBackend env (reqs i) b.derived).2 }) ?_ ?_ (fun _ _ => rfl)
    (fun id' o' hne hl' => ?_)
      (relies_same hown hrelies (.replying _) rfl rfl (keepsBuilt_set hl rfl) trivial rfl)
  · rw [htarget, hlb, hslot]
  · rw [htarget]
    show Option.Rel _ (c.mBackends.lookup id) _
    rw [hl]
    exact .some (List.getElem?_set_self (List.getElem?_eq_some_iff.mp hb).1)
  · rw [htarget] at hne
    exact heap_set_of_ne hown hl (a := .entry id') (fun heq => hne (Owner.entry.inj heq)) hl' _

/-- **One step** of any thread is a step of the object, or none. -/
theorem goes_step (hdef : Defined env.ops) (hkeeps : KeepsCalled c.mToken reqs)
    (hdistinct : ∀ i j id, drawn (reqs i) = some id → drawn (reqs j) = some id → i = j) (i : ι) :
    Goes env reqs c p i (c.step env i reqs) := by
  have hr := hrelies i
  unfold Pool.step
  cases hph : c.phase i with
  | idle =>
    rw [hph] at hr
    refine ⟨rfl, relies_same hown hrelies .received rfl rfl (fun _ _ hb _ => hb) hr rfl, p,
      hrep.moved ⟨rfl, rfl, List.subset_append_left _ _, fun _ _ hb => hb⟩ rfl, ?_⟩
    have hidle : (object c p).stage i = .idle := by
      show stageOf (c.phase i) = .idle
      rw [hph]
      rfl
    rw [object_moved (c.receive i) p .received rfl]
    exact .invoke hidle
  | received => exact goes_prologue hown hrelies hrep hph
  | built o =>
    exact goes_insert hown hrelies hrep (fun j id hj hd hd' => hj (hdistinct j i id hd' hd)) hph
  | ready => exact goes_lockedSection hown hrelies hrep hdef hkeeps hph
  | found o => exact goes_call hown hrelies hrep hdef hph
  | replying out =>
    refine ⟨rfl, relies_same hown hrelies (.answered out) rfl rfl
      (fun _ _ hb _ => hb) trivial rfl, p,
      hrep.moved ⟨rfl, rfl, List.subset_append_left _ _, fun _ _ hb => hb⟩ rfl, ?_⟩
    have hdone : (object c p).stage i = .done out := by
      show stageOf (c.phase i) = .done out
      rw [hph]
      rfl
    rw [object_moved (c.answer i out) p (.answered out) rfl]
    exact .answer out hdone
  | answered out => exact ⟨rfl, hrelies, p, hrep, .stay⟩

end Steps

/-! ### Runs -/

/-- **The threads are an atomic provider.** -/
theorem linearizes_run (env : Env α) (reqs : ι → Request) (p₀ : ProviderImpl α)
    (hdef : Defined env.ops) (mToken : String) (s : Store α)
    (hp : Represents (.start mToken s : Pool ι α) p₀) (hids : FreshIds reqs s)
    (hkeeps : KeepsCalled mToken reqs) (schedule : List ι) :
    ∃ order,
      Linearizes (atOnce env reqs) p₀ (run env reqs (.start mToken s) schedule).history order := by
  let Sim : Pool ι α → Object ι (ProviderImpl α) Outcome → Prop := fun c a =>
    Owned c ∧ c.mToken = mToken ∧ (∀ j, Relies env reqs c j (c.phase j)) ∧ ∃ p, Represents c p ∧
      a = object c p
  have hstep :
    ∀ c a i, Sim c a → ∃ a', Step (atOnce env reqs) a i a' ∧ Sim (c.step env i reqs) a' := by
    rintro c _ i ⟨hown, htoken, hrelies, p, hrep, rfl⟩
    obtain ⟨htoken', hrelies', p', hrep', hs⟩ :=
      goes_step hown hrelies hrep hdef (htoken ▸ hkeeps) hids.distinct i
    exact ⟨_, hs, hown.effect (effect_step c i), htoken'.trans htoken, hrelies', p', hrep', rfl⟩
  have hstart : Sim (.start mToken s) ⟨p₀, fun _ => .idle, []⟩ := by
    refine ⟨(ordered_run env reqs mToken s []).1, rfl, fun j id hd => ?_, p₀, hp, rfl⟩
    exact Finmap.lookup_eq_none.mpr (hids.new j id hd)
  obtain ⟨a, order, ⟨-, -, -, p, -, rfl⟩, hlin⟩ :=
    linearizes_of_simulation Sim hstep hstart schedule
  exact ⟨order, hlin⟩

/-- A backend that adds up what it is asked for, until it is destroyed. -/
def tally : BackendOps (Option Int32) where
  getConfig _ := .returns "{}"
  sayHello total := (.returns (), total)
  computeSum total x y :=
    match total with
    | none => (.returns ⟨false, "destroyed", none⟩, none)
    | some n => (.returns ⟨true, "", some (n + x + y)⟩, some (n + x + y))
  destroy _ := (.returns .init, none)

/-- A provider linked with it. -/
def tallyEnv : Env (Option Int32) where
  json := .sample
  uuidUnparse := uuidUnparse
  ops := tally
  factory := ypBackendRegistration
    ⟨fun _ => .returns (some (some 0)), fun _ => .returns (some (some 0))⟩ "tally" .empty

theorem tally_defined : Defined tallyEnv.ops where
  computeSum total x y := by
    rcases total with _ | n
    · rintro ⟨⟩
    · rintro ⟨⟩
  destroy total := by rintro ⟨⟩

end Phonebook.Server.Stateful
