import Phonebook.Server.Threads
import Phonebook.Server.Token

/-! # The threads behave like one handler after the other

A handler takes effect when it is refused before the lock or else in its section under the lock,
lookups included. Along any schedule the order of these effects linearizes the history
(`handlers_linearizable`), for backends whose calls leave the object as it was, such as the dummy.
The call after the lock is no obstacle, for the thread owns the object it looked up. -/

namespace Phonebook.Server.Linearization

open Phonebook.Data.Values Phonebook.Data.JsonTree Phonebook.Server.Backends
open Phonebook.Server.Provider Phonebook.Server.Handlers Phonebook.Server.Token
open Phonebook.Server.Threads Phonebook.Lib.Linearizability Phonebook.Lib.Runs

variable {ι α : Type} [DecidableEq ι] {env : Env α} {reqs : ι → Request}

/-- The handler of a request, run without others. -/
def atOnce (env : Env α) (reqs : ι → Request) (p : ProviderImpl α) (i : ι) :
    ProviderImpl α × Outcome :=
  ((serve env p (reqs i)).provider, (serve env p (reqs i)).responses, (serve env p (reqs i)).exit)

omit [DecidableEq ι] in
theorem atOnce_of_serve {p p' : ProviderImpl α} {i : ι} (out : Outcome)
    (h : serve env p (reqs i) = ⟨p', out.1, out.2⟩) : atOnce env reqs p i = (p', out) := by
  rw [atOnce, h]

/-- The pool has the provider's token, and its registry the provider's backends behind its
pointers. -/
structure Represents (c : Pool ι α) (p : ProviderImpl α) : Prop where
  token : c.mToken = p.mToken
  registry : ∀ id, Option.Rel (fun o b => c.heap[o]? = some b) (c.mBackends.lookup id)
    (p.mBackends.lookup id)

/-- The backend a create or open prepares. -/
def preparation (env : Env α) (mToken : String) : Request → Option (Prepared α)
  | .createPhonebook token ty config _ =>
    some (prepare env mToken token ty config (env.factory.createPhonebook ty))
  | .openPhonebook token ty config _ =>
    some (prepare env mToken token ty config (env.factory.openPhonebook ty))
  | _ => none

section Simulation
variable (env reqs) (p₀ : ProviderImpl α)

/-- What the phase of a thread says about the order: before its effect the request is not in it, and
from then on the outcome it has in the order is the one the thread is on its way to. -/
def Stands (c : Pool ι α) (order : List ι) (i : ι) : Phase → Prop
  | .idle => i ∉ order
  | .received => i ∉ order ∧ .invoke i ∈ c.history
  | .ready =>
    i ∉ order ∧ .invoke i ∈ c.history ∧ ∀ token, tokenOf (reqs i) = some token →
      ¬ Rejects c.mToken token
  | .built o =>
    i ∉ order ∧ .invoke i ∈ c.history ∧
      ∃ b, c.heap[o]? = some b ∧ preparation env c.mToken (reqs i) = some (.built b)
  | .found o =>
    ∃ b, c.heap[o]? = some b ∧
      (i, (callBackend env (reqs i) b.derived).1) ∈ seqAnswers (atOnce env reqs) p₀ order
  | .replying out | .answered out => (i, out) ∈ seqAnswers (atOnce env reqs) p₀ order

/-- The order accounts for the pool: it linearizes its history, leads to its registry, and agrees
with every thread. -/
structure Simulates (c : Pool ι α) (order : List ι) : Prop where
  linearizes : Linearizes (atOnce env reqs) p₀ c.history order
  represents : Represents c (seqState (atOnce env reqs) p₀ order)
  stands : ∀ i, Stands env reqs p₀ c order i (c.phase i)

end Simulation

/-! ### What a step leaves as it was -/

/-- From one pool to the other the thread of `i` went on to the phase, no event was lost and no
object changed. -/
structure Moved (c c' : Pool ι α) (i : ι) (ph : Phase) : Prop where
  phase : c'.phase = Function.update c.phase i ph
  token : c'.mToken = c.mToken
  history : c.history ⊆ c'.history
  heap : ∀ (o : Ref) (b : Backend α), c.heap[o]? = some b → c'.heap[o]? = some b

theorem moved_goto (c : Pool ι α) (i : ι) (ph : Phase) : Moved c (c.goto i ph) i ph :=
  ⟨rfl, rfl, fun _ h => h, fun _ _ h => h⟩

theorem moved_section (c : Pool ι α) (i : ι) (ph : Phase) (m : Finmap fun _ : UUID => Ref)
    (log : List (Act ι)) :
    Moved c { c.goto i ph with mBackends := m, log := log } i ph :=
  ⟨rfl, rfl, fun _ h => h, fun _ _ h => h⟩

variable {p₀ : ProviderImpl α} {c c' : Pool ι α} {order order' : List ι} {i j : ι} {ph ph' : Phase}

theorem Stands.moved (hm : Moved c c' i ph) (hord : order' = order ∨ order' = order ++ [i])
    (hj : j ≠ i)
    (h : Stands env reqs p₀ c order j ph') : Stands env reqs p₀ c' order' j ph' := by
  have hout : j ∉ order → j ∉ order' := by
    rintro hn
    rcases hord with rfl | rfl
    · exact hn
    · simp [hn, hj]
  have hans : ∀ out, (j, out) ∈ seqAnswers (atOnce env reqs) p₀ order →
      (j, out) ∈ seqAnswers (atOnce env reqs) p₀ order' := by
    intro out ho
    rcases hord with rfl | rfl
    · exact ho
    · rw [seqAnswers_concat]
      exact List.mem_append_left _ ho
  cases ph' with
  | idle => exact hout h
  | received => exact ⟨hout h.1, hm.history h.2⟩
  | ready =>
    obtain ⟨hn, hinv, htok⟩ := h
    refine ⟨hout hn, hm.history hinv, ?_⟩
    rw [hm.token]
    exact htok
  | built o =>
    obtain ⟨hn, hinv, b, hb, hp⟩ := h
    refine ⟨hout hn, hm.history hinv, b, hm.heap o b hb, ?_⟩
    rw [hm.token]
    exact hp
  | found o =>
    obtain ⟨b, hb, ho⟩ := h
    exact ⟨b, hm.heap o b hb, hans _ ho⟩
  | replying out => exact hans out h
  | answered out => exact hans out h

theorem heap_append {heap : List (Backend α)} (b : Backend α) (o : Ref) (b' : Backend α)
    (h : heap[o]? = some b') : (heap ++ [b])[o]? = some b' := by
  rw [List.getElem?_append_left (List.getElem?_eq_some_iff.mp h).1]
  exact h

theorem rel_of_heap {heap heap' : List (Backend α)}
    (hheap : ∀ (o : Ref) (b : Backend α), heap[o]? = some b → heap'[o]? = some b) {ho : Option Ref}
    {hb : Option (Backend α)} (h : Option.Rel (fun o b => heap[o]? = some b) ho hb) :
    Option.Rel (fun o b => heap'[o]? = some b) ho hb := by
  cases h with
  | none => exact .none
  | some h => exact .some (hheap _ _ h)

theorem Represents.moved {p : ProviderImpl α} (hm : Moved c c' i ph)
    (hreg : c'.mBackends = c.mBackends)
    (h : Represents c p) : Represents c' p where
  token := hm.token.trans h.token
  registry id := by
    rw [hreg]
    exact rel_of_heap hm.heap (h.registry id)

theorem stands_of_moved (h : Simulates env reqs p₀ c order) (hm : Moved c c' i ph)
    (hord : order' = order ∨ order' = order ++ [i]) (hi : Stands env reqs p₀ c' order' i ph)
    (j : ι) :
    Stands env reqs p₀ c' order' j (c'.phase j) := by
  rw [hm.phase]
  by_cases hj : j = i
  · subst hj
    rw [Function.update_self]
    exact hi
  · rw [Function.update_of_ne hj]
    exact (h.stands j).moved hm hord hj

theorem Simulates.quiet (h : Simulates env reqs p₀ c order) (hm : Moved c c' i ph)
    (hhist : c'.history = c.history) (hreg : c'.mBackends = c.mBackends)
    (hi : Stands env reqs p₀ c' order i ph) : Simulates env reqs p₀ c' order where
  linearizes := hhist ▸ h.linearizes
  represents := h.represents.moved hm hreg
  stands := stands_of_moved h hm (Or.inl rfl) hi

/-- The step in which the request takes effect, if the pool then represents the provider its handler
leaves and its thread is on the way to its outcome. -/
theorem Simulates.effect (h : Simulates env reqs p₀ c order) (hi : i ∉ order)
    (hinv : .invoke i ∈ c.history) (hm : Moved c c' i ph) (hhist : c'.history = c.history)
    {p' : ProviderImpl α} (out : Outcome)
    (hat : atOnce env reqs (seqState (atOnce env reqs) p₀ order) i = (p', out))
    (hrep : Represents c' p')
    (hph : ph = .replying out ∨ ∃ o b, ph = .found o ∧ c'.heap[o]? = some b ∧
      out = (callBackend env (reqs i) b.derived).1) :
    Simulates env reqs p₀ c' (order ++ [i]) where
  linearizes := hhist ▸ h.linearizes.effect hi hinv
  represents := by rw [seqState_concat, hat]; exact hrep
  stands := by
    have hans : (i, out) ∈ seqAnswers (atOnce env reqs) p₀ (order ++ [i]) := by
      rw [seqAnswers_concat, hat]
      simp
    refine stands_of_moved h hm (Or.inr rfl) ?_
    rcases hph with rfl | ⟨o, b, rfl, hb, rfl⟩
    · exact hans
    · exact ⟨b, hb, hans⟩

/-! ### The registry on both sides -/

omit [DecidableEq ι] in
theorem Represents.known {p : ProviderImpl α} (h : Represents c p) {id : UUID} {o : Ref}
    (ho : c.mBackends.lookup id = some o) :
    ∃ b, c.heap[o]? = some b ∧ p.mBackends.lookup id = some b := by
  have hid := h.registry id
  rw [ho] at hid
  rcases hl : p.mBackends.lookup id with _ | b
  · rw [hl] at hid
    exact absurd hid Option.not_rel_some_none
  · rw [hl] at hid
    exact ⟨b, by simpa using hid, rfl⟩

omit [DecidableEq ι] in
theorem Represents.unknown {p : ProviderImpl α} (h : Represents c p) {id : UUID}
    (ho : c.mBackends.lookup id = none) : p.mBackends.lookup id = none := by
  have hid := h.registry id
  rw [ho] at hid
  rcases hl : p.mBackends.lookup id with _ | b
  · rfl
  · rw [hl] at hid
    exact absurd hid Option.not_rel_none_some

theorem Represents.insert {p : ProviderImpl α} (h : Represents c p) (hm : Moved c c' i ph)
    {id : UUID} {o : Ref} {b : Backend α} (hb : c.heap[o]? = some b)
    (hreg : c'.mBackends = c.mBackends.insert id o) :
    Represents c' { p with mBackends := p.mBackends.insert id b } where
  token := hm.token.trans h.token
  registry id' := by
    show Option.Rel _ (c'.mBackends.lookup id') ((p.mBackends.insert id b).lookup id')
    rw [hreg]
    by_cases hid : id' = id
    · subst hid
      rw [Finmap.lookup_insert, Finmap.lookup_insert]
      exact Option.rel_some_some.mpr (hm.heap o b hb)
    · rw [Finmap.lookup_insert_of_ne _ hid, Finmap.lookup_insert_of_ne _ hid]
      exact rel_of_heap hm.heap (h.registry id')

theorem Represents.erase {p : ProviderImpl α} (h : Represents c p) (hm : Moved c c' i ph)
    {id : UUID} (hreg : c'.mBackends = c.mBackends.erase id) :
    Represents c' { p with mBackends := p.mBackends.erase id } where
  token := hm.token.trans h.token
  registry id' := by
    show Option.Rel _ (c'.mBackends.lookup id') ((p.mBackends.erase id).lookup id')
    rw [hreg]
    by_cases hid : id' = id
    · subst hid
      rw [Finmap.lookup_erase, Finmap.lookup_erase]
      exact .none
    · rw [Finmap.lookup_erase_ne hid, Finmap.lookup_erase_ne hid]
      exact rel_of_heap hm.heap (h.registry id')

theorem heap_set_self {heap : List (Backend α)} {o : Ref} {b : Backend α} (hb : heap[o]? = some b)
    {d : α} (hd : d = b.derived) : heap.set o { b with derived := d } = heap := by
  subst hd
  obtain ⟨ho, rfl⟩ := List.getElem?_eq_some_iff.mp hb
  exact List.set_getElem_self ho

/-! ### One step -/

/-- A thread that is refused or fails before the lock takes effect there. -/
theorem Simulates.refused (h : Simulates env reqs p₀ c order) (hi : i ∉ order)
    (hinv : .invoke i ∈ c.history) (out : Outcome)
    (hserve : serve env (seqState (atOnce env reqs) p₀ order) (reqs i) =
      ⟨seqState (atOnce env reqs) p₀ order, out.1, out.2⟩) :
    Simulates env reqs p₀ (c.goto i (.replying out)) (order ++ [i]) :=
  h.effect hi hinv (moved_goto c i _) rfl out (atOnce_of_serve out hserve)
    (h.represents.moved (moved_goto c i _) rfl) (Or.inl rfl)

theorem Simulates.build (h : Simulates env reqs p₀ c order) (hi : i ∉ order)
    (hinv : .invoke i ∈ c.history) {x : Prepared α}
    (hx : preparation env c.mToken (reqs i) = some x) (id : UUID)
    (hserve : serve env (seqState (atOnce env reqs) p₀ order) (reqs i) =
      finish (seqState (atOnce env reqs) p₀ order) id x) :
    ∃ order', Simulates env reqs p₀ (c.build i x) order' := by
  cases x with
  | refused error => exact ⟨_, h.refused hi hinv ([failed error], .returns ()) hserve⟩
  | escaped exit => exact ⟨_, h.refused hi hinv ([], exit) hserve⟩
  | built b =>
    have hm : Moved c (c.build i (.built b)) i (.built c.heap.length) :=
      ⟨rfl, rfl, fun _ h => h, heap_append b⟩
    refine ⟨order, h.quiet hm rfl rfl ⟨hi, hinv, b, ?_, hx⟩⟩
    show (c.heap ++ [b])[c.heap.length]? = some b
    simp

theorem Simulates.prologue (h : Simulates env reqs p₀ c order) (hi : i ∉ order)
    (hinv : .invoke i ∈ c.history) :
    ∃ order', Simulates env reqs p₀ (c.prologue env i (reqs i)) order' := by
  have htok := h.represents.token
  have hready : (∀ token, tokenOf (reqs i) = some token → ¬ Rejects c.mToken token) →
      Simulates env reqs p₀ (c.goto i .ready) order := fun ht =>
    h.quiet (moved_goto c i _) rfl rfl ⟨hi, hinv, ht⟩
  have hguard : ∀ token, tokenOf (reqs i) = some token →
      denial (reqs i) = .bool ⟨false, "Invalid security token"⟩ →
        ∃ order', Simulates env reqs p₀ (if Rejects c.mToken token then
          c.goto i (.replying ([.bool ⟨false, "Invalid security token"⟩], .returns ()))
        else c.goto i .ready) order' := by
    intro token ht hden
    split_ifs with hr
    · refine ⟨_, h.refused hi hinv ([.bool ⟨false, "Invalid security token"⟩], .returns ()) ?_⟩
      rw [htok] at hr
      rw [serve_rejected ht hr, hden]
      rfl
    · refine ⟨order, hready fun token' ht' => ?_⟩
      obtain rfl : token = token' := Option.some.inj (ht.symm.trans ht')
      exact hr
  cases hreq : reqs i with
  | createPhonebook token ty config id =>
    refine h.build hi hinv (by rw [hreq]; rfl) id ?_
    rw [hreq, serve, createPhonebookRPC_eq, ← htok]
  | openPhonebook token ty config id =>
    refine h.build hi hinv (by rw [hreq]; rfl) id ?_
    rw [hreq, serve, openPhonebookRPC_eq, ← htok]
  | closePhonebook token id => exact hguard token (by rw [hreq]; rfl) (by rw [hreq]; rfl)
  | destroyPhonebook token id => exact hguard token (by rw [hreq]; rfl) (by rw [hreq]; rfl)
  | checkPhonebook | sayHello | computeSum =>
    exact ⟨order, hready (by rw [hreq]; rintro token ht; cases ht)⟩

theorem Simulates.insert (h : Simulates env reqs p₀ c order) (hi : i ∉ order)
    (hinv : .invoke i ∈ c.history) {o : Ref} {b : Backend α} (hb : c.heap[o]? = some b)
    (hpre : preparation env c.mToken (reqs i) = some (.built b)) :
    ∃ order', Simulates env reqs p₀ (c.insert i o (reqs i)) order' := by
  have htok := h.represents.token
  have hins : ∀ id, serve env (seqState (atOnce env reqs) p₀ order) (reqs i) =
      finish (seqState (atOnce env reqs) p₀ order) id (.built b) →
        ∃ order', Simulates env reqs p₀
          { c.goto i (.replying ([added id], .returns ())) with
            mBackends := c.mBackends.insert id o, log := c.log ++ [.insert i o] } order' :=
    fun id hserve => by
      have hm := moved_section c i (.replying ([added id], .returns ())) (c.mBackends.insert id o)
        (c.log ++ [.insert i o])
      exact ⟨_, h.effect hi hinv hm rfl ([added id], .returns ())
        (atOnce_of_serve ([added id], .returns ()) hserve)
        (h.represents.insert hm hb rfl) (Or.inl rfl)⟩
  cases hreq : reqs i with
  | createPhonebook token ty config id =>
    rw [hreq] at hpre
    refine hins id ?_
    rw [hreq, serve, createPhonebookRPC_eq, ← htok, Option.some.inj hpre]
  | openPhonebook token ty config id =>
    rw [hreq] at hpre
    refine hins id ?_
    rw [hreq, serve, openPhonebookRPC_eq, ← htok, Option.some.inj hpre]
  | closePhonebook | destroyPhonebook | checkPhonebook | sayHello | computeSum =>
    rw [hreq] at hpre
    cases hpre

theorem Simulates.close (h : Simulates env reqs p₀ c order) (hi : i ∉ order)
    (hinv : .invoke i ∈ c.history) {token : String} {id : UUID}
    (hreq : reqs i = .closePhonebook token id) (hr : ¬ Rejects c.mToken token) :
    ∃ order', Simulates env reqs p₀ (c.close env i id) order' := by
  rw [h.represents.token] at hr
  rcases hl : c.mBackends.lookup id with _ | o
  · have hunknown := Finmap.lookup_eq_none.mp (h.represents.unknown hl)
    rw [Pool.close_unknown env hl]
    refine ⟨_, h.refused hi hinv _ ?_⟩
    rw [hreq, serve, closePhonebookRPC_unknown hr hunknown]
    rfl
  · obtain ⟨b, -, hb⟩ := h.represents.known hl
    have hid := Finmap.mem_of_lookup_eq_some hb
    rw [Pool.close_known env hl]
    have hm := moved_section c i (.replying ([.bool .init], .returns ())) (c.mBackends.erase id)
      (c.log ++ [.erase i o])
    refine ⟨_, h.effect hi hinv hm rfl ([.bool .init], .returns ()) ?_
      (h.represents.erase hm rfl) (Or.inl rfl)⟩
    rw [atOnce, hreq, serve, closePhonebookRPC_known hr hid]
    rfl

theorem Simulates.destroy (hs : env.ops.Stateless) (h : Simulates env reqs p₀ c order)
    (hi : i ∉ order) (hinv : .invoke i ∈ c.history) {token : String} {id : UUID}
    (hreq : reqs i = .destroyPhonebook token id) (hr : ¬ Rejects c.mToken token) :
    ∃ order', Simulates env reqs p₀ (c.destroy env i id) order' := by
  rw [h.represents.token] at hr
  rcases hl : c.mBackends.lookup id with _ | o
  · rw [Pool.destroy_unknown env hl]
    refine ⟨_, h.refused hi hinv _ ?_⟩
    rw [hreq, serve, destroyPhonebookRPC_unknown hr (h.represents.unknown hl)]
    rfl
  obtain ⟨b, hb, hlb⟩ := h.represents.known hl
  have hst := hs.destroy b.derived
  rcases hd : env.ops.destroy b.derived with ⟨result | e | _, d⟩ <;> rw [hd] at hst
  · have hm := moved_section c i (.replying ([.bool result], .returns ())) (c.mBackends.erase id)
      (c.log ++ [.destroy i o true])
    rw [Pool.destroy_returned env hl hb hd, heap_set_self hb hst]
    refine ⟨_, h.effect hi hinv hm rfl ([.bool result], .returns ()) ?_
      (h.represents.erase hm rfl) (Or.inl rfl)⟩
    rw [atOnce, hreq, serve, destroyPhonebookRPC_reported hr hlb hd]
    rfl
  · have hm := moved_section c i (.replying ([], .throws e)) c.mBackends
      (c.log ++ [.destroy i o false])
    rw [Pool.destroy_threw env hl hb hd, heap_set_self hb hst]
    refine ⟨_, h.effect hi hinv hm rfl ([], .throws e) ?_ (h.represents.moved hm rfl) (Or.inl rfl)⟩
    rw [atOnce, hreq, serve, destroyPhonebookRPC_threw hr hlb hd, insert_of_lookup hlb hst]
    rfl
  · have hm := moved_section c i (.replying ([], .undefined)) c.mBackends
      (c.log ++ [.destroy i o false])
    rw [Pool.destroy_undefined env hl hb hd, heap_set_self hb hst]
    refine ⟨_, h.effect hi hinv hm rfl ([], .undefined) ?_ (h.represents.moved hm rfl) (Or.inl rfl)⟩
    rw [atOnce, hreq, serve, destroyPhonebookRPC_undefined hr hlb hd]
    rfl

/-- The section in `FIND_PHONEBOOK`, for a handler that sends `send` for an unknown id and goes on
as `next` with the object of a known one. -/
theorem Simulates.find (h : Simulates env reqs p₀ c order) (hi : i ∉ order)
    (hinv : .invoke i ∈ c.history) {id : UUID} {send : String → Response} {next : Ref → Phase}
    (hunknown : (seqState (atOnce env reqs) p₀ order).mBackends.lookup id = none →
      serve env (seqState (atOnce env reqs) p₀ order) (reqs i) =
        respond (seqState (atOnce env reqs) p₀ order)
        (send ("Phonebook with UUID " ++ env.uuidUnparse id ++ " not found")))
    (hknown : ∀ o b, (seqState (atOnce env reqs) p₀ order).mBackends.lookup id = some b → ∃ out,
      atOnce env reqs (seqState (atOnce env reqs) p₀ order) i =
        (seqState (atOnce env reqs) p₀ order, out) ∧
        (next o = .replying out ∨
          next o = .found o ∧ out = (callBackend env (reqs i) b.derived).1)) :
    ∃ order', Simulates env reqs p₀ (c.find env i id send next) order' := by
  rcases hl : c.mBackends.lookup id with _ | o
  · rw [Pool.find_unknown env hl]
    exact ⟨_, h.refused hi hinv _ (hunknown (h.represents.unknown hl))⟩
  · obtain ⟨b, hb, hlb⟩ := h.represents.known hl
    obtain ⟨out, hat, hnext⟩ := hknown o b hlb
    have hm := moved_section c i (next o) c.mBackends (c.log ++ [.lookup i o])
    rw [Pool.find_known env hl]
    refine ⟨_, h.effect hi hinv hm rfl out hat (h.represents.moved hm rfl) ?_⟩
    exact hnext.imp_right fun hf => ⟨o, b, hf.1, hb, hf.2⟩

theorem Simulates.lockedSection (hs : env.ops.Stateless) (h : Simulates env reqs p₀ c order)
    (hi : i ∉ order) (hinv : .invoke i ∈ c.history)
    (ht : ∀ token, tokenOf (reqs i) = some token → ¬ Rejects c.mToken token) :
    ∃ order', Simulates env reqs p₀ (c.lockedSection env i (reqs i)) order' := by
  cases hreq : reqs i with
  | createPhonebook | openPhonebook => exact ⟨order, h⟩
  | closePhonebook token id => exact h.close hi hinv hreq (ht token (by rw [hreq]; rfl))
  | destroyPhonebook token id => exact h.destroy hs hi hinv hreq (ht token (by rw [hreq]; rfl))
  | checkPhonebook id =>
    rw [Pool.lockedSection]
    refine h.find hi hinv (fun hl => ?_) fun o b hl => ⟨([.bool .init], .returns ()), ?_,
      Or.inl rfl⟩
    · rw [hreq, serve, checkPhonebookRPC_unknown hl]
    · rw [atOnce, hreq, serve, checkPhonebookRPC_known hl]
      rfl
  | sayHello id =>
    rw [Pool.lockedSection]
    refine h.find hi hinv (fun hl => ?_) fun o b hl => ⟨_, ?_, Or.inr ⟨rfl, rfl⟩⟩
    · rw [hreq, serve, sayHelloRPC_unknown hl]
    · rw [atOnce, hreq, serve, sayHelloRPC_known hl, insert_of_lookup hl (hs.sayHello b.derived)]
      rfl
  | computeSum id x y =>
    rw [Pool.lockedSection]
    refine h.find hi hinv (fun hl => ?_) fun o b hl => ⟨_, ?_, Or.inr ⟨rfl, rfl⟩⟩
    · rw [hreq, serve, computeSumRPC_unknown hl]
      rfl
    · rw [atOnce, hreq, serve]
      have hst := hs.computeSum b.derived x y
      rcases hc : env.ops.computeSum b.derived x y with ⟨res | e | _, d⟩ <;> rw [hc] at hst
      · rw [computeSumRPC_returned env hl hc, insert_of_lookup hl hst]
        simp only [callBackend, hc, respond]
      · rw [computeSumRPC_threw hl hc, insert_of_lookup hl hst]
        simp only [callBackend, hc, escape]
      · rw [computeSumRPC_undefined hl hc]
        simp only [callBackend, hc, escape]

omit [DecidableEq ι] in
theorem callBackend_object (hs : env.ops.Stateless) (r : Request) (a : α) :
    (callBackend env r a).2 = a := by
  unfold callBackend
  split
  · exact hs.sayHello a
  · next id x y =>
    have hst := hs.computeSum a x y
    split
    all_goals
      next heq =>
        rw [heq] at hst
        exact hst
  · rfl

theorem Simulates.call (hs : env.ops.Stateless) (h : Simulates env reqs p₀ c order) {o : Ref}
    {b : Backend α} (hb : c.heap[o]? = some b)
    (hout : (i, (callBackend env (reqs i) b.derived).1) ∈ seqAnswers (atOnce env reqs) p₀ order) :
    Simulates env reqs p₀ (c.call env i o (reqs i)) order := by
  unfold Pool.call
  rw [hb]
  dsimp only
  rw [heap_set_self hb (callBackend_object hs (reqs i) b.derived)]
  have hm := moved_section c i (.replying (callBackend env (reqs i) b.derived).1) c.mBackends
    (c.log ++ [.call i o])
  exact h.quiet hm rfl rfl hout

theorem Simulates.receive (h : Simulates env reqs p₀ c order) (hi : i ∉ order) :
    Simulates env reqs p₀ (c.receive i) order := by
  have hm : Moved c (c.receive i) i .received :=
    ⟨rfl, rfl, fun _ h => List.mem_append_left _ h, fun _ _ h => h⟩
  have hinv : .invoke i ∈ (c.receive i).history :=
    List.mem_append_right _ (List.mem_singleton.mpr rfl)
  exact ⟨h.linearizes.invoke hi, h.represents.moved hm rfl,
    stands_of_moved h hm (Or.inl rfl) ⟨hi, hinv⟩⟩

theorem Simulates.answer (h : Simulates env reqs p₀ c order) {out : Outcome}
    (hout : (i, out) ∈ seqAnswers (atOnce env reqs) p₀ order) :
    Simulates env reqs p₀ (c.answer i out) order := by
  have hm : Moved c (c.answer i out) i (.answered out) :=
    ⟨rfl, rfl, fun _ h => List.mem_append_left _ h, fun _ _ h => h⟩
  exact ⟨h.linearizes.answer hout, h.represents.moved hm rfl,
    stands_of_moved h hm (Or.inl rfl) hout⟩

/-- **One step** of any thread, matched by the order. -/
theorem Simulates.step (hs : env.ops.Stateless) (h : Simulates env reqs p₀ c order) (i : ι) :
    ∃ order', Simulates env reqs p₀ (c.step env i reqs) order' := by
  have hst := h.stands i
  unfold Pool.step
  cases hph : c.phase i with
  | idle =>
    rw [hph] at hst
    exact ⟨order, h.receive hst⟩
  | received =>
    rw [hph] at hst
    exact h.prologue hst.1 hst.2
  | ready =>
    rw [hph] at hst
    exact h.lockedSection hs hst.1 hst.2.1 hst.2.2
  | built o =>
    rw [hph] at hst
    obtain ⟨hi, hinv, b, hb, hpre⟩ := hst
    exact h.insert hi hinv hb hpre
  | found o =>
    rw [hph] at hst
    obtain ⟨b, hb, hout⟩ := hst
    exact ⟨order, h.call hs hb hout⟩
  | replying out =>
    rw [hph] at hst
    exact ⟨order, h.answer hst⟩
  | answered out => exact ⟨order, h⟩

omit [DecidableEq ι] in
theorem simulates_start {mToken : String} {s : Store α}
    (h : Represents (.start mToken s : Pool ι α) p₀) :
    Simulates env reqs p₀ (.start mToken s) [] := ⟨.nil, h, fun _ => List.not_mem_nil⟩

/-- **The handlers are linearizable.** Under any schedule of any requests there is an order of them
that linearizes the history and leads a provider serving one request after the other to the same
registry; once every request received is answered, it is an order of all of them. -/
theorem handlers_linearizable (env : Env α) (reqs : ι → Request) (p₀ : ProviderImpl α)
    (hs : env.ops.Stateless) (mToken : String) (s : Store α)
    (hp : Represents (.start mToken s : Pool ι α) p₀) (schedule : List ι) :
    ∃ order,
      Linearizes (atOnce env reqs) p₀ (run env reqs (.start mToken s) schedule).history order ∧
      Represents (run env reqs (.start mToken s) schedule) (seqState (atOnce env reqs) p₀ order) ∧
      ((∀ i, .invoke i ∈ (run env reqs (.start mToken s) schedule).history →
          ∃ out, .answer i out ∈ (run env reqs (.start mToken s) schedule).history) →
        ∀ i, i ∈ order ↔ .invoke i ∈ (run env reqs (.start mToken s) schedule).history) := by
  obtain ⟨order, h⟩ :
    ∃ order, Simulates env reqs p₀ (run env reqs (.start mToken s) schedule) order :=
    exec_induction (fun c i => Pool.step env c i reqs) (P := fun c => ∃ order,
      Simulates env reqs p₀ c order)
      ⟨[], simulates_start hp⟩ (fun c i ⟨order, h⟩ => h.step hs i) schedule
  exact ⟨order, h.linearizes, h.represents, fun hall i => h.linearizes.mem_iff hall⟩

/-- Requests of two threads: one creates a phonebook, the other computes a sum on it. -/
def createAndSum : Bool → Request
  | false => .createPhonebook "" "dummy" "\x7b\x7d" .clear
  | true => .computeSum .clear 20 22

theorem handlers_linearizable_createAndSum :
    let env := DummyPhonebook.env .sample uuidUnparse
    let c := run env createAndSum (.start "" .empty)
      [false, true, false, true, false, true, true, false, true]
    ∃ order, Linearizes (atOnce env createAndSum) ⟨"", ∅⟩ c.history order ∧ (∀ i, i ∈ order) ∧
      (true, ([.int32 ⟨true, "", some 42⟩], .returns ())) ∈
        seqAnswers (atOnce env createAndSum) ⟨"", ∅⟩ order := by
  intro env c
  have hcreate : .answer false ([added .clear], .returns ()) ∈ c.history := by decide
  have hsum : .answer true ([.int32 ⟨true, "", some 42⟩], .returns ()) ∈ c.history := by decide
  obtain ⟨order, hlin, -, hall⟩ :=
    handlers_linearizable (DummyPhonebook.env .sample uuidUnparse) createAndSum ⟨"", ∅⟩
    (DummyPhonebook.ops_stateless .sample) "" .empty ⟨rfl, fun id => .none⟩
    [false, true, false, true, false, true, true, false, true]
  refine ⟨order, hlin, fun i => (hall ?_ i).mpr ?_, hlin.answered true _ hsum⟩
  · rintro (_ | _) -
    exacts [⟨_, hcreate⟩, ⟨_, hsum⟩]
  · rcases i with _ | _ <;> decide

end Phonebook.Server.Linearization
