import Phonebook.Lib.Linearizability
import Phonebook.Server.Handlers

/-! # Handlers as threads

Every request is handled by a user-level thread of its own, and between two of its steps the others
may run. A thread receives the request, prepares (token, configuration, factory), runs one section
under `m_backends_mtx`, calls the backend it found if there is one to call, with the lock released,
and responds. The registry holds shared pointers, so a thread that looked one up keeps the object
whatever becomes of the entry. -/

namespace Phonebook.Server.Threads

open Phonebook.Data.Values Phonebook.Server.Backends Phonebook.Server.Provider
open Phonebook.Server.Handlers Phonebook.Lib.Linearizability Phonebook.Lib.Runs

/-- A `std::shared_ptr<Backend>`: the number of the object in the order of allocation. -/
abbrev Ref := ℕ

/-- What a handler did for its client: the responses it sent and the way it ended. -/
abbrev Outcome := List Response × Cpp Unit

/-- Where a thread stands. -/
inductive Phase where
  | idle
  | received
  /-- before the lock, with the backend a create or open made -/
  | built (o : Ref)
  /-- before the lock -/
  | ready
  /-- after the lock, with the shared pointer it copied -/
  | found (o : Ref)
  | replying (out : Outcome)
  | answered (out : Outcome)

/-- What a thread does to the registry or to an object. -/
inductive Act (ι : Type) where
  | insert (i : ι) (o : Ref)
  | lookup (i : ι) (o : Ref)
  | erase (i : ι) (o : Ref)
  | destroy (i : ι) (o : Ref) (returned : Bool)
  | call (i : ι) (o : Ref)
deriving DecidableEq

/-- The registry and the objects its entries point to: entries point to allocated objects, and no
two to the same one, each having been moved in from a `unique_ptr`. -/
structure Store (α : Type) where
  mBackends : Finmap fun _ : UUID => Ref
  heap : List (Backend α)
  allocated : ∀ id o, mBackends.lookup id = some o → o < heap.length
  owned : ∀ id id' o, mBackends.lookup id = some o → mBackends.lookup id' = some o → id = id'

/-- The store of an empty registry. -/
def Store.empty {α : Type} : Store α := ⟨∅, [], by simp, by simp⟩

/-- The store with one more object, under the id. -/
def Store.insert {α : Type} (s : Store α) (id : UUID) (b : Backend α) : Store α where
  mBackends := s.mBackends.insert id s.heap.length
  heap := s.heap ++ [b]
  allocated id' o h := by
    rw [List.length_append, List.length_singleton]
    by_cases hid : id' = id
    · rw [hid, Finmap.lookup_insert] at h
      rw [← Option.some.inj h]
      exact Nat.lt_succ_self _
    · rw [Finmap.lookup_insert_of_ne _ hid] at h
      exact Nat.lt_succ_of_lt (s.allocated id' o h)
  owned id₁ id₂ o h₁ h₂ := by
    have hnew : ∀ id', id' ≠ id → s.mBackends.lookup id' ≠ some s.heap.length := fun id' _ h =>
      absurd (s.allocated id' _ h) (lt_irrefl _)
    by_cases hid₁ : id₁ = id <;> by_cases hid₂ : id₂ = id
    · rw [hid₁, hid₂]
    · rw [hid₁, Finmap.lookup_insert] at h₁
      rw [Finmap.lookup_insert_of_ne _ hid₂, ← h₁] at h₂
      exact absurd h₂ (hnew id₂ hid₂)
    · rw [hid₂, Finmap.lookup_insert] at h₂
      rw [Finmap.lookup_insert_of_ne _ hid₁, ← h₂] at h₁
      exact absurd h₁ (hnew id₁ hid₁)
    · rw [Finmap.lookup_insert_of_ne _ hid₁] at h₁
      rw [Finmap.lookup_insert_of_ne _ hid₂] at h₂
      exact s.owned id₁ id₂ o h₁ h₂

/-- The call a thread makes on the object it found: the outcome of its handler and the object the
call leaves. -/
def callBackend {α : Type} (env : Env α) : Request → α → Outcome × α
  | .sayHello _, a => (([], (env.ops.sayHello a).1), (env.ops.sayHello a).2)
  | .computeSum _ x y, a =>
    match env.ops.computeSum a x y with
    | (.returns result, d) => (([.int32 result], .returns ()), d)
    | (.throws e, d) => (([], .throws e), d)
    | (.undefined, d) => (([], .undefined), d)
  | _, a => (([], .returns ()), a)

/-- A provider with the threads that serve its requests. -/
structure Pool (ι α : Type) where
  mToken : String
  mBackends : Finmap fun _ : UUID => Ref
  heap : List (Backend α)
  phase : ι → Phase
  history : List (Event ι Outcome)
  log : List (Act ι)

variable {ι α : Type} [DecidableEq ι] (env : Env α)

namespace Pool

/-- Before anything was received. -/
def start (mToken : String) (s : Store α) : Pool ι α :=
  ⟨mToken, s.mBackends, s.heap, fun _ => .idle, [], []⟩

variable (c : Pool ι α) (i : ι)

/-- The thread of `i` goes on to another phase. -/
def goto (ph : Phase) : Pool ι α := { c with phase := Function.update c.phase i ph }

/-- The request arrives. -/
def receive : Pool ι α := { c.goto i .received with history := c.history ++ [.invoke i] }

/-- The responses are sent. -/
def answer (out : Outcome) : Pool ι α :=
  { c.goto i (.answered out) with history := c.history ++ [.answer i out] }

/-- What a create or open goes on to. -/
def build : Prepared α → Pool ι α
  | .refused error => c.goto i (.replying ([failed error], .returns ()))
  | .escaped exit => c.goto i (.replying ([], exit))
  | .built b => { c.goto i (.built c.heap.length) with heap := c.heap ++ [b] }

/-- The part of the handler before the lock. -/
def prologue : Request → Pool ι α
  | .createPhonebook token ty config _ =>
    c.build i (prepare env c.mToken token ty config (env.factory.createPhonebook ty))
  | .openPhonebook token ty config _ =>
    c.build i (prepare env c.mToken token ty config (env.factory.openPhonebook ty))
  | .closePhonebook token _ | .destroyPhonebook token _ =>
    if Rejects c.mToken token then
      c.goto i (.replying ([.bool ⟨false, "Invalid security token"⟩], .returns ()))
    else c.goto i .ready
  | .checkPhonebook _ | .sayHello _ | .computeSum _ _ _ => c.goto i .ready

/-- The section of create and open: `m_backends[phonebook_id] = std::move(backend)`. -/
def insert (o : Ref) : Request → Pool ι α
  | .createPhonebook _ _ _ id | .openPhonebook _ _ _ id =>
    { c.goto i (.replying ([added id], .returns ())) with
      mBackends := c.mBackends.insert id o, log := c.log ++ [.insert i o] }
  | _ => c

/-- The section of close: `count` and `erase`. -/
def close (id : UUID) : Pool ι α :=
  match c.mBackends.lookup id with
  | none =>
    c.goto i (.replying
      ([.bool ⟨false, "Phonebook " ++ env.uuidUnparse id ++ " not found"⟩], .returns ()))
  | some o =>
    { c.goto i (.replying ([.bool .init], .returns ())) with
      mBackends := c.mBackends.erase id, log := c.log ++ [.erase i o] }

/-- The section of destroy: `count`, `destroy` and `erase`, the last of which an exception skips. -/
def destroy (id : UUID) : Pool ι α :=
  match c.mBackends.lookup id with
  | none =>
    c.goto i (.replying
      ([.bool ⟨false, "Phonebook " ++ env.uuidUnparse id ++ " not found"⟩], .returns ()))
  | some o =>
    match c.heap[o]? with
    | none => c
    | some b =>
      match env.ops.destroy b.derived with
      | (.returns result, d) =>
        { c.goto i (.replying ([.bool result], .returns ())) with
          mBackends := c.mBackends.erase id
          heap := c.heap.set o { b with derived := d }
          log := c.log ++ [.destroy i o true] }
      | (.throws e, d) =>
        { c.goto i (.replying ([], .throws e)) with
          heap := c.heap.set o { b with derived := d }, log := c.log ++ [.destroy i o false] }
      | (.undefined, d) =>
        { c.goto i (.replying ([], .undefined)) with
          heap := c.heap.set o { b with derived := d }, log := c.log ++ [.destroy i o false] }

/-- The section in `FIND_PHONEBOOK`: the shared pointer is copied out of the map. -/
def find (id : UUID) (send : String → Response) (next : Ref → Phase) : Pool ι α :=
  match c.mBackends.lookup id with
  | none =>
    c.goto i (.replying
      ([send ("Phonebook with UUID " ++ env.uuidUnparse id ++ " not found")], .returns ()))
  | some o => { c.goto i (next o) with log := c.log ++ [.lookup i o] }

/-- The section under the lock, for the handlers that bring no backend to it. -/
def lockedSection : Request → Pool ι α
  | .closePhonebook _ id => c.close env i id
  | .destroyPhonebook _ id => c.destroy env i id
  | .checkPhonebook id =>
    c.find env i id (fun e => .bool ⟨false, e⟩) fun _ => .replying ([.bool .init], .returns ())
  | .sayHello id => c.find env i id (fun e => .bool ⟨false, e⟩) .found
  | .computeSum id _ _ =>
    c.find env i id
      (fun e => .int32 { RequestResult.init with success := false, error := e }) .found
  | .createPhonebook .. | .openPhonebook .. => c

/-- The call on the object the thread holds. -/
def call (o : Ref) (r : Request) : Pool ι α :=
  match c.heap[o]? with
  | none => c
  | some b =>
    { c.goto i (.replying (callBackend env r b.derived).1) with
      heap := c.heap.set o { b with derived := (callBackend env r b.derived).2 }
      log := c.log ++ [.call i o] }

section Equations
variable {c} {i} {id : UUID} {o : Ref}

theorem close_unknown (hl : c.mBackends.lookup id = none) :
    c.close env i id = c.goto i (.replying
      ([.bool ⟨false, "Phonebook " ++ env.uuidUnparse id ++ " not found"⟩], .returns ())) := by
  rw [close, hl]

theorem close_known (hl : c.mBackends.lookup id = some o) :
    c.close env i id =
      { c.goto i (.replying ([.bool .init], .returns ())) with
        mBackends := c.mBackends.erase id, log := c.log ++ [.erase i o] } := by
  rw [close, hl]

theorem destroy_unknown (hl : c.mBackends.lookup id = none) :
    c.destroy env i id = c.goto i (.replying
      ([.bool ⟨false, "Phonebook " ++ env.uuidUnparse id ++ " not found"⟩], .returns ())) := by
  rw [destroy, hl]

section Known
variable {b : Backend α} {d : α} (hl : c.mBackends.lookup id = some o) (hb : c.heap[o]? = some b)
include hl hb

theorem destroy_returned {result : RequestResultBool}
    (hd : env.ops.destroy b.derived = (.returns result, d)) :
    c.destroy env i id =
      { c.goto i (.replying ([.bool result], .returns ())) with
        mBackends := c.mBackends.erase id
        heap := c.heap.set o { b with derived := d }
        log := c.log ++ [.destroy i o true] } := by
  simp only [destroy, hl, hb, hd]

theorem destroy_threw {e : Exn} (hd : env.ops.destroy b.derived = (.throws e, d)) :
    c.destroy env i id =
      { c.goto i (.replying ([], .throws e)) with
        heap := c.heap.set o { b with derived := d }, log := c.log ++ [.destroy i o false] } := by
  simp only [destroy, hl, hb, hd]

theorem destroy_undefined (hd : env.ops.destroy b.derived = (.undefined, d)) :
    c.destroy env i id =
      { c.goto i (.replying ([], .undefined)) with
        heap := c.heap.set o { b with derived := d }, log := c.log ++ [.destroy i o false] } := by
  simp only [destroy, hl, hb, hd]

end Known

theorem find_unknown {send : String → Response} {next : Ref → Phase}
    (hl : c.mBackends.lookup id = none) :
    c.find env i id send next = c.goto i (.replying
      ([send ("Phonebook with UUID " ++ env.uuidUnparse id ++ " not found")], .returns ())) := by
  rw [find, hl]

theorem find_known {send : String → Response} {next : Ref → Phase}
    (hl : c.mBackends.lookup id = some o) :
    c.find env i id send next = { c.goto i (next o) with log := c.log ++ [.lookup i o] } := by
  rw [find, hl]

end Equations

/-- One step of the thread of `i`. -/
def step (reqs : ι → Request) : Pool ι α :=
  match c.phase i with
  | .idle => c.receive i
  | .received => c.prologue env i (reqs i)
  | .built o => c.insert i o (reqs i)
  | .ready => c.lockedSection env i (reqs i)
  | .found o => c.call env i o (reqs i)
  | .replying out => c.answer i out
  | .answered _ => c

end Pool

/-- The threads after the steps of a schedule. -/
def run (reqs : ι → Request) (c : Pool ι α) (schedule : List ι) : Pool ι α :=
  exec (fun c i => c.step env i reqs) c schedule

end Phonebook.Server.Threads
