import Phonebook.Client.Network
import Phonebook.Lib.Overlap
import Phonebook.Server.Calls

/-! # Calls of backends that overlap

A handler calls its backend after the lock was released, so another may call the same backend before
the call is over, and what one of them writes may be lost to the other. The network goes on as long
as no handler ends the process, a call of a backend taking one step to begin and one to end. If
backends let in one call at a time, this is the network with calls as single steps
(`overlapRun_eq`). Then backends with state, too, are seen by the clients one call after the other
(`clients_linearizable_stateful`). -/

namespace Phonebook.Client.Overlap

open Phonebook.Data.Values Phonebook.Data.Archives Phonebook.Lib.Codecs
open Phonebook.Lib.Linearizability Phonebook.Lib.Runs Phonebook.Lib.Refinement Phonebook.Lib.Faults
open Phonebook.Lib.Overlap Phonebook.Server.Backends Phonebook.Server.Provider
open Phonebook.Server.Threads Phonebook.Server.Removal Phonebook.Server.Locking
open Phonebook.Server.Ownership Phonebook.Server.Calls Phonebook.Server.Progress
open Phonebook.Server.Linearization Phonebook.Server.Stateful Phonebook.Client.Handle
open Phonebook.Client.Network

variable {σ ι α : Type}

/-- The backends that handlers call, and what each keeps. -/
def objects (S : Setup σ ι α) : Objects (Net σ ι α) (Op ι) Ref (Option (Backend α)) where
  callee n
    | .work i => calls S.requests n.server i
    | .send _ | .collect _ => none
  read n o := n.server.heap[o]?
  write n o
    | some b => { n with server := { n.server with heap := n.server.heap.set o b } }
    | none => n

/-- The network with the calls that have begun, and whether the process goes on. -/
abbrev Overlapping (σ ι α : Type) := Faulty (Overlapped (Net σ ι α) (Op ι) Ref (Option (Backend α)))

/-- Before the first call. -/
def start (mToken : String) (s : Store α) : Overlapping σ ι α := sound (quiet (.start mToken s))

section Runs
variable [DecidableEq ι]

/-- A step of a client or of the provider, a call of a backend being two, as long as the process
goes on. -/
def step (S : Setup σ ι α) (excludes : Bool) : Overlapping σ ι α → Op ι → Overlapping σ ι α :=
  ((S.faults fun _ _ => false).comap Overlapped.state).step ((objects S).overlap S.step excludes)

/-- The network after the steps. With `excludes` a backend lets in one call at a time. -/
def overlapRun (S : Setup σ ι α) (excludes : Bool) (mToken : String) (s : Store α)
    (ops : List (Op ι)) : Net σ ι α :=
  (exec (step S excludes) (start mToken s) ops).state.state

variable {S : Setup σ ι α} {mToken : String} {s : Store α} {n : Net σ ι α}

/-! ### Frame -/

theorem server_step (h : Agrees S mToken s n) (o : Op ι) : (S.step n o).server = n.server ∨
    ∃ i, o = .work i ∧ (S.step n o).server = n.server.step S.env i S.requests := by
  cases o with
  | send i =>
    left
    dsimp only [Setup.step]
    cases n.sent i <;> rfl
  | work i =>
    dsimp only [Setup.step]
    rcases hr : (n.sent i).bind (S.arrived i) with _ | r
    · exact Or.inl rfl
    · exact Or.inr ⟨i, rfl, step_congr (h.arrived i hr)⟩
  | collect i =>
    left
    dsimp only [Setup.step]
    split
    · split_ifs <;> rfl
    · rfl

theorem agrees_runs (h : Agrees S mToken s n) : Runs S.requests n.server := by
  obtain ⟨schedule, hreaches⟩ := h.reaches
  rw [← hreaches]
  exact runs_run S.env S.requests mToken s schedule

/-- **Frame**: a call that has begun goes on, and a step changes no backend but the one it calls. -/
theorem framed (S : Setup σ ι α) (mToken : String) (s : Store α) :
    Framed (objects S) S.step (Agrees S mToken s) where
  keeps _ o h := h.step o
  callee n o o' k h hne hk := by
    cases o with
    | send | collect => cases hk
    | work j =>
      show calls S.requests (S.step n o').server j = some k
      rcases server_step h o' with hsame | ⟨i, rfl, hstep⟩
      · rw [hsame]
        exact hk
      · rw [hstep]
        refine calls_step_of_ne (agrees_runs h) ?_ hk
        rintro rfl
        exact hne rfl
  read n o o' k h hk hno := by
    cases o with
    | send | collect => cases hk
    | work j =>
      show (S.step n o').server.heap[k]? = n.server.heap[k]?
      rcases server_step h o' with hsame | ⟨i, rfl, hstep⟩
      · rw [hsame]
      · obtain ⟨a, ha⟩ := pointer_of_calls hk
        rw [hstep]
        exact heap_step n.server i ((agrees_runs h).valid a k ha) hno
  write n k := by
    show (objects S).write n k n.server.heap[k]? = n
    rcases hb : n.server.heap[k]? with _ | b
    · rfl
    · have hsame : n.server.heap.set k b = n.server.heap := by
        obtain ⟨hk, hget⟩ := List.getElem?_eq_some_iff.mp hb
        rw [← hget, List.set_getElem_self]
      dsimp only [objects]
      rw [hsame]

/-- **Calls that exclude each other** are calls in one step: the network goes on as with these on a
part of the steps, and passes through no states but those seen. -/
theorem overlapRun_eq (S : Setup σ ι α) (mToken : String) (s : Store α) (ops : List (Op ι)) :
    ∃ ops', overlapRun S true mToken s ops = S.run mToken s ops' ∧
      ∀ pre', pre' <+: ops' → ∃ pre, pre <+: ops ∧
        overlapRun S true mToken s pre = S.run mToken s pre' := by
  have hrefines := (framed S mToken s).refines.comp
    (Fault.refines ((S.faults fun _ _ => false).comap Overlapped.state)
      ((objects S).overlap S.step true))
  have hstart : Agrees S mToken s (start mToken s : Overlapping σ ι α).state.state :=
    agrees_start S mToken s
  obtain ⟨ops', -, hrun, hseen⟩ := hrefines.run_prefixes (s := start mToken s)
    ⟨trivial, hstart, undisturbed_quiet (Net.start mToken s)⟩ ops
  exact ⟨ops', hrun, hseen⟩

/-- **Backends with state**, too, are seen one call after the other, if each lets in one call at a
time, the ids that are drawn are fresh and no phonebook that is called is closed or destroyed. -/
theorem clients_linearizable_stateful (S : Setup σ ι α) (hdef : Defined S.env.ops)
    (p₀ : ProviderImpl α) (mToken : String) (s : Store α)
    (hp : Represents (.start mToken s : Pool ι α) p₀) (hids : FreshIds S.requests s)
    (hkeeps : KeepsCalled mToken S.requests) (ops : List (Op ι)) :
    ∃ order, Linearizes S.direct p₀ (overlapRun S true mToken s ops).history order := by
  obtain ⟨ops', hrun, -⟩ := overlapRun_eq S mToken s ops
  rw [hrun]
  exact linearizes_of_server S p₀ mToken s
    (linearizes_run S.env S.requests p₀ hdef mToken s hp hids hkeeps) ops'

end Runs

/-- A symbol of an archive that keeps blocks of bytes as they are. -/
inductive Symbol where
  | bool (b : Bool)
  | int32 (i : Int32)
  | string (s : String)
  | raw (n : ℕ) (f : Fin n → UInt8)

/-- The archive of these symbols. -/
def blocks : Archive Symbol where
  bool := ⟨fun b => [.bool b], fun | .bool b :: l => some (b, l) | _ => none, fun _ _ => rfl⟩
  int32 := ⟨fun i => [.int32 i], fun | .int32 i :: l => some (i, l) | _ => none, fun _ _ => rfl⟩
  string := ⟨fun s => [.string s], fun | .string s :: l => some (s, l) | _ => none, fun _ _ => rfl⟩
  raw n := ⟨fun f => [.raw n f],
    fun | .raw m g :: l => if h : m = n then some (h ▸ g, l) else none | _ => none,
    fun _ _ => dif_pos rfl⟩

/-- A phonebook that adds up, and two sums. -/
def createAndSums : Setup Symbol ℕ (Option Int32) where
  archive := blocks
  env := tallyEnv
  calls
    | 0 => .createPhonebook "tally" "{}" ""
    | 1 => .computeSum .clear 1 2 (some 0)
    | _ => .computeSum .clear 3 4 (some 0)
  storage _ := ⟨.clear, 0⟩
  drawn _ := .clear

/-- Both sums look the phonebook up and call its backend before either call is over. -/
def bothCalled : List (Op ℕ) :=
  List.flatten [[.send 0], .replicate 9 (.work 0), [.collect 0, .send 1, .send 2],
    .replicate 5 (.work 2), .replicate 6 (.work 1), .replicate 4 (.work 2), .replicate 4 (.work 1),
    .replicate 4 (.work 2), [.collect 2, .collect 1]]

theorem history_bothCalled :
    (overlapRun createAndSums true "" .empty bothCalled).history =
      [.invoke 0, .answer 0 (.uuid (.returned .clear)), .invoke 1, .invoke 2,
        .answer 2 (.sum (.returned ()) (some 10)), .answer 1 (.sum (.returned ()) (some 3))] := by
  decide +kernel

/-- If the backend let in both calls, one of the sums would be lost. -/
example : (overlapRun createAndSums false "" .empty bothCalled).history =
    [.invoke 0, .answer 0 (.uuid (.returned .clear)), .invoke 1, .invoke 2,
      .answer 2 (.sum (.returned ()) (some 7)), .answer 1 (.sum (.returned ()) (some 3))] := by
  decide +kernel

theorem drawn_createAndSums {i : ℕ} {id : UUID} (h : drawn (createAndSums.requests i) = some id) :
    i = 0 := by
  match i with
  | 0 => rfl
  | 1 | _ + 2 => cases h

theorem removes_createAndSums (i : ℕ) : removes (createAndSums.requests i) = none := by
  match i with
  | 0 | 1 | _ + 2 => rfl

theorem clients_linearizable_stateful_createAndSums :
    ∃ order,
      Linearizes createAndSums.direct ⟨"", ∅⟩
        (overlapRun createAndSums true "" .empty bothCalled).history order ∧
      ∀ i < 3, i ∈ order := by
  obtain ⟨order, hlin⟩ :=
    clients_linearizable_stateful createAndSums tally_defined ⟨"", ∅⟩ "" .empty
    ⟨rfl, fun id => .none⟩
    ⟨fun i j id hi hj => (drawn_createAndSums hi).trans (drawn_createAndSums hj).symm,
      fun _ _ _ => Finmap.notMem_empty⟩
    (fun i j token id h => absurd h (by rw [removes_createAndSums]; rintro ⟨⟩)) bothCalled
  have hanswers : ∀ i < 3, (overlapRun createAndSums true "" .empty bothCalled).history.any
      (Event.answers i) = true := by
    rw [history_bothCalled]
    decide
  exact ⟨order, hlin, fun i hi => hlin.mem_of_any (hanswers i hi)⟩

end Phonebook.Client.Overlap
