import Phonebook.Client.Network

/-! # Calls return

Finitely many clients' calls, and a network that goes on with each of them again and again. If the
backends and `respond` return to the handlers, there is a moment at which every call has been worked
on to the end of its handler, and has returned what the handler responded, once; those that have not
are calls of `sayHello`, which does not wait for a response (`calls_return`). Unless, that is, a
handler ended the process before, by undefined behaviour or an exception. -/

namespace Phonebook.Client.Delivery

open Phonebook.Data.Values Phonebook.Data.Archives Phonebook.Lib.Linearizability Phonebook.Lib.Runs
open Phonebook.Lib.Refinement Phonebook.Lib.Faults Phonebook.Server.Backends
open Phonebook.Server.Provider Phonebook.Server.Threads Phonebook.Server.Locking
open Phonebook.Server.Ownership Phonebook.Server.Process Phonebook.Server.Progress
open Phonebook.Client.Remote Phonebook.Client.Network

variable {σ ι α : Type} [DecidableEq ι] {S : Setup σ ι α} {n : Net σ ι α} {i : ι}

/-- The call waits for a response, and its handler sent one. -/
def Returns (S : Setup σ ι α) (i : ι) (out : Outcome) : Prop :=
  awaits (S.calls i) = true ∧ out.1 ≠ []

/-- The threads are where they can be and none has begun before its message was sent; what was
called and returned is in the history, and what returned is the client's view of what its handler
responded. -/
structure Tracks (S : Setup σ ι α) (n : Net σ ι α) : Prop where
  runs : Runs S.requests n.server
  messages : ∀ i m, n.sent i = some m → m = message S.archive (S.calls i)
  unsent : ∀ i, n.sent i = none → n.server.pc i = .idle
  invoked : ∀ i, .invoke i ∈ n.history ↔ n.sent i ≠ none
  answered : ∀ i r, .answer i r ∈ n.history ↔ n.returned i = some r
  returned : ∀ i r, n.returned i = some r →
    ∃ out, responded (n.server.pc i) = some out ∧ Returns S i out ∧ r = S.view i out

omit [DecidableEq ι] in
theorem tracks_start (S : Setup σ ι α) (mToken : String) (s : Store α) :
    Tracks S (.start mToken s) where
  runs := ⟨consistent_start mToken s, valid_start mToken s⟩
  messages i m h := by cases h
  unsent i h := rfl
  invoked i := by simp [Net.start]
  answered i r := by simp [Net.start]
  returned i r h := by cases h

theorem responded_step {env : Env α} {reqs : ι → Request} {c : Locked ι α} {out : Outcome}
    (h : responded (c.pc i) = some out) : responded ((c.step env i reqs).pc i) = some out := by
  have hpc : c.pc i = .refused out ∨ c.pc i = .answered out := by
    unfold responded at h
    split at h
    · next hpc => exact Or.inl (Option.some.inj h ▸ hpc)
    · next hpc => exact Or.inr (Option.some.inj h ▸ hpc)
    · cases h
  rcases hpc with hpc | hpc
  · have hstep : c.step env i reqs = c.unlock i (.answered out) := by
      unfold Locked.step
      rw [hpc]
    rw [hstep]
    show responded (Function.update c.pc i (.answered out) i) = some out
    rw [Function.update_self]
    rfl
  · have hstep : c.step env i reqs = c := by
      unfold Locked.step
      rw [hpc]
    rw [hstep]
    exact h

section Step
variable (h : Tracks S n)
include h

theorem Tracks.work_eq {m : Message σ} (hm : n.sent i = some m) :
    S.step n (.work i) = { n with server := n.server.step S.env i S.requests } := by
  have harrived : (n.sent i).bind (S.arrived i) = some (S.requests i) := by
    rw [hm, h.messages i m hm]
    exact receive_message (S.peer ⟨"", ∅⟩ i) (S.calls i)
  dsimp only [Setup.step]
  rw [harrived]
  dsimp only
  rw [step_congr rfl]

theorem Tracks.send (i : ι) : Tracks S (S.step n (.send i)) := by
  dsimp only [Setup.step]
  rcases hsent : n.sent i with _ | m
  swap
  · exact h
  have hupdate : ∀ j, Function.update n.sent i (some (message S.archive (S.calls i))) j =
      if j = i then some (message S.archive (S.calls i)) else n.sent j :=
    fun j => Function.update_apply ..
  refine ⟨h.runs, fun j m hm => ?_, fun j hj => ?_, fun j => ?_, fun j r => ?_, h.returned⟩
  · replace hm := (hupdate j).symm.trans hm
    split_ifs at hm with heq
    · rw [heq]
      exact (Option.some.inj hm).symm
    · exact h.messages j m hm
  · replace hj := (hupdate j).symm.trans hj
    split_ifs at hj with heq
    exact h.unsent j hj
  · show .invoke j ∈ n.history ++ [.invoke i] ↔ Function.update n.sent i _ j ≠ none
    rw [hupdate]
    by_cases heq : j = i
    · simp [heq]
    · simp [heq, h.invoked]
  · show .answer j r ∈ n.history ++ [.invoke i] ↔ n.returned j = some r
    simp [h.answered]

theorem Tracks.work (i : ι) : Tracks S (S.step n (.work i)) := by
  rcases hm : n.sent i with _ | m
  · simpa only [Setup.step, hm, Option.bind_none] using h
  rw [h.work_eq hm]
  refine ⟨h.runs.step i, h.messages, fun j hj => ?_, h.invoked, h.answered, fun j r hr => ?_⟩
  · have hne : j ≠ i := by
      rintro rfl
      rw [hm] at hj
      cases hj
    show (n.server.step S.env i S.requests).pc j = .idle
    rw [pc_step_of_ne h.runs S.env hne]
    exact h.unsent j hj
  · obtain ⟨out, hout, hreturns, hview⟩ := h.returned j r hr
    refine ⟨out, ?_, hreturns, hview⟩
    by_cases hne : j = i
    · subst hne
      exact responded_step hout
    · show responded ((n.server.step S.env i S.requests).pc j) = some out
      rw [pc_step_of_ne h.runs S.env hne]
      exact hout

theorem Tracks.collect (i : ι) : Tracks S (S.step n (.collect i)) := by
  dsimp only [Setup.step]
  rcases hpc : responded (n.server.pc i) with _ | out
  · exact h
  rcases hret : n.returned i with _ | r
  swap
  · exact h
  dsimp only
  split_ifs with hreturns
  swap
  · exact h
  have hupdate : ∀ j, Function.update n.returned i (some (S.view i out)) j =
      if j = i then some (S.view i out) else n.returned j := fun j => Function.update_apply ..
  refine ⟨h.runs, h.messages, h.unsent, fun j => ?_, fun j r => ?_, fun j r hr => ?_⟩
  · show .invoke j ∈ n.history ++ [.answer i (S.view i out)] ↔ n.sent j ≠ none
    simp [h.invoked]
  · show .answer j r ∈ n.history ++ [.answer i (S.view i out)] ↔
      Function.update n.returned i _ j = some r
    rw [hupdate]
    by_cases heq : j = i
    · simp [heq, h.answered, hret, eq_comm]
    · simp [heq, h.answered]
  · replace hr := (hupdate j).symm.trans hr
    split_ifs at hr with heq
    · rw [heq]
      exact ⟨out, hpc, hreturns, (Option.some.inj hr).symm⟩
    · exact h.returned j r hr

theorem Tracks.step (o : Op ι) : Tracks S (S.step n o) := by
  rcases o with i | i | i
  · exact h.send i
  · exact h.work i
  · exact h.collect i

end Step

/-! ### What is outstanding -/

/-- What is still to be done about a call. -/
def due (n : Net σ ι α) (i : ι) : ℕ :=
  (if n.sent i = none then 1 else 0) + rank (n.server.pc i) + if n.returned i = none then 1 else 0

/-- What is still to be done. -/
def outstanding [Fintype ι] (n : Net σ ι α) : ℕ := Finset.univ.sum (due n)

omit [DecidableEq ι] in
theorem outstanding_lt [Fintype ι] {n' : Net σ ι α} (hi : due n' i < due n i)
    (hother : ∀ j, j ≠ i → due n' j = due n j) : outstanding n' < outstanding n := by
  refine Finset.sum_lt_sum (fun j _ => ?_) ⟨i, Finset.mem_univ i, hi⟩
  by_cases hj : j = i
  · exact hj ▸ hi.le
  · exact (hother j hj).le

section Decreases
variable [Fintype ι] (h : Tracks S n)

theorem outstanding_send (hsent : n.sent i = none) :
    outstanding (S.step n (.send i)) < outstanding n := by
  have hstep : S.step n (.send i) = { n with
      sent := Function.update n.sent i (some (message S.archive (S.calls i)))
      history := n.history ++ [.invoke i] } := by
    simp only [Setup.step, hsent]
  rw [hstep]
  refine outstanding_lt (i := i) ?_ fun j hj => ?_
  · simp [due, hsent]
  · simp [due, Function.update_of_ne hj]

include h in
theorem outstanding_work {m : Message σ} (hm : n.sent i = some m) {pc : Pc}
    (hpc : (n.server.step S.env i S.requests).pc = Function.update n.server.pc i pc)
    (hrank : rank pc < rank (n.server.pc i)) :
    outstanding (S.step n (.work i)) < outstanding n := by
  rw [h.work_eq hm]
  refine outstanding_lt (i := i) ?_ fun j hj => ?_
  · simp only [due, hpc, Function.update_self]
    omega
  · simp only [due, hpc, Function.update_of_ne hj]

theorem outstanding_collect {out : Outcome} (hpc : responded (n.server.pc i) = some out)
    (hreturns : Returns S i out) (hret : n.returned i = none) :
    outstanding (S.step n (.collect i)) < outstanding n := by
  have hstep : S.step n (.collect i) = { n with
      returned := Function.update n.returned i (some (S.view i out))
      history := n.history ++ [.answer i (S.view i out)] } := by
    simp only [Setup.step, hpc, hret]
    exact if_pos hreturns
  rw [hstep]
  refine outstanding_lt (i := i) ?_ fun j hj => ?_
  · simp [due, hret]
  · simp [due, Function.update_of_ne hj]

end Decreases

/-- The call was made, its handler has ended, and it has returned if it is to. -/
def Finished (S : Setup σ ι α) (n : Net σ ι α) (i : ι) : Prop :=
  n.sent i ≠ none ∧ ∃ out, n.server.pc i = .answered out ∧ (Returns S i out → n.returned i ≠ none)

/-- A thread that was called and has not ended can go on, or one that has the mutex can. -/
theorem exists_work [Fintype ι] (h : Tracks S n) {m : Message σ} (hm : n.sent i = some m)
    (hpc : ∀ out, n.server.pc i ≠ .answered out) :
    ∃ o, outstanding (S.step n o) < outstanding n := by
  cases advances_step S.env h.runs.consistent h.runs.valid i with
  | ended out hended same => exact absurd hended (hpc out)
  | moves pc hmoves hrank mtx => exact ⟨.work i, outstanding_work h hm hmoves hrank⟩
  | waits j hout hmtx same =>
    have hj : (n.server.pc j).inside = true := (h.runs.consistent.holder j).mpr hmtx
    -- the thread that has the mutex was called
    rcases hmj : n.sent j with _ | mj
    · rw [h.unsent j hmj] at hj
      cases hj
    · cases advances_step S.env h.runs.consistent h.runs.valid j with
      | ended out hended => rw [hended] at hj; cases hj
      | waits _ hi' => rw [hj] at hi'; cases hi'
      | moves pc hmoves hrank mtx => exact ⟨.work j, outstanding_work h hmj hmoves hrank⟩

theorem progresses_net [Fintype ι] (S : Setup σ ι α) :
    Progresses S.step (Tracks S) outstanding fun n => ∀ i, Finished S n i := by
  refine ⟨fun n o h => h.step o, fun n o h => ?_, fun n h hdone => ?_⟩
  · rcases o with i | i | i
    · rcases hsent : n.sent i with _ | m
      · exact Or.inr (outstanding_send hsent)
      · left
        simp only [Setup.step, hsent]
    · rcases hm : n.sent i with _ | m
      · left
        simp only [Setup.step, hm, Option.bind_none]
      · cases advances_step S.env h.runs.consistent h.runs.valid i with
        | ended out hpc same => exact Or.inl (by rw [h.work_eq hm, same])
        | waits j hi hmtx same => exact Or.inl (by rw [h.work_eq hm, same])
        | moves pc hpc hrank mtx => exact Or.inr (outstanding_work h hm hpc hrank)
    · rcases hpc : responded (n.server.pc i) with _ | out
      · left
        simp only [Setup.step, hpc]
      rcases hret : n.returned i with _ | r
      · by_cases hreturns : Returns S i out
        · exact Or.inr (outstanding_collect hpc hreturns hret)
        · left
          simp only [Setup.step, hpc, hret]
          exact if_neg hreturns
      · left
        simp only [Setup.step, hpc, hret]
  · have hmoves : ∀ {o}, outstanding (S.step n o) < outstanding n → S.step n o ≠ n := by
      intro o hlt heq
      rw [heq] at hlt
      exact lt_irrefl _ hlt
    obtain ⟨i, hi⟩ := not_forall.mp hdone
    rcases hm : n.sent i with _ | m
    · exact ⟨.send i, hmoves (outstanding_send hm)⟩
    by_cases hended : ∃ out, n.server.pc i = .answered out
    · obtain ⟨out, hpc⟩ := hended
      have hresponded : responded (n.server.pc i) = some out := by rw [hpc]; rfl
      -- the handler has ended, so what is missing is the client
      by_cases hreturns : Returns S i out ∧ n.returned i = none
      · exact ⟨.collect i, hmoves (outstanding_collect hresponded hreturns.1 hreturns.2)⟩
      · refine absurd ⟨?_, out, hpc, fun hr hret => hreturns ⟨hr, hret⟩⟩ hi
        rw [hm]
        simp
    · obtain ⟨o, ho⟩ := exists_work h hm fun out hpc => hended ⟨out, hpc⟩
      exact ⟨o, hmoves ho⟩

omit [DecidableEq ι] in
/-- When every call is finished, the mutex is free and each call that waits has returned what its
handler responded. -/
theorem Tracks.all_finished (h : Tracks S n) (hdone : ∀ i, Finished S n i) :
    n.server.mBackendsMtx = none ∧ ∀ i, .invoke i ∈ n.history ∧ ∃ out,
      n.server.pc i = .answered out ∧
      ∀ r, .answer i r ∈ n.history ↔ awaits (S.calls i) = true ∧ out.1 ≠ [] ∧ r = S.view i out := by
  refine ⟨?_, fun i => ?_⟩
  · by_contra hmtx
    obtain ⟨j, hj⟩ := Option.ne_none_iff_exists'.mp hmtx
    obtain ⟨-, out, hout, -⟩ := hdone j
    have hin := (h.runs.consistent.holder j).mpr hj
    rw [hout] at hin
    cases hin
  · obtain ⟨hsent, out, hpc, hreturned⟩ := hdone i
    refine ⟨(h.invoked i).mpr hsent, out, hpc, fun r => ?_⟩
    rw [h.answered]
    constructor
    · intro hr
      obtain ⟨out', hout', hreturns, hview⟩ := h.returned i r hr
      obtain rfl : out = out' := by
        rw [hpc] at hout'
        exact Option.some.inj hout'
      exact ⟨hreturns.1, hreturns.2, hview⟩
    · rintro ⟨hawaits, hresponse, rfl⟩
      obtain ⟨r, hr⟩ := Option.ne_none_iff_exists'.mp (hreturned ⟨hawaits, hresponse⟩)
      obtain ⟨out', hout', -, hview⟩ := h.returned i r hr
      obtain rfl : out = out' := by
        rw [hpc] at hout'
        exact Option.some.inj hout'
      rw [hr, hview]

/-- **Calls return.** If the code that the handlers call returns, and finitely many calls are made
over a network that goes on with the sending, the work and the collecting of each again and again,
there is a moment at which every call was made, its handler has ended, and it has returned exactly
what the client makes of the response, provided there was one and the call waits for it; the mutex
is free. Or else a handler has ended the process. -/
theorem calls_return [Fintype ι] (S : Setup σ ι α) {hangs : ι → Pc → Bool}
    (hreturns : ∀ i pc, foreign (S.requests i) pc = true → hangs i pc = false) (mToken : String)
    (s : Store α) {schedule : ℕ → Op ι} (hfair : Fair schedule) :
    ∃ k,
      let p := after (S.process hangs) (sound (.start mToken s)) schedule k
      (∃ i, lost (p.state.server.pc i) = true) ∨
        p.state.server.mBackendsMtx = none ∧
          ∀ i, .invoke i ∈ p.state.history ∧ ∃ out, p.state.server.pc i = .answered out ∧
            ∀ r, .answer i r ∈ p.state.history ↔
              awaits (S.calls i) = true ∧ out.1 ≠ [] ∧ r = S.view i out := by
  have hgoes : ∀ (n : Net σ ι α) o, (S.faults hangs).hangs n o = false := fun n o => by
    rcases o with i | i | i
    · rfl
    · exact faults_goes hreturns n.server i
    · rfl
  have hprogress := Fault.progresses (progresses_net S) hgoes
  have hstart : Tracks S (sound (Net.start mToken s)).state := tracks_start S mToken s
  obtain ⟨k, hdone⟩ := hprogress.fair hstart hfair
  refine ⟨k, ?_⟩
  rcases hdone with hbroken | hdone
  · exact Or.inl (exists_lost hbroken)
  · exact Or.inr ((hprogress.inv_after hstart schedule k).all_finished hdone)

/-- Each client sends, its thread works and it collects, in turn. -/
def roundRobin (n : ℕ) : Op Bool :=
  match n % 6 with
  | 0 => .send false
  | 1 => .send true
  | 2 => .work false
  | 3 => .work true
  | 4 => .collect false
  | _ => .collect true

theorem calls_return_createAndFail :
    ∃ k,
      let p :=
        after (createAndFail.process fun _ _ => false) (sound (.start "" .empty)) roundRobin k
      (∃ i, lost (p.state.server.pc i) = true) ∨
        p.state.server.mBackendsMtx = none ∧
          ∀ i, .invoke i ∈ p.state.history ∧ ∃ out, p.state.server.pc i = .answered out ∧
            ∀ r, .answer i r ∈ p.state.history ↔
              awaits (createAndFail.calls i) = true ∧ out.1 ≠ [] ∧
                r = createAndFail.view i out := by
  refine calls_return createAndFail (fun _ _ _ => rfl) "" .empty fun o n => ?_
  have hturn : ∀ k, roundRobin (6 * n + k) = roundRobin k :=
    fun k => by rw [roundRobin, roundRobin, Nat.mul_add_mod]
  rcases o with i | i | i <;> rcases i with _ | _
  · exact ⟨6 * n + 0, by omega, hturn 0⟩
  · exact ⟨6 * n + 1, by omega, hturn 1⟩
  · exact ⟨6 * n + 2, by omega, hturn 2⟩
  · exact ⟨6 * n + 3, by omega, hturn 3⟩
  · exact ⟨6 * n + 4, by omega, hturn 4⟩
  · exact ⟨6 * n + 5, by omega, hturn 5⟩

end Phonebook.Client.Delivery
