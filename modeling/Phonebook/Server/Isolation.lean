import Phonebook.Server.Commutation
import Phonebook.Server.Ownership
import Phonebook.Server.Process

/-! # Phonebooks do not interfere

The operations of a backend return, one call of it after the other, and act on its own object alone,
with whose state they may do what they like: two backends that share a database are not of this
kind. Then what the requests about one id come to, in any interleaving with any others, is what they
come to in the run of these threads alone (`isolation`), as long as no handler has ended the process
by undefined behaviour or an exception; and the same is true when the others keep them waiting for
the mutex (`isolation_locked`). The two runs number the backends differently, so they are compared
up to a pairing of the backends that are under the id or on their way there. -/

namespace Phonebook.Server.Isolation

open Phonebook.Data.Values Phonebook.Server.Backends Phonebook.Server.Provider
open Phonebook.Server.Handlers Phonebook.Server.Threads Phonebook.Server.Commutation
open Phonebook.Server.Locking Phonebook.Server.Ownership Phonebook.Server.Process
open Phonebook.Lib.Linearizability Phonebook.Lib.Runs Phonebook.Lib.Refinement

/-- The backend a thread holds. -/
def held : Phase → Option Ref
  | .built o | .found o => some o
  | .idle | .received | .ready | .replying _ | .answered _ => none

/-- Two threads stand at the same place, with paired backends if with any. -/
inductive SamePhase (pairs : Ref → Ref → Prop) : Phase → Phase → Prop
  | idle : SamePhase pairs .idle .idle
  | received : SamePhase pairs .received .received
  | built (o o' : Ref) (h : pairs o o') : SamePhase pairs (.built o) (.built o')
  | ready : SamePhase pairs .ready .ready
  | found (o o' : Ref) (h : pairs o o') : SamePhase pairs (.found o) (.found o')
  | replying (out : Outcome) : SamePhase pairs (.replying out) (.replying out)
  | answered (out : Outcome) : SamePhase pairs (.answered out) (.answered out)

variable {ι α : Type}

/-- The thread's request is about the id. -/
def about (reqs : ι → Request) (id : UUID) (i : ι) : Bool := decide (target (reqs i) = id)

/-- Two pools agree on the id: its entry, the threads of the requests about it and what they hold.
No other thread or entry has a backend that is paired. -/
structure Alike (reqs : ι → Request) (id : UUID) (pairs : Ref → Ref → Prop) (c c' : Pool ι α) :
    Prop where
  token : c.mToken = c'.mToken
  backends : ∀ o o', pairs o o' → ∃ b, c.heap[o]? = some b ∧ c'.heap[o']? = some b
  left : ∀ o o₁ o₂, pairs o o₁ → pairs o o₂ → o₁ = o₂
  right : ∀ o₁ o₂ o', pairs o₁ o' → pairs o₂ o' → o₁ = o₂
  entry : Option.Rel pairs (c.mBackends.lookup id) (c'.mBackends.lookup id)
  phases : ∀ i, about reqs id i = true → SamePhase pairs (c.phase i) (c'.phase i)
  others : ∀ i o, about reqs id i = false → held (c.phase i) = some o → o < c.heap.length ∧ ∀ o',
    ¬ pairs o o'
  entries :
    ∀ id' o, id' ≠ id → c.mBackends.lookup id' = some o → o < c.heap.length ∧ ∀ o', ¬ pairs o o'
  history : c.history.filter (Event.isOf (about reqs id)) = c'.history

theorem SamePhase.mono {pairs pairs' : Ref → Ref → Prop} (hle : ∀ o o', pairs o o' → pairs' o o')
    {ph ph' : Phase}
    (h : SamePhase pairs ph ph') : SamePhase pairs' ph ph' := by
  cases h with
  | idle => exact .idle
  | received => exact .received
  | built o o' h => exact .built o o' (hle o o' h)
  | ready => exact .ready
  | found o o' h => exact .found o o' (hle o o' h)
  | replying out => exact .replying out
  | answered out => exact .answered out

variable [DecidableEq ι] {env : Env α} {reqs : ι → Request} {id : UUID} {pairs : Ref → Ref → Prop}
variable {c c' d d' : Pool ι α} {i : ι}

omit [DecidableEq ι] in
theorem Alike.lt (h : Alike reqs id pairs c c') {o o' : Ref} (ho : pairs o o') :
    o < c.heap.length ∧ o' < c'.heap.length := by
  obtain ⟨b, hb, hb'⟩ := h.backends o o' ho
  exact ⟨(List.getElem?_eq_some_iff.mp hb).1, (List.getElem?_eq_some_iff.mp hb').1⟩

/-! ### Steps that are not seen -/

/-- A thread whose request is about another id goes on: it keeps away from the paired backends and
the entry. -/
theorem Alike.hidden (h : Alike reqs id pairs c c') (hi : about reqs id i = false) (ph : Phase)
    (hphase : d.phase = Function.update c.phase i ph) (htoken : d.mToken = c.mToken)
    (hcells : ∀ o o', pairs o o' → d.heap[o]? = c.heap[o]?) (hlen : c.heap.length ≤ d.heap.length)
    (hheld : ∀ o, held ph = some o → o < d.heap.length ∧ ∀ o', ¬ pairs o o')
    (hentry : d.mBackends.lookup id = c.mBackends.lookup id)
    (hentries : ∀ id' o, id' ≠ id → d.mBackends.lookup id' = some o →
      c.mBackends.lookup id' = some o ∨ held (c.phase i) = some o)
    (hhist : d.history.filter (Event.isOf (about reqs id)) =
      c.history.filter (Event.isOf (about reqs id))) :
    Alike reqs id pairs d c' := by
  refine ⟨htoken.trans h.token, fun o o' ho => ?_, h.left, h.right, ?_, fun j hj => ?_,
    fun j o hj hh => ?_,
    fun id' o hne hl => ?_, hhist.trans h.history⟩
  · rw [hcells o o' ho]
    exact h.backends o o' ho
  · rw [hentry]
    exact h.entry
  · have hne : j ≠ i := by
      rintro rfl
      rw [hi] at hj
      cases hj
    rw [hphase, Function.update_of_ne hne]
    exact h.phases j hj
  · rw [hphase, Function.update_apply] at hh
    split_ifs at hh
    · exact hheld o hh
    · exact ⟨(h.others j o hj hh).1.trans_le hlen, (h.others j o hj hh).2⟩
  · rcases hentries id' o hne hl with hold | hold
    · exact ⟨(h.entries id' o hne hold).1.trans_le hlen, (h.entries id' o hne hold).2⟩
    · exact ⟨(h.others i o hi hold).1.trans_le hlen, (h.others i o hi hold).2⟩

section Hidden
variable (h : Alike reqs id pairs c c') (hi : about reqs id i = false)
include h hi

theorem Alike.hidden_goto {ph : Phase} (hph : held ph = none) :
    Alike reqs id pairs (c.goto i ph) c' := by
  refine h.hidden hi ph rfl rfl (fun _ _ _ => rfl) (le_refl _) (fun o ho => ?_) rfl
    (fun _ _ _ hl => Or.inl hl) rfl
  rw [hph] at ho
  cases ho

theorem Alike.hidden_build (x : Prepared α) : Alike reqs id pairs (c.build i x) c' := by
  rcases x with error | exit | b
  · exact h.hidden_goto hi rfl
  · exact h.hidden_goto hi rfl
  · have hlen : (c.build i (.built b)).heap.length = c.heap.length + 1 := by simp [Pool.build]
    refine h.hidden hi (.built c.heap.length) rfl rfl (fun o o' ho => ?_) (by omega)
      (fun o ho => ?_) rfl
      (fun _ _ _ hl => Or.inl hl) rfl
    · exact List.getElem?_append_left (h.lt ho).1
    · obtain rfl : c.heap.length = o := Option.some.inj ho
      exact ⟨hlen ▸ Nat.lt_succ_self _, fun o' ho' => lt_irrefl _ (h.lt ho').1⟩

theorem Alike.hidden_prologue : Alike reqs id pairs (c.prologue env i (reqs i)) c' := by
  cases reqs i with
  | createPhonebook | openPhonebook => exact h.hidden_build hi _
  | closePhonebook | destroyPhonebook =>
    dsimp only [Pool.prologue]
    split_ifs
    · exact h.hidden_goto hi rfl
    · exact h.hidden_goto hi rfl
  | checkPhonebook | sayHello | computeSum => exact h.hidden_goto hi rfl

theorem Alike.hidden_insert {o : Ref} (hph : c.phase i = .built o) :
    Alike reqs id pairs (c.insert i o (reqs i)) c' := by
  have hne : target (reqs i) ≠ id := of_decide_eq_false hi
  cases hreq : reqs i with
  | createPhonebook token ty config drawn | openPhonebook token ty config drawn =>
    have hdrawn : drawn ≠ id := by
      rw [hreq] at hne
      exact hne
    refine h.hidden hi (.replying _) rfl rfl (fun _ _ _ => rfl) (le_refl _)
      (fun o' ho => by cases ho) ?_
      (fun id' o' hid hl => ?_) rfl
    · exact Finmap.lookup_insert_of_ne _ hdrawn.symm
    · change (c.mBackends.insert drawn o).lookup id' = some o' at hl
      by_cases hid' : id' = drawn
      · subst hid'
        rw [Finmap.lookup_insert] at hl
        right
        rw [hph]
        exact hl
      · rw [Finmap.lookup_insert_of_ne _ hid'] at hl
        exact Or.inl hl
  | closePhonebook | destroyPhonebook | checkPhonebook | sayHello | computeSum => exact h

theorem Alike.hidden_removed {id₁ : UUID} (hid : id₁ ≠ id) {o : Ref}
    (hl : c.mBackends.lookup id₁ = some o) (ph : Phase) (hph : held ph = none)
    (hphase : d.phase = Function.update c.phase i ph) (htoken : d.mToken = c.mToken)
    (hreg : d.mBackends = c.mBackends.erase id₁ ∨ d.mBackends = c.mBackends)
    (hheap : d.heap = c.heap ∨ ∃ b, d.heap = c.heap.set o b) (hhist : d.history = c.history) :
    Alike reqs id pairs d c' := by
  have hlen : d.heap.length = c.heap.length := by
    rcases hheap with heq | ⟨b, heq⟩
    · rw [heq]
    · rw [heq, List.length_set]
  refine h.hidden hi ph hphase htoken (fun o₁ o₁' ho => ?_) hlen.ge
    (fun o' ho => ?_) ?_ (fun id' o' hne hl' => ?_)
    (by rw [hhist])
  · rcases hheap with heq | ⟨b, heq⟩
    · rw [heq]
    · rw [heq]
      refine List.getElem?_set_ne ?_
      rintro rfl
      exact (h.entries id₁ o hid hl).2 o₁' ho
  · rw [hph] at ho
    cases ho
  · rcases hreg with heq | heq
    · rw [heq, Finmap.lookup_erase_ne hid.symm]
    · rw [heq]
  · rcases hreg with heq | heq
    · rw [heq] at hl'
      exact Or.inl (lookup_of_erase id₁ hl').2
    · rw [heq] at hl'
      exact Or.inl hl'

theorem Alike.hidden_find {id₁ : UUID} (hid : id₁ ≠ id) (send : String → Response)
    (next : Ref → Phase) (hnext : ∀ o o', held (next o) = some o' → o' = o) :
    Alike reqs id pairs (c.find env i id₁ send next) c' := by
  rcases hl : c.mBackends.lookup id₁ with _ | o
  · rw [Pool.find_unknown env hl]
    exact h.hidden_goto hi rfl
  · rw [Pool.find_known env hl]
    refine h.hidden hi (next o) rfl rfl (fun _ _ _ => rfl) (le_refl _) (fun o' ho => ?_) rfl
      (fun _ _ _ hl => Or.inl hl) rfl
    rw [hnext o o' ho]
    exact h.entries id₁ o hid hl

theorem Alike.hidden_lockedSection : Alike reqs id pairs (c.lockedSection env i (reqs i)) c' := by
  have hne : target (reqs i) ≠ id := of_decide_eq_false hi
  cases hreq : reqs i with
  | createPhonebook | openPhonebook => exact h
  | closePhonebook token id₁ =>
    rw [hreq] at hne
    rw [Pool.lockedSection]
    rcases hl : c.mBackends.lookup id₁ with _ | o
    · rw [Pool.close_unknown env hl]
      exact h.hidden_goto hi rfl
    · rw [Pool.close_known env hl]
      exact h.hidden_removed hi hne hl (.replying _) rfl rfl rfl (Or.inl rfl) (Or.inl rfl) rfl
  | destroyPhonebook token id₁ =>
    rw [hreq] at hne
    rw [Pool.lockedSection]
    rcases hl : c.mBackends.lookup id₁ with _ | o
    · rw [Pool.destroy_unknown env hl]
      exact h.hidden_goto hi rfl
    rcases hb : c.heap[o]? with _ | b
    · rw [show c.destroy env i id₁ = c by simp only [Pool.destroy, hl, hb]]
      exact h
    rcases hd : env.ops.destroy b.derived with ⟨result | e | _, x⟩
    · rw [Pool.destroy_returned env hl hb hd]
      exact h.hidden_removed hi hne hl (.replying _) rfl rfl rfl (Or.inl rfl) (Or.inr ⟨_, rfl⟩) rfl
    · rw [Pool.destroy_threw env hl hb hd]
      exact h.hidden_removed hi hne hl (.replying _) rfl rfl rfl (Or.inr rfl) (Or.inr ⟨_, rfl⟩) rfl
    · rw [Pool.destroy_undefined env hl hb hd]
      exact h.hidden_removed hi hne hl (.replying _) rfl rfl rfl (Or.inr rfl) (Or.inr ⟨_, rfl⟩) rfl
  | checkPhonebook id₁ =>
    rw [hreq] at hne
    rw [Pool.lockedSection]
    exact h.hidden_find hi hne _ _ fun o o' ho => by cases ho
  | sayHello id₁ | computeSum id₁ x y =>
    rw [hreq] at hne
    rw [Pool.lockedSection]
    exact h.hidden_find hi hne _ _ fun o o' ho => (Option.some.inj ho).symm

theorem Alike.hidden_call {o : Ref} (hph : c.phase i = .found o) (r : Request) :
    Alike reqs id pairs (c.call env i o r) c' := by
  rcases hb : c.heap[o]? with _ | b
  · rw [show c.call env i o r = c by simp only [Pool.call, hb]]
    exact h
  · simp only [Pool.call, hb]
    refine h.hidden hi (.replying _) rfl rfl (fun o₁ o₁' ho => ?_)
      (List.length_set ..).ge (fun o' ho => by cases ho)
      rfl (fun _ _ _ hl => Or.inl hl) rfl
    refine List.getElem?_set_ne ?_
    rintro rfl
    exact (h.others i o hi (by rw [hph]; rfl)).2 o₁' ho

/-- **A step that is not seen.** -/
theorem Alike.hidden_step : Alike reqs id pairs (c.step env i reqs) c' := by
  have hnew : ∀ e : Event ι Outcome, e.isOf (about reqs id) = false →
      (c.history ++ [e]).filter (Event.isOf (about reqs id)) =
        c.history.filter (Event.isOf (about reqs id)) := by
    intro e he
    rw [List.filter_append, List.filter_cons_of_neg (by rw [he]; exact Bool.false_ne_true),
      List.filter_nil,
      List.append_nil]
  unfold Pool.step
  cases hph : c.phase i with
  | idle =>
    exact h.hidden hi .received rfl rfl (fun _ _ _ => rfl) (le_refl _) (fun o ho => by cases ho) rfl
      (fun _ _ _ hl => Or.inl hl) (hnew (.invoke i) hi)
  | received => exact h.hidden_prologue hi
  | built o => exact h.hidden_insert hi hph
  | ready => exact h.hidden_lockedSection hi
  | found o => exact h.hidden_call hi hph (reqs i)
  | replying out =>
    exact h.hidden hi (.answered out) rfl rfl (fun _ _ _ => rfl) (le_refl _)
      (fun o ho => by cases ho) rfl
      (fun _ _ _ hl => Or.inl hl) (hnew (.answer i out) hi)
  | answered out => exact h

end Hidden

/-! ### Steps that are seen -/

theorem Alike.seen (h : Alike reqs id pairs c c') (hi : about reqs id i = true) {ph ph' : Phase}
    (hph : SamePhase pairs ph ph') (hphase : d.phase = Function.update c.phase i ph)
    (hphase' : d'.phase = Function.update c'.phase i ph') (htoken : d.mToken = c.mToken)
    (htoken' : d'.mToken = c'.mToken) (hlen : d.heap.length = c.heap.length)
    (hbackends : ∀ o o', pairs o o' → ∃ b, d.heap[o]? = some b ∧ d'.heap[o']? = some b)
    (hentry : Option.Rel pairs (d.mBackends.lookup id) (d'.mBackends.lookup id))
    (hentries : ∀ id', id' ≠ id → d.mBackends.lookup id' = c.mBackends.lookup id')
    (hhist : d.history.filter (Event.isOf (about reqs id)) = d'.history) :
    Alike reqs id pairs d d' := by
  refine ⟨?_, hbackends, h.left, h.right, hentry, fun j hj => ?_, fun j o hj hh => ?_,
    fun id' o hne hl => ?_, hhist⟩
  · rw [htoken, htoken', h.token]
  · rw [hphase, hphase']
    by_cases heq : j = i
    · subst heq
      rw [Function.update_self, Function.update_self]
      exact hph
    · rw [Function.update_of_ne heq, Function.update_of_ne heq]
      exact h.phases j hj
  · have hne : j ≠ i := by
      rintro rfl
      rw [hi] at hj
      cases hj
    rw [hphase, Function.update_of_ne hne] at hh
    rw [hlen]
    exact h.others j o hj hh
  · rw [hentries id' hne] at hl
    rw [hlen]
    exact h.entries id' o hne hl

omit [DecidableEq ι] in
theorem Alike.set (h : Alike reqs id pairs c c') {o o' : Ref} (ho : pairs o o') (b : Backend α) :
    ∀ o₁ o₁',
      pairs o₁ o₁' → ∃ b₁, (c.heap.set o b)[o₁]? = some b₁ ∧
        (c'.heap.set o' b)[o₁']? = some b₁ := by
  intro o₁ o₁' hp
  by_cases heq : o₁ = o
  · subst heq
    obtain rfl : o₁' = o' := h.left o₁ o₁' o' hp ho
    refine ⟨b, ?_, ?_⟩
    · rw [List.getElem?_set_self (h.lt ho).1]
    · rw [List.getElem?_set_self (h.lt ho).2]
  · have hne' : o₁' ≠ o' := by
      rintro rfl
      exact heq (h.right o₁ o o₁' hp ho)
    obtain ⟨b₁, hb, hb'⟩ := h.backends o₁ o₁' hp
    refine ⟨b₁, ?_, ?_⟩
    · rw [List.getElem?_set_ne (Ne.symm heq), hb]
    · rw [List.getElem?_set_ne (Ne.symm hne'), hb']

section Seen
variable (h : Alike reqs id pairs c c') (hi : about reqs id i = true)
include h hi

theorem Alike.seen_goto {ph : Phase} (hph : SamePhase pairs ph ph) :
    Alike reqs id pairs (c.goto i ph) (c'.goto i ph) :=
  h.seen hi hph rfl rfl rfl rfl rfl h.backends h.entry (fun _ _ => rfl) h.history

theorem Alike.seen_build (x : Prepared α) :
    ∃ pairs', Alike reqs id pairs' (c.build i x) (c'.build i x) := by
  rcases x with error | exit | b
  · exact ⟨pairs, h.seen_goto hi (.replying _)⟩
  · exact ⟨pairs, h.seen_goto hi (.replying _)⟩
  let pairs' : Ref → Ref → Prop :=
    fun o o' => pairs o o' ∨ (o = c.heap.length ∧ o' = c'.heap.length)
  have hle : ∀ o o', pairs o o' → pairs' o o' := fun _ _ => Or.inl
  have hold : ∀ {o}, o < c.heap.length → (∀ o', ¬ pairs o o') → ∀ o', ¬ pairs' o o' := by
    rintro o ho hno o' (hp | ⟨rfl, -⟩)
    · exact hno o' hp
    · exact lt_irrefl _ ho
  have hlen : (c.build i (.built b)).heap.length = c.heap.length + 1 := by simp [Pool.build]
  refine ⟨pairs', h.token, ?_, ?_, ?_, ?_, fun j hj => ?_, fun j o hj hh => ?_,
    fun id' o hne hl => ?_, h.history⟩
  · show ∀ o o', pairs' o o' → ∃ b', (c.heap ++ [b])[o]? = some b' ∧ (c'.heap ++ [b])[o']? = some b'
    rintro o o' (hp | ⟨rfl, rfl⟩)
    · obtain ⟨b', hb, hb'⟩ := h.backends o o' hp
      refine ⟨b', ?_, ?_⟩
      · rw [List.getElem?_append_left (h.lt hp).1, hb]
      · rw [List.getElem?_append_left (h.lt hp).2, hb']
    · exact ⟨b, by simp, by simp⟩
  · rintro o o₁ o₂ (hp | ⟨rfl, rfl⟩) (hp' | ⟨ho, rfl⟩)
    · exact h.left o o₁ o₂ hp hp'
    · exact absurd (h.lt hp).1 (ho ▸ lt_irrefl _)
    · exact absurd (h.lt hp').1 (lt_irrefl _)
    · rfl
  · rintro o₁ o₂ o' (hp | ⟨rfl, rfl⟩) (hp' | ⟨rfl, ho⟩)
    · exact h.right o₁ o₂ o' hp hp'
    · exact absurd (h.lt hp).2 (ho ▸ lt_irrefl _)
    · exact absurd (h.lt hp').2 (lt_irrefl _)
    · rfl
  · show Option.Rel pairs' (c.mBackends.lookup id) (c'.mBackends.lookup id)
    have hentry := h.entry
    generalize c.mBackends.lookup id = x, c'.mBackends.lookup id = x' at hentry
    cases hentry with
    | none => exact .none
    | some hp => exact .some (hle _ _ hp)
  · show SamePhase pairs' (Function.update c.phase i (.built c.heap.length) j)
      (Function.update c'.phase i (.built c'.heap.length) j)
    by_cases heq : j = i
    · subst heq
      rw [Function.update_self, Function.update_self]
      exact .built _ _ (Or.inr ⟨rfl, rfl⟩)
    · rw [Function.update_of_ne heq, Function.update_of_ne heq]
      exact (h.phases j hj).mono hle
  · have hne : j ≠ i := by
      rintro rfl
      rw [hi] at hj
      cases hj
    change held (Function.update c.phase i (.built c.heap.length) j) = some o at hh
    rw [Function.update_of_ne hne] at hh
    obtain ⟨ho, hno⟩ := h.others j o hj hh
    exact ⟨hlen ▸ Nat.lt_succ_of_lt ho, hold ho hno⟩
  · obtain ⟨ho, hno⟩ := h.entries id' o hne hl
    exact ⟨hlen ▸ Nat.lt_succ_of_lt ho, hold ho hno⟩

theorem Alike.seen_prologue :
    ∃ pairs', Alike reqs id pairs' (c.prologue env i (reqs i)) (c'.prologue env i (reqs i)) := by
  cases reqs i with
  | createPhonebook | openPhonebook =>
    rw [Pool.prologue, Pool.prologue, h.token]
    exact h.seen_build hi _
  | closePhonebook | destroyPhonebook =>
    rw [Pool.prologue, Pool.prologue, h.token]
    split_ifs
    · exact ⟨pairs, h.seen_goto hi (.replying _)⟩
    · exact ⟨pairs, h.seen_goto hi .ready⟩
  | checkPhonebook | sayHello | computeSum => exact ⟨pairs, h.seen_goto hi .ready⟩

theorem Alike.seen_insert {o o' : Ref} (ho : pairs o o') :
    Alike reqs id pairs (c.insert i o (reqs i)) (c'.insert i o' (reqs i)) := by
  have heq : target (reqs i) = id := of_decide_eq_true hi
  cases hreq : reqs i with
  | createPhonebook token ty config drawn | openPhonebook token ty config drawn =>
    obtain rfl : drawn = id := by
      rw [hreq] at heq
      exact heq
    refine h.seen hi (.replying ([added drawn], .returns ())) rfl rfl rfl rfl rfl h.backends ?_
      (fun id' hne => ?_)
      h.history
    · show Option.Rel pairs ((c.mBackends.insert drawn o).lookup drawn)
        ((c'.mBackends.insert drawn o').lookup drawn)
      rw [Finmap.lookup_insert, Finmap.lookup_insert]
      exact .some ho
    · exact Finmap.lookup_insert_of_ne _ hne
  | closePhonebook | destroyPhonebook | checkPhonebook | sayHello | computeSum => exact h

theorem Alike.seen_removed (out : Outcome)
    (hphase : d.phase = Function.update c.phase i (.replying out))
    (hphase' : d'.phase = Function.update c'.phase i (.replying out)) (htoken : d.mToken = c.mToken)
    (htoken' : d'.mToken = c'.mToken) (hlen : d.heap.length = c.heap.length)
    (hbackends : ∀ o o', pairs o o' → ∃ b, d.heap[o]? = some b ∧ d'.heap[o']? = some b)
    (hreg : (d.mBackends = c.mBackends.erase id ∧ d'.mBackends = c'.mBackends.erase id) ∨
      (d.mBackends = c.mBackends ∧ d'.mBackends = c'.mBackends))
    (hhist : d.history = c.history) (hhist' : d'.history = c'.history) :
    Alike reqs id pairs d d' := by
  refine h.seen hi (.replying out) hphase hphase' htoken htoken' hlen hbackends ?_
    (fun id' hne => ?_) ?_
  · rcases hreg with ⟨heq, heq'⟩ | ⟨heq, heq'⟩
    · rw [heq, heq', Finmap.lookup_erase, Finmap.lookup_erase]
      exact .none
    · rw [heq, heq']
      exact h.entry
  · rcases hreg with ⟨heq, -⟩ | ⟨heq, -⟩
    · rw [heq, Finmap.lookup_erase_ne hne]
    · rw [heq]
  · rw [hhist, hhist', h.history]

omit hi [DecidableEq ι] in
theorem Alike.entry_cases : (c.mBackends.lookup id = none ∧ c'.mBackends.lookup id = none) ∨
    ∃ o o', pairs o o' ∧ c.mBackends.lookup id = some o ∧ c'.mBackends.lookup id = some o' := by
  have hentry := h.entry
  generalize c.mBackends.lookup id = x, c'.mBackends.lookup id = x' at hentry
  cases hentry with
  | none => exact Or.inl ⟨rfl, rfl⟩
  | some ho => exact Or.inr ⟨_, _, ho, rfl, rfl⟩

theorem Alike.seen_close : Alike reqs id pairs (c.close env i id) (c'.close env i id) := by
  rcases h.entry_cases with ⟨hl, hl'⟩ | ⟨o, o', -, hl, hl'⟩
  · rw [Pool.close_unknown env hl, Pool.close_unknown env hl']
    exact h.seen_goto hi (.replying _)
  · rw [Pool.close_known env hl, Pool.close_known env hl']
    exact h.seen_removed hi _ rfl rfl rfl rfl rfl h.backends (Or.inl ⟨rfl, rfl⟩) rfl rfl

theorem Alike.seen_destroy : Alike reqs id pairs (c.destroy env i id) (c'.destroy env i id) := by
  rcases h.entry_cases with ⟨hl, hl'⟩ | ⟨o, o', ho, hl, hl'⟩
  · rw [Pool.destroy_unknown env hl, Pool.destroy_unknown env hl']
    exact h.seen_goto hi (.replying _)
  obtain ⟨b, hb, hb'⟩ := h.backends o o' ho
  rcases hd : env.ops.destroy b.derived with ⟨result | e | _, x⟩
  · rw [Pool.destroy_returned env hl hb hd, Pool.destroy_returned env hl' hb' hd]
    exact h.seen_removed hi _ rfl rfl rfl rfl (List.length_set ..) (h.set ho _)
      (Or.inl ⟨rfl, rfl⟩) rfl rfl
  · rw [Pool.destroy_threw env hl hb hd, Pool.destroy_threw env hl' hb' hd]
    exact h.seen_removed hi _ rfl rfl rfl rfl (List.length_set ..) (h.set ho _)
      (Or.inr ⟨rfl, rfl⟩) rfl rfl
  · rw [Pool.destroy_undefined env hl hb hd, Pool.destroy_undefined env hl' hb' hd]
    exact h.seen_removed hi _ rfl rfl rfl rfl (List.length_set ..) (h.set ho _)
      (Or.inr ⟨rfl, rfl⟩) rfl rfl

theorem Alike.seen_find (send : String → Response) {next : Ref → Phase}
    (hnext : ∀ o o', pairs o o' → SamePhase pairs (next o) (next o')) :
    Alike reqs id pairs (c.find env i id send next) (c'.find env i id send next) := by
  rcases h.entry_cases with ⟨hl, hl'⟩ | ⟨o, o', ho, hl, hl'⟩
  · rw [Pool.find_unknown env hl, Pool.find_unknown env hl']
    exact h.seen_goto hi (.replying _)
  · rw [Pool.find_known env hl, Pool.find_known env hl']
    exact h.seen hi (hnext o o' ho) rfl rfl rfl rfl rfl h.backends h.entry
      (fun _ _ => rfl) h.history

theorem Alike.seen_lockedSection :
    Alike reqs id pairs (c.lockedSection env i (reqs i)) (c'.lockedSection env i (reqs i)) := by
  have heq : target (reqs i) = id := of_decide_eq_true hi
  cases hreq : reqs i with
  | createPhonebook | openPhonebook => exact h
  | closePhonebook token id₁ =>
    obtain rfl : id₁ = id := by
      rw [hreq] at heq
      exact heq
    exact h.seen_close hi
  | destroyPhonebook token id₁ =>
    obtain rfl : id₁ = id := by
      rw [hreq] at heq
      exact heq
    exact h.seen_destroy hi
  | checkPhonebook id₁ =>
    obtain rfl : id₁ = id := by
      rw [hreq] at heq
      exact heq
    rw [Pool.lockedSection, Pool.lockedSection]
    exact h.seen_find hi _ fun _ _ _ => .replying _
  | sayHello id₁ | computeSum id₁ x y =>
    obtain rfl : id₁ = id := by
      rw [hreq] at heq
      exact heq
    rw [Pool.lockedSection, Pool.lockedSection]
    exact h.seen_find hi _ fun _ _ ho => .found _ _ ho

theorem Alike.seen_call {o o' : Ref} (ho : pairs o o') (r : Request) :
    Alike reqs id pairs (c.call env i o r) (c'.call env i o' r) := by
  obtain ⟨b, hb, hb'⟩ := h.backends o o' ho
  simp only [Pool.call, hb, hb']
  exact h.seen hi (.replying _) rfl rfl rfl rfl (List.length_set ..) (h.set ho _) h.entry
    (fun _ _ => rfl) h.history

/-- **A step that is seen.** -/
theorem Alike.seen_step :
    ∃ pairs', Alike reqs id pairs' (c.step env i reqs) (c'.step env i reqs) := by
  have hnew : ∀ e : Event ι Outcome, e.isOf (about reqs id) = true →
      (c.history ++ [e]).filter (Event.isOf (about reqs id)) = c'.history ++ [e] := by
    intro e he
    rw [List.filter_append, List.filter_cons_of_pos he, List.filter_nil, h.history]
  have hsame := h.phases i hi
  unfold Pool.step
  generalize hph : c.phase i = ph, hph' : c'.phase i = ph' at hsame
  cases hsame with
  | idle =>
    exact ⟨pairs, h.seen hi .received rfl rfl rfl rfl rfl h.backends h.entry (fun _ _ => rfl)
      (hnew (.invoke i) hi)⟩
  | received => exact h.seen_prologue hi
  | built o o' ho => exact ⟨pairs, h.seen_insert hi ho⟩
  | ready => exact ⟨pairs, h.seen_lockedSection hi⟩
  | found o o' ho => exact ⟨pairs, h.seen_call hi ho (reqs i)⟩
  | replying out =>
    exact ⟨pairs, h.seen hi (.answered out) rfl rfl rfl rfl rfl h.backends h.entry (fun _ _ => rfl)
      (hnew (.answer i out) hi)⟩
  | answered out => exact ⟨pairs, h⟩

end Seen

/-! ### Runs -/

omit [DecidableEq ι] in
theorem alike_start (reqs : ι → Request) (id : UUID) (mToken : String) (s : Store α) :
    Alike reqs id (fun o o' => o = o' ∧ s.mBackends.lookup id = some o) (.start mToken s)
      (.start mToken s) := by
  refine ⟨rfl, ?_, ?_, ?_, ?_, fun i _ => .idle, fun i o _ hh => (by cases hh),
    fun id' o hne hl => ?_, rfl⟩
  · rintro o _ ⟨rfl, hl⟩
    have hb := List.getElem?_eq_getElem (s.allocated id o hl)
    exact ⟨_, hb, hb⟩
  · rintro o _ _ ⟨rfl, -⟩ ⟨rfl, -⟩
    rfl
  · rintro o₁ o₂ _ ⟨rfl, -⟩ ⟨rfl, -⟩
    rfl
  · show Option.Rel _ (s.mBackends.lookup id) (s.mBackends.lookup id)
    cases hl : s.mBackends.lookup id with
    | none => exact .none
    | some o => exact .some ⟨rfl, rfl⟩
  · refine ⟨s.allocated id' o hl, ?_⟩
    rintro _ ⟨rfl, hl'⟩
    exact hne (s.owned id' id o hl hl')

/-- A run and the run without the threads of the other requests. -/
theorem alike_run (env : Env α) (reqs : ι → Request) (mToken : String) (s : Store α) (id : UUID)
    (schedule : List ι) :
    ∃ pairs, Alike reqs id pairs (run env reqs (.start mToken s) schedule)
      (run env reqs (.start mToken s) (schedule.filter (about reqs id))) := by
  refine unwinding (fun c i => Pool.step env c i reqs) (fun c c' => ∃ pairs,
    Alike reqs id pairs c c') (about reqs id)
    ?_ ?_ ⟨_, alike_start reqs id mToken s⟩ schedule
  · rintro c c' i hi ⟨pairs, h⟩
    exact h.seen_step hi
  · rintro c c' i hi ⟨pairs, h⟩
    exact ⟨pairs, h.hidden_step hi⟩

/-- The backend that is registered under the id. -/
def registered (c : Pool ι α) (id : UUID) : Option (Backend α) :=
  (c.mBackends.lookup id).bind (c.heap[·]?)

omit [DecidableEq ι] in
theorem Alike.registered_eq (h : Alike reqs id pairs c c') :
    registered c id = registered c' id := by
  rcases h.entry_cases with ⟨hl, hl'⟩ | ⟨o, o', ho, hl, hl'⟩
  · rw [registered, registered, hl, hl']
    rfl
  · obtain ⟨b, hb, hb'⟩ := h.backends o o' ho
    rw [registered, registered, hl, hl', Option.bind_some, Option.bind_some, hb, hb']

/-- **Phonebooks do not interfere.** Whatever the schedule, and whatever the operations of the
backends do, each with its own object alone: if no handler has ended the process, the requests about
an id are received and answered as in the run of their threads alone, in the same order and with the
same outcomes. The backend that is registered under the id is as it is there, if there is one. -/
theorem isolation (env : Env α) (reqs : ι → Request) (mToken : String) (s : Store α) (id : UUID)
    (schedule : List ι) (hw : (poolRun env reqs mToken s schedule).whole = true) :
    let c := (poolRun env reqs mToken s schedule).state
    let c' := run env reqs (.start mToken s) (schedule.filter (about reqs id))
    c.history.filter (Event.isOf (about reqs id)) = c'.history ∧
      registered c id = registered c' id := by
  intro c c'
  obtain ⟨pairs, h⟩ := alike_run env reqs mToken s id schedule
  rw [← pool_of_whole hw] at h
  exact ⟨h.history, h.registered_eq⟩

/-- Two phonebooks are asked for at once, one of which is there. -/
def checkBoth : Bool → Request
  | false => .checkPhonebook ⟨fun _ => 1⟩
  | true => .checkPhonebook .clear

theorem isolation_checkBoth :
    let s : Store DummyPhonebook := Store.empty.insert .clear ⟨"dummy", ⟨.null⟩⟩
    let env := DummyPhonebook.env .sample uuidUnparse
    let schedule := [true, false, false, true, true, false, true, false]
    (poolRun env checkBoth "" s schedule).state.history.filter
      (Event.isOf (about checkBoth .clear)) =
      (run env checkBoth (.start "" s) (schedule.filter (about checkBoth .clear))).history := by
  intro s env schedule
  exact (isolation env checkBoth "" s .clear schedule rfl).1

/-- **Nor do they at the mutex.** When the threads lock `m_backends_mtx` statement by statement,
those of the requests about an id may have to wait for the others, even for ever, when a call of
another does not return or ends the process. Still, what they come to is what they come to alone on
some part of the schedule, if the operations of the backends act on their own object alone, one call
after the other. -/
theorem isolation_locked (env : Env α) (reqs : ι → Request) (hangs : ι → Pc → Bool)
    (mToken : String) (s : Store α) (id : UUID) (schedule : List ι) :
    ∃ schedule', schedule'.Sublist (schedule.filter (about reqs id)) ∧
      (processRun env reqs hangs mToken s schedule).state.history.filter
        (Event.isOf (about reqs id)) =
        (run env reqs (.start mToken s) schedule').history := by
  obtain ⟨schedule₀, hsub₀, hprocess⟩ := process_refines env reqs hangs mToken s schedule
  obtain ⟨schedule₁, hsub, hmap⟩ :=
    (pool_refines env reqs).run (consistent_start mToken s) schedule₀
  obtain ⟨pairs, h⟩ := alike_run env reqs mToken s id schedule₁
  refine ⟨schedule₁.filter (about reqs id), (hsub.trans hsub₀).filter _, ?_⟩
  rw [← h.history, hprocess]
  exact congrArg (fun c : Pool ι α => c.history.filter (Event.isOf (about reqs id))) hmap

end Phonebook.Server.Isolation
