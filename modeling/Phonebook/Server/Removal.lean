import Phonebook.Server.Destruction

/-! # Removing a phonebook once

Close and destroy each look the id up and erase its entry in one section under the lock, and destroy
calls the object in between. With ids that are drawn once, an id whose entry was erased never has
one again, and nobody owns the object any more. So of all threads that close or destroy an id one
finds its entry, if any, and no object is destroyed twice, or after it was closed
(`removed_once`). -/

namespace Phonebook.Server.Removal

open Phonebook.Data.Values Phonebook.Data.JsonTree Phonebook.Server.Backends
open Phonebook.Server.Provider Phonebook.Server.Handlers Phonebook.Server.Threads
open Phonebook.Server.Destruction Phonebook.Lib.Runs

variable {ι α : Type} [DecidableEq ι]

/-- The id a create or open draws. -/
def drawn : Request → Option UUID
  | .createPhonebook _ _ _ id | .openPhonebook _ _ _ id => some id
  | _ => none

/-- The token and the id of a close or destroy. -/
def removes : Request → Option (String × UUID)
  | .closePhonebook token id | .destroyPhonebook token id => some (token, id)
  | _ => none

/-- The thread and the object of an erase by close, and of a call of `destroy`. -/
def removal : Act ι → Option (ι × Ref)
  | .erase i o | .destroy i o _ => some (i, o)
  | _ => none

/-- The answer to a close or destroy of an id that is not registered. -/
def notFound (env : Env α) (id : UUID) : Outcome :=
  ([.bool ⟨false, "Phonebook " ++ env.uuidUnparse id ++ " not found"⟩], .returns ())

/-- The ids that create and open requests draw are drawn once, and not registered before. -/
structure FreshIds (reqs : ι → Request) (s : Store α) : Prop where
  distinct : ∀ i j id, drawn (reqs i) = some id → drawn (reqs j) = some id → i = j
  new : ∀ i id, drawn (reqs i) = some id → id ∉ s.mBackends

/-- Before the section of create and open. -/
def Pending : Phase → Prop
  | .idle | .received | .built _ => True
  | _ => False

/-- The thread has its outcome. -/
def Replies (ph : Phase) (out : Outcome) : Prop := ph = .replying out ∨ ph = .answered out

/-! ### What a step does about removals -/

/-- A close or destroy that passes the token check goes on with its outcome, if any, or to
`notFound`. -/
def KeepsOutcome (env : Env α) (reqs : ι → Request) (c : Pool ι α) (i : ι) (ph : Phase) : Prop :=
  ∀ token id out, removes (reqs i) = some (token, id) → ¬ Rejects c.mToken token → Replies ph out →
    Replies (c.phase i) out ∨ out = notFound env id

/-- A step moves the thread on and removes nothing, inserts the id it drew, or erases the entry of
the id it names, which it found. -/
inductive Did (env : Env α) (reqs : ι → Request) (c : Pool ι α) (i : ι) (c' : Pool ι α) : Prop
  | moved (ph : Phase) (new : List (Act ι)) (phase : c'.phase = Function.update c.phase i ph)
      (token : c'.mToken = c.mToken) (reg : c'.mBackends = c.mBackends)
      (log : c'.log = c.log ++ new) (removing : ∀ a ∈ new, removal a = none)
      (pending : Pending ph → Pending (c.phase i))
      (found : ∀ o, ph = .found o → removes (reqs i) = none)
      (outcome : KeepsOutcome env reqs c i ph)
  | inserted (id : UUID) (o : Ref) (out : Outcome) (draws : drawn (reqs i) = some id)
    (held : c.phase i = .built o) (phase : c'.phase = Function.update c.phase i (.replying out))
    (token : c'.mToken = c.mToken) (reg : c'.mBackends = c.mBackends.insert id o)
    (log : c'.log = c.log ++ [.insert i o])
  | removed (token : String) (id : UUID) (o : Ref) (out : Outcome) (a : Act ι)
      (names : removes (reqs i) = some (token, id)) (entry : c.mBackends.lookup id = some o)
      (phase : c'.phase = Function.update c.phase i (.replying out)) (token : c'.mToken = c.mToken)
      (reg : c'.mBackends = c.mBackends.erase id) (heap : c'.heap.length = c.heap.length)
      (log : c'.log = c.log ++ [a]) (act : removal a = some (i, o))

variable {env : Env α} {reqs : ι → Request} {c c' : Pool ι α} {i : ι}

omit [DecidableEq ι] in
theorem keepsOutcome_of_removes {ph : Phase} (hno : removes (reqs i) = none) :
    KeepsOutcome env reqs c i ph :=
  fun token id out h => by rw [hno] at h; cases h

omit [DecidableEq ι] in
theorem keepsOutcome_of_not_replies {ph : Phase} (h : ∀ out, ¬ Replies ph out) :
    KeepsOutcome env reqs c i ph :=
  fun _ _ out _ _ hr => absurd hr (h out)

theorem not_replies_received (out : Outcome) : ¬ Replies .received out :=
  fun h => h.elim nofun nofun

theorem not_replies_ready (out : Outcome) : ¬ Replies .ready out := fun h => h.elim nofun nofun

theorem did_stayed (hfound : ∀ o, c.phase i = .found o → removes (reqs i) = none) :
    Did env reqs c i c :=
  .moved (c.phase i) [] (Function.update_eq_self i c.phase).symm rfl rfl (by simp) (by simp)
    (fun h => h) hfound
    fun _ _ _ _ _ => Or.inl

theorem did_goto {ph : Phase} (hpending : Pending ph → Pending (c.phase i))
    (hfound : ∀ o, ph ≠ .found o)
    (houtcome : KeepsOutcome env reqs c i ph) : Did env reqs c i (c.goto i ph) :=
  .moved ph [] rfl rfl rfl (by simp [Pool.goto]) (by simp) hpending
    (fun o h => absurd h (hfound o)) houtcome

theorem did_rejected {token : String} {id : UUID} {out : Outcome}
    (hnames : removes (reqs i) = some (token, id))
    (hr : Rejects c.mToken token) : Did env reqs c i (c.goto i (.replying out)) := by
  refine did_goto (fun h => h.elim) nofun fun token' id' out' h hn => ?_
  cases hnames.symm.trans h
  exact absurd hr hn

theorem did_prologue (hph : c.phase i = .received) :
    Did env reqs c i (c.prologue env i (reqs i)) := by
  have hpending : Pending (c.phase i) := by rw [hph]; trivial
  have hready : Did env reqs c i (c.goto i .ready) :=
    did_goto (fun _ => hpending) nofun (keepsOutcome_of_not_replies not_replies_ready)
  have hbuild : ∀ x : Prepared α, removes (reqs i) = none → Did env reqs c i (c.build i x) := by
    intro x hno
    rcases x with error | exit | b
    · exact did_goto (fun _ => hpending) nofun (keepsOutcome_of_removes hno)
    · exact did_goto (fun _ => hpending) nofun (keepsOutcome_of_removes hno)
    · exact .moved (.built c.heap.length) [] rfl rfl rfl (by simp [Pool.build, Pool.goto]) (by simp)
        (fun _ => hpending) nofun (keepsOutcome_of_removes hno)
  rcases hreq : reqs i with ⟨token, ty, config, id⟩ | ⟨token, ty, config, id⟩ | ⟨token, id⟩ |
    ⟨token, id⟩ | id | id | ⟨id, x, y⟩
  · exact hbuild _ (by rw [hreq]; rfl)
  · exact hbuild _ (by rw [hreq]; rfl)
  · rw [Pool.prologue]
    split_ifs with hr
    · exact did_rejected (by rw [hreq]; rfl) hr
    · exact hready
  · rw [Pool.prologue]
    split_ifs with hr
    · exact did_rejected (by rw [hreq]; rfl) hr
    · exact hready
  · exact hready
  · exact hready
  · exact hready

theorem did_find (hno : removes (reqs i) = none) (id : UUID) (send : String → Response)
    (next : Ref → Phase)
    (hnext : ∀ o, ¬ Pending (next o)) : Did env reqs c i (c.find env i id send next) := by
  rcases hl : c.mBackends.lookup id with _ | o
  · rw [Pool.find_unknown env hl]
    exact did_goto (fun h => h.elim) nofun (keepsOutcome_of_removes hno)
  · rw [Pool.find_known env hl]
    exact .moved (next o) [.lookup i o] rfl rfl rfl rfl (by simp [removal])
      (fun h => absurd h (hnext o))
      (fun _ _ => hno) (keepsOutcome_of_removes hno)

theorem did_unknown {token : String} {id : UUID} (hnames : removes (reqs i) = some (token, id)) :
    Did env reqs c i (c.goto i (.replying (notFound env id))) := by
  refine did_goto (fun h => h.elim) nofun fun token' id' out h _ hr => Or.inr ?_
  cases hnames.symm.trans h
  rcases hr with heq | heq
  · exact (Phase.replying.inj heq).symm
  · cases heq

theorem did_lockedSection (hdestroy : ∀ a, (env.ops.destroy a).1.Normal)
    (hph : c.phase i = .ready) :
    Did env reqs c i (c.lockedSection env i (reqs i)) := by
  have hstayed : Did env reqs c i c := did_stayed fun o h => by rw [hph] at h; cases h
  rcases hreq : reqs i with ⟨token, ty, config, id⟩ | ⟨token, ty, config, id⟩ | ⟨token, id⟩ |
    ⟨token, id⟩ | id | id | ⟨id, x, y⟩
  · exact hstayed
  · exact hstayed
  · have hnames : removes (reqs i) = some (token, id) := by rw [hreq]; rfl
    rw [Pool.lockedSection]
    rcases hl : c.mBackends.lookup id with _ | o
    · rw [Pool.close_unknown env hl]
      exact did_unknown hnames
    · rw [Pool.close_known env hl]
      exact .removed token id o _ _ hnames hl rfl rfl rfl rfl rfl rfl
  · have hnames : removes (reqs i) = some (token, id) := by rw [hreq]; rfl
    rw [Pool.lockedSection]
    rcases hl : c.mBackends.lookup id with _ | o
    · rw [Pool.destroy_unknown env hl]
      exact did_unknown hnames
    rcases hb : c.heap[o]? with _ | b
    · rw [show c.destroy env i id = c by simp only [Pool.destroy, hl, hb]]
      exact hstayed
    obtain ⟨result, hresult⟩ := hdestroy b.derived
    rw [Pool.destroy_returned env hl hb (Prod.ext hresult rfl)]
    exact .removed token id o _ _ hnames hl rfl rfl rfl (List.length_set ..) rfl rfl
  all_goals
    have hno : removes (reqs i) = none := by rw [hreq]; rfl
    rw [Pool.lockedSection]
    exact did_find hno _ _ _ fun o h => h

/-- **One step.** -/
theorem did_step (hdestroy : ∀ a, (env.ops.destroy a).1.Normal)
    (hfound : ∀ o, c.phase i = .found o → removes (reqs i) = none) :
    Did env reqs c i (c.step env i reqs) := by
  unfold Pool.step
  rcases hph : c.phase i with _ | _ | o | _ | o | out | out
  · exact .moved .received [] rfl rfl rfl (by simp [Pool.receive, Pool.goto]) (by simp)
      (fun _ => by rw [hph]; trivial) (by rintro _ ⟨⟩)
        (keepsOutcome_of_not_replies not_replies_received)
  · exact did_prologue hph
  · rcases hreq : reqs i with ⟨token, ty, config, id⟩ | ⟨token, ty, config, id⟩ | ⟨token, id⟩ |
      ⟨token, id⟩ | id | id | ⟨id, x, y⟩
    · exact .inserted id o _ (by rw [hreq]; rfl) hph rfl rfl rfl rfl
    · exact .inserted id o _ (by rw [hreq]; rfl) hph rfl rfl rfl rfl
    all_goals exact did_stayed hfound
  · exact did_lockedSection hdestroy hph
  · show Did env reqs c i (c.call env i o (reqs i))
    rcases hb : c.heap[o]? with _ | b
    · rw [show c.call env i o (reqs i) = c by simp only [Pool.call, hb]]
      exact did_stayed hfound
    · simp only [Pool.call, hb]
      exact .moved _ [.call i o] rfl rfl rfl rfl (by simp [removal]) (fun h => h.elim)
        (by rintro _ ⟨⟩)
        (keepsOutcome_of_removes (hfound o hph))
  · refine .moved (.answered out) [] rfl rfl rfl (by simp [Pool.answer, Pool.goto]) (by simp)
      (fun h => h.elim)
      (by rintro _ ⟨⟩) fun _ _ out' _ _ hr => Or.inl ?_
    rcases hr with heq | heq
    · cases heq
    · obtain rfl : out = out' := Phase.answered.inj heq
      exact Or.inl hph
  · exact did_stayed hfound

/-! ### The invariant -/

/-- Two entries of a log do not remove one object, or by requests that name one id. -/
def Apart (reqs : ι → Request) (a b : Act ι) : Prop :=
  ∀ i o j o', removal a = some (i, o) → removal b = some (j, o') →
    o ≠ o' ∧ ∀ token token' id, removes (reqs i) = some (token, id) →
      removes (reqs j) ≠ some (token', id)

/-- Removed objects are gone and their ids used up; an id that is still to be inserted is not
registered. -/
structure Once (env : Env α) (reqs : ι → Request) (mToken : String) (c : Pool ι α) : Prop where
  token : c.mToken = mToken
  found : ∀ i o, c.phase i = .found o → removes (reqs i) = none
  gone : ∀ a ∈ c.log, ∀ i o, removal a = some (i, o) → Gone c o
  unregistered : ∀ a ∈ c.log, ∀ i o, removal a = some (i, o) →
    ∀ token id, removes (reqs i) = some (token, id) → id ∉ c.mBackends
  inserted : ∀ a ∈ c.log, ∀ i o, removal a = some (i, o) →
    ∀ token id, removes (reqs i) = some (token, id) →
      ∀ j, drawn (reqs j) = some id → ¬ Pending (c.phase j)
  pending : ∀ j id, drawn (reqs j) = some id → Pending (c.phase j) → id ∉ c.mBackends
  apart : c.log.Pairwise (Apart reqs)
  outcome : ∀ i token id out, removes (reqs i) = some (token, id) → ¬ Rejects mToken token →
    Replies (c.phase i) out → (∃ a ∈ c.log, ∃ o, removal a = some (i, o)) ∨ out = notFound env id

omit [DecidableEq ι] in
theorem once_start {s : Store α} (hids : FreshIds reqs s) (mToken : String) :
    Once env reqs mToken (.start mToken s) where
  token := rfl
  found := nofun
  gone := nofun
  unregistered := nofun
  inserted := nofun
  pending j id hd _ := hids.new j id hd
  apart := .nil
  outcome := fun _ _ _ _ _ _ h => h.elim nofun nofun

theorem removes_of_drawn {r : Request} {id : UUID} (h : drawn r = some id) : removes r = none := by
  rcases r with ⟨_, _, _, _⟩ | ⟨_, _, _, _⟩ | ⟨_, _⟩ | ⟨_, _⟩ | _ | _ | ⟨_, _, _⟩ <;>
    first | rfl | cases h

section Log
omit [DecidableEq ι]
variable {new : List (Act ι)} (hlog : c'.log = c.log ++ new) (hnew : ∀ a ∈ new, removal a = none)
include hlog hnew

theorem mem_of_removal {a : Act ι} {x : ι × Ref} (ha : a ∈ c'.log) (hx : removal a = some x) :
    a ∈ c.log := by
  rw [hlog, List.mem_append] at ha
  refine ha.resolve_right fun hn => ?_
  rw [hnew a hn] at hx
  cases hx

theorem apart_append (h : c.log.Pairwise (Apart reqs)) : c'.log.Pairwise (Apart reqs) := by
  have hlast : ∀ a, ∀ b ∈ new, Apart reqs a b := by
    intro a b hb j o k o' hx hy
    rw [hnew b hb] at hy
    cases hy
  rw [hlog, List.pairwise_append]
  exact ⟨h, List.pairwise_of_forall_mem_list fun a _ => hlast a, fun a _ => hlast a⟩

end Log

omit [DecidableEq ι] in
theorem removed_mono {new : List (Act ι)} (hlog : c'.log = c.log ++ new) {j : ι} {P : Prop}
    (h : (∃ a ∈ c.log, ∃ o, removal a = some (j, o)) ∨ P) :
    (∃ a ∈ c'.log, ∃ o, removal a = some (j, o)) ∨ P := by
  refine h.imp_left fun ⟨a, ha, hx⟩ => ⟨a, ?_, hx⟩
  rw [hlog]
  exact List.mem_append_left _ ha

section Step
variable {mToken : String} (h : Once env reqs mToken c)
include h

theorem Once.moved {ph : Phase} {new : List (Act ι)} (heff : Effect c i c')
    (hphase : c'.phase = Function.update c.phase i ph) (htoken : c'.mToken = c.mToken)
    (hreg : c'.mBackends = c.mBackends) (hlog : c'.log = c.log ++ new)
    (hnew : ∀ a ∈ new, removal a = none) (hpending : Pending ph → Pending (c.phase i))
    (hfound : ∀ o, ph = .found o → removes (reqs i) = none)
    (houtcome : KeepsOutcome env reqs c i ph) : Once env reqs mToken c' := by
  have hold : ∀ a ∈ c'.log, ∀ x, removal a = some x → a ∈ c.log :=
    fun a ha x => mem_of_removal hlog hnew ha
  have hpend : ∀ j, Pending (c'.phase j) → Pending (c.phase j) := by
    intro j hj
    rcases phase_of_update hphase hj with ⟨-, hp⟩ | ⟨rfl, hp⟩
    · exact hp
    · exact hpending hp
  refine ⟨htoken.trans h.token, ?_, ?_, ?_, ?_, ?_, apart_append hlog hnew h.apart, ?_⟩
  · intro j o hj
    rcases found_of_update hphase hj with hf | ⟨rfl, hf⟩
    · exact h.found j o hf
    · exact hfound o hf
  · exact fun a ha j o hx => (h.gone a (hold a ha _ hx) j o hx).effect heff
  · exact fun a ha j o hx => hreg ▸ h.unregistered a (hold a ha _ hx) j o hx
  · exact fun a ha j o hx token id hr k hk hp =>
      h.inserted a (hold a ha _ hx) j o hx token id hr k hk (hpend k hp)
  · exact fun j id hj hp => hreg ▸ h.pending j id hj (hpend j hp)
  · intro j token id out hr hn hout
    refine removed_mono hlog ?_
    rcases phase_of_update (P := (Replies · out)) hphase hout with ⟨-, hbefore⟩ | ⟨rfl, hnow⟩
    · exact h.outcome j token id out hr hn hbefore
    · rcases houtcome token id out hr (h.token ▸ hn) hnow with hbefore | hunknown
      · exact h.outcome j token id out hr hn hbefore
      · exact Or.inr hunknown

/-- The section of create and open keeps the invariant: nobody else draws the id, and it was not
removed. -/
theorem Once.inserts {s : Store α} (hids : FreshIds reqs s) {id : UUID} {o : Ref} {out : Outcome}
    (heff : Effect c i c') (hdraws : drawn (reqs i) = some id) (hheld : c.phase i = .built o)
    (hphase : c'.phase = Function.update c.phase i (.replying out)) (htoken : c'.mToken = c.mToken)
    (hreg : c'.mBackends = c.mBackends.insert id o) (hlog : c'.log = c.log ++ [.insert i o]) :
    Once env reqs mToken c' := by
  have hnew : ∀ a ∈ [Act.insert i o], removal a = none := by simp [removal]
  have hold : ∀ a ∈ c'.log, ∀ x, removal a = some x → a ∈ c.log :=
    fun a ha x => mem_of_removal hlog hnew ha
  have hbuilt : Pending (c.phase i) := by rw [hheld]; trivial
  have hpend : ∀ j, Pending (c'.phase j) → j ≠ i ∧ Pending (c.phase j) := fun j hj =>
    (phase_of_update hphase hj).resolve_right fun hp => hp.2
  have hother : ∀ id', id' ≠ id → id' ∉ c.mBackends → id' ∉ c'.mBackends := by
    intro id' hne hno hmem
    rw [hreg, Finmap.mem_insert] at hmem
    exact hmem.elim hne hno
  refine ⟨htoken.trans h.token, ?_, ?_, ?_, ?_, ?_, apart_append hlog hnew h.apart, ?_⟩
  · intro j o' hj
    rcases found_of_update hphase hj with hf | ⟨-, hf⟩
    · exact h.found j o' hf
    · cases hf
  · exact fun a ha j o' hx => (h.gone a (hold a ha _ hx) j o' hx).effect heff
  · intro a ha j o' hx token id' hr
    have hused := h.inserted a (hold a ha _ hx) j o' hx token id' hr i
    exact hother id' (fun heq => hused (heq ▸ hdraws) hbuilt)
      (h.unregistered a (hold a ha _ hx) j o' hx token id' hr)
  · exact fun a ha j o' hx token id' hr k hk hp =>
      h.inserted a (hold a ha _ hx) j o' hx token id' hr k hk (hpend k hp).2
  · intro j id' hj hp
    obtain ⟨hji, hp⟩ := hpend j hp
    exact hother id' (fun heq => hji (hids.distinct j i id (heq ▸ hj) hdraws))
      (h.pending j id' hj hp)
  · intro j token id' out' hr hn hout
    rcases phase_of_update (P := (Replies · out')) hphase hout with ⟨-, hbefore⟩ | ⟨rfl, -⟩
    · exact removed_mono hlog (h.outcome j token id' out' hr hn hbefore)
    · rw [removes_of_drawn hdraws] at hr
      cases hr

/-- The section of close and destroy keeps the invariant: the object that goes has an owner until
now, and the id an entry. -/
theorem Once.removes {token : String} {id : UUID} {o : Ref} {out : Outcome} {a : Act ι}
    (hown : Owned c) (heff : Effect c i c') (hnames : removes (reqs i) = some (token, id))
    (hentry : c.mBackends.lookup id = some o)
    (hphase : c'.phase = Function.update c.phase i (.replying out)) (htoken : c'.mToken = c.mToken)
    (hreg : c'.mBackends = c.mBackends.erase id) (hheap : c'.heap.length = c.heap.length)
    (hlog : c'.log = c.log ++ [a]) (hact : removal a = some (i, o)) : Once env reqs mToken c' := by
  have hmem : id ∈ c.mBackends := Finmap.mem_of_lookup_eq_some hentry
  have hpend : ∀ j, Pending (c'.phase j) → Pending (c.phase j) := fun j hj =>
    ((phase_of_update hphase hj).resolve_right fun hp => hp.2).2
  have hshrink : ∀ id', id' ∉ c.mBackends → id' ∉ c'.mBackends := by
    intro id' hno hmem
    rw [hreg, Finmap.mem_erase] at hmem
    exact hno hmem.2
  -- a removal is this one or one of before
  have hcases : ∀ b ∈ c'.log, ∀ j o', removal b = some (j, o') → (j = i ∧ o' = o) ∨ b ∈ c.log := by
    intro b hb j o' hx
    rw [hlog, List.mem_append, List.mem_singleton] at hb
    rcases hb with hb | rfl
    · exact Or.inr hb
    · exact Or.inl (Prod.mk.inj (Option.some.inj (hx.symm.trans hact)))
  refine ⟨htoken.trans h.token, ?_, ?_, ?_, ?_, ?_, ?_, ?_⟩
  · intro j o' hj
    rcases found_of_update hphase hj with hf | ⟨-, hf⟩
    · exact h.found j o' hf
    · cases hf
  · intro b hb j o' hx
    rcases hcases b hb j o' hx with ⟨rfl, rfl⟩ | hb
    · exact hown.gone_of_removed rfl hentry hphase hreg hheap
    · exact (h.gone b hb j o' hx).effect heff
  · intro b hb j o' hx token' id' hr
    rcases hcases b hb j o' hx with ⟨rfl, rfl⟩ | hb
    · cases hnames.symm.trans hr
      rw [hreg]
      exact Finmap.notMem_erase_self
    · exact hshrink id' (h.unregistered b hb j o' hx token' id' hr)
  · intro b hb j o' hx token' id' hr k hk hp
    rcases hcases b hb j o' hx with ⟨rfl, rfl⟩ | hb
    · cases hnames.symm.trans hr
      exact h.pending k id hk (hpend k hp) hmem
    · exact h.inserted b hb j o' hx token' id' hr k hk (hpend k hp)
  · exact fun j id' hj hp => hshrink id' (h.pending j id' hj (hpend j hp))
  · rw [hlog, List.pairwise_append]
    refine ⟨h.apart, List.pairwise_singleton _ _, fun b hb a' ha' j o' k o'' hx hy => ?_⟩
    rw [List.mem_singleton.mp ha'] at hy
    obtain ⟨rfl, rfl⟩ := Prod.mk.inj (Option.some.inj (hy.symm.trans hact))
    constructor
    · rintro rfl
      exact (h.gone b hb j _ hx).2 (.entry id) hentry
    · intro token' token'' id' hr hr'
      cases hnames.symm.trans hr'
      exact h.unregistered b hb j o' hx token' id hr hmem
  · intro j token' id' out' hr hn hout
    rcases phase_of_update (P := (Replies · out')) hphase hout with ⟨-, hbefore⟩ | ⟨rfl, -⟩
    · exact removed_mono hlog (h.outcome j token' id' out' hr hn hbefore)
    · exact Or.inl ⟨a, by rw [hlog]; simp, o, hact⟩

/-- **One step** keeps the invariant. -/
theorem Once.step {s : Store α} (hdestroy : ∀ a, (env.ops.destroy a).1.Normal)
    (hids : FreshIds reqs s)
    (hown : Owned c) (i : ι) : Once env reqs mToken (c.step env i reqs) := by
  have heff : Effect c i (c.step env i reqs) := effect_step c i
  rcases did_step hdestroy (h.found i) with ⟨ph, new, phase, token, reg, log, removing, pending,
    found, outcome⟩ |
    ⟨id, o, out, draws, held, phase, token, reg, log⟩ |
    ⟨token, id, o, out, a, names, entry, phase, token', reg, heap, log, act⟩
  · exact h.moved heff phase token reg log removing pending found outcome
  · exact h.inserts hids heff draws held phase token reg log
  · exact h.removes hown heff names entry phase token' reg heap log act

end Step

theorem once_run {s : Store α} (hdestroy : ∀ a, (env.ops.destroy a).1.Normal)
    (hids : FreshIds reqs s) (mToken : String) (schedule : List ι) :
    Once env reqs mToken (run env reqs (.start mToken s) schedule) := by
  refine (exec_induction (fun c i => Pool.step env c i reqs)
    (P := fun c => Owned c ∧ Once env reqs mToken c) ⟨?_, once_start hids mToken⟩ ?_ schedule).2
  · exact (ordered_run env reqs mToken s []).1
  · exact fun c i h => ⟨h.1.effect (effect_step c i), h.2.step hdestroy hids h.1 i⟩

/-- **Removing once.** If `destroy` returns and the ids that are drawn are fresh, then under any
schedule no object is destroyed twice, or after a close or destroy erased its entry; of the requests
to close or destroy an id one at most erases an entry; and every other that is answered and passes
the token check is answered `notFound`. -/
theorem removed_once (env : Env α) (reqs : ι → Request) (mToken : String) (s : Store α)
    (hdestroy : ∀ a, (env.ops.destroy a).1.Normal) (hids : FreshIds reqs s) (schedule : List ι) :
    (∀ pre a post i o, (run env reqs (.start mToken s) schedule).log = pre ++ a :: post →
      removal a = some (i, o) →
      ∀ j returned, .destroy j o returned ∉ post) ∧
    (∀ pre a post i o token id, (run env reqs (.start mToken s) schedule).log = pre ++ a :: post →
      removal a = some (i, o) → removes (reqs i) = some (token, id) →
      ∀ b ∈ post, ∀ j o' token', removal b = some (j, o') → removes (reqs j) ≠ some (token', id)) ∧
    ∀ i token id out, removes (reqs i) = some (token, id) → ¬ Rejects mToken token →
      (run env reqs (.start mToken s) schedule).phase i = .answered out →
      (∃ a ∈ (run env reqs (.start mToken s) schedule).log, ∃ o, removal a = some (i, o)) ∨
        out = notFound env id := by
  have h := once_run hdestroy hids mToken schedule
  have hapart : ∀ pre a post, (run env reqs (.start mToken s) schedule).log = pre ++ a :: post →
      ∀ b ∈ post, Apart reqs a b := by
    intro pre a post hlog b hb
    have hp := h.apart
    rw [hlog, List.pairwise_append, List.pairwise_cons] at hp
    exact hp.2.1.1 b hb
  refine ⟨?_, ?_, ?_⟩
  · intro pre a post i o hlog hx j returned hd
    exact (hapart pre a post hlog _ hd i o j o hx rfl).1 rfl
  · intro pre a post i o token id hlog hx hr b hb j o' token' hy
    exact (hapart pre a post hlog b hb i o j o' hx hy).2 token token' id hr
  · exact fun i token id out hr hn hout => h.outcome i token id out hr hn (Or.inr hout)

/-- Three threads at a provider with dummy phonebooks: one creates a phonebook, one destroys it, one
closes it. -/
def createDestroyClose : ℕ → Request
  | 0 => .createPhonebook "" "dummy" "{}" .clear
  | 1 => .destroyPhonebook "" .clear
  | _ => .closePhonebook "" .clear

/-- Both removers pass the token check before either takes the lock. -/
def destroyFirst : Pool ℕ DummyPhonebook :=
  run (DummyPhonebook.env .sample uuidUnparse) createDestroyClose (.start "" .empty)
    [0, 0, 0, 1, 1, 2, 2, 1, 2, 2]

theorem log_destroyFirst : destroyFirst.log = [.insert 0 0, .destroy 1 0 true] := by decide

theorem drawn_createDestroyClose {i : ℕ} {id : UUID} (h : drawn (createDestroyClose i) = some id) :
    i = 0 ∧ id = .clear := by
  match i with
  | 0 => exact ⟨rfl, (Option.some.inj h).symm⟩
  | 1 | _ + 2 => cases h

theorem freshIds_createDestroyClose :
    FreshIds createDestroyClose (.empty : Store DummyPhonebook) where
  distinct _ _ _ hi hj := (drawn_createDestroyClose hi).1.trans (drawn_createDestroyClose hj).1.symm
  new _ _ _ := Finmap.notMem_empty

theorem removed_once_destroyFirst :
    ∃ out, destroyFirst.phase 2 = .answered out ∧
      out = notFound (DummyPhonebook.env .sample uuidUnparse) .clear := by
  obtain ⟨out, hout⟩ : ∃ out, destroyFirst.phase 2 = .answered out := ⟨_, rfl⟩
  obtain ⟨-, -, houtcome⟩ :=
    removed_once (DummyPhonebook.env .sample uuidUnparse) createDestroyClose "" .empty
    (fun a => ⟨_, rfl⟩) freshIds_createDestroyClose [0, 0, 0, 1, 1, 2, 2, 1, 2, 2]
  refine ⟨out, hout, (houtcome 2 "" .clear out rfl (by decide) hout).resolve_left ?_⟩
  rintro ⟨a, ha, o, hx⟩
  rw [show (run _ _ _ _).log = _ from log_destroyFirst] at ha
  rcases List.mem_cons.mp ha with rfl | ha
  · cases hx
  · rw [List.mem_singleton.mp ha] at hx
    cases hx

end Phonebook.Server.Removal
