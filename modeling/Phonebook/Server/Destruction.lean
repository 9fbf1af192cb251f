import Phonebook.Server.Threads

/-! # Calls on a destroyed backend

`FIND_PHONEBOOK` copies the shared pointer under the lock and calls the backend after it, so a
thread may call an object that another has destroyed meanwhile (`not_quietAfterDestroy`). Only such
threads do: after a `destroy` that returned, no thread finds the object any more, and who calls it
had found it before (`called_by_earlier_finder`). The invariant behind it is that an object has one
owner, an entry of the registry or the thread about to insert it, and none once it is destroyed. -/

namespace Phonebook.Server.Destruction

open Phonebook.Data.Values Phonebook.Data.JsonTree Phonebook.Server.Backends
open Phonebook.Server.Provider Phonebook.Server.Handlers Phonebook.Server.Threads Phonebook.Lib.Runs

variable {ι α : Type} [DecidableEq ι] {env : Env α} {reqs : ι → Request} {c c' : Pool ι α} {i : ι}

/-! ### What a step does to the registry and the log -/

/-- The thread holds no object in this phase. -/
def HoldsNothing (ph : Phase) : Prop := ∀ o, ph ≠ .built o ∧ ph ≠ .found o

/-- The effects a step of the thread of `i` may have. -/
inductive Effect (c : Pool ι α) (i : ι) (c' : Pool ι α) : Prop
  | stayed (same : c' = c)
  | moved (ph : Phase) (empty : HoldsNothing ph) (phase : c'.phase = Function.update c.phase i ph)
      (reg : c'.mBackends = c.mBackends) (heap : c'.heap.length = c.heap.length)
      (log : c'.log = c.log)
  | made (phase : c'.phase = Function.update c.phase i (.built c.heap.length))
      (reg : c'.mBackends = c.mBackends) (heap : c'.heap.length = c.heap.length + 1)
      (log : c'.log = c.log)
  | inserted (o : Ref) (id : UUID) (ph : Phase) (empty : HoldsNothing ph)
    (held : c.phase i = .built o) (phase : c'.phase = Function.update c.phase i ph)
        (reg : c'.mBackends = c.mBackends.insert id o)
      (heap : c'.heap.length = c.heap.length) (log : c'.log = c.log ++ [.insert i o])
  | removed (o : Ref) (id : UUID) (ph : Phase) (a : Act ι) (empty : HoldsNothing ph)
      (entry : c.mBackends.lookup id = some o) (phase : c'.phase = Function.update c.phase i ph)
      (reg : c'.mBackends = c.mBackends.erase id) (heap : c'.heap.length = c.heap.length)
      (log : c'.log = c.log ++ [a]) (act : a = .erase i o ∨ a = .destroy i o true)
  | threw (o : Ref) (ph : Phase) (empty : HoldsNothing ph)
    (phase : c'.phase = Function.update c.phase i ph) (reg : c'.mBackends = c.mBackends)
    (heap : c'.heap.length = c.heap.length) (log : c'.log = c.log ++ [.destroy i o false])
  | looked (o : Ref) (id : UUID) (ph : Phase) (next : ph = .found o ∨ HoldsNothing ph)
      (entry : c.mBackends.lookup id = some o) (phase : c'.phase = Function.update c.phase i ph)
      (reg : c'.mBackends = c.mBackends) (heap : c'.heap.length = c.heap.length)
      (log : c'.log = c.log ++ [.lookup i o])
  | called (o : Ref) (ph : Phase) (empty : HoldsNothing ph) (held : c.phase i = .found o)
      (phase : c'.phase = Function.update c.phase i ph) (reg : c'.mBackends = c.mBackends)
      (heap : c'.heap.length = c.heap.length) (log : c'.log = c.log ++ [.call i o])

theorem holdsNothing_replying (out : Outcome) : HoldsNothing (.replying out) :=
  fun _ => ⟨nofun, nofun⟩

theorem effect_goto {ph : Phase} (h : HoldsNothing ph) : Effect c i (c.goto i ph) :=
  .moved ph h rfl rfl rfl rfl

theorem effect_build (x : Prepared α) : Effect c i (c.build i x) := by
  cases x with
  | refused error => exact effect_goto (holdsNothing_replying _)
  | escaped exit => exact effect_goto (holdsNothing_replying _)
  | built b => exact .made rfl rfl (by simp [Pool.build]) rfl

theorem effect_find (id : UUID) (send : String → Response) (next : Ref → Phase)
    (hnext : ∀ o, next o = .found o ∨ HoldsNothing (next o)) :
    Effect c i (c.find env i id send next) := by
  rcases hl : c.mBackends.lookup id with _ | o
  · rw [Pool.find_unknown env hl]
    exact effect_goto (holdsNothing_replying _)
  · rw [Pool.find_known env hl]
    exact .looked o id _ (hnext o) hl rfl rfl rfl rfl

theorem effect_lockedSection (r : Request) : Effect c i (c.lockedSection env i r) := by
  cases r with
  | createPhonebook | openPhonebook => exact .stayed rfl
  | closePhonebook token id =>
    rw [Pool.lockedSection]
    rcases hl : c.mBackends.lookup id with _ | o
    · rw [Pool.close_unknown env hl]
      exact effect_goto (holdsNothing_replying _)
    · rw [Pool.close_known env hl]
      exact .removed o id _ _ (holdsNothing_replying _) hl rfl rfl rfl rfl (Or.inl rfl)
  | destroyPhonebook token id =>
    rw [Pool.lockedSection]
    rcases hl : c.mBackends.lookup id with _ | o
    · rw [Pool.destroy_unknown env hl]
      exact effect_goto (holdsNothing_replying _)
    rcases hb : c.heap[o]? with _ | b
    · exact .stayed (by simp only [Pool.destroy, hl, hb])
    rcases hd : env.ops.destroy b.derived with ⟨result | e | _, d⟩
    · rw [Pool.destroy_returned env hl hb hd]
      exact .removed o id _ _ (holdsNothing_replying _) hl rfl rfl (List.length_set ..) rfl
        (Or.inr rfl)
    · rw [Pool.destroy_threw env hl hb hd]
      exact .threw o _ (holdsNothing_replying _) rfl rfl (List.length_set ..) rfl
    · rw [Pool.destroy_undefined env hl hb hd]
      exact .threw o _ (holdsNothing_replying _) rfl rfl (List.length_set ..) rfl
  | checkPhonebook id =>
    rw [Pool.lockedSection]
    exact effect_find id _ _ fun o => Or.inr (holdsNothing_replying _)
  | sayHello id =>
    rw [Pool.lockedSection]
    exact effect_find id _ _ fun o => Or.inl rfl
  | computeSum id x y =>
    rw [Pool.lockedSection]
    exact effect_find id _ _ fun o => Or.inl rfl

/-- **One step** has one of these effects. -/
theorem effect_step (c : Pool ι α) (i : ι) : Effect c i (c.step env i reqs) := by
  unfold Pool.step
  cases hph : c.phase i with
  | idle => exact .moved .received (fun _ => ⟨nofun, nofun⟩) rfl rfl rfl rfl
  | received =>
    unfold Pool.prologue
    cases reqs i with
    | createPhonebook | openPhonebook => exact effect_build _
    | closePhonebook | destroyPhonebook =>
      dsimp only
      split_ifs
      · exact effect_goto (holdsNothing_replying _)
      · exact effect_goto fun _ => ⟨nofun, nofun⟩
    | checkPhonebook | sayHello | computeSum => exact effect_goto fun _ => ⟨nofun, nofun⟩
  | built o =>
    cases hreq : reqs i with
    | createPhonebook token ty config id | openPhonebook token ty config id =>
      exact .inserted o id _ (holdsNothing_replying _) hph rfl rfl rfl rfl
    | closePhonebook | destroyPhonebook | checkPhonebook | sayHello | computeSum =>
      exact .stayed rfl
  | ready => exact effect_lockedSection (reqs i)
  | found o =>
    rcases hb : c.heap[o]? with _ | b
    · exact .stayed (by simp only [Pool.call, hb])
    · simp only [Pool.call, hb]
      exact .called o _ (holdsNothing_replying _) hph rfl rfl (List.length_set ..) rfl
  | replying out => exact .moved (.answered out) (fun _ => ⟨nofun, nofun⟩) rfl rfl rfl rfl
  | answered out => exact .stayed rfl

/-! ### Owners -/

/-- Who may own an object: an entry of the registry, or the thread that made it. -/
inductive Owner (ι : Type) where
  | entry (id : UUID)
  | thread (i : ι)

/-- The object a thread has made and not yet inserted. -/
def builtObject : Phase → Option Ref
  | .built o => some o
  | _ => none

/-- The object an owner has. -/
def owned (c : Pool ι α) : Owner ι → Option Ref
  | .entry id => c.mBackends.lookup id
  | .thread i => builtObject (c.phase i)

/-- An object has at most one owner, is allocated, and has no owner after it was destroyed. -/
structure Owned (c : Pool ι α) : Prop where
  single : ∀ a a' o, owned c a = some o → owned c a' = some o → a = a'
  allocated : ∀ a o, owned c a = some o → o < c.heap.length
  destroyed : ∀ i o, .destroy i o true ∈ c.log → o < c.heap.length ∧ ∀ a, owned c a ≠ some o

theorem builtObject_of_holdsNothing {ph : Phase} (hph : HoldsNothing ph) :
    builtObject ph = none := by
  cases ph with
  | built o => exact absurd rfl (hph o).1
  | _ => rfl

theorem owned_thread {ph : Phase} (hphase : c'.phase = Function.update c.phase i ph) (j : ι) :
    owned c' (.thread j) = if j = i then builtObject ph else owned c (.thread j) := by
  show builtObject (c'.phase j) = _
  rw [hphase, Function.update_apply]
  split_ifs <;> rfl

theorem owned_thread_shrink {ph : Phase} (hph : builtObject ph = none)
    (hphase : c'.phase = Function.update c.phase i ph) {j : ι} {o : Ref}
    (h : owned c' (.thread j) = some o) : j ≠ i ∧ owned c (.thread j) = some o := by
  rw [owned_thread hphase] at h
  split_ifs at h with hj
  · rw [hph] at h
    cases h
  · exact ⟨hj, h⟩

theorem owned_of_reg {ph : Phase} (hph : builtObject ph = none)
    (hphase : c'.phase = Function.update c.phase i ph) (hreg : c'.mBackends = c.mBackends)
    (a : Owner ι) (o : Ref) (h : owned c' a = some o) :
    owned c a = some o := by
  rcases a with id | j
  · exact (congrArg (Finmap.lookup id) hreg).symm.trans h
  · exact (owned_thread_shrink hph hphase h).2

theorem owned_of_removed {o : Ref} {id : UUID} {ph : Phase} (hph : builtObject ph = none)
    (hphase : c'.phase = Function.update c.phase i ph) (hreg : c'.mBackends = c.mBackends.erase id)
    (a : Owner ι)
    (h : owned c' a = some o) : a ≠ .entry id ∧ owned c a = some o := by
  rcases a with id' | j
  · change c'.mBackends.lookup id' = some o at h
    rw [hreg] at h
    by_cases hid : id' = id
    · subst hid
      rw [Finmap.lookup_erase] at h
      cases h
    · rw [Finmap.lookup_erase_ne hid] at h
      exact ⟨fun heq => hid (Owner.entry.inj heq), h⟩
  · exact ⟨nofun, (owned_thread_shrink hph hphase h).2⟩

theorem owned_of_inserted {o o' : Ref} {id : UUID} {ph : Phase} (hph : builtObject ph = none)
    (hphase : c'.phase = Function.update c.phase i ph)
    (hreg : c'.mBackends = c.mBackends.insert id o) (a : Owner ι) (h : owned c' a = some o') :
    (a = .entry id ∧ o' = o) ∨ (a ≠ .thread i ∧ owned c a = some o') := by
  rcases a with id' | j
  · change c'.mBackends.lookup id' = some o' at h
    rw [hreg] at h
    by_cases hid : id' = id
    · subst hid
      rw [Finmap.lookup_insert] at h
      exact Or.inl ⟨rfl, (Option.some.inj h).symm⟩
    · rw [Finmap.lookup_insert_of_ne _ hid] at h
      exact Or.inr ⟨nofun, h⟩
  · obtain ⟨hj, hold⟩ := owned_thread_shrink hph hphase h
    exact Or.inr ⟨fun heq => hj (Owner.thread.inj heq), hold⟩

theorem owned_of_made {o : Ref}
    (hphase : c'.phase = Function.update c.phase i (.built c.heap.length))
    (hreg : c'.mBackends = c.mBackends) (a : Owner ι) (h : owned c' a = some o) :
    owned c a = some o ∨ (a = .thread i ∧ o = c.heap.length) := by
  rcases a with id | j
  · exact Or.inl ((congrArg (Finmap.lookup id) hreg).symm.trans h)
  · rw [owned_thread hphase] at h
    split_ifs at h with hj
    · exact Or.inr ⟨hj ▸ rfl, (Option.some.inj h).symm⟩
    · exact Or.inl h

omit [DecidableEq ι] in
theorem owned_of_built {o : Ref} (hheld : c.phase i = .built o) : owned c (.thread i) = some o := by
  show builtObject (c.phase i) = some o
  rw [hheld]
  rfl

/-- What somebody owns after a step was owned before it, or was made in it. -/
theorem owned_of_effect (he : Effect c i c') (a : Owner ι) {o : Ref} (h : owned c' a = some o) :
    (∃ b, owned c b = some o) ∨ (o = c.heap.length ∧ c'.heap.length = c.heap.length + 1) := by
  have hkept : ∀ {ph : Phase}, builtObject ph = none → c'.phase = Function.update c.phase i ph →
      c'.mBackends = c.mBackends → ∃ b, owned c b = some o := fun hph hphase hreg =>
    ⟨a, owned_of_reg hph hphase hreg a o h⟩
  cases he with
  | stayed same => exact Or.inl ⟨a, same ▸ h⟩
  | moved ph empty phase reg heap log =>
    exact Or.inl (hkept (builtObject_of_holdsNothing empty) phase reg)
  | made phase reg heap log =>
    exact (owned_of_made phase reg a h).imp (fun hold => ⟨a, hold⟩) fun hnew => ⟨hnew.2, heap⟩
  | inserted o' id ph empty held phase reg heap log =>
    rcases owned_of_inserted (builtObject_of_holdsNothing empty) phase reg a h with ⟨-, rfl⟩
      | ⟨-, hold⟩
    · exact Or.inl ⟨_, owned_of_built held⟩
    · exact Or.inl ⟨a, hold⟩
  | removed o' id ph act empty entry phase reg heap log =>
    exact Or.inl ⟨a, (owned_of_removed (builtObject_of_holdsNothing empty) phase reg a h).2⟩
  | threw o' ph empty phase reg heap log =>
    exact Or.inl (hkept (builtObject_of_holdsNothing empty) phase reg)
  | looked o' id ph next entry phase reg heap log =>
    have hph : builtObject ph = none := next.elim (fun h => h ▸ rfl) builtObject_of_holdsNothing
    exact Or.inl (hkept hph phase reg)
  | called o' ph empty held phase reg heap log =>
    exact Or.inl (hkept (builtObject_of_holdsNothing empty) phase reg)

omit [DecidableEq ι] in
theorem mem_log_of_concat {a b : Act ι} (hlog : c'.log = c.log ++ [a]) (hb : b ≠ a)
    (h : b ∈ c'.log) :
    b ∈ c.log := by
  rw [hlog, List.mem_append, List.mem_singleton] at h
  exact h.resolve_right hb

theorem heap_le_of_effect (he : Effect c i c') : c.heap.length ≤ c'.heap.length := by
  cases he with
  | stayed same => rw [same]
  | made phase reg heap log => omega
  | moved ph empty phase reg heap log | threw o ph empty phase reg heap log => omega
  | inserted o id ph empty held phase reg heap log | called o ph empty held phase reg heap log =>
    omega
  | removed o id ph a empty entry phase reg heap log act => omega
  | looked o id ph next entry phase reg heap log => omega

/-- The object was made, and nobody owns it. -/
def Gone (c : Pool ι α) (o : Ref) : Prop := o < c.heap.length ∧ ∀ a, owned c a ≠ some o

/-- **An object that nobody owns** is owned by nobody ever after. -/
theorem Gone.effect {o : Ref} (hg : Gone c o) (he : Effect c i c') : Gone c' o := by
  refine ⟨hg.1.trans_le (heap_le_of_effect he), fun a ha => ?_⟩
  rcases owned_of_effect he a ha with ⟨b, hb⟩ | ⟨rfl, -⟩
  · exact hg.2 b hb
  · exact lt_irrefl _ hg.1

/-- The object whose entry is erased is gone: the entry was its only owner. -/
theorem Owned.gone_of_removed (h : Owned c) {o : Ref} {id : UUID} {ph : Phase}
    (hph : builtObject ph = none) (hentry : c.mBackends.lookup id = some o)
    (hphase : c'.phase = Function.update c.phase i ph) (hreg : c'.mBackends = c.mBackends.erase id)
    (hheap : c'.heap.length = c.heap.length) :
    Gone c' o := by
  refine ⟨hheap ▸ h.allocated (.entry id) o hentry, fun a ha => ?_⟩
  obtain ⟨hne, hold⟩ := owned_of_removed hph hphase hreg a ha
  exact hne (h.single a (.entry id) o hold hentry)

theorem Owned.single_effect (h : Owned c) (he : Effect c i c') :
    ∀ a a' o, owned c' a = some o → owned c' a' = some o → a = a' := by
  have hshrink : (∀ a o, owned c' a = some o → owned c a = some o) →
      ∀ a a' o, owned c' a = some o → owned c' a' = some o → a = a' := fun hown a a' o ha ha' =>
    h.single a a' o (hown a o ha) (hown a' o ha')
  cases he with
  | stayed same => exact hshrink fun a o ha => same ▸ ha
  | moved ph empty phase reg heap log =>
    exact hshrink (owned_of_reg (builtObject_of_holdsNothing empty) phase reg)
  | made phase reg heap log =>
    have hfresh : ∀ a, owned c a ≠ some c.heap.length :=
      fun a ha => lt_irrefl _ (h.allocated a _ ha)
    intro a a' o ha ha'
    rcases owned_of_made phase reg a ha with hold | ⟨rfl, rfl⟩ <;>
      rcases owned_of_made phase reg a' ha' with hold' | ⟨rfl, ho⟩
    · exact h.single a a' o hold hold'
    · exact absurd (ho ▸ hold) (hfresh a)
    · exact absurd hold' (hfresh a')
    · rfl
  | inserted o id ph empty held phase reg heap log =>
    have hmoved : ∀ a, a ≠ .thread i → owned c a ≠ some o := fun a hne ha =>
      hne (h.single a _ o ha (owned_of_built held))
    intro a a' o' ha ha'
    rcases owned_of_inserted (builtObject_of_holdsNothing empty) phase reg a ha with ⟨rfl, rfl⟩
      | ⟨hne, hold⟩ <;>
      rcases owned_of_inserted (builtObject_of_holdsNothing empty) phase reg a' ha' with ⟨rfl, ho⟩
        | ⟨hne', hold'⟩
    · rfl
    · exact absurd hold' (hmoved a' hne')
    · exact absurd (ho ▸ hold) (hmoved a hne)
    · exact h.single a a' o' hold hold'
  | removed o id ph act empty entry phase reg heap log =>
    exact hshrink fun a o' ha =>
      (owned_of_removed (builtObject_of_holdsNothing empty) phase reg a ha).2
  | threw o ph empty phase reg heap log =>
    exact hshrink (owned_of_reg (builtObject_of_holdsNothing empty) phase reg)
  | looked o id ph next entry phase reg heap log =>
    have hph : builtObject ph = none := next.elim (fun h => h ▸ rfl) builtObject_of_holdsNothing
    exact hshrink (owned_of_reg hph phase reg)
  | called o ph empty held phase reg heap log =>
    exact hshrink (owned_of_reg (builtObject_of_holdsNothing empty) phase reg)

theorem Owned.effect (h : Owned c) (he : Effect c i c') : Owned c' := by
  refine ⟨h.single_effect he, fun a o ha => ?_, fun j o hd => ?_⟩
  · rcases owned_of_effect he a ha with ⟨b, hb⟩ | ⟨rfl, hheap⟩
    · exact (h.allocated b o hb).trans_le (heap_le_of_effect he)
    · rw [hheap]
      exact Nat.lt_succ_self _
  · -- it was destroyed before, or its entry is the one that is erased now
    have hold : .destroy j o true ∈ c.log → Gone c' o :=
      fun hd => Gone.effect (h.destroyed j o hd) he
    cases he with
    | stayed same => exact hold (same ▸ hd)
    | moved ph empty phase reg heap log | made phase reg heap log => exact hold (log ▸ hd)
    | inserted o' id ph empty held phase reg heap log
    | called o' ph empty held phase reg heap log =>
      exact hold (mem_log_of_concat log nofun hd)
    | looked o' id ph next entry phase reg heap log => exact hold (mem_log_of_concat log nofun hd)
    | threw o' ph empty phase reg heap log => exact hold (mem_log_of_concat log (by simp) hd)
    | removed o' id ph a empty entry phase reg heap log act =>
      rw [log, List.mem_append, List.mem_singleton] at hd
      rcases hd with hd | rfl
      · exact hold hd
      · obtain ⟨-, rfl⟩ : j = i ∧ o = o' := by simpa using act
        exact h.gone_of_removed (builtObject_of_holdsNothing empty) entry phase reg heap

/-! ### The order of lookups, destructions and calls -/

/-- A thread that holds a found object looked it up, every call is of an object the thread looked up
before, and nobody looks up a destroyed object. -/
structure Ordered (c : Pool ι α) : Prop where
  found : ∀ i o, c.phase i = .found o → .lookup i o ∈ c.log
  called : ∀ pre i o post, c.log = pre ++ .call i o :: post → .lookup i o ∈ pre
  gone : ∀ pre i o post, c.log = pre ++ .destroy i o true :: post → ∀ j, .lookup j o ∉ post

omit [DecidableEq ι] in
theorem Ordered.of_log (h : Ordered c) (hlog : c'.log = c.log)
    (hfound : ∀ j o, c'.phase j = .found o → c.phase j = .found o) : Ordered c' where
  found j o hf := hlog ▸ h.found j o (hfound j o hf)
  called pre j o post heq := h.called pre j o post (hlog ▸ heq)
  gone pre j o post heq := h.gone pre j o post (hlog ▸ heq)

omit [DecidableEq ι] in
/-- One more entry: what was found was looked up, a call is of an object the thread found, and a
lookup of one that was not destroyed. -/
theorem Ordered.concat (h : Ordered c) {a : Act ι} (hlog : c'.log = c.log ++ [a])
    (hfound : ∀ j o, c'.phase j = .found o → c.phase j = .found o ∨ a = .lookup j o)
    (hcall : ∀ j o, a = .call j o → c.phase j = .found o)
    (hlook : ∀ j o, a = .lookup j o → ∀ k, .destroy k o true ∉ c.log) : Ordered c' where
  found j o hf := by
    rw [hlog]
    rcases hfound j o hf with hold | rfl
    · exact List.mem_append_left _ (h.found j o hold)
    · exact List.mem_append_right _ (List.mem_singleton.mpr rfl)
  called pre j o post heq := by
    rw [hlog] at heq
    rcases concat_eq_append_cons heq with ⟨rfl, rfl, -⟩ | ⟨post', -, hold⟩
    · exact h.found j o (hcall j o rfl)
    · exact h.called pre j o post' hold
  gone pre j o post heq k hk := by
    rw [hlog] at heq
    rcases concat_eq_append_cons heq with ⟨-, -, rfl⟩ | ⟨post', rfl, hold⟩
    · cases hk
    · rcases List.mem_append.mp hk with hk | hk
      · exact h.gone pre j o post' hold k hk
      · have hd : .destroy j o true ∈ c.log := by rw [hold]; simp
        exact hlook k o (List.mem_singleton.mp hk).symm j hd

theorem phase_of_update {P : Phase → Prop} {ph : Phase}
    (hphase : c'.phase = Function.update c.phase i ph) {j : ι}
    (h : P (c'.phase j)) : (j ≠ i ∧ P (c.phase j)) ∨ (j = i ∧ P ph) := by
  rw [hphase, Function.update_apply] at h
  split_ifs at h with hj
  · exact Or.inr ⟨hj, h⟩
  · exact Or.inl ⟨hj, h⟩

theorem found_of_update {ph : Phase} (hphase : c'.phase = Function.update c.phase i ph) {j : ι}
    {o : Ref}
    (h : c'.phase j = .found o) : c.phase j = .found o ∨ (j = i ∧ ph = .found o) :=
  (phase_of_update (P := (· = .found o)) hphase h).imp_left And.right

theorem found_of_holdsNothing {ph : Phase} (hph : HoldsNothing ph)
    (hphase : c'.phase = Function.update c.phase i ph) (j : ι) (o : Ref)
    (h : c'.phase j = .found o) :
    c.phase j = .found o :=
  (found_of_update hphase h).resolve_right fun hf => (hph o).2 hf.2

theorem Ordered.effect (h : Ordered c) (hown : Owned c) (he : Effect c i c') : Ordered c' := by
  cases he with
  | stayed same => exact same ▸ h
  | moved ph empty phase reg heap log => exact h.of_log log (found_of_holdsNothing empty phase)
  | made phase reg heap log =>
    exact h.of_log log fun j o hf => (found_of_update phase hf).resolve_right fun h => nomatch h.2
  | inserted o id ph empty held phase reg heap log =>
    exact h.concat log (fun j o hf => Or.inl (found_of_holdsNothing empty phase j o hf)) nofun nofun
  | removed o id ph a empty entry phase reg heap log act =>
    refine h.concat log (fun j o hf => Or.inl (found_of_holdsNothing empty phase j o hf)) ?_ ?_
    · rcases act with rfl | rfl <;> exact nofun
    · rcases act with rfl | rfl <;> exact nofun
  | threw o ph empty phase reg heap log =>
    exact h.concat log (fun j o hf => Or.inl (found_of_holdsNothing empty phase j o hf)) nofun nofun
  | looked o id ph next entry phase reg heap log =>
    refine h.concat log (fun j o' hf => ?_) nofun fun j o' heq k hd => ?_
    · rcases found_of_update phase hf with hold | ⟨rfl, rfl⟩
      · exact Or.inl hold
      · rcases next with heq | hnone
        · exact Or.inr (by rw [Phase.found.inj heq])
        · exact absurd rfl (hnone o').2
    · obtain ⟨-, rfl⟩ := Act.lookup.inj heq
      exact (hown.destroyed k o hd).2 (.entry id) entry
  | called o ph empty held phase reg heap log =>
    refine h.concat log (fun j o hf => Or.inl (found_of_holdsNothing empty phase j o hf)) ?_ nofun
    rintro j o' heq
    obtain ⟨rfl, rfl⟩ := Act.call.inj heq
    exact held

theorem ordered_run (env : Env α) (reqs : ι → Request) (mToken : String) (s : Store α)
    (schedule : List ι) :
    Owned (run env reqs (.start mToken s) schedule) ∧
      Ordered (run env reqs (.start mToken s) schedule) := by
  refine exec_induction (fun c i => Pool.step env c i reqs)
    (P := fun c => Owned c ∧ Ordered c) ⟨?_, ?_⟩ ?_ schedule
  · refine ⟨?_, ?_, nofun⟩
    · rintro (id | i) (id' | i') o ha ha'
      · rw [s.owned id id' o ha ha']
      · cases ha'
      · cases ha
      · cases ha
    · rintro (id | i) o ha
      · exact s.allocated id o ha
      · cases ha
  · exact ⟨nofun, fun pre i o post heq => by simp [Pool.start] at heq,
      fun pre i o post heq => by simp [Pool.start] at heq⟩
  · exact fun c i h => ⟨h.1.effect (effect_step c i), h.2.effect h.1 (effect_step c i)⟩

/-- **Who may call a destroyed object.** Under any schedule, once a `destroy` of an object returned,
nobody looks the object up any more, and a thread that calls it had looked it up before the
destroy. -/
theorem called_by_earlier_finder (env : Env α) (reqs : ι → Request) (mToken : String) (s : Store α)
    (schedule : List ι) (pre post : List (Act ι)) (i : ι) (o : Ref)
    (hlog : (run env reqs (.start mToken s) schedule).log = pre ++ .destroy i o true :: post) :
    (∀ j, .lookup j o ∉ post) ∧ ∀ j, .call j o ∈ post → .lookup j o ∈ pre := by
  obtain ⟨-, hord⟩ := ordered_run env reqs mToken s schedule
  have hgone : ∀ j, .lookup j o ∉ post := hord.gone pre i o post hlog
  refine ⟨hgone, fun j hcall => ?_⟩
  obtain ⟨mid, rest, rfl⟩ := List.append_of_mem hcall
  have hfound : .lookup j o ∈ pre ++ .destroy i o true :: mid :=
    hord.called (pre ++ .destroy i o true :: mid) j o rest (by simpa using hlog)
  rcases List.mem_append.mp hfound with hpre | hmid
  · exact hpre
  · rcases List.mem_cons.mp hmid with heq | hmid
    · cases heq
    · exact absurd (List.mem_append_left _ hmid) (hgone j)

/-! ### Two runs -/

/-- No object is called after a `destroy` of it. -/
def QuietAfterDestroy (log : List (Act ι)) : Prop :=
  ∀ pre i o returned mid j post, log ≠ pre ++ .destroy i o returned :: mid ++ .call j o :: post

/-- Three threads at a provider with dummy phonebooks: one creates a phonebook, one computes a sum
on it, one destroys it. -/
def createSumDestroy : ℕ → Request
  | 0 => .createPhonebook "" "dummy" "\x7b\x7d" .clear
  | 1 => .computeSum .clear 20 22
  | _ => .destroyPhonebook "" .clear

/-- The destruction falls between the lookup and the call. -/
def destroyBetween : Pool ℕ DummyPhonebook :=
  run (DummyPhonebook.env .sample uuidUnparse) createSumDestroy (.start "" .empty)
    [0, 0, 0, 1, 1, 1, 2, 2, 2, 1, 1]

theorem log_destroyBetween :
    destroyBetween.log = [.insert 0 0, .lookup 1 0, .destroy 2 0 true, .call 1 0] := by decide

theorem called_by_earlier_finder_sum : .lookup 1 0 ∈ [Act.insert (0 : ℕ) 0, .lookup 1 0] := by
  obtain ⟨-, hcalled⟩ :=
    called_by_earlier_finder (DummyPhonebook.env .sample uuidUnparse) createSumDestroy ""
    .empty [0, 0, 0, 1, 1, 1, 2, 2, 2, 1, 1] [.insert 0 0, .lookup 1 0] [.call 1 0] 2 0
      log_destroyBetween
  exact hcalled 1 (by simp)

/-- A backend whose `destroy` throws. -/
def refusing : Env Unit := unitEnv (.throws (.stdException "Resource busy")) .empty

/-- Two threads: one destroys the phonebook, the other computes a sum on it. -/
def destroySum : Bool → Request
  | false => .destroyPhonebook "" .clear
  | true => .computeSum .clear 20 22

theorem log_refusing :
    (run refusing destroySum (.start "" (Store.empty.insert .clear ⟨"refusing", ()⟩))
      [false, false, false, true, true, true, true]).log =
        [.destroy false 0 false, .lookup true 0, .call true 0] := by decide

/-- A call may follow a destroy: of a thread that looked the object up before, and after a `destroy`
that threw, of any thread. -/
theorem not_quietAfterDestroy :
    ¬ QuietAfterDestroy destroyBetween.log ∧
      ¬ QuietAfterDestroy
        (run refusing destroySum (.start "" (Store.empty.insert .clear ⟨"refusing", ()⟩))
        [false, false, false, true, true, true, true]).log := by
  constructor
  · intro h
    exact h [.insert 0 0, .lookup 1 0] 2 0 true [] 1 [] log_destroyBetween
  · intro h
    exact h [] false 0 false [.lookup true 0] true [] log_refusing

end Phonebook.Server.Destruction
