import Phonebook.Server.Validity

/-! # Where providers live

The example server keeps its providers in a `std::vector`, which moves them to a larger buffer when
it is full and then destroys what it moved them from. However a standard library lays the vector
out, the server comes to have the providers it constructed, and finalization resets each of them;
but it also resets a destroyed one as soon as there are more than the first buffer holds
(`serverMain_finalize`). -/

namespace Phonebook.Server.Hosting

open Phonebook.Data.Values Phonebook.Server.Backends Phonebook.Server.Provider Phonebook.Lib.Runs
open Phonebook.Server.Lifetime Phonebook.Server.Validity

/-! ### A vector of providers -/

/-- What is left to a standard library about `std::vector`: where its successive buffers are, what a
full one is replaced by, in which order the elements are moved to the new buffer, and in which order
they are destroyed in the old one once all have moved. Both buffers are allocated while they
move. -/
structure Storage (A : Type) where
  slot : ℕ → ℕ → A
  grow : ℕ → ℕ
  moves : ℕ → List ℕ
  destroys : ℕ → List ℕ
  slot_injective : ∀ k, Function.Injective (slot k)
  slot_disjoint : ∀ k i j, slot k i ≠ slot (k + 1) j
  lt_grow : ∀ n, n < grow n
  moves_perm : ∀ n, (moves n).Perm (List.range n)
  destroys_perm : ∀ n, (destroys n).Perm (List.range n)

/-- A vector is in its `buffer`-th buffer; there is none before the first element. -/
structure ProviderVector where
  buffer : ℕ
  size : ℕ

variable {A α : Type} (st : Storage A)

/-- `vector::capacity`. -/
def ProviderVector.capacity (v : ProviderVector) : ℕ := st.grow^[v.buffer] 0

/-- `vector::emplace_back`, with what it does to the elements. In a full vector the new element is
constructed in the new buffer before the others are moved there. -/
def emplaceBack (v : ProviderVector) (impl : ProviderImpl α) : ProviderVector × List (Op A α) :=
  if v.size < v.capacity st then
    (⟨v.buffer, v.size + 1⟩, [.construct (st.slot v.buffer v.size) impl])
  else
    (⟨v.buffer + 1, v.size + 1⟩,
      .construct (st.slot (v.buffer + 1) v.size) impl ::
        ((st.moves v.size).map fun i =>
          .moveConstruct (st.slot (v.buffer + 1) i) (st.slot v.buffer i)) ++
        (st.destroys v.size).map fun i => .destroy (st.slot v.buffer i))

/-- The loop of `main` in the example server over the `ProviderImpl`s that the constructors make. -/
def serverMain (impls : List (ProviderImpl α)) : ProviderVector × List (Op A α) :=
  exec (fun x impl => ((emplaceBack st x.1 impl).1, x.2 ++ (emplaceBack st x.1 impl).2))
    (⟨0, 0⟩, []) impls

variable [DecidableEq A] {s s' : Program A α}

/-! ### Elements that move -/

/-- The program after the elements with these indices moved from one buffer to the other. -/
structure Moved (new old : ℕ → A) (l : List ℕ) (s s' : Program A α) : Prop where
  finalized : s'.finalized = s.finalized
  arrived : ∀ i ∈ l, s'.objects (new i) = s.objects (old i)
  left : ∀ i ∈ l, s'.objects (old i) = some ⟨none⟩
  frame : ∀ a, (∀ i ∈ l, a ≠ new i ∧ a ≠ old i) → s'.objects a = s.objects a
  kept : ∀ cb ∈ s.callbacks, (∀ i ∈ l, cb.owner ≠ new i) → cb ∈ s'.callbacks
  pushed : ∀ cb ∈ s'.callbacks, cb ∈ s.callbacks ∨ ∃ i ∈ l, cb.owner = new i

section Moves
variable {new old : ℕ → A} (hnew : Function.Injective new) (hold : Function.Injective old)
  (hdisj : ∀ i j, old i ≠ new j)
include hdisj

theorem moved_one {i : ℕ} {impl : ProviderImpl α} (hempty : s.objects (new i) = none)
    (hvalid : s.objects (old i) = some ⟨some impl⟩) :
    ∃ s', s.step (.moveConstruct (new i) (old i)) = .returns s' ∧ Moved new old [i] s s' := by
  have hstep : s.step (.moveConstruct (new i) (old i)) = .returns
      ((((s.popFinalizeCallback (new i)).put (new i) (some ⟨some impl⟩)).put (old i)
        (some ⟨none⟩)).pushFinalizeCallback (new i) (new i)) := by
    simp only [Program.step, hempty, hvalid, Program.moveConstruct]
  refine ⟨_, hstep, rfl, ?_, ?_, ?_, ?_, ?_⟩
  · intro j hj
    obtain rfl := List.mem_singleton.mp hj
    have hne : new j ≠ old j := (hdisj j j).symm
    simp [Program.put, Program.pushFinalizeCallback, hne, hvalid]
  · intro j hj
    obtain rfl := List.mem_singleton.mp hj
    simp [Program.put, Program.pushFinalizeCallback]
  · intro a ha
    obtain ⟨hn, ho⟩ := ha i (List.mem_singleton_self i)
    simp [Program.put, Program.pushFinalizeCallback, Program.popFinalizeCallback, hn, ho]
  · intro cb hcb hother
    have hne : cb.owner ≠ new i := hother i (List.mem_singleton_self i)
    exact List.mem_cons_of_mem _ ((List.mem_eraseP_of_neg (by simpa using hne)).mpr hcb)
  · intro cb hcb
    rcases List.mem_cons.mp hcb with rfl | hcb
    · exact Or.inr ⟨i, List.mem_singleton_self i, rfl⟩
    · exact Or.inl (List.mem_of_mem_eraseP hcb)

include hnew hold

/-- **The elements move**, in whatever order. -/
theorem moved_all : ∀ {l : List ℕ} (_ : l.Nodup) {s : Program A α}
    (_ : ∀ i ∈ l, s.objects (new i) = none ∧ ∃ impl, s.objects (old i) = some ⟨some impl⟩),
    ∃ s',
      exec stepDefined (.returns s) (l.map fun i => .moveConstruct (new i) (old i)) = .returns s' ∧
      Moved new old l s s'
  | [], _, s, _ => by
    refine ⟨s, rfl, rfl, ?_, ?_, fun a _ => rfl, fun cb hcb _ => hcb,
      fun cb hcb => Or.inl hcb⟩ <;> simp
  | i :: l, hl, s, hs => by
    obtain ⟨hi, hl⟩ := List.nodup_cons.mp hl
    obtain ⟨hempty, impl, hvalid⟩ := hs i List.mem_cons_self
    obtain ⟨s₁, hstep, h₁⟩ := moved_one hdisj hempty hvalid
    -- the others are where they were
    have hsame :
      ∀ j ∈ l, s₁.objects (new j) = s.objects (new j) ∧ s₁.objects (old j) = s.objects (old j) := by
      intro j hj
      have hne : j ≠ i := fun heq => hi (heq ▸ hj)
      constructor
      · refine h₁.frame (new j) fun k hk => ?_
        obtain rfl := List.mem_singleton.mp hk
        exact ⟨hnew.ne hne, (hdisj k j).symm⟩
      · refine h₁.frame (old j) fun k hk => ?_
        obtain rfl := List.mem_singleton.mp hk
        exact ⟨hdisj j k, hold.ne hne⟩
    obtain ⟨s', hexec, h'⟩ := moved_all hl (s := s₁) fun j hj => by
      rw [(hsame j hj).1, (hsame j hj).2]
      exact hs j (List.mem_cons_of_mem i hj)
    have hapart : ∀ j ∈ l, new i ≠ new j ∧ old i ≠ old j := by
      intro j hj
      have hne : i ≠ j := fun heq => hi (heq ▸ hj)
      exact ⟨hnew.ne hne, hold.ne hne⟩
    refine ⟨s', ?_, h'.finalized.trans h₁.finalized, fun j hj => ?_, fun j hj => ?_, fun a ha => ?_,
      fun cb hcb hother => ?_, fun cb hcb => ?_⟩
    · rw [List.map_cons, exec_cons, stepDefined, hstep]
      exact hexec
    · rcases List.mem_cons.mp hj with rfl | hj
      · rw [h'.frame (new j) fun k hk => ⟨(hapart k hk).1, (hdisj k j).symm⟩]
        exact h₁.arrived j (List.mem_singleton_self j)
      · rw [h'.arrived j hj, (hsame j hj).2]
    · rcases List.mem_cons.mp hj with rfl | hj
      · rw [h'.frame (old j) fun k hk => ⟨hdisj j k, (hapart k hk).2⟩]
        exact h₁.left j (List.mem_singleton_self j)
      · exact h'.left j hj
    · rw [h'.frame a fun j hj => ha j (List.mem_cons_of_mem i hj)]
      refine h₁.frame a fun k hk => ?_
      obtain rfl := List.mem_singleton.mp hk
      exact ha k List.mem_cons_self
    · refine h'.kept cb (h₁.kept cb hcb fun k hk => ?_) fun j hj => hother j
        (List.mem_cons_of_mem i hj)
      obtain rfl := List.mem_singleton.mp hk
      exact hother k List.mem_cons_self
    · rcases h'.pushed cb hcb with hcb | ⟨j, hj, howner⟩
      · rcases h₁.pushed cb hcb with hcb | ⟨k, hk, howner⟩
        · exact Or.inl hcb
        · obtain rfl := List.mem_singleton.mp hk
          exact Or.inr ⟨k, List.mem_cons_self, howner⟩
      · exact Or.inr ⟨j, List.mem_cons_of_mem i hj, howner⟩

end Moves

/-- **The elements that were moved from are destroyed**, and no callback is popped. -/
theorem destroyed_all (old : ℕ → A) : ∀ (l : List ℕ) {s : Program A α}
    (_ : ∀ i ∈ l, ∀ p, s.objects (old i) = some p → p = ⟨none⟩),
    exec stepDefined (.returns s) (l.map fun i => .destroy (old i)) =
      .returns { s with objects := fun a => if a ∈ l.map old then none else s.objects a }
  | [], s, _ => by simp
  | i :: l, s, hs => by
    have hstep : s.step (.destroy (old i)) = .returns (s.put (old i) none) := by
      rcases ho : s.objects (old i) with _ | p
      · have hsame : s.put (old i) none = s := by rw [Program.put, ← ho, Function.update_eq_self]
        simp only [Program.step, ho, hsame]
      · obtain rfl := hs i List.mem_cons_self p ho
        simp only [Program.step, ho, Program.destroy]
    have hrest : ∀ j ∈ l, ∀ p, (s.put (old i) none).objects (old j) = some p → p = ⟨none⟩ := by
      intro j hj p hp
      by_cases heq : old j = old i
      · simp [Program.put, heq] at hp
      · exact hs j (List.mem_cons_of_mem i hj) p (by simpa [Program.put, heq] using hp)
    rw [List.map_cons, exec_cons, stepDefined, hstep, destroyed_all old l hrest]
    congr 2
    funext a
    by_cases ha : a = old i
    · simp [Program.put, ha]
    · simp [Program.put, ha]

/-! ### The server's vector -/

/-- The program's objects are the elements of the vector. In the first buffer every callback is that
of an element; since then, some is that of an object in the buffer before. -/
structure Hosts (impls : List (ProviderImpl α)) (v : ProviderVector) (s : Program A α) : Prop where
  size : v.size = impls.length
  fits : v.size ≤ v.capacity st
  running : s.finalized = false
  element : ∀ i impl, impls[i]? = some impl → s.objects (st.slot v.buffer i) = some ⟨some impl⟩
  elsewhere : ∀ a, s.Alive a → ∃ i < v.size, a = st.slot v.buffer i
  first : v.buffer ≤ 1 → ∀ cb ∈ s.callbacks, s.Alive cb.owner
  stale :
    1 < v.buffer → st.grow 0 < v.size ∧ ∃ cb ∈ s.callbacks, ∃ i, cb.owner = st.slot (v.buffer - 1) i

variable {st} {impls : List (ProviderImpl α)} {v : ProviderVector} {impl : ProviderImpl α}

omit [DecidableEq A] in
theorem grow_le_capacity (h : 1 ≤ v.buffer) : st.grow 0 ≤ v.capacity st := by
  unfold ProviderVector.capacity
  generalize v.buffer = b at h
  induction b, h using Nat.le_induction with
  | base => exact le_refl _
  | succ k _ ih =>
    rw [Function.iterate_succ_apply']
    exact ih.trans (st.lt_grow _).le

omit [DecidableEq A] in
theorem capacity_le_grow (h : v.buffer ≤ 1) : v.capacity st ≤ st.grow 0 := by
  unfold ProviderVector.capacity
  rcases Nat.le_one_iff_eq_zero_or_eq_one.mp h with hb | hb
  · rw [hb]
    exact Nat.zero_le _
  · rw [hb]
    exact le_refl _

theorem step_construct {a : A} (ha : s.objects a = none) (hrun : s.finalized = false) :
    s.step (.construct a impl) =
      .returns ((s.put a (some ⟨some impl⟩)).pushFinalizeCallback a a) := by
  simp only [Program.step, ha, hrun, Program.construct]

theorem getElem?_concat_cases {i : ℕ} {x : ProviderImpl α} (h : (impls ++ [impl])[i]? = some x) :
    impls[i]? = some x ∨ i = impls.length ∧ x = impl := by
  rcases lt_trichotomy i impls.length with hlt | rfl | hgt
  · left
    rwa [List.getElem?_append_left hlt] at h
  · right
    rw [List.getElem?_concat_length] at h
    exact ⟨rfl, (Option.some.inj h).symm⟩
  · rw [List.getElem?_eq_none (by simp; omega)] at h
    cases h

theorem Hosts.construct (h : Hosts st impls v s) (impl : ProviderImpl α)
    (hroom : v.size < v.capacity st) :
    ∃ s', s.step (.construct (st.slot v.buffer v.size) impl) = .returns s' ∧
      Hosts st (impls ++ [impl]) ⟨v.buffer, v.size + 1⟩ s' := by
  have hne : ∀ i < v.size, st.slot v.buffer i ≠ st.slot v.buffer v.size := by
    intro i hi
    exact (st.slot_injective v.buffer).ne hi.ne
  have hempty : s.objects (st.slot v.buffer v.size) = none := by
    by_contra hsome
    obtain ⟨i, hi, heq⟩ := h.elsewhere _ (Option.ne_none_iff_exists'.mp hsome)
    exact hne i hi heq.symm
  refine ⟨_, step_construct hempty h.running, by simp [h.size], hroom, h.running, fun i x hx => ?_,
    fun a ha => ?_,
    fun hb cb hcb => ?_, fun hb => ?_⟩
  · rcases getElem?_concat_cases hx with hx | ⟨rfl, rfl⟩
    · have hi : i < v.size := by
        rw [h.size]
        exact (List.getElem?_eq_some_iff.mp hx).1
      have hold := h.element i x hx
      simpa [Program.put, Program.pushFinalizeCallback, hne i hi] using hold
    · simp [Program.put, Program.pushFinalizeCallback, h.size]
  · rcases alive_put_some.mp ha with rfl | ha
    · exact ⟨v.size, Nat.lt_succ_self _, rfl⟩
    · obtain ⟨i, hi, heq⟩ := h.elsewhere a ha
      exact ⟨i, Nat.lt_succ_of_lt hi, heq⟩
  · rcases List.mem_cons.mp hcb with rfl | hcb
    · exact alive_put_some.mpr (Or.inl rfl)
    · exact alive_put_some.mpr (Or.inr (h.first hb cb hcb))
  · obtain ⟨hsize, cb, hcb, howner⟩ := h.stale hb
    exact ⟨by dsimp only; omega, cb, List.mem_cons_of_mem _ hcb, howner⟩

/-- The program after its vector grew: the elements are in the new buffer with the new one behind
them, and nothing is left in the old one. No callback of an object there was popped. -/
structure Grown (new old : ℕ → A) (n : ℕ) (impl : ProviderImpl α) (s s' : Program A α) : Prop where
  finalized : s'.finalized = s.finalized
  arrived : ∀ i < n, s'.objects (new i) = s.objects (old i)
  last : s'.objects (new n) = some ⟨some impl⟩
  gone : ∀ i < n, s'.objects (old i) = none
  frame : ∀ a, (∀ i ≤ n, a ≠ new i) → (∀ i < n, a ≠ old i) → s'.objects a = s.objects a
  kept : ∀ cb ∈ s.callbacks, (∀ i, cb.owner ≠ new i) → cb ∈ s'.callbacks
  pushed : ∀ cb ∈ s'.callbacks, cb ∈ s.callbacks ∨ ∃ i ≤ n, cb.owner = new i

/-- **A full vector grows.** -/
theorem grown_emplaceBack (impl : ProviderImpl α) (hfull : v.size = v.capacity st)
    (hrun : s.finalized = false) (hempty : ∀ i, s.objects (st.slot (v.buffer + 1) i) = none)
    (hvalid : ∀ i < v.size, ∃ x, s.objects (st.slot v.buffer i) = some ⟨some x⟩) :
    ∃ s', exec stepDefined (.returns s) (emplaceBack st v impl).2 = .returns s' ∧
      Grown (st.slot (v.buffer + 1)) (st.slot v.buffer) v.size impl s s' := by
  set new : ℕ → A := st.slot (v.buffer + 1)
  set old : ℕ → A := st.slot v.buffer
  have hdisj : ∀ i j, old i ≠ new j := st.slot_disjoint v.buffer
  have hinj : Function.Injective new := st.slot_injective (v.buffer + 1)
  have hmoves : ∀ i, i ∈ st.moves v.size ↔ i < v.size := fun i => by
    rw [(st.moves_perm v.size).mem_iff, List.mem_range]
  have hdestroys : ∀ i, i ∈ st.destroys v.size ↔ i < v.size := fun i => by
    rw [(st.destroys_perm v.size).mem_iff, List.mem_range]
  -- the new element is constructed
  set s₁ : Program A α :=
    (s.put (new v.size) (some ⟨some impl⟩)).pushFinalizeCallback (new v.size) (new v.size) with hs₁
  have hobj₁ : ∀ a, s₁.objects a = if a = new v.size then some ⟨some impl⟩ else s.objects a := by
    intro a
    rw [hs₁]
    exact Function.update_apply ..
  -- the others move there
  obtain ⟨s₂, hexec₂, h₂⟩ := moved_all hinj (st.slot_injective v.buffer) hdisj
    ((st.moves_perm v.size).nodup_iff.mpr List.nodup_range) (s := s₁) fun i hi => by
      have hlt : i < v.size := (hmoves i).mp hi
      rw [hobj₁, hobj₁, if_neg (hinj.ne hlt.ne), if_neg (hdisj i v.size)]
      exact ⟨hempty i, hvalid i hlt⟩
  -- what they left is destroyed
  set s₃ : Program A α :=
    { s₂ with objects := fun a => if a ∈ (st.destroys v.size).map old then none else s₂.objects a }
      with hs₃
  have hexec₃ :
    exec stepDefined (.returns s₂) ((st.destroys v.size).map fun i => .destroy (old i)) =
      .returns s₃ := by
    refine destroyed_all old (st.destroys v.size) fun i hi p hp => ?_
    rw [h₂.left i ((hmoves i).mpr ((hdestroys i).mp hi))] at hp
    exact (Option.some.inj hp).symm
  have hstays : ∀ a, (∀ i < v.size, a ≠ old i) → s₃.objects a = s₂.objects a := by
    intro a ha
    refine if_neg fun hin => ?_
    obtain ⟨i, hi, heq⟩ := List.mem_map.mp hin
    exact ha i ((hdestroys i).mp hi) heq.symm
  refine ⟨s₃, ?_, h₂.finalized, fun i hi => ?_, ?_, fun i hi => ?_, fun a hnew hold => ?_,
    fun cb hcb hother => ?_,
    fun cb hcb => ?_⟩
  · have hno : ¬ v.size < v.capacity st := by omega
    rw [emplaceBack, if_neg hno]
    show exec stepDefined (.returns s) (_ :: _ ++ _) = _
    rw [exec_append, exec_cons, stepDefined, step_construct (hempty v.size) hrun, ← hs₁,
      hexec₂, hexec₃]
  · rw [hstays _ fun j _ => (hdisj j i).symm, h₂.arrived i ((hmoves i).mpr hi), hobj₁,
      if_neg (hdisj i v.size)]
  · rw [hstays _ fun j _ => (hdisj j v.size).symm,
      h₂.frame _ fun i hi => ⟨hinj.ne ((hmoves i).mp hi).ne', (hdisj i v.size).symm⟩, hobj₁,
        if_pos rfl]
  · exact if_pos (List.mem_map.mpr ⟨i, (hdestroys i).mpr hi, rfl⟩)
  · rw [hstays a hold, h₂.frame a fun i hi => ⟨hnew i ((hmoves i).mp hi).le,
      hold i ((hmoves i).mp hi)⟩, hobj₁,
      if_neg (hnew v.size (le_refl _))]
  · exact h₂.kept cb (List.mem_cons_of_mem _ hcb) fun i _ => hother i
  · rcases h₂.pushed cb hcb with hcb | ⟨i, hi, howner⟩
    · rcases List.mem_cons.mp hcb with rfl | hcb
      · exact Or.inr ⟨v.size, le_refl _, rfl⟩
      · exact Or.inl hcb
    · exact Or.inr ⟨i, ((hmoves i).mp hi).le, howner⟩

theorem Hosts.grow {l : Lives A} (h : Hosts st impls v s) (impl : ProviderImpl α) (hl : Follows s l)
    (hfull : v.size = v.capacity st) :
    ∃ s', exec stepDefined (.returns s) (emplaceBack st v impl).2 = .returns s' ∧
      Hosts st (impls ++ [impl]) ⟨v.buffer + 1, v.size + 1⟩ s' := by
  have hempty : ∀ i, s.objects (st.slot (v.buffer + 1) i) = none := by
    intro i
    by_contra hsome
    obtain ⟨j, -, heq⟩ := h.elsewhere _ (Option.ne_none_iff_exists'.mp hsome)
    exact st.slot_disjoint v.buffer j i heq.symm
  have hvalid : ∀ i < v.size, ∃ x, s.objects (st.slot v.buffer i) = some ⟨some x⟩ := by
    intro i hi
    rw [h.size] at hi
    exact ⟨impls[i], h.element i _ (List.getElem?_eq_getElem hi)⟩
  obtain ⟨s', hs', hg⟩ := grown_emplaceBack impl hfull h.running hempty hvalid
  have halive : ∀ i ≤ v.size, s'.Alive (st.slot (v.buffer + 1) i) := by
    intro i hi
    rcases Nat.lt_or_eq_of_le hi with hlt | rfl
    · obtain ⟨x, hx⟩ := hvalid i hlt
      exact ⟨_, (hg.arrived i hlt).trans hx⟩
    · exact ⟨_, hg.last⟩
  refine ⟨s', hs', by simp [h.size], ?_, hg.finalized.trans h.running, fun i x hx => ?_,
    fun a ha => ?_,
    fun hb cb hcb => ?_, fun hb => ?_⟩
  · have hgrow : v.capacity st < st.grow (v.capacity st) := st.lt_grow _
    show v.size + 1 ≤ st.grow^[v.buffer + 1] 0
    rw [Function.iterate_succ_apply']
    unfold ProviderVector.capacity at hgrow hfull
    omega
  · rcases getElem?_concat_cases hx with hx | ⟨rfl, rfl⟩
    · have hi : i < v.size := by
        rw [h.size]
        exact (List.getElem?_eq_some_iff.mp hx).1
      exact (hg.arrived i hi).trans (h.element i x hx)
    · rw [← h.size]
      exact hg.last
  · by_cases hnew : ∃ i ≤ v.size, a = st.slot (v.buffer + 1) i
    · obtain ⟨i, hi, heq⟩ := hnew
      exact ⟨i, Nat.lt_succ_of_le hi, heq⟩
    exfalso
    obtain ⟨p, hp⟩ := ha
    by_cases hold : ∃ i < v.size, a = st.slot v.buffer i
    · obtain ⟨i, hi, rfl⟩ := hold
      rw [hg.gone i hi] at hp
      cases hp
    · rw [hg.frame a (fun i hi heq => hnew ⟨i, hi, heq⟩) fun i hi heq => hold ⟨i, hi, heq⟩] at hp
      exact hold (h.elsewhere a ⟨p, hp⟩)
  · rcases hg.pushed cb hcb with hcb | ⟨i, hi, howner⟩
    · -- this is the first buffer: there was no element, and so no callback
      have hzero : v.buffer = 0 := by simpa using hb
      have hsize : v.size = 0 := by
        rw [hfull, ProviderVector.capacity, hzero, Function.iterate_zero, id]
      obtain ⟨i, hi, -⟩ := h.elsewhere _ (h.first (by omega) cb hcb)
      omega
    · rw [howner]
      exact halive i hi
  · -- the callback of the first element stays with its old place
    have hone : 1 ≤ v.buffer := by
      have hlt : 1 < v.buffer + 1 := hb
      omega
    have hle : st.grow 0 ≤ v.size := hfull ▸ grow_le_capacity hone
    have hpos : 0 < v.size := (st.lt_grow 0).trans_le hle
    obtain ⟨x, hx⟩ := hvalid 0 hpos
    have hstatus : l.status (st.slot v.buffer 0) = .valid := by rw [← hl.status, hx, statusOf]
    obtain ⟨cb, hcb, howner⟩ := hl.registered _ hstatus
    refine ⟨Nat.lt_succ_of_le hle, cb, hg.kept cb hcb fun i => ?_, 0, howner⟩
    rw [howner]
    exact st.slot_disjoint v.buffer 0 i

/-- **One more element.** -/
theorem Hosts.emplaced {l : Lives A} (h : Hosts st impls v s) (impl : ProviderImpl α)
    (hl : Follows s l) :
    ∃ s', exec stepDefined (.returns s) (emplaceBack st v impl).2 = .returns s' ∧
      Hosts st (impls ++ [impl]) (emplaceBack st v impl).1 s' := by
  by_cases hroom : v.size < v.capacity st
  · obtain ⟨s', hs', h'⟩ := h.construct impl hroom
    refine ⟨s', ?_, ?_⟩
    · rw [emplaceBack, if_pos hroom]
      exact hs'
    · rw [emplaceBack, if_pos hroom]
      exact h'
  · have hfits : v.size ≤ v.capacity st := h.fits
    obtain ⟨s', hs', h'⟩ := h.grow impl hl (by omega)
    refine ⟨s', hs', ?_⟩
    rw [emplaceBack, if_neg hroom]
    exact h'

omit [DecidableEq A] in
theorem hosts_start : Hosts st [] ⟨0, 0⟩ (.start : Program A α) where
  size := rfl
  fits := Nat.zero_le _
  running := rfl
  element i impl h := by simp at h
  elsewhere a h := absurd h (not_alive_of_none rfl)
  first _ cb h := by cases h
  stale h := by simp at h

/-- **The loop** is defined, and the objects are the elements of the vector. -/
theorem hosts_serverMain (st : Storage A) (impls : List (ProviderImpl α)) :
    ∃ s, exec stepDefined (.returns .start) (serverMain st impls).2 = .returns s ∧
      Hosts st impls (serverMain st impls).1 s := by
  induction impls using List.reverseRecOn with
  | nil => exact ⟨_, rfl, hosts_start⟩
  | append_singleton impls impl ih =>
    obtain ⟨s, hs, h⟩ := ih
    obtain ⟨s', hs', h'⟩ := h.emplaced impl (follows_exec _ hs)
    refine ⟨s', ?_, ?_⟩
    · rw [serverMain, exec_concat, exec_append]
      show exec stepDefined (exec stepDefined _ (serverMain st impls).2) _ = _
      rw [hs]
      exact hs'
    · rw [serverMain, exec_concat]
      exact h'

/-- **The example server.** However the vector is laid out and grows, the server comes to its wait
for finalization with the providers it constructed and no other object, and finalization resets each
of them. It resets an object that was destroyed, too, if and only if there are more providers than
the vector's first buffer holds. -/
theorem serverMain_finalize (st : Storage A) (impls : List (ProviderImpl α)) :
    let k := (serverMain st impls).1.buffer
    ∃ s s', exec stepDefined (.returns .start) (serverMain st impls).2 = .returns s ∧
      s.step .finalize = .returns s' ∧
      (∀ i impl, impls[i]? = some impl →
        s.objects (st.slot k i) = some ⟨some impl⟩ ∧ s'.objects (st.slot k i) = some ⟨none⟩) ∧
      (∀ a, s.Alive a → ∃ i < impls.length, a = st.slot k i) ∧
      ((∃ cb ∈ s.callbacks, ¬ s.Alive cb.target) ↔ st.grow 0 < impls.length) := by
  intro k
  obtain ⟨s, hs, h⟩ := hosts_serverMain st impls
  have hl : Follows s _ := follows_exec _ hs
  obtain ⟨s', hs'⟩ := step_returns s .finalize (by simp [dereferenced])
  refine ⟨s, s', hs, hs', fun i impl hi => ⟨h.element i impl hi, ?_⟩, fun a ha => ?_, ?_⟩
  · have hvalid := hl.status (st.slot k i)
    rw [h.element i impl hi, statusOf] at hvalid
    refine ((hl.step hs').invalid_iff _).mp ?_
    have hrun : (exec Lives.step .start (serverMain st impls).2).finalized = false :=
      hl.finalized.symm.trans h.running
    rw [Lives.step, if_neg (by simp [hrun])]
    dsimp only
    rw [if_neg (by rw [← hvalid]; simp)]
  · rw [← h.size]
    exact h.elsewhere a ha
  · constructor
    · rintro ⟨cb, hcb, hdead⟩
      rw [hl.target cb hcb] at hdead
      have hlater : 1 < k := by
        by_contra hle
        exact hdead (h.first (by omega) cb hcb)
      rw [← h.size]
      exact (h.stale hlater).1
    · intro hmore
      have hlater : 1 < k := by
        by_contra hno
        have hle : impls.length ≤ st.grow 0 := by
          rw [← h.size]
          exact h.fits.trans (capacity_le_grow (by omega))
        omega
      obtain ⟨-, cb, hcb, i, howner⟩ := h.stale hlater
      refine ⟨cb, hcb, ?_⟩
      rw [hl.target cb hcb, howner]
      intro halive
      obtain ⟨j, -, heq⟩ := h.elsewhere _ halive
      have hne := st.slot_disjoint (k - 1) i j
      rw [Nat.sub_add_cancel (by omega)] at hne
      exact hne heq

/-- Buffers that double and are not used again. -/
def doubling : Storage (ℕ × ℕ) where
  slot k i := (k, i)
  grow n := max 1 (2 * n)
  moves := List.range
  destroys := List.range
  slot_injective k i j h := (Prod.mk.inj h).2
  slot_disjoint k i j h := by
    have hk : k = k + 1 := (Prod.mk.inj h).1
    omega
  lt_grow n := by omega
  moves_perm _ := List.Perm.refl _
  destroys_perm _ := List.Perm.refl _

example (p q : ProviderImpl DummyPhonebook) :
    serverMain doubling [p, q] =
      (⟨2, 2⟩, [.construct (1, 0) p, .construct (2, 1) q, .moveConstruct (2, 0) (1, 0),
        .destroy (1, 0)]) := rfl

end Phonebook.Server.Hosting
