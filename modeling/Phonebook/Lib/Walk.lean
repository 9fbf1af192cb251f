import Mathlib.Data.List.TakeWhile
import Phonebook.Lib.Runs

/-! # Walks over a collection that changes meanwhile

An iterator goes over a list of elements, identified by keys, and visits one at each of its steps;
between these the list may change, and a change may invalidate all iterators. What it has visited
and what is still ahead of it are the list as it was at one instant of the walk, if the iterator
stays valid and nothing ahead of it changes any more once something behind it has
(`snapshot_of_orderly`). A visit may also end the walk. -/

namespace Phonebook.Lib.Walk

open Phonebook.Lib.Runs

variable {E κ β γ σ ο : Type*} [DecidableEq κ]

/-! ### Iterators -/

section Iterator
variable (key : E → κ)

/-- The elements before the one the iterator stands on; `none` is the end. -/
def behind (it : Option κ) (l : List E) : List E := l.takeWhile fun e => some (key e) ≠ it

/-- The elements from the one the iterator stands on. -/
def ahead (it : Option κ) (l : List E) : List E := l.dropWhile fun e => some (key e) ≠ it

/-- The iterator that stands on the first element. -/
def first (l : List E) : Option κ := l.head?.map key

theorem behind_append_ahead (it : Option κ) (l : List E) : behind key it l ++ ahead key it l = l :=
  List.takeWhile_append_dropWhile

@[simp] theorem behind_none (l : List E) : behind key none l = l :=
  List.takeWhile_eq_self_iff.mpr (by simp)

@[simp] theorem ahead_none (l : List E) : ahead key none l = [] :=
  List.dropWhile_eq_nil_iff.mpr (by simp)

@[simp] theorem behind_first (l : List E) : behind key (first key l) l = [] := by
  rcases l with _ | ⟨e, l⟩ <;> simp [behind, first]

variable {key}

theorem split_first {p l : List E} (h : ((p ++ l).map key).Nodup) :
    behind key (first key l) (p ++ l) = p ∧ ahead key (first key l) (p ++ l) = l := by
  rcases l with _ | ⟨e, l⟩
  · simp [first]
  have hne : ∀ a ∈ p, decide (some (key a) ≠ first key (e :: l)) = true := by
    intro a ha
    rw [List.map_append, List.nodup_append] at h
    have hkeys : key a ≠ key e := h.2.2 (key a) (List.mem_map_of_mem ha) (key e) (by simp)
    simpa [first] using hkeys
  constructor
  · rw [behind, List.takeWhile_append_of_pos hne]
    simp [first]
  · rw [ahead, List.dropWhile_append_of_pos hne]
    simp [first]

theorem ahead_of_mem {x : κ} {l : List E} (h : ∃ e ∈ l, key e = x) :
    ∃ e rest, ahead key (some x) l = e :: rest ∧ key e = x := by
  induction l with
  | nil => simp at h
  | cons e l ih =>
    by_cases he : key e = x
    · exact ⟨e, l, by simp [ahead, he], he⟩
    · obtain ⟨e', rest, hrest, hx⟩ := ih (by simpa [he] using h)
      exact ⟨e', rest, by simpa [ahead, he] using hrest, hx⟩

omit [DecidableEq κ] in
theorem mem_of_first {x : κ} {l : List E} (h : first key l = some x) : ∃ e ∈ l, key e = x := by
  rcases l with _ | ⟨e, l⟩
  · cases h
  · exact ⟨e, by simp, Option.some.inj h⟩

end Iterator

/-! ### Walkers -/

/-- Where a walk stands: the iterator with the results of the visits so far, or how the walk ended;
`dangling` when the iterator was invalidated, or advanced from an element that is in the list no
longer. -/
inductive Walker (κ β γ : Type*) where
  | idle
  | standing (it : Option κ) (visited : List β)
  | ended (result : Except γ (List β))
  | dangling

/-- The walk is going on. -/
def Walker.Standing (w : Walker κ β γ) : Prop := ∃ it visited, w = .standing it visited

/-- The iterator of the walk, if it has one, is made invalid. -/
def Walker.invalidated : Walker κ β γ → Walker κ β γ
  | .standing _ _ | .dangling => .dangling
  | .idle => .idle
  | .ended result => .ended result

/-- What a walk yields that has some visits behind it, and others to come. -/
def resume (visited : List β) (r : Except γ (List β)) : Except γ (List β) := r.map (visited ++ ·)

section Visits
variable {visit : E → Except γ β} {visited : List β} {e : E} {rest : List E}

theorem mapM_append_of_ok {p l : List E} (hp : p.mapM visit = .ok visited) :
    (p ++ l).mapM visit = resume visited (l.mapM visit) := by
  rw [List.mapM_append, hp]
  rcases l.mapM visit with stop | vs <;> rfl

theorem mapM_concat_of_ok {p : List E} {v : β} (hp : p.mapM visit = .ok visited)
    (he : visit e = .ok v) :
    (p ++ [e]).mapM visit = .ok (visited ++ [v]) := by
  rw [mapM_append_of_ok hp, List.mapM_cons, he]
  rfl

theorem resume_cons {v : β} (he : visit e = .ok v) :
    resume visited ((e :: rest).mapM visit) = resume (visited ++ [v]) (rest.mapM visit) := by
  rw [List.mapM_cons, he]
  rcases rest.mapM visit with stop | vs
  · rfl
  · show Except.ok (visited ++ v :: vs) = Except.ok (visited ++ [v] ++ vs)
    rw [List.append_assoc]
    rfl

theorem resume_cons_error {stop : γ} (he : visit e = .error stop) :
    resume visited ((e :: rest).mapM visit) = .error stop := by
  rw [List.mapM_cons, he]
  rfl

theorem resume_nil (r : Except γ (List β)) : resume [] r = r := by
  rcases r with stop | vs <;> rfl

end Visits

/-- A system with a list that a walk goes over: what the elements are known by, what a visit of one
does, the list in each state, and the steps that invalidate the iterators there are. -/
structure System (E κ β γ σ ο : Type*) where
  key : E → κ
  visit : E → Except γ β
  entries : σ → List E
  step : σ → ο → σ
  invalidates : σ → ο → Bool
  nodup : ∀ m, ((entries m).map key).Nodup

namespace System

variable (W : System E κ β γ σ ο)

/-- One step of the walk: it begins, visits the element the iterator stands on and advances, or
finds the iterator at the end. -/
def advance (l : List E) : Walker κ β γ → Walker κ β γ
  | .idle => .standing (first W.key l) []
  | .standing none visited => .ended (.ok visited)
  | .standing (some x) visited =>
    match ahead W.key (some x) l with
    | [] => .dangling
    | e :: rest =>
      match W.visit e with
      | .ok v => .standing (first W.key rest) (visited ++ [v])
      | .error stop => .ended (.error stop)
  | .ended result => .ended result
  | .dangling => .dangling

/-- A step of the walk, or another step of the system. -/
def walkStep (s : σ × Walker κ β γ) : Option ο → σ × Walker κ β γ
  | none => (s.1, W.advance (W.entries s.1) s.2)
  | some o => (W.step s.1 o, if W.invalidates s.1 o then s.2.invalidated else s.2)

/-! ### Orderly runs -/

/-- The step changes the elements behind the iterator. -/
def ChangesBehind (s : σ × Walker κ β γ) (op : Option ο) : Prop :=
  ∃ o it visited, op = some o ∧ s.2 = .standing it visited ∧
    behind W.key it (W.entries (W.step s.1 o)) ≠ behind W.key it (W.entries s.1)

/-- The step changes the elements from the iterator on. -/
def ChangesAhead (s : σ × Walker κ β γ) (op : Option ο) : Prop :=
  ∃ o it visited, op = some o ∧ s.2 = .standing it visited ∧
    ahead W.key it (W.entries (W.step s.1 o)) ≠ ahead W.key it (W.entries s.1)

/-- The step removes the element the iterator stands on. -/
def Undercuts (s : σ × Walker κ β γ) (op : Option ο) : Prop :=
  ∃ o x visited,
    op = some o ∧ s.2 = .standing (some x) visited ∧ ∀ e ∈ W.entries (W.step s.1 o), W.key e ≠ x

/-- The step invalidates the iterator. -/
def Invalidates (s : σ × Walker κ β γ) (op : Option ο) : Prop :=
  ∃ o it visited, op = some o ∧ s.2 = .standing it visited ∧ W.invalidates s.1 o = true

/-- No step of the run changes what is behind the iterator. -/
abbrev Unchanged (s : σ × Walker κ β γ) (ops : List (Option ο)) : Prop :=
  StepsOk W.walkStep (fun s op => ¬ W.ChangesBehind s op) s ops

/-- No step removes the element the iterator stands on or invalidates the iterator, and none changes
what is ahead of it once one, the same or an earlier one, has changed what is behind. -/
def Orderly (s : σ × Walker κ β γ) (ops : List (Option ο)) : Prop :=
  ∀ pre op, pre ++ [op] <+: ops →
    ¬ W.Undercuts (exec W.walkStep s pre) op ∧ ¬ W.Invalidates (exec W.walkStep s pre) op ∧
      (W.ChangesAhead (exec W.walkStep s pre) op → W.Unchanged s (pre ++ [op]))

/-- The result is that of a walk at one instant of this one. -/
def AtInstant (s : σ × Walker κ β γ) (ops : List (Option ο)) (result : Except γ (List β)) : Prop :=
  ∃ pre, pre <+: ops ∧ (exec W.walkStep s pre).2.Standing ∧
    result = (W.entries (exec W.walkStep s pre).1).mapM W.visit

/-- The iterator stands on an element, the visits are those of the elements behind if these never
changed, and with what is ahead they are a walk at one instant. -/
structure Stands (s : σ × Walker κ β γ) (ops : List (Option ο)) (m : σ) (it : Option κ)
    (visited : List β) :
    Prop where
  on : ∀ x, it = some x → ∃ e ∈ W.entries m, W.key e = x
  visits : W.Unchanged s ops → (behind W.key it (W.entries m)).mapM W.visit = .ok visited
  instant : W.AtInstant s ops (resume visited ((ahead W.key it (W.entries m)).mapM W.visit))

/-- What is known of a walk after an orderly run. -/
def Snap (s : σ × Walker κ β γ) (ops : List (Option ο)) (m : σ) : Walker κ β γ → Prop
  | .idle => True
  | .standing it visited => W.Stands s ops m it visited
  | .ended result => W.AtInstant s ops result
  | .dangling => False

variable {W} {s : σ × Walker κ β γ} {ops : List (Option ο)} {m : σ}

theorem Orderly.initial {pre : List (Option ο)} (hp : pre <+: ops) (h : W.Orderly s ops) :
    W.Orderly s pre :=
  fun pre' op hpre => h pre' op (hpre.trans hp)

theorem orderly_of_unchanged (hu : W.Unchanged s ops)
    (hunder : StepsOk W.walkStep (fun s op => ¬ W.Undercuts s op) s ops)
    (hvalid : StepsOk W.walkStep (fun s op => ¬ W.Invalidates s op) s ops) : W.Orderly s ops :=
  fun pre op hp => ⟨hunder pre op hp, hvalid pre op hp, fun _ => hu.initial hp⟩

theorem walkStep_of_valid {it : Option κ} {visited : List β} {o : ο}
    (h : ¬ W.Invalidates (m, .standing it visited) (some o)) :
    W.walkStep (m, .standing it visited) (some o) = (W.step m o, .standing it visited) := by
  have hvalid : ¬ W.invalidates m o = true := fun hi => h ⟨o, it, visited, rfl, rfl, hi⟩
  rw [walkStep, if_neg hvalid]

theorem AtInstant.mono {ops' : List (Option ο)} {result : Except γ (List β)} (hp : ops <+: ops')
    (h : W.AtInstant s ops result) : W.AtInstant s ops' result := by
  obtain ⟨pre, hpre, h⟩ := h
  exact ⟨pre, hpre.trans hp, h⟩

theorem atInstant_now {it : Option κ} {visited : List β}
    (hc : exec W.walkStep s ops = (m, .standing it visited)) :
    W.AtInstant s ops ((W.entries m).mapM W.visit) := by
  refine ⟨ops, List.prefix_refl _, ?_, ?_⟩
  · rw [hc]
    exact ⟨it, visited, rfl⟩
  · rw [hc]

/-! ### The invariant -/

theorem stands_first (hc : exec W.walkStep s ops = (m, .standing (first W.key (W.entries m)) [])) :
    W.Stands s ops m (first W.key (W.entries m)) [] where
  on _ := mem_of_first
  visits _ := by rw [behind_first]; rfl
  instant := by
    have hahead : ahead W.key (first W.key (W.entries m)) (W.entries m) = W.entries m :=
      (split_first (p := []) (W.nodup m)).2
    rw [resume_nil, hahead]
    exact atInstant_now hc

/-- The walk visits an element and goes on. -/
theorem Stands.next {x : κ} {visited : List β} {e : E} {rest : List E} {v : β}
    (h : W.Stands s ops m (some x) visited)
    (hahead : ahead W.key (some x) (W.entries m) = e :: rest) (hv : W.visit e = .ok v)
    {ops' : List (Option ο)} (hp : ops <+: ops') :
    W.Stands s ops' m (first W.key rest) (visited ++ [v]) := by
  have hentries : W.entries m = behind W.key (some x) (W.entries m) ++ [e] ++ rest := by
    rw [List.append_assoc, List.singleton_append, ← hahead, behind_append_ahead]
  have hsplit :
    behind W.key (first W.key rest) (W.entries m) = behind W.key (some x) (W.entries m) ++ [e] ∧
      ahead W.key (first W.key rest) (W.entries m) = rest := by
    have hnodup := W.nodup m
    generalize behind W.key (some x) (W.entries m) = p at hentries
    rw [hentries] at hnodup ⊢
    exact split_first hnodup
  refine ⟨fun y hy => ?_, fun hu => ?_, ?_⟩
  · obtain ⟨e', he', hkey⟩ := mem_of_first hy
    refine ⟨e', ?_, hkey⟩
    rw [hentries]
    exact List.mem_append_right _ he'
  · rw [hsplit.1]
    exact mapM_concat_of_ok (h.visits (hu.initial hp)) hv
  · rw [hsplit.2, ← resume_cons hv, ← hahead]
    exact h.instant.mono hp

/-- Another step of the system. -/
theorem Stands.step {it : Option κ} {visited : List β} {o : ο} (h : W.Stands s ops m it visited)
    (hc : exec W.walkStep s ops = (m, .standing it visited))
    (hord : W.Orderly s (ops ++ [some o])) :
    W.Stands s (ops ++ [some o]) (W.step m o) it visited := by
  have hp : ops <+: ops ++ [some o] := List.prefix_append _ _
  obtain ⟨hunder, hvalid, hafter⟩ := hord ops (some o) (List.prefix_refl _)
  rw [hc] at hunder hvalid hafter
  have hvisits : W.Unchanged s (ops ++ [some o]) →
      (behind W.key it (W.entries (W.step m o))).mapM W.visit = .ok visited := by
    intro hu
    have hsame : behind W.key it (W.entries (W.step m o)) = behind W.key it (W.entries m) := by
      by_contra hne
      refine hu ops (some o) (List.prefix_refl _) ?_
      rw [hc]
      exact ⟨o, it, visited, rfl, rfl, hne⟩
    rw [hsame]
    exact h.visits (hu.initial hp)
  refine ⟨fun x hx => ?_, hvisits, ?_⟩
  · subst hx
    by_contra hno
    exact hunder ⟨o, x, visited, rfl, rfl, fun e he hk => hno ⟨e, he, hk⟩⟩
  · by_cases hsame : ahead W.key it (W.entries (W.step m o)) = ahead W.key it (W.entries m)
    · rw [hsame]
      exact h.instant.mono hp
    · -- nothing behind has changed so far: the walk is one of the list as it is now
      have hu : W.Unchanged s (ops ++ [some o]) := hafter ⟨o, it, visited, rfl, rfl, hsame⟩
      rw [← mapM_append_of_ok (hvisits hu), behind_append_ahead]
      have hnow : exec W.walkStep s (ops ++ [some o]) = (W.step m o, .standing it visited) := by
        rw [exec_concat, hc, walkStep_of_valid hvalid]
      exact atInstant_now hnow

/-- **One step** of an orderly run. -/
theorem Snap.step {w : Walker κ β γ} (hc : exec W.walkStep s ops = (m, w)) (h : W.Snap s ops m w)
    (op : Option ο) (hord : W.Orderly s (ops ++ [op])) :
    W.Snap s (ops ++ [op]) (W.walkStep (m, w) op).1 (W.walkStep (m, w) op).2 := by
  have hp : ops <+: ops ++ [op] := List.prefix_append _ _
  have hc' : exec W.walkStep s (ops ++ [op]) = W.walkStep (m, w) op := by rw [exec_concat, hc]
  rcases op with _ | o
  · rcases w with _ | ⟨_ | x, visited⟩ | result | _
    · exact stands_first hc'
    · have hinstant := h.instant
      rw [ahead_none] at hinstant
      have hvisited : resume visited (([] : List E).mapM W.visit) = .ok visited := by
        show Except.ok (visited ++ []) = _
        rw [List.append_nil]
      rw [hvisited] at hinstant
      exact hinstant.mono hp
    · obtain ⟨e, rest, hahead, -⟩ := ahead_of_mem (h.on x rfl)
      rcases hv : W.visit e with stop | v
      · have hadvance :
          W.advance (W.entries m) (.standing (some x) visited) = .ended (.error stop) := by
          simp only [advance, hahead, hv]
        show W.Snap s (ops ++ [none]) m (W.advance (W.entries m) (.standing (some x) visited))
        rw [hadvance]
        have hinstant := h.instant
        rw [hahead, resume_cons_error hv] at hinstant
        exact hinstant.mono hp
      · have hadvance : W.advance (W.entries m) (.standing (some x) visited) =
            .standing (first W.key rest) (visited ++ [v]) := by
          simp only [advance, hahead, hv]
        show W.Snap s (ops ++ [none]) m (W.advance (W.entries m) (.standing (some x) visited))
        rw [hadvance]
        exact Stands.next h hahead hv hp
    · exact AtInstant.mono hp h
    · exact h.elim
  · rcases w with _ | ⟨it, visited⟩ | result | _
    · dsimp only [walkStep]
      split_ifs <;> trivial
    · have hvalid : ¬ W.Invalidates (m, .standing it visited) (some o) := by
        have hnot := (hord ops (some o) (List.prefix_refl _)).2.1
        rwa [hc] at hnot
      rw [walkStep_of_valid hvalid]
      exact Stands.step h hc hord
    · dsimp only [walkStep]
      split_ifs <;> exact AtInstant.mono hp h
    · exact h.elim

theorem snap_run (m : σ) (ops : List (Option ο)) (hord : W.Orderly (m, .idle) ops) :
    W.Snap (m, .idle) ops (exec W.walkStep (m, .idle) ops).1
      (exec W.walkStep (m, .idle) ops).2 := by
  induction ops using List.reverseRecOn with
  | nil => trivial
  | append_singleton ops op ih =>
    rw [exec_concat]
    exact (ih (hord.initial (List.prefix_append _ _))).step rfl op hord

/-- **Walks in orderly runs.** If no step removes the element the iterator stands on or invalidates
the iterator, and none changes what is ahead of it once something behind it has changed, then the
walk does not lose its iterator, and when it ended it yields what a walk over the list at some
instant since it began yields. -/
theorem snapshot_of_orderly (hord : W.Orderly (m, .idle) ops) :
    (exec W.walkStep (m, .idle) ops).2 ≠ .dangling ∧
      ∀ result,
        (exec W.walkStep (m, .idle) ops).2 = .ended result → W.AtInstant (m, .idle) ops result := by
  have h := snap_run m ops hord
  constructor
  · intro hd
    rw [hd] at h
    exact h
  · intro result hr
    rw [hr] at h
    exact h

end System

end Phonebook.Lib.Walk
