import Phonebook.Lib.Walk
import Phonebook.Server.Threads

/-! # The configuration of a provider at work

`getConfig` walks over `m_backends` without the lock that every handler takes, so that sections of
handlers fall between its iterations, and its list need not be what was registered at any instant
(`not_oneInstant_createClose`). It is, if no section erases the entry the iterator stands on or
inserts one that makes the map rehash, which invalidates all iterators, and none changes the entries
ahead of the iterator once one has changed the entries behind it (`oneInstant_of_orderly`). -/

namespace Phonebook.Server.Snapshot

open Phonebook.Data.Values Phonebook.Data.JsonTree Phonebook.Server.Backends
open Phonebook.Server.Provider Phonebook.Server.Threads Phonebook.Lib.Runs Phonebook.Lib.Walk

/-! ### The loop as a walk -/

variable {α : Type} (env : Env α)

/-- One iteration of the loop of `getConfig`; `none` stands for undefined behaviour. -/
def iteration (entry : Sigma fun _ : UUID => Backend α) : Except (Option Exn) Json :=
  match phonebookConfig env entry with
  | .returns v => .ok v
  | .throws e => .error (some e)
  | .undefined => .error none

/-- How the loop ends. -/
def loopResult : Except (Option Exn) (List Json) → Cpp (List Json)
  | .ok phonebooks => .returns phonebooks
  | .error (some e) => .throws e
  | .error none => .undefined

theorem loopResult_mapM (walk : List (Sigma fun _ : UUID => Backend α)) :
    loopResult (walk.mapM (iteration env)) = walkConfig env walk := by
  induction walk with
  | nil => rfl
  | cons entry walk ih =>
    rw [List.mapM_cons, walkConfig, ← ih]
    rcases hv : phonebookConfig env entry with v | e | _
    · rw [show iteration env entry = .ok v by simp only [iteration, hv]]
      rcases walk.mapM (iteration env) with (_ | e) | vs <;> rfl
    · rw [show iteration env entry = .error (some e) by simp only [iteration, hv]]
      rfl
    · rw [show iteration env entry = .error none by simp only [iteration, hv]]
      rfl

theorem length_of_walkConfig {walk : List (Sigma fun _ : UUID => Backend α)}
    {phonebooks : List Json}
    (h : walkConfig env walk = .returns phonebooks) : phonebooks.length = walk.length := by
  induction walk generalizing phonebooks with
  | nil =>
    cases h
    rfl
  | cons entry walk ih =>
    rw [walkConfig] at h
    rcases hv : phonebookConfig env entry with v | e | _ <;> rw [hv] at h
    · rcases hvs : walkConfig env walk with vs | e | _ <;> rw [hvs] at h
      · cases h
        rw [List.length_cons, List.length_cons, ih hvs]
      · cases h
      · cases h
    · cases h
    · cases h

/-! ### The map while the threads run -/

section Map
variable {ι : Type}

/-- The entry of the map under an id, with the object it points to. -/
def entryAt (c : Pool ι α) (id : UUID) : Option (Sigma fun _ : UUID => Backend α) :=
  (c.mBackends.lookup id).bind fun o => c.heap[o]?.map fun b => ⟨id, b⟩

/-- The entries of the map. -/
def contents (c : Pool ι α) : Multiset (Sigma fun _ : UUID => Backend α) :=
  c.mBackends.keys.val.filterMap (entryAt c)

/-- How the map is laid out in the states of the pool: the order a walk over it has, and the threads
whose insertion would make it rehash. -/
structure Layout (ι α : Type) where
  ids : Pool ι α → List UUID
  lists : ∀ c, (ids c : Multiset UUID) = c.mBackends.keys.val
  rehashes : Pool ι α → ι → Bool

/-- The entries of the map in the order a walk meets them. -/
def entries (layout : Layout ι α) (c : Pool ι α) : List (Sigma fun _ : UUID => Backend α) :=
  (layout.ids c).filterMap (entryAt c)

theorem coe_entries (layout : Layout ι α) (c : Pool ι α) :
    (entries layout c : Multiset (Sigma fun _ : UUID => Backend α)) = contents c := by
  rw [contents, ← layout.lists]
  rfl

theorem fst_of_entryAt {c : Pool ι α} {id : UUID} {entry : Sigma fun _ : UUID => Backend α}
    (h : entryAt c id = some entry) : entry.1 = id := by
  obtain ⟨o, -, hb⟩ := Option.bind_eq_some_iff.mp h
  obtain ⟨b, -, rfl⟩ := Option.map_eq_some_iff.mp hb
  rfl

theorem nodup_entries (layout : Layout ι α) (c : Pool ι α) :
    ((entries layout c).map Sigma.fst).Nodup := by
  have hids : (layout.ids c).Nodup := by
    rw [← Multiset.coe_nodup, layout.lists]
    exact c.mBackends.keys.nodup
  refine (List.Nodup.filterMap (f := entryAt c) ?_ hids).map_on ?_
  · intro id id' entry h h'
    rw [← fst_of_entryAt h, ← fst_of_entryAt h']
  · intro entry h entry' h' heq
    obtain ⟨id, -, hid⟩ := List.mem_filterMap.mp h
    obtain ⟨id', -, hid'⟩ := List.mem_filterMap.mp h'
    have hsame : id = id' := by rw [← fst_of_entryAt hid, ← fst_of_entryAt hid', heq]
    subst hsame
    exact Option.some.inj (hid.symm.trans hid')

end Map

/-! ### `getConfig` among the handlers -/

variable {ι : Type} [DecidableEq ι] (reqs : ι → Request) (layout : Layout ι α)

/-- The next section of the thread inserts an entry under an id that has none. -/
def inserts (c : Pool ι α) (i : ι) : Bool :=
  match c.phase i, reqs i with
  | .built _, .createPhonebook _ _ _ id | .built _, .openPhonebook _ _ _ id =>
    decide (id ∉ c.mBackends)
  | _, _ => false

/-- The loop of `getConfig` over the map of the pool. -/
def loop : System (Sigma fun _ : UUID => Backend α) UUID Json (Option Exn) (Pool ι α) ι where
  key := Sigma.fst
  visit := iteration env
  entries := entries layout
  step c i := c.step env i reqs
  invalidates c i := inserts reqs c i && layout.rehashes c i
  nodup := nodup_entries layout

/-- A pool whose threads have not begun, and a call of `getConfig` that has not either. -/
def before (mToken : String) (s : Store α) : Pool ι α × Walker UUID Json (Option Exn) :=
  (.start mToken s, .idle)

/-- What the loop came to; an iterator that dangles is undefined behaviour when the loop goes on
with it. -/
def outcome : Walker UUID Json (Option Exn) → Option (Cpp (List Json))
  | .ended result => some (loopResult result)
  | .dangling => some .undefined
  | .idle | .standing _ _ => none

/-- If `getConfig` is through with its loop after the run, the loop came to what it comes to without
other threads on the entries registered at some instant since it began. -/
def OneInstant (mToken : String) (s : Store α) (schedule : List (Option ι)) : Prop :=
  ∀ result,
    outcome (exec (loop env reqs layout).walkStep (before mToken s) schedule).2 = some result →
    ∃ pre,
      pre <+: schedule ∧ (exec (loop env reqs layout).walkStep (before mToken s) pre).2.Standing ∧
      ∃ walk : List (Sigma fun _ : UUID => Backend α),
        (walk : Multiset (Sigma fun _ : UUID => Backend α)) =
          contents (exec (loop env reqs layout).walkStep (before mToken s) pre).1 ∧
            result = walkConfig env walk

/-- **The configuration at one instant.** Under any schedule of any requests and one call of
`getConfig`, if no section erases the entry the iterator of `getConfig` stands on or inserts one
that makes the map rehash, and none changes the entries from there on once one has changed the
entries behind, then the call lists what is registered at one instant since it began. -/
theorem oneInstant_of_orderly (mToken : String) (s : Store α) (schedule : List (Option ι))
    (h : (loop env reqs layout).Orderly (before mToken s) schedule) :
    OneInstant env reqs layout mToken s schedule := by
  intro result hr
  obtain ⟨halive, hended⟩ := System.snapshot_of_orderly h
  rcases hw : (exec (loop env reqs layout).walkStep (before mToken s) schedule).2 with _
    | ⟨it, visited⟩ | r | _
  · rw [hw] at hr
    cases hr
  · rw [hw] at hr
    cases hr
  · rw [hw] at hr
    obtain rfl : loopResult r = result := Option.some.inj hr
    obtain ⟨pre, hpre, hstanding, hinstant⟩ := hended r hw
    refine ⟨pre, hpre, hstanding, _, coe_entries layout _, ?_⟩
    rw [hinstant]
    exact loopResult_mapM env _
  · exact absurd hw halive

/-! ### Runs -/

/-- An order in which these ids come first, one after the other, in a map with buckets to spare. -/
noncomputable def preferring (first : List UUID) : Layout ι α where
  ids c :=
    if ((first.filter (· ∈ c.mBackends) : List UUID) : Multiset UUID) = c.mBackends.keys.val then
      first.filter (· ∈ c.mBackends)
    else c.mBackends.keys.toList
  lists c := by
    split_ifs with h
    · exact h
    · exact Finset.coe_toList _
  rehashes _ _ := false

/-- The ids of four phonebooks. -/
def numbered (n : UInt8) : UUID := ⟨fun _ => n⟩

/-- Three phonebooks. -/
def threePhonebooks : Store DummyPhonebook :=
  ((Store.empty.insert (numbered 1) ⟨"dummy", ⟨.object []⟩⟩).insert (numbered 2)
    ⟨"dummy", ⟨.object []⟩⟩).insert
    (numbered 3) ⟨"dummy", ⟨.object []⟩⟩

/-- One thread creates a phonebook, one closes the last of the three. -/
def createClose : Bool → Request
  | false => .createPhonebook "" "dummy" "\x7b\x7d" (numbered 0)
  | true => .closePhonebook "" (numbered 3)

/-- A call of `getConfig` while these two threads run, the order of the map being that of the
ids. -/
noncomputable abbrev createCloseLoop :
    System (Sigma fun _ : UUID => Backend DummyPhonebook) UUID Json (Option Exn)
      (Pool Bool DummyPhonebook) Bool :=
  loop (DummyPhonebook.env .sample uuidUnparse) createClose
    (preferring [numbered 0, numbered 1, numbered 2, numbered 3])

/-- The iterator stands on the first phonebook when the third is closed. -/
def eraseAhead : List (Option Bool) := [none, some true, some true, some true, none, none, none]

theorem orderly_eraseAhead : createCloseLoop.Orderly (before "" threePhonebooks) eraseAhead := by
  have hstanding : ∀ k, 1 ≤ k → k ≤ 3 →
      (exec createCloseLoop.walkStep (before "" threePhonebooks) (eraseAhead.take k)).2 =
        .standing (some (numbered 1)) [] := by
    intro k h1 h3
    match k with
    | 1 | 2 | 3 => rfl
  refine System.orderly_of_unchanged (stepsOk_iff_getElem.mpr ?_) (stepsOk_iff_getElem.mpr ?_)
    (stepsOk_iff_getElem.mpr ?_)
  · rintro k hk ⟨o, it, visited, hop, hst, hne⟩
    match k with
    | 0 | 4 | 5 | 6 => cases hop
    | 1 | 2 | 3 =>
      obtain ⟨rfl, rfl⟩ :=
        Walker.standing.inj ((hstanding _ (by decide) (by decide)).symm.trans hst)
      cases hop
      exact hne rfl
  · rintro k hk ⟨o, x, visited, hop, hst, hno⟩
    match k with
    | 0 | 4 | 5 | 6 => cases hop
    | 1 | 2 | 3 =>
      obtain ⟨hx, rfl⟩ := Walker.standing.inj ((hstanding _ (by decide) (by decide)).symm.trans hst)
      cases hop
      cases hx
      exact hno ⟨numbered 1, ⟨"dummy", ⟨.object []⟩⟩⟩ (List.Mem.head _) rfl
  · rintro k hk ⟨o, it, visited, -, -, hinvalid⟩
    rw [show createCloseLoop.invalidates _ o = false from Bool.and_false _] at hinvalid
    cases hinvalid

theorem oneInstant_of_orderly_eraseAhead :
    OneInstant (DummyPhonebook.env .sample uuidUnparse) createClose
      (preferring [numbered 0, numbered 1, numbered 2, numbered 3]) "" threePhonebooks eraseAhead :=
  oneInstant_of_orderly _ _ _ _ _ _ orderly_eraseAhead

/-- The iterator stands on the second phonebook when a fourth is inserted in front and the third is
closed. -/
def insertBehindEraseAhead : List (Option Bool) :=
  [none, none, some false, some false, some false, some true, some true, some true, none, none]

theorem ended_insertBehindEraseAhead :
    (exec createCloseLoop.walkStep (before "" threePhonebooks) insertBehindEraseAhead).2 =
      .ended (.ok
      [phonebookDocument (DummyPhonebook.env .sample uuidUnparse) (numbered 1) "dummy" (.object []),
        phonebookDocument (DummyPhonebook.env .sample uuidUnparse)
          (numbered 2) "dummy" (.object [])]) := rfl

/-- Two phonebooks are listed, and never fewer than three registered. -/
theorem not_oneInstant_createClose :
    ¬ OneInstant (DummyPhonebook.env .sample uuidUnparse) createClose
      (preferring [numbered 0, numbered 1, numbered 2, numbered 3]) "" threePhonebooks
        insertBehindEraseAhead := by
  intro h
  obtain ⟨pre, hpre, -, walk, hwalk, hresult⟩ := h _ (congrArg outcome ended_insertBehindEraseAhead)
  have hlisted : 2 = walk.length := length_of_walkConfig _ hresult.symm
  have hregistered : ∀ k < 11, 3 ≤
      (contents (exec createCloseLoop.walkStep (before "" threePhonebooks)
        (insertBehindEraseAhead.take k)).1).card := by
    decide
  have hpos : pre.length < 11 := Nat.lt_succ_of_le hpre.length_le
  have hcard : walk.length =
      (contents (exec createCloseLoop.walkStep (before "" threePhonebooks) pre).1).card := by
    rw [← Multiset.coe_card, hwalk]
  rw [List.prefix_iff_eq_take.mp hpre] at hcard
  have hthree := hregistered pre.length hpos
  omega

end Phonebook.Server.Snapshot
