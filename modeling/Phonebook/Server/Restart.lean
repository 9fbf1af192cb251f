import Phonebook.Server.History
import Phonebook.Server.Loading

/-! # Restart

A provider whose backends hand out the configuration they were given writes, in its own
configuration, all its constructor needs to make the same phonebooks again. A provider constructed
from that text has the same types with the same configurations, each as often, under new ids
(`restart`). -/

namespace Phonebook.Server.Restart

open Phonebook.Data.Values Phonebook.Data.JsonTree Phonebook.Lib.Runs Phonebook.Server.Backends
open Phonebook.Server.Provider Phonebook.Server.Handlers Phonebook.Server.History
open Phonebook.Server.Registered Phonebook.Server.Loading

variable {α : Type}

/-- Backends whose `getConfig` is the dump of the configuration they were created or opened with,
whatever was called on them since. -/
structure KeepsConfig (env : Env α) (types : List (String × BackendType α)) (config : α → Json) :
    Prop where
  getConfig : ∀ d, env.ops.getConfig d = .returns (env.json.dump (config d))
  create : ∀ t ∈ types, ∀ v d, t.2.create v = .returns (some d) → config d = v
  open' : ∀ t ∈ types, ∀ v d, t.2.open' v = .returns (some d) → config d = v
  sayHello : ∀ d, config (env.ops.sayHello d).2 = config d
  computeSum : ∀ d x y, config (env.ops.computeSum d x y).2 = config d
  destroy : ∀ d, config (env.ops.destroy d).2 = config d

/-- `create` accepts every configuration that it or `open` accepts. -/
def CreateAccepts (types : List (String × BackendType α)) : Prop :=
  ∀ t ∈ types, ∀ v, (∃ d, t.2.create v = .returns (some d) ∨ t.2.open' v = .returns (some d)) →
    ∃ d, t.2.create v = .returns (some d)

/-- The type names and configurations of the registered phonebooks. -/
def phonebooks (config : α → Json) (m : Registry α) : Multiset (String × Json) :=
  (backends m).map fun b => (b.mName, config b.derived)

/-- A document of `getConfig` without the id. -/
def withoutId : Json → Json
  | .object ms => .object (ms.filter fun m => m.1 ≠ "__id__")
  | v => v

/-- The document of a phonebook without the id. -/
def anonymous (x : String × Json) : Json := .object [("config", x.2), ("type", .string x.1)]

theorem withoutId_phonebookDocument (env : Env α) (id : UUID) (name : String) (config : Json) :
    withoutId (phonebookDocument env id name config) = anonymous (name, config) := rfl

/-! ### What is registered can be created again -/

section Registry
variable {env : Env α} {types : List (String × BackendType α)} {config : α → Json}

/-- The type of the backend is registered, and creates a backend with the same configuration. -/
def Recreatable (types : List (String × BackendType α)) (config : α → Json) (b : Backend α) :
    Prop :=
  ∃ T d, lastRegistered types b.mName = some T ∧ T.create (config b.derived) = .returns (some d) ∧
    config d = config b.derived

theorem called_returned {name : String} {made : Option (Cpp (Option α))} {b : Backend α}
    (h : called name made = .returns (some b)) :
    ∃ d, made = some (.returns (some d)) ∧ b = ⟨name, d⟩ := by
  rcases made with _ | (_ | d) | e | _ <;> simp [called] at h
  exact ⟨d, rfl, h.symm⟩

theorem recreatable_of_made (hkeeps : KeepsConfig env types config) (haccepts : CreateAccepts types)
    {b : Backend α} (hb : Made (linked env types) b) : Recreatable types config b := by
  obtain ⟨ty, s, v, hs, hmade⟩ := hb
  -- create or open of the type registered last gave the object
  obtain ⟨T, d, hT, rfl, hgave⟩ : ∃ T d, lastRegistered types ty = some T ∧ b = ⟨ty, d⟩ ∧
      (T.create v = .returns (some d) ∨ T.open' v = .returns (some d)) := by
    rcases hmade with hm | hm
    · rw [show (linked env types).factory = registerAll types from
        rfl, createPhonebook_registerAll] at hm
      obtain ⟨d, hd, rfl⟩ := called_returned hm
      obtain ⟨T, hT, hd⟩ := Option.map_eq_some_iff.mp hd
      exact ⟨T, d, hT, rfl, Or.inl hd⟩
    · rw [show (linked env types).factory = registerAll types from
        rfl, openPhonebook_registerAll] at hm
      obtain ⟨d, hd, rfl⟩ := called_returned hm
      obtain ⟨T, hT, hd⟩ := Option.map_eq_some_iff.mp hd
      exact ⟨T, d, hT, rfl, Or.inr hd⟩
  obtain ⟨t, ht, rfl⟩ := mem_of_lastRegistered hT
  have hconfig : config d = v := hgave.elim (hkeeps.create t ht v d) (hkeeps.open' t ht v d)
  obtain ⟨d', hd'⟩ := haccepts t ht v ⟨d, hgave⟩
  refine ⟨t.2, d', hT, ?_, ?_⟩
  · rw [hconfig]
    exact hd'
  · exact (hkeeps.create t ht v d' hd').trans hconfig.symm

theorem Recreatable.called (hkeeps : KeepsConfig env types config) {b : Backend α} {d : α}
    (hb : Recreatable types config b) (hd : Called (linked env types) b.derived d) :
    Recreatable types config { b with derived := d } := by
  have hconfig : config d = config b.derived := by
    rcases hd with rfl | ⟨x, y, rfl⟩ | rfl
    · exact hkeeps.sayHello _
    · exact hkeeps.computeSum _ x y
    · exact hkeeps.destroy _
  unfold Recreatable
  dsimp only
  rw [hconfig]
  exact hb

/-- All registered backends can be created again. -/
def AllRecreatable (types : List (String × BackendType α)) (config : α → Json)
    (p : ProviderImpl α) : Prop :=
  ∀ id b, p.mBackends.lookup id = some b → Recreatable types config b

theorem AllRecreatable.serve (hkeeps : KeepsConfig env types config)
    (haccepts : CreateAccepts types) {p : ProviderImpl α} (h : AllRecreatable types config p)
    (r : Request) :
    AllRecreatable types config (serve (linked env types) p r).provider := by
  have hchanged : Changed (linked env types) p (Provider.serve (linked env types) p r).provider :=
    changed_serve p r
  generalize (Provider.serve (linked env types) p r).provider = p' at hchanged
  cases hchanged with
  | nothing => exact h
  | added id b hb => exact forall_lookup_insert h (recreatable_of_made hkeeps haccepts hb)
  | removed id => exact forall_lookup_erase h id
  | called id b d hl hd => exact forall_lookup_insert h ((h id b hl).called hkeeps hd)

theorem allRecreatable_after (hkeeps : KeepsConfig env types config)
    (haccepts : CreateAccepts types) (generate : ℕ → UUID) (text : String) (reqs : List Request) :
    AllRecreatable types config (after (linked env types) generate text reqs).provider := by
  refine exec_induction (Logged.step (linked env types))
    (P := fun s : Logged α => AllRecreatable types config s.provider) ?_
    (fun s r h => h.serve hkeeps haccepts r) reqs
  exact construct_induction (linked env types) (P := fun p _ => AllRecreatable types config p)
    (fun id b hl => by simp at hl) (fun p results result h _ => h)
    (fun p results id ty s v b h hv hm =>
      forall_lookup_insert h (recreatable_of_made hkeeps haccepts ⟨ty, s, v, hv, Or.inl hm⟩))
        generate text

/-! ### The configuration and what is made of it -/

/-- The documents of a walk. -/
def documents (env : Env α) (config : α → Json) (walk : List (Sigma fun _ : UUID => Backend α)) :
    List Json :=
  walk.map fun e => phonebookDocument env e.1 e.2.mName (config e.2.derived)

theorem phonebooks_walk {m : Registry α} {walk : List (Sigma fun _ : UUID => Backend α)}
    (hw : WalkOrder m walk) :
    phonebooks config m =
      (walk.map fun e => (e.2.mName, config e.2.derived) : List (String × Json)) := by
  rw [phonebooks, backends, ← hw, Multiset.map_coe, Multiset.map_coe, List.map_map]
  rfl

theorem withoutId_documents (walk : List (Sigma fun _ : UUID => Backend α)) :
    (documents env config walk).map withoutId =
      (walk.map fun e => (e.2.mName, config e.2.derived)).map anonymous := by
  rw [documents, List.map_map, List.map_map]
  exact List.map_congr_left fun e _ => withoutId_phonebookDocument env e.1 _ _

theorem getConfig_documents (hkeeps : KeepsConfig env types config)
    {walk : List (Sigma fun _ : UUID => Backend α)}
    (hread : ∀ e ∈ walk, env.json.Rereads (config e.2.derived)) :
    getConfig (linked env types) walk =
      .returns (env.json.dump (configDocument (documents env config walk))) := by
  have hwalk : walkConfig (linked env types) walk = .returns (documents env config walk) :=
    walkConfig_of (fun e _ => hkeeps.getConfig e.2.derived) hread
  rw [getConfig, hwalk]
  rfl

theorem stringMember?_phonebookDocument (id : UUID) (name : String) (v : Json) :
    (phonebookDocument env id name v).stringMember? "type" = some name := rfl

theorem configMember_phonebookDocument (id : UUID) (name : String) (v : Json) :
    configMember (phonebookDocument env id name v) = v := rfl

theorem accepted_phonebookDocument {b : Backend α} (hb : Recreatable types config b) (id : UUID) :
    ∃ b', accepted types (phonebookDocument env id b.mName (config b.derived)) = some b' ∧
      (b'.mName, config b'.derived) = (b.mName, config b.derived) := by
  obtain ⟨T, d, hT, hd, hconfig⟩ := hb
  refine ⟨⟨b.mName, d⟩, ?_, by rw [hconfig]⟩
  rw [accepted, stringMember?_phonebookDocument, configMember_phonebookDocument]
  dsimp only
  rw [hT]
  dsimp only
  rw [hd]

/-- The elements of the phonebooks of a walk. -/
theorem accepted_documents {walk : List (Sigma fun _ : UUID => Backend α)}
    (hwalk : ∀ e ∈ walk, Recreatable types config e.2) :
    ((documents env config walk).filterMap (accepted types)).map
      (fun b => (b.mName, config b.derived)) =
      walk.map fun e => (e.2.mName, config e.2.derived) := by
  induction walk with
  | nil => rfl
  | cons e rest ih =>
    obtain ⟨b', haccepted, hsame⟩ := accepted_phonebookDocument (hwalk e (by simp)) e.1
    have hrest := ih fun e' he' => hwalk e' (by simp [he'])
    rw [documents, List.map_cons, List.filterMap_cons_some haccepted, List.map_cons,
      List.map_cons, hsame]
    exact congrArg _ hrest

end Registry

/-- **Restart.** Take a provider constructed with any configuration after any requests, whose
backends keep the configuration they were given and whose `create` accepts all that was accepted,
and the text of its configuration. If the library reads back this text and the configurations that
are registered, a provider constructed with the text, drawing different ids, has the same types with
the same configurations, each as often, and its own configuration is the same but for the order and
the ids. -/
theorem restart (env : Env α) (types : List (String × BackendType α)) (config : α → Json)
    (hkeeps : KeepsConfig env types config) (haccepts : CreateAccepts types) (generate : ℕ → UUID)
    (text : String) (reqs : List Request) :
    let m := (after (linked env types) generate text reqs).provider.mBackends
    (∀ id b, m.lookup id = some b → env.json.Rereads (config b.derived)) →
      ∀ walk, WalkOrder m walk →
      let docs := documents env config walk
      getConfig (linked env types) walk = .returns (env.json.dump (configDocument docs)) ∧
      (env.json.Rereads (configDocument docs) → ∀ generate',
        Set.InjOn generate' (Set.Iio docs.length) →
        let c := construct (linked env types) generate' (env.json.dump (configDocument docs))
        c.exit = .returns () ∧ phonebooks config c.provider.mBackends = phonebooks config m ∧
        ∀ walk', WalkOrder c.provider.mBackends walk' →
          getConfig (linked env types) walk' =
              .returns (env.json.dump (configDocument (documents env config walk'))) ∧
            ((documents env config walk').map withoutId).Perm (docs.map withoutId)) := by
  intro m hregistered walk hw docs
  have hall : AllRecreatable types config (after (linked env types) generate text reqs).provider :=
    allRecreatable_after hkeeps haccepts generate text reqs
  have hlookup : ∀ e ∈ walk, m.lookup e.1 = some e.2 := fun e he => by
    have hmem : e ∈ m.entries := by
      rw [← hw]
      exact Multiset.mem_coe.mpr he
    exact Finmap.lookup_eq_some_iff.mpr hmem
  have hwalk : ∀ e ∈ walk, Recreatable types config e.2 := fun e he => hall e.1 e.2 (hlookup e he)
  have hread : ∀ e ∈ walk, env.json.Rereads (config e.2.derived) :=
    fun e he => hregistered e.1 e.2 (hlookup e he)
  refine ⟨getConfig_documents hkeeps hread, ?_⟩
  intro hdoc generate' hfresh c
  have hdocs : ∀ e ∈ docs, ∃ x ∈ walk,
      phonebookDocument env x.1 x.2.mName (config x.2.derived) = e := fun e he => List.mem_map.mp he
  -- the constructor makes of each document the backend it came from
  obtain ⟨hexit, hbackends⟩ : c.exit = .returns () ∧
      backends c.provider.mBackends = (docs.filterMap (accepted types) : List (Backend α)) := by
    refine construct_elements hdoc (fun e he => ?_) hfresh fun e he => ?_
    · obtain ⟨x, hx, rfl⟩ := hdocs e he
      intro ty T hty hT
      obtain ⟨T', d, hT', hd, -⟩ := hwalk x hx
      obtain rfl : x.2.mName = ty := Option.some.inj hty
      obtain rfl : T' = T := Option.some.inj (hT'.symm.trans hT)
      exact Or.inl ⟨d, hd⟩
    · obtain ⟨x, hx, rfl⟩ := hdocs e he
      exact hread x hx
  have hsame : phonebooks config c.provider.mBackends = phonebooks config m := by
    rw [phonebooks_walk hw, phonebooks, hbackends, Multiset.map_coe, accepted_documents hwalk]
  refine ⟨hexit, hsame, fun walk' hw' => ⟨?_, ?_⟩⟩
  · refine getConfig_documents hkeeps fun e he => ?_
    -- its configuration is that of a phonebook of the first provider
    have hmem : (e.2.mName, config e.2.derived) ∈ phonebooks config m := by
      rw [← hsame, phonebooks_walk hw']
      exact Multiset.mem_coe.mpr (List.mem_map.mpr ⟨e, he, rfl⟩)
    rw [phonebooks_walk hw] at hmem
    obtain ⟨x, hx, heq⟩ := List.mem_map.mp (Multiset.mem_coe.mp hmem)
    rw [← (Prod.mk.inj heq).2]
    exact hread x hx
  · rw [withoutId_documents, withoutId_documents]
    refine List.Perm.map anonymous (Multiset.coe_eq_coe.mp ?_)
    rw [← phonebooks_walk hw', ← phonebooks_walk hw, hsame]

/-- The document of a provider with one dummy phonebook. -/
def oneDocument : Json :=
  configDocument [phonebookDocument (DummyPhonebook.env .sample uuidUnparse) .clear "dummy"
    (.object [])]

/-- A library that reads that document, too. -/
def documentLib : JsonLib where
  parse s :=
    if s = JsonLib.sample.dump oneDocument then .value oneDocument else JsonLib.sample.parse s
  dump := JsonLib.sample.dump

theorem documentLib_rereads_empty : documentLib.Rereads (.object []) := by
  unfold JsonLib.Rereads documentLib
  dsimp only
  rw [if_neg (by decide)]
  rfl

theorem keepsConfig_dummy (lib : JsonLib) (unparse : UUID → String) :
    KeepsConfig (DummyPhonebook.env lib unparse) [("dummy", DummyPhonebook.type)]
      DummyPhonebook.mConfig := by
  refine ⟨fun d => rfl, fun t ht v d hd => ?_, fun t ht v d hd => ?_, fun d => rfl,
    fun d x y => rfl, fun d => rfl⟩
  · obtain rfl := List.mem_singleton.mp ht
    cases hd
    rfl
  · obtain rfl := List.mem_singleton.mp ht
    cases hd
    rfl

/-- A provider that was asked for a dummy phonebook is restarted. -/
theorem restart_oneDummy :
    phonebooks DummyPhonebook.mConfig
      (construct (linked (DummyPhonebook.env documentLib uuidUnparse)
      [("dummy", DummyPhonebook.type)]) (fun _ => ⟨fun _ => 1⟩)
        (documentLib.dump oneDocument)).provider.mBackends =
        {("dummy", .object [])} := by
  have haccepts : CreateAccepts [("dummy", DummyPhonebook.type)] := by
    rintro t ht v -
    obtain rfl := List.mem_singleton.mp ht
    exact ⟨⟨v⟩, rfl⟩
  have hfresh : Set.InjOn (fun _ : ℕ => (⟨fun _ => 1⟩ : UUID)) (Set.Iio 1) := fun a ha b hb _ => by
    simp only [Set.mem_Iio] at ha hb
    omega
  have hregistered : ∀ id b,
    ((∅ : Registry DummyPhonebook).insert .clear ⟨"dummy", ⟨.object []⟩⟩).lookup id = some b →
      documentLib.Rereads b.derived.mConfig :=
    forall_lookup_insert (fun id b hl => by simp at hl) documentLib_rereads_empty
  have hrestart :=
    restart (DummyPhonebook.env documentLib uuidUnparse) _ _
      (keepsConfig_dummy documentLib uuidUnparse)
    haccepts (fun _ => .clear) "\x7b\x7d" [.createPhonebook "" "dummy" "\x7b\x7d" .clear]
    hregistered [⟨.clear, ⟨"dummy", ⟨.object []⟩⟩⟩] rfl
  have hread : documentLib.Rereads oneDocument := by simp [JsonLib.Rereads, documentLib]
  exact (hrestart.2 hread _ hfresh).2.1

end Phonebook.Server.Restart
