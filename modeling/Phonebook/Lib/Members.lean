import Phonebook.Lib.Codecs

/-! # Objects written member by member

An object is saved by putting its members to a stream, in some order, and loaded into an object that
exists by getting them in the same order and assigning each. One list of members says both, so what
is loaded has the members of what was saved, and the stream goes on behind them (`load_save`); and
so for objects one after the other (`loadAll_saveAll`). -/

namespace Phonebook.Lib.Members

open Phonebook.Lib.Codecs

/-- A member of the objects of a type: how it is put to a stream, read off an object and
assigned. -/
structure Member (σ ο : Type) where
  Value : Type
  codec : Codec σ Value
  get : ο → Value
  set : Value → ο → ο

section Objects
variable {σ ο : Type}

/-- The members of the object, in their order. -/
def save (ms : List (Member σ ο)) (o : ο) : List σ := ms.flatMap fun m => m.codec.put (m.get o)

/-- The members at the front of a stream are assigned to the object. -/
def load : List (Member σ ο) → ο → List σ → Option (ο × List σ)
  | [], o, l => some (o, l)
  | m :: ms, o, l => (m.codec.get l).bind fun x => load ms (m.set x.1 o) x.2

/-- The members of one object are assigned to another. -/
def assign : List (Member σ ο) → ο → ο → ο
  | [], _, into => into
  | m :: ms, o, into => assign ms o (m.set (m.get o) into)

/-- **An object** comes back member by member, and nothing of the stream behind it is touched. -/
theorem load_save (ms : List (Member σ ο)) (o into : ο) (rest : List σ) :
    load ms into (save ms o ++ rest) = some (assign ms o into, rest) := by
  induction ms generalizing into with
  | nil => rfl
  | cons m ms ih =>
    have hcons : save (m :: ms) o = m.codec.put (m.get o) ++ save ms o := List.flatMap_cons
    have hget : m.codec.get (m.codec.put (m.get o) ++ (save ms o ++ rest)) =
      some (m.get o, save ms o ++ rest) :=
      m.codec.get_put _ _
    rw [hcons, List.append_assoc, load, hget]
    exact ih (m.set (m.get o) into)

end Objects

/-! ### Objects one after the other -/

section Sequences
variable {σ ο : Type} (put : ο → List σ) (get : ο → List σ → Option (ο × List σ))

/-- The objects in their order. -/
def saveAll (objects : List ο) : List σ := objects.flatMap put

/-- The objects are loaded one after the other. -/
def loadAll : List ο → List σ → Option (List ο × List σ)
  | [], l => some ([], l)
  | into :: intos, l =>
    (get into l).bind fun x => (loadAll intos x.2).map fun y => (x.1 :: y.1, y.2)

variable {put get}

/-- **Objects in a row**: if an object is read back by loading it into any object of its kind, so is
a list of objects into a list of the same kinds. -/
theorem loadAll_saveAll {κ : Type} {kind : ο → κ}
    (h : ∀ o into rest, kind into = kind o → get into (put o ++ rest) = some (o, rest))
    (objects intos : List ο) (hkind : intos.map kind = objects.map kind) (rest : List σ) :
    loadAll get intos (saveAll put objects ++ rest) = some (objects, rest) := by
  induction objects generalizing intos with
  | nil =>
    rw [List.map_nil, List.map_eq_nil_iff] at hkind
    subst hkind
    rfl
  | cons o objects ih =>
    obtain ⟨into, intos, rfl, hinto, hintos⟩ := List.map_eq_cons_iff.mp hkind
    have hcons : saveAll put (o :: objects) = put o ++ saveAll put objects := List.flatMap_cons
    rw [hcons, List.append_assoc, loadAll, h o into _ hinto, Option.bind_some, ih intos hintos]
    rfl

end Sequences

end Phonebook.Lib.Members
