import Mathlib.Tactic.Common

/-! # Self-delimiting codecs

A codec puts a value at the front of a stream and gets it back from the front of any stream that
starts with what it put, with the rest of the stream left over. So pieces put one after the other
are got in the same order, and two streams put together from pieces are equal only if the pieces
are. -/

namespace Phonebook.Lib.Codecs

/-- A way to write values of a type to streams of symbols and to read them. -/
structure Codec (σ α : Type*) where
  put : α → List σ
  get : List σ → Option (α × List σ)
  get_put : ∀ a rest, get (put a ++ rest) = some (a, rest)

namespace Codec

variable {σ α β : Type*} (c : Codec σ α) (d : Codec σ β)

/-- The value at the front of a stream. -/
def read (l : List σ) : Option α := (c.get l).map Prod.fst

@[simp] theorem read_put (a : α) : c.read (c.put a) = some a := by
  have h := c.get_put a []
  rw [List.append_nil] at h
  rw [read, h]
  rfl

theorem put_append_inj {a b : α} {s t : List σ} (h : c.put a ++ s = c.put b ++ t) :
    a = b ∧ s = t := by
  have hget : c.get (c.put a ++ s) = c.get (c.put b ++ t) := congrArg c.get h
  rw [c.get_put, c.get_put] at hget
  exact Prod.mk.inj (Option.some.inj hget)

theorem put_injective : Function.Injective c.put := fun a b h =>
  (c.put_append_inj (s := []) (t := []) (by rw [h])).1

/-- One value after the other. -/
def pair : Codec σ (α × β) where
  put x := c.put x.1 ++ d.put x.2
  get l := (c.get l).bind fun x => (d.get x.2).map fun y => ((x.1, y.1), y.2)
  get_put x rest := by rw [List.append_assoc, c.get_put, Option.bind_some, d.get_put]; rfl

/-- Values that are written as values of another type. -/
def through (f : α → β) (g : β → α) (h : ∀ b, f (g b) = b) : Codec σ β where
  put b := c.put (g b)
  get l := (c.get l).map fun x => (f x.1, x.2)
  get_put b rest := by rw [c.get_put, Option.map_some, h]

end Codec

end Phonebook.Lib.Codecs
