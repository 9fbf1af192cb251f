import Phonebook.Lib.Codecs
import Phonebook.Data.Values

/-! # Values in an archive

What `UUID` and the layouts of `RequestResult` write to a thallium archive and read from it. A
member that was never assigned is written like any other, as the bytes its storage happens to
hold. -/

namespace Phonebook.Data.Archives

open Phonebook.Data.Values Phonebook.Lib.Codecs

/-- How an archive holds values of the basic types, and blocks of raw bytes. -/
structure Archive (σ : Type) where
  bool : Codec σ Bool
  int32 : Codec σ Int32
  string : Codec σ String
  raw : (n : ℕ) → Codec σ (Fin n → UInt8)

/-- What the storage of the value of a result held before the result was created there. -/
structure Storage where
  uuid : UUID
  int32 : Int32

namespace Archive

variable {σ : Type} (A : Archive σ)

/-- `UUID::save` and `UUID::load`. -/
def uuid : Codec σ UUID := (A.raw 16).through UUID.mk UUID.mData fun _ => rfl

/-- `RequestResult<T>::serialize`: the members in the order they are declared. -/
def requestResult {α : Type} (value : Codec σ α) : Codec σ (Bool × String × α) :=
  A.bool.pair (A.string.pair value)

/-- `RequestResult<bool>::serialize`, which has no value of its own. -/
def requestResultBool : Codec σ RequestResultBool :=
  (A.bool.pair A.string).through (fun m => ⟨m.1, m.2⟩) (fun r => (r.success, r.error)) fun _ => rfl

end Archive

/-- The members of a result as its storage holds them. -/
def members {α : Type} (stale : α) (r : RequestResult α) : Bool × String × α :=
  (r.success, r.error, r.value.getD stale)

namespace Archive

variable {σ : Type} (A : Archive σ)

/-- What `req.respond` writes. -/
def respond (stale : Storage) : Response → List σ
  | .uuid r => (A.requestResult A.uuid).put (members stale.uuid r)
  | .bool r => A.requestResultBool.put r
  | .int32 r => (A.requestResult A.int32).put (members stale.int32 r)

/-- An archive of values as they are. -/
inductive Item where
  | bool (b : Bool)
  | int32 (i : Int32)
  | string (s : String)
  | byte (b : UInt8)
deriving DecidableEq

/-- A block of bytes, one item each. -/
def items : (n : ℕ) → Codec Item (Fin n → UInt8)
  | 0 => ⟨fun _ => [], fun l => some (nofun, l), fun _ _ => by congr 2; exact funext nofun⟩
  | n + 1 =>
    ((⟨fun b => [.byte b], fun | .byte b :: l => some (b, l) | _ => none, fun _ _ => rfl⟩ :
      Codec Item UInt8).pair (items n)).through (fun x => Fin.cons x.1 x.2)
        (fun f => (f 0, Fin.tail f)) fun f =>
        Fin.cons_self_tail f

/-- The archive whose symbols are the values. -/
def plain : Archive Item where
  bool := ⟨fun b => [.bool b], fun | .bool b :: l => some (b, l) | _ => none, fun _ _ => rfl⟩
  int32 := ⟨fun i => [.int32 i], fun | .int32 i :: l => some (i, l) | _ => none, fun _ _ => rfl⟩
  string := ⟨fun s => [.string s], fun | .string s :: l => some (s, l) | _ => none, fun _ _ => rfl⟩
  raw := items

end Archive

end Phonebook.Data.Archives
