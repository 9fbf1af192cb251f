import Phonebook.Data.Values

/-! # JSON values and the JSON library

The tree type of the JSON library as far as the provider looks into it, and the library's two
functions, parsing and dumping, which are not part of the repository and stay parameters. Parsing
has three ends: a value, a syntax error, and the error for a number literal out of range; the two
errors are siblings, so a handler for the first does not catch the second. The library compares its
signed and its unsigned integers by their value, so they are one kind of value here. -/

namespace Phonebook.Data.JsonTree

open Phonebook.Data.Values

/-- A JSON value. An object lists its members, one for each key. -/
inductive Json where
  | null
  | boolean (b : Bool)
  | integer (n : ℤ)
  | float (bits : UInt64)
  | string (s : String)
  | array (elems : List Json)
  | object (members : List (String × Json))

namespace Json

/-- The member of an object under a key; `none` where `contains` is false. -/
def member? (key : String) : Json → Option Json
  | object ms => ms.lookup key
  | _ => none

/-- The string member of an object under a key: `contains(key)` and `is_string` of the member. -/
def stringMember? (key : String) (v : Json) : Option String :=
  match v.member? key with
  | some (string s) => some s
  | _ => none

/-- The elements of the array member of an object under a key: the document `is_object`, `contains`
the key and the member `is_array`. -/
def arrayMember? (key : String) (v : Json) : Option (List Json) :=
  match v.member? key with
  | some (array elems) => some elems
  | _ => none

@[simp] theorem member?_object (key : String) (ms : List (String × Json)) :
    (object ms).member? key = ms.lookup key := rfl

end Json

/-- The three ends of `json::parse`. -/
inductive ParseResult where
  | value (v : Json)
  | parseError (what : String)
  | outOfRange (what : String)

/-- The two library functions: `json::parse` and `json::dump`. -/
structure JsonLib where
  parse : String → ParseResult
  dump : Json → String

namespace JsonLib

variable (lib : JsonLib)

/-- The text is JSON. -/
def Parses (s : String) : Prop := ∃ v, lib.parse s = .value v

/-- The text has a number literal out of range. -/
def OutOfRange (s : String) : Prop := ∃ what, lib.parse s = .outOfRange what

/-- What the library writes holds no number literal out of range. -/
def DumpInRange : Prop := ∀ v, ¬ lib.OutOfRange (lib.dump v)

/-- The value is read back from its dump. -/
def Rereads (v : Json) : Prop := lib.parse (lib.dump v) = .value v

/-- A library that reads three texts: an empty object, a list of one dummy phonebook without a
configuration, and a number out of range. It writes the values of the first two, and the list of a
dummy phonebook with an id and an empty configuration. -/
def sample : JsonLib where
  parse s :=
    if s = "\x7b\x7d" then .value (.object [])
    else if s = "\x7b\"phonebooks\":[\x7b\"type\":\"dummy\"\x7d]\x7d" then
      .value (.object [("phonebooks", .array [.object [("type", .string "dummy")]])])
    else if s = "1e999" then .outOfRange "number overflow parsing '1e999'"
    else .parseError "syntax error"
  dump
    | .object [] => "\x7b\x7d"
    | .object [("phonebooks", .array [.object [("type", .string "dummy")]])] =>
      "\x7b\"phonebooks\":[\x7b\"type\":\"dummy\"\x7d]\x7d"
    | .object [("phonebooks", .array [.object
        [("__id__", .string id), ("config", .object []), ("type", .string "dummy")]])] =>
      "\x7b\"phonebooks\":[\x7b\"__id__\":\"" ++ id ++
        "\",\"config\":\x7b\x7d,\"type\":\"dummy\"\x7d]\x7d"
    | _ => "null"

theorem sample_dumpInRange : sample.DumpInRange := by
  rintro v ⟨what, h⟩
  have hs : sample.dump v = "1e999" := by
    generalize sample.dump v = s at h
    unfold sample at h
    dsimp only at h
    split_ifs at h with _ _ h3
    exact h3
  unfold sample at hs
  dsimp only at hs
  split at hs
  · exact absurd hs (by decide)
  · exact absurd hs (by decide)
  · -- the text written around the id is too long
    have hlen := congrArg String.length hs
    rw [String.length_append, String.length_append] at hlen
    exact absurd hlen (Nat.ne_of_gt (lt_of_lt_of_le (by decide) (Nat.le_add_left _ _)))
  · exact absurd hs (by decide)

end JsonLib

end Phonebook.Data.JsonTree
