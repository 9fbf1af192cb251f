import Mathlib.Algebra.GroupWithZero.Nat
import Mathlib.Data.Fintype.Pi
import Mathlib.Data.List.FinRange
import Mathlib.Tactic.Common

/-! # Values on the wire and ends of calls

The plain data of the service: the exceptions a call may raise, the ways a C++ call may end, the
16-byte `UUID`, and the three layouts of `RequestResult`. A member the source leaves without an
initialiser is `none` here until something is assigned to it. -/

namespace Phonebook.Data.Values

/-! ### How a call ends -/

/-- The exceptions in play, all of them below `std::exception`. -/
inductive Exn where
  | parseError (what : String)
  | outOfRange (what : String)
  | stdException (what : String)
deriving DecidableEq

/-- `std::exception::what`. -/
def Exn.what : Exn → String
  | parseError w => w
  | outOfRange w => w
  | stdException w => w

/-- How the evaluation of a C++ expression ends; `undefined` is the dereference of a null pointer,
after which the language promises nothing. -/
inductive Cpp (α : Type) where
  | returns (a : α)
  | throws (e : Exn)
  | undefined
deriving DecidableEq

/-- The evaluation returned normally. -/
def Cpp.Normal {α : Type} (x : Cpp α) : Prop := ∃ a, x = .returns a

@[simp] theorem Cpp.normal_returns {α : Type} (a : α) : (Cpp.returns a).Normal := ⟨a, rfl⟩

@[simp] theorem Cpp.not_normal_throws {α : Type} (e : Exn) : ¬ (Cpp.throws e : Cpp α).Normal := by
  rintro ⟨a, h⟩; cases h

@[simp] theorem Cpp.not_normal_undefined {α : Type} : ¬ (Cpp.undefined : Cpp α).Normal := by
  rintro ⟨a, h⟩; cases h

/-! ### `UUID` -/

/-- `yp::UUID`: the bytes of a `uuid_t`, compared by `memcmp` over all of them. -/
structure UUID where
  mData : Fin 16 → UInt8
deriving DecidableEq

/-- `UUID::UUID`, which clears the bytes. -/
def UUID.clear : UUID := ⟨fun _ => 0⟩

/-- Two hexadecimal digits. -/
def hexByte (b : UInt8) : List Char := [Nat.digitChar (b.toNat / 16), Nat.digitChar (b.toNat % 16)]

/-- libuuid's `uuid_unparse`: the bytes in hexadecimal, in groups of 4, 2, 2, 2 and 6. -/
def uuidUnparse (u : UUID) : String :=
  String.ofList ((List.finRange 16).flatMap fun i =>
    if i ∈ [4, 6, 8, 10] then '-' :: hexByte (u.mData i) else hexByte (u.mData i))

example : uuidUnparse .clear = "00000000-0000-0000-0000-000000000000" := by decide

theorem hexByte_injective : Function.Injective hexByte := by
  have hdigit : ∀ m < 16, ∀ n < 16, Nat.digitChar m = Nat.digitChar n → m = n := by decide
  intro a b h
  have ha : a.toNat < 256 := a.toNat_lt
  have hb : b.toNat < 256 := b.toNat_lt
  obtain ⟨hq, hr⟩ : Nat.digitChar (a.toNat / 16) = Nat.digitChar (b.toNat / 16) ∧
      Nat.digitChar (a.toNat % 16) = Nat.digitChar (b.toNat % 16) := by simpa [hexByte] using h
  have hquot : a.toNat / 16 = b.toNat / 16 := hdigit _ (by omega) _ (by omega) hq
  have hrem : a.toNat % 16 = b.toNat % 16 := hdigit _ (by omega) _ (by omega) hr
  exact UInt8.toNat_inj.mp (by omega)

theorem eq_of_flatMap_eq {ι β : Type*} {l : List ι} {f g : ι → List β}
    (hlen : ∀ i, (f i).length = (g i).length) (h : l.flatMap f = l.flatMap g) :
    ∀ i ∈ l, f i = g i := by
  induction l with
  | nil => simp
  | cons j l ih =>
    rw [List.flatMap_cons, List.flatMap_cons] at h
    obtain ⟨hj, hl⟩ := List.append_inj h (hlen j)
    exact List.forall_mem_cons.mpr ⟨hj, ih hl⟩

theorem uuidUnparse_injective : Function.Injective uuidUnparse := by
  rintro ⟨u⟩ ⟨v⟩ h
  have hbytes := eq_of_flatMap_eq (fun i => by split_ifs <;> rfl) (String.ofList_injective h)
  congr
  funext i
  have hi := hbytes i (List.mem_finRange i)
  refine hexByte_injective ?_
  split_ifs at hi
  · exact (List.cons.inj hi).2
  · exact hi

/-! ### `RequestResult` -/

/-- What default-initialisation leaves in an object of the type; `none` where the storage keeps
whatever it held before. -/
class DefaultInit (α : Type) where
  init : Option α

instance : DefaultInit UUID := ⟨some .clear⟩

instance : DefaultInit Int32 := ⟨none⟩

/-- The primary template `RequestResult<T>`. -/
structure RequestResult (α : Type) where
  success : Bool
  error : String
  value : Option α
deriving DecidableEq

/-- `RequestResult<T>::RequestResult()`. -/
def RequestResult.init {α : Type} [DefaultInit α] : RequestResult α := ⟨true, "", DefaultInit.init⟩

/-- The specialization `RequestResult<bool>`, whose value is its `success` flag. -/
structure RequestResultBool where
  success : Bool
  error : String
deriving DecidableEq

/-- `RequestResult<bool>::RequestResult()`. -/
def RequestResultBool.init : RequestResultBool := ⟨true, ""⟩

/-- `RequestResult<bool>::value`. -/
def RequestResultBool.value (r : RequestResultBool) : Bool := r.success

/-- The specialization `RequestResult<std::string>`, whose value and error are one string. -/
structure RequestResultString where
  success : Bool
  content : String
deriving DecidableEq

/-- `RequestResult<std::string>::RequestResult()`. -/
def RequestResultString.init : RequestResultString := ⟨true, ""⟩

/-- `RequestResult<std::string>::error`. -/
def RequestResultString.error (r : RequestResultString) : String := r.content

/-- `RequestResult<std::string>::value`. -/
def RequestResultString.value (r : RequestResultString) : String := r.content

/-- What a handler passes to `req.respond`. -/
inductive Response where
  | uuid (r : RequestResult UUID)
  | bool (r : RequestResultBool)
  | int32 (r : RequestResult Int32)
deriving DecidableEq

/-- `success()` of the result sent. -/
def Response.success : Response → Bool
  | uuid r => r.success
  | bool r => r.success
  | int32 r => r.success

/-- `error()` of the result sent. -/
def Response.error : Response → String
  | uuid r => r.error
  | bool r => r.error
  | int32 r => r.error

@[simp] theorem RequestResult.init_success {α : Type} [DefaultInit α] :
    (RequestResult.init : RequestResult α).success = true := rfl

@[simp] theorem RequestResultBool.init_success : RequestResultBool.init.success = true := rfl

@[simp] theorem Response.success_uuid (r : RequestResult UUID) : (uuid r).success = r.success := rfl

@[simp] theorem Response.success_bool (r : RequestResultBool) : (bool r).success = r.success := rfl

@[simp] theorem Response.success_int32 (r : RequestResult Int32) : (int32 r).success = r.success :=
  rfl

end Phonebook.Data.Values
