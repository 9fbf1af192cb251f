import Phonebook.Data.JsonTree

/-! # Backends, their factory and the dummy backend

A backend object is the base class `Backend` with the name the registration gave it, around the
object of the derived class. Its virtual functions may throw and may change the object. A backend
class also has the static functions `create` and `open`, which the registration wraps: the wrapper
writes the name into the object it got, without looking whether it got one. -/

namespace Phonebook.Server.Backends

open Phonebook.Data.Values Phonebook.Data.JsonTree

/-- `yp::Backend`: the name, and the part of the derived class. -/
structure Backend (α : Type) where
  mName : String
  derived : α

/-- The pure virtual functions of `yp::Backend`: how each call ends and the object it leaves. -/
structure BackendOps (α : Type) where
  getConfig : α → Cpp String
  sayHello : α → Cpp Unit × α
  computeSum : α → Int32 → Int32 → Cpp (RequestResult Int32) × α
  destroy : α → Cpp RequestResultBool × α

/-- The static functions of a backend class, each returning a `unique_ptr`. -/
structure BackendType (α : Type) where
  create : Json → Cpp (Option α)
  open' : Json → Cpp (Option α)

/-- A static function gave an object or threw an exception. -/
def ObjectOrException {α : Type} (x : Cpp (Option α)) : Prop :=
  (∃ d, x = .returns (some d)) ∨ ∃ e, x = .throws e

namespace BackendOps

variable {α : Type} (ops : BackendOps α)

/-- The functions the handlers call return normally. -/
structure Normal : Prop where
  sayHello : ∀ a, (ops.sayHello a).1.Normal
  computeSum : ∀ a x y, (ops.computeSum a x y).1.Normal
  destroy : ∀ a, (ops.destroy a).1.Normal

/-- The functions the handlers call leave the object as it was. -/
structure Stateless : Prop where
  sayHello : ∀ a, (ops.sayHello a).2 = a
  computeSum : ∀ a x y, (ops.computeSum a x y).2 = a
  destroy : ∀ a, (ops.destroy a).2 = a

/-- `destroy` always reports success. -/
def DestroySucceeds : Prop := ∀ a, ∃ r, (ops.destroy a).1 = .returns r ∧ r.success = true

end BackendOps

/-! ### The factory -/

/-- `PhonebookFactory`: its two maps from backend names to functions. -/
structure PhonebookFactory (α : Type) where
  createFn : String → Option (Json → Cpp (Option (Backend α)))
  openFn : String → Option (Json → Cpp (Option (Backend α)))

namespace PhonebookFactory

variable {α : Type}

/-- The factory before any registration. -/
def empty : PhonebookFactory α := ⟨fun _ => none, fun _ => none⟩

/-- `PhonebookFactory::createPhonebook`. -/
def createPhonebook (f : PhonebookFactory α) (backendName : String) (config : Json) :
    Cpp (Option (Backend α)) :=
  match f.createFn backendName with
  | none => .returns none
  | some g => g config

/-- `PhonebookFactory::openPhonebook`. -/
def openPhonebook (f : PhonebookFactory α) (backendName : String) (config : Json) :
    Cpp (Option (Backend α)) :=
  match f.openFn backendName with
  | none => .returns none
  | some g => g config

/-- No registered function dereferences a null pointer on the value. -/
def SafeOn (f : PhonebookFactory α) (config : Json) : Prop :=
  ∀ name, f.createPhonebook name config ≠ .undefined ∧ f.openPhonebook name config ≠ .undefined

end PhonebookFactory

/-- The function a registration puts around a static one: `p->m_name` is written whether or not `p`
is null. -/
def named {α : Type} (backendName : String) (make : Json → Cpp (Option α)) (config : Json) :
    Cpp (Option (Backend α)) :=
  match make config with
  | .returns (some p) => .returns (some ⟨backendName, p⟩)
  | .returns none => .undefined
  | .throws e => .throws e
  | .undefined => .undefined

/-- `__YpBackendRegistration`. -/
def ypBackendRegistration {α : Type} (T : BackendType α) (backendName : String)
    (f : PhonebookFactory α) : PhonebookFactory α where
  createFn := Function.update f.createFn backendName (some (named backendName T.create))
  openFn := Function.update f.openFn backendName (some (named backendName T.open'))

/-! ### What a provider is linked with -/

/-- The libraries and backends of a provider: the JSON library, libuuid's `uuid_unparse` behind
`UUID::to_string`, the virtual functions and the factory. -/
structure Env (α : Type) where
  json : JsonLib
  uuidUnparse : UUID → String
  ops : BackendOps α
  factory : PhonebookFactory α

/-! ### The dummy backend -/

/-- `DummyPhonebook`: the configuration it was given. -/
structure DummyPhonebook where
  mConfig : Json

namespace DummyPhonebook

/-- `DummyPhonebook::getConfig`. -/
def getConfig (lib : JsonLib) (d : DummyPhonebook) : Cpp String := .returns (lib.dump d.mConfig)

/-- `DummyPhonebook::sayHello`, whose only effect is on the terminal. -/
def sayHello (d : DummyPhonebook) : Cpp Unit × DummyPhonebook := (.returns (), d)

/-- `DummyPhonebook::computeSum`. The sum of two `int32_t` wraps here; the language leaves a sum
out of range undefined. -/
def computeSum (d : DummyPhonebook) (x y : Int32) : Cpp (RequestResult Int32) × DummyPhonebook :=
  (.returns { (RequestResult.init : RequestResult Int32) with value := some (x + y) }, d)

/-- `DummyPhonebook::destroy`, which sets `success` through its alias `value`. -/
def destroy (d : DummyPhonebook) : Cpp RequestResultBool × DummyPhonebook :=
  (.returns { RequestResultBool.init with success := true }, d)

/-- `DummyPhonebook::create`. -/
def create (config : Json) : Cpp (Option DummyPhonebook) := .returns (some ⟨config⟩)

/-- `DummyPhonebook::open`. -/
def open' (config : Json) : Cpp (Option DummyPhonebook) := .returns (some ⟨config⟩)

/-- The virtual functions of the dummy backend. -/
def ops (lib : JsonLib) : BackendOps DummyPhonebook where
  getConfig := getConfig lib
  sayHello := sayHello
  computeSum := computeSum
  destroy := destroy

/-- The static functions of the dummy backend. -/
def type : BackendType DummyPhonebook := ⟨create, open'⟩

/-- The factory in which only the dummy backend is registered. -/
def factory : PhonebookFactory DummyPhonebook := ypBackendRegistration type "dummy" .empty

/-- A provider linked with the dummy backend alone. -/
def env (lib : JsonLib) (uuidUnparse : UUID → String) : Env DummyPhonebook :=
  ⟨lib, uuidUnparse, ops lib, factory⟩

theorem ops_normal (lib : JsonLib) : (ops lib).Normal :=
  ⟨fun _ => ⟨_, rfl⟩, fun _ _ _ => ⟨_, rfl⟩, fun _ => ⟨_, rfl⟩⟩

theorem ops_stateless (lib : JsonLib) : (ops lib).Stateless :=
  ⟨fun _ => rfl, fun _ _ _ => rfl, fun _ => rfl⟩

theorem ops_destroySucceeds (lib : JsonLib) : (ops lib).DestroySucceeds :=
  fun _ => ⟨_, rfl, rfl⟩

theorem factory_createPhonebook (name : String) (config : Json) :
    factory.createPhonebook name config =
      .returns (if name = "dummy" then some ⟨"dummy", ⟨config⟩⟩ else none) := by
  unfold PhonebookFactory.createPhonebook factory ypBackendRegistration
  by_cases h : name = "dummy"
  · subst h; simp [named, type, create]
  · simp [h, PhonebookFactory.empty]

theorem factory_openPhonebook (name : String) (config : Json) :
    factory.openPhonebook name config =
      .returns (if name = "dummy" then some ⟨"dummy", ⟨config⟩⟩ else none) := by
  unfold PhonebookFactory.openPhonebook factory ypBackendRegistration
  by_cases h : name = "dummy"
  · subst h; simp [named, type, open']
  · simp [h, PhonebookFactory.empty]

theorem factory_safeOn (config : Json) : factory.SafeOn config := by
  intro name
  rw [factory_createPhonebook, factory_openPhonebook]
  exact ⟨nofun, nofun⟩

end DummyPhonebook

/-! ### Backends without a state -/

/-- A provider linked with backends without a state, whose `destroy` ends like this. -/
def unitEnv (destroy : Cpp RequestResultBool) (factory : PhonebookFactory Unit) : Env Unit where
  json := .sample
  uuidUnparse := uuidUnparse
  ops :=
    { getConfig := fun _ => .returns "\x7b\x7d"
      sayHello := fun _ => (.returns (), ())
      computeSum := fun _ x y => (.returns ⟨true, "", some (x + y)⟩, ())
      destroy := fun _ => (destroy, ()) }
  factory := factory

/-- A backend class whose static functions return null pointers. -/
def nullType : BackendType Unit := ⟨fun _ => .returns none, fun _ => .returns none⟩

end Phonebook.Server.Backends
