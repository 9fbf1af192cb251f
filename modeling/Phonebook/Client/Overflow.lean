import Phonebook.Client.Waiting

/-! # Sums out of range

The two operands of `computeSum` come from the client and are added as they are by `DummyPhonebook`,
in `int32_t`. The language leaves a sum out of range undefined, so what comes of it is up to the
machine. Whatever that is, it is neither the sum nor a failure: a call is exact or reported to have
failed exactly when the sum is in range (`exactOrFailed_iff`). -/

namespace Phonebook.Client.Overflow

open Phonebook.Data.Values Phonebook.Data.JsonTree Phonebook.Server.Backends
open Phonebook.Server.Provider Phonebook.Server.Handlers Phonebook.Client.Handle
open Phonebook.Client.AsyncRequest Phonebook.Client.Steps Phonebook.Client.Waiting

/-! ### The addition -/

/-- The sum is an `int32_t`. -/
def Fits (x y : Int32) : Prop := -2 ^ 31 ≤ x.toInt + y.toInt ∧ x.toInt + y.toInt < 2 ^ 31

instance (x y : Int32) : Decidable (Fits x y) := by
  unfold Fits; infer_instance

theorem toInt_add_iff (x y : Int32) : (x + y).toInt = x.toInt + y.toInt ↔ Fits x y := by
  constructor
  · intro h
    have hlower : -2 ^ 31 ≤ (x + y).toInt := Int32.le_toInt _
    have hupper : (x + y).toInt < 2 ^ 31 := Int32.toInt_lt _
    unfold Fits
    omega
  · rintro ⟨hlower, hupper⟩
    rw [Int32.toInt_add]
    exact Int.bmod_eq_of_le (by omega) (by omega)

/-- `x + y` for two `int32_t`. A sum out of range is undefined; `beyond` is what a machine makes of
it. -/
def plus (beyond : Int32 → Int32 → Cpp Int32) (x y : Int32) : Cpp Int32 :=
  if Fits x y then .returns (x + y) else beyond x y

/-- `DummyPhonebook::computeSum` on such a machine. -/
def computeSumOn (beyond : Int32 → Int32 → Cpp Int32) (d : DummyPhonebook) (x y : Int32) :
    Cpp (RequestResult Int32) × DummyPhonebook :=
  let result : RequestResult Int32 := .init
  match plus beyond x y with
  | .returns sum => (.returns { result with value := some sum }, d)
  | .throws e => (.throws e, d)
  | .undefined => (.undefined, d)

/-- A provider of dummy phonebooks on such a machine. -/
def machine (beyond : Int32 → Int32 → Cpp Int32) (lib : JsonLib) (uuidUnparse : UUID → String) :
    Env DummyPhonebook :=
  { DummyPhonebook.env lib uuidUnparse with
    ops := { DummyPhonebook.ops lib with computeSum := computeSumOn beyond } }

/-- What the handler comes to for a registered phonebook: it is up to the addition. -/
theorem computeSumRPC_machine (beyond : Int32 → Int32 → Cpp Int32) (lib : JsonLib)
    (uuidUnparse : UUID → String) {p : ProviderImpl DummyPhonebook} {id : UUID}
    {b : Backend DummyPhonebook} (hb : p.mBackends.lookup id = some b) (x y : Int32) :
    computeSumRPC (machine beyond lib uuidUnparse) p id x y =
      match plus beyond x y with
      | .returns sum => respond p (.int32 ⟨true, "", some sum⟩)
      | .throws e => escape p (.throws e)
      | .undefined => escape p .undefined := by
  have hkept : p.mBackends.insert id { b with derived := b.derived } = p.mBackends :=
    insert_of_lookup hb rfl
  have hcall : (machine beyond lib uuidUnparse).ops.computeSum b.derived x y =
    computeSumOn beyond b.derived x y := rfl
  rcases hplus : plus beyond x y with sum | e | _ <;> simp only [computeSumOn, hplus] at hcall
  · rw [computeSumRPC_returned _ hb hcall, hkept]
    rfl
  · rw [computeSumRPC_threw hb hcall, hkept]
  · rw [computeSumRPC_undefined hb hcall]

/-! ### The call -/

/-- The value is the sum. -/
def IsSum (x y : Int32) (value : Option Int32) : Prop :=
  ∃ z, value = some z ∧ z.toInt = x.toInt + y.toInt

section Calls
variable {V P : Type} [Fintype V] [DecidableEq V] [DecidableEq P]

/-- `computeSum` into the variable and then `wait` on it. -/
def callAndWait (s : Program V P) (v : V) (response : RequestResult Int32) (result : Option P) :
    Program V P × Cpp Unit :=
  match s.computeSum v response result with
  | (s, .returns ()) => s.wait (.variable v)
  | (s, exit) => (s, exit)

theorem callAndWait_delivers {s : Program V P} {v : V} (hr : AtRest s)
    (hv : s.self (.variable v) = none) (response : RequestResult Int32) (result : Option P)
    (m : Memory P) :
    ((callAndWait s v response result).2, memory m (callAndWait s v response result).1.log) =
      deliver response result (memory m s.log) := by
  have hopen : Open (s.computeSum v response result).1 v response result :=
    open_computeSum hr hv response result
  have hlog : (s.computeSum v response result).1.log = s.log := by rw [computeSum_empty hr hv]
  have hreturns : (s.computeSum v response result).2 = .returns () := by rw [computeSum_empty hr hv]
  have hwait :
    callAndWait s v response result = (s.computeSum v response result).1.wait (.variable v) := by
    unfold callAndWait
    rcases hc : s.computeSum v response result with ⟨s', exit⟩
    rw [hc] at hreturns
    dsimp only at hreturns
    rw [hreturns]
  rw [hwait, wait_of_open hopen, hlog]

/-- For the two operands and a registered phonebook: what the synchronous call returns with, and
what the asynchronous one, into an empty request, has written after its wait, is the sum; the
provider meets nothing undefined; and a sum out of range is reported as a failure. -/
structure ExactOrFailed (env : Env DummyPhonebook) (p : ProviderImpl DummyPhonebook) (id : UUID)
    (x y : Int32)
    (s : Program V P) (v : V) (q : P) : Prop where
  sync : ∀ value, computeSum env p ⟨some ⟨id⟩⟩ x y = .returned value → IsSum x y value
  async : ∀ response, (computeSumRPC env p id x y).responses = [.int32 response] →
    ∀ s', callAndWait s v response (some q) = (s', .returns ()) → ∀ m, IsSum x y (memory m s'.log q)
  defined : (computeSumRPC env p id x y).exit ≠ .undefined
  reported : ¬ Fits x y → ∃ response, (computeSumRPC env p id x y).responses = [.int32 response] ∧
    response.success = false

/-- **Exact sums.** Whatever machine the provider runs on, for all operands, every registered dummy
phonebook and every empty request, a call is exact or reported to have failed if and only if the sum
is an `int32_t`. -/
theorem exactOrFailed_iff (beyond : Int32 → Int32 → Cpp Int32) (lib : JsonLib)
    (uuidUnparse : UUID → String) (p : ProviderImpl DummyPhonebook) (id : UUID)
    (b : Backend DummyPhonebook) (hb : p.mBackends.lookup id = some b) (s : Program V P)
    (hr : AtRest s) (v : V) (hv : s.self (.variable v) = none) (q : P) (x y : Int32) :
    ExactOrFailed (machine beyond lib uuidUnparse) p id x y s v q ↔ Fits x y := by
  constructor
  · intro h
    by_contra hover
    obtain ⟨response, hresponse, hfailure⟩ := h.reported hover
    rw [computeSumRPC_machine beyond lib uuidUnparse hb] at hresponse
    rcases hplus : plus beyond x y with sum | e | _ <;> rw [hplus] at hresponse <;> cases hresponse
    -- the one response there can be is a success
    cases hfailure
  · intro hfits
    have hsum : IsSum x y (some (x + y)) := ⟨x + y, rfl, (toInt_add_iff x y).mpr hfits⟩
    have hplus : plus beyond x y = .returns (x + y) := if_pos hfits
    have hrun : computeSumRPC (machine beyond lib uuidUnparse) p id x y =
        respond p (.int32 ⟨true, "", some (x + y)⟩) := by
      rw [computeSumRPC_machine beyond lib uuidUnparse hb, hplus]
    refine ⟨fun value hvalue => ?_, fun response hresponse s' hs' m => ?_, ?_,
      fun hover => absurd hfits hover⟩
    · simp only [computeSum, hrun, respond] at hvalue
      cases hvalue
      exact hsum
    · rw [hrun] at hresponse
      cases hresponse
      have hdelivered := callAndWait_delivers hr hv ⟨true, "", some (x + y)⟩ (some q) m
      rw [hs'] at hdelivered
      have hmemory : memory m s'.log = Function.update (memory m s.log) q (some (x + y)) :=
        congrArg Prod.snd hdelivered
      rw [hmemory, Function.update_self]
      exact hsum
    · rw [hrun]
      rintro ⟨⟩

/-- The sums of the test, on a machine that does anything. -/
theorem exactOrFailed_iff_inRange :
    ExactOrFailed (machine (fun _ _ => .undefined) .sample uuidUnparse) oneDummy .clear 42 51
      (Program.start : Program Unit Unit) () () :=
  (exactOrFailed_iff (fun _ _ => .undefined) .sample uuidUnparse oneDummy .clear _ lookup_oneDummy
    .start atRest_start
    () rfl () 42 51).mpr (by decide)

/-- Where sums wrap around, the largest operand and one more give the smallest. -/
theorem not_exactOrFailed_largest :
    ¬ ExactOrFailed (DummyPhonebook.env .sample uuidUnparse) oneDummy .clear 2147483647 1
      (Program.start : Program Unit Unit) () () := by
  intro h
  have hcall :
    computeSum (DummyPhonebook.env .sample uuidUnparse) oneDummy ⟨some ⟨.clear⟩⟩ 2147483647 1 =
      .returned (some (-2147483648)) := by
    unfold computeSum
    dsimp only
    rw [computeSumRPC_returned _ lookup_oneDummy rfl]
    rfl
  obtain ⟨z, hz, hsum⟩ := h.sync _ hcall
  cases hz
  exact absurd hsum (by decide)

end Calls

end Phonebook.Client.Overflow
