import Stablecoin.Json.Records
import Stablecoin.Json.Requests
import Stablecoin.Proofs.Json.Text
import Stablecoin.Proofs.Principal.Text

/-!
# Forms that lose nothing

A form is lossless if every value whose numbers fit is read back from it. The laws of a record come
from those of its fields: each field is looked up under the name that it was written with, and no
other field has that name.
-/
namespace Stablecoin

open Json (Fits Tidy)

/-- Values are written tidily and nested at most so deep. -/
class TidyForm (depth : outParam Nat) (α : Type) [JsonForm α] : Prop where
  tidy (a : α) : (toJson a).Tidy depth

/-- Values are given back by their form. The form is never null, which stands for a missing one. -/
class LosslessForm (depth : outParam Nat) (α : Type) [JsonForm α] : Prop
    extends TidyForm depth α where
  ofJson?_toJson {a : α} (fits : (toJson a).Fits) : ofJson? (toJson a) = some a
  toJson_ne_null (a : α) : toJson a ≠ .null

attribute [simp] LosslessForm.ofJson?_toJson

theorem tidy_toJson {α : Type} [JsonForm α] {depth more : Nat} [TidyForm depth α]
    (le : depth ≤ more) (a : α) : (toJson a).Tidy more := (TidyForm.tidy a).mono le

/-! ### Values without fields -/

instance : LosslessForm 0 String where
  tidy := .string
  ofJson?_toJson _ := rfl
  toJson_ne_null _ := nofun

instance : LosslessForm 0 Bool where
  tidy := .bool
  ofJson?_toJson _ := rfl
  toJson_ne_null _ := nofun

instance : LosslessForm 0 Int where
  tidy := .integer
  ofJson?_toJson := Json.whole?_integer
  toJson_ne_null _ := nofun

instance : LosslessForm 0 Nat where
  tidy n := .integer n
  ofJson?_toJson {n} fits := by
    have whole : (Json.integer n).whole? = some (n : Int) := Json.whole?_integer fits
    change (Json.integer n).whole?.bind _ = _
    rw [whole, Option.bind_some, if_pos (Int.natCast_nonneg n), Int.toNat_natCast]
  toJson_ne_null _ := nofun

instance : LosslessForm 0 UInt64 where
  tidy n := .integer n.toNat
  ofJson?_toJson {n} fits := by
    have read : ofJson? (toJson n) = some n.toNat := LosslessForm.ofJson?_toJson (a := n.toNat) fits
    change (ofJson? (toJson n) : Option Nat).map UInt64.ofNat = _
    rw [read, Option.map_some, UInt64.ofNat_toNat]
  toJson_ne_null _ := nofun

instance {α : Type} {depth : Nat} [JsonForm α] [TidyForm depth α] : TidyForm depth (Option α) where
  tidy
    | some a => TidyForm.tidy a
    | none => .null

instance {α : Type} {depth : Nat} [JsonForm α] [LosslessForm depth α] :
    LosslessForm (depth + 1) (List α) where
  tidy items := by
    refine .array fun item member => ?_
    obtain ⟨a, -, rfl⟩ := List.mem_map.mp member
    exact TidyForm.tidy a
  ofJson?_toJson {items} fits := by
    have each : ∀ a ∈ items, ofJson? (toJson a) = some (id a) := fun a member =>
      LosslessForm.ofJson?_toJson (Json.fits_array.mp fits _ (List.mem_map_of_mem member))
    exact (mapM_map_of_forall each).trans (congrArg some (List.map_id items))
  toJson_ne_null _ := nofun

instance : LosslessForm 0 Decimal where
  tidy d := .string d.text
  ofJson?_toJson {d} _ := d.ofText?_text
  toJson_ne_null _ := nofun

instance : LosslessForm 0 Principal where
  tidy p := .string p.text
  ofJson?_toJson {p} _ := p.ofText?_text
  toJson_ne_null _ := nofun

/-! ### Records -/

section Fields

variable {α : Type} [JsonForm α] {fields : List (String × Json)} {name other : String}

@[simp] theorem field_cons_self (json : Json) :
    (field ((name, json) :: fields) name : Option α) = ofJson? json := by simp [field]

@[simp] theorem field_cons_of_ne (json : Json) (ne : name ≠ other) :
    (field ((other, json) :: fields) name : Option α) = field fields name := by
  rw [field, List.lookup_cons, beq_false_of_ne ne]
  rfl

@[simp] theorem optionalField_cons_of_ne (json : Json) (ne : name ≠ other) :
    (optionalField ((other, json) :: fields) name : Option (Option α))
      = optionalField fields name := by
  rw [optionalField, List.lookup_cons, beq_false_of_ne ne]
  rfl

@[simp] theorem optionalField_cons_self {depth : Nat} [LosslessForm depth α] {value : Option α}
    (fits : (toJson value).Fits) :
    optionalField ((name, toJson value) :: fields) name = some value := by
  have found : ((name, toJson value) :: fields).lookup name = some (toJson value) := by simp
  cases value with
  | none => rw [optionalField, found]; rfl
  | some a =>
    have present : ((name, toJson (some a)) :: fields).lookup name = some (toJson a) := found
    unfold optionalField
    split
    next missing =>
      rw [missing] at present
      cases present
    next null =>
      have null : toJson a = .null := Option.some.inj (present.symm.trans null)
      exact absurd null (LosslessForm.toJson_ne_null a)
    next json _ form =>
      have form : toJson a = json := Option.some.inj (present.symm.trans form)
      rw [← form, LosslessForm.ofJson?_toJson (a := a) fits]
      rfl

end Fields

/-- A record that is written with fields of different names and read field by field. -/
theorem LosslessForm.ofRecord {α : Type} [JsonForm α] {depth : Nat} {names : List String}
    {fields : α → List (String × Json)} {read : List (String × Json) → Option α}
    (form : ∀ a, toJson a = .object (fields a))
    (reader : ∀ json, ofJson? json = json.record? names >>= read)
    (distinct : ∀ a, ((fields a).map Prod.fst).Nodup := by simp)
    (tidy : ∀ a, ∀ field ∈ fields a, field.2.Tidy depth := by simp [tidy_toJson])
    (each : ∀ a, (∀ field ∈ fields a, field.2.Fits) → read (fields a) = some a := by
      simp +contextual) :
    LosslessForm (depth + 1) α where
  tidy a := form a ▸ .object (distinct a) (tidy a)
  ofJson?_toJson {a} fits := by
    rw [form] at fits
    rw [reader, form]
    exact each a (Json.fits_object.mp fits)
  toJson_ne_null a := by
    rw [form]
    nofun

instance : LosslessForm 1 Coin := .ofRecord (fun _ => rfl) (fun _ => rfl)
instance : LosslessForm 1 SignedCoin := .ofRecord (fun _ => rfl) (fun _ => rfl)

theorem SignedCoin.fits_toJson {c : SignedCoin} : (toJson c).Fits ↔
    -0x8000000000000000 ≤ c.amount ∧ c.amount < 0x10000000000000000 := by
  change (Json.object [("denom", .string c.denom), ("amount", .integer c.amount)]).Fits ↔ _
  simp [Fits.string, Json.fits_integer]

theorem Coin.fits_toJson {c : Coin} : (toJson c).Fits ↔ c.amount < 0x10000000000000000 := by
  have nonneg : -0x8000000000000000 ≤ (c.amount : Int) := by omega
  change (Json.object [("denom", .string c.denom), ("amount", .integer c.amount)]).Fits ↔ _
  simp [Fits.string, Json.fits_integer, nonneg]

instance : LosslessForm 1 Params := .ofRecord (fun _ => rfl) (fun _ => rfl)
instance : LosslessForm 1 BackingParams := .ofRecord (fun _ => rfl) (fun _ => rfl)
instance : LosslessForm 1 CollateralParams := .ofRecord (fun _ => rfl) (fun _ => rfl)
instance : LosslessForm 2 BackingPool := .ofRecord (fun _ => rfl) (fun _ => rfl)
instance : LosslessForm 2 BackingTotal := .ofRecord (fun _ => rfl) (fun _ => rfl)
instance : LosslessForm 2 CollateralPool := .ofRecord (fun _ => rfl) (fun _ => rfl)
instance : LosslessForm 2 CollateralTotal := .ofRecord (fun _ => rfl) (fun _ => rfl)
instance : LosslessForm 2 Position := .ofRecord (fun _ => rfl) (fun _ => rfl)
instance : LosslessForm 1 ModuleAccounts := .ofRecord (fun _ => rfl) (fun _ => rfl)
instance : LosslessForm 1 BackingRatioResponse := .ofRecord (fun _ => rfl) (fun _ => rfl)

instance : LosslessForm 2 MintRequest := .ofRecord (fun _ => rfl) (fun _ => rfl)
instance : LosslessForm 2 BurnRequest := .ofRecord (fun _ => rfl) (fun _ => rfl)
instance : LosslessForm 2 BuybackRequest := .ofRecord (fun _ => rfl) (fun _ => rfl)
instance : LosslessForm 2 RebackRequest := .ofRecord (fun _ => rfl) (fun _ => rfl)
instance : LosslessForm 2 BorrowRequest := .ofRecord (fun _ => rfl) (fun _ => rfl)
instance : LosslessForm 2 RepayRequest := .ofRecord (fun _ => rfl) (fun _ => rfl)
instance : LosslessForm 2 DepositRequest := .ofRecord (fun _ => rfl) (fun _ => rfl)
instance : LosslessForm 2 RedeemRequest := .ofRecord (fun _ => rfl) (fun _ => rfl)
instance : LosslessForm 2 LiquidateRequest := .ofRecord (fun _ => rfl) (fun _ => rfl)

instance : LosslessForm 2 MintCost := .ofRecord (fun _ => rfl) (fun _ => rfl)
instance : LosslessForm 2 MintQuote := .ofRecord (fun _ => rfl) (fun _ => rfl)
instance : LosslessForm 2 BurnCost := .ofRecord (fun _ => rfl) (fun _ => rfl)
instance : LosslessForm 2 BurnQuote := .ofRecord (fun _ => rfl) (fun _ => rfl)
instance : LosslessForm 2 BuybackCost := .ofRecord (fun _ => rfl) (fun _ => rfl)
instance : LosslessForm 2 BuybackQuote := .ofRecord (fun _ => rfl) (fun _ => rfl)
instance : LosslessForm 2 RebackCost := .ofRecord (fun _ => rfl) (fun _ => rfl)
instance : LosslessForm 2 RebackQuote := .ofRecord (fun _ => rfl) (fun _ => rfl)
instance : LosslessForm 2 Repayment := .ofRecord (fun _ => rfl) (fun _ => rfl)
instance : LosslessForm 2 Liquidation := .ofRecord (fun _ => rfl) (fun _ => rfl)
instance : LosslessForm 2 BorrowResponse := .ofRecord (fun _ => rfl) (fun _ => rfl)
instance : LosslessForm 2 RepayResponse := .ofRecord (fun _ => rfl) (fun _ => rfl)
instance : LosslessForm 2 LiquidateResponse := .ofRecord (fun _ => rfl) (fun _ => rfl)

end Stablecoin
