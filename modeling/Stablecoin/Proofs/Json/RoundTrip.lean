import Stablecoin.Json.Events
import Stablecoin.Json.Rejections
import Stablecoin.Proofs.Json.Forms

/-!
# What is written is read back

Events, rejections and ledger operations are written with a tag that tells them apart. Each
alternative has a tag of its own, and what comes with it is read by that alternative alone. With
the records this makes every form lossless, as a value and as text.
-/
namespace Stablecoin

open Json (Fits Tidy)

/-! ### Tags -/

namespace Json

@[simp] theorem fields?_object (fields : List (String × Json)) :
    fields? (some (object fields)) = some fields := (rfl)

@[simp] theorem fits_tagged {tag : String} {content : Json} :
    (tagged tag content).Fits ↔ content.Fits := by simp [tagged]

@[simp] theorem tidy_tagged {depth : Nat} {tag : String} {content : Json} :
    (tagged tag content).Tidy (depth + 1) ↔ content.Tidy depth := by simp [tagged]

end Json

@[simp] theorem content?_some {α : Type} [JsonForm α] (json : Json) :
    (content? (some json) : Option α) = ofJson? json := (rfl)

/-- How a value is written among several alternatives: as its tag, or as its tag with what comes
with it. In both cases the value is read from that. -/
inductive Tagged {α : Type} (depth : Nat) (read : String × Option Json → Option α) (a : α) :
    Json → Prop where
  | bare {tag : String} (returned : read (tag, none) = some a) : Tagged depth read a (.string tag)
  | withContent {tag : String} {content : Json} (tidy : content.Tidy depth)
    (returned : content.Fits → read (tag, some content) = some a) :
    Tagged depth read a (.tagged tag content)

namespace Tagged

variable {α : Type} {depth : Nat} {read : String × Option Json → Option α} {a : α} {json : Json}

theorem tidy (written : Tagged depth read a json) : json.Tidy (depth + 1) := by
  cases written with
  | bare => exact .string _
  | withContent tidy => exact Json.tidy_tagged.mpr tidy

theorem read_eq (written : Tagged depth read a json) (fits : json.Fits) :
    json.tagged? >>= read = some a := by
  cases written with
  | bare returned => exact returned
  | withContent _ returned => exact returned (Json.fits_tagged.mp fits)

theorem ne_null (written : Tagged depth read a json) : json ≠ .null := by
  cases written <;> nofun

end Tagged

/-- A value that is written with a tag and read by it. -/
theorem LosslessForm.ofTagged {α : Type} [JsonForm α] {depth : Nat}
    {read : String × Option Json → Option α}
    (reader : ∀ json : Json, ofJson? json = json.tagged? >>= read)
    (each : ∀ a, Tagged depth read a (toJson a)) : LosslessForm (depth + 1) α where
  tidy a := (each a).tidy
  ofJson?_toJson {a} fits := (reader _).trans ((each a).read_eq fits)
  toJson_ne_null a := (each a).ne_null

instance : LosslessForm 1 Account := .ofTagged (fun _ => rfl) fun account => by
  cases account <;> exact .withContent (by simp [tidy_toJson]) (by simp +contextual)

instance : LosslessForm 3 LedgerError := .ofTagged (fun _ => rfl) fun error => by
  cases error <;>
    exact .withContent (by simp [tidy_toJson]) (by simp +contextual [LedgerError.tag])

instance : LosslessForm 1 PriceError := .ofRecord (fun _ => rfl) (fun _ => rfl)

instance : LosslessForm 4 LedgerOp := .ofTagged (fun _ => rfl) fun op => by
  cases op <;> exact .withContent (by simp [tidy_toJson]) (by simp +contextual)

namespace Event

/-- An event is read from its name and its fields. -/
theorem ofTagged?_name {e : Event} (named : e ≠ .setParams)
    (fits : (Json.object e.fields).Fits) :
    ofTagged? e.name (some (.object e.fields)) = some e := by
  cases e with
  | setParams => exact absurd rfl named
  | _ =>
    simp only [fields, Json.fits_object, List.forall_mem_cons] at fits
    simp [fits, fields, name, ofTagged?]

theorem tidy_fields (e : Event) : (Json.object e.fields).Tidy 3 := by
  cases e <;> simp [fields, tidy_toJson]

/-- An event is tagged with its name. -/
theorem tagged?_toJson (e : Event) : (toJson e).tagged?.map Prod.fst = some e.name := by
  cases e <;> rfl

/-- The names in the order of the alternatives. -/
def names : List String :=
  ["mint_by_swap", "burn_by_swap", "buy_backing", "sell_backing", "mint_by_collateral",
    "burn_by_collateral", "deposit_collateral", "redeem_collateral", "liquidate_collateral",
    "register_backing", "register_collateral", "set_params", "adjust_backing_ratio"]

theorem idxOf_name (e : Event) : names.idxOf e.name = e.ctorIdx := by cases e <;> rfl

/-- Different alternatives have different names. -/
theorem ctorIdx_eq_of_name {e other : Event} (same : e.name = other.name) :
    e.ctorIdx = other.ctorIdx := by rw [← idxOf_name e, ← idxOf_name other, same]

end Event

instance : LosslessForm 4 Event := .ofTagged (fun _ => rfl) fun e => by
  cases e with
  | setParams => exact .bare rfl
  | _ => exact .withContent (Event.tidy_fields _) (Event.ofTagged?_name nofun)

namespace Rejection

/-- `Option.bind_some`, but not by definition: a check of this step does not go on to unfold how the
fields are read. -/
theorem some_bind {α β : Type} (a : α) (f : α → Option β) : (some a).bind f = f a := (rfl)

/-- A rejection is read from its tag and its content. -/
theorem ofTagged?_tag {r : Rejection} (fits : r.content.Fits) :
    ofTagged? r.tag (some r.content) = some r := by
  cases r with
  | overflow => rfl
  | _ =>
    simp only [content, Json.fits_object, List.forall_mem_cons] at fits
    simp [fits, tag, content, ofTagged?, some_bind, -Option.bind_some]

theorem tidy_content (r : Rejection) : r.content.Tidy 3 := by
  cases r with
  | overflow => exact .null
  | _ => simp [content, tidy_toJson]

end Rejection

instance : LosslessForm 4 Rejection := .ofTagged (fun _ => rfl) fun r => by
  cases r with
  | overflow => exact .bare rfl
  | _ => exact .withContent (Rejection.tidy_content _) Rejection.ofTagged?_tag

/-! ### Round trips -/

/-- Every value whose numbers have at most 64 bits is read back, from its form as from its text. -/
def RoundTrips (α : Type) [JsonForm α] : Prop :=
  ∀ a : α, (toJson a).Fits →
    ofJson? (toJson a) = some a ∧ (Json.ofText? (toJson a).text).bind ofJson? = some a

theorem LosslessForm.roundTrips {α : Type} [JsonForm α] {depth : Nat} [LosslessForm depth α]
    (shallow : depth ≤ 127 := by decide) : RoundTrips α := by
  intro a fits
  have read := LosslessForm.ofJson?_toJson fits
  rw [Json.ofText?_text (TidyForm.tidy a) shallow fits, Option.bind_some]
  exact ⟨read, read⟩

theorem BackingPool.fits_toJson {pool : BackingPool} : (toJson pool).Fits ↔
    (toJson pool.backing).Fits ∧ (toJson pool.stableMinted).Fits ∧
      (toJson pool.nativeBurned).Fits := by
  change (Json.object [("backing", toJson pool.backing), ("war_minted", toJson pool.stableMinted),
    ("mage_burned", toJson pool.nativeBurned)]).Fits ↔ _
  simp

/-- Nothing is lost in the form of an event, a rejection, a ledger operation, a record or a message
as long as its numbers have at most 64 bits. Of a decimal the form keeps coefficient and scale. -/
theorem forms_lossless :
    (RoundTrips Event ∧ RoundTrips Rejection ∧ RoundTrips LedgerOp)
    ∧ (RoundTrips Params ∧ RoundTrips BackingParams ∧ RoundTrips CollateralParams)
    ∧ (RoundTrips BackingPool ∧ RoundTrips BackingTotal ∧ RoundTrips CollateralPool
      ∧ RoundTrips CollateralTotal ∧ RoundTrips Position)
    ∧ (RoundTrips MintRequest ∧ RoundTrips BurnRequest ∧ RoundTrips BuybackRequest
      ∧ RoundTrips RebackRequest ∧ RoundTrips BorrowRequest ∧ RoundTrips RepayRequest
      ∧ RoundTrips DepositRequest ∧ RoundTrips RedeemRequest ∧ RoundTrips LiquidateRequest)
    ∧ (RoundTrips MintQuote ∧ RoundTrips BurnQuote ∧ RoundTrips BuybackQuote
      ∧ RoundTrips RebackQuote ∧ RoundTrips BorrowResponse ∧ RoundTrips RepayResponse
      ∧ RoundTrips LiquidateResponse)
    ∧ (∀ d : Decimal, ofJson? (toJson d) = some d)
    ∧ (∀ d : Decimal, d.isZero → ofJson? (.string ("-" ++ d.text)) = some d)
    ∧ (∀ e : Event, (toJson e).tagged?.map Prod.fst = some e.name)
    ∧ ∀ e other : Event, (toJson e).tagged?.map Prod.fst = (toJson other).tagged?.map Prod.fst →
      e.ctorIdx = other.ctorIdx := by
  have decimals (d : Decimal) : ofJson? (toJson d) = some d := d.ofText?_text
  have negativeZero (d : Decimal) (zero : d.isZero) :
      ofJson? (.string ("-" ++ d.text)) = some d := Decimal.ofText?_minus_zero zero
  have tags (e other : Event)
      (same : (toJson e).tagged?.map Prod.fst = (toJson other).tagged?.map Prod.fst) :
      e.ctorIdx = other.ctorIdx := by
    rw [e.tagged?_toJson, other.tagged?_toJson] at same
    exact Event.ctorIdx_eq_of_name (Option.some.inj same)
  have read {α : Type} [JsonForm α] {depth : Nat} [LosslessForm depth α]
      (shallow : depth ≤ 127 := by decide) : RoundTrips α := LosslessForm.roundTrips shallow
  exact ⟨⟨read, read, read⟩, ⟨read, read, read⟩, ⟨read, read, read, read, read⟩,
    ⟨read, read, read, read, read, read, read, read, read⟩,
    ⟨read, read, read, read, read, read, read⟩, decimals, negativeZero, Event.tagged?_toJson, tags⟩

/-- Read back at both ends of the range, and after a minus sign before zero. -/
theorem forms_lossless_limits :
    let pool : BackingPool :=
      ⟨⟨"uusdc", 0xffffffffffffffff⟩, ⟨"uusw", -0x8000000000000000⟩, ⟨"amage", 0⟩⟩
    let zero : Decimal := { coefficient := 0, scale := 2 }
    (toJson pool).Fits ∧ ofJson? (toJson pool) = some pool
      ∧ (Json.ofText? (toJson pool).text).bind ofJson? = some pool
      ∧ zero.isZero ∧ ofJson? (.string ("-" ++ zero.text)) = some zero := by
  intro pool zero
  have fits : (toJson pool).Fits := BackingPool.fits_toJson.mpr
    ⟨Coin.fits_toJson.mpr (by decide), SignedCoin.fits_toJson.mpr (by decide),
      SignedCoin.fits_toJson.mpr (by decide)⟩
  have none : zero.isZero := rfl
  obtain ⟨-, -, ⟨read, -⟩, -, -, -, negativeZero, -⟩ := forms_lossless
  exact ⟨fits, (read pool fits).1, (read pool fits).2, none, negativeZero zero none⟩

/-- A counter below the signed numbers of 64 bits is not read back, though it is below `2 ^ 64`. -/
theorem BackingPool.low_counter_lost :
    ¬ ∀ pool : BackingPool, pool.backing.amount < 0x10000000000000000 →
      pool.stableMinted.amount < 0x10000000000000000 →
      pool.nativeBurned.amount < 0x10000000000000000 → ofJson? (toJson pool) = some pool := by
  intro all
  have read := all ⟨⟨"uusdc", 5⟩, ⟨"uusw", -0x8000000000000001⟩, ⟨"amage", 0⟩⟩
    (by decide) (by decide) (by decide)
  cases read

end Stablecoin
