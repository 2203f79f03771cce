import Stablecoin.Coin
import Stablecoin.Decimal.Text
import Stablecoin.Principal.Text

/-!
# JSON forms

A value's JSON form and how it is read back. A record is written as an object; it is read from an
object, in which further fields are passed over and a missing optional field means none, or from an
array of exactly its fields in order. One of several alternatives is written as an object with its
tag as the only field, or as the bare tag if nothing comes with it.
-/
namespace Stablecoin

inductive Json where
  | null
  | bool (value : Bool)
  | integer (value : Int)
  /-- The number `digits * 10 ^ exponent`, which was written with a fraction or an exponent. -/
  | float (digits : Int) (exponent : Int)
  | string (value : String)
  | array (items : List Json)
  | object (fields : List (String × Json))
  deriving Inhabited, Repr

class JsonForm (α : Type) where
  toJson : α → Json
  ofJson? : Json → Option α

export JsonForm (toJson ofJson?)

namespace Json

/-- The field of an object with a name. -/
def get? : Json → String → Option Json
  | object fields, name => fields.lookup name
  | _, _ => none

/-- A whole number of at most 64 bits, signed or not. -/
def whole? : Json → Option Int
  | integer n =>
    if -0x8000000000000000 ≤ n ∧ n < 0x10000000000000000 then some n else none
  | _ => none

/-- The fields of a record with these names. -/
def record? (names : List String) : Json → Option (List (String × Json))
  | object fields => some fields
  | array items => if items.length = names.length then some (names.zip items) else none
  | _ => none

/-- The tag of an alternative and what comes with it. -/
def tagged? : Json → Option (String × Option Json)
  | string tag => some (tag, none)
  | object [(tag, content)] => some (tag, some content)
  | _ => none

def fields? : Option Json → Option (List (String × Json))
  | some (object fields) => some fields
  | _ => none

def nothing? : Option Json → Option Unit
  | none => some ()
  | some null => some ()
  | _ => none

def tagged (tag : String) (content : Json) : Json := object [(tag, content)]

end Json

/-- A field that has to be there. -/
def field {α : Type} [JsonForm α] (fields : List (String × Json)) (name : String) : Option α :=
  (fields.lookup name).bind ofJson?

/-- A field that may be missing or null. -/
def optionalField {α : Type} [JsonForm α] (fields : List (String × Json)) (name : String) :
    Option (Option α) :=
  match fields.lookup name with
  | none => some none
  | some .null => some none
  | some json => (ofJson? json).map some

def content? {α : Type} [JsonForm α] (json : Option Json) : Option α := json.bind ofJson?

instance : JsonForm String where
  toJson := .string
  ofJson?
    | .string s => some s
    | _ => none

instance : JsonForm Bool where
  toJson := .bool
  ofJson?
    | .bool b => some b
    | _ => none

instance : JsonForm Int where
  toJson n := .integer n
  ofJson? := Json.whole?

instance : JsonForm Nat where
  toJson n := .integer n
  ofJson? json := json.whole?.bind fun n => if 0 ≤ n then some n.toNat else none

instance : JsonForm UInt64 where
  toJson n := .integer n.toNat
  ofJson? json := (ofJson? json : Option Nat).map UInt64.ofNat

instance {α : Type} [JsonForm α] : JsonForm (Option α) where
  toJson
    | some a => toJson a
    | none => .null
  ofJson?
    | .null => some none
    | json => (ofJson? json).map some

instance {α : Type} [JsonForm α] : JsonForm (List α) where
  toJson items := .array (items.map toJson)
  ofJson?
    | .array items => items.mapM ofJson?
    | _ => none

/-- The decimal nearest to `digits * 10 ^ exponent`, read off the number's positional text. -/
def Decimal.ofFloat? (digits exponent : Int) : Option Decimal :=
  ofPlain? (positional (digits * tenPow exponent.toNat) (-exponent).toNat)

/-- A decimal is written as text, so that its scale is kept, and is also read from a number. -/
instance : JsonForm Decimal where
  toJson d := .string d.text
  ofJson?
    | .string s => Decimal.ofText? s
    | .float digits exponent => Decimal.ofFloat? digits exponent
    | json => json.whole?.bind Decimal.ofInt?

instance : JsonForm Principal where
  toJson p := .string p.text
  ofJson?
    | .string s => Principal.ofText? s
    | _ => none

instance : JsonForm Coin where
  toJson c := .object [("denom", toJson c.denom), ("amount", toJson c.amount)]
  ofJson? json := do
    let r ← json.record? ["denom", "amount"]
    pure ⟨← field r "denom", ← field r "amount"⟩

instance : JsonForm SignedCoin where
  toJson c := .object [("denom", toJson c.denom), ("amount", toJson c.amount)]
  ofJson? json := do
    let r ← json.record? ["denom", "amount"]
    pure ⟨← field r "denom", ← field r "amount"⟩

end Stablecoin
