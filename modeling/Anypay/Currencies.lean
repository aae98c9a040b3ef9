/-
Anypay.Currencies — which currency a BIP70 wallet asks for: `lib/pay/currencies.ts` and
`getCurrency` of `lib/pay/bip70.ts`.

A wallet names the currency in a media type, `application/bitcoin-paymentrequest`. The
name is cut out with `split` and looked up in a plain object, which has, besides its own
keys, those of `Object.prototype`; what is found under those is no code, and no `if`
takes it for nothing.
-/
import Anypay.Plugins

namespace Anypay

/-! ## Plain objects -/

/-- The keys every plain object has. -/
def inheritedKeys : List String := [
  "__defineGetter__", "__defineSetter__", "hasOwnProperty", "__lookupGetter__",
  "__lookupSetter__", "isPrototypeOf", "propertyIsEnumerable", "toString", "valueOf",
  "__proto__", "toLocaleString", "constructor"]

/-- What is found under a key: a string of the object's own, or what it inherits. -/
inductive Property where
  | own (value : String)
  | inherited (key : String)
  deriving DecidableEq

/-- `object[key]`. -/
def propertyOf (object : List (String × String)) (key : String) : Option Property :=
  match object.lookup key with
  | some value => some (.own value)
  | none => if key ∈ inheritedKeys then some (.inherited key) else none

/-- Whether an `if` accepts it. -/
def Property.truthy : Property → Bool
  | .own value => value != ""
  | .inherited _ => true

/-! ## Currencies -/

/-- `list`. -/
def currencies : List (String × String) :=
  [("bitcoin", "BTC"), ("dash", "DASH"), ("bitcoincash", "BCH"), ("bitcoinsv", "BSV")]

/-- `codeFromName(name)`, where no name is the key "undefined". -/
def codeFromName (name : Option String) : Option Property :=
  propertyOf currencies (name.getD "undefined")

/-- `Currency`. -/
structure Currency where
  name : Option String
  code : Property
  deriving DecidableEq

namespace Bip70

/-- `headers[key] && headers[key].match(/…$/)`. -/
def matching (headers : String → Option String) (key ending : String) : Option String :=
  (nonEmpty (headers key)).filter fun header => ending.toList.isSuffixOf header.toList

/-- `header.split('/')[1].split('-')[0]`; there is no second part without a slash. -/
def nameIn (header : String) : Except Failure String :=
  match (header.toList.splitOn '/')[1]? with
  | none => .error .typeError
  | some part => .ok (String.ofList ((part.splitOn '-').headD []))

/-- The name in the first header that matches. -/
def namedIn (headers : String → Option String) : Except Failure (Option String) :=
  match matching headers "accept" "paymentrequest" with
  | some accept => (nameIn accept).map some
  | none =>
      match matching headers "content-type" "payment" with
      | some contentType => (nameIn contentType).map some
      | none =>
          match matching headers "accept" "paymentack" with
          | some accept => (nameIn accept).map some
          | none =>
              match matching headers "x-accept" "paymentack" with
              | some xAccept => (nameIn xAccept).map some
              | none => .ok none

/-- `getCurrency({ headers })`. -/
def getCurrency (headers : String → Option String) : Except Failure Currency := do
  let name ← namedIn headers
  match (codeFromName name).filter Property.truthy with
  | none => .error (.error "currency not supported")
  | some code => .ok { name, code }

end Bip70

end Anypay
