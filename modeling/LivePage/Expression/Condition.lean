import LivePage.Expression.Template
import LivePage.Number.Real

/-!
# Conditions

A condition compares the value of a field with an expected value.  Evaluation
never fails: a field that leads nowhere is null, and an operator that is not
known never holds.  Comparison is loose: texts that write numbers compare as
numbers, and values of different types compare by their text.
-/

namespace LivePage

/-- How a condition compares. -/
inductive Operator where
  | equals
  | notEquals
  | contains
  | notContains
  | startsWith
  | endsWith
  | greaterThan
  | greaterThanOrEqual
  | lessThan
  | lessThanOrEqual
  | isEmpty
  | isNotEmpty
  | isTrue
  | isFalse
  /-- Any operator that is not known. -/
  | unknown
deriving DecidableEq, Repr, Inhabited

namespace Operator

def name : Operator → String
  | equals => "equals"
  | notEquals => "notEquals"
  | contains => "contains"
  | notContains => "notContains"
  | startsWith => "startsWith"
  | endsWith => "endsWith"
  | greaterThan => "greaterThan"
  | greaterThanOrEqual => "greaterThanOrEqual"
  | lessThan => "lessThan"
  | lessThanOrEqual => "lessThanOrEqual"
  | isEmpty => "isEmpty"
  | isNotEmpty => "isNotEmpty"
  | isTrue => "isTrue"
  | isFalse => "isFalse"
  | unknown => "unknown"

def ofName : String → Operator
  | "equals" => equals
  | "notEquals" => notEquals
  | "contains" => contains
  | "notContains" => notContains
  | "startsWith" => startsWith
  | "endsWith" => endsWith
  | "greaterThan" => greaterThan
  | "greaterThanOrEqual" => greaterThanOrEqual
  | "lessThan" => lessThan
  | "lessThanOrEqual" => lessThanOrEqual
  | "isEmpty" => isEmpty
  | "isNotEmpty" => isNotEmpty
  | "isTrue" => isTrue
  | "isFalse" => isFalse
  | _ => unknown

def decode? : Json.Decoder Operator :=
  Json.choice? fun s => some (ofName s)

def encode (operator : Operator) : Json :=
  .str operator.name

def shape : Json.Shape :=
  .choice fun _ => true

theorem ofName_name (operator : Operator) : ofName operator.name = operator := by
  cases operator <;> rfl

end Operator

/-- A test of a field. -/
structure Condition where
  /-- A dotted path, or a template. -/
  field : String
  operator : Operator
  /-- The expected value; its strings are templates. -/
  value : Option Json := none
deriving Repr, Inhabited

namespace Condition

def decode? : Json.Decoder Condition := fun j => do
  let fields ← Json.fields? ["field", "operator", "value"] j
  return {
    field := ← fields.required "field" Json.text?
    operator := ← fields.required "operator" Operator.decode?
    value := ← fields.optional "value" Json.document? }

def encode (condition : Condition) : Json :=
  .ofMembers ([("field", .str condition.field), ("operator", condition.operator.encode)] ++
    Json.member "value" id condition.value)

def shape : Json.Shape :=
  .record [("field", .text, .required), ("operator", Operator.shape, .required),
    ("value", .optional .any, .optional)]

end Condition

namespace Json

/-- The number that a value stands for: numbers, and texts that write one. -/
def asNumber? : Json → Option Binary64
  | num n => some n.toBinary64
  | str s => Binary64.ofText? (Text.trim s.toList)
  | _ => none

/-- Whether two values are equal as documents, as numbers, or as texts.  Values
that are both numbers compare as such, and null equals only itself. -/
def looselyEqual (a b : Json) : Bool :=
  if a.same b then true
  else match a.asNumber?, b.asNumber? with
    | some x, some y => x.same y
    | _, _ => !a.isNull && !b.isNull && a.plainText == b.plainText

/-- Whether a value holds another: an array an equal item, an object the key,
any other value but null the text. -/
def holds : Json → Json → Bool
  | arr items, needle => items.any (·.looselyEqual needle)
  | obj members, needle => (Dict.find? needle.plainText members).isSome
  | null, _ => false
  | j, needle => j.plainText.mentions needle.plainText

/-- Whether both values are numbers of which the test holds. -/
def ordered (test : Binary64 → Binary64 → Bool) (a b : Json) : Bool :=
  match a.asNumber?, b.asNumber? with
  | some x, some y => test x y
  | _, _ => false

/-- Whether a value holds nothing: null, a blank text, no items, no members. -/
def isVacant : Json → Bool
  | null => true
  | str s => s.isBlank
  | arr items => items.isEmpty
  | obj members => members.isEmpty
  | _ => false

/-- Whether a value counts as true.  Of texts the empty one and `false` do
not. -/
def isTruthy : Json → Bool
  | null => false
  | bool b => b
  | num n => !n.toBinary64.isZero
  | str s => s != "" && s != "false"
  | arr _ => true
  | obj _ => true

end Json

namespace Operator

/-- Whether an operator holds between the actual and the expected value. -/
def holds (operator : Operator) (actual expected : Json) : Bool :=
  match operator with
  | equals => actual.looselyEqual expected
  | notEquals => !actual.looselyEqual expected
  | contains => actual.holds expected
  | notContains => !actual.holds expected
  | startsWith => actual.plainText.beginsWith expected.plainText
  | endsWith => actual.plainText.closesWith expected.plainText
  | greaterThan => Json.ordered (fun x y => y.below x) actual expected
  | greaterThanOrEqual => Json.ordered (fun x y => y.below x || x.same y) actual expected
  | lessThan => Json.ordered Binary64.below actual expected
  | lessThanOrEqual => Json.ordered (fun x y => x.below y || x.same y) actual expected
  | isEmpty => actual.isVacant
  | isNotEmpty => !actual.isVacant
  | isTrue => actual.isTruthy
  | isFalse => !actual.isTruthy
  | unknown => false

end Operator

namespace Condition

/-- The value of a field: a template where it holds an opening pair of braces,
else a path. -/
def actual (condition : Condition) (context : Context) : Json :=
  if Template.opens condition.field then (Template.mk condition.field).evaluate context
  else context.lookup condition.field

/-- The value a condition compares with; null where none is given. -/
def expected (condition : Condition) (context : Context) : Json :=
  .ofOption (condition.value.map (Json.interpolate context))

def holds (condition : Condition) (context : Context) : Bool :=
  condition.operator.holds (condition.actual context) (condition.expected context)

/-- Whether a condition holds, if there is one. -/
def allows (condition : Option Condition) (context : Context) : Bool :=
  match condition with
  | none => true
  | some condition => condition.holds context

end Condition

end LivePage
