import LivePage.Json.Decode

/-!
# Triggers

The interactions that fire the events of a component, and the records in which
a user interface or a trigger source reports them.
-/

namespace LivePage

/-- The interaction that fires an event. -/
inductive Trigger where
  | onClick
  | onChange
  | onSubmit
  | onLoad
deriving DecidableEq, Repr, Inhabited

namespace Trigger

/-- The name of a trigger in expressions and log lines. -/
def name : Trigger → String
  | onClick => "onClick"
  | onChange => "onChange"
  | onSubmit => "onSubmit"
  | onLoad => "onLoad"

/-- The trigger of a name in documents. -/
def ofName? : String → Option Trigger
  | "onClick" => some onClick
  | "onChange" => some onChange
  | "onSubmit" => some onSubmit
  | "onLoad" => some onLoad
  | _ => none

def decode? : Json.Decoder Trigger :=
  Json.choice? ofName?

def encode : Trigger → Json
  | onClick => .str "onClick"
  | onChange => .str "onChange"
  | onSubmit => .str "onSubmit"
  | onLoad => .str "onLoad"

def shape : Json.Shape :=
  .choice fun name => (ofName? name).isSome

/-- Documents and expressions name triggers alike. -/
theorem encode_eq_name (trigger : Trigger) : trigger.encode = .str trigger.name := by
  cases trigger <;> rfl

theorem ofName?_name (trigger : Trigger) : ofName? trigger.name = some trigger := by
  cases trigger <;> rfl

end Trigger

/-- What is reported alongside a trigger. -/
structure Payload where
  value : Json := .null
  target : Json := .null
deriving Repr, Inhabited

namespace Payload

def decode? : Json.Decoder Payload := fun j => do
  let fields ← Json.fields? ["value", "target"] j
  return {
    value := ← fields.withDefault "value" .null Json.document?
    target := ← fields.withDefault "target" .null Json.document? }

def encode (payload : Payload) : Json :=
  .ofMembers [("value", payload.value), ("target", payload.target)]

def shape : Json.Shape :=
  .record [("value", .any, .optional), ("target", .any, .optional)]

end Payload

/-- One reported interaction with a component. -/
structure TriggerRecord where
  component : String
  trigger : Trigger
  payload : Payload := {}
deriving Repr, Inhabited

namespace TriggerRecord

def decode? : Json.Decoder TriggerRecord := fun j => do
  let fields ← Json.fields? ["component", "trigger", "value", "target"] j
  return {
    component := ← fields.required "component" Json.text?
    trigger := ← fields.required "trigger" Trigger.decode?
    payload := {
      value := ← fields.withDefault "value" .null Json.document?
      target := ← fields.withDefault "target" .null Json.document? } }

def encode (record : TriggerRecord) : Json :=
  .ofMembers [("component", .str record.component), ("trigger", record.trigger.encode),
    ("value", record.payload.value), ("target", record.payload.target)]

def shape : Json.Shape :=
  .record [("component", .text, .required), ("trigger", Trigger.shape, .required),
    ("value", .any, .optional), ("target", .any, .optional)]

end TriggerRecord

end LivePage
