import LivePage.Json.Shape

/-!
# Decoding documents

A decoder gives the value of a type that a document stands for, or nothing where
the document does not fit the type.  Records come as objects, in which unknown
members are ignored and known ones come once, or as arrays of their fields in
declared order with trailing ones left out.
-/

namespace LivePage.Json

/-- Reads values of a type from documents. -/
abbrev Decoder (α : Type) := Json → Option α

def text? : Decoder String :=
  asString?

def bool? : Decoder Bool :=
  asBool?

/-- A natural number below a bound. -/
def natBelow? (bound : Nat) : Decoder Nat :=
  fun j => j.asNat?.filter (· < bound)

def word64 : Nat := Nat.pow 2 64

def word16 : Nat := Nat.pow 2 16

def document? : Decoder Json :=
  some

/-- The values of a list of documents, if every one fits. -/
def each? (decode : Decoder α) : List Json → Option (List α)
  | [] => some []
  | j :: rest => do return (← decode j) :: (← each? decode rest)

def list? (decode : Decoder α) : Decoder (List α)
  | arr items => each? decode items
  | _ => none

/-- The values of a list of members, if every one fits. -/
def eachMember? (decode : Decoder α) : List (String × Json) → Option (List (String × α))
  | [] => some []
  | (key, j) :: rest => do return (key, ← decode j) :: (← eachMember? decode rest)

/-- An object of values; of members with one key the last counts. -/
def dict? (decode : Decoder α) : Decoder (Dict α)
  | obj members => (eachMember? decode members).map Dict.ofList
  | _ => none

/-- One of several names, alone or as the key of an object with one null. -/
def choice? (ofName : String → Option α) : Decoder α
  | str name => ofName name
  | obj [(name, null)] => ofName name
  | _ => none

/-! ## Records -/

/-- The fields of a record that a document gives. -/
abbrev Fields := List (String × Json)

/-- Whether a key comes more than once. -/
def repeated (key : String) (members : Fields) : Bool :=
  1 < (members.filter fun member => member.1 = key).length

/-- The members of an object in which none of the names comes twice. -/
def members? (names : List String) : Decoder Fields
  | obj members => if names.any (repeated · members) then none else some members
  | _ => none

/-- The fields of a record with these names in declared order. -/
def fields? (names : List String) : Decoder Fields
  | arr items => if items.length ≤ names.length then some (names.zip items) else none
  | j => members? names j

namespace Fields

def get? (fields : Fields) (name : String) : Option Json :=
  Dict.find? name fields

def required (fields : Fields) (name : String) (decode : Decoder α) : Option α :=
  (fields.get? name).bind decode

/-- A field that may be absent, or null for the same. -/
def optional (fields : Fields) (name : String) (decode : Decoder α) : Option (Option α) :=
  match fields.get? name with
  | none => some none
  | some null => some none
  | some j => (decode j).map some

/-- A field with a value for when it is absent; null is not absent. -/
def withDefault (fields : Fields) (name : String) (default : α) (decode : Decoder α) :
    Option α :=
  match fields.get? name with
  | none => some default
  | some j => decode j

end Fields

/-! ## Encoding -/

/-- An optional member, left out where there is no value. -/
def member (key : String) (encode : α → Json) : Option α → List (String × Json)
  | none => []
  | some a => [(key, encode a)]

def ofList (encode : α → Json) (as : List α) : Json :=
  arr (as.map encode)

def ofValues (encode : α → Json) (d : Dict α) : Json :=
  ofDict (d.mapValues encode)

end LivePage.Json
