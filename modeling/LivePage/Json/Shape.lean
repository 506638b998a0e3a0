import LivePage.Json.Draft

/-!
# Shapes of documents

A text is checked against the shape that is expected of it from front to back,
and the first thing wrong with it is its fault: a broken rule of the grammar, or
a part of the wrong shape, whichever comes first.  Members that a closed record
does not know are skipped, and only there may containers nest without a limit,
strings name lone surrogates and numbers be too large.
-/

namespace LivePage.Json

/-- Whether a field of a record may be left out. -/
inductive Presence where
  /-- The field must be there. -/
  | required
  /-- The field may be absent. -/
  | optional
  /-- The field may be absent from an object, but not from an array. -/
  | positional
deriving DecidableEq, Repr

/-- What a document is expected to hold. -/
inductive Shape where
  /-- Any document. -/
  | any
  | text
  | bool
  /-- An integer that is not negative and stays below the bound. -/
  | nat (bound : Nat)
  /-- The shape, or null. -/
  | optional (shape : Shape)
  | list (items : Shape)
  | dict (values : Shape)
  /-- An object with these fields, or an array of them in this order.  Other
  members are skipped. -/
  | record (fields : List (String × Shape × Presence))
  /-- An object with these fields that keeps every other member. -/
  | extensible (fields : List (String × Shape × Presence))
  /-- One of the known names, alone or as the key of an object with one null. -/
  | choice (known : String → Bool)
  /-- An object whose tag is a known name, judged once it is complete. -/
  | tagged (tag : String) (known : String → Bool) (accepts : Json → Bool)
  /-- An object judged once it is complete. -/
  | gathered (accepts : Json → Bool)

namespace Shape

/-- The largest number of containers around a value. -/
def maxNesting : Nat := 127

/-- The shape of a value that is not null. -/
def present : Shape → Shape
  | optional shape => shape.present
  | shape => shape

def acceptsNull : Shape → Bool
  | any => true
  | optional _ => true
  | _ => false

/-- The shape and presence of a field. -/
def field? (key : String) : List (String × Shape × Presence) → Option (Shape × Presence)
  | [] => none
  | (name, found) :: rest => if name = key then some found else field? key rest

/-- Whether a required field is not among the keys seen. -/
def lacks (seen : List String) (fields : List (String × Shape × Presence)) : Bool :=
  fields.any fun (name, _, presence) => presence = .required && !seen.contains name

/-- The fault of a value that is not of the expected kind: what is wrong with a
scalar in itself comes first. -/
def wrongKind : Draft → Fault
  | .number none => .malformed
  | .string (.error fault) _ => fault
  | .torn fault => fault
  | .missing fault => fault
  | _ => .mismatch

/-- No fault if the test holds. -/
def expecting (test : Bool) (fault : Fault) : Option Fault :=
  if test then none else some fault

/-- A container may open only while there is room for it. -/
def inside (room : Nat) (found : Option Fault) : Option Fault :=
  if room = 0 then some .malformed else found

mutual

/-- What is wrong with a value that is skipped: only where it breaks off. -/
def skipFault : Draft → Option Fault
  | .string _ stop => stop
  | .array items stop => (skipItems items).or stop
  | .object members stop => (skipMembers members).or stop
  | .torn fault => some fault
  | .missing fault => some fault
  | _ => none

def skipItems : List Draft → Option Fault
  | [] => none
  | d :: rest => (skipFault d).or (skipItems rest)

def skipMembers : List (Except Fault String × Draft) → Option Fault
  | [] => none
  | (_, d) :: rest => (skipFault d).or (skipMembers rest)

end

def nameFault (known : String → Bool) : Draft → Option Fault
  | .string (.ok s) _ => expecting (known s) .mismatch
  | d => some (wrongKind d)

/-- The fault of a choice: anything but a string or an object breaks the grammar
of choices. -/
def choiceFault (room : Nat) (known : String → Bool) : Draft → Option Fault
  | .string (.ok s) _ => expecting (known s) .mismatch
  | .string (.error fault) _ => some fault
  | .missing fault => some fault
  | .object members stop =>
      if room = 0 then some .malformed
      else match members with
        | [] => some (stop.getD .malformed)
        | (.error fault, _) :: _ => some fault
        | (.ok key, value) :: rest =>
            if known key then
              match value with
              | .null => if rest.isEmpty then stop else some .malformed
              | value => some (wrongKind value)
            else some .mismatch
  | _ => some .malformed

mutual

/-- The first thing that is wrong with a value of which a shape is expected;
`room` is how many containers may still nest. -/
def fault (room : Nat) (shape : Shape) : Draft → Option Fault
  | .null =>
      if shape.acceptsNull then none
      else match shape.present with
        | choice _ => some .malformed
        | _ => some .mismatch
  | .array items stop =>
      match shape.present with
      | any => inside room ((itemFaults (room - 1) any items).or stop)
      | list shape => inside room ((itemFaults (room - 1) shape items).or stop)
      | record fields => inside room (positionFaults (room - 1) fields items stop)
      | tagged _ known accepts =>
          inside room <| match items with
            | [] => some (stop.getD .mismatch)
            | name :: rest =>
                (nameFault known name).or <| (itemFaults (room - 1) any rest).or <| stop.or <|
                  expecting (accepts (Draft.array (name :: rest) stop).toJson) .mismatch
      | choice _ => some .malformed
      | _ => some .mismatch
  | .object members stop =>
      match shape.present with
      | any => inside room ((memberFaults (room - 1) any members).or stop)
      | dict shape => inside room ((memberFaults (room - 1) shape members).or stop)
      | record fields => inside room (fieldFaults (room - 1) false fields [] members stop)
      | extensible fields => inside room (fieldFaults (room - 1) true fields [] members stop)
      | choice known => choiceFault room known (.object members stop)
      | tagged tag known accepts =>
          inside room <| (tagFaults (room - 1) tag known false members stop).or <|
            expecting (accepts (Draft.object members stop).toJson) .mismatch
      | gathered accepts =>
          inside room <| (memberFaults (room - 1) any members).or <| stop.or <|
            expecting (accepts (Draft.object members stop).toJson) .mismatch
      | _ => some .mismatch
  | d =>
      match shape.present, d with
      | choice known, d => choiceFault room known d
      | any, .number (some _) => none
      | any, .bool _ => none
      | any, .string (.ok _) _ => none
      | any, d => some (wrongKind d)
      | bool, .bool _ => none
      | text, .string (.ok _) _ => none
      | nat bound, .number (some (.int i)) => expecting (0 ≤ i && i < bound) .mismatch
      | _, d => some (wrongKind d)

def itemFaults (room : Nat) (shape : Shape) : List Draft → Option Fault
  | [] => none
  | d :: rest => (fault room shape d).or (itemFaults room shape rest)

def memberFaults (room : Nat) (shape : Shape) :
    List (Except Fault String × Draft) → Option Fault
  | [] => none
  | (.error fault, _) :: _ => some fault
  | (.ok _, d) :: rest => (fault room shape d).or (memberFaults room shape rest)

/-- The items of an array that stands for a record, field by field. -/
def positionFaults (room : Nat) (fields : List (String × Shape × Presence)) :
    List Draft → Option Fault → Option Fault
  | [], stop =>
      stop.or (expecting (fields.all fun (_, _, presence) => presence = .optional) .mismatch)
  | d :: rest, stop =>
      match fields with
      | [] => some .malformed
      | (_, shape, _) :: fields =>
          (fault room shape d).or (positionFaults room fields rest stop)

/-- The members of an object that stands for a record; a field comes once. -/
def fieldFaults (room : Nat) (keepsOthers : Bool) (fields : List (String × Shape × Presence))
    (seen : List String) : List (Except Fault String × Draft) → Option Fault → Option Fault
  | [], stop => stop.or (expecting (!lacks seen fields) .mismatch)
  | (.error fault, _) :: _, _ => some fault
  | (.ok key, d) :: rest, stop =>
      match field? key fields with
      | none =>
          (if keepsOthers then fault room any d else skipFault d).or
            (fieldFaults room keepsOthers fields seen rest stop)
      | some (shape, _) =>
          if seen.contains key then some .mismatch
          else (fault room shape d).or
            (fieldFaults room keepsOthers fields (key :: seen) rest stop)

/-- The members of a tagged object; the tag comes once and names a variant. -/
def tagFaults (room : Nat) (tag : String) (known : String → Bool) (seen : Bool) :
    List (Except Fault String × Draft) → Option Fault → Option Fault
  | [], stop => stop.or (expecting seen .mismatch)
  | (.error fault, _) :: _, _ => some fault
  | (.ok key, d) :: rest, stop =>
      if key = tag then
        if seen then some .mismatch
        else (nameFault known d).or (tagFaults room tag known true rest stop)
      else (fault room any d).or (tagFaults room tag known seen rest stop)

end

end Shape

/-- Reads a text of which a shape is expected, with room for `room` containers
around a value.  In the value the members of every object ascend, and of members
with one key only the last is left. -/
def readWithin (room : Nat) (shape : Shape) (text : String) : Except Fault Json :=
  let (draft, trailing) := Draft.ofText text.toList
  match shape.fault room draft with
  | some fault => .error fault
  | none => if trailing then .error .malformed else .ok draft.toJson.sorted

/-- Reads a text of which a shape is expected. -/
def read (shape : Shape) (text : String) : Except Fault Json :=
  readWithin Shape.maxNesting shape text

/-- Reads any document. -/
def parse (text : String) : Except Fault Json :=
  read .any text

end LivePage.Json
