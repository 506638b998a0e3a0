import LivePage.Json.Value
import LivePage.Text.Blank
import LivePage.Text.Cut

/-!
# Dotted paths

A path such as `response.data.items[0].name` names a place inside a document:
keys separated by dots, each followed by positions in brackets.  A position also
names the member whose key is its numeral, and a key that is a numeral also
names that position of an array.
-/

namespace LivePage

/-- One step of a path. -/
inductive Segment where
  | key (name : String)
  | index (position : UInt64)
deriving DecidableEq, Repr

/-- A parsed path. -/
structure Path where
  segments : List Segment
deriving DecidableEq, Repr

/-- Why a text is no path; all but the first carry the trimmed text. -/
inductive PathError where
  | empty
  | emptySegment (path : String)
  | invalidIndex (path : String)
  | unterminatedIndex (path : String)
deriving DecidableEq, Repr

namespace PathError

def message : PathError → String
  | empty => "path is empty"
  | emptySegment path => "empty segment in path `" ++ path ++ "`"
  | invalidIndex path => "invalid index in path `" ++ path ++ "`"
  | unterminatedIndex path => "unterminated `[` in path `" ++ path ++ "`"

end PathError

namespace Path

/-- What is wrong with one part of a path, given the path it stands in. -/
abbrev PartFault := String → PathError

/-- The positions behind a key: bracketed numerals with nothing between or
behind them. -/
def parseIndices (cs : List Char) : Except PartFault (List Segment) :=
  match cs with
  | [] => .ok []
  | c :: rest =>
      if c = '[' then
        match _h : Text.cutAt ']' rest with
        | none => .error .unterminatedIndex
        | some (inner, behind) =>
            match Numeral.position? (Text.trim inner) with
            | none => .error .invalidIndex
            | some position =>
                (parseIndices behind).map (.index position :: ·)
      else .error .invalidIndex
termination_by cs.length
decreasing_by
  have := Text.length_of_cutAt _h
  simp
  omega

/-- One part of a path: a key, positions, or a key with positions. -/
def parsePart (part : List Char) : Except PartFault (List Segment) :=
  let part := Text.trim part
  if part = [] then .error .emptySegment
  else
    let key := part.takeWhile (· ≠ '[')
    let head := if key = [] then [] else [Segment.key (String.ofList key)]
    (parseIndices (part.dropWhile (· ≠ '['))).map (head ++ ·)

/-- The parts of a path from left to right; the first bad one decides. -/
def parseParts : List (List Char) → Except PartFault (List Segment)
  | [] => .ok []
  | part :: rest => do return (← parsePart part) ++ (← parseParts rest)

/-- Reads a path; blank characters around it and around its parts do not
count. -/
def parse (text : String) : Except PathError Path :=
  let trimmed := Text.trim text.toList
  if trimmed = [] then .error .empty
  else match parseParts (Text.splitAt '.' trimmed) with
    | .error fault => .error (fault (String.ofList trimmed))
    | .ok segments => .ok ⟨segments⟩

/-- The first step, if it is a key. -/
def root (path : Path) : Option String :=
  match path.segments with
  | .key name :: _ => some name
  | _ => none

def rest (path : Path) : List Segment :=
  path.segments.drop 1

/-- A step as it is written behind others. -/
def segmentText : Segment → String
  | .key name => "." ++ name
  | .index position => "[" ++ Numeral.text position.toNat ++ "]"

/-- The text of a path: the first key without a dot. -/
def text (path : Path) : String :=
  match path.segments with
  | .key name :: rest => name ++ String.join (rest.map segmentText)
  | segments => String.join (segments.map segmentText)

end Path

/-- The key that a step names in an object. -/
def Segment.name : Segment → String
  | key name => name
  | index position => Numeral.text position.toNat

/-- The position that a step names in an array. -/
def Segment.position? : Segment → Option UInt64
  | key name => Numeral.position? name.toList
  | index position => some position

namespace Json

/-- The value one step into a document. -/
def step? (segment : Segment) : Json → Option Json
  | obj members => Dict.find? segment.name members
  | arr items => segment.position?.bind fun position => items[position.toNat]?
  | _ => none

/-- The value at the end of some steps into a document. -/
def walk? : List Segment → Json → Option Json
  | [], j => some j
  | segment :: rest, j => (j.step? segment).bind (walk? rest)

/-- One step into the object with some members. -/
theorem walk?_ofMembers (members : List (String × Json)) (name : String) :
    (ofMembers members).walk? [.key name] = (Dict.ofList members).get? name := by
  have hstep : (ofMembers members).walk? [.key name] =
      ((Dict.ofList members).get? name).bind (walk? []) := rfl
  rw [hstep]
  cases (Dict.ofList members).get? name <;> rfl

end Json

/-- The value at the end of some steps into a dictionary; no steps lead to the
dictionary as a whole. -/
def Dict.walk? (d : Dict Json) : List Segment → Option Json
  | [] => some (.ofDict d)
  | segment :: rest => (d.get? segment.name).bind (Json.walk? rest)

/-- Walking a dictionary is walking the object it stands for. -/
theorem Dict.walk?_eq (d : Dict Json) (segments : List Segment) :
    d.walk? segments = (Json.ofDict d).walk? segments := by
  cases segments <;> rfl

end LivePage
