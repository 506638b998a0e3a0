import LivePage.Expression.Context

/-!
# Templates

A template is a text with placeholders, each a dotted path between two pairs of
braces.  A template that is one placeholder stands for the value at its path,
whatever its type; any other template stands for a text.  A pair of braces that
is never closed, or that holds nothing but white space, is plain text.
-/

namespace LivePage

/-- The text of a value inside other text: strings as they are, null as nothing,
everything else as compact JSON. -/
def Json.plainText : Json → String
  | .str s => s
  | .null => ""
  | j => j.compact

namespace Template

/-- A token of a template's source, with the characters it stands for. -/
inductive Token where
  | text (cs : List Char)
  | hole (cs : List Char)
deriving DecidableEq, Repr

/-- The source that a token was cut from. -/
def Token.source : Token → List Char
  | text cs => cs
  | hole cs => '{' :: '{' :: cs ++ ['}', '}']

/-- Cuts a source into tokens: what stands between an opening pair of braces and
the next closing pair is a hole. -/
def tokens (cs : List Char) : List Token :=
  match _h : Text.cutAtPair '{' cs with
  | none => [.text cs]
  | some (before, behind) =>
      match _h' : Text.cutAtPair '}' behind with
      | none => [.text cs]
      | some (inner, rest) => .text before :: .hole inner :: tokens rest
termination_by cs.length
decreasing_by
  have := Text.length_of_cutAtPair _h
  have := Text.length_of_cutAtPair _h'
  omega

/-- A part of a compiled template: text, or a placeholder with its path.  A
placeholder that holds no valid path stands for null. -/
inductive Part where
  | literal (text : List Char)
  | placeholder (path : Option Path)
deriving DecidableEq, Repr

/-- Puts text in front of some parts, joined to text that already stands
there. -/
def attach (cs : List Char) : List Part → List Part
  | .literal ds :: rest => .literal (cs ++ ds) :: rest
  | parts => if cs = [] then parts else .literal cs :: parts

/-- The parts of a tokenised template; blank holes are text. -/
def parts : List Token → List Part
  | [] => []
  | .text cs :: rest => attach cs (parts rest)
  | .hole cs :: rest =>
      if Text.allBlank cs then attach (Token.hole cs).source (parts rest)
      else .placeholder (Path.parse (String.ofList cs)).toOption :: parts rest

end Template

/-- A template is known by its source. -/
structure Template where
  source : String
deriving DecidableEq, Repr, Inhabited

namespace Template

def decode? : Json.Decoder Template :=
  fun j => (Json.text? j).map Template.mk

def encode (template : Template) : Json :=
  .str template.source

def shape : Json.Shape :=
  .text

def compile (template : Template) : List Part :=
  parts (tokens template.source.toList)

def Part.isPlaceholder : Part → Bool
  | .placeholder _ => true
  | .literal _ => false

/-- Whether a template holds a placeholder. -/
def isDynamic (template : Template) : Bool :=
  template.compile.any Part.isPlaceholder

def resolve (context : Context) (path : Option Path) : Json :=
  .ofOption (path.bind context.resolve?)

def Part.render (context : Context) : Part → List Char
  | .literal cs => cs
  | .placeholder path => (resolve context path).plainText.toList

def render (template : Template) (context : Context) : String :=
  String.ofList (template.compile.flatMap (·.render context))

/-- The value of a template: of its only placeholder, or else a text.  Without a
placeholder that is the source as it stands. -/
def evaluate (template : Template) (context : Context) : Json :=
  match template.compile with
  | [] => .str ""
  | [.placeholder path] => resolve context path
  | _ =>
      if template.isDynamic then .str (template.render context)
      else .str template.source

end Template

/-- Whether a text holds an opening pair of braces. -/
def Template.opens (s : String) : Bool :=
  s.mentions "\x7b\x7b"

namespace Json

mutual

/-- The document with every string evaluated as a template.  Keys stay as they
are. -/
def interpolate (context : Context) : Json → Json
  | str s => if Template.opens s then (Template.mk s).evaluate context else str s
  | arr items => arr (interpolateItems context items)
  | obj members => obj (interpolateMembers context members)
  | j => j

def interpolateItems (context : Context) : List Json → List Json
  | [] => []
  | j :: rest => interpolate context j :: interpolateItems context rest

def interpolateMembers (context : Context) : List (String × Json) → List (String × Json)
  | [] => []
  | (key, j) :: rest => (key, interpolate context j) :: interpolateMembers context rest

end

end Json

end LivePage
