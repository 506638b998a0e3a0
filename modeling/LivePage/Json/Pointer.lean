import LivePage.Json.Value
import LivePage.Text.Cut

/-!
# Pointers into documents

A pointer such as `/a/0/b` names a place inside a document by keys and array
positions behind slashes.  In a key `~1` stands for a slash and `~0` for a tilde.
-/

namespace LivePage.Json

def pointerKey (cs : List Char) : List Char :=
  Text.replaceAll ['~', '0'] ['~'] (Text.replaceAll ['~', '1'] ['/'] cs)

/-- The array position that a key names: a numeral without leading zeros. -/
def pointerPosition? (cs : List Char) : Option Nat :=
  if cs.head? = some '0' ∧ cs.length ≠ 1 then none else Numeral.nat? cs

/-- The value one key further. -/
def pointerStep? (key : List Char) : Json → Option Json
  | obj members => Dict.find? (String.ofList key) members
  | arr items => (pointerPosition? key).bind (items[·]?)
  | _ => none

def pointer? (text : String) (j : Json) : Option Json :=
  match text.toList with
  | [] => some j
  | '/' :: rest =>
      (Text.splitAt '/' rest).foldlM (fun j key => j.pointerStep? (pointerKey key)) j
  | _ => none

end LivePage.Json
