import LivePage.Url.Basic

/-!
# Reading addresses

`Url.parse?` reads an absolute address and `Url.join?` resolves a reference
against one.  Blanks around a text and tabs and line ends in it do not count.
In the special schemes a backslash separates like a slash.  Path segments of one
dot are dropped, and segments of two dots take the segment before them away.
-/

namespace LivePage.Url

/-- Whether a character does not count around an address. -/
def isOuterBlank (c : Char) : Bool :=
  c.toNat ≤ 0x20

/-- Whether a character does not count inside an address. -/
def isInnerBlank (c : Char) : Bool :=
  c == '\t' || c == '\n' || c == '\r'

/-- The characters of a text that count. -/
def significant (cs : List Char) : List Char :=
  let cs := cs.dropWhile isOuterBlank
  let cs := (cs.reverse.dropWhile isOuterBlank).reverse
  cs.filter (!isInnerBlank ·)

/-- Whether a character separates segments in the special schemes. -/
def isSlash (c : Char) : Bool :=
  c == '/' || c == '\\'

/-- Whether a character separates segments. -/
def separates (special : Bool) (c : Char) : Bool :=
  c == '/' || (special && c == '\\')

/-- Whether a character may stand in a scheme behind its first letter. -/
def isSchemeChar (c : Char) : Bool :=
  c.isAlphanum || c == '+' || c == '-' || c == '.'

/-- The scheme that a text begins with, in small letters, and the text behind
its colon. -/
def scheme? (cs : List Char) : Option (String × List Char) :=
  let name := cs.takeWhile isSchemeChar
  match name, cs.dropWhile isSchemeChar with
  | first :: _, ':' :: rest =>
      if first.isAlpha then some (String.ofList (name.map Char.toLower), rest) else none
  | _, _ => none

/-! ## Paths, queries and fragments -/

/-- The part of a text up to its query or fragment, and the rest. -/
def splitPath (cs : List Char) : List Char × List Char :=
  cs.span fun c => c != '?' && c != '#'

/-- Writes the query and fragment of a text that begins with one of them. -/
def withTail (url : Url) (cs : List Char) : Url :=
  match cs with
  | '?' :: rest =>
      let (query, rest) := rest.span (· != '#')
      let inSet := if isSpecial url.scheme then Percent.inSpecialQuery else Percent.inQuery
      { url with
        query := some (Percent.encode inSet query)
        fragment := match rest with
          | '#' :: fragment => some (Percent.encode Percent.inFragment fragment)
          | _ => none }
  | '#' :: fragment =>
      { url with query := none, fragment := some (Percent.encode Percent.inFragment fragment) }
  | _ => { url with query := none, fragment := none }

/-- Whether a segment stands for the directory it is in. -/
def isSingleDot (segment : String) : Bool :=
  [".", "%2e", "%2E"].contains segment

/-- Whether a segment stands for the directory above. -/
def isDoubleDot (segment : String) : Bool :=
  ["..", "%2e%2e", "%2e%2E", "%2E%2e", "%2E%2E", "%2e.", "%2E.", ".%2e", ".%2E"].contains segment

/-- Whether a segment names a drive: a letter and a colon or bar. -/
def isDrive (segment : String) : Bool :=
  match segment.toList with
  | [letter, mark] => letter.isAlpha && (mark == ':' || mark == '|')
  | _ => false

/-- A drive with its colon. -/
def normalDrive (segment : String) : String :=
  match segment.toList with
  | [letter, _] => String.ofList [letter, ':']
  | _ => segment

/-- Takes the last segment away; in files a drive stays. -/
def shorten (file : Bool) (segments : List String) : List String :=
  match segments with
  | [segment] => if file && isDrive segment then [segment] else []
  | segments => segments.dropLast

/-- Walks on from some segments.  Behind a dot segment at the end an empty
segment is left. -/
def walk (file : Bool) : List String → List String → List String
  | done, [] => done
  | done, segment :: rest =>
      let ending := if rest.isEmpty then [""] else []
      if isDoubleDot segment then walk file (shorten file done ++ ending) rest
      else if isSingleDot segment then walk file (done ++ ending) rest
      else if file && done.isEmpty && isDrive segment then walk file [normalDrive segment] rest
      else walk file (done ++ [segment]) rest

/-- The segments of a text as they are written. -/
def pieces (special : Bool) (cs : List Char) : List String :=
  (Text.splitAt '/' (cs.map fun c => if separates special c then '/' else c)).map
    (Percent.encode Percent.inPath)

/-- The path of a text, walked on from some segments. -/
def readPath (scheme : String) (done : List String) (cs : List Char) : List String :=
  walk (scheme == "file") done (pieces (isSpecial scheme) cs)

/-! ## Authorities -/

/-- Splits a list at the last element that satisfies a test. -/
def splitAtLast (p : Char → Bool) (cs : List Char) : Option (List Char × List Char) :=
  match cs.reverse.span (!p ·) with
  | (behind, _ :: before) => some (before.reverse, behind.reverse)
  | (_, []) => none

/-- The user name and password in front of an at sign. -/
def readUserinfo (cs : List Char) : String × String :=
  let (name, rest) := cs.span (· != ':')
  (Percent.encode Percent.inUserinfo name, Percent.encode Percent.inUserinfo (rest.drop 1))

/-- The host in front of its port: colons in brackets belong to the host. -/
def splitHost : Bool → List Char → List Char × List Char
  | _, [] => ([], [])
  | inside, c :: rest =>
      if c = ':' ∧ ¬ inside then ([], c :: rest)
      else
        let inside := if c = '[' then true else if c = ']' then false else inside
        let (host, rest) := splitHost inside rest
        (c :: host, rest)

/-- The port behind a host, and what stands behind it; the usual port of the
scheme is none.  A backslash ends a port in every scheme. -/
def readPort (scheme : String) : List Char → Except UrlError (Option Nat × List Char)
  | ':' :: cs =>
      let (digits, rest) := cs.span Char.isDigit
      let port := Numeral.value digits
      if 65535 < port ∨ ¬ (rest.isEmpty ∨ rest.head? = some '\\') then .error .invalidPort
      else
        let usual := digits.isEmpty || defaultPort? scheme = some port
        .ok (if usual then none else some port, rest)
  | rest => .ok (none, rest)

/-- The authority of an address: everything between the two slashes and the
path.  Answers also what is left of it behind the port. -/
def readAuthority (scheme : String) (cs : List Char) : Except UrlError (Url × List Char) := do
  let special := isSpecial scheme
  let (userinfo, cs) := match splitAtLast (· == '@') cs with
    | some (userinfo, cs) => (some userinfo, cs)
    | none => (none, cs)
  let (username, password) := readUserinfo (userinfo.getD [])
  let (name, port) := splitHost false cs
  if special && name.isEmpty then throw .emptyHost
  let host ← if special then Host.ofDomain name else Host.ofText name
  if host.isEmpty && !port.isEmpty then throw .emptyHost
  let (port, left) ← readPort scheme port
  if host.isEmpty && (username != "" || password != "") then throw .emptyHost
  return ({ scheme, username, password, host := some host, port }, left)

/-- Reads what stands behind the two slashes of an authority. -/
def afterSlashes (scheme : String) (cs : List Char) : Except UrlError Url := do
  let special := isSpecial scheme
  let (authority, rest) := cs.span fun c => !(separates special c || c == '?' || c == '#')
  if authority = ['@'] ∧ rest ≠ [] then throw .emptyHost
  let (url, left) ← readAuthority scheme authority
  let (path, tail) := splitPath (left ++ rest)
  let segments := match path with
    | [] => if special then [""] else []
    | c :: path => readPath scheme [] (if separates special c then path else c :: path)
  return withTail { url with path := .rooted segments } tail

/-! ## References -/

/-- Resolves a reference without a scheme against an address that is no file. -/
def readRelative (base : Url) (cs : List Char) : Except UrlError Url :=
  match cs with
  | [] => .ok { base with fragment := none }
  | c :: rest =>
      if c = '?' then .ok (withTail base cs)
      else if c = '#' then
        .ok { base with fragment := some (Percent.encode Percent.inFragment rest) }
      else if isSlash c then
        match rest with
        | d :: behind =>
            if isSlash d then
              if c = '/' ∧ d = '/' then afterSlashes base.scheme behind
              else afterSlashes base.scheme (cs.dropWhile isSlash)
            else
              let (path, tail) := splitPath rest
              .ok (withTail { base with path := .rooted (readPath base.scheme [] path) } tail)
        | [] => .ok (withTail { base with path := .rooted [""] } [])
      else
        let (path, tail) := splitPath cs
        .ok (withTail { base with
          path := .rooted (readPath base.scheme base.segments.dropLast path) } tail)

/-! ## Files -/

/-- Files never begin with an empty segment, unless it is the only one. -/
def withoutLeadingEmpty (segments : List String) : List String :=
  match segments.dropWhile (· == "") with
  | [] => [""]
  | segments => segments

def readFilePath (done : List String) (cs : List Char) : List String :=
  withoutLeadingEmpty (readPath "file" done cs)

/-- Whether a text begins with a drive and its path. -/
def beginsWithDrive (cs : List Char) : Bool :=
  isDrive (String.ofList (cs.takeWhile fun c => !(isSlash c || c == '?' || c == '#')))

def localFile (done : List String) (cs : List Char) : Url :=
  let (path, tail) := splitPath cs
  withTail { scheme := "file", path := .rooted (readFilePath done path) } tail

/-- A file behind two slashes: a host that is neither a drive nor the machine
itself, and its path. -/
def readFileHost (cs : List Char) : Except UrlError Url := do
  let (name, rest) := cs.span fun c => !(isSlash c || c == '?' || c == '#')
  let (path, tail) := splitPath rest
  if isDrive (String.ofList name) then return localFile [] cs
  let host ← if name.isEmpty then pure none else (Host.ofDomain name).map some
  let host := if host = some (.name "localhost") then none else host
  let segments := readPath "file" [] (path.drop 1)
  let host := if segments.head?.any isDrive then none else host
  return withTail { scheme := "file", host, path := .rooted (withoutLeadingEmpty segments) } tail

/-- Reads a file behind its scheme, or a reference against a file. -/
def readFile (base : Option Url) (cs : List Char) : Except UrlError Url :=
  match cs with
  | c :: d :: rest =>
      if isSlash c && isSlash d then readFileHost rest
      else readSingle base cs
  | _ => readSingle base cs
where
  /-- Reads a file that does not begin with two slashes. -/
  readSingle (base : Option Url) (cs : List Char) : Except UrlError Url :=
    match cs, base with
    | [], none => .ok { scheme := "file", path := .rooted [""] }
    | [], some base => .ok { base with fragment := none }
    | c :: rest, base =>
        if isSlash c then
          let kept := match base with
            | some base => if beginsWithDrive rest then none else some base
            | none => none
          let done := match kept.bind (·.segments.head?) with
            | some first => if isDrive first then [first] else []
            | none => []
          let host := if done.isEmpty then kept.bind (·.host) else none
          .ok { localFile done rest with host }
        else
          match base with
          | none => .ok (localFile [] cs)
          | some base =>
              if c = '?' then .ok (withTail base cs)
              else if c = '#' then
                .ok { base with fragment := some (Percent.encode Percent.inFragment rest) }
              else if beginsWithDrive cs then .ok (localFile [] cs)
              else .ok { localFile (shorten true base.segments) cs with host := base.host }

/-! ## Addresses -/

/-- Reads an address without an authority. -/
def readHostless (scheme : String) (cs : List Char) : Url :=
  let (path, tail) := splitPath cs
  match path with
  | '/' :: path => withTail { scheme, path := .rooted (readPath scheme [] path) } tail
  | _ => withTail { scheme, path := .rootless (Percent.encode Percent.isControl path) } tail

def readBehindScheme (base : Option Url) (scheme : String) (cs : List Char) :
    Except UrlError Url :=
  if scheme = "file" then readFile (base.filter (·.scheme = "file")) cs
  else if isSpecial scheme then
    match base.filter fun base => base.scheme = scheme ∧ (cs.takeWhile isSlash).length < 2 with
    | some base => readRelative base cs
    | none => afterSlashes scheme (cs.dropWhile isSlash)
  else
    match cs with
    | '/' :: '/' :: rest => afterSlashes scheme rest
    | _ => .ok (readHostless scheme cs)

/-- Reads an address, or a reference where there is a base. -/
def read (base : Option Url) (text : String) : Except UrlError Url :=
  let cs := significant text.toList
  match scheme? cs with
  | some (scheme, rest) => readBehindScheme base scheme rest
  | none =>
      match base with
      | none => .error .relativeWithoutBase
      | some base =>
          match cs with
          | '#' :: fragment =>
              .ok { base with fragment := some (Percent.encode Percent.inFragment fragment) }
          | _ =>
              if base.isRootless then .error .relativeToRootless
              else if base.scheme = "file" then readFile (some base) cs
              else readRelative base cs

/-- Reads an absolute address. -/
def parse (text : String) : Except UrlError Url :=
  read none text

/-- Resolves a reference against an address. -/
def join (base : Url) (reference : String) : Except UrlError Url :=
  read (some base) reference

end LivePage.Url
