import LivePage.Number.Numeral
import LivePage.Text.Cut
import LivePage.Text.Hidden
import LivePage.Url.Letters
import LivePage.Url.Percent
import LivePage.Url.Punycode

/-!
# Hosts

The host of an address is a name or a number.  In the special schemes a name is
a domain: it is decoded, folded to small letters and written in ASCII, and a
name whose last label is a number has to be an IPv4 address.  In other schemes a
name stands as it is.  An IPv6 address stands in brackets.
-/

namespace LivePage

/-- Why a text is no address. -/
inductive UrlError where
  | emptyHost
  | invalidName
  | invalidPort
  | invalidIpv4
  | invalidIpv6
  | invalidCharacter
  | relativeWithoutBase
  | relativeToRootless
deriving DecidableEq, Repr, Inhabited

namespace UrlError

def message : UrlError → String
  | emptyHost => "empty host"
  | invalidName => "invalid international domain name"
  | invalidPort => "invalid port number"
  | invalidIpv4 => "invalid IPv4 address"
  | invalidIpv6 => "invalid IPv6 address"
  | invalidCharacter => "invalid domain character"
  | relativeWithoutBase => "relative URL without a base"
  | relativeToRootless => "relative URL with a cannot-be-a-base base"

end UrlError

namespace Url

/-- The host of an address. -/
inductive Host where
  | name (text : String)
  | ipv4 (address : Nat)
  | ipv6 (pieces : List Nat)
deriving DecidableEq, Repr, Inhabited

/-! ## Domain names -/

/-- The characters that no domain may hold once it is decoded. -/
def isForbiddenInDomain (c : Char) : Bool :=
  c.toNat ≤ 0x20 || c.toNat == 0x7F ||
    ['#', '/', ':', '<', '>', '?', '@', '[', '\\', ']', '^', '|', '%'].contains c

/-- Whether a character beyond ASCII may stand in a label. -/
def isLabelChar (c : Char) : Bool :=
  c.toNat < 0x80 || Letters.isMark c || !Text.isHidden c

def asciiLabel? (label : List Char) : Option (List Char) :=
  if "xn--".toList.isPrefixOf label then
    match Punycode.decode? (label.drop 4) with
    | some decoded =>
        if decoded.any (0x80 ≤ ·.toNat) && decoded.all isLabelChar &&
            decoded.all (fun c => Letters.fold c = c) then some label
        else none
    | none => none
  else if label.all (·.toNat < 0x80) then some label
  else if label.all isLabelChar && !(label.head?.any Letters.isMark) then
    some ("xn--".toList ++ Punycode.encode label)
  else none

def joinLabels (labels : List (List Char)) : List Char :=
  ['.'].intercalate labels

def asciiDomain? (cs : List Char) : Option (List Char) := do
  let decoded ← Percent.decode? cs
  let folded := (decoded.filter fun c => !Letters.isIgnored c).map fun c =>
    if Letters.isStop c then '.' else Letters.fold c
  let labels ← (Text.splitAt '.' folded).mapM asciiLabel?
  let domain := joinLabels labels
  if domain.any isForbiddenInDomain then none else some domain

/-! ## IPv4 addresses -/

/-- The value of digits in a base. -/
def valueIn (base : Nat) (cs : List Char) : Option Nat :=
  cs.foldlM (fun n c => do
    let value ← Percent.hexValue? c
    if value < base then some (n * base + value) else none) 0

/-- One number of an IPv4 address: hexadecimal behind `0x`, octal behind another
zero. -/
def ipv4Number? : List Char → Option Nat
  | [] => none
  | '0' :: 'x' :: digits => valueIn 16 digits
  | '0' :: 'X' :: digits => valueIn 16 digits
  | ['0'] => some 0
  | '0' :: digits => valueIn 8 digits
  | digits => valueIn 10 digits

def withoutLastEmpty (labels : List (List Char)) : List (List Char) :=
  if labels.getLast? = some [] then labels.dropLast else labels

/-- Whether the last label of a domain is a number. -/
def endsInNumber (domain : List Char) : Bool :=
  match (withoutLastEmpty (Text.splitAt '.' domain)).getLast? with
  | none => false
  | some label => (label ≠ [] && label.all Char.isDigit) || (ipv4Number? label).isSome

/-- The address that its numbers make: the last one fills all bytes that the
others leave. -/
def ipv4Address? (numbers : List Nat) : Option Nat :=
  match numbers.reverse with
  | [] => none
  | last :: front =>
      let front := front.reverse
      if 4 ≤ front.length ∨ front.any (255 < ·) ∨ Nat.pow 256 (4 - front.length) ≤ last then none
      else some (front.foldl (fun n byte => n * 256 + byte) 0 * Nat.pow 256 (4 - front.length) + last)

/-- The address that a domain writes. -/
def ipv4? (domain : List Char) : Option Nat := do
  let labels := withoutLastEmpty (Text.splitAt '.' domain)
  if 4 < labels.length then none
  else ipv4Address? (← labels.mapM ipv4Number?)

/-- The four bytes of an address with full stops between them. -/
def ipv4Text (address : Nat) : String :=
  ".".intercalate ([24, 16, 8, 0].map fun shift => Numeral.text (address / Nat.pow 2 shift % 256))

/-! ## IPv6 addresses -/

/-- A group of an IPv6 address: one to four hexadecimal digits. -/
def ipv6Group? (cs : List Char) : Option Nat :=
  if cs = [] ∨ 4 < cs.length then none else valueIn 16 cs

/-- One byte of the dotted form, without leading zeros. -/
def dottedByte? (cs : List Char) : Option Nat := do
  let n ← Numeral.nat? cs
  if n ≤ 255 ∧ (cs.head? ≠ some '0' ∨ cs.length = 1) then some n else none

/-- The two groups that the dotted form stands for. -/
def dottedGroups? (cs : List Char) : Option (List Nat) := do
  match ← (Text.splitAt '.' cs).mapM dottedByte? with
  | [a, b, c, d] => some [a * 256 + b, c * 256 + d]
  | _ => none

/-- The groups of one side of an address; the last group of all may be in the
dotted form. -/
def ipv6Groups? (last : Bool) (cs : List Char) : Option (List Nat) :=
  if cs = [] then some []
  else
    let groups := Text.splitAt ':' cs
    let ending := groups.getLast?.getD []
    if last ∧ ending.contains '.' then do
      return (← groups.dropLast.mapM ipv6Group?) ++ (← dottedGroups? ending)
    else groups.mapM ipv6Group?

/-- The eight groups of an address; two colons in a row stand for the groups
that are left out. -/
def ipv6? (cs : List Char) : Option (List Nat) := do
  match Text.cutAtPair ':' cs with
  | none =>
      let groups ← ipv6Groups? true cs
      if groups.length = 8 then some groups else none
  | some (before, behind) =>
      let front ← ipv6Groups? false before
      let back ← ipv6Groups? true behind
      if front.length + back.length ≤ 7 then
        some (front ++ List.replicate (8 - front.length - back.length) 0 ++ back)
      else none

/-- The length of the run of zeros that some groups begin with. -/
def zeroRun (groups : List Nat) : Nat :=
  (groups.takeWhile (· = 0)).length

/-- The start and length of the first longest run of two or more zeros. -/
def longestZeroRun (groups : List Nat) : Option (Nat × Nat) :=
  (List.range groups.length).foldl (fun best start =>
    let length := zeroRun (groups.drop start)
    if 2 ≤ length ∧ (best.all fun found => found.2 < length) then some (start, length)
    else best) none

/-- Groups with colons between them. -/
def groupsText (groups : List Nat) : String :=
  ":".intercalate (groups.map fun n => String.ofList (Nat.toDigits 16 n))

/-- The text of an address, with its first longest run of zeros left out. -/
def ipv6Text (groups : List Nat) : String :=
  match longestZeroRun groups with
  | none => groupsText groups
  | some (start, length) =>
      groupsText (groups.take start) ++ "::" ++ groupsText (groups.drop (start + length))

namespace Host

def ofBrackets (cs : List Char) : Except UrlError Host :=
  if cs.getLast? = some ']' then
    match ipv6? cs.dropLast with
    | some pieces => .ok (ipv6 pieces)
    | none => .error .invalidIpv6
  else .error .invalidIpv6

/-- Reads the host of a special scheme. -/
def ofDomain (cs : List Char) : Except UrlError Host :=
  match cs with
  | '[' :: rest => ofBrackets rest
  | _ =>
      match asciiDomain? cs with
      | none => .error .invalidName
      | some domain =>
          if domain = [] then .error .emptyHost
          else if endsInNumber domain then
            match ipv4? domain with
            | some address => .ok (ipv4 address)
            | none => .error .invalidIpv4
          else .ok (name (String.ofList domain))

/-- The characters that no host may hold as it stands. -/
def isForbidden (c : Char) : Bool :=
  c.toNat == 0 ||
    ['\t', '\n', '\r', ' ', '#', '/', ':', '<', '>', '?', '@', '[', '\\', ']', '^', '|'].contains c

/-- Reads the host of any other scheme. -/
def ofText (cs : List Char) : Except UrlError Host :=
  match cs with
  | '[' :: rest => ofBrackets rest
  | _ =>
      if cs.any isForbidden then .error .invalidCharacter
      else .ok (name (Percent.encode Percent.isControl cs))

/-- The text of a host inside an address. -/
def text : Host → String
  | name text => text
  | ipv4 address => ipv4Text address
  | ipv6 pieces => "[" ++ ipv6Text pieces ++ "]"

/-- Whether there is no name. -/
def isEmpty : Host → Bool
  | name text => text.isEmpty
  | _ => false

end Host

end Url

end LivePage
