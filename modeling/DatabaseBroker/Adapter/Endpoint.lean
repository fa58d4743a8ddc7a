import DatabaseBroker.Text.Blank
import DatabaseBroker.Text.Numeral

/-!
# Where an adapter listens

The address of an adapter is a URL of the scheme `http`, or an authority alone. `Endpoint.ofAddress?` takes host and port
from it and drops everything else; the port is 80 unless the address ends its authority with another.

An authority is user information up to its last at sign, a host, and a port after a colon. Colons and percent signs are
counted anew after every at sign and every closing bracket: user information may hold several colons and be
percent-encoded, and so may what stands in brackets, while after it there is one colon at most and no percent sign.
-/

namespace DatabaseBroker

/-- A host and a port. -/
structure Endpoint where
  host : String
  port : UInt16
deriving DecidableEq

namespace Endpoint

/-- The endpoint as an authority. -/
def text (e : Endpoint) : String := e.host ++ ":" ++ toString e.port.toNat

/-- The greatest number of bytes of an address. -/
def maxLength : Nat := 65534

/-- The port of an address that names none. -/
def defaultPort : UInt16 := 80

/-! ## Authorities -/

/-- A mark that may stand in an authority beside letters and digits. -/
def isAuthorityMark (c : Char) : Bool := "!$&'()*+,-.;=_~".toList.contains c

/-- What was met of an authority so far. -/
structure Scan where
  /-- Colons since the last at sign or closing bracket. -/
  colons : Nat
  /-- Whether a percent sign was met since then. -/
  percent : Bool
  opened : Bool
  closed : Bool
deriving DecidableEq

/-- More colons than an address in brackets needs are refused. -/
def maxColons : Nat := 8

/-- One more character of an authority. -/
def Scan.step (s : Scan) (c : Char) : Option Scan :=
  if c = ':' then if s.colons < maxColons then some { s with colons := s.colons + 1 } else none
  else if c = '[' then if s.percent || s.opened then none else some { s with opened := true }
  else if c = ']' then
    if s.opened && !s.closed then some { s with closed := true, colons := 0, percent := false } else none
  else if c = '@' then some { s with colons := 0, percent := false }
  else if c = '%' then some { s with percent := true }
  else if c.isAlphanum || isAuthorityMark c then some s
  else none

/-- Whether a row of characters is an authority. -/
def isAuthority (cs : List Char) : Bool :=
  match cs.foldlM Scan.step ⟨0, false, false, false⟩ with
  | some s => s.opened == s.closed && decide (s.colons ≤ 1) && !s.percent && cs.getLast? != some '@'
  | none => false

/-- What follows the last occurrence of a mark, if it occurs. -/
def afterLast? (mark : Char) (cs : List Char) : Option (List Char) :=
  if cs.contains mark then some ((cs.reverse.takeWhile (· != mark)).reverse) else none

/-- The host of an authority: what stands in brackets where it begins with one, and what stands before a colon
otherwise. -/
def hostOf (authority : List Char) : List Char :=
  let cs := (afterLast? '@' authority).getD authority
  if cs.head? = some '[' then cs.takeWhile (· != ']') ++ [']'] else cs.takeWhile (· != ':')

/-- A port: digits, with one plus sign allowed before them, in the range of ports. -/
def portValue? (cs : List Char) : Option UInt16 :=
  (Text.Numeral.toNat? (if cs.head? = some '+' then cs.tail else cs)).bind fun n =>
    if h : n < UInt16.size then some (UInt16.ofNatLT n h) else none

/-- The endpoint of an authority with a host. -/
def ofAuthority? (cs : List Char) : Option Endpoint :=
  let host := hostOf cs
  if isAuthority cs && !host.isEmpty then
    some ⟨String.ofList host, ((afterLast? ':' cs).bind portValue?).getD defaultPort⟩
  else none

/-! ## Paths -/

/-- A character that may stand in a path. -/
def isPathChar (c : Char) : Bool := 0x20 < c.toNat && !"#<>?`".toList.contains c

/-- A character that may stand in a query. -/
def isQueryChar (c : Char) : Bool := 0x20 < c.toNat && !"\"#<>".toList.contains c

/-- A path with its query, without the fragment after them; none when a character has no place in it. -/
def pathAndQuery? (cs : List Char) : Option (List Char) :=
  let (path, rest) := cs.span fun c => c != '?' && c != '#'
  if !path.all isPathChar then none
  else match rest with
    | '?' :: rest =>
      let query := rest.takeWhile (· != '#')
      if query.all isQueryChar then some (path ++ '?' :: query) else none
    | _ => some path

/-! ## Addresses -/

/-- What follows the scheme, if there is one. -/
def afterScheme? (cs : List Char) : Option (List Char) :=
  if (cs.take 7).map Char.toLower = "http://".toList then some (cs.drop 7) else none

/-- The endpoint of an address. -/
def ofAddress? (address : String) : Option Endpoint :=
  let address := Text.trim address
  if maxLength < address.utf8ByteSize ∨ address = "*" then none
  else match afterScheme? address.toList with
    | none => ofAuthority? address.toList
    | some cs =>
      let (authority, rest) := cs.span fun c => c != '/' && c != '?' && c != '#'
      if authority.isEmpty ∨ pathAndQuery? rest = none then none else ofAuthority? authority

end Endpoint

end DatabaseBroker
