import RunControl.Text.Utf8

/-!
The URLs of endpoints, and which of them can be used.

A host may already carry its scheme. A URL is refused for a character that may not
stand in it or for an authority that names no single host and port.
-/

namespace RunControl.Endpoint

/-- Whether a host carries its scheme. -/
def hasScheme (host : String) : Bool :=
  "http://".toList.isPrefixOf host.toList || "https://".toList.isPrefixOf host.toList

/-- The URL of an endpoint. -/
def url (host : String) (port : UInt16) : String :=
  (if hasScheme host then host else "http://" ++ host) ++ ":" ++ toString port.toNat

/-- Why a URL cannot be used. -/
inductive UrlFault where
  | character
  | authority
  | form
  | tooLong
  deriving DecidableEq, Repr

/-- The text of a fault. -/
def UrlFault.message : UrlFault → String
  | .character => "invalid uri character"
  | .authority => "invalid authority"
  | .form => "invalid format"
  | .tooLong => "uri too long"

/-! ### Authorities -/

/-- The ASCII characters other than `%` that may not stand in an authority. -/
def refused : List Char :=
  [' ', '"', '<', '>', '\\', '^', '\x60', '\x7b', '|', '\x7d', '\x7f']

/-- Whether a character may stand in an authority. -/
def isAuthorityChar (c : Char) : Bool :=
  0x20 < c.toNat && c.toNat < 0x80 && !refused.contains c

/-- What was seen of an authority so far. Colons and percent signs before an `@` or a
closing bracket do not belong to a host name. -/
structure Seen where
  colons : Nat
  opened : Bool
  closed : Bool
  percent : Bool
  atSign : Bool
  deriving DecidableEq, Repr

/-- Nothing was seen. -/
def Seen.nothing : Seen :=
  ⟨0, false, false, false, false⟩

/-- What one more character adds. -/
def Seen.add (s : Seen) (c : Char) : Except UrlFault Seen :=
  let s' := { s with atSign := false }
  if c = ':' then
    if 8 ≤ s.colons then .error .authority else .ok { s' with colons := s.colons + 1 }
  else if c = '[' then
    if s.percent || s.opened then .error .authority else .ok { s' with opened := true }
  else if c = ']' then
    if !s.opened || s.closed then .error .authority
    else .ok { s' with closed := true, colons := 0, percent := false }
  else if c = '@' then .ok { s with atSign := true, colons := 0, percent := false }
  else if c = '%' then .ok { s' with percent := true }
  else if isAuthorityChar c then .ok s'
  else .error .character

/-- Whether a complete authority is in order. -/
def Seen.check (s : Seen) : Except UrlFault Unit :=
  if s.opened != s.closed || 1 < s.colons || s.atSign || s.percent then .error .authority
  else .ok ()

/-- Whether a character ends the authority. -/
def endsAuthority (c : Char) : Bool :=
  c = '/' || c = '?' || c = '#'

/-! ### Paths -/

/-- Whether a character may stand in a path. Every one beyond ASCII may. -/
def isPathChar (c : Char) : Bool :=
  let n := c.toNat
  n = 0x21 || n = 0x22 || (0x24 ≤ n && n ≤ 0x3B) || n = 0x3D || (0x40 ≤ n && n ≤ 0x5F) ||
    (0x61 ≤ n && n ≤ 0x7E) || 0x80 ≤ n

/-- Whether a character may stand in a query. -/
def isQueryChar (c : Char) : Bool :=
  let n := c.toNat
  n = 0x21 || (0x24 ≤ n && n ≤ 0x3B) || n = 0x3D || (0x3F ≤ n && n ≤ 0x7E) || 0x80 ≤ n

/-- Whether a path with its query is in order; a fragment is not looked at. -/
def pathFault? (path : List Char) : Option UrlFault :=
  let shown := path.takeWhile (· != '#')
  let query := shown.dropWhile (· != '?')
  if (shown.takeWhile (· != '?')).all isPathChar && query.tail.all isQueryChar then none
  else some .character

/-- Why a URL cannot be used, if it cannot. -/
def urlFault? (url : String) : Option UrlFault :=
  if 65534 < (Utf8.encode url).length then some .tooLong
  else
    let chars := url.toList
    let rest := chars.drop (if "https://".toList.isPrefixOf chars then 8 else 7)
    let authority := rest.takeWhile (! endsAuthority ·)
    let path := rest.dropWhile (! endsAuthority ·)
    match do (← authority.foldlM Seen.add .nothing).check with
    | .error fault => some fault
    | .ok () => if authority.isEmpty then some .form else pathFault? path

end RunControl.Endpoint
