import ErCanvas.Text.Digit

/-! # Targets of requests

The target of a request is an address: a scheme and a host, which may both be left out, a path, and
what is asked of it. A path is read with its escaped characters decoded and without the slashes in
front of it.

* `Address.ofText`: the parts of an address.
* `Target.ofText`: what of an address decides where a request goes. -/

namespace ErCanvas.Web

/-! ### Addresses -/

/-- The parts of an address. What stands behind a number sign is no part. -/
structure Address where
  scheme : Option (List Char)
  path : List Char
  query : List Char
deriving DecidableEq, Repr

namespace Address

def isSchemeChar (c : Char) : Bool := c.isAlphanum || c == '+' || c == '-' || c == '.'

/-- The scheme of an address, in lower case, and what is behind it. -/
def splitScheme (cs : List Char) : Option (List Char) × List Char :=
  let name := cs.takeWhile isSchemeChar
  match name, cs.dropWhile isSchemeChar with
  | c :: _, ':' :: rest => if c.isAlpha then (some (name.map Char.toLower), rest) else (none, cs)
  | _, _ => (none, cs)

/-- The character ends the host. -/
def endsHost (c : Char) : Bool := c == '/' || c == '?' || c == '#'

/-- What is behind the host of an address, if there is one. -/
def dropHost : List Char → List Char
  | '/' :: '/' :: rest => rest.dropWhile (!endsHost ·)
  | cs => cs

/-- The character is left out of an address wherever it stands. -/
def isIgnored (c : Char) : Bool := c == '\t' || c == '\n' || c == '\r'

/-- The parts of an address. -/
def ofText (cs : List Char) : Address :=
  let (scheme, rest) := splitScheme (cs.filter (!isIgnored ·))
  let shown := (dropHost rest).takeWhile (· != '#')
  ⟨scheme, shown.takeWhile (· != '?'), (shown.dropWhile (· != '?')).drop 1⟩

end Address

/-! ### Paths -/

/-- The text with its escaped bytes decoded. A byte beyond ASCII stays on its own, since it decides
nothing about a path. -/
def decodeEscapes : List Char → List Char
  | '%' :: a :: b :: rest =>
    match Text.hexValue? a, Text.hexValue? b with
    | some m, some n => Char.ofNat (m * 16 + n) :: decodeEscapes rest
    | _, _ => '%' :: decodeEscapes (a :: b :: rest)
  | c :: rest => c :: decodeEscapes rest
  | [] => []

/-- The path with one slash for every run of slashes. -/
def mergeSlashes : List Char → List Char
  | [] => []
  | c :: rest =>
    if c = '/' && rest.head? = some '/' then mergeSlashes rest else c :: mergeSlashes rest

/-! ### Targets -/

/-- What of an address decides where a request goes. -/
structure Target where
  /-- The path, without slashes in front. -/
  path : List Char
  /-- The address asks for a connection that stays open in both directions. -/
  isTwoWay : Bool
deriving DecidableEq, Repr

/-- The schemes of connections that stay open in both directions. -/
def isTwoWayScheme (scheme : List Char) : Bool := scheme == ['w', 's'] || scheme == ['w', 's', 's']

/-- The target of a request. Behind the host of an address there is an address again. -/
def Target.ofText (text : String) : Target :=
  let address := Address.ofText text.toList
  let query := if address.query.isEmpty then [] else '?' :: address.query
  let path := (Address.ofText (address.path ++ query)).path
  ⟨(decodeEscapes path).dropWhile (· == '/'), address.scheme.any isTwoWayScheme⟩

end ErCanvas.Web
