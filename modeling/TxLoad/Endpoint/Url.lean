import TxLoad.Bytes
import TxLoad.Text.Numeral

/-! # Addresses of endpoints

An address needs a scheme. Behind the scheme of a web address stands an authority, which names a
host, and after that the target of a request: a path, in which the segments `.` and `..` are
resolved, and a query. Characters that may not stand in a target are written as percent signs and
the digits of their bytes. The fragment is not sent. Requests can be sent to web addresses only.
-/

namespace TxLoad

structure Url where
  scheme : String
  authority : Option String
  target : String
  fragment : Option String
  deriving DecidableEq, Repr, Inhabited

/-- Why a text is no address. -/
inductive UrlError
  | relative
  | noHost
  | badHost
  | badPort
  deriving DecidableEq, Repr

def UrlError.message : UrlError → String
  | .relative => "relative URL without a base"
  | .noHost => "empty host"
  | .badHost => "invalid international domain name"
  | .badPort => "invalid port number"

namespace Url

def isSchemeChar (c : Char) : Bool := c.isAlphanum || c = '+' || c = '-' || c = '.'

/-- The scheme of a text and what follows the colon. -/
def splitScheme? (text : List Char) : Option (List Char × List Char) :=
  match text with
  | [] => none
  | first :: _ =>
    if first.isAlpha then
      match text.dropWhile isSchemeChar with
      | ':' :: rest => some (text.takeWhile isSchemeChar, rest)
      | _ => none
    else none

def isSlash (c : Char) : Bool := c = '/' || c = '\\'

/-- Control characters and spaces at the ends are not part of an address, and neither are tabs and
line ends within it. -/
def clean (text : List Char) : List Char :=
  let isBlank (c : Char) : Bool := c.toNat ≤ 0x20
  ((text.dropWhile isBlank).reverse.dropWhile isBlank).reverse.filter fun c =>
    c ≠ '\t' && c ≠ '\n' && c ≠ '\r'

def percent (c : Char) : List Char :=
  (String.singleton c).toUTF8.toList.flatMap fun byte =>
    ['%', (Text.hexDigit (byte.toNat / 16)).toUpper, (Text.hexDigit (byte.toNat % 16)).toUpper]

def escape (reserved : List Char) (text : List Char) : List Char :=
  text.flatMap fun c =>
    if c.toNat ≤ 0x20 || 0x7F ≤ c.toNat || reserved.contains c then percent c else [c]

def pathReserved : List Char := ['"', '#', '<', '>', '?', '\x60', '\x7b', '\x7d']

def queryReserved : List Char := ['"', '#', '<', '>', '\'']

def isDot (segment : String) : Bool := ["." , "%2e"].contains segment.toLower

def isDoubleDot (segment : String) : Bool :=
  ["..", ".%2e", "%2e.", "%2e%2e"].contains segment.toLower

/-- The segments of a path without dots; `done` holds the segments before, the last one first. -/
def resolve (done : List String) : List String → List String
  | [] => done.reverse
  | [segment] =>
    if isDoubleDot segment then ("" :: done.tail).reverse
    else if isDot segment then ("" :: done).reverse
    else (segment :: done).reverse
  | segment :: rest =>
    if isDoubleDot segment then resolve done.tail rest
    else if isDot segment then resolve done rest
    else resolve (segment :: done) rest

def resolvePath (path : List Char) : String :=
  let segments := String.ofList (path.map fun c => if c = '\\' then '/' else c) |>.splitOn "/"
  let segments := match segments with
    | "" :: rest => rest
    | segments => segments
  "/" ++ String.intercalate "/" (resolve [] segments)

/-- The ports that the schemes of the web and their relatives imply. -/
def impliedPorts : List (String × String) :=
  [("http", "80"), ("https", "443"), ("ws", "80"), ("wss", "443"), ("ftp", "21")]

/-- The scheme belongs to addresses that need a host. -/
def needsHost (scheme : String) : Bool := (impliedPorts.lookup scheme).isSome

/-- The part before the last occurrence of a character, with it, and the part after. -/
def splitLast (c : Char) (text : List Char) : List Char × List Char :=
  let reversed := text.reverse
  ((reversed.dropWhile (· ≠ c)).reverse, (reversed.takeWhile (· ≠ c)).reverse)

/-- The host, and the port behind a colon. The colons of a host between brackets are its own. -/
def splitPort (text : List Char) : List Char × Option (List Char) :=
  let (bracketed, rest) := splitLast ']' text
  match rest.dropWhile (· ≠ ':') with
  | [] => (text, none)
  | _ :: port => (bracketed ++ rest.takeWhile (· ≠ ':'), some port)

def isForbidden (c : Char) : Bool :=
  c.toNat ≤ 0x20 || c.toNat = 0x7F
    || ['"', '%', '<', '>', '^', '\x60', '|', '\x7b', '\x7d', '[', ']', '@', '\\'].contains c

def checkHost (host : List Char) : Except UrlError Unit :=
  if host.isEmpty then .error .noHost
  else if host.head? ≠ some '[' && host.any isForbidden then .error .badHost
  else .ok ()

def isPort (port : List Char) : Bool :=
  port.isEmpty || ((Text.digitsValue? port).filter (· < 65536)).isSome

/-- An authority in small letters, without the port that the scheme implies. -/
def normalAuthority (scheme : String) (authority : List Char) : Except UrlError String := do
  let (user, text) := splitLast '@' authority
  let (host, port) := splitPort text
  if needsHost scheme then checkHost host
  let shown ← match port with
    | none => pure []
    | some port =>
      if !isPort port then throw .badPort
      else if port.isEmpty || impliedPorts.lookup scheme = some (String.ofList port) then pure []
      else pure (':' :: port)
  return String.ofList (user ++ host.map Char.toLower ++ shown)

/-- The authority and what follows it. Where a host is needed, any number of slashes may come before
it. -/
def splitAuthority (scheme : String) (text : List Char) : Option (List Char) × List Char :=
  let isEnd (c : Char) : Bool := isSlash c || c = '?' || c = '#'
  if needsHost scheme then
    let text := text.dropWhile isSlash
    (some (text.takeWhile (!isEnd ·)), text.dropWhile (!isEnd ·))
  else
    match text with
    | '/' :: '/' :: text => (some (text.takeWhile (!isEnd ·)), text.dropWhile (!isEnd ·))
    | text => (none, text)

def isTargetEnd (c : Char) : Bool := c = '?' || c = '#'

/-- The path as it is sent. Where no host is needed, there may be none. -/
def targetPath (scheme : String) (hasAuthority : Bool) (path : List Char) : String :=
  if hasAuthority && (needsHost scheme || !path.isEmpty) then resolvePath (escape pathReserved path)
  else String.ofList (escape pathReserved path)

def ofText (text : String) : Except UrlError Url := do
  let some (scheme, rest) := splitScheme? (clean text.toList) | throw .relative
  let scheme := (String.ofList scheme).toLower
  let (authority, rest) := splitAuthority scheme rest
  let authority ← authority.mapM (normalAuthority scheme)
  let path := targetPath scheme authority.isSome (rest.takeWhile (!isTargetEnd ·))
  let rest := rest.dropWhile (!isTargetEnd ·)
  let query := match rest.takeWhile (· ≠ '#') with
    | [] => ""
    | _ :: query => "?" ++ String.ofList (escape queryReserved query)
  let fragment := match rest.dropWhile (· ≠ '#') with
    | [] => none
    | _ :: fragment => some (String.ofList (escape ['"', '<', '>', '\x60'] fragment))
  return ⟨scheme, authority, path ++ query, fragment⟩

def text (u : Url) : String :=
  u.scheme ++ ":" ++ (u.authority.elim "" fun authority => "//" ++ authority) ++ u.target
    ++ match u.fragment with
      | none => ""
      | some fragment => "#" ++ fragment

/-- Why no request is sent to an address, if none is. -/
def unsendable? (u : Url) : Option String :=
  if u.authority.isSome && (u.scheme = "http" || u.scheme = "https") then none
  else some ("builder error for url (" ++ u.text ++ "): URL scheme is not allowed")

end Url

end TxLoad
