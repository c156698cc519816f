import TrustedHtml.Url.Host
import TrustedHtml.Url.Path

/-!
# URLs of the Web

A URL is read as browsers read it: blanks around it are dropped, tabs and line breaks in it
are ignored, its scheme and host are brought into a canonical form, and characters that
cannot stand where they do are percent-encoded. The schemes of the web have a host, accept
backslashes for slashes, and leave out the port that is their own.

## Main definitions

* `Web.Authority` — what stands between the two slashes and the path.
* `Web.readAuthority` — reads it.
* `Web.absolute` — reads a URL with a scheme.
* `Web.relative` — reads a URL relative to a page on the web.
-/

namespace TrustedHtml.Url.Web

/-! ### Schemes -/

/-- Schemes whose URLs have a host with a domain name. -/
def isSpecial (scheme : String) : Bool :=
  ["http", "https", "ws", "wss", "ftp"].contains scheme

/-- The port that need not be written. -/
def defaultPort? (scheme : String) : Option Nat :=
  match scheme with
  | "http" | "ws" => some 80
  | "https" | "wss" => some 443
  | "ftp" => some 21
  | _ => none

/-- The characters of a text that count: without blanks and control characters around it,
and without tabs and line breaks in it. -/
def significant (text : String) : List Char :=
  let outside (c : Char) := c.toNat ≤ 0x20
  let trimmed := ((text.toList.dropWhile outside).reverse.dropWhile outside).reverse
  trimmed.filter fun c => !(c == '\t' || c == '\n' || c == '\r')

/-- The scheme, in lower case, and what follows its colon. -/
def scheme? (cs : List Char) : Option (String × List Char) :=
  let isSchemeChar (c : Char) := c.isAlphanum || c == '+' || c == '-' || c == '.'
  match cs.takeWhile isSchemeChar, cs.dropWhile isSchemeChar with
  | first :: others, ':' :: rest =>
    if first.isAlpha then some (String.ofList ((first :: others).map Char.toLower), rest)
    else none
  | _, _ => none

/-! ### The authority -/

/-- A character that ends the authority. -/
def endsAuthority (special : Bool) (c : Char) : Bool :=
  c == '/' || c == '?' || c == '#' || (special && c == '\\')

/-- The part before the last `@`, if there is one, and the rest. -/
def splitCredentials (cs : List Char) : Option (List Char) × List Char :=
  if cs.contains '@' then
    let host := (cs.reverse.takeWhile (· != '@')).reverse
    (some (cs.take (cs.length - host.length - 1)), host)
  else (none, cs)

/-- User name and password, encoded, with the signs behind them. A password follows the
first colon. -/
def credentials (cs : List Char) : List Char :=
  let user := cs.takeWhile (· != ':')
  let password := (cs.dropWhile (· != ':')).drop 1
  let mark := if user.isEmpty && password.isEmpty then [] else ['@']
  let password :=
    if password.isEmpty then [] else ':' :: Percent.encode Percent.userinfo password
  Percent.encode Percent.userinfo user ++ password ++ mark

/-- The host, which a colon ends unless it is in brackets, and the rest. -/
def splitHost (bracketed : Bool) : List Char → List Char × List Char
  | [] => ([], [])
  | c :: rest =>
    if c == ':' && !bracketed then ([], c :: rest)
    else
      let bracketed := if c == '[' then true else if c == ']' then false else bracketed
      let (host, others) := splitHost bracketed rest
      (c :: host, others)

/-- The number of a port, if any digit is given, and what follows it. -/
def readPort (cs : List Char) : Except Error (Option Nat × List Char) :=
  let digits := cs.takeWhile Char.isDigit
  let rest := cs.dropWhile Char.isDigit
  let number := digits.foldl (fun value c => value * 10 + (c.toNat - 48)) 0
  if 65535 < number then .error .invalidPort
  else if rest.head?.all (['/', '\\', '?', '#'].contains ·) then
    .ok (if digits.isEmpty then none else some number, rest)
  else .error .invalidPort

/-- What stands between the two slashes and the path. -/
structure Authority where
  /-- User name and password as they are written, possibly empty. -/
  credentials : List Char
  host : Host
  /-- The port, unless it is the default one. -/
  port : Option Nat
deriving DecidableEq, Repr

/-- How an authority is written. -/
def Authority.text (a : Authority) : List Char :=
  let port := match a.port with
    | some number => ':' :: (toString number).toList
    | none => []
  a.credentials ++ a.host.text.toList ++ port

/-- Read the authority behind two slashes, and give what follows it. -/
def readAuthority (scheme : String) (cs : List Char) :
    Except Error (Authority × List Char) := do
  let special := isSpecial scheme
  let (given, hostAndPort) := splitCredentials (cs.takeWhile (!endsAuthority special ·))
  let rest := cs.dropWhile (!endsAuthority special ·)
  if given == some [] && hostAndPort.isEmpty && !rest.isEmpty then throw .emptyHost
  let written := credentials (given.getD [])
  let (hostText, portText) := splitHost false hostAndPort
  if special && hostText.isEmpty then throw .emptyHost
  let host ← if special then Host.ofDomain hostText else Host.ofOpaque hostText
  if hostText.isEmpty && !portText.isEmpty then throw .emptyHost
  let (port, rest) ← match portText with
    | _ :: digits => readPort (digits ++ rest)
    | [] => pure (none, rest)
  if hostText.isEmpty && !written.isEmpty then throw .emptyHost
  let port := if port == defaultPort? scheme then none else port
  return (⟨written, host, port⟩, rest)

/-! ### Path, query and fragment -/

/-- The path behind an authority, and what follows it. The path of a URL of the web is never
empty. -/
def readPath (special : Bool) (cs : List Char) : List Char × List Char :=
  let text := cs.takeWhile fun c => !(c == '?' || c == '#')
  let rest := cs.dropWhile fun c => !(c == '?' || c == '#')
  match text with
  | [] => (if special then ['/'] else [], rest)
  | c :: others =>
    let behindSlash := c == '/' || (special && c == '\\')
    (Path.resolve special (if behindSlash then others else c :: others), rest)

/-- The fragment, if the text begins with its sign. -/
def readFragment : List Char → List Char
  | '#' :: fragment => '#' :: Percent.encode Percent.fragment fragment
  | _ => []

/-- Query and fragment. -/
def readQuery (special : Bool) : List Char → List Char
  | '?' :: cs =>
    let set := if special then Percent.specialQuery else Percent.query
    '?' :: Percent.encode set (cs.takeWhile (· != '#')) ++ readFragment (cs.dropWhile (· != '#'))
  | cs => readFragment cs

/-! ### URLs -/

/-- The URL of a scheme, behind the two slashes. -/
def readWithAuthority (scheme : String) (cs : List Char) : Except Error (List Char) := do
  let special := isSpecial scheme
  let (authority, cs) ← readAuthority scheme cs
  let (path, cs) := readPath special cs
  return ['/', '/'] ++ authority.text ++ path ++ readQuery special cs

/-- The URL of a file, behind its scheme. Two slashes are followed by a host, unless a drive
stands there. -/
def readFile (cs : List Char) : Except Error (List Char) := do
  let isSlash (c : Char) := c == '/' || c == '\\'
  let (host, cs) ← match cs with
    | a :: b :: rest =>
      let hostText := rest.takeWhile fun c => !endsAuthority true c
      if !(isSlash a && isSlash b) || hostText.isEmpty || Path.isDrive hostText then
        pure ([], if isSlash a && isSlash b then rest else a :: b :: rest)
      else
        let host ← Host.ofDomain hostText
        let host := if host == .name "localhost" then [] else host.text.toList
        pure (host, rest.dropWhile fun c => !endsAuthority true c)
    | cs => pure ([], cs)
  let (path, cs) := readPath true cs
  return ['/', '/'] ++ host ++ path ++ readQuery true cs

/-- The URL of a scheme that is not one of the web, behind the scheme. Without a slash its
path has no structure; without a host its path is kept from looking like one. -/
def readOther (scheme : String) (cs : List Char) : Except Error (List Char) :=
  match cs with
  | '/' :: '/' :: rest => readWithAuthority scheme rest
  | '/' :: _ =>
    let (path, rest) := readPath false cs
    let guard := if ['/', '/'].isPrefixOf path then ['/', '.'] else []
    .ok (guard ++ path ++ readQuery false rest)
  | cs =>
    let path := cs.takeWhile fun c => !(c == '?' || c == '#')
    let rest := cs.dropWhile fun c => !(c == '?' || c == '#')
    .ok (Percent.encode Percent.controls path ++ readQuery false rest)

/-- Read a URL with a scheme. -/
def absolute (text : String) : Except Error Absolute := do
  match scheme? (significant text) with
  | none => throw .noScheme
  | some (scheme, cs) =>
    let rest ←
      if scheme == "file" then readFile cs
      else if isSpecial scheme then
        readWithAuthority scheme (cs.dropWhile fun c => c == '/' || c == '\\')
      else readOther scheme cs
    return ⟨scheme, scheme ++ ":" ++ String.ofList rest⟩

/-- Read a URL without a scheme, relative to a page on the web. It can only fail where it
names a host of its own, behind two slashes. -/
def relative (text : String) : Except Error Unit := do
  let cs := significant text
  let isSlash (c : Char) := c == '/' || c == '\\'
  if 2 ≤ (cs.takeWhile isSlash).length then
    let cs := if ['/', '/'].isPrefixOf cs then cs.drop 2 else cs.dropWhile isSlash
    let _ ← readAuthority "http" cs

/-- The reader of the URLs of the web. -/
instance reader : UrlReader := ⟨absolute, relative⟩

end TrustedHtml.Url.Web
