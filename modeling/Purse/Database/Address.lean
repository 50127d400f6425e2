import Purse.Text.Octets
import Purse.Word

/-!
# Addresses of databases

A database is reached at a URL: a scheme, and after `//` an authority (user and password before an
`@`, a host, perhaps a number after a colon), then a path that names the database, and parameters.
`Address.fault?` is the first thing that keeps a text from being such an address. The text is taken
apart from the left, so a fault further left is reported first; the parameters are looked at last.
-/

namespace Purse

/-- Why a parameter is no number. -/
inductive CountFault where
  | empty
  | digit
  | tooLarge
deriving DecidableEq, Repr

/-- The wording of a fault. -/
def CountFault.message : CountFault → String
  | empty => "cannot parse integer from empty string"
  | digit => "invalid digit found in string"
  | tooLarge => "number too large to fit in target type"

/-- Why a text is no address. -/
inductive AddressFault where
  /-- It does not begin with a scheme. -/
  | noScheme
  /-- There is no host where there must be one. -/
  | emptyHost
  /-- The host is in brackets and no IPv6 address, or its brackets do not match. -/
  | badIpv6
  /-- The host has a character that no host may have. -/
  | badHost
  /-- The host has a character that no host of the web may have. -/
  | badWebHost
  /-- What follows the colon behind the host is no number below 65536. -/
  | badNumber
  /-- A part in percent notation is no text. -/
  | badText (fault : Text.OctetFault)
  /-- The parameter for encryption names no mode. -/
  | badMode (value : String)
  /-- A parameter that must be a number is none. -/
  | badCount (fault : CountFault)
  /-- The parameter for the address of the host is none. -/
  | badHostAddress
deriving DecidableEq

namespace AddressFault

/-- A text in double quotes, with escapes for quotes, backslashes and control characters. -/
def quoted (s : String) : String :=
  let escaped (c : Char) : List Char :=
    if c = '"' then ['\\', '"']
    else if c = '\\' then ['\\', '\\']
    else if c = '\t' then ['\\', 't']
    else if c = '\n' then ['\\', 'n']
    else if c = '\r' then ['\\', 'r']
    else if c.toNat = 0 then ['\\', '0']
    else if c.toNat < 32 || (127 ≤ c.toNat && c.toNat < 160) then
      ['\\', 'u', '\x7b'] ++ Text.hexPadded 1 c.toNat ++ ['\x7d']
    else [c]
  String.ofList (['"'] ++ s.toList.flatMap escaped ++ ['"'])

/-- The wording of a fault. -/
def message : AddressFault → String
  | noScheme => "relative URL without a base"
  | emptyHost => "empty host"
  | badIpv6 => "invalid IPv6 address"
  | badHost => "invalid domain character"
  | badWebHost => "invalid international domain name"
  | badNumber => "invalid port number"
  | badText fault => fault.message
  | badMode value => "error with configuration: unknown value " ++ quoted value ++ " for `ssl_mode`"
  | badCount fault => fault.message
  | badHostAddress => "invalid IP address syntax"

end AddressFault

namespace Address

/-! ### Numbers and network addresses -/

/-- What is wrong with the digits of a number no greater than `most`, of which the part read so far
is `n`. -/
def digitsFault? (most : Nat) (n : Nat) : List Char → Option CountFault
  | [] => none
  | c :: cs =>
    if c.isDigit then
      let next := 10 * n + (c.toNat - '0'.toNat)
      if most < next then some .tooLarge else digitsFault? most next cs
    else some .digit

/-- What is wrong with a number no greater than `most`. It may have a plus sign. -/
def countFault? (most : Nat) : List Char → Option CountFault
  | [] => some .empty
  | ['+'] => some .digit
  | '+' :: cs => digitsFault? most 0 cs
  | cs => digitsFault? most 0 cs

/-- The parts of a text between separators. -/
def parts (separator : Char) : List Char → List (List Char)
  | [] => [[]]
  | c :: cs =>
    if c = separator then [] :: parts separator cs
    else
      match parts separator cs with
      | first :: more => (c :: first) :: more
      | [] => [[c]]

/-- Whether a text is a number below 256 without superfluous zeros. -/
def isOctet (cs : List Char) : Bool :=
  !cs.isEmpty && cs.length ≤ 3 && cs.all Char.isDigit && (cs.length = 1 || cs.head? ≠ some '0') &&
    Text.natOfDigits cs < 256

/-- Whether a text is an IPv4 address: four octets with points between them. -/
def isIpv4 (cs : List Char) : Bool :=
  let octets := parts '.' cs
  octets.length = 4 && octets.all isOctet

/-- Whether a text is a group of an IPv6 address. -/
def isGroup (cs : List Char) : Bool :=
  !cs.isEmpty && cs.length ≤ 4 && cs.all fun c => (Text.hexValue? c).isSome

/-- The number of groups that a text has, with colons between them. An IPv4 address in the last
place, where that is allowed, counts as two. -/
def groups? (ipv4 : Bool) (cs : List Char) : Option Nat :=
  let groups := parts ':' cs
  if cs.isEmpty then some 0
  else if groups.all isGroup then some groups.length
  else if ipv4 && groups.dropLast.all isGroup && groups.getLast?.any isIpv4 then some (groups.length + 1)
  else none

/-- What stands before and after the first two colons in a row, if there are such. -/
def splitDoubleColon? : List Char → Option (List Char × List Char)
  | ':' :: ':' :: cs => some ([], cs)
  | c :: cs => (splitDoubleColon? cs).map fun (before, after) => (c :: before, after)
  | [] => none

/-- Whether a text is an IPv6 address: eight groups, or fewer with a double colon in place of at
least one. -/
def isIpv6 (cs : List Char) : Bool :=
  match splitDoubleColon? cs with
  | none => groups? true cs = some 8
  | some (before, after) =>
    match groups? false before, groups? true after with
    | some m, some n => m + n ≤ 7
    | _, _ => false

/-! ### Taking an address apart -/

/-- The schemes of the web. Their addresses have a host, and backslashes in them are slashes. -/
def webSchemes : List (List Char) :=
  [['h', 't', 't', 'p'], ['h', 't', 't', 'p', 's'], ['w', 's'], ['w', 's', 's'], ['f', 't', 'p']]

/-- The text without the controls and spaces at its ends, and without tabs and line ends. -/
def cleaned (s : String) : List Char :=
  let isEdge (c : Char) : Bool := c.toNat ≤ 32
  let cs := ((s.toList.dropWhile isEdge).reverse.dropWhile isEdge).reverse
  cs.filter fun c => !(c == '\t' || c == '\n' || c == '\r')

/-- The scheme in front of the first colon, in lower case, and what follows the colon. -/
def scheme? (cs : List Char) : Option (List Char × List Char) :=
  let word := cs.takeWhile fun c => c.isAlphanum || c == '+' || c == '-' || c == '.'
  match cs.drop word.length, word.head? with
  | ':' :: rest, some c => if c.isAlpha then some (word.map Char.toLower, rest) else none
  | _, _ => none

def endsAuthority (web : Bool) (c : Char) : Bool :=
  c == '/' || c == '?' || c == '#' || (web && c == '\\')

/-- What stands before and after the last `@`, if there is one. -/
def splitLastAt? : List Char → Option (List Char × List Char)
  | [] => none
  | c :: cs =>
    match splitLastAt? cs with
    | some (before, after) => some (c :: before, after)
    | none => if c = '@' then some ([], cs) else none

/-- The host at the front of an authority without its user, and what follows. A colon in brackets
belongs to it. -/
def spanHost : (inBrackets : Bool) → List Char → List Char × List Char
  | _, [] => ([], [])
  | inBrackets, c :: cs =>
    if c = ':' && !inBrackets then ([], c :: cs)
    else
      let (host, rest) := spanHost (if c = '[' then true else if c = ']' then false else inBrackets) cs
      (c :: host, rest)

/-- Whether no host may have a character. -/
def isForbidden (c : Char) : Bool :=
  c.toNat = 0 || " #/:<>?@[\\]^|".toList.contains c

/-- Whether no host of the web may have a character, once percent notation is decoded. -/
def isForbiddenOnWeb (c : Char) : Bool :=
  isForbidden c || c == '%' || c.toNat < 32 || c.toNat = 127

/-- What is wrong with a host. -/
def hostFault? (web : Bool) (host : List Char) : Option AddressFault :=
  match host with
  | '[' :: inner =>
    if inner.getLast? = some ']' && isIpv6 inner.dropLast then none else some .badIpv6
  | _ =>
    if web then
      if host.isEmpty then some .emptyHost
      else if (Text.ofOctetsLossy (Text.percentDecoded host)).any isForbiddenOnWeb then some .badWebHost
      else none
    else if host.any isForbidden then some .badHost
    else none

/-- What is wrong with the number behind the host. A backslash ends it. -/
def numberFault? (cs : List Char) : Option AddressFault :=
  match digitsFault? (Word.greatest 16) 0 (cs.takeWhile (· ≠ '\\')) with
  | some _ => some .badNumber
  | none => none

/-- What is wrong with an authority. `last` says whether nothing follows it. -/
def authorityFault? (web last : Bool) (authority : List Char) : Option AddressFault :=
  let (user, rest) := match splitLastAt? authority with
    | some (user, rest) => (some user, rest)
    | none => (none, authority)
  let (host, number) := spanHost false rest
  if user = some [] && rest.isEmpty && !last then some .emptyHost
  else
    match hostFault? web host with
    | some fault => some fault
    | none =>
      match number with
      | _ :: digits => if host.isEmpty then some .emptyHost else numberFault? digits
      | [] =>
        if host.isEmpty && user.any fun (u : List Char) => u ≠ [] && u ≠ [':'] then some .emptyHost
        else none

/-- The parts of an authority in percent notation that must be texts: the host only if it is a path,
the user and the password. -/
def authorityTexts (authority : List Char) : List (List Char) :=
  let (user, rest) := (splitLastAt? authority).getD ([], authority)
  let host := (spanHost false rest).1
  let name := user.takeWhile (· ≠ ':')
  let credentials := [name, user.drop (name.length + 1)]
  if (Text.percentDecoded host).head? = some '/'.toNat then host :: credentials else credentials

/-- The first part in percent notation that is no text. -/
def textFault? (texts : List (List Char)) : Option AddressFault :=
  texts.findSome? fun text =>
    match Text.ofOctets (Text.percentDecoded text) with
    | .ok _ => none
    | .error fault => some (.badText fault)

/-! ### Parameters -/

/-- The names of the modes of encryption. -/
def modes : List String := ["disable", "allow", "prefer", "require", "verify-ca", "verify-full"]

/-- A part of the parameters as text: plus signs are spaces, and percent notation is decoded. -/
def parameterText (cs : List Char) : List Char :=
  Text.ofOctetsLossy (Text.percentDecoded (cs.map fun c => if c = '+' then ' ' else c))

/-- What is wrong with one parameter. One with an unknown name is ignored. -/
def parameterFault? (parameter : List Char) : Option AddressFault :=
  let name := parameter.takeWhile (· ≠ '=')
  let value := parameterText (parameter.drop (name.length + 1))
  match String.ofList (parameterText name) with
  | "sslmode" | "ssl-mode" =>
    if modes.contains (String.ofList (value.map Char.toLower)) then none else some (.badMode (String.ofList value))
  | "port" => (countFault? (Word.greatest 16) value).map .badCount
  | "statement-cache-capacity" => (countFault? (Word.greatest 64) value).map .badCount
  | "hostaddr" => if isIpv4 value || isIpv6 value then none else some .badHostAddress
  | _ => none

/-- What is wrong with the texts of an address, of which some stand in the authority, and with its
parameters. -/
def textsFault? (authority : List Char) (rest : List Char) : Option AddressFault :=
  let path := rest.takeWhile fun c => c ≠ '?' && c ≠ '#'
  let query := match rest.drop path.length with
    | '?' :: cs => cs.takeWhile (· ≠ '#')
    | _ => []
  match textFault? (authorityTexts authority ++ [path.dropWhile (· = '/')]) with
  | some fault => some fault
  | none => (parts '&' query).findSome? parameterFault?

/-- **What keeps a text from being an address,** if anything does. -/
def fault? (s : String) : Option AddressFault :=
  match scheme? (cleaned s) with
  | none => some .noScheme
  | some (scheme, rest) =>
    let web := webSchemes.contains scheme
    let afterSlashes? :=
      if web then some (rest.dropWhile fun c => c == '/' || c == '\\') else Text.after? ['/', '/'] rest
    match afterSlashes? with
    | none => textsFault? [] rest
    | some rest =>
      let authority := rest.takeWhile fun c => !endsAuthority web c
      let rest := rest.drop authority.length
      match authorityFault? web rest.isEmpty authority with
      | some fault => some fault
      | none => textsFault? authority rest

end Address

end Purse
