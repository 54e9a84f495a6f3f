import Mediatheque.Url.Host

/-!
# Addresses

What an address on the network says of the machine behind it: the protocol, the host
and the port. The rest of an address, its path and what follows, is not kept.

* `Url.sameMachine`: whether two addresses lead to one host and port;
* `Url.read?`: the address that a text writes.

Names of hosts beyond ASCII are folded in the commonest alphabets alone (`Host.fold`),
without the tables that say which names of all scripts are one. So who goes by addresses
takes the way to read them as a parameter, and `Url.read?` is the one at hand.
-/

namespace Mediatheque

/-- The protocol, the host and the port of an address. -/
structure Url where
  scheme : String
  /-- The host in its one spelling. -/
  host : Option String := none
  /-- The port, unless it is the usual one of the protocol. -/
  port : Option Nat := none
deriving DecidableEq, Inhabited

namespace Url

/-- The usual port of a protocol. -/
def defaultPort? (scheme : String) : Option Nat :=
  match scheme with
  | "http" | "ws" => some 80
  | "https" | "wss" => some 443
  | "ftp" => some 21
  | _ => none

/-- The port that is in effect. -/
def effectivePort? (u : Url) : Option Nat := u.port <|> defaultPort? u.scheme

/-- Whether two addresses lead to one host and port. -/
def sameMachine (u v : Url) : Bool :=
  u.host = v.host && u.effectivePort? = v.effectivePort?

/-! ## Reading -/

/-- How the part behind the protocol is read. -/
inductive Form where
  /-- One of the web protocols, which always have a host. -/
  | web
  | file
  | other
deriving DecidableEq

def formOf (scheme : String) : Form :=
  if (defaultPort? scheme).isSome then .web else if scheme = "file" then .file else .other

/-- A text without the control characters and blanks around it, and without tabs and
line breaks. -/
def cleaned (text : List Char) : List Char :=
  let isBlank (c : Char) : Bool := c.toNat ≤ 0x20
  ((text.dropWhile isBlank).reverse.dropWhile isBlank).reverse.filter
    (fun c => c ∉ ['\t', '\n', '\r'])

/-- The protocol at the start of an address, in small letters, and what follows its
colon. -/
def scheme? (cs : List Char) : Option (String × List Char) :=
  let name := cs.takeWhile (· ≠ ':')
  let isPart (c : Char) : Bool := c.isAlphanum || c ∈ ['+', '-', '.']
  match name, cs.drop name.length with
  | first :: _, ':' :: rest =>
    if first.isAlpha && name.all isPart then some (String.ofList (name.map Char.toLower), rest)
    else none
  | _, _ => none

/-- Whether a character is a slash, or a backslash where that stands for one. -/
def isSlash (form : Form) (c : Char) : Bool := c = '/' || (form ≠ .other && c = '\\')

/-- Whether the part with the host ends before a character. -/
def endsAuthority (form : Form) (c : Char) : Bool := isSlash form c || c = '?' || c = '#'

/-- The machine that an authority names, and the name of the user in front of the last
at sign, if there is one. -/
def splitUser (authority : List Char) : List Char × Option (List Char) :=
  let machine := (authority.reverse.takeWhile (· ≠ '@')).reverse
  (machine, if machine.length = authority.length then none
    else some (authority.take (authority.length - machine.length - 1)))

/-- The text of a host in front of its port: up to a colon outside square brackets. -/
def hostPart : Bool → List Char → List Char
  | _, [] => []
  | inside, c :: rest =>
    if c = ':' && !inside then []
    else c :: hostPart (if c = '[' then true else if c = ']' then false else inside) rest

/-- The port behind a host, nothing if none is given. -/
def port? (cs : List Char) : Option (Option Nat) :=
  match cs with
  | ':' :: rest =>
    let digits := rest.takeWhile (· ≠ '\\')
    if digits.isEmpty then some none
    else do
      let port ← (digitValues? decimalDigit? digits).map (numberOf 10)
      if port < 65536 then some (some port) else none
  | _ => some none

/-- The address whose host and port stand at the start of a text, behind the name of a
user. A user who is named, be it with a password alone, needs a host; and so does a lone
at sign, unless all ends with it. -/
def ofAuthority? (scheme : String) (form : Form) (rest : List Char) : Option Url := do
  let authority := rest.takeWhile (!endsAuthority form ·)
  let (machine, user) := splitUser authority
  let hostText := hostPart false machine
  let behind := machine.drop hostText.length
  let needsHost := form = .web || !behind.isEmpty ||
    match user with
    | none => false
    | some [] => authority.length < rest.length
    | some user => user ≠ [':']
  if hostText.isEmpty ∧ needsHost then none
  let host ← if form = .web then Host.read? hostText else Host.readOpaque? hostText
  let port ← port? behind
  some {
    scheme := scheme
    host := if hostText.isEmpty then none else some host.text
    port := if port = defaultPort? scheme then none else port }

/-- Whether a text is the letter of a drive, with a colon or a bar. -/
def isDrive (cs : List Char) : Bool :=
  match cs with
  | [c, d] => c.isAlpha && (d = ':' || d = '|')
  | _ => false

/-- Whether the path of a file starts with a drive, once its steps are taken. -/
def startsWithDrive (path : List Char) : Bool :=
  let isStep (dots : List String) (s : List Char) : Bool :=
    String.ofList (s.map Char.toLower) ∈ dots
  let segments := splitAt (isSlash .file) (path.drop 1)
  let taken := segments.foldl (fun (taken : Bool × List (List Char)) s =>
    if isStep ["..", "%2e%2e", "%2e.", ".%2e"] s then (taken.1, taken.2.tail)
    else if isStep [".", "%2e"] s then taken
    else (taken.1 || (taken.2.isEmpty && isDrive s), s :: taken.2)) (false, [])
  taken.1

/-- The address of a file, whose host may be missing. A drive has no host. -/
def ofFile? (rest : List Char) : Option Url :=
  match rest with
  | a :: b :: rest =>
    if isSlash .file a && isSlash .file b then
      let hostText := rest.takeWhile (!endsAuthority .file ·)
      let path := (rest.drop hostText.length).takeWhile fun c => c ≠ '?' && c ≠ '#'
      if hostText.isEmpty || isDrive hostText then some { scheme := "file" }
      else do
        let host ← Host.read? hostText
        if host = .name ['l', 'o', 'c', 'a', 'l', 'h', 'o', 's', 't'] || startsWithDrive path then
          some { scheme := "file" }
        else some { scheme := "file", host := some host.text }
    else some { scheme := "file" }
  | _ => some { scheme := "file" }

/-- The address that a text writes. -/
def read? (text : String) : Option Url := do
  let (scheme, rest) ← scheme? (cleaned text.toList)
  match formOf scheme with
  | .web => ofAuthority? scheme .web (rest.dropWhile (isSlash .web))
  | .file => ofFile? rest
  | .other =>
    match rest with
    | '/' :: '/' :: rest => ofAuthority? scheme .other rest
    | _ => some { scheme := scheme }

end Url

end Mediatheque
