import ArgLine.Url.Address
import ArgLine.Url.Percent

/-!
# ArgLine.Url.Basic

URLs and relative references, read from a text.

1. What follows the first `#` is the fragment.
2. A scheme is letters, digits, `+`, `-` and `.` up to a `:`, starting with a
   letter; it is kept in lower case.  Without a scheme the text is a relative
   reference, whose first segment holds no colon.
3. What follows the first `?` is the query.
4. With a scheme, a rest that does not start with `/` is rootless and has no
   path; one that starts with `//` has an authority: a user before the last
   `@`, then a host with a port after its last colon.
5. A host in brackets is an internet address of eight groups, with the port
   after the bracket.  Nowhere else does a host hold an opening bracket.
6. Path, host, user and fragment are percent-decoded.
-/

namespace ArgLine

/-- Why a text is no URL. -/
inductive UrlError where
  /-- A control character. -/
  | control
  /-- A colon in first place. -/
  | noScheme
  /-- A colon in the first segment of a relative reference. -/
  | colon
  /-- A bad escape, as it is written. -/
  | escape (text : Bytes)
  /-- A byte that no host holds. -/
  | hostByte (b : UInt8)
  /-- A port that is no number, with its colon. -/
  | port (text : Bytes)
  /-- A bracketed host that is not closed. -/
  | bracket
  /-- A bracket within a host, or around an address of four fields. -/
  | misplaced
  /-- A bracketed host that is no address. -/
  | address (text : Bytes) (error : AddressError)
  /-- A byte that no user holds. -/
  | user
  deriving DecidableEq, Repr

/-- The text of a refusal. -/
def UrlError.message : UrlError → Bytes
  | .control => ascii "net/url: invalid control character in URL"
  | .noScheme => ascii "missing protocol scheme"
  | .colon => ascii "first path segment in URL cannot contain colon"
  | .escape text => ascii "invalid URL escape " ++ Quoted.quote text
  | .hostByte b => ascii "invalid character " ++ Quoted.quote [b] ++ ascii " in host name"
  | .port text => ascii "invalid port " ++ Quoted.quote text ++ ascii " after host"
  | .bracket => ascii "missing ']' in host"
  | .misplaced => ascii "invalid IP-literal"
  | .address text error => ascii "invalid host: " ++ error.message text
  | .user => ascii "net/url: invalid userinfo"

/-- Who a URL names before its host, decoded. -/
structure UrlUser where
  name : Bytes
  password : Option Bytes
  deriving DecidableEq, Repr

/-- A URL by its parts.  A part that is not there is empty, unless its type says otherwise. -/
structure Url where
  scheme : Bytes
  /-- The rest after the scheme, if it does not start with `/`. -/
  rootless : Bytes
  user : Option UrlUser
  /-- Host and port, decoded. -/
  host : Bytes
  /-- Whether the path starts right after the scheme, without an authority. -/
  bare : Bool
  /-- The path as it is written. -/
  pathText : Bytes
  /-- The path, decoded. -/
  path : Bytes
  query : Option Bytes
  /-- The fragment as it is written. -/
  fragment : Bytes
  deriving DecidableEq, Repr

namespace Url

/-- A URL of which nothing is known. -/
def blank : Url := ⟨[], [], none, [], false, [], [], none, []⟩

/-! ## Scheme -/

/-- An ASCII letter in lower case; other bytes stay. -/
def lowerByte (b : UInt8) : UInt8 := if 65 ≤ b ∧ b ≤ 90 then b + 32 else b

/-- Whether a byte may stand in a scheme after its first letter. -/
def inScheme (b : UInt8) : Bool :=
  Percent.isLetter b || Percent.isDigit b || Percent.among "+-." b

/-- The scheme, in lower case, and what follows its colon; without a scheme all of the text. -/
def takeScheme (text : Bytes) : Except UrlError (Bytes × Bytes) :=
  match text with
  | 58 :: _ => .error .noScheme
  | b :: _ =>
    if Percent.isLetter b then
      match text.dropWhile inScheme with
      | 58 :: rest => .ok ((text.takeWhile inScheme).map lowerByte, rest)
      | _ => .ok ([], text)
    else .ok ([], text)
  | [] => .ok ([], text)

/-! ## Authority -/

/-- Whether a text is empty or a colon followed by digits. -/
def isPort : Bytes → Bool
  | [] => true
  | b :: digits => b == 58 && digits.all Percent.isDigit

/-- The last colon of a text and what follows it. -/
def colonPart? (text : Bytes) : Option Bytes :=
  (Bytes.cutLast 58 text).map fun parts => 58 :: parts.2

/-- Decodes a part, with a bad escape as the error. -/
def decodePart (text : Bytes) : Except UrlError Bytes :=
  match Percent.decode text with
  | .ok plain => .ok plain
  | .error bad => .error (.escape bad)

/-- Decodes a host or a part of one.  A byte that no host holds is refused, and so is an escape for
a byte that `admits` does not admit. -/
def decodeHost (admits : UInt8 → Bool) : Bytes → Except UrlError Bytes
  | [] => .ok []
  | b :: rest =>
    if b = 37 then
      match rest with
      | c :: d :: more =>
        match Hexadecimal.digit? c, Hexadecimal.digit? d with
        | some x, some y =>
          if admits (16 * x + y).toUInt8 then
            (decodeHost admits more).map ((16 * x + y).toUInt8 :: ·)
          else .error (.escape [b, c, d])
        | _, _ => .error (.escape [b, c, d])
      | _ => .error (.escape (b :: rest))
    else if b < 0x80 && !Percent.hostSafe b then .error (.hostByte b)
    else (decodeHost admits rest).map (b :: ·)

/-- Whether a host may hold an escape for a byte: one outside ASCII, or `%` itself. -/
def inHostEscape (b : UInt8) : Bool := 0x80 ≤ b || b == 37

/-- Whether a zone may hold an escape for a byte: one that hosts show as it is, a space, or `%`
itself. -/
def inZoneEscape (b : UInt8) : Bool := Percent.hostSafe b || b == 32 || b == 37

/-- Reads a host without brackets, with its port. -/
def readName (text : Bytes) : Except UrlError Bytes :=
  let port := (colonPart? text).getD []
  if isPort port then decodeHost inHostEscape text else .error (.port port)

/-- Divides a text before its first escaped `%`. -/
def divideZone : Bytes → Bytes × Bytes
  | [] => ([], [])
  | b :: rest =>
    if (ascii "%25").isPrefixOf (b :: rest) then ([], b :: rest)
    else (b :: (divideZone rest).1, (divideZone rest).2)

/-- Reads an address with its zone, as it stands between brackets. -/
def readLiteral (text : Bytes) : Except UrlError Bytes := do
  let address ← decodeHost inHostEscape (divideZone text).1
  let zone ← decodeHost inZoneEscape (divideZone text).2
  match Address.read (address ++ zone) with
  | .ok .groups => .ok (address ++ zone)
  | .ok .fields => .error .misplaced
  | .error e => .error (.address (address ++ zone) e)

/-- Reads what follows an opening bracket: the closing one is the last, and after it a port may
stand. -/
def readBracketed (text : Bytes) : Except UrlError Bytes :=
  match Bytes.cutLast 93 text with
  | none => .error .bracket
  | some (literal, port) =>
    if isPort port then do return ascii "[" ++ (← readLiteral literal) ++ ascii "]" ++ port
    else .error (.port port)

/-- Reads a host with its port. -/
def readHost (text : Bytes) : Except UrlError Bytes :=
  match Bytes.cutLast 91 text with
  | none => readName text
  | some ([], rest) => readBracketed rest
  | some _ => .error .misplaced

/-- Whether a byte may stand before the `@` of an authority. -/
def inUser (b : UInt8) : Bool :=
  Percent.unreserved b || Percent.among ":!$&'()*+,;=%@" b

/-- Reads what stands before the `@` of an authority. -/
def readUser (text : Bytes) : Except UrlError UrlUser :=
  if text.all inUser then
    match Bytes.cut 58 text with
    | (name, none) => do return ⟨← decodePart name, none⟩
    | (name, some password) => do
      let name ← decodePart name
      return ⟨name, some (← decodePart password)⟩
  else .error .user

/-- Reads an authority: the host is looked at first. -/
def readAuthority (text : Bytes) : Except UrlError (Option UrlUser × Bytes) :=
  match Bytes.cutLast 64 text with
  | none => do return (none, ← readHost text)
  | some (user, host) => do
    let host ← readHost host
    return (some (← readUser user), host)

/-! ## The whole -/

/-- Whether a byte is a control character. -/
def isControl (b : UInt8) : Bool := b < 0x20 || b == 0x7F

/-- Gives a URL its path. -/
def withPath (u : Url) (text : Bytes) : Except UrlError Url := do
  return { u with pathText := text, path := ← decodePart text }

/-- Reads what follows the scheme and precedes the query. -/
def readRest (u : Url) (rest : Bytes) : Except UrlError Url :=
  match rest with
  | 47 :: 47 :: more =>
    if u.scheme = [] ∧ more.head? = some 47 then u.withPath rest
    else do
      let (user, host) ← readAuthority (Bytes.cut 47 more).1
      withPath { u with user := user, host := host } (more.dropWhile (· ≠ 47))
  | 47 :: _ => withPath { u with bare := u.scheme ≠ [] } rest
  | _ =>
    if u.scheme ≠ [] then .ok { u with rootless := rest }
    else if (Bytes.cut 47 rest).1.contains 58 then .error .colon
    else u.withPath rest

/-- Reads a URL without a fragment. -/
def readWhole (text : Bytes) : Except UrlError Url :=
  if text.any isControl then .error .control
  else if text = ascii "*" then .ok { blank with pathText := text, path := text }
  else do
    let (scheme, rest) ← takeScheme text
    let (rest, query) := Bytes.cut 63 rest
    readRest { blank with scheme := scheme, query := query } rest

/-- Reads a URL.  A refusal comes with the text it is about. -/
def parse (text : Bytes) : Except (Bytes × UrlError) Url :=
  let (body, fragment) := Bytes.cut 35 text
  match readWhole body with
  | .error e => .error (body, e)
  | .ok u =>
    match fragment with
    | none => .ok u
    | some fragment =>
      match decodePart fragment with
      | .error e => .error (text, e)
      | .ok _ => .ok { u with fragment := fragment }

/-! ## Host and port -/

/-- Host and port, divided. -/
def splitHost (host : Bytes) : Bytes × Bytes :=
  match Bytes.cutLast 58 host with
  | some (name, port) => if isPort (58 :: port) then (name, port) else (host, [])
  | none => (host, [])

/-- A host without the brackets around it. -/
def unbracket (host : Bytes) : Bytes :=
  if host.head? = some 91 ∧ host.getLast? = some 93 then host.tail.dropLast else host

/-- The port, empty if there is none. -/
def port (u : Url) : Bytes := (splitHost u.host).2

/-- The host without its port. -/
def hostName (u : Url) : Bytes := unbracket (splitHost u.host).1

/-! ## Text -/

/-- A user as text. -/
def userText (user : UrlUser) : Bytes :=
  Percent.encode Percent.userSafe user.name ++
    (user.password.elim [] fun p => ascii ":" ++ Percent.encode Percent.userSafe p)

/-- Whether the path follows the scheme with no authority between them. -/
def omitsAuthority (u : Url) : Bool := u.bare && u.host.isEmpty && u.user.isNone

/-- The authority as text, with its slashes. -/
def authorityText (u : Url) : Bytes :=
  if u.scheme = [] ∧ u.host = [] ∧ u.user = none then []
  else if u.omitsAuthority then []
  else
    (if u.host = [] ∧ u.path = [] ∧ u.user = none then [] else ascii "//") ++
      (u.user.elim [] fun user => userText user ++ ascii "@") ++
      Percent.encode Percent.hostSafe u.host

/-- The path as text.  A path that is a star is shown as one, unless it was escaped in another way
than a star is escaped. -/
def pathShown (u : Url) : Bytes :=
  if u.path = ascii "*" ∧ u.pathText = Percent.encode Percent.pathSafe u.path then u.path
  else Percent.shown Percent.pathSafe u.pathText

/-- The path as text, in its place: a slash divides it from a host, and where no authority stands
before it, the first of two slashes is escaped, so that what follows is not taken for one. -/
def pathPart (u : Url) : Bytes :=
  if u.omitsAuthority ∧ (ascii "//").isPrefixOf u.pathShown then
    ascii "%2F" ++ u.pathShown.tail
  else if u.pathShown ≠ [] ∧ u.pathShown.head? ≠ some 47 ∧ u.host ≠ [] then
    ascii "/" ++ u.pathShown
  else u.pathShown

/-- A URL as text. -/
def text (u : Url) : Bytes :=
  (if u.scheme = [] then [] else u.scheme ++ ascii ":") ++
    (if u.rootless ≠ [] then u.rootless else u.authorityText ++ u.pathPart) ++
    (u.query.elim [] fun q => ascii "?" ++ q) ++
    (if u.fragment = [] then [] else ascii "#" ++ Percent.shown Percent.fragmentSafe u.fragment)

end Url

end ArgLine
