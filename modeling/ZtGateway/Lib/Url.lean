import Mathlib.Data.List.DropRight
import Mathlib.Tactic

/-! The URL parser of the URL standard on lists of characters. Each function stands for
one state of the standard's parser (or for a few that follow each other) and takes what is left
of the input. The host parser is a parameter: it gets the host text and whether the scheme is a
special one, and answers with the serialised host. -/

namespace ZTG

/-- the special schemes, and any other -/
inductive Scheme where
  | http
  | https
  | ws
  | wss
  | ftp
  | file
  | other (name : List Char)
  deriving DecidableEq

namespace Scheme

def ofText (s : List Char) : Scheme :=
  match String.ofList s with
  | "http" => .http
  | "https" => .https
  | "ws" => .ws
  | "wss" => .wss
  | "ftp" => .ftp
  | "file" => .file
  | _ => .other s

def text : Scheme → List Char
  | .http => "http".toList
  | .https => "https".toList
  | .ws => "ws".toList
  | .wss => "wss".toList
  | .ftp => "ftp".toList
  | .file => "file".toList
  | .other s => s

def special : Scheme → Bool
  | .other _ => false
  | _ => true

def defaultPort : Scheme → Option ℕ
  | .http | .ws => some 80
  | .https | .wss => some 443
  | .ftp => some 21
  | _ => none

/-- a backslash counts as a slash in a special URL -/
def isSlash (s : Scheme) (c : Char) : Bool := c == '/' || (s.special && c == '\\')

/-- the characters that end an authority -/
def endsAuthority (s : Scheme) (c : Char) : Bool := s.isSlash c || c == '?' || c == '#'

end Scheme

inductive UrlPath where
  /-- the path of a URL such as `mailto:a@b` -/
  | text (s : List Char)
  | segments (l : List (List Char))
  deriving DecidableEq

structure Url where
  scheme : Scheme
  username : List Char := []
  password : List Char := []
  host : Option (List Char) := none
  port : Option ℕ := none
  path : UrlPath := .segments []
  query : Option (List Char) := none
  fragment : Option (List Char) := none
  deriving DecidableEq

abbrev HostParser := Bool → List Char → Option (List Char)

/-! Percent encoding. -/

def c0ControlSet (c : Char) : Bool := c.toNat ≤ 0x1f || 0x7e < c.toNat

def fragmentSet (c : Char) : Bool := c0ControlSet c || " \x22<>`".toList.contains c

def querySet (c : Char) : Bool := c0ControlSet c || " \x22#<>".toList.contains c

def specialQuerySet (c : Char) : Bool := querySet c || "\x27".toList.contains c

/-- of the present URL standard, which has added `^`; Node 18 and 22 do not encode it -/
def pathSet (c : Char) : Bool := querySet c || "?^`\x7b\x7d".toList.contains c

def userinfoSet (c : Char) : Bool := pathSet c || "/:;=@[\\]|".toList.contains c

def hexDigit (n : ℕ) : Char := "0123456789ABCDEF".toList.getD n '0'

def percentEncodeByte (b : UInt8) : List Char :=
  ['%', hexDigit (b.toNat / 16), hexDigit (b.toNat % 16)]

def percentEncodeChar (set : Char → Bool) (c : Char) : List Char :=
  if set c then (String.utf8EncodeChar c).flatMap percentEncodeByte else [c]

def percentEncode (set : Char → Bool) (s : List Char) : List Char :=
  s.flatMap (percentEncodeChar set)

/-! Path segments. -/

def asciiLower (s : List Char) : List Char := s.map Char.toLower

def isSingleDot (s : List Char) : Bool := [".", "%2e"].contains (String.ofList (asciiLower s))

def isDoubleDot (s : List Char) : Bool :=
  ["..", ".%2e", "%2e.", "%2e%2e"].contains (String.ofList (asciiLower s))

def isDriveLetter : List Char → Bool
  | [c, d] => c.isAlpha && (d == ':' || d == '|')
  | _ => false

def isNormalizedDriveLetter : List Char → Bool
  | [c, d] => c.isAlpha && d == ':'
  | _ => false

def startsWithDriveLetter (s : List Char) : Bool :=
  isDriveLetter (s.take 2) && match s.drop 2 with
    | [] => true
    | c :: _ => "/\\?#".toList.contains c

/-- drop the last segment, but never the drive of a file URL -/
def shorten (scheme : Scheme) (path : List (List Char)) : List (List Char) :=
  if scheme = .file && path.length == 1 && path.all isNormalizedDriveLetter then path
  else path.dropLast

def normalizeDrive (scheme : Scheme) (path : List (List Char)) (s : List Char) : List Char :=
  if scheme = .file && path.isEmpty && isDriveLetter s then s.take 1 ++ [':'] else s

/-- The path state at the end of a segment; `last` when no slash follows. -/
def pushSegment (scheme : Scheme) (path : List (List Char)) (buffer : List Char) (last : Bool) :
    List (List Char) :=
  if isDoubleDot buffer then
    if last then shorten scheme path ++ [[]] else shorten scheme path
  else if isSingleDot buffer then
    if last then path ++ [[]] else path
  else path ++ [normalizeDrive scheme path buffer]

def pushSegments (scheme : Scheme) (path : List (List Char)) : List (List Char) → List (List Char)
  | [] => path
  | [s] => pushSegment scheme path (percentEncode pathSet s) true
  | s :: rest => pushSegments scheme (pushSegment scheme path (percentEncode pathSet s) false) rest

/-! The getters and the serializer. -/

namespace Url

def segments (u : Url) : List (List Char) :=
  match u.path with
  | .text _ => []
  | .segments l => l

def pathname (u : Url) : List Char :=
  match u.path with
  | .text s => s
  | .segments l => l.flatMap fun s => '/' :: s

def search (u : Url) : List Char :=
  match u.query with
  | none => []
  | some [] => []
  | some q => '?' :: q

def hostname (u : Url) : List Char := u.host.getD []

def href (u : Url) : List Char :=
  let credentials :=
    if u.username.isEmpty && u.password.isEmpty then []
    else u.username ++ (if u.password.isEmpty then [] else ':' :: u.password) ++ ['@']
  let authority :=
    match u.host with
    | some host =>
      ['/', '/'] ++ credentials ++ host ++ match u.port with
        | some p => ':' :: Nat.toDigits 10 p
        | none => []
    | none => if 1 < u.segments.length && u.segments.head? == some [] then ['/', '.'] else []
  u.scheme.text ++ [':'] ++ authority ++ u.pathname ++ (u.query.elim [] ('?' :: ·)) ++
    u.fragment.elim [] ('#' :: ·)

/-- The same scheme, host and port. -/
def SameOrigin (u v : Url) : Prop := u.scheme = v.scheme ∧ u.host = v.host ∧ u.port = v.port

instance (u v : Url) : Decidable (u.SameOrigin v) := inferInstanceAs (Decidable (_ ∧ _))

end Url

/-! The states. -/

def isC0OrSpace (c : Char) : Bool := c.toNat ≤ 0x20

def isTabOrNewline (c : Char) : Bool := c == '\t' || c == '\n' || c == '\r'

/-- what the parser does to its input before the first state -/
def cleanInput (s : List Char) : List Char :=
  ((s.dropWhile isC0OrSpace).rdropWhile isC0OrSpace).filter fun c => !isTabOrNewline c

/-- the query state and the fragment state, from the `?` or `#` on -/
def queryState (u : Url) : List Char → Url
  | '?' :: rest =>
    let set := if u.scheme.special then specialQuerySet else querySet
    let u := { u with query := some (percentEncode set (rest.takeWhile (· != '#'))) }
    match rest.dropWhile (· != '#') with
    | [] => u
    | _ :: f => { u with fragment := some (percentEncode fragmentSet f) }
  | '#' :: f => { u with fragment := some (percentEncode fragmentSet f) }
  | _ => u

/-- the path state -/
def pathState (u : Url) (input : List Char) : Url :=
  let text := input.takeWhile fun c => c != '?' && c != '#'
  let path := pushSegments u.scheme u.segments (text.splitOnP u.scheme.isSlash)
  queryState { u with path := .segments path } (input.dropWhile fun c => c != '?' && c != '#')

/-- the path start state -/
def pathStartState (u : Url) (input : List Char) : Url :=
  match input with
  | [] => if u.scheme.special then pathState u [] else u
  | c :: rest =>
    if u.scheme.isSlash c then pathState u rest
    else if !u.scheme.special && (c == '?' || c == '#') then queryState u input
    else pathState u input

/-- the path of a URL that has neither authority nor leading slash -/
def textPath : List Char → List Char
  | [] => []
  | c :: rest =>
    if c == '?' || c == '#' then []
    else if c == ' ' && (rest.head? == some '?' || rest.head? == some '#') then "%20".toList
    else percentEncodeChar c0ControlSet c ++ textPath rest

def textPathState (u : Url) (input : List Char) : Url :=
  queryState { u with path := .text (textPath input) }
    (input.dropWhile fun c => c != '?' && c != '#')

structure Authority where
  username : List Char
  password : List Char
  host : List Char
  port : Option ℕ
  deriving DecidableEq

/-- cut at the first colon outside brackets -/
def splitPort (insideBrackets : Bool) : List Char → List Char × Option (List Char)
  | [] => ([], none)
  | c :: rest =>
    if c == ':' && !insideBrackets then ([], some rest)
    else
      let r := splitPort
        (if c == '[' then true else if c == ']' then false else insideBrackets) rest
      (c :: r.1, r.2)

/-- the port state; `none` is a failure, the default port is not stored -/
def parsePort (scheme : Scheme) (s : List Char) : Option (Option ℕ) :=
  if s.all Char.isDigit then
    if s.isEmpty then some none
    else
      let n := s.foldl (fun n c => 10 * n + (c.toNat - '0'.toNat)) 0
      if 65535 < n then none else some (if scheme.defaultPort = some n then none else some n)
  else none

section
variable (parseHost : HostParser)

/-- the authority, host and port states on the whole text of an authority -/
def parseAuthority (scheme : Scheme) (text : List Char) : Option Authority :=
  let userinfo := (text.rdropWhile (· != '@')).dropLast
  let rest := text.rtakeWhile (· != '@')
  let split := splitPort false rest
  if rest.isEmpty && text.contains '@' then none
  else if split.1.isEmpty && (scheme.special || split.2.isSome) then none
  else
    (parseHost scheme.special split.1).bind fun host =>
      ((split.2.map (parsePort scheme)).getD (some none)).map fun port =>
        { username := percentEncode userinfoSet (userinfo.takeWhile (· != ':')),
          password := percentEncode userinfoSet ((userinfo.dropWhile (· != ':')).drop 1),
          host := host,
          port := port }

def authorityState (scheme : Scheme) (input : List Char) : Option Url :=
  (parseAuthority parseHost scheme (input.takeWhile fun c => !scheme.endsAuthority c)).map fun a =>
    pathStartState
      { scheme := scheme, username := a.username, password := a.password, host := some a.host,
        port := a.port }
      (input.dropWhile fun c => !scheme.endsAuthority c)

/-- the special authority (ignore) slashes states -/
def ignoreSlashesState (scheme : Scheme) (input : List Char) : Option Url :=
  authorityState parseHost scheme (input.dropWhile scheme.isSlash)

/-- the relative slash state -/
def relativeSlashState (base : Url) (input : List Char) : Option Url :=
  let u := { base with path := .segments [], query := none, fragment := none }
  match input with
  | [] => some (pathState u [])
  | c :: rest =>
    if base.scheme.isSlash c then
      if base.scheme.special then ignoreSlashesState parseHost base.scheme rest
      else authorityState parseHost base.scheme rest
    else some (pathState u input)

/-- the relative state -/
def relativeState (base : Url) (input : List Char) : Option Url :=
  let u := { base with fragment := none }
  match input with
  | [] => some u
  | c :: rest =>
    if base.scheme.isSlash c then relativeSlashState parseHost base rest
    else if c == '?' || c == '#' then some (queryState u input)
    else some (pathState
      { u with path := .segments (shorten base.scheme base.segments), query := none } input)

/-- the file host state -/
def fileHostState (input : List Char) : Option Url :=
  let buffer := input.takeWhile fun c => !Scheme.file.endsAuthority c
  let rest := input.dropWhile fun c => !Scheme.file.endsAuthority c
  -- a drive letter is no host: it stays in the buffer and becomes the first segment
  if isDriveLetter buffer then some (pathState { scheme := .file, host := some [] } input)
  else if buffer.isEmpty then some (pathStartState { scheme := .file, host := some [] } rest)
  else
    (parseHost true buffer).map fun host =>
      pathStartState
        { scheme := .file, host := some (if host = "localhost".toList then [] else host) } rest

/-- the file state and the file slash state; `base` is a file URL, if any -/
def fileState (base : Option Url) (input : List Char) : Option Url :=
  let u : Url := { scheme := .file, host := some [] }
  match input with
  | [] =>
    some (base.elim (pathState u []) fun b =>
      { u with host := b.host, path := b.path, query := b.query })
  | c :: rest =>
    if Scheme.file.isSlash c then
      match rest with
      | d :: rest' =>
        if Scheme.file.isSlash d then fileHostState parseHost rest' else some (slashed u rest)
      | [] => some (slashed u rest)
    else
      match base with
      | none => some (pathState u input)
      | some b =>
        let u := { u with host := b.host, path := b.path, query := b.query }
        if c == '?' || c == '#' then some (queryState u input)
        else
          let path := if startsWithDriveLetter input then [] else shorten .file b.segments
          some (pathState { u with path := .segments path, query := none } input)
where
  /-- one slash only: the drive of the base is kept -/
  slashed (u : Url) (rest : List Char) : Url :=
    match base with
    | none => pathState u rest
    | some b =>
      let drive := b.segments.take 1
      let path := if !startsWithDriveLetter rest && drive.all isNormalizedDriveLetter then drive
        else []
      pathState { u with host := b.host, path := .segments path } rest

def isSchemeChar (c : Char) : Bool := c.isAlphanum || c == '+' || c == '-' || c == '.'

/-- the scheme start and scheme states -/
def splitScheme (input : List Char) : Option (Scheme × List Char) :=
  match input.takeWhile isSchemeChar, input.dropWhile isSchemeChar with
  | c :: cs, ':' :: rest => if c.isAlpha then some (.ofText (asciiLower (c :: cs)), rest) else none
  | _, _ => none

/-- the states after a scheme -/
def schemeState (base : Option Url) (scheme : Scheme) (rest : List Char) : Option Url :=
  match scheme with
  | .file => fileState parseHost (base.filter fun b => b.scheme = .file) rest
  | .other _ =>
    match rest with
    | '/' :: '/' :: rest => authorityState parseHost scheme rest
    | '/' :: rest => some (pathState { scheme := scheme } rest)
    | _ => some (textPathState { scheme := scheme } rest)
  | _ =>
    match base.filter fun b => b.scheme = scheme with
    | none => ignoreSlashesState parseHost scheme rest
    | some b =>
      match rest with
      | '/' :: '/' :: rest => ignoreSlashesState parseHost scheme rest
      | _ => relativeState parseHost b rest

/-- the no scheme state -/
def noSchemeState (base : Option Url) (input : List Char) : Option Url :=
  match base with
  | none => none
  | some b =>
    match b.path with
    | .text _ => if input.head? = some '#' then some (queryState b input) else none
    | .segments _ =>
      if b.scheme = .file then fileState parseHost (some b) input
      else relativeState parseHost b input

/-- the basic URL parser -/
def parseUrl (base : Option Url) (input : List Char) : Option Url :=
  let input := cleanInput input
  match splitScheme input with
  | some (scheme, rest) => schemeState parseHost base scheme rest
  | none => noSchemeState parseHost base input

/-- `new URL(input, base)`; `none` is the `TypeError` -/
def newUrl (input base : List Char) : Option Url :=
  (parseUrl parseHost none base).bind fun b => parseUrl parseHost (some b) input

end

end ZTG
