import Mathlib.Tactic

/-! `ja4h.util.ts`, and the requests that Node's HTTP parser delivers to it. -/

namespace ZTG

/-- what `computeJa4h` reads of a request -/
structure IncomingMessage where
  method : String
  httpVersion : Option String
  /-- names and values in turn, as the client sent them -/
  rawHeaders : List String
  headers : String → Option String

/-- the loop over the even indices -/
def evenIndices : List String → List String
  | [] => []
  | [name] => [name]
  | name :: _ :: rest => name :: evenIndices rest

def ja4hInput (req : IncomingMessage) : String :=
  let headerNames := evenIndices req.rawHeaders
  let accept := (req.headers "accept").getD ""
  let contentType := (req.headers "content-type").getD ""
  let httpVersion := req.httpVersion.getD "1.1"
  "|".intercalate [req.method, httpVersion, ",".intercalate headerNames, accept, contentType]

/-- `sha256Hex` is SHA-256 over the UTF-8 bytes of a text, in hex -/
def computeJa4h (sha256Hex : String → String) (req : IncomingMessage) : String :=
  sha256Hex (ja4hInput req)

/-- `http.METHODS` -/
def METHODS : List String :=
  ["ACL", "BIND", "CHECKOUT", "CONNECT", "COPY", "DELETE", "GET", "HEAD", "LINK", "LOCK",
    "M-SEARCH", "MERGE", "MKACTIVITY", "MKCALENDAR", "MKCOL", "MOVE", "NOTIFY", "OPTIONS", "PATCH",
    "POST", "PROPFIND", "PROPPATCH", "PURGE", "PUT", "QUERY", "REBIND", "REPORT", "SEARCH",
    "SOURCE", "SUBSCRIBE", "TRACE", "UNBIND", "UNLINK", "UNLOCK", "UNSUBSCRIBE"]

def VERSIONS : List String := ["0.9", "1.0", "1.1", "2.0"]

/-- a character of an HTTP token -/
def tokenChar (c : Char) : Bool := c.isAlphanum || "!#$%&'*+-.^_`|~".toList.contains c

def blankChar (c : Char) : Bool := c == ' ' || c == '\t'

/-- a character of a field value; Node reads each byte as one character -/
def valueChar (c : Char) : Bool :=
  blankChar c || (0x21 ≤ c.toNat && c.toNat ≤ 0x7e) || (0x80 ≤ c.toNat && c.toNat ≤ 0xff)

/-- legal field values: blanks around a value are not part of it -/
def legalValue (s : List Char) : Bool :=
  s.all valueChar && !s.head?.any blankChar && !s.getLast?.any blankChar

abbrev Token := { s : String // s ≠ "" ∧ s.toList.all tokenChar = true }

abbrev FieldValue := { s : String // legalValue s.toList = true }

structure FieldLine where
  name : Token
  value : FieldValue

/-- a request as the parser has accepted it -/
structure RequestHead where
  method : String
  version : String
  lines : List FieldLine
  method_known : method ∈ METHODS
  version_known : version ∈ VERSIONS

/-- the values of the lines of one name, in order -/
def lineValues (lines : List FieldLine) (name : String) : List String :=
  (lines.filter fun l => l.name.1.toLower = name).map fun l => l.value.1

/-- `IncomingMessage.headers`: a repeated `content-type` is dropped, the values of any other header
are joined (but for the few that the gateway does not read here) -/
def nodeHeaders (lines : List FieldLine) (name : String) : Option String :=
  match lineValues lines name with
  | [] => none
  | v :: vs => some (if name = "content-type" then v else ", ".intercalate (v :: vs))

/-- what Node delivers -/
def RequestHead.delivered (r : RequestHead) : IncomingMessage where
  method := r.method
  httpVersion := some r.version
  rawHeaders := r.lines.flatMap fun l => [l.name.1, l.value.1]
  headers := nodeHeaders r.lines

end ZTG
