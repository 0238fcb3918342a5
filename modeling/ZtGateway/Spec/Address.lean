import ZtGateway.Spec.Proxy

/-! Texts of IP addresses, and the addresses `ProxyService` is meant to keep away from: loopback
and cloud metadata, also where an IPv4 address is written as an IPv6 one. -/

namespace ZTG

/-- one to four hexadecimal digits -/
def hexGroup (p : List Char) : Option ℕ :=
  let digit (c : Char) : ℕ :=
    if c.isDigit then c.toNat - '0'.toNat
    else if 'a' ≤ c ∧ c ≤ 'f' then c.toNat - 'a'.toNat + 10
    else c.toNat - 'A'.toNat + 10
  let isHex (c : Char) : Bool := c.isDigit || 'a' ≤ c && c ≤ 'f' || 'A' ≤ c && c ≤ 'F'
  if p.all isHex && 1 ≤ p.length && p.length ≤ 4 then
    some (p.foldl (fun n c => 16 * n + digit c) 0)
  else none

/-- the groups between colons; where `tail` is set, the last may be an IPv4 address -/
def ipv6Groups (tail : Bool) : List (List Char) → Option (List ℕ)
  | [] => some []
  | [p] =>
    match tail, parseIPv4 (String.ofList p) with
    | true, some [a, b, c, d] => some [256 * a + b, 256 * c + d]
    | _, _ => (hexGroup p).map fun g => [g]
  | p :: ps =>
    match hexGroup p, ipv6Groups tail ps with
    | some g, some gs => some (g :: gs)
    | _, _ => none

/-- the text before and after the first `::` -/
def splitCompressed : List Char → Option (List Char × List Char)
  | ':' :: ':' :: rest => some ([], rest)
  | c :: rest => (splitCompressed rest).map fun x => (c :: x.1, x.2)
  | [] => none

/-- the eight groups of an IPv6 address; a zone after `%` is no part of the address -/
def parseIPv6 (s : String) : Option (List ℕ) :=
  let text := s.toList.takeWhile (· ≠ '%')
  let side (tail : Bool) (x : List Char) : Option (List ℕ) :=
    if x = [] then some [] else ipv6Groups tail (x.splitOn ':')
  match splitCompressed text with
  | none =>
    match side true text with
    | some groups => if groups.length = 8 then some groups else none
    | none => none
  | some (left, right) =>
    match side false left, side true right with
    | some l, some r =>
      if l.length + r.length < 8 then some (l ++ List.replicate (8 - l.length - r.length) 0 ++ r)
      else none
    | _, _ => none

/-- 127.0.0.0/8 and 169.254.169.254 -/
def blockedIPv4 (octets : List ℕ) : Bool :=
  octets.head? = some 127 || octets = [169, 254, 169, 254]

/-- ::1, and the IPv4-mapped form of a blocked address -/
def blockedIPv6 : List ℕ → Bool
  | [0, 0, 0, 0, 0, 0, 0, 1] => true
  | [0, 0, 0, 0, 0, 0xffff, g, h] => blockedIPv4 [g / 256, g % 256, h / 256, h % 256]
  | _ => false

/-- The text is one of a blocked address, in any notation. -/
def blockedAddress (address : String) : Bool :=
  match parseIPv4 address with
  | some octets => blockedIPv4 octets
  | none =>
    match parseIPv6 address with
    | some groups => blockedIPv6 groups
    | none => false

example : ["127.0.0.1", "::1", "0:0:0:0:0:0:0:1", "169.254.169.254", "::ffff:127.0.0.1",
    "::ffff:7f00:1", "::FFFF:169.254.169.254", "::1%lo"].all blockedAddress = true := by
  decide +kernel

example : ["10.0.0.1", "192.168.1.1", "1.1.1.1", "::ffff:10.0.0.1", "fe80::1", "::"].any
    blockedAddress = false := by
  decide +kernel

/-- One of the requests that axios makes for the one it was handed -/
structure Hop where
  /-- of the addresses that its own lookup of the host answers, those a connection is opened to -/
  opened : List String
  /-- where the answer is a redirect, what its `Location` says -/
  location : Option Url

/-- One request's network: the guard's lookup, the client certificate, the breaker, what each
attempt gets, and the way axios goes about it. -/
structure Network where
  /-- none where the lookup fails -/
  resolved : List Char → Option String
  agent : Except ProxyErr Unit
  admits : Bool
  replies : ℕ → Except ProxyErr AxiosResponse
  /-- hop `j` of attempt `k` -/
  hop : ℕ → ℕ → Url → Hop
  /-- how many redirects axios follows for a request that does not say -/
  maxRedirects : ℕ
  /-- the addresses that axios opens connections to for what it is handed at attempt `k` -/
  connects : ℕ → AxiosRequestConfig → List String

namespace Network

variable (net : Network) (k : ℕ)

/-- Redirects lead from one hop of attempt `k` to another. -/
inductive Reaches : ℕ → Url → ℕ → Url → Prop
  | here (j : ℕ) (url : Url) : Reaches j url j url
  | redirect {j i : ℕ} {url next last : Url} (h : (net.hop k j url).location = some next)
      (hnext : Reaches (j + 1) next i last) : Reaches j url i last

/-- What axios documents: it goes to the URL it was handed and then after each redirect, up to its
limit, and looks up the host of every hop. -/
def FollowsRedirects : Prop :=
  ∀ k config address, address ∈ net.connects k config ↔
    ∃ j url, net.Reaches k 0 config.url j url ∧ j ≤ net.maxRedirects ∧
      address ∈ (net.hop k j url).opened

/-- the connections of the hops from `j` on, of which `left` may be redirects -/
def openedFrom : ℕ → ℕ → Url → List String
  | 0, j, url => (net.hop k j url).opened
  | left + 1, j, url => (net.hop k j url).opened ++
    match (net.hop k j url).location with
    | some next => openedFrom left (j + 1) next
    | none => []

/-- the network with an axios that does what is documented -/
def following : Network :=
  { net with connects := fun k config => net.openedFrom k net.maxRedirects 0 config.url }

end Network

def ProxyCall.axiosConfig? : ProxyCall → Option AxiosRequestConfig
  | .axios config => some config
  | _ => none

/-- the requests handed to axios so far -/
def handed (tr : Trace ProxyCall ProxyReply) : List AxiosRequestConfig :=
  tr.filterMap fun e => e.op.axiosConfig?

def Network.env (net : Network) : Env ProxyCall ProxyReply := fun tr op =>
  match op with
  | .lookup hostname =>
    match net.resolved hostname with
    | none =>
      .error (.error ("getaddrinfo ENOTFOUND " ++ String.ofList hostname) (some "ENOTFOUND"))
    | some address => .ok address
  | .getHttpsAgent => net.agent
  | .admits _ => net.admits
  | .axios _ => net.replies (handed tr).length
  | .sleep _ => ()

/-- the addresses that a run of `forward` connects to -/
def Network.connections (net : Network) (p : ProxyService) (req : Request) (claims : UserClaims)
    (trustScore : JsNum) : List String :=
  (handed (Act.exec net.env (p.forward req claims trustScore) () []).2).zipIdx.flatMap fun x =>
    net.connects x.2 x.1

end ZTG
