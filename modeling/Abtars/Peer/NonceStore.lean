import Abtars.Board.Dependencies

/-!
# The durable nonce store and request signatures

`PeerNonceStore` with its two tables, and the checks of `peer-auth` that read and write it.  A
statement that the database refuses is an input of the call, and so are the readings of the
clock between its statements.
-/

namespace Abtars

open Lib

/-! ## The store -/

def nonceTtlMs : Nat := 60000

/-- A row of `peer_request_nonces`. -/
structure HttpNonce where
  nonce : String
  seenAt : Nat
  expiresAt : Nat

/-- A row of `peer_ws_request_nonces`. -/
structure WsNonce where
  peerId : String
  nonce : String
  seenAt : Nat
  expiresAt : Nat

instance : Keyed HttpNonce String := ⟨HttpNonce.nonce⟩

instance : Keyed WsNonce (String × String) := ⟨fun row => (row.peerId, row.nonce)⟩

structure NonceStore where
  http : Table HttpNonce
  wss : Table WsNonce

def NonceStore.empty : NonceStore := ⟨∅, ∅⟩

/-- What `Date.now()` gives in one request: for its timestamp, for the two deletes of expired
rows, and for the row that is written. -/
structure RequestClock where
  stamp : Nat
  http : Nat
  wss : Nat
  write : Nat
  ordered : stamp ≤ http ∧ http ≤ wss ∧ wss ≤ write

structure StoreFaults where
  http : Bool
  wss : Bool
  select : Bool
  write : Bool

def StoreFaults.none : StoreFaults := ⟨false, false, false, false⟩

def deleteHttp (s : NonceStore) (now : Nat) : NonceStore :=
  { s with http := s.http.deleteWhere fun row => row.expiresAt < now }

def deleteWss (s : NonceStore) (now : Nat) : NonceStore :=
  { s with wss := s.wss.deleteWhere fun row => row.expiresAt < now }

/-- `prune`, whose statements fail on their own. -/
def NonceStore.prune (s : NonceStore) (http wss : Nat) (faults : StoreFaults) : NonceStore :=
  let s := if faults.http then s else deleteHttp s http
  if faults.wss then s else deleteWss s wss

/-- `isSeen`; none is a `SELECT` that throws. -/
def isSeen (s : NonceStore) (nonce : String) (clock : RequestClock) (faults : StoreFaults) :
    NonceStore × Option Bool :=
  let s := s.prune clock.http clock.wss faults
  (s, if faults.select then none else some (s.http.has nonce))

/-- `record`; a refused `INSERT` is swallowed. -/
def recordHttpNonce (s : NonceStore) (nonce : String) (now : Nat) (faults : StoreFaults) :
    NonceStore :=
  if faults.write then s
  else { s with http := s.http.insertOrIgnore (fun _ => false) ⟨nonce, now, now + nonceTtlMs⟩ }

inductive ClaimResult
  | claimed
  | replay
  | storeError

/-- `claim`, which no caller gives a time of its own. -/
def claim (s : NonceStore) (peerId nonce : String) (clock : RequestClock) (faults : StoreFaults) :
    NonceStore × ClaimResult :=
  if faults.wss then (s, .storeError)
  else
    let s := deleteWss s clock.wss
    if faults.write then (s, .storeError)
    else
      match s.wss.insert (fun _ => false)
          ⟨peerId, nonce, clock.write, clock.write + nonceTtlMs⟩ with
      | none => (s, .replay)
      | some wss => ({ s with wss := wss }, .claimed)

/-! ## Signed requests -/

def tsWindowSec : Nat := 30

/-- `edVerify` and the hexadecimal SHA-256. -/
structure RequestCrypto where
  edVerify : (verifyKey message sig : String) → Bool
  sha256 : String → String

/-- `VerifyRequestResult`: an error is the reason of a refusal. -/
abbrev VerifyRequestResult := Except String Unit

def inTsWindow (ts : Int) (now : Nat) : Bool := ((now / 1000 : Nat) - ts).natAbs ≤ tsWindowSec

/-- The fields and the text of a WSS request frame, and the key it is checked with. -/
structure WsRequest where
  peerId : String
  requestId : String
  ts : String
  nonce : String
  sig : String
  method : String
  canonicalPath : String
  body : String
  verifyKey : String

variable (crypto : RequestCrypto)

def WsRequest.canonical (r : WsRequest) : String :=
  "abtars-ws-req-v1\n" ++ r.peerId ++ "\n" ++ r.requestId ++ "\n" ++ r.method ++ "\n" ++
    r.canonicalPath ++ "\n" ++ r.ts ++ "\n" ++ r.nonce ++ "\n" ++ crypto.sha256 r.body

/-- `Number(tsStr)` of a text of digits. -/
def WsRequest.timestamp (r : WsRequest) : Int := (digitsValue 10 r.ts.toList).getD 0

/-- The test `/^[0-9a-f]{32}$/`. -/
def isWsNonce (nonce : List Char) : Bool :=
  nonce.length = 32 ∧ nonce.all fun c => c.isDigit ∨ ('a' ≤ c ∧ c ≤ 'f')

def isWsSig (sig : List Char) : Bool :=
  let text := (sig.reverse.dropWhile (· = '=')).reverse
  sig.length % 4 = 0 ∧ text ≠ [] ∧ sig.length ≤ text.length + 2 ∧
    text.all fun c => c.isAlphanum ∨ c = '+' ∨ c = '/'

def verifyWsRequestSignature (r : WsRequest) (now : Nat) : VerifyRequestResult :=
  if r.peerId = "" ∨ r.requestId = "" ∨ r.ts = "" ∨ r.nonce = "" ∨ r.sig = "" then
    .error "missing_fields"
  else if !r.ts.toList.all Char.isDigit then .error "invalid_ts"
  else if !isWsNonce r.nonce.toList then .error "invalid_nonce"
  else if !isWsSig r.sig.toList then .error "invalid_sig"
  else if 2 ^ 53 ≤ r.timestamp then .error "invalid_ts"
  else if !inTsWindow r.timestamp now then .error "stale_ts"
  else if !crypto.edVerify r.verifyKey (r.canonical crypto) r.sig then .error "bad_sig"
  else .ok ()

/-- `verifyWsRequest`; the broker makes the same two calls itself. -/
def verifyWsRequest (s : NonceStore) (r : WsRequest) (clock : RequestClock) (faults : StoreFaults) :
    NonceStore × VerifyRequestResult :=
  match verifyWsRequestSignature crypto r clock.stamp with
  | .error reason => (s, .error reason)
  | .ok () =>
    match claim s r.peerId r.nonce clock faults with
    | (s, .claimed) => (s, .ok ())
    | (s, .replay) => (s, .error "nonce_replay")
    | (s, .storeError) => (s, .error "store_error")

/-- An HTTP request and the key it is checked with.  A header that is no single string has no
text. -/
structure HttpRequest where
  headers : List (String × Option String)
  method : String
  path : String
  body : String
  verifyKey : String

def HttpRequest.header (r : HttpRequest) (name : String) : Option String :=
  (r.headers.filter fun entry => entry.1.toLower = name).getLast?.bind Prod.snd

/-- `parseInt(text, 10)`. -/
def parseInt10 (text : List Char) : Option Int :=
  let text := text.dropWhile isJsSpace
  let (negative, text) := match text with
    | '-' :: rest => (true, rest)
    | '+' :: rest => (false, rest)
    | _ => (false, text)
  let digits := text.takeWhile Char.isDigit
  if digits = [] then none
  else (digitsValue 10 digits).map fun n => if negative then -(n : Int) else n

def httpCanonical (r : HttpRequest) (ts nonce : String) : String :=
  "abtars-req-v1\n" ++ r.method ++ "\n" ++ r.path ++ "\n" ++ ts ++ "\n" ++ nonce ++ "\n" ++
    crypto.sha256 r.body

/-- `verifyRequest`; no result is a nonce lookup that throws. -/
def verifyRequest (s : NonceStore) (r : HttpRequest) (clock : RequestClock) (faults : StoreFaults) :
    NonceStore × Option VerifyRequestResult :=
  match r.header "x-peer-id", r.header "x-peer-ts", r.header "x-peer-nonce",
      r.header "x-peer-sig" with
  | some _, some tsHeader, some nonce, some sig =>
    match parseInt10 tsHeader.toList with
    | none => (s, some (.error "invalid_ts"))
    | some ts =>
      if !inTsWindow ts clock.stamp then (s, some (.error "stale_ts"))
      else
        match isSeen s nonce clock faults with
        | (s, none) => (s, none)
        | (s, some true) => (s, some (.error "nonce_replay"))
        | (s, some false) =>
          if !crypto.edVerify r.verifyKey (httpCanonical crypto r tsHeader nonce) sig then
            (s, some (.error "bad_sig"))
          else (recordHttpNonce s nonce clock.write faults, some (.ok ()))
  | _, _, _, _ => (s, some (.error "missing_headers"))

end Abtars
