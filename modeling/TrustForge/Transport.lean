import TrustForge.Foundation.HttpGrammar
import TrustForge.Foundation.Lines
import TrustForge.Foundation.Result

/-!
# The HTTP client

Model of the request side of `tf-transport`: the checks of a URL and of header fields, and
the text that is written before the body.  Header fields and the authority of a URL are
checked for line ends, the path is not.
-/

namespace TrustForge.Transport

open HttpGrammar Text List
open Lines (splitOnce)

inductive Method where
  | get
  | post
  deriving DecidableEq

def Method.asStr : Method → String
  | .get => "GET"
  | .post => "POST"

/-- `HttpRequest`, as far as the text of a request depends on it. -/
structure HttpRequest where
  method : Method
  url : String
  headers : List (String × String)
  body : Bytes

/-- `HttpError`, as far as it is about a request. -/
inductive HttpError where
  | unsupportedUrl (url : String)
  | invalidHeader (name : String)
  deriving DecidableEq

/-! ## Checks -/

def isReservedRequestHeader (name : String) : Bool :=
  ["host", "connection", "content-length", "transfer-encoding"].contains (name.map Char.toLower)

def validateHeaders : List (String × String) → Except HttpError Unit
  | [] => .ok ()
  | (name, value) :: rest =>
    if name.isEmpty || (utf8 name).any fun b => b ≤ 0x20 || b == 58 || b == 13 || b == 10 then
      .error (.invalidHeader name)
    else if isReservedRequestHeader name then .error (.invalidHeader name)
    else if (utf8 value).any fun b => b == 13 || b == 10 then .error (.invalidHeader name)
    else validateHeaders rest

/-- `str::parse::<u16>`: digits, perhaps after a plus sign, of a number below `2 ^ 16`. -/
def parseU16 (text : List Char) : Option UInt16 :=
  let digits := if text.head? = some '+' then text.tail else text
  let value := Nat.ofDigitChars 10 digits 0
  if digits ≠ [] ∧ digits.all Char.isDigit ∧ value < 2 ^ 16 then some (.ofNat value) else none

def validPort (port : List Char) : Bool :=
  !port.isEmpty && (parseU16 port).isSome

def rsplitOnce (separator : Char) (text : List Char) : Option (List Char × List Char) :=
  (splitOnce separator text.reverse).map fun parts => (parts.2.reverse, parts.1.reverse)

/-- The address to connect to, from the authority of a URL. -/
def parseAuthority (authority : List Char) : Option (List Char) :=
  if authority.head? = some '[' then do
    let (host, rest) ← splitOnce ']' authority.tail
    if host = [] then none
    else if rest = [] then some (['['] ++ host ++ [']', ':', '8', '0'])
    else if rest.head? = some ':' ∧ validPort rest.tail then
      some (['['] ++ host ++ [']', ':'] ++ rest.tail)
    else none
  else if 1 < authority.count ':' then none
  else
    match rsplitOnce ':' authority with
    | some (host, port) => if host = [] ∨ ¬validPort port then none else some authority
    | none => some (authority ++ [':', '8', '0'])

/-- Where the authority ends. -/
def startsPath (c : Char) : Bool :=
  c == '/' || c == '?'

/-- `parse_url`: the address, the host header and the path. -/
def parseUrl (url : String) : Except HttpError (String × String × String) :=
  match List.isPrefixOf? "http://".toList url.toList with
  | none => .error (.unsupportedUrl url)
  | some rest =>
    let authority := rest.takeWhile (!startsPath ·)
    let tail := rest.dropWhile (!startsPath ·)
    let path := if tail.head? = some '/' then tail else '/' :: tail
    if authority = [] ∨ '@' ∈ authority ∨ '#' ∈ authority ∨
        (utf8 (String.ofList authority)).any fun b => b ≤ 0x20 || b == 47 then
      .error (.unsupportedUrl url)
    else
      match parseAuthority authority with
      | none => .error (.unsupportedUrl url)
      | some addr => .ok (.ofList addr, .ofList authority, .ofList path)

/-! ## The text of a request -/

/-- The line of one header field. -/
def pushHeader (raw : String) (header : String × String) : String :=
  raw ++ header.1 ++ ": " ++ header.2 ++ "\r\n"

variable (req : HttpRequest) (host path : String)

/-- What `send_inner` writes before the body. -/
def rawRequest : String :=
  let method := req.method.asStr
  let length := req.body.length
  let raw := s!"{method} {path} HTTP/1.1\r\nHost: {host}\r\nConnection: close\r\n"
  let raw := req.headers.foldl pushHeader raw
  let raw :=
    if req.body ≠ [] ∨ req.method = .post then raw ++ s!"Content-Length: {length}\r\n" else raw
  raw ++ "\r\n"

/-- `send_inner` up to the body, when the connection is there. -/
def writtenHead : Except HttpError Bytes := do
  validateHeaders req.headers
  let (_, host, path) ← parseUrl req.url
  .ok (utf8 (rawRequest req host path))

/-! ## The request that is meant -/

/-- `Content-Length` is given with a body, and always for a `POST`. -/
def contentLength : List (String × String) :=
  if req.body ≠ [] ∨ req.method = .post then [("Content-Length", toString req.body.length)] else []

/-- All header fields of a request. -/
def allHeaders (host : String) : List (String × String) :=
  [("Host", host), ("Connection", "close")] ++ req.headers ++ contentLength req

/-- One request line of three parts. -/
def requestLine (path : String) : RequestLine :=
  ⟨utf8 req.method.asStr, utf8 path, utf8 "HTTP/1.1"⟩

/-- A header field as it is. -/
def plainField (header : String × String) : Field :=
  ⟨utf8 header.1, utf8 header.2⟩

/-- A header field as it is read, without blanks around its value. -/
def trimmedField (header : String × String) : Field :=
  ⟨utf8 header.1, trimBlanks (utf8 header.2)⟩

/-- One request line, the host, the connection, the given header fields and the length. -/
def meantHead : Head where
  line := requestLine req path
  fields := [plainField ("Host", host), plainField ("Connection", "close")] ++
    req.headers.map trimmedField ++ (contentLength req).map plainField

theorem utf8_pushHeader (raw : String) (header : String × String) :
    utf8 (pushHeader raw header) =
      utf8 raw ++ (fieldLine (utf8 header.1) (utf8 header.2) ++ [13, 10]) := by
  have colon : utf8 ": " = [58, 32] := by decide
  have lineEnd : utf8 "\r\n" = [13, 10] := by decide
  simp [pushHeader, utf8_append, colon, lineEnd, fieldLine]

theorem utf8_foldl_pushHeader (raw : String) (headers : List (String × String)) :
    utf8 (headers.foldl pushHeader raw) =
      utf8 raw ++ headers.flatMap fun header =>
        fieldLine (utf8 header.1) (utf8 header.2) ++ [13, 10] := by
  induction headers generalizing raw with
  | nil => simp
  | cons header headers ih =>
    rw [foldl_cons, ih, utf8_pushHeader, flatMap_cons, append_assoc]

/-- The three header fields of the client's own are written like the others. -/
theorem rawRequest_eq_foldl :
    rawRequest req host path =
      (allHeaders req host).foldl pushHeader
        (req.method.asStr ++ " " ++ path ++ " HTTP/1.1\r\n") ++ "\r\n" := by
  have hostName : " HTTP/1.1\r\nHost: " = " HTTP/1.1\r\n" ++ ("Host" ++ ": ") := by decide
  have connection : "\r\nConnection: close\r\n" =
      "\r\n" ++ ("Connection" ++ (": " ++ ("close" ++ "\r\n"))) := by decide
  have length : "Content-Length: " = "Content-Length" ++ ": " := by decide
  have start (method : String) :
      s!"{method} {path} HTTP/1.1\r\nHost: {host}\r\nConnection: close\r\n" =
        [("Host", host), ("Connection", "close")].foldl pushHeader
          (method ++ " " ++ path ++ " HTTP/1.1\r\n") := by
    change method ++ " " ++ path ++ " HTTP/1.1\r\nHost: " ++ host ++ "\r\nConnection: close\r\n" = _
    rw [hostName, connection]
    simp [pushHeader, String.append_assoc]
  simp only [rawRequest, allHeaders, contentLength, foldl_append, start]
  split
  · change _ ++ ("Content-Length: " ++ toString req.body.length ++ "\r\n") ++ "\r\n" = _
    rw [length]
    simp [pushHeader, String.append_assoc]
  · rw [foldl_nil]

/-- The text is the request line and the header fields, one after the other. -/
theorem utf8_rawRequest :
    utf8 (rawRequest req host path) =
      headBytes (requestLine req path)
        ((allHeaders req host).map fun header => (utf8 header.1, utf8 header.2)) := by
  have lineEnd : utf8 "\r\n" = [13, 10] := by decide
  have space : utf8 " " = [32] := by decide
  have version : utf8 " HTTP/1.1\r\n" = 32 :: (utf8 "HTTP/1.1" ++ [13, 10]) := by decide
  rw [rawRequest_eq_foldl, utf8_append, utf8_foldl_pushHeader, lineEnd, headBytes, fieldsBytes, requestLine,
    HttpGrammar.RequestLine.bytes]
  simp [utf8_append, space, version, flatMap_map]

/-! ## What is written is what is meant -/

/-- The host of an accepted URL has no blanks. -/
theorem not_isBlank_host {url addr host path : String}
    (parsed : parseUrl url = .ok (addr, host, path)) : ∀ b ∈ utf8 host, isBlank b = false := by
  intro b mem
  unfold parseUrl at parsed
  split at parsed
  · contradiction
  · obtain ⟨checked, parsed⟩ := Result.ite_eq_ok parsed
    split at parsed
    · contradiction
    · cases parsed
      simp only [not_or, any_eq_true, not_exists, not_and, Bool.or_eq_true, decide_eq_true_eq] at checked
      have visible : ¬b ≤ 32 := (checked.2.2.2 b mem).1
      rw [isBlank, Bool.or_eq_false_iff, beq_eq_false_iff_ne, beq_eq_false_iff_ne]
      constructor <;> rintro rfl <;> exact visible (by decide)

theorem isDigit_iff {b : UInt8} : isDigit b = true ↔ 48 ≤ b.toNat ∧ b.toNat ≤ 57 := by
  rw [isDigit, Bool.and_eq_true, decide_eq_true_iff, decide_eq_true_iff]
  rfl

theorem isDigit_of_mem_toString {n : Nat} {b : UInt8} (mem : b ∈ utf8 (toString n)) :
    isDigit b = true := by
  have range (c : Char) (member : c ∈ Nat.toDigits 10 n) : 48 ≤ c.toNat ∧ c.toNat ≤ 57 :=
    Char.isDigit_iff_toNat.mp (Nat.isDigit_of_mem_toDigits (by decide) (by decide) member)
  have text : toString n = String.ofList (Nat.toDigits 10 n) := Nat.toString_eq_ofList_toDigits
  rw [text, utf8_ofList_of_ascii _ fun c member => by have := range c member; omega, mem_map] at mem
  obtain ⟨c, member, rfl⟩ := mem
  have bounds := range c member
  have small : c.toNat < UInt8.size := lt_of_le_of_lt bounds.2 (by decide)
  rw [isDigit_iff, UInt8.toNat_ofNat_of_lt' small]
  exact bounds

theorem not_isBlank_of_isDigit {b : UInt8} (digit : isDigit b = true) :
    isBlank b = false := by
  rw [isBlank, Bool.or_eq_false_iff, beq_eq_false_iff_ne, beq_eq_false_iff_ne]
  constructor <;> rintro rfl <;> contradiction

theorem isFieldByte_of_isDigit {b : UInt8} (digit : isDigit b = true) :
    isFieldByte b = true := by
  rw [isDigit_iff] at digit
  have low : (33 : UInt8) ≤ b := UInt8.le_iff_toNat_le.mpr (le_trans (by decide) digit.1)
  have high : b ≤ 126 := UInt8.le_iff_toNat_le.mpr (le_trans digit.2 (by decide))
  simp [isFieldByte, low, high]

variable {req : HttpRequest} {addr host path : String}

/-- The client's own header fields have no blanks around their values. -/
theorem meantHead_eq (parsed : parseUrl req.url = .ok (addr, host, path)) :
    meantHead req host path =
      ⟨requestLine req path, (allHeaders req host).map trimmedField⟩ := by
  have hostField : plainField ("Host", host) = trimmedField ("Host", host) := by
    rw [plainField, trimmedField, trimBlanks_eq_self (not_isBlank_host parsed)]
  have connection : plainField ("Connection", "close") = trimmedField ("Connection", "close") := by
    decide
  have lengthField : (contentLength req).map plainField = (contentLength req).map trimmedField := by
    unfold contentLength
    split
    · rw [map_singleton, map_singleton, plainField, trimmedField,
        trimBlanks_eq_self fun b mem => not_isBlank_of_isDigit (isDigit_of_mem_toString mem)]
    · rfl
  rw [meantHead, allHeaders, hostField, connection, lengthField]
  simp

theorem isToken_ownHeaders :
    isToken (utf8 "Host") = true ∧ isToken (utf8 "Connection") = true ∧
      isToken (utf8 "Content-Length") = true := by
  decide

theorem isToken_method (method : Method) : isToken (utf8 method.asStr) = true := by
  cases method <;> decide

theorem isVersion_own : isVersion (utf8 "HTTP/1.1") = true := by
  decide

/-- The client's own header fields keep to the grammar if the host does. -/
theorem validFields {host : String} (hostValue : (utf8 host).all isFieldByte = true)
    (given : ∀ header ∈ req.headers, isToken (utf8 header.1) = true ∧
      (utf8 header.2).all isFieldByte = true) :
    ∀ field ∈ (allHeaders req host).map fun header => (utf8 header.1, utf8 header.2),
      isToken field.1 = true ∧ field.2.all isFieldByte = true := by
  rw [forall_mem_map, allHeaders, forall_mem_append, forall_mem_append]
  refine ⟨⟨?_, given⟩, ?_⟩
  · rw [forall_mem_cons, forall_mem_singleton]
    exact ⟨⟨isToken_ownHeaders.1, hostValue⟩, isToken_ownHeaders.2.1, by decide⟩
  · unfold contentLength
    split
    · rw [forall_mem_singleton]
      refine ⟨isToken_ownHeaders.2.2, all_eq_true.mpr fun b mem => ?_⟩
      exact isFieldByte_of_isDigit (isDigit_of_mem_toString mem)
    · exact forall_mem_nil _

theorem writtenHead_of_accepted (accepted : validateHeaders req.headers = .ok ())
    (parsed : parseUrl req.url = .ok (addr, host, path)) :
    writtenHead req = .ok (utf8 (rawRequest req host path)) := by
  rw [writtenHead, accepted, parsed]
  rfl

/-- A request to an accepted URL with accepted headers is read as exactly one request with the
header fields that are meant if and only if the path, the host and the header fields keep to the
grammar. -/
theorem readHead_writtenHead_iff {written : Bytes}
    (parsed : parseUrl req.url = .ok (addr, host, path)) (sent : writtenHead req = .ok written) :
    readHead written = some (meantHead req host path, []) ↔
      isTarget (utf8 path) = true ∧ (utf8 host).all isFieldByte = true ∧
        ∀ header ∈ req.headers, isToken (utf8 header.1) = true ∧
          (utf8 header.2).all isFieldByte = true := by
  obtain ⟨-, -, sent⟩ := Result.bind_eq_ok sent
  rw [parsed] at sent
  obtain rfl := Except.ok.inj sent
  rw [meantHead_eq parsed, utf8_rawRequest]
  constructor
  · intro read
    obtain ⟨line, fields⟩ := valid_of_readHead read
    rw [forall_mem_map, allHeaders, forall_mem_append, forall_mem_append] at fields
    obtain ⟨⟨own, given⟩, -⟩ := fields
    have hostField := own ("Host", host) mem_cons_self
    refine ⟨line.2.1, (all_trimBlanks _).symm.trans hostField.2, fun header mem => ?_⟩
    have field := given header mem
    exact ⟨field.1, (all_trimBlanks _).symm.trans field.2⟩
  · rintro ⟨target, hostValue, given⟩
    have line : (requestLine req path).Valid := ⟨isToken_method req.method, target, isVersion_own⟩
    rw [readHead_headBytes line (validFields hostValue given), map_map]
    rfl

/-- A daemon call. -/
def daemonCall : HttpRequest where
  method := .post
  url := "http://localhost:8080/v1/actors?limit=5"
  headers := [("Content-Type", "application/json")]
  body := [123, 125]

theorem parseUrl_daemonCall : parseUrl daemonCall.url =
    .ok ("localhost:8080", "localhost:8080", "/v1/actors?limit=5") := by
  decide +kernel

theorem readHead_writtenHead_iff_daemonCall :
    ∃ written, writtenHead daemonCall = .ok written ∧
      readHead written = some (meantHead daemonCall "localhost:8080" "/v1/actors?limit=5", []) := by
  have sent := writtenHead_of_accepted (by decide +kernel) parseUrl_daemonCall
  exact ⟨_, sent, (readHead_writtenHead_iff parseUrl_daemonCall sent).mpr (by decide +kernel)⟩

/-- A URL with line ends in its path. -/
def smuggled : HttpRequest where
  method := .get
  url := "http://localhost/ HTTP/1.1\r\nHost: other\r\n\r\nDELETE /v1/actors"
  headers := []
  body := []

theorem parseUrl_smuggled : parseUrl smuggled.url =
    .ok ("localhost:80", "localhost",
      "/ HTTP/1.1\r\nHost: other\r\n\r\nDELETE /v1/actors") := by
  decide +kernel

/-- Both checks pass, and the text is a request with another host and a request behind it. -/
theorem smuggled_read_as_two :
    ∃ written rest, writtenHead smuggled = .ok written ∧
      readHead written = some (⟨⟨utf8 "GET", utf8 "/", utf8 "HTTP/1.1"⟩,
        [plainField ("Host", "other")]⟩, rest) ∧
      readHead rest = some (⟨⟨utf8 "DELETE", utf8 "/v1/actors", utf8 "HTTP/1.1"⟩,
        [plainField ("Host", "localhost"), plainField ("Connection", "close")]⟩, []) :=
  ⟨_, utf8 "DELETE /v1/actors HTTP/1.1\r\nHost: localhost\r\nConnection: close\r\n\r\n",
    writtenHead_of_accepted rfl parseUrl_smuggled, by decide +kernel, by decide +kernel⟩

end TrustForge.Transport
