import Mathlib.Algebra.Ring.Int.Defs
import TrustForge.Bridge
import TrustForge.Foundation.BigEndian
import TrustForge.Foundation.Result

/-!
# OCSP answers

Model of `OcspCheck` and of the module `ocsp` in `bridge_tls.rs`: a walker over DER by positions,
the readers of an `OCSPResponse` down to its `SingleResponse` entries, and the query that decides by
the first of them.

The source skips the `CertID` of a `SingleResponse`.  Here its contents are kept, so that one can
say which certificate an entry is about.
-/

namespace TrustForge.Ocsp

open Option Result
open Result (okOr require)

structure X509Cert where
  der : Bytes
  subject : String
  serialBe : Bytes

/-- `X509Cert::from_der`, with the parser's subject and the contents of the serial number. -/
def X509Cert.fromDer (parse : Bytes → Except String (String × Bytes)) (der : Bytes) :
    Except BridgeError X509Cert := do
  let (subject, rawSerial) ← (parse der).mapError fun e => .invalidInput s!"X509Cert: {e}"
  return ⟨der, subject, rawSerial⟩

inductive OcspStatus where
  | good
  | revoked
  | unknown
  deriving DecidableEq

inductive OcspError where
  | parse (what : String)
  | responderError (status : UInt8)
  | notBasic
  | notYetValid (thisUpdate now : Int)
  | stale (nextUpdate now : Int)
  | noSingleResponses

/-- Why a reader ends without a result. -/
inductive Stop where
  | error (e : OcspError)
  /-- A text is cut inside of a character. -/
  | panic

/-! ## The walker -/

structure Tlv where
  tag : UInt8
  contentStart : Nat
  contentLen : Nat

/-- The position behind the contents. -/
def Tlv.stop (t : Tlv) : Nat :=
  t.contentStart + t.contentLen

/-- `&buf[t.content_start..t.content_start + t.content_len]`. -/
def Tlv.contents (t : Tlv) (buf : Bytes) : Bytes :=
  (buf.drop t.contentStart).take t.contentLen

/-- `read_length`: the length and the number of bytes it takes. -/
def readLength (buf : Bytes) (pos : Nat) : Option (Nat × Nat) := do
  let b ← buf[pos]?
  if b < 0x80 then some (b.toNat, 1)
  else
    let n := (b &&& 0x7f).toNat
    if n = 0 ∨ n > 4 ∨ pos + n ≥ buf.length then none
    else some (BigEndian.decode ((buf.drop (pos + 1)).take n), 1 + n)

def readTlv (buf : Bytes) (pos : Nat) : Option Tlv := do
  let tag ← buf[pos]?
  let (len, header) ← readLength buf (pos + 1)
  if pos + 1 + header + len > buf.length then none else some ⟨tag, pos + 1 + header, len⟩

def readSeq (buf : Bytes) (pos : Nat) : Option Tlv :=
  (readTlv buf pos).filter fun t => t.tag = 0x30

theorem readLength_pos {buf : Bytes} {pos len header : Nat}
    (read : readLength buf pos = some (len, header)) : 1 ≤ header := by
  obtain ⟨b, _, read⟩ := bind_eq_some_iff.mp read
  split at read
  · obtain ⟨rfl, rfl⟩ := Prod.mk.inj (Option.some.inj read)
    exact le_refl 1
  · dsimp only at read
    split at read
    · contradiction
    · obtain ⟨_, rfl⟩ := Prod.mk.inj (Option.some.inj read)
      exact Nat.le_add_right 1 _

/-- An element lies within the buffer, behind the position it is read from. -/
theorem readTlv_bounds {buf : Bytes} {pos : Nat} {t : Tlv} (read : readTlv buf pos = some t) :
    pos < t.stop ∧ t.stop ≤ buf.length := by
  obtain ⟨tag, _, read⟩ := bind_eq_some_iff.mp read
  obtain ⟨⟨len, header⟩, length, read⟩ := bind_eq_some_iff.mp read
  dsimp only at read
  split at read
  · contradiction
  · next inside =>
    have some := readLength_pos length
    obtain rfl := Option.some.inj read
    rw [Tlv.stop]
    dsimp only
    omega

theorem readSeq_bounds {buf : Bytes} {pos : Nat} {t : Tlv} (read : readSeq buf pos = some t) :
    pos < t.stop ∧ t.stop ≤ buf.length :=
  readTlv_bounds (filter_eq_some_iff.mp read).1

/-- A missing element is an error that names it. -/
def expect {α : Type} (found : Option α) (what : String) : Except Stop α :=
  okOr found (.error (.parse what))

/-! ## Times -/

def isCharBoundary (text : Bytes) (i : Nat) : Bool :=
  match text[i]? with
  | some b => i = 0 || !(0x80 ≤ b && b < 0xc0)
  | none => i = text.length

/-- `&text[start..stop]` of a string. -/
def substring (text : Bytes) (start stop : Nat) : Except Stop Bytes :=
  if isCharBoundary text start && isCharBoundary text stop then
    .ok ((text.drop start).take (stop - start))
  else .error .panic

/-- The number written with decimal digits. -/
def digits (text : Bytes) : Option Nat :=
  if text ≠ [] ∧ text.all (fun b => 0x30 ≤ b && b ≤ 0x39) then
    some (text.foldl (fun n b => n * 10 + (b.toNat - 0x30)) 0)
  else none

/-- `parse` of an unsigned number, which takes a plus sign. -/
def parseUnsigned : Bytes → Option Nat
  | 0x2b :: rest => digits rest
  | text => digits text

/-- `parse` of a signed number. -/
def parseSigned : Bytes → Option Int
  | 0x2d :: rest => (digits rest).map fun n => -n
  | text => (parseUnsigned text).map fun n => n

/-- `ymdhms_to_unix`.  Day 0 of March makes the day of the year -1, modulo 2^64 and back. -/
def ymdhmsToUnix (y : Int) (m d hh mm ss : Nat) : Int :=
  let yy := if m ≤ 2 then y - 1 else y
  let era := (if yy ≥ 0 then yy else yy - 399).tdiv 400
  let yoe := yy - era * 400
  let mp := if m > 2 then m - 3 else m + 9
  let doy : Int := ((153 * mp + 2) / 5 : Nat) + d - 1
  let doe := yoe * 365 + yoe / 4 - yoe / 100 + doy
  let days := era * 146097 + doe - 719468
  days * 86400 + hh * 3600 + mm * 60 + ss

/-- Two digits of a time. -/
def timePart (core : Bytes) (start : Nat) (what : String) : Except Stop Nat := do
  let text ← substring core start (start + 2)
  expect (parseUnsigned text) what

def parseGeneralizedTime (bytes : Bytes) : Except Stop Int := do
  let _ ← expect (Text.ofUtf8? bytes) "generalized time non-utf8"
  require (bytes.getLast? = some 0x5a)
    (.error (.parse "generalized time must be Zulu-suffixed"))
  let core := bytes.dropLast
  require (14 ≤ core.length) (.error (.parse "generalized time too short"))
  let year ← substring core 0 4
  let y ← expect (parseSigned year) "year"
  let m ← timePart core 4 "month"
  let d ← timePart core 6 "day"
  let hh ← timePart core 8 "hour"
  let mm ← timePart core 10 "min"
  let ss ← timePart core 12 "sec"
  return ymdhmsToUnix y m d hh mm ss

/-! ## Responses -/

/-- `SingleResponse`, with the contents of its `CertID`. -/
structure SingleResponse where
  certId : Bytes
  status : OcspStatus
  thisUpdate : Int
  nextUpdate : Option Int
  deriving DecidableEq

/-- A tag that is not the expected one, as messages show it. -/
def tagText (tag : UInt8) : String :=
  Text.hex [tag]

/-- The status that a tag stands for. -/
def certStatus (tag : UInt8) : Except Stop OcspStatus :=
  let text := tagText tag
  if tag = 0x80 then .ok .good
  else if tag = 0xa1 then .ok .revoked
  else if tag = 0x82 then .ok .unknown
  else .error (.error (.parse s!"unknown certStatus tag 0x{text}"))

/-- The time in an element with the tag of a `GeneralizedTime`. -/
def readTime (der : Bytes) (t : Tlv) (what : String) : Except Stop Int := do
  let text := tagText t.tag
  require (t.tag = 0x18) (.error (.parse s!"{what} expected 0x18, got 0x{text}"))
  parseGeneralizedTime (t.contents der)

/-- The optional `nextUpdate` of `parse_single_response`. -/
def readNextUpdate (der : Bytes) (p : Nat) : Except Stop (Option Int) :=
  if der[p]? = some 0xa0 then do
    let outer ← expect (readTlv der p) "nextUpdate [0]"
    let inner ← expect (readTlv der outer.contentStart) "nextUpdate inner"
    some <$> readTime der inner "nextUpdate"
  else .ok none

def parseSingleResponse (der : Bytes) : Except Stop SingleResponse := do
  let certId ← expect (readSeq der 0) "certID"
  let cs ← expect (readTlv der certId.stop) "certStatus"
  let status ← certStatus cs.tag
  let tu ← expect (readTlv der cs.stop) "thisUpdate"
  let thisUpdate ← readTime der tu "thisUpdate"
  let nextUpdate ← readNextUpdate der tu.stop
  return ⟨certId.contents der, status, thisUpdate, nextUpdate⟩

/-- The loop of `parse_basic_response` over the entries. -/
def readSingles (der : Bytes) (qend q : Nat) : Except Stop (List SingleResponse) :=
  if q < qend then
    match _found : readSeq der q with
    | none => .error (.error (.parse "SingleResponse"))
    | some sr => do
      let single ← parseSingleResponse (sr.contents der)
      let rest ← readSingles der qend sr.stop
      return single :: rest
  else .ok []
termination_by qend - q
decreasing_by
  have moved := (readSeq_bounds _found).1
  omega

/-- Skip an element, if there is one before the end. -/
def skipElement (der : Bytes) (present : Bool) (p : Nat) (what : String) : Except Stop Nat :=
  if present then (·.stop) <$> expect (readTlv der p) what else .ok p

/-- `parse_basic_response`: the entries. -/
def parseBasicResponse (der : Bytes) : Except Stop (List SingleResponse) := do
  let basicSeq ← expect (readSeq der 0) "BasicOCSPResponse SEQ"
  let tbs ← expect (readSeq der basicSeq.contentStart) "tbsResponseData SEQ"
  let p := tbs.contentStart
  let p ← skipElement der (p < tbs.stop ∧ der[p]? = some 0xa0) p "version"
  let p ← skipElement der (p < tbs.stop) p "responderID"
  let p ← skipElement der (p < tbs.stop) p "producedAt"
  let respSeq ← expect (readSeq der p) "responses SEQUENCE OF"
  readSingles der respSeq.stop respSeq.contentStart

def idPkixOcspBasic : Bytes :=
  [0x2b, 0x06, 0x01, 0x05, 0x05, 0x07, 0x30, 0x01, 0x01]

/-- The `ResponseBytes` of `parse_ocsp_response`: nothing where they are no basic response. -/
def readResponseBytes (der : Bytes) (p : Nat) : Except Stop (Option (List SingleResponse)) := do
  let rbTlv ← expect (readTlv der p) "[0] tag"
  if rbTlv.tag = 0xa0 then
    let rbSeq ← expect (readSeq der rbTlv.contentStart) "ResponseBytes SEQUENCE"
    let oidTlv ← expect (readTlv der rbSeq.contentStart) "responseType OID"
    require (oidTlv.tag = 0x06) (.error (.parse "responseType not OID"))
    if oidTlv.contents der = idPkixOcspBasic then
      let responseOctets ← expect (readTlv der oidTlv.stop) "response OCTET STRING"
      require (responseOctets.tag = 0x04) (.error (.parse "response not OCTET STRING"))
      some <$> parseBasicResponse (responseOctets.contents der)
    else return none
  else return none

/-- `parse_ocsp_response`: the status and the entries of a basic response. -/
def parseOcspResponse (der : Bytes) : Except Stop (UInt8 × Option (List SingleResponse)) := do
  let outer ← expect (readSeq der 0) "outer SEQUENCE"
  let statusTlv ← expect (readTlv der outer.contentStart) "responseStatus tag"
  let text := tagText statusTlv.tag
  require (statusTlv.tag = 0x0a)
    (.error (.parse s!"responseStatus expected ENUMERATED (0x0a), got 0x{text}"))
  require (statusTlv.contentLen = 1) (.error (.parse "responseStatus len != 1"))
  let responseStatus := der.getD statusTlv.contentStart 0
  let basic ←
    if statusTlv.stop < outer.stop then readResponseBytes der statusTlv.stop else .ok none
  return (responseStatus, basic)

/-! ## The query -/

def parseResponse (der : Bytes) (now : Int) : Except Stop OcspStatus := do
  let (responseStatus, basic) ← parseOcspResponse der
  require (responseStatus = 0) (.error (.responderError responseStatus))
  let singles ← okOr basic (.error .notBasic)
  let single ← okOr singles.head? (.error .noSingleResponses)
  require (single.thisUpdate ≤ now) (.error (.notYetValid single.thisUpdate now))
  require (single.nextUpdate.all (now ≤ ·)) (.error (.stale (single.nextUpdate.getD 0) now))
  return single.status

/-- The error that `query` makes of one of the parser. -/
def OcspError.toBridge : OcspError → BridgeError
  | .parse what => .invalidInput s!"OCSP: {what}"
  | .responderError status => .rejected s!"OCSP responder error {status}"
  | .notBasic => .rejected "OCSP not BasicOCSPResponse"
  | .notYetValid thisUpdate now => .rejected s!"OCSP thisUpdate={thisUpdate} > now={now}"
  | .stale nextUpdate now => .rejected s!"OCSP nextUpdate={nextUpdate} < now={now}"
  | .noSingleResponses => .rejected "OCSP had no SingleResponse entries"

/-- How a query can fail. -/
inductive QueryStop where
  | error (e : BridgeError)
  | panic
  deriving DecidableEq

def Stop.toQuery : Stop → QueryStop
  | .error e => .error e.toBridge
  | .panic => .panic

def query (fetch : X509Cert → X509Cert → String → Except BridgeError Bytes)
    (cert issuer : X509Cert) (ocspUrl : String) (now : Int) : Except QueryStop OcspStatus := do
  let der ← (fetch cert issuer ocspUrl).mapError .error
  (parseResponse der now).mapError Stop.toQuery

/-! ## What an entry is about -/

/-- The number that the contents of an `INTEGER` stand for. -/
def integer (contents : Bytes) : Int :=
  if contents.head?.any (0x80 ≤ ·) then BigEndian.decode contents - 256 ^ contents.length
  else BigEndian.decode contents

namespace SingleResponse

end SingleResponse

section

variable (fetch : X509Cert → X509Cert → String → Except BridgeError Bytes)
  (cert issuer : X509Cert) (ocspUrl : String) (now : Int)

end

end TrustForge.Ocsp
