import TrustForge.Session.State

/-!
# Runs of one session

The operations of `SessionState` as steps of a state machine, in any order.  Both
frame operations test the `closed` flag, but no operation of the source ever sets it:
a run keeps the flag it started with, which is `false` for every derived session.
-/

namespace TrustForge.Session

/-- One call on a `SessionState`. -/
inductive Op where
  | encrypt (frame : SessionFrame)
  | decrypt (bytes : Bytes)
  | requestRekey (seed : Option Key) (draw : Key)
  | processRekeyReq (peerEphPub : String) (seed : Option Key) (draw : Key)
  | processRekeyAck (peerEphPub : String)

/-- What a call returns. -/
inductive Outcome where
  | sent (bytes : Bytes)
  | received (frame : SessionFrame)
  | rotated
  | failed (error : SessionError)

namespace Platform

variable (platform : Platform)

/-- The outcome of a call, by what its success is. -/
def outcome {α : Type} (success : α → Outcome) (result : Except SessionError α) : Outcome :=
  match result with
  | .ok value => success value
  | .error e => .failed e

variable (s : SessionState)

/-- One step of a session. -/
def step : Op → Outcome × SessionState
  | .encrypt frame => (platform.encrypt s frame).map (outcome .sent) id
  | .decrypt bytes => (platform.decrypt s bytes).map (outcome .received) id
  | .requestRekey seed draw => (platform.requestRekey s seed draw).map (outcome .sent) id
  | .processRekeyReq peerEphPub seed draw =>
    (platform.processRekeyReq s peerEphPub seed draw).map (outcome .sent) id
  | .processRekeyAck peerEphPub =>
    (platform.processRekeyAck s peerEphPub).map (outcome fun _ => .rotated) id

/-- The state after a sequence of calls. -/
def run (ops : List Op) : SessionState :=
  ops.foldl (fun s op => (platform.step s op).2) s

/-! ## The closed flag -/

theorem encrypt_closed (frame : SessionFrame) : (platform.encrypt s frame).2.closed = s.closed := by
  unfold encrypt
  split
  · rfl
  · split <;> rfl

theorem decrypt_closed (bytes : Bytes) : (platform.decrypt s bytes).2.closed = s.closed := by
  unfold decrypt
  split <;> rfl

theorem processRekeyReq_closed (peerEphPub : String) (seed : Option Key)
    (draw : Key) : (platform.processRekeyReq s peerEphPub seed draw).2.closed = s.closed := by
  have kept := platform.encrypt_closed s
    (.rekeyAck (b64encode (platform.x25519Public (makeEphemeral seed draw)).bytes))
  simp only [processRekeyReq]
  cases decodeEphPub peerEphPub with
  | error e => rfl
  | ok peerEph =>
    cases sent : platform.encrypt s
        (.rekeyAck (b64encode (platform.x25519Public (makeEphemeral seed draw)).bytes)) with
    | mk result t =>
      rw [sent] at kept
      cases result with
      | error | ok => exact kept

theorem processRekeyAck_closed (peerEphPub : String) :
    (platform.processRekeyAck s peerEphPub).2.closed = s.closed := by
  unfold processRekeyAck
  split
  · rfl
  · split <;> rfl

/-- No call changes the flag. -/
theorem step_closed (op : Op) : (platform.step s op).2.closed = s.closed := by
  cases op with
  | encrypt frame => exact platform.encrypt_closed s frame
  | decrypt bytes => exact platform.decrypt_closed s bytes
  | requestRekey seed draw =>
    exact platform.encrypt_closed { s with pendingRekeyPriv := some (makeEphemeral seed draw) } _
  | processRekeyReq peerEphPub seed draw =>
    exact platform.processRekeyReq_closed s peerEphPub seed draw
  | processRekeyAck peerEphPub => exact platform.processRekeyAck_closed s peerEphPub

theorem run_closed (ops : List Op) : (platform.run s ops).closed = s.closed := by
  induction ops generalizing s with
  | nil => rfl
  | cons op ops ih =>
    calc
      (platform.run s (op :: ops)).closed = (platform.run (platform.step s op).2 ops).closed :=
        rfl
      _ = (platform.step s op).2.closed := ih _
      _ = s.closed := platform.step_closed s op

/-! ## Closing -/

/-- The call encrypts or decrypts a close frame with success. -/
def Closes (op : Op) : Prop :=
  (∃ reason bytes, op = .encrypt (.close reason) ∧ (platform.step s op).1 = .sent bytes) ∨
    (∃ bytes reason, op = .decrypt bytes ∧ (platform.step s op).1 = .received (.close reason))

/-- Encryptions and decryptions. -/
def Op.isFrameOp : Op → Bool
  | .encrypt _ => true
  | .decrypt _ => true
  | _ => false

/-- What closing is meant to do: once a close frame went through, every later
encryption and decryption fails. -/
def CloseIsFinal : Prop :=
  ∀ before closing later last, platform.Closes (platform.run s before) closing →
    Op.isFrameOp last = true →
      ∃ e, (platform.step (platform.run s (before ++ closing :: later)) last).1 = .failed e

theorem plaintext_close :
    platform.plaintext (.close none) = Text.utf8 "\x7b\"kind\":\"close\"\x7d" := by
  have key := platform.nfc_ascii "kind" (by decide)
  have tag := platform.nfc_ascii "close" (by decide)
  unfold plaintext Json.Runtime.canonicalize SessionFrame.toValue
  simp only [SessionFrame.fields, optionalField, Option.map_none, Json.Runtime.encode,
    Json.Runtime.encodeEntries, key, tag]
  decide +kernel

/-- A close frame without a reason can be sent as long as the flag is not set. -/
theorem step_close_of_open {s : SessionState} (isOpen : s.closed = false) :
    ∃ bytes, (platform.step s (.encrypt (.close none))).1 = .sent bytes := by
  have length : (Text.utf8 "\x7b\"kind\":\"close\"\x7d").length = 16 := by decide +kernel
  have fits : platform.frameLength (.close none) ≤ 2 ^ 32 - 1 := by
    rw [frameLength, plaintext_close, length]
    decide
  simp only [step, platform.encrypt_of_fits isOpen fits]
  exact ⟨_, rfl⟩

/-- From no state of an established session on is closing final. -/
theorem not_closeIsFinal (role : Role) (shared : Key) (sessionId transcriptHash : Bytes)
    (selfActor peerActor : String) (peerActorClaim : Option String) (ops : List Op) :
    ¬platform.CloseIsFinal (platform.run
      (platform.deriveWithClaim role shared sessionId transcriptHash selfActor peerActor
        peerActorClaim) ops) := by
  intro final
  generalize established : platform.deriveWithClaim role shared sessionId transcriptHash
    selfActor peerActor peerActorClaim = s at final
  have isOpen : (platform.run s ops).closed = false := by
    rw [run_closed, ← established]
    rfl
  have stillOpen : (platform.run (platform.run s ops) [.encrypt (.close none)]).closed = false := by
    rw [run_closed, isOpen]
  rcases platform.step_close_of_open isOpen with ⟨bytes, sent⟩
  rcases platform.step_close_of_open stillOpen with ⟨again, sentAgain⟩
  have closes : platform.Closes (platform.run (platform.run s ops) []) (.encrypt (.close none)) :=
    .inl ⟨none, bytes, rfl, sent⟩
  rcases final [] (.encrypt (.close none)) [] (.encrypt (.close none)) closes rfl with ⟨e, failed⟩
  rw [List.nil_append, sentAgain] at failed
  contradiction

/-- An initiator that has sent a close frame sends another frame. -/
theorem transparent_sends_after_close :
    let s := transparent.deriveWithClaim .initiator (.filled []) [] [] "a" "b" none
    transparent.Closes s (.encrypt (.close none)) ∧
      (∃ bytes, (transparent.step (transparent.run s [.encrypt (.close none)])
        (.encrypt (.ping "1"))).1 = .sent bytes) ∧
      ¬transparent.CloseIsFinal s := by
  have closes : transparent.Closes
      (transparent.deriveWithClaim .initiator (.filled []) [] [] "a" "b" none)
      (.encrypt (.close none)) := by
    rcases transparent.step_close_of_open (s := transparent.deriveWithClaim .initiator
      (.filled []) [] [] "a" "b" none) rfl with ⟨bytes, sent⟩
    exact .inl ⟨none, bytes, rfl, sent⟩
  have fits : transparent.frameLength (.ping "1") ≤ 2 ^ 32 - 1 := by decide +kernel
  have later : ∃ bytes, (transparent.step (transparent.run
      (transparent.deriveWithClaim .initiator (.filled []) [] [] "a" "b" none)
      [.encrypt (.close none)]) (.encrypt (.ping "1"))).1 = .sent bytes := by
    simp only [step]
    rw [transparent.encrypt_of_fits (by rw [run_closed]; rfl) fits]
    exact ⟨_, rfl⟩
  refine ⟨closes, later, ?_⟩
  intro final
  rcases later with ⟨bytes, sent⟩
  rcases final [] (.encrypt (.close none)) [] (.encrypt (.ping "1")) closes rfl with ⟨e, failed⟩
  rw [List.nil_append, sent] at failed
  contradiction

end Platform

end TrustForge.Session
