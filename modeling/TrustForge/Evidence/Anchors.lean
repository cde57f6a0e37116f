import TrustForge.Evidence.Verification

/-!
# Anchors of evidence bundles

Anchors are written into the bundle, and the outer signature covers all of the bundle but
itself.
-/

namespace TrustForge.Evidence

open EvidenceBundle Json.Script.Engine List Option Result
open Json (Value)
open Session (optionalField)

section

variable (node : Node)

theorem length_encode_anchors_lt (anchors : List Anchor) {more : List Anchor} (some : more ≠ []) :
    (node.toEngine.encode (anchorsValue anchors)).length <
      (node.toEngine.encode (anchorsValue (anchors ++ more))).length := by
  have added : 2 ≤ ((more.map Anchor.toValue).map fun x =>
      (node.toEngine.encode x).length + 1).sum := by
    cases more with
    | nil => contradiction
    | cons anchor rest =>
      have braces := node.toEngine.length_encode_object
        ([("kind", .string anchor.kind)] ++ optionalField "url" (anchor.url.map .string) ++
          optionalField "inclusion_proof" anchor.inclusionProof)
      simp only [map_cons, sum_cons, Anchor.toValue]
      omega
  rw [anchorsValue, anchorsValue, length_encode_array, length_encode_array, map_append, map_append,
    sum_append]
  omega

variable (bundle : EvidenceBundle)

/-- The size of a bundle, by the size of its anchors. -/
theorem length_signingText : (signingText node bundle).toList.length =
      2 + ((bundle.leadingFields.map node.toEngine.propertySize).sum +
        (((optionalField "anchors" (bundle.anchors.map anchorsValue)).map
          node.toEngine.propertySize).sum +
            (bundle.trailingFields.map node.toEngine.propertySize).sum) - 1) := by
  rw [signingText, canonicalize, String.toList_ofList, length_encode_object, signedFields,
    map_append, map_append, sum_append, sum_append]

theorem one_le_trailingFields :
    1 ≤ (bundle.trailingFields.map node.toEngine.propertySize).sum := by
  simp only [trailingFields, map_append, sum_append, map_cons, sum_cons, propertySize]
  omega

/-- The size of a bundle with a list of anchors. -/
theorem length_signingText_anchors (anchors : List Anchor) :
    (signingText node { bundle with anchors := some anchors }).toList.length =
      2 + ((bundle.leadingFields.map node.toEngine.propertySize).sum +
        (node.toEngine.propertySize ("anchors", anchorsValue anchors) +
          (bundle.trailingFields.map node.toEngine.propertySize).sum) - 1) :=
  length_signingText node { bundle with anchors := some anchors }

/-- The first anchors of a bundle make its text as much longer as they are. -/
theorem length_signingText_of_none {bundle : EvidenceBundle} (unanchored : bundle.anchors = none)
    (anchors : List Anchor) :
    (signingText node { bundle with anchors := some anchors }).toList.length =
      (signingText node bundle).toList.length +
        node.toEngine.propertySize ("anchors", anchorsValue anchors) := by
  have last := one_le_trailingFields node bundle
  rw [length_signingText_anchors, length_signingText, unanchored, map_none,
    show optionalField "anchors" none = [] from rfl, map_nil, sum_nil]
  omega

/-- Anchors are written in full. -/
theorem length_signingText_lt {bundle : EvidenceBundle} {anchors : List Anchor}
    (longer : ((optionalField "anchors" (bundle.anchors.map anchorsValue)).map
        node.toEngine.propertySize).sum <
      node.toEngine.propertySize ("anchors", anchorsValue anchors)) :
    (signingText node bundle).toList.length <
      (signingText node { bundle with anchors := some anchors }).toList.length := by
  have last := one_le_trailingFields node bundle
  rw [length_signingText, length_signingText_anchors]
  omega

/-- A bundle with further anchors, or with a list of anchors where there was none, has another
text. -/
theorem signingText_anchored_iff (submitted : List Anchor) :
    signingText node { bundle with anchors := some (bundle.anchors.getD [] ++ submitted) } =
        signingText node bundle ↔
      submitted = [] ∧ bundle.anchors.isSome = true := by
  have apart {anchors : List Anchor}
      (longer : ((optionalField "anchors" (bundle.anchors.map anchorsValue)).map
          node.toEngine.propertySize).sum <
        node.toEngine.propertySize ("anchors", anchorsValue anchors)) :
      signingText node { bundle with anchors := some anchors } ≠ signingText node bundle := by
    intro same
    have sizes := length_signingText_lt node longer
    rw [same] at sizes
    exact lt_irrefl _ sizes
  cases present : bundle.anchors with
  | none =>
    refine iff_of_false (apart ?_) (fun both => Bool.false_ne_true both.2)
    rw [present]
    exact Nat.succ_pos _
  | some anchors =>
    by_cases none : submitted = []
    · refine iff_of_true ?_ ⟨none, rfl⟩
      rw [none, getD_some, append_nil, ← present]
    · refine iff_of_false (apart ?_) (fun both => none both.1)
      have longer := length_encode_anchors_lt node anchors none
      rw [present, map_some, optionalField, map_singleton, sum_singleton,
        propertySize, propertySize]
      simp only [Json.Script.propertyText, length_append]
      exact Nat.add_lt_add_right (Nat.add_lt_add_left (Nat.add_lt_add_right longer 1) _) 1

theorem length_submitAll {bytes : Bytes} {backends : List AnchorBackend} {submitted : List Anchor}
    (done : submitAll bytes backends = .ok submitted) : submitted.length = backends.length := by
  induction backends generalizing submitted with
  | nil =>
    cases done
    rfl
  | cons backend rest ih =>
    obtain ⟨inclusionProof, -, later⟩ := bind_eq_ok done
    obtain ⟨others, rest, last⟩ := bind_eq_ok later
    cases last
    rw [length_cons, length_cons, ih rest]

/-- What anchoring does to a bundle. -/
theorem of_anchorEvidenceBundle {bundle next : EvidenceBundle} {backends : List AnchorBackend}
    (anchored : anchorEvidenceBundle node bundle backends = .ok next) :
    ∃ submitted, submitted.length = backends.length ∧
      next = { bundle with anchors := some (bundle.anchors.getD [] ++ submitted) } := by
  obtain ⟨submitted, done, last⟩ := bind_eq_ok anchored
  exact ⟨submitted, length_submitAll done, (Except.ok.inj last).symm⟩

/-- The outer signature covers the anchors.  Where a signature is good for one digest only, and
the two texts do not collide, anchoring keeps the outer signature only if there was nothing to
submit and the bundle already had a list of anchors. -/
theorem anchored_outerSignatureOk_iff (args : VerifyEvidenceArgs) {next : EvidenceBundle}
    {backends : List AnchorBackend}
    (signed : (verifyEvidenceBundle node args).outerSignatureOk = true)
    (anchored : anchorEvidenceBundle node args.bundle backends = .ok next)
    (unforgeable : outerSignatureOk node next args.issuerPublicKey = true →
      evidenceBundleSigningBytes node next = evidenceBundleSigningBytes node args.bundle)
    (collisionFree :
      evidenceBundleSigningBytes node next = evidenceBundleSigningBytes node args.bundle →
        signingText node next = signingText node args.bundle) :
    (verifyEvidenceBundle node { args with bundle := next }).outerSignatureOk = true ↔
      backends = [] ∧ args.bundle.anchors.isSome = true := by
  rw [outerSignatureOk_verifyEvidenceBundle] at signed ⊢
  obtain ⟨submitted, count, rfl⟩ := of_anchorEvidenceBundle node anchored
  have empty : submitted = [] ↔ backends = [] := by
    rw [← length_eq_zero_iff, count, length_eq_zero_iff]
  rw [← empty, ← signingText_anchored_iff node]
  constructor
  · intro verified
    exact collisionFree (unforgeable verified)
  · intro same
    rw [outerSignatureOk, evidenceBundleSigningBytes] at signed ⊢
    rw [same]
    exact signed

end

/-- A bundle with one event, signed by its issuer. -/
def sampleBundle : EvidenceBundle :=
  signedDraft measuring "2026-02-01T00:00:00Z" (sampleArgs "2026-01-01T00:00:00Z" [firstEvent])
    sampleKey [firstEvent]

/-- A backend whose proofs are empty. -/
def customBackend : AnchorBackend where
  kind := "custom"
  url := none
  submit := fun _ => .ok (some (.object []))

def anchoredBundle : EvidenceBundle :=
  { sampleBundle with anchors := some [⟨"custom", none, some (.object [])⟩] }

def sampleVerification (bundle : EvidenceBundle) : VerifyEvidenceArgs where
  bundle := bundle
  issuerPublicKey := (measuring.ed25519Public sampleKey).bytes
  verifyAnchor := none
  resolveEventSigner := none
  skipPerEventVerification := false

theorem anchored_sampleBundle :
    anchorEvidenceBundle measuring sampleBundle [customBackend] = .ok anchoredBundle :=
  rfl

theorem outerSignatureOk_sampleBundle :
    (verifyEvidenceBundle measuring (sampleVerification sampleBundle)).outerSignatureOk = true := by
  rw [outerSignatureOk_verifyEvidenceBundle]
  exact outerSignatureOk_signedDraft measuring _ _ sampleKey [firstEvent]

/-- The entry makes the text 51 characters longer. -/
theorem length_anchoredBundle :
    (signingText measuring anchoredBundle).toList.length % 256 ≠
      (signingText measuring sampleBundle).toList.length % 256 := by
  have size : measuring.toEngine.propertySize
      ("anchors", anchorsValue [⟨"custom", none, some (.object [])⟩]) = 51 := by
    decide +kernel
  rw [anchoredBundle, length_signingText_of_none measuring rfl, size]
  omega

theorem outerSignatureOk_anchoredBundle :
    outerSignatureOk measuring anchoredBundle (measuring.ed25519Public sampleKey).bytes ≠ true := by
  intro verified
  have same : anchoredBundle.signature = sampleBundle.signature := rfl
  rw [outerSignatureOk, same, sampleBundle, base64Bytes_signedDraft, evidenceBundleSigningBytes,
    evidenceBundleSigningBytes] at verified
  exact length_anchoredBundle (length_of_verify_measuring verified)

theorem signingBytes_anchoredBundle :
    evidenceBundleSigningBytes measuring anchoredBundle ≠
      evidenceBundleSigningBytes measuring sampleBundle := by
  intro same
  rw [evidenceBundleSigningBytes, evidenceBundleSigningBytes] at same
  exact length_anchoredBundle (length_of_sha256_measuring same)

theorem anchored_sample_iff :
    (verifyEvidenceBundle measuring (sampleVerification anchoredBundle)).outerSignatureOk = true ↔
      [customBackend] = [] ∧ sampleBundle.anchors.isSome = true :=
  anchored_outerSignatureOk_iff measuring (sampleVerification sampleBundle)
    outerSignatureOk_sampleBundle anchored_sampleBundle
    (fun verified => absurd verified outerSignatureOk_anchoredBundle)
    (fun same => absurd same signingBytes_anchoredBundle)

/-- One anchor takes the outer signature away. -/
theorem anchored_signature_fails :
    (verifyEvidenceBundle measuring (sampleVerification sampleBundle)).outerSignatureOk = true ∧
      anchorEvidenceBundle measuring sampleBundle [customBackend] = .ok anchoredBundle ∧
      (verifyEvidenceBundle measuring (sampleVerification anchoredBundle)).outerSignatureOk =
        false := by
  refine ⟨outerSignatureOk_sampleBundle, anchored_sampleBundle, ?_⟩
  rw [outerSignatureOk_verifyEvidenceBundle]
  exact Bool.eq_false_iff.mpr outerSignatureOk_anchoredBundle

end TrustForge.Evidence
