import PlaintextEquivalence.Certificate.Basic

/-!
# Audits of certificates

An audit checks every proof of a certificate and its verdict, and, given the ballots, that the
certificate is about them.  All findings are reported, in the order of the certificate.

What is modelled:
* `BallotCertificate.findings` — `PepVerifier.check_proofs`, with `SelectionCertificate.findings` for
  one selection.
* `ballotFindings` — `PepVerifier.check_ratios`, or the mismatch of the ballots.
* `verify`, `verifyAgainst` — `PepVerifier.verify`, `PepVerifier.verify_against_ballots`.
* `Finding`, `Finding.summary` — `VerificationFailure`, `PepVerificationError`.
-/

namespace PlaintextEquivalence

/-- What an audit finds wrong. -/
inductive Finding where
  | blindingProof (selection : SelectionPath) (source : ProofError)
  | decryptionProof (selection : SelectionPath) (source : ProofError)
  | degenerateBlinding (selection : SelectionPath)
  | equalityFlag (recorded computed : Bool)
  | structural (source : BallotMismatch)
  | ballotId (recorded expected : String)
  | layout
  | ratioMismatch (selection : SelectionPath)
  deriving DecidableEq, Repr

def Finding.message : Finding → String
  | .blindingProof selection source =>
    "blinding proof for `" ++ selection.text ++ "` is invalid: " ++ source.message
  | .decryptionProof selection source =>
    "decryption proof for `" ++ selection.text ++ "` is invalid: " ++ source.message
  | .degenerateBlinding selection =>
    "blinded ciphertext for `" ++ selection.text ++ "` is degenerate"
  | .equalityFlag recorded computed =>
    "equality flag is " ++ toString recorded ++ ", while decrypted values imply " ++
      toString computed
  | .structural source => "input ballots are not comparable: " ++ source.message
  | .ballotId recorded expected =>
    "recorded ballot id `" ++ recorded ++ "` differs from `" ++ expected ++ "`"
  | .layout => "selection layout differs from the input ballots"
  | .ratioMismatch selection =>
    "ratio ciphertext for `" ++ selection.text ++ "` differs from the input ballots"

/-- The findings of an audit in one line. -/
def Finding.summary (findings : List Finding) : String :=
  "PEP verification failed: " ++ ", ".intercalate (findings.map (·.message))

namespace SelectionCertificate

variable {G : PrimeGroup}

/-- The findings on the proofs of a selection. -/
def findings (election : Election G) (path : SelectionPath) (s : SelectionCertificate G) :
    Except Fault (List Finding) := do
  let degenerate := if s.blinded.isDegenerate then [Finding.degenerateBlinding path] else []
  let blinding := match s.blinding.verify election s.ratio s.blinded with
    | .ok () => []
    | .error e => [Finding.blindingProof path e]
  let decryption ← match s.decryption.verify election s.blinded s.decrypted with
    | .ok () => pure []
    | .error (.error e) => pure [Finding.decryptionProof path e]
    | .error (.fault f) => .error f
  pure (degenerate ++ blinding ++ decryption)

end SelectionCertificate

namespace BallotCertificate

variable {G : PrimeGroup}

/-- The verdict that the decrypted elements give. -/
def computedVerdict (certificate : BallotCertificate G) : Bool :=
  certificate.selections.all fun s => s.2.decrypted = 0

/-- The findings on the proofs and on the verdict. -/
def findings (certificate : BallotCertificate G) (election : Election G) :
    Except Fault (List Finding) := do
  let lists ← certificate.selections.mapM fun s => s.2.findings election s.1
  let computed := certificate.computedVerdict
  let verdict :=
    if computed = certificate.isEqual then [] else [Finding.equalityFlag certificate.isEqual computed]
  pure (lists.flatten ++ verdict)

/-- The findings on whether the certificate is about two ballots. -/
def ballotFindings (certificate : BallotCertificate G) (first second : Ballot G) : List Finding :=
  match Quotient.ofBallots first second with
  | .error e => [.structural e]
  | .ok quotient =>
    let recorded := certificate.selections
    let id := if certificate.ballotId = quotient.ballotId then []
      else [Finding.ballotId certificate.ballotId quotient.ballotId]
    if recorded.map (·.1) ≠ quotient.paths then id ++ [.layout]
    else id ++ (recorded.zip quotient.selections).filterMap fun (s, q) =>
      if s.2.ratio = q.ratio then none else some (.ratioMismatch s.1)

/-- No findings, or what was found. -/
def verdictOf : List Finding → Checked (List Finding) Unit
  | [] => .ok ()
  | findings => Checked.refuse findings

/-- Checks the proofs and the verdict. -/
def verify (certificate : BallotCertificate G) (election : Election G) :
    Checked (List Finding) Unit := do
  let findings ← Checked.ofFault (certificate.findings election)
  verdictOf findings

/-- Checks the proofs and the verdict, and that the certificate is about two ballots. -/
def verifyAgainst (certificate : BallotCertificate G) (election : Election G)
    (first second : Ballot G) : Checked (List Finding) Unit := do
  let findings ← Checked.ofFault (certificate.findings election)
  verdictOf (findings ++ certificate.ballotFindings first second)

end BallotCertificate

end PlaintextEquivalence
