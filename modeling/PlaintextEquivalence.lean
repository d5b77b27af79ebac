import PlaintextEquivalence.Codec.Election
import PlaintextEquivalence.Codec.Protocol
import PlaintextEquivalence.Group.Edwards
import PlaintextEquivalence.Group.Ristretto
import PlaintextEquivalence.Random.ChaCha
import PlaintextEquivalence.Simulation.Journal
import PlaintextEquivalence.Simulation.Summary
import PlaintextEquivalence.Proofs.Ballot.Comparison
import PlaintextEquivalence.Proofs.Blinding.Capacity
import PlaintextEquivalence.Proofs.Blinding.Effect
import PlaintextEquivalence.Proofs.Certificate.Faultless
import PlaintextEquivalence.Proofs.Certificate.Outline
import PlaintextEquivalence.Proofs.Codec.RoundTrip
import PlaintextEquivalence.Proofs.Election.Acceptance
import PlaintextEquivalence.Proofs.Group.Canonical
import PlaintextEquivalence.Proofs.Protocol.Certification
import PlaintextEquivalence.Proofs.Protocol.Concurrency
import PlaintextEquivalence.Proofs.Protocol.Stages
import PlaintextEquivalence.Proofs.Protocol.Symmetry
import PlaintextEquivalence.Proofs.Protocol.Wiring
import PlaintextEquivalence.Proofs.Sharing.Dealing
import PlaintextEquivalence.Proofs.Sharing.JointKey
import PlaintextEquivalence.Proofs.Sigma.Agreement
import PlaintextEquivalence.Proofs.Sigma.Binding
import PlaintextEquivalence.Proofs.Sigma.Extraction
import PlaintextEquivalence.Proofs.Simulation.Village
