import WitnessLedger.Json.Reader
import WitnessLedger.Main
import WitnessLedger.Proofs.Chain.AppendOnly
import WitnessLedger.Proofs.Chain.Attestation
import WitnessLedger.Proofs.Chain.Commitment
import WitnessLedger.Proofs.Chain.Fork
import WitnessLedger.Proofs.Chain.Head
import WitnessLedger.Proofs.Chain.Integrity
import WitnessLedger.Proofs.Chain.Rejection
import WitnessLedger.Proofs.Chain.Retention
import WitnessLedger.Proofs.Chain.Signatures
import WitnessLedger.Proofs.Config.Validation
import WitnessLedger.Proofs.Content.Equality
import WitnessLedger.Proofs.Digest.Hex
import WitnessLedger.Proofs.Settlement.Once
import WitnessLedger.Proofs.Settlement.Packaging
import WitnessLedger.Proofs.Merkle.Bounds
import WitnessLedger.Proofs.Merkle.Completeness
import WitnessLedger.Proofs.Merkle.SameRoot
import WitnessLedger.Proofs.Merkle.Soundness
import WitnessLedger.Proofs.Settlement.Records
import WitnessLedger.Proofs.InPlace.Chain
import WitnessLedger.Proofs.InPlace.Ledger
import WitnessLedger.Proofs.Command.Defaults
import WitnessLedger.Proofs.Command.LeastQuorum
import WitnessLedger.Proofs.Command.Simulation
import WitnessLedger.Proofs.Command.Replays
import WitnessLedger.Proofs.Ledger.Atomic
import WitnessLedger.Proofs.Ledger.Linkage
import WitnessLedger.Proofs.Ledger.Storage
import WitnessLedger.Proofs.Ledger.VoteOrder
import WitnessLedger.Proofs.Settlement.Conservation
import WitnessLedger.Proofs.Settlement.Reanchoring
import WitnessLedger.Proofs.Tiers.Neutrality
import WitnessLedger.Proofs.Tiers.Routing
import WitnessLedger.Proofs.Json.RoundTrip
