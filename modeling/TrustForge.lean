import TrustForge.ApprovalQueue
import TrustForge.BinaryFormat.Agreement
import TrustForge.Bridge.Attestation
import TrustForge.Bridge.CertificatePath
import TrustForge.Bridge.Gnap
import TrustForge.Bridge.Ocsp
import TrustForge.Bundle
import TrustForge.Delegation
import TrustForge.Evidence.Anchors
import TrustForge.Evidence.Assembly
import TrustForge.Federation
import TrustForge.FileStore.Crash
import TrustForge.FileStore.Evidence
import TrustForge.FileStore.Handles
import TrustForge.Jws.Agreement
import TrustForge.NoStd.Gateway
import TrustForge.NoStd.NonceCache
import TrustForge.PacketMode.Interop
import TrustForge.PolicyBackends
import TrustForge.Proxy.Mediation
import TrustForge.Quorum
import TrustForge.Revocation.Caches
import TrustForge.Rpc.Delivery
import TrustForge.Rpc.Streams
import TrustForge.Session.Delivery
import TrustForge.Session.Honest
import TrustForge.Session.Rekey
import TrustForge.Session.Run
import TrustForge.Session.Suites
import TrustForge.TinyToml
import TrustForge.Transport
import TrustForge.Vault.Failures
import TrustForge.Vault.Passphrase
import TrustForge.Session.Matching
