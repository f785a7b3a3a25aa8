import SimpleAsset.Chaincode.Solvency
import SimpleAsset.Indy.Merkle.Consistency
import SimpleAsset.Indy.StateProof.AuditPath
import SimpleAsset.Indy.Merkle.Inclusion
import SimpleAsset.Indy.StateProof.Turns
import SimpleAsset.Indy.StateProof.ProofSafety
import SimpleAsset.Indy.Pool.CatchupTarget
import SimpleAsset.Indy.Pool.Reachability
import SimpleAsset.Indy.Pool.Underflow
import SimpleAsset.Indy.Pool.ExactlyOnce
import SimpleAsset.Indy.Pool.Completion
import SimpleAsset.Indy.Pool.PendingTimeout
import SimpleAsset.Indy.Pool.GivingUp
import SimpleAsset.Indy.Pool.CatchupReply
import SimpleAsset.IndyNode.StateKey
import SimpleAsset.IndyNode.RevocReplay
import SimpleAsset.IndyNode.DeltaProof
import SimpleAsset.IndyNode.Authorization
import SimpleAsset.IndyNode.CacheAgreement
import SimpleAsset.IndyNode.Escalation
import SimpleAsset.IndyNode.KeyCollision
import SimpleAsset.IndyNode.AccumChain
import SimpleAsset.IndyNode.ActionMatch
import SimpleAsset.IndyNode.RuleReadback
import SimpleAsset.IndyNode.UpgradeRestart
import SimpleAsset.IndyNode.RequestValidator
import SimpleAsset.IndyNode.RevocMeaning
import SimpleAsset.IndyNode.ConstraintRoundTrip
import SimpleAsset.IndyNode.UpgradeSchedule
import SimpleAsset.IndyNode.ActionLog
import SimpleAsset.Indy.Anoncreds.CheckedCredential
import SimpleAsset.Indy.Anoncreds.HonestProof
import SimpleAsset.Indy.Wallet.OneHandle
import SimpleAsset.Indy.Wallet.ExportRoundTrip
import SimpleAsset.Indy.Wallet.PendingEntries
import SimpleAsset.Indy.Wallet.QueryMeaning
import SimpleAsset.Indy.Wallet.EncryptedQuery
import SimpleAsset.Indy.Wallet.PluggedAgreement
import SimpleAsset.Indy.Wallet.StreamTransparency
import SimpleAsset.Indy.Wql.RoundTrip
import SimpleAsset.Indy.Crypto.UnpackAgreement
import SimpleAsset.Indy.Payments.CheapestChoice
import SimpleAsset.Indy.Anoncreds.RevocationBooks
import SimpleAsset.Indy.Anoncreds.RevocationIds
import SimpleAsset.Indy.Anoncreds.DoubledRestrictions
import SimpleAsset.Indy.Anoncreds.VerifierPanics
import SimpleAsset.Indy.Anoncreds.PagedSearch
import SimpleAsset.Indy.Merkle.Append
import SimpleAsset.Nullpay.NoMoneyCreated
import SimpleAsset.Vcx.FreshStates
import SimpleAsset.Vcx.IssuedOnce
import SimpleAsset.Vcx.PresentationAgreement
import SimpleAsset.Vcx.ConnectionGuard
import SimpleAsset.Vcx.ConnectionAgreement
import SimpleAsset.Indy.Crypto.UnpackPanics
import SimpleAsset.Indy.Crypto.SignatureSerializer
import SimpleAsset.Indy.Wallet.CachePurge
import SimpleAsset.Vcx.AcceptedState
import SimpleAsset.Vcx.DidDocument
import SimpleAsset.Vcx.ProofValidation
import SimpleAsset.Cli.CommandExecutor
import SimpleAsset.Cli.QuotedParams
import SimpleAsset.Indy.StateProof.NodeEncoder
import SimpleAsset.Indy.Wallet.NonSecrets
import SimpleAsset.Indy.Dids.Custody
import SimpleAsset.Indy.Dids.StrandedCommands
import SimpleAsset.IndyNode.TxnVersion
import SimpleAsset.IndyNode.RichSchemaStore
import SimpleAsset.Indy.Wallet.CacheRuns
import SimpleAsset.Indy.Anoncreds.CredDefRotation
import SimpleAsset.Indy.BlobStorage
