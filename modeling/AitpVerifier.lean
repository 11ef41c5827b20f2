import AitpVerifier.AcceptanceTimes
import AitpVerifier.Adapter
import AitpVerifier.AdapterLoop
import AitpVerifier.AdapterResponses
import AitpVerifier.Aid
import AitpVerifier.AnchorOrder
import AitpVerifier.Attenuation
import AitpVerifier.B64
import AitpVerifier.Base64Forms
import AitpVerifier.Binary64
import AitpVerifier.Canonical
import AitpVerifier.CanonicalLeaks
import AitpVerifier.CertificatePath
import AitpVerifier.ChainLeaks
import AitpVerifier.Checked
import AitpVerifier.Clearance
import AitpVerifier.Commit
import AitpVerifier.CommitGrants
import AitpVerifier.ConformancePack
import AitpVerifier.ConsistentBundle
import AitpVerifier.ConstraintCase
import AitpVerifier.Contained
import AitpVerifier.CoveredIssuers
import AitpVerifier.Crypto
import AitpVerifier.Cutover
import AitpVerifier.DecimalText
import AitpVerifier.Delegation
import AitpVerifier.DelegationLeaks
import AitpVerifier.DenyList
import AitpVerifier.Document
import AitpVerifier.DumpsReading
import AitpVerifier.Encoding
import AitpVerifier.Envelope
import AitpVerifier.EnvelopeLeaks
import AitpVerifier.ExtensionBundle
import AitpVerifier.ExtensionChain
import AitpVerifier.ExtensionHandshake
import AitpVerifier.ExtensionMessages
import AitpVerifier.ExtensionVerdicts
import AitpVerifier.Extensions
import AitpVerifier.FailClosed
import AitpVerifier.FailModes
import AitpVerifier.Fields
import AitpVerifier.FixtureIsolation
import AitpVerifier.FloatText
import AitpVerifier.FrontEnds
import AitpVerifier.GreenRun
import AitpVerifier.Handshake
import AitpVerifier.Harness
import AitpVerifier.HelloAccepted
import AitpVerifier.HiddenValues
import AitpVerifier.Identity
import AitpVerifier.IdentityProven
import AitpVerifier.IntegerText
import AitpVerifier.IpAddress
import AitpVerifier.Jcs
import AitpVerifier.Json
import AitpVerifier.JsonDumps
import AitpVerifier.JsonGrammar
import AitpVerifier.JsonMeaning
import AitpVerifier.JsonReading
import AitpVerifier.Jwk
import AitpVerifier.Jws
import AitpVerifier.KeyFlattening
import AitpVerifier.KeySort
import AitpVerifier.LastResponse
import AitpVerifier.Leaks
import AitpVerifier.Manifest
import AitpVerifier.ManifestOrder
import AitpVerifier.MemberSets
import AitpVerifier.Metered
import AitpVerifier.Minted
import AitpVerifier.MintedDocuments
import AitpVerifier.MintedTokens
import AitpVerifier.Minter
import AitpVerifier.Mislabelling
import AitpVerifier.NumberReading
import AitpVerifier.NumberText
import AitpVerifier.OnlyDefect
import AitpVerifier.Participants
import AitpVerifier.Pattern
import AitpVerifier.PatternLanguage
import AitpVerifier.PeerLeaks
import AitpVerifier.Presenter
import AitpVerifier.ProofInput
import AitpVerifier.ReadBack
import AitpVerifier.Recorded
import AitpVerifier.RecordedCertificates
import AitpVerifier.Reorder
import AitpVerifier.Respelled
import AitpVerifier.Revocation
import AitpVerifier.RevocationLast
import AitpVerifier.Rfc3986
import AitpVerifier.Roles
import AitpVerifier.Runner
import AitpVerifier.SameBut
import AitpVerifier.SameValue
import AitpVerifier.Scan
import AitpVerifier.ScanFuel
import AitpVerifier.SelfIssue
import AitpVerifier.SerializerCaps
import AitpVerifier.ServedStream
import AitpVerifier.SessionBundle
import AitpVerifier.ShortestDecimal
import AitpVerifier.Sigfield
import AitpVerifier.SigningInputs
import AitpVerifier.Spelling
import AitpVerifier.Spiffe
import AitpVerifier.SpiffeGrammar
import AitpVerifier.SpiffeLeaks
import AitpVerifier.Steady
import AitpVerifier.StrictParse
import AitpVerifier.StrictSignatures
import AitpVerifier.SubjectKey
import AitpVerifier.TagRule
import AitpVerifier.Tct
import AitpVerifier.Text
import AitpVerifier.TokenLeaks
import AitpVerifier.TokenRevocation
import AitpVerifier.UriGrammar
import AitpVerifier.Value
import AitpVerifier.ValueEquality
import AitpVerifier.VerifiedPlaces
import AitpVerifier.WireFormat
