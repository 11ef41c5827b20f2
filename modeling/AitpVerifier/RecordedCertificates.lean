import AitpVerifier.Recorded
import AitpVerifier.Spiffe

/-!
# Recorded certificates

A recording with X.509 certificates: what the library reads from each of them,
and which of them it reports as issued by which.
-/
namespace AitpVerifier

open PyText

/-- A certificate by its text in an `x5c` member, and what the library reads from it. -/
structure RecordedCertificate where
  text : Text
  notBefore : Int
  notAfter : Int
  extensions : List Extension
  key : Text

/-- The octets of an `x5c` entry. -/
def derOf (text : Text) : Bytes := (Spiffe.stdB64decode? text).getD []

def RecordedCertificate.loaded (c : RecordedCertificate) : Certificate where
  der := derOf c.text
  isV3 := .ok true
  notValidBefore := .ok c.notBefore
  notValidAfter := .ok c.notAfter
  extensions := .ok c.extensions
  publicKey := .ok (.ed25519 (octetsOf c.key))

/-- A recording with certificates; an issuance names a certificate and its issuer. -/
structure CertificateRecording extends Recording where
  certificates : List RecordedCertificate
  issuances : List (RecordedCertificate × RecordedCertificate)

def CertificateRecording.platform (r : CertificateRecording) : Platform :=
  { r.toRecording.platform with
    loadDerCertificate := fun data =>
      match r.certificates.find? (fun c => derOf c.text == data) with
      | some c => .ok c.loaded
      | none => .error (valueError (txt "error parsing asn1 value"))
    verifyDirectlyIssuedBy := fun cert issuer =>
      if r.issuances.any (fun i => derOf i.1.text == cert.der && derOf i.2.text == issuer.der) then .ok ()
      else .error (.raised .value (txt "Issuer name does not match")) }

/-! ### A certificate authority that renewed its root -/

def caExtensions (pathLength : Option Nat) : List Extension :=
  [⟨Spiffe.basicConstraintsOid, true, .basicConstraints true pathLength⟩,
    ⟨Spiffe.keyUsageOid, true, .keyUsage false true true⟩]

def rootKey : Text := txt "SAdaWX5yGhVuLgeZ3lzAxTJNxufq8c3UYlCGjsUy" ++ txt "Fd0"

/-- The root that expired at the start of 2024. -/
def formerRoot : RecordedCertificate where
  text := txt "MIHvMIGioAMCAQICAQEwBQYDK2VwMA8xDTALBgNV" ++ txt "BAMMBFJvb3QwHhcNMTQwMTAxMDAwMDAwWhcNMjQw" ++
    txt "MTAxMDAwMDAwWjAPMQ0wCwYDVQQDDARSb290MCow" ++ txt "BQYDK2VwAyEASAdaWX5yGhVuLgeZ3lzAxTJNxufq" ++
    txt "8c3UYlCGjsUyFd2jIzAhMA8GA1UdEwEB/wQFMAMB" ++ txt "Af8wDgYDVR0PAQH/BAQDAgEGMAUGAytlcANBAFyW" ++
    txt "X58RO6RZBG7EqquhQDUS5lYIPj337GrtXk96ok/n" ++ txt "6iVwAyItLCcZyibllPAKCvpSwkykhOoRe+q17AEG" ++
    txt "Vwg="
  notBefore := 1388534400
  notAfter := 1704067200
  extensions := caExtensions none
  key := rootKey

/-- The root that replaced it, of the same name and key. -/
def renewedRoot : RecordedCertificate where
  text := txt "MIHvMIGioAMCAQICAQIwBQYDK2VwMA8xDTALBgNV" ++ txt "BAMMBFJvb3QwHhcNMjMwMTAxMDAwMDAwWhcNMzMw" ++
    txt "MTAxMDAwMDAwWjAPMQ0wCwYDVQQDDARSb290MCow" ++ txt "BQYDK2VwAyEASAdaWX5yGhVuLgeZ3lzAxTJNxufq" ++
    txt "8c3UYlCGjsUyFd2jIzAhMA8GA1UdEwEB/wQFMAMB" ++ txt "Af8wDgYDVR0PAQH/BAQDAgEGMAUGAytlcANBAK/C" ++
    txt "aqn6RNfbcfYCHcfifJEqhBAioppxoXI+BGTxRs28" ++ txt "Alj0mdgvXXtLpWqrCB/4vcd8o+mzeJhC3Y1r7Ncv" ++
    txt "wAk="
  notBefore := 1672531200
  notAfter := 1988150400
  extensions := caExtensions none
  key := rootKey

/-- A CA under the root, for one trust domain. -/
def issuingCa : RecordedCertificate where
  text := txt "MIIBFDCBx6ADAgECAgEDMAUGAytlcDAPMQ0wCwYD" ++ txt "VQQDDARSb290MB4XDTI0MDEwMTAwMDAwMFoXDTI2" ++
    txt "MDEwMTAwMDAwMFowEjEQMA4GA1UEAwwHSXNzdWlu" ++ txt "ZzAqMAUGAytlcAMhAF4hLAmA5LOfwJchE0qgIQk3" ++
    txt "Tt/SYMDT0Dy1AcjWVFepo0UwQzASBgNVHRMBAf8E" ++ txt "CDAGAQH/AgEAMA4GA1UdDwEB/wQEAwIBBjAdBgNV" ++
    txt "HR4BAf8EEzARoA8wDYYLZXhhbXBsZS5vcmcwBQYD" ++ txt "K2VwA0EASHNGOJR7fKyQr9HjoabdAJmYk65odf7z" ++
    txt "nGmCA938ypPaFlvxNdqcK+LqZmMHhE76U1G3EiqN" ++ txt "MyJULy0Wj+hEBg=="
  notBefore := 1704067200
  notAfter := 1767225600
  extensions := caExtensions (some 0) ++
    [⟨Spiffe.nameConstraintsOid, true, .nameConstraints (some [.uri (txt "example.org")]) none⟩]
  key := txt "XiEsCYDks5_AlyETSqAhCTdO39JgwNPQPLUByNZU" ++ txt "V6k"

def workloadId : Text := txt "spiffe://example.org/agent/a"

def workload : RecordedCertificate where
  text := txt "MIIBFTCByKADAgECAgEEMAUGAytlcDASMRAwDgYD" ++ txt "VQQDDAdJc3N1aW5nMB4XDTI0MDEwMTAwMDAwMFoX" ++
    txt "DTI1MDEwMTAwMDAwMFowDDEKMAgGA1UEAwwBYTAq" ++ txt "MAUGAytlcAMhABfLefsrQSDysexl5BmNbgiyjoE/" ++
    txt "6wHkpACDm4XhgIDOo0kwRzAnBgNVHREEIDAehhxz" ++ txt "cGlmZmU6Ly9leGFtcGxlLm9yZy9hZ2VudC9hMAwG" ++
    txt "A1UdEwEB/wQCMAAwDgYDVR0PAQH/BAQDAgeAMAUG" ++ txt "AytlcANBABStdRmrchmn45nuJlQQEXIV9n4OPsz7" ++
    txt "4ZtgVUrOrHNIzKuV/s9ZQxFni1v7mWM+5hbiPRJW" ++ txt "++zg5nlJYxftfQc="
  notBefore := 1704067200
  notAfter := 1735689600
  extensions := [⟨Spiffe.subjectAlternativeNameOid, false, .subjectAlternativeName [.uri workloadId]⟩,
    ⟨Spiffe.basicConstraintsOid, true, .basicConstraints false none⟩,
    ⟨Spiffe.keyUsageOid, true, .keyUsage true false false⟩]
  key := txt "F8t5-ytBIPKx7GXkGY1uCLKOgT_rAeSkAIObheGA" ++ txt "gM4"

/-! ### A workload's descriptor -/

def svidDigest : Text := txt "P1K58h5UNYe8RqwBLNysDtnpnlR1q7q3hDaDvEuZ" ++ txt "vEU"

def svidProof : Text := txt "H-zd7z4mcdeaeW2WV1SU0Hbdx7BeGsdoYS8Q3fra" ++ txt "oYAFQ85MwR4WLhWNyd7NvO3Jw3uEJXNwhvd0wDme" ++
    txt "7G3vBQ"

/-- What the proof of a descriptor reads of its message: from agent A to agent B. -/
def svidEnvelope : Members :=
  [(txt "message_id", .str (txt "c27f0e1d-84b5-4a96-9d3e-1f6a5b8c7d02")), (txt "timestamp", .int 1711900000),
    (txt "sender", .dict [(txt "agent_id", .str (aidOf agentA))]),
    (txt "payload", .dict [(txt "pop_nonce", .str (txt "BwcHBwcHBwcHBwcHBwcHBw"))])]

def svidDescriptor : Members :=
  [(txt "type", .str (txt "spiffe")), (txt "subject", .str workloadId), (txt "svid_type", .str (txt "x509-svid")),
    (txt "x5c", .list [.str workload.text, .str issuingCa.text]), (txt "proof", .str svidProof)]

/-- The bundle key of a root. -/
def rootJwk (root : RecordedCertificate) : JsonValue :=
  .dict [(txt "use", .str (txt "x509-svid")), (txt "x5c", .list [.str root.text])]

/-- A store with one bundle, of the given keys. -/
def bundleStore (keys : List JsonValue) : JsonValue :=
  .list [.dict [(txt "trust_domain", .str (txt "example.org")), (txt "bundle", .dict [(txt "keys", .list keys)])]]

def svidRecording : CertificateRecording where
  digests := [(octetsFrom (handshakeProofInput spiffeX509Domain (.str (aidOf agentA)) (.str (aidOf agentB))
    (.str (txt "c27f0e1d-84b5-4a96-9d3e-1f6a5b8c7d02")) 1711900000 (.str (txt "BwcHBwcHBwcHBwcHBwcHBw"))), svidDigest)]
  signatures := [⟨workload.key, svidProof, octetsOf svidDigest⟩]
  certificates := [workload, issuingCa, renewedRoot, formerRoot]
  issuances := [(workload, issuingCa), (issuingCa, renewedRoot), (issuingCa, formerRoot)]

/-! ### A certificate the library does not load -/

/-- A self-made certificate of a version that does not exist, with the workload's name. -/
def unknownVersion : Text := txt "MIIBGzCBzqADAgEDAgEJMAUGAytlcDASMRAwDgYD" ++ txt "VQQDDAdNYWxsb3J5MB4XDTI0MDEwMTAwMDAwMFoX" ++
    txt "DTI1MDEwMTAwMDAwMFowEjEQMA4GA1UEAwwHTWFs" ++ txt "bG9yeTAqMAUGAytlcAMhAOss8Tv3rjpfYUFoofsJ" ++
    txt "Jy05dx7EuFI3J4FeRmyvjuFjo0kwRzAnBgNVHREE" ++ txt "IDAehhxzcGlmZmU6Ly9leGFtcGxlLm9yZy9hZ2Vu" ++
    txt "dC9hMAwGA1UdEwEB/wQCMAAwDgYDVR0PAQH/BAQD" ++ txt "AgeAMAUGAytlcANBAKH+xGCCuyonkZf7XYtl6bOi" ++
    txt "wQYNasMMi3DRE4yidaGPVvLWWgN0+gFUsRpAy6a4" ++ txt "d4LKU8CeaJ90LMAQwkcLlgA="

/-- The recording, where the library refuses that certificate by its own exception. -/
def unknownVersionPlatform : Platform :=
  { svidRecording.platform with
    loadDerCertificate := fun data =>
      if data = derOf unknownVersion then .error (.raised .invalidVersion (txt "3 is not a valid X509 version"))
      else svidRecording.platform.loadDerCertificate data }

def unknownVersionDescriptor : Members := svidDescriptor.insert (txt "x5c") (.list [.str unknownVersion])

end AitpVerifier
