import Slashclaw.Effect.Prog

namespace Slashclaw

structure RSAPublicKey where
  n : Nat
  e : Nat
  deriving DecidableEq, Repr

-- What `x509.ParsePKIXPublicKey` returns, seen through the assertion `pub.(*rsa.PublicKey)`.
inductive PKIXKey
  | rsa (key : RSAPublicKey)
  | other
  deriving DecidableEq, Repr

-- The Go standard library that the verifier and the handlers call, with the server's zone. A `none`
-- result is a returned error.
structure Primitives where
  base64Decode : String → Option (List UInt8)
  pemDecode : String → Option (List UInt8)
  parsePKIXPublicKey : List UInt8 → Option PKIXKey
  ed25519Verify : List UInt8 → List UInt8 → List UInt8 → Bool
  sha256 : List UInt8 → List UInt8
  verifyPSS : RSAPublicKey → List UInt8 → List UInt8 → Bool
  verifyPKCS1v15 : RSAPublicKey → List UInt8 → List UInt8 → Bool
  parseRequestURI : String → Bool
  -- `time.Local`: the server zone's offset from UTC at each instant, which `time.Now` carries.
  localOffset : Time → Duration

-- The error values the handlers tell apart: the sentinels of package `auth`, the
-- `fmt.Errorf` of the secp256k1 stub, and an error passed up from the store.
inductive AuthError
  | invalidAlgorithm
  | invalidPublicKey
  | invalidSignature
  | challengeExpired
  | challengeNotFound
  | notImplemented
  | db (e : DBError)
  deriving DecidableEq, Repr

def algEd25519 : String := "ed25519"
def algSecp256k1 : String := "secp256k1"
def algRSAPSS : String := "rsa-pss"
def algRSASHA256 : String := "rsa-sha256"

def ed25519PublicKeySize : Nat := 32

def isValidAlgorithm (alg : String) : Bool :=
  alg == algEd25519 || alg == algSecp256k1 || alg == algRSAPSS || alg == algRSASHA256

variable (P : Primitives)

def verifyEd25519 (publicKeyStr message signatureStr : String) : Except AuthError Bool :=
  match P.base64Decode publicKeyStr with
  | none => .error .invalidPublicKey
  | some publicKeyBytes =>
    if publicKeyBytes.length ≠ ed25519PublicKeySize then .error .invalidPublicKey
    else match P.base64Decode signatureStr with
      | none => .error .invalidSignature
      | some signatureBytes =>
        .ok (P.ed25519Verify publicKeyBytes message.toUTF8.data.toList signatureBytes)

def parseRSAPublicKey (publicKeyStr : String) : Except AuthError RSAPublicKey :=
  match P.pemDecode publicKeyStr with
  | some block =>
    match P.parsePKIXPublicKey block with
    | some (.rsa pub) => .ok pub
    | _ => .error .invalidPublicKey
  | none =>
    match P.base64Decode publicKeyStr with
    | none => .error .invalidPublicKey
    | some derBytes =>
      match P.parsePKIXPublicKey derBytes with
      | some (.rsa pub) => .ok pub
      | _ => .error .invalidPublicKey

-- `verifyRSAPSS` and `verifyRSASHA256` differ only in the padding check they end with.
def verifyRSA (check : RSAPublicKey → List UInt8 → List UInt8 → Bool)
    (publicKeyStr message signatureStr : String) : Except AuthError Bool :=
  match parseRSAPublicKey P publicKeyStr with
  | .error e => .error e
  | .ok publicKey =>
    match P.base64Decode signatureStr with
    | none => .error .invalidSignature
    | some signatureBytes => .ok (check publicKey (P.sha256 message.toUTF8.data.toList) signatureBytes)

def verifyRSAPSS : String → String → String → Except AuthError Bool :=
  verifyRSA P P.verifyPSS

def verifyRSASHA256 : String → String → String → Except AuthError Bool :=
  verifyRSA P P.verifyPKCS1v15

-- A library on which runs can be computed: base64 decodes to the UTF-8 bytes of the text, an
-- Ed25519 signature of a message by a key is the message followed by the key, and the server runs
-- in UTC.
def Primitives.plain : Primitives where
  base64Decode s := some s.toUTF8.data.toList
  pemDecode _ := none
  parsePKIXPublicKey _ := none
  ed25519Verify key msg sig := sig == msg ++ key
  sha256 b := b
  verifyPSS _ _ _ := false
  verifyPKCS1v15 _ _ _ := false
  parseRequestURI _ := true
  localOffset _ := 0

-- The instant `t` in the server's zone, as `time.Now` returns it and `Add` keeps it.
def Primitives.inLocal (P : Primitives) (t : Time) : LocalTime :=
  ⟨t, P.localOffset t⟩

def verifySignature (alg publicKeyStr message signatureStr : String) : Except AuthError Bool :=
  if alg = algEd25519 then verifyEd25519 P publicKeyStr message signatureStr
  else if alg = algRSAPSS then verifyRSAPSS P publicKeyStr message signatureStr
  else if alg = algRSASHA256 then verifyRSASHA256 P publicKeyStr message signatureStr
  else if alg = algSecp256k1 then .error .notImplemented
  else .error .invalidAlgorithm

end Slashclaw
