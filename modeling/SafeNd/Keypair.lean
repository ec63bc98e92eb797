import SafeNd.SharedData
/-!
# Keypairs, signing and verification

`Keypair` of `keys/mod.rs` wraps one keypair of each scheme and dispatches `sign` by scheme;
`PublicKey::verify` dispatches on the pair of key and signature. The cryptography itself lives
in `ed25519_dalek` and `threshold_crypto`, so it is a parameter, `NativeSchemes`: the crate's
contract is that dispatch pairs each key with a signature of its own scheme, stamps a share
signature with the keypair's index, and answers a scheme mismatch without asking any scheme.
Verification answers in one of three ways, each for one reason (`PublicKey.verify_cases`).
A random generator draw is an argument of the constructor that makes it.
-/

namespace SafeNd

open Mathlib (Vector)

/-- The native operations the crate calls: the public key of a secret key, signing and
verification, for Ed25519, BLS and BLS key shares. -/
structure NativeSchemes where
  /-- `ed25519_dalek`: the public key of a secret key. -/
  ed25519Public : Bytes 32 → Bytes 32
  /-- `ed25519_dalek::Keypair::sign`. -/
  ed25519Sign : Bytes 32 → List UInt8 → Bytes 64
  /-- `ed25519_dalek::PublicKey::verify(data, sig)`. -/
  ed25519Verify : Bytes 32 → List UInt8 → Bytes 64 → Bool
  /-- `threshold_crypto::SecretKey::public_key`. -/
  blsPublic : Bytes 32 → Bytes 48
  /-- `threshold_crypto::SecretKey::sign`. -/
  blsSign : Bytes 32 → List UInt8 → Bytes 96
  /-- `threshold_crypto::PublicKey::verify(sig, data)`. -/
  blsVerify : Bytes 48 → Bytes 96 → List UInt8 → Bool
  /-- `threshold_crypto::SecretKeyShare::public_key_share`. -/
  sharePublic : Bytes 32 → Bytes 48
  /-- `threshold_crypto::SecretKeyShare::sign`. -/
  shareSign : Bytes 32 → List UInt8 → Bytes 96
  /-- `threshold_crypto::PublicKeyShare::verify(sig, data)`. -/
  shareVerify : Bytes 48 → Bytes 96 → List UInt8 → Bool

/-- Each native scheme accepts its own signatures under the public key of the signing
secret. -/
structure NativeSchemes.Correct (native : NativeSchemes) : Prop where
  /-- Ed25519 accepts its signatures. -/
  ed25519 : ∀ secret data,
    native.ed25519Verify (native.ed25519Public secret) data (native.ed25519Sign secret data)
  /-- BLS accepts its signatures. -/
  bls : ∀ secret data, native.blsVerify (native.blsPublic secret) (native.blsSign secret data) data
  /-- A key share accepts its signature shares. -/
  share : ∀ secret data,
    native.shareVerify (native.sharePublic secret) (native.shareSign secret data) data

/-- `ed25519_dalek::Keypair`. -/
structure Ed25519Keypair where
  /-- Secret key. -/
  secret : Bytes 32
  /-- Public key. -/
  public : Bytes 32
  deriving DecidableEq

/-- `BlsKeypair`. -/
structure BlsKeypair where
  /-- Secret key. -/
  secret : Bytes 32
  /-- Public key. -/
  public : Bytes 48
  deriving DecidableEq

/-- `BlsKeypairShare`; its `public_key_set` is read by no modelled function and is left out. -/
structure BlsKeypairShare where
  /-- Share index (`usize`, 64-bit). -/
  index : UInt64
  /-- Secret key share. -/
  secret : Bytes 32
  /-- Public key share. -/
  public : Bytes 48
  deriving DecidableEq

/-- Wrapper for different keypair types. -/
inductive Keypair
  /-- Ed25519 keypair. -/
  | ed25519 (keypair : Ed25519Keypair)
  /-- BLS keypair. -/
  | bls (keypair : BlsKeypair)
  /-- BLS keypair share. -/
  | blsShare (keypair : BlsKeypairShare)
  deriving DecidableEq

variable (native : NativeSchemes)

/-- `Keypair::new_ed25519`, with the generator's secret as an argument. -/
def Keypair.newEd25519 (secret : Bytes 32) : Keypair :=
  .ed25519 ⟨secret, native.ed25519Public secret⟩

/-- `Keypair::new_bls`, with the generator's secret as an argument. -/
def Keypair.newBls (secret : Bytes 32) : Keypair :=
  .bls ⟨secret, native.blsPublic secret⟩

/-- `Keypair::new_bls_share`. -/
def Keypair.newBlsShare (index : UInt64) (secretShare : Bytes 32) : Keypair :=
  .blsShare ⟨index, secretShare, native.sharePublic secretShare⟩

/-- `Keypair::public_key`. -/
def Keypair.publicKey : Keypair → PublicKey
  | .ed25519 keypair => .ed25519 keypair.public
  | .bls keypair => .bls keypair.public
  | .blsShare keypair => .blsShare keypair.public

/-- `Keypair::sign`: a share signature carries the keypair's index. -/
def Keypair.sign (keypair : Keypair) (data : List UInt8) : Signature :=
  match keypair with
  | .ed25519 keypair => .ed25519 (native.ed25519Sign keypair.secret data)
  | .bls keypair => .bls (native.blsSign keypair.secret data)
  | .blsShare keypair => .blsShare ⟨keypair.index, native.shareSign keypair.secret data⟩

/-- `PublicKey::verify`: a key and a signature of different schemes are a mismatch; otherwise
the scheme decides. -/
def PublicKey.verify (publicKey : PublicKey) (signature : Signature) (data : List UInt8) :
    Except Error Unit := do
  let isValid ← match publicKey, signature with
    | .ed25519 key, .ed25519 sig => pure (native.ed25519Verify key data sig)
    | .bls key, .bls sig => pure (native.blsVerify key sig data)
    | .blsShare key, .blsShare sig => pure (native.shareVerify key sig.share data)
    | _, _ => throw .signingKeyTypeMismatch
  if isValid then pure () else throw .invalidSignature

/-- The three schemes. -/
inductive Scheme
  /-- Ed25519. -/
  | ed25519
  /-- BLS. -/
  | bls
  /-- BLS key share. -/
  | blsShare
  deriving DecidableEq

/-- The scheme of a public key. -/
def PublicKey.scheme : PublicKey → Scheme
  | .ed25519 _ => .ed25519
  | .bls _ => .bls
  | .blsShare _ => .blsShare

/-- The scheme of a signature. -/
def Signature.scheme : Signature → Scheme
  | .ed25519 _ => .ed25519
  | .bls _ => .bls
  | .blsShare _ => .blsShare

/-- The native predicate of a key's scheme accepts a signature of the same scheme. -/
def NativeSchemes.Accepts : PublicKey → Signature → List UInt8 → Prop
  | .ed25519 key, .ed25519 sig, data => native.ed25519Verify key data sig
  | .bls key, .bls sig, data => native.blsVerify key sig data
  | .blsShare key, .blsShare sig, data => native.shareVerify key sig.share data
  | _, _, _ => False

/-- The keypair was made by one of the constructors, so its public key is that of its
secret. -/
def Keypair.BuiltBy (keypair : Keypair) : Prop :=
  (∃ secret, keypair = .newEd25519 native secret) ∨ (∃ secret, keypair = .newBls native secret) ∨
    ∃ index secret, keypair = .newBlsShare native index secret

variable {native}

/-- Verification succeeds exactly when the schemes agree and the native predicate accepts. -/
theorem PublicKey.verify_eq_ok (publicKey : PublicKey) (signature : Signature)
    (data : List UInt8) :
    publicKey.verify native signature data = .ok () ↔ native.Accepts publicKey signature data := by
  cases publicKey <;> cases signature <;>
    simp [PublicKey.verify, NativeSchemes.Accepts, bind, Except.bind, pure, Except.pure]

/-- Verification answers a scheme mismatch before asking any scheme. -/
theorem PublicKey.verify_mismatch {publicKey : PublicKey} {signature : Signature}
    (differ : publicKey.scheme ≠ signature.scheme) (data : List UInt8) :
    publicKey.verify native signature data = .error .signingKeyTypeMismatch := by
  cases publicKey <;> cases signature <;> simp_all [PublicKey.scheme, Signature.scheme] <;> rfl

/-- What verification can answer: a mismatch on keys and signatures of different schemes, and
on a same-scheme pair `Ok(())` or `InvalidSignature` as the native check accepts or rejects. -/
theorem PublicKey.verify_cases (publicKey : PublicKey) (signature : Signature)
    (data : List UInt8) :
    publicKey.scheme ≠ signature.scheme ∧
        publicKey.verify native signature data = .error .signingKeyTypeMismatch ∨
      publicKey.scheme = signature.scheme ∧ native.Accepts publicKey signature data ∧
        publicKey.verify native signature data = .ok () ∨
      publicKey.scheme = signature.scheme ∧ ¬ native.Accepts publicKey signature data ∧
        publicKey.verify native signature data = .error .invalidSignature := by
  cases publicKey <;> cases signature <;>
    simp [PublicKey.verify, NativeSchemes.Accepts, PublicKey.scheme, Signature.scheme, bind,
      Except.bind, pure, Except.pure]
  all_goals split <;> simp_all [throw, throwThe, MonadExceptOf.throw]

/-- A keypair made by a constructor verifies its own signatures when each scheme accepts its
own; a share keypair signs with its own index; and verification succeeds only on a same-scheme
pair its scheme accepts, failing with a mismatch whenever the schemes differ. -/
theorem keypair_sign_verify (native : NativeSchemes) :
    (native.Correct → ∀ keypair : Keypair, keypair.BuiltBy native → ∀ data,
      keypair.publicKey.verify native (keypair.sign native data) data = .ok ()) ∧
    (∀ (keypair : BlsKeypairShare) data, ∃ share,
      (Keypair.blsShare keypair).sign native data = .blsShare ⟨keypair.index, share⟩) ∧
    (∀ publicKey signature data,
      publicKey.verify native signature data = .ok () ↔ native.Accepts publicKey signature data) ∧
    (∀ (publicKey : PublicKey) (signature : Signature) data,
      publicKey.scheme ≠ signature.scheme →
        publicKey.verify native signature data = .error .signingKeyTypeMismatch) := by
  refine ⟨?_, fun _ _ => ⟨_, rfl⟩, PublicKey.verify_eq_ok,
    fun _ _ data differ => PublicKey.verify_mismatch differ data⟩
  rintro correct keypair (⟨secret, rfl⟩ | ⟨secret, rfl⟩ | ⟨index, secret, rfl⟩) data <;>
    refine (PublicKey.verify_eq_ok _ _ _).2 ?_
  · exact correct.ed25519 secret data
  · exact correct.bls secret data
  · exact correct.share secret data

/-- A toy scheme whose signature repeats the signer's public key, correct by construction. -/
def echoSchemes : NativeSchemes where
  ed25519Public secret := secret
  ed25519Sign secret _ := secret.append secret
  ed25519Verify key _ sig := sig = key.append key
  blsPublic secret := secret.append (Vector.replicate 16 0)
  blsSign secret _ := (secret.append (Vector.replicate 16 0)).append
    (secret.append (Vector.replicate 16 0))
  blsVerify key sig _ := sig = key.append key
  sharePublic secret := secret.append (Vector.replicate 16 1)
  shareSign secret _ := (secret.append (Vector.replicate 16 1)).append
    (secret.append (Vector.replicate 16 1))
  shareVerify key sig _ := sig = key.append key

/-- Each scheme of `echoSchemes` accepts its own signatures. -/
theorem echoSchemes_correct : echoSchemes.Correct :=
  ⟨fun _ _ => decide_eq_true rfl, fun _ _ => decide_eq_true rfl, fun _ _ => decide_eq_true rfl⟩

/-- A share keypair built over the echo schemes verifies its own signature. -/
theorem echo_share_verifies :
    (Keypair.newBlsShare echoSchemes 7 (Vector.replicate 32 3)).publicKey.verify echoSchemes
      ((Keypair.newBlsShare echoSchemes 7 (Vector.replicate 32 3)).sign echoSchemes [1, 2])
      [1, 2] = .ok () :=
  (keypair_sign_verify echoSchemes).1 echoSchemes_correct _ (.inr (.inr ⟨_, _, rfl⟩)) [1, 2]

end SafeNd
