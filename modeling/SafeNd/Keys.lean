import Mathlib.Data.List.Lex
import Mathlib.Data.Vector.Basic
/-!
# Keys, signatures and their canonical order

`PublicKey` and `Signature` of `keys/mod.rs` are closed sums over three schemes: Ed25519, BLS
and BLS key share. The values of each scheme are held by their fixed-size byte encodings, so
the derived equality of keys is equality of encodings. Hashing and ordering go through
`utils::serialise`, which is not under src/; it is modelled from the spec's canonical-encoding
contract as the bincode encoding it is: the variant index as a little-endian `u32`, then the
fields as their crates serialise them, an `ed25519_dalek` value as a byte string behind its
`u64` length and a `threshold_crypto` value as its fixed bytes. A length written before a
fixed-size field is the same for every value of its variant, so it changes no comparison.
`Vec<u8>` is ordered lexicographically, which is Mathlib's order on lists.
-/

namespace SafeNd

open Mathlib (Vector)

/-- `u8` ordered as its value. -/
instance uint8LinearOrder : LinearOrder UInt8 where
  le_refl := UInt8.le_refl
  le_trans _ _ _ := UInt8.le_trans
  le_antisymm _ _ below above := UInt8.eq_of_toBitVec_eq (BitVec.le_antisymm below above)
  le_total := UInt8.le_total
  lt_iff_le_not_le _ _ := by
    rw [UInt8.not_le]
    exact ⟨fun less => ⟨UInt8.not_lt.mp (UInt8.lt_asymm less), less⟩, And.right⟩
  decidableLE := inferInstance
  compare_eq_compareOfLessAndEq _ _ := rfl

/-- A fixed-size byte array `[u8; n]`. -/
abbrev Bytes (n : Nat) := Vector UInt8 n

/-- Little-endian bytes of a number, `width` of them; bincode writes integers so. -/
def leBytes : Nat → Nat → List UInt8
  | 0, _ => []
  | width + 1, n => UInt8.ofNat n :: leBytes width (n / 256)

/-- `width` little-endian bytes are `width` bytes long. -/
@[simp]
theorem length_leBytes (width n : Nat) : (leBytes width n).length = width := by
  induction width generalizing n with
  | zero => rfl
  | succ width ih => simp [leBytes, ih]

/-- Numbers that fit in `width` bytes have distinct encodings. -/
theorem leBytes_injective {width n m : Nat} (hn : n < 256 ^ width) (hm : m < 256 ^ width)
    (same : leBytes width n = leBytes width m) : n = m := by
  induction width generalizing n m with
  | zero => omega
  | succ width ih =>
    simp only [leBytes, List.cons.injEq] at same
    have low : n % 256 = m % 256 := by
      simpa [UInt8.toNat, UInt8.ofNat] using congrArg UInt8.toNat same.1
    have high : n / 256 = m / 256 :=
      ih (Nat.div_lt_of_lt_mul (by rwa [Nat.pow_succ, Nat.mul_comm] at hn))
        (Nat.div_lt_of_lt_mul (by rwa [Nat.pow_succ, Nat.mul_comm] at hm)) same.2
    omega

/-- A bincode enum value: the `u32` variant index, then the fields. -/
def variant (index : Nat) (fields : List UInt8) : List UInt8 := leBytes 4 index ++ fields

/-- Variants with indices below three are told apart, and then their fields. -/
theorem variant_injective {i j : Nat} {fields fields' : List UInt8} (hi : i < 3) (hj : j < 3)
    (same : variant i fields = variant j fields') : i = j ∧ fields = fields' := by
  obtain ⟨tags, rest⟩ := List.append_inj same (by simp)
  exact ⟨leBytes_injective (by omega) (by omega) tags, rest⟩

/-- Two byte arrays of one size with the same bytes are equal. -/
theorem bytes_eq {n : Nat} {a b : Bytes n} (same : a.toList = b.toList) : a = b :=
  Vector.toList_injective same

/-- A byte string as serde's `serialize_bytes` writes it through bincode: its length as a
little-endian `u64`, then the bytes. -/
def byteString (bytes : List UInt8) : List UInt8 := leBytes 8 bytes.length ++ bytes

/-- Byte strings with the same encoding are equal. -/
theorem byteString_injective {bytes bytes' : List UInt8}
    (same : byteString bytes = byteString bytes') : bytes = bytes' :=
  (List.append_inj same (by simp)).2

/-- Wrapper for different public key types, each by its encoding. -/
inductive PublicKey
  /-- Ed25519 public key. -/
  | ed25519 (key : Bytes 32)
  /-- BLS public key. -/
  | bls (key : Bytes 48)
  /-- BLS public key share. -/
  | blsShare (key : Bytes 48)
  deriving DecidableEq

/-- A signature share, with its index in the combined collection (`usize`, 64-bit). -/
structure SignatureShare where
  /-- Index in the combined collection. -/
  index : UInt64
  /-- Signature over some data. -/
  share : Bytes 96
  deriving DecidableEq

/-- Wrapper for different signature types. -/
inductive Signature
  /-- Ed25519 signature. -/
  | ed25519 (sig : Bytes 64)
  /-- BLS signature. -/
  | bls (sig : Bytes 96)
  /-- BLS signature share. -/
  | blsShare (sig : SignatureShare)
  deriving DecidableEq

/-- Modelled from the spec: `utils::serialise` of a public key, bincode's encoding: the variant
index, then an Ed25519 key as a byte string and a BLS key or key share as its 48 bytes. -/
def PublicKey.serialise : PublicKey → List UInt8
  | .ed25519 key => variant 0 (byteString key.toList)
  | .bls key => variant 1 key.toList
  | .blsShare key => variant 2 key.toList

/-- Modelled from the spec: `utils::serialise` of a signature, bincode's encoding: the variant
index, then an Ed25519 signature as a byte string, a BLS signature as its 96 bytes, and a share
as its `usize` index (a little-endian `u64`) before its 96 bytes. -/
def Signature.serialise : Signature → List UInt8
  | .ed25519 sig => variant 0 (byteString sig.toList)
  | .bls sig => variant 1 sig.toList
  | .blsShare sig => variant 2 (leBytes 8 sig.index.toNat ++ sig.share.toList)

/-- Distinct keys serialise differently. -/
theorem PublicKey.serialise_injective : Function.Injective PublicKey.serialise := by
  intro a b same
  cases a <;> cases b <;>
    obtain ⟨tags, fields⟩ := variant_injective (by omega) (by omega) same <;>
    first | omega | rw [bytes_eq fields] | rw [bytes_eq (byteString_injective fields)]

/-- Distinct signatures serialise differently, share indices included. -/
theorem Signature.serialise_injective : Function.Injective Signature.serialise := by
  intro a b same
  cases a <;> cases b <;>
    obtain ⟨tags, fields⟩ := variant_injective (by omega) (by omega) same <;>
    first | omega | rw [bytes_eq fields] | rw [bytes_eq (byteString_injective fields)] | skip
  case blsShare.blsShare a b =>
    obtain ⟨index, share⟩ := List.append_inj fields (by simp)
    obtain ⟨i, s⟩ := a
    obtain ⟨j, t⟩ := b
    obtain rfl := UInt64.toNat.inj (leBytes_injective i.toNat_lt_size j.toNat_lt_size index)
    obtain rfl := bytes_eq share
    rfl

/-- What Rust's `Ord` asks of `cmp` beside a derived `==`: a total order whose `Equal` is
equality. -/
structure LawfulOrd {α : Type} (cmp : α → α → Ordering) : Prop where
  /-- `Equal` exactly on equal values. -/
  eq_iff : ∀ a b, cmp a b = .eq ↔ a = b
  /-- Swapping the arguments reverses the answer. -/
  swap : ∀ a b, cmp b a = (cmp a b).swap
  /-- `Less` is transitive. -/
  lt_trans : ∀ a b c, cmp a b = .lt → cmp b c = .lt → cmp a c = .lt
  /-- `Less or Equal` is transitive. -/
  le_trans : ∀ a b c, cmp a b ≠ .gt → cmp b c ≠ .gt → cmp a c ≠ .gt

/-- Comparing injective byte encodings lexicographically is a lawful order. -/
theorem lawfulOrd_of_injective {α : Type} {encode : α → List UInt8}
    (injective : Function.Injective encode) :
    LawfulOrd fun a b => compare (encode a) (encode b) where
  eq_iff _ _ := compare_eq_iff_eq.trans injective.eq_iff
  swap a b := (Batteries.OrientedCmp.symm (encode a) (encode b)).symm
  lt_trans _ _ _ first second :=
    compare_lt_iff_lt.2 (lt_trans (compare_lt_iff_lt.1 first) (compare_lt_iff_lt.1 second))
  le_trans _ _ _ first second :=
    compare_le_iff_le.2 (le_trans (compare_le_iff_le.1 first) (compare_le_iff_le.1 second))

/-- `impl Ord for PublicKey`: compare the serialisations. -/
def PublicKey.cmp (a b : PublicKey) : Ordering := compare a.serialise b.serialise

/-- `impl Ord for Signature`: compare the serialisations. -/
def Signature.cmp (a b : Signature) : Ordering := compare a.serialise b.serialise

/-- `impl Hash for PublicKey`: hash the serialisation. -/
instance : Hashable PublicKey := ⟨fun key => hash key.serialise⟩

/-- `impl Hash for Signature`: hash the serialisation. -/
instance : Hashable Signature := ⟨fun sig => hash sig.serialise⟩

/-- Keys and signatures are lawfully ordered by their serialisations, share signatures that
differ only in their index are told apart, and equal values hash equally. -/
theorem cmp_lawful :
    LawfulOrd PublicKey.cmp ∧ LawfulOrd Signature.cmp ∧
      (∀ (i j : UInt64) (share : Bytes 96), i ≠ j →
        Signature.cmp (.blsShare ⟨i, share⟩) (.blsShare ⟨j, share⟩) ≠ .eq) ∧
      (∀ a b : PublicKey, a = b → hash a = hash b) ∧
      (∀ a b : Signature, a = b → hash a = hash b) := by
  have signatures := lawfulOrd_of_injective Signature.serialise_injective
  refine ⟨lawfulOrd_of_injective PublicKey.serialise_injective, signatures, ?_,
    fun _ _ same => same ▸ rfl, fun _ _ same => same ▸ rfl⟩
  intro i j share differ same
  cases (signatures.eq_iff _ _).1 same
  exact differ rfl

/-- `XOR_NAME_LEN`. -/
def xorNameLen : Nat := 32

/-- A point of XOR space: `XOR_NAME_LEN` bytes. -/
structure XorName where
  /-- The bytes of the name. -/
  bytes : Bytes xorNameLen
  deriving DecidableEq

/-- `<[u8]>::clone_from_slice`: byte `i` of the destination becomes byte `i` of the source.
Rust panics unless the lengths agree, so their agreement is an argument. -/
def cloneFromSlice {n : Nat} (dst : Bytes n) (src : List UInt8) (same : src.length = n) :
    Bytes n :=
  ⟨List.zipWith (fun _ byte => byte) dst.toList src, by simp [same]⟩

/-- A slice of the destination's length overwrites every byte of it. -/
@[simp]
theorem cloneFromSlice_toList {n : Nat} (dst : Bytes n) (src : List UInt8)
    (same : src.length = n) : (cloneFromSlice dst src same).toList = src := by
  obtain ⟨bytes, length⟩ := dst
  change List.zipWith (fun _ byte => byte) bytes src = src
  subst same
  induction src generalizing bytes with
  | nil => simp
  | cons byte src ih =>
    cases bytes with
    | nil => simp at length
    | cons _ bytes => simp [ih bytes (by simpa using length)]

/-- `impl From<PublicKey> for XorName`, with the `XorName::random()` draw of the call as an
argument: an Ed25519 key is its own name, a BLS key or key share overwrites the draw with the
first `XOR_NAME_LEN` bytes of its 48-byte encoding. -/
def XorName.fromPublicKey (publicKey : PublicKey) (random : XorName) : XorName :=
  match publicKey with
  | .ed25519 key => ⟨key⟩
  | .bls bytes | .blsShare bytes =>
    ⟨cloneFromSlice random.bytes (bytes.toList.take xorNameLen) (by simp [xorNameLen])⟩

/-- The name of a key in the spec's words: an Ed25519 key's 32 bytes, otherwise the first
`XOR_NAME_LEN` bytes of the 48-byte BLS key or key-share encoding. -/
def PublicKey.xorName : PublicKey → XorName
  | .ed25519 key => ⟨key⟩
  | .bls bytes | .blsShare bytes => ⟨⟨bytes.toList.take xorNameLen, by simp [xorNameLen]⟩⟩

/-- The draw is overwritten whole: the name made from a key is the key's own name. -/
theorem XorName.fromPublicKey_eq (publicKey : PublicKey) (random : XorName) :
    XorName.fromPublicKey publicKey random = publicKey.xorName := by
  cases publicKey <;> first | rfl | exact congrArg XorName.mk (bytes_eq (cloneFromSlice_toList ..))

/-- A key of 32 zero bytes. -/
def zeroKey : PublicKey := .ed25519 (Mathlib.Vector.replicate 32 0)

/-- The name of 32 zero bytes. -/
def zeroName : XorName := ⟨Mathlib.Vector.replicate 32 0⟩

end SafeNd
