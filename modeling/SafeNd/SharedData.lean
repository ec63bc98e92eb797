import SafeNd.Keys
/-!
# Shared data: errors, relative indices, addresses and owners

The sequence code under src/ imports these from `shared_data`, `permissions` and `errors`,
which are not under src/. Each is modelled from what `sequence.rs` reads of it and from the
spec's words; only the error variants the modelled functions return are kept. Machine
integers that count or index a collection are `Nat`: a collection's length fits in `usize`,
so `len() as u64` never wraps on 64-bit targets.

The index resolver of §4.1 is modelled from the spec. Slicing `c[range]` panics in Rust on a
reversed range or one past the end; here it returns `Panic`, so that the range accessors of a
sequence can be shown never to panic.
-/

namespace SafeNd

/-- The error variants of `errors::Error` that the modelled functions return. -/
inductive Error
  /-- An expected index is not the current length; carries that length. -/
  | invalidSuccessor (index : Nat)
  /-- A permission snapshot's expected owners index is stale; carries the owners length. -/
  | invalidOwnersSuccessor (index : Nat)
  /-- An owner's expected permissions index is stale; carries the permissions length. -/
  | invalidPermissionsSuccessor (index : Nat)
  /-- A read found no entry. -/
  | noSuchEntry
  /-- A read found no data of the asked kind. -/
  | noSuchData
  /-- A key and a signature of different schemes. -/
  | signingKeyTypeMismatch
  /-- A signature that does not verify. -/
  | invalidSignature
  deriving DecidableEq, Repr

/-- A Rust panic, which no caller catches. -/
inductive Panic
  /-- A slice range that is reversed or runs past the end. -/
  | sliceOutOfBounds
  deriving DecidableEq, Repr

/-- `shared_data::Index`: a position counted from the start or from the end. -/
inductive Index
  /-- Absolute index. -/
  | fromStart (index : Nat)
  /-- Relative index: the start of the collection is `FromEnd(len)`. -/
  | fromEnd (index : Nat)
  deriving DecidableEq, Repr

/-- `impl From<u64> for Index`. -/
instance : Coe Nat Index := ⟨Index.fromStart⟩

/-- Modelled from the spec: `shared_data::to_absolute_index`, not under src/ (§4.1).
`FromStart(n)` resolves to `n` and `FromEnd(n)` to `len - n`, both only when `n ≤ len`. -/
def toAbsoluteIndex (index : Index) (count : Nat) : Option Nat :=
  match index with
  | .fromStart index => if index ≤ count then some index else none
  | .fromEnd index => if index ≤ count then some (count - index) else none

/-- `std::ops::Range<usize>`, the half-open range `start..stop`. -/
structure Range where
  /-- First index in the range. -/
  start : Nat
  /-- One past the last index (Rust's `end`). -/
  stop : Nat
  deriving DecidableEq, Repr

/-- Modelled from the spec: `shared_data::to_absolute_range`, not under src/ (§4.1). A range
resolves when both bounds resolve and the start is not after the end. -/
def toAbsoluteRange (start stop : Index) (count : Nat) : Option Range := do
  let start ← toAbsoluteIndex start count
  let stop ← toAbsoluteIndex stop count
  if start ≤ stop then some ⟨start, stop⟩ else none

/-- `&c[range]`, which panics unless `start ≤ end ≤ len`. -/
def sliceIndex {α : Type} (c : List α) (range : Range) : Except Panic (List α) :=
  if range.start ≤ range.stop ∧ range.stop ≤ c.length then
    .ok ((c.drop range.start).take (range.stop - range.start))
  else .error .sliceOutOfBounds

/-- The body shared by `in_range`, `permission_history_range` and `owner_history_range`:
resolve the range against the collection's length, then slice. -/
def historyRange {α : Type} (c : List α) (start stop : Index) : Except Panic (Option (List α)) :=
  match toAbsoluteRange start stop c.length with
  | none => .ok none
  | some range => some <$> sliceIndex c range

/-- An index resolves within the collection it was resolved against. -/
theorem toAbsoluteIndex_le {index : Index} {count offset : Nat}
    (resolved : toAbsoluteIndex index count = some offset) : offset ≤ count := by
  cases index <;> simp only [toAbsoluteIndex] at resolved <;> split at resolved <;>
    cases resolved <;> omega

/-- A resolved range is ordered and lies within the collection. -/
theorem toAbsoluteRange_eq_some {start stop : Index} {count : Nat} {range : Range} :
    toAbsoluteRange start stop count = some range ↔
      toAbsoluteIndex start count = some range.start ∧
        toAbsoluteIndex stop count = some range.stop ∧ range.start ≤ range.stop := by
  unfold toAbsoluteRange
  cases hs : toAbsoluteIndex start count <;> cases he : toAbsoluteIndex stop count <;>
    simp only [Option.bind_eq_bind, Option.none_bind, Option.some_bind, reduceCtorEq,
      false_and, and_false]
  split <;> constructor
  · rintro ⟨⟩; simp_all
  · rintro ⟨⟨⟩, ⟨⟩, -⟩; rfl
  · rintro ⟨⟩
  · rintro ⟨⟨⟩, ⟨⟩, ordered⟩; contradiction

/-- A range accessor never panics: it slices only a range that resolved, and a resolved range
is in bounds. -/
theorem historyRange_eq {α : Type} (c : List α) (start stop : Index) :
    historyRange c start stop =
      .ok ((toAbsoluteRange start stop c.length).map fun range =>
        (c.drop range.start).take (range.stop - range.start)) := by
  unfold historyRange
  split
  · next resolved => rw [resolved]; rfl
  · next range resolved =>
    obtain ⟨_, stop, ordered⟩ := toAbsoluteRange_eq_some.1 resolved
    rw [resolved, sliceIndex, if_pos ⟨ordered, toAbsoluteIndex_le stop⟩]
    rfl

/-- The rule of §4.1 in the spec's words: `FromStart(n)` is `n` and `FromEnd(n)` is `len - n`,
each only when `n ≤ len`. -/
def Index.ResolvesTo : Index → Nat → Nat → Prop
  | .fromStart n, len, offset => n ≤ len ∧ offset = n
  | .fromEnd n, len, offset => n ≤ len ∧ offset = len - n

/-- The resolver follows the rule of §4.1. -/
theorem toAbsoluteIndex_eq_some {index : Index} {count offset : Nat} :
    toAbsoluteIndex index count = some offset ↔ index.ResolvesTo count offset := by
  cases index <;> simp only [toAbsoluteIndex, Index.ResolvesTo] <;> split <;>
    simp_all [eq_comm]

/-- The contract of a range accessor over a collection `c`: it never panics, answers the slice
`c[a..b]` exactly when the bounds resolve to some `a ≤ b`, and answers an empty slice when both
bounds resolve to one offset. -/
def RangeContract {α : Type} (c : List α) (start stop : Index)
    (result : Except Panic (Option (List α))) : Prop :=
  ∃ answer, result = .ok answer ∧
    (∀ slice, answer = some slice ↔ ∃ a b, start.ResolvesTo c.length a ∧
      stop.ResolvesTo c.length b ∧ a ≤ b ∧ slice = (c.drop a).take (b - a)) ∧
    ∀ a, start.ResolvesTo c.length a → stop.ResolvesTo c.length a → answer = some []

/-- The body shared by the three range accessors keeps the range contract. -/
theorem historyRange_contract {α : Type} (c : List α) (start stop : Index) :
    RangeContract c start stop (historyRange c start stop) := by
  refine ⟨_, historyRange_eq c start stop, fun slice => ?_, fun a first second => ?_⟩
  · simp only [Option.map_eq_some', toAbsoluteRange_eq_some, ← toAbsoluteIndex_eq_some]
    constructor
    · rintro ⟨range, ⟨first, second, ordered⟩, rfl⟩
      exact ⟨_, _, first, second, ordered, rfl⟩
    · rintro ⟨a, b, first, second, ordered, rfl⟩
      exact ⟨⟨a, b⟩, ⟨first, second, ordered⟩, rfl⟩
  · have resolved : toAbsoluteRange start stop c.length = some ⟨a, a⟩ :=
      toAbsoluteRange_eq_some.2 ⟨toAbsoluteIndex_eq_some.2 first,
        toAbsoluteIndex_eq_some.2 second, le_refl a⟩
    simp [resolved]

/-- A point read from the start is the collection's own lookup. -/
@[simp]
theorem fromStart_bind_getElem? {α : Type} (history : List α) (i : Nat) :
    (toAbsoluteIndex (.fromStart i) history.length).bind (history[·]?) = history[i]? := by
  simp only [toAbsoluteIndex]
  split
  · rfl
  · exact (List.getElem?_eq_none (by omega)).symm

/-- A window between two positions from the start answers when they are ordered and within the
collection. -/
theorem historyRange_fromStart {α : Type} (c : List α) (a b : Nat) :
    historyRange c (.fromStart a) (.fromStart b) =
      .ok (if a ≤ b ∧ b ≤ c.length then some ((c.drop a).take (b - a)) else none) := by
  rw [historyRange_eq]
  by_cases bounds : a ≤ b ∧ b ≤ c.length
  · have resolved : toAbsoluteRange (.fromStart a) (.fromStart b) c.length = some ⟨a, b⟩ :=
      toAbsoluteRange_eq_some.2 ⟨toAbsoluteIndex_eq_some.2 ⟨by omega, rfl⟩,
        toAbsoluteIndex_eq_some.2 ⟨bounds.2, rfl⟩, bounds.1⟩
    rw [resolved, if_pos bounds]
    rfl
  · rw [if_neg bounds]
    cases resolved : toAbsoluteRange (.fromStart a) (.fromStart b) c.length with
    | none => rfl
    | some range =>
      obtain ⟨first, second, ordered⟩ := toAbsoluteRange_eq_some.1 resolved
      obtain ⟨-, rfl⟩ := toAbsoluteIndex_eq_some.1 first
      obtain ⟨within, rfl⟩ := toAbsoluteIndex_eq_some.1 second
      exact absurd ⟨ordered, within⟩ bounds

/-- Adjacent windows concatenate to the window over both. -/
theorem historyRange_append {α : Type} {c first second : List α} {start middle stop : Index}
    (left : historyRange c start middle = .ok (some first))
    (right : historyRange c middle stop = .ok (some second)) :
    historyRange c start stop = .ok (some (first ++ second)) := by
  simp only [historyRange_eq, Except.ok.injEq, Option.map_eq_some'] at left right ⊢
  obtain ⟨⟨a, b⟩, resolved, rfl⟩ := left
  obtain ⟨⟨b', d⟩, resolved', rfl⟩ := right
  obtain ⟨from_a, to_b, ordered⟩ := toAbsoluteRange_eq_some.1 resolved
  obtain ⟨from_b, to_d, ordered'⟩ := toAbsoluteRange_eq_some.1 resolved'
  obtain rfl : b = b' := Option.some.inj (to_b.symm.trans from_b)
  refine ⟨⟨a, d⟩, toAbsoluteRange_eq_some.2 ⟨from_a, to_d, ordered.trans ordered'⟩, ?_⟩
  dsimp only at ordered ordered' ⊢
  have split : d - a = (b - a) + (d - b) := by omega
  rw [split, List.take_add, List.drop_drop, Nat.add_sub_cancel' ordered]

/-- The window from `FromStart(0)` to `FromEnd(0)` is the whole collection. -/
theorem historyRange_whole {α : Type} (c : List α) :
    historyRange c (.fromStart 0) (.fromEnd 0) = .ok (some c) := by
  simp [historyRange_eq, toAbsoluteRange, toAbsoluteIndex]

/-- A one-element window from the start is the point read at its position. -/
theorem historyRange_single {α : Type} {history : List α} {i : Nat} {x : α} :
    historyRange history (.fromStart i) (.fromStart (i + 1)) = .ok (some [x]) ↔
      history[i]? = some x := by
  rw [historyRange_fromStart]
  by_cases within : i < history.length
  · rw [if_pos ⟨by omega, within⟩, List.drop_eq_getElem_cons within,
      List.getElem?_eq_getElem within]
    simp only [Nat.add_sub_cancel_left, List.take_succ_cons, List.take_zero, Except.ok.injEq,
      Option.some.injEq, List.singleton_inj]
  · rw [if_neg (by omega), List.getElem?_eq_none (by omega)]
    simp

/-- A window over a prefix answers the same over the whole collection. -/
theorem historyRange_of_prefix {α : Type} {c c' window : List α} (grown : c <+: c') {a b : Nat}
    (read : historyRange c (.fromStart a) (.fromStart b) = .ok (some window)) :
    historyRange c' (.fromStart a) (.fromStart b) = .ok (some window) := by
  rw [historyRange_fromStart] at read ⊢
  split_ifs at read with bounds <;> cases read
  obtain ⟨rest, rfl⟩ := grown
  have within : b - a ≤ (c.drop a).length := by simp; omega
  rw [if_pos ⟨bounds.1, by simp; omega⟩, List.drop_append_of_le_length (by omega),
    List.take_append_of_le_length within]

/-- `shared_data::Kind`: visibility and ordering of a sequence. -/
inductive Kind
  /-- Public and sentried. -/
  | publicSentried
  /-- Public, not sentried. -/
  | public
  /-- Private and sentried. -/
  | privateSentried
  /-- Private, not sentried. -/
  | «private»
  deriving DecidableEq, Repr

/-- `Kind::is_public`. -/
def Kind.isPublic : Kind → Bool
  | .publicSentried | .public => true
  | _ => false

/-- `Kind::is_private`. -/
def Kind.isPrivate (kind : Kind) : Bool := !kind.isPublic

/-- `Kind::is_sentried`. -/
def Kind.isSentried : Kind → Bool
  | .publicSentried | .privateSentried => true
  | _ => false

/-- `shared_data::Address`: kind, name and type tag of a sequence. -/
inductive Address
  /-- Public sentried sequence. -/
  | publicSentried (name : XorName) (tag : UInt64)
  /-- Public sequence. -/
  | public (name : XorName) (tag : UInt64)
  /-- Private sentried sequence. -/
  | privateSentried (name : XorName) (tag : UInt64)
  /-- Private sequence. -/
  | «private» (name : XorName) (tag : UInt64)
  deriving DecidableEq

/-- `Address::kind`. -/
def Address.kind : Address → Kind
  | .publicSentried .. => .publicSentried
  | .public .. => .public
  | .privateSentried .. => .privateSentried
  | .«private» .. => .«private»

/-- `Address::name`. -/
def Address.name : Address → XorName
  | .publicSentried name _ | .public name _ | .privateSentried name _ | .«private» name _ => name

/-- `Address::tag`. -/
def Address.tag : Address → UInt64
  | .publicSentried _ tag | .public _ tag | .privateSentried _ tag | .«private» _ tag => tag

/-- `shared_data::Owner`: an owner's key and the lengths it was set against. -/
structure Owner where
  /-- Public key of the owner. -/
  publicKey : PublicKey
  /-- The data length when the owner was set. -/
  expectedDataIndex : Nat
  /-- The permission-history length when the owner was set. -/
  expectedPermissionsIndex : Nat
  deriving DecidableEq

/-- `shared_data::User`: a specific key, or anyone. -/
inductive User
  /-- Any user. -/
  | anyone
  /-- A user with the given key. -/
  | specific (key : PublicKey)
  deriving DecidableEq

/-- `shared_data::ExpectedIndices`: the three lengths of a sequence. -/
structure ExpectedIndices where
  /-- Length of the data log. -/
  expectedDataIndex : Nat
  /-- Length of the owner history. -/
  expectedOwnersIndex : Nat
  /-- Length of the permission history. -/
  expectedPermissionsIndex : Nat
  deriving DecidableEq

end SafeNd
