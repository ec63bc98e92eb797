import SafeNd.Permissions
/-!
# Sequences

`Sequence<P, S>` of `sequence.rs`: a value log, a permission history and an owner history,
with the permission snapshot type `P` and the marker `S` (`Sentried` or `NonSentried`) as type
parameters, as in the source. A mutator takes `&mut self` and returns `Result<()>`; it is
modelled in `EStateM`, whose result keeps the state on an error as well, so that leaving the
state untouched on a rejected call is a theorem and not a modelling choice.
-/

namespace SafeNd

/-- `Value`: an opaque byte payload. -/
abbrev Value := List UInt8

/-- The marker of sequences whose appends carry the expected data length. -/
structure Sentried where
  deriving DecidableEq

/-- The marker of sequences whose appends are unconditional. -/
structure NonSentried where
  deriving DecidableEq

/-- `DataEntry`: an index and a value. -/
structure DataEntry where
  /-- The index reported with the value. -/
  index : Nat
  /-- The value. -/
  value : Value
  deriving DecidableEq

/-- `Sequence<P, S>`. -/
structure Sequence (P S : Type) where
  /-- The address, fixed at creation. -/
  address : Address
  /-- The value log. -/
  data : List Value
  /-- The permission history. -/
  permissions : List P
  /-- The owner history. -/
  owners : List Owner
  /-- The flavour marker. -/
  flavour : S
  deriving DecidableEq

/-- The state after a call, whether it succeeded or failed. -/
def after {ε σ α : Type} : EStateM.Result ε σ α → σ
  | .ok _ state => state
  | .error _ state => state

namespace Sequence

variable {P S : Type}

/-- `Sequence::expected_data_index`: the data length. -/
def expectedDataIndex (s : Sequence P S) : Nat := s.data.length

/-- `Sequence::expected_owners_index`: the owner-history length. -/
def expectedOwnersIndex (s : Sequence P S) : Nat := s.owners.length

/-- `Sequence::expected_permissions_index`: the permission-history length. -/
def expectedPermissionsIndex (s : Sequence P S) : Nat := s.permissions.length

/-- `Sequence::shell`: everything but the values, with the histories cut back to the entries
set against a data length no larger than the resolved index. -/
def shell [Permissions P] (s : Sequence P S) (expectedDataIndex : Index) :
    Except Error (Sequence P S) :=
  match toAbsoluteIndex expectedDataIndex s.expectedDataIndex with
  | none => .error .noSuchEntry
  | some expectedDataIndex =>
    .ok { address := s.address, data := [],
          permissions := s.permissions.filter
            (Permissions.expectedDataIndex · ≤ expectedDataIndex),
          owners := s.owners.filter (·.expectedDataIndex ≤ expectedDataIndex),
          flavour := s.flavour }

/-- `Sequence::get`. -/
def get (s : Sequence P S) (index : Nat) : Option Value := s.data[index]?

/-- `Sequence::current_data_entry`: the last value, reported with the data length. -/
def currentDataEntry (s : Sequence P S) : Option DataEntry :=
  match s.data.getLast? with
  | some value => some ⟨s.data.length, value⟩
  | none => none

/-- `Sequence::in_range`. -/
def inRange (s : Sequence P S) (start stop : Index) : Except Panic (Option (List Value)) :=
  historyRange s.data start stop

/-- `Sequence::name`. -/
def name (s : Sequence P S) : XorName := s.address.name

/-- `Sequence::tag`. -/
def tag (s : Sequence P S) : UInt64 := s.address.tag

/-- `Sequence::permission_history_range`. -/
def permissionHistoryRange (s : Sequence P S) (start stop : Index) :
    Except Panic (Option (List P)) :=
  historyRange s.permissions start stop

/-- The body `set_owner` and `set_permissions` share: an entry that records the data length
`dataIndex` and the other history's length `otherIndex` is pushed onto its own history when both
are current and the supplied `index` is the own history's length. The checks run in that order;
the other history's reports `otherError`, the other two `InvalidSuccessor`. -/
def setEntry (dataIndex otherIndex : Nat) (otherLength ownLength : Sequence P S → Nat)
    (otherError : Nat → Error) (push : Sequence P S → Sequence P S) (index : Nat) :
    EStateM Error (Sequence P S) Unit :=
  fun s =>
    if dataIndex ≠ s.expectedDataIndex then
      .error (.invalidSuccessor s.expectedDataIndex) s
    else if otherIndex ≠ otherLength s then
      .error (otherError (otherLength s)) s
    else if ownLength s ≠ index then
      .error (.invalidSuccessor (ownLength s)) s
    else .ok () (push s)

section SetEntry

variable {s : Sequence P S} {otherLength ownLength : Sequence P S → Nat}
  {otherError : Nat → Error} {push : Sequence P S → Sequence P S} {dataIndex otherIndex index : Nat}

/-- `setEntry` pushes its entry when all three checks pass. -/
theorem setEntry_accepted
    (fits : dataIndex = s.data.length ∧ otherIndex = otherLength s ∧ index = ownLength s) :
    setEntry dataIndex otherIndex otherLength ownLength otherError push index s =
      .ok () (push s) := by
  simp [setEntry, expectedDataIndex, fits]

/-- `setEntry` fails, leaving the state as it was, when one of its checks fails. -/
theorem setEntry_rejected
    (fails : ¬(dataIndex = s.data.length ∧ otherIndex = otherLength s ∧ index = ownLength s)) :
    ∃ e, setEntry dataIndex otherIndex otherLength ownLength otherError push index s =
      .error e s := by
  unfold setEntry
  split_ifs <;> first | exact ⟨_, rfl⟩ | simp_all [expectedDataIndex]

end SetEntry

/-- `Sequence::set_permissions`: checked against the data length, the owner-history length and
the permission-history length, in that order. -/
def setPermissions [Permissions P] (permissions : P) (index : Nat) :
    EStateM Error (Sequence P S) Unit :=
  setEntry (Permissions.expectedDataIndex permissions) (Permissions.expectedOwnersIndex permissions)
    expectedOwnersIndex expectedPermissionsIndex .invalidOwnersSuccessor
    (fun s => { s with permissions := s.permissions ++ [permissions] }) index

/-- `Sequence::permissions_at`. -/
def permissionsAt (s : Sequence P S) (index : Index) : Option P :=
  (toAbsoluteIndex index s.permissions.length).bind (s.permissions[·]?)

/-- `Sequence::owner_at`. -/
def ownerAt (s : Sequence P S) (index : Index) : Option Owner :=
  (toAbsoluteIndex index s.owners.length).bind (s.owners[·]?)

/-- `Sequence::is_permitted`: the latest owner is permitted; otherwise the latest permission
snapshot decides, and with none the request is denied. -/
def isPermitted [Permissions P] (s : Sequence P S) (user : PublicKey) (request : Request) : Bool :=
  (match s.ownerAt (.fromEnd 1) with
    | some owner => owner.publicKey == user
    | none => false) ||
  match s.permissionsAt (.fromEnd 1) with
  | some permissions => Permissions.isPermitted permissions user request
  | none => false

/-- `Sequence::owner_history_range`. -/
def ownerHistoryRange (s : Sequence P S) (start stop : Index) :
    Except Panic (Option (List Owner)) :=
  historyRange s.owners start stop

/-- `Sequence::set_owner`: checked against the data length, the permission-history length and
the owner-history length, in that order. -/
def setOwner (owner : Owner) (index : Nat) : EStateM Error (Sequence P S) Unit :=
  setEntry owner.expectedDataIndex owner.expectedPermissionsIndex expectedPermissionsIndex
    expectedOwnersIndex .invalidPermissionsSuccessor
    (fun s => { s with owners := s.owners ++ [owner] }) index

/-- `Sequence::is_owner`. -/
def isOwner (s : Sequence P S) (user : PublicKey) : Bool :=
  match s.ownerAt (.fromEnd 1) with
  | some owner => user == owner.publicKey
  | none => false

/-- `Sequence::indices`. -/
def indices (s : Sequence P S) : ExpectedIndices :=
  ⟨s.expectedDataIndex, s.expectedOwnersIndex, s.expectedPermissionsIndex⟩

/-- `in_range`, `permission_history_range` and `owner_history_range` never panic, and each
answers exactly the slice of its own collection between two resolved, ordered bounds. -/
theorem range_accessors_contract (s : Sequence P S) (start stop : Index) :
    RangeContract s.data start stop (s.inRange start stop) ∧
      RangeContract s.permissions start stop (s.permissionHistoryRange start stop) ∧
      RangeContract s.owners start stop (s.ownerHistoryRange start stop) :=
  ⟨historyRange_contract .., historyRange_contract .., historyRange_contract ..⟩

/-- `FromEnd(1)` reads the last entry of a history. -/
theorem fromEnd_one_getLast? {α : Type} (history : List α) :
    (toAbsoluteIndex (.fromEnd 1) history.length).bind (history[·]?) = history.getLast? := by
  rw [List.getLast?_eq_getElem?]
  cases history <;> simp [toAbsoluteIndex]

/-- `owner_at(FromEnd(1))` is the latest owner. -/
@[simp]
theorem ownerAt_fromEnd_one (s : Sequence P S) : s.ownerAt (.fromEnd 1) = s.owners.getLast? :=
  fromEnd_one_getLast? s.owners

/-- `permissions_at(FromEnd(1))` is the latest permission snapshot. -/
@[simp]
theorem permissionsAt_fromEnd_one (s : Sequence P S) :
    s.permissionsAt (.fromEnd 1) = s.permissions.getLast? :=
  fromEnd_one_getLast? s.permissions

/-- `owner_at(FromStart(i))` is the owner at position `i`. -/
@[simp]
theorem ownerAt_fromStart (s : Sequence P S) (i : Nat) : s.ownerAt (.fromStart i) = s.owners[i]? :=
  fromStart_bind_getElem? s.owners i

/-- `permissions_at(FromStart(i))` is the snapshot at position `i`. -/
@[simp]
theorem permissionsAt_fromStart (s : Sequence P S) (i : Nat) :
    s.permissionsAt (.fromStart i) = s.permissions[i]? :=
  fromStart_bind_getElem? s.permissions i

/-- A user is permitted exactly when they are the latest owner or the latest permission
snapshot permits them. -/
theorem isPermitted_iff [Permissions P] (s : Sequence P S) (user : PublicKey) (request : Request) :
    s.isPermitted user request = true ↔
      (∃ owner, s.owners.getLast? = some owner ∧ owner.publicKey = user) ∨
        ∃ snapshot, s.permissions.getLast? = some snapshot ∧
          Permissions.isPermitted snapshot user request = true := by
  unfold isPermitted
  rw [ownerAt_fromEnd_one, permissionsAt_fromEnd_one]
  cases s.owners.getLast? <;> cases s.permissions.getLast? <;> simp

/-- The body shared by the four `new`s: an address and empty histories. -/
def empty (address : Address) (flavour : S) : Sequence P S :=
  ⟨address, [], [], [], flavour⟩

end Sequence

/-- `Sequence<P, NonSentried>::append`: the values are appended unconditionally. -/
def NonSentried.append {P : Type} (values : List Value) :
    EStateM Error (Sequence P NonSentried) Unit :=
  fun s => .ok () { s with data := s.data ++ values }

/-- `Sequence<P, Sentried>::append`: the values are appended when the expected index is the
data length. -/
def Sentried.append {P : Type} (values : List Value) (expectedIndex : Nat) :
    EStateM Error (Sequence P Sentried) Unit :=
  fun s =>
    if expectedIndex ≠ s.data.length then .error (.invalidSuccessor s.data.length) s
    else .ok () { s with data := s.data ++ values }

/-- `PublicSentriedSequence`. -/
abbrev PublicSentriedSequence := Sequence PublicPermissions Sentried

/-- `PublicSequence`. -/
abbrev PublicSequence := Sequence PublicPermissions NonSentried

/-- `PrivateSentriedSequence`. -/
abbrev PrivateSentriedSequence := Sequence PrivatePermissions Sentried

/-- `PrivateSequence`. -/
abbrev PrivateSequence := Sequence PrivatePermissions NonSentried

/-- `Sequence<PublicPermissions, Sentried>::new`. -/
def PublicSentriedSequence.new (name : XorName) (tag : UInt64) : PublicSentriedSequence :=
  .empty (.publicSentried name tag) ⟨⟩

/-- `Sequence<PublicPermissions, NonSentried>::new`. -/
def PublicSequence.new (name : XorName) (tag : UInt64) : PublicSequence :=
  .empty (.public name tag) ⟨⟩

/-- `Sequence<PrivatePermissions, Sentried>::new`. -/
def PrivateSentriedSequence.new (name : XorName) (tag : UInt64) : PrivateSentriedSequence :=
  .empty (.privateSentried name tag) ⟨⟩

/-- `Sequence<PrivatePermissions, NonSentried>::new`. -/
def PrivateSequence.new (name : XorName) (tag : UInt64) : PrivateSequence :=
  .empty (.«private» name tag) ⟨⟩

/-! ## The index `current_data_entry` reports

`current_data_entry` pairs the last value with `self.data.len()`, while `get` and `in_range`
count values from zero: the index it reports is one past the value's position, and `get` there
finds nothing. -/

namespace Sequence

variable {P S : Type}

/-- `current_data_entry` answers exactly on a nonempty value log, with the last value and the
data length; `get` at that index finds nothing, and the value sits at the index before. -/
theorem currentDataEntry_past_last (s : Sequence P S) :
    s.currentDataEntry = s.data.getLast?.map (DataEntry.mk s.data.length) ∧
      ∀ entry ∈ s.currentDataEntry,
        s.get entry.index = none ∧ s.get (entry.index - 1) = some entry.value := by
  have entry : s.currentDataEntry = s.data.getLast?.map (DataEntry.mk s.data.length) := by
    cases last : s.data.getLast? <;> simp [currentDataEntry, last]
  refine ⟨entry, fun found mem => ?_⟩
  rw [entry, Option.mem_map] at mem
  obtain ⟨value, last, rfl⟩ := mem
  rw [List.getLast?_eq_getElem?] at last
  exact ⟨List.getElem?_eq_none le_rfl, last⟩

end Sequence

/-- A new public sequence after one append of one value: `current_data_entry` reports index 1,
where `get` finds nothing and `in_range(FromStart(1), FromStart(2))` answers `None`; the value is
at index 0. -/
theorem appended_entry_index_past_value (name : XorName) (tag : UInt64) (value : Value) :
    let s := after (NonSentried.append [value] (PublicSequence.new name tag))
    s.currentDataEntry = some ⟨1, value⟩ ∧ s.get 1 = none ∧ s.get 0 = some value ∧
      s.inRange (.fromStart 1) (.fromStart 2) = .ok none := by
  intro s
  have entry : s.currentDataEntry = some ⟨1, value⟩ := rfl
  obtain ⟨missing, found⟩ := (Sequence.currentDataEntry_past_last s).2 _ entry
  exact ⟨entry, missing, found, rfl⟩

/-! ## The errors of `set_owner` and `set_permissions`

Of the three checks each makes, the check against the other history reports a variant of its
own (`InvalidPermissionsSuccessor`, `InvalidOwnersSuccessor`), and the data-length check reports
`InvalidSuccessor`, as the sentried append's does; but the check of the supplied index of the
history written reports `InvalidSuccessor` too. A data mismatch and an index mismatch are then
told apart only by the length they carry, and not at all when the two lengths are equal, as on
every new sequence. -/

namespace Sequence

variable {P S : Type}

/-- A data-length mismatch of one call and an index mismatch of another, sharing the other
history's length and the own history's, return the same error exactly when the value log and
the own history are equally long. -/
theorem setEntry_errors_agree_iff (s : Sequence P S) {otherLength ownLength : Sequence P S → Nat}
    {otherError : Nat → Error} {push push' : Sequence P S → Sequence P S}
    {dataIndex otherIndex index dataIndex' otherIndex' index' : Nat}
    (dataFails : dataIndex ≠ s.data.length)
    (indexFails : dataIndex' = s.data.length ∧ otherIndex' = otherLength s ∧ index' ≠ ownLength s) :
    (∃ e, setEntry dataIndex otherIndex otherLength ownLength otherError push index s = .error e s ∧
        setEntry dataIndex' otherIndex' otherLength ownLength otherError push' index' s =
          .error e s) ↔
      s.data.length = ownLength s := by
  obtain ⟨dataFits, otherFits, indexWrong⟩ := indexFails
  have first : setEntry dataIndex otherIndex otherLength ownLength otherError push index s =
      .error (.invalidSuccessor s.data.length) s := if_pos dataFails
  have second : setEntry dataIndex' otherIndex' otherLength ownLength otherError push' index' s =
      .error (.invalidSuccessor (ownLength s)) s := by
    simp [setEntry, expectedDataIndex, dataFits, otherFits, Ne.symm indexWrong]
  simp [first, second, eq_comm]

end Sequence

/-- On a new sequence, a `set_owner` whose owner expects one value and a `set_owner` supplying
index 1 fail on different checks with the same error, and so do the two like `set_permissions`
calls. -/
theorem new_sequence_successor_errors_agree (name : XorName) (tag : UInt64) (key : PublicKey) :
    let s := PublicSentriedSequence.new name tag
    (∃ e, Sequence.setOwner ⟨key, 1, 0⟩ 0 s = .error e s ∧
      Sequence.setOwner ⟨key, 0, 0⟩ 1 s = .error e s) ∧
    (∃ e, Sequence.setPermissions ⟨[], 1, 0⟩ 0 s = .error e s ∧
      Sequence.setPermissions ⟨[], 0, 0⟩ 1 s = .error e s) :=
  ⟨(Sequence.setEntry_errors_agree_iff _ Nat.one_ne_zero ⟨rfl, rfl, Nat.one_ne_zero⟩).2 rfl,
    (Sequence.setEntry_errors_agree_iff _ Nat.one_ne_zero ⟨rfl, rfl, Nat.one_ne_zero⟩).2 rfl⟩

end SafeNd
