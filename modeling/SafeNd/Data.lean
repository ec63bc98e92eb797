import SafeNd.Sequence.Causal
/-!
# Sequence data of any flavour

`sequence::Data` holds one sequence of each of the four flavours. Most of its methods hand the
call to the sequence held (`Data.apply`); `is_permitted` first grants every query on a public
flavour, `shell` keeps the flavour, and the permission lookups refuse the other visibility. Each
fallible read fails for one stated reason (`publicPermissionsAt_error` and the lemmas after
it).
-/

namespace SafeNd

/-- `sequence::Data`. -/
inductive Data
  /-- A public sentried sequence. -/
  | publicSentried (data : PublicSentriedSequence)
  /-- A public sequence. -/
  | public (data : PublicSequence)
  /-- A private sentried sequence. -/
  | privateSentried (data : PrivateSentriedSequence)
  /-- A private sequence. -/
  | «private» (data : PrivateSequence)

namespace Data

universe u

/-- The body shared by the methods that hand the call to the sequence held. -/
def apply {α : Sort u} (method : ∀ {P S : Type} [Permissions P], Sequence P S → α) :
    Data → α
  | .publicSentried data => method data
  | .public data => method data
  | .privateSentried data => method data
  | .«private» data => method data

/-- `Data::is_permitted`: a query on a public flavour is granted; everything else is the held
sequence's answer. -/
def isPermitted (d : Data) (request : Request) (user : PublicKey) : Bool :=
  match d, request with
  | .publicSentried _, .query _ | .public _, .query _ => true
  | _, _ => d.apply fun data => data.isPermitted user request

/-- `Data::address`. -/
def address (d : Data) : Address := d.apply (·.address)

/-- `Data::kind`. -/
def kind (d : Data) : Kind := d.address.kind

/-- `Data::name`. -/
def name (d : Data) : XorName := d.address.name

/-- `Data::tag`. -/
def tag (d : Data) : UInt64 := d.address.tag

/-- `Data::is_public`. -/
def isPublic (d : Data) : Bool := d.kind.isPublic

/-- `Data::is_private`. -/
def isPrivate (d : Data) : Bool := d.kind.isPrivate

/-- `Data::is_sentried`. -/
def isSentried (d : Data) : Bool := d.kind.isSentried

/-- `Data::expected_data_index`. -/
def expectedDataIndex (d : Data) : Nat := d.apply (·.expectedDataIndex)

/-- `Data::expected_permissions_index`. -/
def expectedPermissionsIndex (d : Data) : Nat := d.apply (·.expectedPermissionsIndex)

/-- `Data::expected_owners_index`. -/
def expectedOwnersIndex (d : Data) : Nat := d.apply (·.expectedOwnersIndex)

/-- `Data::in_range`. -/
def inRange (d : Data) (start stop : Index) : Except Panic (Option (List Value)) :=
  d.apply (·.inRange start stop)

/-- `Data::get`. -/
def get (d : Data) (index : Nat) : Option Value := d.apply (·.get index)

/-- `Data::indices`. -/
def indices (d : Data) : ExpectedIndices := d.apply (·.indices)

/-- `Data::current_data_entry`. -/
def currentDataEntry (d : Data) : Option DataEntry := d.apply (·.currentDataEntry)

/-- `Data::owner_at`. -/
def ownerAt (d : Data) (index : Index) : Option Owner := d.apply (·.ownerAt index)

/-- `Data::is_owner`. -/
def isOwner (d : Data) (user : PublicKey) : Bool := d.apply (·.isOwner user)

/-- The body `public_permissions_at` and `private_permissions_at` share, given the held
sequence's `permissions_at` when its flavour has the visibility asked for and `none` otherwise:
`NoSuchData` for another visibility, then `ok_or(NoSuchEntry)`. -/
def permissionsAtOf {P : Type} (held : Option (Option P)) : Except Error P :=
  match held with
  | some (some permissions) => .ok permissions
  | some none => .error .noSuchEntry
  | none => .error .noSuchData

/-- `Data::public_permissions_at`: only a public flavour has public permissions. -/
def publicPermissionsAt (d : Data) (index : Index) : Except Error PublicPermissions :=
  permissionsAtOf <| match d with
    | .publicSentried data | .public data => some (data.permissionsAt index)
    | _ => none

/-- `Data::private_permissions_at`: only a private flavour has private permissions. -/
def privatePermissionsAt (d : Data) (index : Index) : Except Error PrivatePermissions :=
  permissionsAtOf <| match d with
    | .privateSentried data | .«private» data => some (data.permissionsAt index)
    | _ => none

/-- The body `public_user_permissions_at` and `private_user_permissions_at` share: the snapshot
looked up, with `?`, then the user's entry in it, or `NoSuchEntry`. -/
def userPermissionsAtOf {P Set : Type} (snapshot : Except Error P) (entry : P → Option Set) :
    Except Error Set := do
  match entry (← snapshot) with
  | some set => .ok set
  | none => .error .noSuchEntry

/-- `Data::public_user_permissions_at`. -/
def publicUserPermissionsAt (d : Data) (user : User) (index : Index) :
    Except Error PublicPermissionSet :=
  userPermissionsAtOf (d.publicPermissionsAt index) (·.permissions.lookup user)

/-- `Data::private_user_permissions_at`. -/
def privateUserPermissionsAt (d : Data) (user : PublicKey) (index : Index) :
    Except Error PrivatePermissionSet :=
  userPermissionsAtOf (d.privatePermissionsAt index) (·.permissions.lookup user)

/-- `Data::shell`: the held sequence's shell, in the same flavour. -/
def shell (d : Data) (index : Index) : Except Error Data :=
  match d with
  | .publicSentried data => Data.publicSentried <$> data.shell index
  | .public data => Data.public <$> data.shell index
  | .privateSentried data => Data.privateSentried <$> data.shell index
  | .«private» data => Data.«private» <$> data.shell index

/-- The flavour held is public. -/
def PublicFlavour : Data → Prop
  | .publicSentried _ | .public _ => True
  | _ => False

/-- The last entry of the owner history, whichever flavour. -/
def lastOwner (d : Data) : Option Owner := d.apply (·.owners.getLast?)

/-- The last permission snapshot, whichever flavour, permits the user the request. -/
def LastSnapshotPermits (d : Data) (user : PublicKey) (request : Request) : Prop :=
  d.apply fun data => ∃ snapshot, data.permissions.getLast? = some snapshot ∧
    Permissions.isPermitted snapshot user request = true

/-- A user is permitted a request exactly when the flavour is public and the request a query,
or the user is the latest owner, or the latest permission snapshot permits it. -/
theorem isPermitted_iff (d : Data) (request : Request) (user : PublicKey) :
    d.isPermitted request user = true ↔
      (d.PublicFlavour ∧ request.IsQuery) ∨
        (∃ owner, d.lastOwner = some owner ∧ owner.publicKey = user) ∨
          d.LastSnapshotPermits user request := by
  cases d <;> cases request <;>
    simp [isPermitted, apply, PublicFlavour, Request.IsQuery, lastOwner, LastSnapshotPermits,
      Sequence.isPermitted_iff]

/-- Permission is decided by the flavour, the latest owner and the latest snapshot alone: a
public query is granted, the latest owner is granted everything whatever the tables hold, and
otherwise the latest snapshot decides, so a former owner gains nothing from past ownership. -/
theorem permitted_by_latest_entries :
    (∀ (d : Data) request user, d.isPermitted request user = true ↔
      (d.PublicFlavour ∧ request.IsQuery) ∨
        (∃ owner, d.lastOwner = some owner ∧ owner.publicKey = user) ∨
          d.LastSnapshotPermits user request) ∧
    ∀ (d : Data) owner request, d.lastOwner = some owner →
      d.isPermitted request owner.publicKey = true :=
  ⟨isPermitted_iff, fun d owner request latest =>
    (isPermitted_iff d request _).2 (.inr (.inl ⟨owner, latest, rfl⟩))⟩

/-- On a private flavour with no owner yet, a request is permitted exactly when the latest
permission snapshot permits it; with no snapshot either, nothing is permitted. -/
theorem private_without_owner (d : Data) (request : Request) (user : PublicKey) :
    ¬ d.PublicFlavour → d.lastOwner = none →
      (d.isPermitted request user = true ↔ d.LastSnapshotPermits user request) := by
  intro notPublic noOwner
  rw [isPermitted_iff, noOwner]
  simp [notPublic]

end Data

/-- A private snapshot set against no values and no owners, letting `zeroKey` read the
values. -/
def readerSnapshot : PrivatePermissions :=
  ⟨[(zeroKey, ⟨[(.query (.sequence .readData), true)]⟩)], 0, 0⟩

/-- A fresh private sequence after one accepted permission change and no owner change. -/
def readerSequence : PrivateSentriedSequence :=
  (PrivateSentriedSequence.new zeroName 0).run [.setPermissions readerSnapshot 0]

/-- A private sequence reached from `new` with no owner grants a read: `set_permissions`
accepts a snapshot before the first owner, and `is_permitted` consults it. -/
theorem private_permits_before_owner :
    readerSequence.owners = [] ∧
      (Data.privateSentried readerSequence).isPermitted (.query (.sequence .readData)) zeroKey =
        true := by
  decide

/-- The snapshot set before any owner decides the private sequence's permissions. -/
theorem readerSequence_snapshot_decides :
    (Data.privateSentried readerSequence).isPermitted (.query (.sequence .readData)) zeroKey =
        true ↔
      (Data.privateSentried readerSequence).LastSnapshotPermits zeroKey
        (.query (.sequence .readData)) :=
  Data.private_without_owner _ _ _ id (by decide)

namespace Data

/-- The held sequence has no permission snapshot at the index. -/
def NoSnapshotAt (d : Data) (index : Index) : Prop :=
  d.apply fun data => data.permissionsAt index = none

/-- How the shared body of the permission lookups fails: `NoSuchData` on the other visibility,
`NoSuchEntry` when the held sequence has no snapshot at the index. -/
theorem permissionsAtOf_error {P : Type} {held : Option (Option P)} {e : Error} :
    permissionsAtOf held = .error e ↔
      held = none ∧ e = .noSuchData ∨ held = some none ∧ e = .noSuchEntry := by
  rcases held with _ | _ | _ <;> simp [permissionsAtOf, eq_comm]

/-- How `public_permissions_at` fails. -/
theorem publicPermissionsAt_error (d : Data) (index : Index) (e : Error) :
    d.publicPermissionsAt index = .error e ↔
      ¬ d.PublicFlavour ∧ e = .noSuchData ∨
        d.PublicFlavour ∧ d.NoSnapshotAt index ∧ e = .noSuchEntry := by
  cases d <;> simp [publicPermissionsAt, permissionsAtOf_error, PublicFlavour, NoSnapshotAt, apply]

/-- How `private_permissions_at` fails. -/
theorem privatePermissionsAt_error (d : Data) (index : Index) (e : Error) :
    d.privatePermissionsAt index = .error e ↔
      d.PublicFlavour ∧ e = .noSuchData ∨
        ¬ d.PublicFlavour ∧ d.NoSnapshotAt index ∧ e = .noSuchEntry := by
  cases d <;> simp [privatePermissionsAt, permissionsAtOf_error, PublicFlavour, NoSnapshotAt, apply]

/-- How the shared body of the user lookups fails: with the snapshot lookup's error, or with
`NoSuchEntry` when the snapshot found has no entry for the user. -/
theorem userPermissionsAtOf_error {P Set : Type} {snapshot : Except Error P}
    {entry : P → Option Set} {e : Error} :
    userPermissionsAtOf snapshot entry = .error e ↔
      snapshot = .error e ∨
        ∃ found, snapshot = .ok found ∧ e = .noSuchEntry ∧ entry found = none := by
  rcases snapshot with _ | found
  · simp [userPermissionsAtOf, bind, Except.bind]
  · cases answer : entry found <;> simp [userPermissionsAtOf, bind, Except.bind, answer, eq_comm]

/-- How `public_user_permissions_at` fails. -/
theorem publicUserPermissionsAt_error (d : Data) (user : User) (index : Index) (e : Error) :
    d.publicUserPermissionsAt user index = .error e ↔
      ¬ d.PublicFlavour ∧ e = .noSuchData ∨
        d.PublicFlavour ∧ e = .noSuchEntry ∧
          ∀ snapshot, d.publicPermissionsAt index = .ok snapshot →
            snapshot.permissions.lookup user = none := by
  rcases d with data | data | data | data <;>
    simp only [publicUserPermissionsAt, userPermissionsAtOf_error, publicPermissionsAt,
      PublicFlavour] <;>
    cases data.permissionsAt index <;> simp [permissionsAtOf, -List.lookup_eq_none_iff, eq_comm]

/-- How `private_user_permissions_at` fails. -/
theorem privateUserPermissionsAt_error (d : Data) (user : PublicKey) (index : Index) (e : Error) :
    d.privateUserPermissionsAt user index = .error e ↔
      d.PublicFlavour ∧ e = .noSuchData ∨
        ¬ d.PublicFlavour ∧ e = .noSuchEntry ∧
          ∀ snapshot, d.privatePermissionsAt index = .ok snapshot →
            snapshot.permissions.lookup user = none := by
  rcases d with data | data | data | data <;>
    simp only [privateUserPermissionsAt, userPermissionsAtOf_error, privatePermissionsAt,
      PublicFlavour] <;>
    cases data.permissionsAt index <;> simp [permissionsAtOf, -List.lookup_eq_none_iff, eq_comm]

/-- How `shell` fails. -/
theorem shell_error (d : Data) (index : Index) (e : Error) :
    d.shell index = .error e ↔
      e = .noSuchEntry ∧ toAbsoluteIndex index d.expectedDataIndex = none := by
  rcases d with data | data | data | data <;>
    simp only [shell, Sequence.shell, expectedDataIndex, apply] <;>
    cases toAbsoluteIndex index data.expectedDataIndex <;> simp [eq_comm]

end Data

end SafeNd
