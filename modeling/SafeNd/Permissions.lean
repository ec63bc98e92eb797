import SafeNd.SharedData
/-!
# Requests and permission snapshots

`sequence.rs` reads a permission snapshot through the `Permissions` trait: the two indices it
was set against, and whether it permits a user a request. The trait and both snapshot types
live in `permissions`, which is not under src/. The request enums are those the tests of
`sequence.rs` build; the snapshot tables and their lookups are modelled from §4.2 of the spec,
with a `BTreeMap` as an association list read by `List.lookup`.
-/

namespace SafeNd

/-- `SequenceQuery`: the read requests on a sequence. -/
inductive SequenceQuery
  /-- Read the values. -/
  | readData
  /-- Read the owner history. -/
  | readOwners
  /-- Read the permission history. -/
  | readPermissions
  deriving DecidableEq

/-- `QueryType`. -/
inductive QueryType
  /-- A sequence query. -/
  | sequence (query : SequenceQuery)
  deriving DecidableEq

/-- `HardErasureCmd`. -/
inductive HardErasureCmd
  /-- Hard delete. -/
  | hardDelete
  /-- Hard update. -/
  | hardUpdate
  deriving DecidableEq

/-- `SequenceWrite`. -/
inductive SequenceWrite
  /-- Append values. -/
  | append
  /-- Change permissions. -/
  | modifyPermissions
  /-- Erase values. -/
  | hardErasure (cmd : HardErasureCmd)
  deriving DecidableEq

/-- `ModifyableSequencePermissions`: the permissions a snapshot can grant or change. -/
inductive ModifyableSequencePermissions
  /-- Read the values. -/
  | readData
  /-- Read the owner history. -/
  | readOwners
  /-- Read the permission history. -/
  | readPermissions
  /-- A write. -/
  | write (write : SequenceWrite)
  deriving DecidableEq

/-- `SequenceCmd`: the commands on a sequence. -/
inductive SequenceCmd
  /-- Append values. -/
  | append
  /-- Modify one kind of permission. -/
  | modifyPermissions (permission : ModifyableSequencePermissions)
  deriving DecidableEq

/-- `CmdType`. -/
inductive CmdType
  /-- A sequence command. -/
  | sequence (cmd : SequenceCmd)
  deriving DecidableEq

/-- `permissions::Request`: a query or a command. -/
inductive Request
  /-- A read. -/
  | query (query : QueryType)
  /-- A mutation. -/
  | cmd (cmd : CmdType)
  deriving DecidableEq

/-- The request is a query. -/
def Request.IsQuery : Request → Prop
  | .query _ => True
  | .cmd _ => False

/-- Modelled from the spec: `PublicPermissionSet`, a table of explicit allows and denials. -/
structure PublicPermissionSet where
  /-- Explicit answer per request. -/
  permissions : List (Request × Bool)
  deriving DecidableEq

/-- Modelled from the spec: `PublicPermissionSet::is_permitted`, the explicit answer for a
request, if the table has one. -/
def PublicPermissionSet.isPermitted (set : PublicPermissionSet) (request : Request) :
    Option Bool :=
  set.permissions.lookup request

/-- Modelled from the spec: `PrivatePermissionSet`, a table of explicit allows and denials. -/
structure PrivatePermissionSet where
  /-- Explicit answer per request. -/
  permissions : List (Request × Bool)
  deriving DecidableEq

/-- Modelled from the spec: `PrivatePermissionSet::is_permitted`; only an explicit allow
permits. -/
def PrivatePermissionSet.isPermitted (set : PrivatePermissionSet) (request : Request) : Bool :=
  set.permissions.lookup request == some true

/-- `PublicPermissions`: a policy per user or for anyone, and the lengths it was set
against. -/
structure PublicPermissions where
  /-- Policy per user. -/
  permissions : List (User × PublicPermissionSet)
  /-- The data length when the snapshot was set. -/
  expectedDataIndex : Nat
  /-- The owner-history length when the snapshot was set. -/
  expectedOwnersIndex : Nat
  deriving DecidableEq

/-- `PrivatePermissions`: a policy per key, and the lengths it was set against. -/
structure PrivatePermissions where
  /-- Policy per key. -/
  permissions : List (PublicKey × PrivatePermissionSet)
  /-- The data length when the snapshot was set. -/
  expectedDataIndex : Nat
  /-- The owner-history length when the snapshot was set. -/
  expectedOwnersIndex : Nat
  deriving DecidableEq

/-- Modelled from the spec (§4.2, step 3): the user's own entry decides when it answers the
request; otherwise the `Anyone` entry does; otherwise the request is denied. -/
def PublicPermissions.isPermitted (snapshot : PublicPermissions) (user : PublicKey)
    (request : Request) : Bool :=
  match (snapshot.permissions.lookup (.specific user)).bind (·.isPermitted request) with
  | some answer => answer
  | none => ((snapshot.permissions.lookup .anyone).bind (·.isPermitted request)).getD false

/-- Modelled from the spec (§4.2, step 3): the user's own entry decides, and a user without
one is denied. -/
def PrivatePermissions.isPermitted (snapshot : PrivatePermissions) (user : PublicKey)
    (request : Request) : Bool :=
  match snapshot.permissions.lookup user with
  | some set => set.isPermitted request
  | none => false

/-- `permissions::Permissions`: what a sequence reads of a permission snapshot. -/
class Permissions (P : Type) where
  /-- Whether the snapshot permits a user a request. -/
  isPermitted : P → PublicKey → Request → Bool
  /-- The data length the snapshot was set against. -/
  expectedDataIndex : P → Nat
  /-- The owner-history length the snapshot was set against. -/
  expectedOwnersIndex : P → Nat

/-- A public snapshot as the sequence reads it. -/
instance : Permissions PublicPermissions :=
  ⟨PublicPermissions.isPermitted, (·.expectedDataIndex), (·.expectedOwnersIndex)⟩

/-- A private snapshot as the sequence reads it. -/
instance : Permissions PrivatePermissions :=
  ⟨PrivatePermissions.isPermitted, (·.expectedDataIndex), (·.expectedOwnersIndex)⟩

end SafeNd
