import SafeNd.Keys
/-!
# Money requests and their routing

`MoneyRequest` of `request/money.rs` carries a signed transfer or a proof of agreement over one,
and `dest_address` routes it to the section of a key's name. `XorName::from` draws
`XorName::random()` on every call, so each routing takes its draw as an argument; the names are
still functions of the key alone, because the key's bytes overwrite the whole draw.

`DebitAgreementProof` and `SignedTransfer`, which `money.rs` imports, are not under src/; they
are modelled by the fields `dest_address` reads. The transfer's amount and restrictions, the
counter of its id and the signatures are read by no modelled function and are left out.
-/

namespace SafeNd

/-- `TransferId`, a `crdts::Dot<PublicKey>`: the actor whose balance is debited. -/
structure TransferId where
  /-- The debited key. -/
  actor : PublicKey
  deriving DecidableEq

/-- `Transfer`: an id and a destination. -/
structure Transfer where
  /-- Transfer ID. -/
  id : TransferId
  /-- The destination to transfer to. -/
  «to» : PublicKey
  deriving DecidableEq

/-- `SignedTransfer`: a transfer signed by its actor. -/
structure SignedTransfer where
  /-- The transfer. -/
  transfer : Transfer
  deriving DecidableEq

/-- `DebitAgreementProof`: a section's agreement over a signed transfer. -/
structure DebitAgreementProof where
  /-- The signed transfer agreed on. -/
  signedTransfer : SignedTransfer
  deriving DecidableEq

/-- `MoneyRequest`: money requests sent to Elders. -/
inductive MoneyRequest
  /-- Request to validate transfer. -/
  | validateTransfer (signedTransfer : SignedTransfer)
  /-- Request to register transfer. -/
  | registerTransfer (proof : DebitAgreementProof)
  /-- Request to propagate transfer. -/
  | propagateTransfer (proof : DebitAgreementProof)
  /-- Get key balance. -/
  | getBalance (key : PublicKey)
  /-- Get key transfers since specified version. -/
  | getHistory («at» : PublicKey) (sinceVersion : Nat)
  deriving DecidableEq

/-- The request types `get_type` answers. -/
inductive RequestType
  /-- A read of private data. -/
  | privateGet
  /-- A transfer. -/
  | transfer
  deriving DecidableEq

/-- The authorisation kinds `authorisation_kind` answers. -/
inductive AuthorisationKind
  /-- No authorisation: the request carries its own authority. -/
  | none
  /-- Mutation and money transfer by the client. -/
  | mutAndTransferMoney
  /-- Reading a balance. -/
  | getBalance
  /-- Reading a transfer history. -/
  | getHistory
  deriving DecidableEq

namespace MoneyRequest

/-- `MoneyRequest::get_type`. -/
def getType : MoneyRequest → RequestType
  | .getBalance _ | .getHistory .. => .privateGet
  | .validateTransfer _ | .registerTransfer _ | .propagateTransfer _ => .transfer

/-- `MoneyRequest::authorisation_kind`: a proof of agreement carries its own authority. -/
def authorisationKind : MoneyRequest → AuthorisationKind
  | .propagateTransfer _ | .registerTransfer _ => .none
  | .validateTransfer _ => .mutAndTransferMoney
  | .getBalance _ => .getBalance
  | .getHistory .. => .getHistory

/-- `MoneyRequest::dest_address`, with the `XorName::random()` draw of its one `XorName::from`
call as an argument: a propagation goes where the credit is made, a registration and a
validation where the debit is made, and reads go nowhere. -/
def destAddress (request : MoneyRequest) (random : XorName) : Option XorName :=
  match request with
  | .propagateTransfer proof =>
    some (XorName.fromPublicKey proof.signedTransfer.transfer.«to» random)
  | .registerTransfer proof =>
    some (XorName.fromPublicKey proof.signedTransfer.transfer.id.actor random)
  | .validateTransfer signedTransfer =>
    some (XorName.fromPublicKey signedTransfer.transfer.id.actor random)
  | .getBalance _ => none
  | .getHistory .. => none

/-- Routing does not depend on the draws: the name made from a key is the key's own whatever
was drawn, so the validation and the registration of one signed transfer reach the actor's
section on every call, and its propagation the destination's. -/
theorem destAddress_draw_independent :
    (∀ (publicKey : PublicKey) (random random' : XorName),
      XorName.fromPublicKey publicKey random = XorName.fromPublicKey publicKey random' ∧
        XorName.fromPublicKey publicKey random = publicKey.xorName) ∧
    ∀ (proof : DebitAgreementProof) (random random' random'' : XorName),
      (validateTransfer proof.signedTransfer).destAddress random =
          (registerTransfer proof).destAddress random' ∧
        (registerTransfer proof).destAddress random' =
          some proof.signedTransfer.transfer.id.actor.xorName ∧
        (propagateTransfer proof).destAddress random'' =
          some proof.signedTransfer.transfer.«to».xorName := by
  refine ⟨fun publicKey random random' => ?_, fun proof random random' random'' => ?_⟩
  · rw [XorName.fromPublicKey_eq, XorName.fromPublicKey_eq]
    exact ⟨rfl, rfl⟩
  · simp [destAddress, XorName.fromPublicKey_eq]

end MoneyRequest

end SafeNd
