import SafeNd.Sequence.Basic
/-!
# Runs of a sequence

A run is a list of mutating calls, each one atomic step, applied whether it succeeds or not:
any interleaving of calls by any number of clients on one sequence is such a list. Each call
has a contract in the words of §4.2 of the spec, `Call.Accepts` and `Call.extend`, and the
source's methods meet it (`Call.apply_accepted`, `Call.apply_rejected`). Every other fact
about runs is derived from that one lemma and from `Extends`, which says what a later state
keeps of an earlier one.
-/

namespace SafeNd

/-- One mutating call on a sequence of flavour `S`. The two appends exist only for their own
flavour, as the two `append`s of the source live in separate `impl` blocks. -/
inductive Call (P : Type) : Type → Type 1
  /-- `Sequence<P, NonSentried>::append(values)`. -/
  | append (values : List Value) : Call P NonSentried
  /-- `Sequence<P, Sentried>::append(values, expected_index)`. -/
  | appendSentried (values : List Value) (expectedIndex : Nat) : Call P Sentried
  /-- `Sequence::set_owner(owner, index)`. -/
  | setOwner {S : Type} (owner : Owner) (index : Nat) : Call P S
  /-- `Sequence::set_permissions(permissions, index)`. -/
  | setPermissions {S : Type} (permissions : P) (index : Nat) : Call P S

namespace Call

variable {P S : Type} [Permissions P]

/-- The source method a call invokes. -/
def apply : Call P S → EStateM Error (Sequence P S) Unit
  | .append values => NonSentried.append values
  | .appendSentried values expectedIndex => Sentried.append values expectedIndex
  | .setOwner owner index => Sequence.setOwner owner index
  | .setPermissions permissions index => Sequence.setPermissions permissions index

/-- The state after a call, accepted or not. -/
def step (call : Call P S) (s : Sequence P S) : Sequence P S := after (call.apply s)

/-- The call returns `Ok(())`. -/
def Succeeds (call : Call P S) (s : Sequence P S) : Prop := ∃ s', call.apply s = .ok () s'

/-- The contract's condition: every expected index the call carries is the current length of
the corresponding history, and a non-sentried append carries none. -/
def Accepts : Call P S → Sequence P S → Prop
  | .append _, _ => True
  | .appendSentried _ expectedIndex, s => expectedIndex = s.data.length
  | .setOwner owner index, s =>
    owner.expectedDataIndex = s.data.length ∧
      owner.expectedPermissionsIndex = s.permissions.length ∧ index = s.owners.length
  | .setPermissions permissions index, s =>
    Permissions.expectedDataIndex permissions = s.data.length ∧
      Permissions.expectedOwnersIndex permissions = s.owners.length ∧
        index = s.permissions.length

/-- The contract's condition is decided by comparing lengths. -/
instance : (call : Call P S) → (s : Sequence P S) → Decidable (call.Accepts s)
  | .append _, _ => inferInstanceAs (Decidable True)
  | .appendSentried _ _, _ => inferInstanceAs (Decidable (_ = _))
  | .setOwner _ _, _ => inferInstanceAs (Decidable (_ ∧ _ ∧ _))
  | .setPermissions _ _, _ => inferInstanceAs (Decidable (_ ∧ _ ∧ _))

/-- The contract's effect: exactly the targeted history is followed by the supplied entries. -/
def extend : Call P S → Sequence P S → Sequence P S
  | .append values, s => { s with data := s.data ++ values }
  | .appendSentried values _, s => { s with data := s.data ++ values }
  | .setOwner owner _, s => { s with owners := s.owners ++ [owner] }
  | .setPermissions permissions _, s => { s with permissions := s.permissions ++ [permissions] }

/-- An accepted call succeeds with the contract's effect. -/
theorem apply_accepted {call : Call P S} {s : Sequence P S} (accepted : call.Accepts s) :
    call.apply s = .ok () (call.extend s) := by
  cases call with
  | append => rfl
  | appendSentried => exact if_neg (not_not_intro accepted)
  | setOwner | setPermissions => apply Sequence.setEntry_accepted; exact accepted

/-- A rejected call fails and leaves the state as it was. -/
theorem apply_rejected {call : Call P S} {s : Sequence P S} (rejected : ¬ call.Accepts s) :
    ∃ e, call.apply s = .error e s := by
  cases call with
  | append => exact absurd trivial rejected
  | appendSentried => exact ⟨_, if_pos rejected⟩
  | setOwner | setPermissions => apply Sequence.setEntry_rejected; exact rejected

/-- A call steps to its contract's effect when accepted and stays put otherwise. -/
theorem step_eq (call : Call P S) (s : Sequence P S) :
    call.step s = if call.Accepts s then call.extend s else s := by
  split
  · next accepted => rw [step, apply_accepted accepted]; rfl
  · next rejected => obtain ⟨_, rejected⟩ := apply_rejected rejected; rw [step, rejected]; rfl

/-- A call succeeds exactly when its contract accepts it. -/
theorem succeeds_iff {call : Call P S} {s : Sequence P S} : call.Succeeds s ↔ call.Accepts s := by
  refine ⟨fun ⟨_, succeeded⟩ => ?_, fun accepted => ⟨_, apply_accepted accepted⟩⟩
  by_contra rejected
  obtain ⟨_, failed⟩ := apply_rejected rejected
  rw [failed] at succeeded
  cases succeeded

omit [Permissions P] in
/-- The contract's effect keeps the address. -/
@[simp]
theorem extend_address (call : Call P S) (s : Sequence P S) :
    (call.extend s).address = s.address := by
  cases call <;> rfl

omit [Permissions P] in
/-- The contract's effect keeps the flavour. -/
@[simp]
theorem extend_flavour (call : Call P S) (s : Sequence P S) :
    (call.extend s).flavour = s.flavour := by
  cases call <;> rfl

end Call

namespace Sequence

variable {P S : Type} [Permissions P]

/-- The state after every call of a run, in order. -/
def run (s : Sequence P S) : List (Call P S) → Sequence P S
  | [] => s
  | call :: calls => run (call.step s) calls

/-- Every state a run passes through, the first and the last included. -/
def trace (s : Sequence P S) : List (Call P S) → List (Sequence P S)
  | [] => [s]
  | call :: calls => s :: trace (call.step s) calls

/-- The empty run leaves the state as it is. -/
@[simp]
theorem run_nil (s : Sequence P S) : s.run [] = s := rfl

/-- A run starts with its first call. -/
@[simp]
theorem run_cons (s : Sequence P S) (call : Call P S) (calls : List (Call P S)) :
    s.run (call :: calls) = (call.step s).run calls := rfl

/-- Two runs in a row are one run. -/
theorem run_append (s : Sequence P S) (first second : List (Call P S)) :
    s.run (first ++ second) = (s.run first).run second := by
  induction first generalizing s with
  | nil => rfl
  | cons call calls ih => exact ih _

/-- What a later state keeps of an earlier one: the address and flavour, the values as a prefix,
and the histories as prefixes whose added entries record at least the earlier data length. -/
structure Extends (earlier later : Sequence P S) : Prop where
  /-- The address is unchanged. -/
  address : later.address = earlier.address
  /-- The flavour is unchanged. -/
  flavour : later.flavour = earlier.flavour
  /-- The values only grow. -/
  data : earlier.data <+: later.data
  /-- Owners only follow, each set against at least the earlier data length. -/
  owners : ∃ added, later.owners = earlier.owners ++ added ∧
    ∀ owner ∈ added, earlier.data.length ≤ owner.expectedDataIndex
  /-- Snapshots only follow, each set against at least the earlier data length. -/
  permissions : ∃ added, later.permissions = earlier.permissions ++ added ∧
    ∀ snapshot ∈ added, earlier.data.length ≤ Permissions.expectedDataIndex snapshot

/-- Every state extends itself. -/
theorem Extends.refl (s : Sequence P S) : Extends s s :=
  ⟨rfl, rfl, List.prefix_refl _, ⟨[], by simp, by simp⟩, ⟨[], by simp, by simp⟩⟩

/-- Extension composes. -/
theorem Extends.trans {first second third : Sequence P S} (early : Extends first second)
    (late : Extends second third) : Extends first third := by
  have grown := early.data.length_le
  obtain ⟨owners, ownersEq, ownersLate⟩ := early.owners
  obtain ⟨owners', ownersEq', ownersLate'⟩ := late.owners
  obtain ⟨snapshots, snapshotsEq, snapshotsLate⟩ := early.permissions
  obtain ⟨snapshots', snapshotsEq', snapshotsLate'⟩ := late.permissions
  refine ⟨late.address.trans early.address, late.flavour.trans early.flavour,
    early.data.trans late.data,
    ⟨owners ++ owners', by rw [ownersEq', ownersEq, List.append_assoc],
      List.forall_mem_append.2
        ⟨ownersLate, fun owner added => grown.trans (ownersLate' owner added)⟩⟩,
    ⟨snapshots ++ snapshots', by rw [snapshotsEq', snapshotsEq, List.append_assoc],
      List.forall_mem_append.2
        ⟨snapshotsLate, fun snapshot added => grown.trans (snapshotsLate' snapshot added)⟩⟩⟩

/-- Lengths only grow from an earlier state to a later one. -/
theorem Extends.lengths {earlier later : Sequence P S} (grown : Extends earlier later) :
    earlier.data.length ≤ later.data.length ∧ earlier.owners.length ≤ later.owners.length ∧
      earlier.permissions.length ≤ later.permissions.length := by
  obtain ⟨_, owners, -⟩ := grown.owners
  obtain ⟨_, permissions, -⟩ := grown.permissions
  simp only [owners, permissions, List.length_append]
  exact ⟨grown.data.length_le, by omega, by omega⟩

/-- One call extends the state it is applied to. -/
theorem extends_step (call : Call P S) (s : Sequence P S) : Extends s (call.step s) := by
  rw [Call.step_eq]
  split
  · next accepted =>
    cases call with
    | append values | appendSentried values _ =>
      exact ⟨rfl, rfl, List.prefix_append _ _, ⟨[], by simp [Call.extend], by simp⟩,
        ⟨[], by simp [Call.extend], by simp⟩⟩
    | setOwner owner _ =>
      exact ⟨rfl, rfl, List.prefix_refl _, ⟨[owner], rfl, by simp [accepted.1]⟩,
        ⟨[], by simp [Call.extend], by simp⟩⟩
    | setPermissions snapshot _ =>
      exact ⟨rfl, rfl, List.prefix_refl _, ⟨[], by simp [Call.extend], by simp⟩,
        ⟨[snapshot], rfl, by simp [accepted.1]⟩⟩
  · exact Extends.refl s

/-- A run extends the state it starts from. -/
theorem extends_run (s : Sequence P S) (calls : List (Call P S)) : Extends s (s.run calls) := by
  induction calls generalizing s with
  | nil => exact Extends.refl s
  | cons call calls ih => exact (extends_step call s).trans (ih _)

/-- A later state whose three lengths are the earlier ones is the earlier state's histories. -/
theorem Extends.eq_of_length {earlier later : Sequence P S} (grown : Extends earlier later)
    (data : later.data.length = earlier.data.length)
    (owners : later.owners.length = earlier.owners.length)
    (permissions : later.permissions.length = earlier.permissions.length) :
    later.data = earlier.data ∧ later.owners = earlier.owners ∧
      later.permissions = earlier.permissions := by
  obtain ⟨added, ownersEq, -⟩ := grown.owners
  obtain ⟨added', snapshotsEq, -⟩ := grown.permissions
  refine ⟨(grown.data.eq_of_length data.symm).symm, ?_, ?_⟩
  · rw [ownersEq] at owners ⊢; simpa using owners
  · rw [snapshotsEq] at permissions ⊢; simpa using permissions

/-- A later state's histories have the earlier ones as prefixes. -/
theorem Extends.prefixes {earlier later : Sequence P S} (grown : Extends earlier later) :
    earlier.data <+: later.data ∧ earlier.owners <+: later.owners ∧
      earlier.permissions <+: later.permissions := by
  obtain ⟨_, owners, -⟩ := grown.owners
  obtain ⟨_, permissions, -⟩ := grown.permissions
  exact ⟨grown.data, owners ▸ List.prefix_append _ _, permissions ▸ List.prefix_append _ _⟩

/-- Every state a run passes through extends the state it started from. -/
theorem extends_of_mem_trace {s t : Sequence P S} {calls : List (Call P S)}
    (mem : t ∈ s.trace calls) : Extends s t := by
  induction calls generalizing s with
  | nil => rw [List.mem_singleton.1 mem]; exact Extends.refl s
  | cons call calls ih =>
    rcases List.mem_cons.1 mem with rfl | later
    · exact Extends.refl t
    · exact (extends_step call s).trans (ih later)

/-- A call changes either the values or the histories, never both. -/
theorem step_data_or_histories (call : Call P S) (s : Sequence P S) :
    (call.step s).data = s.data ∨
      ((call.step s).owners = s.owners ∧ (call.step s).permissions = s.permissions) := by
  rw [Call.step_eq]
  split
  · cases call <;> simp [Call.extend]
  · exact .inl rfl

/-- A run through a call accepted on the way extends that call's effect. -/
theorem extends_after_accepted {call : Call P S} {s : Sequence P S} {first : List (Call P S)}
    (accepted : call.Accepts (s.run first)) (second : List (Call P S)) :
    Extends (call.extend (s.run first)) (s.run (first ++ call :: second)) := by
  rw [run_append, run_cons, Call.step_eq, if_pos accepted]
  exact extends_run _ second

/-- Every call succeeds exactly when each expected index it carries is the current length of
its history; success extends exactly the targeted history, failure leaves the whole state as it
was; hence along a run every history of an earlier state is a prefix of the later one. -/
theorem call_contract (call : Call P S) (s : Sequence P S) :
    (call.Succeeds s ↔ call.Accepts s) ∧
      (∀ s', call.apply s = .ok () s' → s' = call.extend s) ∧
      (∀ e s', call.apply s = .error e s' → s' = s) ∧
      ∀ calls, s.data <+: (s.run calls).data ∧ s.owners <+: (s.run calls).owners ∧
        s.permissions <+: (s.run calls).permissions := by
  refine ⟨Call.succeeds_iff, fun s' succeeded => ?_, fun e s' failed => ?_, fun calls => ?_⟩
  · have accepted := Call.succeeds_iff.1 ⟨_, succeeded⟩
    rw [Call.apply_accepted accepted] at succeeded
    cases succeeded
    rfl
  · by_cases accepted : call.Accepts s
    · rw [Call.apply_accepted accepted] at failed
      cases failed
    · obtain ⟨_, rejected⟩ := Call.apply_rejected accepted
      rw [rejected] at failed
      cases failed
      rfl
  · exact (extends_run s calls).prefixes

/-- Calls computed from an observed state succeed later only on that state's histories: an
owner or permission change carrying the observed lengths succeeds only while nothing has been
added, a sentried append carrying the observed data length succeeds only on the observed data;
so no two successful owner (or permission) changes of a run carry one index, and two sentried
appends from one observed length both succeed only if the first appended nothing. -/
theorem stale_calls_rejected :
    (∀ (s : Sequence P S) calls (owner : Owner),
      owner.expectedDataIndex = s.data.length →
      owner.expectedPermissionsIndex = s.permissions.length →
      (Call.setOwner owner s.owners.length).Succeeds (s.run calls) →
        (s.run calls).data = s.data ∧ (s.run calls).owners = s.owners ∧
          (s.run calls).permissions = s.permissions) ∧
    (∀ (s : Sequence P S) calls (snapshot : P),
      Permissions.expectedDataIndex snapshot = s.data.length →
      Permissions.expectedOwnersIndex snapshot = s.owners.length →
      (Call.setPermissions snapshot s.permissions.length).Succeeds (s.run calls) →
        (s.run calls).data = s.data ∧ (s.run calls).owners = s.owners ∧
          (s.run calls).permissions = s.permissions) ∧
    (∀ (s : Sequence P Sentried) calls values,
      (Call.appendSentried values s.data.length).Succeeds (s.run calls) →
        (s.run calls).data = s.data ∧
          ((Call.appendSentried values s.data.length).step (s.run calls)).data = s.data ++ values) ∧
    (∀ (s : Sequence P S) first second (owner owner' : Owner) index,
      (Call.setOwner owner index).Succeeds (s.run first) →
        ¬ (Call.setOwner owner' index).Succeeds
          (s.run (first ++ Call.setOwner owner index :: second))) ∧
    (∀ (s : Sequence P S) first second (snapshot snapshot' : P) index,
      (Call.setPermissions snapshot index).Succeeds (s.run first) →
        ¬ (Call.setPermissions snapshot' index).Succeeds
          (s.run (first ++ Call.setPermissions snapshot index :: second))) ∧
    (∀ (s : Sequence P Sentried) first second values values' expectedIndex,
      (Call.appendSentried values expectedIndex).Succeeds (s.run first) →
      (Call.appendSentried values' expectedIndex).Succeeds
          (s.run (first ++ Call.appendSentried values expectedIndex :: second)) →
        values = []) := by
  simp only [Call.succeeds_iff]
  refine ⟨?_, ?_, ?_, ?_, ?_, ?_⟩
  · rintro s calls owner data permissions ⟨data', permissions', owners'⟩
    exact (extends_run s calls).eq_of_length (by omega) (by omega) (by omega)
  · rintro s calls snapshot data owners ⟨data', owners', permissions'⟩
    exact (extends_run s calls).eq_of_length (by omega) (by omega) (by omega)
  · rintro s calls values accepted
    have same := ((extends_run s calls).data.eq_of_length accepted).symm
    rw [Call.step_eq, if_pos accepted]
    exact ⟨same, congrArg (· ++ values) same⟩
  · rintro s first second owner owner' index accepted ⟨-, -, stale⟩
    have grown := (extends_after_accepted accepted second).lengths.2.1
    simp only [Call.extend, List.length_append, List.length_singleton] at grown
    have fresh := accepted.2.2
    omega
  · rintro s first second snapshot snapshot' index accepted ⟨-, -, stale⟩
    have grown := (extends_after_accepted accepted second).lengths.2.2
    simp only [Call.extend, List.length_append, List.length_singleton] at grown
    have fresh := accepted.2.2
    omega
  · rintro s first second values values' expectedIndex accepted (stale : expectedIndex = _)
    have grown := (extends_after_accepted accepted second).lengths.1
    simp only [Call.extend, List.length_append] at grown
    have fresh : expectedIndex = (s.run first).data.length := accepted
    exact List.length_eq_zero.1 (by omega)

/-- On a new public sentried sequence: an owner change and a permission change carrying the
lengths of the new sequence succeed after a rejected append and find the sequence as it was; an
append carrying data length 0 succeeds after an owner change and appends to the untouched values;
an owner change and a permission change accepted at index 0 make another at index 0 fail; and
two appends carrying data length 0 both succeed when the first appends nothing. -/
theorem stale_calls_on_new_sequence :
    let s := PublicSentriedSequence.new zeroName 0
    let owner : Owner := ⟨zeroKey, 0, 0⟩
    let snapshot : PublicPermissions := ⟨[], 0, 0⟩
    let rejected : List (Call PublicPermissions Sentried) := [.appendSentried [[1]] 1]
    ((Call.setOwner owner 0).Succeeds (s.run rejected) ∧
        (s.run rejected).data = s.data ∧ (s.run rejected).owners = s.owners ∧
          (s.run rejected).permissions = s.permissions) ∧
      ((Call.setPermissions snapshot 0).Succeeds (s.run rejected) ∧
        (s.run rejected).data = s.data ∧ (s.run rejected).owners = s.owners ∧
          (s.run rejected).permissions = s.permissions) ∧
      ((Call.appendSentried [[1]] 0).Succeeds (s.run [.setOwner owner 0]) ∧
        (s.run [.setOwner owner 0]).data = s.data ∧
          ((Call.appendSentried [[1]] 0).step (s.run [.setOwner owner 0])).data =
            s.data ++ [[1]]) ∧
      ((Call.setOwner owner 0).Succeeds s ∧
        ¬ (Call.setOwner owner 0).Succeeds (s.run [.setOwner owner 0])) ∧
      ((Call.setPermissions snapshot 0).Succeeds s ∧
        ¬ (Call.setPermissions snapshot 0).Succeeds (s.run [.setPermissions snapshot 0])) ∧
      ((Call.appendSentried [] 0).Succeeds s ∧
        (Call.appendSentried [[1]] 0).Succeeds (s.run [.appendSentried [] 0])) := by
  intro s owner snapshot rejected
  have stale := stale_calls_rejected (P := PublicPermissions) (S := Sentried)
  exact ⟨⟨⟨_, rfl⟩, stale.1 s rejected owner rfl rfl ⟨_, rfl⟩⟩,
    ⟨⟨_, rfl⟩, stale.2.1 s rejected snapshot rfl rfl ⟨_, rfl⟩⟩,
    ⟨⟨_, rfl⟩, stale.2.2.1 s [.setOwner owner 0] [[1]] ⟨_, rfl⟩⟩,
    ⟨⟨_, rfl⟩, stale.2.2.2.1 s [] [] owner owner 0 ⟨_, rfl⟩⟩,
    ⟨⟨_, rfl⟩, stale.2.2.2.2.1 s [] [] snapshot snapshot 0 ⟨_, rfl⟩⟩,
    ⟨_, rfl⟩, ⟨_, rfl⟩⟩

end Sequence

end SafeNd
