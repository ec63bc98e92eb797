import SafeNd.Sequence.Log
/-!
# Reads along runs

What a client reads of a sequence, set against the calls that change it. A read by position
from the start that answers keeps its answer in every state a run reaches
(`absolute_reads_stable`), so nothing a call returned `Ok(())` for is lost: the values stay at
the positions the data length gave them, an owner and a snapshot at the index they carried
(`accepted_changes_kept`). The three range accessors compose and agree with the point reads
(`range_windows_compose`). A permission answer reads only the latest owner and the latest
snapshot, so an append never changes one, an owner change only the previous and the new
owner's, and a permission change never the owner's (`permission_answers_frame`).
-/

namespace SafeNd

namespace Sequence

section Windows

variable {P S : Type}

/-! ## Windows and point reads -/

/-- The range accessors compose and agree with the point reads: adjacent windows concatenate,
the window from `FromStart(0)` to `FromEnd(0)` is the whole history, and a one-element window
from the start is the point read at its position. -/
theorem range_windows_compose (s : Sequence P S) :
    (∀ start middle stop first second, s.inRange start middle = .ok (some first) →
      s.inRange middle stop = .ok (some second) →
        s.inRange start stop = .ok (some (first ++ second))) ∧
      (∀ start middle stop first second, s.ownerHistoryRange start middle = .ok (some first) →
        s.ownerHistoryRange middle stop = .ok (some second) →
          s.ownerHistoryRange start stop = .ok (some (first ++ second))) ∧
      (∀ start middle stop first second,
        s.permissionHistoryRange start middle = .ok (some first) →
          s.permissionHistoryRange middle stop = .ok (some second) →
            s.permissionHistoryRange start stop = .ok (some (first ++ second))) ∧
      s.inRange (.fromStart 0) (.fromEnd 0) = .ok (some s.data) ∧
      s.ownerHistoryRange (.fromStart 0) (.fromEnd 0) = .ok (some s.owners) ∧
      s.permissionHistoryRange (.fromStart 0) (.fromEnd 0) = .ok (some s.permissions) ∧
      (∀ i value, s.get i = some value ↔
        s.inRange (.fromStart i) (.fromStart (i + 1)) = .ok (some [value])) ∧
      (∀ i owner, s.ownerAt (.fromStart i) = some owner ↔
        s.ownerHistoryRange (.fromStart i) (.fromStart (i + 1)) = .ok (some [owner])) ∧
      ∀ i snapshot, s.permissionsAt (.fromStart i) = some snapshot ↔
        s.permissionHistoryRange (.fromStart i) (.fromStart (i + 1)) = .ok (some [snapshot]) :=
  ⟨fun _ _ _ _ _ => historyRange_append, fun _ _ _ _ _ => historyRange_append,
    fun _ _ _ _ _ => historyRange_append, historyRange_whole _, historyRange_whole _,
    historyRange_whole _, fun _ _ => historyRange_single.symm,
    fun _ _ => (ownerAt_fromStart ..).symm ▸ historyRange_single.symm,
    fun _ _ => (permissionsAt_fromStart ..).symm ▸ historyRange_single.symm⟩

end Windows

variable {P S : Type} [Permissions P]

/-! ## Reads by position from the start -/

/-- A lookup in a prefix answers the same in the whole list. -/
theorem getElem?_of_prefix {α : Type} {history history' : List α} (grown : history <+: history')
    {i : Nat} {x : α} (read : history[i]? = some x) : history'[i]? = some x := by
  obtain ⟨rest, rfl⟩ := grown
  rwa [List.getElem?_append_left (List.getElem?_eq_some_iff.1 read).1]

/-- A value read by `get` stays at its position. -/
theorem Extends.keeps_get {earlier later : Sequence P S} (grown : Extends earlier later)
    {i : Nat} {value : Value} (read : earlier.get i = some value) : later.get i = some value :=
  getElem?_of_prefix grown.data read

/-- An owner read from the start stays at its position. -/
theorem Extends.keeps_ownerAt {earlier later : Sequence P S} (grown : Extends earlier later)
    {i : Nat} {owner : Owner} (read : earlier.ownerAt (.fromStart i) = some owner) :
    later.ownerAt (.fromStart i) = some owner := by
  rw [ownerAt_fromStart] at read ⊢
  exact getElem?_of_prefix grown.prefixes.2.1 read

/-- A snapshot read from the start stays at its position. -/
theorem Extends.keeps_permissionsAt {earlier later : Sequence P S} (grown : Extends earlier later)
    {i : Nat} {snapshot : P} (read : earlier.permissionsAt (.fromStart i) = some snapshot) :
    later.permissionsAt (.fromStart i) = some snapshot := by
  rw [permissionsAt_fromStart] at read ⊢
  exact getElem?_of_prefix grown.prefixes.2.2 read

/-- A window of values read from the start stays as it was read. -/
theorem Extends.keeps_inRange {earlier later : Sequence P S} (grown : Extends earlier later)
    {a b : Nat} {values : List Value}
    (read : earlier.inRange (.fromStart a) (.fromStart b) = .ok (some values)) :
    later.inRange (.fromStart a) (.fromStart b) = .ok (some values) :=
  historyRange_of_prefix grown.data read

/-- A window of owners read from the start stays as it was read. -/
theorem Extends.keeps_ownerHistoryRange {earlier later : Sequence P S}
    (grown : Extends earlier later) {a b : Nat} {owners : List Owner}
    (read : earlier.ownerHistoryRange (.fromStart a) (.fromStart b) = .ok (some owners)) :
    later.ownerHistoryRange (.fromStart a) (.fromStart b) = .ok (some owners) :=
  historyRange_of_prefix grown.prefixes.2.1 read

/-- A window of snapshots read from the start stays as it was read. -/
theorem Extends.keeps_permissionHistoryRange {earlier later : Sequence P S}
    (grown : Extends earlier later) {a b : Nat} {snapshots : List P}
    (read : earlier.permissionHistoryRange (.fromStart a) (.fromStart b) = .ok (some snapshots)) :
    later.permissionHistoryRange (.fromStart a) (.fromStart b) = .ok (some snapshots) :=
  historyRange_of_prefix grown.prefixes.2.2 read

/-- Reads by position from the start that found an entry keep it: an entry a state answers to
`get`, to `owner_at` or `permissions_at` from the start, and the entries it answers to a range
accessor between two positions from the start, every state a run reaches from it answers too. -/
theorem absolute_reads_stable (s : Sequence P S) (calls : List (Call P S)) :
    let later := s.run calls
    (∀ i value, s.get i = some value → later.get i = some value) ∧
      (∀ i owner, s.ownerAt (.fromStart i) = some owner →
        later.ownerAt (.fromStart i) = some owner) ∧
      (∀ i snapshot, s.permissionsAt (.fromStart i) = some snapshot →
        later.permissionsAt (.fromStart i) = some snapshot) ∧
      (∀ a b values, s.inRange (.fromStart a) (.fromStart b) = .ok (some values) →
        later.inRange (.fromStart a) (.fromStart b) = .ok (some values)) ∧
      (∀ a b owners, s.ownerHistoryRange (.fromStart a) (.fromStart b) = .ok (some owners) →
        later.ownerHistoryRange (.fromStart a) (.fromStart b) = .ok (some owners)) ∧
      ∀ a b snapshots,
        s.permissionHistoryRange (.fromStart a) (.fromStart b) = .ok (some snapshots) →
          later.permissionHistoryRange (.fromStart a) (.fromStart b) = .ok (some snapshots) :=
  let grown := extends_run s calls
  ⟨fun _ _ => grown.keeps_get, fun _ _ => grown.keeps_ownerAt,
    fun _ _ => grown.keeps_permissionsAt, fun _ _ _ => grown.keeps_inRange,
    fun _ _ _ => grown.keeps_ownerHistoryRange, fun _ _ _ => grown.keeps_permissionHistoryRange⟩

/-- What a call returned `Ok(())` for is never lost: in every later state of the run, the
values of an accepted append are the window from the data length it was accepted at, an
accepted owner change is the owner at the index it carried, and an accepted permission change
the snapshot at its index. -/
theorem accepted_changes_kept (s : Sequence P S) (first second : List (Call P S)) :
    let t := s.run first
    (∀ call values, call.event = .values values → call.Succeeds t →
      (s.run (first ++ call :: second)).inRange (.fromStart t.data.length)
        (.fromStart (t.data.length + values.length)) = .ok (some values)) ∧
      (∀ owner index, (Call.setOwner owner index).Succeeds t →
        (s.run (first ++ .setOwner owner index :: second)).ownerAt (.fromStart index) =
          some owner) ∧
      ∀ snapshot index, (Call.setPermissions snapshot index).Succeeds t →
        (s.run (first ++ .setPermissions snapshot index :: second)).permissionsAt
          (.fromStart index) = some snapshot := by
  intro t
  simp only [Call.succeeds_iff]
  refine ⟨fun call values appended accepted => ?_, fun owner index accepted => ?_,
    fun snapshot index accepted => ?_⟩
  · refine (extends_after_accepted accepted second).keeps_inRange ?_
    rw [Call.extend_eq_event, appended]
    simp [Event.extend, inRange, historyRange_fromStart]
  · refine (extends_after_accepted accepted second).keeps_ownerAt ?_
    simp [Call.extend, accepted.2.2]
  · refine (extends_after_accepted accepted second).keeps_permissionsAt ?_
    simp [Call.extend, accepted.2.2]

/-- On a new public sentried sequence holding one value: an append carrying data length 1, an
owner change and a permission change set against that value are accepted, and after a further
append each is read back where it was accepted. -/
theorem changes_kept_after_append :
    let s := PublicSentriedSequence.new zeroName 0
    let first : List (Call PublicPermissions Sentried) := [.appendSentried [[1]] 0]
    let second : List (Call PublicPermissions Sentried) := [.appendSentried [[3]] 2]
    let owner : Owner := ⟨zeroKey, 1, 0⟩
    let snapshot : PublicPermissions := ⟨[], 1, 0⟩
    ((Call.appendSentried [[2]] 1).Succeeds (s.run first) ∧
        (s.run (first ++ .appendSentried [[2]] 1 :: second)).inRange (.fromStart 1)
          (.fromStart 2) = .ok (some [[2]])) ∧
      ((Call.setOwner owner 0).Succeeds (s.run first) ∧
        (s.run (first ++ .setOwner owner 0 :: second)).ownerAt (.fromStart 0) = some owner) ∧
      ((Call.setPermissions snapshot 0).Succeeds (s.run first) ∧
        (s.run (first ++ .setPermissions snapshot 0 :: second)).permissionsAt (.fromStart 0) =
          some snapshot) := by
  intro s first second owner snapshot
  have kept := accepted_changes_kept s first second
  exact ⟨⟨⟨_, rfl⟩, kept.1 _ [[2]] rfl ⟨_, rfl⟩⟩, ⟨⟨_, rfl⟩, kept.2.1 owner 0 ⟨_, rfl⟩⟩,
    ⟨⟨_, rfl⟩, kept.2.2 snapshot 0 ⟨_, rfl⟩⟩⟩

/-! ## Which calls change a permission answer -/

/-- A permission answer reads only the latest owner and the latest snapshot. -/
theorem isPermitted_congr {s t : Sequence P S} (owners : s.owners.getLast? = t.owners.getLast?)
    (permissions : s.permissions.getLast? = t.permissions.getLast?) (user : PublicKey)
    (request : Request) : s.isPermitted user request = t.isPermitted user request := by
  simp only [isPermitted, ownerAt_fromEnd_one, permissionsAt_fromEnd_one, owners, permissions]

/-- One call changes a user's answer only as an accepted owner change naming the user as the
previous or the new owner, or as an accepted permission change while the user is not the
owner. -/
theorem Call.isPermitted_step (call : Call P S) (s : Sequence P S) (user : PublicKey)
    (request : Request) :
    (call.step s).isPermitted user request = s.isPermitted user request ∨
      (∃ owner index, call = .setOwner owner index ∧ call.Accepts s ∧
        (owner.publicKey = user ∨
          ∃ previous, s.owners.getLast? = some previous ∧ previous.publicKey = user)) ∨
      ∃ snapshot index, call = .setPermissions snapshot index ∧ call.Accepts s ∧
        ∀ owner, s.owners.getLast? = some owner → owner.publicKey ≠ user := by
  rw [Call.step_eq]
  split
  · next accepted =>
    cases call with
    | append | appendSentried => exact .inl (isPermitted_congr rfl rfl user request)
    | setOwner owner index =>
      by_cases named : owner.publicKey = user ∨
          ∃ previous, s.owners.getLast? = some previous ∧ previous.publicKey = user
      · exact .inr (.inl ⟨owner, index, rfl, accepted, named⟩)
      · have notBefore : ¬ ∃ previous, s.owners.getLast? = some previous ∧
            previous.publicKey = user := fun found => named (.inr found)
        have notAfter : ¬ ∃ latest, ((Call.setOwner owner index).extend s).owners.getLast? =
            some latest ∧ latest.publicKey = user := by
          simp only [Call.extend, List.getLast?_concat, Option.some.injEq, exists_eq_left']
          exact fun same => named (.inl same)
        refine .inl (Bool.eq_iff_iff.2 ?_)
        rw [isPermitted_iff, isPermitted_iff, or_iff_right notBefore, or_iff_right notAfter]
        exact Iff.rfl
    | setPermissions snapshot index =>
      by_cases owned : ∃ owner, s.owners.getLast? = some owner ∧ owner.publicKey = user
      · refine .inl (Bool.eq_iff_iff.2 ?_)
        rw [isPermitted_iff, isPermitted_iff]
        exact ⟨fun _ => .inl owned, fun _ => .inl owned⟩
      · exact .inr (.inr ⟨snapshot, index, rfl, accepted, fun owner latest same =>
          owned ⟨owner, latest, same⟩⟩)
  · exact .inl rfl

/-- A call whose event sets no owner keeps the owner history. -/
theorem Call.step_owners {call : Call P S} (noOwner : ∀ owner, call.event ≠ .owner owner)
    (s : Sequence P S) : (call.step s).owners = s.owners := by
  rw [Call.step_eq]
  split
  · cases call with
    | setOwner owner => exact absurd rfl (noOwner owner)
    | _ => rfl
  · rfl

/-- A run whose calls set no owner keeps the owner history. -/
theorem run_owners {calls : List (Call P S)}
    (noOwner : ∀ call ∈ calls, ∀ owner, call.event ≠ .owner owner) (s : Sequence P S) :
    (s.run calls).owners = s.owners := by
  induction calls generalizing s with
  | nil => rfl
  | cons call calls ih =>
    rw [run_cons, ih (fun call mem => noOwner call (List.mem_cons_of_mem _ mem)),
      Call.step_owners (noOwner call (List.mem_cons_self _ _))]

/-- Who can lose or gain a permission, and through which call: one call changes a user's
answer only as an accepted owner change naming the user as the previous or the new owner, or as
an accepted permission change while the user is not the owner; so a run of appends, accepted or
not, changes no answer, and through a run without owner changes the latest owner keeps every
permission. -/
theorem permission_answers_frame :
    (∀ (s : Sequence P S) (call : Call P S) user request,
      (call.step s).isPermitted user request = s.isPermitted user request ∨
        (∃ owner index, call = .setOwner owner index ∧ call.Accepts s ∧
          (owner.publicKey = user ∨
            ∃ previous, s.owners.getLast? = some previous ∧ previous.publicKey = user)) ∨
        ∃ snapshot index, call = .setPermissions snapshot index ∧ call.Accepts s ∧
          ∀ owner, s.owners.getLast? = some owner → owner.publicKey ≠ user) ∧
      (∀ (s : Sequence P S) (calls : List (Call P S)),
        (∀ call ∈ calls, ∃ values, call.event = .values values) →
          ∀ user request, (s.run calls).isPermitted user request = s.isPermitted user request) ∧
      ∀ (s : Sequence P S) (calls : List (Call P S)) owner,
        (∀ call ∈ calls, ∀ entry, call.event ≠ .owner entry) →
          s.owners.getLast? = some owner →
            ∀ request, (s.run calls).isPermitted owner.publicKey request = true := by
  refine ⟨fun s call => Call.isPermitted_step call s, fun s calls appends user request => ?_,
    fun s calls owner noOwner latest request => ?_⟩
  · induction calls generalizing s with
    | nil => rfl
    | cons call calls ih =>
      rw [run_cons, ih _ fun call mem => appends call (List.mem_cons_of_mem _ mem)]
      obtain ⟨values, appended⟩ := appends call (List.mem_cons_self _ _)
      rcases Call.isPermitted_step call s user request with
        same | ⟨_, _, rfl, -⟩ | ⟨_, _, rfl, -⟩
      · exact same
      · cases appended
      · cases appended
  · refine (isPermitted_iff _ _ _).2 (.inl ⟨owner, ?_, rfl⟩)
    rw [run_owners noOwner s]
    exact latest

end Sequence

end SafeNd
