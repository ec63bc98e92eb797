import SafeNd.Sequence.Log
/-!
# The causal record of a sequence

Each owner and each permission snapshot records the lengths it was set against. `Causal` says
that these records are one consistent history: along each history they never decrease and never
exceed the current lengths, and the owner and permission histories describe one interleaving of
the two kinds of change. Every call keeps it (`Causal.step`), so every run from an empty
sequence does. From it, `shell` as of a data index keeps exactly the histories of the last state
of the run whose data was no longer than that index.
-/

namespace SafeNd

namespace Sequence

variable {P S : Type} [Permissions P]

/-- The causal record of a sequence. -/
structure Causal (s : Sequence P S) : Prop where
  /-- Along the owner history the recorded data and permission lengths never decrease. -/
  ownersSorted : s.owners.Pairwise fun earlier later =>
    earlier.expectedDataIndex ≤ later.expectedDataIndex ∧
      earlier.expectedPermissionsIndex ≤ later.expectedPermissionsIndex
  /-- No owner records more values or snapshots than there are. -/
  ownersBounded : ∀ owner ∈ s.owners,
    owner.expectedDataIndex ≤ s.data.length ∧
      owner.expectedPermissionsIndex ≤ s.permissions.length
  /-- Along the permission history the recorded data and owner lengths never decrease. -/
  permissionsSorted : s.permissions.Pairwise fun earlier later =>
    Permissions.expectedDataIndex earlier ≤ Permissions.expectedDataIndex later ∧
      Permissions.expectedOwnersIndex earlier ≤ Permissions.expectedOwnersIndex later
  /-- No snapshot records more values or owners than there are. -/
  permissionsBounded : ∀ snapshot ∈ s.permissions,
    Permissions.expectedDataIndex snapshot ≤ s.data.length ∧
      Permissions.expectedOwnersIndex snapshot ≤ s.owners.length
  /-- Owner `i` came after snapshot `j` exactly when `j` is below the snapshot count owner `i`
  recorded, exactly when snapshot `j` recorded at most `i` owners; and the earlier of the two
  recorded no larger data length than the later. -/
  interleaved : ∀ i j (owner : i < s.owners.length) (snapshot : j < s.permissions.length),
    (j < s.owners[i].expectedPermissionsIndex ↔
      Permissions.expectedOwnersIndex s.permissions[j] ≤ i) ∧
    (j < s.owners[i].expectedPermissionsIndex →
      Permissions.expectedDataIndex s.permissions[j] ≤ s.owners[i].expectedDataIndex) ∧
    (s.owners[i].expectedPermissionsIndex ≤ j →
      s.owners[i].expectedDataIndex ≤ Permissions.expectedDataIndex s.permissions[j])

/-- An empty sequence has a causal record. -/
theorem causal_empty (address : Address) (flavour : S) :
    Causal (Sequence.empty address flavour : Sequence P S) :=
  ⟨.nil, nofun, .nil, nofun, fun _ _ owner => absurd owner (Nat.not_lt_zero _)⟩

/-- An entry of a history extended by one is an old entry or the new one. -/
theorem getElem_append_singleton {α : Type} {history : List α} {entry : α} {i : Nat}
    (inside : i < (history ++ [entry]).length) :
    (∃ old : i < history.length, (history ++ [entry])[i] = history[i]) ∨
      (i = history.length ∧ (history ++ [entry])[i] = entry) := by
  rcases Nat.lt_or_ge i history.length with old | new
  · exact .inl ⟨old, List.getElem_append_left old⟩
  · have last : i = history.length := by simp at inside; omega
    exact .inr ⟨last, List.getElem_concat_length _ _ _ last inside⟩

/-- An accepted append keeps the causal record: the histories stay, and the bounds only
loosen. -/
theorem Causal.extend_data {s : Sequence P S} (causal : Causal s) (values : List Value) :
    Causal { s with data := s.data ++ values } := by
  have longer : s.data.length ≤ (s.data ++ values).length := by simp
  refine ⟨causal.ownersSorted, fun owner mem => ?_, causal.permissionsSorted,
    fun snapshot mem => ?_, causal.interleaved⟩
  · exact ⟨(causal.ownersBounded owner mem).1.trans longer, (causal.ownersBounded owner mem).2⟩
  · exact ⟨(causal.permissionsBounded snapshot mem).1.trans longer,
      (causal.permissionsBounded snapshot mem).2⟩

/-- An accepted owner change keeps the causal record: the new owner records the current lengths,
so it comes after every snapshot there is. -/
theorem Causal.extend_owner {s : Sequence P S} (causal : Causal s) {owner : Owner}
    (data : owner.expectedDataIndex = s.data.length)
    (permissions : owner.expectedPermissionsIndex = s.permissions.length) :
    Causal { s with owners := s.owners ++ [owner] } := by
  refine ⟨List.pairwise_append.2 ⟨causal.ownersSorted, List.pairwise_singleton _ _,
      fun earlier mem => List.forall_mem_singleton.2 (data ▸ permissions ▸
        causal.ownersBounded earlier mem)⟩,
    List.forall_mem_append.2 ⟨causal.ownersBounded,
      List.forall_mem_singleton.2 ⟨data.le, permissions.le⟩⟩,
    causal.permissionsSorted, fun snapshot mem => ?_, ?_⟩
  · have bound := causal.permissionsBounded snapshot mem
    exact ⟨bound.1, bound.2.trans (by simp)⟩
  · intro i j inside snapshot
    dsimp only at inside snapshot ⊢
    have bound := causal.permissionsBounded _ (List.getElem_mem snapshot)
    rcases getElem_append_singleton inside with ⟨old, entry⟩ | ⟨rfl, entry⟩
    · simp only [entry]
      exact causal.interleaved i j old snapshot
    · simp only [entry, data, permissions]
      exact ⟨⟨fun _ => bound.2, fun _ => snapshot⟩, fun _ => bound.1, fun later => by omega⟩

/-- An accepted permission change keeps the causal record: the new snapshot records the current
lengths, so it comes after every owner there is. -/
theorem Causal.extend_permissions {s : Sequence P S} (causal : Causal s) {snapshot : P}
    (data : Permissions.expectedDataIndex snapshot = s.data.length)
    (owners : Permissions.expectedOwnersIndex snapshot = s.owners.length) :
    Causal { s with permissions := s.permissions ++ [snapshot] } := by
  refine ⟨causal.ownersSorted, fun owner mem => ?_,
    List.pairwise_append.2 ⟨causal.permissionsSorted, List.pairwise_singleton _ _,
      fun earlier mem => List.forall_mem_singleton.2 (data ▸ owners ▸
        causal.permissionsBounded earlier mem)⟩,
    List.forall_mem_append.2 ⟨causal.permissionsBounded,
      List.forall_mem_singleton.2 ⟨data.le, owners.le⟩⟩, ?_⟩
  · have bound := causal.ownersBounded owner mem
    exact ⟨bound.1, bound.2.trans (by simp)⟩
  · intro i j owner inside
    dsimp only at owner inside ⊢
    have bound := causal.ownersBounded _ (List.getElem_mem owner)
    rcases getElem_append_singleton inside with ⟨old, entry⟩ | ⟨rfl, entry⟩
    · simp only [entry]
      exact causal.interleaved i j owner old
    · simp only [entry, data, owners]
      exact ⟨⟨fun earlier => by omega, fun later => by omega⟩, fun earlier => by omega,
        fun _ => bound.1⟩

/-- An event recording the current lengths keeps the causal record. -/
theorem Causal.extend_event {s : Sequence P S} (causal : Causal s) {event : Event P}
    (fits : event.Fits s.data.length s.owners.length s.permissions.length) :
    Causal (event.extend s) := by
  cases event with
  | values added => exact causal.extend_data added
  | owner entry => exact causal.extend_owner fits.1 fits.2
  | permissions snapshot => exact causal.extend_permissions fits.1 fits.2

/-- Every call keeps the causal record, accepted or not. -/
theorem Causal.step {s : Sequence P S} (causal : Causal s) (call : Call P S) :
    Causal (call.step s) := by
  rw [Call.step_eq]
  split
  · next accepted =>
    rw [Call.extend_eq_event]
    exact causal.extend_event (Call.fits_of_accepts accepted)
  · exact causal

/-- A run from a state with a causal record keeps it. -/
theorem Causal.run {s : Sequence P S} (causal : Causal s) (calls : List (Call P S)) :
    Causal (s.run calls) := by
  induction calls generalizing s with
  | nil => exact causal
  | cons call calls ih => exact ih (causal.step call)

/-- Every state reachable from an empty sequence, which each `new` is, by any run of appends,
owner changes and permission changes, failed calls included, has a causal record. -/
theorem causal_of_run (address : Address) (flavour : S) (calls : List (Call P S)) :
    Causal ((Sequence.empty address flavour : Sequence P S).run calls) :=
  (causal_empty address flavour).run calls

/-- Cut at a data length `k` the state does not exceed, the owner history keeps every entry. -/
theorem Causal.filter_owners {s : Sequence P S} (causal : Causal s) {k : Nat}
    (fits : s.data.length ≤ k) : s.owners.filter (·.expectedDataIndex ≤ k) = s.owners :=
  List.filter_eq_self.2 fun owner mem =>
    decide_eq_true ((causal.ownersBounded owner mem).1.trans fits)

/-- Cut at a data length `k` the state does not exceed, the permission history keeps every
entry. -/
theorem Causal.filter_permissions {s : Sequence P S} (causal : Causal s) {k : Nat}
    (fits : s.data.length ≤ k) :
    s.permissions.filter (Permissions.expectedDataIndex · ≤ k) = s.permissions :=
  List.filter_eq_self.2 fun snapshot mem =>
    decide_eq_true ((causal.permissionsBounded snapshot mem).1.trans fits)

/-- Once a state has more than `k` values, no later owner is set against at most `k`. -/
theorem Extends.filter_owners {earlier later : Sequence P S} (grown : Extends earlier later)
    {k : Nat} (beyond : k < earlier.data.length) :
    later.owners.filter (·.expectedDataIndex ≤ k) =
      earlier.owners.filter (·.expectedDataIndex ≤ k) := by
  obtain ⟨added, split, late⟩ := grown.owners
  have none : added.filter (·.expectedDataIndex ≤ k) = [] :=
    List.filter_eq_nil_iff.2 fun owner mem => by
      have := late owner mem; simp only [decide_eq_true_eq]; omega
  rw [split, List.filter_append, none, List.append_nil]

/-- Once a state has more than `k` values, no later snapshot is set against at most `k`. -/
theorem Extends.filter_permissions {earlier later : Sequence P S} (grown : Extends earlier later)
    {k : Nat} (beyond : k < earlier.data.length) :
    later.permissions.filter (Permissions.expectedDataIndex · ≤ k) =
      earlier.permissions.filter (Permissions.expectedDataIndex · ≤ k) := by
  obtain ⟨added, split, late⟩ := grown.permissions
  have none : added.filter (Permissions.expectedDataIndex · ≤ k) = [] :=
    List.filter_eq_nil_iff.2 fun snapshot mem => by
      have := late snapshot mem; simp only [decide_eq_true_eq]; omega
  rw [split, List.filter_append, none, List.append_nil]

/-- Along a run from a state with a causal record and no more than `k` values, the final
histories' entries set against at most `k` values are exactly the histories of the last state
of the run with no more than `k` values, a state that the final one extends. -/
theorem Causal.filter_run {u : Sequence P S} (causal : Causal u) (calls : List (Call P S))
    {k : Nat} (fits : u.data.length ≤ k) :
    ∃ t, ((u.trace calls).filter (·.data.length ≤ k)).getLast? = some t ∧
      (u.run calls).owners.filter (·.expectedDataIndex ≤ k) = t.owners ∧
      (u.run calls).permissions.filter (Permissions.expectedDataIndex · ≤ k) = t.permissions ∧
      Extends t (u.run calls) ∧ Causal t := by
  induction calls generalizing u with
  | nil =>
    exact ⟨u, by simp [trace, fits], causal.filter_owners fits, causal.filter_permissions fits,
      Extends.refl u, causal⟩
  | cons call calls ih =>
    by_cases within : (call.step u).data.length ≤ k
    · obtain ⟨t, last, owners, permissions, grown, causal'⟩ := ih (causal.step call) within
      refine ⟨t, ?_, owners, permissions, grown, causal'⟩
      rw [trace, List.filter_cons, if_pos (decide_eq_true fits), List.getLast?_cons, last]
      rfl
    · have beyond : k < (call.step u).data.length := Nat.lt_of_not_le within
      have kept := (step_data_or_histories call u).resolve_left fun same => within (same ▸ fits)
      have grown := extends_run (call.step u) calls
      have none : ((call.step u).trace calls).filter (·.data.length ≤ k) = [] :=
        List.filter_eq_nil_iff.2 fun t mem => by
          have := (extends_of_mem_trace mem).data.length_le
          simp only [decide_eq_true_eq]
          omega
      refine ⟨u, ?_, ?_, ?_, extends_run u (call :: calls), causal⟩
      · rw [trace, List.filter_cons, if_pos (decide_eq_true fits), none]
        rfl
      · rw [run_cons, grown.filter_owners beyond, kept.1, causal.filter_owners fits]
      · rw [run_cons, grown.filter_permissions beyond, kept.2, causal.filter_permissions fits]

/-- `shell` of a state reached from an empty sequence fails exactly when the index does not
resolve against the data length; otherwise, with `k` the resolved index, it keeps the address
and flavour, empties the values, and keeps exactly the histories of the last state of the run
with no more than `k` values: prefixes of the current histories with a causal record. -/
theorem shell_as_of (address : Address) (flavour : S) (calls : List (Call P S)) (index : Index) :
    let start : Sequence P S := .empty address flavour
    let s := start.run calls
    (s.shell index = .error .noSuchEntry ↔ toAbsoluteIndex index s.data.length = none) ∧
    ∀ k, toAbsoluteIndex index s.data.length = some k →
      ∃ t, ((start.trace calls).filter (·.data.length ≤ k)).getLast? = some t ∧
        s.shell index =
          .ok { s with data := [], permissions := t.permissions, owners := t.owners } ∧
        t.owners <+: s.owners ∧ t.permissions <+: s.permissions ∧ Causal t := by
  intro start s
  constructor
  · unfold shell expectedDataIndex
    split <;> simp_all
  · intro k resolved
    obtain ⟨t, last, owners, permissions, grown, causal⟩ :=
      (causal_empty address flavour).filter_run calls (Nat.zero_le k)
    refine ⟨t, last, ?_, grown.prefixes.2.1, grown.prefixes.2.2, causal⟩
    simp only [shell, expectedDataIndex, resolved, owners, permissions]

end Sequence

end SafeNd
