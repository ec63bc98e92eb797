import SafeNd.Sequence.Causal
/-!
# The states a sequence can reach

The causal record `Causal` is not only kept by every call: it is exactly what the one-log
design leaves behind. A recorded log projects to a state with a causal record
(`Log.Recorded.causal`), and every state with a causal record is the projection of a recorded
log (`Sequence.Causal.exists_recorded`), found by taking its events off one at a time from the
end: of the last owner and the last snapshot, the later one records the other history's length
and the largest data length either history records (`Sequence.Causal.latest`). A recorded log
is reached from an empty sequence by accepted calls, so the states reachable from `new` of
either appendable flavour are exactly those with a causal record.
-/

namespace SafeNd

namespace Log

variable {P S : Type} [Permissions P]

/-- A recorded log projects to a state with a causal record. -/
theorem Recorded.causal {log : List (Event P)} (recorded : Recorded log) (address : Address)
    (flavour : S) : Sequence.Causal (project address flavour log) := by
  induction recorded with
  | nil => exact Sequence.causal_empty address flavour
  | snoc _ fits causal =>
    rw [project_snoc]
    exact causal.extend_event fits

/-- A recorded log is reached from an empty sequence by a run of accepted calls, given a call
that appends values to any state. -/
theorem Recorded.reachable {log : List (Event P)} (recorded : Recorded log) (address : Address)
    (flavour : S) (appendCall : Sequence P S → List Value → Call P S)
    (appends : ∀ s added, (appendCall s added).Accepts s ∧
      (appendCall s added).event = .values added) :
    ∃ calls, (Sequence.empty address flavour).run calls = project address flavour log := by
  induction recorded with
  | nil => exact ⟨[], rfl⟩
  | @snoc log event _ fits reached =>
    obtain ⟨calls, reached⟩ := reached
    obtain ⟨call, accepted, issued⟩ : ∃ call : Call P S,
        call.Accepts (project address flavour log) ∧ call.event = event := by
      cases event with
      | values added => exact ⟨_, appends _ added⟩
      | owner entry => exact ⟨.setOwner entry (owners log).length, ⟨fits.1, fits.2, rfl⟩, rfl⟩
      | permissions snapshot =>
        exact ⟨.setPermissions snapshot (permissions log).length, ⟨fits.1, fits.2, rfl⟩, rfl⟩
    refine ⟨calls ++ [call], ?_⟩
    rw [Sequence.run_append, reached, Sequence.run_cons, Sequence.run_nil, Call.step_project,
      if_pos accepted, issued]

end Log

/-- Along a list sorted by two counts, no entry has larger counts than the last. -/
theorem le_last_of_pairwise {α : Type} {first second : α → Nat} {front : List α} {last : α}
    (sorted : (front ++ [last]).Pairwise fun a b => first a ≤ first b ∧ second a ≤ second b) :
    ∀ a ∈ front ++ [last], first a ≤ first last ∧ second a ≤ second last := by
  intro a mem
  rcases List.mem_append.1 mem with old | new
  · exact (List.pairwise_append.1 sorted).2.2 a old last (List.mem_singleton_self last)
  · rw [List.mem_singleton.1 new]
    exact ⟨le_rfl, le_rfl⟩

namespace Sequence

variable {P S : Type} [Permissions P]

/-- Every owner and every snapshot records a data length of at most `bound`. -/
def RecordsAtMost (s : Sequence P S) (bound : Nat) : Prop :=
  (∀ owner ∈ s.owners, owner.expectedDataIndex ≤ bound) ∧
    ∀ snapshot ∈ s.permissions, Permissions.expectedDataIndex snapshot ≤ bound

/-- Values that no entry records can be taken off, keeping the causal record. -/
theorem Causal.of_extend_data {s : Sequence P S} {added : List Value}
    (causal : Causal { s with data := s.data ++ added })
    (records : s.RecordsAtMost s.data.length) : Causal s :=
  ⟨causal.ownersSorted, fun owner mem => ⟨records.1 owner mem, (causal.ownersBounded owner mem).2⟩,
    causal.permissionsSorted,
    fun snapshot mem => ⟨records.2 snapshot mem, (causal.permissionsBounded snapshot mem).2⟩,
    causal.interleaved⟩

/-- When the last snapshot came after every owner, every owner came before it. -/
theorem Causal.owner_before_last_snapshot {s : Sequence P S} {snapshot : P}
    (causal : Causal { s with permissions := s.permissions ++ [snapshot] })
    (last : Permissions.expectedOwnersIndex snapshot = s.owners.length) {i : Nat}
    (inside : i < s.owners.length) :
    s.owners[i].expectedPermissionsIndex ≤ s.permissions.length := by
  have order := (causal.interleaved i s.permissions.length inside (by simp)).1
  simp only [List.getElem_concat_length, last] at order
  omega

/-- An owner that came after every snapshot can be taken off, keeping the causal record. -/
theorem Causal.of_extend_owner {s : Sequence P S} {entry : Owner}
    (causal : Causal { s with owners := s.owners ++ [entry] })
    (last : entry.expectedPermissionsIndex = s.permissions.length) : Causal s := by
  refine ⟨(List.pairwise_append.1 causal.ownersSorted).1,
    fun owner mem => causal.ownersBounded owner (List.mem_append_left _ mem),
    causal.permissionsSorted, fun snapshot mem => ⟨(causal.permissionsBounded snapshot mem).1, ?_⟩,
    fun i j owner snapshot => ?_⟩
  · obtain ⟨j, inside, rfl⟩ := List.getElem_of_mem mem
    have order := (causal.interleaved s.owners.length j (by simp) inside).1
    simp only [List.getElem_concat_length, last] at order
    exact order.1 inside
  · have order := causal.interleaved i j (by simp; omega) snapshot
    simp only [List.getElem_append_left owner] at order
    exact order

/-- A snapshot that came after every owner can be taken off, keeping the causal record. -/
theorem Causal.of_extend_permissions {s : Sequence P S} {snapshot : P}
    (causal : Causal { s with permissions := s.permissions ++ [snapshot] })
    (last : Permissions.expectedOwnersIndex snapshot = s.owners.length) : Causal s := by
  refine ⟨causal.ownersSorted, fun owner mem => ⟨(causal.ownersBounded owner mem).1, ?_⟩,
    (List.pairwise_append.1 causal.permissionsSorted).1,
    fun entry mem => causal.permissionsBounded entry (List.mem_append_left _ mem),
    fun i j owner inside => ?_⟩
  · obtain ⟨i, inside, rfl⟩ := List.getElem_of_mem mem
    exact causal.owner_before_last_snapshot last inside
  · have order := causal.interleaved i j owner (by simp; omega)
    simp only [List.getElem_append_left inside] at order
    exact order

/-- When the last owner came after every snapshot, no entry records more values than it. -/
theorem Causal.records_le_last_owner {s : Sequence P S} {entry : Owner}
    (causal : Causal { s with owners := s.owners ++ [entry] })
    (last : entry.expectedPermissionsIndex = s.permissions.length) :
    RecordsAtMost { s with owners := s.owners ++ [entry] } entry.expectedDataIndex := by
  refine ⟨fun owner mem => (le_last_of_pairwise causal.ownersSorted owner mem).1,
    fun snapshot mem => ?_⟩
  obtain ⟨j, inside, rfl⟩ := List.getElem_of_mem mem
  have order := (causal.interleaved s.owners.length j (by simp) inside).2.1
  simp only [List.getElem_concat_length] at order
  exact order (last ▸ inside)

/-- When the last snapshot came after every owner, no entry records more values than it. -/
theorem Causal.records_le_last_snapshot {s : Sequence P S} {snapshot : P}
    (causal : Causal { s with permissions := s.permissions ++ [snapshot] })
    (last : Permissions.expectedOwnersIndex snapshot = s.owners.length) :
    RecordsAtMost { s with permissions := s.permissions ++ [snapshot] }
      (Permissions.expectedDataIndex snapshot) := by
  refine ⟨fun owner mem => ?_,
    fun other mem => (le_last_of_pairwise causal.permissionsSorted other mem).1⟩
  obtain ⟨i, inside, rfl⟩ := List.getElem_of_mem mem
  have order := (causal.interleaved i s.permissions.length inside (by simp)).2.2
  simp only [List.getElem_concat_length] at order
  exact order (causal.owner_before_last_snapshot last inside)

/-- Of the last owner and the last snapshot, the later one records the length of the other's
history and the largest data length either history records. -/
theorem Causal.latest {s : Sequence P S} (causal : Causal s) :
    (s.owners = [] ∧ s.permissions = []) ∨
      (∃ owners entry, s.owners = owners ++ [entry] ∧
        entry.expectedPermissionsIndex = s.permissions.length ∧
          s.RecordsAtMost entry.expectedDataIndex) ∨
      (∃ snapshots snapshot, s.permissions = snapshots ++ [snapshot] ∧
        Permissions.expectedOwnersIndex snapshot = s.owners.length ∧
          s.RecordsAtMost (Permissions.expectedDataIndex snapshot)) := by
  obtain ⟨address, data, snapshots, owners, flavour⟩ := s
  rcases List.eq_nil_or_concat' owners with rfl | ⟨owners, entry, rfl⟩
  · rcases List.eq_nil_or_concat' snapshots with rfl | ⟨snapshots, snapshot, rfl⟩
    · exact .inl ⟨rfl, rfl⟩
    · have last : Permissions.expectedOwnersIndex snapshot = 0 := by
        simpa using (causal.permissionsBounded snapshot (by simp)).2
      exact .inr (.inr ⟨snapshots, snapshot, rfl, last,
        causal.records_le_last_snapshot (s := ⟨address, data, snapshots, [], flavour⟩) last⟩)
  · by_cases last : entry.expectedPermissionsIndex = snapshots.length
    · exact .inr (.inl ⟨owners, entry, rfl, last,
        causal.records_le_last_owner (s := ⟨address, data, snapshots, owners, flavour⟩) last⟩)
    · have bound := (causal.ownersBounded entry (by simp)).2
      rcases List.eq_nil_or_concat' snapshots with rfl | ⟨snapshots, snapshot, rfl⟩
      · exact absurd (Nat.le_zero.1 bound) last
      · have order := (causal.interleaved owners.length snapshots.length (by simp) (by simp)).1
        have ownersBound := (causal.permissionsBounded snapshot (by simp)).2
        simp only [List.getElem_concat_length, List.length_append, List.length_singleton]
          at order ownersBound bound last
        have after : Permissions.expectedOwnersIndex snapshot = owners.length + 1 := by omega
        exact .inr (.inr ⟨snapshots, snapshot, rfl, by simpa using after,
          causal.records_le_last_snapshot
            (s := ⟨address, data, snapshots, owners ++ [entry], flavour⟩) (by simpa using after)⟩)

/-- Taking one value off the end keeps the causal record when no entry records it. -/
theorem Causal.peel_value {s : Sequence P S} (causal : Causal s) {bound n : Nat}
    (records : s.RecordsAtMost bound) (below : bound < s.data.length)
    (size : s.data.length + s.owners.length + s.permissions.length = n + 1) :
    ∃ s' : Sequence P S, Causal s' ∧
      s'.data.length + s'.owners.length + s'.permissions.length = n ∧
        ∃ event : Event P, event.Fits s'.data.length s'.owners.length s'.permissions.length ∧
          event.extend s' = s := by
  obtain ⟨address, data, snapshots, owners, flavour⟩ := s
  obtain ⟨values, value, rfl⟩ :=
    (List.eq_nil_or_concat' data).resolve_left fun empty => by simp [empty] at below
  simp only [List.length_append, List.length_singleton] at below size
  refine ⟨⟨address, values, snapshots, owners, flavour⟩,
    Causal.of_extend_data (s := ⟨address, values, snapshots, owners, flavour⟩) causal
      ⟨fun owner mem => Nat.le_of_lt_succ ((records.1 owner mem).trans_lt below),
        fun snapshot mem => Nat.le_of_lt_succ ((records.2 snapshot mem).trans_lt below)⟩,
    by simp only; omega, .values [value], trivial, rfl⟩

/-- A state with a causal record and `n + 1` entries in its three histories is one fitting event
past a state with a causal record and `n` entries. -/
theorem Causal.peel {s : Sequence P S} (causal : Causal s) {n : Nat}
    (size : s.data.length + s.owners.length + s.permissions.length = n + 1) :
    ∃ s' : Sequence P S, Causal s' ∧
      s'.data.length + s'.owners.length + s'.permissions.length = n ∧
        ∃ event : Event P, event.Fits s'.data.length s'.owners.length s'.permissions.length ∧
          event.extend s' = s := by
  rcases causal.latest with ⟨noOwners, noSnapshots⟩ | ⟨owners, entry, split, last, records⟩ |
    ⟨snapshots, snapshot, split, last, records⟩
  · have records : s.RecordsAtMost 0 := ⟨by simp [noOwners], by simp [noSnapshots]⟩
    exact causal.peel_value records
      (by simp only [noOwners, noSnapshots, List.length_nil] at size; omega) size
  · rcases Nat.lt_or_eq_of_le (causal.ownersBounded entry (by simp [split])).1 with below | top
    · exact causal.peel_value records below size
    · obtain ⟨address, data, snapshots, owners₀, flavour⟩ := s
      dsimp only at split size top last
      subst split
      refine ⟨⟨address, data, snapshots, owners, flavour⟩, causal.of_extend_owner last, ?_,
        .owner entry, ⟨top, last⟩, rfl⟩
      simp only [List.length_append, List.length_singleton] at size ⊢
      omega
  · rcases Nat.lt_or_eq_of_le (causal.permissionsBounded snapshot (by simp [split])).1
      with below | top
    · exact causal.peel_value records below size
    · obtain ⟨address, data, snapshots₀, owners, flavour⟩ := s
      dsimp only at split size top last
      subst split
      refine ⟨⟨address, data, snapshots, owners, flavour⟩, causal.of_extend_permissions last, ?_,
        .permissions snapshot, ⟨top, last⟩, rfl⟩
      simp only [List.length_append, List.length_singleton] at size ⊢
      omega

/-- Every state with a causal record is the projection of a recorded log. -/
theorem Causal.exists_recorded {s : Sequence P S} (causal : Causal s) :
    ∃ log, Log.Recorded log ∧ Log.project s.address s.flavour log = s := by
  obtain ⟨n, size⟩ : ∃ n, s.data.length + s.owners.length + s.permissions.length = n := ⟨_, rfl⟩
  induction n generalizing s with
  | zero =>
    obtain ⟨address, data, snapshots, owners, flavour⟩ := s
    simp only [Nat.add_eq_zero, List.length_eq_zero] at size
    obtain ⟨⟨rfl, rfl⟩, rfl⟩ := size
    exact ⟨[], .nil, rfl⟩
  | succ n ih =>
    obtain ⟨s', causal', size', event, fits, rfl⟩ := causal.peel size
    obtain ⟨log, recorded, projected⟩ := ih causal' size'
    rw [← projected] at fits
    refine ⟨log ++ [event], recorded.snoc fits, ?_⟩
    rw [Log.project_snoc, Event.extend_address, Event.extend_flavour, projected]

/-- The causal record of a sequence holds exactly when its histories are the projection of one
log in which every owner and every snapshot records the lengths of the histories before it. -/
theorem causal_iff_recorded (s : Sequence P S) :
    Causal s ↔ ∃ log, Log.Recorded log ∧ Log.project s.address s.flavour log = s :=
  ⟨Causal.exists_recorded, fun ⟨_, recorded, projected⟩ => projected ▸ recorded.causal _ _⟩

/-- Given a call that appends values to any state, the states reachable from an empty sequence
are those with its address and flavour and a causal record. -/
theorem reachable_iff {address : Address} {flavour : S} {s : Sequence P S}
    (appendCall : Sequence P S → List Value → Call P S)
    (appends : ∀ s added, (appendCall s added).Accepts s ∧
      (appendCall s added).event = .values added) :
    (∃ calls, (Sequence.empty address flavour).run calls = s) ↔
      s.address = address ∧ s.flavour = flavour ∧ Causal s := by
  constructor
  · rintro ⟨calls, rfl⟩
    have grown := extends_run (Sequence.empty address flavour) calls
    exact ⟨grown.address, grown.flavour, (causal_empty address flavour).run calls⟩
  · rintro ⟨rfl, rfl, causal⟩
    obtain ⟨log, recorded, projected⟩ := causal.exists_recorded
    obtain ⟨calls, reached⟩ := recorded.reachable s.address s.flavour appendCall appends
    exact ⟨calls, reached.trans projected⟩

/-- The causal record is exactly the set of states reachable from `new`: for both appendable
flavours and every permission type, a sequence is reached from an empty one with its address,
by some run of appends, owner changes and permission changes, exactly when it has a causal
record. -/
theorem reachable_iff_causal :
    (∀ (address : Address) (s : Sequence P Sentried),
      (∃ calls, (Sequence.empty address ⟨⟩ : Sequence P Sentried).run calls = s) ↔
        s.address = address ∧ Causal s) ∧
    (∀ (address : Address) (s : Sequence P NonSentried),
      (∃ calls, (Sequence.empty address ⟨⟩ : Sequence P NonSentried).run calls = s) ↔
        s.address = address ∧ Causal s) :=
  ⟨fun _ _ => (reachable_iff (S := Sentried) (fun s added => .appendSentried added s.data.length)
      fun _ _ => by exact ⟨rfl, rfl⟩).trans
      ⟨fun ⟨same, _, causal⟩ => ⟨same, causal⟩, fun ⟨same, causal⟩ => ⟨same, rfl, causal⟩⟩,
    fun _ _ => (reachable_iff (S := NonSentried) (fun _ added => .append added)
      fun _ _ => by exact ⟨trivial, rfl⟩).trans
      ⟨fun ⟨same, _, causal⟩ => ⟨same, causal⟩, fun ⟨same, causal⟩ => ⟨same, rfl, causal⟩⟩⟩

end Sequence

end SafeNd
