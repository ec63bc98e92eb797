import SafeNd.Sequence.Run
/-!
# The sequence as one log of events

Behind the three histories of a sequence stands one design (§3 and §8 of the spec): a single
append-only log of changes, in which values are appended, owners set and permission snapshots
set, and every owner and every snapshot records how many values, owners and snapshots came
before it (`Log.Recorded`). A sequence is the projection of such a log onto its three histories
(`Log.project`).

The source refines this design. A call on a projection either leaves the log as it is or
appends the call's own event, an event that fits the log (`Call.step_project`); so every run
from an empty sequence is the projection of the log of its accepted calls, and that log is
recorded (`run_refines_log`).
-/

namespace SafeNd

/-- One change of a sequence in the one-log design. -/
inductive Event (P : Type)
  /-- Values appended to the value log. -/
  | values (values : List Value)
  /-- An owner set. -/
  | owner (owner : Owner)
  /-- A permission snapshot set. -/
  | permissions (permissions : P)

namespace Event

variable {P : Type}

/-- The values an event appends. -/
@[simp]
def appended : Event P → List Value
  | .values added => added
  | _ => []

/-- The owner an event sets, if any. -/
@[simp]
def owner? : Event P → Option Owner
  | .owner entry => some entry
  | _ => none

/-- The snapshot an event sets, if any. -/
@[simp]
def permissions? : Event P → Option P
  | .permissions snapshot => some snapshot
  | _ => none

/-- An event's effect on a sequence: the history it belongs to is followed by its entries. -/
def extend {S : Type} : Event P → Sequence P S → Sequence P S
  | .values added, s => { s with data := s.data ++ added }
  | .owner entry, s => { s with owners := s.owners ++ [entry] }
  | .permissions snapshot, s => { s with permissions := s.permissions ++ [snapshot] }

/-- An event's effect keeps the address. -/
@[simp]
theorem extend_address {S : Type} (event : Event P) (s : Sequence P S) :
    (event.extend s).address = s.address := by
  cases event <;> rfl

/-- An event's effect keeps the flavour. -/
@[simp]
theorem extend_flavour {S : Type} (event : Event P) (s : Sequence P S) :
    (event.extend s).flavour = s.flavour := by
  cases event <;> rfl

/-- An owner or a snapshot records the given lengths of the value log, the owner history and
the permission history; values fit anywhere. -/
def Fits [Permissions P] (dataLength ownersLength permissionsLength : Nat) : Event P → Prop
  | .values _ => True
  | .owner entry =>
    entry.expectedDataIndex = dataLength ∧ entry.expectedPermissionsIndex = permissionsLength
  | .permissions snapshot =>
    Permissions.expectedDataIndex snapshot = dataLength ∧
      Permissions.expectedOwnersIndex snapshot = ownersLength

/-- Whether an event fits is decided by comparing lengths. -/
instance [Permissions P] (dataLength ownersLength permissionsLength : Nat) :
    (event : Event P) → Decidable (event.Fits dataLength ownersLength permissionsLength)
  | .values _ => inferInstanceAs (Decidable True)
  | .owner _ => inferInstanceAs (Decidable (_ ∧ _))
  | .permissions _ => inferInstanceAs (Decidable (_ ∧ _))

end Event

namespace Log

variable {P : Type}

/-- The value log of a log of events. -/
def data (log : List (Event P)) : List Value := log.flatMap Event.appended

/-- The owner history of a log of events. -/
def owners (log : List (Event P)) : List Owner := log.filterMap Event.owner?

/-- The permission history of a log of events. -/
def permissions (log : List (Event P)) : List P := log.filterMap Event.permissions?

/-- The value log of two logs in a row is theirs in a row. -/
@[simp]
theorem data_append (log log' : List (Event P)) : data (log ++ log') = data log ++ data log' :=
  List.flatMap_append _ _ _

/-- The owner history of two logs in a row is theirs in a row. -/
@[simp]
theorem owners_append (log log' : List (Event P)) :
    owners (log ++ log') = owners log ++ owners log' :=
  List.filterMap_append _ _ _

/-- The permission history of two logs in a row is theirs in a row. -/
@[simp]
theorem permissions_append (log log' : List (Event P)) :
    permissions (log ++ log') = permissions log ++ permissions log' :=
  List.filterMap_append _ _ _

/-- Every event of the log fits the log before it: each owner and each snapshot records
exactly the lengths of the histories before it. -/
inductive Recorded [Permissions P] : List (Event P) → Prop
  /-- The empty log. -/
  | nil : Recorded []
  /-- A recorded log followed by an event that fits it. -/
  | snoc {log : List (Event P)} {event : Event P} : Recorded log →
      event.Fits (data log).length (owners log).length (permissions log).length →
        Recorded (log ++ [event])

/-- The sequence whose histories are those of the log. -/
def project {S : Type} (address : Address) (flavour : S) (log : List (Event P)) :
    Sequence P S :=
  ⟨address, data log, permissions log, owners log, flavour⟩

/-- The log followed by one event projects to that event's effect on the log's projection. -/
theorem project_snoc {S : Type} (address : Address) (flavour : S) (log : List (Event P))
    (event : Event P) :
    project address flavour (log ++ [event]) = event.extend (project address flavour log) := by
  cases event <;> simp [project, Event.extend, data, owners, permissions]

end Log

namespace Call

variable {P S : Type}

/-- The event of the one-log design that a call asks for. -/
def event : Call P S → Event P
  | .append values => .values values
  | .appendSentried values _ => .values values
  | .setOwner owner _ => .owner owner
  | .setPermissions permissions _ => .permissions permissions

/-- The contract's effect is the effect of the call's event. -/
theorem extend_eq_event (call : Call P S) (s : Sequence P S) :
    call.extend s = call.event.extend s := by
  cases call <;> rfl

variable [Permissions P]

/-- An accepted call's event records the lengths of the state that accepted it. -/
theorem fits_of_accepts {call : Call P S} {s : Sequence P S} (accepted : call.Accepts s) :
    call.event.Fits s.data.length s.owners.length s.permissions.length := by
  cases call with
  | append | appendSentried => trivial
  | setOwner => exact ⟨accepted.1, accepted.2.1⟩
  | setPermissions => exact ⟨accepted.1, accepted.2.1⟩

/-- A call on a projection either leaves the log as it is or appends the call's event. -/
theorem step_project (call : Call P S) (address : Address) (flavour : S)
    (log : List (Event P)) :
    call.step (Log.project address flavour log) =
      Log.project address flavour
        (if call.Accepts (Log.project address flavour log) then log ++ [call.event] else log) := by
  rw [step_eq]
  split
  · rw [extend_eq_event, Log.project_snoc]
  · rfl

end Call

namespace Sequence

variable {P S : Type} [Permissions P]

/-- The calls of a run that returned `Ok(())`, in order. -/
def accepted (s : Sequence P S) : List (Call P S) → List (Call P S)
  | [] => []
  | call :: calls =>
    match call.apply s with
    | .ok () s' => call :: s'.accepted calls
    | .error _ s' => s'.accepted calls

/-- A call is kept exactly when its contract accepts it. -/
theorem accepted_cons (s : Sequence P S) (call : Call P S) (calls : List (Call P S)) :
    s.accepted (call :: calls) =
      (if call.Accepts s then [call] else []) ++ (call.step s).accepted calls := by
  by_cases acceptance : call.Accepts s
  · simp only [accepted, Call.step, Call.apply_accepted acceptance, if_pos acceptance]
    rfl
  · obtain ⟨_, rejected⟩ := Call.apply_rejected acceptance
    simp only [accepted, Call.step, rejected, if_neg acceptance]
    rfl

/-- A run from a projection ends at the projection of the log followed by the events of the
run's accepted calls. -/
theorem run_project (address : Address) (flavour : S) (log : List (Event P))
    (calls : List (Call P S)) :
    (Log.project address flavour log).run calls =
      Log.project address flavour
        (log ++ ((Log.project address flavour log).accepted calls).map Call.event) := by
  induction calls generalizing log with
  | nil => simp [accepted]
  | cons call calls ih =>
    rw [run_cons, accepted_cons, Call.step_project, ih]
    split <;> simp

end Sequence

namespace Log

variable {P S : Type} [Permissions P]

/-- The events of the accepted calls of a run from a recorded log's projection extend it to a
recorded log. -/
theorem Recorded.run {log : List (Event P)} (recorded : Recorded log)
    (address : Address) (flavour : S) (calls : List (Call P S)) :
    Recorded (log ++ ((project address flavour log).accepted calls).map Call.event) := by
  induction calls generalizing log with
  | nil => simpa [Sequence.accepted] using recorded
  | cons call calls ih =>
    rw [Sequence.accepted_cons, Call.step_project]
    split
    · next accepted =>
      simpa using ih (recorded.snoc (Call.fits_of_accepts accepted))
    · simpa using ih recorded

end Log

namespace Sequence

variable {P S : Type} [Permissions P]

/-- Every run from an empty sequence refines the one-log design: its state is the projection of
the log of the events of its accepted calls, in order, and in that log every owner and every
snapshot records exactly the number of values, owners and snapshots before it. -/
theorem run_refines_log (address : Address) (flavour : S) (calls : List (Call P S)) :
    let start : Sequence P S := .empty address flavour
    start.run calls = Log.project address flavour ((start.accepted calls).map Call.event) ∧
      Log.Recorded ((start.accepted calls).map Call.event) :=
  ⟨run_project address flavour [] calls, Log.Recorded.nil.run address flavour calls⟩

end Sequence

end SafeNd
