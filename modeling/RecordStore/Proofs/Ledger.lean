import RecordStore.Proofs.CursorPlaces

/-!
What the answers in a run say the table must hold. The ledger is written by the run alone; it is no
part of the table.
-/

namespace RecordStore

def CursorOperation.wrote? : CursorOperation → CursorAnswer → Option Nat
  | write field _, .truth true | writePadded field _, .truth true => some field
  | _, _ => none

structure Holdings where
  keys : List Int64 := []
  given : List (UInt64 × Nat) := []
deriving DecidableEq

namespace Holdings

def enter (held : Holdings) (key : Int64) (offset : UInt64) (fields : List Nat) : Holdings where
  keys := held.keys ++ [key]
  given := held.given ++ fields.map fun field => (offset, field)

def give (held : Holdings) (cursor : Cursor) (wrote : Option Nat) : Holdings :=
  match cursor.place, wrote with
  | some place, some field => { held with given := held.given ++ [(place.offset, field)] }
  | _, _ => held

@[simp] theorem give_keys (held : Holdings) (cursor : Cursor) (wrote : Option Nat) :
    (held.give cursor wrote).keys = held.keys := by
  rw [give.eq_def]
  split <;> rfl

end Holdings

structure Ledger where
  now : Holdings := {}
  saved : Option Holdings := none
  finderPlaced : Bool := false
  walkerPlaced : Bool := false
deriving DecidableEq

namespace Ledger

def placed (ledger : Ledger) : Table.Role → Bool
  | .finder => ledger.finderPlaced
  | .walker => ledger.walkerPlaced

def copied (ledger : Ledger) (table : Table) : Except Fault Int64 → Ledger
  | .ok key => { ledger with
      now := ledger.now.enter key table.contents.nextFree (List.range table.layout.fields.length)
      finderPlaced := true }
  | .error _ => ledger

def note (ledger : Ledger) (table : Table) : TableOperation → Except Fault TableAnswer → Ledger
  | .append key, .ok (.truth true) => { ledger with
      now := ledger.now.enter key table.contents.nextFree [table.keyPosition]
      finderPlaced := true }
  | .appendCopy source offset, .ok (.truth true) =>
    ledger.copied table (table.readKey source offset)
  | .seekKey _, .ok (.truth true) | .seekIndex _, .ok (.truth true)
  | .seekOffset _, .ok (.truth true) => { ledger with finderPlaced := true }
  | .next, .ok .done => { ledger with walkerPlaced := true }
  | .begin, .ok .done => { ledger with saved := some ledger.now }
  | .commit, .ok .done => { ledger with saved := none }
  | .rollback, .ok (.truth true) => { now := ledger.saved.getD ledger.now }
  | .on role work, .ok (.record reply) =>
    { ledger with now := ledger.now.give (table.cursor role) (work.wrote? reply) }
  | _, _ => ledger

-- A cursor is used where an append, a look-up or the walk put it, and not after a rollback before
-- it is put on a record again. Only views of memory that is there can be copied from.
def Allows (ledger : Ledger) (table : Table) : TableOperation → Prop
  | .poke .. => False
  | .appendCopy source _ => source.Fits table.memory
  | .on role work => work.moves = false ∧ ledger.placed role = true
  | _ => True

theorem allows_stays {ledger : Ledger} {table : Table} {operation : TableOperation}
    (allowed : ledger.Allows table operation) : operation.moves = false := by
  cases operation with
  | on => exact allowed.1
  | _ => rfl

section Note

variable {ledger : Ledger} {table : Table} {operation : TableOperation}

@[simp] theorem note_error {fault : Fault} :
    ledger.note table operation (.error fault) = ledger := by
  cases operation <;> rfl

@[simp] theorem note_refused : ledger.note table operation (.ok (.truth false)) = ledger := by
  cases operation <;> rfl

theorem note_asked {answer : TableAnswer} (asks : operation.asks = true) :
    ledger.note table operation (.ok answer) = ledger := by
  cases operation with
  | hasKey | offsetOfIndex | withValue | hasMore => rfl
  | _ => cases asks

theorem note_sought (seeks : operation.seeks = true) :
    ledger.note table operation (.ok (.truth true)) = { ledger with finderPlaced := true } := by
  cases operation with
  | seekKey | seekIndex | seekOffset => rfl
  | _ => cases seeks

theorem note_copied {source : View} {offset : UInt64} {key : Int64}
    (read : table.readKey source offset = .ok key) :
    ledger.note table (.appendCopy source offset) (.ok (.truth true)) = { ledger with
      now := ledger.now.enter key table.contents.nextFree (List.range table.layout.fields.length)
      finderPlaced := true } := by
  have same : ledger.note table (.appendCopy source offset) (.ok (.truth true)) =
    ledger.copied table (table.readKey source offset) := rfl
  rw [same, read]
  rfl

theorem note_rewound {holds : Bool} : ledger.note table .rewind (.ok (.truth holds)) = ledger := by
  cases holds <;> rfl

end Note

end Ledger

namespace Table

def noted (table : Table) (ledger : Ledger) : List TableOperation → Ledger
  | [] => ledger
  | operation :: rest => (table.step operation).noted
      (ledger.note table operation (table.answer operation)) rest

def Regular (table : Table) (ledger : Ledger) : List TableOperation → Prop
  | [] => True
  | operation :: rest => ledger.Allows table operation ∧ (table.step operation).Regular
      (ledger.note table operation (table.answer operation)) rest

end Table

-- What is known of bytes, contents and holdings holds of those of the table and of what it saved.
structure Tracks (fact : Bytes → Contents → Holdings → Prop) (table : Table) (ledger : Ledger) :
    Prop where
  now : fact table.bytes table.contents ledger.now
  saved : ∀ (bytes : Bytes) (contents : Contents), table.snapshot = some (bytes, contents) →
    ∃ held, ledger.saved = some held ∧ fact bytes contents held

section Tracks

variable {fact : Bytes → Contents → Holdings → Prop} {before after : Table} {ledger : Ledger}
  {operation : TableOperation} {answer : Except Fault TableAnswer}

theorem tracks_imp {other : Bytes → Contents → Holdings → Prop}
    (implies : ∀ bytes contents held, fact bytes contents held → other bytes contents held)
    (tracks : Tracks fact after ledger) : Tracks other after ledger := by
  refine ⟨implies _ _ _ tracks.now, fun bytes contents saved => ?_⟩
  obtain ⟨held, noted, known⟩ := tracks.saved bytes contents saved
  exact ⟨held, noted, implies _ _ _ known⟩

theorem step_tracks (formed : before.Formed) (step : Table.Step before operation answer after)
    (tracks : Tracks fact before ledger)
    (fresh : operation ≠ .rollback → fact after.bytes after.contents
      (ledger.note before operation answer).now) :
    Tracks fact after (ledger.note before operation answer) := by
  cases step with
  | failed =>
    rw [Ledger.note_error]
    exact tracks
  | refused =>
    rw [Ledger.note_refused]
    exact ⟨tracks.now, tracks.saved⟩
  | asked asks =>
    rw [Ledger.note_asked asks]
    exact tracks
  | found target =>
    rw [Ledger.note_sought (Table.target_seeks target)]
    exact ⟨tracks.now, tracks.saved⟩
  | rewound =>
    rw [Ledger.note_rewound]
    exact ⟨tracks.now, tracks.saved⟩
  | copied room read =>
    refine ⟨fresh nofun, ?_⟩
    rw [Ledger.note_copied read]
    exact tracks.saved
  | begun =>
    refine ⟨fresh nofun, ?_⟩
    rintro bytes contents ⟨⟩
    exact ⟨ledger.now, rfl, tracks.now⟩
  | committed => exact ⟨fresh nofun, nofun⟩
  | @undone bytes contents saved =>
    obtain ⟨held, noted, known⟩ := tracks.saved bytes contents saved
    refine ⟨?_, nofun⟩
    have back : (ledger.note before .rollback (.ok (.truth true))).now =
      ledger.saved.getD ledger.now := rfl
    rw [back, noted, Option.getD_some,
      Table.restored_bytes contents formed.sound (formed.sound.saved bytes contents saved)]
    exact known
  | moved move =>
    refine ⟨fresh nofun, ?_⟩
    cases move <;> exact tracks.saved
  | _ => exact ⟨fresh nofun, tracks.saved⟩

end Tracks

end RecordStore
