import RecordStore.Proofs.Action

namespace RecordStore

structure Hands where
  finder : Bool := false
  walker : Bool := false
  rewound : Bool := false
deriving DecidableEq

namespace Hands

def cursor (hands : Hands) : Table.Role → Bool
  | .finder => hands.finder
  | .walker => hands.walker

def fresh : Hands := { rewound := true }

def found (hands : Hands) (placed : Bool) : Hands :=
  { hands with finder := placed || hands.finder }

def walked (hands : Hands) : Hands := { hands with walker := true }

def handed (hands : Hands) : Table.Role → Hands
  | .finder => hands.found true
  | .walker => hands.walked

-- The answers alone decide what was handed out.
def note (hands : Hands) : TableOperation → Except Fault TableAnswer → Hands
  | .append _, .ok (.truth placed) | .appendCopy .., .ok (.truth placed)
  | .seekKey _, .ok (.truth placed) | .seekIndex _, .ok (.truth placed)
  | .seekOffset _, .ok (.truth placed) => hands.found placed
  | .next, .ok .done => hands.walked
  | .rewind, .ok _ => { hands with rewound := true }
  | _, _ => hands

def Allows (hands : Hands) : TableOperation → Prop
  | .on role _ => hands.cursor role = true
  | .next | .hasMore => hands.rewound = true
  | _ => True

instance decidableAllows (hands : Hands) : (operation : TableOperation) →
    Decidable (hands.Allows operation)
  | .on role _ => inferInstanceAs (Decidable (hands.cursor role = true))
  | .next | .hasMore => inferInstanceAs (Decidable (hands.rewound = true))
  | .append _ | .appendCopy .. | .seekKey _ | .seekIndex _ | .seekOffset _ | .hasKey _
  | .offsetOfIndex _ | .withValue .. | .rewind | .begin | .commit | .rollback | .poke .. =>
    inferInstanceAs (Decidable True)

theorem note_error {hands : Hands} {operation : TableOperation} {fault : Fault} :
    hands.note operation (.error fault) = hands := by
  cases operation <;> rfl

end Hands

namespace Table

def Handed (table : Table) (hands : Hands) : List TableOperation → Prop
  | [] => True
  | operation :: rest => hands.Allows operation ∧
    (table.step operation).Handed (hands.note operation (table.answer operation)) rest

instance decidableHanded (table : Table) (hands : Hands) : (operations : List TableOperation) →
    Decidable (table.Handed hands operations)
  | [] => inferInstanceAs (Decidable True)
  | operation :: rest =>
    have := decidableHanded (table.step operation)
      (hands.note operation (table.answer operation)) rest
    inferInstanceAs (Decidable (_ ∧ _))

def hands (table : Table) (held : Hands) : List TableOperation → Hands
  | [] => held
  | operation :: rest =>
    (table.step operation).hands (held.note operation (table.answer operation)) rest

-- What can be seen of a table at any time: all bytes and their checksum, how many records there are,
-- whether a transaction is pending, and the cursors that were handed out.
structure Sight where
  bytes : Bytes
  checksum : UInt32
  count : UInt64
  pending : Bool
  finder : Option Cursor
  walker : Option Cursor

def sight (table : Table) (hands : Hands) : Sight where
  bytes := table.bytes
  checksum := table.crc32
  count := table.contents.count
  pending := table.pending
  finder := if hands.finder then some table.finder else none
  walker := if hands.walker then some table.walker else none

def watch (table : Table) (hands : Hands) :
    List TableOperation → List (Except Fault TableAnswer × Sight)
  | [] => []
  | operation :: rest =>
    let later := hands.note operation (table.answer operation)
    (table.answer operation, (table.step operation).sight later) ::
      (table.step operation).watch later rest

theorem handed_append {table : Table} {held : Hands} {earlier later : List TableOperation} :
    table.Handed held (earlier ++ later) ↔
      table.Handed held earlier ∧ (table.after earlier).Handed (table.hands held earlier) later := by
  induction earlier generalizing table held with
  | nil => exact ⟨fun rest => ⟨trivial, rest⟩, And.right⟩
  | cons operation rest ih =>
    rw [List.cons_append, Handed, Handed, ih, and_assoc]
    rfl

end Table

end RecordStore
