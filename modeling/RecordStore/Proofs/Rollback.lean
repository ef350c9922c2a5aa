import Mathlib.Data.List.Induction
import RecordStore.Proofs.Creation
import RecordStore.Proofs.Frame

namespace RecordStore.Table

def Begins (table : Table) (operation : TableOperation) : Prop :=
  operation = .begin ∧ table.answer .begin = .ok .done

def EndsTransaction (table : Table) (operation : TableOperation) : Prop :=
  operation = .commit ∨ operation = .rollback ∧ table.answer .rollback = .ok (.truth true)

-- After the operations, the transaction is pending that was begun right after the earlier ones. The
-- history decides this by the answers alone.
inductive Pending (start : Table) : List TableOperation → List TableOperation → Prop
  | begun {earlier} (begins : (start.after earlier).Begins .begin) :
      Pending start earlier (earlier ++ [.begin])
  | kept {earlier operations operation} (pending : Pending start earlier operations)
      (same : ¬ (start.after operations).Begins operation)
      (open_ : ¬ (start.after operations).EndsTransaction operation) :
      Pending start earlier (operations ++ [operation])

structure Sound (table : Table) : Prop where
  writable : table.buffer.isMutable = true
  fits : table.buffer.Fits table.memory
  saved : ∀ bytes contents, table.snapshot = some (bytes, contents) →
    bytes.length = table.buffer.size.toNat

theorem create_sound {memory : Memory} {layout : Option Layout} {capacity : UInt64}
    {options : TableOptions} {table : Table}
    (created : create memory layout capacity options = .ok table) : table.Sound := by
  obtain ⟨known, -, made⟩ := create_ok created
  refine ⟨?_, ?_, ?_⟩
  · exact View.mutable_of_all (by rw [made.buffer])
  · exact made_fits made
  · intro bytes contents saved
    rw [made.snapshot] at saved
    cases saved

def restored (table : Table) (bytes : Bytes) (contents : Contents) : Table :=
  { table with
    memory := table.buffer.poke table.memory 0 bytes
    contents
    snapshot := none
    notices := table.notices ++ [.rolledBack table.layout.name contents.count] }

theorem rollback_none {table : Table} (empty : table.snapshot = none) :
    rollback table = .ok false table := by
  rw [rollback, get_bind, empty]
  rfl

theorem rollback_some {table : Table} {bytes : Bytes} {contents : Contents} (sound : table.Sound)
    (saved : table.snapshot = some (bytes, contents)) :
    rollback table = .ok true (table.restored bytes contents) := by
  have length := sound.saved bytes contents saved
  have small : bytes.length < UInt64.size := by
    rw [length]
    exact table.buffer.size.toNat_lt
  have put : table.buffer.store table.memory 0 bytes =
      .ok (table.buffer.poke table.memory 0 bytes) := by
    refine View.store_ok.mpr ⟨sound.writable, ?_, rfl⟩
    rw [View.in_bounds_small small]
    exact Nat.le_of_eq (by simpa using length)
  rw [rollback, get_bind, saved]
  dsimp only
  rw [attempt_ok put]
  rfl

theorem restored_bytes {table : Table} {bytes : Bytes} (contents : Contents) (sound : table.Sound)
    (length : bytes.length = table.buffer.size.toNat) :
    (table.restored bytes contents).bytes = bytes := by
  have old := View.bytes_length table.buffer table.memory sound.fits
  have put := View.bytes_poke table.buffer table.memory 0 bytes sound.fits
    (Nat.le_of_eq (by simpa using length))
  have whole : splice (table.buffer.bytes table.memory) 0 bytes = bytes := by
    rw [splice, List.take_zero, List.nil_append, List.drop_eq_nil_of_le (by omega), List.append_nil]
  exact put.trans whole

theorem restored_sound {table : Table} (bytes : Bytes) (contents : Contents) (sound : table.Sound) :
    (table.restored bytes contents).Sound where
  writable := sound.writable
  fits := View.fits_alike sound.fits (View.poke_alike _ _ _ _)
  saved := fun _ _ saved => nomatch saved

theorem begin_run (table : Table) :
    begin table = if table.transactional then
        .ok ⟨⟩ { table with snapshot := some (table.bytes, table.contents) }
      else .error (.tableNotTransactional table.layout.name) table := by
  rw [begin, get_bind]
  split <;> rfl

theorem alike_sound {before after : Table} (alike : before.Alike after) (sound : before.Sound) :
    after.Sound where
  writable := by
    rw [alike.buffer]
    exact sound.writable
  fits := by
    rw [alike.buffer]
    exact View.fits_alike sound.fits alike.memory
  saved := by
    rw [alike.buffer, alike.snapshot]
    exact sound.saved

theorem begin_step (table : Table) : table.step .begin = if table.transactional then
    { table with snapshot := some (table.bytes, table.contents) } else table := by
  have ran := begin_run table
  rw [step_eq, TableOperation.run]
  split at ran
  · rw [bind_ok ran, if_pos ‹_›]
    rfl
  · rw [bind_error ran, if_neg ‹_›]
    rfl

theorem begin_answer (table : Table) : table.answer .begin = if table.transactional then
    .ok .done else .error (.tableNotTransactional table.layout.name) := by
  have ran := begin_run table
  rw [answer, TableOperation.run]
  split at ran
  · rw [bind_ok ran, if_pos ‹_›]
    rfl
  · rw [bind_error ran, if_neg ‹_›]

theorem rollback_step_none {table : Table} (empty : table.snapshot = none) :
    table.answer .rollback = .ok (.truth false) ∧ table.step .rollback = table := by
  rw [step_eq, answer, TableOperation.run, bind_ok (rollback_none empty)]
  exact ⟨rfl, rfl⟩

theorem rollback_step_some {table : Table} {bytes : Bytes} {contents : Contents}
    (sound : table.Sound) (saved : table.snapshot = some (bytes, contents)) :
    table.answer .rollback = .ok (.truth true) ∧
      table.step .rollback = table.restored bytes contents := by
  rw [step_eq, answer, TableOperation.run, bind_ok (rollback_some sound saved)]
  exact ⟨rfl, rfl⟩

theorem step_sound (table : Table) (operation : TableOperation) (sound : table.Sound) :
    (table.step operation).Sound := by
  cases plain : operation.transacts with
  | false => exact alike_sound (step_alike table operation plain) sound
  | true =>
    cases operation with
    | begin =>
      rw [begin_step]
      split
      · refine ⟨sound.writable, sound.fits, ?_⟩
        rintro bytes contents ⟨⟩
        exact View.bytes_length _ _ sound.fits
      · exact sound
    | commit => exact ⟨sound.writable, sound.fits, fun _ _ saved => nomatch saved⟩
    | rollback =>
      cases saved : table.snapshot with
      | none =>
        rw [(rollback_step_none saved).2]
        exact sound
      | some pair =>
        rw [(rollback_step_some sound saved).2]
        exact restored_sound _ _ sound
    | _ => cases plain

theorem after_sound (table : Table) (operations : List TableOperation) (sound : table.Sound) :
    (table.after operations).Sound := by
  induction operations generalizing table with
  | nil => exact sound
  | cons operation rest ih => exact ih (table.step operation) (step_sound table operation sound)

theorem begins_iff (table : Table) :
    table.Begins .begin ↔ table.layout.transactional = true := by
  rw [Begins, begin_answer, transactional]
  cases table.layout.transactional <;> simp

theorem snapshot_kept {table : Table} {operation : TableOperation} (sound : table.Sound)
    (same : ¬ table.Begins operation) (open_ : ¬ table.EndsTransaction operation) :
    (table.step operation).snapshot = table.snapshot := by
  cases plain : operation.transacts with
  | false => exact (step_alike table operation plain).snapshot
  | true =>
    cases operation with
    | begin =>
      rw [begins_iff] at same
      rw [begin_step, transactional, if_neg same]
    | commit => exact absurd (.inl rfl) open_
    | rollback =>
      cases saved : table.snapshot with
      | none => rw [(rollback_step_none saved).2, saved]
      | some pair => exact absurd (.inr ⟨rfl, (rollback_step_some sound saved).1⟩) open_
    | _ => cases plain

theorem snapshot_begun {table : Table} (begins : table.Begins .begin) :
    (table.step .begin).snapshot = some (table.bytes, table.contents) := by
  rw [begin_step, transactional, if_pos ((begins_iff table).mp begins)]

theorem snapshot_ended {table : Table} {operation : TableOperation} (sound : table.Sound)
    (ends : table.EndsTransaction operation) : (table.step operation).snapshot = none := by
  rcases ends with rfl | ⟨rfl, answered⟩
  · rfl
  · cases saved : table.snapshot with
    | none =>
      rw [(rollback_step_none saved).1] at answered
      cases answered
    | some pair => rw [(rollback_step_some sound saved).2, restored]

theorem pending_snapshot {start : Table} {earlier operations : List TableOperation}
    (sound : start.Sound) (pending : start.Pending earlier operations) :
    (start.after operations).snapshot =
      some ((start.after earlier).bytes, (start.after earlier).contents) := by
  induction pending with
  | begun begins => rw [after_snoc, snapshot_begun begins]
  | kept pending same open_ ih =>
    rw [after_snoc, snapshot_kept (after_sound start _ sound) same open_]
    exact ih

-- The induction goes over the run from its end, since the last operation decides what is pending.
theorem snapshot_pending {start : Table} (sound : start.Sound) (empty : start.snapshot = none)
    (operations : List TableOperation) (saved : (start.after operations).snapshot ≠ none) :
    ∃ earlier, start.Pending earlier operations := by
  induction operations using List.reverseRecOn with
  | nil => exact absurd empty saved
  | append_singleton operations operation ih =>
    have before := after_sound start operations sound
    rw [after_snoc] at saved
    by_cases begins : (start.after operations).Begins operation
    · obtain ⟨rfl, -⟩ := id begins
      exact ⟨operations, .begun begins⟩
    · by_cases ends : (start.after operations).EndsTransaction operation
      · exact absurd (snapshot_ended before ends) saved
      · rw [snapshot_kept before begins ends] at saved
        obtain ⟨earlier, pending⟩ := ih saved
        exact ⟨earlier, .kept pending begins ends⟩

theorem step_fixed (table : Table) (operation : TableOperation) (sound : table.Sound) :
    table.Framed (table.step operation) := by
  cases plain : operation.transacts with
  | false => exact alike_framed (step_alike table operation plain)
  | true =>
    cases operation with
    | begin =>
      rw [begin_step]
      split <;> exact ⟨rfl, rfl, rfl, rfl, rfl⟩
    | commit => exact ⟨rfl, rfl, rfl, rfl, rfl⟩
    | rollback =>
      cases saved : table.snapshot with
      | none =>
        rw [(rollback_step_none saved).2]
        exact framed_refl table
      | some pair =>
        rw [(rollback_step_some sound saved).2]
        exact ⟨rfl, rfl, rfl, rfl, rfl⟩
    | _ => cases plain

theorem after_fixed (table : Table) (operations : List TableOperation) (sound : table.Sound) :
    table.Framed (table.after operations) := by
  induction operations generalizing table with
  | nil => exact framed_refl table
  | cons operation rest ih =>
    exact framed_trans (step_fixed table operation sound)
      (ih (table.step operation) (step_sound table operation sound))

theorem after_layout (table : Table) (operations : List TableOperation) (sound : table.Sound) :
    (table.after operations).layout = table.layout :=
  (after_fixed table operations sound).layout

theorem pending_transactional {start : Table} {earlier operations : List TableOperation}
    (sound : start.Sound) (pending : start.Pending earlier operations) :
    start.layout.transactional = true := by
  induction pending with
  | begun begins =>
    rw [begins_iff, after_layout start _ sound] at begins
    exact begins
  | kept _ _ _ ih => exact ih

theorem rollback_restores_last_begin {memory : Memory} {layout : Option Layout} {capacity : UInt64}
    {options : TableOptions} {start : Table}
    (created : create memory layout capacity options = .ok start)
    (operations : List TableOperation) :
    let now := start.after operations
    (now.answer .rollback = .ok (.truth true) ↔ ∃ earlier, start.Pending earlier operations) ∧
    (∀ earlier, start.Pending earlier operations →
      (now.step .rollback).bytes = (start.after earlier).bytes ∧
      (now.step .rollback).contents = (start.after earlier).contents) ∧
    ((¬ ∃ earlier, start.Pending earlier operations) →
      now.answer .rollback = .ok (.truth false) ∧ now.step .rollback = now) ∧
    (start.layout.transactional = false →
      now.answer .begin = .error (.tableNotTransactional start.layout.name) ∧
      now.step .begin = now ∧ now.answer .rollback = .ok (.truth false)) := by
  intro now
  have startSound := create_sound created
  have sound : now.Sound := after_sound start operations startSound
  have layout : now.layout = start.layout := after_layout start operations startSound
  have empty : start.snapshot = none := by
    obtain ⟨_, -, made⟩ := create_ok created
    exact made.snapshot
  have idle (none_pending : ¬ ∃ earlier, start.Pending earlier operations) :
      now.answer .rollback = .ok (.truth false) ∧ now.step .rollback = now := by
    apply rollback_step_none
    by_contra saved
    exact none_pending (snapshot_pending startSound empty operations saved)
  have undone {earlier} (pending : start.Pending earlier operations) :
      now.answer .rollback = .ok (.truth true) ∧ now.step .rollback =
        now.restored (start.after earlier).bytes (start.after earlier).contents :=
    rollback_step_some sound (pending_snapshot startSound pending)
  refine ⟨⟨fun answered => ?_, fun ⟨_, pending⟩ => (undone pending).1⟩, ?_, idle, ?_⟩
  · by_contra none_pending
    rw [(idle none_pending).1] at answered
    cases answered
  · intro earlier pending
    have length := sound.saved _ _ (pending_snapshot startSound pending)
    rw [(undone pending).2]
    exact ⟨restored_bytes _ sound length, rfl⟩
  · intro plain
    have never : ¬ ∃ earlier, start.Pending earlier operations := by
      intro shown
      obtain ⟨earlier, pending⟩ := shown
      have supported := pending_transactional startSound pending
      rw [plain] at supported
      cases supported
    have refused : now.transactional = false := by
      rw [transactional, layout]
      exact plain
    refine ⟨?_, ?_, (idle never).1⟩
    · rw [begin_answer, refused, layout]
      rfl
    · rw [begin_step, refused]
      rfl

def pairSchema : Schema where
  name := "pair"
  transactional := true
  keyed := true
  fields := [
    { name := "id", type := .int32, attrs := { key := true } },
    { name := "score", type := .int32, attrs := { indexed := true } }]

def pairLayout : Layout where
  name := "pair"
  typeId := 0
  groupId := 0
  transactional := true
  keyed := true
  stride := 16
  fields := [
    { name := "id", type := .int32, offset := 8, length := 4, attrs := { key := true } },
    { name := "score", type := .int32, offset := 12, length := 4, attrs := { indexed := true } }]

theorem pair_built : Layout.build pairSchema = .ok pairLayout := by decide +kernel

theorem rollback_takes_append_back :
    ∃ start, create Memory.empty (some pairLayout) 2 {} = .ok start ∧
      start.Pending [] [.begin, .append 1] ∧
      (start.after [.begin, .append 1]).bytes ≠ start.bytes ∧
      (start.after [.begin, .append 1]).answer .rollback = .ok (.truth true) ∧
      ((start.after [.begin, .append 1]).step .rollback).bytes = start.bytes ∧
      ((start.after [.begin, .append 1]).step .rollback).contents = start.contents := by
  obtain ⟨start, created, changed⟩ :
      ∃ start, create Memory.empty (some pairLayout) 2 {} = .ok start ∧
        (start.after [.begin, .append 1]).bytes ≠ start.bytes := ⟨_, rfl, by decide +kernel⟩
  have transactional : start.layout.transactional = true := by
    obtain ⟨known, same, made⟩ := create_ok created
    cases same
    rw [made.shape]
    rfl
  have begun : start.Pending [] [.begin] :=
    @Pending.begun start [] ((begins_iff start).mpr transactional)
  have pending : start.Pending [] [.begin, .append 1] :=
    .kept begun (fun begins => nomatch begins.1) fun ends => by
      rcases ends with same | ⟨same, -⟩ <;> cases same
  obtain ⟨answered, undone, -⟩ := rollback_restores_last_begin created [.begin, .append 1]
  exact ⟨start, created, pending, changed, answered.mpr ⟨[], pending⟩, undone [] pending⟩

end RecordStore.Table
