import RecordStore.Proofs.Counting
import RecordStore.Proofs.Restore

namespace RecordStore

-- The fault is no access out of range, but for a field that the layout does not have.
def Fault.Benign (layout : Layout) (field? : Option Nat) (fault : Fault) : Prop :=
  fault.kind = .outOfRange →
    fault = .noSuchField ∧ ∃ field, field? = some field ∧ layout.fields[field]? = none

structure Cursor.Inside (cursor : Cursor) (layout : Layout) : Prop where
  shape : cursor.layout = layout
  holds : ∀ place, cursor.place = some place → place.Holds layout

section Benign

variable {layout : Layout} {cursor : Cursor} {field? : Option Nat} {field : Nat} {fault : Fault}

theorem benign_kind (other : fault.kind ≠ .outOfRange) : fault.Benign layout field? :=
  fun outside => absurd outside other

theorem place_benign (cursor : Cursor) (action : CursorAction) :
    FailsOnly (Fault.Benign layout field?) (cursor.requirePlace action) := by
  rw [Cursor.requirePlace]
  cases cursor.place with
  | some place => exact fails_ok place
  | none => exact fails_error (benign_kind (by rintro ⟨⟩))

theorem mutable_benign (place : Place) (action : CursorAction) :
    FailsOnly (Fault.Benign layout field?) (place.requireMutable action) := by
  rw [Place.requireMutable]
  split
  · exact fails_ok ()
  · exact fails_error (benign_kind (by rintro ⟨⟩))

theorem field_benign (shape : cursor.layout = layout) (field : Nat) :
    FailsOnly (Fault.Benign layout (some field)) (cursor.layout.field field) := by
  rw [Layout.field, shape]
  cases known : layout.fields[field]? with
  | some slot => exact fails_ok slot
  | none => exact fails_error fun _ => ⟨rfl, field, rfl, known⟩

theorem typed_benign (shape : cursor.layout = layout) (type : FieldType) (field : Nat) :
    FailsOnly (Fault.Benign layout (some field)) (cursor.typedField type field) := by
  rw [Cursor.typedField]
  refine fails_bind (field_benign shape field) fun slot _ => ?_
  split
  · exact fails_ok slot
  · exact fails_error (benign_kind (by rintro ⟨⟩))

theorem missing_benign (shape : cursor.layout = layout)
    (missing : some fault =
      if (cursor.layout.fields[field]?).isSome then none else some .noSuchField) :
    fault.Benign layout (some field) := by
  rw [shape] at missing
  cases known : layout.fields[field]? with
  | some slot =>
    rw [known] at missing
    cases missing
  | none =>
    rw [known] at missing
    cases missing
    exact fun _ => ⟨rfl, field, rfl, known⟩

theorem checks_benign {value : Value} (failed : some fault ∈ cursor.checks field value)
    (shape : cursor.layout = layout) : fault.Benign layout (some field) := by
  simp only [Cursor.checks, List.mem_cons, List.not_mem_nil, or_false] at failed
  rcases failed with unbound | missing | typed | sequence | fixed | long | locked
  · split at unbound
    · cases unbound
    · cases unbound
      exact benign_kind (by rintro ⟨⟩)
  · exact missing_benign shape missing
  · obtain ⟨slot, -, rfl⟩ := Option.map_eq_some_iff.mp typed.symm
    exact benign_kind (by rintro ⟨⟩)
  · obtain ⟨slot, -, rfl⟩ := Option.map_eq_some_iff.mp sequence.symm
    exact benign_kind (by rintro ⟨⟩)
  · split at fixed
    · cases fixed
    · cases fixed
      exact benign_kind (by rintro ⟨⟩)
  · obtain ⟨slot, -, exceeds⟩ := Option.bind_eq_some_iff.mp long.symm
    obtain ⟨length, -, rfl⟩ := Option.map_eq_some_iff.mp exceeds
    exact benign_kind (by rintro ⟨⟩)
  · obtain ⟨slot, -, rfl⟩ := Option.map_eq_some_iff.mp locked.symm
    exact benign_kind (by rintro ⟨⟩)

theorem first_fault_benign {write : FieldWrite} (shape : cursor.layout = layout)
    (failed : write.firstFault cursor field = some fault) : fault.Benign layout (some field) := by
  obtain ⟨check, listed, same⟩ := List.exists_of_findSome?_eq_some failed
  have same : check = some fault := same
  subst same
  cases write with
  | plain value => exact checks_benign listed shape
  | padded text =>
    rcases List.mem_append.mp listed with early | late
    · simp only [List.mem_cons, List.not_mem_nil, or_false] at early
      rcases early with missing | typed | long
      · exact missing_benign shape missing
      · obtain ⟨slot, -, rfl⟩ := Option.map_eq_some_iff.mp typed.symm
        exact benign_kind (by rintro ⟨⟩)
      · obtain ⟨slot, -, exceeds⟩ := Option.bind_eq_some_iff.mp long.symm
        obtain ⟨length, -, rfl⟩ := Option.map_eq_some_iff.mp exceeds
        exact benign_kind (by rintro ⟨⟩)
    · exact checks_benign late shape

theorem sequence_benign (shape : cursor.layout = layout) (action : CursorAction) (field : Nat) :
    FailsOnly (Fault.Benign layout (some field)) (cursor.checkSequence action field) := by
  rw [Cursor.checkSequence]
  refine fails_bind (place_benign cursor action) fun place _ => ?_
  refine fails_bind (field_benign shape field) fun slot _ => ?_
  cases slot.attrs.sequence with
  | false => exact fails_error (benign_kind (by rintro ⟨⟩))
  | true =>
    refine fails_bind (mutable_benign place action) fun _ _ => ?_
    cases slot.attrs.key && cursor.keyLocked with
    | true => exact fails_error (benign_kind (by rintro ⟨⟩))
    | false => exact fails_ok (place, slot)

variable (packed : layout.Packed) (inside : cursor.Inside layout)
include packed inside

theorem read_benign (memory : Memory) (field : Nat) :
    FailsOnly (Fault.Benign layout (some field)) (cursor.read memory field) := by
  rw [Cursor.read]
  refine fails_bind (place_benign cursor .read) fun place standing => ?_
  refine fails_bind (field_benign inside.shape field) fun slot found => ?_
  have known := field_ok.mp found
  rw [inside.shape] at known
  rw [Place.readSlot,
    load_content packed known (inside.holds place (Cursor.require_place_ok.mp standing)), ok_then]
  cases Value.decode? slot.type (place.contentOf memory slot) with
  | some value => exact fails_ok value
  | none => exact fails_error (benign_kind (by rintro ⟨⟩))

theorem read_all_benign (memory : Memory) :
    FailsOnly (Fault.Benign layout none) (cursor.readAll memory) := by
  rw [Cursor.readAll]
  refine fails_map fun field listed fault failed outside => ?_
  obtain ⟨-, _, ⟨⟩, missing⟩ := read_benign packed inside memory field fault failed outside
  rw [List.mem_range, inside.shape] at listed
  rw [List.getElem?_eq_none_iff] at missing
  exact absurd listed (Nat.not_lt.mpr missing)

theorem read_as_benign (memory : Memory) (type : FieldType) (field : Nat) :
    FailsOnly (Fault.Benign layout (some field)) (cursor.readAs memory type field) := by
  rw [Cursor.readAs]
  exact fails_bind (typed_benign inside.shape type field) fun _ _ =>
    read_benign packed inside memory field

theorem write_benign {σ : Type} (owner : IndexOwner σ) (memory : Memory) (state : σ) (field : Nat)
    (write : FieldWrite) : FailsOnly (Fault.Benign layout (some field))
      (write.run owner cursor memory state field) := by
  intro fault failed
  have first := FieldWrite.run_first_fault owner cursor memory state field write
  cases found : write.firstFault cursor field with
  | some other =>
    rw [found] at first
    cases first.symm.trans failed
    exact first_fault_benign inside.shape found
  | none =>
    -- All checks passed, so there is room for what is written.
    rw [found] at first
    obtain ⟨place, slot, accepts⟩ := first
    have filled := FieldWrite.filled_accepted accepts
    have known : layout.fields[field]? = some slot := by rw [← inside.shape, accepts.field]
    obtain ⟨after, put⟩ := write_slot_runs packed known (inside.holds place accepts.placed)
      filled.writable filled.type filled.short memory
    obtain ⟨written, ran⟩ := Cursor.write_runs filled put
    cases ((FieldWrite.run_filled accepts).trans ran).symm.trans failed

theorem set_benign (memory : Memory) (field : Nat) (n : Int64) :
    FailsOnly (Fault.Benign layout (some field)) (cursor.setSequence memory field n) := by
  rw [Cursor.setSequence]
  refine fails_bind (sequence_benign inside.shape .setSequence field) ?_
  rintro ⟨place, slot⟩ checked
  have counts := Cursor.check_sequence_ok checked
  have known : layout.fields[field]? = some slot := by rw [← inside.shape, counts.field]
  dsimp only
  cases cut : Value.ofInteger? slot.type n with
  | none => exact fails_error (benign_kind (by rintro ⟨⟩))
  | some value =>
    obtain ⟨typed, short⟩ := of_integer_typed cut
    obtain ⟨after, put⟩ := write_slot_runs packed known (inside.holds place counts.placed)
      counts.writable typed (short slot.length) memory
    dsimp only
    rw [put]
    exact fails_ok after

theorem advance_benign {memory : Memory}
    (fits : ∀ place, cursor.place = some place → place.buffer.Fits memory) (field : Nat) :
    FailsOnly (Fault.Benign layout (some field)) (cursor.advance memory field) := by
  intro fault failed
  cases checked : cursor.checkSequence .advance field with
  | error other =>
    rw [Cursor.advance, checked, error_then] at failed
    cases failed
    exact sequence_benign inside.shape .advance field fault checked
  | ok found =>
    obtain ⟨place, slot⟩ := found
    have counts := Cursor.check_sequence_ok checked
    have known : layout.fields[field]? = some slot := by rw [← inside.shape, counts.field]
    obtain ⟨integer, -⟩ := packed.counter field slot known counts.sequence
    obtain ⟨held, holds, -⟩ :=
      signed_wraps (packed.sized field slot known) integer (place.contentOf memory slot)
    have stands : cursor.On layout memory place :=
      ⟨inside.shape, counts.placed, inside.holds place counts.placed, fits place counts.placed⟩
    obtain ⟨n, -, -, ran⟩ := Cursor.advance_adds packed stands counts holds
    cases ran.symm.trans failed

omit inside in
theorem header_room {place : Place} (holds : place.Holds layout) :
    place.buffer.inBounds place.offset Header.length = true := by
  have long := packed.header
  rw [Place.Holds] at holds
  rw [View.in_bounds_iff]
  change place.offset.toNat + 8 ≤ _
  omega

theorem put_header_benign (memory : Memory) :
    FailsOnly (Fault.Benign layout field?) (cursor.putHeader memory) := by
  rw [Cursor.putHeader]
  refine fails_bind (place_benign cursor .putHeader) fun place standing => ?_
  refine fails_bind (mutable_benign place .putHeader) fun _ free => ?_
  have placed := Cursor.require_place_ok.mp standing
  have ran := Cursor.put_header_runs placed (require_mutable_ok.mp free)
    (header_room packed (inside.holds place placed)) memory
  rw [Cursor.putHeader, standing, ok_then, free, ok_then] at ran
  rw [ran]
  exact fails_ok _

theorem header_benign (memory : Memory) :
    FailsOnly (Fault.Benign layout field?) (cursor.header memory) := by
  rw [Cursor.header]
  refine fails_bind (place_benign cursor .header) fun place standing => ?_
  have room := header_room packed (inside.holds place (Cursor.require_place_ok.mp standing))
  rw [Header.load, View.load_ok.mpr ⟨room, rfl⟩, ok_then]
  exact fails_ok _

omit packed in
theorem begin_benign (memory : Memory) :
    FailsOnly (Fault.Benign layout field?) (cursor.begin memory) := by
  rw [Cursor.begin]
  cases cursor.layout.transactional with
  | false => exact fails_error (benign_kind (by rintro ⟨⟩))
  | true =>
    refine fails_bind (place_benign cursor .begin) fun place standing => ?_
    have room : place.buffer.inBounds place.offset cursor.layout.stride = true := by
      rw [View.in_bounds_iff, inside.shape]
      exact inside.holds place (Cursor.require_place_ok.mp standing)
    rw [View.load_ok.mpr ⟨room, rfl⟩, ok_then]
    exact fails_ok _

end Benign

namespace CursorOperation

def field? : CursorOperation → Option Nat
  | read field | readAs _ field | write field _ | writePadded field _ | setSequence field _
  | advance field => some field
  | _ => none

end CursorOperation

variable {σ : Type}

section Faults

variable {owner : IndexOwner σ} {before after : Session σ} {operation : CursorOperation}
  {allowed : Fault → Prop} {fault : Fault}

theorem tried_faults {α β : Type} {work : Session σ → Except Fault α}
    {keep : Session σ → α → Session.Action σ β} {word : β → CursorAnswer}
    (same : operation.run owner =
      (get >>= fun session => attempt (work session) >>= keep session) >>= fun b => pure (word b))
    (keeps : ∀ a, ∃ b after, keep before a before = .ok b after)
    (fine : FailsOnly allowed (work before))
    (failed : operation.run owner before = .error fault after) : allowed fault := by
  cases ran : work before with
  | error other =>
    cases (tried_fault same ran).symm.trans failed
    exact fine fault ran
  | ok a =>
    obtain ⟨b, left, kept⟩ := keeps a
    cases (tried_run same ran kept).symm.trans failed

theorem asked_faults {α : Type} {question : Cursor → Memory → Except Fault α}
    {word : α → CursorAnswer}
    (same : operation.run owner = do return word (← Session.ask question))
    (fine : FailsOnly allowed (question before.cursor before.memory))
    (failed : operation.run owner before = .error fault after) : allowed fault := by
  cases found : question before.cursor before.memory with
  | error other =>
    cases (asked_run same found).symm.trans failed
    exact fine fault found
  | ok a => cases (asked_run same found).symm.trans failed

end Faults

section Header

variable {layout : Layout} {cursor : Cursor} {memory : Memory} {place : Place}
  (packed : layout.Packed) (stands : cursor.On layout memory place)
include packed stands

theorem header_matches_run : ∃ holds, cursor.headerMatches memory = .ok holds ∧
    (holds = true ↔
      place.buffer.peek memory place.offset Header.length = layout.header.encode) := by
  have room := header_room packed stands.holds
  have inside := (View.in_bounds_iff _ _ _).mp room
  have whole := View.peek_length _ memory _ _ stands.fits inside
  refine ⟨Header.decode (place.buffer.peek memory place.offset Header.length) == layout.header,
    ?_, ?_⟩
  · rw [Cursor.headerMatches, stands.placed, stands.shape]
    dsimp only
    rw [Header.load, View.load_ok.mpr ⟨room, rfl⟩]
    rfl
  · rw [beq_iff_eq]
    constructor
    · intro same
      rw [← same, Header.encode_decode whole]
    · intro same
      rw [same, Header.decode_encode]

theorem through_heads : ∃ after,
    (cursor.through Capabilities.all).putHeader memory = .ok after ∧
      place.buffer.peek after place.offset Header.length = layout.header.encode := by
  have room := header_room packed stands.holds
  have inside := (View.in_bounds_iff _ _ _).mp room
  have ran := Cursor.put_header_runs (through_placed stands.placed Capabilities.all)
    (View.mutable_of_all rfl) room memory
  have shape : (cursor.through Capabilities.all).layout = layout := stands.shape
  rw [shape] at ran
  exact ⟨_, ran, View.peek_poke _ _ _ _ stands.fits inside (Header.encode_length _)⟩

end Header

namespace Session

section Faults

variable {owner : IndexOwner σ} {layout : Layout} {saved : Option Bytes} {before after : Session σ}
  {operation : CursorOperation} {fault : Fault} {there : Place}

theorem grounded_inside (grounded : before.Grounded layout) : before.cursor.Inside layout :=
  ⟨grounded.shape, fun place placed => (grounded.stands place placed).holds⟩

theorem rollback_benign {field? : Option Nat} (remembering : before.Remembering layout saved)
    (failed : CursorOperation.rollback.run owner before = .error fault after) :
    fault.Benign layout field? := by
  cases saved with
  | none => cases (rollback_idle remembering.snapshot).symm.trans failed
  | some bytes =>
    obtain ⟨-, place, placed⟩ := remembering.record bytes rfl
    cases writable : place.buffer.isMutable with
    | true =>
      obtain ⟨back, restores⟩ := remembering_restores remembering placed writable
      cases restores.ran.symm.trans failed
    | false =>
      cases (rollback_barred remembering.snapshot placed writable).symm.trans failed
      exact benign_kind (by rintro ⟨⟩)

theorem header_told (packed : layout.Packed) (grounded : before.Grounded layout) : ∃ holds,
    CursorOperation.headerMatches.run owner before = .ok (.truth holds) before ∧
      (holds = true ↔ ∃ place after, before.cursor.place = some place ∧
        (before.cursor.through Capabilities.all).putHeader before.memory = .ok after ∧
        place.buffer.peek before.memory place.offset Header.length =
          place.buffer.peek after place.offset Header.length) := by
  have asked {holds : Bool} (found : before.cursor.headerMatches before.memory = .ok holds) :
      CursorOperation.headerMatches.run owner before = .ok (.truth holds) before :=
    asked_run rfl found
  cases placed : before.cursor.place with
  | none =>
    have found : before.cursor.headerMatches before.memory = .ok false := by
      rw [Cursor.headerMatches, placed]
    refine ⟨false, asked found, ?_⟩
    simp
  | some place =>
    have stands := grounded.stands place placed
    obtain ⟨holds, found, same⟩ := header_matches_run packed stands
    obtain ⟨after, put, heads⟩ := through_heads packed stands
    refine ⟨holds, asked found, same.trans ?_⟩
    constructor
    · intro bytes
      exact ⟨place, after, rfl, put, bytes.trans heads.symm⟩
    · intro shown
      obtain ⟨_, _, ⟨⟩, again, bytes⟩ := shown
      cases put.symm.trans again
      exact bytes.trans heads

theorem operation_benign (packed : layout.Packed) (remembering : before.Remembering layout saved)
    (stays : operation.destination? = none)
    (failed : operation.run owner before = .error fault after) :
    fault.Benign layout operation.field? := by
  have inside := grounded_inside remembering.grounded
  have fits (place : Place) (placed : before.cursor.place = some place) :
      place.buffer.Fits before.memory := (remembering.grounded.stands place placed).fits
  cases operation with
  | bind | bindHeader => cases stays
  | lockKey | commit => cases failed
  | putHeader =>
    refine tried_faults rfl (fun _ => ⟨_, _, rfl⟩) ?_ failed
    exact put_header_benign packed inside before.memory
  | headerMatches =>
    obtain ⟨holds, ran, -⟩ := header_told packed remembering.grounded
    cases ran.symm.trans failed
  | header =>
    refine asked_faults rfl ?_ failed
    exact header_benign packed inside before.memory
  | read field =>
    refine asked_faults rfl ?_ failed
    exact read_benign packed inside before.memory field
  | readAll =>
    refine asked_faults rfl ?_ failed
    exact read_all_benign packed inside before.memory
  | readAs type field =>
    refine asked_faults rfl ?_ failed
    exact read_as_benign packed inside before.memory type field
  | write field value =>
    refine tried_faults rfl (fun _ => ⟨_, _, rfl⟩) ?_ failed
    exact write_benign packed inside owner before.memory before.owner field (.plain value)
  | writePadded field text =>
    refine tried_faults rfl (fun _ => ⟨_, _, rfl⟩) ?_ failed
    exact write_benign packed inside owner before.memory before.owner field (.padded text)
  | setSequence field n =>
    refine tried_faults rfl (fun _ => ⟨_, _, rfl⟩) ?_ failed
    exact set_benign packed inside before.memory field n
  | advance field =>
    refine tried_faults rfl (fun _ => ⟨_, _, rfl⟩) ?_ failed
    exact advance_benign packed inside fits field
  | begin =>
    refine tried_faults rfl (fun _ => ⟨_, _, rfl⟩) ?_ failed
    exact begin_benign inside before.memory
  | rollback => exact rollback_benign remembering failed

theorem move_faults (packed : layout.Packed) (shape : before.cursor.layout = layout)
    (aims : operation.destination? = some there)
    (failed : operation.run owner before = .error fault after) (outside : fault.kind = .outOfRange) :
    ¬ there.Holds layout ∧
      fault = .bindOutOfRange there.offset layout.stride there.buffer.size := by
  cases bound : before.cursor.bind there.buffer there.offset with
  | error other =>
    cases (move_stays aims bound).symm.trans failed
    rcases Cursor.move_error bound with ⟨beyond, rfl⟩ | rfl
    · rw [shape] at beyond
      rw [shape]
      exact ⟨beyond, rfl⟩
    · cases outside
  | ok moved =>
    cases operation with
    | bind buffer offset =>
      cases aims
      cases (bare_run bound).symm.trans failed
    | bindHeader buffer offset =>
      cases aims
      rw [headed_run bound] at failed
      have inside : moved.Inside layout := by
        obtain ⟨room, -, rfl⟩ := Cursor.move_ok.mp bound
        rw [shape] at room
        refine ⟨shape, ?_⟩
        rintro place ⟨⟩
        exact room
      have benign : fault.Benign layout none := by
        refine tried_faults rfl (fun _ => ⟨_, _, rfl⟩) ?_ failed
        exact put_header_benign packed inside before.memory
      obtain ⟨-, _, ⟨⟩, -⟩ := benign outside
    | _ => cases aims

end Faults

structure StaysInBounds (owner : IndexOwner σ) (layout : Layout) (reports : Bool)
    (session : Session σ) : Prop where
  inside : ∀ place, session.cursor.place = some place →
    place.offset.toNat + layout.stride.toNat ≤ place.buffer.size.toNat
  moves : ∀ (buffer : View) (offset : UInt64),
    (∃ after, (CursorOperation.bind buffer offset).run owner session = .ok .done after) ↔
      offset.toNat + layout.stride.toNat ≤ buffer.size.toNat ∧
        (reports = false ∨ session.cursor.place = none ∨
          ∃ place, session.cursor.place = some place ∧ buffer.region = place.buffer.region ∧
            buffer.start = place.buffer.start ∧ buffer.size = place.buffer.size)
  stays : ∀ (buffer : View) (offset : UInt64) (fault : Fault) (after : Session σ),
    (CursorOperation.bind buffer offset).run owner session = .error fault after →
      after = session ∧
        (CursorOperation.bindHeader buffer offset).run owner session = .error fault session
  never : ∀ (operation : CursorOperation) (after : Session σ),
    operation.run owner session ≠ .error .outOfRange after
  blames : ∀ (operation : CursorOperation) (fault : Fault) (after : Session σ),
    operation.run owner session = .error fault after → fault.kind = .outOfRange →
      (fault = .noSuchField ∧
        ∃ field, operation.field? = some field ∧ layout.fields[field]? = none) ∨
      ∃ there, operation.destination? = some there ∧ ¬ there.Holds layout ∧
        fault = .bindOutOfRange there.offset layout.stride there.buffer.size
  header : ∃ holds,
    CursorOperation.headerMatches.run owner session = .ok (.truth holds) session ∧
      (holds = true ↔ ∃ place after, session.cursor.place = some place ∧
        (session.cursor.through Capabilities.all).putHeader session.memory = .ok after ∧
        place.buffer.peek session.memory place.offset Header.length =
          place.buffer.peek after place.offset Header.length)

section StaysInBounds

variable {owner : IndexOwner σ} {layout : Layout} {reports : Bool} {before : Session σ}

theorem reached_reports (reached : before.Reached owner layout reports) :
    before.cursor.reports = reports := by
  induction reached with
  | created made =>
    cases made
    rfl
  | worked _ _ ih => exact (keeps_operation owner _ _).reports.trans ih
  | changed _ _ ih => exact ih

theorem at_home_iff {cursor : Cursor} {buffer : View} :
    (cursor.reports && cursor.place.any (!buffer.sameBytes ·.buffer)) = false ↔
      cursor.reports = false ∨ cursor.place = none ∨
        ∃ place, cursor.place = some place ∧ buffer.region = place.buffer.region ∧
          buffer.start = place.buffer.start ∧ buffer.size = place.buffer.size := by
  cases cursor.place with
  | none => simp
  | some place =>
    cases cursor.reports with
    | false => simp
    | true => simp [View.same_bytes_iff]

theorem move_runs_iff {buffer : View} {offset : UInt64} :
    (∃ after, (CursorOperation.bind buffer offset).run owner before = .ok .done after) ↔
      ∃ moved, before.cursor.bind buffer offset = .ok moved := by
  constructor
  · intro shown
    obtain ⟨after, ran⟩ := shown
    cases bound : before.cursor.bind buffer offset with
    | ok moved => exact ⟨moved, rfl⟩
    | error fault =>
      have failed : (CursorOperation.bind buffer offset).run owner before = .error fault before :=
        @move_stays _ _ ⟨buffer, offset⟩ _ _ rfl _ bound
      cases failed.symm.trans ran
  · intro shown
    obtain ⟨moved, bound⟩ := shown
    exact ⟨_, bare_run bound⟩

theorem moves_iff (shape : before.cursor.layout = layout) (told : before.cursor.reports = reports)
    (buffer : View) (offset : UInt64) :
    (∃ after, (CursorOperation.bind buffer offset).run owner before = .ok .done after) ↔
      offset.toNat + layout.stride.toNat ≤ buffer.size.toNat ∧
        (reports = false ∨ before.cursor.place = none ∨
          ∃ place, before.cursor.place = some place ∧ buffer.region = place.buffer.region ∧
            buffer.start = place.buffer.start ∧ buffer.size = place.buffer.size) := by
  rw [move_runs_iff, ← shape, ← told, ← at_home_iff]
  constructor
  · intro shown
    obtain ⟨moved, bound⟩ := shown
    obtain ⟨room, home, -⟩ := Cursor.move_ok.mp bound
    exact ⟨room, home⟩
  · intro shown
    obtain ⟨room, home⟩ := shown
    exact ⟨_, Cursor.move_ok.mpr ⟨room, home, rfl⟩⟩

theorem move_fails {buffer : View} {offset : UInt64} {fault : Fault} {after : Session σ}
    (failed : (CursorOperation.bind buffer offset).run owner before = .error fault after) :
    after = before ∧
      (CursorOperation.bindHeader buffer offset).run owner before = .error fault before := by
  cases bound : before.cursor.bind buffer offset with
  | ok moved => cases (bare_run bound).symm.trans failed
  | error other =>
    have ended : (CursorOperation.bind buffer offset).run owner before = .error other before :=
      bind_error (move_fault bound)
    cases ended.symm.trans failed
    exact ⟨rfl, bind_error (move_fault bound)⟩

end StaysInBounds

end Session

theorem cursor_stays_in_bounds {schema : Schema} {layout : Layout}
    (built : Layout.build schema = .ok layout) (narrow : layout.extent < UInt64.size)
    {owner : IndexOwner σ} {reports : Bool} {session : Session σ}
    (reached : session.Reached owner layout reports) :
    session.StaysInBounds owner layout reports := by
  obtain ⟨packed, -⟩ := Layout.build_packed built narrow
  have grounded := reached_grounded reached
  obtain ⟨saved, remembers⟩ := Session.reached_remembers reached
  have remembering := Session.remembers_remembering remembers
  have blames : ∀ (operation : CursorOperation) (fault : Fault) (after : Session σ),
      operation.run owner session = .error fault after → fault.kind = .outOfRange →
        (fault = .noSuchField ∧
          ∃ field, operation.field? = some field ∧ layout.fields[field]? = none) ∨
        ∃ there, operation.destination? = some there ∧ ¬ there.Holds layout ∧
          fault = .bindOutOfRange there.offset layout.stride there.buffer.size := by
    intro operation fault after failed outside
    cases aims : operation.destination? with
    | none => exact .inl (Session.operation_benign packed remembering aims failed outside)
    | some there =>
      exact .inr ⟨there, rfl, Session.move_faults packed grounded.shape aims failed outside⟩
  refine ⟨?_, ?_, ?_, ?_, blames, Session.header_told packed grounded⟩
  · intro place placed
    exact (grounded.stands place placed).holds
  · exact Session.moves_iff grounded.shape (Session.reached_reports reached)
  · intro buffer offset fault after failed
    exact Session.move_fails failed
  · intro operation after failed
    rcases blames operation _ after failed rfl with ⟨wrong, -⟩ | ⟨there, -, -, wrong⟩
    · cases wrong
    · cases wrong

-- The offset is the largest of all, so its end wraps. The header of the label is not there before it
-- is put there.
theorem label_stays_in_bounds :
    let headed := stateOf (CursorOperation.putHeader.run indexOwner labelSession)
    headed.Reached indexOwner Layout.labelLayout true ∧
      labelSession.StaysInBounds indexOwner Layout.labelLayout true ∧
      headed.StaysInBounds indexOwner Layout.labelLayout true ∧
      (¬ ∃ after, (CursorOperation.bind labelPlace.buffer 18446744073709551615).run indexOwner
        labelSession = .ok .done after) ∧
      (∃ after, (CursorOperation.bind labelPlace.buffer.readOnly 4).run indexOwner labelSession =
        .ok .done after) ∧
      labelCursor.headerMatches labelMemory = .ok false ∧
      headed.cursor.headerMatches headed.memory = .ok true := by
  have narrow : Layout.labelLayout.extent < UInt64.size := by decide
  have reached : Session.Reached indexOwner Layout.labelLayout true
      (stateOf (CursorOperation.putHeader.run indexOwner labelSession)) :=
    .worked label_reached (by rintro buffer ⟨⟩)
  have early := cursor_stays_in_bounds Layout.label_built narrow label_reached
  have late := cursor_stays_in_bounds Layout.label_built narrow reached
  refine ⟨reached, early, late, ?_, ?_, by decide +kernel, by decide +kernel⟩
  · rw [early.moves]
    exact fun shown => absurd shown.1 (by decide)
  · rw [early.moves]
    exact ⟨by decide, .inr (.inr ⟨labelPlace, rfl, rfl, rfl, rfl⟩)⟩

end RecordStore
