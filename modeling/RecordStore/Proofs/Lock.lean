import RecordStore.Proofs.WriteOrder

namespace RecordStore

namespace CursorOperation

def destination? : CursorOperation → Option Place
  | bind buffer offset | bindHeader buffer offset => some ⟨buffer, offset⟩
  | _ => none

def alters? : CursorOperation → Option Nat
  | write field _ | writePadded field _ | setSequence field _ | advance field => some field
  | _ => none

end CursorOperation

namespace Session

variable {σ : Type}

-- Everything that can become of a cursor from the moment its key is locked until it is moved, while
-- nobody else changes the buffer it stands in. It is only rolled back to what was saved in that
-- time: the flag says that nothing older is left.
inductive Locked (owner : IndexOwner σ) (place : Place) (start : Session σ) : Bool → Session σ → Prop
  | taken : Locked owner place start (!start.cursor.pending)
      (stateOf (CursorOperation.lockKey.run owner start))
  | begun {recent session answer after} (locked : Locked owner place start recent session)
      (ran : CursorOperation.begin.run owner session = .ok answer after) :
      Locked owner place start true after
  | committed {recent session} (locked : Locked owner place start recent session) :
      Locked owner place start true (stateOf (CursorOperation.commit.run owner session))
  | worked {recent session} {operation : CursorOperation}
      (locked : Locked owner place start recent session)
      (stays : ∀ there, operation.destination? = some there →
        ∃ fault, session.cursor.bind there.buffer there.offset = .error fault)
      (back : operation = .rollback → recent = true) :
      Locked owner place start recent (stateOf (operation.run owner session))
  | changed {recent} {session : Session σ} {memory state notices}
      (locked : Locked owner place start recent session) (grows : session.memory.Grows memory)
      (kept : place.buffer.bytes memory = place.buffer.bytes session.memory) :
      Locked owner place start recent { session with memory, owner := state, notices }

structure Guarding (layout : Layout) (place : Place) (slot : FieldSlot) (key : Bytes) (recent : Bool)
    (session : Session σ) : Prop where
  stands : session.cursor.On layout session.memory place
  locked : session.cursor.keyLocked = true
  content : place.contentOf session.memory slot = key
  snapshot : recent = true → ∀ bytes, session.cursor.snapshot = some bytes →
    bytes.length = layout.stride.toNat ∧ contentAt bytes 0 slot = key

section Guarding

variable {owner : IndexOwner σ} {layout : Layout} {place : Place} {before after start : Session σ}
  {operation : CursorOperation} {answer : CursorAnswer} {id : Nat} {slot : FieldSlot} {key : Bytes}
  {recent : Bool}

theorem on_confined (stands : before.cursor.On layout before.memory place) :
    before.Confined layout place.buffer := by
  refine ⟨stands.shape, fun there placed => ?_, stands.fits⟩
  cases stands.placed.symm.trans placed
  exact ⟨rfl, stands.holds⟩

variable (packed : layout.Packed) (known : layout.fields[id]? = some slot)
include packed known

theorem change_content (keyed : slot.attrs.key = true)
    (guarding : before.Guarding layout place slot key recent)
    (back : operation = .rollback → recent = true)
    (change : Change owner before operation answer after) :
    place.contentOf after.memory slot = key := by
  obtain ⟨stands, locked, content, snapshot⟩ := guarding
  have confined := on_confined stands
  have room := stands.holds
  rw [Place.Holds, ← View.bytes_length _ _ stands.fits] at room
  have whole (undoes : operation = .rollback) (bytes : Bytes)
      (saved : before.cursor.snapshot = some bytes) : bytes.length = layout.stride.toNat :=
    (snapshot (back undoes) bytes saved).1
  rcases change_patches confined packed whole change with
    same | ⟨other, inner, fresh, placed, patch, bytes⟩
  · rw [Place.contentOf, same]
    exact content
  · cases stands.placed.symm.trans placed
    rw [Place.contentOf, bytes]
    refine (patch_key packed stands.shape patch locked known keyed ?_ room).trans content
    intro undoes bytes saved
    exact (snapshot (back undoes) bytes saved).2.trans content.symm

theorem begun_snapshot (guarding : before.Guarding layout place slot key recent) {there : Place}
    {bytes : Bytes} (placed : before.cursor.place = some there)
    (found : there.buffer.load before.memory there.offset before.cursor.layout.stride = .ok bytes) :
    bytes.length = layout.stride.toNat ∧ contentAt bytes 0 slot = key := by
  obtain ⟨stands, -, content, -⟩ := guarding
  cases stands.placed.symm.trans placed
  rw [stands.shape] at found
  obtain ⟨length, fields⟩ := saved_record stands.fits found
  exact ⟨length, (fields packed known).trans content⟩

theorem change_guarding (keyed : slot.attrs.key = true)
    (guarding : before.Guarding layout place slot key recent)
    (back : operation = .rollback → recent = true)
    (change : Change owner before operation answer after) :
    after.Guarding layout place slot key recent := by
  have content := change_content packed known keyed guarding back change
  have alike := change_alike change
  have moved := Table.change_place change
  have stands : after.cursor.On layout after.memory place :=
    ⟨alike.layout.trans guarding.stands.shape, moved.trans guarding.stands.placed,
      guarding.stands.holds, View.fits_alike guarding.stands.fits alike.memory⟩
  cases change with
  | locked => exact ⟨stands, rfl, content, guarding.snapshot⟩
  | begun placed found =>
    refine ⟨stands, guarding.locked, content, ?_⟩
    rintro - bytes ⟨⟩
    exact begun_snapshot packed known guarding placed found
  | committed | restored => exact ⟨stands, guarding.locked, content, fun _ => nofun⟩
  | _ => exact ⟨stands, guarding.locked, content, guarding.snapshot⟩

theorem begin_guarding (guarding : before.Guarding layout place slot key recent)
    (ran : CursorOperation.begin.run owner before = .ok answer after) :
    after.Guarding layout place slot key true := by
  rcases operation_changes owner .begin before rfl with ⟨fault, failed⟩ | ⟨_, _, ended, change⟩
  · cases failed.symm.trans ran
  · cases ended.symm.trans ran
    cases change with
    | asked asks => cases asks
    | refused writes | written writes => rcases writes with wrong | ⟨_, wrong, -⟩ <;> cases wrong
    | begun placed found =>
      refine ⟨⟨guarding.stands.shape, guarding.stands.placed, guarding.stands.holds,
        guarding.stands.fits⟩, guarding.locked, guarding.content, ?_⟩
      rintro - bytes ⟨⟩
      exact begun_snapshot packed known guarding placed found

theorem work_guarding (keyed : slot.attrs.key = true)
    (guarding : before.Guarding layout place slot key recent)
    (stays : ∀ there, operation.destination? = some there →
      ∃ fault, before.cursor.bind there.buffer there.offset = .error fault)
    (back : operation = .rollback → recent = true) :
    (stateOf (operation.run owner before)).Guarding layout place slot key recent := by
  obtain ⟨answer, after, ran, ended⟩ := operation_outcome owner operation before
  rw [ran, state_of_outcome]
  rcases ended with ⟨fault, -, rfl⟩ | ⟨reply, -, change⟩ | move
  · exact guarding
  · exact change_guarding packed known keyed guarding back change
  · cases move with
    | bare bound | headed bound | unheaded bound =>
      obtain ⟨fault, failed⟩ := stays _ rfl
      cases failed.symm.trans bound

theorem locked_guarding (keyed : slot.attrs.key = true)
    (stands : start.cursor.On layout start.memory place)
    (locked : Locked owner place start recent after) :
    after.Guarding layout place slot (place.contentOf start.memory slot) recent := by
  induction locked with
  | taken =>
    refine ⟨⟨stands.shape, stands.placed, stands.holds, stands.fits⟩, rfl, rfl, ?_⟩
    intro idle bytes saved
    have pending : start.cursor.pending = true := by
      rw [Cursor.pending, show start.cursor.snapshot = some bytes from saved]
      rfl
    rw [pending] at idle
    cases idle
  | begun _ ran ih => exact begin_guarding packed known ih ran
  | committed _ ih =>
    exact ⟨⟨ih.stands.shape, ih.stands.placed, ih.stands.holds, ih.stands.fits⟩, ih.locked,
      ih.content, fun _ => nofun⟩
  | worked _ stays back ih => exact work_guarding packed known keyed ih stays back
  | changed _ grows kept ih =>
    obtain ⟨stands, locked, content, snapshot⟩ := ih
    have fits := Nat.le_trans stands.fits (grows _)
    refine ⟨⟨stands.shape, stands.placed, stands.holds, fits⟩, locked, ?_, snapshot⟩
    rw [Place.contentOf, kept]
    exact content

end Guarding

-- What can be said of a cursor with its key locked: the key has these bytes, whatever would change
-- it fails and leaves everything as it is, and only a move that succeeds takes the lock off.
structure HoldsKey (owner : IndexOwner σ) (place : Place) (id : Nat) (slot : FieldSlot) (key : Bytes)
    (session : Session σ) : Prop where
  placed : session.cursor.place = some place
  locked : session.cursor.keyLocked = true
  bytes : place.buffer.load session.memory (place.ofSlot slot) slot.length = .ok key
  refuses : ∀ operation : CursorOperation, operation.alters? = some id →
    ∃ fault, operation.run owner session = .error fault session
  stays : ∀ (operation : CursorOperation) (there : Place) (fault : Fault),
    operation.destination? = some there →
    session.cursor.bind there.buffer there.offset = .error fault →
      operation.run owner session = .error fault session
  leaves : ∀ (operation : CursorOperation) (there : Place) (moved : Cursor),
    operation.destination? = some there →
    session.cursor.bind there.buffer there.offset = .ok moved →
      (stateOf (operation.run owner session)).cursor = moved ∧ moved.place = some there ∧
        moved.keyLocked = false

section HoldsKey

variable {owner : IndexOwner σ} {layout : Layout} {place there : Place} {before : Session σ}
  {operation : CursorOperation} {id : Nat} {slot : FieldSlot} {key : Bytes} {recent : Bool}

theorem writes_alters {field : Nat} {value : Value} (writes : operation.Writes field slot value) :
    operation.alters? = some field := by
  rcases writes with rfl | ⟨text, rfl, -⟩ <;> rfl

theorem locked_refuses (shape : before.cursor.layout = layout)
    (locked : before.cursor.keyLocked = true) (known : layout.fields[id]? = some slot)
    (keyed : slot.attrs.key = true) (alters : operation.alters? = some id) :
    ∃ fault, operation.run owner before = .error fault before := by
  obtain ⟨answer, after, ran, ended⟩ := operation_outcome owner operation before
  rcases ended with ⟨fault, rfl, rfl⟩ | ⟨reply, -, change⟩ | move
  · exact ⟨fault, ran⟩
  · cases change with
    | asked asks =>
      cases operation with
      | write | writePadded | setSequence | advance => cases asks
      | _ => cases alters
    | refused writes accepts | written writes accepts =>
      have differ := unlocked_differs shape locked known keyed accepts.field accepts.unlocked
      exact absurd (Option.some.inj ((writes_alters writes).symm.trans alters)) differ
    | set counts | advanced counts =>
      have differ := unlocked_differs shape locked known keyed counts.field counts.unlocked
      exact absurd (Option.some.inj alters) differ
    | _ => cases alters
  · cases move with
    | bare | headed | unheaded => cases alters

theorem move_stays (aims : operation.destination? = some there) {fault : Fault}
    (failed : before.cursor.bind there.buffer there.offset = .error fault) :
    operation.run owner before = .error fault before := by
  cases operation with
  | bind | bindHeader =>
    cases aims
    exact bind_error (move_fault failed)
  | _ => cases aims

theorem move_leaves (aims : operation.destination? = some there) {moved : Cursor}
    (bound : before.cursor.bind there.buffer there.offset = .ok moved) :
    (stateOf (operation.run owner before)).cursor = moved := by
  cases operation with
  | bind buffer offset =>
    cases aims
    rw [bare_run bound]
    rfl
  | bindHeader buffer offset =>
    cases aims
    have ran : (CursorOperation.bindHeader buffer offset).run owner before =
        (Session.putHeader >>= fun _ => pure .done) { before with cursor := moved } :=
      headed_run bound
    let standing : Session σ := { before with cursor := moved }
    cases put : standing.cursor.putHeader standing.memory with
    | ok memory =>
      rw [ran, bind_ok (put_header_run put)]
      rfl
    | error fault =>
      rw [ran, bind_error (put_header_fault put)]
      rfl
  | _ => cases aims

theorem guarding_holds (packed : layout.Packed) (known : layout.fields[id]? = some slot)
    (keyed : slot.attrs.key = true) (guarding : before.Guarding layout place slot key recent) :
    before.HoldsKey owner place id slot key := by
  obtain ⟨stands, locked, content, -⟩ := guarding
  refine ⟨stands.placed, locked, ?_, ?_, ?_, ?_⟩
  · rw [load_content packed known stands.holds, content]
  · intro operation alters
    exact locked_refuses stands.shape locked known keyed alters
  · intro operation there fault aims failed
    exact move_stays aims failed
  · intro operation there moved aims bound
    refine ⟨move_leaves aims bound, ?_⟩
    obtain ⟨-, -, rfl⟩ := Cursor.move_ok.mp bound
    exact ⟨rfl, rfl⟩

end HoldsKey

end Session

theorem locked_key_stays {schema : Schema} {layout : Layout}
    (built : Layout.build schema = .ok layout) (narrow : layout.extent < UInt64.size)
    {σ : Type} {owner : IndexOwner σ} {reports : Bool} {start : Session σ}
    (reached : start.Reached owner layout reports) {place : Place}
    (bound : start.cursor.place = some place) {id : Nat} {slot : FieldSlot}
    (known : layout.fields[id]? = some slot) (keyed : slot.attrs.key = true) :
    ∃ key, place.buffer.load start.memory (place.ofSlot slot) slot.length = .ok key ∧
      ∀ (recent : Bool) (session : Session σ), Session.Locked owner place start recent session →
        session.HoldsKey owner place id slot key := by
  obtain ⟨packed, -⟩ := Layout.build_packed built narrow
  have stands := (reached_grounded reached).stands place bound
  refine ⟨_, load_content packed known stands.holds start.memory, fun recent session locked => ?_⟩
  exact Session.guarding_holds packed known keyed
    (Session.locked_guarding packed known keyed stands locked)

theorem label_reached : labelSession.Reached indexOwner Layout.labelLayout true := by
  let unbound : Session (List ValueIndex) :=
    { labelSession with cursor := { layout := Layout.labelLayout, reports := true } }
  have moved : labelSession =
    stateOf ((CursorOperation.bind labelPlace.buffer 3).run indexOwner unbound) := rfl
  rw [moved]
  refine .worked (.created rfl) ?_
  rintro buffer ⟨⟩
  rw [View.Fits]
  decide

-- While the key is locked, the turn of the label is advanced and that is undone, and it is tried to
-- move to another view.
theorem label_key_stays :
    ∃ start session, start.Reached indexOwner Layout.labelLayout true ∧
      start.cursor.place = some labelPlace ∧
      Session.Locked indexOwner labelPlace start true session ∧
      session.HoldsKey indexOwner labelPlace 0
        { name := "id", type := .int64, offset := 8, length := 8, attrs := { key := true } }
        [7, 0, 0, 0, 0, 0, 0, 0] := by
  let run (session : Session (List ValueIndex)) (operation : CursorOperation) :=
    stateOf (operation.run indexOwner session)
  let start := run labelSession (.write 0 (.int64 7))
  have reached : start.Reached indexOwner Layout.labelLayout true := .worked label_reached nofun
  let begun := run (run start .lockKey) .begin
  let session := run (run (run begun (.advance 3)) .rollback) (.bind ⟨0, 0, 32, Capabilities.all⟩ 0)
  have locked : Session.Locked indexOwner labelPlace start true session := by
    have saved : Session.Locked indexOwner labelPlace start true begun := .begun .taken rfl
    have undone : Session.Locked indexOwner labelPlace start true
        (run (run begun (.advance 3)) .rollback) :=
      .worked (.worked saved nofun nofun) nofun fun _ => rfl
    refine .worked undone ?_ nofun
    rintro there ⟨⟩
    exact ⟨.bindElsewhere, by decide +kernel⟩
  obtain ⟨key, found, holds⟩ := @locked_key_stays _ _ Layout.label_built (by decide) _ indexOwner _ _
    reached labelPlace rfl 0 _ rfl rfl
  have same : [7, 0, 0, 0, 0, 0, 0, 0] = key := Except.ok.inj (Eq.trans (by decide +kernel) found)
  rw [same]
  exact ⟨start, session, reached, rfl, locked, holds true session locked⟩

end RecordStore
