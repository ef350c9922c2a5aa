import RecordStore.Proofs.Lock

namespace RecordStore

variable {σ : Type}

-- What a rollback is to put back after an operation, if before it was `saved`. A move drops it as soon
-- as the cursor is moved, whatever becomes of the header after that; nothing else that fails drops it.
def CursorOperation.saves (operation : CursorOperation) (before : Session σ)
    (answer : Except Fault CursorAnswer) (saved : Option Bytes) : Option Bytes :=
  match operation.destination? with
  | some there =>
    match before.cursor.bind there.buffer there.offset with
    | .ok _ => none
    | .error _ => saved
  | none =>
    match operation, answer with
    | .begin, .ok _ => before.cursor.bytes before.memory
    | .commit, .ok _ | .rollback, .ok (.truth true) => none
    | _, _ => saved

namespace Session

-- Everything that can become of a cursor that is moved to buffers in memory only, while others change
-- memory and the owner as they like, with the bytes of the record at the latest begin of a
-- transaction that is still open.
inductive Remembers (owner : IndexOwner σ) (layout : Layout) (reports : Bool) :
    Option Bytes → Session σ → Prop
  | created {cursor memory state notices}
      (made : Cursor.create (some layout) reports = .ok cursor) :
      Remembers owner layout reports none { cursor, memory, owner := state, notices }
  | worked {saved : Option Bytes} {session after : Session σ} {operation : CursorOperation}
      {answer : Except Fault CursorAnswer}
      (remembers : Remembers owner layout reports saved session)
      (inside : ∀ buffer, operation.target? = some buffer → buffer.Fits session.memory)
      (ran : operation.run owner session = outcome answer after) :
      Remembers owner layout reports (operation.saves session answer saved) after
  | changed {saved : Option Bytes} {session : Session σ} {memory state notices}
      (remembers : Remembers owner layout reports saved session)
      (grows : session.memory.Grows memory) :
      Remembers owner layout reports saved { session with memory, owner := state, notices }

structure Remembering (layout : Layout) (saved : Option Bytes) (session : Session σ) : Prop where
  grounded : session.Grounded layout
  snapshot : session.cursor.snapshot = saved
  record : ∀ bytes, saved = some bytes →
    bytes.length = layout.stride.toNat ∧ ∃ place, session.cursor.place = some place

section Remembering

variable {owner : IndexOwner σ} {layout : Layout} {reports : Bool} {before after : Session σ}
  {operation : CursorOperation} {answer : Except Fault CursorAnswer} {saved : Option Bytes}
  {there : Place}

theorem move_remembering (remembering : before.Remembering layout saved)
    (aims : operation.destination? = some there)
    (ran : operation.run owner before = outcome answer after) (grounded : after.Grounded layout) :
    after.Remembering layout (operation.saves before answer saved) := by
  have ended : stateOf (operation.run owner before) = after := by rw [ran, state_of_outcome]
  rw [CursorOperation.saves.eq_def, aims]
  dsimp only
  cases bound : before.cursor.bind there.buffer there.offset with
  | error fault =>
    rw [move_stays aims bound] at ended
    rw [← ended]
    exact remembering
  | ok moved =>
    have left : after.cursor = moved := by
      rw [← ended]
      exact move_leaves aims bound
    obtain ⟨-, -, rfl⟩ := Cursor.move_ok.mp bound
    refine ⟨grounded, ?_, nofun⟩
    rw [left]

theorem begin_saves {place : Place} {bytes : Bytes} (grounded : before.Grounded layout)
    (placed : before.cursor.place = some place)
    (found : place.buffer.load before.memory place.offset before.cursor.layout.stride = .ok bytes) :
    before.cursor.bytes before.memory = some bytes ∧ bytes.length = layout.stride.toNat := by
  have stands := grounded.stands place placed
  obtain ⟨-, same⟩ := View.load_ok.mp found
  rw [grounded.shape] at found
  refine ⟨?_, (saved_record stands.fits found).1⟩
  rw [Cursor.bytes, placed, ← same]
  rfl

theorem change_remembering {reply : CursorAnswer} (remembering : before.Remembering layout saved)
    (change : Change owner before operation reply after) (grounded : after.Grounded layout) :
    after.Remembering layout (operation.saves before (.ok reply) saved) := by
  obtain ⟨standing, snapshot, record⟩ := remembering
  have stays : ∀ bytes, saved = some bytes → bytes.length = layout.stride.toNat ∧
      ∃ place, after.cursor.place = some place := by
    rw [Table.change_place change]
    exact record
  cases change with
  | begun placed found =>
    obtain ⟨same, length⟩ := begin_saves standing placed found
    refine ⟨grounded, same.symm, fun bytes begun => ?_⟩
    cases same.symm.trans begun
    exact ⟨length, _, placed⟩
  | committed | restored => exact ⟨grounded, rfl, nofun⟩
  | asked asks =>
    cases operation with
    | headerMatches | header | read | readAll | readAs => exact ⟨grounded, snapshot, stays⟩
    | _ => cases asks
  | refused writes | written writes =>
    rcases writes with rfl | ⟨text, rfl, -⟩ <;> exact ⟨grounded, snapshot, stays⟩
  | _ => exact ⟨grounded, snapshot, stays⟩

theorem worked_remembering (remembering : before.Remembering layout saved)
    (inside : ∀ buffer, operation.target? = some buffer → buffer.Fits before.memory)
    (ran : operation.run owner before = outcome answer after) :
    after.Remembering layout (operation.saves before answer saved) := by
  have grounded := @worked_grounded _ owner _ _ _ remembering.grounded inside
  rw [ran, state_of_outcome] at grounded
  cases aims : operation.destination? with
  | some there => exact move_remembering remembering aims ran grounded
  | none =>
    have stays : operation.moves = false := by
      cases operation with
      | bind | bindHeader => cases aims
      | _ => rfl
    rcases operation_changes owner operation before stays with
      ⟨fault, failed⟩ | ⟨reply, left, answered, change⟩
    · cases answer with
      | ok => cases ran.symm.trans failed
      | error =>
        cases ran.symm.trans failed
        cases operation with
        | bind | bindHeader => cases aims
        | _ => exact remembering
    · cases answer with
      | error => cases ran.symm.trans answered
      | ok =>
        cases ran.symm.trans answered
        exact change_remembering remembering change grounded

theorem remembers_remembering (remembers : before.Remembers owner layout reports saved) :
    before.Remembering layout saved := by
  induction remembers with
  | created made =>
    cases made
    exact ⟨⟨rfl, nofun⟩, rfl, nofun⟩
  | worked _ inside ran ih => exact worked_remembering ih inside ran
  -- The copy is the cursor's own, so nobody else can change it.
  | changed _ grows ih => exact ⟨changed_grounded ih.grounded grows _ _, ih.snapshot, ih.record⟩

theorem reached_remembers (reached : before.Reached owner layout reports) :
    ∃ saved, before.Remembers owner layout reports saved := by
  induction reached with
  | created made => exact ⟨none, .created made⟩
  | @worked session operation _ inside ih =>
    obtain ⟨saved, remembers⟩ := ih
    obtain ⟨answer, after, ran, -⟩ := operation_outcome owner operation session
    refine ⟨operation.saves session answer saved, ?_⟩
    rw [ran, state_of_outcome]
    exact .worked remembers inside ran
  | changed _ grows ih =>
    obtain ⟨saved, remembers⟩ := ih
    exact ⟨saved, .changed remembers grows⟩

end Remembering

structure Restores (owner : IndexOwner σ) (place : Place) (bytes : Bytes)
    (before after : Session σ) : Prop where
  ran : CursorOperation.rollback.run owner before = .ok (.truth true) after
  back : place.buffer.peek after.memory place.offset before.cursor.layout.stride = bytes
  elsewhere : ∀ region pos : Nat, region ≠ place.buffer.region ∨
    pos < place.buffer.start + place.offset.toNat ∨
    place.buffer.start + place.offset.toNat + before.cursor.layout.stride.toNat ≤ pos →
      (after.memory.region region)[pos]? = (before.memory.region region)[pos]?
  kept : after = { before with
    cursor := { before.cursor with snapshot := none }, memory := after.memory }
  again : CursorOperation.rollback.run owner after = .ok (.truth false) after

section Restores

variable {owner : IndexOwner σ} {layout : Layout} {before : Session σ} {place : Place} {bytes : Bytes}

theorem rollback_idle (clear : before.cursor.snapshot = none) :
    CursorOperation.rollback.run owner before = .ok (.truth false) before := by
  have ran : before.cursor.rollback before.memory =
      .ok (false, before.cursor, before.memory) := by
    rw [Cursor.rollback, clear]
  exact tried_run rfl ran rfl

theorem rollback_barred (saved : before.cursor.snapshot = some bytes)
    (placed : before.cursor.place = some place) (fixed : place.buffer.isMutable = false) :
    CursorOperation.rollback.run owner before = .error (.recordReadOnly .rollback) before := by
  have failed : before.cursor.rollback before.memory = .error (.recordReadOnly .rollback) := by
    rw [Cursor.rollback, saved]
    dsimp only
    rw [Cursor.buffer_placed placed, fixed]
    rfl
  exact tried_fault rfl failed

theorem rollback_puts (saved : before.cursor.snapshot = some bytes)
    (stands : before.cursor.On layout before.memory place)
    (length : bytes.length = layout.stride.toNat) (writable : place.buffer.isMutable = true) :
    CursorOperation.rollback.run owner before = .ok (.truth true) { before with
      cursor := { before.cursor with snapshot := none }
      memory := place.buffer.poke before.memory place.offset bytes } := by
  have small : bytes.length < UInt64.size := by
    rw [length]
    exact layout.stride.toNat_lt
  have room : place.buffer.inBounds place.offset bytes.length.toUInt64 = true := by
    rw [View.in_bounds_small small, length]
    exact stands.holds
  have put : place.buffer.store before.memory place.offset bytes =
    .ok (place.buffer.poke before.memory place.offset bytes) := View.store_ok.mpr ⟨writable, room, rfl⟩
  have ran : before.cursor.rollback before.memory = .ok (true,
      { before.cursor with snapshot := none },
      place.buffer.poke before.memory place.offset bytes) := by
    rw [Cursor.rollback, saved]
    dsimp only
    rw [Cursor.buffer_placed stands.placed, Cursor.offset_placed stands.placed, writable, put]
    rfl
  exact tried_run rfl ran rfl

theorem remembering_restores (remembering : before.Remembering layout (some bytes))
    (placed : before.cursor.place = some place) (writable : place.buffer.isMutable = true) :
    ∃ after, before.Restores owner place bytes after := by
  have stands := remembering.grounded.stands place placed
  obtain ⟨length, -⟩ := remembering.record bytes rfl
  have holds := stands.holds
  rw [← stands.shape] at length holds
  refine ⟨_, rollback_puts remembering.snapshot ⟨rfl, placed, holds, stands.fits⟩ length writable, ?_,
    ?_, rfl, rollback_idle rfl⟩
  · exact View.peek_poke _ _ _ _ stands.fits holds length
  · intro region pos apart
    apply View.poke_elsewhere
    rw [length]
    exact apart

end Restores

end Session

theorem rollback_restores {owner : IndexOwner σ} {layout : Layout} {reports : Bool}
    {saved : Option Bytes} {session : Session σ}
    (remembers : session.Remembers owner layout reports saved) :
    session.cursor.pending = saved.isSome ∧
    (saved = none → CursorOperation.rollback.run owner session = .ok (.truth false) session) ∧
    ∀ bytes, saved = some bytes → ∃ place, session.cursor.place = some place ∧
      (place.buffer.isMutable = true → ∃ after, session.Restores owner place bytes after) ∧
      (place.buffer.isMutable = false → ∃ fault,
        CursorOperation.rollback.run owner session = .error fault session ∧
          fault.kind = .illegalState) := by
  have remembering := Session.remembers_remembering remembers
  refine ⟨?_, ?_, ?_⟩
  · rw [Cursor.pending, remembering.snapshot]
  · rintro rfl
    exact Session.rollback_idle remembering.snapshot
  · rintro bytes rfl
    obtain ⟨-, place, placed⟩ := remembering.record bytes rfl
    refine ⟨place, placed, fun writable => ?_, fun fixed => ?_⟩
    · exact Session.remembering_restores remembering placed writable
    · exact ⟨_, Session.rollback_barred remembering.snapshot placed fixed, rfl⟩

theorem label_remembers : labelSession.Remembers indexOwner Layout.labelLayout true none := by
  let unbound : Session (List ValueIndex) :=
    { labelSession with cursor := { layout := Layout.labelLayout, reports := true } }
  have created : unbound.Remembers indexOwner Layout.labelLayout true none := .created rfl
  have inside : labelPlace.buffer.Fits unbound.memory := by
    rw [View.Fits]
    decide
  have moved : (CursorOperation.bind labelPlace.buffer 3).run indexOwner unbound =
    outcome (.ok .done) labelSession := rfl
  refine .worked created ?_ moved
  rintro buffer ⟨⟩
  exact inside

theorem label_rolled_back :
    ∃ session watched : Session (List ValueIndex), ∃ bytes : Bytes,
      session.Remembers indexOwner Layout.labelLayout true (some bytes) ∧
      watched.Remembers indexOwner Layout.labelLayout true (some bytes) ∧
      bytes ≠ labelPlace.buffer.peek session.memory 3 24 ∧
      (∃ after, session.Restores indexOwner labelPlace bytes after) ∧
      ∃ fault, CursorOperation.rollback.run indexOwner watched = .error fault watched := by
  let run (session : Session (List ValueIndex)) (operation : CursorOperation) :=
    stateOf (operation.run indexOwner session)
  let bytes := labelPlace.buffer.peek labelMemory 3 24
  let soiled := labelPlace.buffer.poke labelMemory 5 [9, 9]
  let away : CursorOperation := .bind ⟨0, 0, 32, Capabilities.all⟩ 0
  let watch : CursorOperation := .bind labelPlace.buffer.readOnly 3
  let begun : Session (List ValueIndex) := { run labelSession .begin with memory := soiled }
  let locked := run begun .lockKey
  let session := run locked away
  let watched := run (run labelSession watch) .begin
  have inside (buffer : View) (fits : buffer.Fits labelMemory) : buffer.Fits soiled :=
    View.fits_alike fits (View.poke_alike _ _ _ _)
  have grows : labelMemory.Grows soiled := fun id =>
    Nat.le_of_eq (View.poke_alike labelPlace.buffer labelMemory 5 [9, 9] id).symm
  have opened : (run labelSession .begin).Remembers indexOwner Layout.labelLayout true (some bytes) := by
    have ran : CursorOperation.begin.run indexOwner labelSession =
      outcome (.ok .done) (run labelSession .begin) := rfl
    exact .worked label_remembers (by rintro buffer ⟨⟩) ran
  have remembers : session.Remembers indexOwner Layout.labelLayout true (some bytes) := by
    have locks : CursorOperation.lockKey.run indexOwner begun = outcome (.ok .done) locked := rfl
    have stays : away.run indexOwner locked = outcome (.error .bindElsewhere) session := rfl
    have held : locked.Remembers indexOwner Layout.labelLayout true (some bytes) :=
      .worked (opened.changed grows) (by rintro buffer ⟨⟩) locks
    refine held.worked ?_ stays
    rintro buffer ⟨⟩
    apply inside
    rw [View.Fits]
    decide
  have looks : watched.Remembers indexOwner Layout.labelLayout true (some bytes) := by
    have moves : watch.run indexOwner labelSession = outcome (.ok .done) (run labelSession watch) := rfl
    have begins : CursorOperation.begin.run indexOwner (run labelSession watch) =
      outcome (.ok .done) watched := rfl
    have moved : (run labelSession watch).Remembers indexOwner Layout.labelLayout true none := by
      refine .worked label_remembers ?_ moves
      rintro buffer ⟨⟩
      rw [View.Fits]
      decide
    exact moved.worked (by rintro buffer ⟨⟩) begins
  obtain ⟨-, -, puts⟩ := rollback_restores remembers
  obtain ⟨-, -, bars⟩ := rollback_restores looks
  obtain ⟨place, placed, restored, -⟩ := puts bytes rfl
  obtain ⟨seen, standing, -, barred⟩ := bars bytes rfl
  cases placed
  cases standing
  obtain ⟨fault, failed, -⟩ := barred (by decide)
  exact ⟨session, watched, bytes, remembers, looks, by decide +kernel, restored (by decide), fault,
    failed⟩

end RecordStore
